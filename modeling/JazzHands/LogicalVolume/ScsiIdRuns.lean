import JazzHands.Library.Runs
import JazzHands.LogicalVolume.ScsiId

/-!
# Where the SCSI ids agree

An `UPDATE` of the value always fails, since the triggers name a table alias and a column that do
not exist.  A link does not carry the id of the logical volume over to the component.
-/

namespace JazzHands.ScsiId

open Postgres RowStatement Library

/-- The values of the SCSI id of a logical volume. -/
def Db.scsiIdOfLogicalVolume (db : Db) (l : ℕ) : List (Option String) :=
  (db.logicalVolumeProperty.filter fun r => r.IsScsiIdOf l).map (·.logicalVolumePropertyValue)

/-- The values of the SCSI id of a component. -/
def Db.scsiIdOfComponent (db : Db) (c : ℕ) : List (Option String) :=
  (db.componentProperty.filter fun r => r.IsScsiIdOf c).map (·.propertyValue)

/-- A logical volume and its component have no SCSI id, or the same. -/
def Agree (db : Db) : Prop :=
  ∀ k ∈ db.virtualComponentLogicalVolume,
    (db.scsiIdOfLogicalVolume k.logicalVolumeId = [] ∧ db.scsiIdOfComponent k.componentId = []) ∨
      ∃ value, db.scsiIdOfLogicalVolume k.logicalVolumeId = [value] ∧
        db.scsiIdOfComponent k.componentId = [value]

/-- The constraints; a component has one SCSI id at most. -/
structure Keyed (cat : Catalog) (db : Db) : Prop where
  property : (db.logicalVolumeProperty.map LogicalVolumeProperty.key).Nodup
  link : (db.virtualComponentLogicalVolume.map (·.componentId)).Nodup
  linkComponent : ∀ k ∈ db.virtualComponentLogicalVolume,
    k.componentId ∈ cat.component.map (·.componentId)
  linkLogicalVolume : ∀ k ∈ db.virtualComponentLogicalVolume,
    k.logicalVolumeId ∈ cat.logicalVolume.map (·.logicalVolumeId)
  single : ∀ c, (db.scsiIdOfComponent c).length ≤ 1

/-- What the keys allow. -/
def Allowed (cat : Catalog) (db : Db) : ScsiStatement → Prop
  | .insertLogicalVolumeProperty l fs value =>
    checkLogicalVolumeProperty cat db.logicalVolumeProperty ⟨l, fs, "SCSI_Id", value⟩ = .ok ()
  | .insertComponentProperty c _ =>
    c ∈ cat.component.map (·.componentId) ∧ db.scsiIdOfComponent c = []
  | .insertVirtualComponentLogicalVolume new =>
    checkVirtualComponentLogicalVolume cat db.virtualComponentLogicalVolume new = .ok ()
  | _ => True

/-- It succeeds, and the SCSI ids agree. -/
def Claimed (cat : Catalog) (db : Db) (s : ScsiStatement) : Prop :=
  Allowed cat db s → ∃ db', s.execute cat db = .ok db' ∧ Agree db'

/-- Properties of the file system type of the logical volume may have the name. -/
def Catalog.PermitsScsiId (cat : Catalog) (l : ℕ) : Prop :=
  ∀ lv ∈ cat.logicalVolume, lv.logicalVolumeId = l → cat.Permits "SCSI_Id" lv.filesystemType

/-- The statement is one that the triggers carry over. -/
def Copies (cat : Catalog) (db : Db) : ScsiStatement → Prop
  | .insertLogicalVolumeProperty l _ value =>
    ∀ k ∈ db.virtualComponentLogicalVolume, k.logicalVolumeId = l →
      IsValid value ∧ cat.IsStorage k.componentId
  | .updateLogicalVolumeProperty l _ => db.scsiIdOfLogicalVolume l = []
  | .insertComponentProperty c value => IsValid value ∧ cat.IsStorage c ∧
    ∀ k ∈ db.virtualComponentLogicalVolume, k.componentId = c →
      cat.PermitsScsiId k.logicalVolumeId ∧
        ∀ k' ∈ db.virtualComponentLogicalVolume, k'.logicalVolumeId = k.logicalVolumeId → k' = k
  | .updateComponentProperty c _ => db.scsiIdOfComponent c = []
  | .insertVirtualComponentLogicalVolume new =>
    db.scsiIdOfLogicalVolume new.logicalVolumeId = db.scsiIdOfComponent new.componentId ∨
      db.scsiIdOfLogicalVolume new.logicalVolumeId = [] ∧
        cat.PermitsScsiId new.logicalVolumeId ∧
          ∀ k ∈ db.virtualComponentLogicalVolume, k.logicalVolumeId ≠ new.logicalVolumeId
  | .deleteLogicalVolumeProperty _ => True
  | .deleteComponentProperty _ => True

instance (cat : Catalog) (l : ℕ) : Decidable (cat.PermitsScsiId l) :=
  inferInstanceAs (Decidable (∀ lv ∈ cat.logicalVolume, _))

instance (cat : Catalog) (db : Db) : DecidablePred (Copies cat db)
  | .insertLogicalVolumeProperty _ _ _ =>
    inferInstanceAs (Decidable (∀ k ∈ db.virtualComponentLogicalVolume, _))
  | .updateLogicalVolumeProperty l _ =>
    inferInstanceAs (Decidable (db.scsiIdOfLogicalVolume l = []))
  | .insertComponentProperty _ _ => inferInstanceAs (Decidable (_ ∧ _ ∧
      ∀ k ∈ db.virtualComponentLogicalVolume, _ → _ ∧ ∀ k' ∈ db.virtualComponentLogicalVolume, _))
  | .updateComponentProperty c _ => inferInstanceAs (Decidable (db.scsiIdOfComponent c = []))
  | .insertVirtualComponentLogicalVolume _ => inferInstanceAs (Decidable (_ ∨ _ ∧ _ ∧
      ∀ k ∈ db.virtualComponentLogicalVolume, _))
  | .deleteLogicalVolumeProperty _ => isTrue trivial
  | .deleteComponentProperty _ => isTrue trivial

variable {cat : Catalog} {db db' : Db} {depth l c : ℕ} {value : Option String}

/-! ## The values -/

theorem mem_scsiIdOfLogicalVolume : value ∈ db.scsiIdOfLogicalVolume l ↔
    ∃ r ∈ db.logicalVolumeProperty, r.IsScsiIdOf l ∧ r.logicalVolumePropertyValue = value := by
  simp [Db.scsiIdOfLogicalVolume, and_assoc]

theorem mem_scsiIdOfComponent : value ∈ db.scsiIdOfComponent c ↔
    ∃ r ∈ db.componentProperty, r.IsScsiIdOf c ∧ r.propertyValue = value := by
  simp [Db.scsiIdOfComponent, and_assoc]

theorem scsiIdOfLogicalVolume_eq_nil : db.scsiIdOfLogicalVolume l = [] ↔
    ∀ r ∈ db.logicalVolumeProperty, ¬ r.IsScsiIdOf l := by
  simp [Db.scsiIdOfLogicalVolume]

theorem scsiIdOfComponent_eq_nil : db.scsiIdOfComponent c = [] ↔
    ∀ r ∈ db.componentProperty, ¬ r.IsScsiIdOf c := by
  simp [Db.scsiIdOfComponent]

theorem length_scsiIdOfComponent :
    (db.scsiIdOfComponent c).length = db.componentProperty.countP fun r => r.IsScsiIdOf c := by
  rw [Db.scsiIdOfComponent, List.length_map, List.countP_eq_length_filter]

variable {r : LogicalVolumeProperty} {rows t : List LogicalVolumeProperty}
  {exec : Db → Statement → Result Db} {cp old : ComponentProperty} {fs : Option String}
  {k new : VirtualComponentLogicalVolume} {cond p : LogicalVolumeProperty → Bool}
  {u : List ComponentProperty} {q : ComponentProperty → Bool} {s : ScsiStatement}

theorem isScsiIdOf_iff_key :
    r.IsScsiIdOf l ↔ r.key = (l, "SCSI_Id") := by
  simp [LogicalVolumeProperty.IsScsiIdOf, LogicalVolumeProperty.key]

theorem Keyed.length_scsiIdOfLogicalVolume (h : Keyed cat db) (l : ℕ) :
    (db.scsiIdOfLogicalVolume l).length ≤ 1 := by
  have hcount := List.nodup_iff_count_le_one.mp h.property (l, "SCSI_Id")
  rw [Db.scsiIdOfLogicalVolume, List.length_map, ← List.countP_eq_length_filter]
  rw [List.count, List.countP_map] at hcount
  refine Nat.le_trans (Nat.le_of_eq ?_) hcount
  refine List.countP_congr fun r _ => ?_
  simp [isScsiIdOf_iff_key]

/-- Lists of one element at most that have the same elements. -/
theorem same_iff {s t : List (Option String)} (hs : s.length ≤ 1) (ht : t.length ≤ 1) :
    ((s = [] ∧ t = []) ∨ ∃ value, s = [value] ∧ t = [value]) ↔
      ∀ value, value ∈ s ↔ value ∈ t := by
  match s, t, hs, ht with
  | [], [], _, _ => simp
  | [], [b], _, _ => simp
  | [a], [], _, _ => simp
  | [a], [b], _, _ =>
    constructor
    · intro h value
      simp at h
      simp [h]
    · intro h
      have hab : a = b := by simpa using (h a).mp List.mem_cons_self
      simp [hab]

theorem Keyed.agree_iff (h : Keyed cat db) : Agree db ↔ ∀ k ∈ db.virtualComponentLogicalVolume,
    ∀ value, value ∈ db.scsiIdOfLogicalVolume k.logicalVolumeId ↔
      value ∈ db.scsiIdOfComponent k.componentId :=
  forall₂_congr fun _ _ => same_iff (h.length_scsiIdOfLogicalVolume _) (h.single _)

/-! ## Copies that stop -/

theorem withoutConflict_eq_nil (h : ∀ new ∈ rows, ∃ r ∈ t, r.key = new.key)
    : withoutConflict t rows = [] := by
  induction rows with
  | nil => rfl
  | cons new rows ih =>
    rw [withoutConflict, if_pos (h new List.mem_cons_self)]
    exact ih fun new' hnew' => h new' (List.mem_cons_of_mem _ hnew')

/-- Rows whose keys are taken are not inserted, and no trigger fires. -/
theorem insertDoNothing_eq_self (h : ∀ new ∈ rows, ∃ r ∈ db.logicalVolumeProperty, r.key = new.key) :
    execute cat (depth + 1) db (.insertDoNothing rows) = .ok db := by
  rw [execute, withoutConflict_eq_nil h]
  rfl

/-- The logical volumes of the component of a new row all have the property. -/
def Settled (db : Db) (new : ComponentProperty) : Prop :=
  ∀ k ∈ db.virtualComponentLogicalVolume, k.componentId = new.componentId →
    ∃ r ∈ db.logicalVolumeProperty, r.key = (k.logicalVolumeId, new.componentPropertyName)

theorem componentPropertySync_settled {new : ComponentProperty} (h : Settled db new) :
    componentPropertyScsiIdLogicalVolumeSync cat (execute cat (depth + 1)) db (.insert new) =
      .ok db := by
  show (if _ then _ else _) = _
  split_ifs with hname
  · rfl
  · refine insertDoNothing_eq_self fun row hrow => ?_
    simp only [List.mem_flatMap, List.mem_filter, List.mem_map, decide_eq_true_eq] at hrow
    obtain ⟨k, ⟨hk, hc⟩, lv, ⟨-, hlv⟩, rfl⟩ := hrow
    rw [LogicalVolumeProperty.key, hlv]
    exact h k hk hc

theorem componentPropertyTriggers_settled {rows : List ComponentProperty}
    (h : ∀ new ∈ rows, Settled db new) :
    (rows.map RowEvent.insert).foldlM
        (componentPropertyTriggers cat (execute cat (depth + 1))) db =
      (rows.forM (validateComponentProperty cat db.componentProperty) >>= fun _ => .ok db) := by
  induction rows with
  | nil => rfl
  | cons new rows ih =>
    have hrest := ih fun new' hnew' => h new' (List.mem_cons_of_mem _ hnew')
    rw [List.map_cons, List.foldlM_cons, componentPropertyTriggers,
      componentPropertySync_settled (h new List.mem_cons_self)]
    show ((validateComponentProperty cat db.componentProperty new >>= fun _ => .ok db) >>= _) =
      ((validateComponentProperty cat db.componentProperty new >>= fun _ => rows.forM _) >>= _)
    rw [bind_assoc, bind_assoc]
    exact bind_congr fun _ => hrest

theorem insertComponentProperty_settled {rows : List ComponentProperty}
    (hfk : ∀ new ∈ rows, new.componentId ∈ cat.component.map (·.componentId))
    (h : ∀ new ∈ rows, Settled db new) :
    execute cat (depth + 2) db (.componentProperty (.insert rows)) =
      (rows.forM (validateComponentProperty cat (db.componentProperty ++ rows)) >>= fun _ =>
        .ok { db with componentProperty := db.componentProperty ++ rows }) := by
  have hrows : insertRows (checkComponentProperty cat) db.componentProperty rows =
      .ok (db.componentProperty ++ rows) := by
    refine insertRows_of_forall fun new hnew l => ?_
    rw [checkComponentProperty, raiseIf_eq_ok, not_not]
    exact hfk new hnew
  rw [execute, RowStatement.execute, hrows]
  exact componentPropertyTriggers_settled h

/-! ## Copies that come back -/

theorem countP_sameProperty (t : List ComponentProperty) :
    (t.countP fun r => (⟨c, "disk", "SCSI_Id", value⟩ : ComponentProperty).SameProperty r) =
      t.countP fun r => r.IsScsiIdOf c := by
  refine List.countP_congr fun r _ => ?_
  rw [decide_eq_true_eq, decide_eq_true_eq, ComponentProperty.SameProperty,
    ComponentProperty.IsScsiIdOf]
  tauto

theorem validateValue_ok_iff : validateValue value = .ok () ↔ IsValid value := by
  cases value with
  | none => simp [validateValue, IsValid]
  | some text => simp [validateValue, IsValid]

theorem validateComponentProperty_ok_iff {t : List ComponentProperty} :
    validateComponentProperty cat t ⟨c, "disk", "SCSI_Id", value⟩ = .ok () ↔
      (t.countP fun r => r.IsScsiIdOf c) ≤ 1 ∧ IsValid value ∧ cat.IsStorage c := by
  rw [validateComponentProperty, bind_unit_eq_ok, bind_unit_eq_ok, raiseIf_eq_ok, raiseIf_eq_ok,
    countP_sameProperty, Nat.not_lt, validateValue_ok_iff, not_not]

theorem validateComponentProperty_taken {t : List ComponentProperty}
    (h : 1 < t.countP fun r => r.IsScsiIdOf c) : ∃ err : PgError,
      validateComponentProperty cat t ⟨c, "disk", "SCSI_Id", value⟩ = .error err ∧
        err.errcode = .uniqueViolation := by
  rw [validateComponentProperty, countP_sameProperty, raiseIf, if_pos h]
  exact ⟨_, rfl, rfl⟩

theorem countP_concat (t : List ComponentProperty) :
    ((t ++ [(⟨c, "disk", "SCSI_Id", value⟩ : ComponentProperty)]).countP fun r =>
      r.IsScsiIdOf c) = (t.countP fun r => r.IsScsiIdOf c) + 1 := by
  simp [ComponentProperty.IsScsiIdOf]

theorem executeLogicalVolumeProperty_insert {new : LogicalVolumeProperty}
    (h : checkLogicalVolumeProperty cat db.logicalVolumeProperty new = .ok ()) :
    executeLogicalVolumeProperty cat exec db (.insert [new]) =
      logicalVolumePropertyScsiIdSync exec
        { db with logicalVolumeProperty := db.logicalVolumeProperty ++ [new] } (.insert new) := by
  have hrows : insertRows (checkLogicalVolumeProperty cat) db.logicalVolumeProperty [new] =
      .ok (db.logicalVolumeProperty ++ [new]) := by
    rw [insertRows, h]
    rfl
  rw [executeLogicalVolumeProperty, RowStatement.execute, hrows]
  exact foldlM_singleton

/-- The rows that the components of a logical volume get. -/
def Db.rowsFor (db : Db) (l : ℕ) (value : Option String) : List ComponentProperty :=
  (db.virtualComponentLogicalVolume.filter fun k => k.logicalVolumeId = l).map fun k =>
    ⟨k.componentId, "disk", "SCSI_Id", value⟩

theorem mem_rowsFor : cp ∈ db.rowsFor l value ↔
    ∃ k ∈ db.virtualComponentLogicalVolume, k.logicalVolumeId = l ∧
      ⟨k.componentId, "disk", "SCSI_Id", value⟩ = cp := by
  simp [Db.rowsFor, and_assoc]

theorem logicalVolumePropertySync_insert :
    logicalVolumePropertyScsiIdSync exec db (.insert ⟨l, fs, "SCSI_Id", value⟩) =
      exceptionWhen .uniqueViolation db
        (exec db (.componentProperty (.insert (db.rowsFor l value)))) := by
  rw [logicalVolumePropertyScsiIdSync]
  exact if_neg (not_not.mpr rfl)

theorem rowsFor_alone (hkeys : Keyed cat db) (hk : k ∈ db.virtualComponentLogicalVolume)
    (halone : ∀ k' ∈ db.virtualComponentLogicalVolume, k'.logicalVolumeId = k.logicalVolumeId →
      k' = k) :
    db.rowsFor k.logicalVolumeId value = [⟨k.componentId, "disk", "SCSI_Id", value⟩] := by
  have hlinks : (db.virtualComponentLogicalVolume.filter fun k' =>
      k'.logicalVolumeId = k.logicalVolumeId) = [k] := by
    rw [← filter_key hkeys.link hk]
    refine List.filter_congr fun k' hk' => decide_eq_decide.mpr ⟨fun h => ?_, fun h => ?_⟩
    · rw [halone k' hk' h]
    · rw [List.inj_on_of_nodup_map hkeys.link hk' hk h]
  rw [Db.rowsFor, hlinks, List.map_singleton]

theorem checkLogicalVolumeProperty_free (hlv : l ∈ cat.logicalVolume.map (·.logicalVolumeId))
    (hnone : db.scsiIdOfLogicalVolume l = []) (hpermits : cat.Permits "SCSI_Id" fs) :
    checkLogicalVolumeProperty cat db.logicalVolumeProperty ⟨l, fs, "SCSI_Id", value⟩ = .ok () := by
  rw [checkLogicalVolumeProperty, bind_unit_eq_ok, bind_unit_eq_ok, checkUnique, raiseIf_eq_ok,
    raiseIf_eq_ok, raiseIf_eq_ok, not_not, not_not]
  refine ⟨fun h => ?_, hlv, hpermits⟩
  obtain ⟨r, hr, hkey⟩ := h
  exact scsiIdOfLogicalVolume_eq_nil.mp hnone r hr (isScsiIdOf_iff_key.mpr hkey)

/-- The copy of the only component's SCSI id to the logical volume comes back to the component,
where it is refused and undone. -/
theorem insertDoNothing_alone (hkeys : Keyed cat db) (hk : k ∈ db.virtualComponentLogicalVolume)
    (halone : ∀ k' ∈ db.virtualComponentLogicalVolume, k'.logicalVolumeId = k.logicalVolumeId →
      k' = k) (hnone : db.scsiIdOfLogicalVolume k.logicalVolumeId = [])
    (hsome : 0 < db.componentProperty.countP fun r => r.IsScsiIdOf k.componentId)
    (hpermits : cat.Permits "SCSI_Id" fs) :
    execute cat (depth + 3) db (.insertDoNothing [⟨k.logicalVolumeId, fs, "SCSI_Id", value⟩]) =
      .ok { db with logicalVolumeProperty :=
        db.logicalVolumeProperty ++ [⟨k.logicalVolumeId, fs, "SCSI_Id", value⟩] } := by
  have hcheck : checkLogicalVolumeProperty cat db.logicalVolumeProperty
      ⟨k.logicalVolumeId, fs, "SCSI_Id", value⟩ = .ok () :=
    checkLogicalVolumeProperty_free (hkeys.linkLogicalVolume k hk) hnone hpermits
  have hnew : withoutConflict db.logicalVolumeProperty
      [⟨k.logicalVolumeId, fs, "SCSI_Id", value⟩] =
        [⟨k.logicalVolumeId, fs, "SCSI_Id", value⟩] := by
    rw [withoutConflict, if_neg fun h => ?_, withoutConflict]
    obtain ⟨r, hr, hkey⟩ := h
    exact scsiIdOfLogicalVolume_eq_nil.mp hnone r hr (isScsiIdOf_iff_key.mpr hkey)
  have hcount : 1 < (db.componentProperty ++
      [(⟨k.componentId, "disk", "SCSI_Id", value⟩ : ComponentProperty)]).countP fun r =>
        r.IsScsiIdOf k.componentId := by
    rw [countP_concat]
    omega
  obtain ⟨err, hvalid, herr⟩ : ∃ err : PgError, validateComponentProperty cat _
      ⟨k.componentId, "disk", "SCSI_Id", value⟩ = .error err ∧ _ :=
    validateComponentProperty_taken hcount
  rw [execute, hnew, executeLogicalVolumeProperty_insert hcheck, logicalVolumePropertySync_insert,
    ← herr]
  refine exceptionWhen_eq_before ?_
  show execute cat (depth + 2) _ (.componentProperty (.insert (db.rowsFor k.logicalVolumeId _))) = _
  rw [rowsFor_alone hkeys hk halone, insertComponentProperty_settled]
  · show ((validateComponentProperty _ _ _ >>= fun _ => [].forM _) >>= fun _ => _) = _
    rw [hvalid]
    rfl
  · simpa using hkeys.linkComponent k hk
  · intro new hnew k' hk' hc
    obtain rfl := List.mem_singleton.mp hnew
    obtain rfl := List.inj_on_of_nodup_map hkeys.link hk' hk hc
    exact ⟨_, List.mem_append_right _ List.mem_cons_self, rfl⟩

/-! ## Deletes -/

theorem delete_eq_self {ρ : Type} {t : List ρ} {cond : ρ → Bool} (h : ∀ r ∈ t, cond r = false) :
    (t.filter fun r => !cond r) = t ∧ (RowStatement.delete cond).events t = [] := by
  constructor
  · exact List.filter_eq_self.mpr fun r hr => by rw [h r hr]; rfl
  · rw [events, List.filter_eq_nil_iff.mpr fun r hr => by simp [h r hr]]
    rfl

theorem deleteLogicalVolumeProperty_none (h : ∀ r ∈ db.logicalVolumeProperty, cond r = false) :
    execute cat (depth + 1) db (.logicalVolumeProperty (.delete cond)) = .ok db := by
  obtain ⟨hrows, hevents⟩ := delete_eq_self h
  rw [execute, executeLogicalVolumeProperty, RowStatement.execute, hevents, hrows]
  rfl

/-- The logical volume has no such property with this value. -/
def Gone (db : Db) (old : ComponentProperty) : Prop :=
  ∀ k ∈ db.virtualComponentLogicalVolume, k.componentId = old.componentId →
    ∀ r ∈ db.logicalVolumeProperty, r.key = (k.logicalVolumeId, old.componentPropertyName) →
      r.logicalVolumePropertyValue ≠ old.propertyValue

theorem deleteComponentProperty_gone {cond : ComponentProperty → Bool}
    (h : ∀ old ∈ db.componentProperty, cond old = true → Gone db old) :
    execute cat (depth + 2) db (.componentProperty (.delete cond)) =
      .ok { db with componentProperty := db.componentProperty.filter fun r => !cond r } := by
  rw [execute, RowStatement.execute]
  refine foldlM_stays fun e he => ?_
  obtain ⟨old, hold, rfl⟩ := List.mem_map.mp he
  have hgone := h old (List.mem_filter.mp hold).1 (List.mem_filter.mp hold).2
  rw [componentPropertyTriggers, componentPropertyScsiIdLogicalVolumeSync,
    deleteLogicalVolumeProperty_none]
  · rfl
  · refine fun r hr => decide_eq_false fun hcond => ?_
    obtain ⟨⟨k, hk, hc, hl⟩, hname, hvalue⟩ := hcond
    refine hgone k hk hc r hr ?_ hvalue
    rw [LogicalVolumeProperty.key, hl, hname]

/-- The component stands behind the logical volume. -/
def Db.Linked (db : Db) (l c : ℕ) : Prop :=
  ∃ k ∈ db.virtualComponentLogicalVolume, k.logicalVolumeId = l ∧ k.componentId = c
  deriving Decidable

/-- The property of the components goes with that of their logical volume. -/
theorem deleteLogicalVolumeProperty_one {old : LogicalVolumeProperty} (hkeys : Keyed cat db)
    (hold : old.IsScsiIdOf l) (hcond : db.logicalVolumeProperty.filter cond = [old]) :
    execute cat (depth + 3) db (.logicalVolumeProperty (.delete cond)) = .ok { db with
      logicalVolumeProperty := db.logicalVolumeProperty.filter fun r => !cond r
      componentProperty := db.componentProperty.filter fun cp =>
        !decide (db.Linked l cp.componentId ∧ cp.componentPropertyName = "SCSI_Id" ∧
          cp.componentPropertyType = "disk" ∧
            cp.propertyValue = old.logicalVolumePropertyValue) } := by
  obtain ⟨rfl, hname⟩ := hold
  have hmem : old ∈ db.logicalVolumeProperty.filter cond := hcond ▸ List.mem_singleton_self old
  rw [execute, executeLogicalVolumeProperty, RowStatement.execute, events, hcond,
    List.map_singleton]
  refine foldlM_singleton.trans ?_
  rw [logicalVolumePropertyScsiIdSync, deleteComponentProperty_gone, hname]
  · rfl
  · intro cp _ hdel k hk hc r hr hkey _
    obtain ⟨⟨k', hk', hl, hc'⟩, hcp, -⟩ := of_decide_eq_true hdel
    obtain rfl := List.inj_on_of_nodup_map hkeys.link hk hk' (hc.trans hc'.symm)
    obtain ⟨hr, hkept⟩ := List.mem_filter.mp hr
    -- the row that is left would have the key of the deleted one
    have hkey' : r.key = old.key := by
      rw [hkey, LogicalVolumeProperty.key, hl, hcp]
    obtain rfl := List.inj_on_of_nodup_map hkeys.property hr (List.mem_filter.mp hmem).1 hkey'
    simp [(List.mem_filter.mp hmem).2] at hkept

/-! ## What statements leave -/

/-- The constraints hold and the ids agree. -/
structure Sound (cat : Catalog) (db : Db) : Prop extends Keyed cat db where
  agree : Agree db

theorem Sound.mem_iff (h : Sound cat db) (hk : k ∈ db.virtualComponentLogicalVolume) :
    value ∈ db.scsiIdOfLogicalVolume k.logicalVolumeId ↔
      value ∈ db.scsiIdOfComponent k.componentId :=
  h.toKeyed.agree_iff.mp h.agree k hk value

theorem Sound.eq (h : Sound cat db) (hk : k ∈ db.virtualComponentLogicalVolume) :
    db.scsiIdOfLogicalVolume k.logicalVolumeId = db.scsiIdOfComponent k.componentId := by
  rcases h.agree k hk with ⟨hl, hc⟩ | ⟨value, hl, hc⟩
  · rw [hl, hc]
  · rw [hl, hc]

theorem Keyed.of_rows (h : Keyed cat db) (ht : (t.map LogicalVolumeProperty.key).Nodup)
    (hu : ∀ c, (u.countP fun r => r.IsScsiIdOf c) ≤ 1) :
    Keyed cat { db with logicalVolumeProperty := t, componentProperty := u } where
  property := ht
  link := h.link
  linkComponent := h.linkComponent
  linkLogicalVolume := h.linkLogicalVolume
  single c := by
    rw [length_scsiIdOfComponent]
    exact hu c

theorem Keyed.countP_le (h : Keyed cat db) (c : ℕ) :
    (db.componentProperty.countP fun r => r.IsScsiIdOf c) ≤ 1 := by
  rw [← length_scsiIdOfComponent]
  exact h.single c

theorem Keyed.of_sublist (h : Keyed cat db) (ht : t.Sublist db.logicalVolumeProperty)
    (hu : u.Sublist db.componentProperty) :
    Keyed cat { db with logicalVolumeProperty := t, componentProperty := u } :=
  h.of_rows (h.property.sublist (ht.map _)) fun c => Nat.le_trans hu.countP_le (h.countP_le c)

theorem Sound.filter (h : Sound cat db) (hpq : ∀ k ∈ db.virtualComponentLogicalVolume,
      ((∀ r ∈ db.logicalVolumeProperty, r.IsScsiIdOf k.logicalVolumeId → p r = true) ∧
        ∀ r ∈ db.componentProperty, r.IsScsiIdOf k.componentId → q r = true) ∨
      ((∀ r ∈ db.logicalVolumeProperty, r.IsScsiIdOf k.logicalVolumeId → p r = false) ∧
        ∀ r ∈ db.componentProperty, r.IsScsiIdOf k.componentId → q r = false)) :
    Sound cat { db with
      logicalVolumeProperty := db.logicalVolumeProperty.filter p
      componentProperty := db.componentProperty.filter q } := by
  have hkeys := h.toKeyed.of_sublist (t := db.logicalVolumeProperty.filter p)
    (u := db.componentProperty.filter q) List.filter_sublist List.filter_sublist
  refine ⟨hkeys, hkeys.agree_iff.mpr fun k hk value => ?_⟩
  have hiff : value ∈ _ ↔ _ := h.mem_iff hk
  rw [mem_scsiIdOfLogicalVolume, mem_scsiIdOfComponent] at hiff ⊢
  simp only [List.mem_filter, and_assoc]
  rcases hpq k hk with ⟨hp, hq⟩ | ⟨hp, hq⟩
  · refine Iff.trans (exists_congr fun r => ?_) (hiff.trans (exists_congr fun r => ?_))
    · exact and_congr_right fun hr => and_iff_right_of_imp fun hid => hp r hr hid.1
    · exact and_congr_right fun hr => (and_iff_right_of_imp fun hid => hq r hr hid.1).symm
  · refine iff_of_false (fun hex => ?_) fun hex => ?_
    · obtain ⟨r, hr, hkept, hid, -⟩ := hex
      simp [hp r hr hid] at hkept
    · obtain ⟨r, hr, hkept, hid, -⟩ := hex
      simp [hq r hr hid] at hkept

theorem Sound.value_eq (h : Sound cat db) (hk : k ∈ db.virtualComponentLogicalVolume)
    (hr : r ∈ db.logicalVolumeProperty) (hid : r.IsScsiIdOf k.logicalVolumeId)
    (hcp : cp ∈ db.componentProperty) (hcid : cp.IsScsiIdOf k.componentId)
    : cp.propertyValue = r.logicalVolumePropertyValue := by
  have hl := mem_scsiIdOfLogicalVolume.mpr ⟨r, hr, hid, rfl⟩
  have hc := mem_scsiIdOfComponent.mpr ⟨cp, hcp, hcid, rfl⟩
  rcases h.agree k hk with ⟨hnil, -⟩ | ⟨value, hvalue, hvalue'⟩
  · simp [hnil] at hl
  · rw [hvalue, List.mem_singleton] at hl
    rw [hvalue', List.mem_singleton] at hc
    rw [hl, hc]

theorem Sound.clear (h : Sound cat db)
    (hp : ∀ r ∈ db.logicalVolumeProperty, p r = !decide (r.IsScsiIdOf l))
    (hq : ∀ cp ∈ db.componentProperty, ∀ c, cp.IsScsiIdOf c →
      ∀ k ∈ db.virtualComponentLogicalVolume, k.componentId = c →
        (q cp = false ↔ k.logicalVolumeId = l)) :
    Sound cat { db with
      logicalVolumeProperty := db.logicalVolumeProperty.filter p
      componentProperty := db.componentProperty.filter q } := by
  refine h.filter fun k hk => ?_
  by_cases hl : k.logicalVolumeId = l
  · refine .inr ⟨fun r hr hid => ?_, fun cp hcp hid => (hq cp hcp _ hid k hk rfl).mpr hl⟩
    rw [hp r hr, Bool.not_eq_false', decide_eq_true_eq]
    exact hl ▸ hid
  · refine .inl ⟨fun r hr hid => ?_, fun cp hcp hid => ?_⟩
    · rw [hp r hr, Bool.not_eq_true', decide_eq_false_iff_not]
      exact fun hid' => hl (hid.1.symm.trans hid'.1)
    · rw [← Bool.not_eq_false, hq cp hcp _ hid k hk rfl]
      exact hl

theorem Keyed.filter_scsiIdOf (h : Keyed cat db) {old : LogicalVolumeProperty}
    (hmem : old ∈ db.logicalVolumeProperty) (hold : old.IsScsiIdOf l)
    (hcond : ∀ r, cond r = true → r.IsScsiIdOf l) (hself : cond old = true)
    : db.logicalVolumeProperty.filter cond = [old] := by
  rw [← filter_key h.property hmem]
  refine List.filter_congr fun r hr => ?_
  rw [Bool.eq_iff_iff, decide_eq_true_eq]
  constructor
  · intro hc
    rw [isScsiIdOf_iff_key.mp (hcond r hc), isScsiIdOf_iff_key.mp hold]
  · intro hkey
    rwa [List.inj_on_of_nodup_map h.property hr hmem hkey]

theorem Sound.deleteLogicalVolumeProperty (h : Sound cat db) (l : ℕ) : ∃ db',
    (ScsiStatement.deleteLogicalVolumeProperty l).execute cat db = .ok db' ∧ Sound cat db' := by
  by_cases hex : ∃ old ∈ db.logicalVolumeProperty, old.IsScsiIdOf l
  · obtain ⟨old, hmem, hold⟩ := hex
    have hrows : db.logicalVolumeProperty.filter (fun r => r.IsScsiIdOf l) = [old] :=
      h.filter_scsiIdOf hmem hold (fun r hr => of_decide_eq_true hr) (decide_eq_true hold)
    refine ⟨_, deleteLogicalVolumeProperty_one h.toKeyed hold hrows,
      h.clear (fun _ _ => rfl) fun cp hcp c hid k hk hc => ?_⟩
    subst hc
    rw [Bool.not_eq_false', decide_eq_true_eq]
    constructor
    · rintro ⟨⟨k', hk', hl', hc'⟩, -⟩
      obtain rfl := List.inj_on_of_nodup_map h.link hk hk' (hid.1.symm.trans hc'.symm)
      exact hl'
    · intro hl
      subst hl
      exact ⟨⟨k, hk, rfl, hid.1.symm⟩, hid.2.2, hid.2.1, h.value_eq hk hmem hold hcp hid⟩
  · refine ⟨db, deleteLogicalVolumeProperty_none fun r hr => decide_eq_false fun hid => ?_, h⟩
    exact hex ⟨r, hr, hid⟩

theorem Keyed.filter_component (h : Keyed cat db) (hmem : old ∈ db.componentProperty)
    (hold : old.IsScsiIdOf c) :
    db.componentProperty.filter (fun r => r.IsScsiIdOf c) = [old] := by
  have hsingle := h.single c
  have hold : old ∈ db.componentProperty.filter fun r => r.IsScsiIdOf c :=
    List.mem_filter.mpr ⟨hmem, decide_eq_true hold⟩
  rw [Db.scsiIdOfComponent, List.length_map] at hsingle
  match hfilter : db.componentProperty.filter fun r => r.IsScsiIdOf c with
  | [] => simp [hfilter] at hold
  | [r] => simpa [hfilter, eq_comm] using hold
  | r :: r' :: rest => simp [hfilter] at hsingle

/-- The tables when only the row of the component has gone. -/
def Db.withoutScsiId (db : Db) (c : ℕ) : Db :=
  { db with componentProperty := db.componentProperty.filter fun r => !decide (r.IsScsiIdOf c) }

theorem deleteComponentProperty_eq (hkeys : Keyed cat db) (hmem : old ∈ db.componentProperty)
    (hold : old.IsScsiIdOf c) :
    (ScsiStatement.deleteComponentProperty c).execute cat db =
      componentPropertyScsiIdLogicalVolumeSync cat (execute cat 99) (db.withoutScsiId c)
        (.delete old) := by
  show ScsiId.execute cat (99 + 1) db (.componentProperty (.delete _)) = _
  rw [ScsiId.execute, RowStatement.execute, events, hkeys.filter_component hmem hold,
    List.map_singleton]
  exact foldlM_singleton.trans (bind_pure _)

section

variable (h : Sound cat db) (hmem : old ∈ db.componentProperty) (hold : old.IsScsiIdOf c)
include h hmem hold

theorem Sound.deleteLinked (hk : k ∈ db.virtualComponentLogicalVolume) (hc : k.componentId = c) :
    ∃ db',
      (ScsiStatement.deleteComponentProperty c).execute cat db = .ok db' ∧ Sound cat db' := by
  have hone : ∀ k' ∈ db.virtualComponentLogicalVolume, k'.componentId = c → k' = k :=
    fun k' hk' hc' => List.inj_on_of_nodup_map h.link hk' hk (hc'.trans hc.symm)
  have hvalue : old.propertyValue ∈ db.scsiIdOfLogicalVolume k.logicalVolumeId :=
    (h.mem_iff hk).mpr (mem_scsiIdOfComponent.mpr ⟨old, hmem, hc ▸ hold, rfl⟩)
  obtain ⟨r, hr, hid, heq⟩ := mem_scsiIdOfLogicalVolume.mp hvalue
  have hkeys : Keyed cat (db.withoutScsiId c) :=
    h.toKeyed.of_sublist (List.Sublist.refl _) List.filter_sublist
  -- the trigger deletes the SCSI id of the logical volume
  have hcond : ∀ r' ∈ db.logicalVolumeProperty, ((∃ k ∈ db.virtualComponentLogicalVolume,
      k.componentId = old.componentId ∧ k.logicalVolumeId = r'.logicalVolumeId) ∧
      r'.logicalVolumePropertyName = old.componentPropertyName ∧
      r'.logicalVolumePropertyValue = old.propertyValue) ↔ r'.IsScsiIdOf k.logicalVolumeId := by
    refine fun r' hr' => ⟨fun hdel => ?_, fun hid' => ?_⟩
    · obtain ⟨⟨k', hk', hc', hl'⟩, hname, -⟩ := hdel
      rw [hone k' hk' (hc'.trans hold.1)] at hl'
      exact ⟨hl'.symm, hname.trans hold.2.2⟩
    · have hvalue' := h.value_eq hk hr' hid' hmem (hc ▸ hold)
      exact ⟨⟨k, hk, hc.trans hold.1.symm, hid'.1.symm⟩, hid'.2.trans hold.2.2.symm, hvalue'.symm⟩
  rw [deleteComponentProperty_eq h.toKeyed hmem hold, componentPropertyScsiIdLogicalVolumeSync,
    deleteLogicalVolumeProperty_one hkeys hid]
  · refine ⟨_, rfl, ?_⟩
    show Sound cat { db with
      logicalVolumeProperty := db.logicalVolumeProperty.filter _
      componentProperty := (db.componentProperty.filter _).filter _ }
    rw [List.filter_filter]
    refine h.clear (l := k.logicalVolumeId) (fun r' hr' => ?_) fun cp hcp c' hcid k' hk' hc' => ?_
    · exact congrArg not (decide_eq_decide.mpr (hcond r' hr'))
    · subst hc'
      rw [Bool.and_eq_false_iff, Bool.not_eq_false', Bool.not_eq_false', decide_eq_true_eq,
        decide_eq_true_eq]
      constructor
      · rintro (⟨⟨k'', hk'', hl, hc''⟩, -⟩ | hcid')
        · rw [← hl, List.inj_on_of_nodup_map h.link hk' hk'' (hcid.1.symm.trans hc''.symm)]
        · rw [hone k' hk' (hcid.1.symm.trans hcid'.1)]
      · intro hl
        refine .inl ⟨⟨k', hk', hl, hcid.1.symm⟩, hcid.2.2, hcid.2.1, ?_⟩
        exact h.value_eq hk' hr (hl ▸ hid) hcp hcid
  · refine Eq.trans ?_ (h.filter_scsiIdOf hr hid (fun r' hr' => of_decide_eq_true hr')
      (decide_eq_true hid))
    exact List.filter_congr fun r' hr' => decide_eq_decide.mpr (hcond r' hr')

theorem Sound.deleteUnlinked (hlink : ∀ k ∈ db.virtualComponentLogicalVolume, k.componentId ≠ c) :
    ∃ db',
      (ScsiStatement.deleteComponentProperty c).execute cat db = .ok db' ∧ Sound cat db' := by
  rw [deleteComponentProperty_eq h.toKeyed hmem hold, componentPropertyScsiIdLogicalVolumeSync,
    deleteLogicalVolumeProperty_none]
  · refine ⟨_, rfl, ?_⟩
    have hsound := h.filter (p := fun _ => true) (q := fun r => !decide (r.IsScsiIdOf c)) ?_
    · rwa [List.filter_true] at hsound
    · refine fun k hk => .inl ⟨fun _ _ _ => rfl, fun r _ hr => ?_⟩
      rw [Bool.not_eq_true', decide_eq_false_iff_not]
      exact fun hr' => hlink k hk (hr.1.symm.trans hr'.1)
  · refine fun r hr => decide_eq_false fun hcond => ?_
    obtain ⟨⟨k, hk, hc, -⟩, -⟩ := hcond
    exact hlink k hk (hc.trans hold.1)

end

theorem Sound.deleteComponentProperty (h : Sound cat db) (c : ℕ) : ∃ db',
    (ScsiStatement.deleteComponentProperty c).execute cat db = .ok db' ∧ Sound cat db' := by
  by_cases hex : ∃ old ∈ db.componentProperty, old.IsScsiIdOf c
  · obtain ⟨old, hmem, hold⟩ := hex
    by_cases hlink : ∃ k ∈ db.virtualComponentLogicalVolume, k.componentId = c
    · obtain ⟨k, hk, hc⟩ := hlink
      exact h.deleteLinked hmem hold hk hc
    · exact h.deleteUnlinked hmem hold fun k hk hc => hlink ⟨k, hk, hc⟩
  · have hnone : ∀ r ∈ db.componentProperty, decide (r.IsScsiIdOf c) = false :=
      fun r hr => decide_eq_false fun hid => hex ⟨r, hr, hid⟩
    refine ⟨db, ?_, h⟩
    show ScsiId.execute cat (98 + 2) db (.componentProperty (.delete _)) = _
    rw [deleteComponentProperty_gone fun r hr hid => ?_, (delete_eq_self hnone).1]
    simp [hnone r hr] at hid

theorem Sound.append (h : Sound cat db)
    (ht : ((db.logicalVolumeProperty ++ t).map LogicalVolumeProperty.key).Nodup)
    (hu : ∀ c, ((db.componentProperty ++ u).countP fun r => r.IsScsiIdOf c) ≤ 1)
    (htu : ∀ k ∈ db.virtualComponentLogicalVolume, ∀ value,
      (∃ r ∈ t, r.IsScsiIdOf k.logicalVolumeId ∧ r.logicalVolumePropertyValue = value) ↔
        ∃ r ∈ u, r.IsScsiIdOf k.componentId ∧ r.propertyValue = value) :
    Sound cat { db with
      logicalVolumeProperty := db.logicalVolumeProperty ++ t
      componentProperty := db.componentProperty ++ u } := by
  have hkeys := h.toKeyed.of_rows ht hu
  refine ⟨hkeys, hkeys.agree_iff.mpr fun k hk value => ?_⟩
  have hiff : value ∈ _ ↔ _ := h.mem_iff hk
  rw [mem_scsiIdOfLogicalVolume, mem_scsiIdOfComponent] at hiff ⊢
  simp only [List.mem_append, or_and_right, exists_or]
  exact or_congr hiff (htu k hk value)

theorem countP_eq_zero_iff :
    (db.componentProperty.countP fun r => r.IsScsiIdOf c) = 0 ↔ db.scsiIdOfComponent c = [] := by
  rw [← length_scsiIdOfComponent, List.length_eq_zero_iff]

theorem Keyed.countP_rowsFor (h : Keyed cat db) :
    ((db.rowsFor l value).countP fun r => r.IsScsiIdOf c) ≤ 1 := by
  have hcount := List.nodup_iff_count_le_one.mp h.link c
  rw [List.count, List.countP_map] at hcount
  rw [Db.rowsFor, List.countP_map]
  refine Nat.le_trans (List.Sublist.countP_le List.filter_sublist) (Nat.le_trans ?_ hcount)
  refine List.countP_mono_left fun k _ hk => ?_
  simpa [ComponentProperty.IsScsiIdOf] using hk

theorem Sound.insertLogicalVolumeProperty (h : Sound cat db)
    (hallowed : Allowed cat db (.insertLogicalVolumeProperty l fs value))
    (hcopies : Copies cat db (.insertLogicalVolumeProperty l fs value)) : ∃ db',
      (ScsiStatement.insertLogicalVolumeProperty l fs value).execute cat db = .ok db' ∧
        Sound cat db' := by
  have hfree : ∀ r ∈ db.logicalVolumeProperty, r.key ≠ (l, "SCSI_Id") := fun r hr hkey =>
    raiseIf_eq_ok.mp (bind_unit_eq_ok.mp hallowed).1 ⟨r, hr, hkey⟩
  have hnone : db.scsiIdOfLogicalVolume l = [] :=
    scsiIdOfLogicalVolume_eq_nil.mpr fun r hr hid => hfree r hr (isScsiIdOf_iff_key.mp hid)
  have hcount : ∀ c, ((db.componentProperty ++ db.rowsFor l value).countP fun r =>
      r.IsScsiIdOf c) ≤ 1 := by
    intro c
    rw [List.countP_append]
    by_cases hlink : db.Linked l c
    · obtain ⟨k, hk, rfl, rfl⟩ := hlink
      rw [countP_eq_zero_iff.mpr ((h.eq hk).symm.trans hnone), Nat.zero_add]
      exact h.countP_rowsFor
    · have hzero : ((db.rowsFor l value).countP fun r => r.IsScsiIdOf c) = 0 := by
        rw [List.countP_eq_zero]
        intro r hr hid
        obtain ⟨k, hk, hl, rfl⟩ := mem_rowsFor.mp hr
        exact hlink ⟨k, hk, hl, (of_decide_eq_true hid).1⟩
      have hle := h.countP_le c
      omega
  refine ⟨_, ?_, h.append (t := [⟨l, fs, "SCSI_Id", value⟩]) ?_ hcount ?_⟩
  · show execute cat (99 + 1) db (.logicalVolumeProperty (.insert [_])) = _
    rw [execute, executeLogicalVolumeProperty_insert hallowed, logicalVolumePropertySync_insert]
    refine Eq.trans (congrArg _ ?_) exceptionWhen_ok
    show execute cat (97 + 2) _ (.componentProperty (.insert (db.rowsFor l value))) = _
    rw [insertComponentProperty_settled]
    · refine bind_unit_eq_ok.mpr ⟨forM_eq_ok.mpr fun r hr => ?_, rfl⟩
      obtain ⟨k, hk, hl, rfl⟩ := mem_rowsFor.mp hr
      exact validateComponentProperty_ok_iff.mpr ⟨hcount _, hcopies k hk hl⟩
    · intro r hr
      obtain ⟨k, hk, -, rfl⟩ := mem_rowsFor.mp hr
      exact h.linkComponent k hk
    · intro r hr k' hk' hc
      obtain ⟨k, hk, rfl, rfl⟩ := mem_rowsFor.mp hr
      obtain rfl := List.inj_on_of_nodup_map h.link hk' hk hc
      exact ⟨_, List.mem_append_right _ List.mem_cons_self, rfl⟩
  · exact nodup_concat h.property fun r hr hkey => hfree r hr hkey
  · intro k hk value'
    constructor
    · rintro ⟨r, hr, hid, rfl⟩
      obtain rfl := List.mem_singleton.mp hr
      exact ⟨_, mem_rowsFor.mpr ⟨k, hk, hid.1.symm, rfl⟩, ⟨rfl, rfl, rfl⟩, rfl⟩
    · rintro ⟨r, hr, hid, rfl⟩
      obtain ⟨k', hk', rfl, rfl⟩ := mem_rowsFor.mp hr
      obtain rfl := List.inj_on_of_nodup_map h.link hk' hk hid.1
      exact ⟨_, List.mem_cons_self, ⟨rfl, rfl⟩, rfl⟩

theorem executeComponentProperty_insert {new : ComponentProperty}
    (hfk : new.componentId ∈ cat.component.map (·.componentId)) :
    execute cat (depth + 1) db (.componentProperty (.insert [new])) =
      componentPropertyTriggers cat (execute cat depth)
        { db with componentProperty := db.componentProperty ++ [new] } (.insert new) := by
  have hrows : insertRows (checkComponentProperty cat) db.componentProperty [new] =
      .ok (db.componentProperty ++ [new]) := by
    refine insertRows_of_forall fun r hr t => ?_
    obtain rfl := List.mem_singleton.mp hr
    rwa [checkComponentProperty, raiseIf_eq_ok, not_not]
  rw [execute, RowStatement.execute, hrows]
  exact foldlM_singleton

/-- The file system type that the logical volume of a link has. -/
theorem Keyed.exists_filesystemType (h : Keyed cat db) (hk : k ∈ db.virtualComponentLogicalVolume)
    : ∃ lv ∈ cat.logicalVolume,
      lv.logicalVolumeId = k.logicalVolumeId ∧
        (cat.logicalVolume.filter fun lv => lv.logicalVolumeId = k.logicalVolumeId) = [lv] := by
  obtain ⟨lv, hlv, heq⟩ := List.mem_map.mp (h.linkLogicalVolume k hk)
  exact ⟨lv, hlv, heq, heq ▸ filter_key cat.logicalVolumeKey hlv⟩

/-- The SCSI id of a component goes to its logical volume. -/
theorem componentPropertySync_alone (hkeys : Keyed cat db)
    (hk : k ∈ db.virtualComponentLogicalVolume)
    (halone : ∀ k' ∈ db.virtualComponentLogicalVolume, k'.logicalVolumeId = k.logicalVolumeId →
      k' = k) (hnone : db.scsiIdOfLogicalVolume k.logicalVolumeId = [])
    (hsome : 0 < db.componentProperty.countP fun r => r.IsScsiIdOf k.componentId)
    (hpermits : cat.PermitsScsiId k.logicalVolumeId) : ∃ fs,
    componentPropertyScsiIdLogicalVolumeSync cat (execute cat (depth + 3)) db
        (.insert ⟨k.componentId, "disk", "SCSI_Id", value⟩) =
      .ok { db with logicalVolumeProperty :=
        db.logicalVolumeProperty ++ [⟨k.logicalVolumeId, fs, "SCSI_Id", value⟩] } := by
  obtain ⟨lv, hlv, hid, hfilter⟩ := hkeys.exists_filesystemType hk
  refine ⟨lv.filesystemType, ?_⟩
  rw [componentPropertyScsiIdLogicalVolumeSync, if_neg (by simp), filter_key hkeys.link hk]
  dsimp only
  rw [List.flatMap_singleton, hfilter, List.map_singleton, hid]
  exact insertDoNothing_alone hkeys hk halone hnone hsome (hpermits lv hlv hid)

theorem Sound.insertComponentProperty (h : Sound cat db)
    (hallowed : Allowed cat db (.insertComponentProperty c value))
    (hcopies : Copies cat db (.insertComponentProperty c value)) : ∃ db',
      (ScsiStatement.insertComponentProperty c value).execute cat db = .ok db' ∧
        Sound cat db' := by
  obtain ⟨hfk, hnone⟩ := hallowed
  obtain ⟨hvalid, hstorage, hlinks⟩ := hcopies
  have hzero := countP_eq_zero_iff.mpr hnone
  have hcount : ∀ c', ((db.componentProperty ++
      [(⟨c, "disk", "SCSI_Id", value⟩ : ComponentProperty)]).countP fun r =>
        r.IsScsiIdOf c') ≤ 1 := by
    intro c'
    by_cases hc : c' = c
    · rw [hc, countP_concat]
      omega
    · simpa [ComponentProperty.IsScsiIdOf, Ne.symm hc] using h.countP_le c'
  have hvalidate := validateComponentProperty_ok_iff.mpr ⟨hcount c, hvalid, hstorage⟩
  have hrun : (ScsiStatement.insertComponentProperty c value).execute cat db =
      componentPropertyTriggers cat (execute cat (96 + 3)) _ _ :=
    executeComponentProperty_insert hfk
  by_cases hlink : ∃ k ∈ db.virtualComponentLogicalVolume, k.componentId = c
  · obtain ⟨k, hk, rfl⟩ := hlink
    obtain ⟨hpermits, halone⟩ := hlinks k hk rfl
    have hfree : db.scsiIdOfLogicalVolume k.logicalVolumeId = [] := (h.eq hk).trans hnone
    have hkeys := h.toKeyed.of_rows h.property hcount
    obtain ⟨fs, hsync⟩ := componentPropertySync_alone hkeys hk halone hfree
      (by rw [countP_concat]; omega) hpermits
    refine ⟨_, ?_, h.append (t := [⟨k.logicalVolumeId, fs, "SCSI_Id", value⟩]) ?_ hcount ?_⟩
    · rw [hrun, componentPropertyTriggers, hsync]
      exact bind_unit_eq_ok.mpr ⟨hvalidate, rfl⟩
    · refine nodup_concat h.property fun r hr hkey => ?_
      exact scsiIdOfLogicalVolume_eq_nil.mp hfree r hr (isScsiIdOf_iff_key.mpr hkey)
    · intro k' hk' value'
      simp only [List.mem_singleton, exists_eq_left, LogicalVolumeProperty.IsScsiIdOf,
        ComponentProperty.IsScsiIdOf, and_true]
      refine and_congr_left fun _ => ⟨fun hl => ?_, fun hc => ?_⟩
      · rw [halone k' hk' hl.symm]
      · rw [List.inj_on_of_nodup_map h.link hk' hk hc.symm]
  · have hsettled : Settled { db with componentProperty :=
        db.componentProperty ++ [⟨c, "disk", "SCSI_Id", value⟩] }
          ⟨c, "disk", "SCSI_Id", value⟩ :=
      fun k hk hc => absurd ⟨k, hk, hc⟩ hlink
    refine ⟨_, ?_, h.append (t := []) ?_ hcount ?_⟩
    · rw [hrun, componentPropertyTriggers, componentPropertySync_settled hsettled, List.append_nil]
      exact bind_unit_eq_ok.mpr ⟨hvalidate, rfl⟩
    · rw [List.append_nil]
      exact h.property
    · intro k hk value'
      refine iff_of_false (by simp) fun hex => ?_
      obtain ⟨r, hr, hid, -⟩ := hex
      obtain rfl := List.mem_singleton.mp hr
      exact hlink ⟨k, hk, hid.1.symm⟩

/-- The tables with the link, before the trigger. -/
def Db.withLink (db : Db) (new : VirtualComponentLogicalVolume) : Db :=
  { db with virtualComponentLogicalVolume := db.virtualComponentLogicalVolume ++ [new] }

theorem Sound.withLink (h : Sound cat db)
    (hallowed : Allowed cat db (.insertVirtualComponentLogicalVolume new)) :
    Keyed cat (db.withLink new) := by
  obtain ⟨hkey, hfk⟩ := bind_unit_eq_ok.mp hallowed
  obtain ⟨hcomponent, hlv⟩ := bind_unit_eq_ok.mp hfk
  rw [raiseIf_eq_ok, not_not] at hcomponent hlv
  exact
    { property := h.property
      link := nodup_concat h.link (checkUnique_ok hkey)
      linkComponent := List.forall_mem_append.mpr ⟨h.linkComponent, by simpa using hcomponent⟩
      linkLogicalVolume := List.forall_mem_append.mpr ⟨h.linkLogicalVolume, by simpa using hlv⟩
      single := h.single }

theorem executeLink (hallowed : Allowed cat db (.insertVirtualComponentLogicalVolume new)) :
    (ScsiStatement.insertVirtualComponentLogicalVolume new).execute cat db =
      virtualComponentLogicalVolumeLegacySync cat (execute cat 99) (db.withLink new) new := by
  show execute cat (99 + 1) db (.virtualComponentLogicalVolume new) = _
  rw [execute, show checkVirtualComponentLogicalVolume cat _ new = .ok () from hallowed]
  rfl

theorem legacySync_eq {lv : LogicalVolume}
    (hlv : (cat.logicalVolume.filter fun lv => lv.logicalVolumeId = new.logicalVolumeId) = [lv]) :
    virtualComponentLogicalVolumeLegacySync cat exec db new =
      exec db (.insertDoNothing ((db.scsiIdOfComponent new.componentId).map fun value =>
        ⟨new.logicalVolumeId, lv.filesystemType, "SCSI_Id", value⟩)) := by
  rw [virtualComponentLogicalVolumeLegacySync, hlv]
  congr 2
  rw [Db.scsiIdOfComponent, List.map_map, List.map_eq_flatMap]
  refine List.flatMap_congr fun cp hcp => ?_
  have hname := (of_decide_eq_true (List.mem_filter.mp hcp).2).2.2
  rw [List.map_singleton, hname]
  rfl

theorem Sound.linkSame (h : Sound cat db)
    (hallowed : Allowed cat db (.insertVirtualComponentLogicalVolume new))
    (hsame : db.scsiIdOfLogicalVolume new.logicalVolumeId =
      db.scsiIdOfComponent new.componentId) : ∃ db',
      (ScsiStatement.insertVirtualComponentLogicalVolume new).execute cat db = .ok db' ∧
        Sound cat db' := by
  have hkeys := h.withLink hallowed
  obtain ⟨lv, hlv, hid, hfilter⟩ := hkeys.exists_filesystemType (k := new)
    (List.mem_append_right _ List.mem_cons_self)
  rw [executeLink hallowed, legacySync_eq hfilter]
  refine ⟨db.withLink new, insertDoNothing_eq_self fun r hr => ?_, hkeys,
    hkeys.agree_iff.mpr fun k hk value => ?_⟩
  · obtain ⟨value, hvalue, rfl⟩ := List.mem_map.mp hr
    have hvalue : value ∈ db.scsiIdOfLogicalVolume new.logicalVolumeId := hsame ▸ hvalue
    obtain ⟨r, hr, hrid, -⟩ := mem_scsiIdOfLogicalVolume.mp hvalue
    exact ⟨r, hr, isScsiIdOf_iff_key.mp hrid⟩
  · rcases List.mem_append.mp hk with hk | hk
    · exact h.mem_iff hk
    · obtain rfl := List.mem_singleton.mp hk
      show value ∈ db.scsiIdOfLogicalVolume _ ↔ value ∈ db.scsiIdOfComponent _
      rw [hsame]

theorem scsiIdOfLogicalVolume_concat {l' : ℕ} {links : List VirtualComponentLogicalVolume} :
    (⟨db.logicalVolumeProperty ++ [⟨l', fs, "SCSI_Id", value⟩], u, links⟩ :
      Db).scsiIdOfLogicalVolume l =
        db.scsiIdOfLogicalVolume l ++ if l' = l then [value] else [] := by
  by_cases hl : l' = l <;>
    simp [Db.scsiIdOfLogicalVolume, LogicalVolumeProperty.IsScsiIdOf, hl]

section

variable (h : Sound cat db) (hallowed : Allowed cat db (.insertVirtualComponentLogicalVolume new))
include h hallowed

/-- The first link of a logical volume that has no SCSI id, to a component that has one. -/
theorem Sound.linkAlone (hnone : db.scsiIdOfLogicalVolume new.logicalVolumeId = [])
    (hvalue : db.scsiIdOfComponent new.componentId = [value])
    (hpermits : cat.PermitsScsiId new.logicalVolumeId)
    (hother : ∀ k ∈ db.virtualComponentLogicalVolume,
      k.logicalVolumeId ≠ new.logicalVolumeId) : ∃ db',
      (ScsiStatement.insertVirtualComponentLogicalVolume new).execute cat db = .ok db' ∧
        Sound cat db' := by
  have hkeys := h.withLink hallowed
  have hmem : new ∈ (db.withLink new).virtualComponentLogicalVolume :=
    List.mem_append_right _ List.mem_cons_self
  obtain ⟨lv, hlv, hid, hfilter⟩ := hkeys.exists_filesystemType hmem
  have halone : ∀ k ∈ (db.withLink new).virtualComponentLogicalVolume,
      k.logicalVolumeId = new.logicalVolumeId → k = new := by
    intro k hk hl
    rcases List.mem_append.mp hk with hk | hk
    · exact absurd hl (hother k hk)
    · exact List.mem_singleton.mp hk
  have hsome : 0 < db.componentProperty.countP fun r => r.IsScsiIdOf new.componentId := by
    rw [← length_scsiIdOfComponent, hvalue]
    exact Nat.one_pos
  have hfree : ∀ r ∈ db.logicalVolumeProperty, r.key ≠ (new.logicalVolumeId, "SCSI_Id") :=
    fun r hr hkey => scsiIdOfLogicalVolume_eq_nil.mp hnone r hr (isScsiIdOf_iff_key.mpr hkey)
  have hkeys' : Keyed cat { db.withLink new with logicalVolumeProperty :=
      db.logicalVolumeProperty ++ [⟨new.logicalVolumeId, lv.filesystemType, "SCSI_Id", value⟩] } :=
    hkeys.of_rows (nodup_concat h.property fun r hr hkey => hfree r hr hkey) h.countP_le
  refine ⟨_, ?_, hkeys', fun k hk => ?_⟩
  · rw [executeLink hallowed, legacySync_eq hfilter]
    show execute cat (96 + 3) (db.withLink new) (.insertDoNothing
      ((db.scsiIdOfComponent new.componentId).map _)) = _
    rw [hvalue]
    exact insertDoNothing_alone hkeys hmem halone hnone hsome (hpermits lv hlv hid)
  · show (Db.scsiIdOfLogicalVolume _ _ = [] ∧ db.scsiIdOfComponent _ = []) ∨
      ∃ value, Db.scsiIdOfLogicalVolume _ _ = [value] ∧ db.scsiIdOfComponent _ = [value]
    rw [scsiIdOfLogicalVolume_concat]
    rcases List.mem_append.mp hk with hk | hk
    · rw [if_neg (hother k hk).symm, List.append_nil]
      exact h.agree k hk
    · obtain rfl := List.mem_singleton.mp hk
      rw [if_pos rfl, hnone]
      exact .inr ⟨value, rfl, hvalue⟩

theorem Sound.insertVirtualComponentLogicalVolume
    (hcopies : Copies cat db (.insertVirtualComponentLogicalVolume new)) : ∃ db',
      (ScsiStatement.insertVirtualComponentLogicalVolume new).execute cat db = .ok db' ∧
        Sound cat db' := by
  rcases hcopies with hsame | ⟨hnone, hpermits, hother⟩
  · exact h.linkSame hallowed hsame
  · match hscsi : db.scsiIdOfComponent new.componentId, h.single new.componentId with
    | [], _ => exact h.linkSame hallowed (hnone.trans hscsi.symm)
    | [value], _ => exact h.linkAlone hallowed hnone hscsi hpermits hother

end

/-! ## Runs -/

theorem updateLogicalVolumeProperty_none (hnone : db.scsiIdOfLogicalVolume l = []) :
    (ScsiStatement.updateLogicalVolumeProperty l value).execute cat db = .ok db := by
  have hset : ∀ r ∈ db.logicalVolumeProperty, (if r.IsScsiIdOf l then
      some { r with logicalVolumePropertyValue := value } else none) = none :=
    fun r hr => if_neg (scsiIdOfLogicalVolume_eq_nil.mp hnone r hr)
  show execute cat (99 + 1) db (.logicalVolumeProperty (.update _)) = _
  rw [execute, executeLogicalVolumeProperty, execute_update_none hset, events_update_none hset]
  rfl

theorem updateComponentProperty_none (hnone : db.scsiIdOfComponent c = []) :
    (ScsiStatement.updateComponentProperty c value).execute cat db = .ok db := by
  have hset : ∀ r ∈ db.componentProperty, (if r.IsScsiIdOf c then
      some { r with propertyValue := value } else none) = none :=
    fun r hr => if_neg (scsiIdOfComponent_eq_nil.mp hnone r hr)
  show execute cat (99 + 1) db (.componentProperty (.update _)) = _
  rw [execute, execute_update_none hset, events_update_none hset]
  rfl

/-- **What the keys allow and the triggers carry over succeeds and keeps the ids the same.** -/
theorem Sound.execute (h : Sound cat db) (hallowed : Allowed cat db s) (hcopies : Copies cat db s)
    : ∃ db', s.execute cat db = .ok db' ∧ Sound cat db' := by
  cases s with
  | insertLogicalVolumeProperty l fs value => exact h.insertLogicalVolumeProperty hallowed hcopies
  | updateLogicalVolumeProperty l value => exact ⟨db, updateLogicalVolumeProperty_none hcopies, h⟩
  | deleteLogicalVolumeProperty l => exact h.deleteLogicalVolumeProperty l
  | insertComponentProperty c value => exact h.insertComponentProperty hallowed hcopies
  | updateComponentProperty c value => exact ⟨db, updateComponentProperty_none hcopies, h⟩
  | deleteComponentProperty c => exact h.deleteComponentProperty c
  | insertVirtualComponentLogicalVolume new =>
    exact h.insertVirtualComponentLogicalVolume hallowed hcopies

theorem Sound.refused (h : Sound cat db) (hs : ¬ Allowed cat db s) :
    s.execute cat db ≠ .ok db' := by
  intro hok
  cases s with
  | insertLogicalVolumeProperty l fs value =>
    obtain ⟨rows, hrows, -⟩ := bind_eq_ok.mp hok
    exact hs (bind_unit_eq_ok.mp hrows).1
  | insertComponentProperty c value =>
    obtain ⟨rows, hrows, -⟩ := bind_eq_ok.mp hok
    have hfk := raiseIf_eq_ok.mp (bind_unit_eq_ok.mp hrows).1
    rw [not_not] at hfk
    have hsome : db.scsiIdOfComponent c ≠ [] := fun hnone => hs ⟨hfk, hnone⟩
    have hsettled : Settled { db with componentProperty :=
        db.componentProperty ++ [⟨c, "disk", "SCSI_Id", value⟩] }
          ⟨c, "disk", "SCSI_Id", value⟩ := by
      intro k hk hc
      obtain rfl : k.componentId = c := hc
      obtain ⟨old, hold⟩ := List.exists_mem_of_ne_nil _ hsome
      obtain ⟨r, hr, hid, -⟩ := mem_scsiIdOfLogicalVolume.mp ((h.mem_iff hk).mpr hold)
      exact ⟨r, hr, isScsiIdOf_iff_key.mp hid⟩
    have hrun : (ScsiStatement.insertComponentProperty c value).execute cat db =
      componentPropertyTriggers cat (ScsiId.execute cat (98 + 1)) _ _ :=
        executeComponentProperty_insert hfk
    rw [hrun, componentPropertyTriggers, componentPropertySync_settled hsettled] at hok
    have hvalid := validateComponentProperty_ok_iff.mp (bind_unit_eq_ok.mp hok).1
    have hpos : db.componentProperty.countP (fun r => r.IsScsiIdOf c) ≠ 0 :=
      fun hzero => hsome (countP_eq_zero_iff.mp hzero)
    have hle := hvalid.1
    rw [countP_concat] at hle
    omega
  | insertVirtualComponentLogicalVolume new => exact hs (bind_unit_eq_ok.mp hok).1
  | updateLogicalVolumeProperty l value => exact hs trivial
  | deleteLogicalVolumeProperty l => exact hs trivial
  | updateComponentProperty c value => exact hs trivial
  | deleteComponentProperty c => exact hs trivial

theorem Sound.step (h : Sound cat db) (hs : Allowed cat db s → Copies cat db s)
    : Sound cat (step cat db s) := by
  unfold ScsiId.step
  by_cases hallowed : Allowed cat db s
  · obtain ⟨db', hok, hsound⟩ := h.execute hallowed (hs hallowed)
    rw [hok]
    exact hsound
  · cases hok : s.execute cat db with
    | ok db' => exact absurd hok (h.refused hallowed)
    | error err => exact h

/-- **In every run of statements that the triggers carry over, what the keys allow succeeds, and the
SCSI ids of linked logical volumes and components agree.** -/
theorem claimed_run (hkeys : Keyed cat db) (h : Agree db) {l : List ScsiStatement}
    (hl : AllSteps (step cat) (fun db s => Allowed cat db s → Copies cat db s) db l) :
    AllSteps (step cat) (Claimed cat) db l := by
  refine hl.of_invariant (I := Sound cat) (fun db s hdb hs => ⟨hdb.step hs, fun hallowed => ?_⟩)
    ⟨hkeys, h⟩
  obtain ⟨db', hok, hsound⟩ := hdb.execute hallowed (hs hallowed)
  exact ⟨db', hok, hsound.agree⟩

/-! ## A virtual disk -/

def disks : Catalog where
  logicalVolume := [⟨3, some "ext4"⟩]
  component := [⟨7, ["storage"]⟩]
  valLogicalVolumeProperty := [("SCSI_Id", "ext4")]
  logicalVolumeKey := List.nodup_singleton 3

def Db.empty : Db := ⟨[], [], []⟩

theorem keyed_empty : Keyed cat Db.empty :=
  ⟨List.nodup_nil, List.nodup_nil, fun _ h => absurd h List.not_mem_nil,
    fun _ h => absurd h List.not_mem_nil, fun _ => Nat.zero_le 1⟩

theorem agree_empty : Agree Db.empty := fun _ h => absurd h List.not_mem_nil

/-- The component gets its SCSI id before it is linked; the id is removed by the other side. -/
def linking : List ScsiStatement :=
  [.insertComponentProperty 7 (some "42"), .insertVirtualComponentLogicalVolume ⟨7, 3⟩,
    .deleteLogicalVolumeProperty 3, .insertLogicalVolumeProperty 3 (some "ext4") (some "55")]

theorem claimed_linking : AllSteps (step disks) (Claimed disks) Db.empty linking :=
  claimed_run keyed_empty agree_empty
    ⟨fun _ => by decide, fun _ => by decide, fun _ => by decide, fun _ => by decide, trivial⟩

/-- The disk has the SCSI id 42 on both sides. -/
def linkedDisk : Db :=
  run (step disks) Db.empty
    [.insertVirtualComponentLogicalVolume ⟨7, 3⟩, .insertComponentProperty 7 (some "42")]

/-- The SCSI id of a logical volume cannot be given another value. -/
theorem not_claimed_update : (Keyed disks Db.empty ∧ Agree Db.empty) ∧
    ¬ AllSteps (step disks) (Claimed disks) Db.empty
      [.insertVirtualComponentLogicalVolume ⟨7, 3⟩, .insertComponentProperty 7 (some "42"),
        .updateLogicalVolumeProperty 3 (some "43")] := by
  refine ⟨⟨keyed_empty, agree_empty⟩, fun h => ?_⟩
  obtain ⟨db', hok, -⟩ : ∃ db', (ScsiStatement.updateLogicalVolumeProperty 3 (some "43")).execute
      disks linkedDisk = .ok db' ∧ Agree db' := h.2.2.1 trivial
  have hfails : ((ScsiStatement.updateLogicalVolumeProperty 3 (some "43")).execute disks
      linkedDisk).toOption = none := by decide
  rw [hok] at hfails
  cases hfails

end JazzHands.ScsiId

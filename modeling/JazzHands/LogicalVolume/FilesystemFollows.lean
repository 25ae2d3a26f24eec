import JazzHands.LogicalVolume.FilesystemCompat
import Mathlib.Tactic.MkIffOfInductiveProp

/-!
# Properties that follow a file system

What the triggers on a file system make of the properties of its logical volume.
-/

namespace JazzHands.FilesystemCompat

open Postgres RowStatement

/-! ## The mirrored properties -/

namespace Mirrored

def all : List Mirrored := [.mountPoint, .label, .serial]

theorem mem_all (n : Mirrored) : n ∈ all := by cases n <;> decide

instance {p : Mirrored → Prop} [DecidablePred p] : Decidable (∀ n, p n) :=
  decidable_of_iff (∀ n ∈ all, p n) ⟨fun h n => h n (mem_all n), fun h n _ => h n⟩

theorem text_inj {m n : Mirrored} (h : m.text = n.text) : m = n := by
  revert m n
  decide

@[simp] theorem ofText?_text (n : Mirrored) : ofText? n.text = some n := by cases n <;> decide

theorem eq_text {name : String} {n : Mirrored} (h : ofText? name = some n) : name = n.text :=
  (Library.of_find?_eq_some h).2.symm

end Mirrored

namespace Filesystem

variable (fs : Filesystem) (value : Option String) {m n : Mirrored}

@[simp] theorem get_set_self : (fs.set value n).get n = value := by cases n <;> rfl

theorem get_set_of_ne (h : m ≠ n) : (fs.set value n).get m = fs.get m := by
  cases m <;> cases n <;> first | rfl | exact absurd rfl h

@[simp] theorem set_blockStorageDeviceId :
    (fs.set value n).blockStorageDeviceId = fs.blockStorageDeviceId := by
  cases n <;> rfl

@[simp] theorem set_deviceId : (fs.set value n).deviceId = fs.deviceId := by cases n <;> rfl

@[simp] theorem set_filesystemType : (fs.set value n).filesystemType = fs.filesystemType := by
  cases n <;> rfl

@[simp] theorem set_get_self : fs.set (fs.get n) n = fs := by cases n <;> rfl

end Filesystem

/-! ## What holds -/

/-- The values of a property of a logical volume. -/
def valuesOf (rows : List LogicalVolumeProperty) (i : ℕ) (n : Mirrored) : List (Option String) :=
  (rows.filter fun r => r.Is i n).map (·.logicalVolumePropertyValue)

/-- The properties of the logical volume are exactly the columns that are not NULL. -/
def Mirrors (rows : List LogicalVolumeProperty) (i : ℕ) (fs : Filesystem) : Prop :=
  ∀ n, valuesOf rows i n = (fs.get n).toList.map some
  deriving Decidable

def Db.volumeIds (db : Db) : List ℕ := db.logicalVolume.map (·.logicalVolumeId)

theorem Db.volumeIds_setFilesystemType (db : Db) (i : ℕ) (t : String) :
    (db.setFilesystemType i t).volumeIds = db.volumeIds := by
  rw [volumeIds, setFilesystemType, List.map_map]
  refine List.map_congr_left fun lv _ => ?_
  rw [Function.comp_apply]
  split <;> rfl

def Db.volumeTypes (db : Db) : List String := db.logicalVolume.map (·.logicalVolumeType)

theorem Db.volumeTypes_setFilesystemType (db : Db) (i : ℕ) (t : String) :
    (db.setFilesystemType i t).volumeTypes = db.volumeTypes := by
  rw [volumeTypes, setFilesystemType, List.map_map]
  refine List.map_congr_left fun lv _ => ?_
  rw [Function.comp_apply]
  split <;> rfl

/-- The row has what it refers to, but for its logical volume. -/
def Catalog.Refers (cat : Catalog) (r : LogicalVolumeProperty) : Prop :=
  cat.Permits r.logicalVolumePropertyName r.filesystemType ∧
    (∀ t ∈ r.logicalVolumeType, t ∈ cat.valLogicalVolumeType) ∧
    ∀ t ∈ r.filesystemType, cat.HasType t
  deriving Decidable

/-- The properties are unique and have what they refer to. -/
@[mk_iff]
structure Rows (cat : Catalog) (volumeIds : List ℕ) (rows : List LogicalVolumeProperty) : Prop where
  apart : rows.Pairwise fun a b => ¬ b.Conflicts a
  volume : ∀ r ∈ rows, r.logicalVolumeId ∈ volumeIds
  refers : ∀ r ∈ rows, cat.Refers r

instance (cat : Catalog) (volumeIds : List ℕ) (rows : List LogicalVolumeProperty) :
    Decidable (Rows cat volumeIds rows) :=
  decidable_of_iff _ (rows_iff cat volumeIds rows).symm

variable {cat : Catalog} {db db' : Db} {rows l : List LogicalVolumeProperty}
  {r new c : LogicalVolumeProperty} {i more depth : ℕ} {m n : Mirrored} {volumeIds : List ℕ}
  {s : RowStatement LogicalVolumeProperty}

theorem conflicts_symm (a b : LogicalVolumeProperty) (h : ¬ b.Conflicts a) : ¬ a.Conflicts b := by
  rintro ⟨hname, hid, heq⟩
  exact h ⟨heq ▸ hname, hid.symm, heq.symm⟩

theorem conflicts_of_is (hr : r.Is i n) (hc : c.Is i n) : c.Conflicts r :=
  ⟨by rw [hc.2]; simp, hr.1.trans hc.1.symm, hr.2.trans hc.2.symm⟩

theorem propertyKeys_eq_ok : propertyKeys cat db l new = .ok () ↔
    (∀ c ∈ l, ¬ new.Conflicts c) ∧ new.logicalVolumeId ∈ db.volumeIds ∧ cat.Refers new := by
  simp only [propertyKeys, bind_unit_eq_ok, raiseIf_eq_ok, not_exists, not_and, not_forall, not_not,
    Db.volumeIds, List.mem_map, exists_prop, Catalog.Refers]

theorem Rows.concat (hrows : Rows cat db.volumeIds rows)
    (hnew : propertyKeys cat db rows new = .ok ()) : Rows cat db.volumeIds (rows ++ [new]) := by
  obtain ⟨hapart, hvolume, hrefers⟩ := propertyKeys_eq_ok.mp hnew
  refine ⟨pairwise_middle conflicts_symm ?_ ?_, fun r hr => ?_, fun r hr => ?_⟩
  · rw [List.append_nil]
    exact hrows.apart
  · rw [List.append_nil]
    exact hapart
  · rcases List.mem_append.mp hr with hr | hr
    · exact hrows.volume r hr
    · exact List.mem_singleton.mp hr ▸ hvolume
  · rcases List.mem_append.mp hr with hr | hr
    · exact hrows.refers r hr
    · exact List.mem_singleton.mp hr ▸ hrefers

theorem Rows.filter (hrows : Rows cat volumeIds rows) (p : LogicalVolumeProperty → Bool) :
    Rows cat volumeIds (rows.filter p) :=
  ⟨hrows.apart.sublist List.filter_sublist, fun r hr => hrows.volume r (List.mem_filter.mp hr).1,
    fun r hr => hrows.refers r (List.mem_filter.mp hr).1⟩

theorem Rows.execute (hrows : Rows cat db.volumeIds db.logicalVolumeProperty)
    (hok : s.execute (propertyKeys cat db) db.logicalVolumeProperty = .ok rows) :
    Rows cat db.volumeIds rows := by
  have hnew := execute_checked (P := fun r => r.logicalVolumeId ∈ db.volumeIds ∧ cat.Refers r)
    (fun _ _ h => (propertyKeys_eq_ok.mp h).2) hok
  have hmem : ∀ r ∈ rows, r.logicalVolumeId ∈ db.volumeIds ∧ cat.Refers r := by
    intro r hr
    rw [execute_ok hok] at hr
    rcases mem_after hr with hr | ⟨e, he, heq⟩
    · exact ⟨hrows.volume r hr, hrows.refers r hr⟩
    · exact hnew e he r heq
  have hapart := pairwise_execute conflicts_symm (fun _ _ h => (propertyKeys_eq_ok.mp h).1)
    hrows.apart hok
  exact ⟨hapart, fun r hr => (hmem r hr).1, fun r hr => (hmem r hr).2⟩

theorem Rows.filter_is (hrows : Rows cat volumeIds rows) (i : ℕ) (n : Mirrored) :
    rows.filter (fun r => r.Is i n) = [] ∨ ∃ r, rows.filter (fun r => r.Is i n) = [r] := by
  have hapart := hrows.apart.sublist (List.filter_sublist (p := fun r => decide (r.Is i n)))
  have his : ∀ r ∈ rows.filter fun r => r.Is i n, r.Is i n := fun r hr => by
    simpa using (List.mem_filter.mp hr).2
  generalize rows.filter (fun r => r.Is i n) = l at hapart his
  match l with
  | [] => exact .inl rfl
  | [r] => exact .inr ⟨r, rfl⟩
  | r :: c :: l =>
    have hconflicts := conflicts_of_is (his r (by simp)) (his c (by simp))
    exact absurd hconflicts ((List.pairwise_cons.mp hapart).1 c List.mem_cons_self)

theorem Rows.filter_of_mem (hrows : Rows cat volumeIds rows) (hr : r ∈ rows) (his : r.Is i n) :
    rows.filter (fun r => r.Is i n) = [r] := by
  have hmem : r ∈ rows.filter fun r => r.Is i n := List.mem_filter.mpr ⟨hr, by simpa using his⟩
  rcases hrows.filter_is i n with hnil | ⟨c, hc⟩
  · rw [hnil] at hmem
    exact absurd hmem List.not_mem_nil
  · rw [hc] at hmem ⊢
    rw [List.mem_singleton.mp hmem]

/-! ## Statements of triggers -/

theorem afterProperty_nested {ex : Db → Statement → Result Db} (hdepth : 2 ≤ depth)
    (e : RowEvent LogicalVolumeProperty) : afterProperty cat depth ex db e = .ok db := by
  cases e with
  | insert new => exact if_pos (.inl hdepth)
  | update old new => exact if_pos (.inl hdepth)
  | delete old => exact if_pos (.inl hdepth)

theorem execute_property (hdepth : 1 ≤ depth)
    (h : s.execute (propertyKeys cat db) db.logicalVolumeProperty = .ok rows) :
    execute cat (more + 1) depth db (.logicalVolumeProperty s) =
      .ok { db with logicalVolumeProperty := rows } := by
  rw [execute, h]
  exact foldlM_stays fun e _ => afterProperty_nested (by omega) e

/-! ## The properties after an `UPDATE` -/

section Follow

variable (lv : LogicalVolume) (old new : Filesystem)

def followTypeRow (r : LogicalVolumeProperty) : LogicalVolumeProperty :=
  if r.IsOf lv (some old.filesystemType) then
    { r with filesystemType := some new.filesystemType }
  else r

def followColumnRows (rows : List LogicalVolumeProperty) (n : Mirrored) :
    List LogicalVolumeProperty :=
  if old.get n = new.get n then rows
  else
    match new.get n with
    | none => rows.filter fun r => ¬ r.IsPropertyOf lv (some new.filesystemType) n
    | some value => rows.map fun r =>
      if r.IsPropertyOf lv (some new.filesystemType) n then
        { r with logicalVolumePropertyValue := some value }
      else r

def followRows (rows : List LogicalVolumeProperty) : List LogicalVolumeProperty :=
  [.mountPoint, .label, .serial].foldl (followColumnRows lv old new)
    (rows.map (followTypeRow lv old new))

/-- The row is found with the type of the file system, before or after. -/
def LogicalVolumeProperty.Fits (r : LogicalVolumeProperty) : Prop :=
  r.logicalVolumeType = some lv.logicalVolumeType ∧
    (r.filesystemType = some old.filesystemType ∨ r.filesystemType = some new.filesystemType)
  deriving Decidable

/-- A property that has to go is found; one that has to be there is there, and is found if it has
another value. -/
def ColumnFollows (rows : List LogicalVolumeProperty) (n : Mirrored) : Prop :=
  match new.get n with
  | none => ∀ r ∈ rows, r.Is lv.logicalVolumeId n → old.get n ≠ none ∧ r.Fits lv old new
  | some value => ∃ r ∈ rows, r.Is lv.logicalVolumeId n ∧
    (r.logicalVolumePropertyValue = some value ∨ old.get n ≠ some value ∧ r.Fits lv old new)

instance (rows : List LogicalVolumeProperty) (n : Mirrored) :
    Decidable (ColumnFollows lv old new rows n) := by
  unfold ColumnFollows
  split <;> infer_instance

/-- What an `UPDATE` of a file system asks of the properties of the logical volume. -/
@[mk_iff]
structure Follows (cat : Catalog) (rows : List LogicalVolumeProperty) : Prop where
  type : old.filesystemType ≠ new.filesystemType → ∀ r ∈ rows,
    r.IsOf lv (some old.filesystemType) →
      cat.Permits r.logicalVolumePropertyName (some new.filesystemType)
  column : ∀ n, ColumnFollows lv old new rows n

instance (cat : Catalog) (rows : List LogicalVolumeProperty) :
    Decidable (Follows lv old new cat rows) :=
  decidable_of_iff _ (follows_iff lv old new cat rows).symm

variable {lv old new}

@[simp] theorem is_followTypeRow : (followTypeRow lv old new r).Is i n ↔ r.Is i n := by
  rw [followTypeRow]
  split <;> rfl

theorem followTypeRow_of_not (h : ¬ r.IsOf lv (some old.filesystemType)) :
    followTypeRow lv old new r = r :=
  if_neg h

theorem followTypeRow_self : followTypeRow lv old old r = r := by
  rw [followTypeRow]
  split
  · rename_i hof
    obtain ⟨-, -, t, ht, hr⟩ := hof
    obtain rfl := Option.some.inj ht
    rw [← hr]
  · rfl

theorem followTypeRow_value :
    (followTypeRow lv old new r).logicalVolumePropertyValue = r.logicalVolumePropertyValue := by
  rw [followTypeRow]
  split <;> rfl

/-- A row that fits is found after the `UPDATE` of the type. -/
theorem isPropertyOf_followTypeRow (his : r.Is lv.logicalVolumeId n) (hfits : r.Fits lv old new) :
    (followTypeRow lv old new r).IsPropertyOf lv (some new.filesystemType) n := by
  obtain ⟨hid, hname⟩ := his
  obtain ⟨hlvt, hfst⟩ := hfits
  rw [followTypeRow]
  split
  · exact ⟨hname, hid, hlvt, _, rfl, rfl⟩
  · rename_i hnot
    rcases hfst with hfst | hfst
    · exact absurd ⟨hid, hlvt, _, rfl, hfst⟩ hnot
    · exact ⟨hname, hid, hlvt, _, rfl, hfst⟩

/-- What is done to the rows of one property is done to them alone. -/
theorem filter_followColumnRows :
    (followColumnRows lv old new rows m).filter (fun r => r.Is i n) =
      followColumnRows lv old new (rows.filter fun r => r.Is i n) m := by
  rw [followColumnRows, followColumnRows]
  split
  · rfl
  · split
    · rw [List.filter_filter, List.filter_filter]
      simp only [Bool.and_comm]
    · rw [List.filter_map]
      congr 1
      refine List.filter_congr fun r _ => ?_
      rw [Function.comp_apply]
      split <;> rfl

theorem filter_followRows :
    (followRows lv old new rows).filter (fun r => r.Is i n) =
      followRows lv old new (rows.filter fun r => r.Is i n) := by
  have htype : (rows.map (followTypeRow lv old new)).filter (fun r => r.Is i n) =
      (rows.filter fun r => r.Is i n).map (followTypeRow lv old new) := by
    rw [List.filter_map]
    congr 1
    exact List.filter_congr fun r _ => by simp
  simp only [followRows, List.foldl_cons, List.foldl_nil, filter_followColumnRows, htype]

theorem followColumnRows_of_not
    (h : ∀ r ∈ l, ¬ r.IsPropertyOf lv (some new.filesystemType) m) :
    followColumnRows lv old new l m = l := by
  rw [followColumnRows]
  split
  · rfl
  · split
    · exact List.filter_eq_self.mpr fun r hr => by simpa using h r hr
    · rw [List.map_congr_left fun r hr => if_neg (h r hr), List.map_id']

variable (lv old new m) in
theorem forall_is_followColumnRows (h : ∀ r ∈ l, r.Is i n) :
    ∀ r ∈ followColumnRows lv old new l m, r.Is i n := by
  intro r hr
  have hself : l.filter (fun r => r.Is i n) = l :=
    List.filter_eq_self.mpr fun r hr => by simpa using h r hr
  rw [← hself, ← filter_followColumnRows] at hr
  simpa using (List.mem_filter.mp hr).2

theorem followColumnRows_of_is (h : ∀ r ∈ l, r.Is i n) (hne : m ≠ n ∨ i ≠ lv.logicalVolumeId) :
    followColumnRows lv old new l m = l := by
  refine followColumnRows_of_not fun r hr hprop => ?_
  have his := h r hr
  rcases hne with hne | hne
  · exact hne (Mirrored.text_inj (Option.some.inj (hprop.1.symm.trans his.2)))
  · exact hne (his.1.symm.trans hprop.2.1)

theorem filter_followRows_of_ne (hne : i ≠ lv.logicalVolumeId) :
    (followRows lv old new rows).filter (fun r => r.Is i n) = rows.filter fun r => r.Is i n := by
  have his : ∀ r ∈ rows.filter fun r => r.Is i n, r.Is i n := fun r hr => by
    simpa using (List.mem_filter.mp hr).2
  have htype : (rows.filter fun r => r.Is i n).map (followTypeRow lv old new) =
      rows.filter fun r => r.Is i n := by
    rw [List.map_congr_left fun r hr => followTypeRow_of_not fun hof =>
      hne ((his r hr).1.symm.trans hof.1), List.map_id']
  rw [filter_followRows, followRows, htype]
  simp only [List.foldl_cons, List.foldl_nil, followColumnRows_of_is his (.inr hne)]

theorem filter_followRows_here :
    (followRows lv old new rows).filter (fun r => r.Is lv.logicalVolumeId n) =
      followColumnRows lv old new ((rows.filter fun r => r.Is lv.logicalVolumeId n).map
        (followTypeRow lv old new)) n := by
  have his : ∀ r ∈ (rows.filter fun r => r.Is lv.logicalVolumeId n).map (followTypeRow lv old new),
      r.Is lv.logicalVolumeId n := by
    intro r hr
    obtain ⟨c, hc, rfl⟩ := List.mem_map.mp hr
    simpa using (List.mem_filter.mp hc).2
  rw [filter_followRows, followRows]
  generalize (rows.filter fun r => r.Is lv.logicalVolumeId n).map (followTypeRow lv old new) = l
    at his
  have hcolumn := forall_is_followColumnRows n lv old new his
  cases n
  · simp only [List.foldl_cons, List.foldl_nil]
    rw [followColumnRows_of_is hcolumn (m := .label) (.inl (by decide)),
      followColumnRows_of_is hcolumn (.inl (by decide))]
  · simp only [List.foldl_cons, List.foldl_nil]
    rw [followColumnRows_of_is his (m := .mountPoint) (.inl (by decide)),
      followColumnRows_of_is his (m := .label) (.inl (by decide))]
  · simp only [List.foldl_cons, List.foldl_nil]
    rw [followColumnRows_of_is his (m := .mountPoint) (.inl (by decide)),
      followColumnRows_of_is hcolumn (.inl (by decide))]

theorem followRows_self : followRows lv old old rows = rows := by
  rw [followRows, List.map_congr_left fun r _ => followTypeRow_self, List.map_id']
  simp only [List.foldl_cons, List.foldl_nil, followColumnRows, if_true]

/-- **The properties follow.** -/
theorem mirrors_followRows (hrows : Rows cat volumeIds rows) (h : Follows lv old new cat rows) :
    Mirrors (followRows lv old new rows) lv.logicalVolumeId new := by
  intro n
  have hcolumn := h.column n
  rw [valuesOf, filter_followRows_here]
  rw [ColumnFollows] at hcolumn
  cases hget : new.get n with
  | none =>
    rw [hget] at hcolumn
    dsimp only at hcolumn
    rcases hrows.filter_is lv.logicalVolumeId n with hnil | ⟨r, hr⟩
    · rw [hnil, List.map_nil, followColumnRows_of_not (by simp)]
      rfl
    · have hmem : r ∈ rows.filter fun r => r.Is lv.logicalVolumeId n := by rw [hr]; simp
      obtain ⟨hrows, his⟩ := List.mem_filter.mp hmem
      obtain ⟨hold, hfits⟩ := hcolumn r hrows (by simpa using his)
      have hfound := isPropertyOf_followTypeRow (by simpa using his) hfits
      rw [hr, List.map_singleton, followColumnRows, if_neg (by rw [hget]; exact hold), hget]
      simp [hfound]
  | some value =>
    rw [hget] at hcolumn
    dsimp only at hcolumn
    obtain ⟨r, hr, his, hvalue⟩ := hcolumn
    rw [hrows.filter_of_mem hr his, List.map_singleton, followColumnRows, hget]
    dsimp only
    split
    · rename_i heq
      have hvalue := hvalue.resolve_right fun h => h.1 heq
      rw [List.map_singleton, followTypeRow_value, hvalue]
      rfl
    · rw [List.map_singleton, List.map_singleton]
      split
      · rfl
      · rename_i hnot
        have hvalue := hvalue.resolve_right fun h => hnot (isPropertyOf_followTypeRow his h.2)
        rw [followTypeRow_value, hvalue]
        rfl

/-! ## The trigger -/

/-- New rows with the same logical volume and name may stand where the old ones stood. -/
theorem execute_update_properties {f : LogicalVolumeProperty → Option LogicalVolumeProperty}
    (hrows : Rows cat db.volumeIds db.logicalVolumeProperty)
    (hf : ∀ r ∈ db.logicalVolumeProperty, ∀ r', f r = some r' →
      r'.logicalVolumeId = r.logicalVolumeId ∧
        r'.logicalVolumePropertyName = r.logicalVolumePropertyName ∧ cat.Refers r') :
    (update f).execute (propertyKeys cat db) db.logicalVolumeProperty =
        .ok (db.logicalVolumeProperty.map fun r => (f r).getD r) ∧
      Rows cat db.volumeIds (db.logicalVolumeProperty.map fun r => (f r).getD r) := by
  have hok : (update f).execute (propertyKeys cat db) db.logicalVolumeProperty =
      .ok ((update f).after db.logicalVolumeProperty) := by
    refine execute_update_of_pairwise conflicts_symm hrows.apart fun r hr r' hr' => ?_
    obtain ⟨hid, hname, hrefers⟩ := hf r hr r' hr'
    refine ⟨fun c hc hconflicts => hc ⟨?_, ?_, ?_⟩, fun l hl => ?_⟩
    · exact hname ▸ hconflicts.1
    · exact hconflicts.2.1.trans hid
    · exact hconflicts.2.2.trans hname
    · exact propertyKeys_eq_ok.mpr ⟨hl, hid ▸ hrows.volume r hr, hrefers⟩
  exact ⟨hok, hrows.execute hok⟩

section

variable (hdepth : 1 ≤ depth) (hrows : Rows cat db.volumeIds db.logicalVolumeProperty)
include hdepth hrows

variable (lv old new more) in
theorem followType_ok (hnew : cat.HasType new.filesystemType)
    (htype : old.filesystemType ≠ new.filesystemType → ∀ r ∈ db.logicalVolumeProperty,
      r.IsOf lv (some old.filesystemType) →
        cat.Permits r.logicalVolumePropertyName (some new.filesystemType)) :
    followType (execute cat (more + 1) depth) lv old new db = .ok { db with
        logicalVolumeProperty := db.logicalVolumeProperty.map (followTypeRow lv old new) } ∧
      Rows cat db.volumeIds (db.logicalVolumeProperty.map (followTypeRow lv old new)) := by
  rw [followType]
  split
  · rename_i hne
    have hok := execute_update_properties (f := fun r =>
      if r.IsOf lv (some old.filesystemType) then
        some { r with filesystemType := some new.filesystemType }
      else none) hrows fun r hr r' hr' => ?_
    · have hmap : (fun r : LogicalVolumeProperty => (if r.IsOf lv (some old.filesystemType) then
          some { r with filesystemType := some new.filesystemType }
        else none).getD r) = followTypeRow lv old new := by
        funext r
        rw [followTypeRow]
        split <;> rfl
      rw [hmap] at hok
      exact ⟨execute_property hdepth hok.1, hok.2⟩
    · split at hr'
      · rename_i hof
        obtain rfl := Option.some.inj hr'
        refine ⟨rfl, rfl, htype hne r hr hof, (hrows.refers r hr).2.1, fun t ht => ?_⟩
        exact Option.some.inj ht ▸ hnew
      · cases hr'
  · rename_i heq
    rw [not_not] at heq
    have hself : db.logicalVolumeProperty.map (followTypeRow lv old new) =
        db.logicalVolumeProperty := by
      refine (List.map_congr_left fun r _ => ?_).trans (List.map_id' _)
      rw [followTypeRow]
      split
      · rename_i hof
        obtain ⟨-, -, t, ht, hr⟩ := hof
        obtain rfl := Option.some.inj ht
        rw [← heq, ← hr]
      · rfl
    rw [hself]
    exact ⟨rfl, hrows⟩

theorem followColumn_ok (n : Mirrored) :
    followColumn (execute cat (more + 1) depth) lv old new db n = .ok { db with
        logicalVolumeProperty := followColumnRows lv old new db.logicalVolumeProperty n } ∧
      Rows cat db.volumeIds (followColumnRows lv old new db.logicalVolumeProperty n) := by
  by_cases hsame : old.get n = new.get n
  · rw [followColumn, followColumnRows, if_pos hsame, if_pos hsame]
    exact ⟨rfl, hrows⟩
  · rw [followColumn, followColumnRows, if_neg hsame, if_neg hsame]
    cases new.get n with
    | none =>
      have hrows' := hrows.filter fun r => ¬ r.IsPropertyOf lv (some new.filesystemType) n
      refine ⟨execute_property hdepth ?_, hrows'⟩
      simp [RowStatement.execute]
    | some value =>
      have hok := execute_update_properties (f := fun r =>
        if r.IsPropertyOf lv (some new.filesystemType) n ∧
            r.logicalVolumePropertyValue ≠ some value then
          some { r with logicalVolumePropertyValue := some value }
        else none) hrows fun r hr r' hr' => ?_
      · have hmap : (fun r : LogicalVolumeProperty =>
            (if r.IsPropertyOf lv (some new.filesystemType) n ∧
                r.logicalVolumePropertyValue ≠ some value then
              some { r with logicalVolumePropertyValue := some value }
            else none).getD r) = fun r =>
            if r.IsPropertyOf lv (some new.filesystemType) n then
              { r with logicalVolumePropertyValue := some value }
            else r := by
          funext r
          by_cases hprop : r.IsPropertyOf lv (some new.filesystemType) n
          · by_cases hvalue : r.logicalVolumePropertyValue = some value
            · rw [if_neg (fun h => h.2 hvalue), if_pos hprop, ← hvalue]
              rfl
            · rw [if_pos ⟨hprop, hvalue⟩, if_pos hprop]
              rfl
          · rw [if_neg (fun h => hprop h.1), if_neg hprop]
            rfl
        rw [hmap] at hok
        exact ⟨execute_property hdepth hok.1, hok.2⟩
      · split at hr'
        · obtain rfl := Option.some.inj hr'
          exact ⟨rfl, rfl, hrows.refers r hr⟩
        · cases hr'

end

variable (more) in
theorem filesystemToLogicalVolumePropertyUpd_ok (hdepth : 1 ≤ depth)
    (hrows : Rows cat db.volumeIds db.logicalVolumeProperty)
    (hnew : cat.HasType new.filesystemType)
    (hlv : db.volumeOf new.blockStorageDeviceId = some lv)
    (h : Follows lv old new cat db.logicalVolumeProperty) :
    filesystemToLogicalVolumePropertyUpd (execute cat (more + 1) depth) db old new =
        .ok { db.setFilesystemType lv.logicalVolumeId new.filesystemType with
          logicalVolumeProperty := followRows lv old new db.logicalVolumeProperty } ∧
      Rows cat db.volumeIds (followRows lv old new db.logicalVolumeProperty) := by
  have hids := db.volumeIds_setFilesystemType lv.logicalVolumeId new.filesystemType
  have hrows₀ : Rows cat (db.setFilesystemType lv.logicalVolumeId new.filesystemType).volumeIds
      (db.setFilesystemType lv.logicalVolumeId new.filesystemType).logicalVolumeProperty := by
    rwa [hids]
  obtain ⟨htype, hrows₁⟩ := followType_ok more lv old new hdepth hrows₀ hnew h.type
  have hcolumns := foldlM_eq_foldl (f := followColumn (execute cat (more + 1) depth) lv old new)
    (g := fun db n => { db with
      logicalVolumeProperty := followColumnRows lv old new db.logicalVolumeProperty n })
    (P := fun db => Rows cat db.volumeIds db.logicalVolumeProperty)
    (l := [.mountPoint, .label, .serial])
    (s := { db.setFilesystemType lv.logicalVolumeId new.filesystemType with
      logicalVolumeProperty := db.logicalVolumeProperty.map (followTypeRow lv old new) })
    (fun db n hdb => followColumn_ok hdepth hdb n) hrows₁
  rw [filesystemToLogicalVolumePropertyUpd, hlv]
  dsimp only
  rw [htype]
  refine ⟨hcolumns.1, ?_⟩
  rw [← hids]
  exact hcolumns.2

end Follow

end JazzHands.FilesystemCompat

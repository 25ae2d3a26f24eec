import JazzHands.Library.Runs
import JazzHands.Postgres.RowStatement

/-!
# The devices of an MLAG peering

`validate_mlag_peering_devicex_id` of `create_logical_port_triggers.sql`, a constraint trigger that
is told of every row at the end of its statement.

* `Statement`, `execute`, `step`: the statements on peerings; logical ports may change in any way
  between them.

The foreign keys on devices can only raise, and are left out.
-/

namespace JazzHands.LogicalPort

open Postgres RowStatement Library

structure MlagPeering where
  mlagPeeringId : ℕ
  device1Id : Option ℕ
  device2Id : Option ℕ
  deriving DecidableEq

/-- A row of `logical_port`. -/
structure Port where
  logicalPortId : ℕ
  deviceId : Option ℕ
  mlagPeeringId : Option ℕ
  parentLogicalPortId : Option ℕ

structure Db where
  mlagPeering : List MlagPeering
  logicalPort : List Port

def Db.empty : Db := ⟨[], []⟩

/-- `device1_id = d OR device2_id = d`. -/
def MlagPeering.Has (p : MlagPeering) (d : ℕ) : Prop := p.device1Id = some d ∨ p.device2Id = some d
  deriving Decidable

/-- A device has child logical ports under a logical port of the peering. -/
def Db.Attached (db : Db) (peering d : ℕ) : Prop :=
  ∃ mp ∈ db.logicalPort, ∃ lp ∈ db.logicalPort,
    lp.parentLogicalPortId = some mp.logicalPortId ∧ mp.mlagPeeringId = some peering ∧
      lp.deviceId = some d
  deriving Decidable

/-! ## The trigger -/

/-- The new device is in no other peering. -/
def checkOthers (db : Db) (peering d : ℕ) : Result Unit :=
  raiseIf (∃ mp ∈ db.mlagPeering, mp.Has d ∧ mp.mlagPeeringId ≠ peering) .checkViolation
    "device_id % is already a member of mlag_peering %"

def checkChildren (db : Db) (peering : ℕ) : Option ℕ → Result Unit
  | none => .ok ()
  | some d => raiseIf (db.Attached peering d) .checkViolation
      "attempt to remove device_id % from mlag_peering % while child logical ports for this device are still attached"

/-- The block for one of the columns. Both of them look at the children of `OLD.device1_id`. -/
def checkDevice (column : MlagPeering → Option ℕ) (db : Db) (old? : Option MlagPeering)
    (new : MlagPeering) : Result Unit :=
  match column new with
  | none => .ok ()
  | some d =>
    if old?.map column = some (some d) then .ok ()
    else do
      checkOthers db new.mlagPeeringId d
      match old? with
      | none => .ok ()
      | some old => checkChildren db new.mlagPeeringId old.device1Id

/-- `TG_OP = 'UPDATE'` and the devices are swapped. -/
def Swapped (old? : Option MlagPeering) (new : MlagPeering) : Prop :=
  ∃ old ∈ old?, new.device1Id = old.device2Id ∧ new.device2Id = old.device1Id
  deriving Decidable

def checkDevices (db : Db) (old? : Option MlagPeering) (new : MlagPeering) : Result Unit :=
  if Swapped old? new then .ok ()
  else do
    checkDevice (·.device1Id) db old? new
    checkDevice (·.device2Id) db old? new

def validateMlagPeeringDevicexId (db : Db) (e : RowEvent MlagPeering) : Result Unit :=
  match e.new? with
  | none => .ok ()
  | some new => do
    raiseIf (∃ d ∈ new.device1Id, new.device2Id = some d) .checkViolation
      "mlag_peer.device1_id and mlag_peer.device2_id may not be the same"
    checkDevices db e.old? new

/-! ## Statements -/

/-- For an `UPDATE`, the new values of the two columns where its condition holds. -/
inductive Statement where
  | insert (rows : List MlagPeering)
  | update (set : MlagPeering → Option (Option ℕ × Option ℕ))
  | logicalPorts (rows : List Port)

def setDevices (p : MlagPeering) (devices : Option ℕ × Option ℕ) : MlagPeering :=
  { p with device1Id := devices.1, device2Id := devices.2 }

def peeringKeys : List MlagPeering → MlagPeering → Result Unit :=
  checkUnique (·.mlagPeeringId) "pk_mlag_peering"

def writePeerings (db : Db) (s : RowStatement MlagPeering) : Result Db := do
  let t ← s.execute peeringKeys db.mlagPeering
  let db' := { db with mlagPeering := t }
  (s.events db.mlagPeering).forM (validateMlagPeeringDevicexId db')
  .ok db'

def peeringsUpdate (set : MlagPeering → Option (Option ℕ × Option ℕ)) : RowStatement MlagPeering :=
  .update fun p => (set p).map (setDevices p)

def execute (db : Db) : Statement → Result Db
  | .insert rows => writePeerings db (.insert rows)
  | .update set => writePeerings db (peeringsUpdate set)
  | .logicalPorts rows => .ok { db with logicalPort := rows }

def step (db : Db) (s : Statement) : Db := (execute db s).toOption.getD db

/-! ## What is promised -/

structure OneEach (t : List MlagPeering) : Prop where
  once : ∀ p ∈ t, ∀ d, p.device1Id = some d → p.device2Id ≠ some d
  peering : ∀ p ∈ t, ∀ q ∈ t, ∀ d, p.Has d → q.Has d → p.mlagPeeringId = q.mlagPeeringId

/-- The peering had the device, and has it no more. -/
def Leaves (db db' : Db) (peering d : ℕ) : Prop :=
  (∃ p ∈ db.mlagPeering, p.mlagPeeringId = peering ∧ p.Has d) ∧
    ∃ p ∈ db'.mlagPeering, p.mlagPeeringId = peering ∧ ¬ p.Has d

/-- A statement takes no device away that has child logical ports. -/
def NoneTornOff (db : Db) (s : Statement) : Prop :=
  ∀ peering d, Leaves db (step db s) peering d → ¬ db.Attached peering d

/-- A device goes away and no block looks at its children: it is the second one, or the first one
and neither column gets another device. -/
def NotLookedAt (old new : MlagPeering) (d : ℕ) : Prop :=
  old.Has d ∧ ¬ new.Has d ∧ (old.device2Id = some d ∨
    new.device1Id = none ∧ (new.device2Id = none ∨ new.device2Id = old.device2Id))

def LooksAtLeaving (db : Db) : Statement → Prop
  | .update set => ∀ p ∈ db.mlagPeering, ∀ devices, set p = some devices → ∀ d,
      NotLookedAt p (setDevices p devices) d → ¬ db.Attached p.mlagPeeringId d
  | _ => True

variable {db db' : Db} {s : RowStatement MlagPeering} {p q old new : MlagPeering}
  {e : RowEvent MlagPeering} {peering d : ℕ}

/-! ## What the trigger has looked at -/

theorem once_of_validate (h : validateMlagPeeringDevicexId db e = .ok ()) (hnew : e.new? = some new)
    (h₁ : new.device1Id = some d) : new.device2Id ≠ some d := by
  rw [validateMlagPeeringDevicexId, hnew] at h
  exact fun h₂ => raiseIf_eq_ok.mp (bind_unit_eq_ok.mp h).1 ⟨d, h₁, h₂⟩

theorem checkDevices_of_validate (h : validateMlagPeeringDevicexId db e = .ok ())
    (hnew : e.new? = some new) : checkDevices db e.old? new = .ok () := by
  rw [validateMlagPeeringDevicexId, hnew] at h
  exact (bind_unit_eq_ok.mp h).2

variable {column : MlagPeering → Option ℕ} {t : List MlagPeering}
  {set : MlagPeering → Option (Option ℕ × Option ℕ)}

theorem others_of_checkDevice {old? : Option MlagPeering}
    (h : checkDevice column db old? new = .ok ()) (hd : column new = some d)
    (hold : old?.map column ≠ some (some d)) :
    ∀ q ∈ db.mlagPeering, q.Has d → q.mlagPeeringId = new.mlagPeeringId := by
  intro q hq hhas
  unfold checkDevice at h
  rw [hd] at h
  dsimp only at h
  rw [if_neg hold] at h
  by_contra hne
  exact raiseIf_eq_ok.mp (bind_unit_eq_ok.mp h).1 ⟨q, hq, hhas, hne⟩

theorem not_attached_of_checkDevice {d' : ℕ} (h : checkDevice column db (some old) new = .ok ())
    (hd : column new = some d') (hchanged : column new ≠ column old) (hold : old.device1Id = some d) :
    ¬ db.Attached new.mlagPeeringId d := by
  unfold checkDevice at h
  rw [hd] at h
  dsimp only at h
  rw [Option.map_some, if_neg (fun hsame => hchanged (hd.trans (Option.some.inj hsame).symm))] at h
  have hchildren := (bind_unit_eq_ok.mp h).2
  rw [hold] at hchildren
  exact raiseIf_eq_ok.mp hchildren

theorem others_of_validate (h : validateMlagPeeringDevicexId db e = .ok ())
    (hnew : e.new? = some new) (hhas : new.Has d) (hold : ∀ old ∈ e.old?, ¬ old.Has d) :
    ∀ q ∈ db.mlagPeering, q.Has d → q.mlagPeeringId = new.mlagPeeringId := by
  have h := checkDevices_of_validate h hnew
  unfold checkDevices at h
  split_ifs at h with hswapped
  · obtain ⟨old, hmem, h₁, h₂⟩ := hswapped
    exact absurd (hhas.symm.imp (fun hd => h₂ ▸ hd) fun hd => h₁ ▸ hd) (hold old hmem)
  · obtain ⟨hfirst, hsecond⟩ := bind_unit_eq_ok.mp h
    have hcolumn : ∀ column : MlagPeering → Option ℕ, (∀ p, column p = some d → p.Has d) →
        e.old?.map column ≠ some (some d) := by
      intro column hof hmap
      obtain ⟨old, hmem, hd⟩ := Option.map_eq_some_iff.mp hmap
      exact hold old hmem (hof old hd)
    rcases hhas with hd | hd
    · exact others_of_checkDevice hfirst hd (hcolumn _ fun _ => .inl)
    · exact others_of_checkDevice hsecond hd (hcolumn _ fun _ => .inr)

theorem not_attached_of_validate (h : validateMlagPeeringDevicexId db (.update old new) = .ok ())
    (hhas : old.Has d) (hgone : ¬ new.Has d) (hlooked : ¬ NotLookedAt old new d) :
    ¬ db.Attached new.mlagPeeringId d := by
  have h := checkDevices_of_validate h rfl
  have hlooked : ¬ (old.device2Id = some d ∨ new.device1Id = none ∧
      (new.device2Id = none ∨ new.device2Id = old.device2Id)) :=
    fun hunseen => hlooked ⟨hhas, hgone, hunseen⟩
  rw [not_or] at hlooked
  have hfirst := hhas.resolve_right hlooked.1
  unfold checkDevices at h
  split_ifs at h with hswapped
  · obtain ⟨old', hmem, -, h₂⟩ := hswapped
    obtain rfl := Option.some.inj hmem
    exact absurd (.inr (h₂.trans hfirst)) hgone
  · obtain ⟨h₁, h₂⟩ := bind_unit_eq_ok.mp h
    cases hnew₁ : new.device1Id with
    | some d' =>
      refine not_attached_of_checkDevice h₁ hnew₁ (fun hsame => ?_) hfirst
      exact hgone (.inl (hsame.trans hfirst))
    | none =>
      cases hnew₂ : new.device2Id with
      | none => exact absurd ⟨hnew₁, .inl hnew₂⟩ hlooked.2
      | some d' =>
        refine not_attached_of_checkDevice h₂ hnew₂ (fun hsame => ?_) hfirst
        exact hlooked.2 ⟨hnew₁, .inr hsame⟩

/-! ## Steps -/

theorem writePeerings_ok (h : writePeerings db s = .ok db') :
    s.execute peeringKeys db.mlagPeering = .ok db'.mlagPeering ∧
      db'.mlagPeering = s.after db.mlagPeering ∧ db'.logicalPort = db.logicalPort ∧
      ∀ e ∈ s.events db.mlagPeering, validateMlagPeeringDevicexId db' e = .ok () := by
  obtain ⟨t, ht, h⟩ := bind_eq_ok.mp h
  obtain ⟨hall, h⟩ := bind_unit_eq_ok.mp h
  obtain rfl := Except.ok.inj h
  exact ⟨ht, execute_ok ht, rfl, forM_eq_ok.mp hall⟩

/-- Only the two columns change. -/
def KeepsIds (s : RowStatement MlagPeering) (t : List MlagPeering) : Prop :=
  ∀ old new, .update old new ∈ s.events t → new.mlagPeeringId = old.mlagPeeringId

/-- A device of a peering was there, or it is in no other. -/
theorem had_or_alone (h : writePeerings db s = .ok db') (hkeeps : KeepsIds s db.mlagPeering)
    (hp : p ∈ db'.mlagPeering) (hhas : p.Has d) :
    (∃ p₀ ∈ db.mlagPeering, p₀.mlagPeeringId = p.mlagPeeringId ∧ p₀.Has d) ∨
      ∀ q ∈ db'.mlagPeering, q.Has d → q.mlagPeeringId = p.mlagPeeringId := by
  obtain ⟨-, hafter, -, hall⟩ := writePeerings_ok h
  rw [hafter] at hp
  rcases mem_after hp with hp | ⟨e, he, hnew⟩
  · exact .inl ⟨p, hp, rfl, hhas⟩
  · by_cases hold : ∃ old ∈ e.old?, old.Has d
    · obtain ⟨old, hold, hhas⟩ := hold
      cases e with
      | insert new => cases hold
      | delete old => cases hnew
      | update old new =>
        obtain rfl := Option.some.inj hnew
        obtain rfl := Option.some.inj hold
        exact .inl ⟨old, old_mem he rfl, (hkeeps old new he).symm, hhas⟩
    · refine .inr (others_of_validate (hall e he) hnew hhas fun old hmem hhas => ?_)
      exact hold ⟨old, hmem, hhas⟩

theorem oneEach_write (hdb : OneEach db.mlagPeering) (hkeeps : KeepsIds s db.mlagPeering)
    (h : writePeerings db s = .ok db') : OneEach db'.mlagPeering where
  once := by
    intro p hp d hd
    obtain ⟨-, hafter, -, hall⟩ := writePeerings_ok h
    rw [hafter] at hp
    rcases mem_after hp with hp | ⟨e, he, hnew⟩
    · exact hdb.once p hp d hd
    · exact once_of_validate (hall e he) hnew hd
  peering := by
    intro p hp q hq d hpd hqd
    rcases had_or_alone h hkeeps hp hpd with ⟨p₀, hp₀, hpid, hp₀d⟩ | halone
    · rcases had_or_alone h hkeeps hq hqd with ⟨q₀, hq₀, hqid, hq₀d⟩ | halone
      · rw [← hpid, ← hqid]
        exact hdb.peering p₀ hp₀ q₀ hq₀ d hp₀d hq₀d
      · exact halone p hp hpd
    · exact (halone q hq hqd).symm

theorem nodup_write (hids : (db.mlagPeering.map (·.mlagPeeringId)).Nodup)
    (h : writePeerings db s = .ok db') : (db'.mlagPeering.map (·.mlagPeeringId)).Nodup :=
  nodup_execute (fun _ _ hnew => checkUnique_ok hnew) hids (writePeerings_ok h).1

theorem exists_update_of_leaves (hids : (db.mlagPeering.map (·.mlagPeeringId)).Nodup)
    (hkeeps : KeepsIds s db.mlagPeering) (h : writePeerings db s = .ok db')
    (hleaves : Leaves db db' peering d) :
    ∃ old new, .update old new ∈ s.events db.mlagPeering ∧ old.mlagPeeringId = peering ∧
      new.mlagPeeringId = peering ∧ old.Has d ∧ ¬ new.Has d := by
  obtain ⟨⟨p, hp, hpid, hhas⟩, q, hq, hqid, hgone⟩ := hleaves
  have hids' := nodup_write hids h
  rw [(writePeerings_ok h).2.1] at hq hids'
  rcases mem_after hq with hq | ⟨e, he, hnew⟩
  · rw [List.inj_on_of_nodup_map hids hp hq (hpid.trans hqid.symm)] at hhas
    exact absurd hhas hgone
  · cases e with
    | insert new =>
      obtain rfl := Option.some.inj hnew
      exact absurd (hpid.trans hqid.symm) (ne_of_insert hids' he hp)
    | delete old => cases hnew
    | update old new =>
      obtain rfl := Option.some.inj hnew
      have hid := hkeeps old new he
      have hpold : p = old :=
        List.inj_on_of_nodup_map hids hp (old_mem he rfl) ((hpid.trans hqid.symm).trans hid)
      exact ⟨old, new, he, hid.symm.trans hqid, hqid, hpold ▸ hhas, hgone⟩

theorem keepsIds_insert {rows : List MlagPeering} :
    KeepsIds (.insert rows) t := by
  intro old new he
  obtain ⟨r, -, heq⟩ := List.mem_map.mp he
  cases heq

theorem exists_of_peeringsUpdate (he : .update old new ∈ (peeringsUpdate set).events t) :
    old ∈ t ∧ ∃ devices, set old = some devices ∧ new = setDevices old devices := by
  obtain ⟨r, hr, new', hset, heq⟩ := exists_of_update he
  obtain ⟨rfl, rfl⟩ := RowEvent.update.inj heq
  obtain ⟨devices, hdevices, rfl⟩ := Option.map_eq_some_iff.mp hset
  exact ⟨hr, devices, hdevices, rfl⟩

theorem keepsIds_update :
    KeepsIds (peeringsUpdate set) t := by
  intro old new he
  obtain ⟨-, devices, -, rfl⟩ := exists_of_peeringsUpdate he
  rfl

/-! ## Runs -/

structure Right (db : Db) : Prop where
  ids : (db.mlagPeering.map (·.mlagPeeringId)).Nodup
  oneEach : OneEach db.mlagPeering

theorem right_empty : Right Db.empty where
  ids := List.nodup_nil
  oneEach := ⟨fun _ h => absurd h List.not_mem_nil, fun _ h => absurd h List.not_mem_nil⟩

theorem Right.write (hdb : Right db) (hkeeps : KeepsIds s db.mlagPeering)
    (h : writePeerings db s = .ok db') : Right db' :=
  ⟨nodup_write hdb.ids h, oneEach_write hdb.oneEach hkeeps h⟩

theorem right_step {st : Statement} (hdb : Right db) : Right (step db st) := by
  unfold step
  cases hok : execute db st with
  | error err => exact hdb
  | ok db' =>
    cases st with
    | insert rows => exact hdb.write keepsIds_insert hok
    | update set => exact hdb.write keepsIds_update hok
    | logicalPorts rows =>
      obtain rfl := Except.ok.inj hok
      exact ⟨hdb.ids, hdb.oneEach⟩

/-- A statement that leaves the peerings takes no device away. -/
theorem not_leaves_of_eq (hdb : Right db) (h : db'.mlagPeering = db.mlagPeering) :
    ¬ Leaves db db' peering d := by
  intro ⟨⟨p, hp, hpid, hhas⟩, q, hq, hqid, hgone⟩
  rw [h] at hq
  rw [List.inj_on_of_nodup_map hdb.ids hp hq (hpid.trans hqid.symm)] at hhas
  exact hgone hhas

theorem noneTornOff_step {st : Statement} (hdb : Right db) (hlooks : LooksAtLeaving db st) :
    NoneTornOff db st := by
  intro peering d hleaves
  unfold step at hleaves
  cases hok : execute db st with
  | error err =>
    rw [hok] at hleaves
    exact absurd hleaves (not_leaves_of_eq hdb rfl)
  | ok db' =>
    rw [hok] at hleaves
    have hleaves : Leaves db db' peering d := hleaves
    cases st with
    | insert rows =>
      obtain ⟨old, new, he, -⟩ := exists_update_of_leaves hdb.ids keepsIds_insert hok hleaves
      obtain ⟨r, -, heq⟩ := List.mem_map.mp he
      cases heq
    | update set =>
      obtain ⟨old, new, he, hold, hnew, hhas, hgone⟩ :=
        exists_update_of_leaves hdb.ids keepsIds_update hok hleaves
      obtain ⟨-, -, hports, hall⟩ := writePeerings_ok hok
      by_cases hlooked : NotLookedAt old new d
      · obtain ⟨hmem, devices, hset, rfl⟩ := exists_of_peeringsUpdate he
        exact hold ▸ hlooks old hmem devices hset d hlooked
      · have hnot := not_attached_of_validate (hall _ he) hhas hgone hlooked
        rw [hnew, Db.Attached, hports] at hnot
        exact hnot
    | logicalPorts rows =>
      obtain rfl := Except.ok.inj hok
      exact absurd hleaves (not_leaves_of_eq hdb rfl)

theorem right_run (l : List Statement) : Right (run step Db.empty l) :=
  run_invariant (P := fun _ _ => True) (fun _ _ h _ => right_step h) right_empty
    (allSteps_of_forall fun _ _ => trivial)

theorem peerings_run (l : List Statement) :
    OneEach (run step Db.empty l).mlagPeering ∧
      (AllSteps step LooksAtLeaving Db.empty l → AllSteps step NoneTornOff Db.empty l) :=
  ⟨(right_run l).oneEach, AllSteps.of_invariant
    (fun _ _ hdb hlooks => ⟨right_step hdb, noneTornOff_step hdb hlooks⟩) right_empty⟩

/-- The first device is replaced, beside one with a child port. -/
def firstReplaced : List Statement :=
  [.insert [⟨1, some 10, some 20⟩],
    .logicalPorts [⟨100, none, some 1, none⟩, ⟨101, some 20, none, some 100⟩],
    .update fun p => some (some 30, p.device2Id)]

theorem firstReplaced_noneTornOff : AllSteps step NoneTornOff Db.empty firstReplaced := by
  refine (peerings_run firstReplaced).2 ⟨trivial, trivial, ?_, trivial⟩
  intro p hp devices hset d hunseen
  obtain rfl := Option.some.inj hset
  obtain ⟨-, hgone, hsecond | ⟨hnone, -⟩⟩ := hunseen
  · exact absurd (.inr hsecond) hgone
  · cases hnone

/-- A device with a child port is taken out of the second column. -/
def secondReplaced : List Statement :=
  [.insert [⟨1, some 10, some 20⟩],
    .logicalPorts [⟨100, none, some 1, none⟩, ⟨101, some 20, none, some 100⟩],
    .update fun _ => some (some 10, some 30)]

theorem secondReplaced_tornOff : ¬ AllSteps step NoneTornOff Db.empty secondReplaced := by
  rintro ⟨-, -, h, -⟩
  exact h 1 20 (by unfold Leaves; decide) (by decide)

end JazzHands.LogicalPort

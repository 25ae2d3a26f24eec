import JazzHands.Postgres.Error
import Mathlib.Data.List.Nodup

/-!
# `device_manip.retire_devices`

The rows of `device` go in two ways: they are deleted, or marked as removed when something still
refers to them.  Rack locations are kept in `device` and `component`, and triggers carry a change
of one to the other.  Everything else that the statements of the function do, and whether they
raise, is a parameter that sees the whole database: it writes the other tables only.

A device comes up again when it is listed twice, and also as the management controller of another
one.  A rack location that is taken from a component is taken from its other devices as well.
-/

namespace JazzHands.DeviceManip
namespace Retire

open Postgres

structure Device where
  deviceId : ℕ
  componentId : Option ℕ
  deviceName : Option String
  rackLocationId : Option ℕ
  parentDeviceId : Option ℕ
  description : Option String
  deviceStatus : String
  serviceEnvironmentId : ℕ

structure Devices where
  rows : List Device
  nodup : (rows.map (·.deviceId)).Nodup

structure Component where
  componentId : ℕ
  rackLocationId : Option ℕ

/-- `component_management_controller`. -/
structure Controller where
  managerComponentId : ℕ
  componentId : ℕ
  componentManagementControllerType : String

structure ServiceEnvironment where
  serviceEnvironmentId : ℕ
  serviceEnvironmentName : String

/-- The tables besides `device` that are read here, and `rest` for all others. -/
structure Others (σ : Type) where
  component : List Component
  /-- `v_device_components`: a device and one of its components. -/
  deviceComponents : List (ℕ × ℕ)
  controllers : List Controller
  rest : σ

structure Db (σ : Type) where
  device : Devices
  serviceEnvironment : List ServiceEnvironment
  others : Others σ

/-- What goes on in other tables. -/
structure Elsewhere (σ : Type) where
  /-- `local_hooks.retire_devices_early`, where there is one. -/
  early : Db σ → List ℕ → Result σ
  /-- From the services to the device collections. -/
  prepare : Db σ → List ℕ → Result σ
  /-- From the rack locations that nothing uses any more to `local_hooks.retire_devices_late`. -/
  cleanup : Db σ → List ℕ → Result (Others σ)
  /-- `DELETE FROM device_note`. -/
  deleteNotes : Db σ → ℕ → σ
  /-- The triggers on a deleted device, and the foreign keys that refer to it. -/
  deleteDevice : Db σ → ℕ → Result (Others σ)
  /-- The triggers on a changed device, and its foreign keys. -/
  updateDevice : Db σ → Device → Result (Others σ)
  /-- The order in which `array_agg` meets the rows. -/
  order : List ℕ → List ℕ
  order_perm : ∀ l, (order l).Perm l

variable {σ : Type}

def Db.setRest (db : Db σ) (rest : σ) : Db σ :=
  { db with others := { db.others with rest := rest } }

namespace Devices

def modify (t : Devices) (f : Device → Device) (hf : ∀ d, (f d).deviceId = d.deviceId) :
    Devices where
  rows := t.rows.map f
  nodup := by
    have hids : (·.deviceId) ∘ f = (·.deviceId) := funext hf
    rw [List.map_map, hids]
    exact t.nodup

def delete (t : Devices) (i : ℕ) : Devices where
  rows := t.rows.filter (·.deviceId ≠ i)
  nodup := t.nodup.sublist (List.filter_sublist.map _)

end Devices

/-! ## The function -/

/-- The BMCs of the devices, once for every way to them. -/
def managers (db : Db σ) (l : List ℕ) : List ℕ :=
  db.others.controllers.flatMap fun dmc =>
    if dmc.componentManagementControllerType = "bmc" then
      (db.device.rows.filter fun d => d.deviceId ∈ l ∧ d.componentId = some dmc.componentId).flatMap
        fun _ => (db.device.rows.filter (·.componentId = some dmc.managerComponentId)).map
          (·.deviceId)
    else []

/-- `UPDATE device SET rack_location_id = NULL`, with `sync_device_rack_location_id`. -/
def clearDeviceRacks (db : Db σ) (l : List ℕ) : Db σ :=
  { db with
    device := db.device.modify
      (fun d => if d.deviceId ∈ l then { d with rackLocationId := none } else d)
      (fun d => by split <;> rfl)
    others := { db.others with
      component := db.others.component.map fun c =>
        if ∃ d ∈ db.device.rows, d.deviceId ∈ l ∧ d.rackLocationId ≠ none ∧
          d.componentId = some c.componentId
        then { c with rackLocationId := none } else c } }

/-- The component is one of a device's, and has a rack location. -/
def Others.Located (o : Others σ) (l : List ℕ) (c : Component) : Prop :=
  c.rackLocationId ≠ none ∧ ∃ i ∈ l, (i, c.componentId) ∈ o.deviceComponents
  deriving Decidable

/-- `UPDATE component SET rack_location_id = NULL`, with `sync_component_rack_location_id`, which
writes all devices of the component. -/
def clearComponentRacks (db : Db σ) (l : List ℕ) : Db σ :=
  { db with
    device := db.device.modify
      (fun d => if ∃ c ∈ db.others.component, db.others.Located l c ∧
          d.componentId = some c.componentId
        then { d with rackLocationId := none } else d)
      (fun d => by split <;> rfl)
    others := { db.others with
      component := db.others.component.map fun c =>
        if db.others.Located l c then { c with rackLocationId := none } else c } }

/-- `DELETE FROM device_note` and `DELETE FROM device`. -/
def deleteRow (E : Elsewhere σ) (db : Db σ) (devId : ℕ) : Result (Db σ) :=
  let db := db.setRest (E.deleteNotes db devId)
  if ∃ d ∈ db.device.rows, d.deviceId = devId then do
    let others ← E.deleteDevice db devId
    .ok { db with device := db.device.delete devId, others := others }
  else .ok db

/-- A device without a component has no rack location either. -/
def Device.removed (d : Device) (seId : ℕ) : Device :=
  { d with
    deviceName := none
    componentId := none
    rackLocationId := none
    serviceEnvironmentId := seId
    deviceStatus := "removed"
    description := none }

/-- The `UPDATE` of a device that could not be deleted. -/
def markRemoved (E : Elsewhere σ) (seId : Option ℕ) (db : Db σ) (devId : ℕ) : Result (Db σ) :=
  match db.device.rows.find? (·.deviceId = devId), seId with
  | none, _ => .ok db
  | some _, none => raise .notNullViolation
    "null value in column \"service_environment_id\" violates not-null constraint"
  | some d, some seId => do
    let others ← E.updateDevice db (d.removed seId)
    .ok { db with
      device := db.device.modify (fun d => if d.deviceId = devId then d.removed seId else d)
        (fun d => by split <;> rfl)
      others := others }

/-- A row that is returned. -/
structure Retirement where
  deviceId : ℕ
  success : Bool

/-- A turn of the loop; what the deletion has done is undone when a foreign key is in its way. -/
def retireOne (E : Elsewhere σ) (seId : Option ℕ) (s : Db σ × List Retirement) (devId : ℕ) :
    Result (Db σ × List Retirement) :=
  match deleteRow E s.1 devId with
  | .ok db => .ok (db, s.2 ++ [⟨devId, true⟩])
  | .error err =>
    if err.errcode = .foreignKeyViolation then do
      let db ← markRemoved E seId s.1 devId
      .ok (db, s.2 ++ [⟨devId, false⟩])
    else .error err

def retireDevices (E : Elsewhere σ) (db : Db σ) (deviceIdList : List ℕ) :
    Result (Db σ × List Retirement) := do
  let rest ← E.early db deviceIdList
  let db := db.setRest rest
  let l := deviceIdList ++ E.order (managers db deviceIdList)
  let rest ← E.prepare db l
  let db := clearComponentRacks (clearDeviceRacks (db.setRest rest) l) l
  let others ← E.cleanup db l
  let seId := (db.serviceEnvironment.find? (·.serviceEnvironmentName = "unallocated")).map
    (·.serviceEnvironmentId)
  l.foldlM (retireOne E seId) ({ db with others := others }, [])

/-! ## What it is for -/

/-- The devices of a call. -/
def concerned (db : Db σ) (l : List ℕ) : List ℕ := l ++ managers db l

/-- One row for each device of the call, which says whether it is gone or only marked as removed;
the other devices stay as they are. -/
structure Retired (db : Db σ) (l : List ℕ) (db' : Db σ) (rows : List Retirement) : Prop where
  once : (rows.map (·.deviceId)).Nodup
  each : ∀ i, i ∈ rows.map (·.deviceId) ↔ i ∈ concerned db l
  gone : ∀ r ∈ rows, r.success = true → ∀ d ∈ db'.device.rows, d.deviceId ≠ r.deviceId
  removed : ∀ r ∈ rows, r.success = false → ∃ d ∈ db'.device.rows, d.deviceId = r.deviceId ∧
    d.deviceStatus = "removed" ∧ d.deviceName = none ∧ d.componentId = none ∧
    ∃ se ∈ db.serviceEnvironment, se.serviceEnvironmentName = "unallocated" ∧
      d.serviceEnvironmentId = se.serviceEnvironmentId
  stays : ∀ d, d.deviceId ∉ concerned db l → (d ∈ db'.device.rows ↔ d ∈ db.device.rows)

/-- The component loses a rack location that no device of the call has. -/
def Db.Unracks (db : Db σ) (l : List ℕ) (c : Component) : Prop :=
  db.others.Located l c ∧ ∀ d ∈ db.device.rows, d.deviceId ∈ l → d.rackLocationId ≠ none →
    d.componentId ≠ some c.componentId
  deriving Decidable

/-- No device comes up twice, and no other one has the rack location of a component of theirs. -/
structure Suits (db : Db σ) (l : List ℕ) : Prop where
  nodup : (concerned db l).Nodup
  racks : ∀ d ∈ db.device.rows, d.deviceId ∉ concerned db l → d.rackLocationId ≠ none →
    ∀ c ∈ db.others.component, db.Unracks (concerned db l) c → d.componentId ≠ some c.componentId

variable {E : Elsewhere σ} {db db' db₀ : Db σ} {l l' rest : List ℕ} {i : ℕ} {seId : Option ℕ}
  {rows : List Retirement} {s s' : Db σ × List Retirement} {d : Device} {c : Component}

/-! ## The loop -/

theorem deleteRow_ok (h : deleteRow E db i = .ok db') :
    db'.device.rows = db.device.rows.filter (·.deviceId ≠ i) := by
  unfold deleteRow at h
  dsimp only at h
  split at h
  · obtain ⟨others, -, h⟩ := bind_eq_ok.mp h
    obtain rfl := Except.ok.inj h
    rfl
  next hnone =>
    obtain rfl := Except.ok.inj h
    refine (List.filter_eq_self.mpr fun d hd => ?_).symm
    simpa using fun heq => hnone ⟨d, hd, heq⟩

theorem exists_of_deleteRow {err : PgError} (h : deleteRow E db i = .error err) :
    ∃ d ∈ db.device.rows, d.deviceId = i := by
  by_contra hnone
  have hkept : deleteRow E db i = .ok (db.setRest (E.deleteNotes db i)) := if_neg hnone
  rw [hkept] at h
  cases h

theorem markRemoved_ok (hd : d ∈ db.device.rows) (h : markRemoved E seId db d.deviceId = .ok db') :
    ∃ se ∈ seId, db'.device.rows =
      db.device.rows.map fun d' => if d'.deviceId = d.deviceId then d'.removed se else d' := by
  unfold markRemoved at h
  split at h
  next hfind => exact (Library.not_of_find?_eq_none hfind hd rfl).elim
  next => exact absurd h raise_ne_ok
  next se _ =>
    obtain ⟨others, -, h⟩ := bind_eq_ok.mp h
    obtain rfl := Except.ok.inj h
    exact ⟨se, rfl, rfl⟩

theorem retireOne_cases (h : retireOne E seId s i = .ok s') :
    (s'.2 = s.2 ++ [⟨i, true⟩] ∧
      s'.1.device.rows = s.1.device.rows.filter (·.deviceId ≠ i)) ∨
    (s'.2 = s.2 ++ [⟨i, false⟩] ∧ ∃ se ∈ seId, ∃ d ∈ s.1.device.rows, d.deviceId = i ∧
      s'.1.device.rows =
        s.1.device.rows.map fun d' => if d'.deviceId = i then d'.removed se else d') := by
  unfold retireOne at h
  split at h
  next db hdelete =>
    obtain rfl := Except.ok.inj h
    exact Or.inl ⟨rfl, deleteRow_ok hdelete⟩
  next err hdelete =>
    split at h
    · obtain ⟨db, hmark, h⟩ := bind_eq_ok.mp h
      obtain rfl := Except.ok.inj h
      obtain ⟨d, hd, rfl⟩ := exists_of_deleteRow hdelete
      obtain ⟨se, hse, hrows⟩ := markRemoved_ok hd hmark
      exact Or.inr ⟨rfl, se, hse, d, hd, rfl, hrows⟩
    · cases h

/-- A device as the `UPDATE` leaves it. -/
def IsRemoved (seId : Option ℕ) (i : ℕ) (d : Device) : Prop :=
  d.deviceId = i ∧ d.deviceStatus = "removed" ∧ d.deviceName = none ∧ d.componentId = none ∧
    seId = some d.serviceEnvironmentId

/-- Before the devices `rest` of `l'` are retired. -/
structure Retiring (db₀ : Db σ) (l' : List ℕ) (seId : Option ℕ) (rest : List ℕ)
    (s : Db σ × List Retirement) : Prop where
  ids : s.2.map (·.deviceId) ++ rest = l'
  gone : ∀ r ∈ s.2, r.success = true → ∀ d ∈ s.1.device.rows, d.deviceId ≠ r.deviceId
  removed : l'.Nodup → ∀ r ∈ s.2, r.success = false →
    ∃ d ∈ s.1.device.rows, IsRemoved seId r.deviceId d
  stays : ∀ d, d.deviceId ∉ l' → (d ∈ s.1.device.rows ↔ d ∈ db₀.device.rows)

theorem Retiring.next (h : Retiring db₀ l' seId (i :: rest) s)
    (hstep : retireOne E seId s i = .ok s') : Retiring db₀ l' seId rest s' := by
  have hi : i ∈ l' := by
    rw [← h.ids]
    exact List.mem_append_right _ List.mem_cons_self
  -- a device that comes up once has not been there before
  have hfresh : l'.Nodup → ∀ r ∈ s.2, r.deviceId ≠ i := by
    intro hnodup r hr
    rw [← h.ids, List.nodup_append] at hnodup
    exact hnodup.2.2 _ (List.mem_map_of_mem hr) _ List.mem_cons_self
  rcases retireOne_cases hstep with ⟨hrows, hdevice⟩ | ⟨hrows, se, rfl, e, he, heid, hdevice⟩
  · refine ⟨by rw [hrows, ← h.ids]; simp, fun r hr hsuccess d hd => ?_,
      fun hnodup r hr hsuccess => ?_, fun d hd => ?_⟩
    · rw [hdevice] at hd
      obtain ⟨hd, hdi⟩ := List.mem_filter.mp hd
      rw [hrows, List.mem_append, List.mem_singleton] at hr
      rcases hr with hr | rfl
      · exact h.gone r hr hsuccess d hd
      · exact of_decide_eq_true hdi
    · rw [hrows, List.mem_append, List.mem_singleton] at hr
      rcases hr with hr | rfl
      · obtain ⟨d, hd, hremoved⟩ := h.removed hnodup r hr hsuccess
        refine ⟨d, ?_, hremoved⟩
        rw [hdevice, List.mem_filter]
        exact ⟨hd, decide_eq_true (hremoved.1 ▸ hfresh hnodup r hr)⟩
      · cases hsuccess
    · rw [hdevice, List.mem_filter, ← h.stays d hd]
      exact and_iff_left (decide_eq_true fun heq => hd (heq ▸ hi))
  · refine ⟨by rw [hrows, ← h.ids]; simp, fun r hr hsuccess d hd => ?_,
      fun hnodup r hr hsuccess => ?_, fun d hd => ?_⟩
    · rw [hdevice] at hd
      obtain ⟨d', hd', rfl⟩ := List.mem_map.mp hd
      rw [hrows, List.mem_append, List.mem_singleton] at hr
      rcases hr with hr | rfl
      · have hne := h.gone r hr hsuccess d' hd'
        split
        · exact hne
        · exact hne
      · cases hsuccess
    · rw [hrows, List.mem_append, List.mem_singleton] at hr
      rcases hr with hr | rfl
      · obtain ⟨d, hd, hremoved⟩ := h.removed hnodup r hr hsuccess
        refine ⟨d, ?_, hremoved⟩
        rw [hdevice, List.mem_map]
        exact ⟨d, hd, if_neg (hremoved.1 ▸ hfresh hnodup r hr)⟩
      · refine ⟨e.removed se, ?_, heid, rfl, rfl, rfl, rfl⟩
        rw [hdevice, List.mem_map]
        exact ⟨e, he, if_pos heid⟩
    · rw [hdevice, ← h.stays d hd, List.mem_map]
      constructor
      · rintro ⟨d', hd', rfl⟩
        by_cases heq : d'.deviceId = i
        · rw [if_pos heq] at hd
          exact absurd (show d'.deviceId ∈ l' from heq ▸ hi) hd
        · rwa [if_neg heq]
      · exact fun hmem => ⟨d, hmem, if_neg fun heq : d.deviceId = i => hd (heq ▸ hi)⟩

/-! ## The rack locations -/

/-- A device after both statements on rack locations. -/
def unracked (db : Db σ) (l : List ℕ) (d : Device) : Device :=
  if d.deviceId ∈ l ∨ ∃ c ∈ db.others.component, db.Unracks l c ∧ d.componentId = some c.componentId
  then { d with rackLocationId := none } else d

theorem unracked_deviceId (db : Db σ) (l : List ℕ) (d : Device) :
    (unracked db l d).deviceId = d.deviceId := by
  unfold unracked
  split <;> rfl

theorem located_clearDeviceRacks (j : ℕ) :
    (∃ c ∈ (clearDeviceRacks db l).others.component,
      (clearDeviceRacks db l).others.Located l c ∧ c.componentId = j) ↔
    ∃ c ∈ db.others.component, db.Unracks l c ∧ c.componentId = j := by
  constructor
  · rintro ⟨c', hc', hlocated, hj⟩
    obtain ⟨c, hc, rfl⟩ := List.mem_map.mp hc'
    by_cases htaken : ∃ d ∈ db.device.rows, d.deviceId ∈ l ∧ d.rackLocationId ≠ none ∧
        d.componentId = some c.componentId
    · rw [if_pos htaken] at hlocated
      exact absurd rfl hlocated.1
    · rw [if_neg htaken] at hlocated hj
      refine ⟨c, hc, ⟨hlocated, fun d hd hdl hdr heq => ?_⟩, hj⟩
      exact htaken ⟨d, hd, hdl, hdr, heq⟩
  · rintro ⟨c, hc, ⟨hlocated, hnone⟩, hj⟩
    refine ⟨c, List.mem_map.mpr ⟨c, hc, if_neg ?_⟩, hlocated, hj⟩
    rintro ⟨d, hd, hdl, hdr, heq⟩
    exact hnone d hd hdl hdr heq

theorem rows_clearRacks : (clearComponentRacks (clearDeviceRacks db l) l).device.rows =
    db.device.rows.map (unracked db l) := by
  have hfind : ∀ d : Device, (∃ c ∈ (clearDeviceRacks db l).others.component,
      (clearDeviceRacks db l).others.Located l c ∧ d.componentId = some c.componentId) ↔
        ∃ c ∈ db.others.component, db.Unracks l c ∧ d.componentId = some c.componentId := by
    intro d
    cases d.componentId with
    | none => simp
    | some j =>
      simpa only [Option.some.injEq, @eq_comm _ j] using located_clearDeviceRacks j
  show (db.device.rows.map _).map _ = _
  rw [List.map_map]
  refine List.map_congr_left fun d _ => ?_
  rw [Function.comp_apply]
  simp only [hfind]
  unfold unracked
  by_cases hd : d.deviceId ∈ l
  · simp [hd]
  · simp [hd]

theorem unracked_congr (h : ∀ i, i ∈ l ↔ i ∈ l') : unracked db l d = unracked db l' d := by
  unfold unracked
  refine if_congr ?_ rfl rfl
  simp only [Db.Unracks, Others.Located, h]

/-- **When the rows that are returned say what has happened.** -/
theorem retireDevices_iff (E : Elsewhere σ) (db : Db σ) (l : List ℕ) (db' : Db σ)
    (rows : List Retirement) (h : retireDevices E db l = .ok (db', rows)) :
    Retired db l db' rows ↔ Suits db l := by
  obtain ⟨rest, -, h⟩ := bind_eq_ok.mp h
  obtain ⟨rest', -, h⟩ := bind_eq_ok.mp h
  obtain ⟨others, -, h⟩ := bind_eq_ok.mp h
  have hperm : (l ++ E.order (managers db l)).Perm (concerned db l) :=
    (E.order_perm _).append_left l
  have hend := foldlM_rest_keeps (P := Retiring (clearComponentRacks (clearDeviceRacks
      ((db.setRest rest).setRest rest') _) _) _ _) (fun _ _ _ _ => Retiring.next)
    ⟨rfl, fun _ hr => absurd hr List.not_mem_nil, fun _ _ hr => absurd hr List.not_mem_nil,
      fun _ _ => Iff.rfl⟩ h
  have hids : rows.map (·.deviceId) = l ++ E.order (managers db l) :=
    (List.append_nil _).symm.trans hend.ids
  have hstays : ∀ d, d.deviceId ∉ concerned db l →
      (d ∈ db'.device.rows ↔ ∃ e ∈ db.device.rows, unracked db (concerned db l) e = d) := by
    intro d hd
    rw [hend.stays d fun hmem => hd (hperm.mem_iff.mp hmem), rows_clearRacks, List.mem_map]
    refine exists_congr fun e => and_congr_right fun _ => ?_
    rw [← unracked_congr fun _ => hperm.mem_iff]
    rfl
  constructor
  · intro hretired
    refine ⟨hperm.nodup_iff.mp (hids ▸ hretired.once), fun d hd hnot hrack c hc hunracks heq => ?_⟩
    -- the row without its rack location has the key of the row that should stay
    have hcleared := (hstays { d with rackLocationId := none } hnot).mpr
      ⟨d, hd, if_pos (Or.inr ⟨c, hc, hunracks, heq⟩)⟩
    have hsame := List.inj_on_of_nodup_map db'.device.nodup hcleared
      ((hretired.stays d hnot).mpr hd) rfl
    exact hrack (congrArg (·.rackLocationId) hsame).symm
  · intro hsuits
    have hnodup := hperm.nodup_iff.mpr hsuits.nodup
    refine ⟨by rwa [hids], fun i => by rw [hids]; exact hperm.mem_iff, hend.gone,
      fun r hr hfalse => ?_, fun d hd => ?_⟩
    · obtain ⟨d, hd, hid, hstatus, hname, hcomponent, hse⟩ := hend.removed hnodup r hr hfalse
      obtain ⟨se, hfind, hseid⟩ := Option.map_eq_some_iff.mp hse
      obtain ⟨hmem, hsite⟩ := Library.of_find?_eq_some hfind
      exact ⟨d, hd, hid, hstatus, hname, hcomponent, se, hmem, hsite, hseid.symm⟩
    · have hkeep : ∀ e ∈ db.device.rows, e.deviceId ∉ concerned db l →
          unracked db (concerned db l) e = e := by
        intro e he hnot
        unfold unracked
        split
        next hcleared =>
          obtain ⟨c, hc, hunracks, heq⟩ := hcleared.resolve_left hnot
          have hnone : e.rackLocationId = none := by
            by_contra hrack
            exact hsuits.racks e he hnot hrack c hc hunracks heq
          rw [← hnone]
        next => rfl
      rw [hstays d hd]
      constructor
      · rintro ⟨e, he, rfl⟩
        rw [unracked_deviceId] at hd
        rwa [hkeep e he hd]
      · exact fun hmem => ⟨d, hmem, hkeep d hmem hd⟩

/-! ## Two lists -/

/-- Device 2 is the BMC of device 1, and something refers to it. -/
def withBmc : Db Unit where
  device := ⟨[⟨1, some 10, some "a", some 7, none, none, "up", 1⟩,
    ⟨2, some 20, some "b", none, none, none, "up", 1⟩], by decide⟩
  serviceEnvironment := [⟨1, "production"⟩, ⟨2, "unallocated"⟩]
  others := ⟨[⟨10, some 7⟩, ⟨20, none⟩], [(1, 10), (2, 20)], [⟨20, 10, "bmc"⟩], ()⟩

def refersToBmc : Elsewhere Unit where
  early := fun _ _ => .ok ()
  prepare := fun _ _ => .ok ()
  cleanup := fun db _ => .ok db.others
  deleteNotes := fun _ _ => ()
  deleteDevice := fun db i =>
    if i = 2 then raise .foreignKeyViolation "fk_block_storage_device_device_device_id"
    else .ok db.others
  updateDevice := fun db _ => .ok db.others
  order := id
  order_perm := fun l => .refl l

theorem retireDevices_iff_withBmc : ∃ db' rows,
    retireDevices refersToBmc withBmc [1] = .ok (db', rows) ∧ Retired withBmc [1] db' rows :=
  ⟨_, [⟨1, true⟩, ⟨2, false⟩], rfl,
    (retireDevices_iff refersToBmc withBmc [1] _ _ rfl).mpr ⟨by decide, by decide⟩⟩

theorem retireDevices_bmcListed : ∃ db' rows,
    retireDevices refersToBmc withBmc [1, 2] = .ok (db', rows) ∧
      ¬ Retired withBmc [1, 2] db' rows := by
  refine ⟨_, [⟨1, true⟩, ⟨2, false⟩, ⟨2, false⟩], rfl, fun h => ?_⟩
  exact absurd h.once (by decide)

end Retire
end JazzHands.DeviceManip

import JazzHands.Library.WithRecursive
import JazzHands.Postgres.Error
import JazzHands.Postgres.RowEvent

/-!
# The caches of components and devices

`create_ct_component_hier.sql` and `create_ct_device_components.sql`, with the tables under them.  A
component sits in a slot of another one, and a device is tied to one component.

The triggers that check types of components and slots can only raise, and the one that makes a
component for a new device does so by statements of its own; they are not part of this model.
-/

namespace JazzHands.Components

open Library Postgres

structure Component where
  componentId : ℕ
  parentSlotId : Option ℕ
  deriving DecidableEq

structure Slot where
  slotId : ℕ
  componentId : ℕ
  deriving DecidableEq

structure Device where
  deviceId : ℕ
  componentId : Option ℕ

/-- A row of `ct_component_hier`: the path leads from the child up to the component. -/
@[ext] structure HierRow where
  componentId : ℕ
  childComponentId : ℕ
  componentPath : List ℕ
  level : ℕ
  deriving DecidableEq

/-- A row of `ct_device_components`. -/
@[ext] structure DeviceRow where
  deviceId : ℕ
  componentId : ℕ
  componentPath : List ℕ
  level : ℕ
  deriving DecidableEq

structure Db where
  component : List Component
  slot : List Slot
  device : List Device
  ctComponentHier : List HierRow
  ctDeviceComponents : List DeviceRow

/-! ## `v_component_hier` -/

/-- A row of the recursive query `component_hier`. -/
structure QueryRow where
  componentId : ℕ
  childComponentId : ℕ
  slotId : Option ℕ
  componentPath : List ℕ
  deriving DecidableEq

/-- `LEFT JOIN slot USING (component_id)`: the slots of a component, or a NULL when it has none. -/
def slotsOf (slot : List Slot) (componentId : ℕ) : List (Option ℕ) :=
  let slots := (slot.filter (·.componentId = componentId)).map fun s => some s.slotId
  if slots = [] then [none] else slots

/-- The part before `UNION`: each component under itself. -/
def selfRows (component : List Component) (slot : List Slot) : List QueryRow :=
  component.flatMap fun c => (slotsOf slot c.componentId).map fun s =>
    ⟨c.componentId, c.componentId, s, [c.componentId]⟩

/-- The part after `UNION`: the components that sit in the slot. -/
def childRows (component : List Component) (slot : List Slot) (p : QueryRow) : List QueryRow :=
  (component.filter fun c => p.slotId ≠ none ∧ p.slotId = c.parentSlotId).flatMap fun c =>
    (slotsOf slot c.componentId).map fun s =>
      ⟨p.componentId, c.componentId, s, c.componentId :: p.componentPath⟩

/-- `v_component_hier`.  In a forest no path is longer than the table of components, so that these
rounds are all. -/
def vComponentHier (component : List Component) (slot : List Slot) : List HierRow :=
  ((union (childRows component slot) (selfRows component slot) component.length).map fun r =>
    ⟨r.componentId, r.childComponentId, r.componentPath, r.componentPath.length⟩).dedup

/-! ## `cache_component_parent_handler` -/

/-- The rows that the last statement of the handler inserts: every path up from the component of the
slot, under every path up to the new component. -/
def upstreamRows (slot : List Slot) (ct : List HierRow) (parentSlotId componentId : ℕ) :
    List HierRow :=
  (slot.filter (·.slotId = parentSlotId)).flatMap fun s =>
    (ct.filter (·.childComponentId = s.componentId)).flatMap fun ch =>
      (ct.filter (·.componentId = componentId)).map fun ch2 =>
        ⟨ch.componentId, ch2.childComponentId, ch2.componentPath ++ ch.componentPath,
          ch2.componentPath.length + ch.componentPath.length⟩

/-- The rows that go when the component `old` leaves its parent. -/
def leaveParent (ct : List HierRow) (old : Component) : List HierRow :=
  if old.parentSlotId ≠ none then
    ct.filter fun r => ¬ (old.componentId ∈ r.componentPath ∧ r.componentId ≠ old.componentId)
  else ct

/-- The rows with those that come when the component `new` gets its parent. -/
def enterParent (slot : List Slot) (ct : List HierRow) (new : Component) : List HierRow :=
  match new.parentSlotId with
  | some p => ct ++ upstreamRows slot ct p new.componentId
  | none => ct

def cacheComponentParentHandler (slot : List Slot) (ct : List HierRow) :
    RowEvent Component → List HierRow
  | .insert new => enterParent slot
      (ct ++ [⟨new.componentId, new.componentId, [new.componentId], 1⟩]) new
  | .delete old => leaveParent ct old
  | .update old new => enterParent slot (leaveParent ct old) new

/-! ## `v_device_components` -/

/-- The rows of the inner query: the components under the component of each device. -/
def devicesAbove (ctComponentHier : List HierRow) (device : List Device) : List DeviceRow :=
  ctComponentHier.flatMap fun ch =>
    (device.filter (·.componentId = some ch.componentId)).map fun d =>
      ⟨d.deviceId, ch.childComponentId, ch.componentPath, ch.level⟩

/-- `v_device_components`: of the devices above a component those at the smallest level. -/
def vDeviceComponents (ctComponentHier : List HierRow) (device : List Device) : List DeviceRow :=
  let ch := devicesAbove ctComponentHier device
  ch.filter fun r => ∀ q ∈ ch, q.componentId = r.componentId → r.level ≤ q.level

/-! ## The handlers of `ct_device_components` -/

/-- The component of a device other than the one with the given id. -/
def IsOtherDevice (device : List Device) (deviceId componentId : ℕ) : Prop :=
  ∃ d ∈ device, d.componentId = some componentId ∧ d.deviceId ≠ deviceId
  deriving Decidable

/-- The rows that a device gets: the given ones, without the components of other devices. -/
def deviceRows (device : List Device) (deviceId : ℕ) (ch : List HierRow) : List DeviceRow :=
  (ch.filter fun r => ¬ IsOtherDevice device deviceId r.childComponentId).map fun r =>
    ⟨deviceId, r.childComponentId, r.componentPath, r.level⟩

/-- The rows without those of the device that gives up its component. -/
def leaveDevice (dc : List DeviceRow) (old : Device) : List DeviceRow :=
  if old.componentId ≠ none then dc.filter (·.deviceId ≠ old.deviceId) else dc

/-- The rows with those of the device that gets a component. -/
def enterDevice (device : List Device) (ctComponentHier : List HierRow) (dc : List DeviceRow)
    (new : Device) : List DeviceRow :=
  match new.componentId with
  | some c => dc ++ deviceRows device new.deviceId (ctComponentHier.filter (·.componentId = c))
  | none => dc

def cacheDeviceComponentDeviceHandler (device : List Device) (ctComponentHier : List HierRow)
    (dc : List DeviceRow) : RowEvent Device → List DeviceRow
  | .insert new => enterDevice device ctComponentHier dc new
  | .delete old => leaveDevice dc old
  | .update old new => enterDevice device ctComponentHier (leaveDevice dc old) new

/-- The part of `cache_device_component_component_handler` for a component that leaves its parent:
`none` when the function returns there. -/
def leaveOwner (device : List Device) (dc : List DeviceRow) (old : Component) :
    Option (List DeviceRow) :=
  if old.parentSlotId = none then some dc
  else if ∃ d ∈ device, d.componentId = some old.componentId then none
  else
    match dc.find? (·.componentId = old.componentId) with
    | none => some dc
    | some dcRec => some (dc.filter fun r =>
        ¬ (old.componentId ∈ r.componentPath ∧ r.deviceId = dcRec.deviceId))

/-- The device that owns the component of the slot, by the view. -/
def slotDevice (slot : List Slot) (device : List Device) (ctComponentHier : List HierRow)
    (parentSlotId : ℕ) : Option Device :=
  ((slot.filter (·.slotId = parentSlotId)).flatMap fun s =>
    ((vDeviceComponents ctComponentHier device).filter
      (·.componentId = s.componentId)).flatMap fun dc =>
        device.filter (·.deviceId = dc.deviceId)).head?

/-- The part of `cache_device_component_component_handler` for a component that gets a parent. -/
def enterOwner (slot : List Slot) (device : List Device) (ctComponentHier : List HierRow)
    (dc : List DeviceRow) (new : Component) : List DeviceRow :=
  match new.parentSlotId.bind (slotDevice slot device ctComponentHier) with
  | none => dc
  | some devRec => dc ++ deviceRows device devRec.deviceId (ctComponentHier.filter fun ch =>
      devRec.componentId = some ch.componentId ∧ new.componentId ∈ ch.componentPath)

def cacheDeviceComponentComponentHandler (slot : List Slot) (device : List Device)
    (ctComponentHier : List HierRow) (dc : List DeviceRow) :
    RowEvent Component → List DeviceRow
  | .insert new => enterOwner slot device ctComponentHier dc new
  | .delete old => (leaveOwner device dc old).getD dc
  | .update old new =>
    match leaveOwner device dc old with
    | none => dc
    | some dc => enterOwner slot device ctComponentHier dc new

/-! ## Statements -/

inductive Statement where
  | insertComponent (new : Component)
  | deleteComponent (componentId : ℕ)
  | updateComponent (componentId : ℕ) (parentSlotId : Option ℕ)
  | insertSlot (new : Slot)
  | deleteSlot (slotId : ℕ)
  | insertDevice (new : Device)
  | deleteDevice (deviceId : ℕ)
  | updateDevice (deviceId : ℕ) (componentId : Option ℕ)

/-- The triggers of `component`, in the order of their names. -/
def fireComponent (db : Db) (ev : RowEvent Component) : Db :=
  let ctComponentHier := cacheComponentParentHandler db.slot db.ctComponentHier ev
  { db with
    ctComponentHier := ctComponentHier
    ctDeviceComponents := cacheDeviceComponentComponentHandler db.slot db.device ctComponentHier
      db.ctDeviceComponents ev }

def fireDevice (db : Db) (ev : RowEvent Device) : Db :=
  { db with
    ctDeviceComponents := cacheDeviceComponentDeviceHandler db.device db.ctComponentHier
      db.ctDeviceComponents ev }

/-- `ak_component_parent_slot_id` and `fk_component_prnt_slt_id`, for a row next to `others`. -/
def checkParentSlot (slot : List Slot) (others : List Component) (parentSlotId : Option ℕ) :
    Result Unit := do
  raiseIf (parentSlotId ≠ none ∧ ∃ c ∈ others, c.parentSlotId = parentSlotId) .uniqueViolation
    "duplicate key value violates unique constraint ak_component_parent_slot_id"
  raiseIf (parentSlotId ≠ none ∧ ∀ s ∈ slot, some s.slotId ≠ parentSlotId) .foreignKeyViolation
    "violates foreign key constraint fk_component_prnt_slt_id"

/-- `fk_device_comp_id`. -/
def checkDevice (component : List Component) (componentId : Option ℕ) : Result Unit :=
  raiseIf (componentId ≠ none ∧ ∀ c ∈ component, some c.componentId ≠ componentId)
    .foreignKeyViolation "violates foreign key constraint fk_device_comp_id"

def insertComponent (db : Db) (new : Component) : Result Db := do
  raiseIf (∃ c ∈ db.component, c.componentId = new.componentId) .uniqueViolation
    "duplicate key value violates unique constraint pk_component"
  checkParentSlot db.slot db.component new.parentSlotId
  .ok (fireComponent { db with component := db.component ++ [new] } (.insert new))

def deleteComponent (db : Db) (old : Component) : Result Db := do
  raiseIf (∃ s ∈ db.slot, s.componentId = old.componentId) .foreignKeyViolation
    "violates foreign key constraint fk_slot_component_id"
  raiseIf (∃ d ∈ db.device, d.componentId = some old.componentId) .foreignKeyViolation
    "violates foreign key constraint fk_device_comp_id"
  .ok (fireComponent
    { db with component := db.component.filter (·.componentId ≠ old.componentId) } (.delete old))

/-- `UPDATE component SET parent_slot_id = ...` on one row. -/
def updateComponent (db : Db) (old : Component) (parentSlotId : Option ℕ) : Result Db := do
  let new := { old with parentSlotId := parentSlotId }
  checkParentSlot db.slot (db.component.filter (·.componentId ≠ old.componentId)) parentSlotId
  .ok (fireComponent { db with component := db.component.map fun c =>
    if c.componentId = old.componentId then new else c } (.update old new))

def insertSlot (db : Db) (new : Slot) : Result Db := do
  raiseIf (∃ s ∈ db.slot, s.slotId = new.slotId) .uniqueViolation
    "duplicate key value violates unique constraint pk_slot_id"
  raiseIf (∀ c ∈ db.component, c.componentId ≠ new.componentId) .foreignKeyViolation
    "violates foreign key constraint fk_slot_component_id"
  .ok { db with slot := db.slot ++ [new] }

def deleteSlot (db : Db) (slotId : ℕ) : Result Db := do
  raiseIf (∃ c ∈ db.component, c.parentSlotId = some slotId) .foreignKeyViolation
    "violates foreign key constraint fk_component_prnt_slt_id"
  .ok { db with slot := db.slot.filter (·.slotId ≠ slotId) }

def insertDevice (db : Db) (new : Device) : Result Db := do
  raiseIf (∃ d ∈ db.device, d.deviceId = new.deviceId) .uniqueViolation
    "duplicate key value violates unique constraint pk_device"
  checkDevice db.component new.componentId
  .ok (fireDevice { db with device := db.device ++ [new] } (.insert new))

def deleteDevice (db : Db) (old : Device) : Result Db :=
  .ok (fireDevice { db with device := db.device.filter (·.deviceId ≠ old.deviceId) } (.delete old))

/-- `UPDATE device SET component_id = ...` on one row. -/
def updateDevice (db : Db) (old : Device) (componentId : Option ℕ) : Result Db := do
  let new := { old with componentId := componentId }
  checkDevice db.component componentId
  .ok (fireDevice { db with device := db.device.map fun d =>
    if d.deviceId = old.deviceId then new else d } (.update old new))

/-- A statement; an UPDATE or DELETE that finds no row does nothing. -/
def execute (db : Db) : Statement → Result Db
  | .insertComponent new => insertComponent db new
  | .deleteComponent id =>
    match db.component.find? (·.componentId = id) with
    | none => .ok db
    | some old => deleteComponent db old
  | .updateComponent id parentSlotId =>
    match db.component.find? (·.componentId = id) with
    | none => .ok db
    | some old => updateComponent db old parentSlotId
  | .insertSlot new => insertSlot db new
  | .deleteSlot id => deleteSlot db id
  | .insertDevice new => insertDevice db new
  | .deleteDevice id =>
    match db.device.find? (·.deviceId = id) with
    | none => .ok db
    | some old => deleteDevice db old
  | .updateDevice id componentId =>
    match db.device.find? (·.deviceId = id) with
    | none => .ok db
    | some old => updateDevice db old componentId

/-- The tables after a statement: an error leaves them as they were. -/
def step (db : Db) (s : Statement) : Db :=
  match execute db s with
  | .ok db' => db'
  | .error _ => db

end JazzHands.Components

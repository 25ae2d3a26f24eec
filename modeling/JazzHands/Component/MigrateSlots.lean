import JazzHands.Component.PropertyCheck

/-!
# `component_manip.migrate_component_template_slots`

When the type of a component changes, what is attached to the slots of the old type is moved to
slots of the new one with the same name and function, and old slots are deleted.

The caches, which follow the components, are not part of this model.
-/

namespace JazzHands.Component
namespace MigrateSlots

open Postgres

/-! ## Tables -/

structure Layer3Interface where
  layer3InterfaceId : ℕ
  slotId : Option ℕ

/-- A row of `slot_type_permitted_component_slot_type`. -/
structure PermittedComponent where
  slotTypeId : ℕ
  componentSlotTypeId : ℕ

structure Db extends PropertyTables where
  interComponentConnection : List Connection
  componentProperty : List PropertyRow
  layer3Interface : List Layer3Interface
  slotTypePermittedRemoteSlotType : List PermittedRemote
  slotTypePermittedComponentSlotType : List PermittedComponent
  /-- The slots that rows of other tables refer to. -/
  slotRefs : List ℕ

/-- The tables that `validate_inter_component_connection` reads. -/
def Db.slots (db : Db) : Slots :=
  ⟨db.slot.map (·.toSlot), db.slotType, db.slotTypePermittedRemoteSlotType⟩

structure Choices where
  /-- Which row of `slot_map` an update takes. -/
  slot : FirstRow ℕ
  /-- Which connection is met first. -/
  connection : FirstRow (ℕ × ℕ)
  /-- `slot_1_upd` is run before `slot_2_upd`. -/
  slot1First : Bool

/-! ## Old slots and new slots -/

/-- A row of the joins of `old_slot` and `new_slot`. -/
structure JoinedSlot where
  s : SlotRow
  st : SlotType
  c : ComponentRow
  ctst : Option SlotTemplate

def joinedSlots (db : Db) (cid : ℕ) : List JoinedSlot :=
  (db.slot.filter (·.componentId = cid)).flatMap fun s =>
    (db.slotType.filter (·.slotTypeId = s.slotTypeId)).flatMap fun st =>
      (db.component.filter (·.componentId = s.componentId)).map fun c =>
        ⟨s, st, c, db.template s.componentTypeSlotTemplateId⟩

/-- `ctst.component_type_id IS NOT DISTINCT FROM c.component_type_id`. -/
def JoinedSlot.OfType (j : JoinedSlot) : Prop :=
  j.ctst.map (·.componentTypeId) = some j.c.componentTypeId
  deriving Decidable

def oldSlot (db : Db) (cid : ℕ) : List JoinedSlot := (joinedSlots db cid).filter (¬ ·.OfType)

def newSlot (db : Db) (cid : ℕ) : List JoinedSlot := (joinedSlots db cid).filter (·.OfType)

/-- The ids of old slots with those of new ones. -/
def slotMap (db : Db) (cid : ℕ) : List (ℕ × ℕ) :=
  (oldSlot db cid).flatMap fun o =>
    ((newSlot db cid).filter fun n =>
      o.s.slotName = n.s.slotName ∧ o.st.slotFunction = n.st.slotFunction).map fun n =>
        (o.s.slotId, n.s.slotId)

/-! ## The updates -/

def newSlotOf (choices : Choices) (m : List (ℕ × ℕ)) (slotId : ℕ) : Option ℕ :=
  choices.slot.pick ((m.filter (·.1 = slotId)).map (·.2))

def slot1Upd (choices : Choices) (m : List (ℕ × ℕ)) (ic : Connection) : Option Connection :=
  (newSlotOf choices m ic.slot1Id).map fun n => { ic with slot1Id := n }

def slot2Upd (choices : Choices) (m : List (ℕ × ℕ)) (ic : Connection) : Option Connection :=
  (newSlotOf choices m ic.slot2Id).map fun n => { ic with slot2Id := n }

/-- A row that one part of the statement has written is not written by another one. -/
def connectionUpd (choices : Choices) (m : List (ℕ × ℕ)) (ic : Connection) : Option Connection :=
  if choices.slot1First then (slot1Upd choices m ic).or (slot2Upd choices m ic)
  else (slot2Upd choices m ic).or (slot1Upd choices m ic)

def propUpd (choices : Choices) (m : List (ℕ × ℕ)) (cp : PropertyRow) : Option PropertyRow :=
  (cp.slotId.bind (newSlotOf choices m)).map fun n => { cp with slotId := some n }

def compUpd (choices : Choices) (m : List (ℕ × ℕ)) (c : ComponentRow) : Option ComponentRow :=
  (c.parentSlotId.bind (newSlotOf choices m)).map fun n => { c with parentSlotId := some n }

def l3iUpd (choices : Choices) (m : List (ℕ × ℕ)) (l3i : Layer3Interface) :
    Option Layer3Interface :=
  (l3i.slotId.bind (newSlotOf choices m)).map fun n => { l3i with slotId := some n }

def updateRows {ρ : Type} (upd : ρ → Option ρ) (rows : List ρ) : List ρ :=
  rows.map fun r => (upd r).getD r

/-! ## The deletes -/

/-- A property, a layer 3 interface, a connection or a component is attached to the slot. -/
def Attached (db : Db) (slotId : ℕ) : Prop :=
  (∃ cp ∈ db.componentProperty, cp.slotId = some slotId) ∨
    (∃ l3i ∈ db.layer3Interface, l3i.slotId = some slotId) ∨
    (∃ ic ∈ db.interComponentConnection, ic.slot1Id = slotId ∨ ic.slot2Id = slotId) ∨
    ∃ c ∈ db.component, c.parentSlotId = some slotId
  deriving Decidable

/-- `delete_migrated_slots` and `delete_empty_slots`. -/
def deleted (db : Db) (cid : ℕ) : List ℕ :=
  (slotMap db cid).map (·.1) ++
    ((oldSlot db cid).filter fun os => ¬ Attached db os.s.slotId ∧ os.ctst ≠ none).map (·.s.slotId)

/-- The tables with all of this done. -/
def written (choices : Choices) (db : Db) (cid : ℕ) : Db :=
  let m := slotMap db cid
  { db with
    interComponentConnection := updateRows (connectionUpd choices m) db.interComponentConnection
    componentProperty := updateRows (propUpd choices m) db.componentProperty
    component := updateRows (compUpd choices m) db.component
    layer3Interface := updateRows (l3iUpd choices m) db.layer3Interface
    slot := db.slot.filter (·.slotId ∉ deleted db cid) }

/-! ## Constraints and triggers -/

/-- `ak_inter_component_con_sl1_id` and `ak_inter_component_con_sl2_id`.  No row leaves a slot that
another one comes to, so that it does not matter which is written first. -/
def checkSlotKeys (table : List Connection) (new : Connection) : Result Unit := do
  raiseIf (∃ ic ∈ table, ic.interComponentConnectionId ≠ new.interComponentConnectionId ∧
      ic.slot1Id = new.slot1Id) .uniqueViolation
    "duplicate key value violates unique constraint ak_inter_component_con_sl1_id"
  raiseIf (∃ ic ∈ table, ic.interComponentConnectionId ≠ new.interComponentConnectionId ∧
      ic.slot2Id = new.slot2Id) .uniqueViolation
    "duplicate key value violates unique constraint ak_inter_component_con_sl2_id"

/-- `ak_component_parent_slot_id`. -/
def checkParentKey (table : List ComponentRow) (new : ComponentRow) : Result Unit :=
  raiseIf (∃ c ∈ table, c.componentId ≠ new.componentId ∧ c.parentSlotId = new.parentSlotId)
    .uniqueViolation "duplicate key value violates unique constraint ak_component_parent_slot_id"

/-- Components of the type may sit in the slot. -/
def PermitsComponent (db : Db) (componentTypeId slotId : ℕ) : Prop :=
  ∃ s ∈ db.slot, s.slotId = slotId ∧ ∃ stpcst ∈ db.slotTypePermittedComponentSlotType,
    stpcst.slotTypeId = s.slotTypeId ∧ ∃ ct ∈ db.componentType,
      ct.componentTypeId = componentTypeId ∧ ct.slotTypeId = some stpcst.componentSlotTypeId
  deriving Decidable

def validateComponentParentSlotId (db : Db) (new : ComponentRow) : Result Unit :=
  whenSet new.parentSlotId fun slotId =>
    raiseIf (¬ PermitsComponent db new.componentTypeId slotId) .foreignKeyViolation
      "Component type % is not permitted in slot % (slot type %)"

def setSlotNamesByTrigger (t : NameTables) (new : ComponentRow) : Result NameTables := do
  let slot ← setSlotNames t
    ((t.slot.filter (·.componentId = new.componentId)).map (·.slotId))
  .ok { t with slot := slot }

/-! ## The function -/

/-- What is checked of the rows that were written, and of those that were deleted. -/
def checkWritten (choices : Choices) (db : Db) (cid : ℕ) : Result Unit := do
  let m := slotMap db cid
  let db' := written choices db cid
  let connections := db.interComponentConnection.filterMap (connectionUpd choices m)
  let components := db.component.filterMap (compUpd choices m)
  connections.forM (checkSlotKeys db'.interComponentConnection)
  components.forM (checkParentKey db'.component)
  raiseIf (∃ slotId ∈ deleted db cid, Attached db' slotId ∨ slotId ∈ db.slotRefs)
    .foreignKeyViolation "update or delete on table slot violates foreign key constraint"
  connections.forM (validateInterComponentConnection db'.slots choices.connection
    db'.interComponentConnection)
  (db.componentProperty.filterMap (propUpd choices m)).forM
    (validateComponentProperty db'.toPropertyTables db'.componentProperty)
  components.forM (validateComponentParentSlotId db')

/-- The tables at the statement: all slots of the component have been named. -/
def named (db : Db) (cid : ℕ) : Result Db := do
  let slot ← setSlotNames db.toNameTables
    ((db.slot.filter (·.componentId = cid)).map (·.slotId))
  .ok { db with slot := slot }

/-- `component_manip.migrate_component_template_slots(component_id)`, with the rows that it
returns. -/
def migrateComponentTemplateSlots (choices : Choices) (db : Db) (cid : ℕ) :
    Result (Db × List SlotRow) := do
  let db ← named db cid
  let m := slotMap db cid
  checkWritten choices db cid
  let db' := written choices db cid
  let names ← (db.component.filterMap (compUpd choices m)).foldlM setSlotNamesByTrigger
    db'.toNameTables
  .ok ({ db' with slot := names.slot },
    db.slot.flatMap fun s => (m.filter (·.2 = s.slotId)).map fun _ => s)

end MigrateSlots
end JazzHands.Component

import JazzHands.Cache.ComponentHier
import JazzHands.Component.SlotNames

/-!
# `component_manip.remove_component_hier`

The function removes a component with all that sits in it.  Components whose asset has a serial
number are kept unless `really_delete` is set, each on its own.

* `Db`: the tables.  Of the tables that refer to components and slots besides, the ids are there.

The properties on the slots of all components of the tree go, and the slots of a component that
leaves its parent get new names.
-/

namespace JazzHands.Component
namespace RemoveHier

open Components (HierRow cacheComponentParentHandler leaveParent IsPath componentIds)
open Library Postgres
open Relation (ReflTransGen)

/-! ## Tables -/

structure Asset where
  assetId : ℕ
  componentId : Option ℕ
  serialNumber : Option String

structure ComponentProperty where
  componentPropertyId : ℕ
  componentId : Option ℕ
  slotId : Option ℕ
  interComponentConnectionId : Option ℕ

structure Db extends NameTables where
  asset : List Asset
  componentProperty : List ComponentProperty
  interComponentConnection : List Connection
  ctComponentHier : List HierRow
  /-- The components that rows of other tables refer to. -/
  componentRefs : List ℕ
  /-- The slots that rows of other tables refer to. -/
  slotRefs : List ℕ

/-- A slot as the cache sees it. -/
def cachedSlot (s : SlotRow) : Components.Slot := ⟨s.slotId, s.componentId⟩

namespace Db

/-- The components as the cache sees them. -/
def components (db : Db) : List Components.Component := db.component.map (·.toComponent)

def slots (db : Db) : List Components.Slot := db.slot.map cachedSlot

end Db

/-! ## The lists -/

/-- The rows of `v_component_hier` for a component. -/
def hierOf (db : Db) (cid : ℕ) : List HierRow := db.ctComponentHier.filter (·.componentId = cid)

def slotList (db : Db) (cid : ℕ) : List ℕ :=
  (hierOf db cid).flatMap fun h =>
    (db.slot.filter (·.componentId = h.childComponentId)).map fun s => s.slotId

/-- The serial numbers in `LEFT JOIN asset`. -/
def serialNumbers (db : Db) (componentId : ℕ) : List (Option String) :=
  let assets := db.asset.filter (·.componentId = some componentId)
  if assets = [] then [none] else assets.map (·.serialNumber)

def shelfList (db : Db) (cid : ℕ) (reallyDelete : Bool) : List ℕ :=
  if reallyDelete then []
  else (hierOf db cid).flatMap fun h =>
    ((serialNumbers db h.childComponentId).filter (· ≠ none)).map fun _ => h.childComponentId

def deleteList (db : Db) (cid : ℕ) (reallyDelete : Bool) : List ℕ :=
  if reallyDelete then (hierOf db cid).map (·.childComponentId)
  else (hierOf db cid).flatMap fun h =>
    ((serialNumbers db h.childComponentId).filter (· = none)).map fun _ => h.childComponentId

/-! ## The statements -/

/-- `slot1_id = ANY (slot_list) OR slot2_id = ANY (slot_list)`. -/
def Touches (slotList : List ℕ) (ic : Connection) : Prop :=
  ic.slot1Id ∈ slotList ∨ ic.slot2Id ∈ slotList
  deriving Decidable

def deleteConnections (slotList : List ℕ) (db : Db) : Result Db := do
  raiseIf (∃ cp ∈ db.componentProperty, ∃ i ∈ cp.interComponentConnectionId,
      ∃ ic ∈ db.interComponentConnection, Touches slotList ic ∧ ic.interComponentConnectionId = i)
    .foreignKeyViolation "violates foreign key constraint fk_comp_prop_int_cmp_conn_id"
  .ok { db with
    interComponentConnection := db.interComponentConnection.filter fun ic => ¬ Touches slotList ic }

/-- `c.component_id = ANY (list) AND parent_slot_id IS NOT NULL`. -/
def Leaves (list : List ℕ) (c : ComponentRow) : Prop :=
  c.componentId ∈ list ∧ c.parentSlotId ≠ none
  deriving Decidable

/-- The row with `parent_slot_id = NULL`. -/
def alone (c : ComponentRow) : ComponentRow := { c with parentSlotId := none }

/-- The triggers for a component that left its parent: `cache_component_parent_handler`, and
`set_slot_names_by_trigger`. -/
def afterLeaving (db : Db) (old : ComponentRow) : Result Db := do
  let ct := cacheComponentParentHandler db.slots db.ctComponentHier
    (.update old.toComponent (alone old).toComponent)
  let slot ← setSlotNames db.toNameTables
    ((db.slot.filter (·.componentId = old.componentId)).map fun s => s.slotId)
  .ok { db with ctComponentHier := ct, slot := slot }

def leaveParents (list : List ℕ) (db : Db) : Result Db :=
  (db.component.filter (Leaves list ·)).foldlM afterLeaving
    { db with component := db.component.map fun c => if Leaves list c then alone c else c }

/-- `cp.component_id = ANY (delete_list) OR slot_id = ANY (slot_list)`. -/
def IsOn (deleteList slotList : List ℕ) (cp : ComponentProperty) : Prop :=
  (∃ i ∈ cp.componentId, i ∈ deleteList) ∨ ∃ q ∈ cp.slotId, q ∈ slotList
  deriving Decidable

def deleteProperties (deleteList slotList : List ℕ) (db : Db) : Db :=
  { db with componentProperty :=
      db.componentProperty.filter fun cp => ¬ IsOn deleteList slotList cp }

/-- `slot_id = ANY (slot_list) AND s.component_id = ANY(delete_list)`. -/
def SlotGoes (deleteList slotList : List ℕ) (s : SlotRow) : Prop :=
  s.slotId ∈ slotList ∧ s.componentId ∈ deleteList
  deriving Decidable

def RefersToSlot (db : Db) (slotId : ℕ) : Prop :=
  (∃ c ∈ db.component, c.parentSlotId = some slotId) ∨
    (∃ cp ∈ db.componentProperty, cp.slotId = some slotId) ∨
    (∃ ic ∈ db.interComponentConnection, ic.slot1Id = slotId ∨ ic.slot2Id = slotId) ∨
    slotId ∈ db.slotRefs
  deriving Decidable

def deleteSlots (deleteList slotList : List ℕ) (db : Db) : Result Db := do
  raiseIf (∃ s ∈ db.slot, SlotGoes deleteList slotList s ∧ RefersToSlot db s.slotId)
    .foreignKeyViolation "update or delete on table slot violates foreign key constraint"
  .ok { db with slot := db.slot.filter fun s => ¬ SlotGoes deleteList slotList s }

/-- `a.component_id = ANY (delete_list)`. -/
def deleteAssets (deleteList : List ℕ) (db : Db) : Db :=
  { db with asset := db.asset.filter fun a => ¬ ∃ i ∈ a.componentId, i ∈ deleteList }

def RefersToComponent (db : Db) (componentId : ℕ) : Prop :=
  (∃ a ∈ db.asset, a.componentId = some componentId) ∨
    (∃ cp ∈ db.componentProperty, cp.componentId = some componentId) ∨
    (∃ s ∈ db.slot, s.componentId = componentId) ∨ componentId ∈ db.componentRefs
  deriving Decidable

def deleteComponents (deleteList : List ℕ) (db : Db) : Result Db := do
  raiseIf (∃ c ∈ db.component, c.componentId ∈ deleteList ∧ RefersToComponent db c.componentId)
    .foreignKeyViolation "update or delete on table component violates foreign key constraint"
  .ok { db with
    component := db.component.filter fun c => ¬ c.componentId ∈ deleteList
    ctComponentHier := (db.component.filter fun c => c.componentId ∈ deleteList).foldl
      (fun ct old => cacheComponentParentHandler db.slots ct (.delete old.toComponent))
      db.ctComponentHier }

def removeComponentHier (db : Db) (cid : ℕ) (reallyDelete : Bool) : Result Db := do
  let slotList := slotList db cid
  let shelfList := shelfList db cid reallyDelete
  let deleteList := deleteList db cid reallyDelete
  let db ← deleteConnections slotList db
  let db ← leaveParents (deleteList ++ shelfList) db
  let db := deleteProperties deleteList slotList db
  let db ← deleteSlots deleteList slotList db
  let db := deleteAssets deleteList db
  deleteComponents deleteList db

end RemoveHier
end JazzHands.Component

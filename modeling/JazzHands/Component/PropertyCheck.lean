import JazzHands.Component.SlotNames
import JazzHands.Property.ValidateProperty

/-!
# Properties of components

`validate_component_property`, the trigger on `component_property`.
-/

namespace JazzHands.Component

open Postgres
open Property (Permit DataType checkPermitted toNumber9)

/-! ## Tables -/

/-- A row of `component_property`. -/
structure PropertyRow where
  componentPropertyId : ℕ
  componentFunction : Option String
  componentTypeId : Option ℕ
  componentId : Option ℕ
  interComponentConnectionId : Option ℕ
  slotFunction : Option String
  slotTypeId : Option ℕ
  slotId : Option ℕ
  componentPropertyName : Option String
  componentPropertyType : Option String
  propertyValue : Option String

structure ValComponentProperty where
  componentPropertyName : String
  componentPropertyType : String
  isMultivalue : Bool
  propertyDataType : DataType
  permitComponentTypeId : Permit
  requiredComponentTypeId : Option ℕ
  permitComponentFunction : Permit
  requiredComponentFunction : Option String
  permitComponentId : Permit
  permitInterComponentConnectionId : Permit
  permitSlotTypeId : Permit
  requiredSlotTypeId : Option ℕ
  permitSlotFunction : Permit
  requiredSlotFunction : Option String
  permitSlotId : Permit

structure ValComponentPropertyType where
  componentPropertyType : String
  isMultivalue : Bool

structure ValComponentPropertyValue where
  componentPropertyName : String
  componentPropertyType : String
  validPropertyValue : String

structure ComponentType where
  componentTypeId : ℕ
  slotTypeId : Option ℕ

/-- A row of `component_type_component_function`. -/
structure ComponentTypeFunction where
  componentFunction : String
  componentTypeId : ℕ

structure PropertyTables extends NameTables where
  slotType : List SlotType
  componentType : List ComponentType
  componentTypeComponentFunction : List ComponentTypeFunction
  valComponentProperty : List ValComponentProperty
  valComponentPropertyType : List ValComponentPropertyType
  valComponentPropertyValue : List ValComponentPropertyValue

namespace PropertyTables

variable (t : PropertyTables)

/-- `array_agg(component_function)` of a component type, NULL where there is none. -/
def functionsOf (componentTypeId : ℕ) : Option (List String) :=
  let rows := t.componentTypeComponentFunction.filter (·.componentTypeId = componentTypeId)
  if rows = [] then none else some (rows.map (·.componentFunction))

end PropertyTables

/-! ## The value -/

/-- The two properties are of the same thing. -/
def SameLhs (p new : PropertyRow) : Prop :=
  p.componentTypeId = new.componentTypeId ∧ p.componentFunction = new.componentFunction ∧
    p.componentId = new.componentId ∧ p.slotTypeId = new.slotTypeId ∧
    p.slotFunction = new.slotFunction ∧ p.slotId = new.slotId
  deriving Decidable

def checkMultivalue (v : ValComponentProperty) (vt : ValComponentPropertyType)
    (table : List PropertyRow) (new : PropertyRow) : Result Unit := do
  raiseIf (v.isMultivalue = false ∧ ∃ p ∈ table, p.componentPropertyId ≠ new.componentPropertyId ∧
      p.componentPropertyName = new.componentPropertyName ∧
      p.componentPropertyType = new.componentPropertyType ∧ SameLhs p new) .uniqueViolation
    "Property with name % and type % already exists for given LHS and property is not multivalue"
  raiseIf (vt.isMultivalue = false ∧ ∃ p ∈ table, p.componentPropertyId ≠ new.componentPropertyId ∧
      p.componentPropertyType = new.componentPropertyType ∧ SameLhs p new) .uniqueViolation
    "Property % of type % already exists for given LHS and property type is not multivalue"

/-- What `property_value` may be. -/
def checkText (t : PropertyTables) (v : ValComponentProperty) (value : String) : Result Unit :=
  match v.propertyDataType with
  -- a text is compared with a boolean
  | .boolean => raise .undefinedFunction "operator does not exist: character varying <> boolean"
  | .number => raiseIf (toNumber9 value = none) .invalidParameterValue
      "property_value must be numeric"
  | .list => raiseIf (¬ ∃ w ∈ t.valComponentPropertyValue,
      w.componentPropertyName = v.componentPropertyName ∧
      w.componentPropertyType = v.componentPropertyType ∧ w.validPropertyValue = value)
      .invalidParameterValue
      "property_value for component_property_name %, component_property_type % must be a valid value (\"%\")"
  | .string => .ok ()
  | _ => raise .invalidParameterValue "property_data_type is not a known type"

def checkValue (t : PropertyTables) (v : ValComponentProperty) (new : PropertyRow) :
    Result Unit :=
  match new.propertyValue with
  | some value => checkText t v value
  | none => raiseIf (v.propertyDataType ≠ .none) .invalidParameterValue
      "One of the property_value fields must be set: %"

/-! ## What the property is of -/

def checkPermits (v : ValComponentProperty) (new : PropertyRow) : Result Unit := do
  checkPermitted v.permitComponentTypeId new.componentTypeId "component_type_id"
  checkPermitted v.permitComponentFunction new.componentFunction "component_function"
  checkPermitted v.permitComponentId new.componentId "component_id"
  checkPermitted v.permitInterComponentConnectionId new.interComponentConnectionId
    "inter_component_connection_id"
  checkPermitted v.permitSlotTypeId new.slotTypeId "slot_type_id"
  checkPermitted v.permitSlotFunction new.slotFunction "slot_function"
  checkPermitted v.permitSlotId new.slotId "slot_id"

/-- Where a value is required and there is one, it is the same. -/
def checkRequired {α : Type} [DecidableEq α] (required found : Option α) (message : String) :
    Result Unit :=
  raiseIf (∃ r ∈ required, ∃ f ∈ found, r ≠ f) .invalidParameterValue message

/-- `NOT (required = ANY(functions))`. -/
def checkFunction (required : Option String) (functions : Option (List String))
    (message : String) : Result Unit :=
  raiseIf (∃ r ∈ required, ∃ fs ∈ functions, r ∉ fs) .invalidParameterValue message

/-- `component_attrs` of a slot. -/
def slotAttrs (t : PropertyTables) (slotId : ℕ) : Option (SlotType × ComponentType) := do
  let cs ← t.slot.find? (·.slotId = slotId)
  let st ← t.slotType.find? (·.slotTypeId = cs.slotTypeId)
  let c ← t.component.find? (·.componentId = cs.componentId)
  let ct ← t.componentType.find? (·.componentTypeId = c.componentTypeId)
  some (st, ct)

def checkSlotId (t : PropertyTables) (v : ValComponentProperty) (slotId : ℕ) : Result Unit := do
  let row := slotAttrs t slotId
  checkRequired v.requiredComponentTypeId (row.map (·.2.componentTypeId))
    "component_type for slot_id must be % (is: %)"
  checkFunction v.requiredComponentFunction (row.bind fun r => t.functionsOf r.2.componentTypeId)
    "component_function for slot_id must be % (is: %)"
  checkRequired v.requiredSlotTypeId (row.map (·.1.slotTypeId))
    "slot_type_id for slot_id must be % (is: %)"
  checkRequired v.requiredSlotFunction (row.map (·.1.slotFunction))
    "slot_function for slot_id must be % (is: %)"

/-- `component_attrs` of a component: there is no row when its type has no function. -/
def componentAttrs (t : PropertyTables) (componentId : ℕ) : Option (ℕ × List String) := do
  let c ← t.component.find? (·.componentId = componentId)
  let functions ← t.functionsOf c.componentTypeId
  some (c.componentTypeId, functions)

def checkComponentId (t : PropertyTables) (v : ValComponentProperty) (componentId : ℕ) :
    Result Unit := do
  let row := componentAttrs t componentId
  checkRequired v.requiredComponentTypeId (row.map (·.1))
    "component_type for component_id must be % (is: %)"
  checkFunction v.requiredComponentFunction (row.map (·.2))
    "component_function for component_id must be % (is: %)"

/-- A check of a column that is set. -/
def whenSet {α : Type} (column : Option α) (check : α → Result Unit) : Result Unit :=
  match column with
  | some a => check a
  | none => .ok ()

def checkTargets (t : PropertyTables) (v : ValComponentProperty) (new : PropertyRow) :
    Result Unit := do
  whenSet new.slotId (checkSlotId t v)
  whenSet new.slotTypeId fun slotTypeId => checkRequired v.requiredSlotFunction
    ((t.slotType.find? (·.slotTypeId = slotTypeId)).map (·.slotFunction))
    "slot_function for slot_type_id must be % (is: %)"
  whenSet new.componentId (checkComponentId t v)
  whenSet new.componentTypeId fun componentTypeId =>
    checkFunction v.requiredComponentFunction (t.functionsOf componentTypeId)
      "component_function for component_type_id must be % (is: %)"

/-! ## The trigger -/

/-- `validate_component_property`, of a row that is in the table already. -/
def validateComponentProperty (t : PropertyTables) (table : List PropertyRow)
    (new : PropertyRow) : Result Unit :=
  match t.valComponentProperty.find? fun v =>
      some v.componentPropertyName = new.componentPropertyName ∧
        some v.componentPropertyType = new.componentPropertyType,
    t.valComponentPropertyType.find? fun vt =>
      some vt.componentPropertyType = new.componentPropertyType with
  | some v, some vt => do
    checkMultivalue v vt table new
    checkValue t v new
    checkPermits v new
    checkTargets t v new
  | _, _ => raise .foreignKeyViolation "Component property name or type does not exist"

end JazzHands.Component

import JazzHands.Library.Runs
import JazzHands.Postgres.RowStatement
import JazzHands.Property.ValidateProperty

/-!
# Statements on properties and their definitions

`create_property_triggers.sql`, with the keys of the four tables.

* `valPropertyKeys` to `valPropertyValueKeys`: the keys to other tables; `validate_property` looks up
  those of a property itself.

Constraints between these tables and others, which only refuse statements, are left out.
-/

namespace JazzHands.Property

open Postgres RowStatement

variable {J : Type} [DecidableEq J] (validateJsonSchema : Option J → Option J → Result Bool)

/-! ## The triggers -/

/-- `AFTER INSERT OR UPDATE ON property`. -/
def validatePropertyRow (db : Db J) (e : RowEvent (Row J)) : Result Unit :=
  match e.new? with
  | none => .ok ()
  | some new => validateProperty validateJsonSchema db new

/-- `BEFORE INSERT OR UPDATE OF property_data_type, property_value_json_schema, permit_company_id ON
val_property`; `named` where `SET` names one of these. -/
def validateValPropertyRow (named : Bool) (e : RowEvent (ValProperty J)) : Result Unit :=
  match e with
  | .insert new => do
    validateValProperty new
    raiseIf (new.permitCompanyId ≠ .PROHIBITED) .invalidParameterValue
      "property.company_id is being retired.  Please use per-company collections"
  | .update old new =>
    if named then do
      validateValProperty new
      raiseIf (new.permitCompanyId ≠ .PROHIBITED ∧ old.permitCompanyId ≠ new.permitCompanyId)
        .invalidParameterValue
        "property.company_id is being retired.  Please use per-company collections"
    else .ok ()
  | .delete _ => .ok ()

/-- `AFTER UPDATE ON val_property`. -/
def validateValPropertyAfter (db : Db J) (e : RowEvent (ValProperty J)) : Result Unit :=
  match e with
  | .update _ new =>
    (db.property.filter fun r => r.propertyName = new.propertyName ∧
      r.propertyType = new.propertyType).forM (validateProperty validateJsonSchema db)
  | _ => .ok ()

/-- `AFTER DELETE ON val_property_value`. -/
def valPropertyValueDelCheck (db : Db J) (e : RowEvent ValPropertyValue) : Result Unit :=
  match e with
  | .delete old =>
    raiseIf (∃ p ∈ db.property, p.propertyName = old.propertyName ∧
        p.propertyType = old.propertyType ∧
          p.rhs.propertyValue = some old.validPropertyValue) .foreignKeyViolation
      "% instances of %:% with value %"
  | _ => .ok ()

/-! ## Keys -/

def ValProperty.key (v : ValProperty J) : String × String := (v.propertyName, v.propertyType)

def valPropertyKeys (db : Db J) (e : RowEvent (ValProperty J)) : Result Unit :=
  match e.new? with
  | none => .ok ()
  | some new =>
    raiseIf (∀ t ∈ db.valPropertyType, t.propertyType ≠ new.propertyType) .foreignKeyViolation
      "violates foreign key constraint fk_valprop_proptyp"

/-- `NO ACTION`: rows that refer to the old row have to find another one. -/
def valPropertyReferences (db : Db J) (e : RowEvent (ValProperty J)) : Result Unit :=
  match e.old? with
  | none => .ok ()
  | some old =>
    raiseIf ((∀ v ∈ db.valProperty, v.key ≠ old.key) ∧
        ((∃ p ∈ db.property, (p.propertyName, p.propertyType) = old.key) ∨
          ∃ x ∈ db.valPropertyValue, (x.propertyName, x.propertyType) = old.key))
      .foreignKeyViolation "is still referenced from table property"

def valPropertyTypeReferences (db : Db J) (e : RowEvent ValPropertyType) : Result Unit :=
  match e.old? with
  | none => .ok ()
  | some old =>
    raiseIf ((∀ t ∈ db.valPropertyType, t.propertyType ≠ old.propertyType) ∧
        ∃ v ∈ db.valProperty, v.propertyType = old.propertyType)
      .foreignKeyViolation "is still referenced from table val_property"

def valPropertyValueKeys (db : Db J) (e : RowEvent ValPropertyValue) : Result Unit :=
  match e.new? with
  | none => .ok ()
  | some new =>
    raiseIf (∀ v ∈ db.valProperty, v.key ≠ (new.propertyName, new.propertyType))
      .foreignKeyViolation "violates foreign key constraint fk_valproval_namtyp"

/-- The constraints on a row of `val_property`. -/
def checkValProperty (others : List (ValProperty J)) (new : ValProperty J) : Result Unit := do
  checkUnique ValProperty.key "pk_val_property" others new
  raiseIf (¬ ((new.propertyValueJsonSchema = none ∧ new.propertyDataType ≠ .json) ∨
      (new.propertyValueJsonSchema ≠ none ∧ new.propertyDataType = .json))) .checkViolation
    "violates check constraint ckc_json_schema_only_for_json_835572742"

/-! ## Statements -/

/-- An `UPDATE` that names none of the three columns leaves them as they are. -/
def ofNamed (named : Bool) (s : RowStatement (ValProperty J)) : RowStatement (ValProperty J) :=
  if named then s
  else s.naming fun old values => { values with
    propertyDataType := old.propertyDataType
    propertyValueJsonSchema := old.propertyValueJsonSchema
    permitCompanyId := old.permitCompanyId }

inductive Statement (J : Type) where
  | property (s : RowStatement (Row J))
  | valProperty (named : Bool) (s : RowStatement (ValProperty J))
  | valPropertyType (s : RowStatement ValPropertyType)
  | valPropertyValue (s : RowStatement ValPropertyValue)

def execute (db : Db J) : Statement J → Result (Db J)
  | .property s => do
    let t ← s.execute (checkUnique (·.propertyId) "pk_property") db.property
    let db' := { db with property := t }
    (s.events db.property).forM (validatePropertyRow validateJsonSchema db')
    .ok db'
  | .valProperty named s => do
    let s := ofNamed named s
    (s.events db.valProperty).forM (validateValPropertyRow named)
    let t ← s.execute checkValProperty db.valProperty
    let db' := { db with valProperty := t }
    (s.events db.valProperty).forM (valPropertyKeys db')
    (s.events db.valProperty).forM (valPropertyReferences db')
    (s.events db.valProperty).forM (validateValPropertyAfter validateJsonSchema db')
    .ok db'
  | .valPropertyType s => do
    let t ← s.execute (checkUnique (·.propertyType) "pk_val_property_type") db.valPropertyType
    let db' := { db with valPropertyType := t }
    (s.events db.valPropertyType).forM (valPropertyTypeReferences db')
    .ok db'
  | .valPropertyValue s => do
    let t ← s.execute (checkUnique id "pk_val_property_vaue") db.valPropertyValue
    let db' := { db with valPropertyValue := t }
    (s.events db.valPropertyValue).forM (valPropertyValueKeys db')
    (s.events db.valPropertyValue).forM (valPropertyValueDelCheck db')
    .ok db'

def step (db : Db J) (s : Statement J) : Db J :=
  match execute validateJsonSchema db s with
  | .ok db' => db'
  | .error _ => db

end JazzHands.Property

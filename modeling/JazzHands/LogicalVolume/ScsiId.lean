import JazzHands.Postgres.RowStatement

/-!
# The SCSI id of a logical volume and of its component

`logical_volume_property_deprecation_triggers.sql`: the property `SCSI_Id` of a logical volume and
that of the virtual component behind it are copied to each other.

An `UPDATE` always sets the value, so the triggers `UPDATE OF` fire for every row that it writes.
-/

namespace JazzHands.ScsiId

open Postgres RowStatement

structure LogicalVolume where
  logicalVolumeId : ℕ
  filesystemType : Option String

/-- The functions are those of the type of the component. -/
structure Component where
  componentId : ℕ
  componentFunction : List String

/-- The tables that stay as they are. -/
structure Catalog where
  logicalVolume : List LogicalVolume
  component : List Component
  valLogicalVolumeProperty : List (String × String)
  logicalVolumeKey : (logicalVolume.map (·.logicalVolumeId)).Nodup

structure LogicalVolumeProperty where
  logicalVolumeId : ℕ
  filesystemType : Option String
  logicalVolumePropertyName : String
  logicalVolumePropertyValue : Option String

structure ComponentProperty where
  componentId : ℕ
  componentPropertyType : String
  componentPropertyName : String
  propertyValue : Option String

structure VirtualComponentLogicalVolume where
  componentId : ℕ
  logicalVolumeId : ℕ
  deriving DecidableEq

structure Db where
  logicalVolumeProperty : List LogicalVolumeProperty
  componentProperty : List ComponentProperty
  virtualComponentLogicalVolume : List VirtualComponentLogicalVolume

/-! ## Constraints -/

def foreignKeyMessage : String := "insert or update on table violates foreign key constraint"

def LogicalVolumeProperty.key (r : LogicalVolumeProperty) : ℕ × String :=
  (r.logicalVolumeId, r.logicalVolumePropertyName)

/-- The foreign key with the file system type of the property holds for no type. -/
def Catalog.Permits (cat : Catalog) (name : String) (filesystemType : Option String) : Prop :=
  ∀ fs ∈ filesystemType, (name, fs) ∈ cat.valLogicalVolumeProperty
  deriving Decidable

def checkLogicalVolumeProperty (cat : Catalog) (others : List LogicalVolumeProperty)
    (new : LogicalVolumeProperty) : Result Unit := do
  checkUnique LogicalVolumeProperty.key "ak_logical_vol_prop_fs_lv_name" others new
  raiseIf (new.logicalVolumeId ∉ cat.logicalVolume.map (·.logicalVolumeId)) .foreignKeyViolation
    foreignKeyMessage
  raiseIf (¬ cat.Permits new.logicalVolumePropertyName new.filesystemType) .foreignKeyViolation
    foreignKeyMessage

def checkComponentProperty (cat : Catalog) (_ : List ComponentProperty) (new : ComponentProperty) :
    Result Unit :=
  raiseIf (new.componentId ∉ cat.component.map (·.componentId)) .foreignKeyViolation
    foreignKeyMessage

def checkVirtualComponentLogicalVolume (cat : Catalog) (others : List VirtualComponentLogicalVolume)
    (new : VirtualComponentLogicalVolume) : Result Unit := do
  checkUnique (·.componentId) "pk_virtual_component_logical_volume" others new
  raiseIf (new.componentId ∉ cat.component.map (·.componentId)) .foreignKeyViolation
    foreignKeyMessage
  raiseIf (new.logicalVolumeId ∉ cat.logicalVolume.map (·.logicalVolumeId)) .foreignKeyViolation
    foreignKeyMessage

/-- `to_number(value, '9')` reads a digit, after a blank and a sign. -/
def isNumber (value : String) : Bool :=
  let rest := match value.toList with
    | ' ' :: rest => rest
    | l => l
  let rest := match rest with
    | '-' :: rest => rest
    | '+' :: rest => rest
    | l => l
  (rest.head?.map Char.isDigit).getD false

/-- The property is of the data type number. -/
def IsValid : Option String → Prop
  | none => False
  | some value => isNumber value

instance : DecidablePred IsValid
  | none => inferInstanceAs (Decidable False)
  | some value => inferInstanceAs (Decidable (isNumber value))

/-- The property asks for a component with the function `storage`; a component without any function
is not asked. -/
def Catalog.IsStorage (cat : Catalog) (componentId : ℕ) : Prop :=
  ∀ c ∈ cat.component, c.componentId = componentId →
    c.componentFunction = [] ∨ "storage" ∈ c.componentFunction
  deriving Decidable

/-- The rows of the same property of the same component. -/
def ComponentProperty.SameProperty (new r : ComponentProperty) : Prop :=
  r.componentPropertyName = new.componentPropertyName ∧
    r.componentPropertyType = new.componentPropertyType ∧ r.componentId = new.componentId
  deriving Decidable

/-- The checks of `property_value`. -/
def validateValue : Option String → Result Unit
  | none => raise .invalidParameterValue "One of the property_value fields must be set: %"
  | some value => raiseIf (¬ isNumber value) .invalidParameterValue "property_value must be numeric"

/-- `validate_component_property`, for a property with the row of `val_component_property` that
`SCSI_Id` has.  The row itself is in the table, so there is another one when there are two. -/
def validateComponentProperty (cat : Catalog) (t : List ComponentProperty)
    (new : ComponentProperty) : Result Unit := do
  raiseIf (1 < t.countP fun r => new.SameProperty r) .uniqueViolation
    "Property with name % and type % already exists for given LHS and property is not multivalue"
  validateValue new.propertyValue
  raiseIf (¬ cat.IsStorage new.componentId) .invalidParameterValue
    "component_function for component_id must be % (is: %)"

/-! ## Statements and triggers -/

/-- The second is `INSERT ... ON CONFLICT DO NOTHING`. -/
inductive Statement where
  | logicalVolumeProperty (s : RowStatement LogicalVolumeProperty)
  | insertDoNothing (rows : List LogicalVolumeProperty)
  | componentProperty (s : RowStatement ComponentProperty)
  | virtualComponentLogicalVolume (new : VirtualComponentLogicalVolume)

section Triggers

variable (cat : Catalog) (execute : Db → Statement → Result Db)

/-- `logical_volume_property_scsi_id_sync`.  On `DELETE` the name in `NEW` is NULL. -/
def logicalVolumePropertyScsiIdSync (db : Db) : RowEvent LogicalVolumeProperty → Result Db
  | .insert new =>
    if new.logicalVolumePropertyName ≠ "SCSI_Id" then .ok db
    else
      let links := db.virtualComponentLogicalVolume.filter fun k =>
        k.logicalVolumeId = new.logicalVolumeId
      exceptionWhen .uniqueViolation db <| execute db <| .componentProperty <| .insert <|
        links.map fun k => ⟨k.componentId, "disk", new.logicalVolumePropertyName,
          new.logicalVolumePropertyValue⟩
  | .update old new =>
    if new.logicalVolumePropertyName ≠ "SCSI_Id" then .ok db
    else do
      raiseIf (old.logicalVolumeId ≠ new.logicalVolumeId) .invalidParameterValue
        "May not change logical_volume_id"
      -- the alias is `vclv`
      raise .undefinedTable "missing FROM-clause entry for table \"lclv\""
  | .delete old =>
    execute db <| .componentProperty <| .delete fun cp =>
      (∃ k ∈ db.virtualComponentLogicalVolume, k.logicalVolumeId = old.logicalVolumeId ∧
        k.componentId = cp.componentId) ∧
      cp.componentPropertyName = old.logicalVolumePropertyName ∧
      cp.componentPropertyType = "disk" ∧ cp.propertyValue = old.logicalVolumePropertyValue

def componentPropertyScsiIdLogicalVolumeSync (db : Db) : RowEvent ComponentProperty → Result Db
  | .insert new =>
    if new.componentPropertyName ≠ "SCSI_Id" ∨ new.componentPropertyType ≠ "disk" then .ok db
    else
      let links := db.virtualComponentLogicalVolume.filter fun k => k.componentId = new.componentId
      execute db <| .insertDoNothing <| links.flatMap fun k =>
        (cat.logicalVolume.filter fun lv => lv.logicalVolumeId = k.logicalVolumeId).map fun lv =>
          ⟨lv.logicalVolumeId, lv.filesystemType, new.componentPropertyName, new.propertyValue⟩
  | .update old new =>
    if new.componentPropertyName ≠ "SCSI_Id" ∨ new.componentPropertyType ≠ "disk" then .ok db
    else do
      raiseIf (old.componentId ≠ new.componentId) .invalidParameterValue
        "May not update component_id on SCSI_Id"
      raise .undefinedColumn "record \"new\" has no field \"component_property_anme\""
  | .delete old =>
    execute db <| .logicalVolumeProperty <| .delete fun lvp =>
      (∃ k ∈ db.virtualComponentLogicalVolume, k.componentId = old.componentId ∧
        k.logicalVolumeId = lvp.logicalVolumeId) ∧
      lvp.logicalVolumePropertyName = old.componentPropertyName ∧
      lvp.logicalVolumePropertyValue = old.propertyValue

/-- The triggers of `component_property`. -/
def componentPropertyTriggers (db : Db) (e : RowEvent ComponentProperty) : Result Db := do
  let db ← componentPropertyScsiIdLogicalVolumeSync cat execute db e
  e.new?.forM (validateComponentProperty cat db.componentProperty)
  .ok db

/-- `virtual_component_logical_volume_legacy_sync`, on `INSERT`. -/
def virtualComponentLogicalVolumeLegacySync (db : Db) (new : VirtualComponentLogicalVolume) :
    Result Db :=
  let properties := db.componentProperty.filter fun cp => cp.componentId = new.componentId ∧
    cp.componentPropertyType = "disk" ∧ cp.componentPropertyName = "SCSI_Id"
  execute db <| .insertDoNothing <| properties.flatMap fun cp =>
    (cat.logicalVolume.filter fun lv => lv.logicalVolumeId = new.logicalVolumeId).map fun lv =>
      ⟨new.logicalVolumeId, lv.filesystemType, cp.componentPropertyName, cp.propertyValue⟩

end Triggers

/-- The rows whose key is new. -/
def withoutConflict (t : List LogicalVolumeProperty) :
    List LogicalVolumeProperty → List LogicalVolumeProperty
  | [] => []
  | new :: rows =>
    if ∃ r ∈ t, r.key = new.key then withoutConflict t rows
    else new :: withoutConflict (t ++ [new]) rows

/-- A statement on `logical_volume_property`, with what its triggers issue. -/
def executeLogicalVolumeProperty (cat : Catalog) (execute : Db → Statement → Result Db) (db : Db)
    (s : RowStatement LogicalVolumeProperty) : Result Db := do
  let rows ← s.execute (checkLogicalVolumeProperty cat) db.logicalVolumeProperty
  (s.events db.logicalVolumeProperty).foldlM (logicalVolumePropertyScsiIdSync execute)
    { db with logicalVolumeProperty := rows }

/-- A statement, where triggers may be nested so deep. -/
def execute (cat : Catalog) : ℕ → Db → Statement → Result Db
  | 0, _, _ => raise .statementTooComplex "stack depth limit exceeded"
  | depth + 1, db, .logicalVolumeProperty s =>
    executeLogicalVolumeProperty cat (execute cat depth) db s
  | depth + 1, db, .insertDoNothing rows =>
    executeLogicalVolumeProperty cat (execute cat depth) db
      (.insert (withoutConflict db.logicalVolumeProperty rows))
  | depth + 1, db, .componentProperty s => do
    let rows ← s.execute (checkComponentProperty cat) db.componentProperty
    (s.events db.componentProperty).foldlM (componentPropertyTriggers cat (execute cat depth))
      { db with componentProperty := rows }
  | depth + 1, db, .virtualComponentLogicalVolume new => do
    checkVirtualComponentLogicalVolume cat db.virtualComponentLogicalVolume new
    virtualComponentLogicalVolumeLegacySync cat (execute cat depth)
      { db with virtualComponentLogicalVolume := db.virtualComponentLogicalVolume ++ [new] } new

/-! ## The statements on the property -/

/-- A row is named by its logical volume or its component. -/
inductive ScsiStatement where
  | insertLogicalVolumeProperty (logicalVolumeId : ℕ) (filesystemType value : Option String)
  | updateLogicalVolumeProperty (logicalVolumeId : ℕ) (value : Option String)
  | deleteLogicalVolumeProperty (logicalVolumeId : ℕ)
  | insertComponentProperty (componentId : ℕ) (value : Option String)
  | updateComponentProperty (componentId : ℕ) (value : Option String)
  | deleteComponentProperty (componentId : ℕ)
  | insertVirtualComponentLogicalVolume (new : VirtualComponentLogicalVolume)

/-- The row is the SCSI id of the logical volume. -/
def LogicalVolumeProperty.IsScsiIdOf (l : ℕ) (r : LogicalVolumeProperty) : Prop :=
  r.logicalVolumeId = l ∧ r.logicalVolumePropertyName = "SCSI_Id"
  deriving Decidable

/-- The row is the SCSI id of the component. -/
def ComponentProperty.IsScsiIdOf (c : ℕ) (r : ComponentProperty) : Prop :=
  r.componentId = c ∧ r.componentPropertyType = "disk" ∧ r.componentPropertyName = "SCSI_Id"

instance (c : ℕ) : DecidablePred (ComponentProperty.IsScsiIdOf c) :=
  fun _ => inferInstanceAs (Decidable (_ ∧ _ ∧ _))

def ScsiStatement.statement : ScsiStatement → Statement
  | insertLogicalVolumeProperty l fs value =>
    .logicalVolumeProperty (.insert [⟨l, fs, "SCSI_Id", value⟩])
  | updateLogicalVolumeProperty l value => .logicalVolumeProperty <| .update fun r =>
    if r.IsScsiIdOf l then some { r with logicalVolumePropertyValue := value } else none
  | deleteLogicalVolumeProperty l => .logicalVolumeProperty <| .delete fun r => r.IsScsiIdOf l
  | insertComponentProperty c value => .componentProperty (.insert [⟨c, "disk", "SCSI_Id", value⟩])
  | updateComponentProperty c value => .componentProperty <| .update fun r =>
    if r.IsScsiIdOf c then some { r with propertyValue := value } else none
  | deleteComponentProperty c => .componentProperty <| .delete fun r => r.IsScsiIdOf c
  | insertVirtualComponentLogicalVolume new => .virtualComponentLogicalVolume new

/-- Triggers are nested at most five deep here; the limit of the server is far above. -/
def maxDepth : ℕ := 100

def ScsiStatement.execute (cat : Catalog) (db : Db) (s : ScsiStatement) : Result Db :=
  ScsiId.execute cat maxDepth db s.statement

/-- The tables after a statement: an error leaves them as they were. -/
def step (cat : Catalog) (db : Db) (s : ScsiStatement) : Db :=
  match s.execute cat db with
  | .ok db' => db'
  | .error _ => db

end JazzHands.ScsiId

import JazzHands.Postgres.RowStatement

/-!
# File systems and the properties of logical volumes

`create_filesystem_compat_triggers.sql`: the mount point, the serial number and the label of a file
system are properties of the logical volume, too, and are copied both ways.

An `UPDATE` names the columns that it changes.  Columns that no trigger reads are left out, with
their foreign keys.
-/

namespace JazzHands.FilesystemCompat

open Postgres RowStatement

/-- The properties that are columns of a file system. -/
inductive Mirrored where
  | mountPoint
  | serial
  | label
  deriving DecidableEq

def Mirrored.text : Mirrored → String
  | mountPoint => "MountPoint"
  | serial => "Serial"
  | label => "Label"

def Mirrored.ofText? (name : String) : Option Mirrored :=
  [mountPoint, serial, label].find? fun n => n.text = name

structure Filesystem where
  blockStorageDeviceId : ℕ
  deviceId : ℕ
  filesystemType : String
  mountpoint : Option String
  filesystemLabel : Option String
  filesystemSerial : Option String
  deriving DecidableEq

namespace Filesystem

variable (fs : Filesystem)

def get : Mirrored → Option String
  | .mountPoint => fs.mountpoint
  | .serial => fs.filesystemSerial
  | .label => fs.filesystemLabel

def set (value : Option String) : Mirrored → Filesystem
  | .mountPoint => { fs with mountpoint := value }
  | .serial => { fs with filesystemSerial := value }
  | .label => { fs with filesystemLabel := value }

end Filesystem

structure LogicalVolumeProperty where
  logicalVolumeId : ℕ
  logicalVolumeType : Option String
  filesystemType : Option String
  logicalVolumePropertyName : Option String
  logicalVolumePropertyValue : Option String
  deriving DecidableEq

structure LogicalVolume where
  logicalVolumeId : ℕ
  logicalVolumeName : String
  logicalVolumeType : String
  volumeGroupId : ℕ
  deviceId : ℕ
  filesystemType : Option String
  deriving DecidableEq

structure BlockStorageDevice where
  blockStorageDeviceId : ℕ
  blockStorageDeviceName : String
  blockStorageDeviceType : String
  deviceId : ℕ
  logicalVolumeId : Option ℕ
  uuid : Option String
  deriving DecidableEq

structure VolumeGroup where
  volumeGroupId : ℕ
  volumeGroupName : String
  volumeGroupType : String

inductive Permit where
  | required
  | prohibited
  | allowed
  deriving DecidableEq

structure FilesystemType where
  filesystemType : String
  permitMountpoint : Permit
  permitFilesystemLabel : Permit
  permitFilesystemSerial : Permit

structure BlockStorageDeviceType where
  blockStorageDeviceType : String
  permitLogicalVolumeId : Permit
  permitComponentId : Permit
  permitEncryptedBlockStorageDeviceId : Permit
  isEncrypted : Option Bool

/-- The tables that stay as they are; the last one has the block storage devices that other tables
refer to. -/
structure Catalog where
  volumeGroup : List VolumeGroup
  valLogicalVolumeType : List String
  valLogicalVolumeProperty : List (String × String)
  valFilesystemType : List FilesystemType
  valBlockStorageDeviceType : List BlockStorageDeviceType
  referenced : List ℕ

structure Db where
  logicalVolume : List LogicalVolume
  blockStorageDevice : List BlockStorageDevice
  blockStorageDeviceSeq : ℕ
  filesystem : List Filesystem
  logicalVolumeProperty : List LogicalVolumeProperty
  deriving DecidableEq

/-! ## Constraints -/

/-- The foreign key of the name and the type holds when one of them is NULL. -/
def Catalog.Permits (cat : Catalog) (name filesystemType : Option String) : Prop :=
  ∀ n ∈ name, ∀ t ∈ filesystemType, (n, t) ∈ cat.valLogicalVolumeProperty
  deriving Decidable

def Catalog.HasType (cat : Catalog) (filesystemType : String) : Prop :=
  ∃ vft ∈ cat.valFilesystemType, vft.filesystemType = filesystemType
  deriving Decidable

/-- `ak_logical_vol_prop_fs_lv_name`; names that are NULL differ. -/
def LogicalVolumeProperty.Conflicts (new c : LogicalVolumeProperty) : Prop :=
  new.logicalVolumePropertyName ≠ none ∧ c.logicalVolumeId = new.logicalVolumeId ∧
    c.logicalVolumePropertyName = new.logicalVolumePropertyName
  deriving Decidable

def propertyKeys (cat : Catalog) (db : Db) (others : List LogicalVolumeProperty)
    (new : LogicalVolumeProperty) : Result Unit := do
  raiseIf (∃ c ∈ others, new.Conflicts c) .uniqueViolation
    "duplicate key value violates unique constraint ak_logical_vol_prop_fs_lv_name"
  raiseIf (∀ lv ∈ db.logicalVolume, lv.logicalVolumeId ≠ new.logicalVolumeId) .foreignKeyViolation
    "violates foreign key constraint fk_lvol_prop_lvid_fstyp"
  raiseIf (¬ cat.Permits new.logicalVolumePropertyName new.filesystemType) .foreignKeyViolation
    "violates foreign key constraint fk_lvol_prop_lvpn_fsty"
  raiseIf (¬ ∀ t ∈ new.logicalVolumeType, t ∈ cat.valLogicalVolumeType) .foreignKeyViolation
    "violates foreign key constraint fk_lvprop_type"
  raiseIf (¬ ∀ t ∈ new.filesystemType, cat.HasType t) .foreignKeyViolation
    "violates foreign key constraint fk_logical_volume_property_filesystem_type"

def filesystemKeys (cat : Catalog) (db : Db) (others : List Filesystem) (new : Filesystem) : Result Unit := do
  checkUnique (·.blockStorageDeviceId) "ak_filesystem_block_storage_device_id" others new
  raiseIf (∀ b ∈ db.blockStorageDevice, b.blockStorageDeviceId = new.blockStorageDeviceId →
      b.deviceId ≠ new.deviceId)
    .foreignKeyViolation "violates foreign key constraint fk_filesystem_block_storage_device_id"
  raiseIf (¬ cat.HasType new.filesystemType) .foreignKeyViolation
    "violates foreign key constraint fk_filesystem_val_filesystem_type"

/-- `property_utils.validate_filesystem`.  Its other checks compare with `REQURIED`, which no type
has. -/
def validateFilesystem (cat : Catalog) (new : Filesystem) : Result Unit :=
  match cat.valFilesystemType.find? (·.filesystemType = new.filesystemType) with
  | none => .ok ()
  | some vft => do
    raiseIf (new.mountpoint ≠ none ∧ vft.permitMountpoint = .prohibited) .invalidParameterValue
      "mountpoint is not permitted"
    raiseIf (new.filesystemLabel ≠ none ∧ vft.permitFilesystemLabel = .prohibited)
      .invalidParameterValue "filesystem_label is not permitted"
    raiseIf (new.filesystemSerial ≠ none ∧ vft.permitFilesystemSerial = .prohibited)
      .invalidParameterValue "filesystem_serial is not permitted"

/-- The trigger is `UPDATE OF` the four columns. -/
def validateUpdated (cat : Catalog) (old new : Filesystem) : Result Unit :=
  if (old.filesystemType, old.mountpoint, old.filesystemLabel, old.filesystemSerial) =
      (new.filesystemType, new.mountpoint, new.filesystemLabel, new.filesystemSerial) then .ok ()
  else validateFilesystem cat new

/-- `property_utils.validate_block_storage_device`, for a device that is a logical volume and not
encrypted. -/
def validateBlockStorageDevice (cat : Catalog) (new : BlockStorageDevice) : Result Unit :=
  match cat.valBlockStorageDeviceType.find?
      (·.blockStorageDeviceType = new.blockStorageDeviceType) with
  | none => raise .foreignKeyViolation
      "violates foreign key constraint fk_block_storage_device_blk_stg_dev_typ"
  | some bsdt => do
    raiseIf (bsdt.permitLogicalVolumeId = .prohibited) .invalidParameterValue
      "logical_volume_id is set and that is PROHIBITED"
    raiseIf (bsdt.permitComponentId = .required) .invalidParameterValue
      "component_id is not set and is REQUIRED"
    raiseIf (bsdt.permitEncryptedBlockStorageDeviceId = .required) .invalidParameterValue
      "encrypted_block_storage_device_id is not set and is REQUIRED"
    raiseIf (bsdt.isEncrypted = some true) .invalidParameterValue "is_encrypted does not match type"

def checkBlockStorageDevice (cat : Catalog) (others : List BlockStorageDevice)
    (new : BlockStorageDevice) : Result Unit := do
  checkUnique (·.blockStorageDeviceId) "pk_block_storage_device" others new
  checkUnique (fun b => (b.deviceId, b.blockStorageDeviceName, b.blockStorageDeviceType))
    "ak_block_storage_device_blk_stg_name_type_devid" others new
  raiseIf (∃ c ∈ others, new.uuid ≠ none ∧ c.deviceId = new.deviceId ∧ c.uuid = new.uuid)
    .uniqueViolation
    "duplicate key value violates unique constraint ak_block_storage_device_device_uuid"
  validateBlockStorageDevice cat new

/-! ## The queries of the triggers -/

namespace Db

variable (db : Db)

/-- The logical volume of a block storage device. -/
def volumeOf (blockStorageDeviceId : ℕ) : Option LogicalVolume :=
  (db.blockStorageDevice.find? (·.blockStorageDeviceId = blockStorageDeviceId)).bind fun b =>
    b.logicalVolumeId.bind fun i => db.logicalVolume.find? (·.logicalVolumeId = i)

/-- The block storage device of a logical volume. -/
def deviceOf (logicalVolumeId : ℕ) : Option BlockStorageDevice :=
  db.blockStorageDevice.find? (·.logicalVolumeId = some logicalVolumeId)

def filesystemOn (blockStorageDeviceId : ℕ) : Option Filesystem :=
  db.filesystem.find? (·.blockStorageDeviceId = blockStorageDeviceId)

/-- `UPDATE logical_volume SET filesystem_type ... WHERE filesystem_type != ...`. -/
def setFilesystemType (logicalVolumeId : ℕ) (filesystemType : String) : Db :=
  { db with
    logicalVolume := db.logicalVolume.map fun lv =>
      if lv.logicalVolumeId = logicalVolumeId ∧ ∃ t ∈ lv.filesystemType, t ≠ filesystemType then
        { lv with filesystemType := some filesystemType }
      else lv }

end Db

/-! ## The triggers -/

inductive Statement where
  | filesystem (s : RowStatement Filesystem)
  | logicalVolumeProperty (s : RowStatement LogicalVolumeProperty)

/-- The row of a property that a file system gives. -/
def LogicalVolume.property (lv : LogicalVolume) (filesystemType : String) (n : Mirrored)
    (value : String) : LogicalVolumeProperty :=
  ⟨lv.logicalVolumeId, some lv.logicalVolumeType, some filesystemType, some n.text, some value⟩

/-- `logical_volume_id`, `logical_volume_type` and `filesystem_type` of a condition. -/
def LogicalVolumeProperty.IsOf (lv : LogicalVolume) (filesystemType : Option String)
    (r : LogicalVolumeProperty) : Prop :=
  r.logicalVolumeId = lv.logicalVolumeId ∧ r.logicalVolumeType = some lv.logicalVolumeType ∧
    ∃ t ∈ filesystemType, r.filesystemType = some t

instance (lv : LogicalVolume) (filesystemType : Option String) :
    DecidablePred (LogicalVolumeProperty.IsOf lv filesystemType) :=
  fun _ => inferInstanceAs (Decidable (_ ∧ _ ∧ _))

/-- The row of the property, with that condition. -/
def LogicalVolumeProperty.IsPropertyOf (lv : LogicalVolume) (filesystemType : Option String)
    (n : Mirrored) (r : LogicalVolumeProperty) : Prop :=
  r.logicalVolumePropertyName = some n.text ∧ r.IsOf lv filesystemType

instance (lv : LogicalVolume) (filesystemType : Option String) (n : Mirrored) :
    DecidablePred (LogicalVolumeProperty.IsPropertyOf lv filesystemType n) :=
  fun _ => inferInstanceAs (Decidable (_ ∧ _))

section Filesystem

variable (depth : ℕ) (execute : Db → Statement → Result Db)

def filesystemToLogicalVolumePropertyIns (db : Db) (new : Filesystem) : Result Db :=
  if 2 ≤ depth then .ok db
  else
    match db.volumeOf new.blockStorageDeviceId with
    | none => .ok db
    | some lv =>
      [.mountPoint, .serial, .label].foldlM (fun db n =>
        match new.get n with
        | none => .ok db
        | some value => execute db <| .logicalVolumeProperty <|
            .insert [lv.property new.filesystemType n value])
        (db.setFilesystemType lv.logicalVolumeId new.filesystemType)

/-- The property follows the column. -/
def followColumn (lv : LogicalVolume) (old new : Filesystem) (db : Db) (n : Mirrored) :
    Result Db :=
  if old.get n = new.get n then .ok db
  else
    match new.get n with
    | none => execute db <| .logicalVolumeProperty <|
        .delete fun r => r.IsPropertyOf lv (some new.filesystemType) n
    | some value => execute db <| .logicalVolumeProperty <| .update fun r =>
        if r.IsPropertyOf lv (some new.filesystemType) n ∧
            r.logicalVolumePropertyValue ≠ some value then
          some { r with logicalVolumePropertyValue := some value }
        else none

/-- The properties of the logical volume follow the type. -/
def followType (lv : LogicalVolume) (old new : Filesystem) (db : Db) : Result Db :=
  if old.filesystemType ≠ new.filesystemType then
    execute db <| .logicalVolumeProperty <| .update fun r =>
      if r.IsOf lv (some old.filesystemType) then
        some { r with filesystemType := some new.filesystemType }
      else none
  else .ok db

def filesystemToLogicalVolumePropertyUpd (db : Db) (old new : Filesystem) : Result Db :=
  match db.volumeOf new.blockStorageDeviceId with
  | none => .ok db
  | some lv => do
    let db ← followType execute lv old new
      (db.setFilesystemType lv.logicalVolumeId new.filesystemType)
    [.mountPoint, .label, .serial].foldlM (followColumn execute lv old new) db

def filesystemToLogicalVolumePropertyDel (db : Db) (old : Filesystem) : Result Db :=
  match db.volumeOf old.blockStorageDeviceId with
  | none => .ok db
  | some lv => execute db <| .logicalVolumeProperty <| .delete fun r =>
      r.IsOf lv lv.filesystemType ∧
      r.logicalVolumePropertyName ∈ [some "MountPoint", some "Serial", some "Label"]

end Filesystem

section Property

variable (cat : Catalog) (depth : ℕ) (execute : Db → Statement → Result Db)

/-- A name that is not `IN ('MountPoint', 'Serial', 'Label')`; NULL is not one. -/
def LogicalVolumeProperty.IsOther (r : LogicalVolumeProperty) : Prop :=
  ∃ name ∈ r.logicalVolumePropertyName, Mirrored.ofText? name = none
  deriving Decidable

def LogicalVolumeProperty.mirrored? (r : LogicalVolumeProperty) : Option Mirrored :=
  r.logicalVolumePropertyName.bind Mirrored.ofText?

/-- The value that the row gives to a column. -/
def LogicalVolumeProperty.valueFor (r : LogicalVolumeProperty) (n : Mirrored) : Option String :=
  if r.mirrored? = some n then r.logicalVolumePropertyValue else none

/-- The file system that a property makes. -/
def LogicalVolumeProperty.filesystem (new : LogicalVolumeProperty) (b : BlockStorageDevice)
    (filesystemType : String) : Filesystem :=
  ⟨b.blockStorageDeviceId, b.deviceId, filesystemType, new.valueFor .mountPoint,
    new.valueFor .label, new.valueFor .serial⟩

/-- The block storage device that a property makes. -/
def newDevice (db : Db) (lv : LogicalVolume) (new : LogicalVolumeProperty) : BlockStorageDevice :=
  let vg := cat.volumeGroup.find? (·.volumeGroupId = lv.volumeGroupId)
  let isLvm := vg.map (·.volumeGroupType) = some "Linux LVM"
  { blockStorageDeviceId := db.blockStorageDeviceSeq
    blockStorageDeviceName :=
      if isLvm then (vg.map (·.volumeGroupName)).getD "" ++ "-" ++ lv.logicalVolumeName
      else lv.logicalVolumeName
    blockStorageDeviceType := if isLvm then "LVM volume" else "disk partition"
    deviceId := lv.deviceId
    logicalVolumeId := some new.logicalVolumeId
    uuid := new.valueFor .serial }

/-- The block storage device of the logical volume, made when there is none. -/
def findOrCreateDevice (db : Db) (new : LogicalVolumeProperty) :
    Result (Db × BlockStorageDevice) :=
  match db.deviceOf new.logicalVolumeId with
  | some b => .ok (db, b)
  | none =>
    match db.logicalVolume.find? (·.logicalVolumeId = new.logicalVolumeId) with
    | none => raise .notNullViolation "null value in column block_storage_device_name"
    | some lv => do
      let b := newDevice cat db lv new
      checkBlockStorageDevice cat db.blockStorageDevice b
      .ok ({ db with
        blockStorageDevice := db.blockStorageDevice ++ [b]
        blockStorageDeviceSeq := db.blockStorageDeviceSeq + 1 }, b)

/-- What `upd_query` sets. -/
inductive Assignment where
  | filesystemType (t : String)
  | column (n : Mirrored) (value : Option String)

/-- The column that is set. -/
def Assignment.target : Assignment → Option Mirrored
  | filesystemType _ => none
  | column n _ => some n

def Assignment.apply (fs : Filesystem) : Assignment → Filesystem
  | filesystemType t => { fs with filesystemType := t }
  | column n value => fs.set value n

/-- `UPDATE filesystem SET ... WHERE block_storage_device_id = ...`, when there is something to
set. -/
def updateFilesystem (db : Db) (blockStorageDeviceId : ℕ) (assignments : List Assignment) :
    Result Db :=
  if assignments = [] then .ok db
  else do
    raiseIf (¬ (assignments.map (·.target)).Nodup) .syntaxError
      "multiple assignments to same column"
    execute db <| .filesystem <| .update fun fs =>
      if fs.blockStorageDeviceId = blockStorageDeviceId then
        some (assignments.foldl Assignment.apply fs)
      else none

/-- What a property sets in the file system that is there. -/
def assignments (fs : Filesystem) (e : RowEvent LogicalVolumeProperty)
    (new : LogicalVolumeProperty) : List Assignment :=
  (match new.filesystemType with
    | some t => if fs.filesystemType ≠ t then [.filesystemType t] else []
    | none => []) ++
  (match new.mirrored? with
    | some n =>
      if fs.get n ≠ new.logicalVolumePropertyValue then
        [.column n new.logicalVolumePropertyValue]
      else []
    | none => []) ++
  -- the column of the new name is set a second time
  match e.old?, new.mirrored? with
  | some old, some n =>
    if old.logicalVolumePropertyName ≠ new.logicalVolumePropertyName then [.column n none] else []
  | _, _ => []

def logicalVolumePropertyToFilesystemInsupd (db : Db) (e : RowEvent LogicalVolumeProperty)
    (new : LogicalVolumeProperty) : Result Db :=
  if 2 ≤ depth ∨ new.IsOther then .ok db
  else do
    let (db, b) ← findOrCreateDevice cat db new
    match db.filesystemOn b.blockStorageDeviceId with
    | none =>
      match new.filesystemType with
      | none => raise .notNullViolation "null value in column filesystem_type"
      | some t => execute db (.filesystem (.insert [new.filesystem b t]))
    | some fs => updateFilesystem execute db b.blockStorageDeviceId (assignments fs e new)

/-- The columns that are not NULL. -/
def Filesystem.tally (fs : Filesystem) : ℕ :=
  [.mountPoint, .serial, .label].countP fun n => fs.get n ≠ none

def deleteDevice (db : Db) (blockStorageDeviceId : ℕ) : Result Db := do
  raiseIf (blockStorageDeviceId ∈ cat.referenced ∨
      ∃ fs ∈ db.filesystem, fs.blockStorageDeviceId = blockStorageDeviceId)
    .foreignKeyViolation "update or delete on table block_storage_device violates foreign key"
  .ok { db with
    blockStorageDevice := db.blockStorageDevice.filter fun b =>
      b.blockStorageDeviceId ≠ blockStorageDeviceId }

def logicalVolumePropertyToFilesystemDel (db : Db) (old : LogicalVolumeProperty) : Result Db :=
  if 2 ≤ depth ∨ old.IsOther then .ok db
  else
    match db.deviceOf old.logicalVolumeId with
    | none => .ok db
    | some b =>
      match db.filesystemOn b.blockStorageDeviceId with
      | none => .ok db
      | some fs =>
        if fs.tally = 1 then do
          let db ← execute db <| .filesystem <| .delete fun fs =>
            fs.blockStorageDeviceId = b.blockStorageDeviceId
          deleteDevice cat db b.blockStorageDeviceId
        else
          match old.mirrored? with
          | none => .ok db
          | some n => updateFilesystem execute db b.blockStorageDeviceId [.column n none]

end Property

/-! ## Statements -/

section Execute

variable (cat : Catalog) (depth : ℕ) (execute : Db → Statement → Result Db)

/-- The triggers `BEFORE DELETE ON filesystem`. -/
def beforeFilesystem (db : Db) : RowEvent Filesystem → Result Db
  | .delete old => filesystemToLogicalVolumePropertyDel execute db old
  | _ => .ok db

/-- The triggers `AFTER` a file system is written. -/
def afterFilesystem (db : Db) : RowEvent Filesystem → Result Db
  | .insert new => do
    let db ← filesystemToLogicalVolumePropertyIns depth execute db new
    validateFilesystem cat new
    .ok db
  | .update old new => do
    let db ← filesystemToLogicalVolumePropertyUpd execute db old new
    validateUpdated cat old new
    .ok db
  | .delete _ => .ok db

def afterProperty (db : Db) : RowEvent LogicalVolumeProperty → Result Db
  | .insert new => logicalVolumePropertyToFilesystemInsupd cat depth execute db (.insert new) new
  | .update old new =>
    logicalVolumePropertyToFilesystemInsupd cat depth execute db (.update old new) new
  | .delete old => logicalVolumePropertyToFilesystemDel cat depth execute db old

end Execute

/-- A statement at some depth of triggers, where they may be nested so much deeper. -/
def execute (cat : Catalog) : ℕ → ℕ → Db → Statement → Result Db
  | 0, _, _, _ => raise .statementTooComplex "stack depth limit exceeded"
  | more + 1, depth, db, .filesystem s => do
    let events := s.events db.filesystem
    let db ← events.foldlM (beforeFilesystem (execute cat more (depth + 1))) db
    let rows ← s.execute (filesystemKeys cat db) db.filesystem
    events.foldlM (afterFilesystem cat (depth + 1) (execute cat more (depth + 1)))
      { db with filesystem := rows }
  | more + 1, depth, db, .logicalVolumeProperty s => do
    let rows ← s.execute (propertyKeys cat db) db.logicalVolumeProperty
    (s.events db.logicalVolumeProperty).foldlM
      (afterProperty cat (depth + 1) (execute cat more (depth + 1)))
      { db with logicalVolumeProperty := rows }

/-- The row of a mirrored property of a logical volume. -/
def LogicalVolumeProperty.Is (i : ℕ) (n : Mirrored) (r : LogicalVolumeProperty) : Prop :=
  r.logicalVolumeId = i ∧ r.logicalVolumePropertyName = some n.text
  deriving Decidable

/-- A file system is named by its block storage device, a property by its logical volume and its
name; an `UPDATE` gives the whole new row. -/
inductive SingleRow where
  | insertFilesystem (new : Filesystem)
  | updateFilesystem (blockStorageDeviceId : ℕ) (new : Filesystem)
  | deleteFilesystem (blockStorageDeviceId : ℕ)
  | insertProperty (logicalVolumeId : ℕ) (n : Mirrored)
      (logicalVolumeType filesystemType value : Option String)
  | updateProperty (logicalVolumeId : ℕ) (n : Mirrored) (new : LogicalVolumeProperty)
  | deleteProperty (logicalVolumeId : ℕ) (n : Mirrored)

def SingleRow.statement : SingleRow → Statement
  | insertFilesystem new => .filesystem (.insert [new])
  | updateFilesystem b new => .filesystem <| .update fun fs =>
    if fs.blockStorageDeviceId = b then some new else none
  | deleteFilesystem b => .filesystem <| .delete fun fs => fs.blockStorageDeviceId = b
  | insertProperty i n lvt fst value =>
    .logicalVolumeProperty (.insert [⟨i, lvt, fst, some n.text, value⟩])
  | updateProperty i n new => .logicalVolumeProperty <| .update fun r =>
    if r.Is i n then some new else none
  | deleteProperty i n => .logicalVolumeProperty <| .delete fun r => r.Is i n

/-- Triggers are nested at most three deep here; the limit of the server is far above. -/
def maxDepth : ℕ := 100

def SingleRow.execute (cat : Catalog) (db : Db) (s : SingleRow) : Result Db :=
  FilesystemCompat.execute cat maxDepth 0 db s.statement

/-- The tables after a statement: an error leaves them as they were. -/
def step (cat : Catalog) (db : Db) (s : SingleRow) : Db := (s.execute cat db).toOption.getD db

end JazzHands.FilesystemCompat

import JazzHands.Postgres.Table
import Mathlib.Data.Int.Notation

/-!
# Properties

`property_utils.validate_property` and `property_utils.validate_val_property`.

`toNumber9` is `to_number(text, '9')`: a blank, a sign and one digit are read, and no more.  JSON is
a type `J` with its equality, and the schema validator a parameter.
-/

namespace JazzHands.Property

open Postgres

/-! ## The rows -/

/-- The left-hand side. -/
structure Lhs where
  accountCollectionId : Option ℕ := none
  accountId : Option ℕ := none
  accountRealmId : Option ℕ := none
  companyCollectionId : Option ℕ := none
  companyId : Option ℕ := none
  deviceCollectionId : Option ℕ := none
  dnsDomainCollectionId : Option ℕ := none
  layer2NetworkCollectionId : Option ℕ := none
  layer3NetworkCollectionId : Option ℕ := none
  netblockCollectionId : Option ℕ := none
  networkRangeId : Option ℕ := none
  operatingSystemId : Option ℕ := none
  operatingSystemSnapshotId : Option ℕ := none
  propertyNameCollectionId : Option ℕ := none
  serviceEnvironmentCollectionId : Option ℕ := none
  serviceVersionCollectionId : Option ℕ := none
  siteCode : Option String := none
  x509SignedCertificateId : Option ℕ := none
  deriving DecidableEq

/-- The value columns. -/
structure Rhs (J : Type) where
  propertyValue : Option String := none
  propertyValueAccountCollectionId : Option ℕ := none
  propertyValueBoolean : Option Bool := none
  propertyValueDeviceCollectionId : Option ℕ := none
  propertyValueEncryptionKeyId : Option ℕ := none
  propertyValueJson : Option J := none
  propertyValueNetblockCollectionId : Option ℕ := none
  propertyValuePasswordType : Option String := none
  propertyValuePrivateKeyId : Option ℕ := none
  propertyValueServiceVersionCollectionId : Option ℕ := none
  propertyValueTimestamp : Option ℤ := none
  propertyValueTokenCollectionId : Option ℕ := none
  deriving DecidableEq

/-- A row of `property`. -/
structure Row (J : Type) where
  propertyId : ℕ
  propertyName : String
  propertyType : String
  lhs : Lhs
  rhs : Rhs J
  propertyRank : Option ℤ := none
  startDate : Option ℤ := none
  finishDate : Option ℤ := none

/-- `property_data_type`; those that the code does not name are `other`. -/
inductive DataType where
  | none
  | list
  | number
  | string
  | accountCollectionId
  | boolean
  | deviceCollectionId
  | encryptionKeyId
  | json
  | netblockCollectionId
  | passwordType
  | privateKeyId
  | serviceVersionCollectionId
  | timestamp
  | tokenCollectionId
  | other (propertyDataType : String)
  deriving DecidableEq

inductive Permit where
  | REQUIRED
  | PROHIBITED
  | ALLOWED
  deriving DecidableEq

/-- A row of `val_property`. -/
structure ValProperty (J : Type) where
  propertyName : String
  propertyType : String
  accountCollectionType : Option String := none
  companyCollectionType : Option String := none
  deviceCollectionType : Option String := none
  dnsDomainCollectionType : Option String := none
  layer2NetworkCollectionType : Option String := none
  layer3NetworkCollectionType : Option String := none
  netblockCollectionType : Option String := none
  networkRangeType : Option String := none
  propertyNameCollectionType : Option String := none
  serviceEnvironmentCollectionType : Option String := none
  serviceVersionCollectionType : Option String := none
  isMultivalue : Bool := false
  propertyValueAccountCollectionTypeRestriction : Option String := none
  propertyValueDeviceCollectionTypeRestriction : Option String := none
  propertyValueNetblockCollectionTypeRestriction : Option String := none
  propertyValueServiceVersionCollectionTypeRestriction : Option String := none
  propertyDataType : DataType
  propertyValueJsonSchema : Option J := none
  permitAccountCollectionId : Permit := .PROHIBITED
  permitAccountId : Permit := .PROHIBITED
  permitAccountRealmId : Permit := .PROHIBITED
  permitCompanyId : Permit := .PROHIBITED
  permitCompanyCollectionId : Permit := .PROHIBITED
  permitDeviceCollectionId : Permit := .PROHIBITED
  permitDnsDomainCollectionId : Permit := .PROHIBITED
  permitLayer2NetworkCollectionId : Permit := .PROHIBITED
  permitLayer3NetworkCollectionId : Permit := .PROHIBITED
  permitNetblockCollectionId : Permit := .PROHIBITED
  permitNetworkRangeId : Permit := .PROHIBITED
  permitOperatingSystemId : Permit := .PROHIBITED
  permitOperatingSystemSnapshotId : Permit := .PROHIBITED
  permitPropertyNameCollectionId : Permit := .PROHIBITED
  permitServiceEnvironmentCollectionId : Permit := .PROHIBITED
  permitServiceVersionCollectionId : Permit := .PROHIBITED
  permitSiteCode : Permit := .PROHIBITED
  permitX509SignedCertificateId : Permit := .PROHIBITED
  permitPropertyRank : Permit := .PROHIBITED

structure ValPropertyType where
  propertyType : String
  isMultivalue : Bool := true

structure ValPropertyValue where
  propertyName : String
  propertyType : String
  validPropertyValue : String
  deriving DecidableEq

/-- Of collections and network ranges, the tables have the types. -/
structure Db (J : Type) where
  property : List (Row J)
  valProperty : List (ValProperty J)
  valPropertyType : List ValPropertyType
  valPropertyValue : List ValPropertyValue
  accountCollection : Table String := .empty
  companyCollection : Table String := .empty
  deviceCollection : Table String := .empty
  dnsDomainCollection : Table String := .empty
  layer2NetworkCollection : Table String := .empty
  layer3NetworkCollection : Table String := .empty
  netblockCollection : Table String := .empty
  networkRange : Table String := .empty
  propertyNameCollection : Table String := .empty
  serviceEnvironmentCollection : Table String := .empty
  serviceVersionCollection : Table String := .empty

variable {J : Type} [DecidableEq J]

/-! ## Other rows -/

/-- `IS NOT DISTINCT FROM` for every column of the left-hand side. -/
def SameLhs (old new : Lhs) : Prop :=
  old.accountCollectionId = new.accountCollectionId ∧
  old.accountId = new.accountId ∧
  old.accountRealmId = new.accountRealmId ∧
  old.companyCollectionId = new.companyCollectionId ∧
  old.companyId = new.companyId ∧
  old.deviceCollectionId = new.deviceCollectionId ∧
  old.dnsDomainCollectionId = new.dnsDomainCollectionId ∧
  old.layer2NetworkCollectionId = new.layer2NetworkCollectionId ∧
  old.layer3NetworkCollectionId = new.layer3NetworkCollectionId ∧
  old.netblockCollectionId = new.netblockCollectionId ∧
  old.networkRangeId = new.networkRangeId ∧
  old.operatingSystemId = new.operatingSystemId ∧
  old.operatingSystemSnapshotId = new.operatingSystemSnapshotId ∧
  old.propertyNameCollectionId = new.propertyNameCollectionId ∧
  old.serviceEnvironmentCollectionId = new.serviceEnvironmentCollectionId ∧
  old.serviceVersionCollectionId = new.serviceVersionCollectionId ∧
  old.siteCode = new.siteCode ∧
  old.x509SignedCertificateId = new.x509SignedCertificateId
  deriving Decidable

/-- And for every value column. -/
def SameRhs (old new : Rhs J) : Prop :=
  old.propertyValue = new.propertyValue ∧
  old.propertyValueJson = new.propertyValueJson ∧
  old.propertyValueBoolean = new.propertyValueBoolean ∧
  old.propertyValueTimestamp = new.propertyValueTimestamp ∧
  old.propertyValueAccountCollectionId = new.propertyValueAccountCollectionId ∧
  old.propertyValueDeviceCollectionId = new.propertyValueDeviceCollectionId ∧
  old.propertyValueNetblockCollectionId = new.propertyValueNetblockCollectionId ∧
  old.propertyValueServiceVersionCollectionId = new.propertyValueServiceVersionCollectionId ∧
  old.propertyValuePasswordType = new.propertyValuePasswordType ∧
  old.propertyValueTokenCollectionId = new.propertyValueTokenCollectionId ∧
  old.propertyValueEncryptionKeyId = new.propertyValueEncryptionKeyId ∧
  old.propertyValuePrivateKeyId = new.propertyValuePrivateKeyId

instance {old new : Rhs J} : Decidable (SameRhs old new) := inferInstanceAs (Decidable (_ ∧ _))

def checkMultivalue (db : Db J) (vProp : ValProperty J) (vProptype : ValPropertyType)
    (new : Row J) : Result Unit := do
  raiseIf (vProp.isMultivalue = false ∧ ∃ p ∈ db.property, p.propertyId ≠ new.propertyId ∧
      p.propertyName = new.propertyName ∧ p.propertyType = new.propertyType ∧
        SameLhs p.lhs new.lhs) .uniqueViolation
    "Property of type (%,%) already exists for given LHS and property is not multivalue"
  raiseIf (vProp.isMultivalue = true ∧ ∃ p ∈ db.property, p.propertyId ≠ new.propertyId ∧
      p.propertyName = new.propertyName ∧ p.propertyType = new.propertyType ∧
        SameLhs p.lhs new.lhs ∧ SameRhs p.rhs new.rhs ∧ p.startDate = new.startDate ∧
          p.finishDate = new.finishDate) .uniqueViolation
    "Property of (n,t) (%,%) already exists for given property"
  raiseIf (vProptype.isMultivalue = false ∧ ∃ p ∈ db.property, p.propertyId ≠ new.propertyId ∧
      p.propertyType = new.propertyType ∧ SameLhs p.lhs new.lhs) .uniqueViolation
    "Property % of type % already exists for given LHS and property type is not multivalue"

/-! ## The value -/

/-- A value column of a data type; `tally` counts those that are set. -/
def checkValueColumn {α : Type} (vProp : ValProperty J) (dataType : DataType) (name : String)
    (value : Option α) (tally : ℕ) : Result ℕ :=
  match value with
  | none => .ok tally
  | some _ =>
    if vProp.propertyDataType = dataType then .ok (tally + 1)
    else raise .invalidParameterValue ("Property value may not be " ++ name)

/-- `to_number(text, '9')`. -/
def toNumber9 (text : String) : Option ℤ :=
  let unpadded := match text.toList with
    | ' ' :: cs => cs
    | cs => cs
  match unpadded with
  | '-' :: d :: _ => if d.isDigit then some (-((d.toNat - '0'.toNat : ℕ) : ℤ)) else none
  | '+' :: d :: _ => if d.isDigit then some ((d.toNat - '0'.toNat : ℕ) : ℤ) else none
  | d :: _ => if d.isDigit then some ((d.toNat - '0'.toNat : ℕ) : ℤ) else none
  | [] => none

/-- What `property_value` itself may be. -/
def checkText (db : Db J) (vProp : ValProperty J) (new : Row J) (value : String) : Result Unit :=
  match vProp.propertyDataType with
  | .number => raiseIf (toNumber9 value = none) .invalidParameterValue
      "Property_Value must be numeric"
  | .list => raiseIf (¬ ∃ v ∈ db.valPropertyValue, v.propertyName = new.propertyName ∧
      v.propertyType = new.propertyType ∧ v.validPropertyValue = value) .invalidParameterValue
      "Property_Value must be a valid value"
  | .boolean => raise .invalidParameterValue
      "Boolean values are set in Property_Value_Boolean"
  | .string => .ok ()
  | _ => raise .invalidParameterValue
      "Property_Value may not be set for this Property_Data_Type"

def checkPropertyValue (db : Db J) (vProp : ValProperty J) (new : Row J) (tally : ℕ) : Result ℕ :=
  match new.rhs.propertyValue with
  | none => .ok tally
  | some value => do
    checkText db vProp new value
    .ok (tally + 1)

def checkValue (db : Db J) (vProp : ValProperty J) (new : Row J) : Result Unit := do
  let tally ← checkValueColumn vProp .json "JSON" new.rhs.propertyValueJson 0
  let tally ← checkValueColumn vProp .passwordType "Password_Type"
    new.rhs.propertyValuePasswordType tally
  let tally ← checkValueColumn vProp .tokenCollectionId "Token_Collection_Id"
    new.rhs.propertyValueTokenCollectionId tally
  let tally ← checkValueColumn vProp .accountCollectionId "account_collection_id"
    new.rhs.propertyValueAccountCollectionId tally
  let tally ← checkValueColumn vProp .netblockCollectionId "netblock_collection_id"
    new.rhs.propertyValueNetblockCollectionId tally
  let tally ← checkValueColumn vProp .serviceVersionCollectionId "service_version_collection_id"
    new.rhs.propertyValueServiceVersionCollectionId tally
  let tally ← checkValueColumn vProp .timestamp "Timestamp" new.rhs.propertyValueTimestamp tally
  let tally ← checkValueColumn vProp .deviceCollectionId "Device_Collection_Id"
    new.rhs.propertyValueDeviceCollectionId tally
  let tally ← checkValueColumn vProp .boolean "boolean" new.rhs.propertyValueBoolean tally
  let tally ← checkValueColumn vProp .encryptionKeyId "encryption_key_id"
    new.rhs.propertyValueEncryptionKeyId tally
  let tally ← checkValueColumn vProp .privateKeyId "private_key_id"
    new.rhs.propertyValuePrivateKeyId tally
  let tally ← checkPropertyValue db vProp new tally
  raiseIf (vProp.propertyDataType ≠ .none ∧ tally = 0) .invalidParameterValue
    "One of the PROPERTY_VALUE fields must be set."
  raiseIf (tally > 1) .invalidParameterValue "Only one of the PROPERTY_VALUE fields may be set."

/-! ## Types of collections -/

/-- Where a column is set and its type is restricted, the row with the id has the type.  A row that
is not found is left to the foreign key. -/
def checkType (isSet : Bool) (id : Option ℕ) (type : Option String) (t : Table String)
    (errcode : SqlState) (message : String) : Result Unit :=
  match type with
  | none => .ok ()
  | some type =>
    if isSet then
      match id.bind t.get with
      | none => .ok ()
      | some found => raiseIf (found ≠ type) errcode message
    else .ok ()

/-- A column is set, and its own id is looked up. -/
def checkCollectionType (id : Option ℕ) (type : Option String) (t : Table String)
    (name : String) : Result Unit :=
  checkType id.isSome id type t .invalidParameterValue (name ++ " must be of type %")

def checkTypes (db : Db J) (vProp : ValProperty J) (new : Row J) : Result Unit := do
  checkCollectionType new.lhs.accountCollectionId vProp.accountCollectionType
    db.accountCollection "account_collection_id"
  checkCollectionType new.lhs.companyCollectionId vProp.companyCollectionType
    db.companyCollection "company_collection_id"
  checkCollectionType new.lhs.deviceCollectionId vProp.deviceCollectionType
    db.deviceCollection "device_collection_id"
  checkCollectionType new.lhs.dnsDomainCollectionId vProp.dnsDomainCollectionType
    db.dnsDomainCollection "dns_domain_collection_id"
  checkCollectionType new.lhs.layer2NetworkCollectionId vProp.layer2NetworkCollectionType
    db.layer2NetworkCollection "layer2_network_collection_id"
  checkCollectionType new.lhs.layer3NetworkCollectionId vProp.layer3NetworkCollectionType
    db.layer3NetworkCollection "layer3_network_collection_id"
  checkCollectionType new.lhs.netblockCollectionId vProp.netblockCollectionType
    db.netblockCollection "netblock_collection_id"
  -- where the netblock collection is set
  checkType new.lhs.netblockCollectionId.isSome new.lhs.networkRangeId vProp.networkRangeType
    db.networkRange .invalidParameterValue "network_range_id must be of type %"
  checkCollectionType new.lhs.propertyNameCollectionId vProp.propertyNameCollectionType
    db.propertyNameCollection "property_name_collection_id"
  checkCollectionType new.lhs.serviceEnvironmentCollectionId
    vProp.serviceEnvironmentCollectionType db.serviceEnvironmentCollection
    "service_environment_collection_id"
  checkCollectionType new.lhs.serviceVersionCollectionId vProp.serviceVersionCollectionType
    db.serviceVersionCollection "service_version_collection_id"
  checkCollectionType new.rhs.propertyValueAccountCollectionId
    vProp.propertyValueAccountCollectionTypeRestriction db.accountCollection
    "Property_Value_Account_collection_Id"
  -- the message names a column that is not there
  checkType new.rhs.propertyValueNetblockCollectionId.isSome
    new.rhs.propertyValueNetblockCollectionId vProp.propertyValueNetblockCollectionTypeRestriction
    db.netblockCollection .undefinedColumn
    "record v_prop has no field property_value_netbloc_collection_type_restriction"
  checkCollectionType new.rhs.propertyValueServiceVersionCollectionId
    vProp.propertyValueServiceVersionCollectionTypeRestriction db.serviceVersionCollection
    "Property_Value_service_version_collection_Id"
  checkCollectionType new.rhs.propertyValueDeviceCollectionId
    vProp.propertyValueDeviceCollectionTypeRestriction db.deviceCollection
    "Property_Value_Device_collection_Id"

section JsonSchema

variable (validateJsonSchema : Option J → Option J → Result Bool)

def checkJson (vProp : ValProperty J) (new : Row J) : Result Unit :=
  if vProp.propertyDataType = .json then do
    let valid ← validateJsonSchema vProp.propertyValueJsonSchema new.rhs.propertyValueJson
    raiseIf (valid = false) .invalidParameterValue "JSON provided must match the json schema"
  else .ok ()

/-! ## What may be on the left-hand side -/

def checkPermit {α : Type} (permit : Permit) (column : Option α) (required : String)
    (errcode : SqlState) (prohibited : String) : Result Unit :=
  match permit with
  | .REQUIRED => raiseIf (column.isNone = true) .invalidParameterValue required
  | .PROHIBITED => raiseIf (column.isSome = true) errcode prohibited
  | .ALLOWED => .ok ()

def checkPermitted {α : Type} (permit : Permit) (column : Option α) (name : String) :
    Result Unit :=
  checkPermit permit column (name ++ " is required.") .invalidParameterValue
    (name ++ " is prohibited.")

def checkPermits (vProp : ValProperty J) (new : Row J) : Result Unit := do
  checkPermitted vProp.permitCompanyId new.lhs.companyId "Company_Id"
  checkPermitted vProp.permitCompanyCollectionId new.lhs.companyCollectionId
    "Company_Collection_Id"
  checkPermitted vProp.permitDeviceCollectionId new.lhs.deviceCollectionId
    "Device_Collection_Id"
  checkPermitted vProp.permitDnsDomainCollectionId new.lhs.dnsDomainCollectionId
    "DNS_Domain_Collection_Id"
  checkPermit vProp.permitServiceEnvironmentCollectionId new.lhs.serviceEnvironmentCollectionId
    "service_environment_collection_id is required." .invalidParameterValue
    "service_environment is prohibited."
  checkPermit vProp.permitServiceVersionCollectionId new.lhs.serviceVersionCollectionId
    "service_version_collection_id is required." .raiseException
    "service_version_parameter_value"
  checkPermitted vProp.permitOperatingSystemId new.lhs.operatingSystemId "Operating_System_Id"
  checkPermitted vProp.permitOperatingSystemSnapshotId new.lhs.operatingSystemSnapshotId
    "operating_system_snapshot_id"
  checkPermitted vProp.permitSiteCode new.lhs.siteCode "Site_Code"
  checkPermitted vProp.permitAccountId new.lhs.accountId "Account_Id"
  checkPermitted vProp.permitAccountRealmId new.lhs.accountRealmId "Account_Realm_Id"
  checkPermitted vProp.permitAccountCollectionId new.lhs.accountCollectionId
    "account_collection_Id"
  checkPermitted vProp.permitLayer2NetworkCollectionId new.lhs.layer2NetworkCollectionId
    "layer2_network_collection_id"
  checkPermitted vProp.permitLayer3NetworkCollectionId new.lhs.layer3NetworkCollectionId
    "layer3_network_collection_id"
  checkPermitted vProp.permitNetblockCollectionId new.lhs.netblockCollectionId
    "netblock_collection_Id"
  checkPermitted vProp.permitNetworkRangeId new.lhs.networkRangeId "network_range_id"
  checkPermitted vProp.permitPropertyNameCollectionId new.lhs.propertyNameCollectionId
    "property_name_collection_Id"
  checkPermitted vProp.permitPropertyRank new.propertyRank "property_rank"

/-! ## All of it -/

/-- The definition of a property. -/
def Db.definition (db : Db J) (new : Row J) : Option (ValProperty J) :=
  db.valProperty.find? fun v =>
    v.propertyName = new.propertyName ∧ v.propertyType = new.propertyType

def Db.typeOf (db : Db J) (new : Row J) : Option ValPropertyType :=
  db.valPropertyType.find? (·.propertyType = new.propertyType)

def validateProperty (db : Db J) (new : Row J) : Result Unit :=
  match db.definition new, db.typeOf new with
  | some vProp, some vProptype => do
    checkMultivalue db vProp vProptype new
    checkValue db vProp new
    checkTypes db vProp new
    checkJson validateJsonSchema vProp new
    checkPermits vProp new
  | _, _ => raise .foreignKeyViolation "Property name (%) or type (%) does not exist"

end JsonSchema

/-! ## Definitions -/

/-- A type is not set for a column that may not be. -/
def checkProhibited (type : Option String) (permit : Permit) (name : String) : Result Unit :=
  raiseIf (type ≠ none ∧ permit = .PROHIBITED) .invalidParameterValue
    ("May not set " ++ name ++ " when PROHIBITED")

/-- A restriction is not set for values of another data type. -/
def checkRestriction (vProp : ValProperty J) (restriction : Option String) (dataType : DataType)
    (name dataTypeName : String) : Result Unit :=
  raiseIf (restriction ≠ none ∧ vProp.propertyDataType ≠ dataType) .invalidParameterValue
    ("May not set " ++ name ++ " when property_data_type is not " ++ dataTypeName)

def validateValProperty (new : ValProperty J) : Result Unit := do
  raiseIf (new.propertyDataType = .json ∧ new.propertyValueJsonSchema = none)
    .invalidParameterValue "property_data_type json requires a schema to be set"
  raiseIf (new.propertyDataType ≠ .json ∧ new.propertyValueJsonSchema ≠ none)
    .invalidParameterValue "property_data_type % may not have a json schema set"
  checkProhibited new.accountCollectionType new.permitAccountCollectionId
    "account_collection_type"
  checkProhibited new.companyCollectionType new.permitCompanyCollectionId
    "company_collection_type"
  checkProhibited new.deviceCollectionType new.permitDeviceCollectionId "device_collection_type"
  checkProhibited new.dnsDomainCollectionType new.permitDnsDomainCollectionId
    "dns_domain_collection_type"
  checkProhibited new.layer2NetworkCollectionType new.permitLayer2NetworkCollectionId
    "layer2_network_collection_type"
  checkProhibited new.layer3NetworkCollectionType new.permitLayer3NetworkCollectionId
    "layer3_network_collection_type"
  checkProhibited new.netblockCollectionType new.permitNetblockCollectionId
    "netblock_collection_type"
  checkProhibited new.networkRangeType new.permitNetworkRangeId "network_range_collection_type"
  checkProhibited new.propertyNameCollectionType new.permitPropertyNameCollectionId
    "property_name_collection_type"
  checkProhibited new.serviceEnvironmentCollectionType new.permitServiceEnvironmentCollectionId
    "service_environment_collection_type"
  checkProhibited new.serviceVersionCollectionType new.permitServiceVersionCollectionId
    "service_version_collection_type"
  checkRestriction new new.propertyValueAccountCollectionTypeRestriction .accountCollectionId
    "property_value_account_collection_type_restriction" "account_collection_id"
  checkRestriction new new.propertyValueDeviceCollectionTypeRestriction .deviceCollectionId
    "property_value_device_collection_type_restriction" "device_collection_id"
  checkRestriction new new.propertyValueNetblockCollectionTypeRestriction .netblockCollectionId
    "property_value_netblock_collection_type_restriction" "netblock_collection_id"
  checkRestriction new new.propertyValueServiceVersionCollectionTypeRestriction
    .serviceVersionCollectionId "property_value_service_version_collection_type_restriction"
    "service_version_collection_id"

end JazzHands.Property

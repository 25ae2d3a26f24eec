import JazzHands.Property.ValidateProperty

/-!
# What a valid property is

A property is valid when it is as its row of `val_property` says: every column that is required is
set and none that is prohibited (`Permitted`), there is one value and it is of the data type and
listed where it should be (`HasValue`, `Listed`), collections and ranges have the types that are
asked for (`Typed`), and it is alone where only one may be (`Unique`).  `Valid` collects these.  It
is stated by cases on columns, data types and restricted types, and does not look at what the
trigger does.
-/

namespace JazzHands.Property

open Postgres

variable {J : Type}

/-! ## Columns -/

/-- The columns that a definition requires, prohibits or allows. -/
inductive Column where
  | accountCollectionId
  | accountId
  | accountRealmId
  | companyId
  | companyCollectionId
  | deviceCollectionId
  | dnsDomainCollectionId
  | layer2NetworkCollectionId
  | layer3NetworkCollectionId
  | netblockCollectionId
  | networkRangeId
  | operatingSystemId
  | operatingSystemSnapshotId
  | propertyNameCollectionId
  | serviceEnvironmentCollectionId
  | serviceVersionCollectionId
  | siteCode
  | x509SignedCertificateId
  | propertyRank
  deriving DecidableEq

def ValProperty.permit (v : ValProperty J) : Column → Permit
  | .accountCollectionId => v.permitAccountCollectionId
  | .accountId => v.permitAccountId
  | .accountRealmId => v.permitAccountRealmId
  | .companyId => v.permitCompanyId
  | .companyCollectionId => v.permitCompanyCollectionId
  | .deviceCollectionId => v.permitDeviceCollectionId
  | .dnsDomainCollectionId => v.permitDnsDomainCollectionId
  | .layer2NetworkCollectionId => v.permitLayer2NetworkCollectionId
  | .layer3NetworkCollectionId => v.permitLayer3NetworkCollectionId
  | .netblockCollectionId => v.permitNetblockCollectionId
  | .networkRangeId => v.permitNetworkRangeId
  | .operatingSystemId => v.permitOperatingSystemId
  | .operatingSystemSnapshotId => v.permitOperatingSystemSnapshotId
  | .propertyNameCollectionId => v.permitPropertyNameCollectionId
  | .serviceEnvironmentCollectionId => v.permitServiceEnvironmentCollectionId
  | .serviceVersionCollectionId => v.permitServiceVersionCollectionId
  | .siteCode => v.permitSiteCode
  | .x509SignedCertificateId => v.permitX509SignedCertificateId
  | .propertyRank => v.permitPropertyRank

def Row.isSet (p : Row J) : Column → Bool
  | .accountCollectionId => p.lhs.accountCollectionId.isSome
  | .accountId => p.lhs.accountId.isSome
  | .accountRealmId => p.lhs.accountRealmId.isSome
  | .companyId => p.lhs.companyId.isSome
  | .companyCollectionId => p.lhs.companyCollectionId.isSome
  | .deviceCollectionId => p.lhs.deviceCollectionId.isSome
  | .dnsDomainCollectionId => p.lhs.dnsDomainCollectionId.isSome
  | .layer2NetworkCollectionId => p.lhs.layer2NetworkCollectionId.isSome
  | .layer3NetworkCollectionId => p.lhs.layer3NetworkCollectionId.isSome
  | .netblockCollectionId => p.lhs.netblockCollectionId.isSome
  | .networkRangeId => p.lhs.networkRangeId.isSome
  | .operatingSystemId => p.lhs.operatingSystemId.isSome
  | .operatingSystemSnapshotId => p.lhs.operatingSystemSnapshotId.isSome
  | .propertyNameCollectionId => p.lhs.propertyNameCollectionId.isSome
  | .serviceEnvironmentCollectionId => p.lhs.serviceEnvironmentCollectionId.isSome
  | .serviceVersionCollectionId => p.lhs.serviceVersionCollectionId.isSome
  | .siteCode => p.lhs.siteCode.isSome
  | .x509SignedCertificateId => p.lhs.x509SignedCertificateId.isSome
  | .propertyRank => p.propertyRank.isSome

inductive ValueColumn where
  | propertyValue
  | accountCollectionId
  | boolean
  | deviceCollectionId
  | encryptionKeyId
  | json
  | netblockCollectionId
  | passwordType
  | privateKeyId
  | serviceVersionCollectionId
  | timestamp
  | tokenCollectionId
  deriving DecidableEq

def Rhs.isSet (r : Rhs J) : ValueColumn → Bool
  | .propertyValue => r.propertyValue.isSome
  | .accountCollectionId => r.propertyValueAccountCollectionId.isSome
  | .boolean => r.propertyValueBoolean.isSome
  | .deviceCollectionId => r.propertyValueDeviceCollectionId.isSome
  | .encryptionKeyId => r.propertyValueEncryptionKeyId.isSome
  | .json => r.propertyValueJson.isSome
  | .netblockCollectionId => r.propertyValueNetblockCollectionId.isSome
  | .passwordType => r.propertyValuePasswordType.isSome
  | .privateKeyId => r.propertyValuePrivateKeyId.isSome
  | .serviceVersionCollectionId => r.propertyValueServiceVersionCollectionId.isSome
  | .timestamp => r.propertyValueTimestamp.isSome
  | .tokenCollectionId => r.propertyValueTokenCollectionId.isSome

/-- The column for the values of a data type. -/
def DataType.column : DataType → Option ValueColumn
  | .none => Option.none
  | .list => some .propertyValue
  | .number => some .propertyValue
  | .string => some .propertyValue
  | .accountCollectionId => some .accountCollectionId
  | .boolean => some .boolean
  | .deviceCollectionId => some .deviceCollectionId
  | .encryptionKeyId => some .encryptionKeyId
  | .json => some .json
  | .netblockCollectionId => some .netblockCollectionId
  | .passwordType => some .passwordType
  | .privateKeyId => some .privateKeyId
  | .serviceVersionCollectionId => some .serviceVersionCollectionId
  | .timestamp => some .timestamp
  | .tokenCollectionId => some .tokenCollectionId
  | .other _ => Option.none

/-- The data type for the values of a column; texts are not those of strings only. -/
def ValueColumn.dataType : ValueColumn → DataType
  | propertyValue => .string
  | accountCollectionId => .accountCollectionId
  | boolean => .boolean
  | deviceCollectionId => .deviceCollectionId
  | encryptionKeyId => .encryptionKeyId
  | json => .json
  | netblockCollectionId => .netblockCollectionId
  | passwordType => .passwordType
  | privateKeyId => .privateKeyId
  | serviceVersionCollectionId => .serviceVersionCollectionId
  | timestamp => .timestamp
  | tokenCollectionId => .tokenCollectionId

/-- The collections and network ranges whose type a definition can restrict. -/
inductive Restricted where
  | accountCollection
  | companyCollection
  | deviceCollection
  | dnsDomainCollection
  | layer2NetworkCollection
  | layer3NetworkCollection
  | netblockCollection
  | networkRange
  | propertyNameCollection
  | serviceEnvironmentCollection
  | serviceVersionCollection
  | valueAccountCollection
  | valueDeviceCollection
  | valueNetblockCollection
  | valueServiceVersionCollection
  deriving DecidableEq

namespace Restricted

def id (p : Row J) : Restricted → Option ℕ
  | accountCollection => p.lhs.accountCollectionId
  | companyCollection => p.lhs.companyCollectionId
  | deviceCollection => p.lhs.deviceCollectionId
  | dnsDomainCollection => p.lhs.dnsDomainCollectionId
  | layer2NetworkCollection => p.lhs.layer2NetworkCollectionId
  | layer3NetworkCollection => p.lhs.layer3NetworkCollectionId
  | netblockCollection => p.lhs.netblockCollectionId
  | networkRange => p.lhs.networkRangeId
  | propertyNameCollection => p.lhs.propertyNameCollectionId
  | serviceEnvironmentCollection => p.lhs.serviceEnvironmentCollectionId
  | serviceVersionCollection => p.lhs.serviceVersionCollectionId
  | valueAccountCollection => p.rhs.propertyValueAccountCollectionId
  | valueDeviceCollection => p.rhs.propertyValueDeviceCollectionId
  | valueNetblockCollection => p.rhs.propertyValueNetblockCollectionId
  | valueServiceVersionCollection => p.rhs.propertyValueServiceVersionCollectionId

def type (v : ValProperty J) : Restricted → Option String
  | accountCollection => v.accountCollectionType
  | companyCollection => v.companyCollectionType
  | deviceCollection => v.deviceCollectionType
  | dnsDomainCollection => v.dnsDomainCollectionType
  | layer2NetworkCollection => v.layer2NetworkCollectionType
  | layer3NetworkCollection => v.layer3NetworkCollectionType
  | netblockCollection => v.netblockCollectionType
  | networkRange => v.networkRangeType
  | propertyNameCollection => v.propertyNameCollectionType
  | serviceEnvironmentCollection => v.serviceEnvironmentCollectionType
  | serviceVersionCollection => v.serviceVersionCollectionType
  | valueAccountCollection => v.propertyValueAccountCollectionTypeRestriction
  | valueDeviceCollection => v.propertyValueDeviceCollectionTypeRestriction
  | valueNetblockCollection => v.propertyValueNetblockCollectionTypeRestriction
  | valueServiceVersionCollection => v.propertyValueServiceVersionCollectionTypeRestriction

def table (db : Db J) : Restricted → Table String
  | accountCollection => db.accountCollection
  | companyCollection => db.companyCollection
  | deviceCollection => db.deviceCollection
  | dnsDomainCollection => db.dnsDomainCollection
  | layer2NetworkCollection => db.layer2NetworkCollection
  | layer3NetworkCollection => db.layer3NetworkCollection
  | netblockCollection => db.netblockCollection
  | networkRange => db.networkRange
  | propertyNameCollection => db.propertyNameCollection
  | serviceEnvironmentCollection => db.serviceEnvironmentCollection
  | serviceVersionCollection => db.serviceVersionCollection
  | valueAccountCollection => db.accountCollection
  | valueDeviceCollection => db.deviceCollection
  | valueNetblockCollection => db.netblockCollection
  | valueServiceVersionCollection => db.serviceVersionCollection

end Restricted

/-! ## As its definition says -/

/-- The one value column is that of the data type, and there is none for `none` only. -/
def HasValue (v : ValProperty J) (p : Row J) : Prop :=
  (∀ k, p.rhs.isSet k = true ↔ v.propertyDataType.column = some k) ∧
    (v.propertyDataType.column = none → v.propertyDataType = .none)

/-- The value is one of those listed. -/
def Listed (db : Db J) (v : ValProperty J) (p : Row J) : Prop :=
  v.propertyDataType = .list → ∀ value, p.rhs.propertyValue = some value →
    ⟨p.propertyName, p.propertyType, value⟩ ∈ db.valPropertyValue

def Typed (db : Db J) (v : ValProperty J) (p : Row J) (r : Restricted) : Prop :=
  ∀ i found type, r.id p = some i → (i, found) ∈ (r.table db).rows → r.type v = some type →
    found = type

def Permitted (v : ValProperty J) (p : Row J) (k : Column) : Prop :=
  (v.permit k = .REQUIRED → p.isSet k = true) ∧ (v.permit k = .PROHIBITED → p.isSet k = false)

/-- No other row stands where only one may. -/
structure Unique (db : Db J) (v : ValProperty J) (t : ValPropertyType) (p : Row J) : Prop where
  property : v.isMultivalue = false → ∀ q ∈ db.property, q.propertyId ≠ p.propertyId →
    ¬ (q.propertyName = p.propertyName ∧ q.propertyType = p.propertyType ∧ q.lhs = p.lhs)
  propertyType : t.isMultivalue = false → ∀ q ∈ db.property, q.propertyId ≠ p.propertyId →
    ¬ (q.propertyType = p.propertyType ∧ q.lhs = p.lhs)
  value : v.isMultivalue = true → ∀ q ∈ db.property, q.propertyId ≠ p.propertyId →
    ¬ (q.propertyName = p.propertyName ∧ q.propertyType = p.propertyType ∧ q.lhs = p.lhs ∧
      q.rhs = p.rhs ∧ q.startDate = p.startDate ∧ q.finishDate = p.finishDate)

/-- Digits with at most one point among them. -/
def isDigits (cs : List Char) : Bool :=
  match cs.dropWhile Char.isDigit with
  | [] => true
  | c :: cs => c = '.' && cs.all Char.isDigit

/-- A decimal numeral: a sign or none, and digits that may have a point among them. -/
def isDecimal (text : String) : Bool :=
  match text.toList with
  | '-' :: d :: cs => d.isDigit && isDigits cs
  | '+' :: d :: cs => d.isDigit && isDigits cs
  | d :: cs => d.isDigit && isDigits cs
  | [] => false

structure Valid (db : Db J) (v : ValProperty J) (t : ValPropertyType) (p : Row J) : Prop where
  unique : Unique db v t p
  value : HasValue v p
  number : v.propertyDataType = .number → ∀ value, p.rhs.propertyValue = some value →
    isDecimal value = true
  listed : Listed db v p
  typed : ∀ r, Typed db v p r
  permitted : ∀ k, Permitted v p k

end JazzHands.Property

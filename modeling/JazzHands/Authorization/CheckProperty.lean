import JazzHands.Cache.AccountCollection
import JazzHands.Library.SeparatedText
import JazzHands.Postgres.Query

/-!
# Authorization by a property

`authorization_utils.check_property_account_authorization`, with the tables that it reads.
-/

namespace JazzHands.Authorization

open Postgres

structure Account where
  accountId : ℕ
  login : String
  accountRealmId : ℕ

structure AccountRealm where
  accountRealmId : ℕ
  accountRealmName : String

/-- A row of `account_collection_account`. -/
structure Member where
  accountCollectionId : ℕ
  accountId : ℕ

structure Property where
  propertyName : String
  propertyType : String
  accountCollectionId : Option ℕ
  accountRealmId : Option ℕ
  propertyValue : Option String

/-- `collections` has the account collections with their hierarchy and its caches. -/
structure Db where
  collections : AccountCollection.Db
  account : List Account
  accountRealm : List AccountRealm
  accountCollectionAccount : List Member
  property : List Property

/-- The keys of the object, each with its value where it is there. -/
structure Parameters where
  propertyRole : Option String
  login : Option String
  accountId : Option ℕ
  deviceName : Option String
  deviceId : Option ℕ
  accountRealmId : Option ℕ
  accountRealmName : Option String
  propertyValue : Option String

/-- `split_part(s, sep, n)`, which is empty where there are fewer parts. -/
def splitPart (s : String) (sep : Char) (n : ℕ) : String :=
  String.ofList (((s.toList.splitOn sep)[n - 1]?).getD [])

/-- Where it says which realm is the default one. -/
def Property.IsDefaultRealm (p : Property) : Prop :=
  p.propertyType = "Defaults" ∧ p.propertyName = "_root_account_realm_id"
  deriving Decidable

/-- The default realm, where there is one. -/
def defaultRealm (first : FirstRow Property) (db : Db) : Option ℕ :=
  (first.pick (db.property.filter (·.IsDefaultRealm))).bind (·.accountRealmId)

/-- `_arid`.  The query by name has no `FROM`, so that its columns do not exist. -/
def arid (first : FirstRow Property) (db : Db) (parameters : Parameters) : Result (Option ℕ) :=
  match parameters.accountRealmId, parameters.accountRealmName with
  | some _, some _ => raise .invalidParameterValue
      "Must specify either account_realm_id or account_realm_name"
  | some id, none => .ok (some id)
  | none, some _ => raise .undefinedColumn "column account_realm_id does not exist"
  | none, none => .ok (defaultRealm first db)

def aid (db : Db) (parameters : Parameters) (arid : Option ℕ) : Result (Option ℕ) :=
  match parameters.accountId, parameters.login with
  | some _, some _ => raise .invalidParameterValue "Must specify either account_id or login"
  | some id, none => .ok (some id)
  | none, some login => .ok ((db.account.find? fun a =>
      a.login = login ∧ some a.accountRealmId = arid).map (·.accountId))
  | none, none => raise .invalidParameterValue "must specify a user to check for"

/-- The joined rows, with the condition of the query. -/
def Grants (parameters : Parameters) (role : String) (arid aid : Option ℕ) (p : Property)
    (r : AccountCollection.HierRow) (aca : Member) (a : Account) : Prop :=
  p.accountCollectionId = some r.rootAccountCollectionId ∧
    aca.accountCollectionId = r.accountCollectionId ∧ a.accountId = aca.accountId ∧
      p.propertyType = splitPart role ':' 1 ∧ p.propertyName = splitPart role ':' 2 ∧
        some a.accountId = aid ∧ some a.accountRealmId = arid ∧
          ∀ value, parameters.propertyValue = some value → p.propertyValue = some value

instance {parameters : Parameters} {role : String} {arid aid : Option ℕ} {p : Property}
    {r : AccountCollection.HierRow} {aca : Member} {a : Account} :
    Decidable (Grants parameters role arid aid p r aca a) := by
  have hvalue : Decidable (∀ value, parameters.propertyValue = some value →
      p.propertyValue = some value) :=
    match h : parameters.propertyValue with
    | none => .isTrue fun _ hnone => by cases hnone
    | some value => decidable_of_iff (p.propertyValue = some value)
        ⟨fun hp _ hv => Option.some.inj hv ▸ hp, fun hall => hall value rfl⟩
  unfold Grants
  infer_instance

def checkPropertyAccountAuthorization (first : FirstRow Property) (db : Db)
    (parameters : Parameters) : Result Bool := do
  raiseIf (parameters.login.isSome ∧ parameters.accountId.isSome) .invalidParameterValue
    "Must specify either login or account_id, not both."
  raiseIf (¬ parameters.login.isSome ∧ ¬ parameters.accountId.isSome) .invalidParameterValue
    "Must specify one of login or account_id, not both."
  raiseIf (parameters.deviceId.isSome ∨ parameters.deviceName.isSome) .invalidParameterValue
    "Device support not implemented yet, but should be."
  match parameters.propertyRole with
  | none => raise .invalidParameterValue "Must specify property role"
  | some role => do
    let arid ← arid first db parameters
    let aid ← aid db parameters arid
    .ok (decide (∃ p ∈ db.property, ∃ r ∈ db.collections.ctRecurse,
      ∃ aca ∈ db.accountCollectionAccount, ∃ a ∈ db.account,
        Grants parameters role arid aid p r aca a))

end JazzHands.Authorization

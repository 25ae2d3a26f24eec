import JazzHands.Library.Runs
import JazzHands.Postgres.Query
import JazzHands.Postgres.RowStatement

/-!
# The collection of each service environment and of each account

`create_per_svc_env_coll_triggers.sql`, and the part of `create_account_triggers.sql` for accounts.

Other triggers of these tables can only raise, or keep collections of other types.
-/

namespace JazzHands.PerObject

open Postgres RowStatement

structure ServiceEnvironment where
  serviceEnvironmentId : ℕ
  serviceEnvironmentName : String
  serviceEnvironmentType : String

structure Account where
  accountId : ℕ
  login : String
  accountRealmId : ℕ

/-- A row of `service_environment_collection` or `account_collection`. -/
structure Coll where
  collectionId : ℕ
  collectionName : String
  collectionType : String

/-- A row of `service_environment_collection_service_environment` or
`account_collection_account`. -/
structure Member where
  collectionId : ℕ
  objectId : ℕ
  deriving DecidableEq

/-- `references` are the collections that rows of other tables refer to. -/
structure Collections where
  collection : List Coll
  member : List Member
  references : List ℕ
  collectionSeq : ℕ

structure Db where
  serviceEnvironment : List ServiceEnvironment
  serviceEnvironmentCollections : Collections
  account : List Account
  accountCollections : Collections

def Db.empty : Db := ⟨[], ⟨[], [], [], 1⟩, [], ⟨[], [], [], 1⟩⟩

/-- `concat(name, '_', id)`. -/
def newname (name : String) (id : ℕ) : String := name ++ "_" ++ toString id

/-! ## What the triggers of both kinds do -/

def collectionKeys (others : List Coll) (new : Coll) : Result Unit := do
  checkUnique (·.collectionId) "pk_account_collection" others new
  checkUnique (fun c => (c.collectionName, c.collectionType)) "uq_acct_collection_name" others new

/-- The two `INSERT`s. -/
def insertOwn (t : Collections) (type name : String) (objectId : ℕ) : Result Collections := do
  let new : Coll := ⟨t.collectionSeq, name, type⟩
  collectionKeys t.collection new
  .ok { t with
    collection := t.collection ++ [new]
    member := t.member ++ [⟨t.collectionSeq, objectId⟩]
    collectionSeq := t.collectionSeq + 1 }

/-- The two `DELETE`s. -/
def deleteOwn (t : Collections) : Option ℕ → Result Collections
  | none => .ok t
  | some id => do
    raiseIf (id ∈ t.references) .foreignKeyViolation
      "update or delete on table violates foreign key constraint"
    .ok { t with
      collection := t.collection.filter fun c => c.collectionId ≠ id
      member := t.member.filter fun m => m.collectionId ≠ id }

/-- The `UPDATE`, of the collections that meet the condition. -/
def rename (t : Collections) (cond : Coll → Bool) (name : String) : Result Collections := do
  let collection ← (RowStatement.update fun c =>
    if cond c then some { c with collectionName := name } else none).execute collectionKeys
      t.collection
  .ok { t with collection := collection }

/-- The collections of a type that have the object for a member. -/
def Collections.ofType (t : Collections) (type : String) (objectId : ℕ) : List ℕ :=
  (t.collection.filter fun c => c.collectionType = type ∧ ⟨c.collectionId, objectId⟩ ∈ t.member).map
    (·.collectionId)

/-! ## Service environments -/

/-- `delete_per_service_environment_service_environment_collection`. -/
def deletePerServiceEnvironment (t : Collections) (old : ServiceEnvironment) :
    Result Collections :=
  deleteOwn t (t.ofType "per-environment" old.serviceEnvironmentId).min?

/-- `update_per_service_environment_service_environment_collection`. -/
def updatePerServiceEnvironment (t : Collections) : RowEvent ServiceEnvironment →
    Result Collections
  | .insert new => insertOwn t "per-environment"
      (newname new.serviceEnvironmentName new.serviceEnvironmentId) new.serviceEnvironmentId
  | .update old new =>
    let name := newname new.serviceEnvironmentName new.serviceEnvironmentId
    if old.serviceEnvironmentId ≠ new.serviceEnvironmentId then
      rename t (fun c => c.collectionName ≠ name ∧ c.collectionType = "per-environment" ∧
        ⟨c.collectionId, new.serviceEnvironmentId⟩ ∈ t.member) name
    else .ok t
  | .delete _ => .ok t

/-! ## Accounts -/

/-- `delete_peraccount_account_collection`. -/
def deletePeraccount (first : FirstRow ℕ) (t : Collections) (old : Account) : Result Collections :=
  deleteOwn t (first.pick (t.ofType "per-account" old.accountId))

/-- `update_peraccount_account_collection`. -/
def updatePeraccount (t : Collections) : RowEvent Account → Result Collections
  | .insert new => insertOwn t "per-account" (newname new.login new.accountId) new.accountId
  | .update old new =>
    if old.login ≠ new.login then
      match t.ofType "per-account" old.accountId with
      | [] => .ok t
      | [id] => rename t (fun c => c.collectionType = "per-account" ∧ c.collectionId = id)
          (newname new.login new.accountId)
      | _ => raise .cardinalityViolation
          "more than one row returned by a subquery used as an expression"
    else .ok t
  | .delete _ => .ok t

/-! ## Statements -/

section Execute

variable {ρ : Type} (key : ρ → ℕ) (check : List ρ → ρ → Result Unit)
  (delete : Collections → ρ → Result Collections)
  (update : Collections → RowEvent ρ → Result Collections)

/-- What a trigger `BEFORE DELETE` does for a row. -/
def beforeDelete (t : Collections) (e : RowEvent ρ) : Result Collections :=
  match e with
  | .delete old => delete t old
  | _ => .ok t

/-- The triggers before, the rows with their keys, the foreign key of the members, and the triggers
after. -/
def executeRows (rows : List ρ) (t : Collections) (s : RowStatement ρ) :
    Result (List ρ × Collections) := do
  let t ← (s.events rows).foldlM (beforeDelete delete) t
  let rows' ← s.execute check rows
  raiseIf (∃ m ∈ t.member, m.objectId ∉ rows'.map key) .foreignKeyViolation
    "update or delete on table violates foreign key constraint"
  let t ← (s.events rows).foldlM update t
  .ok (rows', t)

end Execute

inductive Statement where
  | insertServiceEnvironments (rows : List ServiceEnvironment)
  | updateServiceEnvironments (set : ServiceEnvironment → Option String)
  | deleteServiceEnvironments (cond : ServiceEnvironment → Bool)
  | insertAccounts (rows : List Account)
  | updateAccounts (set : Account → Option String)
  | deleteAccounts (cond : Account → Bool)

def serviceEnvironmentKeys (others : List ServiceEnvironment) (new : ServiceEnvironment) :
    Result Unit := do
  checkUnique (·.serviceEnvironmentId) "pk_service_environment" others new
  checkUnique (fun e => (e.serviceEnvironmentName, e.serviceEnvironmentType))
    "ak_service_env_name_type" others new

def accountKeys (others : List Account) (new : Account) : Result Unit := do
  checkUnique (·.accountId) "pk_account_id" others new
  checkUnique (fun a => (a.accountRealmId, a.login)) "ak_uq_account_lgn_realm" others new

def executeServiceEnvironment (db : Db) (s : RowStatement ServiceEnvironment) : Result Db := do
  let (rows, t) ← executeRows (·.serviceEnvironmentId) serviceEnvironmentKeys
    deletePerServiceEnvironment updatePerServiceEnvironment db.serviceEnvironment
    db.serviceEnvironmentCollections s
  .ok { db with serviceEnvironment := rows, serviceEnvironmentCollections := t }

def executeAccount (first : FirstRow ℕ) (db : Db) (s : RowStatement Account) : Result Db := do
  let (rows, t) ← executeRows (·.accountId) accountKeys (deletePeraccount first) updatePeraccount
    db.account db.accountCollections s
  .ok { db with account := rows, accountCollections := t }

def setName (set : ServiceEnvironment → Option String) : RowStatement ServiceEnvironment :=
  .update fun e => (set e).map fun name => { e with serviceEnvironmentName := name }

def setLogin (set : Account → Option String) : RowStatement Account :=
  .update fun a => (set a).map fun login => { a with login := login }

def execute (first : FirstRow ℕ) (db : Db) : Statement → Result Db
  | .insertServiceEnvironments rows => executeServiceEnvironment db (.insert rows)
  | .updateServiceEnvironments set => executeServiceEnvironment db (setName set)
  | .deleteServiceEnvironments cond => executeServiceEnvironment db (.delete cond)
  | .insertAccounts rows => executeAccount first db (.insert rows)
  | .updateAccounts set => executeAccount first db (setLogin set)
  | .deleteAccounts cond => executeAccount first db (.delete cond)

/-- The tables after a statement: an error leaves them as they were. -/
def step (first : FirstRow ℕ) (db : Db) (s : Statement) : Db :=
  match execute first db s with
  | .ok db' => db'
  | .error _ => db

end JazzHands.PerObject

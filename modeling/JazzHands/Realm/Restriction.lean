import JazzHands.Library.Runs
import JazzHands.Postgres.RowStatement

/-!
# Types of account collections that are restricted to a realm

`create_account_coll_realm_triggers.sql`, with the keys of the tables.

The trigger that counts members and the one that forbids hierarchies, which only refuse statements,
are left out.
-/

namespace JazzHands.Realm

open Postgres RowStatement

structure Member where
  accountCollectionId : ℕ
  accountId : ℕ
  deriving DecidableEq

structure Hier where
  accountCollectionId : ℕ
  childAccountCollectionId : ℕ
  deriving DecidableEq

structure AccountCollection where
  accountCollectionId : ℕ
  accountCollectionType : String

structure CollectionType where
  accountCollectionType : String
  accountRealmId : Option ℕ

structure Account where
  accountId : ℕ
  accountRealmId : ℕ
  deriving DecidableEq

structure Db where
  accountCollectionAccount : List Member
  accountCollectionHier : List Hier
  accountCollection : List AccountCollection
  valAccountCollectionType : List CollectionType
  account : List Account

namespace Db

def findType (db : Db) (accountCollectionType : String) : Option CollectionType :=
  db.valAccountCollectionType.find? (·.accountCollectionType = accountCollectionType)

def findCollection (db : Db) (accountCollectionId : ℕ) : Option AccountCollection :=
  db.accountCollection.find? (·.accountCollectionId = accountCollectionId)

def findAccount (db : Db) (accountId : ℕ) : Option Account :=
  db.account.find? (·.accountId = accountId)

/-- `SELECT ... FROM val_account_collection_type JOIN account_collection USING
(account_collection_type)`, of one collection. -/
def typeOf (db : Db) (accountCollectionId : ℕ) : Option CollectionType :=
  (db.findCollection accountCollectionId).bind fun c => db.findType c.accountCollectionType

/-- The realm of a type that is restricted. -/
def realmOfType (db : Db) (accountCollectionType : String) : Option ℕ :=
  (db.findType accountCollectionType).bind (·.accountRealmId)

/-- The realm that the members of a collection are restricted to. -/
def realmOf (db : Db) (accountCollectionId : ℕ) : Option ℕ :=
  (db.typeOf accountCollectionId).bind (·.accountRealmId)

/-- A member of the collection is of another realm. -/
def HasOther (db : Db) (accountCollectionId realm : ℕ) : Prop :=
  ∃ m ∈ db.accountCollectionAccount, m.accountCollectionId = accountCollectionId ∧
    ∃ a ∈ db.account, a.accountId = m.accountId ∧ a.accountRealmId ≠ realm
  deriving Decidable

end Db

/-! ## The triggers -/

/-- `AFTER INSERT OR UPDATE ON account_collection_account`. -/
def accountCollectionAccountRealm (db : Db) (e : RowEvent Member) : Result Unit :=
  match e.new? with
  | none => .ok ()
  | some new =>
    match db.realmOf new.accountCollectionId with
    | none => .ok ()
    | some realm =>
      if ∀ old ∈ e.old?, old.accountId ≠ new.accountId then
        raiseIf (∃ a ∈ db.findAccount new.accountId, a.accountRealmId ≠ realm)
          .integrityConstraintViolation
          "account realm of % does not match account realm restriction on account_collection %"
      else .ok ()

/-- `AFTER INSERT OR UPDATE ON account_collection_hier`. -/
def accountCollectionHierRealm (db : Db) (e : RowEvent Hier) : Result Unit :=
  match e.new? with
  | none => .ok ()
  | some new =>
    raiseIf (db.realmOf new.accountCollectionId ≠ db.realmOf new.childAccountCollectionId)
      .integrityConstraintViolation "account realm restrictions on parent %/child % do not match\" "

/-- `AFTER UPDATE OF account_realm_id ON val_account_collection_type`. -/
def accountCollectionTypeRealm (db : Db) (new : CollectionType) : Result Unit :=
  match new.accountRealmId with
  | none => .ok ()
  | some realm => do
    raiseIf (∃ c ∈ db.accountCollection, c.accountCollectionType = new.accountCollectionType ∧
        db.HasOther c.accountCollectionId realm)
      .integrityConstraintViolation
      "Unable to set account_realm restriction because there are accounts assigned that do not match it"
    raiseIf (∃ h ∈ db.accountCollectionHier,
        ∃ pat ∈ db.typeOf h.accountCollectionId, ∃ cat ∈ db.typeOf h.childAccountCollectionId,
          (pat.accountCollectionType = new.accountCollectionType ∨
            cat.accountCollectionType = new.accountCollectionType) ∧
          (pat.accountRealmId ≠ new.accountRealmId ∨ cat.accountRealmId ≠ new.accountRealmId))
      .integrityConstraintViolation
      "Unable to set account_realm restriction because there are account collections in the hierarchy that do not match"

/-- `BEFORE UPDATE OF account_realm_id ON account`. -/
def accountChangeRealmAcaRealm (db : Db) (new : Account) : Result Unit :=
  raiseIf (∃ m ∈ db.accountCollectionAccount, m.accountId = new.accountId ∧
      ∃ realm ∈ db.realmOf m.accountCollectionId, realm ≠ new.accountRealmId)
    .integrityConstraintViolation
    "New account realm (%) is part of % account collections with a type restriction"

/-- `AFTER UPDATE OF account_collection_type ON account_collection`. -/
def accountCollectionRealm (db : Db) (new : AccountCollection) : Result Unit :=
  match db.realmOfType new.accountCollectionType with
  | none => .ok ()
  | some realm => do
    raiseIf (db.HasOther new.accountCollectionId realm) .integrityConstraintViolation
      "Unable to set account_realm restriction because there are accounts assigned that do not match it"
    raiseIf (∃ h ∈ db.accountCollectionHier,
        (h.accountCollectionId = new.accountCollectionId ∨
          h.childAccountCollectionId = new.accountCollectionId) ∧
        ∃ pat ∈ db.typeOf h.accountCollectionId, ∃ cat ∈ db.typeOf h.childAccountCollectionId,
          pat.accountRealmId ≠ cat.accountRealmId)
      .integrityConstraintViolation
      "Unable to set account_realm restriction because there are account collections in the hierarchy that do not match"

/-- `AFTER UPDATE OF account_collection_type ON val_account_collection_type`: the function that
`create_account_coll_relation_triggers.sql` leaves under this name ends without `RETURN`. -/
def acctCollUpdateDirectBefore : Result Unit :=
  raise .functionExecutedNoReturnStatement "control reached end of trigger procedure without RETURN"

/-! ## Keys to other tables -/

def memberKeys (db : Db) (e : RowEvent Member) : Result Unit :=
  match e.new? with
  | none => .ok ()
  | some new => do
    raiseIf (∀ a ∈ db.account, a.accountId ≠ new.accountId) .foreignKeyViolation
      "violates foreign key constraint fk_acol_account_id"
    raiseIf (∀ c ∈ db.accountCollection, c.accountCollectionId ≠ new.accountCollectionId)
      .foreignKeyViolation "violates foreign key constraint fk_acctcol_usr_ucol_id"

def hierKeys (db : Db) (e : RowEvent Hier) : Result Unit :=
  match e.new? with
  | none => .ok ()
  | some new => do
    raiseIf (∀ c ∈ db.accountCollection, c.accountCollectionId ≠ new.accountCollectionId)
      .foreignKeyViolation "violates foreign key constraint fk_acctcolhier_acctcolid"
    raiseIf (∀ c ∈ db.accountCollection, c.accountCollectionId ≠ new.childAccountCollectionId)
      .foreignKeyViolation "violates foreign key constraint fk_acctcolhier_cldacctcolid"

def collectionKeys (db : Db) (e : RowEvent AccountCollection) : Result Unit :=
  match e.new? with
  | none => .ok ()
  | some new =>
    raiseIf (∀ vt ∈ db.valAccountCollectionType, vt.accountCollectionType ≠
        new.accountCollectionType)
      .foreignKeyViolation "violates foreign key constraint fk_acctcol_usrcoltyp"

/-- `NO ACTION`: rows that refer to the old row have to find another one. -/
def collectionReferences (db : Db) (e : RowEvent AccountCollection) : Result Unit :=
  match e.old? with
  | none => .ok ()
  | some old =>
    raiseIf ((∀ c ∈ db.accountCollection, c.accountCollectionId ≠ old.accountCollectionId) ∧
        ((∃ m ∈ db.accountCollectionAccount, m.accountCollectionId = old.accountCollectionId) ∨
          ∃ h ∈ db.accountCollectionHier, h.accountCollectionId = old.accountCollectionId ∨
            h.childAccountCollectionId = old.accountCollectionId))
      .foreignKeyViolation "is still referenced from table account_collection_account"

def typeReferences (db : Db) (e : RowEvent CollectionType) : Result Unit :=
  match e.old? with
  | none => .ok ()
  | some old =>
    raiseIf ((∀ vt ∈ db.valAccountCollectionType, vt.accountCollectionType ≠
          old.accountCollectionType) ∧
        ∃ c ∈ db.accountCollection, c.accountCollectionType = old.accountCollectionType)
      .foreignKeyViolation "is still referenced from table account_collection"

/-! ## Statements -/

inductive CollectionColumn where
  | accountCollectionId
  | accountCollectionType
  deriving DecidableEq

inductive TypeColumn where
  | accountCollectionType
  | accountRealmId
  deriving DecidableEq

def AccountCollection.set (columns : List CollectionColumn) (old values : AccountCollection) :
    AccountCollection where
  accountCollectionId := if .accountCollectionId ∈ columns then values.accountCollectionId
    else old.accountCollectionId
  accountCollectionType := if .accountCollectionType ∈ columns then values.accountCollectionType
    else old.accountCollectionType

def CollectionType.set (columns : List TypeColumn) (old values : CollectionType) :
    CollectionType where
  accountCollectionType := if .accountCollectionType ∈ columns then values.accountCollectionType
    else old.accountCollectionType
  accountRealmId := if .accountRealmId ∈ columns then values.accountRealmId
    else old.accountRealmId

/-- The statements.  An `UPDATE` of a collection or a type names columns. -/
inductive Statement where
  | member (s : RowStatement Member)
  | hier (s : RowStatement Hier)
  | collection (columns : List CollectionColumn) (s : RowStatement AccountCollection)
  | type (columns : List TypeColumn) (s : RowStatement CollectionType)
  | accountRealm (set : Account → Option ℕ)

/-- A trigger `AFTER UPDATE OF column`. -/
def onUpdate {ρ : Type} (fires : Bool) (trigger : ρ → Result Unit) (e : RowEvent ρ) :
    Result Unit :=
  match e with
  | .update _ new => if fires then trigger new else .ok ()
  | _ => .ok ()

/-- The accounts with the realms that an `UPDATE` sets. -/
def Db.setRealms (db : Db) (set : Account → Option ℕ) : Db :=
  { db with account := db.account.map fun a => ⟨a.accountId, (set a).getD a.accountRealmId⟩ }

def execute (db : Db) : Statement → Result Db
  | .member s => do
    let t ← s.execute (checkUnique id "pk_account_collection_user") db.accountCollectionAccount
    let db' := { db with accountCollectionAccount := t }
    (s.events db.accountCollectionAccount).forM fun e => do
      memberKeys db' e
      accountCollectionAccountRealm db' e
    .ok db'
  | .hier s => do
    let t ← s.execute (checkUnique id "pk_account_collection_hier") db.accountCollectionHier
    let db' := { db with accountCollectionHier := t }
    (s.events db.accountCollectionHier).forM fun e => do
      hierKeys db' e
      accountCollectionHierRealm db' e
    .ok db'
  | .collection columns s => do
    let s' := s.naming (AccountCollection.set columns)
    let t ← s'.execute (checkUnique (·.accountCollectionId) "pk_account_collection")
      db.accountCollection
    let db' := { db with accountCollection := t }
    (s'.events db.accountCollection).forM fun e => do
      collectionKeys db' e
      collectionReferences db' e
      onUpdate (.accountCollectionType ∈ columns) (accountCollectionRealm db') e
    .ok db'
  | .type columns s => do
    let s' := s.naming (CollectionType.set columns)
    let t ← s'.execute (checkUnique (·.accountCollectionType) "pk_val_account_collection_type")
      db.valAccountCollectionType
    let db' := { db with valAccountCollectionType := t }
    (s'.events db.valAccountCollectionType).forM fun e => do
      typeReferences db' e
      onUpdate (.accountRealmId ∈ columns) (accountCollectionTypeRealm db') e
      onUpdate (.accountCollectionType ∈ columns) (fun _ => acctCollUpdateDirectBefore) e
    .ok db'
  | .accountRealm set => do
    db.account.forM fun a =>
      match set a with
      | none => .ok ()
      | some realm => accountChangeRealmAcaRealm db ⟨a.accountId, realm⟩
    .ok (db.setRealms set)

def step (db : Db) (s : Statement) : Db := (execute db s).toOption.getD db

end JazzHands.Realm

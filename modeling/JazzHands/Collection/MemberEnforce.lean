import JazzHands.Postgres.RowStatement

/-!
# How many members a collection may have

`account_collection_member_enforce` and `account_coll_member_relation_enforce`, with the tables that
they read.

Other triggers of this table can only raise, or write to other tables.
-/

namespace JazzHands.MemberLimits

open Postgres RowStatement

/-- A row of `val_account_collection_type`. -/
structure CollectionType where
  accountCollectionType : String
  maxNumMembers : Option ℕ
  maxNumCollections : Option ℕ

/-- A row of `account_collection_type_relation`. -/
structure TypeRelation where
  accountCollectionRelation : String
  accountCollectionType : String
  maxNumMembers : Option ℕ
  maxNumCollections : Option ℕ

structure AccountCollection where
  accountCollectionId : ℕ
  accountCollectionType : String

structure Catalog where
  accountCollection : List AccountCollection
  valAccountCollectionType : List CollectionType
  accountCollectionTypeRelation : List TypeRelation

structure Member where
  accountCollectionId : ℕ
  accountId : ℕ
  accountCollectionRelation : Option String
  deriving DecidableEq

variable (cat : Catalog)

/-- The type of a collection, which the queries join. -/
def Catalog.typeOf (accountCollectionId : ℕ) : Option String :=
  (cat.accountCollection.find? (·.accountCollectionId = accountCollectionId)).map
    (·.accountCollectionType)

/-- `IF max IS NOT NULL THEN ... IF tally > max THEN RAISE EXCEPTION ...`. -/
def checkMax (max : Option ℕ) (tally : ℕ) (message : String) : Result Unit :=
  match max with
  | none => .ok ()
  | some n => raiseIf (n < tally) .uniqueViolation message

def accountCollectionMemberEnforce (rows : List Member) (new : Member) : Result Unit :=
  let act := cat.valAccountCollectionType.find? fun act =>
    cat.typeOf new.accountCollectionId = some act.accountCollectionType
  match act with
  | none => .ok ()
  | some act => do
    checkMax act.maxNumMembers
      (rows.countP fun m => m.accountCollectionId = new.accountCollectionId) "Too many members"
    checkMax act.maxNumCollections
      (rows.countP fun m => m.accountId = new.accountId ∧
        cat.typeOf m.accountCollectionId = some act.accountCollectionType)
      "Account may not be a member of more than % collections of type %"

def accountCollMemberRelationEnforce (rows : List Member) (new : Member) : Result Unit :=
  let act := cat.accountCollectionTypeRelation.find? fun act =>
    cat.typeOf new.accountCollectionId = some act.accountCollectionType ∧
      new.accountCollectionRelation = some act.accountCollectionRelation
  match act with
  | none => .ok ()
  | some act => do
    checkMax act.maxNumMembers
      (rows.countP fun m => cat.typeOf m.accountCollectionId = some act.accountCollectionType ∧
        m.accountCollectionRelation = some act.accountCollectionRelation) "Too many members"
    checkMax act.maxNumCollections
      (rows.countP fun m => cat.typeOf m.accountCollectionId = some act.accountCollectionType ∧
        m.accountCollectionRelation = some act.accountCollectionRelation ∧
          m.accountId = new.accountId)
      "account % is in too many collections of type %/%"

/-- The primary key, with a row that comes to the others. -/
def memberKey : List Member → Member → Result Unit :=
  checkUnique (fun m => (m.accountCollectionId, m.accountId)) "pk_account_collection_user"

/-- The foreign key of a written row, and then its triggers. -/
def afterRow (rows : List Member) (e : RowEvent Member) : Result Unit :=
  match e.new? with
  | none => .ok ()
  | some new => do
    raiseIf (∀ c ∈ cat.accountCollection, c.accountCollectionId ≠ new.accountCollectionId)
      .foreignKeyViolation "violates foreign key constraint fk_acctcol_usr_ucol_id"
    accountCollMemberRelationEnforce cat rows new
    accountCollectionMemberEnforce cat rows new

def execute (t : List Member) (s : RowStatement Member) : Result (List Member) := do
  let rows ← s.execute memberKey t
  (s.events t).forM (afterRow cat rows)
  .ok rows

/-- The table after a statement: an error leaves it as it was. -/
def step (t : List Member) (s : RowStatement Member) : List Member :=
  match execute cat t s with
  | .ok t' => t'
  | .error _ => t

end JazzHands.MemberLimits

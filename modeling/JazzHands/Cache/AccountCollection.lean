import JazzHands.Library.WithRecursive
import JazzHands.Postgres.Error
import JazzHands.Postgres.RowEvent

/-!
# The caches of the hierarchy of account collections

`create_ct_account_collection_hier_recurse.sql` and
`create_ct_account_collection_hier_from_ancestor.sql`, with the tables under them.

The other triggers of the two tables read the types and realms of the collections; they fire after
these and can only raise.
-/

namespace JazzHands.AccountCollection

open Library Postgres

/-- A row of `account_collection_hier`. -/
structure Hier where
  accountCollectionId : ℕ
  childAccountCollectionId : ℕ
  deriving DecidableEq

/-- A row of a cache.  The leaf of the path comes first, and the root last. -/
@[ext] structure HierRow where
  rootAccountCollectionId : ℕ
  accountCollectionId : ℕ
  path : List ℕ
  cycle : Bool
  deriving DecidableEq

/-- `GENERATED ALWAYS AS ( array_length(path, 1) )`. -/
def HierRow.accountCollectionLevel (r : HierRow) : ℕ := r.path.length

/-- The row of a collection itself. -/
def HierRow.self (accountCollectionId : ℕ) : HierRow :=
  ⟨accountCollectionId, accountCollectionId, [accountCollectionId], false⟩

structure Db where
  accountCollection : List ℕ
  accountCollectionHier : List Hier
  ctRecurse : List HierRow
  ctFromAncestor : List HierRow

/-! ## The views -/

/-- The part of `v_account_collection_hier_recurse` after `UNION ALL`: on to the parents. -/
def ascend (hier : List Hier) (x : HierRow) : List HierRow :=
  if x.cycle = true then []
  else (hier.filter (·.childAccountCollectionId = x.rootAccountCollectionId)).map fun h =>
    { x with
      rootAccountCollectionId := h.accountCollectionId
      path := x.path ++ [h.accountCollectionId]
      cycle := decide (h.accountCollectionId ∈ x.path) }

/-- The part of `v_account_collection_hier_from_ancestor` after `UNION ALL`: on to the children. -/
def descend (hier : List Hier) (x : HierRow) : List HierRow :=
  if x.cycle = true then []
  else (hier.filter (·.accountCollectionId = x.accountCollectionId)).map fun uch =>
    { x with
      accountCollectionId := uch.childAccountCollectionId
      path := uch.childAccountCollectionId :: x.path
      cycle := decide (uch.childAccountCollectionId ∈ x.path) }

/-- `v_account_collection_hier_recurse`.  A path without a cycle is not longer than the table of
collections, so that these rounds are all. -/
def vAccountCollectionHierRecurse (db : Db) : List HierRow :=
  unionAll (ascend db.accountCollectionHier) (db.accountCollection.map .self)
    (db.accountCollection.length + 1)

def vAccountCollectionHierFromAncestor (db : Db) : List HierRow :=
  unionAll (descend db.accountCollectionHier) (db.accountCollection.map .self)
    (db.accountCollection.length + 1)

/-! ## The triggers -/

/-- An INSERT into a cache, whose primary key is the path. -/
def insertRow (ct : List HierRow) (r : HierRow) : Result (List HierRow) := do
  raiseIf (∃ q ∈ ct, q.path = r.path) .uniqueViolation
    "duplicate key value violates unique constraint"
  .ok (ct ++ [r])

/-- What the handlers of `account_collection` of both caches do. -/
def baseHandler (ct : List HierRow) : RowEvent ℕ → Result (List HierRow)
  | .delete old => .ok (ct.filter fun r =>
      ¬ (r.rootAccountCollectionId = old ∧ r.accountCollectionId = old))
  | .update old new => .ok (ct.map fun r =>
      if r.rootAccountCollectionId = old ∧ r.accountCollectionId = old then
        { r with rootAccountCollectionId := new, accountCollectionId := new }
      else r)
  | .insert new => insertRow ct (.self new)

def ctAccountCollectionHierRecurseBaseHandler (ct : List HierRow) (ev : RowEvent ℕ) :
    Result (List HierRow) := baseHandler ct ev

def accountCollectionBaseHandler (ct : List HierRow) (ev : RowEvent ℕ) :
    Result (List HierRow) := baseHandler ct ev

/-- A row of the queries that glue the paths below a new edge to those above it. -/
structure Smash where
  parentPath : List ℕ
  childPath : List ℕ
  rootAccountCollectionId : ℕ
  accountCollectionId : ℕ
  path : List ℕ
  cycle : Bool
  deriving DecidableEq

/-- The row of the cache that the loop stores. -/
def Smash.row (r : Smash) : HierRow :=
  ⟨r.rootAccountCollectionId, r.accountCollectionId, r.path, r.cycle⟩

/-- The pairs of a path up from the parent and a path up to the child. -/
def smashes (ct : List HierRow) (new : Hier) (cycle : HierRow → HierRow → Bool) : List Smash :=
  (ct.filter (·.accountCollectionId = new.accountCollectionId)).flatMap fun p =>
    (ct.filter (·.rootAccountCollectionId = new.childAccountCollectionId)).map fun c =>
      ⟨p.path, c.path, p.rootAccountCollectionId, c.accountCollectionId, c.path ++ p.path,
        cycle p c⟩

/-- The loop over the pairs: a pair with a cycle raises, the others are stored. -/
def insertSmashes (errcode : SqlState) (message : String) (ct : List HierRow) :
    List Smash → Result (List HierRow)
  | [] => .ok ct
  | r :: l => do
    raiseIf (r.cycle = true) errcode message
    let ct ← insertRow ct r.row
    insertSmashes errcode message ct l

/-- The child and the parent of the edge follow each other in the path: `first` and `second` run
over the path and over the path without its first entry. -/
def Consecutive (old : Hier) (path : List ℕ) : Prop :=
  (old.childAccountCollectionId, old.accountCollectionId) ∈ path.zip path.tail

instance {old : Hier} : DecidablePred (Consecutive old) := fun path =>
  decidable_of_iff (∃ e ∈ path.zip path.tail,
    e = (old.childAccountCollectionId, old.accountCollectionId)) exists_eq_right

/-- The deletion in `account_collection_hier_recurse_handler`. -/
def recurseDelete (ct : List HierRow) (old : Hier) : List HierRow :=
  ct.filter fun r => ¬ Consecutive old r.path

/-- The query of `account_collection_hier_recurse_handler`. -/
def recurseSmashes (ct : List HierRow) (new : Hier) : List Smash :=
  (smashes ct new fun p c => decide (new.childAccountCollectionId ∈ p.path) ||
    decide (new.accountCollectionId ∈ c.path)).dedup

def accountCollectionHierRecurseHandler (ct : List HierRow) (ev : RowEvent Hier) :
    Result (List HierRow) :=
  let ct := match ev.old? with
    | some old => recurseDelete ct old
    | none => ct
  match ev.new? with
  | some new => insertSmashes .invalidParameterValue "This creates an infite loop" ct
      (recurseSmashes ct new)
  | none => .ok ct

/-- The deletion in `account_collection_root_handler`: both ends of the edge are in the path. -/
def rootDelete (ct : List HierRow) (old : Hier) : List HierRow :=
  ct.filter fun r => ¬ (old.accountCollectionId ∈ r.path ∧ old.childAccountCollectionId ∈ r.path)

def accountCollectionRootHandler (ct : List HierRow) (ev : RowEvent Hier) :
    Result (List HierRow) :=
  let ct := match ev.old? with
    | some old => rootDelete ct old
    | none => ct
  match ev.new? with
  | some new => insertSmashes .raiseException "danger!  cycle!" ct
      (smashes ct new fun _ _ => false)
  | none => .ok ct

/-! ## Statements -/

inductive Statement where
  | insertCollection (accountCollectionId : ℕ)
  | deleteCollection (accountCollectionId : ℕ)
  | insertHier (new : Hier)
  | deleteHier (old : Hier)
  | updateHier (old new : Hier)

/-- The triggers of `account_collection`, in the order of their names. -/
def fireCollection (db : Db) (ev : RowEvent ℕ) : Result Db := do
  let ctFromAncestor ← accountCollectionBaseHandler db.ctFromAncestor ev
  let ctRecurse ← ctAccountCollectionHierRecurseBaseHandler db.ctRecurse ev
  .ok { db with ctRecurse := ctRecurse, ctFromAncestor := ctFromAncestor }

/-- The triggers of `account_collection_hier`, in the order of their names. -/
def fireHier (db : Db) (ev : RowEvent Hier) : Result Db := do
  let ctRecurse ← accountCollectionHierRecurseHandler db.ctRecurse ev
  let ctFromAncestor ← accountCollectionRootHandler db.ctFromAncestor ev
  .ok { db with ctRecurse := ctRecurse, ctFromAncestor := ctFromAncestor }

/-- `pk_account_collection_hier` and the foreign keys, for a row next to the rows `hier`. -/
def checkHier (db : Db) (hier : List Hier) (new : Hier) : Result Unit := do
  raiseIf (new ∈ hier) .uniqueViolation
    "duplicate key value violates unique constraint pk_account_collection_hier"
  raiseIf (new.accountCollectionId ∉ db.accountCollection) .foreignKeyViolation
    "violates foreign key constraint fk_acctcolhier_acctcolid"
  raiseIf (new.childAccountCollectionId ∉ db.accountCollection) .foreignKeyViolation
    "violates foreign key constraint fk_acctcolhier_cldacctcolid"

/-- A statement; a DELETE or UPDATE that finds no row does nothing. -/
def execute (db : Db) : Statement → Result Db
  | .insertCollection id => do
    raiseIf (id ∈ db.accountCollection) .uniqueViolation
      "duplicate key value violates unique constraint pk_account_collection"
    fireCollection { db with accountCollection := db.accountCollection ++ [id] } (.insert id)
  | .deleteCollection id =>
    if id ∉ db.accountCollection then .ok db
    else do
      raiseIf (∃ h ∈ db.accountCollectionHier, h.accountCollectionId = id ∨
        h.childAccountCollectionId = id) .foreignKeyViolation
        "violates foreign key constraint on account_collection_hier"
      fireCollection { db with accountCollection := db.accountCollection.erase id } (.delete id)
  | .insertHier new => do
    checkHier db db.accountCollectionHier new
    fireHier { db with accountCollectionHier := db.accountCollectionHier ++ [new] } (.insert new)
  | .deleteHier old =>
    if old ∉ db.accountCollectionHier then .ok db
    else fireHier { db with accountCollectionHier := db.accountCollectionHier.erase old }
      (.delete old)
  | .updateHier old new =>
    if old ∉ db.accountCollectionHier then .ok db
    else do
      checkHier db (db.accountCollectionHier.erase old) new
      fireHier { db with accountCollectionHier := db.accountCollectionHier.erase old ++ [new] }
        (.update old new)

/-- The tables after a statement: an error leaves them as they were. -/
def step (db : Db) (s : Statement) : Db :=
  match execute db s with
  | .ok db' => db'
  | .error _ => db

end JazzHands.AccountCollection

import JazzHands.Library.WithRecursive
import JazzHands.Netblock.Statement
import JazzHands.Postgres.RowEvent
import Mathlib

/-!
# The cache of the hierarchy of netblocks

`create_ct_netblock_hier.sql`, on top of the triggers of `netblock`.
-/

namespace JazzHands.NetblockHier

open Library Postgres

/-- A row of the hierarchy.  The path begins with the netblock and ends with the root. -/
@[ext] structure HierRow where
  rootNetblockId : ℕ
  intermediateNetblockId : ℕ
  netblockId : ℕ
  path : List ℕ
  deriving DecidableEq

/-- The row of a netblock itself. -/
def HierRow.self (netblockId : ℕ) : HierRow := ⟨netblockId, netblockId, netblockId, [netblockId]⟩

/-! ## `v_netblock_hier` -/

/-- The part after `UNION`: on to the children. -/
def childRows (t : List Netblock) (p : HierRow) : List HierRow :=
  (t.filter fun n => n.parentNetblockId = some p.netblockId ∧ n.isSingleAddress = false).map
    fun n => ⟨p.rootNetblockId, p.netblockId, n.netblockId, n.netblockId :: p.path⟩

/-- `v_netblock_hier`.  Without cycles no path is longer than the table, so that these rounds are
all. -/
def vNetblockHier (t : List Netblock) : List HierRow :=
  union (childRows t) ((t.filter (·.isSingleAddress = false)).map fun n => .self n.netblockId)
    t.length

/-! ## `cache_netblock_hier_handler` -/

/-- The part of `tier` before `UNION ALL`: the edge up from the netblock. -/
def tierBase (t : List Netblock) (netblockId : ℕ) : List HierRow :=
  (t.filter (·.netblockId = netblockId)).flatMap fun n =>
    n.parentNetblockId.toList.map fun p => ⟨p, p, n.netblockId, [n.netblockId, p]⟩

/-- The part of `tier` after `UNION ALL`: on to the parent. -/
def tierNext (t : List Netblock) (x : HierRow) : List HierRow :=
  (t.filter (·.netblockId = x.rootNetblockId)).flatMap fun n =>
    n.parentNetblockId.toList.map fun p => { x with rootNetblockId := p, path := x.path ++ [p] }

/-- `tier`: a way up of more edges than there are rows is on a cycle, and then the query goes on
until it is cancelled. -/
def tier (t : List Netblock) (netblockId : ℕ) : Result (List HierRow) := do
  raiseIf (rounds (tierNext t) (tierBase t netblockId) t.length ≠ []) .queryCanceled
    "canceling statement due to user request"
  .ok (unionAll (tierNext t) (tierBase t netblockId) t.length)

/-- The primary key of the cache. -/
def HasPath (ct : List HierRow) (path : List ℕ) : Prop := ∃ r ∈ ct, r.path = path
  deriving Decidable

/-- The INSERTs of a loop that ignores `unique_violation`. -/
def insertMissing (ct : List HierRow) : List HierRow → List HierRow
  | [] => ct
  | r :: l => insertMissing (if HasPath ct r.path then ct else ct ++ [r]) l

/-- The INSERTs of a loop that does not. -/
def insertAll (ct : List HierRow) : List HierRow → Result (List HierRow)
  | [] => .ok ct
  | r :: l => do
    raiseIf (HasPath ct r.path) .uniqueViolation "duplicate key value violates unique constraint"
    insertAll (ct ++ [r]) l

/-- The first loop: everything above the netblock. -/
def insertUp (t : List Netblock) (ct : List HierRow) (new : Netblock) : Result (List HierRow) := do
  let tier ← tier t new.netblockId
  let combo := tier ++
    (t.filter (·.netblockId = new.netblockId)).map fun n => .self n.netblockId
  .ok (insertMissing ct (combo.filter fun r => ¬ HasPath ct r.path))

/-- The rows of the second loop: what the children of the netblock are the roots of. -/
def fromRows (t : List Netblock) (ct : List HierRow) (new : Netblock) : List HierRow :=
  ct.flatMap fun h =>
    (t.filter fun n => n.netblockId = h.rootNetblockId ∧
      n.parentNetblockId = some new.netblockId).map fun _ =>
    { h with
      rootNetblockId := new.netblockId
      intermediateNetblockId :=
        if h.path.length = 1 then new.netblockId else h.intermediateNetblockId
      path := h.path ++ [new.netblockId] }

/-- The rows of the third loop: the kids and the parents with the netblock in the middle. -/
def combinedRows (ct : List HierRow) (new : Netblock) : List HierRow :=
  ct.flatMap fun hkid =>
    (ct.filter fun hpar => hkid.rootNetblockId = hpar.netblockId ∧
      hpar.netblockId = new.netblockId ∧ 1 < hpar.path.length ∧ 2 < hkid.path.length).map
    fun hpar => ⟨hpar.rootNetblockId, hkid.intermediateNetblockId, hkid.netblockId,
      hkid.path ++ hpar.path.tail⟩

/-- The handler returns at once for a single address, and for a row that is its own parent. -/
def Passes (new : Netblock) : Prop :=
  new.isSingleAddress = true ∨ new.parentNetblockId = some new.netblockId
  deriving Decidable

/-- The rows that the handler deletes first. -/
def cleanup (ct : List HierRow) : RowEvent Netblock → List HierRow
  | .insert new => ct.filter (·.rootNetblockId ≠ new.netblockId)
  | .delete old => ct.filter (old.netblockId ∉ ·.path)
  | .update old _ =>
    if old.parentNetblockId ≠ none then ct.filter (old.netblockId ∉ ·.path) else ct

/-- `cache_netblock_hier_handler`, on the rows `t` of `netblock`. -/
def cacheNetblockHierHandler (t : List Netblock) (ct : List HierRow) (ev : RowEvent Netblock) :
    Result (List HierRow) :=
  match ev with
  | .delete _ => .ok (cleanup ct ev)
  | .update _ new =>
    if Passes new then .ok ct
    else do
      let ct ← insertUp t (cleanup ct ev) new
      .ok (insertMissing ct (fromRows t ct new))
  | .insert new =>
    if Passes new then .ok ct
    else do
      let ct ← insertUp t (cleanup ct ev) new
      let ct := insertMissing ct (fromRows t ct new)
      insertAll ct (combinedRows ct new)

/-- The handler on the rows that a statement inserted or updated, at the end of the statement. -/
def fireHandler (t : List Netblock) (ct : List HierRow) : List Event → Result (List HierRow)
  | [] => .ok ct
  | ev :: l => do
    let ct ← cacheNetblockHierHandler t ct (match ev.old with
      | none => .insert ev.new
      | some old => .update old ev.new)
    fireHandler t ct l

/-! ## The triggers of `netblock` with the handler -/

/-- A transaction, with the cache as it sees it. -/
structure HierTxn where
  txn : Txn
  ctNetblockHier : List HierRow

/-- `UPDATE netblock SET parent_netblock_id = parent WHERE cond`. -/
def updateParents (db : Schema) (order : ScanOrder) (parent : Option ℕ) (cond : Netblock → Prop)
    [DecidablePred cond] (x : HierTxn) : Result HierTxn := do
  let txn ← JazzHands.updateParents db order parent cond x.txn
  let ct ← fireHandler txn.netblock x.ctNetblockHier
    (txn.deferred.drop x.txn.deferred.length)
  .ok ⟨txn, ct⟩

/-- The two statements of `manipulate_netblock_parentage_before` on an UPDATE. -/
def rehomeChildren (db : Schema) (order : ScanOrder) (x : HierTxn) (old new : Netblock) :
    Result HierTxn := do
  let x ← updateParents db order (some new.netblockId) (fun n =>
    n.parentNetblockId ≠ none ∧ n.parentNetblockId = new.parentNetblockId ∧
      n.ipAddress.subnetEq new.ipAddress ∧ n.netblockId ≠ new.netblockId) x
  updateParents db order old.parentNetblockId (fun n =>
    n.parentNetblockId = some new.netblockId ∧
      (n.ipUniverseId ≠ new.ipUniverseId ∨ n.netblockType ≠ new.netblockType ∨
        ¬ n.ipAddress.subnetEq new.ipAddress)) x

/-- `manipulate_netblock_parentage_before` on an UPDATE. -/
def manipulateNetblockParentageBefore (db : Schema) (order : ScanOrder) (x : HierTxn)
    (old new : Netblock) : Result (HierTxn × Netblock) :=
  if db.dbForcedHierarchy new.netblockType = false then .ok (x, new)
  else
    let new := { new with parentNetblockId := new.bestParent x.txn.netblock }
    if new.isSingleAddress = true then .ok (x, new)
    else do
      let x ← rehomeChildren db order x old new
      .ok (x, new)

/-- `manipulate_netblock_parentage_after` for an INSERT. -/
def manipulateNetblockParentageAfterInsert (db : Schema) (order : ScanOrder) (x : HierTxn)
    (new : Netblock) : Result HierTxn :=
  if db.dbForcedHierarchy new.netblockType = false then .ok x
  else if new.isSingleAddress = true then .ok x
  else
    match new.parentNetblockId with
    | none => updateParents db order (some new.netblockId) (fun n =>
        n.parentNetblockId = none ∧ n.ipAddress.subnetEq new.ipAddress ∧
          n.netblockId ≠ new.netblockId ∧ n.netblockType = new.netblockType ∧
          n.ipUniverseId = new.ipUniverseId) x
    | some parent => updateParents db order (some new.netblockId) (fun n =>
        n.parentNetblockId = some parent ∧ n.ipAddress.subnetEq new.ipAddress ∧
          n.netblockId ≠ new.netblockId) x

/-- `manipulate_netblock_parentage_after` for a DELETE. -/
def manipulateNetblockParentageAfterDelete (db : Schema) (order : ScanOrder) (x : HierTxn)
    (old : Netblock) : Result HierTxn :=
  if db.dbForcedHierarchy old.netblockType = false then .ok x
  else updateParents db order old.parentNetblockId
    (fun n => n.parentNetblockId = some old.netblockId) x

/-! ## Statements -/

/-- The table and its cache. -/
structure HierDb where
  netblock : List Netblock
  ctNetblockHier : List HierRow

/-- The handler on the row of the statement itself, after the other triggers. -/
def HierTxn.fire (x : HierTxn) (ev : RowEvent Netblock) : Result HierTxn := do
  let ct ← cacheNetblockHierHandler x.txn.netblock x.ctNetblockHier ev
  .ok { x with ctNetblockHier := ct }

/-- On an INSERT `manipulate_netblock_parentage_before` executes no statement. -/
def executeInsert (db : Schema) (order : ScanOrder) (d : HierDb) (new : NetblockRecord) :
    Result HierTxn := do
  let new ← validateNetblock db d.netblock none new
  let (txn, new) ←
    JazzHands.manipulateNetblockParentageBefore db order ⟨d.netblock, []⟩ none new
  let txn ← insertRow db txn new
  let x ← manipulateNetblockParentageAfterInsert db order ⟨txn, d.ctNetblockHier⟩ new
  x.fire (.insert new)

/-- The trigger `tb_manipulate_netblock_parentage`. -/
def fireManipulate (db : Schema) (order : ScanOrder) (d : HierDb) (old : Netblock)
    (set : SetClause) (new : Netblock) : Result (HierTxn × Netblock) :=
  if set.firesManipulate = true then
    manipulateNetblockParentageBefore db order ⟨⟨d.netblock, []⟩, d.ctNetblockHier⟩ old new
  else .ok (⟨⟨d.netblock, []⟩, d.ctNetblockHier⟩, new)

/-- The SET list names a column of `zaa_ta_cache_netblock_hier_handler`. -/
def firesHandler (set : SetClause) : Bool := set.ipAddress.isSome || set.parentNetblockId.isSome

def executeUpdate (db : Schema) (order : ScanOrder) (d : HierDb) (old : Netblock)
    (set : SetClause) : Result HierTxn :=
  if set.firesValidate = false then .ok ⟨⟨d.netblock, []⟩, d.ctNetblockHier⟩
  else do
    let new ← validateNetblock db d.netblock (some old) (set.apply old)
    let (x, new) ← fireManipulate db order d old set new
    raiseIf (∃ ev ∈ x.txn.deferred, ∃ o ∈ ev.old, o.netblockId = old.netblockId)
      .triggeredDataChangeViolation
      "tuple to be updated was already modified by an operation triggered by the current command"
    let txn ← writeRow db x.txn old new
    let x : HierTxn := ⟨txn, x.ctNetblockHier⟩
    if firesHandler set = true then x.fire (.update old new) else .ok x

def executeDelete (db : Schema) (order : ScanOrder) (d : HierDb) (old : Netblock) :
    Result HierTxn := do
  let x ← manipulateNetblockParentageAfterDelete db order
    ⟨⟨without d.netblock old.netblockId, []⟩, d.ctNetblockHier⟩ old
  x.fire (.delete old)

/-- A statement; an UPDATE or DELETE that finds no row does nothing. -/
def execute (db : Schema) (order : ScanOrder) (d : HierDb) : Statement → Result HierTxn
  | .insert new => executeInsert db order d new
  | .update netblockId set =>
    match findNetblock d.netblock netblockId with
    | none => .ok ⟨⟨d.netblock, []⟩, d.ctNetblockHier⟩
    | some old => executeUpdate db order d old set
  | .delete netblockId =>
    match findNetblock d.netblock netblockId with
    | none => .ok ⟨⟨d.netblock, []⟩, d.ctNetblockHier⟩
    | some old => executeDelete db order d old

/-- A statement in a transaction of its own. -/
def transaction (db : Schema) (order : ScanOrder) (d : HierDb) (s : Statement) :
    Result HierDb := do
  let x ← execute db order d s
  let t ← commit db x.txn
  .ok ⟨t, x.ctNetblockHier⟩

/-- The table and the cache after a transaction: an error leaves them as they were. -/
def step (db : Schema) (d : HierDb) (s : Statement × ScanOrder) : HierDb :=
  match transaction db s.2 d s.1 with
  | .ok d' => d'
  | .error _ => d

end JazzHands.NetblockHier

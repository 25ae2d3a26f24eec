import JazzHands.Netblock.Triggers

/-!
# Statements and transactions on `netblock`

A `SET` list says of each column whether it is named, since triggers fire for columns.  A
transaction is one statement and the deferred triggers at its end.
-/

namespace JazzHands

open Postgres

/-- The `SET` list of an UPDATE.  `none` is a column that the list does not name. -/
structure SetClause where
  netblockId : Option ℕ := none
  ipAddress : Option (Option Inet) := none
  netblockType : Option String := none
  isSingleAddress : Option (Option Bool) := none
  canSubnet : Option (Option Bool) := none
  parentNetblockId : Option (Option ℕ) := none
  ipUniverseId : Option (Option ℕ) := none

namespace SetClause

/-- The record `NEW` of an UPDATE of the row `old`. -/
def apply (set : SetClause) (old : Netblock) : NetblockRecord where
  netblockId := set.netblockId.getD old.netblockId
  ipAddress := set.ipAddress.getD (some old.ipAddress)
  netblockType := set.netblockType.getD old.netblockType
  isSingleAddress := set.isSingleAddress.getD (some old.isSingleAddress)
  canSubnet := set.canSubnet.getD (some old.canSubnet)
  parentNetblockId := set.parentNetblockId.getD old.parentNetblockId
  ipUniverseId := set.ipUniverseId.getD (some old.ipUniverseId)

/-- The list names a column of `tb_manipulate_netblock_parentage`. -/
def firesManipulate (set : SetClause) : Bool :=
  set.ipAddress.isSome || set.netblockType.isSome || set.ipUniverseId.isSome ||
    set.netblockId.isSome || set.canSubnet.isSome || set.isSingleAddress.isSome

/-- The list names a column of `tb_a_validate_netblock`, which are also those of
`trigger_validate_netblock_parentage`. -/
def firesValidate (set : SetClause) : Bool :=
  set.firesManipulate || set.parentNetblockId.isSome

end SetClause

inductive Statement where
  | insert (new : NetblockRecord)
  | update (netblockId : ℕ) (set : SetClause)
  | delete (netblockId : ℕ)

namespace Statement

/-- An INSERT of a network that leaves the parent to the triggers. -/
def insertNetwork (netblockId : ℕ) (ipAddress : Inet) (canSubnet : Bool)
    (netblockType : String := "default") (ipUniverseId : ℕ := 0) : Statement :=
  .insert ⟨netblockId, some ipAddress, netblockType, some false, some canSubnet, none,
    some ipUniverseId⟩

/-- An INSERT of a single address that leaves the parent to the triggers. -/
def insertSingleAddress (netblockId : ℕ) (ipAddress : Inet) (netblockType : String := "default")
    (ipUniverseId : ℕ := 0) : Statement :=
  .insert ⟨netblockId, some ipAddress, netblockType, some true, some false, none,
    some ipUniverseId⟩

def setIpAddress (netblockId : ℕ) (ipAddress : Inet) : Statement :=
  .update netblockId { ipAddress := some (some ipAddress) }

end Statement

def insertRow (db : Schema) (x : Txn) (new : Netblock) : Result Txn := do
  checkConstraints db x.netblock new
  .ok { netblock := x.netblock ++ [new], deferred := x.deferred ++ [⟨none, new⟩] }

def executeInsert (db : Schema) (order : ScanOrder) (t : List Netblock) (new : NetblockRecord) :
    Result Txn := do
  let new ← validateNetblock db t none new
  let (x, new) ← manipulateNetblockParentageBefore db order ⟨t, []⟩ none new
  let x ← insertRow db x new
  manipulateNetblockParentageAfterInsert db order x new

/-- The trigger `tb_manipulate_netblock_parentage` fires on an UPDATE that names one of its
columns. -/
def fireManipulate (db : Schema) (order : ScanOrder) (t : List Netblock) (old : Netblock)
    (set : SetClause) (new : Netblock) : Result (Txn × Netblock) :=
  if set.firesManipulate = true then
    manipulateNetblockParentageBefore db order ⟨t, []⟩ (some old) new
  else .ok (⟨t, []⟩, new)

/-- An UPDATE of the stored row `old`.  A BEFORE trigger that has itself updated the row makes the
statement fail. -/
def executeUpdate (db : Schema) (order : ScanOrder) (t : List Netblock) (old : Netblock)
    (set : SetClause) : Result Txn :=
  if set.firesValidate = false then .ok ⟨t, []⟩
  else do
    let new ← validateNetblock db t (some old) (set.apply old)
    let (x, new) ← fireManipulate db order t old set new
    raiseIf (∃ ev ∈ x.deferred, ∃ o ∈ ev.old, o.netblockId = old.netblockId)
      .triggeredDataChangeViolation
      "tuple to be updated was already modified by an operation triggered by the current command"
    writeRow db x old new

def executeDelete (db : Schema) (order : ScanOrder) (t : List Netblock) (old : Netblock) :
    Result Txn :=
  manipulateNetblockParentageAfterDelete db order ⟨without t old.netblockId, []⟩ old

/-- A statement; an UPDATE or DELETE that finds no row does nothing. -/
def execute (db : Schema) (order : ScanOrder) (t : List Netblock) : Statement → Result Txn
  | .insert new => executeInsert db order t new
  | .update netblockId set =>
    match findNetblock t netblockId with
    | none => .ok ⟨t, []⟩
    | some old => executeUpdate db order t old set
  | .delete netblockId =>
    match findNetblock t netblockId with
    | none => .ok ⟨t, []⟩
    | some old => executeDelete db order t old

/-- The deferred trigger, event by event. -/
def validateEvents (db : Schema) (t : List Netblock) : List Event → Result Unit
  | [] => .ok ()
  | ev :: l => do
    validateNetblockParentage db t ev
    validateEvents db t l

/-- COMMIT: the deferred trigger and the deferred foreign key `fk_netblk_netblk_parid`. -/
def commit (db : Schema) (x : Txn) : Result (List Netblock) := do
  validateEvents db x.netblock x.deferred
  raiseIf (∃ n ∈ x.netblock, ∃ p ∈ n.parentNetblockId, findNetblock x.netblock p = none)
    .foreignKeyViolation "violates foreign key constraint fk_netblk_netblk_parid"
  .ok x.netblock

/-- A statement in a transaction of its own. -/
def transaction (db : Schema) (order : ScanOrder) (t : List Netblock) (s : Statement) :
    Result (List Netblock) := do
  let x ← execute db order t s
  commit db x

/-- The committed table after a transaction: an error leaves the table as it was.  Each statement
comes with the order in which its triggers visit rows. -/
def step (db : Schema) (t : List Netblock) (s : Statement × ScanOrder) : List Netblock :=
  match transaction db s.2 t s.1 with
  | .ok t' => t'
  | .error _ => t

end JazzHands

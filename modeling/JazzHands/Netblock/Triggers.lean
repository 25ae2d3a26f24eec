import JazzHands.Netblock.Schema

/-!
# The triggers of `netblock`

`create_netblock_triggers.sql`, function by function.  A transaction holds the rows as it sees them
and the events for which the deferred trigger has to run when it commits.

Triggers that other files put on `netblock` (DNS records, layer 3 networks and interfaces, network
ranges) read other tables and can only raise; they are not part of this model.
-/

namespace JazzHands

open Postgres

/-- The record `NEW` of an INSERT or UPDATE, whose columns may be NULL. -/
structure NetblockRecord where
  netblockId : ℕ
  ipAddress : Option Inet
  netblockType : String
  isSingleAddress : Option Bool
  canSubnet : Option Bool
  parentNetblockId : Option ℕ
  ipUniverseId : Option ℕ

/-- The record of a row. -/
def Netblock.record (n : Netblock) : NetblockRecord where
  netblockId := n.netblockId
  ipAddress := some n.ipAddress
  netblockType := n.netblockType
  isSingleAddress := some n.isSingleAddress
  canSubnet := some n.canSubnet
  parentNetblockId := n.parentNetblockId
  ipUniverseId := some n.ipUniverseId

/-- A row-level event for the deferred trigger: `OLD`, which an INSERT does not have, and `NEW`. -/
structure Event where
  old : Option Netblock
  new : Netblock

/-- A transaction: the rows it sees, and the queue of the deferred trigger. -/
structure Txn where
  netblock : List Netblock
  deferred : List Event

/-- The order in which a statement inside a trigger visits the rows it updates. -/
structure ScanOrder where
  visit : List ℕ → List ℕ
  perm : ∀ l, (visit l).Perm l

/-- The rows as they come. -/
def ScanOrder.asIs : ScanOrder := ⟨id, fun _ => .refl _⟩

/-! ## `validate_netblock` -/

/-- `validate_netblock` on a record with NULLs: `can_subnet` and `is_single_address` follow from
each other, and the universe is the best one.  A NULL that is left can only end in an error, at the
latest in the one of the column. -/
def NetblockRecord.complete (db : Schema) (t : List Netblock) (new : NetblockRecord) :
    Result Netblock :=
  match new.ipAddress with
  | none => raise .notNullViolation "Column ip_address may not be null"
  | some ipAddress =>
    let isSingleAddress :=
      if new.canSubnet = some true ∧ new.isSingleAddress = none then some false
      else new.isSingleAddress
    let canSubnet :=
      if new.canSubnet = none ∧ new.isSingleAddress = some true then some false
      else new.canSubnet
    let ipUniverseId := new.ipUniverseId.getD (findBestIpUniverse db t ipAddress)
    match isSingleAddress, canSubnet with
    | some isSingleAddress, some canSubnet =>
      .ok ⟨new.netblockId, ipAddress, new.netblockType, isSingleAddress, canSubnet,
        new.parentNetblockId, ipUniverseId⟩
    | _, _ => raise .notNullViolation "null value in column violates not-null constraint"

/-- `validate_netblock`: a single address of a forced hierarchy takes the mask length of its
parent. -/
def singleAddressMask (db : Schema) (t : List Netblock) (new : Netblock) : Result Netblock :=
  if new.isSingleAddress = true ∧ db.dbForcedHierarchy new.netblockType = true then
    match (new.bestParent t).bind (findNetblock t) with
    | none => raise .JH105
        "Forced Hierarchy: A single address (%) must be the child of a parent netblock, which must have can_subnet=false"
    | some parent => do
      let ipAddress ← new.ipAddress.setMasklen parent.ipAddress.masklen
      .ok { new with ipAddress := ipAddress }
  else .ok new

/-- The first `WITH x`: the universes in which the address of a network of universe `u` may not be
used again. -/
def universesOfAddress (db : Schema) (u : ℕ) : List ℕ :=
  ((db.ipUniverse.filter fun x =>
      (∃ y ∈ db.ipUniverse, y.ipUniverseId = u ∧ y.ipNamespace = x.ipNamespace) ∧
        x.ipUniverseId ≠ u).map (·.ipUniverseId)) ++
    ((db.ipUniverseVisibility.filter fun v =>
      v.ipUniverseId = u ∧ v.ipUniverseId ≠ u).map (·.visibleIpUniverseId)) ++
    ((db.ipUniverseVisibility.filter fun v =>
      v.visibleIpUniverseId = u ∧ v.visibleIpUniverseId ≠ u).map (·.ipUniverseId))

/-- The second `WITH x`: the universes in which no network without subnets may overlap one of
universe `u`. -/
def universesOfSubnet (db : Schema) (u : ℕ) : List ℕ :=
  ((db.ipUniverse.filter fun x =>
      (∃ y ∈ db.ipUniverse, y.ipUniverseId = u ∧ y.ipNamespace = x.ipNamespace) ∧
        x.ipUniverseId ≠ u).map (·.ipUniverseId)) ++
    ((db.ipUniverseVisibility.filter fun v =>
      v.ipUniverseId = u ∧ v.visibleIpUniverseId ≠ u).map (·.visibleIpUniverseId)) ++
    ((db.ipUniverseVisibility.filter fun v =>
      v.visibleIpUniverseId = u ∧ v.ipUniverseId ≠ u).map (·.ipUniverseId))

/-- `validate_netblock` on a complete record, with the masks done. -/
def checkNetblock (db : Schema) (t : List Netblock) (old : Option Netblock) (new : Netblock) :
    Result Unit := do
  raiseIf (new.canSubnet = true ∧ new.isSingleAddress = true) .JH106
    "Single addresses may not be subnettable"
  raiseIf (new.isSingleAddress = false ∧ new.ipAddress ≠ new.ipAddress.network) .JH103
    "Non-network bits must be zero if is_single_address is N for %"
  raiseIf ((∃ n ∈ t, n.ipAddress = new.ipAddress ∧ n.ipUniverseId = new.ipUniverseId ∧
      n.netblockType = new.netblockType ∧ n.isSingleAddress = new.isSingleAddress) ∧
      ∀ o ∈ old, new.ipAddress ≠ o.ipAddress) .uniqueViolation
    "Unique Constraint Violated on IP Address: %\nFailing row is %\nConflicts with: %"
  raiseIf (new.isSingleAddress = false ∧ ∃ n ∈ t, n.ipAddress = new.ipAddress ∧
      n.netblockType = new.netblockType ∧
      n.ipUniverseId ∈ universesOfAddress db new.ipUniverseId ∧
      n.isSingleAddress = false ∧ n.netblockId ≠ new.netblockId) .uniqueViolation
    "IP Universe Constraint Violated on IP Address: % Universe: %"
  raiseIf (new.isSingleAddress = false ∧ new.canSubnet = false ∧ ∃ n ∈ t,
      n.ipUniverseId ∈ universesOfSubnet db new.ipUniverseId ∧
      (n.ipAddress.subnetEq new.ipAddress ∨ new.ipAddress.subnetEq n.ipAddress) ∧
      n.netblockType = new.netblockType ∧ n.isSingleAddress = false ∧ n.canSubnet = false ∧
      n.netblockId ≠ new.netblockId) .uniqueViolation
    "Can Subnet = N IP Universe Constraint Violated on IP Address: % Universe: %"

/-- `validate_netblock`: the row it returns for the record `NEW`. -/
def validateNetblock (db : Schema) (t : List Netblock) (old : Option Netblock)
    (new : NetblockRecord) : Result Netblock := do
  let new ← new.complete db t
  let new ← singleAddressMask db t new
  checkNetblock db t old new
  .ok new

/-! ## Writing rows -/

/-- The constraints that hold at once for a row that is written next to the rows `t`: the primary
key, `ak_netblock_params`, and the foreign keys to the type and the universe. -/
def checkConstraints (db : Schema) (t : List Netblock) (new : Netblock) : Result Unit := do
  raiseIf (∃ n ∈ t, n.netblockId = new.netblockId) .uniqueViolation
    "duplicate key value violates unique constraint pk_netblock"
  raiseIf (∃ n ∈ t, n.ipAddress = new.ipAddress ∧ n.netblockType = new.netblockType ∧
      n.ipUniverseId = new.ipUniverseId ∧ n.isSingleAddress = new.isSingleAddress)
    .uniqueViolation "duplicate key value violates unique constraint ak_netblock_params"
  raiseIf (db.nbtype new.netblockType = none) .foreignKeyViolation
    "violates foreign key constraint fk_netblock_nblk_typ"
  raiseIf (¬ ∃ u ∈ db.ipUniverse, u.ipUniverseId = new.ipUniverseId) .foreignKeyViolation
    "violates foreign key constraint fk_nblk_ip_universe_id"

/-- The rows other than the one with the given key. -/
def without (t : List Netblock) (netblockId : ℕ) : List Netblock :=
  t.filter (·.netblockId ≠ netblockId)

/-- The stored row `old` becomes `new`. -/
def writeRow (db : Schema) (x : Txn) (old new : Netblock) : Result Txn := do
  checkConstraints db (without x.netblock old.netblockId) new
  .ok { netblock := x.netblock.map fun n => if n.netblockId = old.netblockId then new else n
        deferred := x.deferred ++ [⟨some old, new⟩] }

/-- `UPDATE netblock SET parent_netblock_id = parent` on one row.  Among the BEFORE triggers only
`validate_netblock` has the column in its list. -/
def updateParent (db : Schema) (parent : Option ℕ) (x : Txn) (netblockId : ℕ) : Result Txn :=
  match findNetblock x.netblock netblockId with
  | none => .ok x
  | some old => do
    let new ← validateNetblock db x.netblock (some old)
      { old with parentNetblockId := parent }.record
    writeRow db x old new

def updateParentAll (db : Schema) (parent : Option ℕ) (x : Txn) : List ℕ → Result Txn
  | [] => .ok x
  | netblockId :: l => do
    let x ← updateParent db parent x netblockId
    updateParentAll db parent x l

/-- `UPDATE netblock SET parent_netblock_id = parent WHERE cond`. -/
def updateParents (db : Schema) (order : ScanOrder) (parent : Option ℕ) (cond : Netblock → Prop)
    [DecidablePred cond] (x : Txn) : Result Txn :=
  updateParentAll db parent x (order.visit ((x.netblock.filter cond).map (·.netblockId)))

/-! ## `manipulate_netblock_parentage_before` and `manipulate_netblock_parentage_after` -/

/-- The two statements of `manipulate_netblock_parentage_before` on an UPDATE that makes the network
`new` of `old`. -/
def rehomeChildren (db : Schema) (order : ScanOrder) (x : Txn) (old new : Netblock) :
    Result Txn := do
  -- the children of the new parent that belong to the block
  let x ← updateParents db order (some new.netblockId) (fun n =>
    n.parentNetblockId ≠ none ∧ n.parentNetblockId = new.parentNetblockId ∧
      n.ipAddress.subnetEq new.ipAddress ∧ n.netblockId ≠ new.netblockId) x
  -- the children of the block that no longer belong to it
  updateParents db order old.parentNetblockId (fun n =>
    n.parentNetblockId = some new.netblockId ∧
      (n.ipUniverseId ≠ new.ipUniverseId ∨ n.netblockType ≠ new.netblockType ∨
        ¬ n.ipAddress.subnetEq new.ipAddress)) x

/-- `manipulate_netblock_parentage_before`: the row `NEW` gets its best parent.  An UPDATE of a
network also rewrites the parents of other rows. -/
def manipulateNetblockParentageBefore (db : Schema) (order : ScanOrder) (x : Txn)
    (old : Option Netblock) (new : Netblock) : Result (Txn × Netblock) :=
  if db.dbForcedHierarchy new.netblockType = false then .ok (x, new)
  else
    let new := { new with parentNetblockId := new.bestParent x.netblock }
    match old with
    | none => .ok (x, new)
    | some old =>
      if new.isSingleAddress = true then .ok (x, new)
      else do
        let x ← rehomeChildren db order x old new
        .ok (x, new)

/-- `manipulate_netblock_parentage_after` for an INSERT. -/
def manipulateNetblockParentageAfterInsert (db : Schema) (order : ScanOrder) (x : Txn)
    (new : Netblock) : Result Txn :=
  if db.dbForcedHierarchy new.netblockType = false then .ok x
  else if new.isSingleAddress = true then .ok x
  else
    match new.parentNetblockId with
    | none => updateParents db order (some new.netblockId) (fun n =>
        n.parentNetblockId = none ∧ n.ipAddress.subnetEq new.ipAddress ∧
          n.netblockId ≠ new.netblockId ∧ n.netblockType = new.netblockType ∧
          n.ipUniverseId = new.ipUniverseId) x
    | some parent => updateParents db order (some new.netblockId) (fun n =>
        n.parentNetblockId = some parent ∧ n.ipAddress.subnetEq new.ipAddress ∧
          n.netblockId ≠ new.netblockId) x

/-- `manipulate_netblock_parentage_after` for a DELETE. -/
def manipulateNetblockParentageAfterDelete (db : Schema) (order : ScanOrder) (x : Txn)
    (old : Netblock) : Result Txn :=
  if db.dbForcedHierarchy old.netblockType = false then .ok x
  else updateParents db order old.parentNetblockId
    (fun n => n.parentNetblockId = some old.netblockId) x

/-! ## `validate_netblock_parentage` -/

/-- The branch of `validate_netblock_parentage` for a row without a parent. -/
def validateTopLevel (db : Schema) (t : List Netblock) (new realnew : Netblock) : Result Unit :=
  if db.isValidatedHierarchy new.netblockType = false then .ok ()
  else do
    raiseIf (realnew.isSingleAddress = true) .JH105
      "Validation: A single address (%) must be the child of a parent netblock, which must have can_subnet=false"
    raiseIf (realnew.bestParent t ≠ none) .JH102 "Netblock % (%) has NULL parent; should be % (%)"
    raiseIf (∃ n ∈ t, n.parentNetblockId = none ∧ n.netblockId ≠ new.netblockId ∧
        n.netblockType = new.netblockType ∧ n.ipUniverseId = new.ipUniverseId ∧
        n.ipAddress.subnetEq new.ipAddress) .JH108
      "Other top-level netblocks should belong to this parent"

/-- The branch of `validate_netblock_parentage` for a row with the parent `nbrec`, from the point
on where the hierarchy of the type is known to be validated. -/
def validateChild (t : List Netblock) (old : Option Netblock) (new realnew nbrec : Netblock) :
    Result Unit := do
  raiseIf (realnew.canSubnet = false ∧ ∃ n ∈ t, n.parentNetblockId = some realnew.netblockId ∧
      n.isSingleAddress = false) .JH10B
    "A non-subnettable netblock may not have child network netblocks\nParent: %\nChild(ren): %\n"
  raiseIf (realnew.isSingleAddress = true ∧ nbrec.canSubnet = true) .JH10D
    "Parent netblock % for single-address % must have can_subnet=false"
  raiseIf (realnew.isSingleAddress = true ∧
      realnew.ipAddress.masklen ≠ nbrec.ipAddress.masklen) .JH105
    "Parent netblock % does not have the same netmask as single-address child % (% vs %)"
  raiseIf (realnew.bestParent t ≠ some nbrec.netblockId) .JH102
    "Parent netblock % (%) for netblock % (%) is not the correct parent (should be % (%))"
  raiseIf ((∃ n ∈ t, n.isSingleAddress = true ∧ n.parentNetblockId = some nbrec.netblockId) ∧
      ∃ n ∈ t, n.isSingleAddress = false ∧ n.parentNetblockId = some nbrec.netblockId) .JH107
    "Netblock % (%) may not have direct children for both single and multiple addresses simultaneously"
  raiseIf ((∃ o ∈ old, new.ipAddress ≠ o.ipAddress) ∧ ∃ n ∈ t,
      n.parentNetblockId = some realnew.netblockId ∧
      ((n.isSingleAddress = true ∧ new.ipAddress ≠ n.ipAddress.network) ∨
        (n.isSingleAddress = false ∧
          ∃ p ∈ findBestParentOf t n.netblockId, realnew.netblockId ≠ p))) .JH10E
    "Update for netblock % (%) causes parent to have children that do not belong to it"
  raiseIf (realnew.isSingleAddress = false ∧ ∃ n ∈ t,
      n.parentNetblockId = some nbrec.netblockId ∧ n.netblockId ≠ realnew.netblockId ∧
      n.ipAddress.subnetEq realnew.ipAddress) .JH108
    "Other netblocks have children that should belong to parent % (%)"

/-- The parent changed between the event and now: another event of the row does the check. -/
def Event.Skipped (ev : Event) (realnew : Netblock) : Prop :=
  ∃ p ∈ ev.new.parentNetblockId, ∃ q ∈ realnew.parentNetblockId, p ≠ q
  deriving Decidable

/-- `validate_netblock_parentage`, run for one event on the rows `t` that are about to be
committed. -/
def validateNetblockParentage (db : Schema) (t : List Netblock) (ev : Event) : Result Unit :=
  match findNetblock t ev.new.netblockId with
  | none => .ok ()
  | some realnew =>
    if ev.Skipped realnew then .ok ()
    else do
      raiseIf (∃ n ∈ t, n.parentNetblockId = some realnew.netblockId ∧
          n.netblockType ≠ realnew.netblockType ∧ n.ipUniverseId ≠ realnew.ipUniverseId) .JH109
        "Netblock children must all be of the same type and universe as the parent"
      match realnew.parentNetblockId with
      | none => validateTopLevel db t ev.new realnew
      | some parent => do
        raiseIf (parent = realnew.netblockId) .JH101 "Netblock may not have itself as a parent"
        match findNetblock t parent with
        | none => raise .foreignKeyViolation "Parent netblock % does not exist"
        | some nbrec => do
          raiseIf (nbrec.isSingleAddress = true) .JH10A
            "A parent netblock (% for %) may not be a single address"
          raiseIf (nbrec.ipUniverseId ≠ realnew.ipUniverseId ∨
              nbrec.netblockType ≠ realnew.netblockType) .JH109
            "Netblock children must all be of the same type and universe as the parent"
          if db.isValidatedHierarchy ev.new.netblockType = false then .ok ()
          else validateChild t ev.old ev.new realnew nbrec

end JazzHands

import JazzHands.Netblock.Outcome
import JazzHands.Netblock.Validated
import JazzHands.Netblock.Forest
import JazzHands.Postgres.Plpgsql

/-!
# `netblock_manip`

The parameter of both functions has the name of the column `netblock_id`, and both write that name
without its table.

The setting of `plpgsql.variable_conflict` is a parameter.  When it is left alone neither function
ever gets to the end.
-/

namespace JazzHands

open Postgres

variable {db : Schema} {order : ScanOrder} {t t' : List Netblock} {x x' : Txn}
variable {n r : Netblock} {i : ℕ} {nbid : Option ℕ}

/-! ## `netblock_manip.delete_netblock` -/

/-- `DELETE FROM netblock WHERE cond`: the rows go, and then the AFTER trigger runs for each. -/
def deleteNetblocks (db : Schema) (order : ScanOrder) (cond : Netblock → Prop)
    [DecidablePred cond] (x : Txn) : Result Txn :=
  (x.netblock.filter cond).foldlM (manipulateNetblockParentageAfterDelete db order)
    { x with netblock := x.netblock.filter fun n => ¬ cond n }

def deleteNetblock (conflict : VariableConflict) (db : Schema) (order : ScanOrder) (x : Txn)
    (netblockId : ℕ) : Result Txn := do
  let selected ← bareName conflict netblockId Netblock.netblockId
  let parNbid := (findNetblock x.netblock netblockId).map selected
  let x ← updateParents db order parNbid (·.parentNetblockId = some netblockId) x
  let compared ← bareName conflict netblockId Netblock.netblockId
  deleteNetblocks db order (compared · = netblockId) x

/-- The row `n`, once the row `old` above it is out of the way. -/
def Netblock.liftedFrom (old n : Netblock) : Netblock :=
  if n.parentNetblockId = some old.netblockId then
    { n with parentNetblockId := old.parentNetblockId }
  else n

/-- The table without the row `old`, whose children hang off its parent. -/
def Netblock.takenOut (old : Netblock) (t : List Netblock) : List Netblock :=
  (without t old.netblockId).map old.liftedFrom

/-- Every row of the table passes what is checked when its parent has been written. -/
def HangsLegally (db : Schema) (t : List Netblock) : Prop :=
  commit db ⟨t, t.map fun n => ⟨some n, n⟩⟩ = .ok t
  deriving Decidable

/-- A call of `delete_netblock`, in a transaction of its own, takes the row `old` out of the
table. -/
def TakesOut (conflict : VariableConflict) (db : Schema) (order : ScanOrder) (t : List Netblock)
    (old : Netblock) : Prop :=
  ∃ x t', deleteNetblock conflict db order ⟨t, []⟩ old.netblockId = .ok x ∧
    commit db x = .ok t' ∧ t'.Perm (old.takenOut t)

/-- **No netblock is ever taken out.** -/
theorem not_takesOut (db : Schema) (order : ScanOrder) (t : List Netblock) (old : Netblock) :
    ¬ TakesOut .default db order t old := by
  rintro ⟨x, t', hx, -, -⟩
  exact bareName_default_bind_ne_ok hx

/-- A tree with two networks below each other, and a row beside them. -/
def nested : List Netblock :=
  [⟨1, .v4 10 0 0 0 8, "default", false, true, none, 0⟩,
    ⟨2, .v4 10 1 0 0 16, "default", false, true, some 1, 0⟩,
    ⟨3, .v4 10 1 1 0 24, "default", false, true, some 2, 0⟩,
    ⟨4, .v4 10 2 0 0 16, "default", false, true, some 1, 0⟩]

/-- The row in the middle could go: the table without it is legal, and a plain `DELETE` makes it. -/
theorem not_takesOut_nested :
    let old : Netblock := ⟨2, .v4 10 1 0 0 16, "default", false, true, some 1, 0⟩
    old ∈ nested ∧ HangsLegally .initial nested ∧ HangsLegally .initial (old.takenOut nested) ∧
      transaction .initial .asIs nested (.delete 2) = .ok (old.takenOut nested) ∧
      ¬ TakesOut .default .initial .asIs nested old := by
  refine ⟨by decide, by decide, by decide, by decide, ?_⟩
  rintro ⟨x, t', hx, -, -⟩
  exact bareName_default_bind_ne_ok hx

/-! ## `netblock_manip.recalculate_parentage` -/

/-- The loop: a child that lies in the address of `nbrec` is given the row of the call as its
parent. -/
def adoptChildren (db : Schema) (netblockId : ℕ) (nbrec : Option Netblock) (x : Txn)
    (childrec : Netblock) : Result Txn :=
  if ∃ n ∈ nbrec, childrec.ipAddress.subnetEq n.ipAddress then
    updateParent db (some netblockId) x childrec.netblockId
  else .ok x

/-- `netblock_manip.recalculate_parentage`, with the value it returns. -/
def recalculateParentage (conflict : VariableConflict) (db : Schema) (order : ScanOrder) (x : Txn)
    (netblockId : ℕ) : Result (Txn × Option ℕ) := do
  let compared ← bareName conflict netblockId Netblock.netblockId
  let nbrec := x.netblock.find? (compared · = netblockId)
  let nbid := findBestParentOf x.netblock netblockId
  let updated ← bareName conflict netblockId Netblock.netblockId
  let x ← updateParents db order nbid (updated · = netblockId) x
  -- nothing is equal to a `nbid` that is NULL
  let childrecs := x.netblock.filter fun p =>
    nbid ≠ none ∧ p.parentNetblockId = nbid ∧ p.netblockId ≠ netblockId
  let x ← childrecs.foldlM (adoptChildren db netblockId nbrec) x
  .ok (x, nbid)

/-- Every row other than `N` hangs off its best parent among the rows other than `N`. -/
def HangsWithout (t : List Netblock) (netblockId : ℕ) : Prop :=
  ∀ r ∈ without t netblockId, HangsOffBestParent (without t netblockId) r

/-- A call of `recalculate_parentage`, in a transaction of its own, makes every row hang off its
best parent, and returns the one of its row. -/
def Recalculates (conflict : VariableConflict) (db : Schema) (order : ScanOrder)
    (t : List Netblock) (netblockId : ℕ) : Prop :=
  ∃ x nbid t', recalculateParentage conflict db order ⟨t, []⟩ netblockId = .ok (x, nbid) ∧
    commit db x = .ok t' ∧ (∀ r ∈ t', HangsOffBestParent t' r) ∧
    ∃ n ∈ t', n.netblockId = netblockId ∧ n.parentNetblockId = nbid

/-- **No parentage is ever recalculated.** -/
theorem not_recalculates (db : Schema) (order : ScanOrder) (t : List Netblock) (netblockId : ℕ) :
    ¬ Recalculates .default db order t netblockId := by
  rintro ⟨x, nbid, t', hx, -⟩
  exact bareName_default_bind_ne_ok hx

theorem hangsOffBestParent_of_eq (ht : WellFormed t) (hr : r ∈ t)
    (hs : r.isSingleAddress = false) (h : r.parentNetblockId = r.bestParent t) :
    HangsOffBestParent t r := by
  rw [← nearest_iff_container ht, h]
  exact nearest_bestParent ht hr ⟨hs, rfl, rfl⟩

/-- A network that was put in beside the tree, between the two rows of it. -/
def beside : List Netblock :=
  [⟨1, .v4 10 0 0 0 8, "adhoc", false, true, none, 0⟩,
    ⟨2, .v4 10 1 0 0 16, "adhoc", false, true, none, 0⟩,
    ⟨3, .v4 10 1 1 0 24, "adhoc", false, true, some 1, 0⟩]

theorem not_recalculates_beside :
    Schema.initial.dbForcedHierarchy "adhoc" = false ∧ WellFormed beside ∧
      HangsWithout beside 2 ∧ ¬ Recalculates .default .initial .asIs beside 2 := by
  refine ⟨by decide, by decide, fun r hr => ?_, ?_⟩
  · have hrows : ∀ r ∈ without beside 2, r.isSingleAddress = false ∧
        r.parentNetblockId = r.bestParent (without beside 2) := by decide
    exact hangsOffBestParent_of_eq (by decide) hr (hrows r hr).1 (hrows r hr).2
  · rintro ⟨x, nbid, t', hx, -⟩
    exact bareName_default_bind_ne_ok hx

end JazzHands

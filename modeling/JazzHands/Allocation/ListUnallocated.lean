import JazzHands.Library.Loop
import JazzHands.Netblock.Schema
import Mathlib.Data.List.Sort

/-!
# `netblock_utils.list_unallocated_netblocks`

Its loops are run with a bound on their passes; that they end is shown where they are used.
-/

namespace JazzHands

open Library Postgres

/-- The variables of `calculate_intermediate_netblocks`: `current_nb`, `max_addr`, and what has been
returned so far. -/
structure Intermediate where
  currentNb : Inet
  maxAddr : Inet
  rows : List Inet := []

/-- A block that is itself in the table is returned as its two halves. -/
def splitStored (t : List Netblock) (netblockType : String) (ipUniverseId : ℕ) (ipAddr : Inet) :
    Result (List Inet) :=
  if (∃ n ∈ t, n.ipAddress = ipAddr ∧ n.ipUniverseId = ipUniverseId ∧
      n.netblockType = netblockType) ∧ ipAddr.masklen < ipAddr.family.bits then do
    let first ← ipAddr.setMasklen (ipAddr.masklen + 1)
    let second ← first.broadcast.add 1
    .ok [first, second]
  else .ok [ipAddr]

/-- One pass of the first loop: the netmask of `current_nb` is made shorter, and what this adds after
it is returned, until the block contains `ip_block_2`. -/
def widenPass (t : List Netblock) (netblockType : String) (ipUniverseId : ℕ) (ipBlock2 : Inet)
    (v : Intermediate) : Result (ForInStep Intermediate) := do
  let newNb ← v.currentNb.setMasklen (v.currentNb.masklen - 1)
  let newNb := newNb.network
  if ipBlock2.subnetEq newNb then do
    let currentNb ← v.currentNb.broadcast.add 1
    .ok (.done { v with currentNb })
  else if v.maxAddr.host.lt newNb.broadcast.host then do
    let ipAddr ← v.maxAddr.add 1
    let ipAddr ← ipAddr.setMasklen v.currentNb.masklen
    let rows ← splitStored t netblockType ipUniverseId ipAddr
    .ok (.yield ⟨newNb, newNb.broadcast, v.rows ++ rows⟩)
  else .ok (.yield { v with currentNb := newNb })

/-- One pass of the second loop: `current_nb` is halved, and a half before `ip_block_2` is
returned. -/
def narrowPass (t : List Netblock) (netblockType : String) (ipUniverseId : ℕ) (ipBlock2 : Inet)
    (v : Intermediate) : Result (ForInStep Intermediate) :=
  if v.currentNb.host = ipBlock2.host ∨ v.currentNb.family.bits ≤ v.currentNb.masklen then
    .ok (.done v)
  else do
    let currentNb ← v.currentNb.setMasklen (v.currentNb.masklen + 1)
    if ¬ ipBlock2.subnetEq currentNb then do
      let rows ← splitStored t netblockType ipUniverseId currentNb
      let next ← currentNb.broadcast.add 1
      .ok (.yield { v with currentNb := next, rows := v.rows ++ rows })
    else .ok (.yield { v with currentNb })

/-- The two blocks as networks, in order. -/
def orderBlocks (ipBlock1 ipBlock2 : Inet) : Result (Inet × Inet) := do
  raiseIf (ipBlock1.family ≠ ipBlock2.family) .raiseException
    "families of ip_block_1 and ip_block_2 must match"
  raiseIf (ipBlock1.network.subnetEq ipBlock2.network ∧ ipBlock2.network.subnetEq ipBlock1.network)
    .raiseException "netblocks % and % intersect each other"
  if ipBlock2.network.lt ipBlock1.network then .ok (ipBlock2.network, ipBlock1.network)
  else .ok (ipBlock1.network, ipBlock2.network)

/-- `netblock_utils.calculate_intermediate_netblocks`, when each of its loops is run for at most
`passes` passes. -/
def calculateIntermediateNetblocks (t : List Netblock) (passes : ℕ) (ipBlock1 ipBlock2 : Option Inet)
    (netblockType : String := "default") (ipUniverseId : ℕ := 0) :
    ExceptT PgError Option (List Inet) :=
  match ipBlock1, ipBlock2 with
  | some ipBlock1, some ipBlock2 => do
    let (ipBlock1, ipBlock2) ← ended (orderBlocks ipBlock1 ipBlock2)
    let v ← loop (widenPass t netblockType ipUniverseId ipBlock2) passes
      { currentNb := ipBlock1, maxAddr := ipBlock1.broadcast }
    let v ← loop (narrowPass t netblockType ipUniverseId ipBlock2) passes v
    pure v.rows
  | _, _ => ended (raise .raiseException "Must specify both ip_block_1 and ip_block_2")

/-- The blocks between each entry of `ip_array` and the next one. -/
def intermediateNetblocks (t : List Netblock) (passes : ℕ) :
    List Inet → ExceptT PgError Option (List Inet)
  | a :: b :: l => do
    let rows ← calculateIntermediateNetblocks t passes (some a) (some b)
    let rest ← intermediateNetblocks t passes (b :: l)
    pure (rows ++ rest)
  | _ => pure []

/-- `ip_array` without its ends: the networks that are not subnettable or, when `subnettable` is
false, the addresses of the rows below. -/
def ipArray (t : List Netblock) (ipAddress : Inet) (ipUniverseId : ℕ) (netblockType : String)
    (subnettable : Bool) : List Inet :=
  if subnettable = true then
    ((t.filter fun n => n.ipAddress.subnetEq ipAddress ∧ n.ipUniverseId = ipUniverseId ∧
      n.netblockType = netblockType ∧ n.isSingleAddress = false ∧ n.canSubnet = false).map
        (·.ipAddress)).insertionSort Inet.le
  else
    (((t.filter fun n => n.ipAddress.subnetEq ipAddress ∧ n.ipAddress ≠ ipAddress ∧
      n.ipUniverseId = ipUniverseId ∧ n.netblockType = netblockType).map
        (·.ipAddress)).insertionSort Inet.le).map Inet.host

/-- The part of `list_unallocated_netblocks` after its arguments have been looked up. -/
def unallocatedNetblocks (t : List Netblock) (passes : ℕ) (ipAddress : Inet) (ipUniverseId : ℕ)
    (netblockType : String) (subnettable : Bool) : ExceptT PgError Option (List Inet) :=
  match ipArray t ipAddress ipUniverseId netblockType subnettable with
  | [] => pure [ipAddress]
  | ip :: l => do
    let first ← ended (ipAddress.sub 1)
    let last ← ended (ipAddress.broadcast.add 1)
    intermediateNetblocks t passes (first :: (ip :: l ++ [last]))

def listUnallocatedNetblocks (t : List Netblock) (passes : ℕ) (netblockId : Option ℕ)
    (ipAddress : Option Inet) (_ipUniverseId : ℕ := 0) (_netblockType : String := "default") :
    ExceptT PgError Option (List Inet) :=
  match netblockId, ipAddress with
  | some netblockId, _ =>
    match findNetblock t netblockId with
    | none => ended (raise .raiseException "netblock_id % not found")
    | some netblockRec =>
      if netblockRec.isSingleAddress = true then pure []
      else unallocatedNetblocks t passes netblockRec.ipAddress netblockRec.ipUniverseId
        netblockRec.netblockType netblockRec.canSubnet
  -- the universe and type of the caller are overwritten
  | none, some ipAddress => unallocatedNetblocks t passes ipAddress 0 "default" true
  | none, none => ended (raise .raiseException "netblock_id or ip_address must be passed")

end JazzHands

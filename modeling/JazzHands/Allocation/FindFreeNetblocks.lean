import JazzHands.Library.Loop
import JazzHands.NetworkRange.Triggers

/-!
# `netblock_utils.find_free_netblocks`

The function looks through a list of parents, one after the other, for free blocks or free single
addresses.  The values of `random()`, and which row a `SELECT INTO` takes of several, are left to
`Outcomes`.
-/

namespace JazzHands

open Library Postgres

/-- The `allocation_method` of the loop. -/
inductive AllocationMethod where
  | top
  | bottom
  | random
  deriving DecidableEq

/-- The arguments of `find_free_netblocks` besides the list of parents, with their defaults. -/
structure FindFree where
  netmaskBits : Option ℤ := none
  singleAddress : Bool := false
  allocationMethod : Option String := none
  maxAddresses : Option ℤ := some 1024
  desiredIpAddress : Option Inet := none
  rndMasklenThreshold : ℤ := 110
  rndMaxCount : ℤ := 1024

/-- A row that the function returns. -/
structure FreeNetblock where
  ipAddress : Inet
  netblockType : String
  ipUniverseId : ℕ
  deriving DecidableEq

/-- The values of `(random() * x'7fffffff'::bigint)::bigint` and of
`(random() * x'ffffffff'::bigint)::bigint`. -/
structure RandomPair where
  high : ℕ
  low : ℕ
  high_le : high ≤ 0x7fffffff
  low_le : low ≤ 0xffffffff

/-- What the tables do not determine: the values of `random()`, one use after the other, and the row
that a `SELECT INTO` takes of several network ranges. -/
structure Outcomes where
  random : ℕ → RandomPair
  pick : List NetworkRange → Option NetworkRange
  pick_mem : ∀ l, ∀ nr ∈ pick l, nr ∈ l
  pick_none : ∀ l, pick l = none → l = []

/-- The first row that there is, and nothing but zeros. -/
def Outcomes.first : Outcomes where
  random _ := ⟨0, 0, Nat.zero_le _, Nat.zero_le _⟩
  pick := List.head?
  pick_mem _ _ := List.mem_of_mem_head?
  pick_none _ := List.head?_eq_none_iff.mp

/-- The variables that are carried from one parent to the next.  `matchCount` is `matches`, `rows`
are the rows returned so far, and `drawn` counts the uses of `random()`.  The search for a single
address sets `netmaskBits` before it reads it. -/
structure Search where
  netmaskBits : ℤ
  desiredIpAddress : Option Inet
  inetList : List Inet := []
  matchCount : ℤ := 0
  rows : List FreeNetblock := []
  drawn : ℕ := 0

/-- The variables of the loop over the addresses of a parent. -/
structure Cursor extends Search where
  currentIp : Inet
  rndMatches : ℤ := 0

/-- What the loop over the addresses of a parent reads and does not change. -/
structure ParentSearch where
  netblockRec : Netblock
  singleAddress : Bool
  allocationMethod : AllocationMethod
  netmaskBits : ℤ
  minIp : Inet
  maxIp : Inet
  maxAddresses : Option ℤ
  rndMaxCount : ℤ

namespace FindFree

variable (q : FindFree)

/-- The sanitised masks for a network: `netmask_bits` wins over the mask of the desired address. -/
def networkMasks : Result (ℤ × Option Inet) :=
  match q.desiredIpAddress, q.netmaskBits with
  | some desired, none => .ok (desired.masklen, some desired)
  | some desired, some bits => do
    let desired ← desired.setMasklen bits
    .ok (bits, some desired)
  | none, some bits => .ok (bits, none)
  | none, none => raise .invalidParameterValue "netmask_bits must be set"

/-- The checks and the sanitised masks before the first parent. -/
def sanitize : Result (ℤ × Option Inet) := do
  raiseIf (∃ m ∈ q.allocationMethod, m ∉ ["top", "bottom", "random", "default"])
    .invalidParameterValue "address_type must be one of top, bottom, random, or default"
  if q.singleAddress = true then .ok (q.netmaskBits.getD 0, q.desiredIpAddress)
  else do
    let masks ← q.networkMasks
    raiseIf (q.allocationMethod = some "random") .invalidParameterValue
      "random netblocks may only be returned for single addresses"
    .ok masks

/-- The method for a parent, given whether an address is desired. -/
def methodFor (desired : Bool) (netblockRec : Netblock) : AllocationMethod :=
  let ip := netblockRec.ipAddress
  let method :=
    if desired = true then .bottom
    else if q.allocationMethod = some "top" then .top
    else if q.allocationMethod = some "bottom" then .bottom
    else if q.allocationMethod = some "random" then .random
    else if q.singleAddress = true ∧ ip.family = .inet6 ∧ ip.masklen ≤ q.rndMasklenThreshold then
      AllocationMethod.random
    else .bottom
  if method = .random ∧ ip.hostbits < 2 then .bottom else method

/-- `min_ip` and `max_ip`, before the first and last address are left out. -/
def bounds (desired : Option Inet) (netblockRec : Netblock) : Result (Inet × Inet) :=
  match desired with
  | some desired => do
    let maxIp ← desired.add 1
    .ok (desired, maxIp)
  | none => do
    let maxIp ← netblockRec.ipAddress.broadcast.add 1
    .ok (netblockRec.ipAddress, maxIp)

/-- The checks of a parent once the masks are set.  `none` is a `CONTINUE`. -/
def checkParent (v : Search) (netblockRec : Netblock) (method : AllocationMethod) :
    Result (Search × Option ParentSearch) := do
  raiseIf (netblockRec.ipAddress.family.bits < v.netmaskBits) .raiseException
    "netmask_bits must be no more than % for netblock %"
  if ∃ desired ∈ v.desiredIpAddress, ¬ desired.subnetEq netblockRec.ipAddress then .ok (v, none)
  else do
    raiseIf (q.singleAddress = true ∧ netblockRec.canSubnet = true) .raiseException
      "single addresses may not be assigned to to a block where can_subnet is Y"
    raiseIf (q.singleAddress = false ∧ netblockRec.canSubnet = false) .raiseException
      "Netblock % (%) may not be subnetted"
    let (minIp, maxIp) ← bounds v.desiredIpAddress netblockRec
    .ok (v, some ⟨netblockRec, q.singleAddress, method, v.netmaskBits, minIp, maxIp,
      q.maxAddresses, q.rndMaxCount⟩)

/-- A single address is looked for with the longest mask, and a desired one takes the mask of the
parent. -/
def singleMasks (v : Search) (netblockRec : Netblock) : Result Search :=
  match v.desiredIpAddress with
  | none => .ok { v with netmaskBits := netblockRec.ipAddress.family.bits }
  | some desired => do
    let desired ← desired.setMasklen netblockRec.ipAddress.masklen
    .ok { v with
      netmaskBits := netblockRec.ipAddress.family.bits
      desiredIpAddress := some desired }

/-- What comes before the loop over the addresses of a parent.  `none` is a `CONTINUE`. -/
def prepare (v : Search) (netblockRec : Netblock) : Result (Search × Option ParentSearch) :=
  if ∃ desired ∈ v.desiredIpAddress, desired.family ≠ netblockRec.ipAddress.family then
    .ok (v, none)
  else
    let method := q.methodFor v.desiredIpAddress.isSome netblockRec
    if q.singleAddress = true then do
      let v ← singleMasks v netblockRec
      q.checkParent v netblockRec method
    -- the netmask is not for a smaller netblock than this parent
    else if v.netmaskBits ≤ netblockRec.ipAddress.masklen then .ok (v, none)
    else q.checkParent v netblockRec method

end FindFree

/-! ## The loop over the addresses of a parent -/

def maxRndValue (netblockRec : Netblock) : ℤ :=
  let hostbits := netblockRec.ipAddress.hostbits
  ((0x7fffffffffffffff >>> (if 63 ≤ hostbits then 0 else 63 - hostbits) : ℕ) : ℤ) - 2

/-- `a <= set_masklen(ip, masklen(a))`. -/
def leMasked (a ip : Inet) : Bool :=
  match ip.setMasklen a.masklen with
  | .ok b => a.le b
  | .error _ => false

/-- `a >= set_masklen(ip, masklen(a))`. -/
def geMasked (a ip : Inet) : Bool :=
  match ip.setMasklen a.masklen with
  | .ok b => b.le a
  | .error _ => false

/-- The range of the given parent goes from a start to a stop around the address. -/
def NetworkRange.Around (s : RangeTables) (parentNetblockId : ℕ) (ip : Inet) (nr : NetworkRange) :
    Prop :=
  nr.parentNetblockId = parentNetblockId ∧ ∃ start ∈ s.start nr, ∃ stop ∈ s.stop nr,
    ip.family = start.ipAddress.family ∧ ip.family = stop.ipAddress.family ∧
      leMasked start.ipAddress ip = true ∧ geMasked stop.ipAddress ip = true
  deriving Decidable

namespace ParentSearch

variable (c : ParentSearch)

/-- `min_ip` plus a random offset. -/
def randomIp (o : Outcomes) (drawn : ℕ) : Result Inet := do
  let value := (o.random drawn).high <<< 32 + (o.random drawn).low + 1
  raiseIf (2 ^ 63 ≤ value) .numericValueOutOfRange "bigint out of range"
  c.minIp.add ((value : ℤ) % maxRndValue c.netblockRec + 1)

/-- The first `current_ip`, and the number of uses of `random()`. -/
def firstIp (o : Outcomes) (drawn : ℕ) : Result (Inet × ℕ) :=
  match c.allocationMethod with
  | .top => do
    let ip ← c.maxIp.sub 1
    let ip ← ip.setMasklen c.netmaskBits
    .ok (ip.network, drawn)
  | .random => do
    let ip ← c.randomIp o drawn
    .ok (ip, drawn + 1)
  | .bottom => do
    let ip ← c.minIp.setMasklen c.netmaskBits
    .ok (ip, drawn)

/-- For a single address the mask becomes that of the parent, and the all-zeros and all-ones
addresses are left out. -/
def adjustSingle (desired : Bool) (currentIp : Inet) : Result (ParentSearch × Inet) := do
  let ip := c.netblockRec.ipAddress
  let currentIp ← currentIp.setMasklen ip.masklen
  if (ip.masklen : ℤ) < ip.family.bits - 1 ∧ desired = false then do
    let currentIp ← currentIp.add (if c.allocationMethod = .top then -1 else 1)
    let minIp ← c.minIp.add 1
    let maxIp ← c.maxIp.sub 1
    .ok ({ c with minIp, maxIp }, currentIp)
  else .ok (c, currentIp)

/-- The address that the loop begins with, and its bounds. -/
def start (o : Outcomes) (v : Search) : Result (ParentSearch × Cursor) := do
  let (currentIp, drawn) ← c.firstIp o v.drawn
  if c.singleAddress = true then do
    let (c, currentIp) ← c.adjustSingle v.desiredIpAddress.isSome currentIp
    .ok (c, { v with currentIp, drawn })
  else .ok (c, { v with currentIp, drawn })

/-- The condition of the loop. -/
def Going (k : Cursor) : Prop :=
  c.minIp.le k.currentIp ∧ k.currentIp.lt c.maxIp ∧ (∃ m ∈ c.maxAddresses, k.matchCount < m) ∧
    k.rndMatches < c.rndMaxCount
  deriving Decidable

/-- The range that `SELECT ... INTO netrange_rec` finds around an address. -/
def netrangeRec (s : RangeTables) (o : Outcomes) (ip : Inet) : Option NetworkRange :=
  if c.singleAddress = true then
    o.pick (s.networkRange.filter (NetworkRange.Around s c.netblockRec.netblockId ip))
  else none

/-- The address after a range, before its mask is set. -/
def jump (s : RangeTables) (o : Outcomes) (nr : NetworkRange) (k : Cursor) : Result (Inet × ℕ) :=
  match c.allocationMethod, s.start nr, s.stop nr with
  | .bottom, _, some stop => do
    let ip ← stop.ipAddress.add 1
    .ok (ip, k.drawn)
  | .top, some start, _ => do
    let ip ← start.ipAddress.sub 1
    .ok (ip, k.drawn)
  | _, _, _ => do
    let ip ← c.randomIp o k.drawn
    .ok (ip, k.drawn + 1)

/-- The row is in the way of `ip`: a child of the parent, of its type and universe, that contains or
is contained by it, or, for a single address, is the same. -/
def Taken (ip : Inet) (n : Netblock) : Prop :=
  n.ipUniverseId = c.netblockRec.ipUniverseId ∧ n.netblockType = c.netblockRec.netblockType ∧
    n.parentNetblockId = some c.netblockRec.netblockId ∧
    if c.singleAddress = true then n.ipAddress = ip
    else ip.subnetEq n.ipAddress ∨ n.ipAddress.subnetEq ip
  deriving Decidable

/-- The address is returned if it is free and has not been returned before. -/
def record (s : RangeTables) (k : Cursor) : Cursor :=
  if (¬ ∃ n ∈ s.netblock, c.Taken k.currentIp n) ∧ k.currentIp ∉ k.inetList then
    { k with
      rows := k.rows ++
        [⟨k.currentIp, c.netblockRec.netblockType, c.netblockRec.ipUniverseId⟩]
      inetList := k.inetList ++ [k.currentIp]
      matchCount := k.matchCount + 1
      rndMatches := 0 }
  else if c.allocationMethod = .random then { k with rndMatches := k.rndMatches + 1 }
  else k

def next (o : Outcomes) (k : Cursor) : Result (Inet × ℕ) :=
  if c.singleAddress = true then
    match c.allocationMethod with
    | .bottom => do
      let ip ← k.currentIp.add 1
      .ok (ip, k.drawn)
    | .top => do
      let ip ← k.currentIp.sub 1
      .ok (ip, k.drawn)
    | .random => do
      let ip ← c.randomIp o k.drawn
      .ok (ip, k.drawn + 1)
  else if c.allocationMethod = .bottom then do
    let ip ← k.currentIp.broadcast.add 1
    .ok (ip.network, k.drawn)
  else do
    let ip ← k.currentIp.sub 1
    .ok (ip.network, k.drawn)

def searchPass (s : RangeTables) (o : Outcomes) (k : Cursor) : Result (ForInStep Cursor) :=
  if c.Going k then
    match c.netrangeRec s o k.currentIp with
    | some nr => do
      let (ip, drawn) ← c.jump s o nr k
      let ip ← ip.setMasklen c.maxIp.masklen
      .ok (.yield { k with currentIp := ip, drawn })
    | none => do
      let k := c.record s k
      let (ip, drawn) ← c.next o k
      .ok (.yield { k with currentIp := ip, drawn })
  else .ok (.done k)

end ParentSearch

/-! ## The loop over the parents -/

def searchParent (s : RangeTables) (o : Outcomes) (q : FindFree) (passes : ℕ) (v : Search)
    (parentNbid : ℕ) : ExceptT PgError Option Search :=
  match findNetblock s.netblock parentNbid with
  | none => ended (raise .raiseException "Netblock % does not exist")
  | some netblockRec => do
    match ← ended (q.prepare v netblockRec) with
    | (v, none) => pure v
    | (v, some c) => do
      let (c, k) ← ended (c.start o v)
      let k ← loop (c.searchPass s o) passes k
      pure k.toSearch

def searchParents (s : RangeTables) (o : Outcomes) (q : FindFree) (passes : ℕ) (v : Search) :
    List ℕ → ExceptT PgError Option Search
  | [] => pure v
  | parentNbid :: l => do
    let v ← searchParent s o q passes v parentNbid
    searchParents s o q passes v l

/-- `netblock_utils.find_free_netblocks(parent_netblock_list, ...)`, when each of its loops is run
for at most `passes` passes. -/
def findFreeNetblocks (s : RangeTables) (o : Outcomes) (q : FindFree) (passes : ℕ)
    (parentNetblockList : List ℕ) : ExceptT PgError Option (List FreeNetblock) := do
  let (netmaskBits, desiredIpAddress) ← ended q.sanitize
  let v ← searchParents s o q passes { netmaskBits, desiredIpAddress } parentNetblockList
  pure v.rows

end JazzHands

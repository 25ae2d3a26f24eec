import JazzHands.NetworkRange.Triggers

/-!
# `netblock_manip.validate_network_range`

The function of `validate_network_range.sql` that checks a new range, or new ends of a range.

`data_ins_user` and the like are left out, and so is `dns_domain_name`, which nothing reads.
-/

namespace JazzHands

open Postgres

structure RangeRow extends NetworkRange where
  description : Option String
  dnsPrefix : Option String
  dnsDomainId : Option ℕ
  leaseTime : Option ℤ
  deriving DecidableEq

/-- The tables.  Of `val_network_range_type` there is `dns_domain_required` beside the rest, of
`dns_domain` there are the keys. -/
structure RangeDb where
  netblock : List Netblock
  networkRange : List RangeRow
  valNetworkRangeType : List NetworkRangeType
  dnsDomainRequired : List (String × String)
  dnsDomain : List ℕ

/-- What the triggers see. -/
def RangeDb.tables (db : RangeDb) : RangeTables :=
  ⟨db.netblock, db.networkRange.map (·.toNetworkRange), db.valNetworkRangeType⟩

/-- A variable of the row type of `v_network_range_expanded`. -/
structure VNetworkRangeExpanded where
  networkRangeId : Option ℕ := none
  networkRangeType : Option String := none
  description : Option String := none
  parentNetblockId : Option ℕ := none
  ipAddress : Option Inet := none
  netblockType : Option String := none
  ipUniverseId : Option ℕ := none
  startNetblockId : Option ℕ := none
  startIpAddress : Option Inet := none
  startNetblockType : Option String := none
  startIpUniverseId : Option ℕ := none
  stopNetblockId : Option ℕ := none
  stopIpAddress : Option Inet := none
  stopNetblockType : Option String := none
  stopIpUniverseId : Option ℕ := none
  dnsPrefix : Option String := none
  dnsDomainId : Option ℕ := none

/-- The row of the view for a range with its three netblocks. -/
def RangeRow.expanded (nr : RangeRow) (p start stop : Netblock) : VNetworkRangeExpanded where
  networkRangeId := some nr.networkRangeId
  networkRangeType := some nr.networkRangeType
  description := nr.description
  parentNetblockId := some nr.parentNetblockId
  ipAddress := some p.ipAddress
  netblockType := some p.netblockType
  ipUniverseId := some p.ipUniverseId
  startNetblockId := some nr.startNetblockId
  startIpAddress := some start.ipAddress
  startNetblockType := some start.netblockType
  startIpUniverseId := some start.ipUniverseId
  stopNetblockId := some nr.stopNetblockId
  stopIpAddress := some stop.ipAddress
  stopNetblockType := some stop.netblockType
  stopIpUniverseId := some stop.ipUniverseId
  dnsPrefix := nr.dnsPrefix
  dnsDomainId := nr.dnsDomainId

namespace RangeDb

/-- `SELECT * FROM v_network_range_expanded nr WHERE nr.network_range_id = nr_id`. -/
def vNetworkRangeExpanded (db : RangeDb) (nrId : ℕ) : Option VNetworkRangeExpanded := do
  let nr ← db.networkRange.find? (·.networkRangeId = nrId)
  let p ← findNetblock db.netblock nr.parentNetblockId
  let start ← findNetblock db.netblock nr.startNetblockId
  let stop ← findNetblock db.netblock nr.stopNetblockId
  some (nr.expanded p start stop)

end RangeDb

structure ValidateArgs where
  networkRangeId : Option ℕ := none
  startIpAddress : Option Inet := none
  stopIpAddress : Option Inet := none
  networkRangeType : Option String := none
  parentNetblockId : Option ℕ := none

namespace RangeDb

/-- `current_range`, all of it `NULL` for a new range. -/
def currentRange (db : RangeDb) : Option ℕ → Result VNetworkRangeExpanded
  | none => .ok {}
  | some nrId =>
    match db.vNetworkRangeExpanded nrId with
    | none => raise .foreignKeyViolation "network_range with network_range_id % does not exist"
    | some current => .ok current

/-- The new start address; the netblock of the old one is no longer that of the range. -/
def proposeStart (start : Option Inet) (r : VNetworkRangeExpanded) : VNetworkRangeExpanded :=
  if start ≠ r.startIpAddress then
    { r with
      startIpAddress := start
      startNetblockId := none
      startNetblockType := none
      startIpUniverseId := none }
  else r

def proposeStop (stop : Option Inet) (r : VNetworkRangeExpanded) : VNetworkRangeExpanded :=
  if stop ≠ r.stopIpAddress then
    { r with
      stopIpAddress := stop
      stopNetblockId := none
      stopNetblockType := none
      stopIpUniverseId := none }
  else r

def proposeParent (pnbid : Option ℕ) (r : VNetworkRangeExpanded) : VNetworkRangeExpanded :=
  if pnbid ≠ none ∧ pnbid ≠ r.parentNetblockId then
    { r with
      parentNetblockId := pnbid
      ipAddress := none
      netblockType := none
      ipUniverseId := none }
  else r

/-- `proposed_range` before its parent is looked up, and `nrt`. -/
def proposedRange (db : RangeDb) (args : ValidateArgs) (current : VNetworkRangeExpanded) :
    Result (VNetworkRangeExpanded × NetworkRangeType) := do
  raiseIf (∃ nrType ∈ args.networkRangeType, ∃ old ∈ current.networkRangeType, nrType ≠ old)
    .checkViolation "network_range_type may not be changed"
  let proposed := { current with
    networkRangeType := args.networkRangeType.or current.networkRangeType }
  match proposed.networkRangeType.bind db.tables.nrt with
  | none => raise .checkViolation "invalid network_range_type"
  | some nrt => do
    let proposed := proposeParent args.parentNetblockId
      (proposeStop args.stopIpAddress (proposeStart args.startIpAddress proposed))
    raiseIf (proposed.startIpAddress = none ∨ proposed.stopIpAddress = none) .checkViolation
      "start_ip_address and stop_ip_address must both be set for a network_range"
    .ok (proposed, nrt)

/-- The `WHERE` clause of the query for `temprange`. -/
def Temprange (db : RangeDb) (nrId : Option ℕ) (proposed : VNetworkRangeExpanded) (nr : RangeRow) :
    Prop :=
  some nr.networkRangeId ≠ nrId ∧ some nr.networkRangeType = proposed.networkRangeType ∧
    ∃ startnb ∈ findNetblock db.netblock nr.startNetblockId,
      ∃ stopnb ∈ findNetblock db.netblock nr.stopNetblockId,
        ∃ start ∈ proposed.startIpAddress, ∃ stop ∈ proposed.stopIpAddress,
          HostEndIn start stop startnb.ipAddress stopnb.ipAddress

instance {db : RangeDb} {nrId : Option ℕ} {proposed : VNetworkRangeExpanded} :
    DecidablePred (Temprange db nrId proposed) := fun _ => inferInstanceAs (Decidable (_ ∧ _))

def overlapMessage : String := "validate_network_range: network_range % of type % already exists " ++
  "that has addresses between % and % (% through %)"

/-- The check for overlaps, with the precedence that the condition has. -/
def checkOverlap (db : RangeDb) (nrId : Option ℕ) (current proposed : VNetworkRangeExpanded)
    (nrt : NetworkRangeType) : Result Unit :=
  if (nrt.canOverlap = false ∧ proposed.startIpAddress ≠ current.startIpAddress) ∨
      proposed.stopIpAddress ≠ current.stopIpAddress then
    raiseIf (∃ nr ∈ db.networkRange, Temprange db nrId proposed nr) .checkViolation overlapMessage
  else .ok ()

/-- `find_best_parent_netblock_id(ip_address := ..., is_single_address := true)`, with the defaults
of the other arguments. -/
def findBestParentOfAddress (t : List Netblock) (ipAddress : Inet) : Option Netblock :=
  longestPrefix (t.filter fun n => ipAddress.subnetEq n.ipAddress ∧ n.isSingleAddress = false ∧
    n.netblockType = "default" ∧ n.ipUniverseId = 0 ∧ n.canSubnet = false)

/-- `par_netblock`. -/
def parentOf (db : RangeDb) (pnbid : Option ℕ) (start : Inet) : Result Netblock :=
  match pnbid with
  | some pnbid =>
    match findNetblock db.netblock pnbid with
    | some n => .ok n
    | none => raise .foreignKeyViolation "validate_network_range: parent_netblock_id % does not exist"
  | none =>
    match findBestParentOfAddress db.netblock start with
    | some n => .ok n
    | none => raise .checkViolation
        "validate_network_range: valid parent netblock for start_ip_address % does not exist"

/-- The checks on the parent and the order of the ends. -/
def checkParent (par : Netblock) (start stop : Inet) : Result Unit := do
  raiseIf (par.canSubnet ≠ false ∨ par.isSingleAddress ≠ false) .checkViolation
    "validate_network_range: parent netblock % must not be subnettable or a single address"
  raiseIf (¬ start.subnetEq par.ipAddress) .checkViolation
    "validate_network_range: start_ip_address % is not contained by parent netblock % (%)"
  raiseIf (¬ stop.subnetEq par.ipAddress) .checkViolation
    "validate_network_range: stop_ip_address % is not contained by parent netblock % (%)"
  raiseIf (¬ start.le stop) .checkViolation
    "validate_network_range: start_ip_address % is not lower than stop_ip_address %"

def validateNetworkRange (db : RangeDb) (args : ValidateArgs) : Result VNetworkRangeExpanded := do
  let current ← db.currentRange args.networkRangeId
  let x ← db.proposedRange args current
  db.checkOverlap args.networkRangeId current x.1 x.2
  match args.startIpAddress, args.stopIpAddress with
  | some start, some stop => do
    let par ← db.parentOf args.parentNetblockId start
    checkParent par start stop
    .ok { x.1 with
      parentNetblockId := some par.netblockId
      ipAddress := some par.ipAddress
      netblockType := some par.netblockType
      ipUniverseId := some par.ipUniverseId }
  -- turned down before
  | _, _ => (raise .checkViolation
      "start_ip_address and stop_ip_address must both be set for a network_range")

end RangeDb

end JazzHands

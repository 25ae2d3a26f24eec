import JazzHands.Netblock.Statement

/-!
# The table `network_range` and its triggers

`create_network_range_triggers.sql`: the constraint triggers that look at the addresses of ranges.
They are immediate, so each runs at the end of its statement and sees the rows that it stored.

The triggers on `dns_domain_id` read columns that no statement here changes, and are left out.
-/

namespace JazzHands

open Postgres

structure NetworkRange where
  networkRangeId : ℕ
  networkRangeType : String
  parentNetblockId : ℕ
  startNetblockId : ℕ
  stopNetblockId : ℕ
  deriving DecidableEq

structure NetworkRangeType where
  networkRangeType : String
  netblockType : Option String
  canOverlap : Bool
  requireCidrBoundary : Bool

structure RangeTables where
  netblock : List Netblock
  networkRange : List NetworkRange
  valNetworkRangeType : List NetworkRangeType

namespace RangeTables

/-- `SELECT * INTO v_nrt FROM val_network_range_type WHERE network_range_type = ...`. -/
def nrt (s : RangeTables) (networkRangeType : String) : Option NetworkRangeType :=
  s.valNetworkRangeType.find? (·.networkRangeType = networkRangeType)

def parent (s : RangeTables) (nr : NetworkRange) : Option Netblock :=
  findNetblock s.netblock nr.parentNetblockId

def start (s : RangeTables) (nr : NetworkRange) : Option Netblock :=
  findNetblock s.netblock nr.startNetblockId

def stop (s : RangeTables) (nr : NetworkRange) : Option Netblock :=
  findNetblock s.netblock nr.stopNetblockId

end RangeTables

/-! ## Conditions on the ends of ranges -/

/-- `( a.start_ip >= b.start_ip AND a.start_ip <= b.stop_ip ) OR ( a.stop_ip >= b.start_ip AND
a.stop_ip <= b.stop_ip )`, where the addresses are `host(ip_address)::inet`. -/
def HostEndIn (aStart aStop bStart bStop : Inet) : Prop :=
  (bStart.host.le aStart.host ∧ aStart.host.le bStop.host) ∨
    (bStart.host.le aStop.host ∧ aStop.host.le bStop.host)
  deriving Decidable

/-- `host(start.ip_address)::inet <<= parent.ip_address AND host(stop.ip_address)::inet <<=
parent.ip_address`. -/
def WithinParent (parent start stop : Netblock) : Prop :=
  start.ipAddress.host.subnetEq parent.ipAddress ∧ stop.ipAddress.host.subnetEq parent.ipAddress
  deriving Decidable

/-- `masklen(start_ip) != masklen(stop_ip) OR start_ip != network(start_ip) OR stop_ip !=
broadcast(stop_ip)`. -/
def OffCidrBoundary (start stop : Inet) : Prop :=
  start.masklen ≠ stop.masklen ∨ start ≠ start.network ∨ stop ≠ stop.broadcast
  deriving Decidable

/-! ## `validate_network_range_ips` -/

/-- `validate_network_range_ips`, for the row `new` of the tables `s`. -/
def validateNetworkRangeIps (s : RangeTables) (new : NetworkRange) : Result Unit := do
  raiseIf (∃ v ∈ s.nrt new.networkRangeType, ∃ netblockType ∈ v.netblockType,
      ∃ start ∈ s.start new, start.netblockType ≠ netblockType) .integrityConstraintViolation
    "For range %, start netblock_type must be %, not %"
  raiseIf (∃ v ∈ s.nrt new.networkRangeType, ∃ netblockType ∈ v.netblockType,
      ∃ stop ∈ s.stop new, stop.netblockType ≠ netblockType) .integrityConstraintViolation
    "For range %, stop netblock_type must be %, not %"
  raiseIf (∃ n ∈ s.netblock, (n.netblockId = new.startNetblockId ∨
      n.netblockId = new.stopNetblockId) ∧ n.isSingleAddress = false) .integrityConstraintViolation
    "Start and stop types must be single addresses"
  raiseIf (∃ parent ∈ s.parent new, parent.canSubnet = true) .integrityConstraintViolation
    "Can not set ranges on subnetable netblocks"
  raiseIf (∃ parent ∈ s.parent new, ∃ start ∈ s.start new, ∃ stop ∈ s.stop new,
      ¬ WithinParent parent start stop) .integrityConstraintViolation
    "start or stop address not within parent netblock"
  raiseIf ((∃ v ∈ s.nrt new.networkRangeType, v.canOverlap = false) ∧
      ∃ newStart ∈ s.start new, ∃ newStop ∈ s.stop new, ∃ nr ∈ s.networkRange,
        ∃ start ∈ s.start nr, ∃ stop ∈ s.stop nr, nr.networkRangeType = new.networkRangeType ∧
          nr.networkRangeId ≠ new.networkRangeId ∧
          HostEndIn newStart.ipAddress newStop.ipAddress start.ipAddress stop.ipAddress)
    .integrityConstraintViolation "overlapping network ranges not permitted for type %"
  raiseIf ((∃ v ∈ s.nrt new.networkRangeType, v.requireCidrBoundary = true) ∧
      ∃ nr ∈ s.networkRange, ∃ start ∈ s.start nr, ∃ stop ∈ s.stop nr,
        nr.networkRangeId = new.networkRangeId ∧ OffCidrBoundary start.ipAddress stop.ipAddress)
    .invalidParameterValue "start/stop must be on matching CIDR boundaries"
  raiseIf (∃ nr ∈ s.networkRange, ∃ start ∈ s.start nr, ∃ stop ∈ s.stop nr,
      nr.networkRangeId = new.networkRangeId ∧ stop.ipAddress.host.lt start.ipAddress.host)
    .invalidParameterValue "stop ip address can not be before start in network ranges."

/-! ## `validate_net_range_toggle_nonoverlap` -/

/-- `validate_net_range_toggle_nonoverlap`, for the row `new` of `val_network_range_type`. -/
def validateNetRangeToggleNonoverlap (s : RangeTables) (new : NetworkRangeType) :
    Result Unit := do
  raiseIf (new.canOverlap = false ∧ ∃ n1 ∈ s.networkRange, ∃ start1 ∈ s.start n1,
      ∃ stop1 ∈ s.stop n1, ∃ n2 ∈ s.networkRange, ∃ start2 ∈ s.start n2, ∃ stop2 ∈ s.stop n2,
        n1.networkRangeType = n2.networkRangeType ∧ n1.networkRangeId ≠ n2.networkRangeId ∧
          n1.networkRangeType = new.networkRangeType ∧
          HostEndIn start1.ipAddress stop1.ipAddress start2.ipAddress stop2.ipAddress)
    .integrityConstraintViolation "% has % overlapping network ranges"
  raiseIf (new.requireCidrBoundary = true ∧ ∃ nr ∈ s.networkRange, ∃ start ∈ s.start nr,
      ∃ stop ∈ s.stop nr, nr.networkRangeType = new.networkRangeType ∧
        OffCidrBoundary start.ipAddress.host stop.ipAddress.host) .invalidParameterValue
    "% has % cidr issues in network ranges"

/-! ## `validate_netblock_to_range_changes` -/

/-- What `validate_netblock_to_range_changes` asks of a range of the type `vnrt`.  The last line is
the query's own: it is the ranges whose masks agree that it turns down. -/
def ConflictsWithRange (vnrt : NetworkRangeType) (p start stop : Netblock) : Prop :=
  p.canSubnet = true ∨ start.isSingleAddress = false ∨ stop.isSingleAddress = false ∨
    ¬ WithinParent p start stop ∨
    (∃ netblockType ∈ vnrt.netblockType,
      ¬ (start.netblockType = netblockType ∧ stop.netblockType = netblockType)) ∨
    (vnrt.requireCidrBoundary = true ∧ ¬ (start.ipAddress = start.ipAddress.network ∧
      stop.ipAddress = stop.ipAddress.broadcast)) ∨
    (vnrt.requireCidrBoundary = true ∧ ¬ start.ipAddress.masklen ≠ stop.ipAddress.masklen)
  deriving Decidable

def NetworkRange.Uses (nr : NetworkRange) (netblockId : ℕ) : Prop :=
  nr.parentNetblockId = netblockId ∨ nr.startNetblockId = netblockId ∨
    nr.stopNetblockId = netblockId
  deriving Decidable

/-- The ranges of a type that `validate_netblock_to_range_changes` counts: those around the new
address of the netblock, in the order of `inet` values. -/
def rangesAround (s : RangeTables) (networkRangeType : String) (ipAddress : Inet) :
    List NetworkRange :=
  s.networkRange.filter fun nr => nr.networkRangeType = networkRangeType ∧
    ∃ start ∈ s.start nr, ∃ stop ∈ s.stop nr,
      start.ipAddress.le ipAddress ∧ ipAddress.le stop.ipAddress

/-- The part of `validate_netblock_to_range_changes` for a changed address. -/
def validateChangedAddress (s : RangeTables) (new : Netblock) : Result Unit := do
  raiseIf (∃ nr ∈ s.networkRange, ∃ start ∈ s.start nr, ∃ stop ∈ s.stop nr,
      (nr.startNetblockId = new.netblockId ∨ nr.stopNetblockId = new.netblockId) ∧
        stop.ipAddress.host.lt start.ipAddress.host) .invalidParameterValue
    "stop ip address can not be before start in network ranges."
  raiseIf (∃ vnrt ∈ s.valNetworkRangeType, vnrt.canOverlap = false ∧
      (∃ nr ∈ s.networkRange, nr.networkRangeType = vnrt.networkRangeType ∧
        nr.Uses new.netblockId) ∧
      1 < (rangesAround s vnrt.networkRangeType new.ipAddress).length)
    .integrityConstraintViolation "Netblock changes network range overlap with type % (%)"
  raiseIf (∃ nr ∈ s.networkRange, ∃ start ∈ s.start nr, ∃ stop ∈ s.stop nr,
      ∃ vnrt ∈ s.valNetworkRangeType, vnrt.networkRangeType = nr.networkRangeType ∧
        vnrt.requireCidrBoundary = true ∧ nr.Uses new.netblockId ∧
        OffCidrBoundary start.ipAddress stop.ipAddress) .integrityConstraintViolation
    "netblock is part of network_range_type % and creates % violations"

def validateNetblockToRangeChanges (s : RangeTables) (old new : Netblock) : Result Unit := do
  raiseIf (∃ nr ∈ s.networkRange, ∃ p ∈ s.parent nr, ∃ start ∈ s.start nr, ∃ stop ∈ s.stop nr,
      ∃ vnrt ∈ s.valNetworkRangeType, vnrt.networkRangeType = nr.networkRangeType ∧
        nr.Uses new.netblockId ∧ ConflictsWithRange vnrt p start stop)
    .integrityConstraintViolation
    "Netblock changes conflict with network range requirements "
  if old.ipAddress ≠ new.ipAddress then validateChangedAddress s new else .ok ()

/-! ## Statements -/

/-- The `SET` list of an UPDATE of `network_range`. -/
structure RangeSetClause where
  networkRangeType : Option String := none
  parentNetblockId : Option ℕ := none
  startNetblockId : Option ℕ := none
  stopNetblockId : Option ℕ := none

/-- The record `NEW` of an UPDATE of the row `old`. -/
def RangeSetClause.apply (set : RangeSetClause) (old : NetworkRange) : NetworkRange where
  networkRangeId := old.networkRangeId
  networkRangeType := set.networkRangeType.getD old.networkRangeType
  parentNetblockId := set.parentNetblockId.getD old.parentNetblockId
  startNetblockId := set.startNetblockId.getD old.startNetblockId
  stopNetblockId := set.stopNetblockId.getD old.stopNetblockId

inductive RangeStatement where
  | insert (new : NetworkRange)
  | update (networkRangeId : ℕ) (set : RangeSetClause)
  /-- An UPDATE of `ip_address` of a netblock. -/
  | setIpAddress (netblockId : ℕ) (ipAddress : Inet)
  /-- An UPDATE of `can_overlap` of a range type. -/
  | setCanOverlap (networkRangeType : String) (canOverlap : Bool)

/-- The immediate foreign keys of `network_range`. -/
def checkRangeKeys (s : RangeTables) (new : NetworkRange) : Result Unit := do
  raiseIf (s.nrt new.networkRangeType = none) .foreignKeyViolation
    "violates foreign key constraint fk_netrng_netrng_typ"
  raiseIf (s.parent new = none) .foreignKeyViolation
    "violates foreign key constraint fk_netrng_prngnblkid"
  raiseIf (s.start new = none) .foreignKeyViolation
    "violates foreign key constraint fk_net_range_start_netblock"
  raiseIf (s.stop new = none) .foreignKeyViolation
    "violates foreign key constraint fk_net_range_stop_netblock"

def insertRange (s : RangeTables) (new : NetworkRange) : Result RangeTables := do
  raiseIf (∃ nr ∈ s.networkRange, nr.networkRangeId = new.networkRangeId) .uniqueViolation
    "duplicate key value violates unique constraint pk_network_range"
  checkRangeKeys s new
  validateNetworkRangeIps { s with networkRange := s.networkRange ++ [new] } new
  .ok { s with networkRange := s.networkRange ++ [new] }

/-- The stored range with the key of `new` becomes `new`. -/
def replaceRange (l : List NetworkRange) (new : NetworkRange) : List NetworkRange :=
  l.map fun nr => if nr.networkRangeId = new.networkRangeId then new else nr

def updateRange (s : RangeTables) (new : NetworkRange) : Result RangeTables := do
  checkRangeKeys s new
  validateNetworkRangeIps { s with networkRange := replaceRange s.networkRange new } new
  .ok { s with networkRange := replaceRange s.networkRange new }

/-- The statement on `netblock` with its own triggers, and then the constraint trigger.  The trigger
does not fire for the rows whose parents the triggers of `netblock` rewrite, because they name no
column of its list. -/
def updateIpAddress (db : Schema) (order : ScanOrder) (s : RangeTables) (old : Netblock)
    (ipAddress : Inet) : Result RangeTables := do
  let x ← executeUpdate db order s.netblock old { ipAddress := some (some ipAddress) }
  match findNetblock x.netblock old.netblockId with
  | none => .ok { s with netblock := x.netblock }
  | some new => do
    validateNetblockToRangeChanges { s with netblock := x.netblock } old new
    .ok { s with netblock := x.netblock }

/-- The stored range type with the name of `new` becomes `new`. -/
def replaceRangeType (l : List NetworkRangeType) (new : NetworkRangeType) : List NetworkRangeType :=
  l.map fun v => if v.networkRangeType = new.networkRangeType then new else v

def updateCanOverlap (s : RangeTables) (new : NetworkRangeType) : Result RangeTables := do
  validateNetRangeToggleNonoverlap
    { s with valNetworkRangeType := replaceRangeType s.valNetworkRangeType new } new
  .ok { s with valNetworkRangeType := replaceRangeType s.valNetworkRangeType new }

/-- A statement with its immediate triggers; one that finds no row does nothing. -/
def executeRange (db : Schema) (order : ScanOrder) (s : RangeTables) :
    RangeStatement → Result RangeTables
  | .insert new => insertRange s new
  | .update networkRangeId set =>
    match s.networkRange.find? (·.networkRangeId = networkRangeId) with
    | none => .ok s
    | some old => updateRange s (set.apply old)
  | .setIpAddress netblockId ipAddress =>
    match findNetblock s.netblock netblockId with
    | none => .ok s
    | some old => updateIpAddress db order s old ipAddress
  | .setCanOverlap networkRangeType canOverlap =>
    match s.nrt networkRangeType with
    | none => .ok s
    | some old => updateCanOverlap s { old with canOverlap := canOverlap }

/-- The tables after a statement: an error leaves them as they were. -/
def rangeStep (db : Schema) (s : RangeTables) (st : RangeStatement × ScanOrder) : RangeTables :=
  match executeRange db st.2 s st.1 with
  | .ok s' => s'
  | .error _ => s

end JazzHands

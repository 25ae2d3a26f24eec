import JazzHands.NetworkRange.Manip

/-!
# `netblock_manip.update_network_range`

The limits on the length of texts are left out.
-/

namespace JazzHands

open Postgres

namespace RangeDb

/-! ## Statements -/

def validateNetworkRangeDns (db : RangeDb) (new : RangeRow) : Result Unit := do
  raiseIf (new.dnsDomainId = none ∧
      db.dnsDomainRequired.lookup new.networkRangeType = some "REQUIRED") .notNullViolation
    "For type %, dns_domain_id is required."
  raiseIf (new.dnsDomainId ≠ none ∧
      db.dnsDomainRequired.lookup new.networkRangeType = some "PROHIBITED")
    .integrityConstraintViolation "For type %, dns_domain_id is prohibited."

/-- `fk_net_range_dns_domain_id`. -/
def checkDnsDomain (db : RangeDb) (new : RangeRow) : Result Unit :=
  raiseIf (∃ d ∈ new.dnsDomainId, d ∉ db.dnsDomain) .foreignKeyViolation
    "violates foreign key constraint fk_net_range_dns_domain_id"

/-- `UPDATE netblock n SET ip_address = ... WHERE n.netblock_id = ...`. -/
def setIpAddress (schema : Schema) (order : ScanOrder) (db : RangeDb) (netblockId : ℕ)
    (ipAddress : Inet) : Result RangeDb := do
  let s ← executeRange schema order db.tables (.setIpAddress netblockId ipAddress)
  .ok { db with netblock := s.netblock }

/-- The stored range with the key of `new` becomes `new`. -/
def replaceRow (db : RangeDb) (new : RangeRow) : RangeDb :=
  { db with
    networkRange := db.networkRange.map fun nr =>
      if nr.networkRangeId = new.networkRangeId then new else nr }

/-- `UPDATE network_range nr SET description = ..., dns_prefix = ..., dns_domain_id = ...,
lease_time = ... WHERE nr.network_range_id = ...`, which leaves alone the columns that
`validate_network_range_ips` waits for. -/
def updateFields (db : RangeDb) (networkRangeId : ℕ) (description dnsPrefix : Option String)
    (dnsDomainId : Option ℕ) (leaseTime : Option ℤ) : Result RangeDb :=
  match db.networkRange.find? (·.networkRangeId = networkRangeId) with
  | none => .ok db
  | some old => do
    let new : RangeRow := { old with
      description := description
      dnsPrefix := dnsPrefix
      dnsDomainId := dnsDomainId
      leaseTime := leaseTime }
    db.checkDnsDomain new
    db.validateNetworkRangeDns new
    .ok (db.replaceRow new)

/-- A netblock of the parent lies between the two addresses. -/
def AssignedBetween (db : RangeDb) (parentNetblockId : Option ℕ) (start stop : Option Inet) :
    Prop :=
  ∃ a ∈ start, ∃ b ∈ stop, ∃ n ∈ db.netblock, n.parentNetblockId ≠ none ∧
    n.parentNetblockId = parentNetblockId ∧ a.host.lt n.ipAddress.host ∧
      n.ipAddress.host.lt b.host
  deriving Decidable

/-- `IF NOT allow_assigned`. -/
def checkAssigned (db : RangeDb) (allowAssigned : Option Bool) (parentNetblockId : Option ℕ)
    (start stop : Option Inet) : Result Unit :=
  raiseIf (allowAssigned = some false ∧ db.AssignedBetween parentNetblockId start stop)
    .checkViolation
    "create_network_range: netblocks are already present for parent netblock % betweeen % and %"

end RangeDb

/-! ## `update_network_range` -/

structure UpdateArgs where
  networkRangeId : ℕ
  startIpAddress : Option Inet := none
  stopIpAddress : Option Inet := none
  parentNetblockId : Option ℕ := none
  allowAssigned : Option Bool := some false
  description : Option String := none
  dnsPrefix : Option String := none
  dnsDomainId : Option ℕ := none
  leaseTime : Option ℤ := none

/-- `host(a) != host(b)`. -/
def HostDiffers (a b : Option Inet) : Prop := ∃ x ∈ a, ∃ y ∈ b, x.host ≠ y.host
  deriving Decidable

namespace RangeDb

/-- An end moves only if its netblock is of the type `network_range`. -/
def checkEndType (newIp oldIp : Option Inet) (netblockType : Option String) (message : String) :
    Result Unit :=
  raiseIf (HostDiffers newIp oldIp ∧ ∃ τ ∈ netblockType, τ ≠ "network_range") .checkViolation
    message

/-- The UPDATE of the netblock of one end. -/
def moveEnd (schema : Schema) (order : ScanOrder) (db : RangeDb) (newIp oldIp : Option Inet)
    (netblockId : Option ℕ) : Result RangeDb :=
  if HostDiffers newIp oldIp then
    match newIp, netblockId with
    | some ip, some i => db.setIpAddress schema order i ip.host
    | _, _ => .ok db
  else .ok db

/-- Some column of the range itself is given. -/
def GivesFields (args : UpdateArgs) : Prop :=
  args.description ≠ none ∨ args.dnsPrefix ≠ none ∨ args.dnsDomainId ≠ none ∨ args.leaseTime ≠ none
  deriving Decidable

/-- The UPDATE of the range itself. -/
def writeFields (db : RangeDb) (args : UpdateArgs) : Result RangeDb :=
  if GivesFields args then
    -- "This is a hack, but we shouldn't have empty descriptions anyways."
    let description := if args.description = some "" then none else args.description
    db.updateFields args.networkRangeId description args.dnsPrefix args.dnsDomainId args.leaseTime
  else .ok db

def updateNetworkRange (schema : Schema) (orders : ScanOrder × ScanOrder) (db : RangeDb)
    (args : UpdateArgs) : Result RangeDb :=
  match db.vNetworkRangeExpanded args.networkRangeId with
  | none => raise .foreignKeyViolation "update_network_range: network_range %d does not exist"
  | some netrange => do
    checkEndType args.startIpAddress netrange.startIpAddress netrange.startNetblockType <|
      "Address changes of start_ip_address are only allowed if the netblock_type is " ++
        "\"network_range\""
    checkEndType args.stopIpAddress netrange.stopIpAddress netrange.stopNetblockType <|
      "Address changes of stop_ip_address are only allowed if the netblock_type is " ++
        "\"network_range\""
    let start := args.startIpAddress.or netrange.startIpAddress
    let stop := args.stopIpAddress.or netrange.stopIpAddress
    let nbcheck ← db.validateNetworkRange {
      networkRangeId := some args.networkRangeId
      networkRangeType := netrange.networkRangeType
      startIpAddress := start
      stopIpAddress := stop
      parentNetblockId := args.parentNetblockId.or netrange.parentNetblockId }
    db.checkAssigned args.allowAssigned nbcheck.parentNetblockId start stop
    let db₁ ← moveEnd schema orders.1 db args.startIpAddress netrange.startIpAddress
      netrange.startNetblockId
    let db₂ ← moveEnd schema orders.2 db₁ args.stopIpAddress netrange.stopIpAddress
      netrange.stopNetblockId
    db₂.writeFields args

end RangeDb

end JazzHands

import JazzHands.Dns.ChangeRecord
import JazzHands.Postgres.Regexp

/-!
# `dns_manip.add_dns_domain`

The function of `dns_manip.sql` that adds a zone, with what it calls.

Collections of zones are left out, and so are the columns of the SOA that have no value here.
-/

namespace JazzHands.Dns

open Postgres

structure DnsZone extends DnsDomain where
  dnsDomainType : String
  deriving DecidableEq

structure DnsDomainIpUniverse where
  dnsDomainId : ℕ
  ipUniverseId : ℕ
  soaClass : String
  soaMname : Option String
  soaRname : String
  shouldGenerate : Bool

structure Property where
  propertyId : ℕ
  propertyType : String
  propertyName : String
  propertyValue : Option String

/-- The tables.  Of `val_dns_domain_type` there are the types with `can_generate`, of `ip_universe`
the ids with the names, and `netblock_status` comes beside the netblocks. -/
structure Tables where
  dnsRecord : List DnsRecord
  dnsDomain : List DnsZone
  dnsDomainIpUniverse : List DnsDomainIpUniverse
  dnsChangeRecord : List DnsChangeRecord
  netblock : List Netblock
  netblockStatus : List (ℕ × String)
  property : List Property
  valDnsDomainType : List (String × Bool)
  ipUniverse : List (ℕ × String)
  schema : Schema
  dnsRecordSeq : ℕ
  dnsDomainSeq : ℕ
  netblockSeq : ℕ

/-- The cast from text to `inet`, and the orders in which rows come. -/
structure Server where
  inetIn : String → Option Inet
  first : FirstRow (ℕ × ℕ)
  order : ScanOrder

/-- What statements on `dns_record` see. -/
def Tables.db (t : Tables) : Db :=
  ⟨t.dnsRecord, t.dnsDomain.map (·.toDnsDomain), t.netblock, t.schema.ipUniverseVisibility⟩

/-! ## Statements with several rows -/

/-- The rows one after the other, with the `BEFORE` triggers and the constraints on rows. -/
def writeEach (db : Db) : List (Op × DnsRecord) → Result (Db × List (Op × DnsRecord))
  | [] => .ok (db, [])
  | w :: l => do
    let new ← beforeTriggers db w.1 w.2
    checkRow (db.dnsRecord.filter fun r => ∀ old ∈ w.1.old, r.dnsRecordId ≠ old.dnsRecordId) new
    let x ← writeEach (db.after w.1 new) l
    .ok (x.1, (w.1, new) :: x.2)

/-- The keys and the constraint triggers, after all rows are written. -/
def checkEach (first : FirstRow (ℕ × ℕ)) (db : Db) : List (Op × DnsRecord) → Result Unit
  | [] => .ok ()
  | w :: l => do
    afterTriggers first db w.1 w.2
    checkEach first db l

def writeRows (first : FirstRow (ℕ × ℕ)) (db : Db) (l : List (Op × DnsRecord)) :
    Result (Db × List DnsChangeRecord) := do
  let x ← writeEach db l
  checkEach first x.1 x.2
  .ok (x.1, x.2.flatMap fun w => dnsRecordUpdateNontime x.1 (w.1.event w.2))

namespace Tables

/-- `INSERT` or `UPDATE` of rows of `dns_record`. -/
def write (srv : Server) (t : Tables) (l : List (Op × DnsRecord)) : Result Tables := do
  let x ← writeRows srv.first t.db l
  .ok { t with
    dnsRecord := x.1.dnsRecord
    dnsChangeRecord := t.dnsChangeRecord ++ x.2 }

/-- `INSERT` of rows, which get their keys from the sequence. -/
def insertRecords (srv : Server) (t : Tables) (rows : List DnsRecord) : Result Tables := do
  let t' ← t.write srv (rows.zipIdx.map fun x =>
    (.insert, { x.1 with dnsRecordId := t.dnsRecordSeq + x.2 }))
  .ok { t' with dnsRecordSeq := t.dnsRecordSeq + rows.length }

/-- A row with the defaults of the other columns. -/
def newRecord (dnsDomainId : ℕ) (dnsClass dnsType : String) (dnsValue : Option String)
    (netblockId : Option ℕ) : DnsRecord where
  dnsRecordId := 0
  dnsName := none
  dnsDomainId := dnsDomainId
  dnsTtl := none
  dnsClass := dnsClass
  dnsType := dnsType
  dnsValue := dnsValue
  dnsPriority := none
  dnsSrvService := none
  dnsSrvProtocol := none
  dnsSrvWeight := none
  dnsSrvPort := none
  netblockId := netblockId
  ipUniverseId := none
  referenceDnsRecordId := none
  dnsValueRecordId := none
  shouldGeneratePtr := true
  isEnabled := true

/-! ## Name servers -/

/-- `property_value NOT IN (...)`, which is not true when one of the values is not known. -/
def NotIn (value : Option String) (values : List (Option String)) : Prop :=
  values = [] ∨ (value ≠ none ∧ none ∉ values ∧ value ∉ values)
  deriving Decidable

/-- `add_ns_records`, without `purge`. -/
def addNsRecords (srv : Server) (t : Tables) (dnsDomainId : ℕ) : Result Tables :=
  let values := (t.dnsRecord.filter fun r => r.dnsDomainId = dnsDomainId ∧ r.dnsClass = "IN" ∧
    r.dnsType = "NS" ∧ r.dnsName = none).map (·.dnsValue)
  let servers := t.property.filter fun p => p.propertyName = "_authdns" ∧
    p.propertyType = "Defaults" ∧ NotIn p.propertyValue values
  t.insertRecords srv (servers.map fun p => newRecord dnsDomainId "IN" "NS" p.propertyValue none)

/-! ## Reverse zones -/

/-- What stands before the suffix. -/
def before (suffix : String) (name : String) : Option (List Char) :=
  if suffix.toList <:+ name.toList then
    some (name.toList.take (name.length - suffix.length))
  else none

/-- `regexp_matches(dns_domain_name, '^(.+)\.(in-addr|ip6)\.arpa$')`. -/
def arpaParts (name : String) : Option (List Char × String) :=
  match before ".in-addr.arpa" name, before ".ip6.arpa" name with
  | some (c :: s), _ => some (c :: s, "in-addr")
  | _, some (c :: s) => some (c :: s, "ip6")
  | _, _ => none

/-- `regexp_replace(..., '(....)', '\1:', 'g')`. -/
def colonEveryFour : List Char → List Char
  | a :: b :: c :: d :: s => a :: b :: c :: d :: ':' :: colonEveryFour s
  | s => s

/-- The text of the network, or none when nothing is linked. -/
def inaddrText (dnsDomainName : String) : Result (Option String) :=
  match arpaParts dnsDomainName with
  | none => .ok (some ":/64")
  | some brk =>
    let ipmember := (brk.1.splitOn '.').reverse
    if brk.2 = "in-addr" then
      if 4 < ipmember.length then
        raise .raiseException "Unable to work with anything smaller than a /24"
      else if ipmember.length ≠ 3 then .ok none
      else .ok (some (String.ofList (['.'].intercalate (ipmember ++ [['0']])) ++ "/24"))
    else .ok (some (String.ofList (colonEveryFour ipmember.flatten) ++ ":/64"))

/-- The netblock of a reverse zone, which is put in when it is not there.  What its triggers leave to
the end of the transaction is not part of this. -/
def reverseNetblock (srv : Server) (t : Tables) (ip : Inet) : Result (Tables × ℕ) :=
  match t.netblock.find? fun n => n.netblockType = "dns" ∧ n.isSingleAddress = false ∧
      n.canSubnet = false ∧ (n.netblockId, "Allocated") ∈ t.netblockStatus ∧ n.ipUniverseId = 0 ∧
      n.ipAddress = ip with
  | some n => .ok (t, n.netblockId)
  | none => do
    let x ← executeInsert t.schema srv.order t.netblock
      ⟨t.netblockSeq, some ip, "dns", some false, some false, none, some 0⟩
    .ok ({ t with
      netblock := x.netblock
      netblockStatus := (t.netblockSeq, "Allocated") :: t.netblockStatus
      netblockSeq := t.netblockSeq + 1 }, t.netblockSeq)

def getOrCreateInaddrDomainNetblockLink (srv : Server) (t : Tables) (dnsDomainName : String)
    (dnsDomainId : ℕ) : Result Tables := do
  match ← inaddrText dnsDomainName with
  | none => .ok t
  | some text =>
    match srv.inetIn text with
    | none => raise .invalidTextRepresentation "invalid input syntax for type inet: %"
    | some ip => do
      let x ← t.reverseNetblock srv ip
      x.1.insertRecords srv [newRecord dnsDomainId "IN" "REVERSE_ZONE_BLOCK_PTR" none (some x.2)]

/-! ## The zone -/

/-- `regexp_split_to_array(name, '\.')`. -/
def elements (name : String) : List String := (name.toList.splitOn '.').map String.ofList

/-- The loop over the labels: `sofar` and `parent_zone` are those of the labels before, and the loop
gives `parent_zone` with the zone that is found. -/
def labelLoop (zones : List DnsZone) (dnsDomainName : String) :
    List String → String → String → String × Option DnsZone
  | [], _, parentZone => (parentZone, none)
  | elem :: elems, sofar, _ =>
    let sofar := (if sofar ≠ "" then sofar ++ "\\." else sofar) ++ elem
    let parentZone := regexpReplace dnsDomainName ("^" ++ sofar ++ "\\.") "" false
    match zones.find? (·.dnsDomainName = parentZone) with
    | some zone => (parentZone, some zone)
    | none => labelLoop zones dnsDomainName elems sofar parentZone

/-- The type of the new zone. -/
def guessType (dnsDomainName : String) (dnsDomainType : Option String) (parent : Option DnsZone) :
    Result String :=
  match dnsDomainType with
  | some type => .ok type
  | none =>
    if before ".in-addr.arpa" dnsDomainName ≠ none ∨ before ".ip6.arpa" dnsDomainName ≠ none then
      .ok "reverse"
    else
      match parent with
      | some zone => .ok zone.dnsDomainType
      | none => raise .notNullViolation "Unable to guess dns_domain_type for %"

/-- `INSERT INTO dns_domain`, with `dns_domain_trigger_change`. -/
def insertDomain (t : Tables) (dnsDomainName : String) (parentId : Option ℕ)
    (dnsDomainType : String) : Result Tables := do
  raiseIf (t.valDnsDomainType.lookup dnsDomainType = none) .foreignKeyViolation
    "violates foreign key constraint fk_dns_dom_dns_dom_typ"
  .ok { t with
    dnsDomain := t.dnsDomain ++ [⟨⟨t.dnsDomainSeq, dnsDomainName, parentId⟩, dnsDomainType⟩]
    dnsDomainSeq := t.dnsDomainSeq + 1
    dnsChangeRecord := t.dnsChangeRecord ++
      if ∃ u ∈ t.dnsDomainIpUniverse, u.dnsDomainId = t.dnsDomainSeq ∧ u.shouldGenerate = true then
        [⟨some t.dnsDomainSeq, none⟩]
      else [] }

/-- `select property_value from property ... ORDER BY property_id LIMIT 1`. -/
def default (t : Tables) (propertyName : String) : Option String :=
  ((t.property.filter fun p => p.propertyType = "Defaults" ∧ p.propertyName = propertyName).argmin
    (·.propertyId)).bind (·.propertyValue)

/-- `INSERT INTO dns_domain_ip_universe`, with `dns_domain_ip_universe_can_generate` and
`dns_domain_ip_universe_trigger_change`. -/
def insertUniverse (dnsDomainId : ℕ) (canGenerate : Option Bool) (t : Tables) (univ : ℕ) :
    Result Tables :=
  match t.default "_dnsrname", canGenerate with
  | some soaRname, some shouldGenerate => do
    raiseIf (∃ u ∈ t.dnsDomainIpUniverse, u.dnsDomainId = dnsDomainId ∧ u.ipUniverseId = univ)
      .uniqueViolation "duplicate key value violates unique constraint pk_dns_domain_ip_universe"
    raiseIf (t.ipUniverse.lookup univ = none) .foreignKeyViolation
      "violates foreign key constraint fk_dnsdom_ipu_ipu"
    raiseIf (shouldGenerate = true ∧ ∃ zone ∈ t.dnsDomain, zone.dnsDomainId = dnsDomainId ∧
        t.valDnsDomainType.lookup zone.dnsDomainType = some false)
      .integrityConstraintViolation "This dns_domain_type may not be autogenerated."
    .ok { t with
      dnsDomainIpUniverse := t.dnsDomainIpUniverse ++
        [⟨dnsDomainId, univ, "IN", t.default "_dnsmname", soaRname, shouldGenerate⟩]
      -- otherwise rows with this `ip_universe_id` go, which no row has
      dnsChangeRecord := t.dnsChangeRecord ++
        if shouldGenerate = true then [⟨some dnsDomainId, none⟩] else [] }
  | _, _ => raise .notNullViolation "null value in column of dns_domain_ip_universe"

/-- The loop over the universes. -/
def insertUniverses (dnsDomainId : ℕ) (canGenerate : Option Bool) (t : Tables) :
    Option (List ℕ) → Result Tables
  | none => raise .nullValueNotAllowed "FOREACH expression must not be null"
  | some univs => univs.foldlM (insertUniverse dnsDomainId canGenerate) t

/-- `re`, where the two strings of the replacement and the flag are one. -/
def moveRe (shortName : String) : String :=
  regexpReplace ("\\.?" ++ lower shortName ++ "$") "\\." "\\\\.g" false

/-- `dns_name` of a record that is moved. -/
def movedName (shortName dnsName : String) : Option String :=
  if lower dnsName = lower shortName then none
  else some (regexpReplace dnsName
    (regexpReplace ("\\." ++ shortName ++ "$") "\\." "\\\\." true) "" true)

/-- The `UPDATE` of the records of the zone above. -/
def moveRecords (srv : Server) (t : Tables) (parentId domainId : ℕ) (shortName : String) :
    Result Tables :=
  t.write srv ((t.dnsRecord.filter fun r => r.dnsDomainId = parentId ∧
    ∃ name ∈ r.dnsName, regexpMatch (lower name) (moveRe shortName) = true).map fun r =>
      (.update r [.dnsName, .dnsDomainId],
        { r with
          dnsName := r.dnsName.bind (movedName shortName)
          dnsDomainId := domainId }))

end Tables

open Tables

def addDnsDomain (srv : Server) (t : Tables) (dnsDomainName : String)
    (dnsDomainType : Option String) (ipUniverses : Option (List ℕ)) (addNameservers : Option Bool) :
    Result (Tables × Option ℕ) := do
  let found := labelLoop t.dnsDomain dnsDomainName (elements dnsDomainName) "" ""
  let parent := found.2
  let shortName := regexpReplace dnsDomainName ("\\." ++ found.1) "" false
  let defaults := (t.ipUniverse.filter (·.2 = "default")).map (·.1)
  let type ← guessType dnsDomainName dnsDomainType parent
  if ∃ d ∈ t.dnsDomain, d.dnsDomainName = dnsDomainName ∨ d.dnsDomainId = t.dnsDomainSeq then
    .ok (t, (t.dnsDomain.find? (·.dnsDomainName = dnsDomainName)).map (·.dnsDomainId))
  else do
    let domainId := t.dnsDomainSeq
    let t ← t.insertDomain dnsDomainName (parent.map (·.dnsDomainId)) type
    let t ← t.insertUniverses domainId (t.valDnsDomainType.lookup type)
      (ipUniverses.or (if defaults = [] then none else some defaults))
    let t ← (if type = "reverse" then
        t.getOrCreateInaddrDomainNetblockLink srv dnsDomainName domainId
      else .ok t : Result Tables)
    let t ← (match parent with
      | some zone => t.moveRecords srv zone.dnsDomainId domainId shortName
      | none => .ok t : Result Tables)
    let hasServers : Bool := parent.isSome ∧ ∃ r ∈ t.dnsRecord, r.dnsDomainId = domainId ∧
      r.dnsType = "NS" ∧ r.dnsName = none
    let t ← (if addNameservers.getD (!hasServers) = true then t.addNsRecords srv domainId
      else .ok t : Result Tables)
    .ok ({ t with
      dnsChangeRecord := t.dnsChangeRecord ++
        (parent.toList.filter fun zone => ∃ u ∈ t.dnsDomainIpUniverse,
          u.dnsDomainId = zone.dnsDomainId ∧ u.shouldGenerate = true).map fun zone =>
            ⟨some zone.dnsDomainId, none⟩ }, some domainId)

end JazzHands.Dns

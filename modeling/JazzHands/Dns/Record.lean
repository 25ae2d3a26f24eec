import JazzHands.Netblock.Schema
import JazzHands.Postgres.Query

/-!
# The table `dns_record` and its triggers

`create_dns_triggers.sql`, `create_ip_universe_valid_triggers.sql` and the constraints of
`dns_record`.

* `DnsRecord`, `Db`: the table, with `dns_domain`, `netblock` and `ip_universe_visibility`, which no
  statement on `dns_record` changes.

Columns that no trigger reads and no zone entry shows are left out, and so are the keys to the tables
of classes, types and services.  The rows that `dns_record_update_nontime` logs are in
`Dns.ChangeRecord`.
-/

namespace JazzHands.Dns

open Postgres

@[ext] structure DnsRecord where
  dnsRecordId : ℕ
  dnsName : Option String
  dnsDomainId : ℕ
  dnsTtl : Option ℤ
  dnsClass : String
  dnsType : String
  dnsValue : Option String
  dnsPriority : Option ℤ
  dnsSrvService : Option String
  dnsSrvProtocol : Option String
  dnsSrvWeight : Option ℤ
  dnsSrvPort : Option ℤ
  netblockId : Option ℕ
  ipUniverseId : Option ℕ
  referenceDnsRecordId : Option ℕ
  dnsValueRecordId : Option ℕ
  shouldGeneratePtr : Bool
  isEnabled : Bool
  deriving DecidableEq

structure DnsDomain where
  dnsDomainId : ℕ
  dnsDomainName : String
  parentDnsDomainId : Option ℕ
  deriving DecidableEq

structure Db where
  dnsRecord : List DnsRecord
  dnsDomain : List DnsDomain
  netblock : List Netblock
  ipUniverseVisibility : List IpUniverseVisibility

def findRecord (t : List DnsRecord) (dnsRecordId : ℕ) : Option DnsRecord :=
  t.find? (·.dnsRecordId = dnsRecordId)

/-! ## Columns -/

inductive Column where
  | dnsRecordId
  | dnsName
  | dnsDomainId
  | dnsTtl
  | dnsClass
  | dnsType
  | dnsValue
  | dnsPriority
  | dnsSrvService
  | dnsSrvProtocol
  | dnsSrvWeight
  | dnsSrvPort
  | netblockId
  | ipUniverseId
  | referenceDnsRecordId
  | dnsValueRecordId
  | shouldGeneratePtr
  | isEnabled
  deriving DecidableEq

/-- The row after `SET`, with the values of the columns that are named there. -/
def DnsRecord.set (old values : DnsRecord) (columns : List Column) : DnsRecord where
  dnsRecordId := if .dnsRecordId ∈ columns then values.dnsRecordId else old.dnsRecordId
  dnsName := if .dnsName ∈ columns then values.dnsName else old.dnsName
  dnsDomainId := if .dnsDomainId ∈ columns then values.dnsDomainId else old.dnsDomainId
  dnsTtl := if .dnsTtl ∈ columns then values.dnsTtl else old.dnsTtl
  dnsClass := if .dnsClass ∈ columns then values.dnsClass else old.dnsClass
  dnsType := if .dnsType ∈ columns then values.dnsType else old.dnsType
  dnsValue := if .dnsValue ∈ columns then values.dnsValue else old.dnsValue
  dnsPriority := if .dnsPriority ∈ columns then values.dnsPriority else old.dnsPriority
  dnsSrvService := if .dnsSrvService ∈ columns then values.dnsSrvService else old.dnsSrvService
  dnsSrvProtocol := if .dnsSrvProtocol ∈ columns then values.dnsSrvProtocol else old.dnsSrvProtocol
  dnsSrvWeight := if .dnsSrvWeight ∈ columns then values.dnsSrvWeight else old.dnsSrvWeight
  dnsSrvPort := if .dnsSrvPort ∈ columns then values.dnsSrvPort else old.dnsSrvPort
  netblockId := if .netblockId ∈ columns then values.netblockId else old.netblockId
  ipUniverseId := if .ipUniverseId ∈ columns then values.ipUniverseId else old.ipUniverseId
  referenceDnsRecordId := if .referenceDnsRecordId ∈ columns then values.referenceDnsRecordId
    else old.referenceDnsRecordId
  dnsValueRecordId := if .dnsValueRecordId ∈ columns then values.dnsValueRecordId
    else old.dnsValueRecordId
  shouldGeneratePtr := if .shouldGeneratePtr ∈ columns then values.shouldGeneratePtr
    else old.shouldGeneratePtr
  isEnabled := if .isEnabled ∈ columns then values.isEnabled else old.isEnabled

/-- `TG_OP`, with the old row and the columns that an `UPDATE` names. -/
inductive Op where
  | insert
  | update (old : DnsRecord) (columns : List Column)

def Op.old : Op → Option DnsRecord
  | .insert => none
  | .update old _ => some old

/-- `INSERT OR UPDATE OF columns`. -/
def Op.Fires (op : Op) (columns : List Column) : Prop :=
  match op with
  | .insert => True
  | .update _ named => ∃ c ∈ named, c ∈ columns

instance {op : Op} {columns : List Column} : Decidable (op.Fires columns) := by
  unfold Op.Fires
  split <;> infer_instance

/-- A trigger on some columns. -/
def Op.on (op : Op) (columns : List Column) (trigger : Result Unit) : Result Unit :=
  if op.Fires columns then trigger else .ok ()

/-! ## The `BEFORE` triggers -/

/-- `dns_type IN ('A', 'AAAA')`. -/
def IsAddressType (dnsType : String) : Prop := dnsType = "A" ∨ dnsType = "AAAA"
  deriving Decidable

/-- The part of `dns_a_rec_validation` that fills in `ip_universe_id`. -/
def fillIpUniverse (db : Db) (new : DnsRecord) : DnsRecord :=
  if new.ipUniverseId = none then
    { new with
      ipUniverseId :=
        match new.netblockId, new.dnsValueRecordId with
        | some nb, _ => (findNetblock db.netblock nb).map (·.ipUniverseId)
        | none, some i => (findRecord db.dnsRecord i).bind (·.ipUniverseId)
        | none, none => some 0 }
  else new

def dnsARecValidation (db : Db) (new : DnsRecord) : Result DnsRecord := do
  let new := fillIpUniverse db new
  raiseIf (IsAddressType new.dnsType ∧ new.netblockId = none ∧ new.dnsValueRecordId = none)
    .notNullViolation "Attempt to set % record without netblocks"
  raiseIf (IsAddressType new.dnsType ∧ ∃ i ∈ new.dnsValueRecordId, ∀ d ∈ db.dnsRecord,
      ¬ (d.dnsRecordId = i ∧ d.dnsType = new.dnsType ∧ d.dnsClass = new.dnsClass))
    .notNullViolation "Attempt to set % value record without the correct netblock"
  raiseIf (IsAddressType new.dnsType ∧ new.shouldGeneratePtr = true ∧ new.dnsValueRecordId ≠ none)
    .foreignKeyViolation
    "It is not permitted to set should_generate_ptr and use a dns_value_record_id"
  raiseIf (new.netblockId ≠ none ∧ (new.dnsValue ≠ none ∨ new.dnsValueRecordId ≠ none))
    .JH001 "Both dns_value and netblock_id may not be set"
  raiseIf (new.dnsValue ≠ none ∧ new.dnsValueRecordId ≠ none)
    .JH001 "Both dns_value and dns_value_record_id may not be set"
  let nb : Option Netblock := new.netblockId.bind (findNetblock db.netblock)
  raiseIf (new.dnsType = "A" ∧ ∃ n ∈ nb, n.ipAddress.family ≠ .inet4)
    .JH200 "A records must be assigned to non-IPv4 records"
  raiseIf (new.dnsType = "AAAA" ∧ ∃ n ∈ nb, n.ipAddress.family ≠ .inet6)
    .JH200 "AAAA records must be assigned to non-IPv6 records"
  raiseIf (IsAddressType new.dnsType ∧ ∃ n ∈ nb, n.isSingleAddress = false)
    .foreignKeyViolation "Non-single addresses may not have % records"
  .ok new

def dnsNonARecValidation (new : DnsRecord) : Result Unit :=
  raiseIf (new.dnsType ∉ ["A", "AAAA", "REVERSE_ZONE_BLOCK_PTR", "DEFAULT_DNS_DOMAIN"] ∧
      new.dnsValue = none ∧ new.dnsValueRecordId = none)
    .notNullViolation "Attempt to set % record without a value"

/-- The characters that a name may have. -/
def IsNameChar (dnsType : String) (c : Char) : Prop :=
  c.isAlphanum ∨ c ∈ ['-', '.', '*'] ∨ (¬ IsAddressType dnsType ∧ c = '_')
  deriving Decidable

def dnsRecordCheckName (new : DnsRecord) : Result Unit := do
  raiseIf (∃ name ∈ new.dnsName, name.toList.any (¬ IsNameChar new.dnsType ·))
    .integrityConstraintViolation "Invalid DNS NAME %"
  raiseIf (∃ name ∈ new.dnsName, '*' ∈ name.toList ∧ new.shouldGeneratePtr = true)
    .integrityConstraintViolation "Wildcard DNS Record % can not have auto-set PTR"

def dnsRecordEnabledCheck (db : Db) (new : DnsRecord) : Result Unit := do
  raiseIf (new.isEnabled = false ∧ ∃ r ∈ db.dnsRecord,
      r.dnsValueRecordId = some new.dnsRecordId ∨ r.referenceDnsRecordId = some new.dnsRecordId)
    .JH001 "Can not disabled records referred to by other enabled records."
  raiseIf (new.isEnabled = true ∧ ∃ r ∈ db.dnsRecord,
      (new.dnsValueRecordId = some r.dnsRecordId ∨ new.referenceDnsRecordId = some r.dnsRecordId) ∧
        r.isEnabled = false)
    .JH001 "Can not enable records referencing disabled records."

/-- The `BEFORE` triggers, in the order of their names. -/
def beforeTriggers (db : Db) (op : Op) (new : DnsRecord) : Result DnsRecord := do
  let new ← dnsARecValidation db new
  dnsNonARecValidation new
  op.on [.dnsName, .shouldGeneratePtr] (dnsRecordCheckName new)
  op.on [.isEnabled] (dnsRecordEnabledCheck db new)
  .ok new

/-! ## Constraints -/

/-- The constraints on a row next to `others`: `ip_universe_id` is not null,
`ckc_dns_srv_protocol_dns_reco`, `pk_dns_record` and `ak_dns_record_generate_ptr`. -/
def checkRow (others : List DnsRecord) (new : DnsRecord) : Result Unit := do
  raiseIf (new.ipUniverseId = none) .notNullViolation "null value in column ip_universe_id"
  raiseIf (∃ p ∈ new.dnsSrvProtocol, p ≠ "tcp" ∧ p ≠ "udp") .checkViolation
    "violates check constraint ckc_dns_srv_protocol_dns_reco"
  raiseIf (∃ r ∈ others, r.dnsRecordId = new.dnsRecordId) .uniqueViolation
    "duplicate key value violates unique constraint pk_dns_record"
  raiseIf (new.shouldGeneratePtr = true ∧ IsAddressType new.dnsType ∧ new.netblockId ≠ none ∧
      ∃ r ∈ others, r.shouldGeneratePtr = true ∧ IsAddressType r.dnsType ∧
        r.netblockId = new.netblockId)
    .uniqueViolation "duplicate key value violates unique constraint ak_dns_record_generate_ptr"

/-- `fk_dnsid_dnsdom_id`, `fk_dnsid_nblk_id`, `fk_dnsvalref_dns_recid` and `fk_ref_dnsrec_dnserc`, on
all rows. -/
def checkKeys (db : Db) : Result Unit := do
  raiseIf (∃ r ∈ db.dnsRecord, ∀ d ∈ db.dnsDomain, d.dnsDomainId ≠ r.dnsDomainId)
    .foreignKeyViolation "violates foreign key constraint fk_dnsid_dnsdom_id"
  raiseIf (∃ r ∈ db.dnsRecord, ∃ i ∈ r.netblockId, ∀ nb ∈ db.netblock, nb.netblockId ≠ i)
    .foreignKeyViolation "violates foreign key constraint fk_dnsid_nblk_id"
  raiseIf (∃ r ∈ db.dnsRecord, ∃ i ∈ r.dnsValueRecordId, ∀ q ∈ db.dnsRecord, q.dnsRecordId ≠ i)
    .foreignKeyViolation "violates foreign key constraint fk_dnsvalref_dns_recid"
  raiseIf (∃ r ∈ db.dnsRecord, ∃ i ∈ r.referenceDnsRecordId, ∀ q ∈ db.dnsRecord,
      ¬ (q.dnsRecordId = i ∧ q.dnsDomainId = r.dnsDomainId))
    .foreignKeyViolation "violates foreign key constraint fk_ref_dnsrec_dnserc"

/-! ## The constraint triggers -/

/-- The netblocks that `check_ip_universe_dns_record` looks at. -/
def Op.netblocks (op : Op) (new : DnsRecord) : List (Option ℕ) :=
  match op with
  | .insert => [new.netblockId]
  | .update old _ =>
    if old.netblockId ≠ none ∧ new.netblockId ≠ none ∧ new.netblockId ≠ old.netblockId then
      [old.netblockId, new.netblockId]
    else [new.netblockId]

def checkIpUniverseDnsRecord (db : Db) (op : Op) (new : DnsRecord) : Result Unit :=
  raiseIf (∃ nb ∈ db.netblock, some nb.netblockId ∈ op.netblocks new ∧
      some nb.ipUniverseId ≠ new.ipUniverseId)
    .foreignKeyViolation "IP Universes for dns_records must match dns records and netblocks"

/-- `coalesce(ref.dns_name, db.dns_name)` in `dns_rec_prevent_dups`, with the join on the records of
the zone. -/
def joinedName (t : List DnsRecord) (dnsDomainId : ℕ) (r : DnsRecord) : Option String :=
  ((t.find? fun ref => r.referenceDnsRecordId = some ref.dnsRecordId ∧
    ref.dnsDomainId = dnsDomainId).bind (·.dnsName)).or r.dnsName

/-- `coalesce(val.dns_value, ...)` and `coalesce(val.netblock_id, ...)`. -/
def joinedValue (t : List DnsRecord) (r : DnsRecord) : Option String × Option ℕ :=
  let val := r.dnsValueRecordId.bind (findRecord t)
  ((val.bind (·.dnsValue)).or r.dnsValue, (val.bind (·.netblockId)).or r.netblockId)

/-- The row counts against `new` in `dns_rec_prevent_dups`. -/
def IsSameRecord (t : List DnsRecord) (new r : DnsRecord) : Prop :=
  r.dnsRecordId ≠ new.dnsRecordId ∧
    (joinedName t new.dnsDomainId r).map lower = new.dnsName.map lower ∧
    r.dnsDomainId = new.dnsDomainId ∧ r.dnsClass = new.dnsClass ∧ r.dnsType = new.dnsType ∧
    r.dnsSrvService = new.dnsSrvService ∧ r.dnsSrvProtocol = new.dnsSrvProtocol ∧
    r.dnsSrvPort = new.dnsSrvPort ∧ r.ipUniverseId = new.ipUniverseId ∧ r.isEnabled = true ∧
    joinedValue t r = joinedValue t new
  deriving Decidable

def dnsRecPreventDups (db : Db) (new : DnsRecord) : Result Unit :=
  raiseIf (∃ r ∈ db.dnsRecord, IsSameRecord db.dnsRecord new r) .uniqueViolation
    "Attempt to insert the same dns record - % %"

/-- A row of the inner query of `dns_record_cname_checker`. -/
structure SmashRow where
  dnsName : Option String
  dnsDomainId : ℕ
  dnsType : String
  dnsClass : String
  ipUniverseId : Option ℕ

/-- The inner query: the enabled records under their own names, and those that take their names from
others under these. -/
def smash (t : List DnsRecord) : List SmashRow :=
  ((t.filter fun d => d.referenceDnsRecordId = none ∧ d.isEnabled = true).map fun d =>
    ⟨d.dnsName, d.dnsDomainId, d.dnsType, d.dnsClass, d.ipUniverseId⟩) ++
  (t.filter (·.isEnabled = true)).flatMap fun d =>
    (t.filter fun ref => d.referenceDnsRecordId = some ref.dnsRecordId).map fun ref =>
      ⟨ref.dnsName, d.dnsDomainId, d.dnsType, d.dnsClass, d.ipUniverseId⟩

/-- The universe of the record, or one that is visible from it. -/
def IsVisible (db : Db) (new : DnsRecord) (ipUniverseId : Option ℕ) : Prop :=
  ipUniverseId = new.ipUniverseId ∨ ∃ v ∈ db.ipUniverseVisibility,
    some v.ipUniverseId = new.ipUniverseId ∧ some v.visibleIpUniverseId = ipUniverseId
  deriving Decidable

/-- The rows of the `WHERE` clause. -/
def smashAt (db : Db) (new : DnsRecord) : List SmashRow :=
  (smash db.dnsRecord).filter fun d => d.dnsName.map lower = new.dnsName.map lower ∧
    d.dnsDomainId = new.dnsDomainId ∧ IsVisible db new d.ipUniverseId ∧ d.dnsClass = new.dnsClass

/-- What `GROUP BY 1, 2, 3` puts together. -/
def SmashRow.key (d : SmashRow) : Option String × ℕ × String :=
  (d.dnsName, d.dnsDomainId, d.dnsClass)

/-- The groups, each with `num_cnames` and `num_not_cnames`. -/
def cnameCounts (rows : List SmashRow) : List (ℕ × ℕ) :=
  (rows.map (·.key)).dedup.map fun k =>
    ((rows.filter (·.key = k)).countP (·.dnsType = "CNAME"),
      (rows.filter (·.key = k)).countP (·.dnsType ≠ "CNAME"))

/-- `dns_record_cname_checker`: of several groups only one is looked at. -/
def dnsRecordCnameChecker (first : FirstRow (ℕ × ℕ)) (db : Db) (new : DnsRecord) : Result Unit :=
  match first.pick (cnameCounts (smashAt db new)) with
  | none => .ok ()
  | some (numCnames, numNotCnames) =>
    raiseIf ((0 < numCnames ∧ 0 < numNotCnames) ∨ 1 < numCnames) .uniqueViolation
      (if new.dnsName = none then "% may not have CNAME and other records (%/%)"
        else "%.% may not have CNAME and other records (%/%)")

/-- The columns on which `dns_record_cname_checker` runs. -/
def cnameColumns : List Column := [.dnsClass, .dnsType, .dnsName, .dnsDomainId, .isEnabled]

/-- The keys and the constraint triggers, in the order of their names, after a row is written. -/
def afterTriggers (first : FirstRow (ℕ × ℕ)) (db : Db) (op : Op) (new : DnsRecord) :
    Result Unit := do
  checkKeys db
  op.on [.dnsRecordId, .ipUniverseId] (checkIpUniverseDnsRecord db op new)
  dnsRecPreventDups db new
  op.on cnameColumns (dnsRecordCnameChecker first db new)

/-! ## Statements -/

inductive Statement where
  | insert (new : DnsRecord)
  | update (dnsRecordId : ℕ) (columns : List Column) (values : DnsRecord)
  | delete (dnsRecordId : ℕ)

def writeRow (t : List DnsRecord) (op : Op) (new : DnsRecord) : List DnsRecord :=
  match op with
  | .insert => t ++ [new]
  | .update old _ => t.map fun r => if r.dnsRecordId = old.dnsRecordId then new else r

/-- The tables with the row written. -/
def Db.after (db : Db) (op : Op) (new : DnsRecord) : Db :=
  { db with dnsRecord := writeRow db.dnsRecord op new }

/-- `INSERT` of a row, or `UPDATE` of one. -/
def write (first : FirstRow (ℕ × ℕ)) (db : Db) (op : Op) (new : DnsRecord) : Result Db := do
  let new ← beforeTriggers db op new
  checkRow (db.dnsRecord.filter fun r => ∀ old ∈ op.old, r.dnsRecordId ≠ old.dnsRecordId) new
  afterTriggers first (db.after op new) op new
  .ok (db.after op new)

def deleteRow (db : Db) (dnsRecordId : ℕ) : Result Db := do
  let db' := { db with dnsRecord := db.dnsRecord.filter (·.dnsRecordId ≠ dnsRecordId) }
  checkKeys db'
  .ok db'

/-- A statement; an UPDATE that finds no row does nothing. -/
def execute (first : FirstRow (ℕ × ℕ)) (db : Db) : Statement → Result Db
  | .insert new => write first db .insert new
  | .update id columns values =>
    match findRecord db.dnsRecord id with
    | none => .ok db
    | some old => write first db (.update old columns) (old.set values columns)
  | .delete id => deleteRow db id

/-- The tables after a statement: an error leaves them as they were.  Each statement comes with the
order in which its groups are read. -/
def step (db : Db) (s : Statement × FirstRow (ℕ × ℕ)) : Db :=
  match execute s.2 db s.1 with
  | .ok db' => db'
  | .error _ => db

end JazzHands.Dns

import JazzHands.Dns.ReverseNames
import JazzHands.Dns.Written
import Mathlib.Data.Set.Prod

/-!
# What zones say

The views that zone files are made from: `v_dns_fwd` and `v_dns_rvs` of `legacy.sql`.  `v_dns_fwd`
has the records of a zone, and the name servers of the zones below it.  `v_dns_rvs` joins the
records that make a PTR, which the view calls `combo`, with the `REVERSE_ZONE_BLOCK_PTR` records
whose netblock the address lies in: these say in which zones the PTR is shown, and under which name.

Only enabled rows come into a zone file.  `mem_zoneEntries` says which records these are of, and
`addressPtrs_eq_prod` that the PTRs of an address are its rows of `combo` in each of its zones.

The rows that both views take from `network_range` are left out: they are of no record.
-/

namespace JazzHands.Dns

open Postgres

/-- What the views use beside the tables: the types with `id_type IN ('ID', 'NON-ID')` and
`regexp_replace`, with or without the flag `i`. -/
structure Views where
  valDnsType : List String
  regexpReplace : String → String → String → Bool → String

/-- `concat`, which passes over `NULL`. -/
def concat (l : List (Option String)) : String := String.join (l.map (·.getD ""))

def findDomain (t : List DnsDomain) (dnsDomainId : ℕ) : Option DnsDomain :=
  t.find? (·.dnsDomainId = dnsDomainId)

/-- `coalesce(rdns.dns_name, d.dns_name)`. -/
def shownName (t : List DnsRecord) (d : DnsRecord) : Option String :=
  ((d.referenceDnsRecordId.bind (findRecord t)).bind (·.dnsName)).or d.dnsName

/-! ## Zones -/

/-- The columns of `v_dns_fwd` that a zone file shows. -/
structure FwdRow where
  dnsName : Option String
  dnsTtl : Option ℤ
  dnsClass : String
  dnsType : String
  dnsValue : Option String
  dnsPriority : Option ℤ
  ip : Option Inet
  dnsSrvService : Option String
  dnsSrvProtocol : Option String
  dnsSrvWeight : Option ℤ
  dnsSrvPort : Option ℤ
  isEnabled : Bool

/-- The record that the value is taken from, joined as `dv`. -/
def valueRecord (t : List DnsRecord) (d : DnsRecord) : Option DnsRecord :=
  d.dnsValueRecordId.bind (findRecord t)

/-- `dns_value`. -/
def fwdValue (db : Db) (d : DnsRecord) : Option String :=
  let dv := valueRecord db.dnsRecord d
  if d.dnsValue ≠ none then d.dnsValue
  else if IsAddressType d.dnsType ∧ d.netblockId = none ∧ d.dnsValueRecordId ≠ none then none
  else if d.dnsValueRecordId = none then d.dnsValue
  else if dv.map (·.dnsDomainId) = some d.dnsDomainId then dv.bind (·.dnsName)
  else
    let dom := dv.bind fun r => findDomain db.dnsDomain r.dnsDomainId
    concat [dv.bind (·.dnsName), some ".", dom.map (·.dnsDomainName), some "."]

/-- `ip`. -/
def fwdIp (db : Db) (d : DnsRecord) : Option Inet :=
  let netblockId :=
    if d.dnsValueRecordId ≠ none ∧ IsAddressType d.dnsType then
      (valueRecord db.dnsRecord d).bind (·.netblockId)
    else d.netblockId
  (netblockId.bind (findNetblock db.netblock)).map (·.ipAddress)

/-- The row of a record in its own zone. -/
def fwdRow (v : Views) (db : Db) (dnsDomainId : ℕ) (d : DnsRecord) : Option FwdRow :=
  if d.dnsDomainId = dnsDomainId ∧ d.dnsType ∈ v.valDnsType then
    some
      { dnsName := shownName db.dnsRecord d
        dnsTtl := d.dnsTtl
        dnsClass := d.dnsClass
        dnsType := d.dnsType
        dnsValue := fwdValue db d
        dnsPriority := d.dnsPriority
        ip := fwdIp db d
        dnsSrvService := d.dnsSrvService
        dnsSrvProtocol := d.dnsSrvProtocol
        dnsSrvWeight := d.dnsSrvWeight
        dnsSrvPort := d.dnsSrvPort
        isEnabled := d.isEnabled }
  else none

/-- The row of a name server in the zone above. -/
def delegationRow (v : Views) (t : List DnsDomain) (dnsDomainId : ℕ) (d : DnsRecord) :
    Option FwdRow :=
  if d.dnsClass = "IN" ∧ d.dnsType = "NS" ∧ d.dnsName = none then
    (findDomain t d.dnsDomainId).bind fun dom =>
      (findDomain t dnsDomainId).bind fun pdom =>
        if dom.parentDnsDomainId = some pdom.dnsDomainId then
          some
            { dnsName := some
                (v.regexpReplace dom.dnsDomainName ("\\." ++ pdom.dnsDomainName ++ "$") "" false)
              dnsTtl := d.dnsTtl
              dnsClass := d.dnsClass
              dnsType := d.dnsType
              dnsValue := some
                (if (d.dnsValue.getD "").toList.getLast? = some '.' then d.dnsValue.getD ""
                  else concat [d.dnsValue, some ".", some dom.dnsDomainName, some "."])
              dnsPriority := d.dnsPriority
              ip := none
              dnsSrvService := none
              dnsSrvProtocol := none
              dnsSrvWeight := none
              dnsSrvPort := none
              isEnabled := d.isEnabled }
        else none
  else none

/-- `v_dns_fwd`, for one zone. -/
def vDnsFwd (v : Views) (db : Db) (dnsDomainId : ℕ) : List FwdRow :=
  db.dnsRecord.filterMap (fwdRow v db dnsDomainId) ++
    db.dnsRecord.filterMap (delegationRow v db.dnsDomain dnsDomainId)

/-- The records that a zone file says. -/
def zoneEntries (v : Views) (db : Db) (dnsDomainId : ℕ) : List FwdRow :=
  (vDnsFwd v db dnsDomainId).filter (·.isEnabled = true)

/-- The record gives the zone this entry. -/
def Gives (v : Views) (db : Db) (dnsDomainId : ℕ) (d : DnsRecord) (x : FwdRow) : Prop :=
  fwdRow v db dnsDomainId d = some x ∨ delegationRow v db.dnsDomain dnsDomainId d = some x

/-! ## Addresses -/

/-- The columns of `combo` that a zone file shows. -/
structure Combo where
  dnsTtl : Option ℤ
  dnsValue : String
  isEnabled : Bool
  deriving DecidableEq

/-- The name that a PTR points to. -/
def ptrValue (dnsName : Option String) (dnsDomainName : String) : String :=
  match dnsName with
  | none => concat [some dnsDomainName, some "."]
  | some name => concat [some name, some ".", some dnsDomainName, some "."]

/-- The record makes the PTR of the address. -/
def MakesPtrOf (d : DnsRecord) (nb : Netblock) : Prop :=
  d.netblockId = some nb.netblockId ∧ d.shouldGeneratePtr = true ∧ d.dnsClass = "IN" ∧
    IsAddressType d.dnsType ∧ nb.isSingleAddress = true
  deriving Decidable

/-- The row of a record in `combo`, for the address. -/
def combo (db : Db) (nb : Netblock) (d : DnsRecord) : Option Combo :=
  if MakesPtrOf d nb then
    (findDomain db.dnsDomain d.dnsDomainId).map fun dom =>
      { dnsTtl := d.dnsTtl
        dnsValue := ptrValue (shownName db.dnsRecord d) dom.dnsDomainName
        isEnabled := d.isEnabled }
  else none

/-- `root` covers the address `ip`. -/
def Covers (root ip : Inet) : Prop :=
  root.family = ip.family ∧ ∃ i ∈ (ip.setMasklen root.masklen).toOption, i.subnetEq root
  deriving Decidable

/-- The name of the address in the reverse zone. -/
def rvsName (v : Views) (ip : Inet) (dnsDomainName : String) : String :=
  match ip.family with
  | .inet4 => v.regexpReplace (String.ofList ip.hostText) "^.*[.](\\d+)$" "\\1" true
  | .inet6 => v.regexpReplace (String.ofList (v6Inaddr ip))
      ("." ++ dnsDomainName.replace ".ip6.arpa" "" ++ "$") "" true

/-- The reverse zone that the record `rootd` makes of the addresses in its netblock, and the name of
the address there. -/
def reverseZone (v : Views) (db : Db) (nb : Netblock) (rootd : DnsRecord) : Option (ℕ × String) :=
  if rootd.dnsType = "REVERSE_ZONE_BLOCK_PTR" then
    (rootd.netblockId.bind (findNetblock db.netblock)).bind fun root =>
      if Covers root.ipAddress nb.ipAddress.host then
        (findDomain db.dnsDomain rootd.dnsDomainId).map fun dd =>
          (dd.dnsDomainId, rvsName v nb.ipAddress.host dd.dnsDomainName)
      else none
  else none

/-- `v_dns_rvs`, for one address: its zone and name, and what `combo` has. -/
def vDnsRvs (v : Views) (db : Db) (nb : Netblock) : List ((ℕ × String) × Combo) :=
  (db.dnsRecord.filterMap (combo db nb)).flatMap fun row =>
    (db.dnsRecord.filterMap (reverseZone v db nb)).map fun dd => (dd, row)

/-- The PTRs that zone files say. -/
def addressPtrs (v : Views) (db : Db) (nb : Netblock) : List ((ℕ × String) × Combo) :=
  (vDnsRvs v db nb).filter (·.2.isEnabled = true)

/-- The record is enabled and makes the PTR of the address. -/
def HasPtr (nb : Netblock) (d : DnsRecord) : Prop := d.isEnabled = true ∧ MakesPtrOf d nb
  deriving Decidable

/-! ## Where the rows come from -/

variable {v : Views} {db : Db} {z : ℕ} {d : DnsRecord} {x : FwdRow} {nb : Netblock} {p : Combo}
  {name name' : Option String} {domain : String}

theorem fwdRow_isEnabled (h : fwdRow v db z d = some x) : x.isEnabled = d.isEnabled := by
  unfold fwdRow at h
  split at h
  · obtain rfl := Option.some.inj h
    rfl
  · cases h

theorem delegationRow_isEnabled {t : List DnsDomain} (h : delegationRow v t z d = some x) :
    x.isEnabled = d.isEnabled := by
  unfold delegationRow at h
  split at h
  · simp only [Option.bind_eq_some_iff] at h
    obtain ⟨dom, -, pdom, -, h⟩ := h
    split at h
    · obtain rfl := Option.some.inj h
      rfl
    · cases h
  · cases h

theorem Gives.isEnabled (h : Gives v db z d x) : x.isEnabled = d.isEnabled :=
  h.elim fwdRow_isEnabled delegationRow_isEnabled

theorem mem_zoneEntries :
    x ∈ zoneEntries v db z ↔ ∃ d ∈ db.dnsRecord, d.isEnabled = true ∧ Gives v db z d x := by
  rw [zoneEntries, List.mem_filter, vDnsFwd, List.mem_append, List.mem_filterMap,
    List.mem_filterMap, ← exists_or, decide_eq_true_iff]
  constructor
  · rintro ⟨⟨d, hd⟩, hx⟩
    rw [← and_or_left] at hd
    exact ⟨d, hd.1, (Gives.isEnabled hd.2).symm.trans hx, hd.2⟩
  · rintro ⟨d, hd, hen, hgives⟩
    refine ⟨⟨d, ?_⟩, hgives.isEnabled.trans hen⟩
    rw [← and_or_left]
    exact ⟨hd, hgives⟩

theorem fwdRow_domain (h : fwdRow v db z d = some x) : d.dnsDomainId = z := by
  unfold fwdRow at h
  split at h
  · next hd => exact hd.1
  · cases h

theorem combo_eq_some :
    combo db nb d = some p ↔ MakesPtrOf d nb ∧
      ∃ dom, findDomain db.dnsDomain d.dnsDomainId = some dom ∧
        p = ⟨d.dnsTtl, ptrValue (shownName db.dnsRecord d) dom.dnsDomainName, d.isEnabled⟩ := by
  unfold combo
  split
  · next h =>
    rw [Option.map_eq_some_iff, and_iff_right h]
    exact exists_congr fun dom => and_congr_right fun _ => eq_comm
  · next h => simp [h]

/-- The enabled rows of `combo`. -/
def ptrs (db : Db) (nb : Netblock) : Set Combo :=
  {p | ∃ d ∈ db.dnsRecord, d.isEnabled = true ∧ combo db nb d = some p}

def reverseZones (v : Views) (db : Db) (nb : Netblock) : Set (ℕ × String) :=
  {z | ∃ d ∈ db.dnsRecord, reverseZone v db nb d = some z}

theorem addressPtrs_eq_prod :
    {x | x ∈ addressPtrs v db nb} = reverseZones v db nb ×ˢ ptrs db nb := by
  have hrow : ∀ {d p}, combo db nb d = some p → p.isEnabled = d.isEnabled := by
    intro d p h
    obtain ⟨-, dom, -, rfl⟩ := combo_eq_some.mp h
    rfl
  ext ⟨z, p⟩
  simp only [addressPtrs, vDnsRvs, reverseZones, ptrs, Set.mem_ofPred_eq, Set.mem_prod,
    List.mem_filter, List.mem_flatMap, List.mem_map, List.mem_filterMap, decide_eq_true_iff]
  constructor
  · rintro ⟨⟨row, ⟨d, hd, hp⟩, dd, hz, heq⟩, hen⟩
    obtain ⟨rfl, rfl⟩ := Prod.mk.inj heq
    exact ⟨hz, d, hd, (hrow hp).symm.trans hen, hp⟩
  · rintro ⟨hz, d, hd, hen, hp⟩
    exact ⟨⟨p, ⟨d, hd, hp⟩, z, hz, rfl⟩, (hrow hp).trans hen⟩

theorem toList_ptrValue_none : (ptrValue none domain).toList = domain.toList ++ ['.'] := by
  simp [ptrValue, concat]

theorem toList_ptrValue_some {s : String} :
    (ptrValue (some s) domain).toList = s.toList ++ '.' :: (domain.toList ++ ['.']) := by
  simp [ptrValue, concat]

theorem ptrValue_inj : ptrValue name domain = ptrValue name' domain ↔ name = name' := by
  refine ⟨fun h => ?_, fun h => h ▸ rfl⟩
  have hlist := congrArg String.toList h
  have hlength := congrArg List.length hlist
  cases name with
  | none =>
    cases name' with
    | none => rfl
    | some s' =>
      simp only [toList_ptrValue_none, toList_ptrValue_some, List.length_append,
        List.length_cons] at hlength
      omega
  | some s =>
    cases name' with
    | none =>
      simp only [toList_ptrValue_none, toList_ptrValue_some, List.length_append,
        List.length_cons] at hlength
      omega
    | some s' =>
      rw [toList_ptrValue_some, toList_ptrValue_some] at hlist
      rw [String.toList_inj.mp (List.append_cancel_right hlist)]

end JazzHands.Dns

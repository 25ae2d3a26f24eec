import JazzHands.Dns.Written
import JazzHands.Library.Runs

/-!
# No two records with one zone entry

`joinedValue_eq` says when the check sees that two values are one.  The step lemma is
`Written.entry_ne`: a record that is written has no entry that is there.  It needs the condition
only of the record whose entry the statement makes.
-/

namespace JazzHands.Dns

open Library Postgres

variable {t : List DnsRecord} {r q new old given : DnsRecord} {db db' : Db} {op : Op}
  {first : FirstRow (ℕ × ℕ)} {i j : ℕ}

/-! ## Zone entries -/

/-- A line of a zone, before the names of zones are added. -/
@[ext] structure ZoneEntry where
  dnsDomainId : ℕ
  dnsName : Option String
  dnsClass : String
  dnsType : String
  dnsSrvService : Option String
  dnsSrvProtocol : Option String
  dnsSrvWeight : Option ℤ
  dnsSrvPort : Option ℤ
  ipUniverseId : Option ℕ
  dnsValue : Option String
  ip : Option Inet
  deriving DecidableEq

/-- `coalesce(rdns.dns_name, d.dns_name)`. -/
def renderedName (t : List DnsRecord) (r : DnsRecord) : Option String :=
  ((r.referenceDnsRecordId.bind (findRecord t)).bind (·.dnsName)).or r.dnsName

def Db.domainName (db : Db) (dnsDomainId : ℕ) : Option String :=
  (db.dnsDomain.find? (·.dnsDomainId = dnsDomainId)).map (·.dnsDomainName)

/-- The column `dns_value` of `v_dns_fwd`. -/
def renderedValue (db : Db) (r : DnsRecord) : Option String :=
  if r.dnsValue ≠ none then r.dnsValue
  else if IsAddressType r.dnsType ∧ r.netblockId = none ∧ r.dnsValueRecordId ≠ none then none
  else
    match r.dnsValueRecordId.bind (findRecord db.dnsRecord) with
    | none => r.dnsValue
    | some dv =>
      if dv.dnsDomainId = r.dnsDomainId then dv.dnsName
      else some (dv.dnsName.getD "" ++ "." ++ (db.domainName dv.dnsDomainId).getD "" ++ ".")

/-- The column `netblock_id` of `v_dns_fwd`. -/
def netblockOf (t : List DnsRecord) (r : DnsRecord) : Option ℕ :=
  if r.dnsValueRecordId ≠ none ∧ IsAddressType r.dnsType then
    (r.dnsValueRecordId.bind (findRecord t)).bind (·.netblockId)
  else r.netblockId

/-- `host(ip)` of a netblock. -/
def Db.hostOf (db : Db) (netblockId : ℕ) : Option Inet :=
  (findNetblock db.netblock netblockId).map (·.ipAddress.host)

/-- The entry of a record; names are compared without regard to case. -/
def entry (db : Db) (r : DnsRecord) : ZoneEntry where
  dnsDomainId := r.dnsDomainId
  dnsName := (renderedName db.dnsRecord r).map lower
  dnsClass := r.dnsClass
  dnsType := r.dnsType
  dnsSrvService := r.dnsSrvService
  dnsSrvProtocol := r.dnsSrvProtocol
  dnsSrvWeight := r.dnsSrvWeight
  dnsSrvPort := r.dnsSrvPort
  ipUniverseId := r.ipUniverseId
  dnsValue := renderedValue db r
  ip := (netblockOf db.dnsRecord r).bind db.hostOf

/-- No two enabled records have the same entry. -/
def Distinct (db : Db) : Prop :=
  ∀ r q, (r ∈ db.dnsRecord ∧ r.isEnabled = true) → (q ∈ db.dnsRecord ∧ q.isEnabled = true) →
    r.dnsRecordId ≠ q.dnsRecordId → entry db r ≠ entry db q

/-! ## The rows of the table -/

/-- What `dns_a_rec_validation` and the key to `netblock` say of each row. -/
structure Validated (db : Db) (r : DnsRecord) : Prop where
  netblock : r.netblockId ≠ none → r.dnsValue = none ∧ r.dnsValueRecordId = none
  value : r.dnsValueRecordId ≠ none → r.dnsValue = none
  host : ∀ i ∈ r.netblockId, db.hostOf i ≠ none

/-- The keys hold, and each row is validated. -/
structure Valid (db : Db) : Prop where
  keys : Keys db.dnsRecord
  rows : ∀ r ∈ db.dnsRecord, Validated db r

theorem hostOf_ne_none (h : ∃ nb ∈ db.netblock, nb.netblockId = i) : db.hostOf i ≠ none := by
  obtain ⟨nb, hnb, hid⟩ := h
  rw [Db.hostOf, findNetblock, Ne, Option.map_eq_none_iff, List.find?_eq_none]
  exact fun hnone => hnone nb hnb (decide_eq_true hid)

theorem host_of_checkKeys (h : checkKeys db = .ok ()) (hr : r ∈ db.dnsRecord)
    (hi : i ∈ r.netblockId) : db.hostOf i ≠ none := by
  obtain ⟨-, h⟩ := bind_unit_eq_ok.mp h
  obtain ⟨hnetblock, -⟩ := bind_unit_eq_ok.mp h
  have hnetblock := raiseIf_eq_ok.mp hnetblock
  push Not at hnetblock
  exact hostOf_ne_none (hnetblock r hr i hi)

theorem Fits.validated (h : Fits db op given new) (hop : op.Of db.dnsRecord) :
    Validated (db.after op new) new := by
  obtain ⟨-, hchecks⟩ := h.checks
  refine ⟨hchecks.netblock, fun hv => ?_, fun i hi => host_of_checkKeys h.keys ?_ hi⟩
  · by_contra hne
    exact hv (hchecks.onlyValue hne)
  · exact (mem_writeRow hop).mpr (Or.inl rfl)

theorem Fits.valid (h : Fits db op given new) (hop : op.Of db.dnsRecord) (hv : Valid db) :
    Valid (db.after op new) where
  keys := h.keys_writeRow hv.keys hop
  rows r hr := by
    rcases (mem_writeRow hop).mp hr with rfl | ⟨hr, -⟩
    · exact h.validated hop
    · exact ⟨(hv.rows r hr).netblock, (hv.rows r hr).value, (hv.rows r hr).host⟩

/-! ## What the check compares -/

theorem Keys.joinedName (hkeys : Keys t) (hr : r ∈ t) :
    joinedName t r.dnsDomainId r = renderedName t r := by
  unfold Dns.joinedName renderedName
  cases href : r.referenceDnsRecordId with
  | none =>
    have hfind : t.find? (fun q => none = some q.dnsRecordId ∧ q.dnsDomainId = r.dnsDomainId) =
        none := List.find?_eq_none.mpr fun q _ hq => nomatch (of_decide_eq_true hq).1
    rw [hfind]
    rfl
  | some i =>
    obtain ⟨ref, hmem, hid, hzone⟩ := hkeys.reference r hr i href
    have hfind : t.find? (fun q => some i = some q.dnsRecordId ∧ q.dnsDomainId = r.dnsDomainId) =
        some ref :=
      Library.find?_eq_some_of_unique hmem ⟨congrArg some hid.symm, hzone⟩ fun q hq hcond =>
        hkeys.eq_of_id hq hmem ((Option.some_inj.mp hcond.1).symm.trans hid.symm)
    rw [hfind, Option.bind_some, Option.bind_some, hkeys.findRecord hmem hid, Option.bind_some]

/-- Two values that the check can tell apart: addresses that are there, values of one kind, with
different texts for different records, and different addresses for different netblocks. -/
structure Comparable (db : Db) (r q : DnsRecord) : Prop where
  address : IsAddressType r.dnsType →
    netblockOf db.dnsRecord r ≠ none ∧ netblockOf db.dnsRecord q ≠ none
  kind : ¬ IsAddressType r.dnsType → (r.dnsValueRecordId = none ↔ q.dnsValueRecordId = none)
  texts : ¬ IsAddressType r.dnsType → ∀ i ∈ r.dnsValueRecordId, ∀ j ∈ q.dnsValueRecordId,
    renderedValue db r = renderedValue db q → i = j
  hosts : ∀ i ∈ netblockOf db.dnsRecord r, ∀ j ∈ netblockOf db.dnsRecord q,
    db.hostOf i = db.hostOf j → i = j

theorem Valid.joinedValue_address (hv : Valid db) (hr : r ∈ db.dnsRecord)
    (hi : netblockOf db.dnsRecord r = some i) (htype : IsAddressType r.dnsType) :
    joinedValue db.dnsRecord r = (none, some i) := by
  have hrow := hv.rows r hr
  unfold netblockOf at hi
  unfold joinedValue
  cases hval : r.dnsValueRecordId with
  | none =>
    rw [if_neg (by simp [hval])] at hi
    rw [(hrow.netblock (by rw [hi]; nofun)).1, hi]
    rfl
  | some k =>
    rw [if_pos ⟨by rw [hval]; nofun, htype⟩, hval, Option.bind_some] at hi
    obtain ⟨dv, hdv, hnb⟩ := Option.bind_eq_some_iff.mp hi
    have hdvmem := (mem_of_findRecord hdv).1
    have hdvalue := ((hv.rows dv hdvmem).netblock (by rw [hnb]; nofun)).1
    rw [Option.bind_some, hdv, hrow.value (by rw [hval]; nofun)]
    simp [hnb, hdvalue]

theorem renderedValue_own (h : r.dnsValueRecordId = none) : renderedValue db r = r.dnsValue := by
  unfold renderedValue
  rw [h]
  split
  · rfl
  · rw [if_neg fun hand => hand.2.2 rfl]
    rfl

/-- A row with a record for its value has no value and no netblock of its own. -/
theorem Validated.joinedValue_target (h : Validated db r) (hi : r.dnsValueRecordId = some i) :
    joinedValue t r = (((findRecord t i).bind (·.dnsValue)), (findRecord t i).bind (·.netblockId)) := by
  have hnetblock : r.netblockId = none := by
    by_contra hne
    exact absurd ((h.netblock hne).2.symm.trans hi) nofun
  unfold joinedValue
  rw [hi, h.value (by rw [hi]; nofun), hnetblock]
  simp only [Option.bind_some, Option.or_none]

/-- **Records with one value are the same to the check** when their values are comparable. -/
theorem joinedValue_eq (hv : Valid db) (hr : r ∈ db.dnsRecord) (hq : q ∈ db.dnsRecord)
    (h : Comparable db r q) (heq : entry db r = entry db q) :
    joinedValue db.dnsRecord r = joinedValue db.dnsRecord q := by
  have htype : r.dnsType = q.dnsType := congrArg ZoneEntry.dnsType heq
  have hvalue : renderedValue db r = renderedValue db q := congrArg ZoneEntry.dnsValue heq
  have hip : (netblockOf db.dnsRecord r).bind db.hostOf = (netblockOf db.dnsRecord q).bind db.hostOf :=
    congrArg ZoneEntry.ip heq
  by_cases haddr : IsAddressType r.dnsType
  · obtain ⟨hi, hj⟩ := h.address haddr
    obtain ⟨i, hi⟩ := Option.ne_none_iff_exists'.mp hi
    obtain ⟨j, hj⟩ := Option.ne_none_iff_exists'.mp hj
    rw [hi, hj, Option.bind_some, Option.bind_some] at hip
    obtain rfl := h.hosts i hi j hj hip
    rw [hv.joinedValue_address hr hi haddr, hv.joinedValue_address hq hj (htype ▸ haddr)]
  · cases hrv : r.dnsValueRecordId with
    | none =>
      have hqv := (h.kind haddr).mp hrv
      rw [renderedValue_own hrv, renderedValue_own hqv] at hvalue
      have hrn : netblockOf db.dnsRecord r = r.netblockId := if_neg fun hand => hand.1 hrv
      have hqn : netblockOf db.dnsRecord q = q.netblockId := if_neg fun hand => hand.1 hqv
      have hnetblock : r.netblockId = q.netblockId := by
        have hhosts := h.hosts
        rw [hrn, hqn] at hip hhosts
        cases hrnb : r.netblockId with
        | none =>
          cases hqnb : q.netblockId with
          | none => rfl
          | some j =>
            rw [hrnb, hqnb] at hip
            exact absurd hip.symm ((hv.rows q hq).host j hqnb)
        | some i =>
          cases hqnb : q.netblockId with
          | none =>
            rw [hrnb, hqnb] at hip
            exact absurd hip ((hv.rows r hr).host i hrnb)
          | some j =>
            rw [hrnb, hqnb] at hip
            rw [hhosts i hrnb j hqnb hip]
      unfold joinedValue
      rw [hrv, hqv, hvalue, hnetblock]
    | some i =>
      obtain ⟨j, hqv⟩ := Option.ne_none_iff_exists'.mp fun hqv =>
        absurd (((h.kind haddr).mpr hqv).symm.trans hrv) nofun
      obtain rfl := h.texts haddr i hrv j hqv hvalue
      rw [(hv.rows r hr).joinedValue_target hrv, (hv.rows q hq).joinedValue_target hqv]

/-! ## One statement -/

/-- The records agree in all that the check compares, apart from their values. -/
def SamePlace (t : List DnsRecord) (r q : DnsRecord) : Prop :=
  (renderedName t r).map lower = (renderedName t q).map lower ∧ r.dnsDomainId = q.dnsDomainId ∧
    r.dnsClass = q.dnsClass ∧ r.dnsType = q.dnsType ∧ r.dnsSrvService = q.dnsSrvService ∧
    r.dnsSrvProtocol = q.dnsSrvProtocol ∧ r.dnsSrvPort = q.dnsSrvPort ∧
    r.ipUniverseId = q.ipUniverseId

theorem samePlace_of_entry (h : entry db r = entry db q) : SamePlace db.dnsRecord r q :=
  ⟨congrArg ZoneEntry.dnsName h, congrArg ZoneEntry.dnsDomainId h, congrArg ZoneEntry.dnsClass h,
    congrArg ZoneEntry.dnsType h, congrArg ZoneEntry.dnsSrvService h,
    congrArg ZoneEntry.dnsSrvProtocol h, congrArg ZoneEntry.dnsSrvPort h,
    congrArg ZoneEntry.ipUniverseId h⟩

/-- The record gets its entry by the statement. -/
def Rendered (db : Db) (op : Op) (new r : DnsRecord) : Prop :=
  Comes (entry db) (entry (db.after op new)) db.dnsRecord op new r
  deriving Decidable

/-- **The condition on a statement.**  Only the record that is written gets an entry by it, under its
own name, and its value is comparable with those of the enabled records at the same place. -/
def Compared (db : Db) (s : Statement × FirstRow (ℕ × ℕ)) : Prop :=
  ∀ op given new, Writes db s.1 op given → Fits db op given new →
    ∀ r, Rendered db op new r → r = new ∧
      (renderedName (db.after op new).dnsRecord new).map lower = new.dnsName.map lower ∧
      ∀ q ∈ (db.after op new).dnsRecord, q.isEnabled = true → q.dnsRecordId ≠ new.dnsRecordId →
        SamePlace (db.after op new).dnsRecord new q → Comparable (db.after op new) new q

/-- The check refuses a record with the entry of another one. -/
theorem Written.entry_ne (hw : Written first db op given new) (hop : op.Of db.dnsRecord)
    (hv : Valid db) (hname : (renderedName (db.after op new).dnsRecord new).map lower =
      new.dnsName.map lower) (hq : q ∈ (db.after op new).dnsRecord ∧ q.isEnabled = true)
    (hne : q.dnsRecordId ≠ new.dnsRecordId)
    (hcomp : SamePlace (db.after op new).dnsRecord new q → Comparable (db.after op new) new q) :
    entry (db.after op new) new ≠ entry (db.after op new) q := by
  intro heq
  have hv' := hw.valid hop hv
  have hplace := samePlace_of_entry heq
  have hvalue := joinedValue_eq hv' ((mem_writeRow hop).mpr (Or.inl rfl)) hq.1 (hcomp hplace) heq
  obtain ⟨hqname, hzone, hclass, htype, hservice, hprotocol, hport, huniverse⟩ := hplace
  obtain ⟨-, hafter⟩ := bind_unit_eq_ok.mp hw.after
  obtain ⟨-, hafter⟩ := bind_unit_eq_ok.mp hafter
  obtain ⟨hdups, -⟩ := bind_unit_eq_ok.mp hafter
  refine raiseIf_eq_ok.mp hdups ⟨q, hq.1, hne, ?_, hzone.symm, hclass.symm, htype.symm,
    hservice.symm, hprotocol.symm, hport.symm, huniverse.symm, hq.2, hvalue.symm⟩
  rw [hzone, hv'.keys.joinedName hq.1, ← hqname, hname]

theorem Written.distinct (hw : Written first db op given new) (hop : op.Of db.dnsRecord)
    (hv : Valid db) (hdist : Distinct db)
    (hcomp : ∀ r, Rendered db op new r → r = new ∧
      (renderedName (db.after op new).dnsRecord new).map lower = new.dnsName.map lower ∧
      ∀ q ∈ (db.after op new).dnsRecord, q.isEnabled = true → q.dnsRecordId ≠ new.dnsRecordId →
        SamePlace (db.after op new).dnsRecord new q → Comparable (db.after op new) new q) :
    Distinct (db.after op new) := by
  intro r q hr hq hne heq
  by_cases hrc : Rendered db op new r
  · obtain ⟨rfl, hname, hall⟩ := hcomp r hrc
    exact hw.entry_ne hop hv hname hq hne.symm (hall q hq.1 hq.2 hne.symm) heq
  · by_cases hqc : Rendered db op new q
    · obtain ⟨rfl, hname, hall⟩ := hcomp q hqc
      exact hw.entry_ne hop hv hname hr hne (hall r hr.1 hr.2 hne) heq.symm
    · -- both entries were there before
      obtain ⟨o, p, ho, hp, hop', hor, hpq⟩ := exists_before hop hr hq hne hrc hqc
      exact hdist o p ho hp hop' (hor.trans (heq.trans hpq.symm))

theorem Valid.entry_delete (hv : Valid db)
    (hkeys' : Keys (db.dnsRecord.filter (·.dnsRecordId ≠ i)))
    (hr : r ∈ db.dnsRecord.filter (·.dnsRecordId ≠ i)) :
    entry { db with dnsRecord := db.dnsRecord.filter (·.dnsRecordId ≠ i) } r = entry db r := by
  have hvalue : r.dnsValueRecordId.bind (findRecord (db.dnsRecord.filter (·.dnsRecordId ≠ i))) =
      r.dnsValueRecordId.bind (findRecord db.dnsRecord) := by
    refine Option.bind_congr fun k hk => ?_
    obtain ⟨q, hq, hid⟩ := hkeys'.value r hr k hk
    rw [hkeys'.findRecord hq hid, hv.keys.findRecord (List.mem_of_mem_filter hq) hid]
  have hreference :
      r.referenceDnsRecordId.bind (findRecord (db.dnsRecord.filter (·.dnsRecordId ≠ i))) =
        r.referenceDnsRecordId.bind (findRecord db.dnsRecord) := by
    refine Option.bind_congr fun k hk => ?_
    obtain ⟨q, hq, hid, -⟩ := hkeys'.reference r hr k hk
    rw [hkeys'.findRecord hq hid, hv.keys.findRecord (List.mem_of_mem_filter hq) hid]
  unfold entry renderedName renderedValue netblockOf
  dsimp only
  rw [hvalue, hreference]
  rfl

theorem distinct_step (hv : Valid db) (hdist : Distinct db)
    {s : Statement × FirstRow (ℕ × ℕ)} (hcomp : Compared db s) :
    Valid (step db s) ∧ Distinct (step db s) := by
  rcases step_cases db s with h | ⟨op, given, new, hs, hw, h⟩ | ⟨id, hcheck, h⟩
  · rw [h]
    exact ⟨hv, hdist⟩
  · rw [h]
    exact ⟨hw.valid hs.of hv, hw.distinct hs.of hv hdist (hcomp op given new hs hw.toFits)⟩
  · rw [h]
    have hkeys' := hv.keys.delete hcheck
    refine ⟨⟨hkeys', fun r hr => ?_⟩, fun r q hr hq hne => ?_⟩
    · have hrow := hv.rows r (List.mem_of_mem_filter hr)
      exact ⟨hrow.netblock, hrow.value, hrow.host⟩
    · rw [hv.entry_delete hkeys' hr.1, hv.entry_delete hkeys' hq.1]
      exact hdist r q ⟨List.mem_of_mem_filter hr.1, hr.2⟩ ⟨List.mem_of_mem_filter hq.1, hq.2⟩ hne

/-! ## Every run -/

/-- **No two enabled records have the same entry in any state of a run** whose statements meet the
condition. -/
theorem distinct_run (hv : Valid db) (hdist : Distinct db)
    {l : List (Statement × FirstRow (ℕ × ℕ))} (hl : AllSteps step Compared db l) :
    ∀ l', l' <+: l → Distinct (run step db l') := by
  rintro l' ⟨l'', rfl⟩
  refine (run_invariant (I := fun db : Db => Valid db ∧ Distinct db) (fun db s hdb hs => ?_)
    ⟨hv, hdist⟩ (AllSteps.append.mp hl).1).2
  exact distinct_step hdb.1 hdb.2 hs

theorem comparable_own (htype : ¬ IsAddressType r.dnsType) (hr : r.dnsValueRecordId = none)
    (hq : q.dnsValueRecordId = none) (hnb : r.netblockId = none) : Comparable db r q where
  address haddr := absurd haddr htype
  kind _ := iff_of_true hr hq
  texts _ i hi := absurd (hr.symm.trans hi) nofun
  hosts i hi := by
    have hnone : netblockOf db.dnsRecord r = none := (if_neg fun hand => hand.1 hr).trans hnb
    exact absurd (hnone.symm.trans hi) nofun

theorem compared_insert (hbefore : beforeTriggers db .insert given = .ok new)
    (hnew : ∀ r ∈ (db.after .insert new).dnsRecord, Rendered db .insert new r → r = new)
    (hname : (renderedName (db.after .insert new).dnsRecord new).map lower = new.dnsName.map lower)
    (hcomp : ∀ q ∈ (db.after .insert new).dnsRecord, Comparable (db.after .insert new) new q) :
    Compared db (.insert given, first) := by
  rintro op given' new' ⟨rfl, rfl⟩ hfits r hr
  obtain rfl := Except.ok.inj (hbefore.symm.trans hfits.before)
  exact ⟨hnew r hr.1 hr, hname, fun q hq _ _ _ => hcomp q hq⟩

theorem valid_emptyZone : Valid Db.emptyZone := ⟨.nil, fun _ hr => absurd hr List.not_mem_nil⟩

/-- Two records with one name and different values. -/
theorem distinct_run_www :
    let l : List (Statement × FirstRow (ℕ × ℕ)) :=
      [(.insert (textRecord 1 "www" "IN" "TXT" "one"), .listed _),
        (.insert (textRecord 2 "www" "IN" "TXT" "two"), .listed _)]
    Distinct (run step Db.emptyZone l) := by
  intro l
  refine distinct_run (l := l) valid_emptyZone (fun r q hr => absurd hr.1 List.not_mem_nil)
    ⟨?_, ?_, trivial⟩ l List.prefix_rfl
  · refine compared_insert rfl (by decide) rfl fun q hq => comparable_own (by decide) rfl ?_ rfl
    revert q
    decide
  · refine compared_insert rfl (by decide) rfl fun q hq => comparable_own (by decide) rfl ?_ rfl
    revert q
    decide

/-- A record that takes its name from another one and has its value. -/
theorem duplicate_by_reference :
    let r := textRecord 1 "www" "IN" "TXT" "one"
    let q := { r with dnsRecordId := 2, dnsName := none, referenceDnsRecordId := some 1 }
    let db := run step Db.emptyZone [(.insert r, .listed _), (.insert q, .listed _)]
    db.dnsRecord.map (·.dnsRecordId) = [1, 2] ∧ ¬ Distinct db := by
  refine ⟨by decide, fun h => ?_⟩
  exact h _ _ ⟨List.mem_cons_self, rfl⟩ ⟨List.mem_cons_of_mem _ List.mem_cons_self, rfl⟩ (by decide)
    (by decide)

end JazzHands.Dns

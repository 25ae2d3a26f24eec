import JazzHands.Dns.Written
import JazzHands.Library.Runs
import JazzHands.Netblock.Change

/-!
# Address records and their netblocks

A and AAAA records name a netblock, or take the one of another record.

`Addressed` is kept by statements on both tables: for a record by the lemmas on the row that is
written, and for a netblock because its trigger checks the records that name it.
-/

namespace JazzHands.Dns

open Library Postgres

/-! ## The triggers on `netblock` -/

/-- `nb_dns_a_rec_validation`.  The last error reads `NEW.dns_type`, which netblocks do not have. -/
def nbDnsARecValidation (t : List DnsRecord) (old new : Netblock) : Result Unit := do
  raiseIf (old.ipAddress.family ≠ new.ipAddress.family ∧ new.ipAddress.family = .inet6 ∧
      ∃ r ∈ t, (r.netblockId = some new.netblockId ∧ r.dnsType = "A") ∨
        ∃ d ∈ t, r.dnsValueRecordId = some d.dnsRecordId ∧ d.netblockId = some new.netblockId ∧
          d.dnsType = "A")
    .JH200 "A records must be assigned to IPv4 records"
  raiseIf (old.ipAddress.family ≠ new.ipAddress.family ∧ new.ipAddress.family = .inet4 ∧
      ∃ r ∈ t, (r.netblockId = some new.netblockId ∧ r.dnsType = "AAAA") ∨
        ∃ d ∈ t, r.dnsValueRecordId = some d.dnsRecordId ∧ d.netblockId = some new.netblockId ∧
          d.dnsType = "AAAA")
    .JH200 "AAAA records must be assigned to IPv6 records"
  raiseIf (new.isSingleAddress = false ∧
      ∃ r ∈ t, r.netblockId = some new.netblockId ∧ IsAddressType r.dnsType)
    .undefinedColumn "record \"new\" has no field \"dns_type\""

def checkIpUniverseNetblock (t : List DnsRecord) (old new : Netblock) : Result Unit :=
  raiseIf (∃ r ∈ t, (r.netblockId = some new.netblockId ∨ r.netblockId = some old.netblockId) ∧
      ∃ u ∈ r.ipUniverseId, u ≠ new.ipUniverseId)
    .foreignKeyViolation "IP Universes for netblocks must match dns records and netblocks"

/-- `UPDATE netblock`, as a transaction of its own.  `trigger_nb_dns_a_rec_validation` comes after
the other `BEFORE` triggers and sees the row as it is written; what these do to other rows does not
fire it. -/
def updateNetblock (schema : Schema) (order : ScanOrder) (db : Db) (netblockId : ℕ)
    (set : SetClause) : Result Db :=
  match findNetblock db.netblock netblockId with
  | none => .ok db
  | some old => do
    let x ← executeUpdate schema order db.netblock old set
    let new := (findNetblock x.netblock (set.netblockId.getD netblockId)).getD old
    (if set.ipAddress.isSome ∨ set.isSingleAddress.isSome then
      nbDnsARecValidation db.dnsRecord old new else .ok () : Result Unit)
    (if set.netblockId.isSome ∨ set.ipUniverseId.isSome then
      checkIpUniverseNetblock db.dnsRecord old new else .ok () : Result Unit)
    let t ← commit schema x
    .ok { db with netblock := t }

inductive Action where
  | record (s : Statement) (first : FirstRow (ℕ × ℕ))
  | netblock (netblockId : ℕ) (set : SetClause) (order : ScanOrder)

def perform (schema : Schema) (db : Db) : Action → Result Db
  | .record s first => execute first db s
  | .netblock netblockId set order => updateNetblock schema order db netblockId set

/-- The tables after an action: an error leaves them as they were. -/
def act (schema : Schema) (db : Db) (a : Action) : Db :=
  match perform schema db a with
  | .ok db' => db'
  | .error _ => db

/-! ## The rules -/

variable {schema : Schema} {order : ScanOrder} {db db' : Db} {op : Op} {s : Statement}
  {first : FirstRow (ℕ × ℕ)} {set : SetClause} {r d given new : DnsRecord} {nb nb' : Netblock}
  {i : ℕ} {t' : List Netblock} {dnsType : String}

/-- The record names the netblock, or the record that it takes its value from does. -/
def Resolves (db : Db) (r : DnsRecord) (nb : Netblock) : Prop :=
  nb ∈ db.netblock ∧ (r.netblockId = some nb.netblockId ∨
    ∃ d ∈ db.dnsRecord, r.dnsValueRecordId = some d.dnsRecordId ∧
      d.netblockId = some nb.netblockId)

/-- A single address of the family that belongs to the type. -/
structure Suits (dnsType : String) (nb : Netblock) : Prop where
  single : nb.isSingleAddress = true
  inet4 : dnsType = "A" → nb.ipAddress.family = .inet4
  inet6 : dnsType = "AAAA" → nb.ipAddress.family = .inet6

/-- Every A or AAAA record resolves to one netblock, which is a single address of its family. -/
def AddressesResolve (db : Db) : Prop :=
  ∀ r ∈ db.dnsRecord, IsAddressType r.dnsType →
    ∃ nb, Resolves db r nb ∧ Suits r.dnsType nb ∧ ∀ nb', Resolves db r nb' → nb' = nb

/-- Every record that names a netblock is in its universe. -/
def UniversesMatch (db : Db) : Prop :=
  ∀ r ∈ db.dnsRecord, ∀ nb ∈ db.netblock, r.netblockId = some nb.netblockId →
    r.ipUniverseId = some nb.ipUniverseId

/-- The rules, with the keys, and with what a value record is: of the same type, and it names a
netblock itself. -/
structure Addressed (db : Db) : Prop where
  keys : Keys db.dnsRecord
  wellFormed : WellFormed db.netblock
  named : ∀ r ∈ db.dnsRecord, ∀ i ∈ r.netblockId, ∃ nb ∈ db.netblock, nb.netblockId = i
  alone : ∀ r ∈ db.dnsRecord, r.netblockId ≠ none → r.dnsValueRecordId = none
  suits : ∀ r ∈ db.dnsRecord, IsAddressType r.dnsType → ∀ nb ∈ db.netblock,
    r.netblockId = some nb.netblockId → Suits r.dnsType nb
  value : ∀ r ∈ db.dnsRecord, IsAddressType r.dnsType → r.netblockId = none →
    ∃ d ∈ db.dnsRecord, r.dnsValueRecordId = some d.dnsRecordId ∧ d.dnsType = r.dnsType ∧
      d.netblockId ≠ none
  universes : UniversesMatch db

theorem Addressed.addressesResolve (h : Addressed db) : AddressesResolve db := by
  intro r hr ha
  cases hnb : r.netblockId with
  | some i =>
    obtain ⟨nb, hmem, rfl⟩ := h.named r hr i hnb
    refine ⟨nb, ⟨hmem, .inl hnb⟩, h.suits r hr ha nb hmem hnb, ?_⟩
    rintro nb' ⟨hmem', hnb' | ⟨d, -, hd, -⟩⟩
    · rw [hnb] at hnb'
      exact h.wellFormed.pk nb' hmem' nb hmem (Option.some.inj hnb').symm
    · rw [h.alone r hr (by simp [hnb])] at hd
      cases hd
  | none =>
    obtain ⟨d, hd, hvalue, htype, hnamed⟩ := h.value r hr ha hnb
    obtain ⟨i, hi⟩ := Option.ne_none_iff_exists'.mp hnamed
    obtain ⟨nb, hmem, rfl⟩ := h.named d hd i hi
    refine ⟨nb, ⟨hmem, .inr ⟨d, hd, hvalue, hi⟩⟩, ?_, ?_⟩
    · rw [← htype] at ha ⊢
      exact h.suits d hd ha nb hmem hi
    · rintro nb' ⟨hmem', hnb' | ⟨d', hd', hvalue', hi'⟩⟩
      · rw [hnb] at hnb'
        cases hnb'
      · rw [hvalue] at hvalue'
        obtain rfl := h.keys.eq_of_id hd hd' (Option.some.inj hvalue')
        rw [hi] at hi'
        exact h.wellFormed.pk nb' hmem' nb hmem (Option.some.inj hi').symm

/-! ## An `UPDATE` of a netblock -/

/-- The columns of netblocks that the rules are about. -/
def SameKind (nb nb' : Netblock) : Prop :=
  nb'.netblockId = nb.netblockId ∧ nb'.ipUniverseId = nb.ipUniverseId ∧
    nb'.isSingleAddress = nb.isSingleAddress ∧ nb'.ipAddress.family = nb.ipAddress.family

theorem family_eq_of_host {a b : Inet} (h : a.host = b.host) : a.family = b.family := by
  have hfamily := congrArg Inet.family h
  exact hfamily

theorem sameKind_of_standsFor (h : StandsFor nb nb') : SameKind nb nb' := by
  rcases h with rfl | ⟨p, hp⟩
  · exact ⟨rfl, rfl, rfl, rfl⟩
  · exact ⟨hp.netblockId, hp.ipUniverseId, hp.isSingleAddress, family_eq_of_host hp.host⟩

/-- What an `UPDATE` of a netblock does: `old` becomes `new`, which the triggers have seen, and the
other netblocks stay of their kind. -/
structure NetblockUpdated (db : Db) (t' : List Netblock) (old new : Netblock) : Prop where
  old_mem : old ∈ db.netblock
  wellFormed : WellFormed t'
  new_mem : new ∈ t'
  netblockId : new.netblockId = old.netblockId
  family : new.ipAddress.family = old.ipAddress.family ∧
      new.isSingleAddress = old.isSingleAddress ∨
    nbDnsARecValidation db.dnsRecord old new = .ok ()
  universe_eq : new.ipUniverseId = old.ipUniverseId ∨
    checkIpUniverseNetblock db.dnsRecord old new = .ok ()
  source : ∀ nb' ∈ t', nb' = new ∨ ∃ nb ∈ db.netblock, SameKind nb nb'
  image : ∀ nb ∈ db.netblock, ∃ nb' ∈ t', nb'.netblockId = nb.netblockId

theorem updateNetblock_ok (ht : WellFormed db.netblock) (hid : set.netblockId = none)
    (h : updateNetblock schema order db i set = .ok db') :
    db' = db ∨ ∃ t' old new, NetblockUpdated db t' old new ∧ db' = { db with netblock := t' } := by
  unfold updateNetblock at h
  cases hf : findNetblock db.netblock i with
  | none =>
    rw [hf] at h
    exact .inl (Except.ok.inj h).symm
  | some old =>
    rw [hf] at h
    dsimp only at h
    obtain ⟨x, hx, h⟩ := bind_eq_ok.mp h
    obtain ⟨hfamily, h⟩ := bind_unit_eq_ok.mp h
    obtain ⟨huniverse, h⟩ := bind_unit_eq_ok.mp h
    obtain ⟨t', ht', h⟩ := bind_eq_ok.mp h
    obtain rfl := Except.ok.inj h
    rcases change_update ht hf hx ht' with rfl | ⟨new, hc⟩
    · exact .inl rfl
    obtain ⟨hold, rfl⟩ := findNetblock_eq_some hf
    cases hc.writes with
    | @update _ _ _ n _ find fires complete row =>
      obtain ⟨hn, hip, -, hsingle, -, -, huni⟩ := complete_ok complete
      have hnew : new.netblockId = old.netblockId := by
        rw [row.netblockId, hn, SetClause.apply, hid]
        rfl
      have hfind : (findNetblock x.netblock (set.netblockId.getD old.netblockId)).getD old =
          new := by
        rw [hid, Option.getD_none, ← hnew, ← (commit_ok ht').1,
          hc.wellFormed.findNetblock_mem (hc.written_mem new rfl)]
        rfl
      rw [hfind] at hfamily huniverse
      refine .inr ⟨t', old, new, ⟨hold, hc.wellFormed, hc.written_mem new rfl, hnew, ?_, ?_,
        fun nb' hnb' => ?_, fun nb hnb => ?_⟩, rfl⟩
      · split at hfamily
        · exact .inr hfamily
        next hnot =>
          -- the columns are not named, and keep their values
          simp only [not_or, Bool.not_eq_true, Option.isSome_eq_false_iff,
            Option.isNone_iff_eq_none] at hnot
          refine .inl ⟨(family_eq_of_host row.host).trans ?_, ?_⟩
          · rw [SetClause.apply, hnot.1] at hip
            exact congrArg Inet.family (Option.some.inj hip).symm
          · rw [row.isSingleAddress]
            exact hsingle _ (by rw [SetClause.apply, hnot.2]; rfl)
      · split at huniverse
        · exact .inr huniverse
        next hnot =>
          simp only [not_or, Bool.not_eq_true, Option.isSome_eq_false_iff,
            Option.isNone_iff_eq_none] at hnot
          refine .inl (row.ipUniverseId.trans (huni _ ?_))
          rw [SetClause.apply, hnot.2]
          rfl
      · rcases hc.source_cases hnb' with hw | ⟨nb, hnb, -, hst⟩
        · exact .inl (Option.some.inj hw).symm
        · exact .inr ⟨nb, hnb, sameKind_of_standsFor hst⟩
      · by_cases hne : nb.netblockId = old.netblockId
        · exact ⟨new, hc.written_mem new rfl, hnew.trans hne.symm⟩
        · obtain ⟨nb', hnb', hkind⟩ := hc.image nb hnb fun o ho => Option.some.inj ho ▸ hne
          refine ⟨nb', hnb', ?_⟩
          rcases hkind with ⟨-, rfl⟩ | hmoved
          · rfl
          · obtain ⟨p, hp⟩ := hmoved.touched
            exact hp.netblockId

theorem Suits.of_sameKind (h : Suits dnsType nb) (hkind : SameKind nb nb') : Suits dnsType nb' where
  single := hkind.2.2.1.trans h.single
  inet4 := fun hA => hkind.2.2.2.trans (h.inet4 hA)
  inet6 := fun hA => hkind.2.2.2.trans (h.inet6 hA)

/-- The trigger keeps the records of the netblock on single addresses of their family. -/
theorem Suits.of_validation {old new : Netblock} (h : Suits r.dnsType old) (hr : r ∈ db.dnsRecord)
    (ha : IsAddressType r.dnsType) (hnb : r.netblockId = some new.netblockId)
    (hv : nbDnsARecValidation db.dnsRecord old new = .ok ()) : Suits r.dnsType new := by
  simp only [nbDnsARecValidation, bind_unit_eq_ok, raiseIf_eq_ok] at hv
  obtain ⟨hinet4, hinet6, hsingle⟩ := hv
  refine ⟨?_, fun hA => ?_, fun hA => ?_⟩
  · cases hs : new.isSingleAddress with
    | true => rfl
    | false => exact absurd ⟨hs, r, hr, hnb, ha⟩ hsingle
  · have hold := h.inet4 hA
    cases hfam : new.ipAddress.family with
    | inet4 => rfl
    | inet6 =>
      refine absurd ⟨?_, hfam, r, hr, .inl ⟨hnb, hA⟩⟩ hinet4
      rw [hold, hfam]
      exact fun h => by cases h
  · have hold := h.inet6 hA
    cases hfam : new.ipAddress.family with
    | inet6 => rfl
    | inet4 =>
      refine absurd ⟨?_, hfam, r, hr, .inl ⟨hnb, hA⟩⟩ hinet6
      rw [hold, hfam]
      exact fun h => by cases h

theorem NetblockUpdated.addressed {old new : Netblock} (h : NetblockUpdated db t' old new)
    (hdb : Addressed db) : Addressed { db with netblock := t' } where
  keys := hdb.keys
  wellFormed := h.wellFormed
  named := fun r hr i hi => by
    obtain ⟨nb, hnb, rfl⟩ := hdb.named r hr i hi
    exact h.image nb hnb
  alone := hdb.alone
  suits := fun r hr ha nb' hnb' hnamed => by
    rcases h.source nb' hnb' with rfl | ⟨nb, hnb, hkind⟩
    · have hold := hdb.suits r hr ha old h.old_mem (by rw [hnamed, h.netblockId])
      rcases h.family with hsame | hv
      · exact ⟨hsame.2.trans hold.single, fun hA => hsame.1.trans (hold.inet4 hA),
          fun hA => hsame.1.trans (hold.inet6 hA)⟩
      · exact hold.of_validation hr ha hnamed hv
    · refine (hdb.suits r hr ha nb hnb ?_).of_sameKind hkind
      rw [hnamed, hkind.1]
  value := hdb.value
  universes := fun r hr nb' hnb' hnamed => by
    rcases h.source nb' hnb' with rfl | ⟨nb, hnb, hkind⟩
    · have hold := hdb.universes r hr old h.old_mem (by rw [hnamed, h.netblockId])
      rcases h.universe_eq with hsame | hcheck
      · rw [hold, hsame]
      · have hnot := raiseIf_eq_ok.mp hcheck
        by_contra hne
        refine hnot ⟨r, hr, .inl hnamed, old.ipUniverseId, hold, fun heq => hne ?_⟩
        rw [hold, heq]
    · rw [hdb.universes r hr nb hnb (by rw [hnamed, hkind.1]), hkind.2.1]

/-! ## A statement on `dns_record` -/

/-- The condition on a row that is written. -/
structure Supplied (db : Db) (op : Op) (given : DnsRecord) : Prop where
  /-- The record that an address record takes its value from names a netblock. -/
  value : IsAddressType given.dnsType → ∀ i ∈ given.dnsValueRecordId, i ≠ given.dnsRecordId ∧
    ∃ d ∈ db.dnsRecord, d.dnsRecordId = i ∧ d.netblockId ≠ none
  /-- A record that another address record takes its value from keeps its type, and names a
  netblock. -/
  kept : ∀ old ∈ op.old, ∀ r ∈ db.dnsRecord, r.dnsRecordId ≠ old.dnsRecordId →
    IsAddressType r.dnsType → r.dnsValueRecordId = some old.dnsRecordId →
      given.dnsType = old.dnsType ∧ given.netblockId ≠ none
  /-- An `UPDATE` that fires no check of the universe leaves the record in that of its netblock. -/
  universe_eq : ¬ op.Fires [.dnsRecordId, .ipUniverseId] → ∀ nb ∈ db.netblock,
    given.netblockId = some nb.netblockId → given.ipUniverseId = some nb.ipUniverseId

theorem named_of_checkKeys (h : checkKeys db = .ok ()) :
    ∀ r ∈ db.dnsRecord, ∀ i ∈ r.netblockId, ∃ nb ∈ db.netblock, nb.netblockId = i := by
  obtain ⟨-, h⟩ := bind_unit_eq_ok.mp h
  obtain ⟨hnamed, -⟩ := bind_unit_eq_ok.mp h
  have hnamed := raiseIf_eq_ok.mp hnamed
  push Not at hnamed
  exact hnamed

theorem ARecordChecks.suits (h : ARecordChecks db new) (ht : WellFormed db.netblock)
    (ha : IsAddressType new.dnsType) (hnb : nb ∈ db.netblock)
    (hnamed : new.netblockId = some nb.netblockId) : Suits new.dnsType nb := by
  have hfind : nb ∈ new.netblockId.bind (findNetblock db.netblock) := by
    rw [hnamed, Option.bind_some, ht.findNetblock_mem hnb]
    rfl
  exact ⟨h.single ha nb hfind, fun hA => h.inet4 hA nb hfind, fun hA => h.inet6 hA nb hfind⟩

section

variable (h : Written first db op given new) (hs : Supplied db op given)
include h hs

/-- The row that is written is in the universe of its netblock. -/
theorem Written.universe_eq (hnb : nb ∈ db.netblock)
    (hnamed : new.netblockId = some nb.netblockId) :
    new.ipUniverseId = some nb.ipUniverseId := by
  by_cases hfires : op.Fires [.dnsRecordId, .ipUniverseId]
  · obtain ⟨-, hafter⟩ := bind_unit_eq_ok.mp h.after
    obtain ⟨hcheck, -⟩ := bind_unit_eq_ok.mp hafter
    rw [Op.on, if_pos hfires, checkIpUniverseDnsRecord, raiseIf_eq_ok] at hcheck
    by_contra hne
    refine hcheck ⟨nb, hnb, ?_, Ne.symm hne⟩
    rw [← hnamed]
    unfold Op.netblocks
    split
    · exact List.mem_singleton_self _
    · split
      · simp
      · exact List.mem_singleton_self _
  · obtain ⟨rfl, -⟩ := h.checks
    obtain ⟨u, hu⟩ := fillIpUniverse_eq db given
    rw [hu] at hnamed
    have huniverse := hs.universe_eq hfires nb hnb hnamed
    rw [fillIpUniverse, if_neg (by simp [huniverse]), huniverse]

section

variable (hdb : Addressed db) (hop : op.Of db.dnsRecord)
include hdb hop

theorem Written.value (ha : IsAddressType new.dnsType) (hnone : new.netblockId = none) :
    ∃ d ∈ writeRow db.dnsRecord op new, new.dnsValueRecordId = some d.dnsRecordId ∧
      d.dnsType = new.dnsType ∧ d.netblockId ≠ none := by
  obtain ⟨hfill, hchecks⟩ := h.checks
  obtain ⟨u, hu⟩ := fillIpUniverse_eq db given
  have htype : new.dnsType = given.dnsType := by rw [hfill, hu]
  have hvalue : new.dnsValueRecordId = given.dnsValueRecordId := by rw [hfill, hu]
  have hid : new.dnsRecordId = given.dnsRecordId := by rw [hfill, hu]
  have hsome := (hchecks.supplied ha).resolve_left (not_not.mpr hnone)
  obtain ⟨i, hi⟩ := Option.ne_none_iff_exists'.mp hsome
  obtain ⟨d, hd, hdi, hdtype, -⟩ := hchecks.value ha i hi
  rw [htype] at ha
  obtain ⟨hne, d', hd', hdi', hnamed⟩ := hs.value ha i (hvalue ▸ hi)
  obtain rfl := hdb.keys.eq_of_id hd hd' (hdi.trans hdi'.symm)
  refine ⟨d, (mem_writeRow hop).mpr (.inr ⟨hd, ?_⟩), by rw [hi, hdi], hdtype, hnamed⟩
  -- the foreign key finds the record after the statement, and it is not the written row
  have hkeys := h.keys_writeRow hdb.keys hop
  obtain ⟨q, hq, hqi⟩ := hkeys.value new ((mem_writeRow hop).mpr (.inl rfl)) i hi
  rcases (mem_writeRow hop).mp hq with rfl | ⟨hq, hstays⟩
  · exact absurd (hqi.symm.trans hid) hne
  · rwa [hdb.keys.eq_of_id hd hq (hdi.trans hqi.symm)]

/-- The record that a row that stays takes its value from. -/
theorem Written.value_of_stays (hr : r ∈ db.dnsRecord) (hstays : Stays op r)
    (ha : IsAddressType r.dnsType) (hnone : r.netblockId = none) :
    ∃ d ∈ writeRow db.dnsRecord op new, r.dnsValueRecordId = some d.dnsRecordId ∧
      d.dnsType = r.dnsType ∧ d.netblockId ≠ none := by
  obtain ⟨d, hd, hvalue, htype, hnamed⟩ := hdb.value r hr ha hnone
  by_cases hdstays : Stays op d
  · exact ⟨d, (mem_writeRow hop).mpr (.inr ⟨hd, hdstays⟩), hvalue, htype, hnamed⟩
  · unfold Stays at hdstays
    push Not at hdstays
    obtain ⟨old, hold, hid⟩ := hdstays
    obtain rfl := hdb.keys.eq_of_id hd (hop old hold) hid
    obtain ⟨hgtype, hgnamed⟩ := hs.kept d hold r hr (hstays d hold) ha hvalue
    obtain ⟨hfill, -⟩ := h.checks
    obtain ⟨u, hu⟩ := fillIpUniverse_eq db given
    -- the foreign key finds the record under its id, so that this is the written row
    have hkeys := h.keys_writeRow hdb.keys hop
    obtain ⟨q, hq, hqi⟩ := hkeys.value r ((mem_writeRow hop).mpr (.inr ⟨hr, hstays⟩)) _ hvalue
    rcases (mem_writeRow hop).mp hq with rfl | ⟨hq, hqstays⟩
    · refine ⟨q, hq, by rw [hvalue, hqi], ?_, ?_⟩
      · rw [← htype, ← hgtype, hfill, hu]
      · rw [hfill, hu]
        exact hgnamed
    · exact absurd hqi (hqstays d hold)

theorem Written.addressed :
    Addressed (db.after op new) where
  keys := h.keys_writeRow hdb.keys hop
  wellFormed := hdb.wellFormed
  named := named_of_checkKeys h.keys
  alone := fun r hr hnamed => by
    rcases (mem_writeRow hop).mp hr with rfl | ⟨hr, -⟩
    · exact (h.checks.2.netblock hnamed).2
    · exact hdb.alone r hr hnamed
  suits := fun r hr ha nb hnb hnamed => by
    rcases (mem_writeRow hop).mp hr with rfl | ⟨hr, -⟩
    · exact h.checks.2.suits hdb.wellFormed ha hnb hnamed
    · exact hdb.suits r hr ha nb hnb hnamed
  value := fun r hr ha hnone => by
    rcases (mem_writeRow hop).mp hr with rfl | ⟨hr, hstays⟩
    · exact h.value hs hdb hop ha hnone
    · exact h.value_of_stays hs hdb hop hr hstays ha hnone
  universes := fun r hr nb hnb hnamed => by
    rcases (mem_writeRow hop).mp hr with rfl | ⟨hr, -⟩
    · exact h.universe_eq hs hnb hnamed
    · exact hdb.universes r hr nb hnb hnamed

end

end

theorem Addressed.delete (hdb : Addressed db)
    (h : checkKeys { db with dnsRecord := db.dnsRecord.filter (·.dnsRecordId ≠ i) } = .ok ()) :
    Addressed { db with dnsRecord := db.dnsRecord.filter (·.dnsRecordId ≠ i) } := by
  have hmem : ∀ {r}, r ∈ db.dnsRecord.filter (·.dnsRecordId ≠ i) → r ∈ db.dnsRecord :=
    fun hr => (List.mem_filter.mp hr).1
  have hkeys := hdb.keys.delete h
  refine ⟨hkeys, hdb.wellFormed, named_of_checkKeys h, fun r hr => hdb.alone r (hmem hr),
    fun r hr => hdb.suits r (hmem hr), fun r hr ha hnone => ?_,
    fun r hr => hdb.universes r (hmem hr)⟩
  obtain ⟨d, hd, hvalue, htype, hnamed⟩ := hdb.value r (hmem hr) ha hnone
  obtain ⟨q, hq, hqi⟩ := hkeys.value r hr _ hvalue
  obtain rfl := hdb.keys.eq_of_id hd (hmem hq) hqi.symm
  exact ⟨d, hq, hvalue, htype, hnamed⟩

/-! ## Runs -/

/-- The condition on an action: a row is written as `Supplied` says, and an `UPDATE` of a netblock
does not name its key. -/
def Allowed (db : Db) : Action → Prop
  | .record s _ => ∀ op given, Writes db s op given → Supplied db op given
  | .netblock _ set _ => set.netblockId = none

theorem act_addressed {a : Action} (hdb : Addressed db) (ha : Allowed db a) :
    Addressed (act schema db a) := by
  unfold act
  cases h : perform schema db a with
  | error e => exact hdb
  | ok db' =>
    cases a with
    | netblock id set order =>
      rcases updateNetblock_ok hdb.wellFormed ha h with heq | ⟨t', old, new, hupdated, heq⟩
      · exact heq ▸ hdb
      · exact heq ▸ hupdated.addressed hdb
    | record s first =>
      have hstep : step db (s, first) = db' := by
        rw [step, show execute first db s = .ok db' from h]
      rcases step_cases db (s, first) with heq | ⟨op, given, new, hw, hwritten, heq⟩ |
        ⟨i, hcheck, heq⟩
      · rw [← hstep, heq]
        exact hdb
      · rw [← hstep, heq]
        exact hwritten.addressed (ha op given hw) hdb hw.of
      · rw [← hstep, heq]
        exact hdb.delete hcheck

/-- In every run of allowed actions every A and AAAA record resolves to one single address of its
family, and every record that names a netblock is in its universe. -/
theorem addresses_run {l : List Action} (hdb : Addressed db)
    (hl : AllSteps (act schema) Allowed db l) :
    AddressesResolve (run (act schema) db l) ∧ UniversesMatch (run (act schema) db l) := by
  have h : Addressed (run (act schema) db l) :=
    run_invariant (fun _ _ => act_addressed) hdb hl
  exact ⟨h.addressesResolve, h.universes⟩

/-- A zone without records, and one address. -/
def Db.oneAddress : Db :=
  ⟨[], [⟨1, "example.com", none⟩], [⟨1, .v4 10 0 0 5 32, "dns", true, false, none, 0⟩], []⟩

theorem addressed_oneAddress : Addressed .oneAddress where
  keys := .nil
  wellFormed := by decide
  named := fun _ hr => absurd hr List.not_mem_nil
  alone := fun _ hr => absurd hr List.not_mem_nil
  suits := fun _ hr => absurd hr List.not_mem_nil
  value := fun _ hr => absurd hr List.not_mem_nil
  universes := fun _ hr => absurd hr List.not_mem_nil

/-- An A record with a netblock, or with the value of another record. -/
def addressRecord (id : ℕ) (name : String) (netblockId dnsValueRecordId : Option ℕ) : DnsRecord :=
  ⟨id, some name, 1, none, "IN", "A", none, none, none, none, none, none, netblockId, some 0, none,
    dnsValueRecordId, false, true⟩

/-- A record for the address, a second one with its value, and another address. -/
def shared : List Action :=
  [.record (.insert (addressRecord 1 "a" (some 1) none)) (.listed _),
    .record (.insert (addressRecord 2 "b" none (some 1))) (.listed _),
    .netblock 1 { ipAddress := some (some (.v4 10 0 0 6 32)) } .asIs]

theorem addresses_run_shared :
    AddressesResolve (run (act .initial) .oneAddress shared) ∧
      UniversesMatch (run (act .initial) .oneAddress shared) := by
  refine addresses_run addressed_oneAddress ⟨?_, ?_, rfl, trivial⟩
  · rintro op given ⟨rfl, rfl⟩
    exact ⟨fun _ i hi => absurd hi (Option.not_mem_none i), fun o ho => absurd ho
      (Option.not_mem_none o), fun hnot => absurd trivial hnot⟩
  · rintro op given ⟨rfl, rfl⟩
    refine ⟨fun _ i hi => ?_, fun o ho => absurd ho (Option.not_mem_none o),
      fun hnot => absurd trivial hnot⟩
    obtain rfl := Option.some.inj hi
    exact ⟨by decide, by decide⟩

/-- A record with the value of one that has the value of a third. -/
def chained : List Action :=
  [.record (.insert (addressRecord 1 "a" (some 1) none)) (.listed _),
    .record (.insert (addressRecord 2 "b" none (some 1))) (.listed _),
    .record (.insert (addressRecord 3 "c" none (some 2))) (.listed _)]

theorem chained_breaks : Addressed .oneAddress ∧
    ¬ AddressesResolve (run (act .initial) .oneAddress chained) := by
  refine ⟨addressed_oneAddress, fun hresolve => ?_⟩
  have hrecords : (run (act .initial) .oneAddress chained).dnsRecord =
      [addressRecord 1 "a" (some 1) none, addressRecord 2 "b" none (some 1),
        addressRecord 3 "c" none (some 2)] := by decide
  obtain ⟨nb, ⟨-, hnb | ⟨d, hd, hvalue, hnb⟩⟩, -⟩ := hresolve (addressRecord 3 "c" none (some 2))
    (by rw [hrecords]; simp) (.inl rfl)
  · cases hnb
  · rw [hrecords] at hd
    simp only [List.mem_cons, List.not_mem_nil, or_false] at hd
    rcases hd with rfl | rfl | rfl
    · exact absurd hvalue (by decide)
    · cases hnb
    · cases hnb

end JazzHands.Dns

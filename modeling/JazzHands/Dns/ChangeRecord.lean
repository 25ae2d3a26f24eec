import JazzHands.Dns.Written
import JazzHands.Netblock.Effects
import JazzHands.Postgres.RowEvent

/-!
# What `dns_record_update_nontime` logs

After a statement on `dns_record` the trigger puts rows into `dns_change_record`, from which zones are
made anew.
-/

namespace JazzHands.Dns

open Postgres

structure DnsChangeRecord where
  dnsDomainId : Option ℕ
  ipAddress : Option Inet

def Mkold : RowEvent DnsRecord → Prop
  | .delete _ => True
  | .insert _ => False
  | .update old new => old.dnsDomainId ≠ new.dnsDomainId ∨
      old.shouldGeneratePtr ≠ new.shouldGeneratePtr ∨ old.netblockId ≠ new.netblockId

instance : DecidablePred Mkold
  | .delete _ => inferInstanceAs (Decidable True)
  | .insert _ => inferInstanceAs (Decidable False)
  | .update _ _ => inferInstanceAs (Decidable (_ ∨ _))

/-- `_mkip`, where `NULL` counts as false. -/
def Mkip : RowEvent DnsRecord → Prop
  | .delete old => old.netblockId ≠ none
  | .insert new => new.netblockId ≠ none
  | .update old new => old.dnsDomainId ≠ new.dnsDomainId ∨
      (old.dnsName ≠ new.dnsName ∧ IsAddressType new.dnsType ∧ new.shouldGeneratePtr = true) ∨
      old.shouldGeneratePtr ≠ new.shouldGeneratePtr ∨ old.netblockId ≠ new.netblockId

instance : DecidablePred Mkip
  | .delete old => inferInstanceAs (Decidable (old.netblockId ≠ none))
  | .insert new => inferInstanceAs (Decidable (new.netblockId ≠ none))
  | .update _ _ => inferInstanceAs (Decidable (_ ∨ _))

def ipaddr (db : Db) (e : RowEvent DnsRecord) (netblockId : Option ℕ) : Option Inet :=
  if Mkip e then (netblockId.bind (findNetblock db.netblock)).map (·.ipAddress) else none

/-- The other zones with records that take their values from `NEW`. -/
def pointingZones (t : List DnsRecord) : RowEvent DnsRecord → List ℕ
  | .insert new => ((t.filter fun r => r.dnsValueRecordId = some new.dnsRecordId ∧
      r.dnsDomainId ≠ new.dnsDomainId).map (·.dnsDomainId)).dedup
  | .update old new => ((t.filter fun r => r.dnsValueRecordId = some new.dnsRecordId ∧
      r.dnsDomainId ∉ [old.dnsDomainId, new.dnsDomainId]).map (·.dnsDomainId)).dedup
  | .delete _ => []

/-- `dns_record_update_nontime`.  `_mkdom` is always set, and `_mknew` when there is a new row. -/
def dnsRecordUpdateNontime (db : Db) (e : RowEvent DnsRecord) : List DnsChangeRecord :=
  ((if Mkold e then e.old? else none).toList.map fun old =>
    ⟨some old.dnsDomainId, ipaddr db e old.netblockId⟩) ++
  (e.new?.toList.map fun new => ⟨some new.dnsDomainId, ipaddr db e new.netblockId⟩) ++
  (pointingZones db.dnsRecord e).map fun z => ⟨some z, none⟩

/-- The row that a statement is about, as its `AFTER` triggers see it: of the `BEFORE` triggers only
`dns_a_rec_validation` changes a row. -/
def rowEvent (db : Db) : Statement → Option (RowEvent DnsRecord)
  | .insert given => some (.insert (fillIpUniverse db given))
  | .update id columns values => (findRecord db.dnsRecord id).map fun old =>
      .update old (fillIpUniverse db (old.set values columns))
  | .delete id => (findRecord db.dnsRecord id).map .delete

/-- A statement, with the rows that it puts into `dns_change_record`. -/
def executeLogged (first : FirstRow (ℕ × ℕ)) (db : Db) (s : Statement) :
    Result (Db × List DnsChangeRecord) := do
  let db' ← execute first db s
  .ok (db', (rowEvent db s).toList.flatMap (dnsRecordUpdateNontime db'))

/-- The zones of `OLD` and `NEW`, and of the records that take their values from `NEW`. -/
def NamesZone (t : List DnsRecord) (e : RowEvent DnsRecord) (z : ℕ) : Prop :=
  (∃ o ∈ e.old?, o.dnsDomainId = z) ∨
    ∃ n ∈ e.new?, n.dnsDomainId = z ∨
      ∃ r ∈ t, r.dnsValueRecordId = some n.dnsRecordId ∧ r.dnsDomainId = z

/-- The addresses of `OLD` and `NEW`, when addresses are logged. -/
def NamesAddress (db : Db) (e : RowEvent DnsRecord) (ip : Inet) : Prop :=
  Mkip e ∧ ∃ nb ∈ db.netblock, nb.ipAddress = ip ∧
    ∃ r, (r ∈ e.old? ∨ r ∈ e.new?) ∧ r.netblockId = some nb.netblockId

/-- The record is another one than `OLD`. -/
def Other (e : RowEvent DnsRecord) (r : DnsRecord) : Prop :=
  ∀ o ∈ e.old?, r.dnsRecordId ≠ o.dnsRecordId

/-- The constraints on the tables: the keys of `dns_record`, `fk_dnsid_dnsdom_id`, those of
`netblock`, and `ak_dns_record_generate_ptr`. -/
structure Constraints (db : Db) : Prop where
  keys : Keys db.dnsRecord
  domain : ∀ r ∈ db.dnsRecord, ∃ dom ∈ db.dnsDomain, dom.dnsDomainId = r.dnsDomainId
  netblock : WellFormed db.netblock
  generatePtr : ∀ r ∈ db.dnsRecord, ∀ q ∈ db.dnsRecord, r.shouldGeneratePtr = true →
    IsAddressType r.dnsType → r.netblockId ≠ none → q.shouldGeneratePtr = true →
      IsAddressType q.dnsType → q.netblockId = r.netblockId → r.dnsRecordId = q.dnsRecordId

/-! ## What a statement does to the table -/

variable {db db' : Db} {e : RowEvent DnsRecord} {s : Statement} {op : Op}
  {first : FirstRow (ℕ × ℕ)} {l : List DnsChangeRecord} {r old new given : DnsRecord}
  {z : ℕ}

/-- The rows of `db'` are those of `db`, without `OLD` and with `NEW`. -/
structure Changed (db db' : Db) (e : RowEvent DnsRecord) : Prop where
  dnsDomain : db'.dnsDomain = db.dnsDomain
  netblock : db'.netblock = db.netblock
  before : Constraints db
  after : Constraints db'
  mem : ∀ r, r ∈ db'.dnsRecord ↔ r ∈ e.new? ∨ (r ∈ db.dnsRecord ∧ Other e r)
  old_mem : ∀ o ∈ e.old?, o ∈ db.dnsRecord
  fresh : ∀ n ∈ e.new?, ∀ r ∈ db.dnsRecord, Other e r → r.dnsRecordId ≠ n.dnsRecordId
  update : ∀ old new, e = .update old new →
    db'.dnsRecord = writeRow db.dnsRecord (.update old []) new

theorem domain_of_checkKeys (h : checkKeys db = .ok ()) :
    ∀ r ∈ db.dnsRecord, ∃ dom ∈ db.dnsDomain, dom.dnsDomainId = r.dnsDomainId := by
  obtain ⟨h, -⟩ := bind_unit_eq_ok.mp h
  have h := raiseIf_eq_ok.mp h
  push Not at h
  exact h

def Op.event (op : Op) (new : DnsRecord) : RowEvent DnsRecord :=
  match op with
  | .insert => .insert new
  | .update old _ => .update old new

theorem old?_event : (op.event new).old? = op.old := by
  cases op <;> rfl

theorem new?_event : (op.event new).new? = some new := by
  cases op <;> rfl

theorem other_event : Other (op.event new) r ↔ Stays op r := by
  unfold Other Stays
  rw [old?_event]

/-- No other record makes the PTR of the address of the row that is written. -/
theorem Fits.generatePtr (h : Fits db op given new) (hr : r ∈ db.dnsRecord) (hstays : Stays op r)
    (hnew : new.shouldGeneratePtr = true ∧ IsAddressType new.dnsType ∧ new.netblockId ≠ none) :
    ¬ (r.shouldGeneratePtr = true ∧ IsAddressType r.dnsType ∧ r.netblockId = new.netblockId) := by
  obtain ⟨-, hrow⟩ := bind_unit_eq_ok.mp h.row
  obtain ⟨-, hrow⟩ := bind_unit_eq_ok.mp hrow
  obtain ⟨-, hrow⟩ := bind_unit_eq_ok.mp hrow
  exact fun hr' => raiseIf_eq_ok.mp hrow
    ⟨hnew.1, hnew.2.1, hnew.2.2, r, List.mem_filter.mpr ⟨hr, decide_eq_true hstays⟩, hr'⟩

theorem Fits.constraints (h : Fits db op given new) (hdb : Constraints db)
    (hop : op.Of db.dnsRecord) : Constraints (db.after op new) where
  keys := h.keys_writeRow hdb.keys hop
  domain := domain_of_checkKeys h.keys
  netblock := hdb.netblock
  generatePtr := fun r hr q hq hrp hra hrnb hqp hqa hqnb => by
    rcases (mem_writeRow hop).mp hr with rfl | ⟨hr', hrs⟩
    · rcases (mem_writeRow hop).mp hq with rfl | ⟨hq', hqs⟩
      · rfl
      · exact absurd ⟨hqp, hqa, hqnb⟩ (h.generatePtr hq' hqs ⟨hrp, hra, hrnb⟩)
    · rcases (mem_writeRow hop).mp hq with rfl | ⟨hq', hqs⟩
      · exact absurd ⟨hrp, hra, hqnb.symm⟩ (h.generatePtr hr' hrs ⟨hqp, hqa, hqnb ▸ hrnb⟩)
      · exact hdb.generatePtr r hr' q hq' hrp hra hrnb hqp hqa hqnb

theorem Fits.changed (h : Fits db op given new) (hdb : Constraints db) (hop : op.Of db.dnsRecord) :
    Changed db (db.after op new) (op.event new) where
  dnsDomain := rfl
  netblock := rfl
  before := hdb
  after := h.constraints hdb hop
  mem := fun r => by
    rw [new?_event, Option.mem_some_iff, other_event, eq_comm]
    exact mem_writeRow hop
  old_mem := by
    rw [old?_event]
    exact hop
  fresh := fun n hn r hr hother => by
    rw [new?_event, Option.mem_some_iff] at hn
    exact hn ▸ h.not_dup hr (other_event.mp hother)
  update := fun o n heq => by
    cases op with
    | insert => cases heq
    | update old columns =>
      cases heq
      rfl

theorem changed_delete (hdb : Constraints db) (hold : old ∈ db.dnsRecord)
    (h : checkKeys { db with
      dnsRecord := db.dnsRecord.filter (·.dnsRecordId ≠ old.dnsRecordId) } = .ok ()) :
    Changed db { db with dnsRecord := db.dnsRecord.filter (·.dnsRecordId ≠ old.dnsRecordId) }
      (.delete old) where
  dnsDomain := rfl
  netblock := rfl
  before := hdb
  after :=
    { keys := hdb.keys.delete h
      domain := domain_of_checkKeys h
      netblock := hdb.netblock
      generatePtr := fun r hr q hq => hdb.generatePtr r (List.mem_filter.mp hr).1 q
        (List.mem_filter.mp hq).1 }
  mem := fun r => by
    rw [List.mem_filter, decide_eq_true_iff]
    constructor
    · exact fun hr => .inr ⟨hr.1, fun o ho => Option.mem_some_iff.mp ho ▸ hr.2⟩
    · rintro (hr | ⟨hr, hother⟩)
      · exact absurd hr (Option.not_mem_none r)
      · exact ⟨hr, hother old rfl⟩
  old_mem := fun o ho => Option.mem_some_iff.mp ho ▸ hold
  fresh := fun n hn => absurd hn (Option.not_mem_none n)
  update := fun o n heq => by cases heq

/-- **What a statement does.** -/
theorem executeLogged_cases (hdb : Constraints db) (h : executeLogged first db s = .ok (db', l)) :
    (rowEvent db s = none ∧ db' = db ∧ l = []) ∨
    ∃ e, rowEvent db s = some e ∧ Changed db db' e ∧ l = dnsRecordUpdateNontime db' e := by
  obtain ⟨db₁, hexec, h⟩ := bind_eq_ok.mp h
  obtain ⟨rfl, rfl⟩ := Prod.mk.inj (Except.ok.inj h)
  have hwrites : ∀ {op given}, write first db op given = .ok db₁ → op.Of db.dnsRecord →
      rowEvent db s = some (op.event (fillIpUniverse db given)) →
      ∃ e, rowEvent db s = some e ∧ Changed db db₁ e ∧
        (rowEvent db s).toList.flatMap (dnsRecordUpdateNontime db₁) =
          dnsRecordUpdateNontime db₁ e := by
    intro op given hwrite hop hevent
    obtain ⟨new, hw, rfl⟩ := write_eq_ok.mp hwrite
    obtain ⟨rfl, -⟩ := hw.checks
    exact ⟨_, hevent, hw.changed hdb hop, by rw [hevent]; simp⟩
  cases s with
  | insert given =>
    exact .inr (hwrites hexec (fun o ho => absurd ho (Option.not_mem_none o)) rfl)
  | update id columns values =>
    rw [execute] at hexec
    split at hexec
    · next hfind =>
      obtain rfl := Except.ok.inj hexec
      have hnone : rowEvent db (.update id columns values) = none := by rw [rowEvent, hfind]; rfl
      exact .inl ⟨hnone, rfl, by rw [hnone]; rfl⟩
    · next o hfind =>
      refine .inr (hwrites hexec (fun o' ho => ?_) (by rw [rowEvent, hfind]; rfl))
      exact Option.mem_some_iff.mp ho ▸ (mem_of_findRecord hfind).1
  | delete id =>
    obtain ⟨hcheck, hexec⟩ := bind_unit_eq_ok.mp hexec
    obtain rfl := Except.ok.inj hexec
    cases hfind : findRecord db.dnsRecord id with
    | none =>
      have hnone : rowEvent db (.delete id) = none := by rw [rowEvent, hfind]; rfl
      have hall : db.dnsRecord.filter (·.dnsRecordId ≠ id) = db.dnsRecord :=
        List.filter_eq_self.mpr fun r hr =>
          decide_eq_true fun heq => Library.not_of_find?_eq_none hfind hr heq
      refine .inl ⟨hnone, ?_, by rw [hnone]; rfl⟩
      rw [hall]
    | some o =>
      obtain ⟨ho, rfl⟩ := mem_of_findRecord hfind
      have hevent : rowEvent db (.delete o.dnsRecordId) = some (.delete o) := by
        rw [rowEvent, hfind]
        rfl
      exact .inr ⟨_, hevent, changed_delete hdb ho hcheck, by rw [hevent]; simp⟩

/-! ## What the trigger names -/

theorem exists_mem_nontime {P : DnsChangeRecord → Prop} :
    (∃ c ∈ dnsRecordUpdateNontime db e, P c) ↔
      (∃ o ∈ e.old?, Mkold e ∧ P ⟨some o.dnsDomainId, ipaddr db e o.netblockId⟩) ∨
      (∃ n ∈ e.new?, P ⟨some n.dnsDomainId, ipaddr db e n.netblockId⟩) ∨
      ∃ z ∈ pointingZones db.dnsRecord e, P ⟨some z, none⟩ := by
  simp only [dnsRecordUpdateNontime, List.mem_append, or_and_right, exists_or, List.mem_map,
    Option.mem_toList, or_assoc]
  refine or_congr ?_ (or_congr ?_ ?_)
  · by_cases hold : Mkold e <;> simp [hold]
  · simp
  · simp

theorem mem_pointingZones {t : List DnsRecord} :
    z ∈ pointingZones t e ↔
      (∃ n ∈ e.new?, n.dnsDomainId ≠ z ∧
        ∃ r ∈ t, r.dnsValueRecordId = some n.dnsRecordId ∧ r.dnsDomainId = z) ∧
      ∀ o ∈ e.old?, o.dnsDomainId ≠ z := by
  cases e <;> simp [pointingZones] <;> grind

/-- An `UPDATE` that does not set `_mkold` keeps the zone and the netblock. -/
theorem exists_new_of_not_mkold (h : ¬ Mkold e) (ho : old ∈ e.old?) :
    ∃ n ∈ e.new?, n.dnsDomainId = old.dnsDomainId ∧ n.netblockId = old.netblockId := by
  cases e with
  | insert new => exact absurd ho (Option.not_mem_none old)
  | delete o => exact absurd trivial h
  | update o new =>
    obtain rfl := Option.mem_some_iff.mp ho
    simp only [Mkold, not_or, not_not] at h
    exact ⟨new, rfl, h.1.symm, h.2.2.symm⟩

theorem Changed.exists_zone_iff (h : Changed db db' e) :
    (∃ c ∈ dnsRecordUpdateNontime db' e, c.dnsDomainId = some z) ↔
      NamesZone db.dnsRecord e z := by
  rw [exists_mem_nontime]
  simp only [Option.some.injEq, exists_eq_right, mem_pointingZones]
  constructor
  · rintro (⟨o, ho, -, hz⟩ | ⟨n, hn, hz⟩ | ⟨⟨n, hn, hne, r, hr, hvalue, hz⟩, -⟩)
    · exact .inl ⟨o, ho, hz⟩
    · exact .inr ⟨n, hn, .inl hz⟩
    · rcases (h.mem r).mp hr with hnew | ⟨hr, -⟩
      · exact absurd (Option.mem_unique hnew hn ▸ hz) hne
      · exact .inr ⟨n, hn, .inr ⟨r, hr, hvalue, hz⟩⟩
  · intro hz
    by_cases hold : ∃ o ∈ e.old?, o.dnsDomainId = z
    · obtain ⟨o, ho, rfl⟩ := hold
      by_cases hmk : Mkold e
      · exact .inl ⟨o, ho, hmk, rfl⟩
      · obtain ⟨n, hn, hdom, -⟩ := exists_new_of_not_mkold hmk ho
        exact .inr (.inl ⟨n, hn, hdom⟩)
    · obtain ⟨n, hn, hz⟩ := hz.resolve_left hold
      by_cases hdom : n.dnsDomainId = z
      · exact .inr (.inl ⟨n, hn, hdom⟩)
      · obtain ⟨r, hr, hvalue, rfl⟩ := hz.resolve_left hdom
        push Not at hold
        have hother : Other e r := by
          intro o ho hid
          exact hold o ho (by rw [h.before.keys.eq_of_id hr (h.old_mem o ho) hid])
        exact .inr (.inr ⟨⟨n, hn, hdom, r, (h.mem r).mpr (.inr ⟨hr, hother⟩), hvalue, rfl⟩, hold⟩)

theorem ipaddr_eq_some (ht : WellFormed db.netblock) {ip : Inet} {nbId : Option ℕ} :
    ipaddr db e nbId = some ip ↔
      Mkip e ∧ ∃ nb ∈ db.netblock, nb.ipAddress = ip ∧ nbId = some nb.netblockId := by
  unfold ipaddr
  split
  · next hip =>
    rw [Option.map_eq_some_iff]
    constructor
    · rintro ⟨nb, hfind, rfl⟩
      obtain ⟨i, rfl, hfind⟩ := Option.bind_eq_some_iff.mp hfind
      obtain ⟨hnb, rfl⟩ := findNetblock_eq_some hfind
      exact ⟨hip, nb, hnb, rfl, rfl⟩
    · rintro ⟨-, nb, hnb, rfl, rfl⟩
      exact ⟨nb, by rw [Option.bind_some, ht.findNetblock_mem hnb], rfl⟩
  · next hip => exact iff_of_false (fun hnone => by cases hnone) fun hmk => hip hmk.1

theorem Changed.exists_address_iff (h : Changed db db' e) {ip : Inet} :
    (∃ c ∈ dnsRecordUpdateNontime db' e, c.ipAddress = some ip) ↔ NamesAddress db e ip := by
  rw [exists_mem_nontime]
  simp only [ipaddr_eq_some h.after.netblock, h.netblock, reduceCtorEq, and_false, exists_false,
    or_false]
  constructor
  · rintro (⟨o, ho, -, hip, nb, hnb, heq, hid⟩ | ⟨n, hn, hip, nb, hnb, heq, hid⟩)
    · exact ⟨hip, nb, hnb, heq, o, .inl ho, hid⟩
    · exact ⟨hip, nb, hnb, heq, n, .inr hn, hid⟩
  · rintro ⟨hip, nb, hnb, heq, r, ho | hn, hid⟩
    · by_cases hmk : Mkold e
      · exact .inl ⟨r, ho, hmk, hip, nb, hnb, heq, hid⟩
      · obtain ⟨n, hn, -, hnbId⟩ := exists_new_of_not_mkold hmk ho
        exact .inr ⟨n, hn, hip, nb, hnb, heq, hnbId.trans hid⟩
    · exact .inr ⟨r, hn, hip, nb, hnb, heq, hid⟩

end JazzHands.Dns

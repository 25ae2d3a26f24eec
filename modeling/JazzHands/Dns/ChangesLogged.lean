import JazzHands.Dns.ChangeRecord
import JazzHands.Dns.Rendering

/-!
# Changes of zones and PTRs are logged

A statement replaces `OLD` by `NEW` among the records (`Changed`), so a set that the records make,
each on its own, stays exactly when the two make the same of what no other record makes
(`Changed.set_eq_iff`).  For a zone this leaves the delegations (`entries_eq_iff`), since in a zone
that is not named no record takes its name or value from `OLD` or `NEW`.  The PTRs of an address are
a product, of its reverse zones and of its rows of `combo`: the zones are such a set
(`zones_eq_iff`), and the rows are compared one by one, as an address has one record with a PTR
(`ptrs_eq_iff`).  `changesLogged_iff` puts them together.
-/

namespace JazzHands.Dns

open Postgres

/-- A zone whose entries are not the same is named in the log, and so is an address whose PTR is not
the same. -/
def ChangesLogged (v : Views) (db db' : Db) (l : List DnsChangeRecord) : Prop :=
  (∀ dom ∈ db.dnsDomain,
    {x | x ∈ zoneEntries v db dom.dnsDomainId} ≠ {x | x ∈ zoneEntries v db' dom.dnsDomainId} →
      ∃ c ∈ l, c.dnsDomainId = some dom.dnsDomainId) ∧
  ∀ nb ∈ db.netblock, {x | x ∈ addressPtrs v db nb} ≠ {x | x ∈ addressPtrs v db' nb} →
    ∃ c ∈ l, c.ipAddress = some nb.ipAddress

/-! ## The condition -/

/-- A zone that is not one of `NamesZone` shows the name servers of `OLD` as those of `NEW`, apart
from those that another record gives it as well. -/
def DelegationsKept (v : Views) (db : Db) (e : RowEvent DnsRecord) : Prop :=
  ∀ dom ∈ db.dnsDomain, ¬ NamesZone db.dnsRecord e dom.dnsDomainId → ∀ x,
    (∀ r ∈ db.dnsRecord, Other e r → r.isEnabled = true → ¬ Gives v db dom.dnsDomainId r x) →
    ((∃ o ∈ e.old?, o.isEnabled = true ∧
        delegationRow v db.dnsDomain dom.dnsDomainId o = some x) ↔
      ∃ n ∈ e.new?, n.isEnabled = true ∧
        delegationRow v db.dnsDomain dom.dnsDomainId n = some x)

/-- The address is in the reverse zones of `NEW` as in those of `OLD`, apart from those that another
record makes as well. -/
def ZonesKept (v : Views) (db : Db) (e : RowEvent DnsRecord) (nb : Netblock) : Prop :=
  ∀ z, (∀ r ∈ db.dnsRecord, Other e r → reverseZone v db nb r ≠ some z) →
    ((∃ o ∈ e.old?, reverseZone v db nb o = some z) ↔
      ∃ n ∈ e.new?, reverseZone v db nb n = some z)

/-- An `UPDATE` of `old` to `new` keeps the PTR of the address. -/
structure PtrKept (db : Db) (nb : Netblock) (old new : DnsRecord) : Prop where
  /-- A record with the PTR keeps it, with its name and its TTL. -/
  own : HasPtr nb old ∨ HasPtr nb new →
    HasPtr nb old ∧ HasPtr nb new ∧ old.dnsTtl = new.dnsTtl ∧
      shownName db.dnsRecord old = shownName (writeRow db.dnsRecord (.update old []) new) new
  /-- A record with the PTR that takes its name from this one keeps that. -/
  referring : ∀ r ∈ db.dnsRecord, r.dnsRecordId ≠ old.dnsRecordId →
    r.referenceDnsRecordId = some old.dnsRecordId → HasPtr nb r →
      old.dnsName.or r.dnsName = new.dnsName.or r.dnsName

/-- `INSERT` and `DELETE` log the address of the row. -/
def PtrsKept (db : Db) (nb : Netblock) : RowEvent DnsRecord → Prop
  | .update old new => PtrKept db nb old new
  | _ => True

/-- Among these records is one with the PTR of the address, and one with a reverse zone for it. -/
def Shown (v : Views) (db : Db) (nb : Netblock) (among : DnsRecord → Prop) : Prop :=
  (∃ d, among d ∧ HasPtr nb d) ∧ ∃ d, among d ∧ reverseZone v db nb d ≠ none

/-- The condition on a statement.  An address that is not named has its PTR as it was if it is shown
in a zone before the statement or after it. -/
def Kept (v : Views) (db : Db) (e : RowEvent DnsRecord) : Prop :=
  DelegationsKept v db e ∧ ∀ nb ∈ db.netblock, ¬ NamesAddress db e nb.ipAddress →
    (Shown v db nb (· ∈ db.dnsRecord) ∨
      Shown v db nb fun d => d ∈ e.new? ∨ (d ∈ db.dnsRecord ∧ Other e d)) →
    ZonesKept v db e nb ∧ PtrsKept db nb e

variable {v : Views} {db db' : Db} {e : RowEvent DnsRecord} {s : Statement}
  {first : FirstRow (ℕ × ℕ)} {l : List DnsChangeRecord} {r d old new : DnsRecord}
  {nb : Netblock} {i z : ℕ} {x : FwdRow} {p : Combo}

/-! ## What the records make -/

theorem Changed.mem_other (h : Changed db db' e) (hr : r ∈ db.dnsRecord) (hother : Other e r) :
    r ∈ db'.dnsRecord :=
  (h.mem r).mpr (.inr ⟨hr, hother⟩)

theorem Changed.old_or_other (h : Changed db db' e) (hd : d ∈ db.dnsRecord) :
    d ∈ e.old? ∨ Other e d := by
  refine or_iff_not_imp_right.mpr fun hother => ?_
  unfold Other at hother
  push Not at hother
  obtain ⟨o, ho, hid⟩ := hother
  exact h.before.keys.eq_of_id hd (h.old_mem o ho) hid ▸ ho

/-- What the records make before and after a statement that does not concern the others. -/
theorem Changed.set_eq_iff {β : Type} {G G' : DnsRecord → β → Prop} (h : Changed db db' e)
    (hsame : ∀ r ∈ db.dnsRecord, Other e r → ∀ x, G' r x ↔ G r x) :
    {x | ∃ d ∈ db.dnsRecord, G d x} = {x | ∃ d ∈ db'.dnsRecord, G' d x} ↔
      ∀ x, (∀ r ∈ db.dnsRecord, Other e r → ¬ G r x) →
        ((∃ o ∈ e.old?, G o x) ↔ ∃ n ∈ e.new?, G' n x) := by
  have hbefore : ∀ x, (∃ d ∈ db.dnsRecord, G d x) ↔
      (∃ o ∈ e.old?, G o x) ∨ ∃ r ∈ db.dnsRecord, Other e r ∧ G r x := by
    intro x
    constructor
    · rintro ⟨d, hd, hx⟩
      exact (h.old_or_other hd).imp (fun ho => ⟨d, ho, hx⟩) fun hother => ⟨d, hd, hother, hx⟩
    · rintro (⟨o, ho, hx⟩ | ⟨r, hr, -, hx⟩)
      · exact ⟨o, h.old_mem o ho, hx⟩
      · exact ⟨r, hr, hx⟩
  have hafter : ∀ x, (∃ d ∈ db'.dnsRecord, G' d x) ↔
      (∃ n ∈ e.new?, G' n x) ∨ ∃ r ∈ db.dnsRecord, Other e r ∧ G r x := by
    intro x
    constructor
    · rintro ⟨d, hd, hx⟩
      rcases (h.mem d).mp hd with hn | ⟨hd, hother⟩
      · exact .inl ⟨d, hn, hx⟩
      · exact .inr ⟨d, hd, hother, (hsame d hd hother x).mp hx⟩
    · rintro (⟨n, hn, hx⟩ | ⟨r, hr, hother, hx⟩)
      · exact ⟨n, (h.mem n).mpr (.inl hn), hx⟩
      · exact ⟨r, h.mem_other hr hother, (hsame r hr hother x).mpr hx⟩
  rw [Set.ext_iff]
  refine forall_congr' fun x => ?_
  rw [Set.mem_ofPred_eq, Set.mem_ofPred_eq, hbefore, hafter]
  have hno : (∀ r ∈ db.dnsRecord, Other e r → ¬ G r x) ↔
      ¬ ∃ r ∈ db.dnsRecord, Other e r ∧ G r x := by
    push Not
    rfl
  rw [hno]
  by_cases hother : ∃ r ∈ db.dnsRecord, Other e r ∧ G r x
  · simp only [hother, or_true, not_true_eq_false, false_imp_iff]
  · simp only [hother, or_false, not_false_eq_true, true_imp_iff]

/-! ## Rows of the other records -/

/-- A lookup of a record that is neither `OLD` nor `NEW`. -/
theorem Changed.findRecord_eq (h : Changed db db' e) (hold : ∀ o ∈ e.old?, o.dnsRecordId ≠ i)
    (hnew : ∀ n ∈ e.new?, n.dnsRecordId ≠ i) :
    findRecord db'.dnsRecord i = findRecord db.dnsRecord i := by
  cases hfind : findRecord db.dnsRecord i with
  | some q =>
    obtain ⟨hq, rfl⟩ := mem_of_findRecord hfind
    exact h.after.keys.findRecord (h.mem_other hq fun o ho => (hold o ho).symm) rfl
  | none =>
    cases hfind' : findRecord db'.dnsRecord i with
    | none => rfl
    | some q =>
      obtain ⟨hq, hid⟩ := mem_of_findRecord hfind'
      rcases (h.mem q).mp hq with hn | ⟨hq, -⟩
      · exact absurd hid (hnew q hn)
      · rw [h.before.keys.findRecord hq hid] at hfind
        cases hfind

theorem Changed.shownName_eq (h : Changed db db' e) (hr : r ∈ db.dnsRecord) (hother : Other e r)
    (hz : ¬ NamesZone db.dnsRecord e r.dnsDomainId) :
    shownName db'.dnsRecord r = shownName db.dnsRecord r := by
  unfold shownName
  cases href : r.referenceDnsRecordId with
  | none => rfl
  | some i =>
    have hfind : findRecord db'.dnsRecord i = findRecord db.dnsRecord i := by
      refine h.findRecord_eq (fun o ho hid => hz (.inl ⟨o, ho, ?_⟩))
        fun n hn hid => hz (.inr ⟨n, hn, .inl ?_⟩)
      · obtain ⟨q, hq, hqi, hdom⟩ := h.before.keys.reference r hr i href
        rw [h.before.keys.eq_of_id (h.old_mem o ho) hq (hid.trans hqi.symm), hdom]
      · obtain ⟨q, hq, hqi, hdom⟩ := h.after.keys.reference r (h.mem_other hr hother) i href
        rw [h.after.keys.eq_of_id ((h.mem n).mpr (.inl hn)) hq (hid.trans hqi.symm), hdom]
    rw [Option.bind_some, hfind, Option.bind_some]

/-- A record that takes its value from `OLD` or `NEW` has its zone named. -/
theorem Changed.valueRecord_eq (h : Changed db db' e) (hr : r ∈ db.dnsRecord) (hother : Other e r)
    (hz : ¬ NamesZone db.dnsRecord e r.dnsDomainId) :
    valueRecord db'.dnsRecord r = valueRecord db.dnsRecord r := by
  unfold valueRecord
  cases hvalue : r.dnsValueRecordId with
  | none => rfl
  | some i =>
    have hnew : ∀ n ∈ e.new?, n.dnsRecordId ≠ i := by
      rintro n hn rfl
      exact hz (.inr ⟨n, hn, .inr ⟨r, hr, hvalue, rfl⟩⟩)
    refine h.findRecord_eq (fun o ho hid => ?_) hnew
    -- the key of `r` is still one of a record, which can only be `NEW`
    obtain ⟨q, hq, hqi⟩ := h.after.keys.value r (h.mem_other hr hother) i hvalue
    rcases (h.mem q).mp hq with hn | ⟨-, hq⟩
    · exact hnew q hn hqi
    · exact hq o ho (hqi.trans hid.symm)

theorem Changed.gives_iff (h : Changed db db' e) (hr : r ∈ db.dnsRecord) (hother : Other e r)
    (hz : ¬ NamesZone db.dnsRecord e z) : Gives v db' z r x ↔ Gives v db z r x := by
  unfold Gives
  rw [h.dnsDomain]
  refine or_congr_left ?_
  unfold fwdRow
  by_cases hd : r.dnsDomainId = z ∧ r.dnsType ∈ v.valDnsType
  · rw [if_pos hd, if_pos hd]
    rw [← hd.1] at hz
    have hvalue : fwdValue db' r = fwdValue db r := by
      simp only [fwdValue, h.valueRecord_eq hr hother hz, h.dnsDomain]
    have hip : fwdIp db' r = fwdIp db r := by
      simp only [fwdIp, h.valueRecord_eq hr hother hz, h.netblock]
    rw [h.shownName_eq hr hother hz, hvalue, hip]
  · rw [if_neg hd, if_neg hd]

theorem setOf_zoneEntries (v : Views) (db : Db) (z : ℕ) : {x | x ∈ zoneEntries v db z} =
    {x | ∃ d ∈ db.dnsRecord, d.isEnabled = true ∧ Gives v db z d x} :=
  Set.ext fun _ => mem_zoneEntries

theorem Changed.entries_eq_iff (h : Changed db db' e) (hz : ¬ NamesZone db.dnsRecord e z) :
    {x | x ∈ zoneEntries v db z} = {x | x ∈ zoneEntries v db' z} ↔
      ∀ x, (∀ r ∈ db.dnsRecord, Other e r → r.isEnabled = true → ¬ Gives v db z r x) →
        ((∃ o ∈ e.old?, o.isEnabled = true ∧ delegationRow v db.dnsDomain z o = some x) ↔
          ∃ n ∈ e.new?, n.isEnabled = true ∧ delegationRow v db.dnsDomain z n = some x) := by
  rw [setOf_zoneEntries, setOf_zoneEntries, h.set_eq_iff fun r hr hother x =>
    and_congr_right fun _ => h.gives_iff hr hother hz]
  -- neither row is in the zone itself
  have hold : ∀ o ∈ e.old?, ∀ x, Gives v db z o x ↔ delegationRow v db.dnsDomain z o = some x :=
    fun o ho x => or_iff_right fun hrow => hz (.inl ⟨o, ho, fwdRow_domain hrow⟩)
  have hnew : ∀ n ∈ e.new?, ∀ x, Gives v db' z n x ↔ delegationRow v db.dnsDomain z n = some x :=
    fun n hn x => by
      rw [Gives, h.dnsDomain]
      exact or_iff_right fun hrow => hz (.inr ⟨n, hn, .inl (fwdRow_domain hrow)⟩)
  refine forall_congr' fun x => imp_congr (by simp only [not_and]) (iff_congr ?_ ?_)
  · exact exists_congr fun o => and_congr_right fun ho => and_congr_right fun _ => hold o ho x
  · exact exists_congr fun n => and_congr_right fun hn => and_congr_right fun _ => hnew n hn x

/-! ## PTRs -/

theorem Changed.zones_eq_iff (h : Changed db db' e) :
    reverseZones v db nb = reverseZones v db' nb ↔ ZonesKept v db e nb := by
  have hzone : reverseZone v db' nb = reverseZone v db nb := by
    funext rootd
    rw [reverseZone, reverseZone, h.netblock, h.dnsDomain]
  rw [reverseZones, reverseZones, hzone]
  exact h.set_eq_iff fun _ _ _ _ => Iff.rfl

theorem makesPtrOf_generatePtr (h : Constraints db) (hr : r ∈ db.dnsRecord)
    (hd : d ∈ db.dnsRecord) (hrp : MakesPtrOf r nb) (hdp : MakesPtrOf d nb) : r = d := by
  refine h.keys.eq_of_id hr hd (h.generatePtr r hr d hd hrp.2.1 hrp.2.2.2.1 ?_ hdp.2.1
    hdp.2.2.2.1 (hdp.1.trans hrp.1.symm))
  rw [hrp.1]
  exact Option.some_ne_none _

theorem exists_combo (h : Constraints db) (hr : r ∈ db.dnsRecord) (hp : MakesPtrOf r nb) :
    ∃ p, combo db nb r = some p := by
  obtain ⟨dom, hdom, hid⟩ := h.domain r hr
  cases hfind : findDomain db.dnsDomain r.dnsDomainId with
  | none => exact (Library.not_of_find?_eq_none hfind hdom hid).elim
  | some dom' => exact ⟨_, combo_eq_some.mpr ⟨hp, dom', hfind, rfl⟩⟩

/-- A record shows the name that it showed before, or takes it from the one that is updated. -/
theorem Changed.shownName_cases (h : Changed db db' e) (hr : r ∈ db.dnsRecord)
    (hother : Other e r) :
    shownName db'.dnsRecord r = shownName db.dnsRecord r ∨
      ∃ old new, e = .update old new ∧ r.referenceDnsRecordId = some old.dnsRecordId ∧
        shownName db.dnsRecord r = old.dnsName.or r.dnsName ∧
        shownName db'.dnsRecord r = new.dnsName.or r.dnsName := by
  unfold shownName
  cases href : r.referenceDnsRecordId with
  | none => exact .inl rfl
  | some i =>
    obtain ⟨q, hq, rfl, -⟩ := h.before.keys.reference r hr i href
    obtain ⟨q', hq', hqi, -⟩ := h.after.keys.reference r (h.mem_other hr hother) _ href
    have hfind := h.before.keys.findRecord hq rfl
    have hfind' := h.after.keys.findRecord hq' hqi
    simp only [Option.bind_some, hfind, hfind']
    rcases (h.mem q').mp hq' with hn | ⟨hq', -⟩
    · by_cases hqo : Other e q
      · exact absurd hqi.symm (h.fresh q' hn q hq hqo)
      · unfold Other at hqo
        push Not at hqo
        obtain ⟨o, ho, hid⟩ := hqo
        obtain rfl := h.before.keys.eq_of_id hq (h.old_mem o ho) hid
        refine .inr ⟨q, q', ?_, rfl, rfl, rfl⟩
        cases e with
        | insert new => exact absurd ho (Option.not_mem_none q)
        | delete old => exact absurd hn (Option.not_mem_none q')
        | update old new =>
          rw [Option.mem_some_iff.mp ho, Option.mem_some_iff.mp hn]
    · rw [h.before.keys.eq_of_id hq' hq hqi]
      exact .inl rfl

/-- A record that takes its name from the one that is updated. -/
theorem Changed.shownName_referring (h : Changed db db' (.update old new)) (hr : r ∈ db.dnsRecord)
    (hne : r.dnsRecordId ≠ old.dnsRecordId) (href : r.referenceDnsRecordId = some old.dnsRecordId) :
    shownName db.dnsRecord r = old.dnsName.or r.dnsName ∧
      shownName db'.dnsRecord r = new.dnsName.or r.dnsName := by
  have hother : Other (.update old new) r := fun o ho => Option.mem_some_iff.mp ho ▸ hne
  obtain ⟨q, hq, hqi, -⟩ := h.after.keys.reference r (h.mem_other hr hother) _ href
  have hfind := h.before.keys.findRecord (h.old_mem old rfl) rfl
  have hfind' := h.after.keys.findRecord hq hqi
  have hqn : q = new := by
    rcases (h.mem q).mp hq with hn | ⟨-, hqo⟩
    · exact (Option.mem_some_iff.mp hn).symm
    · exact absurd hqi (hqo old rfl)
  subst hqn
  unfold shownName
  rw [href, Option.bind_some, Option.bind_some, hfind, hfind']
  exact ⟨rfl, rfl⟩

/-- Two records of one zone with the same row have the same TTL and the same name. -/
theorem Changed.eq_of_combo (h : Changed db db' e) (hdom : r.dnsDomainId = d.dnsDomainId)
    (hr : combo db nb r = some p) (hd : combo db' nb d = some p) :
    r.dnsTtl = d.dnsTtl ∧ shownName db.dnsRecord r = shownName db'.dnsRecord d := by
  obtain ⟨-, dom, hfind, rfl⟩ := combo_eq_some.mp hr
  obtain ⟨-, dom', hfind', heq⟩ := combo_eq_some.mp hd
  rw [h.dnsDomain, ← hdom, hfind] at hfind'
  obtain rfl := Option.some.inj hfind'
  obtain ⟨httl, hvalue, -⟩ := Combo.mk.inj heq
  exact ⟨httl, ptrValue_inj.mp hvalue⟩

/-- The PTRs of an address stay when those of the row do, and the names of the other records. -/
theorem Changed.ptrs_eq (h : Changed db db' e)
    (hown : ∀ p, (∃ o ∈ e.old?, o.isEnabled = true ∧ combo db nb o = some p) ↔
      ∃ n ∈ e.new?, n.isEnabled = true ∧ combo db' nb n = some p)
    (hname : ∀ r ∈ db.dnsRecord, Other e r → HasPtr nb r →
      shownName db'.dnsRecord r = shownName db.dnsRecord r) : ptrs db nb = ptrs db' nb := by
  refine (h.set_eq_iff fun r hr hother p => and_congr_right fun hen => ?_).mpr fun p _ => hown p
  unfold combo
  by_cases hp : MakesPtrOf r nb
  · rw [if_pos hp, if_pos hp, hname r hr hother ⟨hen, hp⟩, h.dnsDomain]
  · rw [if_neg hp, if_neg hp]

section Address

variable (hnb : nb ∈ db.netblock) (hnot : ¬ NamesAddress db e nb.ipAddress)

include hnb hnot

/-- The row makes no PTR of an address that is not named, when addresses are. -/
theorem not_makesPtrOf (hr : r ∈ e.old? ∨ r ∈ e.new?) (hmk : Mkip e) : ¬ MakesPtrOf r nb :=
  fun hp => hnot ⟨hmk, nb, hnb, rfl, r, hr, hp.1⟩

theorem Changed.ptrs_eq_of_not_update (h : Changed db db' e) (he : ∀ old new, e ≠ .update old new) :
    ptrs db nb = ptrs db' nb := by
  have hno : ∀ r, r ∈ e.old? ∨ r ∈ e.new? → ¬ MakesPtrOf r nb := by
    intro r hr hp
    have hid : r.netblockId ≠ none := Option.ne_none_iff_exists'.mpr ⟨_, hp.1⟩
    refine not_makesPtrOf hnb hnot hr ?_ hp
    cases e with
    | insert new => exact Option.mem_some_iff.mp (hr.resolve_left (Option.not_mem_none r)) ▸ hid
    | update old new => exact absurd rfl (he old new)
    | delete old => exact Option.mem_some_iff.mp (hr.resolve_right (Option.not_mem_none r)) ▸ hid
  refine h.ptrs_eq (fun p => iff_of_false ?_ ?_) fun r hr hother _ => ?_
  · rintro ⟨o, ho, -, hp⟩
    exact hno o (.inl ho) (combo_eq_some.mp hp).1
  · rintro ⟨n, hn, -, hp⟩
    exact hno n (.inr hn) (combo_eq_some.mp hp).1
  · rcases h.shownName_cases hr hother with hsame | ⟨old, new, heq, -⟩
    · exact hsame
    · exact absurd heq (he old new)

end Address

section Update

variable (h : Changed db db' (.update old new)) (hnb : nb ∈ db.netblock)
  (hnot : ¬ NamesAddress db (.update old new) nb.ipAddress)

include h hnb hnot

omit h in
/-- A row with the PTR of an address that is not named is in the zone that it was in. -/
theorem domain_eq_of_not_named (hr : MakesPtrOf old nb ∨ MakesPtrOf new nb) :
    old.dnsDomainId = new.dnsDomainId := by
  by_contra hne
  have hmk : Mkip (.update old new) := .inl hne
  rcases hr with hp | hp
  · exact not_makesPtrOf hnb hnot (.inl rfl) hmk hp
  · exact not_makesPtrOf hnb hnot (.inr rfl) hmk hp

theorem Changed.ptrs_eq_of_kept (hk : PtrKept db nb old new) : ptrs db nb = ptrs db' nb := by
  refine h.ptrs_eq (fun p => ?_) fun r hr hother hp => ?_
  · simp only [RowEvent.old?_update, RowEvent.new?_update, Option.mem_some_iff, exists_eq_left']
    constructor
    · rintro ⟨hen, hp⟩
      obtain ⟨hmakes, dom, hfind, rfl⟩ := combo_eq_some.mp hp
      obtain ⟨-, hnew, httl, hname⟩ := hk.own (.inl ⟨hen, hmakes⟩)
      rw [← h.update old new rfl] at hname
      refine ⟨hnew.1, combo_eq_some.mpr ⟨hnew.2, dom, ?_, by rw [hen, hnew.1, httl, hname]⟩⟩
      rw [h.dnsDomain, ← domain_eq_of_not_named hnb hnot (.inl hmakes), hfind]
    · rintro ⟨hen, hp⟩
      obtain ⟨hmakes, dom, hfind, rfl⟩ := combo_eq_some.mp hp
      obtain ⟨hold, -, httl, hname⟩ := hk.own (.inr ⟨hen, hmakes⟩)
      rw [← h.update old new rfl] at hname
      rw [h.dnsDomain, ← domain_eq_of_not_named hnb hnot (.inr hmakes)] at hfind
      exact ⟨hold.1, combo_eq_some.mpr ⟨hold.2, dom, hfind, by rw [hen, hold.1, httl, hname]⟩⟩
  · rcases h.shownName_cases hr hother with hsame | ⟨o, n, heq, href, hbefore, hafter⟩
    · exact hsame
    · obtain ⟨rfl, rfl⟩ := RowEvent.update.inj heq
      rw [hbefore, hafter]
      exact (hk.referring r hr (hother old rfl) href hp).symm

theorem Changed.kept_of_ptrs_eq (hptrs : ptrs db nb = ptrs db' nb) : PtrKept db nb old new := by
  have hnew_mem : new ∈ db'.dnsRecord := (h.mem new).mpr (.inl rfl)
  have hold_mem : old ∈ db.dnsRecord := h.old_mem old rfl
  constructor
  · rw [← h.update old new rfl]
    rintro (⟨hen, hmakes⟩ | ⟨hen, hmakes⟩)
    · obtain ⟨p, hp⟩ := exists_combo h.before hold_mem hmakes
      obtain ⟨d, hd, hden, hdp⟩ := (Set.ext_iff.mp hptrs p).mp ⟨old, hold_mem, hen, hp⟩
      have hdmakes := (combo_eq_some.mp hdp).1
      rcases (h.mem d).mp hd with hn | ⟨hd, hother⟩
      · obtain rfl := Option.mem_some_iff.mp hn
        exact ⟨⟨hen, hmakes⟩, ⟨hden, hdmakes⟩,
          h.eq_of_combo (domain_eq_of_not_named hnb hnot (.inl hmakes)) hp hdp⟩
      · obtain rfl := makesPtrOf_generatePtr h.before hd hold_mem hdmakes hmakes
        exact absurd rfl (hother d rfl)
    · obtain ⟨p, hp⟩ := exists_combo h.after hnew_mem hmakes
      obtain ⟨d, hd, hden, hdp⟩ := (Set.ext_iff.mp hptrs p).mpr ⟨new, hnew_mem, hen, hp⟩
      have hdmakes := (combo_eq_some.mp hdp).1
      rcases h.old_or_other hd with ho | hother
      · obtain rfl := Option.mem_some_iff.mp ho
        exact ⟨⟨hden, hdmakes⟩, ⟨hen, hmakes⟩,
          h.eq_of_combo (domain_eq_of_not_named hnb hnot (.inr hmakes)) hdp hp⟩
      · obtain rfl := makesPtrOf_generatePtr h.after (h.mem_other hd hother) hnew_mem hdmakes hmakes
        exact absurd rfl (h.fresh d rfl d hd hother)
  · rintro r hr hne href ⟨hen, hmakes⟩
    have hother : Other (.update old new) r := fun o ho => Option.mem_some_iff.mp ho ▸ hne
    obtain ⟨p, hp⟩ := exists_combo h.before hr hmakes
    obtain ⟨d, hd, -, hdp⟩ := (Set.ext_iff.mp hptrs p).mp ⟨r, hr, hen, hp⟩
    obtain rfl := makesPtrOf_generatePtr h.after hd (h.mem_other hr hother)
      (combo_eq_some.mp hdp).1 hmakes
    obtain ⟨hbefore, hafter⟩ := h.shownName_referring hr hne href
    rw [← hbefore, ← hafter]
    exact (h.eq_of_combo rfl hp hdp).2

end Update

theorem Changed.ptrs_eq_iff (h : Changed db db' e) (hnb : nb ∈ db.netblock)
    (hnot : ¬ NamesAddress db e nb.ipAddress) :
    ptrs db nb = ptrs db' nb ↔ PtrsKept db nb e := by
  cases e with
  | update old new => exact ⟨h.kept_of_ptrs_eq hnb hnot, h.ptrs_eq_of_kept hnb hnot⟩
  | insert new =>
    exact iff_of_true (h.ptrs_eq_of_not_update hnb hnot fun o n heq => by cases heq) trivial
  | delete old =>
    exact iff_of_true (h.ptrs_eq_of_not_update hnb hnot fun o n heq => by cases heq) trivial

theorem shown_iff (h : Constraints db) : Shown v db nb (· ∈ db.dnsRecord) ↔
    (reverseZones v db nb).Nonempty ∧ (ptrs db nb).Nonempty := by
  rw [Shown, and_comm]
  refine and_congr ⟨?_, ?_⟩ ⟨?_, ?_⟩
  · rintro ⟨d, hd, hz⟩
    obtain ⟨z, hz⟩ := Option.ne_none_iff_exists'.mp hz
    exact ⟨z, d, hd, hz⟩
  · rintro ⟨z, d, hd, hz⟩
    exact ⟨d, hd, Option.ne_none_iff_exists'.mpr ⟨z, hz⟩⟩
  · rintro ⟨d, hd, hen, hp⟩
    obtain ⟨p, hp⟩ := exists_combo h hd hp
    exact ⟨p, d, hd, hen, hp⟩
  · rintro ⟨p, d, hd, hen, hp⟩
    exact ⟨d, hd, hen, (combo_eq_some.mp hp).1⟩

/-- **The PTRs of an address that is not named.** -/
theorem Changed.addressPtrs_eq_iff (h : Changed db db' e) (hnb : nb ∈ db.netblock)
    (hnot : ¬ NamesAddress db e nb.ipAddress) :
    {x | x ∈ addressPtrs v db nb} = {x | x ∈ addressPtrs v db' nb} ↔
      ((Shown v db nb (· ∈ db.dnsRecord) ∨
        Shown v db nb fun d => d ∈ e.new? ∨ (d ∈ db.dnsRecord ∧ Other e d)) →
      ZonesKept v db e nb ∧ PtrsKept db nb e) := by
  have hafter : Shown v db nb (fun d => d ∈ e.new? ∨ (d ∈ db.dnsRecord ∧ Other e d)) ↔
      (reverseZones v db' nb).Nonempty ∧ (ptrs db' nb).Nonempty := by
    rw [← shown_iff h.after]
    simp only [Shown, h.mem, reverseZone, h.netblock, h.dnsDomain]
  rw [addressPtrs_eq_prod, addressPtrs_eq_prod, Set.prod_eq_prod_iff, h.zones_eq_iff,
    h.ptrs_eq_iff hnb hnot, shown_iff h.before, hafter]
  simp only [Set.nonempty_iff_ne_empty]
  tauto

/-! ## When the changes are logged -/

/-- A record that makes the PTR of its address. -/
def hostRecord (name : String) (isEnabled : Bool) : DnsRecord :=
  ⟨1, some name, 1, none, "IN", "A", none, none, none, none, none, none, some 1, some 0, none, none,
    true, isEnabled⟩

/-- The record that makes a zone for the PTRs. -/
def rootRecord : DnsRecord :=
  ⟨2, none, 2, none, "IN", "REVERSE_ZONE_BLOCK_PTR", none, none, none, none, none, none, some 2,
    some 0, none, none, false, true⟩

/-- A zone with one host, and the reverse zone of its network. -/
def Db.oneHost : Db :=
  ⟨[hostRecord "www" true, rootRecord], [⟨1, "example.com", none⟩, ⟨2, "0.0.10.in-addr.arpa", none⟩],
    [⟨1, .v4 10 0 0 5 32, "dns", true, false, none, 0⟩,
      ⟨2, .v4 10 0 0 0 24, "dns", false, true, none, 0⟩], []⟩

theorem constraints_oneHost : Constraints .oneHost where
  keys := ⟨by decide, by decide, by decide⟩
  domain := by decide
  netblock := by decide
  generatePtr := by decide

/-- Views of zones that have none above them. -/
def topZoneViews : Views :=
  ⟨["A", "NS"], fun string pattern _ _ => if pattern = "^.*[.](\\d+)$" then "5" else string⟩

/-- `UPDATE dns_record SET dns_name = 'web' WHERE dns_record_id = 1`. -/
def rename : Statement := .update 1 [.dnsName] (hostRecord "web" true)

/-- `UPDATE dns_record SET is_enabled = false WHERE dns_record_id = 1`. -/
def disable : Statement := .update 1 [.isEnabled] (hostRecord "www" false)

end JazzHands.Dns

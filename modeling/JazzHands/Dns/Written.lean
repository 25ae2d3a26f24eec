import JazzHands.Dns.Record
import Mathlib.Data.List.Nodup
import Mathlib.Data.List.Perm.Subperm

/-!
# What a statement on `dns_record` writes

Every statement on `dns_record` comes to one row that is written, or to none (`Written`, `Writes`).
Which checks the row has passed and which rows stay is said here once, for the invariants of
`dns_record`.
-/

namespace JazzHands.Dns

open Postgres

variable {t : List DnsRecord} {r q new old given : DnsRecord} {db db' : Db} {op : Op}
  {first : FirstRow (ℕ × ℕ)} {i n : ℕ}

/-- The keys of `dns_record` hold. -/
structure Keys (t : List DnsRecord) : Prop where
  nodup : (t.map (·.dnsRecordId)).Nodup
  value : ∀ r ∈ t, ∀ i ∈ r.dnsValueRecordId, ∃ q ∈ t, q.dnsRecordId = i
  reference : ∀ r ∈ t, ∀ i ∈ r.referenceDnsRecordId,
    ∃ q ∈ t, q.dnsRecordId = i ∧ q.dnsDomainId = r.dnsDomainId

theorem Keys.nil : Keys [] :=
  ⟨List.nodup_nil, fun _ hr => absurd hr List.not_mem_nil, fun _ hr => absurd hr List.not_mem_nil⟩

theorem Keys.eq_of_id (h : Keys t) (hr : r ∈ t) (hq : q ∈ t) (hid : r.dnsRecordId = q.dnsRecordId) :
    r = q :=
  List.inj_on_of_nodup_map h.nodup hr hq hid

theorem mem_of_findRecord (h : findRecord t i = some r) : r ∈ t ∧ r.dnsRecordId = i :=
  Library.of_find?_eq_some h

theorem Keys.findRecord (h : Keys t) (hr : r ∈ t) (hid : r.dnsRecordId = i) :
    findRecord t i = some r :=
  Library.find?_eq_some_of_unique hr hid fun _ hq hqid => h.eq_of_id hq hr (hqid.trans hid.symm)

/-! ## One row is written -/

/-- The rows that stay. -/
def Stays (op : Op) (r : DnsRecord) : Prop := ∀ old ∈ op.old, r.dnsRecordId ≠ old.dnsRecordId
  deriving Decidable

/-- The row passes the checks that come before it is written, and those of the keys after that. -/
structure Fits (db : Db) (op : Op) (given new : DnsRecord) : Prop where
  before : beforeTriggers db op given = .ok new
  row : checkRow (db.dnsRecord.filter (Stays op ·)) new = .ok ()
  keys : checkKeys (db.after op new) = .ok ()

/-- The row passes all checks. -/
structure Written (first : FirstRow (ℕ × ℕ)) (db : Db) (op : Op) (given new : DnsRecord) : Prop
    extends Fits db op given new where
  after : afterTriggers first (db.after op new) op new = .ok ()

theorem write_eq_ok : write first db op given = .ok db' ↔
    ∃ new, Written first db op given new ∧
      db' = db.after op new := by
  rw [write, bind_eq_ok]
  refine exists_congr fun new => ?_
  rw [bind_unit_eq_ok, bind_unit_eq_ok]
  constructor
  · rintro ⟨hbefore, hrow, hafter, hdb⟩
    obtain ⟨hkeys, -⟩ := bind_unit_eq_ok.mp hafter
    exact ⟨⟨⟨hbefore, hrow, hkeys⟩, hafter⟩, (Except.ok.inj hdb).symm⟩
  · rintro ⟨hw, rfl⟩
    exact ⟨hw.before, hw.row, hw.after, rfl⟩

/-- `dns_a_rec_validation` changes nothing but the universe of a row. -/
theorem fillIpUniverse_eq (db : Db) (r : DnsRecord) :
    ∃ u, fillIpUniverse db r = { r with ipUniverseId := u } := by
  unfold fillIpUniverse
  split
  · exact ⟨_, rfl⟩
  · exact ⟨r.ipUniverseId, rfl⟩

/-- What `dns_a_rec_validation` lets through. -/
structure ARecordChecks (db : Db) (new : DnsRecord) : Prop where
  supplied : IsAddressType new.dnsType → new.netblockId ≠ none ∨ new.dnsValueRecordId ≠ none
  value : IsAddressType new.dnsType → ∀ i ∈ new.dnsValueRecordId, ∃ d ∈ db.dnsRecord,
    d.dnsRecordId = i ∧ d.dnsType = new.dnsType ∧ d.dnsClass = new.dnsClass
  netblock : new.netblockId ≠ none → new.dnsValue = none ∧ new.dnsValueRecordId = none
  onlyValue : new.dnsValue ≠ none → new.dnsValueRecordId = none
  inet4 : new.dnsType = "A" →
    ∀ n ∈ new.netblockId.bind (findNetblock db.netblock), n.ipAddress.family = .inet4
  inet6 : new.dnsType = "AAAA" →
    ∀ n ∈ new.netblockId.bind (findNetblock db.netblock), n.ipAddress.family = .inet6
  single : IsAddressType new.dnsType →
    ∀ n ∈ new.netblockId.bind (findNetblock db.netblock), n.isSingleAddress = true

theorem dnsARecValidation_ok (h : dnsARecValidation db given = .ok new) :
    new = fillIpUniverse db given ∧ ARecordChecks db new := by
  obtain ⟨hsupplied, h⟩ := bind_unit_eq_ok.mp h
  obtain ⟨hvalue, h⟩ := bind_unit_eq_ok.mp h
  obtain ⟨-, h⟩ := bind_unit_eq_ok.mp h
  obtain ⟨hnetblock, h⟩ := bind_unit_eq_ok.mp h
  obtain ⟨honly, h⟩ := bind_unit_eq_ok.mp h
  obtain ⟨hinet4, h⟩ := bind_unit_eq_ok.mp h
  obtain ⟨hinet6, h⟩ := bind_unit_eq_ok.mp h
  obtain ⟨hsingle, h⟩ := bind_unit_eq_ok.mp h
  obtain rfl := Except.ok.inj h
  rw [raiseIf_eq_ok] at hsupplied hvalue hnetblock honly hinet4 hinet6 hsingle
  push Not at hsupplied hvalue hnetblock honly hinet4 hinet6 hsingle
  refine ⟨rfl, fun ha => ?_, hvalue, hnetblock, honly, hinet4, hinet6, fun ha n hn => ?_⟩
  · by_cases hnone : (fillIpUniverse db given).netblockId = none
    · exact Or.inr (hsupplied ha hnone)
    · exact Or.inl hnone
  · simpa using hsingle ha n hn

/-- The row that is written is the given one with its universe filled in. -/
theorem Fits.checks (h : Fits db op given new) :
    new = fillIpUniverse db given ∧ ARecordChecks db new := by
  obtain ⟨filled, hrec, hrest⟩ := bind_eq_ok.mp h.before
  obtain ⟨-, hrest⟩ := bind_unit_eq_ok.mp hrest
  obtain ⟨-, hrest⟩ := bind_unit_eq_ok.mp hrest
  obtain ⟨-, hrest⟩ := bind_unit_eq_ok.mp hrest
  obtain rfl := Except.ok.inj hrest
  exact dnsARecValidation_ok hrec

/-- `dns_record_enabled_check` lets the row through when it runs. -/
theorem Fits.enabledCheck (h : Fits db op given new) (hfires : op.Fires [.isEnabled]) :
    dnsRecordEnabledCheck db new = .ok () := by
  obtain ⟨filled, -, hrest⟩ := bind_eq_ok.mp h.before
  obtain ⟨-, hrest⟩ := bind_unit_eq_ok.mp hrest
  obtain ⟨-, hrest⟩ := bind_unit_eq_ok.mp hrest
  obtain ⟨hcheck, hrest⟩ := bind_unit_eq_ok.mp hrest
  obtain rfl := Except.ok.inj hrest
  rwa [Op.on, if_pos hfires] at hcheck

/-- The row that an `UPDATE` starts from is in the table. -/
def Op.Of (op : Op) (t : List DnsRecord) : Prop := ∀ old ∈ op.old, old ∈ t

theorem mem_writeRow (hop : op.Of t) : r ∈ writeRow t op new ↔ r = new ∨ (r ∈ t ∧ Stays op r) := by
  cases op with
  | insert =>
    rw [writeRow, List.mem_append, List.mem_singleton, or_comm]
    exact or_congr_right (and_iff_left fun old hold => absurd hold (Option.not_mem_none old)).symm
  | update old columns =>
    have hstays : Stays (.update old columns) r ↔ r.dnsRecordId ≠ old.dnsRecordId :=
      ⟨fun h => h old rfl, fun h o ho => Option.mem_some_iff.mp ho ▸ h⟩
    rw [writeRow, List.mem_map, hstays]
    constructor
    · rintro ⟨s, hs, rfl⟩
      by_cases hid : s.dnsRecordId = old.dnsRecordId
      · exact Or.inl (if_pos hid)
      · rw [if_neg hid]
        exact Or.inr ⟨hs, hid⟩
    · rintro (rfl | ⟨hr, hid⟩)
      · exact ⟨old, hop old rfl, if_pos rfl⟩
      · exact ⟨r, hr, if_neg hid⟩

theorem Fits.not_dup (h : Fits db op given new) (hr : r ∈ db.dnsRecord) (hstays : Stays op r) :
    r.dnsRecordId ≠ new.dnsRecordId := by
  obtain ⟨-, hrow⟩ := bind_unit_eq_ok.mp h.row
  obtain ⟨-, hrow⟩ := bind_unit_eq_ok.mp hrow
  obtain ⟨hpk, -⟩ := bind_unit_eq_ok.mp hrow
  intro hid
  exact raiseIf_eq_ok.mp hpk ⟨r, List.mem_filter.mpr ⟨hr, decide_eq_true hstays⟩, hid⟩

theorem keys_of_checkKeys (db : Db) (hn : (db.dnsRecord.map (·.dnsRecordId)).Nodup)
    (h : checkKeys db = .ok ()) : Keys db.dnsRecord := by
  obtain ⟨-, h⟩ := bind_unit_eq_ok.mp h
  obtain ⟨-, h⟩ := bind_unit_eq_ok.mp h
  obtain ⟨hvalue, h⟩ := bind_unit_eq_ok.mp h
  have hvalue := raiseIf_eq_ok.mp hvalue
  have hreference := raiseIf_eq_ok.mp h
  push Not at hvalue hreference
  exact ⟨hn, hvalue, hreference⟩

section

variable (h : Fits db op given new) (hkeys : Keys db.dnsRecord) (hop : op.Of db.dnsRecord)
include h hkeys hop

theorem Fits.nodup :
    ((writeRow db.dnsRecord op new).map (·.dnsRecordId)).Nodup := by
  have hfresh := fun r hr => h.not_dup (r := r) hr
  cases op with
  | insert =>
    rw [writeRow, List.map_append]
    refine List.nodup_append.mpr ⟨hkeys.nodup, List.nodup_singleton _, ?_⟩
    rintro x hx _ hx' rfl
    obtain ⟨s, hs, rfl⟩ := List.mem_map.mp hx
    exact hfresh s hs (fun o ho => absurd ho (Option.not_mem_none o)) (List.mem_singleton.mp hx')
  | update old columns =>
    have hstays : ∀ s, s.dnsRecordId ≠ old.dnsRecordId → Stays (.update old columns) s :=
      fun s hs o ho => Option.mem_some_iff.mp ho ▸ hs
    rw [writeRow, List.map_map]
    refine List.Nodup.map_on (fun r hr s hs heq => ?_) (List.Nodup.of_map _ hkeys.nodup)
    simp only [Function.comp_apply] at heq
    by_cases hr' : r.dnsRecordId = old.dnsRecordId
    · by_cases hs' : s.dnsRecordId = old.dnsRecordId
      · exact hkeys.eq_of_id hr hs (hr'.trans hs'.symm)
      · rw [if_pos hr', if_neg hs'] at heq
        exact absurd heq.symm (hfresh s hs (hstays s hs'))
    · by_cases hs' : s.dnsRecordId = old.dnsRecordId
      · rw [if_neg hr', if_pos hs'] at heq
        exact absurd heq (hfresh r hr (hstays r hr'))
      · rw [if_neg hr', if_neg hs'] at heq
        exact hkeys.eq_of_id hr hs heq

theorem Fits.keys_writeRow : Keys (writeRow db.dnsRecord op new) :=
  keys_of_checkKeys (db.after op new) (h.nodup hkeys hop) h.keys

end

/-! ## What a record was before -/

/-- The row `o` becomes `r` when `new` is written. -/
def Becomes (op : Op) (new o r : DnsRecord) : Prop :=
  (r = new ∧ op.old = some o) ∨ (r ≠ new ∧ o = r)
  deriving Decidable

/-- The enabled record gets its value of `g` by the statement: before, the record was not there, or
disabled, or had another value of `f`. -/
def Comes {β : Type*} (f g : DnsRecord → β) (t : List DnsRecord) (op : Op) (new r : DnsRecord) : Prop :=
  r ∈ writeRow t op new ∧ r.isEnabled = true ∧
    ∀ o ∈ t, Becomes op new o r → o.isEnabled = true → f o ≠ g r

instance {β : Type*} [DecidableEq β] {f g : DnsRecord → β} : Decidable (Comes f g t op new r) := by
  unfold Comes
  infer_instance

theorem Becomes.ne {o p : DnsRecord} (hop : op.Of t) (hr : r ∈ writeRow t op new)
    (hq : q ∈ writeRow t op new) (ho : Becomes op new o r) (hp : Becomes op new p q)
    (hne : r.dnsRecordId ≠ q.dnsRecordId) : o.dnsRecordId ≠ p.dnsRecordId := by
  have hstays : ∀ {a b}, a ∈ writeRow t op new → a ≠ new → op.old = some b →
      a.dnsRecordId ≠ b.dnsRecordId := by
    intro a b ha hnew hold
    exact (((mem_writeRow hop).mp ha).resolve_left hnew).2 b hold
  rcases ho with ⟨rfl, hold⟩ | ⟨hrn, rfl⟩
  · rcases hp with ⟨rfl, -⟩ | ⟨hqn, rfl⟩
    · exact absurd rfl hne
    · exact (hstays hq hqn hold).symm
  · rcases hp with ⟨rfl, hold⟩ | ⟨-, rfl⟩
    · exact hstays hr hrn hold
    · exact hne

/-- Two enabled records whose values do not come by the statement had them before. -/
theorem exists_before {β : Type*} {f g : DnsRecord → β} (hop : op.Of t)
    (hr : r ∈ writeRow t op new ∧ r.isEnabled = true)
    (hq : q ∈ writeRow t op new ∧ q.isEnabled = true) (hne : r.dnsRecordId ≠ q.dnsRecordId)
    (hrc : ¬ Comes f g t op new r) (hqc : ¬ Comes f g t op new q) :
    ∃ o p, (o ∈ t ∧ o.isEnabled = true) ∧ (p ∈ t ∧ p.isEnabled = true) ∧
      o.dnsRecordId ≠ p.dnsRecordId ∧ f o = g r ∧ f p = g q := by
  have hbefore : ∀ {s}, s ∈ writeRow t op new ∧ s.isEnabled = true → ¬ Comes f g t op new s →
      ∃ o ∈ t, Becomes op new o s ∧ o.isEnabled = true ∧ f o = g s := by
    intro s hs hsc
    by_contra hnot
    push Not at hnot
    exact hsc ⟨hs.1, hs.2, hnot⟩
  obtain ⟨o, ho, hor, hoen, hfo⟩ := hbefore hr hrc
  obtain ⟨p, hp, hpq, hpen, hfp⟩ := hbefore hq hqc
  exact ⟨o, p, ⟨ho, hoen⟩, ⟨hp, hpen⟩, hor.ne hop hr.1 hq.1 hpq hne, hfo, hfp⟩

/-! ## Statements -/

/-- The statement writes the row `given`, before the triggers change it. -/
def Writes (db : Db) (s : Statement) (op : Op) (given : DnsRecord) : Prop :=
  match s with
  | .insert row => op = .insert ∧ given = row
  | .update id columns values => ∃ old, findRecord db.dnsRecord id = some old ∧
      op = .update old columns ∧ given = old.set values columns
  | .delete _ => False

theorem Writes.of {s : Statement} (h : Writes db s op given) : op.Of db.dnsRecord := by
  cases s with
  | insert row =>
    obtain ⟨rfl, -⟩ := h
    exact fun old hold => nomatch hold
  | update id columns values =>
    obtain ⟨old, hfind, rfl, -⟩ := h
    rintro o ho
    obtain rfl := Option.mem_some_iff.mp ho
    exact (mem_of_findRecord hfind).1
  | delete id => exact h.elim

theorem step_cases (db : Db) (s : Statement × FirstRow (ℕ × ℕ)) :
    step db s = db ∨
    (∃ op given new, Writes db s.1 op given ∧ Written s.2 db op given new ∧
      step db s = db.after op new) ∨
    ∃ id, checkKeys { db with dnsRecord := db.dnsRecord.filter (·.dnsRecordId ≠ id) } = .ok () ∧
      step db s = { db with dnsRecord := db.dnsRecord.filter (·.dnsRecordId ≠ id) } := by
  obtain ⟨s, first⟩ := s
  unfold step
  cases hok : execute first db s with
  | error e => exact Or.inl rfl
  | ok db' =>
    cases s with
    | insert row =>
      obtain ⟨new, hw, rfl⟩ := write_eq_ok.mp hok
      exact Or.inr (Or.inl ⟨_, _, new, ⟨rfl, rfl⟩, hw, rfl⟩)
    | update id columns values =>
      rw [execute] at hok
      split at hok
      · obtain rfl := Except.ok.inj hok
        exact Or.inl rfl
      · next old hfind =>
        obtain ⟨new, hw, rfl⟩ := write_eq_ok.mp hok
        exact Or.inr (Or.inl ⟨_, _, new, ⟨old, hfind, rfl, rfl⟩, hw, rfl⟩)
    | delete id =>
      obtain ⟨hkeys, hok⟩ := bind_unit_eq_ok.mp hok
      obtain rfl := Except.ok.inj hok
      exact Or.inr (Or.inr ⟨id, hkeys, rfl⟩)

theorem Keys.delete (hkeys : Keys db.dnsRecord)
    (h : checkKeys { db with dnsRecord := db.dnsRecord.filter (·.dnsRecordId ≠ i) } = .ok ()) :
    Keys (db.dnsRecord.filter (·.dnsRecordId ≠ i)) :=
  keys_of_checkKeys { db with dnsRecord := db.dnsRecord.filter (·.dnsRecordId ≠ i) }
    ((List.filter_sublist.map _).nodup hkeys.nodup) h

theorem Keys.step (hkeys : Keys db.dnsRecord) (s : Statement × FirstRow (ℕ × ℕ)) :
    Keys (step db s).dnsRecord := by
  rcases step_cases db s with h | ⟨op, given, new, hs, hw, h⟩ | ⟨id, hcheck, h⟩
  · rwa [h]
  · rw [h]
    exact hw.keys_writeRow hkeys hs.of
  · rw [h]
    exact hkeys.delete hcheck

/-- One zone without records. -/
def Db.emptyZone : Db := ⟨[], [⟨1, "example.com", none⟩], [], []⟩

/-- A record of the zone with a value. -/
def textRecord (id : ℕ) (name : String) (dnsClass dnsType value : String) : DnsRecord :=
  ⟨id, some name, 1, none, dnsClass, dnsType, some value, none, none, none, none, none, none, none,
    none, none, false, true⟩

end JazzHands.Dns

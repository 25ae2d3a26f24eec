import JazzHands.Dns.Written
import JazzHands.Library.Runs

/-!
# Enabled records refer to enabled records

The step looks at the record that is written and at those that refer to it.
-/

namespace JazzHands.Dns

open Library Postgres

variable {t : List DnsRecord} {r q new old given : DnsRecord} {db : Db} {op : Op} {i : ℕ}
  {columns : List Column} {s : Statement} {first : FirstRow (ℕ × ℕ)}

/-- The record takes its value or its name from the record with this id. -/
def Refers (r : DnsRecord) (i : ℕ) : Prop :=
  r.dnsValueRecordId = some i ∨ r.referenceDnsRecordId = some i
  deriving Decidable

/-- No enabled record refers to a disabled one. -/
def RefersEnabled (t : List DnsRecord) : Prop :=
  ∀ r ∈ t, r.isEnabled = true → ∀ q ∈ t, Refers r q.dnsRecordId → q.isEnabled = true

/-- An `UPDATE` that does not name `is_enabled` points no enabled record to a disabled one. -/
def Checked (db : Db) : Statement → Prop
  | .update id columns values => .isEnabled ∉ columns →
      ∀ old ∈ findRecord db.dnsRecord id, old.isEnabled = true →
        ∀ q ∈ db.dnsRecord, Refers (old.set values columns) q.dnsRecordId → q.isEnabled = true
  | _ => True

theorem refers_fillIpUniverse : Refers (fillIpUniverse db r) i ↔ Refers r i := by
  obtain ⟨u, hu⟩ := fillIpUniverse_eq db r
  rw [hu]
  rfl

theorem isEnabled_fillIpUniverse : (fillIpUniverse db r).isEnabled = r.isEnabled := by
  obtain ⟨u, hu⟩ := fillIpUniverse_eq db r
  rw [hu]

theorem Keys.exists_of_refers (h : Keys t) (hr : r ∈ t) (hi : Refers r i) :
    ∃ q ∈ t, q.dnsRecordId = i := by
  rcases hi with hi | hi
  · exact h.value r hr i hi
  · obtain ⟨q, hq, hid, -⟩ := h.reference r hr i hi
    exact ⟨q, hq, hid⟩

/-- `dns_record_enabled_check` finds no disabled record below an enabled one. -/
theorem forall_enabled_of_check (h : dnsRecordEnabledCheck db new = .ok ())
    (hen : new.isEnabled = true) (hq : q ∈ db.dnsRecord) (href : Refers new q.dnsRecordId) :
    q.isEnabled = true := by
  obtain ⟨-, h⟩ := bind_unit_eq_ok.mp h
  rw [raiseIf_eq_ok] at h
  by_contra hdis
  exact h ⟨hen, q, hq, href, by simpa using hdis⟩

theorem not_refers_of_check (h : dnsRecordEnabledCheck db new = .ok ())
    (hdis : new.isEnabled = false) (hr : r ∈ db.dnsRecord) : ¬ Refers r new.dnsRecordId := by
  obtain ⟨h, -⟩ := bind_unit_eq_ok.mp h
  rw [raiseIf_eq_ok] at h
  exact fun href => h ⟨hdis, r, hr, href⟩

theorem Fits.forall_enabled (h : Fits db op given new) (hs : Writes db s op given)
    (hc : Checked db s) (hen : new.isEnabled = true) (hq : q ∈ db.dnsRecord)
    (href : Refers new q.dnsRecordId) : q.isEnabled = true := by
  by_cases hfires : op.Fires [.isEnabled]
  · exact forall_enabled_of_check (h.enabledCheck hfires) hen hq href
  · obtain ⟨rfl, -⟩ := h.checks
    rw [refers_fillIpUniverse] at href
    rw [isEnabled_fillIpUniverse] at hen
    cases s with
    | insert row =>
      obtain ⟨rfl, -⟩ := hs
      exact absurd trivial hfires
    | delete id => exact hs.elim
    | update id columns values =>
      obtain ⟨old, hfind, rfl, rfl⟩ := hs
      have hnot : .isEnabled ∉ columns := fun hmem => hfires ⟨_, hmem, List.mem_singleton_self _⟩
      have hold : old.isEnabled = true := by simpa [DnsRecord.set, hnot] using hen
      exact hc hnot old hfind hold q hq href

/-- An enabled record that stays refers to the record that is written only when that is enabled. -/
theorem Fits.enabled_of_refers (h : Fits db op given new) (hs : Writes db s op given)
    (hkeys : Keys db.dnsRecord) (href : RefersEnabled db.dnsRecord) (hr : r ∈ db.dnsRecord)
    (hen : r.isEnabled = true) (hrn : Refers r new.dnsRecordId) : new.isEnabled = true := by
  by_contra hdis
  rw [Bool.not_eq_true] at hdis
  by_cases hfires : op.Fires [.isEnabled]
  · exact not_refers_of_check (h.enabledCheck hfires) hdis hr hrn
  · -- the id of the new row is that of the old one, which the record refers to already
    obtain ⟨p, hp, hpid⟩ := hkeys.exists_of_refers hr hrn
    cases s with
    | insert row =>
      obtain ⟨rfl, -⟩ := hs
      exact absurd trivial hfires
    | delete id => exact hs.elim
    | update id columns values =>
      have hof := hs.of
      obtain ⟨old, hfind, rfl, rfl⟩ := hs
      have hpold : p.dnsRecordId = old.dnsRecordId := by
        by_contra hne
        refine h.not_dup hp (fun o ho => ?_) hpid
        obtain rfl := Option.mem_some_iff.mp ho
        exact hne
      obtain rfl := hkeys.eq_of_id hp (hof old rfl) hpold
      have hnot : .isEnabled ∉ columns := fun hmem => hfires ⟨_, hmem, List.mem_singleton_self _⟩
      obtain ⟨hnew, -⟩ := h.checks
      rw [hnew, isEnabled_fillIpUniverse] at hdis
      have hold : p.isEnabled = false := by simpa [DnsRecord.set, hnot] using hdis
      rw [← hpid] at hrn
      rw [href r hr hen p hp hrn] at hold
      cases hold

/-- **What one statement keeps.** -/
theorem refersEnabled_step (hkeys : Keys db.dnsRecord) (href : RefersEnabled db.dnsRecord)
    (hc : Checked db s) : RefersEnabled (step db (s, first)).dnsRecord := by
  rcases step_cases db (s, first) with h | ⟨op, given, new, hs, hw, h⟩ | ⟨id, -, h⟩
  · rwa [h]
  · rw [h]
    intro r hr hen q hq hrq
    rcases (mem_writeRow hs.of).mp hr with rfl | ⟨hr', -⟩
    · rcases (mem_writeRow hs.of).mp hq with rfl | ⟨hq', -⟩
      · exact hen
      · exact hw.forall_enabled hs hc hen hq' hrq
    · rcases (mem_writeRow hs.of).mp hq with rfl | ⟨hq', -⟩
      · exact hw.enabled_of_refers hs hkeys href hr' hen hrq
      · exact href r hr' hen q hq' hrq
  · rw [h]
    intro r hr hen q hq hrq
    exact href r (List.mem_of_mem_filter hr) hen q (List.mem_of_mem_filter hq) hrq

/-- **No enabled record refers to a disabled one in any state of a run** whose statements the check
sees. -/
theorem refersEnabled_run (hkeys : Keys db.dnsRecord) (href : RefersEnabled db.dnsRecord)
    {l : List (Statement × FirstRow (ℕ × ℕ))} (hl : AllSteps step (fun db s => Checked db s.1) db l) :
    ∀ l', l' <+: l → RefersEnabled (run step db l').dnsRecord := by
  rintro l' ⟨l'', rfl⟩
  refine (run_invariant (I := fun db : Db => Keys db.dnsRecord ∧ RefersEnabled db.dnsRecord)
    (fun db s hdb hs => ?_) ⟨hkeys, href⟩ (AllSteps.append.mp hl).1).2
  exact ⟨hdb.1.step s, refersEnabled_step hdb.1 hdb.2 hs⟩

/-- A record, and one that takes its value from it. -/
def pointing : List (Statement × FirstRow (ℕ × ℕ)) :=
  [(.insert (textRecord 1 "www" "IN" "TXT" "text"), .listed _),
    (.insert { textRecord 2 "ftp" "IN" "TXT" "" with dnsValue := none, dnsValueRecordId := some 1 },
      .listed _)]

/-- The first record cannot be disabled while the second one refers to it. -/
theorem refersEnabled_run_pointing :
    let l := pointing ++ [(.update 1 [.isEnabled] { textRecord 1 "www" "IN" "TXT" "text" with
      isEnabled := false }, .listed _)]
    RefersEnabled (run step Db.emptyZone l).dnsRecord := by
  intro l
  refine refersEnabled_run (l := l) .nil (fun r hr => absurd hr List.not_mem_nil)
    ⟨trivial, trivial, fun h => ?_, trivial⟩ l List.prefix_rfl
  exact absurd (List.mem_singleton_self _) h

/-- A disabled record is inserted, and the second record is pointed to it: the `UPDATE` does not
name `is_enabled`, so the check does not run. -/
theorem repointed_breaks :
    let l : List (Statement × FirstRow (ℕ × ℕ)) := pointing ++
      [(.insert { textRecord 3 "old" "IN" "TXT" "off" with isEnabled := false }, .listed _),
        (.update 2 [.dnsValueRecordId] { textRecord 2 "ftp" "IN" "TXT" "" with
          dnsValueRecordId := some 3 }, .listed _)]
    ¬ RefersEnabled (run step Db.emptyZone l).dnsRecord := by
  unfold RefersEnabled
  decide

end JazzHands.Dns

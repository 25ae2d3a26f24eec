import JazzHands.Library.ClosedInterval
import JazzHands.Library.Runs
import JazzHands.Netblock.Change
import JazzHands.NetworkRange.Triggers

/-!
# Ranges that do not overlap

* `RangeRules`: ranges of a type without overlaps have no address in common, and every range has its
  ends in order and within its parent.
-/

namespace JazzHands

open Library Postgres

variable {db : Schema} {order : ScanOrder} {s s' : RangeTables} {nr nr' new : NetworkRange}
variable {t : List Netblock} {x : Txn} {a b c d n old r r' : Netblock} {i k : ℕ} {ip : Inet}

/-! ## The rows that an UPDATE of an address stores -/

theorem StandsFor.host (h : StandsFor r r') : r'.ipAddress.host = r.ipAddress.host := by
  rcases h with rfl | ⟨p, hp⟩
  · rfl
  · exact hp.host

theorem StandsFor.position (h : StandsFor r r') : r'.ipAddress.position = r.ipAddress.position := by
  rw [← Inet.position_host, h.host, Inet.position_host]

theorem StandsFor.trans (h : StandsFor n r) (h' : StandsFor r r') : StandsFor n r' := by
  rcases h with rfl | ⟨p, hp⟩
  · exact h'
  · rcases h' with rfl | ⟨q, hq⟩
    · exact Or.inr ⟨p, hp⟩
    · exact Or.inr ⟨q, hp.trans hq⟩

theorem UpdatesParents.standsFor {p : Option ℕ} {cond : Netblock → Prop} {x x' : Txn}
    {g : Netblock → Netblock} (h : UpdatesParents p cond x x' g) (hr : r ∈ x.netblock) :
    StandsFor r (g r) :=
  (h.touched_or_eq hr).imp_right fun ht => ⟨p, ht⟩

/-- The rows other than the updated one keep their keys and addresses. -/
structure KeepsRows (t t' : List Netblock) (i : ℕ) : Prop where
  wellFormed : WellFormed t'
  find : ∀ k r, findNetblock t k = some r → ∃ r', findNetblock t' k = some r'
  other : ∀ k r r', k ≠ i → findNetblock t k = some r → findNetblock t' k = some r' → StandsFor r r'

theorem executeUpdate_keepsRows (ht : WellFormed t) (hold : old ∈ t)
    (h : executeUpdate db order t old { ipAddress := some (some ip) } = .ok x) :
    KeepsRows t x.netblock old.netblockId := by
  rcases executeUpdate_ok ht hold h with
    ⟨hfire, -⟩ | ⟨n, new, x₁, x₂, g, g', -, hn, hw, hg, hg', hA, hR, hcons, rfl⟩
  · cases hfire
  have hid : new.netblockId = old.netblockId := by
    rw [hw.netblockId, (complete_ok hn).1]
    rfl
  have hmem₁ : ∀ r ∈ t, g r ∈ x₁.netblock := fun r hr => hg.netblock ▸ List.mem_map_of_mem hr
  have hmem₂ : ∀ r ∈ t, g' (g r) ∈ x₂.netblock := fun r hr =>
    hg'.netblock ▸ List.mem_map_of_mem (hmem₁ r hr)
  have hstands : ∀ r ∈ t, StandsFor r (g' (g r)) := fun r hr =>
    (hg.standsFor hr).trans (hg'.standsFor (hmem₁ r hr))
  have hold₂ : old ∈ x₂.netblock := by
    have hgold : g old = old := hg.kept old hold hA
    have := hmem₂ old hold
    rwa [hgold, hg'.kept old (hgold ▸ hmem₁ old hold) hR] at this
  have hwf := hg'.wellFormed.replace hold₂ hcons hw.network
  -- a row with another key than the updated one is found where it was
  have hother : ∀ k r, k ≠ old.netblockId → findNetblock t k = some r →
      findNetblock (replace x₂.netblock old new) k = some (g' (g r)) := by
    intro k r hk hr
    obtain ⟨hrt, rfl⟩ := findNetblock_eq_some hr
    have hrid := (hstands r hrt).columns.1
    rw [← hrid]
    exact hwf.findNetblock_mem ((mem_replace hold₂).mpr (Or.inr ⟨hmem₂ r hrt, by rwa [hrid]⟩))
  refine ⟨hwf, fun k r hr => ?_, fun k r r' hk hr hr' => ?_⟩
  · by_cases hk : k = old.netblockId
    · refine ⟨new, ?_⟩
      rw [hk, ← hid]
      exact hwf.findNetblock_mem ((mem_replace hold₂).mpr (Or.inl rfl))
    · exact ⟨_, hother k r hk hr⟩
  · rw [show findNetblock _ k = some (g' (g r)) from hother k r hk hr] at hr'
    cases hr'
    exact hstands r (findNetblock_eq_some hr).1

/-! ## The rules -/

/-- The places of the ends of a range among all addresses. -/
def interval (start stop : Netblock) : ℕ × ℕ :=
  (start.ipAddress.position, stop.ipAddress.position)

/-- The range type does not allow overlaps. -/
def RangeTables.NoOverlap (s : RangeTables) (networkRangeType : String) : Prop :=
  ∃ v ∈ s.nrt networkRangeType, v.canOverlap = false
  deriving Decidable

/-- Ranges of a type that does not allow overlaps have no address in common. -/
def RangesApart (s : RangeTables) : Prop :=
  ∀ nr ∈ s.networkRange, ∀ nr' ∈ s.networkRange, nr.networkRangeId ≠ nr'.networkRangeId →
    nr.networkRangeType = nr'.networkRangeType → s.NoOverlap nr.networkRangeType →
      ∀ a ∈ s.start nr, ∀ b ∈ s.stop nr, ∀ c ∈ s.start nr', ∀ d ∈ s.stop nr',
        ¬ Meets (interval a b) (interval c d)

/-- The ends of a range are in order, and within its parent. -/
def IsWithin (s : RangeTables) (nr : NetworkRange) : Prop :=
  ∃ p ∈ s.parent nr, ∃ a ∈ s.start nr, ∃ b ∈ s.stop nr,
    a.ipAddress.position ≤ b.ipAddress.position ∧ WithinParent p a b

structure RangeRules (s : RangeTables) : Prop where
  apart : RangesApart s
  within : ∀ nr ∈ s.networkRange, IsWithin s nr

theorem hostEndIn_iff : HostEndIn a.ipAddress b.ipAddress c.ipAddress d.ipAddress ↔
    EndIn (interval a b) (interval c d) := by
  simp only [HostEndIn, EndIn, Inet.le_host_iff, interval]

theorem IsWithin.ordered (h : IsWithin s nr) (ha : a ∈ s.start nr) (hb : b ∈ s.stop nr) :
    a.ipAddress.position ≤ b.ipAddress.position := by
  obtain ⟨p, -, a', ha', b', hb', hle, -⟩ := h
  rwa [Option.mem_unique ha ha', Option.mem_unique hb hb']

/-! ## INSERT and UPDATE of a range -/

instance {a b : ℕ × ℕ} : Decidable (Inside a b) := by
  unfold Inside
  infer_instance

/-- No other range of the type of `new` lies strictly inside it. -/
def NoRangeInside (s : RangeTables) (new : NetworkRange) : Prop :=
  s.NoOverlap new.networkRangeType → ∀ a ∈ s.start new, ∀ b ∈ s.stop new,
    ∀ nr ∈ s.networkRange, nr.networkRangeId ≠ new.networkRangeId →
      nr.networkRangeType = new.networkRangeType → ∀ c ∈ s.start nr, ∀ d ∈ s.stop nr,
        ¬ Inside (interval c d) (interval a b)
  deriving Decidable

theorem validateNetworkRangeIps_ok (h : validateNetworkRangeIps s new = .ok ())
    (hnew : new ∈ s.networkRange) :
    (∀ p ∈ s.parent new, ∀ a ∈ s.start new, ∀ b ∈ s.stop new,
      a.ipAddress.position ≤ b.ipAddress.position ∧ WithinParent p a b) ∧
    (s.NoOverlap new.networkRangeType → ∀ a ∈ s.start new, ∀ b ∈ s.stop new,
      ∀ nr ∈ s.networkRange, nr.networkRangeId ≠ new.networkRangeId →
        nr.networkRangeType = new.networkRangeType → ∀ c ∈ s.start nr, ∀ d ∈ s.stop nr,
          ¬ EndIn (interval a b) (interval c d)) := by
  simp only [validateNetworkRangeIps, bind_unit_eq_ok, raiseIf_eq_ok] at h
  obtain ⟨-, -, -, -, hwithin, hover, -, horder⟩ := h
  refine ⟨fun p hp a ha b hb => ⟨?_, ?_⟩, fun hno a ha b hb nr hnr hne hτ c hc d hd hend => ?_⟩
  · by_contra hle
    refine horder ⟨new, hnew, a, ha, b, hb, rfl, ?_⟩
    rw [Inet.lt_host_iff]
    exact not_le.mp hle
  · by_contra hnot
    exact hwithin ⟨p, hp, a, ha, b, hb, hnot⟩
  · exact hover ⟨hno, a, ha, b, hb, nr, hnr, c, hc, d, hd, hτ, hne, hostEndIn_iff.mpr hend⟩

theorem checkRangeKeys_ok (h : checkRangeKeys s new = .ok ()) :
    (∃ p, s.parent new = some p) ∧ (∃ a, s.start new = some a) ∧ ∃ b, s.stop new = some b := by
  simp only [checkRangeKeys, bind_unit_eq_ok, raiseIf_eq_ok, ← ne_eq, Option.ne_none_iff_exists'] at h
  exact h.2

/-- Storing a range with no range strictly inside it keeps the rules. -/
theorem RangeRules.write {l : List NetworkRange} (h : RangeRules s)
    (hl : ∀ nr ∈ l, nr = new ∨ nr ∈ s.networkRange ∧ nr.networkRangeId ≠ new.networkRangeId)
    (hnew : new ∈ l) (hkeys : checkRangeKeys s new = .ok ())
    (hcheck : validateNetworkRangeIps { s with networkRange := l } new = .ok ())
    (hinside : NoRangeInside s new) : RangeRules { s with networkRange := l } := by
  obtain ⟨⟨p, hp⟩, ⟨a₀, ha₀⟩, b₀, hb₀⟩ := checkRangeKeys_ok hkeys
  obtain ⟨hwithin, hend⟩ := validateNetworkRangeIps_ok hcheck hnew
  -- the new range against another one
  have hone : ∀ nr ∈ s.networkRange, nr ∈ l → nr.networkRangeId ≠ new.networkRangeId →
      nr.networkRangeType = new.networkRangeType → s.NoOverlap new.networkRangeType →
        ∀ a ∈ s.start new, ∀ b ∈ s.stop new, ∀ c ∈ s.start nr, ∀ d ∈ s.stop nr,
          ¬ Meets (interval a b) (interval c d) := by
    intro nr hnr hnrl hne hτ hno a ha b hb c hc d hd hmeets
    rcases (meets_iff (hwithin p hp a ha b hb).1 ((h.within nr hnr).ordered hc hd)).mp hmeets
      with he | hi
    · exact hend hno a ha b hb nr hnrl hne hτ c hc d hd he
    · exact hinside hno a ha b hb nr hnr hne hτ c hc d hd hi
  refine ⟨fun nr hnr nr' hnr' hne hτ hno a ha b hb c hc d hd hmeets => ?_, fun nr hnr => ?_⟩
  · rcases hl nr hnr with rfl | ⟨hmem, hne₁⟩
    · rcases hl nr' hnr' with rfl | ⟨hmem', hne₂⟩
      · exact hne rfl
      · exact hone nr' hmem' hnr' hne₂ hτ.symm hno a ha b hb c hc d hd hmeets
    · rcases hl nr' hnr' with rfl | ⟨hmem', -⟩
      · exact hone nr hmem hnr hne₁ hτ (hτ ▸ hno) c hc d hd a ha b hb hmeets.symm
      · exact h.apart nr hmem nr' hmem' hne hτ hno a ha b hb c hc d hd hmeets
  · rcases hl nr hnr with rfl | ⟨hmem, -⟩
    · exact ⟨p, hp, a₀, ha₀, b₀, hb₀, hwithin p hp a₀ ha₀ b₀ hb₀⟩
    · exact h.within nr hmem

/-! ## UPDATE of a range type -/

theorem nrt_replaceRangeType {v v' : NetworkRangeType} {τ : String} {l : List NetworkRangeType}
    (h : ({ s with valNetworkRangeType := replaceRangeType l v } : RangeTables).nrt τ = some v') :
    v' = v ∧ v.networkRangeType = τ ∨
      ({ s with valNetworkRangeType := l } : RangeTables).nrt τ = some v' := by
  simp only [RangeTables.nrt] at h ⊢
  induction l with
  | nil => cases h
  | cons w l ih =>
    simp only [replaceRangeType, List.map_cons, List.find?_cons] at h ⊢
    by_cases hw : w.networkRangeType = v.networkRangeType
    · rw [if_pos hw] at h
      by_cases hv : v.networkRangeType = τ
      · simp only [hv, decide_true, Option.some.injEq] at h
        exact Or.inl ⟨h.symm, hv⟩
      · simp only [hv, decide_false] at h
        simpa only [hw, hv, decide_false] using ih h
    · rw [if_neg hw] at h
      by_cases hτ : w.networkRangeType = τ
      · simp only [hτ, decide_true] at h ⊢
        exact Or.inr h
      · simp only [hτ, decide_false] at h ⊢
        exact ih h

/-- Switching `can_overlap` keeps the rules: the trigger looks at the ends of both ranges. -/
theorem RangeRules.updateCanOverlap {v : NetworkRangeType} (h : RangeRules s)
    (hs : updateCanOverlap s v = .ok s') : RangeRules s' := by
  simp only [JazzHands.updateCanOverlap, bind_unit_eq_ok, validateNetRangeToggleNonoverlap,
    raiseIf_eq_ok, Except.ok.injEq] at hs
  obtain ⟨⟨hover, -⟩, rfl⟩ := hs
  refine ⟨fun nr hnr nr' hnr' hne hτ hno a ha b hb c hc d hd hmeets => ?_, h.within⟩
  obtain ⟨v', hv', hfalse⟩ := hno
  rcases nrt_replaceRangeType hv' with ⟨rfl, hvτ⟩ | hold
  · rcases (meets_iff_endIn ((h.within nr hnr).ordered ha hb)
      ((h.within nr' hnr').ordered hc hd)).mp hmeets with he | he
    · exact hover ⟨hfalse, nr, hnr, a, ha, b, hb, nr', hnr', c, hc, d, hd, hτ, hne, hvτ.symm,
        hostEndIn_iff.mpr he⟩
    · exact hover ⟨hfalse, nr', hnr', c, hc, d, hd, nr, hnr, a, ha, b, hb, hτ.symm, hne.symm,
        hτ ▸ hvτ.symm, hostEndIn_iff.mpr he⟩
  · exact h.apart nr hnr nr' hnr' hne hτ ⟨v', hold, hfalse⟩ a ha b hb c hc d hd hmeets

/-! ## UPDATE of a netblock -/

/-- The range has the netblock at one of its ends. -/
def NetworkRange.EndsAt (nr : NetworkRange) (i : ℕ) : Prop :=
  nr.startNetblockId = i ∨ nr.stopNetblockId = i

/-- The comparisons of `inet` values put the address between the ends of the range. -/
def IsAround (s : RangeTables) (nr : NetworkRange) (ip : Inet) : Prop :=
  ∃ a ∈ s.start nr, ∃ b ∈ s.stop nr, a.ipAddress.le ip ∧ ip.le b.ipAddress

/-- The rows `s'` that the UPDATE of the netblock `i` stores suit the ranges.  No other single
address that is the parent of a range gets a longer mask.  No range lies strictly inside one that
ends at `i`.  Where the new address lies in another range of the same type, the comparisons of
`inet` values, which heed masks, see it in both ranges. -/
structure FitsRanges (s s' : RangeTables) (i : ℕ) : Prop where
  parents : ∀ nr ∈ s.networkRange, nr.parentNetblockId ≠ i → ∀ p ∈ s.parent nr,
    ∀ p' ∈ s'.parent nr, p'.ipAddress.masklen ≤ p.ipAddress.masklen
  inside : ∀ nr ∈ s.networkRange, nr.EndsAt i → NoRangeInside s' nr
  counted : ∀ nr ∈ s.networkRange, nr.EndsAt i → s'.NoOverlap nr.networkRangeType →
    ∀ nr' ∈ s.networkRange, nr'.networkRangeId ≠ nr.networkRangeId →
      nr'.networkRangeType = nr.networkRangeType → ∀ n ∈ findNetblock s'.netblock i,
        ∀ c ∈ s'.start nr', ∀ d ∈ s'.stop nr',
          n.ipAddress.position ∈ Set.Icc c.ipAddress.position d.ipAddress.position →
            IsAround s' nr n.ipAddress ∧ IsAround s' nr' n.ipAddress

theorem one_lt_length_of_mem {α : Type*} {l : List α} {x y : α} (hx : x ∈ l) (hy : y ∈ l)
    (hne : x ≠ y) : 1 < l.length := by
  match l, hx, hy with
  | [z], hx, hy => exact absurd ((List.mem_singleton.mp hx).trans (List.mem_singleton.mp hy).symm) hne
  | _ :: _ :: l, _, _ => simp

theorem validateNetblockToRangeChanges_ok (h : validateNetblockToRangeChanges s old n = .ok ()) :
    (∀ nr ∈ s.networkRange, nr.Uses n.netblockId → (∃ v, s.nrt nr.networkRangeType = some v) →
      ∀ p ∈ s.parent nr, ∀ a ∈ s.start nr, ∀ b ∈ s.stop nr, WithinParent p a b) ∧
    (old.ipAddress ≠ n.ipAddress →
      (∀ nr ∈ s.networkRange, nr.EndsAt n.netblockId → ∀ a ∈ s.start nr, ∀ b ∈ s.stop nr,
        a.ipAddress.position ≤ b.ipAddress.position) ∧
      ∀ nr ∈ s.networkRange, nr.Uses n.netblockId → s.NoOverlap nr.networkRangeType →
        IsAround s nr n.ipAddress → ∀ nr' ∈ s.networkRange,
          nr'.networkRangeType = nr.networkRangeType → IsAround s nr' n.ipAddress → nr' = nr) := by
  have hmem : ∀ {τ : String} {v : NetworkRangeType}, s.nrt τ = some v →
      v ∈ s.valNetworkRangeType ∧ v.networkRangeType = τ := fun hv =>
    Library.of_find?_eq_some hv
  obtain ⟨hconflict, hchanged⟩ := bind_unit_eq_ok.mp h
  rw [raiseIf_eq_ok] at hconflict
  refine ⟨?_, fun hip => ?_⟩
  · rintro nr hnr huses ⟨v, hv⟩ p hp a ha b hb
    by_contra hnot
    exact hconflict ⟨nr, hnr, p, hp, a, ha, b, hb, v, (hmem hv).1, (hmem hv).2, huses,
      Or.inr (Or.inr (Or.inr (Or.inl hnot)))⟩
  rw [if_pos hip] at hchanged
  simp only [validateChangedAddress, bind_unit_eq_ok, raiseIf_eq_ok] at hchanged
  obtain ⟨horder, hcount, -⟩ := hchanged
  refine ⟨fun nr hnr hends a ha b hb => ?_, ?_⟩
  · by_contra hle
    refine horder ⟨nr, hnr, a, ha, b, hb, hends, ?_⟩
    rw [Inet.lt_host_iff]
    exact not_le.mp hle
  · rintro nr hnr huses ⟨v, hv, hno⟩ haround nr' hnr' hτ haround'
    by_contra hne
    obtain ⟨hv, hvτ⟩ := hmem hv
    refine hcount ⟨v, hv, hno, ⟨nr, hnr, hvτ.symm, huses⟩, one_lt_length_of_mem ?_ ?_ hne⟩
    · exact List.mem_filter.mpr ⟨hnr', decide_eq_true ⟨hτ.trans hvτ.symm, haround'⟩⟩
    · exact List.mem_filter.mpr ⟨hnr, decide_eq_true ⟨hvτ.symm, haround⟩⟩

section UpdateNetblock

variable {t' : List Netblock}

/-- The tables `s` with other rows in `netblock`. -/
def RangeTables.withNetblock (s : RangeTables) (t' : List Netblock) : RangeTables :=
  { s with netblock := t' }

/-- An end of a range that is not the updated netblock is where it was. -/
theorem KeepsRows.position (hk : KeepsRows s.netblock t' i) (hne : k ≠ i)
    (hr : findNetblock s.netblock k = some r) (hr' : findNetblock t' k = some r') :
    r'.ipAddress.position = r.ipAddress.position :=
  (hk.other k r r' hne hr hr').position

/-- A range that does not end at the updated netblock is where it was. -/
theorem KeepsRows.interval_eq (hk : KeepsRows s.netblock t' i) (hw : IsWithin s nr)
    (hne : ¬ nr.EndsAt i) (ha : a ∈ (s.withNetblock t').start nr)
    (hb : b ∈ (s.withNetblock t').stop nr) :
    ∃ a₀ ∈ s.start nr, ∃ b₀ ∈ s.stop nr, interval a b = interval a₀ b₀ := by
  obtain ⟨-, -, a₀, ha₀, b₀, hb₀, -⟩ := hw
  rw [NetworkRange.EndsAt, not_or] at hne
  exact ⟨a₀, ha₀, b₀, hb₀, Prod.ext (hk.position hne.1 ha₀ ha) (hk.position hne.2 hb₀ hb)⟩

theorem KeepsRows.interval_eq_of_ip_eq (hk : KeepsRows s.netblock t' i) (hw : IsWithin s nr)
    (hold : findNetblock s.netblock i = some old) (hn : findNetblock t' i = some n)
    (hip : old.ipAddress = n.ipAddress) (ha : a ∈ (s.withNetblock t').start nr)
    (hb : b ∈ (s.withNetblock t').stop nr) :
    ∃ a₀ ∈ s.start nr, ∃ b₀ ∈ s.stop nr, interval a b = interval a₀ b₀ := by
  have hpos : ∀ k r r', findNetblock s.netblock k = some r → findNetblock t' k = some r' →
      r'.ipAddress.position = r.ipAddress.position := by
    intro k r r' hr hr'
    by_cases hki : k = i
    · rw [hki, hold] at hr
      rw [hki, hn] at hr'
      cases hr
      cases hr'
      rw [hip]
    · exact hk.position hki hr hr'
  obtain ⟨-, -, a₀, ha₀, b₀, hb₀, -⟩ := hw
  exact ⟨a₀, ha₀, b₀, hb₀, Prod.ext (hpos _ _ _ ha₀ ha) (hpos _ _ _ hb₀ hb)⟩

theorem RangeTables.start_eq (hi : nr.startNetblockId = i) (hn : findNetblock s.netblock i = some n)
    (ha : a ∈ s.start nr) : a = n := by
  rw [RangeTables.start, hi] at ha
  exact Option.mem_unique ha hn

theorem RangeTables.stop_eq (hi : nr.stopNetblockId = i) (hn : findNetblock s.netblock i = some n)
    (hb : b ∈ s.stop nr) : b = n := by
  rw [RangeTables.stop, hi] at hb
  exact Option.mem_unique hb hn

/-- A range that ends at the updated netblock against one that does not. -/
theorem RangeRules.not_meets_updated (h : RangeRules s) (hk : KeepsRows s.netblock t' i)
    (hn : findNetblock t' i = some n)
    (hcheck : validateNetblockToRangeChanges (s.withNetblock t') old n = .ok ())
    (hfit : FitsRanges s (s.withNetblock t') i) (hip : old.ipAddress ≠ n.ipAddress)
    (hnr : nr ∈ s.networkRange) (hnr' : nr' ∈ s.networkRange)
    (hne : nr.networkRangeId ≠ nr'.networkRangeId)
    (hτ : nr.networkRangeType = nr'.networkRangeType) (hno : s.NoOverlap nr.networkRangeType)
    (hends : nr.EndsAt i) (hends' : ¬ nr'.EndsAt i) (ha : a ∈ (s.withNetblock t').start nr)
    (hb : b ∈ (s.withNetblock t').stop nr) (hc : c ∈ (s.withNetblock t').start nr')
    (hd : d ∈ (s.withNetblock t').stop nr') : ¬ Meets (interval a b) (interval c d) := by
  intro hmeets
  have hid : n.netblockId = i := (findNetblock_eq_some hn).2
  obtain ⟨horder, hcount⟩ := (validateNetblockToRangeChanges_ok hcheck).2 hip
  obtain ⟨c₀, hc₀, d₀, hd₀, hcd⟩ := hk.interval_eq (h.within nr' hnr') hends' hc hd
  obtain ⟨-, -, a₀, ha₀, b₀, hb₀, hab₀, -⟩ := h.within nr hnr
  have hab : a.ipAddress.position ≤ b.ipAddress.position := horder nr hnr (hid ▸ hends) a ha b hb
  have hcd' : c.ipAddress.position ≤ d.ipAddress.position := by
    have := (h.within nr' hnr').ordered hc₀ hd₀
    rwa [show c.ipAddress.position = _ from congrArg Prod.fst hcd,
      show d.ipAddress.position = _ from congrArg Prod.snd hcd]
  have hapart := h.apart nr hnr nr' hnr' hne hτ hno a₀ ha₀ b₀ hb₀ c₀ hc₀ d₀ hd₀
  -- the new address does not lie in the other range, or the trigger would have counted both
  have hnew : n.ipAddress.position ∉ Set.Icc c.ipAddress.position d.ipAddress.position := by
    intro hmem
    obtain ⟨h₁, h₂⟩ := hfit.counted nr hnr hends hno nr' hnr' hne.symm hτ.symm n hn c hc d hd hmem
    have heq := hcount nr hnr (hid ▸ Or.inr hends) hno h₁ nr' hnr' hτ.symm h₂
    exact hne (congrArg _ heq.symm)
  rcases (meets_iff hab hcd').mp hmeets with (hstart | hstop) | hinside
  · by_cases hi : nr.startNetblockId = i
    · rw [RangeTables.start_eq (s := s.withNetblock t') hi hn ha] at hstart
      exact hnew hstart
    · refine hapart ⟨a.ipAddress.position, ?_, ?_⟩
      · rw [hk.position hi ha₀ ha]
        exact ⟨le_rfl, hab₀⟩
      · rw [← hcd]
        exact hstart
  · by_cases hi : nr.stopNetblockId = i
    · rw [RangeTables.stop_eq (s := s.withNetblock t') hi hn hb] at hstop
      exact hnew hstop
    · refine hapart ⟨b.ipAddress.position, ?_, ?_⟩
      · rw [hk.position hi hb₀ hb]
        exact ⟨hab₀, le_rfl⟩
      · rw [← hcd]
        exact hstop
  · exact hfit.inside nr hnr hends hno a ha b hb nr' hnr' hne.symm hτ.symm c hc d hd hinside

/-- Two ranges without overlaps do not end at one netblock. -/
theorem RangeRules.not_both_end (h : RangeRules s) (hold : findNetblock s.netblock i = some old)
    (hnr : nr ∈ s.networkRange) (hnr' : nr' ∈ s.networkRange)
    (hne : nr.networkRangeId ≠ nr'.networkRangeId)
    (hτ : nr.networkRangeType = nr'.networkRangeType) (hno : s.NoOverlap nr.networkRangeType)
    (hends : nr.EndsAt i) : ¬ nr'.EndsAt i := by
  intro hends'
  have hmem : ∀ {nr}, nr ∈ s.networkRange → nr.EndsAt i → ∀ a ∈ s.start nr, ∀ b ∈ s.stop nr,
      old.ipAddress.position ∈ Set.Icc a.ipAddress.position b.ipAddress.position := by
    rintro nr hnr (hi | hi) a ha b hb
    · obtain rfl := RangeTables.start_eq hi hold ha
      exact ⟨le_rfl, (h.within nr hnr).ordered ha hb⟩
    · obtain rfl := RangeTables.stop_eq hi hold hb
      exact ⟨(h.within nr hnr).ordered ha hb, le_rfl⟩
  obtain ⟨-, -, a, ha, b, hb, -⟩ := h.within nr hnr
  obtain ⟨-, -, c, hc, d, hd, -⟩ := h.within nr' hnr'
  exact h.apart nr hnr nr' hnr' hne hτ hno a ha b hb c hc d hd
    ⟨_, hmem hnr hends a ha b hb, hmem hnr' hends' c hc d hd⟩

section

variable (h : RangeRules s) (hk : KeepsRows s.netblock t' i)
  (hold : findNetblock s.netblock i = some old) (hn : findNetblock t' i = some n)
  (hcheck : validateNetblockToRangeChanges (s.withNetblock t') old n = .ok ())
  (hfit : FitsRanges s (s.withNetblock t') i)
include h hk hold hn hcheck hfit

theorem RangeRules.apart_updated : RangesApart (s.withNetblock t') := by
  intro nr hnr nr' hnr' hne hτ hno a ha b hb c hc d hd hmeets
  by_cases hip : old.ipAddress = n.ipAddress
  · obtain ⟨a₀, ha₀, b₀, hb₀, hab⟩ :=
      hk.interval_eq_of_ip_eq (h.within nr hnr) hold hn hip ha hb
    obtain ⟨c₀, hc₀, d₀, hd₀, hcd⟩ :=
      hk.interval_eq_of_ip_eq (h.within nr' hnr') hold hn hip hc hd
    rw [hab, hcd] at hmeets
    exact h.apart nr hnr nr' hnr' hne hτ hno a₀ ha₀ b₀ hb₀ c₀ hc₀ d₀ hd₀ hmeets
  by_cases hends : nr.EndsAt i
  · exact h.not_meets_updated hk hn hcheck hfit hip hnr hnr' hne hτ hno hends
      (h.not_both_end hold hnr hnr' hne hτ hno hends) ha hb hc hd hmeets
  by_cases hends' : nr'.EndsAt i
  · exact h.not_meets_updated hk hn hcheck hfit hip hnr' hnr hne.symm hτ.symm (hτ ▸ hno) hends'
      hends hc hd ha hb hmeets.symm
  · obtain ⟨a₀, ha₀, b₀, hb₀, hab⟩ := hk.interval_eq (h.within nr hnr) hends ha hb
    obtain ⟨c₀, hc₀, d₀, hd₀, hcd⟩ := hk.interval_eq (h.within nr' hnr') hends' hc hd
    rw [hab, hcd] at hmeets
    exact h.apart nr hnr nr' hnr' hne hτ hno a₀ ha₀ b₀ hb₀ c₀ hc₀ d₀ hd₀ hmeets

theorem RangeRules.within_updated (htype : ∃ v, s.nrt nr.networkRangeType = some v)
    (hnr : nr ∈ s.networkRange) :
    IsWithin (s.withNetblock t') nr := by
  have hid : n.netblockId = i := (findNetblock_eq_some hn).2
  obtain ⟨hwithin, hchanged⟩ := validateNetblockToRangeChanges_ok hcheck
  obtain ⟨p₀, hp₀, a₀, ha₀, b₀, hb₀, hab₀, hin⟩ := h.within nr hnr
  obtain ⟨p, hp⟩ := hk.find _ p₀ hp₀
  obtain ⟨a, ha⟩ := hk.find _ a₀ ha₀
  obtain ⟨b, hb⟩ := hk.find _ b₀ hb₀
  refine ⟨p, hp, a, ha, b, hb, ?_, ?_⟩
  · by_cases hcase : nr.EndsAt i ∧ old.ipAddress ≠ n.ipAddress
    · exact (hchanged hcase.2).1 nr hnr (hid ▸ hcase.1) a ha b hb
    · have hsame : ∃ a₁ ∈ s.start nr, ∃ b₁ ∈ s.stop nr, interval a b = interval a₁ b₁ := by
        by_cases hip : old.ipAddress = n.ipAddress
        · exact hk.interval_eq_of_ip_eq (h.within nr hnr) hold hn hip ha hb
        · exact hk.interval_eq (h.within nr hnr) (fun he => hcase ⟨he, hip⟩) ha hb
      obtain ⟨a₁, ha₁, b₁, hb₁, heq⟩ := hsame
      rw [show a.ipAddress.position = _ from congrArg Prod.fst heq,
        show b.ipAddress.position = _ from congrArg Prod.snd heq]
      exact (h.within nr hnr).ordered ha₁ hb₁
  · by_cases huses : nr.Uses i
    · exact hwithin nr hnr (hid ▸ huses) htype p hp a ha b hb
    · rw [NetworkRange.Uses, not_or, not_or] at huses
      obtain ⟨hpi, hai, hbi⟩ := huses
      have hcidr : p₀.ipAddress.cidr ≤ p.ipAddress.cidr :=
        Inet.cidr_le_of_host_eq (hk.other _ _ _ hpi hp₀ hp).host.symm
          (hfit.parents nr hnr hpi p₀ hp₀ p hp)
      rw [WithinParent, Inet.subnetEq_iff, Inet.subnetEq_iff] at hin ⊢
      rw [(hk.other _ _ _ hai ha₀ ha).host, (hk.other _ _ _ hbi hb₀ hb).host]
      exact ⟨hin.1.trans hcidr, hin.2.trans hcidr⟩

end

end UpdateNetblock

/-! ## Runs -/

/-- The rows that the UPDATE of an address stores, before its constraint trigger runs. -/
def StoredByUpdate (db : Schema) (order : ScanOrder) (s : RangeTables) (i : ℕ) (ip : Inet)
    (x : Txn) : Prop :=
  ∃ old, findNetblock s.netblock i = some old ∧
    executeUpdate db order s.netblock old { ipAddress := some (some ip) } = .ok x

/-- The statement does not slip past the queries of the triggers. -/
def RangeStatement.KeepsApart (db : Schema) (order : ScanOrder) (s : RangeTables) :
    RangeStatement → Prop
  | .insert new => NoRangeInside s new
  | .update networkRangeId set => ∀ old,
      s.networkRange.find? (·.networkRangeId = networkRangeId) = some old →
        NoRangeInside s (set.apply old)
  | .setIpAddress i ip => ∀ x, StoredByUpdate db order s i ip x →
      FitsRanges s (s.withNetblock x.netblock) i
  | .setCanOverlap _ _ => True

/-- What holds of the tables after every statement. -/
structure RangeInvariant (s : RangeTables) : Prop where
  netblock : WellFormed s.netblock
  type : ∀ nr ∈ s.networkRange, ∃ v, s.nrt nr.networkRangeType = some v
  rules : RangeRules s

theorem nrt_replaceRangeType_isSome {v : NetworkRangeType} {τ : String} {l : List NetworkRangeType}
    (h : ∃ w, ({ s with valNetworkRangeType := l } : RangeTables).nrt τ = some w) :
    ∃ w, ({ s with valNetworkRangeType := replaceRangeType l v } : RangeTables).nrt τ = some w := by
  simp only [RangeTables.nrt, ← Option.isSome_iff_exists, List.find?_isSome] at h ⊢
  obtain ⟨w, hw, hτ⟩ := h
  by_cases hwv : w.networkRangeType = v.networkRangeType
  · refine ⟨v, List.mem_map.mpr ⟨w, hw, if_pos hwv⟩, ?_⟩
    rwa [← hwv]
  · exact ⟨w, List.mem_map.mpr ⟨w, hw, if_neg hwv⟩, hτ⟩

theorem checkRangeKeys_type (h : checkRangeKeys s new = .ok ()) :
    ∃ v, s.nrt new.networkRangeType = some v := by
  simp only [checkRangeKeys, bind_unit_eq_ok, raiseIf_eq_ok, ← ne_eq, Option.ne_none_iff_exists'] at h
  exact h.1

section

variable (h : RangeInvariant s)
include h

theorem RangeInvariant.write {l : List NetworkRange}
    (hl : ∀ nr ∈ l, nr = new ∨ nr ∈ s.networkRange ∧ nr.networkRangeId ≠ new.networkRangeId)
    (hnew : new ∈ l) (hkeys : checkRangeKeys s new = .ok ())
    (hcheck : validateNetworkRangeIps { s with networkRange := l } new = .ok ())
    (hinside : NoRangeInside s new) : RangeInvariant { s with networkRange := l } := by
  refine ⟨h.netblock, fun nr hnr => ?_, h.rules.write hl hnew hkeys hcheck hinside⟩
  rcases hl nr hnr with rfl | ⟨hmem, -⟩
  · exact checkRangeKeys_type hkeys
  · exact h.type nr hmem

theorem RangeInvariant.insertRange (hs : insertRange s new = .ok s') (hinside : NoRangeInside s new)
    : RangeInvariant s' := by
  simp only [JazzHands.insertRange, bind_unit_eq_ok, raiseIf_eq_ok, Except.ok.injEq] at hs
  obtain ⟨hpk, hkeys, hcheck, rfl⟩ := hs
  refine h.write (fun nr hnr => ?_) (by simp) hkeys hcheck hinside
  rcases List.mem_append.mp hnr with hnr | hnr
  · exact Or.inr ⟨hnr, fun e => hpk ⟨nr, hnr, e⟩⟩
  · exact Or.inl (List.mem_singleton.mp hnr)

theorem RangeInvariant.updateRange {old : NetworkRange} (hs : updateRange s new = .ok s')
    (hold : old ∈ s.networkRange) (hid : old.networkRangeId = new.networkRangeId)
    (hinside : NoRangeInside s new) :
    RangeInvariant s' := by
  simp only [JazzHands.updateRange, bind_unit_eq_ok, Except.ok.injEq] at hs
  obtain ⟨hkeys, hcheck, rfl⟩ := hs
  refine h.write (fun nr hnr => ?_) ?_ hkeys hcheck hinside
  · obtain ⟨nr₀, hnr₀, rfl⟩ := List.mem_map.mp hnr
    split_ifs with hc
    · exact Or.inl rfl
    · exact Or.inr ⟨hnr₀, hc⟩
  · exact List.mem_map.mpr ⟨old, hold, if_pos hid⟩

theorem RangeInvariant.updateIpAddress (hold : findNetblock s.netblock i = some old)
    (hs : updateIpAddress db order s old ip = .ok s')
    (hfit : ∀ x, StoredByUpdate db order s i ip x → FitsRanges s (s.withNetblock x.netblock) i) :
    RangeInvariant s' := by
  obtain ⟨x, hx, hs⟩ := bind_eq_ok.mp hs
  obtain ⟨holdt, rfl⟩ := findNetblock_eq_some hold
  have hk := executeUpdate_keepsRows h.netblock holdt hx
  obtain ⟨n, hn⟩ := hk.find _ old hold
  rw [hn] at hs
  obtain ⟨hcheck, hs⟩ := bind_unit_eq_ok.mp hs
  cases hs
  have hfit' := hfit x ⟨old, hold, hx⟩
  exact ⟨hk.wellFormed, h.type, h.rules.apart_updated hk hold hn hcheck hfit',
    fun nr hnr => h.rules.within_updated hk hold hn hcheck hfit' (h.type nr hnr) hnr⟩

/-- **A statement** that does not slip past the queries keeps the invariant. -/
theorem RangeInvariant.step {st : RangeStatement × ScanOrder} (hst : st.1.KeepsApart db st.2 s) :
    RangeInvariant (rangeStep db s st) := by
  obtain ⟨st, order⟩ := st
  unfold rangeStep
  cases hx : executeRange db order s st with
  | error e => exact h
  | ok s' =>
    cases st with
    | insert new => exact h.insertRange hx hst
    | update networkRangeId set =>
      dsimp only [executeRange] at hx
      cases hf : s.networkRange.find? (·.networkRangeId = networkRangeId) with
      | none =>
        rw [hf] at hx
        cases hx
        exact h
      | some old =>
        rw [hf] at hx
        exact h.updateRange hx (List.mem_of_find?_eq_some hf) rfl (hst old hf)
    | setIpAddress netblockId ipAddress =>
      dsimp only [executeRange] at hx
      cases hf : findNetblock s.netblock netblockId with
      | none =>
        rw [hf] at hx
        cases hx
        exact h
      | some old =>
        rw [hf] at hx
        exact h.updateIpAddress hf hx hst
    | setCanOverlap networkRangeType canOverlap =>
      dsimp only [executeRange] at hx
      cases hf : s.nrt networkRangeType with
      | none =>
        rw [hf] at hx
        cases hx
        exact h
      | some old =>
        rw [hf] at hx
        have hrules := h.rules.updateCanOverlap hx
        obtain ⟨-, hx⟩ := bind_unit_eq_ok.mp hx
        cases hx
        exact ⟨h.netblock, fun nr hnr => nrt_replaceRangeType_isSome (h.type nr hnr), hrules⟩

end

/-- **Ranges.**  In every run of statements that do not slip past the queries of the triggers, no two
ranges of a type without overlaps have an address in common, and every range has its ends in order
and within its parent. -/
theorem rangeRules_run (h₀ : RangeInvariant s) (l : List (RangeStatement × ScanOrder))
    (hl : AllSteps (rangeStep db) (fun s st => st.1.KeepsApart db st.2 s) s l) :
    RangeRules (run (rangeStep db) s l) :=
  (run_invariant (fun _ _ hI hs => hI.step hs) h₀ hl).rules

/-- A network without subnets, and six addresses in it that ranges may use as their ends. -/
def rangeEnds : RangeTables where
  netblock := ⟨1, .v4 10 0 0 0 24, "default", false, false, none, 0⟩ ::
    [5, 10, 20, 30, 40, 50].map fun k =>
      ⟨k, .v4 10 0 0 (Fin.ofNat 256 k) 32, "network_range", true, false, none, 0⟩
  networkRange := []
  valNetworkRangeType := [⟨"dhcp_lease_pool", some "network_range", false, false⟩]

theorem rangeInvariant_rangeEnds : RangeInvariant rangeEnds where
  netblock := ⟨by decide, by unfold SameParams; decide, by decide⟩
  type := by simp [rangeEnds]
  rules := ⟨by simp [RangesApart, rangeEnds], by simp [rangeEnds]⟩

def sideBySide : List (RangeStatement × ScanOrder) :=
  [(.insert ⟨1, "dhcp_lease_pool", 1, 10, 20⟩, .asIs),
    (.insert ⟨2, "dhcp_lease_pool", 1, 30, 40⟩, .asIs)]

theorem rangeRules_run_sideBySide : RangeRules (run (rangeStep .initial) rangeEnds sideBySide) :=
  rangeRules_run rangeInvariant_rangeEnds sideBySide
    ⟨(by decide : NoRangeInside _ _), (by decide : NoRangeInside _ _), trivial⟩

/-- A range is put around another one. -/
def around : List (RangeStatement × ScanOrder) :=
  [(.insert ⟨1, "dhcp_lease_pool", 1, 20, 30⟩, .asIs),
    (.insert ⟨2, "dhcp_lease_pool", 1, 10, 40⟩, .asIs)]

/-- Neither end of the second range lies in the first one, so the statement succeeds. -/
theorem around_breaks : ¬ RangeRules (run (rangeStep .initial) rangeEnds around) := by
  intro h
  refine h.apart ⟨1, "dhcp_lease_pool", 1, 20, 30⟩ (by decide)
    ⟨2, "dhcp_lease_pool", 1, 10, 40⟩ (by decide) (by decide) rfl (by decide)
    ⟨20, .v4 10 0 0 20 32, "network_range", true, false, none, 0⟩ (by decide)
    ⟨30, .v4 10 0 0 30 32, "network_range", true, false, none, 0⟩ (by decide)
    ⟨10, .v4 10 0 0 10 32, "network_range", true, false, none, 0⟩ (by decide)
    ⟨40, .v4 10 0 0 40 32, "network_range", true, false, none, 0⟩ (by decide)
    ⟨(Inet.v4 10 0 0 20 32).position, by decide, by decide⟩

end JazzHands

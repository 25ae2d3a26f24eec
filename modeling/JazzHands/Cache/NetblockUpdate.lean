import JazzHands.Cache.NetblockMoves
import JazzHands.Netblock.Forest

/-!
# The cache after an UPDATE

An `UPDATE` moves three groups of netblocks, and fires the handler for each: those that come to hang
off the new block, those that it loses, and the block itself.  `Rehomed` says what becomes of the
parents, without the cache; `forall_not_lost_iff` finds from that the ways up that the handler
forgets, and `holds_update_iff` puts both together.
-/

namespace JazzHands.NetblockHier

open Library Postgres Relation

/-! ## The graphs -/

/-- The netblocks `L` come to hang off `n`, then its children `L'` off its old parent `o`, and then
`n` off its new parent `p`. -/
structure Rehomed (E₀ E₂ E₃ : ℕ → ℕ → Prop) (n : ℕ) (o p : Option ℕ) (L L' : List ℕ) : Prop where
  acyclic : Acyclic E₀
  acyclic' : Acyclic E₃
  own : ∀ j, E₀ n j ↔ o = some j
  adopted : ∀ i ∈ L, ∀ j, E₀ i j ↔ p = some j
  released : ∀ i ∈ L', ∀ j, E₀ i j ↔ j = n
  notMem : n ∉ L
  notMem' : n ∉ L'
  disjoint : ∀ i ∈ L, i ∉ L'
  up₂ : ∀ i j, E₂ i j ↔ (i ∈ L ∧ j = n) ∨ (i ∈ L' ∧ o = some j) ∨ (i ∉ L ∧ i ∉ L' ∧ E₀ i j)
  up₃ : ∀ i j, E₃ i j ↔ (i = n ∧ p = some j) ∨ (i ≠ n ∧ E₂ i j)

namespace Rehomed

variable {E₀ E₂ E₃ : ℕ → ℕ → Prop} {n a z b : ℕ} {o p : Option ℕ} {L L' : List ℕ} {l : List ℕ}
  {D : Set ℕ}

/-- A way that does not meet `n` passes no released netblock, if these have no children or no
parent to go to. -/
theorem not_across (h : Rehomed E₀ E₂ E₃ n o p L L')
    (hr : o = none ∨ ∀ k ∈ L', ∀ c, ¬ E₀ c k) (hl : Ascends E₃ l a z) (hn : n ∉ l) :
    ¬ Across ({i | i ∈ L} ∪ {i | i ∈ L'}) l := by
  rintro ⟨b, hb, hbl⟩
  obtain ⟨s, w, y, u, rfl⟩ := exists_of_mem_interior hbl
  obtain ⟨-, hwb, htail⟩ := hl.split
  obtain ⟨-, hby, -⟩ := Ascends.cons_iff.mp htail
  have hne : w ≠ n ∧ b ≠ n ∧ y ≠ n := by
    refine ⟨?_, ?_, ?_⟩ <;> exact fun he => hn (by simp [he])
  have hwb := ((h.up₃ w b).mp hwb).resolve_left fun hw => hne.1 hw.1
  have hby := ((h.up₃ b y).mp hby).resolve_left fun hb => hne.2.1 hb.1
  rcases (h.up₂ b y).mp hby.2 with ⟨-, hyn⟩ | ⟨hbL', ho⟩ | ⟨hbL, hbL', -⟩
  · exact hne.2.2 hyn
  · rcases hr with hr | hr
    · rw [hr] at ho
      cases ho
    · rcases (h.up₂ w b).mp hwb.2 with ⟨-, hbn⟩ | ⟨hwL', hob⟩ | ⟨-, -, hwb⟩
      · exact hne.2.1 hbn
      · -- the released netblock would be the old parent of `n`
        have hnb := (h.own b).mpr hob
        exact h.acyclic _ (.tail (.single hnb) ((h.released b hbL' n).mpr rfl))
      · exact hr b hbL' w hwb
  · exact hb.elim hbL hbL'

/-- **No way up is lost** exactly when `n` ends up at the top or without children, and the netblocks
released to a parent have no children. -/
theorem forall_not_lost_iff (h : Rehomed E₀ E₂ E₃ n o p L L') (hD : ∀ i j, E₃ i j → i ∈ D) :
    (∀ l, ∀ a ∈ D, ∀ z, Ascends E₃ l a z →
        ¬ Lost (o ≠ none) n (Across ({i | i ∈ L} ∪ {i | i ∈ L'})) l) ↔
      (p = none ∨ ∀ c, ¬ E₃ c n) ∧ (o = none ∨ ∀ k ∈ L', ∀ c, ¬ E₀ c k) := by
  constructor
  · intro hall
    have htop : p = none ∨ ∀ c, ¬ E₃ c n := by
      by_contra hnot
      rw [not_or, not_forall] at hnot
      obtain ⟨hp, c, hc⟩ := hnot
      rw [not_not] at hc
      obtain ⟨q, hq⟩ := Option.ne_none_iff_exists'.mp hp
      have hnq : E₃ n q := (h.up₃ n q).mpr (Or.inl ⟨rfl, hq⟩)
      refine hall [c, n, q] c (hD c n hc) q (Ascends.cons_iff.mpr ⟨rfl, hc, Ascends.cons_iff.mpr
        ⟨rfl, hnq, .singleton q⟩⟩) (Or.inr ⟨by simp, ?_, Or.inl ?_⟩)
      · intro hcn
        rw [Option.some_inj.mp hcn] at hc
        exact h.acyclic'.irrefl hc
      · intro hqn
        rw [show q = n from Option.some_inj.mp hqn] at hnq
        exact h.acyclic'.irrefl hnq
    refine ⟨htop, ?_⟩
    by_contra hnot
    rw [not_or] at hnot
    obtain ⟨ho, hnot⟩ := hnot
    push Not at hnot
    obtain ⟨k, hk, c, hck⟩ := hnot
    obtain ⟨q, hq⟩ := Option.ne_none_iff_exists'.mp ho
    have hkn : E₀ k n := (h.released k hk n).mpr rfl
    have hnq : E₀ n q := (h.own q).mpr hq
    have hcn : c ≠ n := by
      rintro rfl
      exact h.acyclic _ (.tail (.single hck) hkn)
    have hkn' : k ≠ n := fun he => h.notMem' (he ▸ hk)
    have hqn : q ≠ n := by
      rintro rfl
      exact h.acyclic.irrefl hnq
    have hcL' : c ∉ L' := fun hc => hkn' ((h.released c hc k).mp hck)
    have hkL : k ∉ L := fun hkL => h.disjoint k hkL hk
    have hkq : E₃ k q := (h.up₃ k q).mpr (Or.inr ⟨hkn', (h.up₂ k q).mpr (Or.inr (Or.inl ⟨hk, hq⟩))⟩)
    by_cases hcL : c ∈ L
    · -- the child was taken over by `n`, which then hangs off `k`
      have hp := (h.adopted c hcL k).mp hck
      rcases htop with htop | htop
      · rw [htop] at hp
        cases hp
      · exact htop c ((h.up₃ c n).mpr (Or.inr ⟨hcn, (h.up₂ c n).mpr (Or.inl ⟨hcL, rfl⟩)⟩))
    · have hck' : E₃ c k :=
        (h.up₃ c k).mpr (Or.inr ⟨hcn, (h.up₂ c k).mpr (Or.inr (Or.inr ⟨hcL, hcL', hck⟩))⟩)
      refine hall [c, k, q] c (hD c k hck') q (Ascends.cons_iff.mpr ⟨rfl, hck', Ascends.cons_iff.mpr
        ⟨rfl, hkq, .singleton q⟩⟩) (Or.inl ⟨?_, k, Or.inr hk, List.mem_cons_self⟩)
      simp [hcn.symm, hkn'.symm, hqn.symm]
  · rintro ⟨htop, hr⟩ l a - z hl (⟨hn, hacross⟩ | ⟨hn, hhead, hlost⟩)
    · exact h.not_across hr hl hn hacross
    · by_cases hlast : l.getLast? = some n
      · obtain ⟨hacross, -⟩ := hlost.resolve_left fun hne => hne hlast
        have hz : z = n := Option.some_inj.mp (hl.last.symm.trans hlast)
        by_cases hlen : 2 ≤ l.length
        · obtain ⟨s, c, rfl, hs, -⟩ := hl.exists_concat hlen
          rw [List.dropLast_concat] at hacross
          rw [hz] at hl
          exact h.not_across hr hs (hl.notMem_of_concat (h.acyclic' n)) hacross
        · match l, hlen, hl.ne_nil, hlast with
          | [x], _, _, hx => exact hhead hx
          | x :: y :: l, hlen, _, _ => simp at hlen
      · obtain ⟨s, u, rfl⟩ := List.append_of_mem hn
        obtain ⟨s, c, rfl⟩ := (List.eq_nil_or_concat' s).resolve_left fun hnil => by
          subst hnil
          exact hhead rfl
        rw [List.append_assoc, List.singleton_append] at hl
        obtain ⟨-, hcn, hu⟩ := hl.split
        cases u with
        | nil => exact hlast List.getLast?_concat
        | cons y u =>
          rcases htop with htop | htop
          · obtain ⟨-, hny, -⟩ := Ascends.cons_iff.mp hu
            rcases (h.up₃ n y).mp hny with ⟨-, hp⟩ | ⟨hne, -⟩
            · rw [htop] at hp
              cases hp
            · exact hne rfl
          · exact htop c hcn

end Rehomed

/-! ## The statements of the BEFORE trigger -/

variable {db : Schema} {order : ScanOrder} {t t' : List Netblock} {d : HierDb} {x x' : HierTxn}
  {old new n : Netblock} {i j : ℕ} {set : SetClause}

section

variable (ht : Settled d.netblock) (htidy : Tidy d.ctNetblockHier) (hold : old ∈ d.netblock)
include ht htidy hold

theorem rehomeChildren_nested (hid : new.netblockId = old.netblockId)
    (h : rehomeChildren db order ⟨⟨d.netblock, []⟩, d.ctNetblockHier⟩ old new = .ok x) :
    ∃ x₁ g L g' L',
      Nested new.parentNetblockId (some new.netblockId) (fun n =>
        n.parentNetblockId ≠ none ∧ n.parentNetblockId = new.parentNetblockId ∧
          n.ipAddress.subnetEq new.ipAddress ∧ n.netblockId ≠ new.netblockId)
        ⟨⟨d.netblock, []⟩, d.ctNetblockHier⟩ x₁ g L ∧
      Nested (some new.netblockId) old.parentNetblockId (fun n =>
        n.parentNetblockId = some new.netblockId ∧
          (n.ipUniverseId ≠ new.ipUniverseId ∨ n.netblockType ≠ new.netblockType ∨
            ¬ n.ipAddress.subnetEq new.ipAddress)) x₁ x g' L' := by
  obtain ⟨x₁, h₁, h₂⟩ := bind_eq_ok.mp h
  obtain ⟨g, L, hg⟩ := updateParents_nested (x := ⟨⟨d.netblock, []⟩, d.ctNetblockHier⟩)
    ht.wellFormed ht.keys ht.network htidy (fun r _ hc => hc.2.1)
    (fun r _ hc he => hc.2.2.2 (Option.some_inj.mp he).symm) h₁
  have hE : Acyclic (Up x₁.txn.netblock) := hg.acyclic ht.acyclic fun i hi j => by
    rw [hg.up_iff ht.keys]
    simp [hi]
  have hself : ∀ r ∈ x₁.txn.netblock, r.parentNetblockId = some new.netblockId →
      old.parentNetblockId ≠ some r.netblockId := by
    intro r hr hc he
    -- the row would be above and below the updated one
    have hoL : old.netblockId ∉ L := fun hoL =>
      ((hg.mem_iff ht.keys hold).mp hoL).2.2.2 hid.symm
    have hor : Up x₁.txn.netblock old.netblockId r.netblockId :=
      (hg.up_iff ht.keys).mpr (Or.inr ⟨hoL, up_of_mem hold he⟩)
    exact hE _ (.tail (.single hor) (hid ▸ up_of_mem hr hc))
  obtain ⟨g', L', hg'⟩ := updateParents_nested hg.updates.wellFormed (hg.keys_eq ▸ ht.keys)
    (hg.isSingleAddress ht.network) hg.tidy (fun r _ hc => hc.1)
    (fun r hr hc => hself r hr hc.1) h₂
  exact ⟨x₁, g, L, g', L', hg, hg'⟩

theorem fireManipulate_nested (hid : n.netblockId = old.netblockId) (hs : n.isSingleAddress = false)
    (h : fireManipulate db order d old set n = .ok (x, new)) :
    ∃ x₁ g L g' L',
      Nested new.parentNetblockId (some new.netblockId)
        (AdoptedByUpdate db set.firesManipulate new) ⟨⟨d.netblock, []⟩, d.ctNetblockHier⟩ x₁ g L ∧
      Nested (some new.netblockId) old.parentNetblockId
        (ReleasedByUpdate db set.firesManipulate new) x₁ x g' L' := by
  rw [fireManipulate] at h
  by_cases hm : set.firesManipulate = true
  · rw [if_pos hm, manipulateNetblockParentageBefore] at h
    rw [hm]
    by_cases hf : db.dbForcedHierarchy n.netblockType = false
    · rw [if_pos hf] at h
      have hno : ¬ db.dbForcedHierarchy n.netblockType = true := by simp [hf]
      cases h
      exact ⟨_, id, [], id, [], .nop ht.wellFormed htidy fun r _ ha => hno ha.1.2.1,
        .nop ht.wellFormed htidy fun r _ ha => hno ha.1.2.1⟩
    · rw [if_neg hf] at h
      dsimp only at h
      rw [if_neg (by simp [hs])] at h
      have hf' : db.dbForcedHierarchy n.netblockType = true := by simpa using hf
      obtain ⟨x₂, h₂, h⟩ := bind_eq_ok.mp h
      cases h
      have hid' : ({ n with parentNetblockId := n.bestParent d.netblock } : Netblock).netblockId =
          old.netblockId := hid
      obtain ⟨x₁, g, L, g', L', hg, hg'⟩ := rehomeChildren_nested ht htidy hold hid' h₂
      refine ⟨x₁, g, L, g', L', hg.congr fun r _ => ?_, hg'.congr fun r _ => ?_⟩
      · simp only [AdoptedByUpdate, hf', hs, true_and]
      · simp only [ReleasedByUpdate, hf', hs, true_and]
  · rw [if_neg hm] at h
    cases h
    have hm' : set.firesManipulate = false := by simpa using hm
    rw [hm']
    exact ⟨_, id, [], id, [], .nop ht.wellFormed htidy fun r _ ha => Bool.false_ne_true ha.1.1,
      .nop ht.wellFormed htidy fun r _ ha => Bool.false_ne_true ha.1.1⟩

end

theorem fireManipulate_written (ht : WellFormed d.netblock)
    (hm : singleAddressMask db d.netblock n = .ok n)
    (hc : checkNetblock db d.netblock (some old) n = .ok ())
    (h : fireManipulate db order d old set n = .ok (x, new)) :
    WrittenRow db d.netblock (some old) set.firesManipulate n new := by
  have h := fireManipulate_txn h
  rw [JazzHands.fireManipulate] at h
  split_ifs at h with hf
  · obtain ⟨-, -, -, hw, -⟩ := manipulateNetblockParentageBefore_ok ht hm hc h
    rwa [hf]
  · obtain ⟨-, rfl⟩ := Prod.mk.inj (Except.ok.inj h)
    rw [show set.firesManipulate = false by simpa using hf]
    exact writtenRow_unfired hm hc

/-- The parents when a row is written in place of another. -/
theorem up_replace (hold : old ∈ t) (hid : new.netblockId = old.netblockId) :
    Up (replace t old new) i j ↔
      (i = new.netblockId ∧ new.parentNetblockId = some j) ∨ (i ≠ new.netblockId ∧ Up t i j) := by
  constructor
  · rintro ⟨m, hm, rfl, hp⟩
    rcases (mem_replace hold).mp hm with rfl | ⟨hm, hne⟩
    · exact Or.inl ⟨rfl, hp⟩
    · exact Or.inr ⟨hid ▸ hne, m, hm, rfl, hp⟩
  · rintro (⟨rfl, hp⟩ | ⟨hne, m, hm, rfl, hp⟩)
    · exact ⟨new, (mem_replace hold).mpr (Or.inl rfl), rfl, hp⟩
    · exact ⟨m, (mem_replace hold).mpr (Or.inr ⟨hm, hid ▸ hne⟩), rfl, hp⟩

/-- The netblocks that hang off the updated one afterwards. -/
def EndsBelow (db : Schema) (fires : Bool) (new c : Netblock) : Prop :=
  AdoptedByUpdate db fires new c ∨
    (c.parentNetblockId = some new.netblockId ∧ ¬ ReleasedByUpdate db fires new c)
  deriving Decidable

/-- The updated netblock is at the top afterwards, or has no children, and the children that it
loses to a parent have none. -/
def MayMove (db : Schema) (t : List Netblock) (fires : Bool) (old new : Netblock) : Prop :=
  (new.parentNetblockId = none ∨ ¬ ∃ c ∈ t, EndsBelow db fires new c) ∧
    (old.parentNetblockId = none ∨ ¬ ∃ k ∈ t, ReleasedByUpdate db fires new k ∧ HasChild t k)
  deriving Decidable

/-- The new parent of a netblock in a forced hierarchy is of its type and universe. -/
theorem written_parent {fires : Bool} {o : Option Netblock} {q : ℕ}
    (hw : WrittenRow db t o fires n new) (hf : fires = true)
    (hforced : db.dbForcedHierarchy new.netblockType = true) (hq : new.parentNetblockId = some q) :
    ∃ m ∈ t, m.netblockId = q ∧ m.netblockType = new.netblockType ∧
      m.ipUniverseId = new.ipUniverseId ∧ q ≠ new.netblockId := by
  rw [hw.forced hf hforced] at hq
  obtain ⟨m, hm, rfl, hcand⟩ := findBestParentNetblockId_eq_some hq
  exact ⟨m, hm, rfl, hcand.2.2.1, hcand.2.2.2.1, hcand.2.2.2.2.2⟩

theorem not_released_of_adopted {fires : Bool} {r r' : Netblock} {q : Option ℕ}
    (ht : Settled t) (hw : WrittenRow db t (some old) fires n new) (hr : r ∈ t)
    (ha : AdoptedByUpdate db fires new r) (htouch : Touched q r r') :
    ¬ ReleasedByUpdate db fires new r' := by
  rintro ⟨-, -, hout⟩
  obtain ⟨⟨hf, hforced, -⟩, hne, hpar, hsub, -⟩ := ha
  obtain ⟨p, hp⟩ := Option.ne_none_iff_exists'.mp hne
  obtain ⟨m, hm, rfl, htype, huniverse, -⟩ := written_parent hw hf hforced (hpar ▸ hp)
  obtain ⟨hτ, hu⟩ := ht.kind r hr m hm hp
  rcases hout with hout | hout | hout
  · exact hout (htouch.ipUniverseId.trans (hu.trans huniverse))
  · exact hout (htouch.netblockType.trans (hτ.trans htype))
  · rw [htouch.ip (ht.network r hr)] at hout
    exact hout hsub

variable {g g' : Netblock → Netblock} {x₁ x₂ : HierTxn}

section

variable {L L' : List ℕ} (ht : Settled d.netblock)
  (hg : Nested new.parentNetblockId (some new.netblockId)
    (AdoptedByUpdate db set.firesManipulate new) ⟨⟨d.netblock, []⟩, d.ctNetblockHier⟩ x₁ g L)
  (hg' : Nested (some new.netblockId) old.parentNetblockId
    (ReleasedByUpdate db set.firesManipulate new) x₁ x₂ g' L')
include ht hg hg'

theorem rehomed (hold : old ∈ d.netblock) (hid : new.netblockId = old.netblockId)
    (hw : WrittenRow db d.netblock (some old) set.firesManipulate n new)
    (hcyc : ¬ TransGen (Up (replace x₂.txn.netblock old new)) new.netblockId new.netblockId)
    (hold₂ : old ∈ x₂.txn.netblock) :
    Rehomed (Up d.netblock) (Up x₂.txn.netblock) (Up (replace x₂.txn.netblock old new))
      new.netblockId old.parentNetblockId new.parentNetblockId L L' := by
  have hkeys : (keys d.netblock).Nodup := ht.keys
  have hkeys₁ : (keys x₁.txn.netblock).Nodup := hg.keys_eq ▸ hkeys
  have hown : ∀ j, Up d.netblock new.netblockId j ↔ old.parentNetblockId = some j := by
    intro j
    rw [hid]
    refine ⟨fun ⟨m, hm, hmid, hp⟩ => ?_, fun hp => up_of_mem hold hp⟩
    rwa [← ht.wellFormed.pk m hm old hold hmid]
  have hdisj : ∀ i ∈ L, i ∉ L' := by
    intro i hi hi'
    obtain ⟨r, hr, ha, rfl⟩ := (hg.mem i).mp hi
    obtain ⟨r', hr', hrel, hrid⟩ := (hg'.mem _).mp hi'
    have hgr : g r ∈ x₁.txn.netblock := hg.updates.netblock ▸ List.mem_map_of_mem hr
    rw [eq_of_keys hkeys₁ hr' hgr (hrid.trans (hg.updates.netblockId hr).symm)] at hrel
    exact not_released_of_adopted ht hw hr ha (hg.updates.touched r hr ha) hrel
  have hup₁ : ∀ i j, Up x₁.txn.netblock i j ↔
      (i ∈ L ∧ j = new.netblockId) ∨ (i ∉ L ∧ Up d.netblock i j) := by
    intro i j
    rw [hg.up_iff hkeys, Option.some_inj, eq_comm]
  have hup₂ : ∀ i j, Up x₂.txn.netblock i j ↔ (i ∈ L ∧ j = new.netblockId) ∨
      (i ∈ L' ∧ old.parentNetblockId = some j) ∨ (i ∉ L ∧ i ∉ L' ∧ Up d.netblock i j) := by
    intro i j
    rw [hg'.up_iff hkeys₁, hup₁]
    constructor
    · rintro (h | ⟨hi', ⟨hi, hj⟩ | ⟨hi, hij⟩⟩)
      · exact Or.inr (Or.inl h)
      · exact Or.inl ⟨hi, hj⟩
      · exact Or.inr (Or.inr ⟨hi, hi', hij⟩)
    · rintro (⟨hi, hj⟩ | h | ⟨hi, hi', hij⟩)
      · exact Or.inr ⟨hdisj i hi, Or.inl ⟨hi, hj⟩⟩
      · exact Or.inl h
      · exact Or.inr ⟨hi', Or.inr ⟨hi, hij⟩⟩
  have hup₃ : ∀ i j, Up (replace x₂.txn.netblock old new) i j ↔
      (i = new.netblockId ∧ new.parentNetblockId = some j) ∨
        (i ≠ new.netblockId ∧ Up x₂.txn.netblock i j) := fun i j => up_replace hold₂ hid
  have hE₁ : Acyclic (Up x₁.txn.netblock) := hg.acyclic ht.acyclic fun i hi j => by
    rw [hg.up_iff hkeys]
    simp [hi]
  have hE₂ : Acyclic (Up x₂.txn.netblock) := hg'.acyclic hE₁ fun i hi j => by
    rw [hg'.up_iff hkeys₁]
    simp [hi]
  have hnotMem : new.netblockId ∉ L := by
    rw [hid]
    exact fun hL => ((hg.mem_iff hkeys hold).mp hL).2.2.2.2 hid.symm
  exact
    { acyclic := ht.acyclic
      acyclic' := by
        refine Acyclic.of_changed (B := {new.netblockId}) hE₂ (fun i hi j => ?_) fun b hb => ?_
        · rw [hup₃]
          exact ⟨fun h => Or.inr ⟨hi, h⟩, fun h => (h.resolve_left fun h => hi h.1).2⟩
        · rwa [Set.mem_singleton_iff.mp hb]
      own := hown
      adopted := fun i hi j => hg.parent_old hkeys hi
      released := by
        intro i hi j
        have hiL : i ∉ L := fun hL => hdisj i hL hi
        have hpar := hg'.parent_old hkeys₁ hi (j := j)
        rw [hup₁, Option.some_inj] at hpar
        simpa [hiL, eq_comm] using hpar
      notMem := hnotMem
      notMem' := by
        intro hL'
        have hnn := (hg'.parent_old hkeys₁ hL').mpr rfl
        exact hE₁.irrefl hnn
      disjoint := hdisj
      up₂ := hup₂
      up₃ := hup₃ }

/-! ## UPDATE -/

/-- The cache when the handler has been fired for the rows of the BEFORE trigger. -/
theorem recorded_rehomed (hd : Holds d)
    (h : Rehomed (Up d.netblock) (Up x₂.txn.netblock) (Up (replace x₂.txn.netblock old new))
      new.netblockId old.parentNetblockId new.parentNetblockId L L') :
    Recorded (Up x₂.txn.netblock) (ids d.netblock) (Across ({i | i ∈ L} ∪ {i | i ∈ L'}))
      (paths x₂.ctNetblockHier) := by
  have hkeys : (keys d.netblock).Nodup := ht.keys
  have hkeys₁ : (keys x₁.txn.netblock).Nodup := hg.keys_eq ▸ hkeys
  have hoff : ∀ i ∉ L, ∀ j, Up d.netblock i j ↔ Up x₁.txn.netblock i j := by
    intro i hi j
    rw [hg.up_iff hkeys]
    simp [hi]
  have hoff' : ∀ i ∉ L', ∀ j, Up x₁.txn.netblock i j ↔ Up x₂.txn.netblock i j := by
    intro i hi j
    rw [hg'.up_iff hkeys₁]
    simp [hi]
  have hE₁ := hg.acyclic ht.acyclic hoff
  have hE₂ := hg'.acyclic hE₁ hoff'
  have hD : ∀ {i r}, r ∈ x₁.txn.netblock → r.netblockId = i → i ∈ ids d.netblock := by
    intro i r hr hri
    rw [← mem_keys, show keys d.netblock = keys x₁.txn.netblock from hg.keys_eq.symm, mem_keys]
    exact ⟨r, hr, hri⟩
  have hrec₀ : Recorded (Up d.netblock) (ids d.netblock) (Across ∅) (paths d.ctNetblockHier) :=
    hd.2.congr (fun _ _ _ _ _ => Iff.rfl) fun l _ _ _ _ => iff_of_false id not_across_empty
  have hrec₁ := hg.recorded hkeys hrec₀ (fun i hi => by
      obtain ⟨r, hr, -, rfl⟩ := (hg.mem i).mp hi
      exact ⟨r, hr, rfl⟩) ht.acyclic hoff (fun i hi j hij => (hg.parent_old hkeys hi).mp hij)
    (hg.not_up_old hkeys ht.acyclic) (fun b hb => absurd hb (Set.notMem_empty b))
  rw [Set.empty_union, ← hg.paths] at hrec₁
  have hrec₂ := hg'.recorded hkeys₁ hrec₁ (fun i hi => by
      obtain ⟨r, hr, -, rfl⟩ := (hg'.mem i).mp hi
      exact hD hr rfl) hE₁ hoff' (fun i hi j hij => (hg'.parent_old hkeys₁ hi).mp hij)
    (hg'.not_up_old hkeys₁ hE₁) (fun b hb i hi => ?_)
  · rwa [← hg'.paths] at hrec₂
  · -- what was taken over hangs off the updated netblock, which itself hangs off its old parent
    have hbn : Up x₂.txn.netblock b new.netblockId := (h.up₂ b _).mpr (Or.inl ⟨hb, rfl⟩)
    have hnL : ∀ j, Up x₂.txn.netblock new.netblockId j ↔ old.parentNetblockId = some j := by
      intro j
      rw [h.up₂, ← h.own]
      simp [h.notMem, h.notMem']
    refine ⟨fun hib => ?_, fun hbi => ?_⟩
    · obtain ⟨j, hij, hjb⟩ := TransGen.head'_iff.mp hib
      have hj : old.parentNetblockId = some j := by
        rcases (h.up₂ i j).mp hij with ⟨hiL, -⟩ | ⟨-, hj⟩ | ⟨-, hiL', -⟩
        · exact absurd hi (h.disjoint i hiL)
        · exact hj
        · exact absurd hi hiL'
      have hnb : TransGen (Up x₂.txn.netblock) new.netblockId b :=
        .head' ((hnL j).mpr hj) hjb
      exact hE₂ b (.head hbn hnb)
    · rcases (h.up₂ b i).mp hbi with ⟨-, hin⟩ | ⟨hbL', -⟩ | ⟨hbL, -⟩
      · exact h.notMem' (hin ▸ hi)
      · exact h.disjoint b hb hbL'
      · exact hbL hb

theorem mayMove_iff
    (h : Rehomed (Up d.netblock) (Up x₂.txn.netblock) (Up (replace x₂.txn.netblock old new))
      new.netblockId old.parentNetblockId new.parentNetblockId L L') :
    ((new.parentNetblockId = none ∨ ∀ c, ¬ Up (replace x₂.txn.netblock old new) c new.netblockId) ∧
      (old.parentNetblockId = none ∨ ∀ k ∈ L', ∀ c, ¬ Up d.netblock c k)) ↔
      MayMove db d.netblock set.firesManipulate old new := by
  have hL : ∀ {r}, r ∈ d.netblock → (r.netblockId ∈ L ↔ AdoptedByUpdate db set.firesManipulate new r) :=
    fun hr => hg.mem_iff ht.keys hr
  have hL' : ∀ i, i ∈ L' ↔
      ∃ r ∈ d.netblock, ReleasedByUpdate db set.firesManipulate new r ∧ r.netblockId = i := by
    intro i
    rw [hg'.mem]
    constructor
    · rintro ⟨r₁, hr₁, hrel, rfl⟩
      have hmem := hr₁
      rw [hg.updates.netblock] at hmem
      obtain ⟨r, hr, rfl⟩ := List.mem_map.mp hmem
      have hnot : r.netblockId ∉ L := by
        intro hrL
        refine h.disjoint _ hrL ?_
        rw [hg'.mem]
        exact ⟨g r, hr₁, hrel, hg.updates.netblockId hr⟩
      have hkept := hg.updates.kept r hr fun ha => hnot ((hL hr).mpr ha)
      rw [hkept] at hrel ⊢
      exact ⟨r, hr, hrel, rfl⟩
    · rintro ⟨r, hr, hrel, rfl⟩
      have hkept := hg.updates.kept r hr fun ha => by
        have hnn := (h.adopted _ ((hL hr).mpr ha) _).mp (up_of_mem hr hrel.2.1)
        have hself := (h.up₃ _ _).mpr (Or.inl ⟨rfl, hnn⟩)
        exact h.acyclic'.irrefl hself
      refine ⟨r, ?_, hrel, rfl⟩
      rw [hg.updates.netblock]
      exact List.mem_map.mpr ⟨r, hr, hkept⟩
  have hbelow : (∀ c, ¬ Up (replace x₂.txn.netblock old new) c new.netblockId) ↔
      ¬ ∃ c ∈ d.netblock, EndsBelow db set.firesManipulate new c := by
    constructor
    · rintro hall ⟨c, hc, hend⟩
      have hne : c.netblockId ≠ new.netblockId := by
        rintro he
        rcases hend with ha | ⟨hp, -⟩
        · exact ha.2.2.2.2 he
        · have hself := up_of_mem hc hp
          rw [he] at hself
          exact ht.acyclic.irrefl hself
      refine hall c.netblockId ((h.up₃ _ _).mpr (Or.inr ⟨hne, (h.up₂ _ _).mpr ?_⟩))
      rcases hend with ha | ⟨hp, hrel⟩
      · exact Or.inl ⟨(hL hc).mpr ha, rfl⟩
      · by_cases hcL : c.netblockId ∈ L
        · exact Or.inl ⟨hcL, rfl⟩
        · refine Or.inr (Or.inr ⟨hcL, fun hcL' => hrel ?_, up_of_mem hc hp⟩)
          obtain ⟨r, hr, hr', hid⟩ := (hL' _).mp hcL'
          rwa [ht.wellFormed.pk r hr c hc hid] at hr'
    · rintro hnot i hup
      obtain ⟨-, hup⟩ := ((h.up₃ _ _).mp hup).resolve_left fun hself =>
        h.acyclic'.irrefl (a := new.netblockId) (by rw [hself.1] at hup; exact hup)
      rcases (h.up₂ _ _).mp hup with ⟨hi, -⟩ | ⟨hi, ho⟩ | ⟨-, hi, r, hr, rfl, hp⟩
      · obtain ⟨r, hr, ha, -⟩ := (hg.mem i).mp hi
        exact hnot ⟨r, hr, Or.inl ha⟩
      · exact h.acyclic.irrefl ((h.own _).mpr ho)
      · exact hnot ⟨r, hr, Or.inr ⟨hp, fun hrel => hi ((hL' _).mpr ⟨r, hr, hrel, rfl⟩)⟩⟩
  have hlost : (∀ k ∈ L', ∀ c, ¬ Up d.netblock c k) ↔ ¬ ∃ k ∈ d.netblock,
      ReleasedByUpdate db set.firesManipulate new k ∧ HasChild d.netblock k := by
    constructor
    · rintro hall ⟨k, hk, hrel, c, hc, hp⟩
      exact hall _ ((hL' _).mpr ⟨k, hk, hrel, rfl⟩) _ (up_of_mem hc hp)
    · rintro hnot i hi j ⟨c, hc, -, hp⟩
      obtain ⟨k, hk, hrel, rfl⟩ := (hL' i).mp hi
      exact hnot ⟨k, hk, hrel, c, hc, hp⟩
  rw [hbelow, hlost, MayMove]

omit hg hg' in
/-- **An UPDATE** keeps the cache exactly when the netblock ends up at the top or without children,
and the children that it loses to a parent have none. -/
theorem holds_update_iff (hd : Holds d) (hold : old ∈ d.netblock) (hs : OnNetworks (.update i set))
    (h : executeUpdate db order d old set = .ok x) (hc : commit db x.txn = .ok t') :
    (keys t').Nodup ∧ Acyclic (Up t') ∧ ∃ n, (set.apply old).complete db d.netblock = .ok n ∧
      (Holds ⟨t', x.ctNetblockHier⟩ ↔ MayMove db d.netblock set.firesManipulate old
        { n with parentNetblockId := writtenParent db d.netblock set.firesManipulate n }) := by
  have hfires : set.firesValidate ≠ false := by
    have := hs.2
    simp only [firesHandler, SetClause.firesValidate, SetClause.firesManipulate] at this ⊢
    grind
  rw [executeUpdate, if_neg hfires] at h
  obtain ⟨new₀, hv, h⟩ := bind_eq_ok.mp h
  obtain ⟨n, hn, hm, hcheck⟩ := validateNetblock_ok hv
  have hren := renewed_of_complete hs hn
  have hsingle : n.isSingleAddress = false := hren.isSingleAddress.trans (ht.network old hold)
  obtain rfl : new₀ = n := (singleAddressMask_ok hm).2.2 (Or.inl hsingle)
  obtain ⟨⟨x₂, new⟩, hb, h⟩ := bind_eq_ok.mp h
  obtain ⟨-, h⟩ := bind_unit_eq_ok.mp h
  obtain ⟨y, hwr, h⟩ := bind_eq_ok.mp h
  obtain ⟨-, rfl⟩ := writeRow_ok hwr
  rw [if_pos hs.2] at h
  obtain ⟨ct, hct, h⟩ := bind_eq_ok.mp h
  obtain rfl := Except.ok.inj h
  have hw := fireManipulate_written ht.wellFormed hm hcheck hb
  have hnew := hren.written hw
  have hid := hnew.netblockId
  obtain ⟨x₁, g, L, g', L', hg, hg'⟩ :=
    fireManipulate_nested ht hd.1 hold hren.netblockId hsingle hb
  -- the row itself is neither taken over nor released
  have hgold : g old = old := hg.updates.kept old hold fun ha => ha.2.2.2.2 hid.symm
  have hold₁ : old ∈ x₁.txn.netblock := by
    rw [hg.updates.netblock]
    exact List.mem_map.mpr ⟨old, hold, hgold⟩
  have hgold' : g' old = old := hg'.updates.kept old hold₁ fun hr => by
    have hself : Up d.netblock old.netblockId old.netblockId :=
      up_of_mem hold (hid ▸ hr.2.1)
    exact ht.acyclic.irrefl hself
  have hold₂ : old ∈ x₂.txn.netblock := by
    rw [hg'.updates.netblock]
    exact List.mem_map.mpr ⟨old, hold₁, hgold'⟩
  obtain rfl := (commit_ok hc).1
  have hmem : new ∈ replace x₂.txn.netblock old new := (mem_replace hold₂).mpr (Or.inl rfl)
  have hkeys' : keys (replace x₂.txn.netblock old new) = keys d.netblock := by
    rw [keys_replace hid, hg'.keys_eq, hg.keys_eq]
  have hwf : WellFormed (replace x₂.txn.netblock old new) :=
    hg'.updates.wellFormed.replace hold₂ (writeRow_ok hwr).1 hw.network
  have hpass : ¬ Passes new := by
    rintro (hs' | hp)
    · rw [hw.isSingleAddress, hsingle] at hs'
      cases hs'
    · exact parent_ne_of_commit (x := ⟨⟨_, x₂.txn.deferred ++ [⟨some old, new⟩]⟩, ct⟩) hwf hc
        (List.mem_append_right _ List.mem_cons_self) hmem hp
  obtain ⟨htidy, hpaths, hcyc⟩ := handler_update_ok hg'.tidy hid.symm ⟨new, hmem, rfl⟩ hpass hct
  have hre := rehomed ht hg hg' hold hid hw hcyc hold₂
  have hrec : Recorded (Up (replace x₂.txn.netblock old new)) (ids d.netblock)
      (Lost (old.parentNetblockId ≠ none) new.netblockId (Across ({i | i ∈ L} ∪ {i | i ∈ L'})))
      (paths ct) := by
    rw [hpaths]
    refine (recorded_rehomed ht hg hg' hd hre).mend (fun i hi j => ?_) hcyc (fun ho j hj => ?_)
      ⟨old, hold, hid.symm⟩
    · rw [hre.up₃]
      exact ⟨fun hij => Or.inr ⟨hi, hij⟩, fun hij => (hij.resolve_left fun hl => hi hl.1).2⟩
    · rw [not_not] at ho
      rw [hre.up₂, hre.own, ho] at hj
      simp [hre.notMem, hre.notMem'] at hj
  have hids : ids (replace x₂.txn.netblock old new) = ids d.netblock := ids_eq_of_keys hkeys'
  refine ⟨hkeys' ▸ ht.keys, hre.acyclic', new₀, hn, ?_⟩
  have hparent := hw.parent_eq hsingle
  have hrow : { new₀ with parentNetblockId := new.parentNetblockId } = new := by
    rw [hw.row, hw.ip (Or.inl hsingle)]
  rw [← hparent, hrow, ← mayMove_iff ht hg hg' hre, ← hre.forall_not_lost_iff fun i j hij =>
    hids ▸ up_mem_ids hij, ← recorded_iff_of_forall hrec, ← hids]
  exact and_iff_right htidy

end

end JazzHands.NetblockHier

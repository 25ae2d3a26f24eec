import JazzHands.Netblock.Effects

/-!
# The networks of a type and universe as a forest

The networks of one type and universe are blocks, ordered by inclusion, of which two are apart or
one is in the other.  What the triggers call the best parent is the nearest block above
(`nearest_findBestParent`).
-/

namespace JazzHands

open Library Postgres

variable {db : Schema} {t : List Netblock} {r m n : Netblock} {τ : String} {u i : ℕ}
variable {c : Cidr} {p : Option ℕ}

/-- The row is a network of the type `τ` in the universe `u`. -/
def Netblock.IsNetwork (τ : String) (u : ℕ) (n : Netblock) : Prop :=
  n.isSingleAddress = false ∧ n.netblockType = τ ∧ n.ipUniverseId = u

def Netblock.labelled (n : Netblock) : ℕ × Cidr := (n.netblockId, n.ipAddress.cidr)

/-- The networks of the type `τ` in the universe `u`, with their keys. -/
def networks (t : List Netblock) (τ : String) (u : ℕ) : Set (ℕ × Cidr) :=
  {x | ∃ n ∈ t, n.IsNetwork τ u ∧ n.labelled = x}

theorem mem_networks (hn : n ∈ t) (h : n.IsNetwork τ u) : n.labelled ∈ networks t τ u :=
  ⟨n, hn, h, rfl⟩

/-- Among well-formed rows a network is determined by its key, and by its block. -/
theorem WellFormed.labelled_networks (ht : WellFormed t) : Labelled (networks t τ u) where
  label := by
    rintro _ ⟨n, hn, -, rfl⟩ _ ⟨m, hm, -, rfl⟩ h
    rw [ht.pk n hn m hm h]
  block := by
    rintro _ ⟨n, hn, hnet, rfl⟩ _ ⟨m, hm, hmet, rfl⟩ h
    have hip : n.ipAddress = m.ipAddress := by
      rw [← ht.network n hn hnet.1, ← ht.network m hm hmet.1]
      exact Inet.network_eq_iff.mpr h
    rw [ht.ak n hn m hm ⟨hip, hnet.2.1.trans hmet.2.1.symm, hnet.2.2.trans hmet.2.2.symm,
      hnet.1.trans hmet.1.symm⟩]

/-! ## Longest prefixes -/

theorem longestPrefix_eq_some (h : longestPrefix t = some m) :
    m ∈ t ∧ ∀ n ∈ t, n.ipAddress.masklen ≤ m.ipAddress.masklen :=
  ⟨List.argmax_mem h, fun _ hn =>
    List.le_of_mem_argmax (f := fun n : Netblock => n.ipAddress.masklen) hn h⟩

theorem longestPrefix_eq_none (h : longestPrefix t = none) : t = [] :=
  List.argmax_eq_none.mp h

theorem findBestParentNetblockId_eq_some {ip : Inet} {bits : Option ℕ} {single : Bool} {k : ℕ}
    (h : findBestParentNetblockId t ip bits τ u single i = some k) :
    ∃ m ∈ t, m.netblockId = k ∧ IsCandidateParent ip bits τ u single i m := by
  obtain ⟨m, hm, rfl⟩ := Option.map_eq_some_iff.mp h
  obtain ⟨hmem, hcand⟩ := List.mem_filter.mp (longestPrefix_eq_some hm).1
  exact ⟨m, hmem, rfl, of_decide_eq_true hcand⟩

/-- Of two networks around the same one, the smaller is the one with the longer mask. -/
theorem cidr_le_of_masklen_le {a b x : Inet} (ha : x.cidr ≤ a.cidr) (hb : x.cidr ≤ b.cidr)
    (h : a.masklen ≤ b.masklen) : b.cidr ≤ a.cidr := by
  rcases ForestOrder.comparable ha hb with hab | hba
  · rcases hab.eq_or_lt with heq | hlt
    · exact heq.ge
    · have := (Inet.cidr_lt_iff hab).mp hlt
      omega
  · exact hba

/-- The candidates for the parent of a network are the networks strictly above it. -/
theorem isCandidateParent_network {ip : Inet} {bits : Option ℕ} :
    IsCandidateParent ip bits τ u false i m ↔
      m.IsNetwork τ u ∧ ip.cidr < m.ipAddress.cidr ∧ m.netblockId ≠ i := by
  simp only [IsCandidateParent, Netblock.IsNetwork, Inet.subnetEq_iff, true_and,
    false_and, or_false, Bool.false_eq_true]
  constructor
  · rintro ⟨hsub, hs, hτ, hu, hmask, hi⟩
    exact ⟨⟨hs, hτ, hu⟩, (Inet.cidr_lt_iff hsub).mpr hmask, hi⟩
  · rintro ⟨⟨hs, hτ, hu⟩, hlt, hi⟩
    exact ⟨hlt.le, hs, hτ, hu, (Inet.cidr_lt_iff hlt.le).mp hlt, hi⟩

/-- **The best parent of a network** is the nearest network above it, among the other rows. -/
theorem nearest_findBestParent {ip : Inet} {bits : Option ℕ} :
    Nearest (others (networks t τ u) i) ip.cidr
      (findBestParentNetblockId t ip bits τ u false i) := by
  unfold findBestParentNetblockId
  cases h : longestPrefix (t.filter (IsCandidateParent ip bits τ u false i)) with
  | none =>
    rintro _ ⟨⟨m, hm, hnet, rfl⟩, hi⟩ hlt
    have hmem : m ∈ t.filter (IsCandidateParent ip bits τ u false i) :=
      List.mem_filter.mpr ⟨hm, decide_eq_true (isCandidateParent_network.mpr ⟨hnet, hlt, hi⟩)⟩
    rw [longestPrefix_eq_none h] at hmem
    exact absurd hmem List.not_mem_nil
  | some m =>
    obtain ⟨hmem, hmax⟩ := longestPrefix_eq_some h
    obtain ⟨hm, hcand⟩ := List.mem_filter.mp hmem
    obtain ⟨hnet, hlt, hi⟩ := isCandidateParent_network.mp (of_decide_eq_true hcand)
    refine ⟨m.ipAddress.cidr, ⟨mem_networks hm hnet, hi⟩, hlt, ?_⟩
    rintro _ ⟨⟨n, hn, hnet', rfl⟩, hi'⟩ hlt'
    have hmem' : n ∈ t.filter (IsCandidateParent ip bits τ u false i) :=
      List.mem_filter.mpr ⟨hn, decide_eq_true (isCandidateParent_network.mpr ⟨hnet', hlt', hi'⟩)⟩
    exact cidr_le_of_masklen_le hlt'.le hlt.le (hmax n hmem')

section

variable (ht : WellFormed t) (hr : r ∈ t) (hnet : r.IsNetwork τ u)
include ht hr hnet

/-- A stored network is not strictly above itself, so leaving it out changes nothing. -/
theorem nearest_of_ne (h : Nearest (others (networks t τ u) r.netblockId) r.ipAddress.cidr p) :
    Nearest (networks t τ u) r.ipAddress.cidr p := by
  have hself : ∀ x ∈ networks t τ u, r.ipAddress.cidr < x.2 → x.1 ≠ r.netblockId := by
    intro x hx hlt he
    rw [ht.labelled_networks.label x hx _ (mem_networks hr hnet) he] at hlt
    exact lt_irrefl _ hlt
  cases p with
  | none => exact fun x hx hlt => h x ⟨hx, hself x hx hlt⟩ hlt
  | some k =>
    obtain ⟨b, hb, hlt, hleast⟩ := h
    exact ⟨b, hb.1, hlt, fun x hx hx' => hleast x ⟨hx, hself x hx hx'⟩ hx'⟩

theorem nearest_bestParent :
    Nearest (networks t τ u) r.ipAddress.cidr (r.bestParent t) := by
  refine nearest_of_ne ht hr hnet ?_
  obtain ⟨hs, hτ, hu⟩ := hnet
  rw [Netblock.bestParent, hs, hτ, hu]
  exact nearest_findBestParent

theorem nearest_findBestParentOf :
    Nearest (networks t τ u) r.ipAddress.cidr (findBestParentOf t r.netblockId) := by
  refine nearest_of_ne ht hr hnet ?_
  obtain ⟨hs, hτ, hu⟩ := hnet
  rw [findBestParentOf, ht.findNetblock_mem hr, Option.bind_some, hs, hτ, hu]
  exact nearest_findBestParent

end

/-! ## What it means for the rows -/

/-- The row `m` is a network of the type and universe of `r`, and strictly contains its network. -/
def Container (t : List Netblock) (r m : Netblock) : Prop :=
  m ∈ t ∧ m.IsNetwork r.netblockType r.ipUniverseId ∧ r.ipAddress.cidr < m.ipAddress.cidr

/-- The parent of `r` is the row with the longest prefix among those that strictly contain it, and
`r` has no parent exactly when there is no such row. -/
def HangsOffBestParent (t : List Netblock) (r : Netblock) : Prop :=
  (∀ p, r.parentNetblockId = some p ↔ ∃ m, Container t r m ∧ m.netblockId = p ∧
    ∀ n, Container t r n → n.ipAddress.masklen ≤ m.ipAddress.masklen) ∧
  (r.parentNetblockId = none ↔ ¬ ∃ m, Container t r m)

theorem nearest_iff_container (ht : WellFormed t) :
    Nearest (networks t r.netblockType r.ipUniverseId) r.ipAddress.cidr r.parentNetblockId ↔
      HangsOffBestParent t r := by
  have hsome : ∀ p, Nearest (networks t r.netblockType r.ipUniverseId) r.ipAddress.cidr (some p) ↔
      ∃ m, Container t r m ∧ m.netblockId = p ∧
        ∀ n, Container t r n → n.ipAddress.masklen ≤ m.ipAddress.masklen := by
    intro p
    constructor
    · rintro ⟨_, ⟨m, hm, hnet, ⟨⟩⟩, hlt, hleast⟩
      refine ⟨m, ⟨hm, hnet, hlt⟩, rfl, fun n ⟨hn, hnet', hlt'⟩ => ?_⟩
      have hle : m.ipAddress.cidr ≤ n.ipAddress.cidr := hleast _ (mem_networks hn hnet') hlt'
      rcases hle.eq_or_lt with heq | hlt''
      · exact (Inet.masklen_eq_of_cidr_eq heq).ge
      · exact ((Inet.cidr_lt_iff hle).mp hlt'').le
    · rintro ⟨m, ⟨hm, hnet, hlt⟩, rfl, hmax⟩
      refine ⟨m.ipAddress.cidr, mem_networks hm hnet, hlt, ?_⟩
      rintro _ ⟨n, hn, hnet', rfl⟩ hlt'
      exact cidr_le_of_masklen_le hlt'.le hlt.le (hmax n ⟨hn, hnet', hlt'⟩)
  have hnone : Nearest (networks t r.netblockType r.ipUniverseId) r.ipAddress.cidr none ↔
      ¬ ∃ m, Container t r m := by
    constructor
    · rintro h ⟨m, hm, hnet, hlt⟩
      exact h _ (mem_networks hm hnet) hlt
    · rintro h _ ⟨m, hm, hnet, rfl⟩ hlt
      exact h ⟨m, hm, hnet, hlt⟩
  constructor
  · intro h
    have hunique := fun o (ho : Nearest _ r.ipAddress.cidr o) =>
      h.unique ht.labelled_networks ho
    refine ⟨fun p => ⟨fun hp => (hsome p).mp (hp ▸ h), fun hp => hunique _ ((hsome p).mpr hp)⟩,
      fun hp => hnone.mp (hp ▸ h), fun hp => hunique _ (hnone.mpr hp)⟩
  · rintro ⟨h₁, h₂⟩
    cases hp : r.parentNetblockId with
    | none => exact hnone.mpr (h₂.mp hp)
    | some p => exact (hsome p).mpr ((h₁ p).mp hp)

end JazzHands

import JazzHands.Library.Runs
import JazzHands.Netblock.Change

/-!
# Networks in related universes

Two universes are related when they share a namespace or one of them is visible to the other.  A
network may not have the address of another of its type in a related universe, and networks without
subnets may not overlap there.
-/

namespace JazzHands

open Library Postgres

variable {db : Schema} {t t' : List Netblock} {s : Statement} {gone written : Option Netblock}
variable {n m r w new m' n' : Netblock} {u v : ℕ} {o : Option Netblock}

/-! ## Related universes -/

def SharesNamespace (db : Schema) (u v : ℕ) : Prop :=
  ∃ x ∈ db.ipUniverse, ∃ y ∈ db.ipUniverse, x.ipUniverseId = u ∧ y.ipUniverseId = v ∧
    x.ipNamespace = y.ipNamespace

/-- The universe `v` is visible to the universe `u`. -/
def IsVisible (db : Schema) (u v : ℕ) : Prop :=
  ∃ x ∈ db.ipUniverseVisibility, x.ipUniverseId = u ∧ x.visibleIpUniverseId = v

/-- Two universes that share a namespace, or of which one is visible to the other. -/
def Related (db : Schema) (u v : ℕ) : Prop :=
  u ≠ v ∧ (SharesNamespace db u v ∨ IsVisible db u v ∨ IsVisible db v u)

theorem SharesNamespace.symm (h : SharesNamespace db u v) : SharesNamespace db v u := by
  obtain ⟨x, hx, y, hy, hxu, hyv, hns⟩ := h
  exact ⟨y, hy, x, hx, hyv, hxu, hns.symm⟩

theorem Related.symm (h : Related db u v) : Related db v u :=
  ⟨h.1.symm, h.2.imp SharesNamespace.symm Or.symm⟩

theorem mem_namespace_universes : v ∈ (db.ipUniverse.filter fun x =>
      (∃ y ∈ db.ipUniverse, y.ipUniverseId = u ∧ y.ipNamespace = x.ipNamespace) ∧
        x.ipUniverseId ≠ u).map (·.ipUniverseId) ↔ u ≠ v ∧ SharesNamespace db u v := by
  simp only [List.mem_map, List.mem_filter, decide_eq_true_eq]
  constructor
  · rintro ⟨x, ⟨hx, ⟨y, hy, hyu, hns⟩, hne⟩, rfl⟩
    exact ⟨hne.symm, y, hy, x, hx, hyu, rfl, hns⟩
  · rintro ⟨hne, y, hy, x, hx, hyu, rfl, hns⟩
    exact ⟨x, ⟨hx, ⟨y, hy, hyu, hns⟩, hne.symm⟩, rfl⟩

/-- The second `WITH x` of `validate_netblock` is the related universes. -/
theorem mem_universesOfSubnet : v ∈ universesOfSubnet db u ↔ Related db u v := by
  rw [universesOfSubnet, List.mem_append, List.mem_append, mem_namespace_universes, Related]
  simp only [List.mem_map, List.mem_filter, decide_eq_true_eq]
  constructor
  · rintro ((⟨hne, hns⟩ | ⟨x, ⟨hx, hu, hne⟩, rfl⟩) | ⟨x, ⟨hx, hu, hne⟩, rfl⟩)
    · exact ⟨hne, Or.inl hns⟩
    · exact ⟨hne.symm, Or.inr (Or.inl ⟨x, hx, hu, rfl⟩)⟩
    · exact ⟨hne.symm, Or.inr (Or.inr ⟨x, hx, rfl, hu⟩)⟩
  · rintro ⟨hne, hns | ⟨x, hx, hu, rfl⟩ | ⟨x, hx, rfl, hu⟩⟩
    · exact Or.inl (Or.inl ⟨hne, hns⟩)
    · exact Or.inl (Or.inr ⟨x, ⟨hx, hu, hne.symm⟩, rfl⟩)
    · exact Or.inr ⟨x, ⟨hx, hu, hne.symm⟩, rfl⟩

/-- The first `WITH x` leaves out the universes that are related by visibility alone. -/
theorem mem_universesOfAddress : v ∈ universesOfAddress db u ↔ u ≠ v ∧ SharesNamespace db u v := by
  rw [universesOfAddress, List.mem_append, List.mem_append, mem_namespace_universes]
  simp only [List.mem_map, List.mem_filter, decide_eq_true_eq]
  constructor
  · rintro ((h | ⟨x, ⟨-, hu, hne⟩, -⟩) | ⟨x, ⟨-, hu, hne⟩, -⟩)
    · exact h
    · exact absurd hu hne
    · exact absurd hu hne
  · exact fun h => Or.inl (Or.inl h)

/-! ## The rules -/

/-- Two networks of one type in related universes. -/
def RelatedNetworks (db : Schema) (n m : Netblock) : Prop :=
  n.isSingleAddress = false ∧ m.isSingleAddress = false ∧ n.netblockType = m.netblockType ∧
    Related db n.ipUniverseId m.ipUniverseId

/-- No two networks of one type in related universes have the same address. -/
def AddressesUnique (db : Schema) (t : List Netblock) : Prop :=
  ∀ n ∈ t, ∀ m ∈ t, RelatedNetworks db n m → n.ipAddress ≠ m.ipAddress

/-- No two networks without subnets of one type in related universes overlap. -/
def SubnetsDisjoint (db : Schema) (t : List Netblock) : Prop :=
  ∀ n ∈ t, ∀ m ∈ t, RelatedNetworks db n m → n.canSubnet = false → m.canSubnet = false →
    ¬ n.ipAddress.Overlaps m.ipAddress

structure UniverseRules (db : Schema) (t : List Netblock) : Prop where
  address : AddressesUnique db t
  subnet : SubnetsDisjoint db t

theorem RelatedNetworks.symm (h : RelatedNetworks db n m) : RelatedNetworks db m n :=
  ⟨h.2.1, h.1, h.2.2.1.symm, h.2.2.2.symm⟩

theorem RelatedNetworks.of_standsFor (hst : StandsFor n n') (h : RelatedNetworks db n' m) :
    RelatedNetworks db n m := by
  obtain ⟨-, hτ, hu, hs, -⟩ := hst.columns
  exact ⟨hs ▸ h.1, h.2.1, hτ ▸ h.2.2.1, hu ▸ h.2.2.2⟩

theorem not_relatedNetworks_self (n : Netblock) : ¬ RelatedNetworks db n n :=
  fun h => h.2.2.2.1 rfl

theorem checkNetblock_universes (h : checkNetblock db t o w = .ok ()) (hm : m ∈ t)
    (hne : m.netblockId ≠ w.netblockId) (hrel : RelatedNetworks db w m) :
    (SharesNamespace db w.ipUniverseId m.ipUniverseId → w.ipAddress ≠ m.ipAddress) ∧
      (w.canSubnet = false → m.canSubnet = false → ¬ w.ipAddress.Overlaps m.ipAddress) := by
  obtain ⟨hw, hms, hτ, hu⟩ := hrel
  simp only [checkNetblock, bind_unit_eq_ok, raiseIf_eq_ok] at h
  obtain ⟨-, -, -, haddress, hsubnet⟩ := h
  refine ⟨fun hns hip => haddress ⟨hw, m, hm, hip.symm, hτ.symm, ?_, hms, hne⟩,
    fun hws hmsub hover => hsubnet ⟨hw, hws, m, hm, ?_, ?_, hτ.symm, hms, hmsub, hne⟩⟩
  · exact mem_universesOfAddress.mpr ⟨hu.1, hns⟩
  · exact mem_universesOfSubnet.mpr hu
  · exact (Inet.overlaps_iff.mp hover).symm

/-- A network with the columns of `n`, whose key was `i`, does not have the address of another
network in a universe that is related to its own by visibility alone, unless neither is
subnettable. -/
def AvoidsVisible (db : Schema) (t : List Netblock) (i : ℕ) (n : Netblock) : Prop :=
  ∀ m ∈ t, m.netblockId ≠ i → RelatedNetworks db n m →
    ¬ SharesNamespace db n.ipUniverseId m.ipUniverseId →
      (n.canSubnet = true ∨ m.canSubnet = true) → n.ipAddress ≠ m.ipAddress

/-- The statement reuses no address of a universe that is merely visible. -/
def Statement.AvoidsVisible (db : Schema) (t : List Netblock) : Statement → Prop
  | .insert rec => ∀ n, rec.complete db t = .ok n → JazzHands.AvoidsVisible db t n.netblockId n
  | .update i set => ∀ old, findNetblock t i = some old → ∀ n,
      (set.apply old).complete db t = .ok n → JazzHands.AvoidsVisible db t i n
  | .delete _ => True

/-! ## Runs -/

/-- The row of a statement and the row that is stored for it agree on the columns of a network. -/
theorem WrittenRow.avoidsVisible {fires : Bool} {i : ℕ} (row : WrittenRow db t o fires n w)
    (h : AvoidsVisible db t i n) : AvoidsVisible db t i w := by
  intro m hm hne hrel
  have hip := row.ip (Or.inl (row.isSingleAddress ▸ hrel.1))
  rw [RelatedNetworks, row.isSingleAddress, row.netblockType, row.ipUniverseId] at hrel
  rw [row.ipUniverseId, row.canSubnet, hip]
  exact h m hm hne hrel

theorem Writes.avoidsVisible (h : Writes db t s gone (some w)) (hs : s.AvoidsVisible db t)
    (hm : m ∈ t) (hgone : ∀ o ∈ gone, m.netblockId ≠ o.netblockId)
    (hne : m.netblockId ≠ w.netblockId) (hrel : RelatedNetworks db w m)
    (hns : ¬ SharesNamespace db w.ipUniverseId m.ipUniverseId)
    (hsub : w.canSubnet = true ∨ m.canSubnet = true) : w.ipAddress ≠ m.ipAddress := by
  cases h with
  | insert complete row =>
    exact row.avoidsVisible (hs _ complete) m hm (row.netblockId ▸ hne) hrel hns hsub
  | update find fires complete row =>
    refine row.avoidsVisible (hs _ find _ complete) m hm ?_ hrel hns hsub
    rw [← (findNetblock_eq_some find).2]
    exact hgone _ rfl

theorem Writes.check (h : Writes db t s gone (some w)) : ∃ o, checkNetblock db t o w = .ok () := by
  cases h with
  | insert _ row | update _ _ _ row => exact ⟨_, row.check⟩

theorem Change.subnetsDisjoint (hc : Change db t t' s gone written) (h : SubnetsDisjoint db t) :
    SubnetsDisjoint db t' := by
  refine hc.forall_pairs (fun a b hab hrel hb ha hover => hab hrel.symm ha hb hover.symm)
    (fun a a' b hst hab hrel ha hb => ?_) h fun w hw => ⟨fun hrel => ?_, fun m hm _ hne hrel => ?_⟩
  · rw [hst.ip hrel.1]
    exact hab (hrel.of_standsFor hst) (hst.columns.2.2.2.2 ▸ ha) hb
  · exact absurd hrel (not_relatedNetworks_self w)
  · obtain rfl := Option.mem_def.mp hw
    obtain ⟨o, hcheck⟩ := hc.writes.check
    exact (checkNetblock_universes hcheck hm hne hrel).2

theorem Change.addressesUnique (hc : Change db t t' s gone written) (hs : s.AvoidsVisible db t)
    (h : AddressesUnique db t) : AddressesUnique db t' := by
  refine hc.forall_pairs (fun a b hab hrel => (hab hrel.symm).symm)
    (fun a a' b hst hab hrel => ?_) h fun w hw => ⟨fun hrel => ?_, fun m hm hgone hne hrel => ?_⟩
  · rw [hst.ip hrel.1]
    exact hab (hrel.of_standsFor hst)
  · exact absurd hrel (not_relatedNetworks_self w)
  · obtain rfl := Option.mem_def.mp hw
    obtain ⟨o, hcheck⟩ := hc.writes.check
    obtain ⟨haddress, hsubnet⟩ := checkNetblock_universes hcheck hm hne hrel
    by_cases hns : SharesNamespace db w.ipUniverseId m.ipUniverseId
    · exact haddress hns
    by_cases hsub : w.canSubnet = false ∧ m.canSubnet = false
    · intro hip
      exact hsubnet hsub.1 hsub.2 (hip ▸ Inet.overlaps_self _)
    · rw [not_and_or, Bool.not_eq_false, Bool.not_eq_false] at hsub
      exact hc.writes.avoidsVisible hs hm hgone hne hrel hns hsub

/-- **Networks without subnets.**  In every run no two networks without subnets of one type in
related universes overlap. -/
theorem subnetsDisjoint_run (ht : WellFormed t) (h₀ : SubnetsDisjoint db t)
    (l : List (Statement × ScanOrder)) : SubnetsDisjoint db (run (step db) t l) :=
  (run_invariant (I := fun t => WellFormed t ∧ SubnetsDisjoint db t) (P := fun _ _ => True)
    (fun _ _ hI _ => ⟨hI.1.step, step_cases hI.1 hI.2 fun _ _ _ hc => hc.subnetsDisjoint hI.2⟩)
    ⟨ht, h₀⟩ (allSteps_of_forall fun _ _ => trivial)).2

/-- **Related universes.**  In every run of statements that reuse no address of a universe that is
merely visible, no two networks of one type in related universes have the same address, and none
without subnets overlap. -/
theorem universeRules_run (ht : WellFormed t) (h₀ : UniverseRules db t)
    (l : List (Statement × ScanOrder))
    (hl : AllSteps (step db) (fun t sa => sa.1.AvoidsVisible db t) t l) :
    UniverseRules db (run (step db) t l) :=
  (run_invariant (I := fun t => WellFormed t ∧ UniverseRules db t)
    (fun _ _ hI hs => ⟨hI.1.step, step_cases hI.1 hI.2 fun _ _ _ hc =>
      ⟨hc.addressesUnique hs hI.2.address, hc.subnetsDisjoint hI.2.subnet⟩⟩)
    ⟨ht, h₀⟩ hl).2

theorem UniverseRules.nil : UniverseRules db [] :=
  ⟨by simp [AddressesUnique], by simp [SubnetsDisjoint]⟩

/-- Two universes in namespaces of their own, of which the first sees the second. -/
def visibleUniverses : Schema :=
  { Schema.initial with
    ipUniverse := [⟨0, "default"⟩, ⟨1, "other"⟩]
    ipUniverseVisibility := [⟨0, 1⟩] }

/-- A block of one universe is cut up in the other one. -/
def cutUp : List (Statement × ScanOrder) :=
  [(.insertNetwork 1 (.v4 10 0 0 0 24) true, .asIs),
    (.insertNetwork 2 (.v4 10 0 0 0 25) false "default" 1, .asIs)]

theorem universeRules_run_cutUp :
    UniverseRules visibleUniverses (run (step visibleUniverses) [] cutUp) := by
  refine universeRules_run .nil .nil cutUp ⟨fun n hn => ?_, fun n hn => ?_, trivial⟩
  · exact fun m hm => absurd hm List.not_mem_nil
  · obtain rfl := Except.ok.inj hn
    have hall : ∀ m ∈ run (step visibleUniverses) [] (cutUp.take 1),
        m.ipAddress ≠ .v4 10 0 0 0 25 := by decide
    exact fun m hm _ _ _ _ hip => hall m hm hip.symm

theorem subnetsDisjoint_run_cutUp :
    SubnetsDisjoint visibleUniverses (run (step visibleUniverses) [] cutUp) :=
  subnetsDisjoint_run .nil (by simp [SubnetsDisjoint]) cutUp

/-- The same block is put into both universes. -/
def bothUniverses : List (Statement × ScanOrder) :=
  [(.insertNetwork 1 (.v4 10 0 0 0 24) true, .asIs),
    (.insertNetwork 2 (.v4 10 0 0 0 24) true "default" 1, .asIs)]

/-- The first query of `validate_netblock` finds no universe that is merely visible, so the second
statement commits. -/
theorem bothUniverses_breaks :
    ¬ UniverseRules visibleUniverses (run (step visibleUniverses) [] bothUniverses) := by
  intro h
  refine h.address ⟨1, .v4 10 0 0 0 24, "default", false, true, none, 0⟩ (by decide)
    ⟨2, .v4 10 0 0 0 24, "default", false, true, none, 1⟩ (by decide) ⟨rfl, rfl, rfl, ?_⟩ rfl
  exact ⟨by decide, Or.inr (Or.inl ⟨⟨0, 1⟩, by simp [visibleUniverses], rfl, rfl⟩)⟩

end JazzHands

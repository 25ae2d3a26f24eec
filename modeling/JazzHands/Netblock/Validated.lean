import JazzHands.Netblock.Effects

/-!
# What the deferred trigger checks

`validate_netblock_parentage` runs when a transaction commits.  Of a row that is still as its event
left it, it checks exactly the following.
-/

namespace JazzHands

open Postgres

variable {db : Schema} {t : List Netblock} {r m n : Netblock} {o : Option Netblock} {p i : ℕ}

/-- The deferred trigger found nothing wrong with the stored row `r`, whose `OLD` was `o`. -/
def Validated (db : Schema) (t : List Netblock) (o : Option Netblock) (r : Netblock) : Prop :=
  validateNetblockParentage db t ⟨o, r⟩ = .ok ()

/-- The checks on a row without a parent. -/
structure TopLevel (t : List Netblock) (r : Netblock) : Prop where
  single : r.isSingleAddress = false
  best : r.bestParent t = none
  others : ∀ n ∈ t, n.parentNetblockId = none → n.netblockId ≠ r.netblockId →
    n.netblockType = r.netblockType → n.ipUniverseId = r.ipUniverseId →
    ¬ n.ipAddress.subnetEq r.ipAddress

/-- The checks on the row `r` below the row `m`. -/
structure ChildOf (t : List Netblock) (o : Option Netblock) (r m : Netblock) : Prop where
  children : r.canSubnet = false → ∀ n ∈ t, n.parentNetblockId = some r.netblockId →
    n.isSingleAddress = true
  subnet : r.isSingleAddress = true → m.canSubnet = false
  mask : r.isSingleAddress = true → r.ipAddress.masklen = m.ipAddress.masklen
  best : r.bestParent t = some m.netblockId
  kinds : ∀ n ∈ t, n.parentNetblockId = some m.netblockId → ∀ s ∈ t,
    s.parentNetblockId = some m.netblockId → n.isSingleAddress = s.isSingleAddress
  moved : (∃ old ∈ o, r.ipAddress ≠ old.ipAddress) → ∀ n ∈ t,
    n.parentNetblockId = some r.netblockId →
      (n.isSingleAddress = true → n.ipAddress.network = r.ipAddress) ∧
      (n.isSingleAddress = false → ∀ q ∈ findBestParentOf t n.netblockId, q = r.netblockId)
  others : r.isSingleAddress = false → ∀ n ∈ t, n.parentNetblockId = some m.netblockId →
    n.netblockId ≠ r.netblockId → ¬ n.ipAddress.subnetEq r.ipAddress

theorem validateTopLevel_eq_ok :
    validateTopLevel db t r r = .ok () ↔
      (db.isValidatedHierarchy r.netblockType = true → TopLevel t r) := by
  unfold validateTopLevel
  split_ifs with hv
  · simp [hv]
  simp only [bind_unit_eq_ok, raiseIf_eq_ok, not_exists, not_and, not_not, Bool.not_eq_true,
    hv, true_implies]
  exact ⟨fun h => ⟨h.1, h.2.1, h.2.2⟩, fun h => ⟨h.single, h.best, h.others⟩⟩

theorem validateChild_eq_ok : validateChild t o r r m = .ok () ↔ ChildOf t o r m := by
  simp only [validateChild, bind_unit_eq_ok, raiseIf_eq_ok]
  constructor
  · rintro ⟨hB, hD, h5, h2, h7, hE, h8⟩
    refine ⟨fun hr n hn hp => ?_, fun hr => ?_, fun hr => ?_, by simpa using h2,
      fun n hn hp s hs hq => ?_, fun hmove n hn hp => ⟨fun hs => ?_, fun hs q hq => ?_⟩,
      fun hr n hn hp hne hsub => h8 ⟨hr, n, hn, hp, hne, hsub⟩⟩
    · by_contra hs
      exact hB ⟨hr, n, hn, hp, by simpa using hs⟩
    · by_contra hc
      exact hD ⟨hr, by simpa using hc⟩
    · by_contra hc
      exact h5 ⟨hr, hc⟩
    · cases hn' : n.isSingleAddress <;> cases hs' : s.isSingleAddress
      · rfl
      · exact absurd ⟨⟨s, hs, hs', hq⟩, n, hn, hn', hp⟩ h7
      · exact absurd ⟨⟨n, hn, hn', hp⟩, s, hs, hs', hq⟩ h7
      · rfl
    · by_contra hc
      exact hE ⟨hmove, n, hn, hp, Or.inl ⟨hs, fun e => hc e.symm⟩⟩
    · by_contra hc
      exact hE ⟨hmove, n, hn, hp, Or.inr ⟨hs, q, hq, fun e => hc e.symm⟩⟩
  · intro h
    refine ⟨?_, ?_, fun hc => hc.2 (h.mask hc.1), fun hc => hc h.best, ?_, ?_, ?_⟩
    · rintro ⟨hr, n, hn, hp, hs⟩
      simp [h.children hr n hn hp] at hs
    · rintro ⟨hr, hm⟩
      simp [h.subnet hr] at hm
    · rintro ⟨⟨n, hn, hn', hp⟩, s, hs, hs', hq⟩
      simpa [hn', hs'] using h.kinds n hn hp s hs hq
    · rintro ⟨hmove, n, hn, hp, ⟨hs, hne⟩ | ⟨hs, q, hq, hne⟩⟩
      · exact hne (((h.moved hmove n hn hp).1 hs).symm)
      · exact hne (((h.moved hmove n hn hp).2 hs q hq).symm)
    · rintro ⟨hr, n, hn, hp, hne, hsub⟩
      exact h.others hr n hn hp hne hsub

/-- JH109 as the trigger checks it from the side of the parent: a child of another type *and*
another universe. -/
def ChildrenMatch (t : List Netblock) (r : Netblock) : Prop :=
  ∀ n ∈ t, n.parentNetblockId = some r.netblockId →
    n.netblockType = r.netblockType ∨ n.ipUniverseId = r.ipUniverseId

/-- **The deferred trigger**, on a row that is still as its event left it. -/
theorem validated_iff (ht : WellFormed t) (hr : r ∈ t) :
    Validated db t o r ↔ ChildrenMatch t r ∧
      match r.parentNetblockId with
      | none => db.isValidatedHierarchy r.netblockType = true → TopLevel t r
      | some p => p ≠ r.netblockId ∧ ∃ m ∈ t, m.netblockId = p ∧ m.isSingleAddress = false ∧
          m.ipUniverseId = r.ipUniverseId ∧ m.netblockType = r.netblockType ∧
          (db.isValidatedHierarchy r.netblockType = true → ChildOf t o r m) := by
  have hskip : ¬ Event.Skipped ⟨o, r⟩ r := by
    rintro ⟨p, hp, q, hq, hne⟩
    exact hne (Option.some.inj (hp.symm.trans hq))
  have hmatch : (¬ ∃ n ∈ t, n.parentNetblockId = some r.netblockId ∧
      n.netblockType ≠ r.netblockType ∧ n.ipUniverseId ≠ r.ipUniverseId) ↔ ChildrenMatch t r := by
    simp only [ChildrenMatch, not_exists, not_and, not_not, or_iff_not_imp_left, ne_eq]
  unfold Validated validateNetblockParentage
  simp only [ht.findNetblock_mem hr, if_neg hskip, bind_unit_eq_ok, raiseIf_eq_ok, hmatch]
  refine and_congr_right fun _ => ?_
  cases hp : r.parentNetblockId with
  | none => exact validateTopLevel_eq_ok
  | some p =>
    simp only [bind_unit_eq_ok, raiseIf_eq_ok]
    refine and_congr_right fun _ => ?_
    cases hf : findNetblock t p with
    | none =>
      refine iff_of_false raise_ne_ok ?_
      rintro ⟨m, hm, rfl, -⟩
      exact findNetblock_eq_none.mp hf m hm rfl
    | some m =>
      obtain ⟨hm, rfl⟩ := findNetblock_eq_some hf
      have hone : ∀ m' ∈ t, m'.netblockId = m.netblockId → m' = m := fun m' hm' he =>
        ht.pk m' hm' m hm he
      simp only [bind_unit_eq_ok, raiseIf_eq_ok, not_or, not_not, Bool.not_eq_true, ne_eq]
      have hval : (if db.isValidatedHierarchy r.netblockType = false then .ok ()
          else validateChild t o r r m : Result Unit) = .ok () ↔
          (db.isValidatedHierarchy r.netblockType = true → ChildOf t o r m) := by
        split_ifs with hv
        · simp [hv]
        · rw [validateChild_eq_ok]
          simp [hv]
      rw [hval]
      constructor
      · rintro ⟨hs, ⟨hu, hn⟩, hc⟩
        exact ⟨m, hm, rfl, hs, hu, hn, hc⟩
      · rintro ⟨m', hm', he, hs, hu, hn, hc⟩
        obtain rfl := hone m' hm' he
        exact ⟨hs, ⟨hu, hn⟩, hc⟩

section

variable (ht : WellFormed t) (hr : r ∈ t) (h : Validated db t o r)
include ht hr h

theorem Validated.topLevel (hv : db.isValidatedHierarchy r.netblockType = true)
    (hp : r.parentNetblockId = none) :
    TopLevel t r := by
  have h' := ((validated_iff ht hr).mp h).2
  rw [hp] at h'
  exact h' hv

/-- What the trigger checks of the parent of a row, whatever the type. -/
theorem Validated.parent (hp : r.parentNetblockId = some p) :
    p ≠ r.netblockId ∧ ∃ m ∈ t, m.netblockId = p ∧
      m.isSingleAddress = false ∧ m.ipUniverseId = r.ipUniverseId ∧
      m.netblockType = r.netblockType ∧
      (db.isValidatedHierarchy r.netblockType = true → ChildOf t o r m) := by
  have h' := ((validated_iff ht hr).mp h).2
  rw [hp] at h'
  exact h'

theorem Validated.childrenMatch :
    ChildrenMatch t r := ((validated_iff ht hr).mp h).1

/-- A row of a validated type that passed the trigger hangs off its best parent. -/
theorem Validated.parent_eq_best (hv : db.isValidatedHierarchy r.netblockType = true) :
    r.parentNetblockId = r.bestParent t := by
  cases hp : r.parentNetblockId with
  | none => exact (h.topLevel ht hr hv hp).best.symm
  | some p =>
    obtain ⟨-, m, -, rfl, -, -, -, hc⟩ := h.parent ht hr hp
    exact (hc hv).best.symm

end

end JazzHands

import Mathlib.Data.List.Count
import Mathlib.Data.List.Perm.Basic

/-!
# Rows with keys

Two lists of rows with a key `f` and contents `g`, of which the contents determine the key.
-/

namespace JazzHands.Library

variable {α β κ : Type} [BEq β] [LawfulBEq β] [BEq κ] [LawfulBEq κ] {f : α → κ} {g : α → β}
variable {l A B : List α} {a b : α}

/-- More than one row of the list has the key. -/
def Repeated (f : α → κ) (l : List α) (k : κ) : Prop := 1 < (l.map f).count k
  deriving Decidable

omit [LawfulBEq β] in
theorem count_map_eq_countP (g : α → β) (l : List α) (y : β) :
    (l.map g).count y = l.countP fun a => g a == y := by
  rw [List.count_eq_countP, List.countP_map]
  rfl

/-- Of rows with one key there is only one where the key is not repeated. -/
theorem eq_of_not_repeated (h : ¬ Repeated f l (f a)) (ha : a ∈ l) (hb : b ∈ l)
    (hab : f b = f a) : b = a := by
  rw [Repeated, count_map_eq_countP] at h
  induction l with
  | nil => exact absurd ha List.not_mem_nil
  | cons c l ih =>
    have hone : ∀ x ∈ l, f x = f a → 1 ≤ l.countP fun y => f y == f a := fun x hx hxa =>
      List.countP_pos_iff.mpr ⟨x, hx, beq_iff_eq.mpr hxa⟩
    rw [List.countP_cons] at h
    rcases List.mem_cons.mp ha with rfl | ha' <;> rcases List.mem_cons.mp hb with rfl | hb'
    · rfl
    · have := hone b hb' hab
      rw [if_pos (beq_iff_eq.mpr rfl)] at h
      omega
    · have := hone a ha' rfl
      rw [if_pos (beq_iff_eq.mpr hab)] at h
      omega
    · exact ih (by omega) ha' hb'

theorem count_map_eq_one (hfg : ∀ a b, g a = g b → f a = f b) (h : ¬ Repeated f l (f a))
    (ha : g a ∈ l.map g) : (l.map g).count (g a) = 1 := by
  have hle : (l.map g).count (g a) ≤ (l.map f).count (f a) := by
    rw [count_map_eq_countP, count_map_eq_countP]
    refine List.countP_mono_left fun b _ hb => ?_
    rw [beq_iff_eq] at hb ⊢
    exact hfg b a hb
  have hpos := List.count_pos_iff.mpr ha
  rw [Repeated] at h
  omega

/-- **Equal multiplicities from one inclusion.**  `ok` tells the keys by which rows are found. -/
theorem map_perm_of_keyed {ok : κ → Prop} (hfg : ∀ a b, g a = g b → f a = f b)
    (hsub : ∀ a ∈ A, ok (f a) → g a ∈ B.map g)
    (hkey : ∀ b ∈ B, ok (f b) → ∃ a ∈ A, f a = f b)
    (hrest : ∀ a, a ∈ A ∨ a ∈ B → ¬ ok (f a) ∨ Repeated f A (f a) ∨ Repeated f B (f a) →
      (A.map g).count (g a) = (B.map g).count (g a)) :
    (A.map g).Perm (B.map g) := by
  have hrow : ∀ a, a ∈ A ∨ a ∈ B → (A.map g).count (g a) = (B.map g).count (g a) := by
    intro a ha
    by_cases hok : ok (f a)
    swap
    · exact hrest a ha (Or.inl hok)
    by_cases hA : Repeated f A (f a)
    · exact hrest a ha (Or.inr (Or.inl hA))
    by_cases hB : Repeated f B (f a)
    · exact hrest a ha (Or.inr (Or.inr hB))
    rcases ha with ha | ha
    · rw [count_map_eq_one hfg hA (List.mem_map_of_mem ha),
        count_map_eq_one hfg hB (hsub a ha hok)]
    · -- the only row of `B` with this key is what the row of `A` with it is found in
      obtain ⟨c, hc, hca⟩ := hkey a ha hok
      obtain ⟨b, hb, hbc⟩ := List.mem_map.mp (hsub c hc (hca ▸ hok))
      obtain rfl := eq_of_not_repeated hB ha hb ((hfg b c hbc).trans hca)
      have hmem : g b ∈ A.map g := hbc ▸ List.mem_map_of_mem hc
      rw [count_map_eq_one hfg hA hmem, count_map_eq_one hfg hB (List.mem_map_of_mem ha)]
  refine List.perm_iff_count.mpr fun y => ?_
  by_cases hy : ∃ a, (a ∈ A ∨ a ∈ B) ∧ g a = y
  · obtain ⟨a, ha, rfl⟩ := hy
    exact hrow a ha
  · have hAy : y ∉ A.map g := fun h => by
      obtain ⟨a, ha, hay⟩ := List.mem_map.mp h
      exact hy ⟨a, Or.inl ha, hay⟩
    have hBy : y ∉ B.map g := fun h => by
      obtain ⟨a, ha, hay⟩ := List.mem_map.mp h
      exact hy ⟨a, Or.inr ha, hay⟩
    rw [List.count_eq_zero.mpr hAy, List.count_eq_zero.mpr hBy]

end JazzHands.Library

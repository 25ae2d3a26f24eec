import JazzHands.Library.AlignedBlock
import Mathlib.Order.Interval.Set.LinearOrder

/-!
# Tiling a set of numbers by aligned blocks

* `Tiles.append`: tilings of disjoint sets, one after the other.
-/

namespace JazzHands.Library

open AlignedBlock

variable {a b c z : AlignedBlock} {l l' : List AlignedBlock} {S S' : Set ℕ} {x lo mid hi : ℕ}

/-- The blocks are pairwise disjoint, and `S` is their union. -/
structure Tiles (l : List AlignedBlock) (S : Set ℕ) : Prop where
  disjoint : l.Pairwise fun a b => ∀ x, x ∈ a → x ∉ b
  union : ∀ x, x ∈ S ↔ ∃ b ∈ l, x ∈ b

namespace Tiles

theorem nil : Tiles [] ∅ where
  disjoint := .nil
  union x := by simp

theorem singleton (b : AlignedBlock) : Tiles [b] (Set.Ico b.first (b.last + 1)) where
  disjoint := List.pairwise_singleton _ _
  union x := by
    rw [Set.mem_Ico, Nat.lt_succ_iff, ← mem_iff_first_last]
    simp

theorem append (h : Tiles l S) (h' : Tiles l' S') (hd : ∀ x ∈ S, x ∉ S') :
    Tiles (l ++ l') (S ∪ S') where
  disjoint := by
    refine List.pairwise_append.mpr ⟨h.disjoint, h'.disjoint, fun a ha b hb x hxa hxb => ?_⟩
    exact hd x ((h.union x).mpr ⟨a, ha, hxa⟩) ((h'.union x).mpr ⟨b, hb, hxb⟩)
  union x := by
    rw [Set.mem_union, h.union, h'.union]
    simp only [List.mem_append, or_and_right, exists_or]

theorem append_Ico (h : Tiles l (Set.Ico lo mid)) (h' : Tiles l' (Set.Ico mid hi))
    (hlo : lo ≤ mid) (hhi : mid ≤ hi) : Tiles (l ++ l') (Set.Ico lo hi) := by
  rw [← Set.Ico_union_Ico_eq_Ico hlo hhi]
  refine h.append h' fun x hx hx' => ?_
  exact absurd (hx.2.trans_le hx'.1) (lt_irrefl _)

theorem halves (hb : 0 < b.height) : Tiles [b.lower, b.upper] (Set.Ico b.first (b.last + 1)) := by
  have hupper : Tiles [b.upper] (Set.Ico (b.lower.last + 1) (b.last + 1)) := by
    rw [← last_upper hb, ← first_upper]
    exact singleton b.upper
  have h := (singleton b.lower).append_Ico hupper
    (b.lower.first_le_last.trans (Nat.le_succ _))
    (by rw [← last_upper hb, ← first_upper]; exact b.upper.first_le_last.trans (Nat.le_succ _))
  rwa [first_lower hb] at h

end Tiles

end JazzHands.Library

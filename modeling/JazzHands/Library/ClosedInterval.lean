import Mathlib.Order.Interval.Set.Basic

/-!
# Closed intervals given by their ends

Two intervals of a linear order meet when an end of one lies in the other.  Looking only at the ends
of the first misses a second interval that lies strictly inside it.
-/

namespace JazzHands.Library

variable {α : Type*} [LinearOrder α]

/-- The intervals have a point in common. -/
def Meets (a b : α × α) : Prop := ∃ x, x ∈ Set.Icc a.1 a.2 ∧ x ∈ Set.Icc b.1 b.2

/-- An end of `a` lies in `b`. -/
def EndIn (a b : α × α) : Prop := (b.1 ≤ a.1 ∧ a.1 ≤ b.2) ∨ (b.1 ≤ a.2 ∧ a.2 ≤ b.2)

/-- The interval `b` lies in `a` and has no end of it. -/
def Inside (b a : α × α) : Prop := a.1 < b.1 ∧ b.2 < a.2

variable {a b : α × α}

theorem Meets.symm (h : Meets a b) : Meets b a := h.imp fun _ hx => hx.symm

theorem EndIn.meets (ha : a.1 ≤ a.2) (h : EndIn a b) : Meets a b := by
  rcases h with h | h
  · exact ⟨a.1, ⟨le_rfl, ha⟩, h⟩
  · exact ⟨a.2, ⟨ha, le_rfl⟩, h⟩

theorem meets_iff (ha : a.1 ≤ a.2) (hb : b.1 ≤ b.2) : Meets a b ↔ EndIn a b ∨ Inside b a := by
  constructor
  · rintro ⟨x, ⟨hax, hxa⟩, hbx, hxb⟩
    by_cases h₁ : b.1 ≤ a.1
    · exact Or.inl (Or.inl ⟨h₁, hax.trans hxb⟩)
    by_cases h₂ : a.2 ≤ b.2
    · exact Or.inl (Or.inr ⟨hbx.trans hxa, h₂⟩)
    · exact Or.inr ⟨not_le.mp h₁, not_le.mp h₂⟩
  · rintro (h | ⟨h₁, h₂⟩)
    · exact h.meets ha
    · exact ⟨b.1, ⟨h₁.le, hb.trans h₂.le⟩, le_rfl, hb⟩

theorem meets_iff_endIn (ha : a.1 ≤ a.2) (hb : b.1 ≤ b.2) :
    Meets a b ↔ EndIn a b ∨ EndIn b a := by
  constructor
  · intro h
    rcases (meets_iff ha hb).mp h with h | ⟨h₁, h₂⟩
    · exact Or.inl h
    · exact Or.inr (Or.inl ⟨h₁.le, hb.trans h₂.le⟩)
  · rintro (h | h)
    · exact h.meets ha
    · exact (h.meets hb).symm

end JazzHands.Library

import Mathlib.Order.MinMax

/-!
# A copy and the version it was taken at

A source has a version and a value, and its version grows whenever the value changes.  A copy of it
is kept elsewhere, with a mark that says at which version the source was when the copy was taken.
The source is read once for the mark and once for the copy, so the copy may be newer than its mark.

* `Faithful.eq_of_le`: a copy whose mark is not behind is right.
-/

namespace JazzHands.Library

variable {τ β : Type*} [LinearOrder τ] {v v' w : τ} {x x' copy : β} {mark : Option τ}

/-- The mark is no later than the version `v`, and if it is `v` then the copy is the value `x`. -/
def Faithful (v : τ) (x : β) (mark : Option τ) (copy : β) : Prop :=
  ∀ w, mark = some w → w ≤ v ∧ (w = v → copy = x)

theorem Faithful.of_none : Faithful v x none copy := fun _ h => nomatch h

/-- A mark that was right is behind after the next change. -/
theorem Faithful.of_newer (h : Faithful v x mark copy) (hlt : v < v') :
    Faithful v' x' mark copy := by
  intro w hw
  have hlt' : w < v' := lt_of_le_of_lt (h w hw).1 hlt
  exact ⟨le_of_lt hlt', fun heq => absurd heq (ne_of_lt hlt')⟩

/-- A copy of the value as it is now, under any mark that is not ahead. -/
theorem Faithful.of_copy (h : ∀ w, mark = some w → w ≤ v) : Faithful v x mark x :=
  fun w hw => ⟨h w hw, fun _ => rfl⟩

theorem Faithful.eq_of_le (h : Faithful v x (some w) copy) (hle : v ≤ w) : copy = x :=
  (h w rfl).2 (le_antisymm (h w rfl).1 hle)

end JazzHands.Library

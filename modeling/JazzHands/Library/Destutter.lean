import Mathlib.Data.List.Dedup
import Mathlib.Data.List.Destutter

/-!
# Values that stand together

The list `l.destutter (· ≠ ·)` has one element for each stretch of equal elements of `l`.

* `mem_destutter_ne`: they have the elements of the list.
-/

namespace JazzHands.Library

variable {α : Type*} [DecidableEq α] {l : List α} {a b : α}

/-- Equal elements of the list stand next to each other. -/
def Together (l : List α) : Prop := (l.destutter (· ≠ ·)).Nodup
  deriving Decidable

theorem destutter'_concat (l : List α) (a b : α) :
    (l ++ [b]).destutter' (· ≠ ·) a =
      l.destutter' (· ≠ ·) a ++ if (a :: l).getLast? = some b then [] else [b] := by
  induction l generalizing a with
  | nil =>
    rw [List.nil_append, List.destutter'_singleton, List.destutter'_nil, List.getLast?_singleton]
    by_cases h : a = b
    · simp [h]
    · simp [h]
  | cons c l ih =>
    rw [List.cons_append, List.getLast?_cons_cons]
    by_cases h : a = c
    · subst h
      rw [List.destutter'_cons_neg _ (not_not.mpr rfl), List.destutter'_cons_neg _ (not_not.mpr rfl),
        ih]
    · rw [List.destutter'_cons_pos _ h, List.destutter'_cons_pos _ h, ih, List.cons_append]

theorem destutter_concat (l : List α) (b : α) :
    (l ++ [b]).destutter (· ≠ ·) =
      l.destutter (· ≠ ·) ++ if l.getLast? = some b then [] else [b] := by
  cases l with
  | nil => simp
  | cons a l => exact destutter'_concat l a b

theorem mem_destutter_ne : a ∈ l.destutter (· ≠ ·) ↔ a ∈ l := by
  induction l using List.reverseRecOn with
  | nil => simp
  | append_singleton l b ih =>
    rw [destutter_concat, List.mem_append, List.mem_append, ih, List.mem_singleton]
    split
    next hlast =>
      simp only [List.not_mem_nil, or_false, iff_self_or]
      rintro rfl
      exact List.mem_of_getLast? hlast
    next => rw [List.mem_singleton]

/-- The stretches are the elements without repetition when equal elements stand together. -/
theorem perm_dedup_iff : (l.destutter (· ≠ ·)).Perm l.dedup ↔ Together l := by
  constructor
  · intro h
    exact h.nodup_iff.mpr l.nodup_dedup
  · intro h
    rw [List.perm_ext_iff_of_nodup h l.nodup_dedup]
    intro a
    rw [mem_destutter_ne, List.mem_dedup]

end JazzHands.Library

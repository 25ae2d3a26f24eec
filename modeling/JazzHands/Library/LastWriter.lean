import Mathlib.Data.List.Basic
import Mathlib.Order.MinMax

/-!
# The latest write wins

A value is kept with the stamp of the write that left it.  A write takes effect when its stamp is
later than the stored one.

* `foldl_put_of_le`: writes that are not later than what is stored change nothing.
-/

namespace JazzHands.Library

/-- A value and the stamp of the write that left it. -/
structure Stamped (τ α : Type*) where
  stamp : τ
  value : α

variable {τ α : Type*} [LinearOrder τ] {cur w : Stamped τ α} {ws : List (Stamped τ α)}

/-- A write takes effect when it is later than what is stored. -/
def Stamped.put (cur w : Stamped τ α) : Stamped τ α := if cur.stamp < w.stamp then w else cur

theorem put_of_lt (h : cur.stamp < w.stamp) : cur.put w = w := if_pos h

theorem put_of_le (h : w.stamp ≤ cur.stamp) : cur.put w = cur := if_neg (not_lt.mpr h)

theorem stamp_put : (cur.put w).stamp = max cur.stamp w.stamp := by
  rcases lt_or_ge cur.stamp w.stamp with h | h
  · rw [put_of_lt h, max_eq_right h.le]
  · rw [put_of_le h, max_eq_left h]

theorem foldl_put_of_le (h : ∀ v ∈ ws, v.stamp ≤ cur.stamp) : ws.foldl Stamped.put cur = cur := by
  induction ws with
  | nil => rfl
  | cons v ws ih =>
    rw [List.foldl_cons, put_of_le (h v List.mem_cons_self)]
    exact ih fun u hu => h u (List.mem_cons_of_mem _ hu)

/-- **The latest write remains.** -/
theorem foldl_put_of_latest (hmem : w ∈ ws) (hlatest : ∀ v ∈ ws, v ≠ w → v.stamp < w.stamp)
    (hcur : cur.stamp < w.stamp) : ws.foldl Stamped.put cur = w := by
  induction ws generalizing cur with
  | nil => cases hmem
  | cons v ws ih =>
    have hrest := fun u hu => hlatest u (List.mem_cons_of_mem v hu)
    rw [List.foldl_cons]
    by_cases hv : v = w
    · rw [hv, put_of_lt hcur]
      refine foldl_put_of_le fun u hu => ?_
      by_cases huw : u = w
      · rw [huw]
      · exact (hrest u hu huw).le
    · -- the latest write is still to come, and `v` is earlier
      have hmem' : w ∈ ws := (List.mem_cons.mp hmem).resolve_left (Ne.symm hv)
      refine ih hmem' hrest ?_
      rw [stamp_put]
      exact max_lt hcur (hlatest v List.mem_cons_self hv)

end JazzHands.Library

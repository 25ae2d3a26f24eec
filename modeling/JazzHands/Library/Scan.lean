import Mathlib.Data.List.Basic
import Mathlib.Order.Basic
import Mathlib.Data.Set.Basic

/-!
# Scanning a set in order

A scan moves a cursor along a transitive relation and collects elements of a set on the way.  It
misses nothing when no element of the set lies between the cursor and its next place.

* `Scanned.start`, `Scanned.take`, `Scanned.skip`: the first place of the cursor, and a step that
  collects the element at the cursor or not.
* `Scanned.all`: at the end, everything has been found.
-/

namespace JazzHands.Library

variable {α : Type*} {r : α → α → Prop} {E : Set α} {found : List α} {cur next : α}

/-- The elements of `E` before the cursor are among those found, which lie before it in order. -/
structure Scanned (r : α → α → Prop) (E : Set α) (found : List α) (cur : α) : Prop where
  complete : ∀ e ∈ E, r e cur → e ∈ found
  before : ∀ e ∈ found, r e cur
  sorted : found.Pairwise r

namespace Scanned

theorem start (h : ∀ e ∈ E, ¬ r e cur) : Scanned r E [] cur where
  complete e he hlt := absurd hlt (h e he)
  before _ he := absurd he List.not_mem_nil
  sorted := .nil

theorem skip [IsTrans α r] (h : Scanned r E found cur) (hnext : r cur next)
    (hgap : ∀ e ∈ E, r e next → r e cur) : Scanned r E found next where
  complete e he hlt := h.complete e he (hgap e he hlt)
  before e he := IsTrans.trans _ _ _ (h.before e he) hnext
  sorted := h.sorted

theorem take [IsTrans α r] (h : Scanned r E found cur) (hnext : r cur next)
    (hgap : ∀ e ∈ E, r e next → r e cur ∨ e = cur) : Scanned r E (found ++ [cur]) next where
  complete e he hlt := by
    rcases hgap e he hlt with hlt | rfl
    · exact List.mem_append_left _ (h.complete e he hlt)
    · exact List.mem_append_right _ List.mem_cons_self
  before e he := by
    rcases List.mem_append.mp he with he | he
    · exact IsTrans.trans _ _ _ (h.before e he) hnext
    · obtain rfl := List.mem_singleton.mp he
      exact hnext
  sorted := by
    refine List.pairwise_append.mpr ⟨h.sorted, List.pairwise_singleton _ _, ?_⟩
    intro e he e' he'
    obtain rfl := List.mem_singleton.mp he'
    exact h.before e he

theorem all (h : Scanned r E found cur) (hend : ∀ e ∈ E, r e cur) : ∀ e ∈ E, e ∈ found :=
  fun e he => h.complete e he (hend e he)

end Scanned

end JazzHands.Library

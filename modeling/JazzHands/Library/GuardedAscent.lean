import JazzHands.Library.WithRecursive
import Mathlib.Data.List.Perm.Subperm
import Mathlib.Logic.Relation

/-!
# Recursive queries that guard against cycles

A recursive query over a graph keeps the path of each row, and a flag that is up when the last node
was on the path before.  A row with its flag up gives rise to no others.

* `Guarded`, `Guarded.start`, `Guarded.next`: a row, the first row, and the rows that one gives rise
  to.
-/

namespace JazzHands.Library

open Relation

/-- A row: the node it has come to, the path to it, last node first, and the flag. -/
structure Guarded (α : Type*) where
  node : α
  path : List α
  cycle : Bool

namespace Guarded

variable {α : Type*}

def start (a : α) : Guarded α := ⟨a, [a], false⟩

variable [DecidableEq α]

/-- The rows that a row gives rise to. -/
def next (up : α → List α) (r : Guarded α) : List (Guarded α) :=
  if r.cycle = true then []
  else (up r.node).map fun p => ⟨p, p :: r.path, decide (p ∈ r.path)⟩

variable {up : α → List α} {r s : Guarded α} {a q z : α} {l : List α} {k : ℕ}

theorem mem_next : s ∈ next up r ↔
    r.cycle = false ∧ ∃ p ∈ up r.node, s = ⟨p, p :: r.path, decide (p ∈ r.path)⟩ := by
  unfold next
  split_ifs with hcycle
  · simp [hcycle]
  · simp only [List.mem_map, Bool.eq_false_iff.mpr hcycle, true_and, eq_comm]

/-- Every node of a path has a row of its own with its flag down. -/
theorem exists_of_mem_path (hr : r ∈ rounds (next up) [start a] k) (hq : q ∈ r.path) :
    ∃ j, ∃ s ∈ rounds (next up) [start a] j, s.node = q ∧ s.cycle = false := by
  induction k generalizing r with
  | zero =>
    obtain rfl := List.mem_singleton.mp hr
    refine ⟨0, start a, List.mem_singleton_self _, ?_, rfl⟩
    exact (List.mem_singleton.mp hq).symm
  | succ k ih =>
    obtain ⟨x, hx, hrx⟩ := mem_rounds_succ.mp hr
    obtain ⟨-, p, -, rfl⟩ := mem_next.mp hrx
    rcases List.mem_cons.mp hq with rfl | hq
    · by_cases hp : q ∈ x.path
      · exact ih hx hp
      · exact ⟨k + 1, _, hr, rfl, decide_eq_false hp⟩
    · exact ih hx hq

theorem reflTransGen_of_mem (hr : r ∈ rounds (next up) [start a] k) :
    ReflTransGen (fun x y => y ∈ up x) a r.node := by
  induction k generalizing r with
  | zero =>
    obtain rfl := List.mem_singleton.mp hr
    exact .refl
  | succ k ih =>
    obtain ⟨x, hx, hrx⟩ := mem_rounds_succ.mp hr
    obtain ⟨-, p, hp, rfl⟩ := mem_next.mp hrx
    exact (ih hx).tail hp

/-- A node that is reachable has a row with its flag down. -/
theorem exists_of_reflTransGen (h : ReflTransGen (fun x y => y ∈ up x) a z) :
    ∃ j, ∃ s ∈ rounds (next up) [start a] j, s.node = z ∧ s.cycle = false := by
  induction h with
  | refl => exact ⟨0, start a, List.mem_singleton_self _, rfl, rfl⟩
  | @tail y z _ hyz ih =>
    obtain ⟨j, s, hs, rfl, hcycle⟩ := ih
    have hmem : (⟨z, z :: s.path, decide (z ∈ s.path)⟩ : Guarded α) ∈
        rounds (next up) [start a] (j + 1) :=
      mem_rounds_succ.mpr ⟨s, hs, mem_next.mpr ⟨hcycle, z, hyz, rfl⟩⟩
    exact exists_of_mem_path hmem List.mem_cons_self

/-- **The rows meet the nodes that are reachable**, cycles or not. -/
theorem exists_row_iff : (∃ k, ∃ r ∈ rounds (next up) [start a] k, r.node = z) ↔
    ReflTransGen (fun x y => y ∈ up x) a z := by
  constructor
  · rintro ⟨k, r, hr, rfl⟩
    exact reflTransGen_of_mem hr
  · intro h
    obtain ⟨k, r, hr, hz, -⟩ := exists_of_reflTransGen h
    exact ⟨k, r, hr, hz⟩

section

variable (hl : ∀ x, ∀ y ∈ up x, y ∈ l)
include hl

/-- The path of a row of a round, without a node twice while the flag is down. -/
theorem path_of_mem (hr : r ∈ rounds (next up) [start a] k) :
    r.path.length = k + 1 ∧ r.path ⊆ a :: l ∧ (r.cycle = false → r.path.Nodup) := by
  induction k generalizing r with
  | zero =>
    obtain rfl := List.mem_singleton.mp hr
    simp [start]
  | succ k ih =>
    obtain ⟨x, hx, hrx⟩ := mem_rounds_succ.mp hr
    obtain ⟨hcycle, p, hp, rfl⟩ := mem_next.mp hrx
    obtain ⟨hlen, hsub, hnd⟩ := ih hx
    refine ⟨by simp [hlen], List.cons_subset.mpr ⟨List.mem_cons_of_mem _ (hl _ p hp), hsub⟩, ?_⟩
    exact fun hnot => List.nodup_cons.mpr ⟨of_decide_eq_false hnot, hnd hcycle⟩

/-- The query comes to an end: no path without a repeated node is longer than there are nodes. -/
theorem rounds_guarded_eq_nil :
    rounds (next up) [start a] (l.length + 2) = [] := by
  refine List.eq_nil_iff_forall_not_mem.mpr fun r hr => ?_
  obtain ⟨x, hx, hrx⟩ := mem_rounds_succ.mp hr
  obtain ⟨hlen, hsub, hnd⟩ := path_of_mem hl hx
  have hle := (List.subperm_of_subset (hnd (mem_next.mp hrx).1) hsub).length_le
  rw [List.length_cons] at hle
  omega

/-- **The nodes of the query.** -/
theorem mem_unionAll_guarded :
    (∃ r ∈ unionAll (next up) [start a] (l.length + 2), r.node = z) ↔
      ReflTransGen (fun x y => y ∈ up x) a z := by
  rw [← exists_row_iff]
  constructor
  · rintro ⟨r, hr, hz⟩
    obtain ⟨k, -, hr⟩ := mem_unionAll.mp hr
    exact ⟨k, r, hr, hz⟩
  · rintro ⟨k, r, hr, hz⟩
    refine ⟨r, mem_unionAll.mpr ⟨k, ?_, hr⟩, hz⟩
    by_contra hk
    rw [rounds_eq_nil (rounds_guarded_eq_nil hl) (not_lt.mp hk)] at hr
    exact absurd hr List.not_mem_nil

end

end Guarded

end JazzHands.Library

import Mathlib.Data.List.Nodup
import Mathlib.Data.List.Dedup
import Mathlib.Data.List.Range

/-!
# Recursive queries

A query `WITH RECURSIVE x AS (base UNION ALL SELECT ... FROM x ...)` collects rows in rounds: the
rows of `base`, then those that each row of a round gives rise to.  `UNION` in place of `UNION ALL`
drops a row that is there already.

* `rounds_eq_nil`, `unionAll_of_le`: once a round is empty there is nothing more to collect.
-/

namespace JazzHands.Library

variable {β : Type*} {next : β → List β} {base : List β} {m n : ℕ} {r x y : β}

/-- The rows of a round. -/
def rounds (next : β → List β) (base : List β) : ℕ → List β
  | 0 => base
  | n + 1 => (rounds next base n).flatMap next

/-- The rows of the first rounds. -/
def unionAll (next : β → List β) (base : List β) : ℕ → List β
  | 0 => []
  | n + 1 => unionAll next base n ++ rounds next base n

theorem mem_rounds_succ : r ∈ rounds next base (n + 1) ↔ ∃ x ∈ rounds next base n, r ∈ next x :=
  List.mem_flatMap

theorem mem_unionAll : r ∈ unionAll next base n ↔ ∃ k < n, r ∈ rounds next base k := by
  induction n with
  | zero => simp [unionAll]
  | succ n ih =>
    rw [unionAll, List.mem_append, ih]
    constructor
    · rintro (⟨k, hk, hr⟩ | hr)
      · exact ⟨k, by omega, hr⟩
      · exact ⟨n, by omega, hr⟩
    · rintro ⟨k, hk, hr⟩
      rcases Nat.lt_succ_iff_lt_or_eq.mp hk with hk | rfl
      · exact Or.inl ⟨k, hk, hr⟩
      · exact Or.inr hr

theorem rounds_eq_nil (h : rounds next base n = []) (hnm : n ≤ m) : rounds next base m = [] := by
  induction m, hnm using Nat.le_induction with
  | base => exact h
  | succ m _ ih => rw [rounds, ih, List.flatMap_nil]

/-! ## No row twice -/

section Nodup

variable {rank : β → ℕ}

theorem nodup_rounds (hbase : base.Nodup) (hnext : ∀ x, (next x).Nodup)
    (hinj : ∀ n, ∀ x ∈ rounds next base n, ∀ y ∈ rounds next base n, ∀ r ∈ next x, r ∈ next y →
      x = y) : (rounds next base n).Nodup := by
  induction n with
  | zero => exact hbase
  | succ n ih =>
    refine List.nodup_flatMap.mpr ⟨fun x _ => hnext x, ih.imp_of_mem fun {x y} hx hy hxy => ?_⟩
    intro r hrx hry
    exact hxy (hinj n x hx y hy r hrx hry)

/-- No row comes twice when a row tells the one that gave rise to it, and its round. -/
theorem nodup_unionAll (rank : β → ℕ) (hbase : base.Nodup) (hnext : ∀ x, (next x).Nodup)
    (hinj : ∀ n, ∀ x ∈ rounds next base n, ∀ y ∈ rounds next base n, ∀ r ∈ next x, r ∈ next y →
      x = y) (hrank : ∀ n, ∀ r ∈ rounds next base n, rank r = n) :
    (unionAll next base n).Nodup := by
  induction n with
  | zero => exact List.nodup_nil
  | succ n ih =>
    refine List.nodup_append.mpr ⟨ih, nodup_rounds hbase hnext hinj, ?_⟩
    rintro r hr _ hr' rfl
    obtain ⟨k, hk, hr⟩ := mem_unionAll.mp hr
    have := hrank k r hr
    have := hrank n r hr'
    omega

end Nodup

/-! ## `UNION` -/

section Union

variable [DecidableEq β]

/-- The rows so far, and those among them that the last round added. -/
def unionRounds (next : β → List β) (base : List β) : ℕ → List β × List β
  | 0 => (base.dedup, base.dedup)
  | n + 1 =>
    let (found, last) := unionRounds next base n
    let new := (last.flatMap next).dedup.filter (· ∉ found)
    (found ++ new, new)

/-- The rows that the base and the next `n` rounds of a query with `UNION` give. -/
def union (next : β → List β) (base : List β) (n : ℕ) : List β := (unionRounds next base n).1

theorem mem_union_succ : r ∈ union next base (n + 1) ↔
    r ∈ union next base n ∨ ∃ x ∈ (unionRounds next base n).2, r ∈ next x := by
  show r ∈ (unionRounds next base n).1 ++ _ ↔ r ∈ (unionRounds next base n).1 ∨ _
  rw [List.mem_append, List.mem_filter, List.mem_dedup, List.mem_flatMap, decide_eq_true_iff]
  tauto

theorem union_subset_of_le (hmn : m ≤ n) (hr : r ∈ union next base m) : r ∈ union next base n := by
  induction n, hmn using Nat.le_induction with
  | base => exact hr
  | succ n _ ih => exact mem_union_succ.mpr (Or.inl ih)

theorem exists_new_of_mem_union (hr : r ∈ union next base n) :
    ∃ k ≤ n, r ∈ (unionRounds next base k).2 := by
  induction n with
  | zero => exact ⟨0, le_rfl, hr⟩
  | succ n ih =>
    rcases List.mem_append.mp hr with hr | hr
    · obtain ⟨k, hk, hr⟩ := ih hr
      exact ⟨k, by omega, hr⟩
    · exact ⟨n + 1, le_rfl, hr⟩

theorem mem_rounds_of_new (hr : r ∈ (unionRounds next base n).2) : r ∈ rounds next base n := by
  induction n generalizing r with
  | zero => exact List.mem_dedup.mp hr
  | succ n ih =>
    have hmem := List.mem_dedup.mp (List.mem_of_mem_filter hr)
    obtain ⟨x, hx, hr⟩ := List.mem_flatMap.mp hmem
    exact mem_rounds_succ.mpr ⟨x, ih hx, hr⟩

theorem mem_union_iff : r ∈ union next base n ↔ ∃ k ≤ n, r ∈ rounds next base k := by
  constructor
  · intro hr
    obtain ⟨k, hk, hr⟩ := exists_new_of_mem_union hr
    exact ⟨k, hk, mem_rounds_of_new hr⟩
  · rintro ⟨k, hk, hr⟩
    refine union_subset_of_le hk ?_
    clear hk
    induction k generalizing r with
    | zero => exact List.mem_dedup.mpr hr
    | succ k ih =>
      obtain ⟨x, hx, hr⟩ := mem_rounds_succ.mp hr
      obtain ⟨j, hj, hx⟩ := exists_new_of_mem_union (ih hx)
      exact union_subset_of_le (Nat.succ_le_succ hj) (mem_union_succ.mpr (Or.inr ⟨x, hx, hr⟩))

theorem nodup_union : (union next base n).Nodup := by
  induction n with
  | zero => exact List.nodup_dedup _
  | succ n ih =>
    refine List.nodup_append.mpr ⟨ih, (List.nodup_dedup _).filter _, ?_⟩
    rintro r hr _ hr' rfl
    exact of_decide_eq_true (List.mem_filter.mp hr').2 hr

end Union

end JazzHands.Library

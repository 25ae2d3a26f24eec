import Mathlib.Data.List.DropRight
import Mathlib.Data.List.Nodup

/-!
# Texts joined by a separator

Texts are joined with a separator between them.  The joined text is split at the separator again,
and the empty texts at its end are dropped.

* `joined`, `fields`: the two functions.
* `sep_notMem_of_mem_fields`, `getLast_fields`: every result of `fields` is of this kind.
* `joined_inj`: texts without the separator are told apart by the joined text.
* `joined_append`, `joined_joined`: joining in parts.
* `mem_joined`, `filter_joined`, `count_joined`: the characters of a joined text.
-/

namespace JazzHands.Library

variable {α : Type*} {sep : α} {s : List α} {xs ys : List (List α)}

def joined (sep : α) (xs : List (List α)) : List α := [sep].intercalate xs

/-! ## Joining in parts -/

@[simp] theorem joined_nil : joined sep [] = [] := rfl

@[simp] theorem joined_singleton (x : List α) : joined sep [x] = x := List.intercalate_singleton

theorem joined_cons_cons (x y : List α) : joined sep (x :: y :: ys) =
    x ++ sep :: joined sep (y :: ys) := by
  rw [joined, List.intercalate_cons_cons, List.append_assoc]
  rfl

theorem joined_cons (x : List α) (h : xs ≠ []) : joined sep (x :: xs) =
    x ++ sep :: joined sep xs := by
  cases xs with
  | nil => exact absurd rfl h
  | cons y ys => exact joined_cons_cons x y

theorem joined_append (hx : xs ≠ []) (hy : ys ≠ []) : joined sep (xs ++ ys) =
    joined sep xs ++ sep :: joined sep ys := by
  induction xs with
  | nil => exact absurd rfl hx
  | cons x xs ih =>
    by_cases hxs : xs = []
    · rw [hxs, List.singleton_append, joined_cons x hy, joined_singleton]
    · rw [List.cons_append, joined_cons x (List.append_ne_nil_of_left_ne_nil hxs ys), ih hxs,
        joined_cons x hxs, List.append_assoc, List.cons_append]

theorem joined_joined {zs : List (List α)} (hy : ys ≠ []) :
    joined sep (xs ++ joined sep ys :: zs) = joined sep (xs ++ (ys ++ zs)) := by
  have hcons : joined sep (joined sep ys :: zs) = joined sep (ys ++ zs) := by
    by_cases hz : zs = []
    · rw [hz, joined_singleton, List.append_nil]
    · rw [joined_cons _ hz, joined_append hy hz]
  by_cases hx : xs = []
  · rw [hx, List.nil_append, List.nil_append, hcons]
  · rw [joined_append hx (List.cons_ne_nil _ _), hcons,
      joined_append hx (List.append_ne_nil_of_left_ne_nil hy zs)]

theorem mem_joined_of_mem {x : List α} {a : α} (hx : x ∈ xs) (ha : a ∈ x) : a ∈ joined sep xs := by
  induction xs with
  | nil => exact absurd hx List.not_mem_nil
  | cons y xs ih =>
    by_cases hxs : xs = []
    · subst hxs
      rw [List.mem_singleton] at hx
      rwa [joined_singleton, ← hx]
    · rw [joined_cons y hxs, List.mem_append, List.mem_cons]
      rcases List.mem_cons.mp hx with rfl | hx
      · exact Or.inl ha
      · exact Or.inr (Or.inr (ih hx))

theorem mem_joined {a : α} (h : a ∈ joined sep xs) : a = sep ∨ ∃ x ∈ xs, a ∈ x := by
  induction xs with
  | nil => exact absurd h List.not_mem_nil
  | cons x xs ih =>
    by_cases hxs : xs = []
    · subst hxs
      rw [joined_singleton] at h
      exact Or.inr ⟨x, List.mem_cons_self, h⟩
    · rw [joined_cons x hxs, List.mem_append, List.mem_cons] at h
      rcases h with h | h | h
      · exact Or.inr ⟨x, List.mem_cons_self, h⟩
      · exact Or.inl h
      · rcases ih h with h | ⟨y, hy, ha⟩
        · exact Or.inl h
        · exact Or.inr ⟨y, List.mem_cons_of_mem x hy, ha⟩

/-! ## Splitting -/

variable [DecidableEq α]

def fields (sep : α) (s : List α) : List (List α) := (s.splitOn sep).rdropWhile List.isEmpty

theorem sep_notMem_of_mem_splitOn {x : List α} (h : x ∈ s.splitOn sep) : sep ∉ x := by
  induction s generalizing x with
  | nil =>
    rw [List.splitOn_nil, List.mem_singleton] at h
    simp [h]
  | cons a s ih =>
    rw [List.splitOn_cons_eq_if_modifyHead] at h
    by_cases ha : a = sep
    · rw [if_pos (beq_iff_eq.mpr ha), List.mem_cons] at h
      rcases h with rfl | h
      · exact List.not_mem_nil
      · exact ih h
    · rw [if_neg (by simpa using ha)] at h
      cases hs : s.splitOn sep with
      | nil => exact absurd hs (List.splitOn_ne_nil sep s)
      | cons y l =>
        rw [hs] at h ih
        rw [List.modifyHead_cons, List.mem_cons] at h
        rcases h with rfl | h
        · have hy : sep ∉ y := ih List.mem_cons_self
          simpa [Ne.symm ha] using hy
        · exact ih (List.mem_cons_of_mem y h)

theorem sep_notMem_of_mem_fields {x : List α} (h : x ∈ fields sep s) : sep ∉ x :=
  sep_notMem_of_mem_splitOn ((List.rdropWhile_prefix List.isEmpty _).subset h)

theorem getLast_fields (h : fields sep s ≠ []) : (fields sep s).getLast h ≠ [] := by
  have hlast := List.rdropWhile_last_not _ _ h
  exact fun hempty => hlast (List.isEmpty_iff.mpr hempty)

theorem splitOn_joined (hne : xs ≠ []) (hsep : ∀ x ∈ xs, sep ∉ x) :
    (joined sep xs).splitOn sep = xs :=
  List.splitOn_intercalate sep hsep hne

/-- **What comes back as it was**, without the empty texts that follow. -/
theorem fields_joined_replicate {n : ℕ} (hne : xs ++ List.replicate n [] ≠ [])
    (hsep : ∀ x ∈ xs, sep ∉ x) (hlast : xs.getLast? ≠ some []) :
    fields sep (joined sep (xs ++ List.replicate n [])) = xs := by
  rw [fields, splitOn_joined hne fun x hx => ?_]
  · clear hne
    induction n with
    | zero =>
      rw [List.replicate_zero, List.append_nil, List.rdropWhile_eq_self_iff]
      intro hxs hempty
      rw [List.getLast?_eq_some_getLast hxs, List.isEmpty_iff.mp hempty] at hlast
      exact hlast rfl
    | succ n ih =>
      rw [List.replicate_succ', ← List.append_assoc, List.rdropWhile_concat_pos _ _ _ rfl, ih]
  · rcases List.mem_append.mp hx with hx | hx
    · exact hsep x hx
    · rw [List.eq_of_mem_replicate hx]
      exact List.not_mem_nil

theorem joined_inj (hx : xs ≠ []) (hy : ys ≠ []) (hxs : ∀ x ∈ xs, sep ∉ x)
    (hys : ∀ y ∈ ys, sep ∉ y) (h : joined sep xs = joined sep ys) : xs = ys := by
  rw [← splitOn_joined hx hxs, h, splitOn_joined hy hys]

/-! ## The characters of a joined text -/

theorem filter_joined (h : ∀ x ∈ xs, sep ∉ x) :
    (joined sep xs).filter (· ≠ sep) = xs.flatten := by
  induction xs with
  | nil => rfl
  | cons x xs ih =>
    have hx : x.filter (· ≠ sep) = x := List.filter_eq_self.mpr fun a ha => by
      have : a ≠ sep := fun heq => h x List.mem_cons_self (heq ▸ ha)
      simpa using this
    have ih := ih fun y hy => h y (List.mem_cons_of_mem x hy)
    by_cases hxs : xs = []
    · rw [hxs, joined_singleton, hx, List.flatten_singleton]
    · rw [joined_cons x hxs, List.filter_append, hx, List.filter_cons_of_neg (by simp), ih,
        List.flatten_cons]

theorem count_joined (h : ∀ x ∈ xs, sep ∉ x) : (joined sep xs).count sep = xs.length - 1 := by
  induction xs with
  | nil => rfl
  | cons x xs ih =>
    have hx : x.count sep = 0 := List.count_eq_zero.mpr (h x List.mem_cons_self)
    have ih := ih fun y hy => h y (List.mem_cons_of_mem x hy)
    by_cases hxs : xs = []
    · rw [hxs, joined_singleton, hx, List.length_singleton]
    · have hpos : 0 < xs.length := List.length_pos_iff.mpr hxs
      rw [joined_cons x hxs, List.count_append, hx, List.count_cons_self, ih, List.length_cons]
      omega

end JazzHands.Library

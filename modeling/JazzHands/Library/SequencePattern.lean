import Mathlib.Data.List.MinMax

/-!
# Patterns without alternatives

A pattern is a sequence of items, each of which takes one letter or may be left out, with anchors at
its ends.

* `search_eq_some`, `isSome_search_iff`: what is found, and when something is.
-/

namespace JazzHands.Library

variable {α : Type*}

/-- The letters that an item takes, and whether it may be left out. -/
structure Item (α : Type*) where
  takes : α → Bool
  optional : Bool

/-- The item that takes one letter. -/
def Item.letter [DecidableEq α] (a : α) : Item α := ⟨fun b => b = a, false⟩

structure SequencePattern (α : Type*) where
  atStart : Bool
  items : List (Item α)
  atEnd : Bool

/-- The word is one of the items' words. -/
inductive Spells : List (Item α) → List α → Prop
  | nil : Spells [] []
  | take {i : Item α} {is : List (Item α)} {a : α} {w : List α} (h : i.takes a = true)
      (hw : Spells is w) : Spells (i :: is) (a :: w)
  | skip {i : Item α} {is : List (Item α)} {w : List α} (h : i.optional = true)
      (hw : Spells is w) : Spells (i :: is) w

/-- What is left of a list after a word of the items. -/
def rests : List (Item α) → List α → List (List α)
  | [], s => [s]
  | i :: is, [] => if i.optional = true then rests is [] else []
  | i :: is, a :: s =>
    (if i.takes a = true then rests is s else []) ++
      if i.optional = true then rests is (a :: s) else []

variable {i : Item α} {is : List (Item α)} {a : α} {s r u v w : List α} {p : SequencePattern α}

theorem mem_rests : ∀ {is : List (Item α)} {s : List α}, r ∈ rests is s ↔
    ∃ w, Spells is w ∧ s = w ++ r
  | [], s => by
    rw [rests, List.mem_singleton]
    constructor
    · rintro rfl
      exact ⟨[], .nil, rfl⟩
    · rintro ⟨w, hw, rfl⟩
      cases hw
      rfl
  | i :: is, [] => by
    rw [rests]
    constructor
    · intro h
      split at h
      · next hi =>
        obtain ⟨w, hw, hs⟩ := mem_rests.mp h
        exact ⟨w, .skip hi hw, hs⟩
      · exact absurd h List.not_mem_nil
    · rintro ⟨w, hw, hs⟩
      cases hw with
      | take h hw => cases hs
      | skip hi hw =>
        rw [if_pos hi]
        exact mem_rests.mpr ⟨w, hw, hs⟩
  | i :: is, a :: s => by
    rw [rests, List.mem_append]
    constructor
    · rintro (h | h)
      · split at h
        · next hi =>
          obtain ⟨w, hw, rfl⟩ := mem_rests.mp h
          exact ⟨a :: w, .take hi hw, rfl⟩
        · exact absurd h List.not_mem_nil
      · split at h
        · next hi =>
          obtain ⟨w, hw, hs⟩ := mem_rests.mp h
          exact ⟨w, .skip hi hw, hs⟩
        · exact absurd h List.not_mem_nil
    · rintro ⟨w, hw, hs⟩
      cases hw with
      | take hi hw =>
        obtain ⟨rfl, rfl⟩ := List.cons.inj hs
        rw [if_pos hi]
        exact .inl (mem_rests.mpr ⟨_, hw, rfl⟩)
      | skip hi hw =>
        rw [if_pos hi]
        exact .inr (mem_rests.mpr ⟨w, hw, hs⟩)

namespace SequencePattern

/-- What the longest match at the start of the list leaves. -/
def longest (p : SequencePattern α) (s : List α) : Option (List α) :=
  ((rests p.items s).filter fun r => p.atEnd = false ∨ r.isEmpty).argmin List.length

/-- What stands before the leftmost match, and after it. -/
def search (p : SequencePattern α) : List α → Option (List α × List α)
  | [] => (p.longest []).map fun r => ([], r)
  | a :: s =>
    match p.longest (a :: s) with
    | some r => some ([], r)
    | none => if p.atStart = true then none else (p.search s).map fun x => (a :: x.1, x.2)

theorem longest_eq_some (h : p.longest s = some r) :
    (∃ w, Spells p.items w ∧ s = w ++ r) ∧ (p.atEnd = true → r = []) := by
  have hmem := List.argmin_mem h
  rw [List.mem_filter, mem_rests, decide_eq_true_iff, List.isEmpty_iff] at hmem
  exact ⟨hmem.1, fun hend => hmem.2.resolve_left (by simp [hend])⟩

theorem longest_eq_none :
    p.longest s = none ↔ ∀ w r, Spells p.items w → s = w ++ r → ¬ (p.atEnd = true → r = []) := by
  rw [longest, List.argmin_eq_none, List.filter_eq_nil_iff]
  simp only [mem_rests, decide_eq_true_iff, List.isEmpty_iff]
  constructor
  · intro h w r hw hs hend
    refine h r ⟨w, hw, hs⟩ ?_
    cases hp : p.atEnd with
    | false => exact .inl rfl
    | true => exact .inr (hend hp)
  · rintro h r ⟨w, hw, hs⟩ hr
    exact h w r hw hs fun hend => hr.resolve_left (by simp [hend])

theorem search_eq_some : ∀ {s u r : List α}, p.search s = some (u, r) →
    ∃ w, s = u ++ w ++ r ∧ Spells p.items w ∧ (p.atStart = true → u = []) ∧
      (p.atEnd = true → r = [])
  | [], u, r, h => by
    obtain ⟨r', hr, heq⟩ := Option.map_eq_some_iff.mp h
    obtain ⟨rfl, rfl⟩ := Prod.mk.inj heq
    obtain ⟨⟨w, hw, hs⟩, hend⟩ := longest_eq_some hr
    exact ⟨w, hs, hw, fun _ => rfl, hend⟩
  | a :: s, u, r, h => by
    rw [search] at h
    split at h
    · next r' hr =>
      obtain ⟨rfl, rfl⟩ := Prod.mk.inj (Option.some.inj h)
      obtain ⟨⟨w, hw, hs⟩, hend⟩ := longest_eq_some hr
      exact ⟨w, hs, hw, fun _ => rfl, hend⟩
    · split at h
      · cases h
      · next hstart =>
        obtain ⟨⟨u', r'⟩, hx, heq⟩ := Option.map_eq_some_iff.mp h
        obtain ⟨rfl, rfl⟩ := Prod.mk.inj heq
        obtain ⟨w, rfl, hw, -, hend⟩ := search_eq_some hx
        exact ⟨w, rfl, hw, fun hp => absurd hp hstart, hend⟩

theorem isSome_search_of_spells (hw : Spells p.items w) (hstart : p.atStart = true → u = [])
    (hend : p.atEnd = true → r = []) : (p.search (u ++ w ++ r)).isSome = true := by
  have hfirst : ∀ w r, Spells p.items w → (p.atEnd = true → r = []) →
      ∃ r', p.longest (w ++ r) = some r' := by
    intro w r hw hend
    refine Option.ne_none_iff_exists'.mp fun hnone => ?_
    exact longest_eq_none.mp hnone w r hw rfl hend
  induction u with
  | nil =>
    obtain ⟨r', hr'⟩ := hfirst w r hw hend
    rw [List.nil_append]
    cases hs : w ++ r with
    | nil => rw [search, ← hs, hr']; rfl
    | cons a s => rw [search, ← hs, hr']; rfl
  | cons a u ih =>
    have hp : ¬ p.atStart = true := fun hp => List.cons_ne_nil a u (hstart hp)
    rw [List.cons_append, List.cons_append, search]
    split
    · rfl
    · rw [if_neg hp, Option.isSome_map]
      exact ih fun hp' => absurd hp' hp

theorem isSome_search_iff : (p.search s).isSome = true ↔
    ∃ u w r, s = u ++ w ++ r ∧ Spells p.items w ∧ (p.atStart = true → u = []) ∧
      (p.atEnd = true → r = []) := by
  constructor
  · intro h
    obtain ⟨⟨u, r⟩, hx⟩ := Option.isSome_iff_exists.mp h
    obtain ⟨w, hw⟩ := search_eq_some hx
    exact ⟨u, w, r, hw⟩
  · rintro ⟨u, w, r, rfl, hw, hstart, hend⟩
    exact isSome_search_of_spells hw hstart hend

end SequencePattern

theorem Spells.length_eq (h : Spells is w) (his : ∀ i ∈ is, i.optional = false) :
    w.length = is.length := by
  induction h with
  | nil => rfl
  | take hi _ ih =>
    rw [List.length_cons, List.length_cons, ih fun i hi => his i (List.mem_cons_of_mem _ hi)]
  | skip hi _ ih =>
    have hnot := his _ List.mem_cons_self
    rw [hi] at hnot
    cases hnot

namespace SequencePattern

/-- **What is found is the leftmost match.** -/
theorem search_length_le {t : List α} (h : p.search s = some (v, t)) (hs : s = u ++ w ++ r)
    (hw : Spells p.items w) (hend : p.atEnd = true → r = []) : v.length ≤ u.length := by
  induction u generalizing s v with
  | nil =>
    have hfirst : ∃ r', p.longest s = some r' := by
      refine Option.ne_none_iff_exists'.mp fun hnone => ?_
      exact longest_eq_none.mp hnone w r hw (by simpa using hs) hend
    obtain ⟨r', hr'⟩ := hfirst
    have hv : v = [] := by
      cases s with
      | nil =>
        rw [search, hr'] at h
        exact (Prod.mk.inj (Option.some.inj h)).1.symm
      | cons a s =>
        rw [search, hr'] at h
        exact (Prod.mk.inj (Option.some.inj h)).1.symm
    rw [hv]
  | cons a u ih =>
    rw [List.cons_append, List.cons_append] at hs
    subst hs
    rw [search] at h
    split at h
    · obtain ⟨rfl, -⟩ := Prod.mk.inj (Option.some.inj h)
      exact Nat.zero_le _
    · split at h
      · cases h
      · obtain ⟨⟨v', t'⟩, hx, heq⟩ := Option.map_eq_some_iff.mp h
        obtain ⟨rfl, rfl⟩ := Prod.mk.inj heq
        exact Nat.succ_le_succ (ih hx rfl)

end SequencePattern

/-! ## Words as patterns -/

variable [DecidableEq α]

theorem spells_letters : ∀ {v w : List α}, Spells (v.map .letter) w ↔ w = v
  | [], w => by
    constructor
    · intro h
      cases h
      rfl
    · rintro rfl
      exact .nil
  | a :: v, w => by
    rw [List.map_cons]
    constructor
    · intro h
      cases h with
      | take ha hw => rw [spells_letters.mp hw, of_decide_eq_true ha]
      | skip hi _ => cases hi
    · rintro rfl
      exact .take (decide_eq_true rfl) (spells_letters.mpr rfl)

theorem Spells.mem_of_letter (h : Spells is w) (ha : Item.letter a ∈ is) : a ∈ w := by
  induction h with
  | nil => exact absurd ha List.not_mem_nil
  | take hi _ ih =>
    rcases List.mem_cons.mp ha with rfl | ha
    · rw [of_decide_eq_true hi]
      exact List.mem_cons_self
    · exact List.mem_cons_of_mem _ (ih ha)
  | skip hi _ ih =>
    rcases List.mem_cons.mp ha with rfl | ha
    · cases hi
    · exact ih ha

theorem rests_letters : ∀ (v s : List α), rests (v.map .letter) (v ++ s) = [s]
  | [], s => by rw [List.map_nil, rests, List.nil_append]
  | a :: v, s => by
    have ha : (Item.letter a).takes a = true := decide_eq_true rfl
    rw [List.map_cons, List.cons_append, rests, if_pos ha, rests_letters v s]
    rfl

namespace SequencePattern

theorem search_letters (v s : List α) :
    search ⟨true, v.map .letter, false⟩ (v ++ s) = some ([], s) := by
  have hlongest : longest ⟨true, v.map .letter, false⟩ (v ++ s) = some s := by
    rw [longest, rests_letters, List.filter_singleton]
    rfl
  cases hs : v ++ s with
  | nil => rw [search, ← hs, hlongest]; rfl
  | cons a t => rw [search, ← hs, hlongest]

theorem search_letters_eq_none (h : ¬ v <+: s) :
    search ⟨true, v.map .letter, false⟩ s = none := by
  cases hs : search ⟨true, v.map .letter, false⟩ s with
  | none => rfl
  | some x =>
    obtain ⟨w, rfl, hw, hstart, -⟩ := search_eq_some hs
    rw [hstart rfl, spells_letters.mp hw] at h
    exact absurd (List.prefix_append v x.2) h

end SequencePattern

end JazzHands.Library

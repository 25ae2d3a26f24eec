import Mathlib.Data.List.Basic

/-!
# Text and rows in queries

The order of rows is left open unless the query gives one: where one of several rows is taken, a
`FirstRow` says which.
-/

namespace JazzHands.Postgres

def lower (s : String) : String := String.ofList (s.toList.map Char.toLower)

/-- Which row `SELECT ... INTO` takes. -/
structure FirstRow (α : Type*) where
  pick : List α → Option α
  mem : ∀ {l : List α} {a : α}, pick l = some a → a ∈ l
  ne_nil : ∀ {l : List α}, pick l = none → l = []

/-- The rows come in the order in which they are listed. -/
def FirstRow.listed (α : Type*) : FirstRow α where
  pick := List.head?
  mem := List.mem_of_mem_head?
  ne_nil := List.head?_eq_none_iff.mp

/-- One row comes first when it is there. -/
def FirstRow.preferring {α : Type*} [DecidableEq α] (a : α) : FirstRow α where
  pick l := if a ∈ l then some a else l.head?
  mem := fun {l b} h => by
    split at h
    · obtain rfl := Option.some.inj h
      assumption
    · exact List.mem_of_mem_head? h
  ne_nil := fun {l} h => by
    split at h
    · cases h
    · exact List.head?_eq_none_iff.mp h

theorem FirstRow.pick_eq {α : Type*} (first : FirstRow α) {l : List α} {a : α} (ha : a ∈ l)
    (hall : ∀ b ∈ l, b = a) : first.pick l = some a := by
  cases hpick : first.pick l with
  | none =>
    rw [first.ne_nil hpick] at ha
    exact absurd ha List.not_mem_nil
  | some b => rw [hall b (first.mem hpick)]

section Filter

variable {α : Type*} {first : FirstRow α} {l : List α} {a : α} {p : α → Prop} [DecidablePred p]

theorem FirstRow.of_pick_filter (h : first.pick (l.filter p) = some a) : a ∈ l ∧ p a := by
  obtain ⟨hmem, hp⟩ := List.mem_filter.mp (first.mem h)
  exact ⟨hmem, of_decide_eq_true hp⟩

theorem FirstRow.not_of_pick_filter (h : first.pick (l.filter p) = none) : ∀ a ∈ l, ¬ p a := by
  intro a ha hp
  have hmem : a ∈ l.filter p := List.mem_filter.mpr ⟨ha, decide_eq_true hp⟩
  rw [first.ne_nil h] at hmem
  exact List.not_mem_nil hmem

end Filter

end JazzHands.Postgres

import Mathlib.Data.List.Nodup

/-!
# Looking rows up

A query for one row takes the first that meets its condition.

* `of_find?_eq_some`, `not_of_find?_eq_none`: the row that is found meets the condition; none does
  when none is found.
* `find?_eq_some_of_unique`, `find?_key`: a row is found when no other one meets the condition, as
  with a key.
-/

namespace JazzHands.Library

variable {α κ : Type*} {p : α → Prop} [DecidablePred p] {l : List α} {a : α}

theorem of_find?_eq_some (h : l.find? (fun b => p b) = some a) : a ∈ l ∧ p a :=
  ⟨List.mem_of_find?_eq_some h, of_decide_eq_true (List.find?_some h :)⟩

theorem not_of_find?_eq_none (h : l.find? (fun b => p b) = none) (ha : a ∈ l) : ¬ p a :=
  fun hp => List.find?_eq_none.mp h a ha (decide_eq_true hp)

theorem find?_eq_some_of_unique (ha : a ∈ l) (hp : p a) (h : ∀ b ∈ l, p b → b = a) :
    l.find? (fun b => p b) = some a := by
  cases hfind : l.find? fun b => p b with
  | none => exact absurd hp (not_of_find?_eq_none hfind ha)
  | some b =>
    obtain ⟨hb, hpb⟩ := of_find?_eq_some hfind
    rw [h b hb hpb]

theorem find?_key {key : α → κ} [DecidableEq κ] (hl : (l.map key).Nodup) (ha : a ∈ l) :
    l.find? (fun b => key b = key a) = some a :=
  find?_eq_some_of_unique ha rfl fun _ hb heq => List.inj_on_of_nodup_map hl hb ha heq

end JazzHands.Library

import Mathlib.Data.List.Basic

/-!
# Steps that may fail

* `bind_ok_iff`: two steps succeed when both do.
* `mapError_eq_ok`: another error is no other success.
* `mapM_ok`, `foldlM_concat_ok`: loops in which no step fails.  `mapM_ok_iff`: when this is so.
-/

namespace JazzHands.Library

universe u

variable {ε ε' : Type*} {α β : Type u}

variable {f : α → Except ε β} {g : α → β} {l : List α}

theorem bind_ok_iff {x : Except ε α} {b : β} :
    x >>= f = .ok b ↔ ∃ a, x = .ok a ∧ f a = .ok b := by
  cases x with
  | error e => simp [bind, Except.bind]
  | ok a => simp [bind, Except.bind]

theorem mapError_eq_ok {f : ε → ε'} {x : Except ε α} {a : α} :
    x.mapError f = .ok a ↔ x = .ok a := by
  cases x with
  | error e => simp [Except.mapError]
  | ok b => simp [Except.mapError]

theorem mapM_ok (h : ∀ a ∈ l, f a = .ok (g a)) :
    l.mapM f = .ok (l.map g) := by
  induction l with
  | nil => rfl
  | cons a l ih =>
    have ih := ih fun b hb => h b (List.mem_cons_of_mem a hb)
    rw [List.mapM_cons, h a List.mem_cons_self, ih]
    rfl

theorem mapM_ok_iff {P : α → Prop} (h : ∀ a b, f a = .ok b ↔ P a ∧ b = g a) {bs : List β} :
    l.mapM f = .ok bs ↔ (∀ a ∈ l, P a) ∧ bs = l.map g := by
  constructor
  · intro hl
    have hP : ∀ a ∈ l, P a := by
      induction l generalizing bs with
      | nil => exact fun a ha => absurd ha List.not_mem_nil
      | cons a l ih =>
        rw [List.mapM_cons, bind_ok_iff] at hl
        obtain ⟨b, hb, hl⟩ := hl
        obtain ⟨bs', hbs', -⟩ := bind_ok_iff.mp hl
        exact List.forall_mem_cons.mpr ⟨((h a b).mp hb).1, ih hbs'⟩
    rw [mapM_ok fun a ha => (h a (g a)).mpr ⟨hP a ha, rfl⟩] at hl
    exact ⟨hP, (Except.ok.inj hl).symm⟩
  · rintro ⟨hP, rfl⟩
    exact mapM_ok fun a ha => (h a (g a)).mpr ⟨hP a ha, rfl⟩

theorem foldlM_concat_ok (h : ∀ a ∈ l, f a = .ok (g a)) (acc : List β) :
    l.foldlM (fun acc a => f a >>= fun b => .ok (acc ++ [b])) acc =
      (.ok (acc ++ l.map g) : Except ε (List β)) := by
  induction l generalizing acc with
  | nil => simp [pure, Except.pure]
  | cons a l ih =>
    rw [List.foldlM_cons, h a List.mem_cons_self]
    have ih := ih (fun b hb => h b (List.mem_cons_of_mem a hb)) (acc ++ [g a])
    rw [List.append_assoc, List.singleton_append, ← List.map_cons] at ih
    exact ih

end JazzHands.Library

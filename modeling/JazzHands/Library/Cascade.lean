import Mathlib.Logic.Basic

/-!
# What falls with what is taken away

Some things rest on others.  `needs a b` says that `b` is one of the supports of `a`, which stands as
long as one of its supports does; what has no supports stands by itself.  `owner a b` says that `a`
is a part of `b`, and falls with it.

* `Falls.least`: it is contained in every set that is closed like this.
-/

namespace JazzHands.Library

variable {α : Type*} {needs needs' owner owner' : α → α → Prop} {S S' X : α → Prop} {a b : α}

/-- What falls when the things in `S` are taken away. -/
inductive Falls (needs owner : α → α → Prop) (S : α → Prop) : α → Prop
  | taken {a : α} (h : S a) : Falls needs owner S a
  | unsupported {a b : α} (hb : needs a b) (h : ∀ b, needs a b → Falls needs owner S b) :
      Falls needs owner S a
  | part {a b : α} (hb : owner a b) (h : Falls needs owner S b) : Falls needs owner S a

theorem Falls.least (hS : ∀ a, S a → X a)
    (hneeds : ∀ a b, needs a b → (∀ b, needs a b → X b) → X a)
    (howner : ∀ a b, owner a b → X b → X a) (h : Falls needs owner S a) : X a := by
  induction h with
  | taken h => exact hS _ h
  | unsupported hb _ ih => exact hneeds _ _ hb ih
  | part hb _ ih => exact howner _ _ hb ih

theorem not_falls_of_forall_not (hS : ∀ a, ¬ S a) : ¬ Falls needs owner S a :=
  fun h => h.least (X := fun _ => False) (fun a ha => hS a ha) (fun _ b hb h => h b hb)
    fun _ _ _ h => h

/-- **In two steps.**  `X` falls with `S`, and is closed up to `S'`.  When it is gone and `S'` is
taken away from the rest, then all that falls with `S` is gone. -/
theorem falls_iff_split (hX : ∀ a, X a → Falls needs owner S a)
    (hS : ∀ a, S a → X a ∨ S' a) (hS' : ∀ a, S' a → Falls needs owner S a)
    (hneeds : ∀ a b, needs' a b ↔ needs a b ∧ ¬ X b)
    (howner : ∀ a b, owner' a b → owner a b)
    (howner' : ∀ a b, owner a b → X a ∨ owner' a b)
    (hclosed : ∀ a b, needs a b → (∀ b, needs a b → X b) → X a)
    (hparts : ∀ a b, owner a b → X b → X a ∨ S' a) :
    Falls needs owner S a ↔ X a ∨ Falls needs' owner' S' a := by
  constructor
  · intro h
    induction h with
    | taken h => exact (hS _ h).imp_right .taken
    | @unsupported a b hb _ ih =>
      by_cases hall : ∀ b, needs a b → X b
      · exact .inl (hclosed a b hb hall)
      · obtain ⟨c, hc⟩ := not_forall.mp hall
        obtain ⟨hc, hXc⟩ := Classical.not_imp.mp hc
        refine .inr (.unsupported ((hneeds a c).mpr ⟨hc, hXc⟩) fun d hd => ?_)
        obtain ⟨hd, hXd⟩ := (hneeds a d).mp hd
        exact (ih d hd).resolve_left hXd
    | part hb _ ih =>
      rcases ih with hXb | hb'
      · exact (hparts _ _ hb hXb).imp_right .taken
      · exact (howner' _ _ hb).imp_right fun ho => .part ho hb'
  · rintro (h | h)
    · exact hX a h
    · refine h.least hS' (fun a b hb h => ?_) fun a b hb h => .part (howner a b hb) h
      refine .unsupported ((hneeds a b).mp hb).1 fun c hc => ?_
      by_cases hXc : X c
      · exact hX c hXc
      · exact h c ((hneeds a c).mpr ⟨hc, hXc⟩)

end JazzHands.Library

import Mathlib.Data.List.Basic

/-!
# Runs of a system that takes one input after another

A system is a step function `step : σ → ι → σ`.  A finite run feeds it a list of inputs.

* `AllSteps.append`, `run_append`: a run may be cut anywhere, so a fact about the last state of
  every run is a fact about every state of a run.
-/

namespace JazzHands.Library

variable {σ ι : Type*}

/-- The state after feeding the inputs of a list, first one first. -/
def run (step : σ → ι → σ) : σ → List ι → σ
  | s, [] => s
  | s, a :: l => run step (step s a) l

/-- Every step of the run is taken in a state and on an input that satisfy `P`. -/
def AllSteps (step : σ → ι → σ) (P : σ → ι → Prop) : σ → List ι → Prop
  | _, [] => True
  | s, a :: l => P s a ∧ AllSteps step P (step s a) l

variable {step : σ → ι → σ} {P Q : σ → ι → Prop} {I : σ → Prop}

@[simp] theorem run_nil (s : σ) : run step s [] = s := rfl

@[simp] theorem run_cons (s : σ) (a : ι) (l : List ι) :
    run step s (a :: l) = run step (step s a) l := rfl

theorem run_append (s : σ) (l l' : List ι) :
    run step s (l ++ l') = run step (run step s l) l' := by
  induction l generalizing s with
  | nil => rfl
  | cons a l ih => rw [List.cons_append, run_cons, run_cons, ih]

theorem AllSteps.append {s : σ} {l l' : List ι} :
    AllSteps step P s (l ++ l') ↔ AllSteps step P s l ∧ AllSteps step P (run step s l) l' := by
  induction l generalizing s with
  | nil => simp [AllSteps]
  | cons a l ih => simp only [List.cons_append, AllSteps, run_cons, ih, and_assoc]

theorem AllSteps.mono (h : ∀ s a, P s a → Q s a) {s : σ} {l : List ι}
    (hl : AllSteps step P s l) : AllSteps step Q s l := by
  induction l generalizing s with
  | nil => trivial
  | cons a l ih => exact ⟨h s a hl.1, ih hl.2⟩

/-- **The invariant rule.**  What every allowed step preserves holds after every allowed run. -/
theorem run_invariant (hstep : ∀ s a, I s → P s a → I (step s a)) {s : σ} {l : List ι}
    (h0 : I s) (hl : AllSteps step P s l) : I (run step s l) := by
  induction l generalizing s with
  | nil => exact h0
  | cons a l ih => exact ih (hstep s a h0 hl.1) hl.2

/-- What is true of every allowed step in a state that has the invariant is true of every step of
an allowed run. -/
theorem AllSteps.of_invariant (hstep : ∀ s a, I s → P s a → I (step s a) ∧ Q s a) {s : σ}
    {l : List ι} (h0 : I s) (hl : AllSteps step P s l) : AllSteps step Q s l := by
  induction l generalizing s with
  | nil => trivial
  | cons a l ih =>
    obtain ⟨hnext, hQ⟩ := hstep s a h0 hl.1
    exact ⟨hQ, ih hnext hl.2⟩

/-- **The first wrong step.**  When a step from a right state leads to a right state exactly if it
meets the condition `P`, all states of a run are right exactly if all its steps meet `P`.  `J` is
what every step that `Q` allows keeps. -/
theorem forall_prefix_iff {J : σ → Prop} (hJ : ∀ s a, J s → Q s a → J (step s a))
    (hstep : ∀ s a, J s → Q s a → I s → (I (step s a) ↔ P s a)) {s : σ} {l : List ι}
    (hJs : J s) (hs : I s) (hl : AllSteps step Q s l) :
    (∀ l', l' <+: l → I (run step s l')) ↔ AllSteps step P s l := by
  induction l generalizing s with
  | nil =>
    refine ⟨fun _ => trivial, fun _ l' hl' => ?_⟩
    obtain rfl := List.prefix_nil.mp hl'
    exact hs
  | cons a l ih =>
    have hrest := fun h => ih (hJ s a hJs hl.1) h hl.2
    constructor
    · intro h
      have ha : I (step s a) := h [a] ⟨l, rfl⟩
      refine ⟨(hstep s a hJs hl.1 hs).mp ha, (hrest ha).mp fun l' hl' => ?_⟩
      exact h (a :: l') (List.cons_prefix_cons.mpr ⟨rfl, hl'⟩)
    · rintro ⟨ha, h⟩ l' hl'
      cases l' with
      | nil => exact hs
      | cons b l' =>
        obtain ⟨rfl, hrest'⟩ := List.cons_prefix_cons.mp hl'
        exact (hrest ((hstep s b hJs hl.1 hs).mpr ha)).mpr h l' hrest'

theorem allSteps_of_forall {p : ι → Prop} {s : σ} {l : List ι} (h : ∀ a ∈ l, p a) :
    AllSteps step (fun _ a => p a) s l := by
  induction l generalizing s with
  | nil => trivial
  | cons a l ih =>
    exact ⟨h a List.mem_cons_self, ih fun b hb => h b (List.mem_cons_of_mem _ hb)⟩

theorem AllSteps.and_forall {p : ι → Prop} {s : σ} {l : List ι} (h : AllSteps step P s l)
    (hp : ∀ a ∈ l, p a) : AllSteps step (fun s a => P s a ∧ p a) s l := by
  induction l generalizing s with
  | nil => trivial
  | cons a l ih =>
    exact ⟨⟨h.1, hp a List.mem_cons_self⟩, ih h.2 fun b hb => hp b (List.mem_cons_of_mem _ hb)⟩

end JazzHands.Library

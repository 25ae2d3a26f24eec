import Mathlib.Logic.Function.Basic
import JazzHands.Library.Runs

/-!
# Programs that share a state

A program takes one atomic step after another.  A step sees the shared state, changes it, and what
it saw decides how the program goes on.  Between two steps of a program other programs may take
theirs.

* `run_always`: what all programs keep holds in every interleaving, and each returns what it
  promises.
-/

namespace JazzHands.Library

/-- A program over the shared state `σ` with results in `ω`. -/
inductive Program (σ : Type) (ω : Type) where
  | ret (o : ω)
  | step (act : σ → σ) (next : σ → Program σ ω)

namespace Program

variable {σ α ω : Type}

/-- One program after another. -/
def bind : Program σ α → (α → Program σ ω) → Program σ ω
  | .ret a, g => g a
  | .step act next, g => .step act fun s => (next s).bind g

instance : Monad (Program σ) where
  pure := .ret
  bind := bind

/-- The step that only looks. -/
def read : Program σ σ := .step id .ret

/-- The step that changes the state and returns nothing. -/
def modify (act : σ → σ) : Program σ Unit := .step act fun _ => .ret ()

@[simp] theorem ret_bind (a : α) (g : α → Program σ ω) : (ret a >>= g) = g a := rfl

@[simp] theorem pure_bind (a : α) (g : α → Program σ ω) : ((pure a : Program σ α) >>= g) = g a :=
  rfl

@[simp] theorem step_bind (act : σ → σ) (next : σ → Program σ α) (g : α → Program σ ω) :
    (step act next >>= g) = step act fun s => next s >>= g := rfl

theorem bind_assoc {β : Type} (p : Program σ α) (g : α → Program σ β) (h : β → Program σ ω) :
    (p >>= g >>= h) = (p >>= fun a => g a >>= h) := by
  induction p with
  | ret a => rfl
  | step act next ih => exact congrArg (step act) (funext ih)

/-- What a program has returned, if it has. -/
def result : Program σ ω → Option ω
  | .ret o => some o
  | .step _ _ => none

theorem result_eq_some {p : Program σ ω} {o : ω} : p.result = some o ↔ p = .ret o := by
  cases p <;> simp [result]

/-! ## Alone -/

/-- The result and the last state when the program runs alone. -/
def run : Program σ ω → σ → ω × σ
  | .ret o, s => (o, s)
  | .step act next, s => (next s).run (act s)

@[simp] theorem run_ret (o : ω) (s : σ) : (ret o : Program σ ω).run s = (o, s) := rfl

@[simp] theorem run_pure (o : ω) (s : σ) : (pure o : Program σ ω).run s = (o, s) := rfl

@[simp] theorem run_read (s : σ) : (read : Program σ σ).run s = (s, s) := rfl

@[simp] theorem run_modify (act : σ → σ) (s : σ) : (modify act).run s = ((), act s) := rfl

@[simp] theorem run_bind (p : Program σ α) (g : α → Program σ ω) (s : σ) :
    (p >>= g).run s = (g (p.run s).1).run (p.run s).2 := by
  induction p generalizing s with
  | ret a => rfl
  | step act next ih => exact ih s (act s)

/-! ## With others about -/

variable {I : σ → Prop} {Q R : ω → Prop} {p : Program σ α} {g : α → Program σ ω} {s : σ}

/-- While the others keep `I`, the program keeps `I` and returns only what meets `Q`. -/
def Always (I : σ → Prop) (Q : ω → Prop) : Program σ ω → Prop
  | .ret o => Q o
  | .step act next => ∀ s, I s → I (act s) ∧ Always I Q (next s)

theorem Always.mono (hQ : ∀ o, Q o → R o) {q : Program σ ω} (h : q.Always I Q) :
    q.Always I R := by
  induction q with
  | ret o => exact hQ o h
  | step act next ih => exact fun s hs => ⟨(h s hs).1, ih s (h s hs).2⟩

theorem Always.bind (h : p.Always I fun a => (g a).Always I Q) : (p >>= g).Always I Q := by
  induction p with
  | ret a => exact h
  | step act next ih => exact fun s hs => ⟨(h s hs).1, ih s (h s hs).2⟩

theorem Always.pure {o : ω} (h : Q o) : (Pure.pure o : Program σ ω).Always I Q := h

theorem Always.read {Q : σ → Prop} (h : ∀ s, I s → Q s) :
    (read : Program σ σ).Always I Q := fun s hs => ⟨hs, h s hs⟩

theorem Always.read_bind {g : σ → Program σ ω} (h : ∀ s, I s → (g s).Always I Q) :
    (Program.read >>= g).Always I Q := Always.bind (Always.read h)

theorem Always.modify {act : σ → σ} {Q : Unit → Prop} (h : ∀ s, I s → I (act s)) (hQ : Q ()) :
    (Program.modify act).Always I Q := fun s hs => ⟨h s hs, hQ⟩

theorem Always.of_true {q : Program σ ω} : q.Always (fun _ => True) fun _ => True := by
  induction q with
  | ret o => trivial
  | step act next ih => exact fun s _ => ⟨trivial, ih s⟩

theorem Always.run {q : Program σ ω} (h : q.Always I Q) (hs : I s) :
    I (q.run s).2 ∧ Q (q.run s).1 := by
  induction q generalizing s with
  | ret o => exact ⟨hs, h⟩
  | step act next ih => exact ih s (h s hs).2 (h s hs).1

end Program

/-! ## Interleavings -/

section Interleaving

open Program

variable {ι σ ω : Type} [DecidableEq ι] {I : σ → Prop} {Q : ι → ω → Prop}
  {c : (ι → Program σ ω) × σ} {i j : ι} {w : List ι}

/-- Program `i` takes its next step, if it has one. -/
def turn (c : (ι → Program σ ω) × σ) (i : ι) : (ι → Program σ ω) × σ :=
  match c.1 i with
  | .ret _ => c
  | .step act next => (Function.update c.1 i (next c.2), act c.2)

theorem turn_of_ne (h : j ≠ i) : (turn c i).1 j = c.1 j := by
  unfold turn
  split
  · rfl
  · exact Function.update_of_ne h _ _

theorem run_turn_of_notMem (h : j ∉ w) : (run turn c w).1 j = c.1 j := by
  induction w generalizing c with
  | nil => rfl
  | cons i w ih =>
    rw [List.mem_cons, not_or] at h
    rw [run_cons, ih h.2, turn_of_ne h.1]

/-- What `i` keeps and promises still holds after a turn of its own. -/
theorem turn_self {R : ω → Prop} (hI : I c.2) (h : (c.1 i).Always I R) :
    I (turn c i).2 ∧ ((turn c i).1 i).Always I R := by
  unfold turn
  split
  · exact ⟨hI, h⟩
  next act next hstep =>
    rw [hstep] at h
    simpa using h c.2 hI

/-- While only `i` has had turns. -/
theorem run_alone {R : ω → Prop} (hI : I c.2) (h : (c.1 i).Always I R) (hw : ∀ j ∈ w, j = i) :
    I (run turn c w).2 ∧ ((run turn c w).1 i).Always I R := by
  induction w generalizing c with
  | nil => exact ⟨hI, h⟩
  | cons j w ih =>
    obtain rfl := hw j List.mem_cons_self
    obtain ⟨hI', h'⟩ := turn_self hI h
    exact ih hI' h' fun k hk => hw k (List.mem_cons_of_mem _ hk)

/-- All programs keep `I`, and program `i` promises `Q i`. -/
def Promises (I : σ → Prop) (Q : ι → ω → Prop) (c : (ι → Program σ ω) × σ) : Prop :=
  I c.2 ∧ ∀ i, (c.1 i).Always I (Q i)

theorem turn_always (h : Promises I Q c) (i : ι) : Promises I Q (turn c i) := by
  obtain ⟨hI, hi⟩ := turn_self h.1 (h.2 i)
  refine ⟨hI, fun j => ?_⟩
  by_cases hj : j = i
  · subst hj
    exact hi
  · rw [turn_of_ne hj]
    exact h.2 j

theorem run_always (h : Promises I Q c) (w : List ι) : Promises I Q (run turn c w) :=
  run_invariant (I := Promises I Q) (P := fun _ _ => True) (fun _ i hc _ => turn_always hc i) h
    (allSteps_of_forall fun _ _ => trivial)

omit [DecidableEq ι] in
/-- **The rule for interleavings.**  A program that has returned has returned what it promised. -/
theorem Promises.returned (h : Promises I Q c) {o : ω} (ho : c.1 i = .ret o) : Q i o := by
  have := h.2 i
  rwa [ho] at this

/-! ## Programs that look first -/

/-- The state in which `i` has its first turn. -/
def seenBy (c : (ι → Program σ ω) × σ) (w : List ι) (i : ι) : σ :=
  (run turn c (w.takeWhile fun j => j ≠ i)).2

/-- A schedule in which `i` has a turn, cut before its first one. -/
theorem takeWhile_split (h : i ∈ w) :
    ∃ w', w = w.takeWhile (fun j => j ≠ i) ++ i :: w' ∧ i ∉ w.takeWhile fun j => j ≠ i := by
  induction w with
  | nil => cases h
  | cons j w ih =>
    by_cases hj : j = i
    · subst hj
      exact ⟨w, by simp, by simp⟩
    · obtain ⟨w', hw, hnot⟩ := ih ((List.mem_cons.mp h).resolve_left (Ne.symm hj))
      rw [List.takeWhile_cons_of_pos (by simpa using hj)]
      refine ⟨w', by rw [List.cons_append, ← hw], ?_⟩
      rw [List.mem_cons, not_or]
      exact ⟨Ne.symm hj, hnot⟩

theorem turn_read {g : σ → Program σ ω} (h : c.1 i = Program.read >>= g) :
    (turn c i).1 i = g c.2 ∧ (turn c i).2 = c.2 := by
  unfold turn
  rw [h]
  exact ⟨Function.update_self .., rfl⟩

theorem run_first_turn {g : σ → Program σ ω} (h : c.1 i = Program.read >>= g) (hw : i ∉ w) :
    (run turn c (w ++ [i])).1 i = g (run turn c w).2 ∧
      (run turn c (w ++ [i])).2 = (run turn c w).2 := by
  rw [run_append, run_cons, run_nil]
  exact turn_read (by rw [run_turn_of_notMem hw, h])

/-- **A program that looks first** returns what it promises after the look. -/
theorem returned_of_look {g : σ → Program σ ω} {R : ω → Prop}
    (h : c.1 i = Program.read >>= g)
    (hg : (g (seenBy c w i)).Always (fun _ => True) R) {o : ω}
    (ho : (run turn c w).1 i = .ret o) : R o := by
  have hmem : i ∈ w := by
    by_contra hw
    rw [run_turn_of_notMem hw, h] at ho
    cases ho
  obtain ⟨w', hw, hnot⟩ := takeWhile_split hmem
  have hfirst := run_first_turn h hnot
  rw [hw, List.append_cons, run_append] at ho
  have hall : Promises (fun _ => True) (fun j o => j = i → R o)
      (run turn c (w.takeWhile (fun j => j ≠ i) ++ [i])) := by
    refine ⟨trivial, fun j => ?_⟩
    by_cases hj : j = i
    · subst hj
      show Program.Always _ _ ((run turn c _).1 j)
      rw [hfirst.1]
      exact hg.mono fun o ho _ => ho
    · exact Always.of_true.mono fun o _ hji => absurd hji hj
  exact (run_always hall w').returned ho rfl

end Interleaving

end JazzHands.Library

import Mathlib.Data.Nat.Basic
import Mathlib.Order.Basic

/-!
# Loops that may fail or run on

The body of a loop gets the loop's variables.  It goes on with new values, leaves the loop with
them, or fails.  A loop that runs on has no result, so a loop is run for a number of passes, and the
outcome is `none` when it has not come to its end by then.

* `returns_bind`: computations one after the other.
-/

namespace JazzHands.Library

variable {ε σ α β : Type}

/-- The computation comes to its end without an error, and gives `a`. -/
def Returns (x : ExceptT ε Option α) (a : α) : Prop := x = some (.ok a)

/-- The computation comes to its end, with a value or with an error. -/
def Finishes (x : ExceptT ε Option α) : Prop := x ≠ none

/-- A computation that is known to come to its end. -/
def ended (x : Except ε α) : ExceptT ε Option α := some x

/-- A loop, run for at most `n` passes. -/
def loop (body : σ → Except ε (ForInStep σ)) : ℕ → σ → ExceptT ε Option σ
  | 0, _ => none
  | n + 1, s =>
    match body s with
    | .error e => ended (.error e)
    | .ok (.done s') => ended (.ok s')
    | .ok (.yield s') => loop body n s'

/-! ## Computations one after the other -/

@[simp] theorem returns_ended {x : Except ε α} {a : α} :
    Returns (ended x) a ↔ x = .ok a :=
  Option.some_inj

@[simp] theorem returns_pure {a b : α} : Returns (pure a : ExceptT ε Option α) b ↔ a = b := by
  show (some (Except.ok a) : Option (Except ε α)) = some (.ok b) ↔ a = b
  rw [Option.some_inj, Except.ok.injEq]

instance [DecidableEq α] (x : ExceptT ε Option α) (a : α) : Decidable (Returns x a) :=
  match x with
  | none => isFalse fun h => nomatch h
  | some (.error _) => isFalse fun h => nomatch h
  | some (.ok b) => decidable_of_iff (b = a) returns_pure.symm

theorem returns_bind {x : ExceptT ε Option α} {f : α → ExceptT ε Option β} {b : β} :
    Returns (x >>= f) b ↔ ∃ a, Returns x a ∧ Returns (f a) b := by
  cases x with
  | none => exact ⟨fun h => (nomatch h), fun ⟨_, h, _⟩ => (nomatch h)⟩
  | some r =>
    cases r with
    | error e => exact ⟨fun h => (nomatch h), fun ⟨_, h, _⟩ => (nomatch h)⟩
    | ok a =>
      refine ⟨fun h => ⟨a, rfl, h⟩, ?_⟩
      rintro ⟨_, ⟨⟩, h⟩
      exact h

theorem finishes_ended (x : Except ε α) : Finishes (ended x) :=
  fun h => nomatch h

theorem finishes_bind {x : ExceptT ε Option α} {f : α → ExceptT ε Option β} (hx : Finishes x)
    (hf : ∀ a, Returns x a → Finishes (f a)) : Finishes (x >>= f) := by
  cases x with
  | none => exact absurd rfl hx
  | some r =>
    cases r with
    | error e => exact fun h => nomatch h
    | ok a => exact hf a rfl

/-! ## The rules for loops -/

variable {body : σ → Except ε (ForInStep σ)} {I J : σ → Prop} {n : ℕ} {s s' : σ}

/-- **Partial correctness.**  If every pass keeps `I`, and a pass that leaves the loop gives `J`,
then `J` holds when the loop returns. -/
theorem loop_returns (hyield : ∀ s s', I s → body s = .ok (.yield s') → I s')
    (hdone : ∀ s s', I s → body s = .ok (.done s') → J s') (h0 : I s)
    (h : Returns (loop body n s) s') : J s' := by
  induction n generalizing s with
  | zero => exact nomatch h
  | succ n ih =>
    rw [loop] at h
    cases hb : body s with
    | error e =>
      rw [hb] at h
      exact nomatch h
    | ok r =>
      rw [hb] at h
      cases r with
      | done t =>
        obtain rfl : t = s' := by simpa using h
        exact hdone s t h0 hb
      | yield t => exact ih (hyield s t h0 hb) h

/-- **Termination.**  A measure that goes down in every pass bounds the number of passes. -/
theorem loop_finishes (μ : σ → ℕ)
    (hyield : ∀ s s', I s → body s = .ok (.yield s') → I s' ∧ μ s' < μ s) (h0 : I s)
    (hn : μ s < n) : Finishes (loop body n s) := by
  induction n generalizing s with
  | zero => exact absurd hn (Nat.not_lt_zero _)
  | succ n ih =>
    rw [loop]
    cases hb : body s with
    | error e => exact finishes_ended _
    | ok r =>
      cases r with
      | done t => exact finishes_ended _
      | yield t =>
        obtain ⟨ht, hlt⟩ := hyield s t h0 hb
        exact ih ht (by omega)

/-- **Total correctness.**  A loop with a measure, of which no pass fails, returns. -/
theorem loop_total (μ : σ → ℕ)
    (hbody : ∀ s, I s → (∃ s', body s = .ok (.done s') ∧ J s') ∨
      ∃ s', body s = .ok (.yield s') ∧ I s' ∧ μ s' < μ s) (h0 : I s) (hn : μ s < n) :
    ∃ s', Returns (loop body n s) s' ∧ J s' := by
  induction n generalizing s with
  | zero => exact absurd hn (Nat.not_lt_zero _)
  | succ n ih =>
    rw [loop]
    rcases hbody s h0 with ⟨t, hb, ht⟩ | ⟨t, hb, ht, hlt⟩
    · rw [hb]
      exact ⟨t, rfl, ht⟩
    · rw [hb]
      exact ih ht (by omega)

/-- **Running on.**  A loop whose every pass goes on has no outcome. -/
theorem loop_runs_on (hbody : ∀ s, I s → ∃ s', body s = .ok (.yield s') ∧ I s') (h0 : I s) :
    ¬ Finishes (loop body n s) := by
  induction n generalizing s with
  | zero => exact fun h => h rfl
  | succ n ih =>
    obtain ⟨s', hb, hs'⟩ := hbody s h0
    rw [loop, hb]
    exact ih hs'

theorem loop_of_le {m : ℕ} (h : Returns (loop body n s) s') (hnm : n ≤ m) :
    Returns (loop body m s) s' := by
  induction n generalizing s m with
  | zero => exact nomatch h
  | succ n ih =>
    obtain ⟨k, rfl⟩ := Nat.exists_eq_add_of_le' hnm
    rw [← Nat.add_assoc, loop]
    rw [loop] at h
    cases hb : body s with
    | error e =>
      rw [hb] at h
      exact nomatch h
    | ok r =>
      rw [hb] at h
      cases r with
      | done t => exact h
      | yield t => exact ih h (Nat.le_add_left n k)

/-! ## Errors -/

variable {E : ε → Prop} {x : ExceptT ε Option α} {f : α → ExceptT ε Option β}

/-- The computation fails, if it does, with an error that satisfies `E`. -/
def FailsOnly (E : ε → Prop) (x : ExceptT ε Option α) : Prop := ∀ e, x = some (.error e) → E e

/-- The computation fails with an error that satisfies `E`. -/
def Fails (E : ε → Prop) (x : ExceptT ε Option α) : Prop := ∃ e, x = some (.error e) ∧ E e

theorem failsOnly_ended {y : Except ε α} : FailsOnly E (ended y) ↔ ∀ e, y = .error e → E e :=
  forall_congr' fun _ => imp_congr_left Option.some_inj

theorem fails_ended {y : Except ε α} : Fails E (ended y) ↔ ∃ e, y = .error e ∧ E e :=
  exists_congr fun _ => and_congr_left' Option.some_inj

theorem failsOnly_pure {a : α} : FailsOnly E (pure a : ExceptT ε Option α) := by
  intro e h
  exact nomatch Option.some_inj.mp h

theorem Fails.not_failsOnly (h : Fails E x) : ¬ FailsOnly (fun e => ¬ E e) x := by
  obtain ⟨e, hx, he⟩ := h
  exact fun honly => honly e hx he

theorem FailsOnly.bind (hx : FailsOnly E x) (hf : ∀ a, Returns x a → FailsOnly E (f a)) :
    FailsOnly E (x >>= f) := by
  cases x with
  | none => exact fun e h => nomatch h
  | some r =>
    cases r with
    | error e' =>
      intro e h
      obtain rfl : e' = e := Except.error.inj (Option.some_inj.mp h)
      exact hx e' rfl
    | ok a => exact hf a rfl

theorem Fails.bind (hx : Fails E x) : Fails E (x >>= f) := by
  obtain ⟨e, rfl, he⟩ := hx
  exact ⟨e, rfl, he⟩

theorem Returns.fails_bind {a : α} (hx : Returns x a) (hf : Fails E (f a)) :
    Fails E (x >>= f) := by
  obtain rfl := hx
  exact hf

/-- **The errors of a loop** are those of the passes that it can make. -/
theorem loop_failsOnly (herror : ∀ s e, I s → body s = .error e → E e)
    (hyield : ∀ s s', I s → body s = .ok (.yield s') → I s') (h0 : I s) :
    FailsOnly E (loop body n s) := by
  induction n generalizing s with
  | zero => exact fun e h => nomatch h
  | succ n ih =>
    rw [loop]
    cases hb : body s with
    | error e =>
      refine failsOnly_ended.mpr fun e' he => ?_
      obtain rfl := Except.error.inj he
      exact herror s e h0 hb
    | ok r =>
      cases r with
      | done t => exact failsOnly_ended.mpr fun e' he => nomatch he
      | yield t => exact ih (hyield s t h0 hb)

/-- **Failure.**  A loop with a measure, of which every pass goes on or fails with an error in `E`,
comes to such an error. -/
theorem loop_fails (μ : σ → ℕ)
    (hbody : ∀ s, I s → (∃ e, body s = .error e ∧ E e) ∨
      ∃ s', body s = .ok (.yield s') ∧ I s' ∧ μ s' < μ s) (h0 : I s) (hn : μ s < n) :
    Fails E (loop body n s) := by
  induction n generalizing s with
  | zero => exact absurd hn (Nat.not_lt_zero _)
  | succ n ih =>
    rw [loop]
    rcases hbody s h0 with ⟨e, hb, he⟩ | ⟨t, hb, ht, hlt⟩
    · rw [hb]
      exact ⟨e, rfl, he⟩
    · rw [hb]
      exact ih ht (by omega)

end JazzHands.Library

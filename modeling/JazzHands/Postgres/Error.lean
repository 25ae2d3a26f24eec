import JazzHands.Library.Fallible
import JazzHands.Library.Lookup

/-!
# Errors of the database

A statement or function call of the database returns a value or raises an error.  An error carries
its SQLSTATE and the text of its message, with `%` standing where the code puts a value.
-/

namespace JazzHands.Postgres

/-- The SQLSTATEs that the code raises, and those of the constraints and built-in functions. -/
inductive SqlState where
  | notNullViolation
  | uniqueViolation
  | foreignKeyViolation
  | integrityConstraintViolation
  | triggeredDataChangeViolation
  | invalidParameterValue
  | nullValueNotAllowed
  | numericValueOutOfRange
  | raiseException
  | JH101
  | JH102
  | JH103
  | JH105
  | JH106
  | JH107
  | JH108
  | JH109
  | JH10A
  | JH10B
  | JH10D
  | JH10E
  | JH10F
  | checkViolation
  | JH001
  | JH200
  | queryCanceled
  | invalidName
  | errorInAssignment
  | invalidDatetimeFormat
  | undefinedColumn
  | invalidTextRepresentation
  | functionExecutedNoReturnStatement
  | noDataFound
  | tooManyRows
  | cardinalityViolation
  | syntaxError
  | undefinedTable
  | statementTooComplex
  | dataException
  | externalRoutineException
  | ambiguousColumn
  | stringDataRightTruncation
  | exclusionViolation
  | duplicateColumn
  | undefinedFunction
  deriving DecidableEq

structure PgError where
  errcode : SqlState
  message : String
  deriving DecidableEq

/-- What a statement or a function call gives: a value, or the error it raises. -/
abbrev Result (α : Type) : Type := Except PgError α

/-- `RAISE EXCEPTION message USING ERRCODE = errcode`. -/
def raise {α : Type} (errcode : SqlState) (message : String) : Result α :=
  .error ⟨errcode, message⟩

/-- `IF cond THEN RAISE EXCEPTION message USING ERRCODE = errcode; END IF`. -/
def raiseIf (cond : Prop) [Decidable cond] (errcode : SqlState) (message : String) :
    Result Unit :=
  if cond then raise errcode message else .ok ()

/-- `BEGIN x EXCEPTION WHEN code THEN NULL; END`, with what there was before. -/
def exceptionWhen {α : Type} (code : SqlState) (before : α) (x : Result α) : Result α :=
  match x with
  | .ok a => .ok a
  | .error err => if err.errcode = code then .ok before else .error err

variable {α β : Type} {cond : Prop} [Decidable cond] {e : SqlState} {m : String}

variable {a : α} {x : Result α} {err : PgError} {c : SqlState}

@[simp] theorem raise_ne_ok : raise e m ≠ .ok a := fun h => nomatch h

@[simp] theorem raiseIf_eq_ok {u : Unit} : raiseIf cond e m = .ok u ↔ ¬ cond := by
  by_cases h : cond <;> simp [raiseIf, raise, h]

@[simp] theorem bind_eq_ok {f : α → Result β} {b : β} :
    x >>= f = .ok b ↔ ∃ a, x = .ok a ∧ f a = .ok b := Library.bind_ok_iff

@[simp 1100] theorem bind_unit_eq_ok {x : Result Unit} {f : Unit → Result β} {b : β} :
    x >>= f = .ok b ↔ x = .ok () ∧ f () = .ok b := by
  cases x with
  | error e => simp [bind, Except.bind]
  | ok a => simp [bind, Except.bind]

theorem bind_eq_error {f : α → Result β} :
    x >>= f = .error err ↔ x = .error err ∨ ∃ a, x = .ok a ∧ f a = .error err := by
  cases x with
  | error e => simp [bind, Except.bind]
  | ok a => simp [bind, Except.bind]

theorem raiseIf_eq_error :
    raiseIf cond e m = .error err ↔ cond ∧ err = ⟨e, m⟩ := by
  by_cases h : cond
  · simp [raiseIf, raise, h, eq_comm]
  · simp [raiseIf, h]

@[simp] theorem exceptionWhen_ok {code : SqlState} {before : α} :
    exceptionWhen code before (.ok a) = .ok a := rfl

theorem exceptionWhen_eq_before {before : α} (h : x = .error err)
    : exceptionWhen err.errcode before x = .ok before := by
  rw [h, exceptionWhen, if_pos rfl]

@[simp] theorem pure_eq_ok {b : α} : (pure a : Result α) = .ok b ↔ a = b := by
  simp [pure, Except.pure]

/-- The call does not raise `c`. -/
def Avoids (c : SqlState) (x : Result α) : Prop := ∀ err, x = .error err → err.errcode ≠ c

@[simp] theorem avoids_ok : Avoids c (.ok a : Result α) :=
  fun _ h => by cases h

@[simp] theorem avoids_raise : Avoids c (raise e m : Result α) ↔ e ≠ c := by
  constructor
  · intro h
    exact h ⟨e, m⟩ rfl
  · intro h err herr
    cases herr
    exact h

theorem avoids_raiseIf (h : e ≠ c) : Avoids c (raiseIf cond e m) := by
  unfold raiseIf
  split
  · exact avoids_raise.mpr h
  · exact avoids_ok

theorem Avoids.bind {f : α → Result β} (hx : Avoids c x) (hf : ∀ a, x = .ok a → Avoids c (f a))
    : Avoids c (x >>= f) := by
  intro err h
  rcases bind_eq_error.mp h with h | ⟨a, ha, h⟩
  · exact hx err h
  · exact hf a ha err h

/-- A step that cannot fail does not change what a call raises. -/
@[simp] theorem avoids_bind_ok {f : α → β} :
    Avoids c (x >>= fun a => .ok (f a)) ↔ Avoids c x := by
  constructor
  · intro h err herr
    exact h err (bind_eq_error.mpr (Or.inl herr))
  · intro h
    exact h.bind fun _ _ => avoids_ok

theorem not_avoids :
    ¬ Avoids c x ↔ ∃ err, x = .error err ∧ err.errcode = c := by
  simp [Avoids]

theorem forM_eq_ok {ι : Type} {f : ι → Result Unit} {l : List ι} :
    l.forM f = .ok () ↔ ∀ a ∈ l, f a = .ok () := by
  induction l with
  | nil => simp [List.forM, pure, Except.pure]
  | cons a l ih =>
    show (f a >>= fun _ => l.forM f) = .ok () ↔ _
    rw [bind_unit_eq_ok, ih, List.forall_mem_cons]

theorem foldlM_keeps {σ ι : Type} {f : σ → ι → Result σ} {P : σ → Prop} {l : List ι} {s s' : σ}
    (hstep : ∀ a ∈ l, ∀ s s', P s → f s a = .ok s' → P s') (hs : P s)
    (h : l.foldlM f s = .ok s') : P s' := by
  induction l generalizing s with
  | nil =>
    rw [List.foldlM_nil, pure_eq_ok] at h
    exact h ▸ hs
  | cons a l ih =>
    rw [List.foldlM_cons, bind_eq_ok] at h
    obtain ⟨s₁, h₁, h₂⟩ := h
    have hs₁ := hstep a List.mem_cons_self s s₁ hs h₁
    exact ih (fun b hb => hstep b (List.mem_cons_of_mem _ hb)) hs₁ h₂

/-- A loop whose steps can all be taken, with a property of the state and of what is still to do. -/
theorem foldlM_rest {σ ι : Type} {f : σ → ι → Result σ} {P : List ι → σ → Prop} {l : List ι}
    {s : σ} (hstep : ∀ a l s, P (a :: l) s → ∃ s', f s a = .ok s' ∧ P l s') (hs : P l s) :
    ∃ s', l.foldlM f s = .ok s' ∧ P [] s' := by
  induction l generalizing s with
  | nil => exact ⟨s, rfl, hs⟩
  | cons a l ih =>
    obtain ⟨s₁, h₁, hs₁⟩ := hstep a l s hs
    obtain ⟨s', h', hs'⟩ := ih hs₁
    exact ⟨s', by rw [List.foldlM_cons, bind_eq_ok]; exact ⟨s₁, h₁, h'⟩, hs'⟩

theorem foldlM_rest_keeps {σ ι : Type} {f : σ → ι → Result σ} {P : List ι → σ → Prop} {l : List ι}
    {s s' : σ} (hstep : ∀ a l s s', P (a :: l) s → f s a = .ok s' → P l s') (hs : P l s)
    (h : l.foldlM f s = .ok s') : P [] s' := by
  induction l generalizing s with
  | nil =>
    rw [List.foldlM_nil, pure_eq_ok] at h
    exact h ▸ hs
  | cons a l ih =>
    rw [List.foldlM_cons, bind_eq_ok] at h
    obtain ⟨s₁, h₁, h⟩ := h
    exact ih (hstep a l s s₁ hs h₁) h

theorem foldlM_looks {σ ι : Type} {f : σ → ι → Result σ} {l : List ι} {s s' : σ}
    (hf : ∀ a ∈ l, ∀ s', f s a = .ok s' → s' = s) (h : l.foldlM f s = .ok s') :
    s' = s ∧ ∀ a ∈ l, f s a = .ok s := by
  induction l with
  | nil => exact ⟨(Except.ok.inj h).symm, fun _ ha => absurd ha List.not_mem_nil⟩
  | cons a l ih =>
    rw [List.foldlM_cons, bind_eq_ok] at h
    obtain ⟨s₁, h₁, h⟩ := h
    obtain rfl := hf a List.mem_cons_self s₁ h₁
    obtain ⟨hs', hl⟩ := ih (fun b hb => hf b (List.mem_cons_of_mem _ hb)) h
    exact ⟨hs', List.forall_mem_cons.mpr ⟨h₁, hl⟩⟩

/-- Every step of a loop that goes through is taken in some state. -/
theorem exists_of_foldlM {σ ι : Type} {f : σ → ι → Result σ} {l : List ι} {s s' : σ}
    (h : l.foldlM f s = .ok s') : ∀ a ∈ l, ∃ s₁ s₂, f s₁ a = .ok s₂ := by
  induction l generalizing s with
  | nil => exact fun _ ha => absurd ha List.not_mem_nil
  | cons a l ih =>
    rw [List.foldlM_cons, bind_eq_ok] at h
    obtain ⟨s₁, h₁, h⟩ := h
    exact List.forall_mem_cons.mpr ⟨⟨s, s₁, h₁⟩, ih h⟩

theorem foldlM_stays {σ ι : Type} {f : σ → ι → Result σ} {l : List ι} {s : σ}
    (hf : ∀ a ∈ l, f s a = .ok s) : l.foldlM f s = .ok s := by
  induction l with
  | nil => rfl
  | cons a l ih =>
    rw [List.foldlM_cons, hf a List.mem_cons_self]
    exact ih fun b hb => hf b (List.mem_cons_of_mem _ hb)

theorem foldlM_eq_foldl {σ ι : Type} {f : σ → ι → Result σ} {g : σ → ι → σ} {P : σ → Prop}
    {l : List ι} {s : σ} (hf : ∀ s a, P s → f s a = .ok (g s a) ∧ P (g s a)) (hs : P s) :
    l.foldlM f s = .ok (l.foldl g s) ∧ P (l.foldl g s) := by
  induction l generalizing s with
  | nil => exact ⟨rfl, hs⟩
  | cons a l ih =>
    obtain ⟨ha, hs'⟩ := hf s a hs
    rw [List.foldlM_cons, ha]
    exact ih hs'

theorem foldlM_singleton {σ ι : Type} {f : σ → ι → Result σ} {a : ι} {s : σ} :
    [a].foldlM f s = f s a := by
  rw [List.foldlM_cons]
  exact bind_pure _

theorem foldlM_concat_eq_ok {σ ι : Type} {f : σ → ι → Result σ} {l : List ι} {a : ι} {s s' : σ} :
    (l ++ [a]).foldlM f s = .ok s' ↔ ∃ s₁, l.foldlM f s = .ok s₁ ∧ f s₁ a = .ok s' := by
  rw [List.foldlM_append, bind_eq_ok]
  simp only [List.foldlM_cons, List.foldlM_nil, bind_pure]

end JazzHands.Postgres

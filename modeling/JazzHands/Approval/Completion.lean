import JazzHands.Approval.Instance
import JazzHands.Library.Runs

/-!
# Completion

When steps are completed and instances ended, over runs of statements.

`Completing` is what a loop of completions does to the tables, and `stepsRight_of_fits` what it
needs of the rows that were decided.  `completion_run` is the induction.
-/

namespace JazzHands.Approval

open Postgres Library

variable {db db' db₁ : Db} {now : ℤ} {id j : ℕ} {s : ApprovalInstanceStep}
  {x new : ℕ × ApprovalInstanceItem} {rows : List (ℕ × ApprovalInstanceItem)}

/-! ## Right states -/

/-- The step has items, and all are decided. -/
def Db.StepDone (db : Db) (id : ℕ) : Prop :=
  (∃ j x, db.approvalInstanceItem.get j = some x ∧ x.approvalInstanceStepId = id) ∧
    ∀ j x, db.approvalInstanceItem.get j = some x → x.approvalInstanceStepId = id →
      x.isApproved ≠ none

/-- The instance has steps, and all are completed. -/
def Db.InstanceDone (db : Db) (id : ℕ) : Prop :=
  (∃ j s, db.approvalInstanceStep.get j = some s ∧ s.approvalInstanceId = id) ∧
    ∀ j s, db.approvalInstanceStep.get j = some s → s.approvalInstanceId = id →
      s.isCompleted = true

def StepsRight (db : Db) : Prop :=
  ∀ id s, db.approvalInstanceStep.get id = some s → (s.isCompleted = true ↔ db.StepDone id)

def InstancesRight (db : Db) : Prop :=
  ∀ id i, db.approvalInstance.get id = some i → (i.approvalEnd ≠ none ↔ db.InstanceDone id)

/-- The three levels agree. -/
structure Right (db : Db) : Prop where
  steps : StepsRight db
  instances : InstancesRight db

/-- The foreign keys from items to steps and from steps to instances. -/
structure Refers (db : Db) : Prop where
  step : ∀ j x, db.approvalInstanceItem.get j = some x →
    db.approvalInstanceStep.get x.approvalInstanceStepId ≠ none
  inst : ∀ j s, db.approvalInstanceStep.get j = some s →
    db.approvalInstance.get s.approvalInstanceId ≠ none

/-- Decided items stay, with their decisions. -/
def Kept (db db' : Db) : Prop :=
  ∀ id x b, db.approvalInstanceItem.get id = some x → x.isApproved = some b →
    ∃ x', db'.approvalInstanceItem.get id = some x' ∧ x'.isApproved = some b

theorem Kept.refl (db : Db) : Kept db db := fun _ x _ hx hb => ⟨x, hx, hb⟩

theorem Kept.trans (h : Kept db db₁) (h' : Kept db₁ db') : Kept db db' := by
  intro id x b hx hb
  obtain ⟨x₁, hx₁, hb₁⟩ := h id x b hx hb
  exact h' id x₁ b hx₁ hb₁

/-! ## The counting queries -/

theorem uncompleted_eq_zero :
    ((db.stepsOf id).filter (·.2.isCompleted = false)).length = 0 ↔
      ∀ j s, db.approvalInstanceStep.get j = some s → s.approvalInstanceId = id →
        s.isCompleted = true := by
  rw [List.length_eq_zero_iff, List.filter_eq_nil_iff]
  constructor
  · intro h j s hs hid
    have := h (j, s) (List.mem_filter.mpr ⟨Table.get_eq_some.mp hs, by simpa using hid⟩)
    simpa using this
  · intro h y hy
    obtain ⟨hmem, hid⟩ := List.mem_filter.mp hy
    simpa using h y.1 y.2 (Table.get_eq_some.mpr hmem) (by simpa using hid)

/-- No other item of the step is decided. -/
def Db.Sole (db : Db) (new : ℕ × ApprovalInstanceItem) : Prop :=
  ∀ j x, db.approvalInstanceItem.get j = some x →
    x.approvalInstanceStepId = new.2.approvalInstanceStepId → j ≠ new.1 → x.isApproved = none

theorem decidedBeside_eq_zero : (db.decidedBeside new).length = 0 ↔ db.Sole new := by
  unfold Db.decidedBeside Db.itemsOf
  rw [List.length_eq_zero_iff, List.filter_eq_nil_iff]
  constructor
  · intro h j x hx hstep hj
    have := h (j, x) (List.mem_filter.mpr ⟨Table.get_eq_some.mp hx, by simpa using hstep⟩)
    simpa [hj] using this
  · intro h y hy
    obtain ⟨hmem, hstep⟩ := List.mem_filter.mp hy
    have := h y.1 y.2 (Table.get_eq_some.mpr hmem) (by simpa using hstep)
    simp only [decide_eq_true_eq, not_and, ne_eq, not_not]
    exact this

/-! ## The triggers -/

/-- What a list of completions has done: items are as before, and steps are completed that were, or
that `done` names. -/
structure Completing (db db' : Db) (done : ℕ → Prop) : Prop where
  item : db'.approvalInstanceItem = db.approvalInstanceItem
  step : ∀ j s, db.approvalInstanceStep.get j = some s →
    ∃ s', db'.approvalInstanceStep.get j = some s' ∧
      s'.approvalInstanceId = s.approvalInstanceId ∧
      (s'.isCompleted = true ↔ s.isCompleted = true ∨ done j)
  data : ∀ j s, db.approvalInstanceStep.get j = some s →
    ∃ s', db'.approvalInstanceStep.get j = some s' ∧
      s'.approvalProcessChainId = s.approvalProcessChainId ∧
      s'.approverAccountId = s.approverAccountId
  noStep : ∀ j, db.approvalInstanceStep.get j = none → db'.approvalInstanceStep.get j = none
  inst : ∀ j, db.approvalInstance.get j ≠ none → db'.approvalInstance.get j ≠ none

theorem Completing.refl (db : Db) : Completing db db fun _ => False where
  item := rfl
  step := fun _ s hs => ⟨s, hs, rfl, by simp⟩
  data := fun _ s hs => ⟨s, hs, rfl, rfl⟩
  noStep := fun _ h => h
  inst := fun _ h => h

variable {done done' : ℕ → Prop} {trigger : Db → ℕ × ApprovalInstanceItem → Result Db}
  {old : ApprovalInstanceItem} {isApproved : ℕ → Option (Option Bool)}

theorem Completing.trans (h : Completing db db₁ done) (h' : Completing db₁ db' done')
    : Completing db db' fun j => done j ∨ done' j where
  item := h'.item.trans h.item
  step := fun j s hs => by
    obtain ⟨s₁, hs₁, hinst₁, hdone₁⟩ := h.step j s hs
    obtain ⟨s₂, hs₂, hinst₂, hdone₂⟩ := h'.step j s₁ hs₁
    exact ⟨s₂, hs₂, hinst₂.trans hinst₁, by rw [hdone₂, hdone₁, or_assoc]⟩
  data := fun j s hs => by
    obtain ⟨s₁, hs₁, hchain₁, happrover₁⟩ := h.data j s hs
    obtain ⟨s₂, hs₂, hchain₂, happrover₂⟩ := h'.data j s₁ hs₁
    exact ⟨s₂, hs₂, hchain₂.trans hchain₁, happrover₂.trans happrover₁⟩
  noStep := fun j hj => h'.noStep j (h.noStep j hj)
  inst := fun j hj => h'.inst j (h.inst j hj)

theorem Completing.congr (h : Completing db db' done) (hiff : ∀ j, done j ↔ done' j)
    : Completing db db' done' := by
  obtain rfl : done = done' := funext fun j => propext (hiff j)
  exact h

theorem Completing.step_of (h : Completing db db' done)
    (hs : db'.approvalInstanceStep.get j = some s) :
    ∃ s₀, db.approvalInstanceStep.get j = some s₀ ∧
      s.approvalInstanceId = s₀.approvalInstanceId ∧
      (s.isCompleted = true ↔ s₀.isCompleted = true ∨ done j) := by
  cases h₀ : db.approvalInstanceStep.get j with
  | none =>
    rw [h.noStep j h₀] at hs
    cases hs
  | some s₀ =>
    obtain ⟨s', hs', hrest⟩ := h.step j s₀ h₀
    obtain rfl := Option.some.inj (hs.symm.trans hs')
    exact ⟨s₀, rfl, hrest⟩

def Db.AllCompleted (db : Db) (id : ℕ) : Prop :=
  ∀ j s, db.approvalInstanceStep.get j = some s → s.approvalInstanceId = id → s.isCompleted = true

theorem resolveInstance_get {new : ApprovalInstanceStep} {i : ApprovalInstance}
    (h : (approvalInstanceStepResolveInstance now new db).approvalInstance.get j = some i) :
    j = new.approvalInstanceId ∧ db.AllCompleted j ∧ i.approvalEnd = some now ∨
      ¬ (j = new.approvalInstanceId ∧ db.AllCompleted j) ∧
        db.approvalInstance.get j = some i := by
  unfold approvalInstanceStepResolveInstance at h
  dsimp only at h
  split at h
  next htally =>
    have hall : db.AllCompleted new.approvalInstanceId := uncompleted_eq_zero.mp htally
    rw [Table.get_update] at h
    split at h
    next hj =>
      obtain ⟨i₀, -, rfl⟩ := Option.map_eq_some_iff.mp h
      exact .inl ⟨hj, hj ▸ hall, rfl⟩
    next hj => exact .inr ⟨fun h => hj h.1, h⟩
  next htally =>
    refine .inr ⟨?_, h⟩
    rintro ⟨rfl, hall⟩
    exact htally (uncompleted_eq_zero.mpr hall)

theorem resolveInstance_ne_none {new : ApprovalInstanceStep}
    (h : db.approvalInstance.get j ≠ none) :
    (approvalInstanceStepResolveInstance now new db).approvalInstance.get j ≠ none := by
  unfold approvalInstanceStepResolveInstance
  dsimp only
  split
  · rw [Table.get_update]
    split
    · simpa using h
    · exact h
  · exact h

theorem resolveInstance_step (new : ApprovalInstanceStep) (db : Db) :
    (approvalInstanceStepResolveInstance now new db).approvalInstanceStep =
      db.approvalInstanceStep := by
  unfold approvalInstanceStepResolveInstance
  dsimp only
  split <;> rfl

theorem resolveInstance_item (new : ApprovalInstanceStep) (db : Db) :
    (approvalInstanceStepResolveInstance now new db).approvalInstanceItem =
      db.approvalInstanceItem := by
  unfold approvalInstanceStepResolveInstance
  dsimp only
  split <;> rfl

section

variable (h : completeStep now id db = .ok db')
include h

theorem completeStep_ok :
    (db.approvalInstanceStep.get id = none ∧ db' = db) ∨
    ∃ old, db.approvalInstanceStep.get id = some old ∧
      db' = approvalInstanceStepResolveInstance now
        { old with isCompleted := true, approvalInstanceStepEnd := some now }
        { db with
          approvalInstanceStep := db.approvalInstanceStep.update id fun _ =>
            { old with isCompleted := true, approvalInstanceStepEnd := some now } } := by
  unfold completeStep at h
  cases hold : db.approvalInstanceStep.get id with
  | none =>
    rw [hold] at h
    exact .inl ⟨rfl, (Except.ok.inj h).symm⟩
  | some old =>
    rw [hold] at h
    simp only [bind_unit_eq_ok, pure_eq_ok] at h
    exact .inr ⟨old, rfl, h.2.symm⟩

theorem completeStep_completing :
    Completing db db' fun j => j = id := by
  rcases completeStep_ok h with ⟨hnone, rfl⟩ | ⟨old, hold, rfl⟩
  · refine ⟨rfl, fun j s hs => ⟨s, hs, rfl, ?_⟩, fun _ s hs => ⟨s, hs, rfl, rfl⟩, fun _ h => h,
      fun _ h => h⟩
    have hj : j ≠ id := by
      rintro rfl
      rw [hnone] at hs
      cases hs
    simp [hj]
  · refine ⟨resolveInstance_item .., fun j s hs => ?_, fun j s hs => ?_, fun j hj => ?_,
      fun j hj => ?_⟩
    · rw [resolveInstance_step]
      dsimp only
      rw [Table.get_update, hs]
      by_cases hj : j = id
      · subst hj
        obtain rfl := Option.some.inj (hold.symm.trans hs)
        rw [if_pos rfl]
        exact ⟨_, rfl, rfl, by simp⟩
      · rw [if_neg hj]
        exact ⟨s, rfl, rfl, by simp [hj]⟩
    · rw [resolveInstance_step]
      dsimp only
      rw [Table.get_update, hs]
      by_cases hj : j = id
      · subst hj
        obtain rfl := Option.some.inj (hold.symm.trans hs)
        rw [if_pos rfl]
        exact ⟨_, rfl, rfl, rfl⟩
      · rw [if_neg hj]
        exact ⟨s, rfl, rfl, rfl⟩
    · rw [resolveInstance_step]
      dsimp only
      rw [Table.get_update, hj]
      simp
    · exact resolveInstance_ne_none hj

theorem completeStep_instances (hI : InstancesRight db) :
    InstancesRight db' := by
  have hcompl := completeStep_completing h
  rcases completeStep_ok h with ⟨-, rfl⟩ | ⟨old, hold, rfl⟩
  · exact hI
  intro k i hi
  -- the steps are those before the query
  have hdone : ∀ db' : Db, Completing db db' (fun j => j = id) → db'.AllCompleted k →
      old.approvalInstanceId = k → db'.InstanceDone k := by
    intro db' hc hall hk
    obtain ⟨s', hs', hinst, -⟩ := hc.step id old hold
    exact ⟨⟨id, s', hs', hinst.trans hk⟩, hall⟩
  rcases resolveInstance_get hi with ⟨hk, hall, hend⟩ | ⟨hnot, hi₀⟩
  · refine iff_of_true (by simp [hend]) (hdone _ hcompl ?_ hk.symm)
    intro j s hs
    rw [resolveInstance_step] at hs
    exact hall j s hs
  · rw [hI k i hi₀]
    constructor
    · rintro ⟨⟨j, s, hs, hk⟩, hall⟩
      obtain ⟨s', hs', hinst', -⟩ := hcompl.step j s hs
      refine ⟨⟨j, s', hs', hinst'.trans hk⟩, fun j s hs hk => ?_⟩
      obtain ⟨s₀, hs₀, hinst₀, hiff⟩ := hcompl.step_of hs
      exact hiff.mpr (.inl (hall j s₀ hs₀ (hinst₀.symm.trans hk)))
    · rintro ⟨⟨j, s, hs, hk⟩, hall⟩
      have hne : k ≠ old.approvalInstanceId := by
        rintro rfl
        refine hnot ⟨rfl, fun j s hs => hall j s ?_⟩
        rw [resolveInstance_step]
        exact hs
      obtain ⟨s₀, hs₀, hinst₀, -⟩ := hcompl.step_of hs
      refine ⟨⟨j, s₀, hs₀, hinst₀.symm.trans hk⟩, fun j₁ s₁ hs₁ hk₁ => ?_⟩
      obtain ⟨s', hs', hinst', hiff⟩ := hcompl.step j₁ s₁ hs₁
      refine (hiff.mp (hall j₁ s' hs' (hinst'.trans hk₁))).resolve_right fun hj => ?_
      rw [hj, hold] at hs₁
      exact hne (hk₁.symm.trans (congrArg _ (Option.some.inj hs₁).symm))

end

section

variable (h : approvalInstanceStepAutoComplete now new db = .ok db')
include h

theorem autoComplete_cases :
    (new.2.isApproved ≠ none ∧ db.Sole new ∧
      completeStep now new.2.approvalInstanceStepId db = .ok db') ∨
    (¬ (new.2.isApproved ≠ none ∧ db.Sole new) ∧ db' = db) := by
  unfold approvalInstanceStepAutoComplete at h
  split at h
  next hdecided =>
    dsimp only at h
    split at h
    next htally => exact .inl ⟨hdecided, decidedBeside_eq_zero.mp htally, h⟩
    next htally =>
      exact .inr ⟨fun hsole => htally (decidedBeside_eq_zero.mpr hsole.2),
        (Except.ok.inj h).symm⟩
  next hundecided => exact .inr ⟨fun h => hundecided h.1, (Except.ok.inj h).symm⟩

/-- The rows of a list whose triggers complete a step. -/
def Db.Completes (db : Db) (rows : List (ℕ × ApprovalInstanceItem)) (id : ℕ) : Prop :=
  ∃ x ∈ rows, x.2.approvalInstanceStepId = id ∧ x.2.isApproved ≠ none ∧ db.Sole x

theorem autoComplete_completing :
    Completing db db' (db.Completes [new]) := by
  rcases autoComplete_cases h with ⟨hdecided, hsole, hc⟩ | ⟨hnot, rfl⟩
  · refine (completeStep_completing hc).congr fun j => ?_
    simp only [Db.Completes, List.mem_singleton, exists_eq_left]
    exact ⟨fun hj => ⟨hj.symm, hdecided, hsole⟩, fun hj => hj.1.symm⟩
  · refine (Completing.refl _).congr fun j => ?_
    simp only [Db.Completes, List.mem_singleton, exists_eq_left, false_iff]
    exact fun hj => hnot hj.2

theorem autoComplete_instances (hI : InstancesRight db) : InstancesRight db' := by
  rcases autoComplete_cases h with ⟨-, -, hc⟩ | ⟨-, rfl⟩
  · exact completeStep_instances hc hI
  · exact hI

end

theorem completes_congr (h : db'.approvalInstanceItem = db.approvalInstanceItem) :
    db'.Completes rows id ↔ db.Completes rows id := by
  unfold Db.Completes Db.Sole
  rw [h]

theorem completes_cons :
    db.Completes (x :: rows) id ↔ db.Completes [x] id ∨ db.Completes rows id := by
  simp [Db.Completes]

/-- The triggers of a statement, one row after the other.  `trigger` is
`approval_instance_step_auto_complete`, after some checks. -/
theorem foldlM_completing (htrigger : ∀ db x db', trigger db x = .ok db' →
      approvalInstanceStepAutoComplete now x db = .ok db') (h : rows.foldlM trigger db = .ok db')
    : Completing db db' (db.Completes rows) := by
  induction rows generalizing db with
  | nil =>
    rw [List.foldlM_nil, pure_eq_ok] at h
    subst h
    exact (Completing.refl db).congr fun j => by simp [Db.Completes]
  | cons x rows ih =>
    rw [List.foldlM_cons, bind_eq_ok] at h
    obtain ⟨db₁, h₁, h₂⟩ := h
    have hx := autoComplete_completing (htrigger _ _ _ h₁)
    refine (hx.trans (ih h₂)).congr fun j => ?_
    rw [completes_congr hx.item]
    exact completes_cons.symm

theorem foldlM_instances (htrigger : ∀ db x db', trigger db x = .ok db' →
      approvalInstanceStepAutoComplete now x db = .ok db') (h : rows.foldlM trigger db = .ok db')
    (hI : InstancesRight db) : InstancesRight db' :=
  foldlM_keeps (fun x _ db₁ db₂ hI h => autoComplete_instances (htrigger db₁ x db₂ h) hI) hI h

/-! ## Statements -/

inductive Statement where
  | insertInstance (id : ℕ) (row : ApprovalInstance)
  | insertStep (id : ℕ) (row : ApprovalInstanceStep)
  | insertItems (now : ℤ) (rows : List (ℕ × ApprovalInstanceItem))
  | updateApproved (now : ℤ) (isApproved : ℕ → Option (Option Bool))

/-- `SET is_approved`, for the rows that the statement is about. -/
def setApproved (isApproved : ℕ → Option (Option Bool)) (id : ℕ) (row : ApprovalInstanceItem) :
    Option ApprovalInstanceItem :=
  (isApproved id).map fun v => { row with isApproved := v }

def execute (db : Db) : Statement → Result Db
  | .insertInstance id row => insertInstance id row db
  | .insertStep id row => insertStep id row db
  | .insertItems now rows => insertItems now rows db
  | .updateApproved now isApproved => updateItems now (setApproved isApproved) db

def step (db : Db) (st : Statement) : Db :=
  match execute db st with
  | .ok db' => db'
  | .error _ => db

/-- A decided row is the only item of its step, or one of several that are decided while one is not,
unless the step is completed. -/
def Fits (db : Db) (items : ℕ → Option ApprovalInstanceItem) (x : ℕ × ApprovalInstanceItem) : Prop :=
  (∀ j y, items j = some y → y.approvalInstanceStepId = x.2.approvalInstanceStepId → j = x.1) ∨
  ((∃ j y, items j = some y ∧ y.approvalInstanceStepId = x.2.approvalInstanceStepId ∧
      j ≠ x.1 ∧ y.isApproved ≠ none) ∧
    ((∃ j y, items j = some y ∧ y.approvalInstanceStepId = x.2.approvalInstanceStepId ∧
        y.isApproved = none) ∨
      ∃ s, db.approvalInstanceStep.get x.2.approvalInstanceStepId = some s ∧
        s.isCompleted = true))

def Allowed (db : Db) : Statement → Prop
  | .insertInstance _ row => row.approvalEnd = none
  | .insertStep _ row => row.isCompleted = false ∧
      ∀ i, db.approvalInstance.get row.approvalInstanceId = some i → i.approvalEnd = none
  | .insertItems _ rows => ∀ x ∈ rows, x.2.isApproved ≠ none →
      Fits db (fun j => (db.approvalInstanceItem.rows ++ rows).lookup j) x
  | .updateApproved _ isApproved => ∀ id row v, db.approvalInstanceItem.get id = some row →
      isApproved id = some v →
      (row.isApproved ≠ none → v ≠ none) ∧
      (v ≠ none → Fits db (db.approvalInstanceItem.modify fun id row =>
        (setApproved isApproved id row).getD row).get (id, { row with isApproved := v }))

/-! ## Inserted items -/

theorem insertRows_ok {t t' : Table ApprovalInstanceItem}
    (h : rows.foldlM (fun t x => t.insertAt x.1 x.2) t = .ok t') : t'.rows = t.rows ++ rows := by
  induction rows generalizing t with
  | nil =>
    rw [List.foldlM_nil, pure_eq_ok] at h
    rw [← h, List.append_nil]
  | cons x rows ih =>
    rw [List.foldlM_cons, bind_eq_ok] at h
    obtain ⟨t₁, h₁, h₂⟩ := h
    rw [ih h₂, (Table.insertAt_ok h₁).1, List.append_assoc]
    rfl

theorem itemInserted_ok (h : itemInserted now db new = .ok db') :
    (∃ s, db.approvalInstanceStep.get new.2.approvalInstanceStepId = some s ∧
      s.isCompleted = false) ∧
    approvalInstanceStepAutoComplete now new db = .ok db' := by
  simp only [itemInserted, bind_unit_eq_ok, raiseIf_eq_ok] at h
  obtain ⟨hstep, -, hopen, hauto⟩ := h
  obtain ⟨s, hs⟩ := Option.ne_none_iff_exists'.mp hstep
  refine ⟨⟨s, hs, ?_⟩, hauto⟩
  simp only [approvalInstanceStepOpen, raiseIf_eq_ok, hs] at hopen
  cases hcompleted : s.isCompleted with
  | false => rfl
  | true => exact absurd (by simp [Option.filter, hcompleted]) hopen

theorem inserted_open (h : rows.foldlM (itemInserted now) db = .ok db') (hx : x ∈ rows) :
    ∃ s, db.approvalInstanceStep.get x.2.approvalInstanceStepId = some s ∧
      s.isCompleted = false := by
  induction rows generalizing db with
  | nil => cases hx
  | cons y rows ih =>
    rw [List.foldlM_cons, bind_eq_ok] at h
    obtain ⟨db₁, h₁, h₂⟩ := h
    obtain ⟨hopen, hauto⟩ := itemInserted_ok h₁
    rcases List.mem_cons.mp hx with rfl | hx
    · exact hopen
    · obtain ⟨s, hs, hfalse⟩ := ih h₂ hx
      obtain ⟨s₀, hs₀, -, hiff⟩ := (autoComplete_completing hauto).step_of hs
      refine ⟨s₀, hs₀, ?_⟩
      cases hs₀' : s₀.isCompleted with
      | false => rfl
      | true =>
        rw [hiff.mpr (.inl hs₀')] at hfalse
        cases hfalse

/-- The completed steps are right again, when the rows fit that were written decided.  Steps without
such a row are as they were. -/
theorem stepsRight_of_fits (hcompl : Completing db₁ db' (db₁.Completes rows))
    (hrows : ∀ x ∈ rows, db₁.approvalInstanceItem.get x.1 = some x.2)
    (hfits : ∀ x ∈ rows, x.2.isApproved ≠ none → Fits db₁ db₁.approvalInstanceItem.get x)
    (hdone : ∀ id s, db₁.approvalInstanceStep.get id = some s → s.isCompleted = true →
      db₁.StepDone id)
    (hopen : ∀ id s, db₁.approvalInstanceStep.get id = some s → db₁.StepDone id →
      s.isCompleted = true ∨ ∃ x ∈ rows, x.2.approvalInstanceStepId = id ∧ x.2.isApproved ≠ none) :
    StepsRight db' := by
  intro id s' hs'
  obtain ⟨s, hs, -, hiff⟩ := hcompl.step_of hs'
  have hsame : db'.StepDone id ↔ db₁.StepDone id := by
    unfold Db.StepDone
    rw [hcompl.item]
  rw [hiff, hsame]
  constructor
  · rintro (hs₁ | ⟨x, hx, rfl, hdecided, hsole⟩)
    · exact hdone id s hs hs₁
    · -- the row is the only decided one, so it is alone
      rcases hfits x hx hdecided with halone | ⟨⟨j, y, hy, hstep, hj, hy'⟩, -⟩
      · refine ⟨⟨x.1, x.2, hrows x hx, rfl⟩, fun j y hy hstep => ?_⟩
        obtain rfl := halone j y hy hstep
        obtain rfl := Option.some.inj ((hrows x hx).symm.trans hy)
        exact hdecided
      · exact absurd (hsole j y hy hstep hj) hy'
  · intro hall
    rcases hopen id s hs hall with hs₁ | ⟨x, hx, rfl, hdecided⟩
    · exact .inl hs₁
    · rcases hfits x hx hdecided with halone | ⟨-, ⟨j, y, hy, hstep, hy'⟩ | ⟨s₁, hs₁, htrue⟩⟩
      · refine .inr ⟨x, hx, rfl, hdecided, fun j y hy hstep hj => ?_⟩
        exact absurd (halone j y hy hstep) hj
      · exact absurd hy' (hall.2 j y hy hstep)
      · obtain rfl := Option.some.inj (hs.symm.trans hs₁)
        exact .inl htrue

theorem Completing.refers (h : Completing db db' done)
    (hitem : ∀ j x, db.approvalInstanceItem.get j = some x →
      db.approvalInstanceStep.get x.approvalInstanceStepId ≠ none)
    (hinst : ∀ j s, db.approvalInstanceStep.get j = some s →
      db.approvalInstance.get s.approvalInstanceId ≠ none) : Refers db' where
  step := fun j x hx => by
    rw [h.item] at hx
    obtain ⟨s, hs⟩ := Option.ne_none_iff_exists'.mp (hitem j x hx)
    obtain ⟨s', hs', -⟩ := h.step _ s hs
    rw [hs']
    exact Option.some_ne_none _
  inst := fun j s' hs' => by
    obtain ⟨s, hs, heq, -⟩ := h.step_of hs'
    rw [heq]
    exact h.inst _ (hinst j s hs)

theorem insertItems_right (hright : Right db) (hrefers : Refers db)
    (hallowed : Allowed db (.insertItems now rows)) (h : insertItems now rows db = .ok db') :
    Right db' ∧ Refers db' ∧ Kept db db' := by
  unfold insertItems at h
  rw [bind_eq_ok] at h
  obtain ⟨t, ht, hfold⟩ := h
  have hrows := insertRows_ok ht
  have hauto := fun db x db' h => (@itemInserted_ok db db' now x h).2
  have hcompl := foldlM_completing hauto hfold
  have hget : ∀ j y, t.get j = some y ↔
      db.approvalInstanceItem.get j = some y ∨ (j, y) ∈ rows := by
    intro j y
    rw [Table.get_eq_some, Table.get_eq_some, hrows, List.mem_append]
  refine ⟨⟨?_, foldlM_instances hauto hfold hright.instances⟩, hcompl.refers ?_ hrefers.inst, ?_⟩
  · refine stepsRight_of_fits hcompl (fun x hx => (hget _ _).mpr (.inr hx)) (fun x hx hdecided => ?_)
      (fun id s hs hs' => ?_) fun id s hs hdone => ?_
    · have := hallowed x hx hdecided
      rw [← hrows] at this
      exact this
    · -- nothing was added to a completed step
      obtain ⟨⟨j, y, hy, hstep⟩, hall⟩ := (hright.steps id s hs).mp hs'
      refine ⟨⟨j, y, (hget j y).mpr (.inl hy), hstep⟩, fun j y hy hstep => ?_⟩
      rcases (hget j y).mp hy with hy | hy
      · exact hall j y hy hstep
      · obtain ⟨s₁, hs₁, hfalse⟩ := inserted_open hfold hy
        obtain rfl := Option.some.inj (hs.symm.trans (hstep ▸ hs₁))
        rw [hs'] at hfalse
        cases hfalse
    · by_cases hnew : ∃ x ∈ rows, x.2.approvalInstanceStepId = id
      · obtain ⟨x, hx, hstep⟩ := hnew
        exact .inr ⟨x, hx, hstep, hdone.2 x.1 x.2 ((hget _ _).mpr (.inr hx)) hstep⟩
      · obtain ⟨⟨j, y, hy, hstep⟩, hall⟩ := hdone
        refine .inl ((hright.steps id s hs).mpr ⟨⟨j, y, ?_, hstep⟩, fun j y hy hstep => ?_⟩)
        · exact ((hget j y).mp hy).resolve_right fun hy => hnew ⟨_, hy, hstep⟩
        · exact hall j y ((hget j y).mpr (.inl hy)) hstep
  · intro j y hy
    rcases (hget j y).mp hy with hy | hy
    · exact hrefers.step j y hy
    · obtain ⟨s, hs, -⟩ := inserted_open hfold hy
      exact fun hnone => by cases hnone.symm.trans hs
  · intro j y b hy hb
    rw [hcompl.item]
    exact ⟨y, (hget j y).mpr (.inl hy), hb⟩

/-! ## Decisions -/

theorem updateItems_ok {set : ℕ → ApprovalInstanceItem → Option ApprovalInstanceItem}
    (h : updateItems now set db = .ok db') :
    ∃ rows : List (ℕ × ApprovalInstanceItem),
      (∀ x, x ∈ rows ↔ ∃ old, db.approvalInstanceItem.get x.1 = some old ∧
        set x.1 old = some x.2) ∧
      (∀ j old new, db.approvalInstanceItem.get j = some old → set j old = some new →
        approvalInstanceItemApprovedImmutable old new = .ok ()) ∧
      rows.foldlM (fun db x => approvalInstanceStepAutoComplete now x db)
        { db with
          approvalInstanceItem := db.approvalInstanceItem.modify fun id row =>
            (set id row).getD row } = .ok db' := by
  simp only [updateItems, bind_unit_eq_ok, forM_eq_ok] at h
  obtain ⟨himmutable, hfold⟩ := h
  have hmem : ∀ j old new, ((j, old), new) ∈ (db.approvalInstanceItem.rows.filterMap fun x =>
      (set x.1 x.2).map fun new => (x, new)) ↔
      db.approvalInstanceItem.get j = some old ∧ set j old = some new := by
    intro j old new
    rw [List.mem_filterMap, Table.get_eq_some]
    constructor
    · rintro ⟨x, hx, heq⟩
      obtain ⟨new', hnew, heq⟩ := Option.map_eq_some_iff.mp heq
      cases heq
      exact ⟨hx, hnew⟩
    · rintro ⟨hx, hnew⟩
      exact ⟨(j, old), hx, by rw [hnew]; rfl⟩
  refine ⟨_, fun x => ?_, fun j old new hold hnew => himmutable _ ((hmem j old new).mpr
    ⟨hold, hnew⟩), (List.foldlM_map (f := fun x : (ℕ × ApprovalInstanceItem) ×
    ApprovalInstanceItem => (x.1.1, x.2))).trans hfold⟩
  rw [List.mem_map]
  constructor
  · rintro ⟨⟨⟨j, old⟩, new⟩, hx, rfl⟩
    exact ⟨old, (hmem j old new).mp hx⟩
  · rintro ⟨old, hold, hnew⟩
    exact ⟨((x.1, old), x.2), (hmem x.1 old x.2).mpr ⟨hold, hnew⟩, rfl⟩

theorem immutable_ok {new : ApprovalInstanceItem} {a b : Bool}
    (h : approvalInstanceItemApprovedImmutable old new = .ok ()) (hold : old.isApproved = some a)
    (hnew : new.isApproved = some b) : a = b := by
  unfold approvalInstanceItemApprovedImmutable at h
  rw [hold, hnew] at h
  simpa using h

/-- The items after `SET is_approved`. -/
def Db.withApproved (db : Db) (isApproved : ℕ → Option (Option Bool)) :
    Table ApprovalInstanceItem :=
  db.approvalInstanceItem.modify fun id row => (setApproved isApproved id row).getD row

theorem withApproved_get (db : Db) (isApproved : ℕ → Option (Option Bool)) (j : ℕ) :
    (db.withApproved isApproved).get j = (db.approvalInstanceItem.get j).map fun row =>
      { row with isApproved := (isApproved j).getD row.isApproved } := by
  unfold Db.withApproved
  rw [Table.get_modify]
  congr 1
  funext row
  unfold setApproved
  cases isApproved j <;> rfl

theorem withApproved_of_some (h : db.approvalInstanceItem.get j = some old)
    : (db.withApproved isApproved).get j =
      some { old with isApproved := (isApproved j).getD old.isApproved } := by
  rw [withApproved_get, h]
  rfl

/-- Decided items stay decided as they are, when none is set to NULL. -/
theorem withApproved_kept (hallowed : Allowed db (.updateApproved now isApproved))
    (himmutable : ∀ j old new, db.approvalInstanceItem.get j = some old →
      setApproved isApproved j old = some new →
      approvalInstanceItemApprovedImmutable old new = .ok ())
    (hj : db.approvalInstanceItem.get j = some old) (hdecided : old.isApproved ≠ none) :
    (isApproved j).getD old.isApproved = old.isApproved := by
  cases hv : isApproved j with
  | none => rfl
  | some v =>
    obtain ⟨a, ha⟩ := Option.ne_none_iff_exists'.mp hdecided
    obtain ⟨b, rfl⟩ := Option.ne_none_iff_exists'.mp ((hallowed j old v hj hv).1 hdecided)
    have hset : setApproved isApproved j old = some { old with isApproved := some b } := by
      simp [setApproved, hv]
    rw [ha, immutable_ok (himmutable j old _ hj hset) ha rfl]
    rfl

section

variable (hright : Right db) (hrefers : Refers db)
include hright hrefers

theorem updateApproved_right (hallowed : Allowed db (.updateApproved now isApproved))
    (h : updateItems now (setApproved isApproved) db = .ok db') :
    Right db' ∧ Refers db' ∧ Kept db db' := by
  obtain ⟨rows, hrows, himmutable, hfold⟩ := updateItems_ok h
  have hauto := fun (db : Db) (x : ℕ × ApprovalInstanceItem) (db' : Db)
    (h : approvalInstanceStepAutoComplete now x db = .ok db') => h
  have hcompl : Completing { db with approvalInstanceItem := db.withApproved isApproved } db' _ :=
    foldlM_completing hauto hfold
  have hget := withApproved_get db isApproved
  refine ⟨⟨?_, foldlM_instances hauto hfold hright.instances⟩, hcompl.refers ?_ hrefers.inst, ?_⟩
  · refine stepsRight_of_fits hcompl (fun x hx => ?_) (fun x hx hdecided => ?_)
      (fun id s hs hs' => ?_) fun id s hs hdone => ?_
    · obtain ⟨old, hj, hset⟩ := (hrows x).mp hx
      obtain ⟨v, hv, heq⟩ := Option.map_eq_some_iff.mp hset
      show (db.withApproved isApproved).get x.1 = _
      rw [hget, hj, hv, ← heq]
      rfl
    · obtain ⟨old, hj, hset⟩ := (hrows x).mp hx
      obtain ⟨v, hv, heq⟩ := Option.map_eq_some_iff.mp hset
      have hx' : x = (x.1, { old with isApproved := v }) := Prod.ext rfl heq.symm
      rw [hx'] at hdecided ⊢
      exact (hallowed x.1 old v hj hv).2 hdecided
    · -- all items were decided, and still are
      obtain ⟨⟨j, old, hj, hstep⟩, hall⟩ := (hright.steps id s hs).mp hs'
      refine ⟨⟨j, _, withApproved_of_some hj, hstep⟩, fun j y hy hstep => ?_⟩
      obtain ⟨old, hj, rfl⟩ := Option.map_eq_some_iff.mp ((hget j).symm.trans hy)
      have hdecided := hall j old hj hstep
      dsimp only
      rwa [withApproved_kept hallowed himmutable hj hdecided]
    · -- some item is decided now that was not, or the step was completed before
      by_cases hbefore : db.StepDone id
      · exact .inl ((hright.steps id s hs).mpr hbefore)
      obtain ⟨⟨j, y, hy, hstep⟩, hall⟩ := hdone
      obtain ⟨old, hj, rfl⟩ := Option.map_eq_some_iff.mp ((hget j).symm.trans hy)
      have hsome : ∃ j old, db.approvalInstanceItem.get j = some old ∧
          old.approvalInstanceStepId = id ∧ old.isApproved = none := by
        by_contra hno
        refine hbefore ⟨⟨j, old, hj, hstep⟩, fun j old hj hstep hnone => ?_⟩
        exact hno ⟨j, old, hj, hstep, hnone⟩
      obtain ⟨j, old, hj, hstep, hnone⟩ := hsome
      have hdecided := hall j _ (withApproved_of_some hj) hstep
      cases hv : isApproved j with
      | none =>
        rw [hv] at hdecided
        exact absurd hnone hdecided
      | some v =>
        refine .inr ⟨(j, { old with isApproved := v }), (hrows _).mpr ⟨old, hj, ?_⟩, hstep, ?_⟩
        · simp [setApproved, hv]
        · rw [hv] at hdecided
          exact hdecided
  · intro j y hy
    obtain ⟨old, hj, rfl⟩ := Option.map_eq_some_iff.mp ((hget j).symm.trans hy)
    exact hrefers.step j old hj
  · intro j old b hj hb
    rw [hcompl.item]
    refine ⟨_, withApproved_of_some hj, ?_⟩
    rw [← hb]
    exact withApproved_kept hallowed himmutable hj (by simp [hb])

/-! ## Inserted instances and steps -/

theorem insertInstance_right {row : ApprovalInstance} (hend : row.approvalEnd = none)
    (h : insertInstance id row db = .ok db') :
    Right db' ∧ Refers db' ∧ Kept db db' := by
  unfold insertInstance at h
  simp only [bind_eq_ok, pure_eq_ok] at h
  obtain ⟨t, ht, rfl⟩ := h
  have hget := Table.get_insertAt ht
  have hnone := (Table.insertAt_ok ht).2.2
  refine ⟨⟨hright.steps, fun k i hi => ?_⟩, ⟨hrefers.step, fun j s hs => ?_⟩, Kept.refl _⟩
  · rw [hget] at hi
    split at hi
    next hk =>
      -- no step refers to the new instance yet
      obtain rfl := Option.some.inj hi
      refine iff_of_false (fun h => h hend) fun hdone => ?_
      obtain ⟨⟨j, s, hs, hinst⟩, -⟩ := hdone
      exact hrefers.inst j s hs (by rw [hinst, hk]; exact hnone)
    next hk => exact hright.instances k i hi
  · rw [hget]
    split
    · exact Option.some_ne_none _
    · exact hrefers.inst j s hs

theorem insertStep_right {row : ApprovalInstanceStep} (hallowed : Allowed db (.insertStep id row))
    (h : insertStep id row db = .ok db') :
    Right db' ∧ Refers db' ∧ Kept db db' := by
  unfold insertStep at h
  simp only [bind_eq_ok, raiseIf_eq_ok, exists_const, pure_eq_ok] at h
  obtain ⟨t, ht, hinst, rfl⟩ := h
  obtain ⟨hfalse, hend⟩ := hallowed
  have hget := Table.get_insertAt ht
  have hnone := (Table.insertAt_ok ht).2.2
  refine ⟨⟨fun k s hs => ?_, fun k i hi => ?_⟩, ⟨fun j x hx => ?_, fun j s hs => ?_⟩, Kept.refl _⟩
  · rw [hget] at hs
    split at hs
    next hk =>
      -- no item refers to the new step yet
      obtain rfl := Option.some.inj hs
      refine iff_of_false (by simp [hfalse]) fun hdone => ?_
      obtain ⟨⟨j, x, hx, hstep⟩, -⟩ := hdone
      exact hrefers.step j x hx (by rw [hstep, hk]; exact hnone)
    next hk => exact hright.steps k s hs
  · have hsteps : ∀ j s, t.get j = some s ↔
        j = id ∧ s = row ∨ db.approvalInstanceStep.get j = some s := by
      intro j s
      rw [hget]
      by_cases hj : j = id
      · subst hj
        simp [hnone, eq_comm]
      · simp [hj]
    by_cases hk : k = row.approvalInstanceId
    · subst hk
      refine iff_of_false (fun h => h (hend i hi)) fun hdone => ?_
      have := hdone.2 id row ((hsteps id row).mpr (.inl ⟨rfl, rfl⟩)) rfl
      rw [hfalse] at this
      cases this
    · rw [hright.instances k i hi]
      have hother : ∀ j s, s.approvalInstanceId = k →
          (t.get j = some s ↔ db.approvalInstanceStep.get j = some s) := by
        intro j s hs
        rw [hsteps]
        refine or_iff_right fun h => hk ?_
        rw [← hs, h.2]
      constructor
      · rintro ⟨⟨j, s, hs, hinst⟩, hall⟩
        exact ⟨⟨j, s, (hother j s hinst).mpr hs, hinst⟩, fun j s hs hinst =>
          hall j s ((hother j s hinst).mp hs) hinst⟩
      · rintro ⟨⟨j, s, hs, hinst⟩, hall⟩
        exact ⟨⟨j, s, (hother j s hinst).mp hs, hinst⟩, fun j s hs hinst =>
          hall j s ((hother j s hinst).mpr hs) hinst⟩
  · rw [hget]
    split
    · exact Option.some_ne_none _
    · exact hrefers.step j x hx
  · rw [hget] at hs
    split at hs
    · obtain rfl := Option.some.inj hs
      exact hinst
    · exact hrefers.inst j s hs

/-! ## Runs -/

theorem execute_right {st : Statement} (hallowed : Allowed db st) (h : execute db st = .ok db') :
    Right db' ∧ Refers db' ∧ Kept db db' := by
  cases st with
  | insertInstance id row => exact insertInstance_right hright hrefers hallowed h
  | insertStep id row => exact insertStep_right hright hrefers hallowed h
  | insertItems now rows => exact insertItems_right hright hrefers hallowed h
  | updateApproved now isApproved => exact updateApproved_right hright hrefers hallowed h

theorem step_right {st : Statement} (hallowed : Allowed db st) :
    Right (step db st) ∧ Refers (step db st) ∧ Kept db (step db st) := by
  unfold step
  split
  next db' h => exact execute_right hright hrefers hallowed h
  next => exact ⟨hright, hrefers, Kept.refl db⟩

theorem run_right {l : List Statement} (hallowed : AllSteps step Allowed db l) :
    Right (run step db l) ∧ Refers (run step db l) ∧ Kept db (run step db l) := by
  induction l generalizing db with
  | nil => exact ⟨hright, hrefers, Kept.refl db⟩
  | cons st l ih =>
    obtain ⟨hright', hrefers', hkept⟩ := step_right hright hrefers hallowed.1
    obtain ⟨hright'', hrefers'', hkept'⟩ := ih hright' hrefers' hallowed.2
    exact ⟨hright'', hrefers'', hkept.trans hkept'⟩

end

/-- **Completion.**  In every run of allowed statements from a right state, steps are completed and
instances ended exactly when they are done, in every state reached, and no decision is changed or
taken back. -/
theorem completion_run {l : List Statement} (hright : Right db) (hrefers : Refers db)
    (hallowed : AllSteps step Allowed db l) {l' : List Statement} (hl' : l' <+: l) :
    Right (run step db l') ∧ Kept (run step db l') (run step db l) := by
  obtain ⟨rest, rfl⟩ := hl'
  obtain ⟨hpre, hrest⟩ := AllSteps.append.mp hallowed
  obtain ⟨hright', hrefers', -⟩ := run_right hright hrefers hpre
  rw [run_append]
  exact ⟨hright', (run_right hright' hrefers' hrest).2.2⟩

/-- A state with one link and nothing else. -/
def oneLink : Db where
  approvalInstance := .empty
  approvalInstanceStep := .empty
  approvalInstanceLink := ⟨[(1, ⟨some 1, none⟩)], 2, by decide⟩
  approvalInstanceItem := .empty

theorem oneLink_right : Right oneLink ∧ Refers oneLink := by
  refine ⟨⟨fun _ _ h => ?_, fun _ _ h => ?_⟩, ⟨fun _ _ h => ?_, fun _ _ h => ?_⟩⟩ <;> cases h

def openItem : ApprovalInstanceItem where
  approvalInstanceLinkId := 1
  approvalInstanceStepId := 1
  nextApprovalInstanceItemId := none
  approvedCategory := "position_title"
  approvedLabel := none
  approvedLhs := none
  approvedRhs := none
  isApproved := none
  approvedAccountId := none

/-- An instance with one step, and items in it. -/
def started (items : List (ℕ × ApprovalInstanceItem)) : List Statement :=
  [.insertInstance 1 ⟨some 1, "2024 q1", none, 0, none⟩,
    .insertStep 1 ⟨1, 1, "manager", 9, "account", none, 0, none, 10, false⟩,
    .insertItems 0 items]

def approveFirst : Statement := .updateApproved 5 fun id => if id = 1 then some (some true) else none

/-- A step with one item. -/
theorem completion_run_one :
    Right (run step oneLink (started [(1, openItem)] ++ [approveFirst])) := by
  refine (completion_run (l := started [(1, openItem)] ++ [approveFirst]) oneLink_right.1
    oneLink_right.2 ⟨rfl, ⟨rfl, fun i hi => ?_⟩, fun x hx hdecided => ?_, ?_, trivial⟩
    List.prefix_rfl).1
  · obtain rfl := Option.some.inj hi
    rfl
  · obtain rfl := List.mem_singleton.mp hx
    exact absurd rfl hdecided
  · intro id row v hrow hv
    have hmem : (id, row) ∈ [(1, openItem)] := Table.get_eq_some.mp hrow
    obtain ⟨rfl, rfl⟩ := Prod.mk.inj (List.mem_singleton.mp hmem)
    refine ⟨fun h => absurd rfl h, fun _ => .inl fun j y hy _ => ?_⟩
    have hy' := Table.get_eq_some.mp hy
    exact (Prod.mk.inj (List.mem_singleton.mp hy')).1

/-- A step with two items is completed with the decision on the first one. -/
theorem half_decided : (Right oneLink ∧ Refers oneLink) ∧
    ¬ Right (run step oneLink (started [(1, openItem), (2, openItem)] ++ [approveFirst])) := by
  refine ⟨oneLink_right, fun hright => ?_⟩
  obtain ⟨s, hs, hs'⟩ := Option.map_eq_some_iff.mp (show ((run step oneLink
    (started [(1, openItem), (2, openItem)] ++ [approveFirst])).approvalInstanceStep.get 1).map
      (·.isCompleted) = some true by decide)
  have hdone := (hright.steps 1 s hs).mp hs'
  exact hdone.2 2 openItem rfl rfl rfl

end JazzHands.Approval

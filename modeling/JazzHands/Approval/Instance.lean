import Mathlib.Data.Int.Notation
import JazzHands.Postgres.RowEvent
import JazzHands.Postgres.Table

/-!
# Approval instances, steps and items

The tables `approval_instance`, `approval_instance_step`, `approval_instance_link` and
`approval_instance_item`, and the triggers of `create_approval_triggers.sql`.

Columns that no function here reads or fills are left out, and so are the keys to tables that are
not here.  The triggers `FOR EACH ROW` of a statement that are fired `AFTER` it see all its rows.
-/

namespace JazzHands.Approval

open Postgres

/-! ## The tables -/

structure ApprovalInstance where
  approvalProcessId : Option ℕ
  approvalInstanceName : String
  description : Option String
  approvalStart : ℤ
  approvalEnd : Option ℤ

structure ApprovalInstanceStep where
  approvalInstanceId : ℕ
  approvalProcessChainId : ℕ
  approvalInstanceStepName : String
  approvalInstanceStepDue : ℤ
  approvalType : String
  description : Option String
  approvalInstanceStepStart : ℤ
  approvalInstanceStepEnd : Option ℤ
  approverAccountId : ℕ
  isCompleted : Bool

structure ApprovalInstanceLink where
  acctCollectionAcctSeqId : Option ℕ
  personCompanySeqId : Option ℕ

structure ApprovalInstanceItem where
  approvalInstanceLinkId : ℕ
  approvalInstanceStepId : ℕ
  nextApprovalInstanceItemId : Option ℕ
  approvedCategory : String
  approvedLabel : Option String
  approvedLhs : Option String
  approvedRhs : Option String
  isApproved : Option Bool
  approvedAccountId : Option ℕ

structure Db where
  approvalInstance : Table ApprovalInstance
  approvalInstanceStep : Table ApprovalInstanceStep
  approvalInstanceLink : Table ApprovalInstanceLink
  approvalInstanceItem : Table ApprovalInstanceItem

def Db.itemsOf (db : Db) (approvalInstanceStepId : ℕ) : List (ℕ × ApprovalInstanceItem) :=
  db.approvalInstanceItem.rows.filter (·.2.approvalInstanceStepId = approvalInstanceStepId)

def Db.stepsOf (db : Db) (approvalInstanceId : ℕ) : List (ℕ × ApprovalInstanceStep) :=
  db.approvalInstanceStep.rows.filter (·.2.approvalInstanceId = approvalInstanceId)

/-! ## The triggers -/

def approvalInstanceStepResolveInstance (now : ℤ) (new : ApprovalInstanceStep) (db : Db) : Db :=
  let tally := ((db.stepsOf new.approvalInstanceId).filter (·.2.isCompleted = false)).length
  if tally = 0 then
    { db with approvalInstance := db.approvalInstance.update new.approvalInstanceId fun i =>
        { i with approvalEnd := some now } }
  else db

def approvalInstanceStepCompletedImmutable (old new : ApprovalInstanceStep) : Result Unit :=
  raiseIf (old.isCompleted = true ∧ new.isCompleted = false) .raiseException
    "Approval completion may not be reverted"

/-- `UPDATE approval_instance_step SET is_completed = true, approval_instance_step_end = now()`. -/
def completeStep (now : ℤ) (approvalInstanceStepId : ℕ) (db : Db) : Result Db :=
  match db.approvalInstanceStep.get approvalInstanceStepId with
  | none => .ok db
  | some old => do
    let new := { old with isCompleted := true, approvalInstanceStepEnd := some now }
    approvalInstanceStepCompletedImmutable old new
    pure (approvalInstanceStepResolveInstance now new
      { db with
        approvalInstanceStep :=
          db.approvalInstanceStep.update approvalInstanceStepId fun _ => new })

/-- The other items of the step that are decided. -/
def Db.decidedBeside (db : Db) (new : ℕ × ApprovalInstanceItem) :
    List (ℕ × ApprovalInstanceItem) :=
  (db.itemsOf new.2.approvalInstanceStepId).filter fun x => x.1 ≠ new.1 ∧ x.2.isApproved ≠ none

/-- `approval_instance_step_auto_complete`, for a row that is written. -/
def approvalInstanceStepAutoComplete (now : ℤ) (new : ℕ × ApprovalInstanceItem) (db : Db) :
    Result Db :=
  if new.2.isApproved ≠ none then
    let tally := (db.decidedBeside new).length
    if tally = 0 then completeStep now new.2.approvalInstanceStepId db else .ok db
  else .ok db

/-- What `approval_instance_step_auto_complete` checks when `TG_OP` is INSERT. -/
def approvalInstanceStepOpen (new : ApprovalInstanceItem) (db : Db) : Result Unit :=
  let tally := ((db.approvalInstanceStep.get new.approvalInstanceStepId).filter
    (·.isCompleted = true)).toList.length
  raiseIf (0 < tally) .raiseException "Completed attestation cycles may not have items added"

def approvalInstanceItemApprovedImmutable (old new : ApprovalInstanceItem) : Result Unit :=
  match old.isApproved, new.isApproved with
  | some a, some b => raiseIf (a ≠ b) .raiseException "Approval may not be changed"
  | _, _ => .ok ()

/-! ## The statements -/

def insertInstance (id : ℕ) (row : ApprovalInstance) (db : Db) : Result Db := do
  let t ← db.approvalInstance.insertAt id row
  pure { db with approvalInstance := t }

def insertStep (id : ℕ) (row : ApprovalInstanceStep) (db : Db) : Result Db := do
  let t ← db.approvalInstanceStep.insertAt id row
  raiseIf (db.approvalInstance.get row.approvalInstanceId = none) .foreignKeyViolation
    "violates foreign key constraint fk_app_inst_step_apinstid"
  pure { db with approvalInstanceStep := t }

/-- The triggers that an inserted item fires: those of its keys, and
`approval_instance_step_auto_complete`. -/
def itemInserted (now : ℤ) (db : Db) (new : ℕ × ApprovalInstanceItem) : Result Db := do
  raiseIf (db.approvalInstanceStep.get new.2.approvalInstanceStepId = none) .foreignKeyViolation
    "violates foreign key constraint fk_appinstitem_appinststep"
  raiseIf (db.approvalInstanceLink.get new.2.approvalInstanceLinkId = none) .foreignKeyViolation
    "violates foreign key constraint fk_app_inst_item_appinstlinkid"
  approvalInstanceStepOpen new.2 db
  approvalInstanceStepAutoComplete now new db

/-- `INSERT INTO approval_instance_item`, of any number of rows. -/
def insertItems (now : ℤ) (rows : List (ℕ × ApprovalInstanceItem)) (db : Db) : Result Db := do
  let t ← rows.foldlM (fun t x => t.insertAt x.1 x.2) db.approvalInstanceItem
  rows.foldlM (itemInserted now) { db with approvalInstanceItem := t }

/-- `UPDATE approval_instance_item` with `is_approved` among its columns: `set` gives the new row
where the condition holds. -/
def updateItems (now : ℤ) (set : ℕ → ApprovalInstanceItem → Option ApprovalInstanceItem) (db : Db) :
    Result Db := do
  let rows := db.approvalInstanceItem.rows.filterMap fun x => (set x.1 x.2).map fun new => (x, new)
  rows.forM fun x => approvalInstanceItemApprovedImmutable x.1.2 x.2
  rows.foldlM (fun db x => approvalInstanceStepAutoComplete now (x.1.1, x.2) db)
    { db with
      approvalInstanceItem := db.approvalInstanceItem.modify fun id row => (set id row).getD row }

/-- `INSERT INTO approval_instance ... RETURNING *`. -/
def newInstance (row : ApprovalInstance) (db : Db) : Result ((ℕ × ApprovalInstance) × Db) := do
  let r ← db.approvalInstance.insert row
  pure ((r.1, row), { db with approvalInstance := r.2 })

/-- `INSERT INTO approval_instance_step ... RETURNING *`. -/
def newStep (row : ApprovalInstanceStep) (db : Db) :
    Result ((ℕ × ApprovalInstanceStep) × Db) := do
  let r ← db.approvalInstanceStep.insert row
  raiseIf (db.approvalInstance.get row.approvalInstanceId = none) .foreignKeyViolation
    "violates foreign key constraint fk_app_inst_step_apinstid"
  pure ((r.1, row), { db with approvalInstanceStep := r.2 })

/-- `INSERT INTO approval_instance_link ... RETURNING *`. -/
def newLink (row : ApprovalInstanceLink) (db : Db) :
    Result ((ℕ × ApprovalInstanceLink) × Db) := do
  let r ← db.approvalInstanceLink.insert row
  pure ((r.1, row), { db with approvalInstanceLink := r.2 })

/-- `INSERT INTO approval_instance_item ... RETURNING *`. -/
def newItem (now : ℤ) (row : ApprovalInstanceItem) (db : Db) :
    Result ((ℕ × ApprovalInstanceItem) × Db) := do
  let r ← db.approvalInstanceItem.insert row
  let db ← itemInserted now { db with approvalInstanceItem := r.2 } (r.1, row)
  pure ((r.1, row), db)

section New

variable {db db' : Db} {now : ℤ}

theorem newInstance_ok {row : ApprovalInstance} {x : ℕ × ApprovalInstance}
    (h : newInstance row db = .ok (x, db')) :
    x.2 = row ∧ ∃ t, db.approvalInstance.insert row = .ok (x.1, t) ∧
      db' = { db with approvalInstance := t } := by
  unfold newInstance at h
  rw [bind_eq_ok] at h
  obtain ⟨r, hr, h⟩ := h
  rw [pure_eq_ok] at h
  cases h
  exact ⟨rfl, r.2, hr, rfl⟩

theorem newStep_ok {row : ApprovalInstanceStep} {x : ℕ × ApprovalInstanceStep}
    (h : newStep row db = .ok (x, db')) :
    x.2 = row ∧ ∃ t, db.approvalInstanceStep.insert row = .ok (x.1, t) ∧
      db' = { db with approvalInstanceStep := t } := by
  unfold newStep at h
  rw [bind_eq_ok] at h
  obtain ⟨r, hr, h⟩ := h
  rw [bind_unit_eq_ok, pure_eq_ok] at h
  obtain ⟨-, h⟩ := h
  cases h
  exact ⟨rfl, r.2, hr, rfl⟩

theorem newLink_ok {row : ApprovalInstanceLink} {x : ℕ × ApprovalInstanceLink}
    (h : newLink row db = .ok (x, db')) :
    x.2 = row ∧ ∃ t, db.approvalInstanceLink.insert row = .ok (x.1, t) ∧
      db' = { db with approvalInstanceLink := t } := by
  unfold newLink at h
  rw [bind_eq_ok] at h
  obtain ⟨r, hr, h⟩ := h
  rw [pure_eq_ok] at h
  cases h
  exact ⟨rfl, r.2, hr, rfl⟩

theorem itemInserted_undecided {new : ℕ × ApprovalInstanceItem} (hnew : new.2.isApproved = none)
    (h : itemInserted now db new = .ok db') : db' = db := by
  unfold itemInserted at h
  simp only [bind_unit_eq_ok] at h
  obtain ⟨-, -, -, h⟩ := h
  unfold approvalInstanceStepAutoComplete at h
  rw [if_neg (not_not.mpr hnew)] at h
  exact (Except.ok.inj h).symm

theorem newItem_ok {row : ApprovalInstanceItem} {x : ℕ × ApprovalInstanceItem}
    (hrow : row.isApproved = none) (h : newItem now row db = .ok (x, db')) :
    x.2 = row ∧ ∃ t, db.approvalInstanceItem.insert row = .ok (x.1, t) ∧
      db' = { db with approvalInstanceItem := t } := by
  unfold newItem at h
  rw [bind_eq_ok] at h
  obtain ⟨r, hr, h⟩ := h
  rw [bind_eq_ok] at h
  obtain ⟨db₁, h₁, h⟩ := h
  rw [pure_eq_ok] at h
  cases h
  exact ⟨rfl, r.2, hr, itemInserted_undecided hrow h₁⟩

theorem newStep_avoids {row : ApprovalInstanceStep} :
    Avoids .invalidName (newStep row db) := by
  unfold newStep
  exact (Table.insert_avoids (by decide)).bind fun _ _ =>
    (avoids_raiseIf (by decide)).bind fun _ _ => avoids_ok

theorem newLink_avoids {row : ApprovalInstanceLink} :
    Avoids .invalidName (newLink row db) := by
  unfold newLink
  exact (Table.insert_avoids (by decide)).bind fun _ _ => avoids_ok

theorem newItem_avoids {row : ApprovalInstanceItem} (hrow : row.isApproved = none) :
    Avoids .invalidName (newItem now row db) := by
  unfold newItem itemInserted
  refine (Table.insert_avoids (by decide)).bind fun _ _ => Avoids.bind ?_ fun _ _ => avoids_ok
  refine (avoids_raiseIf (by decide)).bind fun _ _ => (avoids_raiseIf (by decide)).bind fun _ _ => ?_
  refine (avoids_raiseIf (by decide)).bind fun _ _ => ?_
  unfold approvalInstanceStepAutoComplete
  rw [if_neg (not_not.mpr hrow)]
  exact avoids_ok

end New

/-! ## Due dates -/

def day : ℤ := 86400

/-- `to_char(t, 'D')`: the day of the week, from 1 for Sunday.  Time is in seconds from 2000-01-01,
a Saturday. -/
def dayOfWeek (t : ℤ) : ℤ := (t / day + 6) % 7 + 1

/-- `date_trunc('day', t)`. -/
def truncDay (t : ℤ) : ℤ := t / day * day

/-- `approval_utils.calculate_due_date`.  `addPeriod` adds `response_period` to a time. -/
def calculateDueDate (addPeriod : ℤ → ℤ) (fromWhen : ℤ) : ℤ :=
  let due := addPeriod fromWhen
  truncDay (if dayOfWeek due = 1 then due + day
    else if dayOfWeek due = 7 then due + 2 * day
    else due) + day - 1

/-- A due date that goes into `approval_instance_step_due`: a period that is NULL gives no date.
`interval` casts a text, and adds its result to a time. -/
def dueDate (interval : String → Option (ℤ → ℤ)) (now : ℤ) (responsePeriod : Option String) :
    Result ℤ :=
  match responsePeriod with
  | none => raise .notNullViolation
      "null value in column approval_instance_step_due violates not-null constraint"
  | some p =>
    match interval p with
    | none => raise .invalidDatetimeFormat "invalid input syntax for type interval"
    | some addPeriod => .ok (calculateDueDate addPeriod now)

theorem dayOfWeek_truncDay (t : ℤ) : dayOfWeek (truncDay t + day - 1) = dayOfWeek t := by
  unfold dayOfWeek truncDay day
  omega

/-- A due date is never on a Sunday or a Saturday. -/
theorem calculateDueDate_weekday (addPeriod : ℤ → ℤ) (fromWhen : ℤ) :
    dayOfWeek (calculateDueDate addPeriod fromWhen) ≠ 1 ∧
      dayOfWeek (calculateDueDate addPeriod fromWhen) ≠ 7 := by
  unfold calculateDueDate
  dsimp only
  rw [dayOfWeek_truncDay]
  split
  next hsun =>
    unfold dayOfWeek day at hsun ⊢
    omega
  next hsun =>
    split
    next hsat =>
      unfold dayOfWeek day at hsat ⊢
      omega
    next hsat => exact ⟨hsun, hsat⟩

end JazzHands.Approval

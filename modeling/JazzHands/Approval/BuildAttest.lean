import Mathlib.Data.Int.Order.Basic
import Mathlib.Data.List.Perm.Basic
import Mathlib.Data.Option.Basic
import Mathlib.Data.Prod.Basic
import JazzHands.Approval.Instance
import JazzHands.Library.Destutter

/-!
# The start of attestations

`approval_utils.build_attest` goes once through the rows of the attestation view and makes the
instances, steps and items for them.
-/

namespace JazzHands.Approval

open Postgres Library

/-! ## The view -/

/-- The two values of `audit_table`. -/
inductive AuditTable where
  | accountCollectionAccount
  | personCompany

/-- A time that may be `-infinity`. -/
inductive Timestamp where
  | negInfinity
  | finite (t : ℤ)

/-- The comparison with a time. -/
def Timestamp.Before (begins : Timestamp) (nowish : ℤ) : Prop :=
  match begins with
  | .negInfinity => True
  | .finite t => t < nowish

instance (begins : Timestamp) (nowish : ℤ) : Decidable (begins.Before nowish) :=
  match begins with
  | .negInfinity => inferInstanceAs (Decidable True)
  | .finite t => inferInstanceAs (Decidable (t < nowish))

/-- A row of `v_account_collection_approval_process`. -/
structure ProcessRow where
  accountId : ℕ
  personId : ℕ
  managerAccountId : ℕ
  managerLogin : String
  auditTable : AuditTable
  auditSeqId : ℕ
  approvalProcessId : ℕ
  approvalProcessChainId : ℕ
  approvingEntity : Option String
  approvalProcessDescription : Option String
  approvalChainDescription : Option String
  approvalResponsePeriod : Option String
  currentAttestationName : String
  /-- NULL without an offset, and `-infinity` without a frequency. -/
  currentAttestationBegins : Option Timestamp
  approvalProcessChainName : String
  approvalCategory : String
  approvalLabel : Option String
  approvalLhs : Option String
  approvalRhs : Option String

/-- The process and the approver of a row. -/
def ProcessRow.group (row : ProcessRow) : ℕ × ℕ := (row.approvalProcessId, row.managerAccountId)

/-- The condition of the query: `NOT IN`, where an instance without a process leaves it open whether
a row of its name is there. -/
def Db.Due (db : Db) (nowish : ℤ) (row : ProcessRow) : Prop :=
  (∀ x ∈ db.approvalInstance.rows, x.2.approvalInstanceName ≠ row.currentAttestationName ∨
    ∃ p ∈ x.2.approvalProcessId, p ≠ row.approvalProcessId) ∧
  ∃ begins ∈ row.currentAttestationBegins, begins.Before nowish
  deriving Decidable

/-! ## The loop -/

/-- The variables `ai`, `ais` and `tally`. -/
structure Loop where
  db : Db
  ai : Option (ℕ × ApprovalInstance)
  ais : Option (ℕ × ApprovalInstanceStep)
  tally : ℕ

def Loop.start (db : Db) : Loop := ⟨db, none, none, 0⟩

def instanceOf (now : ℤ) (row : ProcessRow) : ApprovalInstance where
  approvalProcessId := some row.approvalProcessId
  approvalInstanceName := row.currentAttestationName
  description := row.approvalProcessDescription
  approvalStart := now
  approvalEnd := none

def stepOf (now due : ℤ) (row : ProcessRow) (approvalInstanceId : ℕ) : ApprovalInstanceStep where
  approvalInstanceId := approvalInstanceId
  approvalProcessChainId := row.approvalProcessChainId
  approvalInstanceStepName := row.approvalProcessChainName
  approvalInstanceStepDue := due
  approvalType := "account"
  description := some (row.approvalChainDescription.getD "" ++ " - " ++ row.managerLogin)
  approvalInstanceStepStart := now
  approvalInstanceStepEnd := none
  approverAccountId := row.managerAccountId
  isCompleted := false

def linkOf (row : ProcessRow) : ApprovalInstanceLink :=
  match row.auditTable with
  | .accountCollectionAccount => ⟨some row.auditSeqId, none⟩
  | .personCompany => ⟨none, some row.auditSeqId⟩

def itemOf (row : ProcessRow) (approvalInstanceLinkId approvalInstanceStepId : ℕ) :
    ApprovalInstanceItem where
  approvalInstanceLinkId := approvalInstanceLinkId
  approvalInstanceStepId := approvalInstanceStepId
  nextApprovalInstanceItemId := none
  approvedCategory := row.approvalCategory
  approvedLabel := row.approvalLabel
  approvedLhs := row.approvalLhs
  approvedRhs := row.approvalRhs
  isApproved := none
  approvedAccountId := none

/-- `ai`, with a new instance when the row has another process. -/
def currentInstance (now : ℤ) (row : ProcessRow) (st : Loop) :
    Result ((ℕ × ApprovalInstance) × Db) :=
  match st.ai with
  | none => newInstance (instanceOf now row) st.db
  | some ai =>
    if ai.2.approvalProcessId = some row.approvalProcessId then .ok (ai, st.db)
    else newInstance (instanceOf now row) st.db

/-- `ais`, with a new step when the row has another approver. -/
def currentStep (interval : String → Option (ℤ → ℤ)) (now : ℤ) (row : ProcessRow)
    (approvalInstanceId : ℕ) (ais : Option (ℕ × ApprovalInstanceStep)) (db : Db) :
    Result ((ℕ × ApprovalInstanceStep) × Db) :=
  match ais with
  | none => do
    let due ← dueDate interval now row.approvalResponsePeriod
    newStep (stepOf now due row approvalInstanceId) db
  | some ais =>
    if ais.2.approverAccountId = row.managerAccountId then .ok (ais, db)
    else do
      let due ← dueDate interval now row.approvalResponsePeriod
      newStep (stepOf now due row approvalInstanceId) db

def attestRow (interval : String → Option (ℤ → ℤ)) (now : ℤ) (st : Loop) (row : ProcessRow) :
    Result Loop := do
  raiseIf (∃ e ∈ row.approvingEntity, e ≠ "manager") .raiseException
    "Do not know how to process approving entity %"
  let ai ← currentInstance now row st
  let ais ← currentStep interval now row ai.1.1 st.ais ai.2
  let ail ← newLink (linkOf row) ais.2
  let aii ← newItem now (itemOf row ail.1.1 ais.1.1) ail.2
  pure {
    db := { aii.2 with
      approvalInstanceStep := aii.2.approvalInstanceStep.update ais.1.1 fun s =>
        { s with approvalInstanceId := ai.1.1 } }
    ai := some ai.1
    ais := some ais.1
    tally := st.tally + 1 }

/-- `approval_utils.build_attest`.  `view` has the rows of the view, in any order. -/
def buildAttest (interval : String → Option (ℤ → ℤ)) (now nowish : ℤ) (view : List ProcessRow)
    (db : Db) : Result (ℕ × Db) := do
  let st ← (view.filter (db.Due nowish)).foldlM (attestRow interval now) (Loop.start db)
  pure (st.tally, st.db)

/-! ## One round -/

variable {interval : String → Option (ℤ → ℤ)} {now nowish : ℤ} {db db' : Db} {st st' : Loop}
  {row : ProcessRow} {rows view : List ProcessRow} {ai : ℕ × ApprovalInstance}
  {ais : ℕ × ApprovalInstanceStep} {ail aii tally : ℕ}

/-- What a round has done, with the values of `ai` and `ais` after it, and the keys of the link and
of the item. -/
structure Round (row : ProcessRow) (st st' : Loop) (ai : ℕ × ApprovalInstance)
    (ais : ℕ × ApprovalInstanceStep) (ail aii : ℕ) : Prop where
  newAi : st'.ai = some ai
  process : ai.2.approvalProcessId = some row.approvalProcessId
  inst : st.ai = some ai ∧ st'.db.approvalInstance = st.db.approvalInstance ∨
    st.ai.bind (·.2.approvalProcessId) ≠ some row.approvalProcessId ∧
      st.db.approvalInstance.insert ai.2 = .ok (ai.1, st'.db.approvalInstance)
  newAis : st'.ais = some ais
  approver : ais.2.approverAccountId = row.managerAccountId
  step : ∃ t, st'.db.approvalInstanceStep =
      t.update ais.1 (fun s => { s with approvalInstanceId := ai.1 }) ∧
    (st.ais = some ais ∧ t = st.db.approvalInstanceStep ∨
      st.ais.map (·.2.approverAccountId) ≠ some row.managerAccountId ∧
        ais.2.approvalInstanceId = ai.1 ∧
        st.db.approvalInstanceStep.insert ais.2 = .ok (ais.1, t))
  link : st.db.approvalInstanceLink.insert (linkOf row) = .ok (ail, st'.db.approvalInstanceLink)
  item : st.db.approvalInstanceItem.insert (itemOf row ail ais.1) =
    .ok (aii, st'.db.approvalInstanceItem)

theorem currentInstance_ok (h : currentInstance now row st = .ok (ai, db')) :
    ai.2.approvalProcessId = some row.approvalProcessId ∧
    ∃ t, db' = { st.db with approvalInstance := t } ∧
      (st.ai = some ai ∧ t = st.db.approvalInstance ∨
        st.ai.bind (·.2.approvalProcessId) ≠ some row.approvalProcessId ∧
          st.db.approvalInstance.insert ai.2 = .ok (ai.1, t)) := by
  have hnew : newInstance (instanceOf now row) st.db = .ok (ai, db') →
      st.ai.bind (·.2.approvalProcessId) ≠ some row.approvalProcessId →
      ai.2.approvalProcessId = some row.approvalProcessId ∧
      ∃ t, db' = { st.db with approvalInstance := t } ∧
        (st.ai = some ai ∧ t = st.db.approvalInstance ∨
          st.ai.bind (·.2.approvalProcessId) ≠ some row.approvalProcessId ∧
            st.db.approvalInstance.insert ai.2 = .ok (ai.1, t)) := by
    intro h hne
    obtain ⟨hai, t, ht, hdb⟩ := newInstance_ok h
    rw [← hai] at ht
    exact ⟨by rw [hai]; rfl, t, hdb, .inr ⟨hne, ht⟩⟩
  unfold currentInstance at h
  cases hst : st.ai with
  | none =>
    rw [hst] at h hnew
    exact hnew h (by simp)
  | some x =>
    rw [hst] at h hnew
    dsimp only at h
    split at h
    next heq =>
      cases h
      exact ⟨heq, st.db.approvalInstance, rfl, .inl ⟨rfl, rfl⟩⟩
    next hne => exact hnew h hne

theorem currentStep_ok {i : ℕ} {old : Option (ℕ × ApprovalInstanceStep)}
    (h : currentStep interval now row i old db = .ok (ais, db')) :
    ais.2.approverAccountId = row.managerAccountId ∧
    ∃ t, db' = { db with approvalInstanceStep := t } ∧
      (old = some ais ∧ t = db.approvalInstanceStep ∨
        old.map (·.2.approverAccountId) ≠ some row.managerAccountId ∧
          ais.2.approvalInstanceId = i ∧
          db.approvalInstanceStep.insert ais.2 = .ok (ais.1, t)) := by
  have hnew : (dueDate interval now row.approvalResponsePeriod >>= fun due =>
        newStep (stepOf now due row i) db) = .ok (ais, db') →
      old.map (·.2.approverAccountId) ≠ some row.managerAccountId →
      ais.2.approverAccountId = row.managerAccountId ∧
      ∃ t, db' = { db with approvalInstanceStep := t } ∧
        (old = some ais ∧ t = db.approvalInstanceStep ∨
          old.map (·.2.approverAccountId) ≠ some row.managerAccountId ∧
            ais.2.approvalInstanceId = i ∧
            db.approvalInstanceStep.insert ais.2 = .ok (ais.1, t)) := by
    intro h hne
    rw [bind_eq_ok] at h
    obtain ⟨due, -, h⟩ := h
    obtain ⟨hais, t, ht, hdb⟩ := newStep_ok h
    rw [← hais] at ht
    exact ⟨by rw [hais]; rfl, t, hdb, .inr ⟨hne, by rw [hais]; rfl, ht⟩⟩
  unfold currentStep at h
  cases old with
  | none => exact hnew h (by simp)
  | some x =>
    dsimp only at h
    split at h
    next heq =>
      cases h
      exact ⟨heq, db.approvalInstanceStep, rfl, .inl ⟨rfl, rfl⟩⟩
    next hne => exact hnew h (by simpa using hne)

theorem attestRow_ok (h : attestRow interval now st row = .ok st') :
    ∃ ai ais ail aii, Round row st st' ai ais ail aii := by
  unfold attestRow at h
  simp only [bind_eq_ok, pure_eq_ok] at h
  obtain ⟨-, -, ai, hai, ais, hais, ail, hail, aii, haii, rfl⟩ := h
  obtain ⟨hprocess, ti, hdbi, hinst⟩ := currentInstance_ok hai
  obtain ⟨happrover, ts, hdbs, hstep⟩ := currentStep_ok hais
  obtain ⟨-, tl, hlink, hdbl⟩ := newLink_ok hail
  obtain ⟨-, tt, hitem, hdbt⟩ := newItem_ok rfl haii
  rw [hdbl] at hitem hdbt
  rw [hdbs] at hlink hitem hdbt
  rw [hdbi] at hstep hlink hitem hdbt
  refine ⟨ai.1, ais.1, ail.1.1, aii.1.1, rfl, hprocess, ?_, rfl, happrover, ⟨ts, ?_, hstep⟩, ?_, ?_⟩
  · rw [hdbt]
    exact hinst
  · rw [hdbt]
  · rw [hdbt]
    exact hlink
  · rw [hdbt]
    exact hitem

/-- Consecutive rows with one approver have one process. -/
def Apart (a b : ProcessRow) : Prop :=
  a.managerAccountId = b.managerAccountId → a.approvalProcessId = b.approvalProcessId

instance : DecidableRel Apart := fun _ _ => inferInstanceAs (Decidable (_ → _))

/-- `ai` and `ais` are those of the last row. -/
theorem attestRows_last
    (h : rows.foldlM (attestRow interval now) (Loop.start db) = .ok st) :
    st.ai.bind (·.2.approvalProcessId) = rows.getLast?.map (·.approvalProcessId) ∧
      st.ais.map (·.2.approverAccountId) = rows.getLast?.map (·.managerAccountId) := by
  induction rows using List.reverseRecOn generalizing st with
  | nil =>
    rw [List.foldlM_nil, pure_eq_ok] at h
    subst h
    exact ⟨rfl, rfl⟩
  | append_singleton rows row =>
    rw [foldlM_concat_eq_ok] at h
    obtain ⟨st₁, -, hrow⟩ := h
    obtain ⟨ai, ais, ail, aii, hround⟩ := attestRow_ok hrow
    rw [hround.newAi, hround.newAis, List.getLast?_concat]
    exact ⟨hround.process, congrArg some hround.approver⟩

/-! ## The items -/

/-- The rows with their items: those of consecutive rows with one approver are in one step. -/
theorem attestRows_items
    (h : rows.foldlM (attestRow interval now) (Loop.start db) = .ok st) :
    ∃ made : List (ProcessRow × (ℕ × ApprovalInstanceItem)),
      made.map Prod.fst = rows ∧
      st.db.approvalInstanceItem.rows = db.approvalInstanceItem.rows ++ made.map Prod.snd ∧
      st.ais.map Prod.fst = made.getLast?.map (·.2.2.approvalInstanceStepId) ∧
      made.IsChain fun x y => x.1.managerAccountId = y.1.managerAccountId →
        x.2.2.approvalInstanceStepId = y.2.2.approvalInstanceStepId := by
  induction rows using List.reverseRecOn generalizing st with
  | nil =>
    rw [List.foldlM_nil, pure_eq_ok] at h
    subst h
    exact ⟨[], rfl, (List.append_nil _).symm, rfl, List.IsChain.nil⟩
  | append_singleton rows row ih =>
    rw [foldlM_concat_eq_ok] at h
    obtain ⟨st₁, hrows, hrow⟩ := h
    obtain ⟨made, hmade, hitems, hlast, hchain⟩ := ih hrows
    obtain ⟨-, happrover⟩ := attestRows_last hrows
    obtain ⟨ai, ais, ail, aii, hround⟩ := attestRow_ok hrow
    refine ⟨made ++ [(row, (aii, itemOf row ail ais.1))], ?_, ?_, ?_, ?_⟩
    · rw [List.map_append, hmade]
      rfl
    · obtain ⟨-, hins, -⟩ := Table.insert_ok hround.item
      rw [hins, hitems, List.map_append, List.append_assoc]
      rfl
    · rw [hround.newAis, List.getLast?_concat]
      rfl
    · refine List.isChain_append.mpr ⟨hchain, List.isChain_singleton _, ?_⟩
      intro x hx y hy hmanager
      obtain rfl : (row, (aii, itemOf row ail ais.1)) = y := Option.some.inj hy
      -- the step is the one of the last row, which has the same approver
      obtain ⟨t, -, ⟨hold, -⟩ | ⟨hnew, -⟩⟩ := hround.step
      · rw [hold, Option.mem_def.mp hx] at hlast
        exact (Option.some.inj hlast).symm
      · refine absurd ?_ hnew
        rw [happrover, ← hmade, List.getLast?_map, Option.mem_def.mp hx]
        exact congrArg some hmanager

/-! ## Right groups -/

/-- The process and the approver of a step. -/
def Db.groupOf (db : Db) (s : ApprovalInstanceStep) : Option ℕ × ℕ :=
  ((db.approvalInstance.get s.approvalInstanceId).bind (·.approvalProcessId), s.approverAccountId)

/-- The item is the one for the row, in a step of its process and approver. -/
def Db.Holds (db : Db) (steps : List (ℕ × ApprovalInstanceStep)) (row : ProcessRow)
    (x : ApprovalInstanceItem) : Prop :=
  (∃ s, (x.approvalInstanceStepId, s) ∈ steps ∧
    db.groupOf s = (some row.approvalProcessId, row.managerAccountId)) ∧
  x = itemOf row x.approvalInstanceLinkId x.approvalInstanceStepId ∧
  db.approvalInstanceLink.get x.approvalInstanceLinkId = some (linkOf row)

/-- `instances`, `steps` and the items of `made` have come in: an item for each row, in the step of
its own process and approver. -/
structure Made (db db' : Db) (rows : List ProcessRow) (instances : List (ℕ × ApprovalInstance))
    (steps : List (ℕ × ApprovalInstanceStep))
    (made : List (ProcessRow × (ℕ × ApprovalInstanceItem))) : Prop where
  inst : db'.approvalInstance.rows = db.approvalInstance.rows ++ instances
  step : db'.approvalInstanceStep.rows = db.approvalInstanceStep.rows ++ steps
  item : db'.approvalInstanceItem.rows = db.approvalInstanceItem.rows ++ made.map Prod.snd
  each : made.map Prod.fst = rows
  own : ∀ s ∈ steps, s.2.approvalInstanceId ∈ instances.map Prod.fst
  holds : ∀ x ∈ made, db'.Holds steps x.1 x.2.2

/-- The new instances are one for each process, the new steps one for each process and approver, and
the new items one for each row. -/
def Attested (db db' : Db) (rows : List ProcessRow) : Prop :=
  ∃ instances steps made, Made db db' rows instances steps made ∧
    (instances.map (·.2.approvalProcessId)).Perm
      ((rows.map (·.approvalProcessId)).dedup.map some) ∧
    (steps.map (db'.groupOf ·.2)).Perm
      ((rows.map ProcessRow.group).dedup.map (Prod.map some id))

/-- The rows of a process stand together, those of a process and an approver do, and the approver
changes with the process. -/
structure Grouped (rows : List ProcessRow) : Prop where
  processes : Together (rows.map (·.approvalProcessId))
  groups : Together (rows.map ProcessRow.group)
  apart : rows.IsChain Apart

/-- Instances and steps are those of the stretches of rows. -/
structure Built (db : Db) (rows : List ProcessRow) (st : Loop)
    (instances : List (ℕ × ApprovalInstance)) (steps : List (ℕ × ApprovalInstanceStep))
    (made : List (ProcessRow × (ℕ × ApprovalInstanceItem))) : Prop
    extends Made db st.db rows instances steps made where
  ai : st.ai = instances.getLast?
  ais : st.ais = steps.getLast?
  current : ∀ s ∈ st.ais, ∀ i ∈ st.ai, s.2.approvalInstanceId = i.1
  processes : instances.map (·.2.approvalProcessId) =
    ((rows.map (·.approvalProcessId)).destutter (· ≠ ·)).map some
  groups : steps.map (st.db.groupOf ·.2) =
    ((rows.map ProcessRow.group).destutter (· ≠ ·)).map (Prod.map some id)

section Step

variable {instances : List (ℕ × ApprovalInstance)} {steps : List (ℕ × ApprovalInstanceStep)}
  {made : List (ProcessRow × (ℕ × ApprovalInstanceItem))}

section

variable (h : Round row st st' ai ais ail aii)
include h

theorem Round.exists_instances (hbuilt : Built db rows st instances steps made)
    (hlast : st.ai.bind (·.2.approvalProcessId) = rows.getLast?.map (·.approvalProcessId)) :
    ∃ instances', st'.db.approvalInstance.rows = db.approvalInstance.rows ++ instances' ∧
      some ai = instances'.getLast? ∧ instances ⊆ instances' ∧
      instances'.map (·.2.approvalProcessId) =
        (((rows ++ [row]).map (·.approvalProcessId)).destutter (· ≠ ·)).map some := by
  have hgetLast : (rows.map (·.approvalProcessId)).getLast? =
      st.ai.bind (·.2.approvalProcessId) := by
    rw [hlast, List.getLast?_map]
  rw [List.map_append, List.map_singleton, destutter_concat, hgetLast]
  rcases h.inst with ⟨hai, hsame⟩ | ⟨hne, hins⟩
  · refine ⟨instances, ?_, ?_, List.Subset.refl _, ?_⟩
    · rw [hsame, hbuilt.inst]
    · rw [← hbuilt.ai, hai]
    · rw [hai, Option.bind_some, if_pos h.process, List.append_nil, hbuilt.processes]
  · obtain ⟨-, hrows, -⟩ := Table.insert_ok hins
    refine ⟨instances ++ [ai], ?_, ?_, List.subset_append_left _ _, ?_⟩
    · rw [hrows, hbuilt.inst, List.append_assoc]
    · rw [List.getLast?_concat]
    · rw [if_neg hne, List.map_append, List.map_append, hbuilt.processes, List.map_singleton,
        List.map_singleton, h.process]

theorem Round.get_inst {i : ℕ} {x : ApprovalInstance} (hi : st.db.approvalInstance.get i = some x) :
    st'.db.approvalInstance.get i = some x := by
  rcases h.inst with ⟨-, hsame⟩ | ⟨-, hins⟩
  · rw [hsame, hi]
  · obtain ⟨-, -, hnone⟩ := Table.insert_ok hins
    rw [Table.get_insert hins, if_neg, hi]
    rintro rfl
    rw [hnone] at hi
    cases hi

theorem Round.get_link {i : ℕ} {x : ApprovalInstanceLink}
    (hi : st.db.approvalInstanceLink.get i = some x) :
    st'.db.approvalInstanceLink.get i = some x := by
  obtain ⟨-, -, hnone⟩ := Table.insert_ok h.link
  rw [Table.get_insert h.link, if_neg, hi]
  rintro rfl
  rw [hnone] at hi
  cases hi

section

variable (hbuilt : Built db rows st instances steps made)
include hbuilt

theorem Round.groupOf {s : ℕ × ApprovalInstanceStep} (hs : s ∈ steps) :
    st'.db.groupOf s.2 = st.db.groupOf s.2 := by
  obtain ⟨i, hi, heq⟩ := List.mem_map.mp (hbuilt.own s hs)
  have hget : st.db.approvalInstance.get s.2.approvalInstanceId = some i.2 := by
    rw [Table.get_eq_some, hbuilt.inst, ← heq]
    exact List.mem_append_right _ hi
  unfold Db.groupOf
  rw [hget, h.get_inst hget]

theorem Round.exists_steps (hai : st'.db.approvalInstance.get ai.1 = some ai.2)
    (hlast : st.ai.bind (·.2.approvalProcessId) = rows.getLast?.map (·.approvalProcessId))
    (hlast' : st.ais.map (·.2.approverAccountId) = rows.getLast?.map (·.managerAccountId))
    (hapart : ∀ r ∈ rows.getLast?, Apart r row) :
    ∃ steps', st'.db.approvalInstanceStep.rows = db.approvalInstanceStep.rows ++ steps' ∧
      some ais = steps'.getLast? ∧ steps ⊆ steps' ∧ (∀ s ∈ steps', s ∈ steps ∨ s = ais) ∧
      ais.2.approvalInstanceId = ai.1 ∧
      steps'.map (st'.db.groupOf ·.2) =
        (((rows ++ [row]).map ProcessRow.group).destutter (· ≠ ·)).map (Prod.map some id) := by
  have hmap : steps.map (st'.db.groupOf ·.2) = steps.map (st.db.groupOf ·.2) :=
    List.map_congr_left fun s hs => h.groupOf hbuilt hs
  rw [List.map_append, List.map_singleton, destutter_concat, List.getLast?_map]
  obtain ⟨t, ht, ⟨hold, rfl⟩ | ⟨hne, hid, hins⟩⟩ := h.step
  · -- the last row has the approver, and with it the process
    have hlastStep : some ais = steps.getLast? := by rw [← hbuilt.ais, hold]
    have hmem : ais ∈ steps := List.mem_of_getLast? hlastStep.symm
    rw [hold, Option.map_some, eq_comm, Option.map_eq_some_iff] at hlast'
    obtain ⟨r, hr, hmanager⟩ := hlast'
    rw [h.approver] at hmanager
    have hprocess := hapart r hr hmanager
    have hsame : st.ai = some ai := by
      rcases h.inst with ⟨hsame, -⟩ | ⟨hne, -⟩
      · exact hsame
      · rw [hlast, hr] at hne
        exact absurd (congrArg some hprocess) hne
    have hid : ais.2.approvalInstanceId = ai.1 := hbuilt.current ais hold ai hsame
    refine ⟨steps, ?_, hlastStep, List.Subset.refl _, fun s hs => .inl hs, hid, ?_⟩
    · rw [ht, ← hbuilt.step]
      refine @Table.rows_update_of_get _ _ _ ais.2 _ ?_ ?_
      · rw [Table.get_eq_some, hbuilt.step]
        exact List.mem_append_right _ hmem
      · rw [← hid]
    · rw [hr, Option.map_some, if_pos, List.append_nil, hmap, hbuilt.groups]
      exact congrArg some (Prod.ext hprocess hmanager)
  · have hrows : st'.db.approvalInstanceStep.rows = st.db.approvalInstanceStep.rows ++ [ais] := by
      rw [ht, Table.rows_update_insert hins, ← hid]
    refine ⟨steps ++ [ais], ?_, ?_, List.subset_append_left _ _, ?_, hid, ?_⟩
    · rw [hrows, hbuilt.step, List.append_assoc]
    · rw [List.getLast?_concat]
    · intro s hs
      rcases List.mem_append.mp hs with hs | hs
      · exact .inl hs
      · exact .inr (List.mem_singleton.mp hs)
    · have hgroup : rows.getLast?.map ProcessRow.group ≠ some row.group := by
        intro heq
        obtain ⟨r, hr, hrow⟩ := Option.map_eq_some_iff.mp heq
        refine hne ?_
        rw [hlast', hr]
        exact congrArg some (congrArg Prod.snd hrow)
      rw [if_neg hgroup, List.map_append, List.map_append, hmap, hbuilt.groups,
        List.map_singleton, List.map_singleton]
      unfold Db.groupOf
      rw [hid, hai, Option.bind_some, h.process, h.approver]
      rfl

theorem Round.built
    (hlast : st.ai.bind (·.2.approvalProcessId) = rows.getLast?.map (·.approvalProcessId))
    (hlast' : st.ais.map (·.2.approverAccountId) = rows.getLast?.map (·.managerAccountId))
    (hapart : ∀ r ∈ rows.getLast?, Apart r row) :
    ∃ instances steps made, Built db (rows ++ [row]) st' instances steps made := by
  obtain ⟨instances', hinst, hai, hsub, hprocesses⟩ := h.exists_instances hbuilt hlast
  have hmemAi : ai ∈ instances' := List.mem_of_getLast? hai.symm
  have hgetAi : st'.db.approvalInstance.get ai.1 = some ai.2 := by
    rw [Table.get_eq_some, hinst]
    exact List.mem_append_right _ hmemAi
  obtain ⟨steps', hstep, hais, hsub', hcases, hid, hgroups⟩ :=
    h.exists_steps hbuilt hgetAi hlast hlast' hapart
  have hmemAis : ais ∈ steps' := List.mem_of_getLast? hais.symm
  refine ⟨instances', steps', made ++ [(row, (aii, itemOf row ail ais.1))],
    ⟨⟨hinst, hstep, ?_, ?_, ?_, ?_⟩, ?_, ?_, ?_, hprocesses, hgroups⟩⟩
  · obtain ⟨-, hins, -⟩ := Table.insert_ok h.item
    rw [hins, hbuilt.item, List.map_append, List.append_assoc]
    rfl
  · rw [List.map_append, hbuilt.each]
    rfl
  · intro s hs
    rcases hcases s hs with hs | rfl
    · exact List.map_subset Prod.fst hsub (hbuilt.own s hs)
    · rw [hid]
      exact List.mem_map_of_mem hmemAi
  · intro x hx
    rcases List.mem_append.mp hx with hx | hx
    · obtain ⟨⟨s, hs, hgroup⟩, hcontent, hlink⟩ := hbuilt.holds x hx
      refine ⟨⟨s, hsub' hs, ?_⟩, hcontent, h.get_link hlink⟩
      exact (h.groupOf hbuilt hs).trans hgroup
    · obtain rfl := List.mem_singleton.mp hx
      refine ⟨⟨ais.2, hmemAis, ?_⟩, rfl, ?_⟩
      · unfold Db.groupOf
        rw [hid, hgetAi, Option.bind_some, h.process, h.approver]
      · show st'.db.approvalInstanceLink.get ail = _
        rw [Table.get_insert h.link, if_pos rfl]
  · rw [h.newAi, hai]
  · rw [h.newAis, hais]
  · intro s hs i hi
    rw [h.newAis] at hs
    rw [h.newAi] at hi
    obtain rfl := Option.some.inj hs
    obtain rfl := Option.some.inj hi
    exact hid

end

end

end Step

/-- The loop keeps to the stretches, as long as the approver changes with the process. -/
theorem attestRows_built
    (h : rows.foldlM (attestRow interval now) (Loop.start db) = .ok st)
    (hapart : rows.IsChain Apart) :
    ∃ instances steps made, Built db rows st instances steps made := by
  induction rows using List.reverseRecOn generalizing st with
  | nil =>
    rw [List.foldlM_nil, pure_eq_ok] at h
    subst h
    refine ⟨[], [], [], ⟨⟨?_, ?_, ?_, rfl, ?_, ?_⟩, rfl, rfl, ?_, rfl, rfl⟩⟩
    · exact (List.append_nil _).symm
    · exact (List.append_nil _).symm
    · exact (List.append_nil _).symm
    · exact List.forall_mem_nil _
    · exact List.forall_mem_nil _
    · intro s hs
      cases hs
  | append_singleton rows row ih =>
    rw [foldlM_concat_eq_ok] at h
    obtain ⟨st₁, hrows, hrow⟩ := h
    obtain ⟨happart, -, hnext⟩ := List.isChain_append.mp hapart
    obtain ⟨instances, steps, made, hbuilt⟩ := ih hrows happart
    obtain ⟨hlast, hlast'⟩ := attestRows_last hrows
    obtain ⟨ai, ais, ail, aii, hround⟩ := attestRow_ok hrow
    exact hround.built hbuilt hlast hlast' fun r hr => hnext r hr row rfl

/-! ## Right groups, exactly -/

theorem Made.unique {instances instances' : List (ℕ × ApprovalInstance)}
    {steps steps' : List (ℕ × ApprovalInstanceStep)}
    {made made' : List (ProcessRow × (ℕ × ApprovalInstanceItem))}
    (h : Made db db' rows instances steps made) (h' : Made db db' rows instances' steps' made') :
    instances' = instances ∧ steps' = steps :=
  ⟨List.append_cancel_left (h'.inst.symm.trans h.inst),
    List.append_cancel_left (h'.step.symm.trans h.step)⟩

/-- Items that are in one step are for rows of one process. -/
theorem Made.process_eq {instances : List (ℕ × ApprovalInstance)}
    {steps : List (ℕ × ApprovalInstanceStep)}
    {made : List (ProcessRow × (ℕ × ApprovalInstanceItem))}
    {x y : ProcessRow × (ℕ × ApprovalInstanceItem)}
    (h : Made db db' rows instances steps made) (hx : x ∈ made) (hy : y ∈ made)
    (hstep : x.2.2.approvalInstanceStepId = y.2.2.approvalInstanceStepId) :
    x.1.approvalProcessId = y.1.approvalProcessId := by
  obtain ⟨⟨s, hs, hgroup⟩, -⟩ := h.holds x hx
  obtain ⟨⟨s', hs', hgroup'⟩, -⟩ := h.holds y hy
  have hget : ∀ i s, (i, s) ∈ steps → db'.approvalInstanceStep.get i = some s := by
    intro i s hs
    rw [Table.get_eq_some, h.step]
    exact List.mem_append_right _ hs
  have hsame := hget _ s hs
  rw [hstep, hget _ s' hs'] at hsame
  obtain rfl := Option.some.inj hsame
  rw [hgroup'] at hgroup
  exact (Option.some.inj (congrArg Prod.fst hgroup)).symm

/-- When the items are right, the approver changes with the process. -/
theorem Attested.apart (h : rows.foldlM (attestRow interval now) (Loop.start db) = .ok st)
    (ha : Attested db st.db rows) : rows.IsChain Apart := by
  obtain ⟨instances, steps, made, hmade, -, -⟩ := ha
  obtain ⟨made', hrows, hitems, -, hchain⟩ := attestRows_items h
  obtain rfl : made' = made := by
    have hsnd := List.append_cancel_left (hitems.symm.trans hmade.item)
    rw [← List.zip_unzip made', ← List.zip_unzip made, List.unzip_fst, List.unzip_snd,
      List.unzip_fst, List.unzip_snd, hsnd, hrows, hmade.each]
  rw [← hrows, List.isChain_map]
  refine List.isChain_iff_forall_rel_of_append_cons_cons.mpr ?_
  intro x y s t hst hmanager
  have hmem : x ∈ made' ∧ y ∈ made' := by
    rw [hst]
    simp
  exact hmade.process_eq hmem.1 hmem.2
    (List.isChain_iff_forall_rel_of_append_cons_cons.mp hchain hst hmanager)

/-- The rows that are due come out right exactly when they are grouped. -/
theorem attested_iff_grouped
    (h : buildAttest interval now nowish view db = .ok (tally, db')) :
    Attested db db' (view.filter (db.Due nowish)) ↔ Grouped (view.filter (db.Due nowish)) := by
  unfold buildAttest at h
  rw [bind_eq_ok] at h
  obtain ⟨st, hst, h⟩ := h
  rw [pure_eq_ok] at h
  cases h
  constructor
  · intro ha
    have hapart := ha.apart hst
    obtain ⟨instances, steps, made, hbuilt⟩ := attestRows_built hst hapart
    obtain ⟨instances', steps', made', hmade, hprocesses, hgroups⟩ := ha
    obtain ⟨rfl, rfl⟩ := hbuilt.toMade.unique hmade
    rw [hbuilt.processes, List.map_perm_map_iff (Option.some_injective _)] at hprocesses
    rw [hbuilt.groups, List.map_perm_map_iff
      ((Option.some_injective _).prodMap Function.injective_id)] at hgroups
    exact ⟨perm_dedup_iff.mp hprocesses, perm_dedup_iff.mp hgroups, hapart⟩
  · intro hgrouped
    obtain ⟨instances, steps, made, hbuilt⟩ := attestRows_built hst hgrouped.apart
    refine ⟨instances, steps, made, hbuilt.toMade, ?_, ?_⟩
    · rw [hbuilt.processes]
      exact (perm_dedup_iff.mpr hgrouped.processes).map some
    · rw [hbuilt.groups]
      exact (perm_dedup_iff.mpr hgrouped.groups).map _

/-! ## Examples -/

def noInstances : Db := ⟨.empty, .empty, .empty, .empty⟩

/-- The title of an account below a manager. -/
def titleRow (approvalProcessId managerAccountId auditSeqId : ℕ) : ProcessRow where
  accountId := 1
  personId := 1
  managerAccountId := managerAccountId
  managerLogin := "manager"
  auditTable := .personCompany
  auditSeqId := auditSeqId
  approvalProcessId := approvalProcessId
  approvalProcessChainId := 1
  approvingEntity := some "manager"
  approvalProcessDescription := none
  approvalChainDescription := none
  approvalResponsePeriod := some "1 week"
  currentAttestationName := "2024 q1"
  currentAttestationBegins := some .negInfinity
  approvalProcessChainName := "recertification"
  approvalCategory := "position_title"
  approvalLabel := some "Verify Position Title"
  approvalLhs := none
  approvalRhs := none

/-- `'1 week'::interval`. -/
def oneWeek : String → Option (ℤ → ℤ) := fun _ => some (· + 7 * day)

/-- Two rows of an approver and one of another. -/
def threeRows : List ProcessRow := [titleRow 1 10 1, titleRow 1 10 2, titleRow 1 20 3]

theorem attested_threeRows : ∃ r, buildAttest oneWeek 0 0 threeRows noInstances = .ok r ∧
    Attested noInstances r.2 (threeRows.filter (noInstances.Due 0)) := by
  cases h : buildAttest oneWeek 0 0 threeRows noInstances with
  | error e =>
    have hok : (buildAttest oneWeek 0 0 threeRows noInstances).isOk = true := by decide
    rw [h] at hok
    cases hok
  | ok r => exact ⟨r, rfl, (attested_iff_grouped h).mpr ⟨by decide, by decide, by decide⟩⟩

theorem Attested.length_steps (h : Attested db db' rows) :
    db'.approvalInstanceStep.rows.length =
      db.approvalInstanceStep.rows.length + (rows.map ProcessRow.group).dedup.length := by
  obtain ⟨instances, steps, made, hmade, -, hgroups⟩ := h
  have hlen := hgroups.length_eq
  rw [List.length_map, List.length_map] at hlen
  rw [hmade.step, List.length_append, hlen]

/-- Two processes of one approver. -/
def twoProcesses : List ProcessRow := [titleRow 1 10 1, titleRow 2 10 1]

/-- They get one step. -/
theorem one_step : ∃ db' tally, buildAttest oneWeek 0 0 twoProcesses noInstances = .ok (tally, db') ∧
    ¬ Attested noInstances db' (twoProcesses.filter (noInstances.Due 0)) := by
  have hrun : (buildAttest oneWeek 0 0 twoProcesses noInstances).map
      (·.2.approvalInstanceStep.rows.length) = .ok 1 := by decide
  cases hr : buildAttest oneWeek 0 0 twoProcesses noInstances with
  | error e =>
    rw [hr] at hrun
    cases hrun
  | ok r =>
    rw [hr] at hrun
    have hone : r.2.approvalInstanceStep.rows.length = 1 := Except.ok.inj hrun
    refine ⟨r.2, r.1, rfl, fun hattested => ?_⟩
    have htwo := hattested.length_steps
    rw [hone] at htwo
    exact absurd htwo (by decide)

end JazzHands.Approval

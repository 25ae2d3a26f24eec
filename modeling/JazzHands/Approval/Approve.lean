import JazzHands.Approval.BuildAttest
import JazzHands.Approval.Completion

/-!
# Decisions

`approval_utils.approve` takes the decision on an item and makes the next item of the chain.

The function and those that it calls come first, then what each of them leaves (`nextStep_ok` and so
on), and last what a whole call does.
-/

namespace JazzHands.Approval

open Postgres

/-! ## What is read -/

structure ApprovalProcessChain where
  approvalProcessChainName : String
  approvalChainResponsePeriod : Option String
  description : Option String
  approvingEntity : Option String
  refreshAllData : Bool
  acceptApprovalProcessChainId : Option ℕ
  rejectApprovalProcessChainId : Option ℕ
  permitImmediateResolution : Bool

structure Account where
  accountId : ℕ
  personId : ℕ
  companyId : ℕ
  accountRole : String
  isEnabled : Bool

structure Property where
  propertyName : String
  propertyType : String
  accountCollectionId : Option ℕ
  propertyValueAccountCollectionId : Option ℕ

/-- The tables and views that are read and not written. -/
structure Sources where
  approvalProcessChain : Table ApprovalProcessChain
  account : List Account
  property : List Property
  /-- `account_id` and `manager_account_id`. -/
  vAccountManagerMap : List (ℕ × ℕ)
  /-- `account_id` and `manager_account_id`. -/
  vAccountManagerHier : List (ℕ × ℕ)
  /-- `account_collection_id` and `account_id`. -/
  vAccountCollectionAccountExpanded : List (ℕ × ℕ)
  /-- `"aud#seq"` and `account_id`. -/
  auditAccountCollectionAccount : List (ℕ × ℕ)
  /-- `"aud#seq"`, `company_id` and `person_id`. -/
  auditPersonCompany : List (ℕ × ℕ × ℕ)
  vAccountCollectionApprovalProcess : List ProcessRow
  /-- The rows of `WITH p` in `refresh_approval_instance_item`. -/
  personCompanyProcess : List ProcessRow
  interval : String → Option (ℤ → ℤ)

/-- The link comes from a row about the account. -/
def Sources.Names (src : Sources) (l : ApprovalInstanceLink) (a : Account) : Prop :=
  (∃ res ∈ src.auditAccountCollectionAccount,
    l.acctCollectionAcctSeqId = some res.1 ∧ res.2 = a.accountId) ∨
  ∃ res ∈ src.auditPersonCompany,
    l.personCompanySeqId = some res.1 ∧ res.2.1 = a.companyId ∧ res.2.2 = a.personId
  deriving Decidable

/-! ## The data of an item -/

/-- The rows of the views for an item, by its label and its link. -/
def refreshRows (src : Sources) (i : ApprovalInstanceItem) (l : ApprovalInstanceLink) :
    List ProcessRow :=
  (src.vAccountCollectionApprovalProcess.filter fun p =>
    i.approvedLabel ≠ none ∧ i.approvedLabel = p.approvalLabel ∧
      ∃ res ∈ src.auditAccountCollectionAccount,
        l.acctCollectionAcctSeqId = some res.1 ∧ res.2 = p.accountId) ++
  src.personCompanyProcess.filter fun p =>
    i.approvedLabel ≠ none ∧ i.approvedLabel = p.approvalLabel ∧
      ∃ res ∈ src.auditPersonCompany,
        l.personCompanySeqId = some res.1 ∧ res.2.2 = p.personId

/-- The row that `refresh_approval_instance_item` finds for an item. -/
def refreshRow (src : Sources) (i : ApprovalInstanceItem) (db : Db) : Option ProcessRow := do
  let _ ← db.approvalInstanceStep.get i.approvalInstanceStepId
  let l ← db.approvalInstanceLink.get i.approvalInstanceLinkId
  (refreshRows src i l).head?

/-- `enabled`: the query is for an item, but the tables have no `approval_instance_item_id`, so that
this is the parameter of the function in all rows, and every link counts. -/
def enabled (src : Sources) (db : Db) : Option Bool :=
  ((src.account.filter fun a => a.accountRole = "primary" ∧
    ∃ l ∈ db.approvalInstanceLink.rows, src.Names l.2 a).map (·.isEnabled)).head?

def refreshApprovalInstanceItem (src : Sources) (i : ApprovalInstanceItem) (db : Db) :
    Result (Option ProcessRow) :=
  match refreshRow src i db with
  | some r => .ok (some r)
  | none => do
    raiseIf (enabled src db = some false) .invalidName "Account is no longer active"
    pure none

def getOrCreateCorrectApprovalInstanceLink (src : Sources) (i : ApprovalInstanceItem)
    (approvalInstanceLinkId : ℕ) (db : Db) : Result (ℕ × Db) := do
  let l := db.approvalInstanceLink.get approvalInstanceLinkId
  let v ← refreshApprovalInstanceItem src i db
  match v with
  | none => raise .raiseException "Unable to handle audit table %"
  | some v =>
    match v.auditTable with
    | .accountCollectionAccount =>
      if l.bind (·.acctCollectionAcctSeqId) = some v.auditSeqId then do
        let x ← newLink ⟨some v.auditSeqId, none⟩ db
        pure (x.1.1, x.2)
      else .ok (approvalInstanceLinkId, db)
    | .personCompany => do
      let x ← newLink ⟨none, some v.auditSeqId⟩ db
      pure (x.1.1, x.2)

/-! ## The next item -/

/-- `apptype` and `_acid`: who decides next, if it is not a manager that nobody is. -/
def nextApprover (src : Sources) (apc : ApprovalProcessChain) (id approverAccountId
    approvingAccountId : ℕ) (db : Db) : Result (Option (String × ℕ)) :=
  if apc.approvingEntity = some "manager" then
    .ok ((src.vAccountManagerMap.find? (·.1 = approvingAccountId)).map fun m => ("account", m.2))
  else if apc.approvingEntity = some "jira-hr" then .ok (some ("jira-hr", approverAccountId))
  else if apc.approvingEntity = some "rt-hr" then .ok (some ("rt-hr", approverAccountId))
  else if apc.approvingEntity = some "kace-hr" then .ok (some ("kace-hr", approverAccountId))
  else if apc.approvingEntity = some "recertify" then
    match (db.approvalInstanceItem.rows.find? (·.2.nextApprovalInstanceItemId = some id)).bind
        fun x => db.approvalInstanceStep.get x.2.approvalInstanceStepId with
    | some s => .ok (some ("account", s.approverAccountId))
    | none => raise .raiseException
        "This whould not happen:  Unable to discern approving account."
  else raise .raiseException "Can not handle approving entity %"

/-- The open step of the chain with an approver. -/
def Db.openStep (db : Db) (approvalProcessChainId approvalInstanceId acid : ℕ) : Option ℕ :=
  (db.approvalInstanceStep.rows.find? fun s =>
    s.2.approvalProcessChainId = approvalProcessChainId ∧
      s.2.approvalInstanceId = approvalInstanceId ∧ s.2.approverAccountId = acid ∧
      s.2.isCompleted = false).map Prod.fst

/-- `_step`: the open step, or a new one. -/
def nextStep (src : Sources) (now : ℤ) (apc : ApprovalProcessChain)
    (approvalProcessChainId approvalInstanceId approverAccountId approvingAccountId : ℕ)
    (acid : String × ℕ) (db : Db) : Result (ℕ × Db) :=
  match db.openStep approvalProcessChainId approvalInstanceId acid.2 with
  | some step => .ok (step, db)
  | none => do
    let due ← dueDate src.interval now apc.approvalChainResponsePeriod
    let x ← newStep {
      approvalInstanceId := approvalInstanceId
      approvalProcessChainId := approvalProcessChainId
      approvalInstanceStepName := apc.approvalProcessChainName
      approvalInstanceStepDue := due
      approvalType := acid.1
      description := some (apc.description.getD "" ++ " for " ++ toString approverAccountId ++
        " by " ++ toString approvingAccountId)
      approvalInstanceStepStart := now
      approvalInstanceStepEnd := none
      approverAccountId := acid.2
      isCompleted := false } db
    pure (x.1.1, x.2)

/-- What the next item says when all data are refreshed. -/
def refreshedData (src : Sources) (aii : ApprovalInstanceItem) (step : ℕ) (db : Db) :
    Result (ApprovalInstanceItem × Db) := do
  let v ← refreshApprovalInstanceItem src aii db
  let l ← getOrCreateCorrectApprovalInstanceLink src aii aii.approvalInstanceLinkId db
  match v with
  | none =>
    raise .notNullViolation "null value in column approved_category violates not-null constraint"
  | some v => pure (itemOf v l.1 step, l.2)

/-- What the next item says, and its link. -/
def nextData (src : Sources) (apc : ApprovalProcessChain) (aii : ApprovalInstanceItem)
    (newValue : Option String) (step : ℕ) (db : Db) : Result (ApprovalInstanceItem × Db) :=
  if apc.refreshAllData then refreshedData src aii step db
  else .ok ({
    approvalInstanceLinkId := aii.approvalInstanceLinkId
    approvalInstanceStepId := step
    nextApprovalInstanceItemId := none
    approvedCategory := aii.approvedCategory
    approvedLabel := aii.approvedLabel
    approvedLhs := aii.approvedLhs
    approvedRhs := if newValue = none then aii.approvedRhs else newValue
    isApproved := none
    approvedAccountId := none }, db)

/-- `approval_utils.build_next_approval_item`.  Its `_r` is the item `aii` with the approver of its
step, which the caller has read. -/
def buildNextApprovalItem (src : Sources) (now : ℤ) (id : ℕ) (aii : ApprovalInstanceItem)
    (approverAccountId approvalProcessChainId approvalInstanceId approvingAccountId : ℕ)
    (newValue : Option String) (db : Db) : Result (Option ℕ × Db) :=
  match src.approvalProcessChain.get approvalProcessChainId with
  | none => raise .raiseException "Unable to follow this chain: %"
  | some apc => do
    let acid ← nextApprover src apc id approverAccountId approvingAccountId db
    match acid with
    | none => pure (none, db)
    | some acid => do
      let step ← nextStep src now apc approvalProcessChainId approvalInstanceId approverAccountId
        approvingAccountId acid db
      let new ← nextData src apc aii newValue step.1 step.2
      let x ← newItem now new.1 new.2
      pure (some x.1.1, x.2)

/-! ## The decision -/

/-- The row of the first query. -/
structure ApprovalRow where
  aii : ApprovalInstanceItem
  approvalInstanceId : ℕ
  approverAccountId : ℕ
  approvalType : String
  acceptApprovalProcessChainId : Option ℕ
  rejectApprovalProcessChainId : Option ℕ
  permitImmediateResolution : Bool

def approvalRow (src : Sources) (id : ℕ) (db : Db) : Option ApprovalRow := do
  let aii ← db.approvalInstanceItem.get id
  let ais ← db.approvalInstanceStep.get aii.approvalInstanceStepId
  let _ ← db.approvalInstance.get ais.approvalInstanceId
  let _ ← db.approvalInstanceLink.get aii.approvalInstanceLinkId
  let apc ← src.approvalProcessChain.get ais.approvalProcessChainId
  pure {
    aii := aii
    approvalInstanceId := ais.approvalInstanceId
    approverAccountId := ais.approverAccountId
    approvalType := ais.approvalType
    acceptApprovalProcessChainId := apc.acceptApprovalProcessChainId
    rejectApprovalProcessChainId := apc.rejectApprovalProcessChainId
    permitImmediateResolution := apc.permitImmediateResolution }

/-- Management, those who can approve all, and alternates. -/
def MayApproveFor (src : Sources) (approverAccountId approvingAccountId : ℕ) : Prop :=
  ((approverAccountId, approvingAccountId) ∈ src.vAccountManagerHier ∧ 0 < approvingAccountId) ∨
  (∃ p ∈ src.property, p.propertyType = "Defaults" ∧ p.propertyName = "_can_approve_all" ∧
    ∃ e ∈ src.vAccountCollectionAccountExpanded,
      p.accountCollectionId = some e.1 ∧ e.2 = approvingAccountId) ∨
  ∃ p ∈ src.property, p.propertyType = "attestation" ∧
    p.propertyName ∈ ["AlternateApprovers", "Delegate"] ∧
    (∃ h ∈ src.vAccountManagerHier, (approverAccountId = h.1 ∨ approverAccountId = h.2) ∧
      ∃ e ∈ src.vAccountCollectionAccountExpanded,
        p.accountCollectionId = some e.1 ∧ e.2 = h.2) ∧
    ∃ e ∈ src.vAccountCollectionAccountExpanded,
      p.propertyValueAccountCollectionId = some e.1 ∧ e.2 = approvingAccountId
  deriving Decidable

/-- `_chid`. -/
def followUp (r : ApprovalRow) (approved : Option Bool) : Result (Option ℕ) :=
  match approved with
  | some false => .ok r.rejectApprovalProcessChainId
  | some true => .ok r.acceptApprovalProcessChainId
  | none => raise .raiseException "Approved must be Y or N"

/-- The block with the next item, which an `invalid_name` undoes. -/
def buildNext (src : Sources) (now : ℤ) (id : ℕ) (r : ApprovalRow) (chid : Option ℕ)
    (approvingAccountId : ℕ) (newValue : Option String) (db : Db) : Result Db :=
  match chid with
  | none => .ok db
  | some chid =>
    match buildNextApprovalItem src now id r.aii r.approverAccountId chid r.approvalInstanceId
        approvingAccountId newValue db with
    | .ok new => .ok { new.2 with
        approvalInstanceItem := new.2.approvalInstanceItem.update id fun i =>
          { i with nextApprovalInstanceItemId := new.1 } }
    | .error e => if e.errcode = .invalidName then .ok db else .error e

def approve (src : Sources) (now : ℤ) (id : ℕ) (approved : Option Bool) (approvingAccountId : ℕ)
    (newValue : Option String) (terminateChain : Bool) (db : Db) : Result Db :=
  match approvalRow src id db with
  | none => raise .raiseException "Unknown approval_instance_item_id %"
  | some r => do
    raiseIf (r.approvalType = "account" ∧ r.approverAccountId ≠ approvingAccountId ∧
      ¬ MayApproveFor src r.approverAccountId approvingAccountId) .errorInAssignment
      "Only a person and their management chain may approve others"
    raiseIf (r.aii.isApproved ≠ none) .raiseException "Approval is already completed."
    let chid ← followUp r approved
    raiseIf (terminateChain = true ∧ r.permitImmediateResolution = false) .errorInAssignment
      "May not terminate the chain prematurely for this result."
    let db ← buildNext src now id r chid approvingAccountId newValue db
    updateItems now (fun j i => if j = id then
      some { i with isApproved := approved, approvedAccountId := some approvingAccountId }
      else none) db

/-- `approval_utils.approve`, with a text. -/
def approveText (src : Sources) (now : ℤ) (id : ℕ) (approved : Option String)
    (approvingAccountId : ℕ) (newValue : Option String) (_terminateChain : Bool) (db : Db) :
    Result Db :=
  let tf := if approved = some "Y" then some true else if approved = some "N" then some false
    else none
  approve src now id tf approvingAccountId newValue false db

/-! ## The next step -/

variable {src : Sources} {now : ℤ} {db db' db₁ : Db} {aii x : ApprovalInstanceItem}
  {apc : ApprovalProcessChain} {acid : String × ℕ} {r : ApprovalRow} {newValue : Option String}
  {id j k chid inst approver approving : ℕ} {approved terminateChain : Bool}

/-- The step is the open one of the chain, the instance and the approver, or a new one. -/
structure NextStep (db : Db) (t : Table ApprovalInstanceStep) (chid inst acid k : ℕ) : Prop where
  kept : ∀ j s, db.approvalInstanceStep.get j = some s → t.get j = some s
  step : ∃ s, t.get k = some s ∧ s.approvalProcessChainId = chid ∧ s.approvalInstanceId = inst ∧
    s.approverAccountId = acid
  reused : db.openStep chid inst acid = some k ∨
    db.openStep chid inst acid = none ∧ db.approvalInstanceStep.get k = none

theorem openStep_eq_some {acid : ℕ} (h : db.openStep chid inst acid = some k) :
    ∃ s, db.approvalInstanceStep.get k = some s ∧ s.approvalProcessChainId = chid ∧
      s.approvalInstanceId = inst ∧ s.approverAccountId = acid := by
  unfold Db.openStep at h
  obtain ⟨s, hs, rfl⟩ := Option.map_eq_some_iff.mp h
  obtain ⟨hmem, hchain, hinstance, happrover, -⟩ := Library.of_find?_eq_some hs
  exact ⟨s.2, Table.get_eq_some.mpr hmem, hchain, hinstance, happrover⟩

theorem nextStep_ok
    (h : nextStep src now apc chid inst approver approving acid db = .ok (k, db')) :
    ∃ t, db' = { db with approvalInstanceStep := t } ∧ NextStep db t chid inst acid.2 k := by
  unfold nextStep at h
  cases hopen : db.openStep chid inst acid.2 with
  | some step =>
    rw [hopen] at h
    cases h
    exact ⟨db.approvalInstanceStep, rfl, fun _ _ hs => hs, openStep_eq_some hopen, .inl hopen⟩
  | none =>
    rw [hopen] at h
    simp only [bind_eq_ok, pure_eq_ok] at h
    obtain ⟨due, -, x, hx, h⟩ := h
    cases h
    obtain ⟨-, t, ht, hdb⟩ := newStep_ok hx
    obtain ⟨-, -, hnone⟩ := Table.insert_ok ht
    refine ⟨t, hdb, fun j s hs => ?_, ?_, .inr ⟨hopen, hnone⟩⟩
    · rw [Table.get_insert ht, if_neg, hs]
      rintro rfl
      rw [hnone] at hs
      cases hs
    · rw [Table.get_insert ht, if_pos rfl]
      exact ⟨_, rfl, rfl, rfl, rfl⟩

theorem nextStep_avoids :
    Avoids .invalidName (nextStep src now apc chid inst approver approving acid db) := by
  unfold nextStep
  split
  · exact avoids_ok
  · refine Avoids.bind ?_ fun due _ => Avoids.bind ?_ fun x _ => avoids_ok
    · unfold dueDate
      split
      · exact avoids_raise.mpr (by decide)
      · split
        · exact avoids_raise.mpr (by decide)
        · exact avoids_ok
    · exact newStep_avoids

/-! ## The data of the next item -/

/-- The next item does not need data of the views, or they have them. -/
def Refreshed (src : Sources) (apc : ApprovalProcessChain) (aii : ApprovalInstanceItem) (db : Db) :
    Prop :=
  apc.refreshAllData = true → refreshRow src aii db ≠ none

theorem refreshRow_congr {t : Table ApprovalInstanceStep} {s : ApprovalInstanceStep}
    (hs : db.approvalInstanceStep.get aii.approvalInstanceStepId = some s)
    (ht : t.get aii.approvalInstanceStepId = some s) :
    refreshRow src aii { db with approvalInstanceStep := t } = refreshRow src aii db := by
  unfold refreshRow
  rw [hs, ht]

theorem refresh_ok {v : Option ProcessRow}
    (h : refreshApprovalInstanceItem src aii db = .ok v) : v = refreshRow src aii db := by
  unfold refreshApprovalInstanceItem at h
  split at h
  next r hr => rw [hr, Except.ok.inj h]
  next hr =>
    simp only [bind_unit_eq_ok, pure_eq_ok] at h
    rw [hr, h.2]

theorem getOrCreateLink_ok {l : ℕ}
    (h : getOrCreateCorrectApprovalInstanceLink src aii k db = .ok (l, db')) :
    refreshRow src aii db ≠ none ∧ ∃ t, db' = { db with approvalInstanceLink := t } := by
  unfold getOrCreateCorrectApprovalInstanceLink at h
  dsimp only at h
  rw [bind_eq_ok] at h
  obtain ⟨v, hv, h⟩ := h
  cases v with
  | none => exact absurd h raise_ne_ok
  | some v =>
    have hnew : ∀ row : ApprovalInstanceLink,
        (newLink row db >>= fun x => pure (x.1.1, x.2)) = .ok (l, db') →
        ∃ t, db' = { db with approvalInstanceLink := t } := by
      intro row h
      simp only [bind_eq_ok, pure_eq_ok] at h
      obtain ⟨x, hx, h⟩ := h
      cases h
      obtain ⟨-, t, -, hdb⟩ := newLink_ok hx
      exact ⟨t, hdb⟩
    refine ⟨?_, ?_⟩
    · rw [← refresh_ok hv]
      exact Option.some_ne_none v
    · dsimp only at h
      split at h
      · split at h
        · exact hnew _ h
        · cases h
          exact ⟨db.approvalInstanceLink, rfl⟩
      · exact hnew _ h

theorem nextData_ok (h : nextData src apc aii newValue k db = .ok (x, db')) :
    x.isApproved = none ∧ x.approvalInstanceStepId = k ∧ Refreshed src apc aii db ∧
      ∃ t, db' = { db with approvalInstanceLink := t } := by
  unfold nextData at h
  split at h
  next =>
    unfold refreshedData at h
    simp only [bind_eq_ok] at h
    obtain ⟨v, -, l, hl, h⟩ := h
    obtain ⟨hrow, t, hdb⟩ := getOrCreateLink_ok hl
    cases v with
    | none => exact absurd h raise_ne_ok
    | some v =>
      cases h
      exact ⟨rfl, rfl, fun _ => hrow, t, hdb⟩
  next hrefresh =>
    cases h
    exact ⟨rfl, rfl, fun hr => absurd hr hrefresh, db.approvalInstanceLink, rfl⟩

theorem getOrCreateLink_avoids (h : refreshRow src aii db ≠ none) :
    Avoids .invalidName (getOrCreateCorrectApprovalInstanceLink src aii k db) := by
  obtain ⟨row, hrow⟩ := Option.ne_none_iff_exists'.mp h
  unfold getOrCreateCorrectApprovalInstanceLink refreshApprovalInstanceItem
  rw [hrow]
  refine avoids_ok.bind fun v hv => ?_
  cases hv
  dsimp only
  split
  · split
    · exact newLink_avoids.bind fun _ _ => avoids_ok
    · exact avoids_ok
  · exact newLink_avoids.bind fun _ _ => avoids_ok

/-- An account is found to be terminated only when the views have no row. -/
theorem nextData_avoids (h : Refreshed src apc aii db) :
    Avoids .invalidName (nextData src apc aii newValue k db) := by
  unfold nextData
  split
  next hrefresh =>
    obtain ⟨row, hrow⟩ := Option.ne_none_iff_exists'.mp (h hrefresh)
    unfold refreshedData refreshApprovalInstanceItem
    rw [hrow]
    refine avoids_ok.bind fun v hv => ?_
    cases hv
    exact (getOrCreateLink_avoids (h hrefresh)).bind fun _ _ => avoids_ok
  next => exact avoids_ok

/-! ## The next item -/

/-- The chain goes on after the decision, and there is someone to decide next. -/
structure Follows (src : Sources) (id : ℕ) (r : ApprovalRow) (approved : Bool) (approving : ℕ)
    (db : Db) (chid : ℕ) (apc : ApprovalProcessChain) (acid : String × ℕ) : Prop where
  goesOn : followUp r (some approved) = .ok (some chid)
  chain : src.approvalProcessChain.get chid = some apc
  decider : nextApprover src apc id r.approverAccountId approving db = .ok (some acid)

/-- The item `j` has come in: it follows `id`, nobody has decided it, and it is in the step of the
chain for the instance and the approver, which was open or has come in too. -/
structure NextItem (db db' : Db) (id chid inst acid j : ℕ) : Prop where
  new : db.approvalInstanceItem.get j = none
  only : ∀ k, k ≠ j → db.approvalInstanceItem.get k = none →
    db'.approvalInstanceItem.get k = none
  next : ∃ i, db'.approvalInstanceItem.get id = some i ∧ i.nextApprovalInstanceItemId = some j
  step : ∃ x s, db'.approvalInstanceItem.get j = some x ∧ x.isApproved = none ∧
    db'.approvalInstanceStep.get x.approvalInstanceStepId = some s ∧
    s.approvalProcessChainId = chid ∧ s.approvalInstanceId = inst ∧ s.approverAccountId = acid ∧
    (db.openStep chid inst acid = some x.approvalInstanceStepId ∨
      db.openStep chid inst acid = none ∧
        db.approvalInstanceStep.get x.approvalInstanceStepId = none)

/-- No item has come in. -/
def NoItem (db db' : Db) : Prop :=
  ∀ k, db.approvalInstanceItem.get k = none → db'.approvalInstanceItem.get k = none

theorem NextItem.not_noItem (h : NextItem db db' id chid inst k j) : ¬ NoItem db db' := by
  intro hno
  obtain ⟨x, -, hx, -⟩ := h.step
  rw [hno j h.new] at hx
  cases hx

theorem Follows.unique {chid' : ℕ} {apc' : ApprovalProcessChain} {acid' : String × ℕ}
    (h : Follows src id r approved approving db chid apc acid)
    (h' : Follows src id r approved approving db chid' apc' acid') :
    chid' = chid ∧ apc' = apc ∧ acid' = acid := by
  have hchain := h'.goesOn
  rw [h.goesOn] at hchain
  obtain rfl := Option.some.inj (Except.ok.inj hchain)
  have hapc := h'.chain
  rw [h.chain] at hapc
  obtain rfl := Option.some.inj hapc
  have happrover := h'.decider
  rw [h.decider] at happrover
  exact ⟨rfl, rfl, (Option.some.inj (Except.ok.inj happrover)).symm⟩

variable {s : ApprovalInstanceStep} {new : Option ℕ}

theorem buildNextApprovalItem_ok
    (hs : db.approvalInstanceStep.get aii.approvalInstanceStepId = some s)
    (h : buildNextApprovalItem src now id aii approver chid inst approving newValue db =
      .ok (new, db')) :
    ∃ apc, src.approvalProcessChain.get chid = some apc ∧
      (nextApprover src apc id approver approving db = .ok none ∧ new = none ∧ db' = db ∨
      ∃ acid j x, nextApprover src apc id approver approving db = .ok (some acid) ∧
        Refreshed src apc aii db ∧ new = some j ∧
        db.approvalInstanceItem.insert x = .ok (j, db'.approvalInstanceItem) ∧
        x.isApproved = none ∧
        NextStep db db'.approvalInstanceStep chid inst acid.2 x.approvalInstanceStepId) := by
  unfold buildNextApprovalItem at h
  split at h
  · exact absurd h raise_ne_ok
  next apc hapc =>
    refine ⟨apc, hapc, ?_⟩
    rw [bind_eq_ok] at h
    obtain ⟨acid, hacid, h⟩ := h
    cases acid with
    | none =>
      cases h
      exact .inl ⟨hacid, rfl, rfl⟩
    | some acid =>
      simp only [bind_eq_ok, pure_eq_ok] at h
      obtain ⟨step, hstep, new', hnew, x, hx, h⟩ := h
      cases h
      obtain ⟨t, hdb, hnext⟩ := nextStep_ok hstep
      obtain ⟨hundecided, hid, hrefreshed, tl, hdbl⟩ := nextData_ok hnew
      obtain ⟨-, ti, hti, hdbi⟩ := newItem_ok hundecided hx
      rw [hdb] at hrefreshed hdbl
      rw [hdbl] at hti hdbi
      refine .inr ⟨acid, x.1.1, new'.1, hacid, fun hr => ?_, rfl, ?_, hundecided, ?_⟩
      · rw [← refreshRow_congr hs (hnext.kept _ _ hs)]
        exact hrefreshed hr
      · rw [hdbi]
        exact hti
      · rw [hdbi, hid]
        exact hnext

theorem buildNextApprovalItem_error {err : PgError}
    (hs : db.approvalInstanceStep.get aii.approvalInstanceStepId = some s)
    (h : buildNextApprovalItem src now id aii approver chid inst approving newValue db =
      .error err) (herr : err.errcode = .invalidName) :
    ∃ apc acid, src.approvalProcessChain.get chid = some apc ∧
      nextApprover src apc id approver approving db = .ok (some acid) ∧
      ¬ Refreshed src apc aii db := by
  unfold buildNextApprovalItem at h
  split at h
  · cases h
    cases herr
  next apc hapc =>
    have happrover : Avoids .invalidName (nextApprover src apc id approver approving db) := by
      unfold nextApprover
      repeat' split
      all_goals first | exact avoids_ok | exact avoids_raise.mpr (by decide)
    rcases bind_eq_error.mp h with h | ⟨acid, hacid, h⟩
    · exact absurd herr (happrover err h)
    · cases acid with
      | none => cases h
      | some acid =>
        refine ⟨apc, acid, hapc, hacid, fun hrefreshed => ?_⟩
        rcases bind_eq_error.mp h with h | ⟨step, hstep, h⟩
        · exact nextStep_avoids err h herr
        · obtain ⟨t, hdb, hnext⟩ := nextStep_ok (show _ = Except.ok (step.1, step.2) from hstep)
          rcases bind_eq_error.mp h with h | ⟨new, hnew, h⟩
          · refine nextData_avoids ?_ err h herr
            rw [hdb]
            intro hr
            rw [refreshRow_congr hs (hnext.kept _ _ hs)]
            exact hrefreshed hr
          · obtain ⟨hundecided, -⟩ := nextData_ok (show _ = Except.ok (new.1, new.2) from hnew)
            rcases bind_eq_error.mp h with h | ⟨x, -, h⟩
            · exact newItem_avoids hundecided err h herr
            · cases h

theorem buildNext_ok {o : Option ℕ} (hi : db.approvalInstanceItem.get id = some r.aii)
    (hs : db.approvalInstanceStep.get r.aii.approvalInstanceStepId = some s)
    (ho : followUp r (some approved) = .ok o)
    (h : buildNext src now id r o approving newValue db = .ok db₁) :
    (∀ j, (db₁.approvalInstanceItem.get j).bind (·.isApproved) =
      (db.approvalInstanceItem.get j).bind (·.isApproved)) ∧
    (∃ i, db₁.approvalInstanceItem.get id = some i) ∧
    ((∃ chid apc acid, Follows src id r approved approving db chid apc acid ∧
        Refreshed src apc r.aii db ∧ ∃ j, NextItem db db₁ id chid r.approvalInstanceId acid.2 j) ∨
      (∀ chid apc acid, Follows src id r approved approving db chid apc acid →
        ¬ Refreshed src apc r.aii db) ∧ NoItem db db₁) := by
  cases o with
  | none =>
    cases h
    refine ⟨fun _ => rfl, ⟨r.aii, hi⟩, .inr ⟨fun chid apc acid hf => ?_, fun _ hk => hk⟩⟩
    have hchain := hf.goesOn
    rw [ho] at hchain
    cases hchain
  | some chid =>
    unfold buildNext at h
    dsimp only at h
    split at h
    next new hnew =>
      cases h
      dsimp only
      obtain ⟨apc, hapc, ⟨hnone, hnew', hdb⟩ | ⟨acid, j, x, hacid, hrefreshed, hnew', hins, hx, hstep⟩⟩ :=
        buildNextApprovalItem_ok hs (show _ = Except.ok (new.1, new.2) from hnew)
      · rw [hdb]
        refine ⟨fun j => ?_, ?_, .inr ⟨fun chid' apc' acid' hf => ?_, fun k hk => ?_⟩⟩
        · rw [Table.get_update]
          split
          · cases db.approvalInstanceItem.get j <;> rfl
          · rfl
        · rw [Table.get_update, if_pos rfl, hi]
          exact ⟨_, rfl⟩
        · have hchain := hf.goesOn
          rw [ho] at hchain
          obtain rfl := Option.some.inj (Except.ok.inj hchain)
          have hapc' := hf.chain
          rw [hapc] at hapc'
          obtain rfl := Option.some.inj hapc'
          have happrover := hf.decider
          rw [hnone] at happrover
          cases happrover
        · rw [Table.get_update, hk]
          simp
      · obtain ⟨-, -, hfresh⟩ := Table.insert_ok hins
        have hj : id ≠ j := by
          rintro rfl
          rw [hfresh] at hi
          cases hi
        refine ⟨fun k => ?_, ?_, .inl ⟨chid, apc, acid, ⟨ho, hapc, hacid⟩, hrefreshed, j,
          ⟨hfresh, fun k hk hnone => ?_, ?_, ?_⟩⟩⟩
        · rw [Table.get_update, Table.get_insert hins]
          by_cases hkj : k = j
          · subst hkj
            rw [if_neg (Ne.symm hj), if_pos rfl, hfresh]
            exact hx
          · rw [if_neg hkj]
            split
            · cases db.approvalInstanceItem.get k <;> rfl
            · rfl
        · rw [Table.get_update, if_pos rfl, Table.get_insert hins, if_neg hj, hi]
          exact ⟨_, rfl⟩
        · rw [Table.get_update, Table.get_insert hins, if_neg hk, hnone]
          simp
        · rw [Table.get_update, if_pos rfl, Table.get_insert hins, if_neg hj, hi]
          exact ⟨_, rfl, hnew'⟩
        · obtain ⟨s', hs', hchain, hinst, happrover⟩ := hstep.step
          refine ⟨x, s', ?_, hx, hs', hchain, hinst, happrover, hstep.reused⟩
          rw [Table.get_update, if_neg (Ne.symm hj), Table.get_insert hins, if_pos rfl]
    next err herr =>
      split at h
      next hcode =>
        cases h
        obtain ⟨apc, acid, hapc, hacid, hnot⟩ := buildNextApprovalItem_error hs herr hcode
        refine ⟨fun _ => rfl, ⟨r.aii, hi⟩, .inr ⟨fun chid' apc' acid' hf => ?_, fun _ hk => hk⟩⟩
        have hfollows : Follows src id r approved approving db chid apc acid := ⟨ho, hapc, hacid⟩
        obtain ⟨-, rfl, -⟩ := hfollows.unique hf
        exact hnot
      next => cases h

/-! ## The decision -/

theorem approve_eq_ok {o : Option Bool} (hr : approvalRow src id db = some r) :
    approve src now id o approving newValue terminateChain db = .ok db' ↔
      ¬ (r.approvalType = "account" ∧ r.approverAccountId ≠ approving ∧
        ¬ MayApproveFor src r.approverAccountId approving) ∧
      r.aii.isApproved = none ∧
      ¬ (terminateChain = true ∧ r.permitImmediateResolution = false) ∧
      ∃ chid db₁, followUp r o = .ok chid ∧
        buildNext src now id r chid approving newValue db = .ok db₁ ∧
        updateItems now (fun j i => if j = id then
          some { i with isApproved := o, approvedAccountId := some approving } else none) db₁ =
            .ok db' := by
  unfold approve
  rw [hr]
  simp only [raiseIf_eq_ok, bind_eq_ok, ne_eq, not_not]
  constructor
  · rintro ⟨-, hpermitted, -, hopen, chid, hchid, -, hterminate, db₁, h₁, h₂⟩
    exact ⟨hpermitted, hopen, hterminate, chid, db₁, hchid, h₁, h₂⟩
  · rintro ⟨hpermitted, hopen, hterminate, chid, db₁, hchid, h₁, h₂⟩
    exact ⟨(), hpermitted, (), hopen, chid, hchid, (), hterminate, db₁, h₁, h₂⟩

theorem approvalRow_eq_some (hr : approvalRow src id db = some r) :
    db.approvalInstanceItem.get id = some r.aii ∧
      ∃ s, db.approvalInstanceStep.get r.aii.approvalInstanceStepId = some s := by
  unfold approvalRow at hr
  simp only [Option.bind_eq_bind, Option.bind_eq_some_iff, Option.pure_def, Option.some.injEq] at hr
  obtain ⟨aii, haii, ais, hais, -, -, -, -, -, -, rfl⟩ := hr
  exact ⟨haii, ais, hais⟩

theorem decision_ok {o : Option Bool}
    (h : updateItems now (fun j i => if j = id then
      some { i with isApproved := o, approvedAccountId := some approving } else none) db =
        .ok db') :
    (∀ j, db'.approvalInstanceItem.get j = (db.approvalInstanceItem.get j).map fun i =>
      if j = id then { i with isApproved := o, approvedAccountId := some approving } else i) ∧
    ∀ j s, db.approvalInstanceStep.get j = some s →
      ∃ s', db'.approvalInstanceStep.get j = some s' ∧
        s'.approvalProcessChainId = s.approvalProcessChainId ∧
        s'.approvalInstanceId = s.approvalInstanceId ∧
        s'.approverAccountId = s.approverAccountId := by
  obtain ⟨rows, -, -, hfold⟩ := updateItems_ok h
  have hcompl := foldlM_completing (fun _ _ _ h => h) hfold
  refine ⟨fun j => ?_, fun j s hs => ?_⟩
  · rw [hcompl.item]
    dsimp only
    rw [Table.get_modify]
    congr 1
    funext i
    split <;> rfl
  · obtain ⟨s', hs', hinst, -⟩ := hcompl.step j s hs
    obtain ⟨s'', hs'', hchain, happrover⟩ := hcompl.data j s hs
    obtain rfl := Option.some.inj (hs''.symm.trans hs')
    exact ⟨s'', hs', hchain, hinst, happrover⟩

/-- The item gets the decision, and no other item gets one. -/
def Decided (db db' : Db) (id : ℕ) (approved : Bool) : Prop :=
  (∃ i, db'.approvalInstanceItem.get id = some i ∧ i.isApproved = some approved) ∧
    ∀ j, j ≠ id → (db'.approvalInstanceItem.get j).bind (·.isApproved) =
      (db.approvalInstanceItem.get j).bind (·.isApproved)

theorem approve_ok (hr : approvalRow src id db = some r)
    (h : approve src now id (some approved) approving newValue terminateChain db = .ok db') :
    Decided db db' id approved ∧
    ((∃ chid apc acid, Follows src id r approved approving db chid apc acid ∧
        Refreshed src apc r.aii db ∧ ∃ j, NextItem db db' id chid r.approvalInstanceId acid.2 j) ∨
      (∀ chid apc acid, Follows src id r approved approving db chid apc acid →
        ¬ Refreshed src apc r.aii db) ∧ NoItem db db') := by
  obtain ⟨-, -, -, o, db₁, ho, hnext, hdecision⟩ := (approve_eq_ok hr).mp h
  obtain ⟨hi, s, hs⟩ := approvalRow_eq_some hr
  obtain ⟨hsame, ⟨i, hi₁⟩, hcases⟩ := buildNext_ok hi hs ho hnext
  obtain ⟨hget, hsteps⟩ := decision_ok hdecision
  refine ⟨⟨⟨_, by rw [hget, hi₁]; rfl, by simp⟩, fun j hj => ?_⟩, ?_⟩
  · rw [← hsame, hget]
    simp only [if_neg hj, Option.map_id']
  · rcases hcases with ⟨chid, apc, acid, hf, hrefreshed, j, hj⟩ | ⟨hnot, hno⟩
    · refine .inl ⟨chid, apc, acid, hf, hrefreshed, j, ⟨hj.new, fun k hk hnone => ?_, ?_, ?_⟩⟩
      · rw [hget, hj.only k hk hnone]
        rfl
      · obtain ⟨i', hi', hnext'⟩ := hj.next
        rw [hget, hi']
        exact ⟨_, rfl, by simpa using hnext'⟩
      · obtain ⟨x, s₁, hx, hundecided, hs₁, hchain, hinst, happrover, hreused⟩ := hj.step
        obtain ⟨s', hs', hchain', hinst', happrover'⟩ := hsteps _ s₁ hs₁
        have hne : j ≠ id := by
          rintro rfl
          have hnew := hj.new
          rw [hi] at hnew
          cases hnew
        refine ⟨x, s', ?_, hundecided, hs', hchain'.trans hchain, hinst'.trans hinst,
          happrover'.trans happrover, hreused⟩
        rw [hget, hx, Option.map_some, if_neg hne]
    · refine .inr ⟨hnot, fun k hk => ?_⟩
      rw [hget, hno k hk]
      rfl

/-! ## The two overloads -/

/-- No account that the item is about is disabled. -/
def Active (src : Sources) (i : ApprovalInstanceItem) (db : Db) : Prop :=
  ∀ l, db.approvalInstanceLink.get i.approvalInstanceLinkId = some l →
    ∀ a ∈ src.account, a.accountRole = "primary" → src.Names l a → a.isEnabled = true

/-- The item gets the decision and no other one does; a next item comes in when the chain goes on
with an approver, the account is active and the chain is not to be terminated, and else none does;
the overload with a text ends in the same state. -/
def Approves (src : Sources) (now : ℤ) (id : ℕ) (r : ApprovalRow) (approved : Bool) (approving : ℕ)
    (newValue : Option String) (terminateChain : Bool) (db : Db) : Prop :=
  (∀ db', approve src now id (some approved) approving newValue terminateChain db = .ok db' →
    Decided db db' id approved ∧
    (∀ chid apc acid, Follows src id r approved approving db chid apc acid → Active src r.aii db →
      terminateChain = false → ∃ j, NextItem db db' id chid r.approvalInstanceId acid.2 j) ∧
    ((∀ chid apc acid, Follows src id r approved approving db chid apc acid →
      ¬ (Active src r.aii db ∧ terminateChain = false)) → NoItem db db')) ∧
  ∀ db', approveText src now id (some (if approved then "Y" else "N")) approving newValue
      terminateChain db = .ok db' ↔
    approve src now id (some approved) approving newValue terminateChain db = .ok db'

theorem approveText_eq :
    approveText src now id (some (if approved then "Y" else "N")) approving newValue
      terminateChain db = approve src now id (some approved) approving newValue false db := by
  unfold approveText
  cases approved <;> rfl

/-- A call that goes through when the chain is not to be terminated does the right thing exactly
when termination is permitted where it is asked for and the item that follows is wanted. -/
theorem approves_iff (hr : approvalRow src id db = some r)
    (h : approve src now id (some approved) approving newValue false db = .ok db₁) :
    Approves src now id r approved approving newValue terminateChain db ↔
      (terminateChain = true → r.permitImmediateResolution = true) ∧
      ∀ chid apc acid, Follows src id r approved approving db chid apc acid →
        (Refreshed src apc r.aii db ↔ Active src r.aii db ∧ terminateChain = false) := by
  have hsame : (terminateChain = true → r.permitImmediateResolution = true) →
      approve src now id (some approved) approving newValue terminateChain db = .ok db₁ := by
    intro hpermit
    rw [approve_eq_ok hr] at h ⊢
    obtain ⟨hpermitted, hopen, -, hrest⟩ := h
    refine ⟨hpermitted, hopen, ?_, hrest⟩
    rintro ⟨hterminate, hnot⟩
    rw [hpermit hterminate] at hnot
    cases hnot
  obtain ⟨hdecided, hcases⟩ := approve_ok hr h
  constructor
  · rintro ⟨hright, htext⟩
    have hok : approve src now id (some approved) approving newValue terminateChain db =
        .ok db₁ := (htext db₁).mp (approveText_eq.trans h)
    have hpermit : terminateChain = true → r.permitImmediateResolution = true := by
      intro hterminate
      obtain ⟨-, -, hnot, -⟩ := (approve_eq_ok hr).mp hok
      cases hp : r.permitImmediateResolution with
      | true => rfl
      | false => exact absurd ⟨hterminate, hp⟩ hnot
    refine ⟨hpermit, fun chid apc acid hf => ?_⟩
    obtain ⟨-, hnext, hno⟩ := hright db₁ hok
    rcases hcases with ⟨chid', apc', acid', hf', hrefreshed, j, hj⟩ | ⟨hnot, hnone⟩
    · obtain ⟨-, rfl, -⟩ := hf'.unique hf
      refine iff_of_true hrefreshed (not_not.mp fun hwanted => ?_)
      exact hj.not_noItem (hno fun _ _ _ _ => hwanted)
    · refine iff_of_false (hnot chid apc acid hf) fun hwanted => ?_
      obtain ⟨j, hj⟩ := hnext chid apc acid hf hwanted.1 hwanted.2
      exact hj.not_noItem hnone
  · rintro ⟨hpermit, hwanted⟩
    have hok := hsame hpermit
    refine ⟨fun db' h' => ?_, fun db' => by rw [approveText_eq, h, hok]⟩
    rw [hok] at h'
    obtain rfl := Except.ok.inj h'
    refine ⟨hdecided, fun chid apc acid hf hactive hterminate => ?_, fun hno => ?_⟩
    · rcases hcases with ⟨chid', apc', acid', hf', -, hj⟩ | ⟨hnot, -⟩
      · obtain ⟨rfl, rfl, rfl⟩ := hf'.unique hf
        exact hj
      · exact absurd ((hwanted chid apc acid hf).mpr ⟨hactive, hterminate⟩) (hnot chid apc acid hf)
    · rcases hcases with ⟨chid, apc, acid, hf, hrefreshed, -⟩ | ⟨-, hnone⟩
      · exact absurd ((hwanted chid apc acid hf).mp hrefreshed) (hno chid apc acid hf)
      · exact hnone

/-! ## Examples -/

/-- A ticket follows when something is accepted, and nothing when it is rejected. -/
def ticketed : Sources where
  approvalProcessChain := {
    rows := [(1, ⟨"recertification", some "1 week", none, some "manager", false, some 2, none, true⟩),
      (2, ⟨"ticket", some "1 week", none, some "jira-hr", false, none, none, false⟩)]
    nextval := 3
    nodup := by decide }
  account := [⟨1, 1, 1, "primary", true⟩]
  property := []
  vAccountManagerMap := [(1, 10)]
  vAccountManagerHier := [(1, 10)]
  vAccountCollectionAccountExpanded := []
  auditAccountCollectionAccount := [(1, 1)]
  auditPersonCompany := []
  vAccountCollectionApprovalProcess := []
  personCompanyProcess := []
  interval := oneWeek

def pending : Db where
  approvalInstance := ⟨[(1, ⟨some 1, "2024 q1", none, 0, none⟩)], 2, List.nodup_singleton 1⟩
  approvalInstanceStep :=
    ⟨[(1, ⟨1, 1, "recertification", 9, "account", none, 0, none, 10, false⟩)], 2, List.nodup_singleton 1⟩
  approvalInstanceLink := ⟨[(1, ⟨some 1, none⟩)], 2, List.nodup_singleton 1⟩
  approvalInstanceItem := ⟨[(1, openItem)], 2, List.nodup_singleton 1⟩

def pendingRow : ApprovalRow := ⟨openItem, 1, 10, "account", some 2, none, true⟩

theorem approves_pending : Approves ticketed 0 1 pendingRow true 10 none false pending := by
  cases h : approve ticketed 0 1 (some true) 10 none false pending with
  | error e =>
    have hok : (approve ticketed 0 1 (some true) 10 none false pending).isOk = true := by decide
    rw [h] at hok
    cases hok
  | ok db₁ =>
    refine (@approves_iff _ _ _ _ pendingRow _ _ _ _ _ rfl h).mpr
      ⟨fun h => absurd h Bool.false_ne_true, fun chid apc acid hf => ?_⟩
    have hgoesOn := hf.goesOn
    cases hgoesOn
    have hchain := hf.chain
    cases hchain
    refine iff_of_true (fun h => absurd h Bool.false_ne_true) ⟨fun l _ a ha _ _ => ?_, rfl⟩
    obtain rfl := List.mem_singleton.mp ha
    rfl

/-- A chain that is to be terminated, and may be, goes on. -/
theorem goes_on : (approvalRow ticketed 1 pending = some pendingRow ∧
      pendingRow.aii.isApproved = none ∧ pendingRow.approverAccountId = 10) ∧
    ¬ Approves ticketed 0 1 pendingRow true 10 none true pending := by
  refine ⟨⟨rfl, rfl, rfl⟩, fun ⟨happroves, _⟩ => ?_⟩
  have hrun : ((approve ticketed 0 1 (some true) 10 none true pending).toOption.bind
      (·.approvalInstanceItem.get 2)).isSome = true := by decide
  cases hr : approve ticketed 0 1 (some true) 10 none true pending with
  | error e =>
    rw [hr] at hrun
    cases hrun
  | ok db' =>
    rw [hr] at hrun
    obtain ⟨-, -, hno⟩ := happroves db' hr
    have hnone := hno (fun _ _ _ _ hwanted => absurd hwanted.2.symm Bool.false_ne_true) 2 rfl
    change (db'.approvalInstanceItem.get 2).isSome = true at hrun
    rw [hnone] at hrun
    cases hrun

end JazzHands.Approval

import JazzHands.Library.Watermark
import JazzHands.TableSync.SyncDbs

/-!
# A table that is skipped is up to date

Two databases, and runs that are interleaved with commits upstream.  A table that changes is ahead
of every time that was recorded (`faithful_commit`), so `World.Current` is kept by every step, and
`skips_current` follows by induction on the interleaving.
-/

namespace JazzHands.TableSync

open Library

variable {α : Type} {env : Upstream α} {up : String → Commit α} {d : Downstream α} {r : Run α}
  {w : World α} {table object : String} {upts : Option ℕ}

/-! ## What is relied on -/

/-- The time of the latest visible change of the table. -/
def Upstream.ReportsLastChange (env : Upstream α) : Prop :=
  ∀ up object schema, env.relationLastChanged up object schema = some (up object).whence

/-- The table is then what has been read. -/
def Upstream.CopiesWhatItReads (env : Upstream α) : Prop :=
  ∀ table contents, (env.copyTable table contents).1 = some contents

/-! ## The recorded time -/

theorem getLastChange_updateMyRefresh :
    getLastChange (updateMyRefresh d table upts) object =
      if object = table then upts else getLastChange d object := by
  unfold updateMyRefresh
  split
  next hany =>
    -- the `UPDATE` changes no `object`, so the same row is found
    show ((d.lastRefresh.map _).find? _).bind _ = _
    rw [List.find?_map]
    have hobject : ((fun r : LastRefresh => decide (r.object = object)) ∘ fun r =>
        if r.object = table then { r with whence := upts } else r) =
        fun r => decide (r.object = object) := by
      funext r
      simp only [Function.comp_apply]
      split <;> rfl
    rw [hobject]
    unfold getLastChange
    cases hfind : d.lastRefresh.find? fun r => r.object = object with
    | none =>
      have hne : object ≠ table := by
        rintro rfl
        have hsome := List.find?_isSome.mpr (List.any_eq_true.mp hany)
        simp [hfind] at hsome
      rw [if_neg hne]
      rfl
    | some r =>
      obtain rfl : r.object = object := by simpa using List.find?_some hfind
      simp only [Option.map_some, Option.bind_some]
      split <;> rfl
  next hany =>
    have hnone : d.lastRefresh.find? (fun r => r.object = table) = none := by
      simpa [List.find?_eq_none] using hany
    show ((d.lastRefresh ++ [_]).find? _).bind _ = _
    rw [List.find?_append]
    by_cases h : object = table
    · subst h
      simp [hnone]
    · have hne : table ≠ object := fun heq => h heq.symm
      simp [h, hne, getLastChange]

/-! ## What a time in `_last_refresh` says -/

/-- A time of the last change that is recorded is not ahead of the upstream table, and if it is that
of its latest change then the table is the upstream table. -/
def Downstream.Current (up : String → Commit α) (d : Downstream α) : Prop :=
  ∀ table, Faithful (up table).whence (some (up table).contents) (getLastChange d table)
    (d.tables table)

/-- What a run has in hand between two of its steps. -/
def Phase.Current (up : String → Commit α) (d : Downstream α) : Phase → Prop
  | .next => True
  | .copy table upts => ∀ w, upts = some w → w ≤ (up table).whence
  | .record table upts =>
    Faithful (up table).whence (some (up table).contents) upts (d.tables table)

def Run.Current (up : String → Commit α) (r : Run α) : Prop :=
  r.down.Current up ∧ r.phase.Current up r.down

structure World.Current (w : World α) : Prop where
  committed : ∀ table, (w.up table).whence ≤ w.clock
  down : w.down.Current w.up
  running : ∀ r, w.running = some r → r.Current w.up

/-! ## The steps of a run -/

/-- What the check reports is the time of the latest change. -/
theorem upts_le (henv : env.ReportsLastChange) {fqtable : String} {whence : ℕ}
    (h : r.upts env up fqtable = some whence) :
    whence ≤ (up (splitTable fqtable).2).whence := by
  rw [Run.upts, checkIfRefreshNeeded, henv, Option.filter_eq_some_iff] at h
  obtain rfl := Option.some.inj h.1
  exact le_rfl

/-- **The check.**  It finds nothing only if the table has a recorded time that is not behind. -/
theorem current_of_upts_eq_none (henv : env.ReportsLastChange) (hd : r.down.Current up)
    {fqtable : String} (h : r.upts env up fqtable = none) :
    r.down.tables (splitTable fqtable).2 = some (up (splitTable fqtable).2).contents := by
  rw [Run.upts, checkIfRefreshNeeded, henv, Option.filter_eq_none_iff] at h
  have hle := h _ rfl
  rw [decide_eq_true_eq, not_lt] at hle
  have hcurrent := hd (splitTable fqtable).2
  cases hlast : getLastChange r.down (splitTable fqtable).2 with
  | none =>
    -- every change is after 1970
    rw [hlast, Option.getD_none] at hle
    exact absurd hle (not_le_of_gt (up (splitTable fqtable).2).afterEpoch)
  | some whence =>
    rw [hlast] at hle hcurrent
    exact hcurrent.eq_of_le hle

theorem Downstream.Current.copy (hd : d.Current up) {contents : Option α}
    (h : contents = some (up table).contents) :
    Downstream.Current up { d with tables := Function.update d.tables table contents } := by
  intro table'
  by_cases heq : table' = table
  · subst heq
    show Faithful _ _ (getLastChange d table') (Function.update d.tables table' contents table')
    rw [Function.update_self, h]
    exact .of_copy fun w hw => (hd table' w hw).1
  · show Faithful _ _ (getLastChange d table') (Function.update d.tables table contents table')
    rw [Function.update_of_ne heq]
    exact hd table'

theorem Downstream.Current.record (hd : d.Current up)
    (h : Faithful (up table).whence (some (up table).contents) upts (d.tables table)) :
    (updateMyRefresh d table upts).Current up := by
  intro table'
  have htables : (updateMyRefresh d table upts).tables = d.tables := by
    unfold updateMyRefresh
    split <;> rfl
  rw [getLastChange_updateMyRefresh, htables]
  split
  next heq => exact heq ▸ h
  next => exact hd table'

theorem Run.Current.proceed (henv : env.ReportsLastChange) (hcopy : env.CopiesWhatItReads)
    (h : r.Current up) : (r.proceed env up).Current up := by
  obtain ⟨config, d, todo, phase⟩ := r
  obtain ⟨hd, hphase⟩ := h
  cases phase with
  | next =>
    cases todo with
    | nil => exact ⟨hd, trivial⟩
    | cons fqtable todo =>
      unfold Run.proceed
      dsimp only
      split
      · exact ⟨hd, trivial⟩
      split
      · exact ⟨hd, fun _ hw => upts_le henv hw⟩
      · exact ⟨hd, trivial⟩
  | copy table upts =>
    have hread := hcopy (d.tables table) (up table).contents
    refine ⟨hd.copy hread, ?_⟩
    unfold Run.proceed
    dsimp only
    split
    · show Faithful _ _ upts (Function.update d.tables table _ table)
      rw [Function.update_self, hread]
      exact .of_copy hphase
    · trivial
  | record table upts => exact ⟨hd.record hphase, trivial⟩

/-! ## Commits upstream -/

theorem up_commit (w : World α) (table : String) (wait : ℕ) (changes : String → Option α) :
    (w.commit wait changes).up table = w.up table ∨
    ((w.commit wait changes).up table).whence = w.clock + wait + 1 := by
  unfold World.commit
  dsimp only
  split
  · exact .inl rfl
  · exact .inr rfl

section Commit

variable (wait : ℕ) (changes : String → Option α)

/-- A table that changes is ahead of every time that was recorded. -/
theorem faithful_commit (hclock : ∀ table, (w.up table).whence ≤ w.clock) {mark : Option ℕ}
    {copy : Option α}
    (h : Faithful (w.up table).whence (some (w.up table).contents) mark copy) :
    Faithful ((w.commit wait changes).up table).whence
      (some ((w.commit wait changes).up table).contents) mark copy := by
  rcases up_commit w table wait changes with heq | heq
  · rwa [heq]
  · have hlt : (w.up table).whence < ((w.commit wait changes).up table).whence := by
      have := hclock table
      omega
    exact h.of_newer hlt

theorem Run.Current.commit (hclock : ∀ table, (w.up table).whence ≤ w.clock)
    (h : r.Current w.up) : r.Current (w.commit wait changes).up := by
  obtain ⟨config, d, todo, phase⟩ := r
  obtain ⟨hd, hphase⟩ := h
  refine ⟨fun table => faithful_commit wait changes hclock (hd table), ?_⟩
  cases phase with
  | next => trivial
  | copy table upts =>
    intro whence hw
    have hle := hphase whence hw
    rcases up_commit w table wait changes with heq | heq
    · rwa [heq]
    · have := hclock table
      omega
  | record table upts => exact faithful_commit wait changes hclock hphase

theorem World.Current.commit (h : w.Current) : (w.commit wait changes).Current := by
  constructor
  · intro table
    show _ ≤ w.clock + wait + 1
    rcases up_commit w table wait changes with heq | heq
    · have := h.committed table
      rw [heq]
      omega
    · exact Nat.le_of_eq heq
  · exact fun table => faithful_commit wait changes h.committed (h.down table)
  · exact fun r hr => (h.running r hr).commit wait changes h.committed

end Commit

/-! ## All steps -/

theorem World.Current.finish (h : w.Current) (hr : r.Current w.up) : (w.finish r).Current := by
  refine ⟨h.committed, ?_, fun r hr => nomatch hr⟩
  show Downstream.Current w.up (if r.config.dryrun then w.down else r.down)
  split
  · exact h.down
  · exact hr.1

theorem World.Current.step (henv : env.ReportsLastChange) (hcopy : env.CopiesWhatItReads)
    (h : w.Current) (a : Input α) : (step env w a).Current := by
  cases a with
  | commit wait changes => exact h.commit wait changes
  | start config =>
    unfold TableSync.step
    cases hrun : w.running with
    | none =>
      refine ⟨h.committed, h.down, fun r hr => ?_⟩
      obtain rfl := Option.some.inj hr
      exact ⟨h.down, trivial⟩
    | some r => exact h
  | proceed =>
    unfold TableSync.step
    cases hrun : w.running with
    | none => exact h
    | some r =>
      have hr := h.running r hrun
      dsimp only
      split
      · exact h.finish hr
      · refine ⟨h.committed, h.down, fun r' hr' => ?_⟩
        obtain rfl := Option.some.inj hr'
        exact hr.proceed henv hcopy
  | rollback => exact ⟨h.committed, h.down, fun r hr => nomatch hr⟩

/-- No run is open, nor has one recorded a time. -/
structure World.Fresh (w : World α) : Prop where
  committed : ∀ table, (w.up table).whence ≤ w.clock
  unrecorded : ∀ table, getLastChange w.down table = none
  running : w.running = none

theorem World.Fresh.current (h : w.Fresh) : w.Current := by
  refine ⟨h.committed, fun table => ?_, fun r hr => ?_⟩
  · rw [h.unrecorded table]
    exact .of_none
  · rw [h.running] at hr
    cases hr

theorem run_current (henv : env.ReportsLastChange) (hcopy : env.CopiesWhatItReads)
    (hw : w.Fresh) (l : List (Input α)) : (run (step env) w l).Current :=
  run_invariant (I := World.Current) (P := fun _ _ => True)
    (fun _ a h _ => h.step henv hcopy a) hw.current (allSteps_of_forall fun _ _ => trivial)

/-- **A table is skipped only if it is the upstream table**, as of the check that skips it, after
every interleaving of runs and commits. -/
theorem skips_current (henv : env.ReportsLastChange) (hcopy : env.CopiesWhatItReads) (hw : w.Fresh)
    (l : List (Input α)) (hr : (run (step env) w l).running = some r)
    (hskips : r.Skips env (run (step env) w l).up table) :
    r.down.tables table = some ((run (step env) w l).up table).contents := by
  obtain ⟨-, fqtable, -, rfl, -, hnone, -⟩ := hskips
  have hcurrent := (run_current henv hcopy hw l).running r hr
  exact current_of_upts_eq_none henv hcurrent.1 hnone

/-! ## Two runs over one table -/

/-- A copy, and whether it changes anything. -/
def wholeTables : Upstream String where
  relationLastChanged up object _ := some (up object).whence
  copyTable table contents := (some contents, if table = some contents then 0 else 1)

def oneTable : Config := ⟨["account"], some "true", false, false, []⟩

/-- Nothing is downstream yet. -/
def emptyDownstream : World String where
  clock := 5
  up := fun _ => ⟨5, "rows", by decide⟩
  down := ⟨fun _ => none, []⟩
  running := none

/-- A run that copies the table and commits, and a second one that skips it. -/
theorem skips_current_account : ∃ r, (run (step wholeTables) emptyDownstream
      [.start oneTable, .proceed, .proceed, .proceed, .proceed, .start oneTable]).running = some r ∧
    r.Skips wholeTables emptyDownstream.up "account" ∧ r.down.tables "account" = some "rows" := by
  have hskips : (Run.start oneTable ⟨Function.update (fun _ => none) "account" (some "rows"),
      [⟨"account", some 5⟩]⟩).Skips wholeTables emptyDownstream.up "account" :=
    ⟨rfl, "account", rfl, by decide, rfl, by decide, rfl⟩
  refine ⟨_, rfl, hskips, ?_⟩
  have henv : wholeTables.ReportsLastChange := fun _ _ _ => rfl
  have hcopy : wholeTables.CopiesWhatItReads := fun _ _ => rfl
  have hfresh : emptyDownstream.Fresh := ⟨fun _ => le_rfl, fun _ => rfl, rfl⟩
  exact skips_current henv hcopy hfresh
    [.start oneTable, .proceed, .proceed, .proceed, .proceed, .start oneTable] rfl hskips

end JazzHands.TableSync

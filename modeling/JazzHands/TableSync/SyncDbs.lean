import JazzHands.Library.Runs
import Mathlib.Data.List.Sort
import Mathlib.Data.List.DropRight
import Mathlib.Data.String.Basic

/-!
# `table-sync` and the upstream database

`sync_dbs` of `table-sync.pl`, for runs over whole tables and without pushback, while transactions
commit upstream.

A run is one transaction of the downstream database, and there is one run at a time.  Upstream every
statement sees what is committed when it starts.  The statements of `postschema` do not change
tables, and what is printed or logged is left out.
-/

namespace JazzHands.TableSync

open Library

variable {α : Type}

/-! ## The two databases -/

/-- `1970-01-01 00:00:00`; times are in microseconds after it. -/
def epoch : ℕ := 0

/-- What the latest visible change of a table has left, and the time of its commit. -/
structure Commit (α : Type) where
  whence : ℕ
  contents : α
  afterEpoch : epoch < whence

/-- A row of `_last_refresh`. -/
structure LastRefresh where
  object : String
  whence : Option ℕ

/-- The tables that are there, and `_last_refresh`, which has no rows before it is created. -/
structure Downstream (α : Type) where
  tables : String → Option α
  lastRefresh : List LastRefresh

def getLastChange (d : Downstream α) (object : String) : Option ℕ :=
  (d.lastRefresh.find? fun r => r.object = object).bind (·.whence)

def updateMyRefresh (d : Downstream α) (object : String) (timestamp : Option ℕ) : Downstream α :=
  if d.lastRefresh.any fun r => r.object = object then
    { d with
      lastRefresh := d.lastRefresh.map fun r =>
        if r.object = object then { r with whence := timestamp } else r }
  else { d with lastRefresh := d.lastRefresh ++ [⟨object, timestamp⟩] }

/-- Code that is called: `backend_utils.relation_last_changed`, with the relation and the schema,
and `copy_table`, with the table downstream, what it reads upstream, and the number of changes. -/
structure Upstream (α : Type) where
  relationLastChanged : (String → Commit α) → String → String → Option ℕ
  copyTable : Option α → α → Option α × ℕ

variable (env : Upstream α)

/-- The time of the last change, if it is later than the one given. -/
def checkIfRefreshNeeded (up : String → Commit α) (object : String) (lcwhence : Option ℕ)
    (schema : Option String) : Option ℕ :=
  (env.relationLastChanged up object (schema.getD "jazzhands")).filter fun whence =>
    lcwhence.getD epoch < whence

/-! ## A run -/

/-- The configuration and the command line. -/
structure Config where
  tablemap : List String
  objectdatecheck : Option String
  force : Bool
  dryrun : Bool
  tables : List String

def Config.forceupdate (c : Config) : Bool :=
  match c.objectdatecheck with
  | none => true
  | some check => c.force || check == "" || check == "0" || check == "advisory"

/-- A key of `tablemap` with one dot is a schema and a table. -/
def splitTable (fqtable : String) : Option String × String :=
  match ((fqtable.toList.splitOn '.').rdropWhile List.isEmpty).map String.ofList with
  | [schema, table] => (some schema, table)
  | _ => (none, fqtable)

/-- Between two tables, after a check that says that the table is to be copied, or after the
copy. -/
inductive Phase
  | next
  | copy (table : String) (upts : Option ℕ)
  | record (table : String) (upts : Option ℕ)
  deriving DecidableEq

/-- A run: what its transaction sees downstream, and the keys of `tablemap` that are left. -/
structure Run (α : Type) where
  config : Config
  down : Downstream α
  todo : List String
  phase : Phase

def Run.start (config : Config) (down : Downstream α) : Run α :=
  ⟨config, down, config.tablemap.insertionSort (· ≤ ·), .next⟩

/-- The table is not one of those that are named on the command line. -/
def Config.leavesOut (c : Config) (table : String) : Bool :=
  !c.tables.isEmpty && !c.tables.contains table

/-- The check of a table. -/
def Run.upts (r : Run α) (up : String → Commit α) (fqtable : String) : Option ℕ :=
  checkIfRefreshNeeded env up (splitTable fqtable).2
    (getLastChange r.down (splitTable fqtable).2) (splitTable fqtable).1

/-- The next table is checked, the table is copied, or the time of the check is recorded. -/
def Run.proceed (r : Run α) (up : String → Commit α) : Run α :=
  match r.phase, r.todo with
  | .next, [] => r
  | .next, fqtable :: todo =>
    let table := (splitTable fqtable).2
    if r.config.leavesOut table then { r with todo := todo }
    else
      let upts := r.upts env up fqtable
      if upts.isSome || r.config.forceupdate then { r with todo := todo, phase := .copy table upts }
      else { r with todo := todo }
  | .copy table upts, _ =>
    let (contents, changes) := env.copyTable (r.down.tables table) (up table).contents
    { r with
      down := { r.down with tables := Function.update r.down.tables table contents }
      phase := if upts.isSome || changes != 0 then .record table upts else .next }
  | .record table upts, _ => { r with down := updateMyRefresh r.down table upts, phase := .next }

/-- The run is at its end. -/
def Run.atEnd (r : Run α) : Bool :=
  r.phase == .next && r.todo.isEmpty

/-- **The check that skips a table**: the table is not left out, and there is neither a later change
nor a reason to copy it all the same. -/
def Run.Skips (r : Run α) (up : String → Commit α) (table : String) : Prop :=
  r.phase = .next ∧ ∃ fqtable ∈ r.todo.head?, (splitTable fqtable).2 = table ∧
    r.config.leavesOut table = false ∧ r.upts env up fqtable = none ∧
    r.config.forceupdate = false

/-! ## Runs and commits in any order -/

/-- Both databases, the time of the last commit upstream, and the run that is open. -/
structure World (α : Type) where
  clock : ℕ
  up : String → Commit α
  down : Downstream α
  running : Option (Run α)

inductive Input (α : Type)
  | commit (wait : ℕ) (changes : String → Option α)
  | start (config : Config)
  | proceed
  | rollback

/-- A transaction upstream commits later than the last one did. -/
def World.commit (w : World α) (wait : ℕ) (changes : String → Option α) : World α :=
  { w with
    clock := w.clock + wait + 1
    up := fun table =>
      match changes table with
      | none => w.up table
      | some contents => ⟨w.clock + wait + 1, contents, Nat.succ_pos _⟩ }

/-- `finish` commits, unless it is a dry run. -/
def World.finish (w : World α) (r : Run α) : World α :=
  { w with down := if r.config.dryrun then w.down else r.down, running := none }

def step (w : World α) : Input α → World α
  | .commit wait changes => w.commit wait changes
  | .start config =>
    match w.running with
    | none => { w with running := some (Run.start config w.down) }
    | some _ => w
  | .proceed =>
    match w.running with
    | none => w
    | some r => if r.atEnd then w.finish r else { w with running := some (r.proceed env w.up) }
  | .rollback => { w with running := none }

end JazzHands.TableSync

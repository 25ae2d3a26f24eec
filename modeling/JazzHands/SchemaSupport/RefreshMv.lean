import Mathlib.Data.List.FinRange
import Mathlib.Logic.Function.Basic

/-!
# Materialized views are refreshed

`refresh_mv_if_needed` of `schema_support`, with `mv_last_updated`, `set_mv_last_updated` and
`relation_last_changed`, while transactions that write commit and other transactions refresh.

A call has two steps here: it locks the row of the view and compares the times; if need be it then
refreshes the view and records the time.  A step that has to wait for a lock changes nothing.  Plain
views are replaced by what they read.  Every table has an audit table, the schemas are in
`schema_audit_map`, and local time is never set back.
-/

namespace JazzHands.RefreshMv

variable {β ν γ : Type} {n : ℕ}

/-! ## The catalog -/

/-- A table or a materialized view. -/
inductive Relation (β ν : Type)
  | table (b : β)
  | view (v : ν)
  deriving DecidableEq

/-- A row of `pg_depend`: column 0 stands for the relation as a whole, if no column of it is
named. -/
structure Reference (β ν : Type) where
  refobj : Relation β ν
  refobjsubid : ℕ

/-- The materialized views: a query reads only what its view refers to, and no view is built on
itself. -/
structure Catalog (β ν γ : Type) where
  depends : ν → List (Reference β ν)
  query : ν → (Relation β ν → γ) → γ
  rank : ν → ℕ
  reads : ∀ v c c', (∀ r ∈ depends v, c r.refobj = c' r.refobj) → query v c = query v c'
  acyclic : ∀ v, ∀ r ∈ depends v, ∀ u, r.refobj = .view u → rank u < rank v

/-! ## Times -/

/-- A row of an audit table: `aud#timestamp`, which is `now()` of its transaction, and the time of
the commit. -/
structure AuditRow where
  timestamp : ℕ
  committed : ℕ

/-- The contents of all relations, the audit tables and `mv_refresh`. -/
structure Snapshot (β ν γ : Type) where
  contents : Relation β ν → γ
  audit : β → List AuditRow
  refresh : ν → Option ℕ

def tenDays : ℕ := 10 * 24 * 60 * 60 * 1000000

/-- Less than ten days before the last timestamp. -/
def recent (last timestamp : ℕ) : Bool := last < timestamp + tenDays

/-- The last commit among the recent rows. -/
def auditLastChanged (rows : List AuditRow) : Option ℕ :=
  (rows.map (·.timestamp)).max?.bind fun last =>
    ((rows.filter fun r => recent last r.timestamp).map (·.committed)).max?

def lastChanged (s : Snapshot β ν γ) : Relation β ν → Option ℕ
  | .table b => auditLastChanged (s.audit b)
  | .view v => s.refresh v

/-- `IF rv IS NULL OR ts > rv THEN rv := ts`. -/
def later (rv ts : Option ℕ) : Option ℕ :=
  match rv, ts with
  | none, ts => ts
  | some rv, some ts => if rv < ts then some ts else some rv
  | some rv, none => some rv

def relationLastChanged (cat : Catalog β ν γ) (s : Snapshot β ν γ) (v : ν) : Option ℕ :=
  ((cat.depends v).filter fun r => 0 < r.refobjsubid).foldl
    (fun rv r => later rv (lastChanged s r.refobj)) none

/-- `lastdat > lastref`, where no time is `-infinity`. -/
def refreshNeeded (lastdat lastref : Option ℕ) : Bool :=
  match lastdat, lastref with
  | none, _ => false
  | some _, none => true
  | some lastdat, some lastref => lastref < lastdat

/-- The time that is recorded. -/
def whence (now : ℕ) (lastref : Option ℕ) : ℕ :=
  match lastref with
  | none => now
  | some lastref => if now < lastref then lastref else now

/-! ## Transactions -/

section

variable [DecidableEq ν]

/-- A view that a transaction has refreshed. -/
structure Refreshed (ν γ : Type) where
  view : ν
  contents : γ
  refresh : ℕ

/-- A transaction that refreshes: its `now()`, the views it has refreshed, last one first, the rows of
`mv_refresh` that it has locked, and the view and `lastref` of a call that is to refresh. -/
structure Transaction (ν γ : Type) where
  now : ℕ
  refreshed : List (Refreshed ν γ)
  locked : List ν
  pending : Option (ν × Option ℕ)

def Transaction.find (t : Transaction ν γ) (v : ν) : Option (Refreshed ν γ) :=
  t.refreshed.find? fun o => o.view = v

/-- What the transaction sees. -/
def Snapshot.overlay (s : Snapshot β ν γ) (t : Transaction ν γ) : Snapshot β ν γ where
  contents
    | .table b => s.contents (.table b)
    | .view v => ((t.find v).map (·.contents)).getD (s.contents (.view v))
  audit := s.audit
  refresh v := ((t.find v).map (·.refresh)).or (s.refresh v)

structure World (β ν γ : Type) (n : ℕ) where
  clock : ℕ
  committed : Snapshot β ν γ
  running : Fin n → Option (Transaction ν γ)

/-- A transaction that writes commits; its `now()` is `age` ago.  Another one begins, makes a call of
`refresh_mv_if_needed` up to the comparison, goes on with it, or ends. -/
inductive Action (β ν γ : Type) (n : ℕ)
  | write (age : ℕ) (changes : β → Option γ)
  | begin (i : Fin n)
  | check (i : Fin n) (v : ν)
  | refresh (i : Fin n)
  | commit (i : Fin n)
  | rollback (i : Fin n)

/-- An action some time after the last one. -/
structure Input (β ν γ : Type) (n : ℕ) where
  wait : ℕ
  action : Action β ν γ n

def Snapshot.write (s : Snapshot β ν γ) (now clock : ℕ) (changes : β → Option γ) :
    Snapshot β ν γ where
  contents
    | .table b => (changes b).getD (s.contents (.table b))
    | .view v => s.contents (.view v)
  audit b := if (changes b).isSome then ⟨now, clock⟩ :: s.audit b else s.audit b
  refresh := s.refresh

def World.set (w : World β ν γ n) (i : Fin n) (t : Option (Transaction ν γ)) : World β ν γ n :=
  { w with running := Function.update w.running i t }

def World.tick (w : World β ν γ n) (wait : ℕ) : World β ν γ n :=
  { w with clock := w.clock + wait + 1 }

/-- One of the other transactions. -/
def World.others (w : World β ν γ n) (i : Fin n) (p : Transaction ν γ → Bool) : Bool :=
  (List.finRange n).any fun j => j != i && (w.running j).any p

/-- `SELECT … FOR UPDATE` locks the row, if there is one. -/
def Transaction.check (cat : Catalog β ν γ) (s : Snapshot β ν γ) (t : Transaction ν γ) (v : ν) :
    Transaction ν γ :=
  let lastref := (s.overlay t).refresh v
  let lastdat := relationLastChanged cat (s.overlay t) v
  { t with
    locked := if lastref.isSome then v :: t.locked else t.locked
    pending := if refreshNeeded lastdat lastref then some (v, lastref) else none }

def Transaction.refresh (cat : Catalog β ν γ) (s : Snapshot β ν γ) (t : Transaction ν γ) (v : ν)
    (lastref : Option ℕ) : Transaction ν γ :=
  let new := ⟨v, cat.query v (s.overlay t).contents, whence t.now lastref⟩
  { t with refreshed := new :: t.refreshed, pending := none }

end

section

variable [DecidableEq β] [DecidableEq ν]

/-- View `v` is built on view `u`. -/
def Catalog.builtOn (cat : Catalog β ν γ) (v u : ν) : Bool :=
  (cat.depends v).any fun r => r.refobj = .view u

/-- `REFRESH` takes an exclusive lock on the view and shared ones on what it reads. -/
def Catalog.conflict (cat : Catalog β ν γ) (v : ν) (t : Transaction ν γ) : Bool :=
  t.refreshed.any fun o => o.view = v || cat.builtOn o.view v || cat.builtOn v o.view

def act (cat : Catalog β ν γ) (w : World β ν γ n) : Action β ν γ n → World β ν γ n
  | .write age changes =>
    { w with committed := w.committed.write (w.clock - age) w.clock changes }
  | .begin i =>
    match w.running i with
    | none => w.set i (some ⟨w.clock, [], [], none⟩)
    | some _ => w
  | .check i v =>
    match w.running i with
    | none => w
    | some t =>
      if t.pending.isSome || w.others i fun t' => t'.locked.contains v then w
      else w.set i (some (t.check cat w.committed v))
  | .refresh i =>
    match w.running i with
    | some ⟨now, refreshed, locked, some (v, lastref)⟩ =>
      if w.others i fun t' => t'.locked.contains v || cat.conflict v t' then w
      else w.set i (some (Transaction.refresh cat w.committed
        ⟨now, refreshed, locked, some (v, lastref)⟩ v lastref))
    | _ => w
  | .commit i =>
    match w.running i with
    | none => w
    | some t =>
      if t.pending.isSome then w
      else { w with committed := w.committed.overlay t }.set i none
  | .rollback i => w.set i none

def step (cat : Catalog β ν γ) (w : World β ν γ n) (a : Input β ν γ n) : World β ν γ n :=
  act cat (w.tick a.wait) a.action

end

end JazzHands.RefreshMv

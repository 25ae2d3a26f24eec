import JazzHands.Library.Runs
import JazzHands.Postgres.Query
import JazzHands.Postgres.RowStatement
import Mathlib.Data.Fintype.Pi
import Mathlib.Data.Int.Notation

/-!
# Audit rows and their undoing

The audit trigger that `schema_support.rebuild_audit_trigger` writes, and
`schema_support.undo_audit_row`, both of `create_schema_support.sql`.

Constraints other than the primary key are left out, and so are names that need quotes.
-/

namespace JazzHands.SchemaSupport

open Postgres RowStatement

/-- A column, with the texts of its values: the one that `json_each_text(row_to_json(...))` gives,
the one of a cast to `text`, and what a literal is read as. -/
structure Column (ν : Type) where
  name : String
  json : ν → String
  text : ν → String
  input : String → Option ν
  default : Option ν

/-- The columns of a row; `none` is NULL. -/
abbrev Row (n : ℕ) (ν : Type) := Fin n → Option ν

/-- A table with its primary key, whose columns come in the order in which `get_pk_columns` finds
them. -/
structure AuditedTable (n : ℕ) (ν : Type) where
  column : Fin n → Column ν
  pks : List (Fin n)
  pks_ne_nil : pks ≠ []

inductive Action where
  | INS
  | UPD
  | DEL

/-- A row of the audit table: the columns of the table, and those that start with `aud#`. -/
structure AuditRow (n : ℕ) (ν : Type) where
  row : Row n ν
  action : Action
  timestamp : ℤ
  txid : ℕ
  user : String
  seq : ℕ

/-- The audit rows are in the order of `aud#seq`. -/
structure Db (n : ℕ) (ν : Type) where
  rows : List (Row n ν)
  audit : List (AuditRow n ν)
  seq : ℕ

/-- The transaction of a statement. -/
structure Env where
  now : ℤ
  txid : ℕ
  appuser : String

variable {n : ℕ} {ν : Type} [DecidableEq ν] (T : AuditedTable n ν)

/-! ## Statements on the table -/

def AuditedTable.key (r : Row n ν) : List (Option ν) := T.pks.map r

def checkPrimaryKey (others : List (Row n ν)) (new : Row n ν) : Result Unit := do
  raiseIf (∃ i ∈ T.pks, new i = none) .notNullViolation
    "null value in column % violates not-null constraint"
  checkUnique T.key "of the primary key" others new

def Db.record (db : Db n ν) (env : Env) (row : Row n ν) (action : Action) : Db n ν :=
  { db with
    audit := db.audit ++ [⟨row, action, env.now, env.txid, env.appuser, db.seq⟩]
    seq := db.seq + 1 }

def performAudit (env : Env) (db : Db n ν) : RowEvent (Row n ν) → Db n ν
  | .delete old => db.record env old .DEL
  | .update old new => if old ≠ new then db.record env new .UPD else db
  | .insert new => db.record env new .INS

def writeRows (env : Env) (db : Db n ν) (s : RowStatement (Row n ν)) : Result (Db n ν) := do
  let t ← s.execute (checkPrimaryKey T) db.rows
  .ok ((s.events db.rows).foldl (performAudit env) { db with rows := t })

/-- The columns of the primary key are not updated. -/
def AuditedTable.keepKey (old new : Row n ν) : Row n ν :=
  fun i => if i ∈ T.pks then old i else new i

def step (db : Db n ν) (s : Env × RowStatement (Row n ν)) : Db n ν :=
  (writeRows T s.1 db (s.2.naming T.keepKey)).toOption.getD db

/-! ## Names of columns -/

/-- The name matches `~` a text without special characters. -/
def HasText (text name : String) : Prop := text.toList <:+: name.toList
  deriving Decidable

/-- `lower(attname) LIKE 'data_%'`. -/
def LikeData (name : String) : Prop := "data".toList <+: (lower name).toList ∧ 5 ≤ name.length
  deriving Decidable

def AuditedTable.getColumns : List (Fin n) :=
  (List.finRange n).filter fun i => ¬ LikeData (T.column i).name

/-- The columns whose values are taken for an `INSERT`: `_c.key !~ 'data|aud'`. -/
def AuditedTable.valueColumns : List (Fin n) :=
  (List.finRange n).filter fun i =>
    ¬ (HasText "data" (T.column i).name ∨ HasText "aud" (T.column i).name)

/-- The columns that are compared for an `UPDATE`: those that do not match
`aud#|data_(ins|upd)_(user|date)`. -/
def AuditedTable.comparedColumns : List (Fin n) :=
  (List.finRange n).filter fun i => ∀ text ∈
    ["aud#", "data_ins_user", "data_ins_date", "data_upd_user", "data_upd_date"],
    ¬ HasText text (T.column i).name

/-! ## The statements that are built -/

/-- `column = value`. -/
structure Clause (n : ℕ) where
  column : Fin n
  value : Option String

/-- The text of a statement. -/
inductive Statement (n : ℕ) where
  | insert (cols : List (Fin n)) (vals : List (Option String))
  | delete (whcl : Clause n)
  | update (setstr : List (Clause n)) (whcl : Clause n)

/-- A literal, as a value of the column. -/
def readLiteral (c : Clause n) : Result (Option ν) :=
  match c.value with
  | none => .ok none
  | some text =>
    match (T.column c.column).input text with
    | none => raise .invalidTextRepresentation "invalid input syntax for type %"
    | some v => .ok (some v)

def readLiterals : List (Clause n) → Result (List (Fin n × Option ν))
  | [] => .ok []
  | c :: cs => do
    let v ← readLiteral T c
    let vs ← readLiterals cs
    .ok ((c.column, v) :: vs)

/-- The columns with values given to them. -/
def assign (values : List (Fin n × Option ν)) (r : Row n ν) : Row n ν := fun i =>
  match values.find? (·.1 = i) with
  | none => r i
  | some p => p.2

/-- A comparison with NULL holds of no row. -/
def matching (c : Clause n) (v : Option ν) (r : Row n ν) : Bool :=
  v.isSome && decide (r c.column = v)

def executeStatement (env : Env) (db : Db n ν) : Statement n → Result (Db n ν)
  | .insert cols vals => do
    raiseIf (cols.length ≠ vals.length) .syntaxError
      "INSERT has more target columns than expressions"
    let values ← readLiterals T (List.zipWith Clause.mk cols vals)
    writeRows T env db (.insert [assign values fun i => (T.column i).default])
  | .delete whcl => do
    let v ← readLiteral T whcl
    writeRows T env db (.delete (matching whcl v))
  | .update setstr whcl => do
    let values ← readLiterals T setstr
    let v ← readLiteral T whcl
    writeRows T env db (.update fun r =>
      if matching whcl v r = true then some (assign values r) else none)

/-! ## Undoing -/

/-- The operator `SIMILAR TO`, and the row that `SELECT ... INTO` takes. -/
structure Server (n : ℕ) (ν : Type) where
  similarTo : String → String → Bool
  first : FirstRow (Row n ν)

variable (server : Server n ν)

/-- The clause is built anew for each column of the primary key: the one for the last is left. -/
def whereClause (r : AuditRow n ν) : Clause n :=
  let x := T.pks.getLast T.pks_ne_nil
  ⟨x, (r.row x).map (T.column x).json⟩

/-- The condition on `_c.value` and `val`. -/
def Differs : Option String → Option String → Prop
  | none, none => False
  | some value, some val => server.similarTo value val = false
  | _, _ => True

instance : (value val : Option String) → Decidable (Differs server value val)
  | none, none => inferInstanceAs (Decidable False)
  | some value, some val => inferInstanceAs (Decidable (server.similarTo value val = false))
  | none, some _ => inferInstanceAs (Decidable True)
  | some _, none => inferInstanceAs (Decidable True)

/-- `setstr`. -/
def setClauses (db : Db n ν) (r : AuditRow n ν) : Result (List (Clause n)) := do
  let v ← readLiteral T (whereClause T r)
  let row := server.first.pick (db.rows.filter (matching (whereClause T r) v))
  let val := fun i => (row.bind fun r => r i).map (T.column i).text
  let value := fun i => (r.row i).map (T.column i).json
  .ok ((T.comparedColumns.filter fun i => Differs server (value i) (val i)).map fun i =>
    ⟨i, value i⟩)

/-- The statement for an audit row; `_eq` keeps its value where no column has changed. -/
def buildEq (db : Db n ν) (eq : Option (Statement n)) (r : AuditRow n ν) :
    Result (Option (Statement n)) :=
  match r.action with
  | .DEL => do
    raiseIf (T.getColumns = []) .nullValueNotAllowed "FOREACH expression must not be null"
    -- without a value, `_vals` is NULL, and so is the text of the statement
    .ok (if T.valueColumns = [] then none else some (.insert T.getColumns
      (T.valueColumns.map fun i => (r.row i).map (T.column i).json)))
  | .INS => .ok (some (.delete (whereClause T r)))
  | .UPD => do
    let setstr ← setClauses T server db r
    .ok (if setstr = [] then eq else some (.update setstr (whereClause T r)))

structure Undo (n : ℕ) (ν : Type) where
  db : Db n ν
  eq : Option (Statement n)
  tally : ℕ

def undoRow (env : Env) (u : Undo n ν) (r : AuditRow n ν) : Result (Undo n ν) := do
  let eq ← buildEq T server u.db u.eq r
  match eq with
  | none => .ok { u with eq := none }
  | some statement => do
    let db ← executeStatement T env u.db statement
    .ok ⟨db, eq, u.tally + 1⟩

/-- The arguments of `undo_audit_row` that choose audit rows. -/
structure Restriction where
  startTime : Option ℤ
  endTime : Option ℤ
  audUser : Option String
  auditIds : Option (List ℕ)
  txids : Option (List ℕ)

def Restriction.Chosen (q : Restriction) (r : AuditRow n ν) : Prop :=
  (∀ t ∈ q.startTime, t ≤ r.timestamp) ∧ (∀ t ∈ q.endTime, r.timestamp ≤ t) ∧
    (∀ u ∈ q.audUser, r.user = u) ∧ (∀ ids ∈ q.auditIds, r.seq ∈ ids) ∧
    (∀ ids ∈ q.txids, r.txid ∈ ids)
  deriving Decidable

/-- The rows that are asked for, in their order.  The ids of transactions are taken through an
`integer`, and an empty array makes the text of the query NULL. -/
def Restriction.query (q : Restriction) (audit : List (AuditRow n ν)) :
    Result (List (AuditRow n ν)) := do
  raiseIf (∃ ids ∈ q.txids, ∃ id ∈ ids, 2 ^ 31 ≤ id) .numericValueOutOfRange "integer out of range"
  raiseIf (q.auditIds = some [] ∨ q.txids = some []) .nullValueNotAllowed
    "query string argument of EXECUTE is null"
  .ok (audit.filter fun r => q.Chosen r)

def undoAuditRow (env : Env) (db : Db n ν) (q : Restriction) : Result (Db n ν × ℕ) := do
  let rows ← q.query db.audit
  let u ← rows.reverse.foldlM (undoRow T server env) ⟨db, none, 0⟩
  .ok (u.db, u.tally)

end JazzHands.SchemaSupport

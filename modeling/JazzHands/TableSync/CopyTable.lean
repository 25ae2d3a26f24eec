import JazzHands.Library.SeparatedText
import JazzHands.Library.Reconciled
import Mathlib.Data.List.Dedup
import Mathlib.Logic.Function.Basic

/-!
# `copy_table`

`copy_table` of `table-sync.pl` with what it calls there, in `GenericDB.pm` and in `Util.pm`, for a
copy of a whole table and without pushback.

A value is the text that the driver gives for it, and names are such that they need no quotes.  A
table has no constraint but its primary key, and columns no defaults.  The handles raise errors, so
a statement that the database rejects ends the run.
-/

namespace JazzHands.TableSync

open Library

/-! ## Tables -/

/-- What `get_cols` reports of a column. -/
structure Column where
  colname : String
  coltype : String
  deriving DecidableEq

/-- A row as a hash: the values of the columns, and nothing elsewhere. -/
abbrev Row := String → Option String

abbrev colnames (columns : List Column) : List String := columns.map Column.colname

/-- The values of key columns. -/
abbrev keyOf (pk : List String) (r : Row) : List (Option String) := pk.map r

/-- The constraint `PRIMARY KEY`, if there is one. -/
def Keyed (pk : List String) (rows : List Row) : Prop :=
  pk ≠ [] → (∀ r ∈ rows, ∀ v ∈ keyOf pk r, v ≠ none) ∧ (rows.map (keyOf pk)).Nodup
  deriving Decidable

/-- The rows have values in columns only. -/
def Fits (columns : List Column) (rows : List Row) : Prop :=
  ∀ r ∈ rows, ∀ c, c ∉ colnames columns → r c = none

structure Relation where
  columns : List Column
  primaryKey : List String
  rows : List Row
  keyed : Keyed primaryKey rows
  fits : Fits columns rows

/-- How a run ends early: the database rejects a statement, or the code dies with its errors. -/
inductive Failure
  | database
  | died (errors : String)

/-- New rows, unless they break the constraint. -/
def Relation.store (t : Relation) (rows : List Row) (hfits : Fits t.columns rows) :
    Except Failure Relation :=
  if h : Keyed t.primaryKey rows then .ok { t with rows := rows, keyed := h, fits := hfits }
  else .error .database

/-! ## The rows in a hash -/

/-- The order of the rows in which a database sends them, and of the keys of a hash. -/
structure Order where
  orderBy : List String → List Row → List Row
  keys : List String → List String
  orderBy_perm : ∀ pk rows, (orderBy pk rows).Perm rows
  keys_perm : ∀ ks, (keys ks).Perm ks

/-- The hash that `fetch_table` returns. -/
structure Fetched where
  columns : List Column
  row : String → Option Row
  keys : List String

/-- `join(",", ...)` of the key columns, with the empty text for NULL. -/
def joinKey (pk : List String) (r : Row) : String :=
  ",".intercalate ((keyOf pk r).map fun v => v.getD "")

/-- Rows with the same text overwrite each other. -/
def hashRows (pk : List String) (rows : List Row) : String → Option Row :=
  rows.foldl (fun rv hr => Function.update rv (joinKey pk hr) (some hr)) fun _ => none

def fetchTable (order : Order) (t : Relation) (pk : List String) : Except Failure Fetched :=
  -- `ORDER BY` without or with unknown columns
  if pk = [] ∨ ¬ ∀ c ∈ pk, c ∈ colnames t.columns then .error .database
  else
    let rows := order.orderBy pk t.rows
    .ok ⟨t.columns, hashRows pk rows, order.keys (rows.map (joinKey pk)).dedup⟩

/-! ## Statements -/

/-- `hash_table_diff`: the items of the second hash that differ, with the keys of both. -/
def hashTableDiff (columns₁ columns₂ : List Column) (hash₁ hash₂ : Row) :
    List (String × Option String) :=
  ((colnames columns₁).filter fun c => c ∈ colnames columns₂ ∧ hash₁ c ≠ hash₂ c).map fun c =>
    (c, hash₂ c)

/-- The row that an `INSERT` of some columns makes. -/
def inserted (columns : List Column) (hash : Row) : Row :=
  fun c => if c ∈ colnames columns then hash c else none

/-- The row after `SET`. -/
def overlay (hash : List (String × Option String)) (r : Row) : Row :=
  fun c => (hash.lookup c).getD (r c)

theorem fits_inserted {t : Relation} {columns : List Column} {hash : Row}
    (h : ∀ c ∈ colnames columns, c ∈ colnames t.columns) :
    Fits t.columns (t.rows ++ [inserted columns hash]) := by
  intro r hr c hc
  rcases List.mem_append.mp hr with hr | hr
  · exact t.fits r hr c hc
  · rw [List.mem_singleton.mp hr, inserted, if_neg fun hcol => hc (h c hcol)]

theorem fits_overlay {t : Relation} {hash : List (String × Option String)} {p : Row → Prop}
    [DecidablePred p] (h : ∀ x ∈ hash, x.1 ∈ colnames t.columns) :
    Fits t.columns (t.rows.map fun r => if p r then overlay hash r else r) := by
  intro r' hr' c hc
  obtain ⟨r, hr, rfl⟩ := List.mem_map.mp hr'
  have hnone : hash.lookup c = none := by
    rw [List.lookup_eq_none_iff]
    intro x hx
    rw [bne_iff_ne]
    rintro rfl
    exact hc (h x hx)
  show (if p r then overlay hash r else r) c = none
  by_cases hp : p r
  · rw [if_pos hp, overlay, hnone, Option.getD_none]
    exact t.fits r hr c hc
  · rw [if_neg hp]
    exact t.fits r hr c hc

/-- `DBInsert` of a row that was fetched with these columns. -/
def dbInsert (t : Relation) (columns : List Column) (hash : Row) : Except Failure Relation :=
  if h : ∀ c ∈ colnames columns, c ∈ colnames t.columns then
    t.store (t.rows ++ [inserted columns hash]) (fits_inserted h)
  else .error .database

/-- `DBUpdate` of the rows whose key columns are not distinct from the values. -/
def dbUpdate (t : Relation) (dbkey : List String) (keyval : List (Option String))
    (hash : List (String × Option String)) : Except Failure Relation :=
  if hash = [] then .error (.died "")
  else if dbkey.length ≠ keyval.length then
    .error (.died "DBUpdate: must be same number of values as keys")
  else if h : ∀ x ∈ hash, x.1 ∈ colnames t.columns then
    t.store (t.rows.map fun r => if keyOf dbkey r = keyval then overlay hash r else r)
      (fits_overlay h)
  else .error .database

/-- `DBDelete`, which records its error in the wrong place. -/
def dbDelete (t : Relation) (dbkey : List String) (keyval : List (Option String)) :
    Except Failure Relation :=
  if dbkey.length ≠ keyval.length then .error (.died "")
  else
    t.store (t.rows.filter fun r => keyOf dbkey r ≠ keyval) fun r hr =>
      t.fits r (List.mem_filter.mp hr).1

/-! ## Columns -/

/-- `table_identical`, whose loop ends before the last column. -/
def tableIdentical (dncols upcols : List Column) : Bool :=
  upcols.length == dncols.length &&
    (List.range (upcols.length - 1)).all fun i => upcols[i]? == dncols[i]?

def mktable (up : Relation) (pk : Option (List String)) : Except Failure Relation :=
  if ∀ c ∈ pk.getD up.primaryKey, c ∈ colnames up.columns then
    .ok
      { columns := up.columns
        primaryKey := pk.getD up.primaryKey
        rows := []
        keyed := fun _ => ⟨fun _ hr => (nomatch hr), List.nodup_nil⟩
        fits := fun _ hr => nomatch hr }
  else .error .database

/-- The table downstream is dropped, if it is there, and made again unless it is identical. -/
def syncSchema (up : Relation) (down : Option Relation) (pk : Option (List String)) :
    Except Failure (Option Relation) :=
  if tableIdentical (down.elim [] Relation.columns) up.columns then .ok down
  else (mktable up pk).map some

/-! ## The loops -/

/-- `split(/,/, ...)`, which drops empty texts at the end. -/
def splitKey (k : String) : List String := (fields ',' k.toList).map String.ofList

/-- The pieces of a text, filled up with undefined values. -/
def dbKey (pk : List String) (k : String) : List (Option String) :=
  (splitKey k).map some ++ List.replicate (pk.length - (splitKey k).length) none

/-- A key upstream: the row is inserted, or updated where it differs. -/
def copyRow (pk : List String) (fromt downt : Fetched) (s : Relation × ℕ) (k : String) :
    Except Failure (Relation × ℕ) :=
  match fromt.row k, downt.row k with
  | none, _ => .ok s
  | some u, none => (dbInsert s.1 fromt.columns u).map fun t => (t, s.2 + 1)
  | some u, some d =>
    let diff := hashTableDiff downt.columns fromt.columns d u
    if diff = [] then .ok s
    else (dbUpdate s.1 pk (dbKey pk k) diff).map fun t => (t, s.2 + 1)

/-- A key downstream: the row is deleted if it is not upstream. -/
def purgeRow (pk : List String) (fromt : Fetched) (s : Relation × ℕ) (k : String) :
    Except Failure (Relation × ℕ) :=
  match fromt.row k with
  | none => (dbDelete s.1 pk (dbKey pk k)).map fun t => (t, s.2 + 1)
  | some _ => .ok s

structure CopyConfig where
  schemasync : Bool
  pk : Option (List String)

/-- The columns that identify a row: those that are configured, or the primary key upstream. -/
def CopyConfig.key (c : CopyConfig) (up : Relation) : List String := c.pk.getD up.primaryKey

/-- The table downstream when the rows are compared. -/
def CopyConfig.prepare (c : CopyConfig) (up : Relation) (down : Option Relation) :
    Except Failure (Option Relation) :=
  if c.schemasync then syncSchema up down c.pk else .ok down

/-- The rows of two tables are compared, and those downstream changed. -/
def copyRows (uporder dnorder : Order) (pk : List String) (up down : Relation) :
    Except Failure (Relation × ℕ) := do
  let fromt ← fetchTable uporder up pk
  let downt ← fetchTable dnorder down pk
  let s ← fromt.keys.foldlM (copyRow pk fromt downt) (down, 0)
  downt.keys.foldlM (purgeRow pk fromt) s

/-- The table downstream after the copy, and the number of changes. -/
def copyTable (uporder dnorder : Order) (c : CopyConfig) (up : Relation) (down : Option Relation) :
    Except Failure (Relation × ℕ) := do
  match ← c.prepare up down with
  | none => .error .database
  | some t => copyRows uporder dnorder (c.key up) up t

end JazzHands.TableSync

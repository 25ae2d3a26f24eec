import JazzHands.Library.Sync
import JazzHands.Postgres.RowStatement
import Mathlib.Data.Int.Notation
import Mathlib.Data.List.Dedup
import Mathlib.Data.List.Perm.Basic
import Mathlib.Logic.Function.Basic

/-!
# Cache tables are brought into line with their views

`schema_support.synchronize_cache_tables` of `create_schema_support_cache_tables.sql`.

Whole rows are compared as records, for which NULLs are alike.  Names with an apostrophe, which do
not fit in the text of the query, are left out.
-/

namespace JazzHands.Cache
namespace Synchronize

open Postgres RowStatement Library

/-- The columns of a row; `none` is NULL. -/
abbrev Row (ν : Type) := List (Option ν)

/-- A row of `schema_support.cache_table`.  Of its `create_options` the columns that are
`GENERATED ALWAYS` matter, by their positions. -/
structure CacheTable (ν : Type) where
  cacheTableSchema : String
  cacheTable : String
  definingViewSchema : String
  definingView : String
  updatesEnabled : Bool
  generated : ℕ → Option (Row ν → Option ν)

/-- A row of `schema_support.cache_table_update_log`. -/
structure UpdateLog where
  cacheTableSchema : String
  cacheTable : String
  updateTimestamp : ℤ
  rowsInserted : ℕ
  rowsDeleted : ℕ
  forced : Bool

structure Db (ν : Type) where
  cacheTable : List (CacheTable ν)
  /-- The rows of tables, by schema and name. -/
  table : String × String → List (Row ν)
  view : String × String → List (Row ν)
  /-- The positions of the columns of a primary key. -/
  primaryKey : String × String → List ℕ
  cacheTableUpdateLog : List UpdateLog

variable {ν : Type}

def CacheTable.name (ct : CacheTable ν) : String × String := (ct.cacheTableSchema, ct.cacheTable)

def CacheTable.view (ct : CacheTable ν) : String × String := (ct.definingViewSchema, ct.definingView)

/-- The row that is stored for the columns that are copied. -/
def CacheTable.stored (ct : CacheTable ν) (r : Row ν) : Row ν :=
  let copied := r.mapIdx fun i v => if (ct.generated i).isSome then none else v
  r.mapIdx fun i v => match ct.generated i with
    | none => v
    | some expression => expression copied

variable [DecidableEq ν]

/-- `SELECT * FROM a EXCEPT SELECT * FROM b`. -/
def except (a b : List (Row ν)) : List (Row ν) := (missing a b).dedup

def keyOf (pk : List ℕ) (r : Row ν) : List (Option ν) := pk.map fun i => r.getD i none

def checkPrimaryKey (pk : List ℕ) (others : List (Row ν)) (new : Row ν) : Result Unit := do
  raiseIf (∃ i ∈ pk, new.getD i none = none) .notNullViolation
    "null value in column % violates not-null constraint"
  checkUnique (keyOf pk) "of the primary key" others new

/-- What is written to the log. -/
def report (now : ℤ) (ct : CacheTable ν) (inserted deleted : ℕ) : List UpdateLog :=
  if inserted > 0 ∨ deleted > 0 then
    [⟨ct.cacheTableSchema, ct.cacheTable, now, inserted, deleted, false⟩]
  else []

def synchronizeCacheTable (now : ℤ) (db : Db ν) (ct : CacheTable ν) : Result (Db ν) := do
  let view := db.view ct.view
  let wanted := except view (db.table ct.name)
  let new := (view.filter (· ∈ wanted)).map ct.stored
  let t ← (RowStatement.insert new).execute (checkPrimaryKey (db.primaryKey ct.name))
    (db.table ct.name)
  let surplus := except t view
  .ok { db with
    table := Function.update db.table ct.name (t.filter (· ∉ surplus))
    cacheTableUpdateLog := db.cacheTableUpdateLog ++
      report now ct new.length (t.filter (· ∈ surplus)).length }

/-- The rows of `schema_support.cache_table` that the query finds. -/
def Chosen (schema? table? : Option String) (ct : CacheTable ν) : Prop :=
  match schema?, table? with
  | none, _ => ct.updatesEnabled = true
  | some schema, none => ct.cacheTableSchema = schema ∧ ct.updatesEnabled = true
  | some schema, some table => ct.cacheTableSchema = schema ∧ ct.cacheTable = table

instance (schema? table? : Option String) : DecidablePred (Chosen (ν := ν) schema? table?) :=
  fun ct => match schema?, table? with
    | none, _ => inferInstanceAs (Decidable (ct.updatesEnabled = true))
    | some schema, none =>
      inferInstanceAs (Decidable (ct.cacheTableSchema = schema ∧ ct.updatesEnabled = true))
    | some schema, some table =>
      inferInstanceAs (Decidable (ct.cacheTableSchema = schema ∧ ct.cacheTable = table))

def synchronizeCacheTables (now : ℤ) (db : Db ν) (schema? table? : Option String) :
    Result (Db ν) := do
  raiseIf (schema? = none ∧ table? ≠ none) .nullValueNotAllowed
    "Must specify cache_table_schema if cache_table is passed"
  (db.cacheTable.filter fun ct => Chosen schema? table? ct).foldlM (synchronizeCacheTable now) db

/-- Rows that the table can hold. -/
structure Allowed (pk : List ℕ) (ct : CacheTable ν) (rows : List (Row ν)) : Prop where
  notNull : ∀ r ∈ rows, ∀ i ∈ pk, r.getD i none ≠ none
  unique : (rows.map (keyOf pk)).Nodup
  generated : ∀ r ∈ rows, ct.stored r = r

/-- The call leaves the rows of the view in the table and their number in the log, and a second call
leaves everything as it is. -/
def Synchronized (now now' : ℤ) (db : Db ν) (ct : CacheTable ν) : Prop :=
  ∃ t, t.Perm (db.view ct.view) ∧ ∃ db', db' = { db with
      table := Function.update db.table ct.name t
      cacheTableUpdateLog := db.cacheTableUpdateLog ++
        report now ct (missing t (db.table ct.name)).length
          (missing (db.table ct.name) t).length } ∧
    synchronizeCacheTables now db (some ct.cacheTableSchema) (some ct.cacheTable) = .ok db' ∧
    synchronizeCacheTables now' db' (some ct.cacheTableSchema) (some ct.cacheTable) = .ok db'

variable {now now' : ℤ} {db : Db ν} {ct : CacheTable ν} {rows view : List (Row ν)} {pk : List ℕ}
  {r s : Row ν}

theorem mem_except {a b : List (Row ν)} : r ∈ except a b ↔ r ∈ a ∧ r ∉ b := by
  rw [except, List.mem_dedup, mem_missing]

theorem synchronizeCacheTables_eq
    (hnames : (db.cacheTable.map CacheTable.name).Nodup) (hct : ct ∈ db.cacheTable) :
    synchronizeCacheTables now db (some ct.cacheTableSchema) (some ct.cacheTable) =
      synchronizeCacheTable now db ct := by
  have hfilter : (db.cacheTable.filter fun c =>
      Chosen (some ct.cacheTableSchema) (some ct.cacheTable) c) = [ct] := by
    rw [← filter_key hnames hct]
    refine List.filter_congr fun c _ => decide_eq_decide.mpr ?_
    show c.cacheTableSchema = ct.cacheTableSchema ∧ c.cacheTable = ct.cacheTable ↔ c.name = ct.name
    rw [CacheTable.name, CacheTable.name, Prod.mk.injEq]
  rw [synchronizeCacheTables, hfilter]
  simp only [List.foldlM_cons, List.foldlM_nil, bind_pure]
  rw [raiseIf, if_neg (fun h => Option.some_ne_none _ h.1)]
  rfl

/-! ## The two statements -/

theorem checkPrimaryKey_ok (h : checkPrimaryKey pk rows r = .ok ()) :
    (∀ i ∈ pk, r.getD i none ≠ none) ∧ ∀ s ∈ rows, keyOf pk s ≠ keyOf pk r := by
  obtain ⟨hnull, hunique⟩ := bind_unit_eq_ok.mp h
  exact ⟨fun i hi hnone => raiseIf_eq_ok.mp hnull ⟨i, hi, hnone⟩, checkUnique_ok hunique⟩

theorem checkPrimaryKey_of_new (hnull : ∀ i ∈ pk, r.getD i none ≠ none)
    (hunique : ∀ s ∈ rows, keyOf pk s ≠ keyOf pk r) : checkPrimaryKey pk rows r = .ok () := by
  refine bind_unit_eq_ok.mpr ⟨raiseIf_eq_ok.mpr ?_, raiseIf_eq_ok.mpr ?_⟩
  · exact fun ⟨i, hi, hnone⟩ => hnull i hi hnone
  · exact fun ⟨s, hs, heq⟩ => hunique s hs heq

variable {new t : List (Row ν)}

theorem insertRows_of_new (hnull : ∀ r ∈ new, ∀ i ∈ pk, r.getD i none ≠ none)
    (hunique : ((rows ++ new).map (keyOf pk)).Nodup) :
    insertRows (checkPrimaryKey pk) rows new = .ok (rows ++ new) := by
  induction new generalizing rows with
  | nil => rw [insertRows, List.append_nil]
  | cons r new ih =>
    rw [List.forall_mem_cons] at hnull
    rw [insertRows, bind_unit_eq_ok]
    constructor
    · refine checkPrimaryKey_of_new hnull.1 fun s hs heq => ?_
      rw [List.map_append, List.nodup_append] at hunique
      exact hunique.2.2 _ (List.mem_map_of_mem hs) _ (List.mem_map_of_mem List.mem_cons_self) heq
    · have happend : rows ++ r :: new = rows ++ [r] ++ new := List.append_cons rows r new
      rw [happend] at hunique ⊢
      exact ih hnull.2 hunique

theorem filter_wanted : view.filter (· ∈ except view rows) = missing view rows := by
  refine List.filter_congr fun r hr => ?_
  simp [mem_except, hr]

theorem filter_surplus :
    t.filter (· ∉ except t view) = t.filter (· ∈ view) := by
  refine List.filter_congr fun r hr => ?_
  simp [mem_except, hr]

theorem filter_surplus' :
    t.filter (· ∈ except t view) = missing t view := by
  refine List.filter_congr fun r hr => ?_
  simp [mem_except, hr]

/-- No row of the view has the key of another row of the table. -/
def NoneInTheWay (db : Db ν) (ct : CacheTable ν) : Prop :=
  ∀ r ∈ db.view ct.view, ∀ s ∈ db.table ct.name,
    keyOf (db.primaryKey ct.name) r = keyOf (db.primaryKey ct.name) s → r = s

theorem unique_append (hrows : (rows.map (keyOf pk)).Nodup) (hview : (view.map (keyOf pk)).Nodup)
    (hnone : ∀ r ∈ view, ∀ s ∈ rows, keyOf pk r = keyOf pk s → r = s) :
    ((rows ++ missing view rows).map (keyOf pk)).Nodup := by
  rw [List.map_append, List.nodup_append]
  refine ⟨hrows, hview.sublist (List.filter_sublist.map _), fun a ha b hb => ?_⟩
  obtain ⟨s, hs, rfl⟩ := List.mem_map.mp ha
  obtain ⟨r, hr, rfl⟩ := List.mem_map.mp hb
  obtain ⟨hr, hnot⟩ := mem_missing.mp hr
  intro heq
  exact hnot (hnone r hr s hs heq.symm ▸ hs)

theorem sync_perm (hrows : rows.Nodup) (hview : view.Nodup) :
    (sync (fun _ => true) view rows).Perm view := by
  refine (List.perm_ext_iff_of_nodup (nodup_sync hrows (hview.filter _)) hview).mpr fun r => ?_
  simp [mem_sync]

theorem filter_append_missing :
    (rows ++ missing view rows).filter (· ∈ view) = sync (fun _ => true) view rows := by
  rw [List.filter_append, sync]
  congr 1
  · exact List.filter_congr fun r _ => by simp
  · exact List.filter_eq_self.mpr fun r hr => by simpa using (mem_missing.mp hr).1

theorem missing_sync : missing (sync (fun _ => true) view rows) rows = missing view rows := by
  rw [sync, missing, List.filter_append, List.filter_eq_nil_iff.mpr, List.nil_append]
  · exact List.filter_eq_self.mpr fun r hr => by simpa using (mem_missing.mp hr).2
  · intro r hr
    simpa using (List.mem_filter.mp hr).1

theorem missing_append_missing :
    missing (rows ++ missing view rows) view = missing rows (sync (fun _ => true) view rows) := by
  rw [missing, List.filter_append]
  refine (congrArg₂ (· ++ ·) ?_ ?_).trans (List.append_nil _)
  · exact List.filter_congr fun r hr => by simp [mem_sync]
  · exact List.filter_eq_nil_iff.mpr fun r hr => by simpa using (mem_missing.mp hr).1

/-! ## A call that succeeds -/

def Db.synchronized (now : ℤ) (db : Db ν) (ct : CacheTable ν) : Db ν :=
  { db with
    table := Function.update db.table ct.name
      (sync (fun _ => true) (db.view ct.view) (db.table ct.name))
    cacheTableUpdateLog := db.cacheTableUpdateLog ++ report now ct
      (missing (db.view ct.view) (db.table ct.name)).length
      (missing (db.table ct.name)
        (sync (fun _ => true) (db.view ct.view) (db.table ct.name))).length }

theorem synchronizeCacheTable_eq (hcache : Allowed (db.primaryKey ct.name) ct (db.table ct.name))
    (hview : Allowed (db.primaryKey ct.name) ct (db.view ct.view)) (hnone : NoneInTheWay db ct) :
    synchronizeCacheTable now db ct = .ok (db.synchronized now ct) := by
  have hnew : ((db.view ct.view).filter (· ∈ except (db.view ct.view) (db.table ct.name))).map
      ct.stored = missing (db.view ct.view) (db.table ct.name) := by
    rw [filter_wanted]
    refine (List.map_congr_left fun r hr => ?_).trans (List.map_id' _)
    exact hview.generated r (mem_missing.mp hr).1
  have hinsert := insertRows_of_new
    (fun r hr => hview.notNull r (mem_missing.mp hr).1)
    (unique_append hcache.unique hview.unique hnone)
  unfold synchronizeCacheTable
  dsimp only
  rw [hnew, RowStatement.execute, hinsert]
  show Except.ok _ = _
  rw [filter_surplus, filter_surplus', filter_append_missing, missing_append_missing]
  rfl

@[simp] theorem table_synchronized : (db.synchronized now ct).table ct.name =
    sync (fun _ => true) (db.view ct.view) (db.table ct.name) :=
  Function.update_self ..

theorem synchronized_of_inLine (h : sync (fun _ => true) (db.view ct.view) (db.table ct.name) =
    db.table ct.name) : db.synchronized now ct = db := by
  have hself : missing (db.table ct.name) (db.table ct.name) = [] :=
    missing_eq_nil fun _ hr => hr
  have hview : missing (db.view ct.view) (db.table ct.name) = [] := by
    rw [← missing_sync, h, hself]
  have hreport : report now ct 0 0 = [] := by simp [report]
  rw [Db.synchronized, h, Function.update_eq_self, hview, hself, List.length_nil, hreport,
    List.append_nil]

omit [DecidableEq ν] in
theorem Allowed.of_perm (h : Allowed pk ct rows) (hperm : t.Perm rows) :
    Allowed pk ct t where
  notNull := fun r hr => h.notNull r (hperm.mem_iff.mp hr)
  unique := (hperm.map _).nodup_iff.mpr h.unique
  generated := fun r hr => h.generated r (hperm.mem_iff.mp hr)

omit [DecidableEq ν] in
theorem Allowed.sublist (h : Allowed pk ct rows) (ht : t.Sublist rows) :
    Allowed pk ct t where
  notNull := fun r hr => h.notNull r (ht.subset hr)
  unique := h.unique.sublist (ht.map _)
  generated := fun r hr => h.generated r (ht.subset hr)

omit [DecidableEq ν] in
theorem stored_stored : ct.stored (ct.stored r) = ct.stored r := by
  have hcopied : (ct.stored r).mapIdx (fun i v => if (ct.generated i).isSome then none else v) =
      r.mapIdx fun i v => if (ct.generated i).isSome then none else v := by
    rw [CacheTable.stored, List.mapIdx_mapIdx]
    refine congrArg (r.mapIdx ·) (funext₂ fun i v => ?_)
    cases hgen : ct.generated i with
    | none => rfl
    | some expression => rfl
  rw [CacheTable.stored, hcopied, CacheTable.stored, List.mapIdx_mapIdx]
  refine congrArg (r.mapIdx ·) (funext₂ fun i v => ?_)
  cases hgen : ct.generated i with
  | none => rfl
  | some expression => rfl

theorem Allowed.insert (h : Allowed pk ct rows) (hnew : ∀ r ∈ new, ct.stored r = r)
    (ht : insertRows (checkPrimaryKey pk) rows new = .ok t) :
    Allowed pk ct t where
  notNull := by
    have hnull := insertRows_checked (P := fun r => ∀ i ∈ pk, r.getD i none ≠ none)
      (fun _ _ hcheck => (checkPrimaryKey_ok hcheck).1) ht
    rw [insertRows_ok ht]
    exact fun r hr => (List.mem_append.mp hr).elim (h.notNull r) (hnull r)
  unique := nodup_insertRows (fun _ _ hcheck => (checkPrimaryKey_ok hcheck).2) h.unique ht
  generated := by
    rw [insertRows_ok ht]
    exact fun r hr => (List.mem_append.mp hr).elim (h.generated r) (hnew r)

/-- **When it does what it is for.** -/
theorem synchronized_iff (hnames : (db.cacheTable.map CacheTable.name).Nodup)
    (hct : ct ∈ db.cacheTable) (hcache : Allowed (db.primaryKey ct.name) ct (db.table ct.name)) :
    Synchronized now now' db ct ↔ Allowed (db.primaryKey ct.name) ct (db.view ct.view) ∧ NoneInTheWay db ct := by
  constructor
  · rintro ⟨t, hperm, db', hdb', hcall, -⟩
    rw [synchronizeCacheTables_eq hnames hct] at hcall
    obtain ⟨t₁, ht₁, hcall⟩ := bind_eq_ok.mp hcall
    have hallowed : Allowed (db.primaryKey ct.name) ct t₁ := by
      refine hcache.insert (fun r hr => ?_) ht₁
      obtain ⟨r', -, rfl⟩ := List.mem_map.mp hr
      exact stored_stored
    have htable : t = t₁.filter (· ∉ except t₁ (db.view ct.view)) := by
      have h := congrArg (fun d => d.table ct.name) (hdb'.symm.trans (Except.ok.inj hcall).symm)
      simpa using h
    have hview : Allowed (db.primaryKey ct.name) ct (db.view ct.view) := by
      have ht : Allowed (db.primaryKey ct.name) ct t := by
        rw [htable]
        exact hallowed.sublist List.filter_sublist
      exact ht.of_perm hperm.symm
    refine ⟨hview, fun r hr s hs heq => ?_⟩
    by_cases hmem : r ∈ db.table ct.name
    · exact List.inj_on_of_nodup_map hcache.unique hmem hs heq
    · -- it is inserted beside a row with its key
      have hnew : r ∈ ((db.view ct.view).filter
          (· ∈ except (db.view ct.view) (db.table ct.name))).map ct.stored := by
        rw [filter_wanted]
        exact List.mem_map.mpr ⟨r, mem_missing.mpr ⟨hr, hmem⟩, hview.generated r hr⟩
      have hunique := hallowed.unique
      rw [insertRows_ok ht₁, List.map_append, List.nodup_append] at hunique
      exact absurd heq.symm
        (hunique.2.2 _ (List.mem_map_of_mem hs) _ (List.mem_map_of_mem hnew))
  · rintro ⟨hview, hnone⟩
    have hperm := sync_perm (List.Nodup.of_map _ hcache.unique) (List.Nodup.of_map _ hview.unique)
    refine ⟨_, hperm, db.synchronized now ct, ?_, ?_, ?_⟩
    · rw [missing_sync]
      rfl
    · rw [synchronizeCacheTables_eq hnames hct]
      exact synchronizeCacheTable_eq hcache hview hnone
    · have hnames' : ((db.synchronized now ct).cacheTable.map CacheTable.name).Nodup := hnames
      have hcache' : Allowed (db.primaryKey ct.name) ct
          ((db.synchronized now ct).table ct.name) := by
        rw [table_synchronized]
        exact hview.of_perm hperm
      have hnone' : NoneInTheWay (db.synchronized now ct) ct := by
        intro r hr s hs heq
        rw [table_synchronized] at hs
        exact List.inj_on_of_nodup_map hview.unique hr (hperm.mem_iff.mp hs) heq
      have hagain : synchronizeCacheTable now' (db.synchronized now ct) ct =
          .ok ((db.synchronized now ct).synchronized now' ct) :=
        synchronizeCacheTable_eq hcache' hview hnone'
      rw [synchronizeCacheTables_eq hnames' hct, hagain, synchronized_of_inLine]
      rw [table_synchronized]
      exact sync_sync

/-- `ct_account_collection_hier_recurse`: the ids of a collection and of one above it, the path
between them, its length, and whether it is a cycle. -/
def ctAccountCollectionHierRecurse : CacheTable (List ℕ) where
  cacheTableSchema := "jazzhands_cache"
  cacheTable := "ct_account_collection_hier_recurse"
  definingViewSchema := "jazzhands_cache"
  definingView := "v_account_collection_hier_recurse"
  updatesEnabled := true
  generated
    | 3 => some fun r => (r.getD 2 none).map fun path => [path.length]
    | _ => none

/-- Collection 1 is in collection 2, and the cache table has these rows. -/
def oneInTwo (cached : List (Row (List ℕ))) : Db (List ℕ) where
  cacheTable := [ctAccountCollectionHierRecurse]
  table := fun _ => cached
  view := fun _ => [[some [1], some [1], some [1], some [1], some [0]],
    [some [2], some [2], some [2], some [1], some [0]],
    [some [1], some [2], some [1, 2], some [2], some [0]]]
  primaryKey := fun _ => [2]
  cacheTableUpdateLog := []

/-- A row for a collection that 1 is no longer in. -/
theorem surplus_synchronized :
    Synchronized 0 1 (oneInTwo [[some [1], some [1], some [1], some [1], some [0]],
      [some [1], some [3], some [1, 3], some [2], some [0]]]) ctAccountCollectionHierRecurse :=
  (synchronized_iff (by decide) List.mem_cons_self ⟨by decide, by decide, by decide⟩).mpr
    ⟨⟨by decide, by decide, by decide⟩, by unfold NoneInTheWay; decide⟩

/-- A row with the path of a missing one. -/
theorem stale_not_synchronized :
    ¬ Synchronized 0 1 (oneInTwo [[some [1], some [9], some [1, 2], some [2], some [0]]])
      ctAccountCollectionHierRecurse := by
  intro ⟨t, hperm, db', hdb', hcall, hagain⟩
  have hfails : (synchronizeCacheTables 0
      (oneInTwo [[some [1], some [9], some [1, 2], some [2], some [0]]])
      (some "jazzhands_cache") (some "ct_account_collection_hier_recurse")).toOption.isNone := by
    decide
  have hcall : synchronizeCacheTables 0
      (oneInTwo [[some [1], some [9], some [1, 2], some [2], some [0]]])
      (some "jazzhands_cache") (some "ct_account_collection_hier_recurse") = .ok db' := hcall
  rw [hcall] at hfails
  cases hfails

end Synchronize
end JazzHands.Cache

import JazzHands.SchemaSupport.UndoAudit
import Mathlib.Data.Fin.VecNotation

/-!
# Which runs are undone

A statement that can be undone leaves a `Trace`: audit rows that name, one by one, the rows that
came and went; an `UPDATE` that changes a row has no place in it.  A trace is read backwards by
`undo_trace`, which undoes one audit row at a time (`undoRow_ok`), up to the order of the rows in
the table.  `undone_run` joins the trace of a run (`trace_run`) with this.
-/

namespace JazzHands.SchemaSupport

open Postgres RowStatement Library

variable {n : ℕ} {ν : Type} [DecidableEq ν] {T : AuditedTable n ν} {server : Server n ν}
  {env : Env} {db db' : Db n ν} {t t' t'' : List (Row n ν)} {r new old : Row n ν}
  {a : AuditRow n ν} {as bs : List (AuditRow n ν)} {q : Restriction}

/-- The column of the key that is left in the clause. -/
def AuditedTable.lastKey (T : AuditedTable n ν) : Fin n := T.pks.getLast T.pks_ne_nil

/-- The value is what its text is read as. -/
def AuditedTable.Reads (T : AuditedTable n ν) (r : Row n ν) (i : Fin n) : Prop :=
  ∀ v, r i = some v → (T.column i).input ((T.column i).json v) = some v

/-- The row that is inserted for a deleted one is that row: values go with the columns that they are
of, and there are some, their texts can be read back, and the other columns had their defaults. -/
def AuditedTable.Restorable (T : AuditedTable n ν) (r : Row n ν) : Prop :=
  (T.getColumns = T.valueColumns ∧ T.getColumns ≠ []) ∧ (∀ i ∈ T.getColumns, T.Reads r i) ∧
    ∀ i ∉ T.getColumns, r i = (T.column i).default

/-- What is done to one row can be undone. -/
def UndoesRow (T : AuditedTable n ν) (after : List (Row n ν)) : RowEvent (Row n ν) → Prop
  | .insert new => T.Reads new T.lastKey ∧ ∀ r ∈ after, r ≠ new → r T.lastKey ≠ new T.lastKey
  | .delete old => T.Restorable old
  | .update old new => new = old

/-- The statements that can be undone: no `UPDATE` changes a row, a row that is inserted has its
own value in the last column of the key, and a row that is deleted can be restored. -/
def Undoes (T : AuditedTable n ν) (db : Db n ν) (s : Env × RowStatement (Row n ν)) : Prop :=
  ∀ e ∈ (s.2.naming T.keepKey).events db.rows,
    UndoesRow T ((s.2.naming T.keepKey).after db.rows) e

/-- The rows satisfy the primary key. -/
structure Keyed (T : AuditedTable n ν) (t : List (Row n ν)) : Prop where
  notNull : ∀ r ∈ t, ∀ i ∈ T.pks, r i ≠ none
  unique : (t.map T.key).Nodup

/-- The audit rows restricted to are undone: the table has the rows that it had, the number of them
is returned, and only their rows were written. -/
def Undone (T : AuditedTable n ν) (server : Server n ν) (env : Env) (q : Restriction)
    (db₀ db₁ : Db n ν) : Prop :=
  let undone := db₁.audit.drop db₀.audit.length
  ∃ db₂, undoAuditRow T server env db₁ q = .ok (db₂, undone.length) ∧ db₂.rows.Perm db₀.rows ∧
    ∀ a ∈ db₂.audit.drop db₁.audit.length, ∃ b ∈ undone, T.key a.row = T.key b.row

/-! ## Traces -/

/-- The row of an audit row was inserted or deleted, and this can be undone. -/
def TraceRow (T : AuditedTable n ν) (t : List (Row n ν)) (a : AuditRow n ν)
    (t' : List (Row n ν)) : Prop :=
  match a.action with
  | .INS => t'.Perm (a.row :: t) ∧ T.Reads a.row T.lastKey ∧ a.row T.lastKey ≠ none ∧
      ∀ r ∈ t, r T.lastKey ≠ a.row T.lastKey
  | .DEL => t.Perm (a.row :: t') ∧ T.Restorable a.row ∧ (∀ i ∈ T.pks, a.row i ≠ none) ∧
      ∀ r ∈ t', T.key r ≠ T.key a.row
  | .UPD => False

def Trace (T : AuditedTable n ν) : List (Row n ν) → List (AuditRow n ν) → List (Row n ν) → Prop
  | t, [], t' => t.Perm t'
  | t, a :: as, t' => ∃ t₁, TraceRow T t a t₁ ∧ Trace T t₁ as t'

omit [DecidableEq ν] in
theorem TraceRow.perm_left (h : TraceRow T t a t'') (hperm : t'.Perm t) : TraceRow T t' a t'' := by
  unfold TraceRow at h ⊢
  cases haction : a.action with
  | INS =>
    rw [haction] at h
    obtain ⟨ht, hreads, hnull, hown⟩ := h
    exact ⟨ht.trans (hperm.symm.cons _), hreads, hnull, fun r hr => hown r (hperm.mem_iff.mp hr)⟩
  | DEL =>
    rw [haction] at h
    exact ⟨hperm.trans h.1, h.2⟩
  | UPD =>
    rw [haction] at h
    exact h

omit [DecidableEq ν] in
theorem Trace.perm_left (h : Trace T t as t'') (hperm : t'.Perm t) : Trace T t' as t'' := by
  cases as with
  | nil => exact hperm.trans h
  | cons a as =>
    obtain ⟨t₁, ha, has⟩ := h
    exact ⟨t₁, ha.perm_left hperm, has⟩

omit [DecidableEq ν] in
theorem Trace.append (h : Trace T t as t') (h' : Trace T t' bs t'') :
    Trace T t (as ++ bs) t'' := by
  induction as generalizing t with
  | nil => exact h'.perm_left h
  | cons a as ih =>
    obtain ⟨t₁, ha, has⟩ := h
    exact ⟨t₁, ha, ih has⟩

/-! ## The trace of a run -/

def recorded : RowEvent (Row n ν) → Option (Row n ν × Action)
  | .delete old => some (old, .DEL)
  | .update old new => if old ≠ new then some (new, .UPD) else none
  | .insert new => some (new, .INS)

def AuditRow.change (a : AuditRow n ν) : Row n ν × Action := (a.row, a.action)

theorem performAudit_foldl (env : Env) (db : Db n ν) (events : List (RowEvent (Row n ν))) :
    (events.foldl (performAudit env) db).rows = db.rows ∧
      ∃ as, (events.foldl (performAudit env) db).audit = db.audit ++ as ∧
        as.map AuditRow.change = events.filterMap recorded := by
  induction events generalizing db with
  | nil => exact ⟨rfl, [], (List.append_nil _).symm, rfl⟩
  | cons e events ih =>
    have hone : (performAudit env db e).rows = db.rows ∧
        ∃ as, (performAudit env db e).audit = db.audit ++ as ∧
          as.map AuditRow.change = (recorded e).toList := by
      cases e with
      | insert new => exact ⟨rfl, [_], rfl, rfl⟩
      | delete old => exact ⟨rfl, [_], rfl, rfl⟩
      | update old new =>
        rw [performAudit, recorded]
        split_ifs
        · exact ⟨rfl, [_], rfl, rfl⟩
        · exact ⟨rfl, [], (List.append_nil _).symm, rfl⟩
    obtain ⟨hrows₁, as₁, haudit₁, has₁⟩ := hone
    obtain ⟨hrows, as, haudit, has⟩ := ih (performAudit env db e)
    refine ⟨hrows.trans hrows₁, as₁ ++ as, ?_, ?_⟩
    · rw [List.foldl_cons, haudit, haudit₁, List.append_assoc]
    · rw [List.map_append, has₁, has]
      cases hrec : recorded e with
      | none => rw [List.filterMap_cons_none hrec]; rfl
      | some c => rw [List.filterMap_cons_some hrec]; rfl

variable {s : RowStatement (Row n ν)} {rows : List (Row n ν)} {u : Undo n ν}

theorem writeRows_ok (h : writeRows T env db s = .ok db') :
    s.execute (checkPrimaryKey T) db.rows = .ok db'.rows ∧ db'.rows = s.after db.rows ∧
      ∃ as, db'.audit = db.audit ++ as ∧
        as.map AuditRow.change = (s.events db.rows).filterMap recorded := by
  obtain ⟨t, ht, h⟩ := bind_eq_ok.mp h
  obtain rfl := Except.ok.inj h
  obtain ⟨hrows, has⟩ := performAudit_foldl env { db with rows := t } (s.events db.rows)
  rw [hrows]
  exact ⟨ht, RowStatement.execute_ok ht, has⟩

omit [DecidableEq ν] in
theorem trace_inserts (has : as.map AuditRow.change = rows.map (·, Action.INS))
    (hnodup : (t ++ rows).Nodup) (hreads : ∀ r ∈ rows, T.Reads r T.lastKey)
    (hnull : ∀ r ∈ rows, r T.lastKey ≠ none)
    (hown : ∀ r ∈ rows, ∀ s ∈ t ++ rows, s ≠ r → s T.lastKey ≠ r T.lastKey) :
    Trace T t as (t ++ rows) := by
  induction rows generalizing t as with
  | nil =>
    rw [List.map_nil, List.map_eq_nil_iff] at has
    subst has
    rw [List.append_nil]
    exact List.Perm.refl t
  | cons r rows ih =>
    rw [List.map_cons, List.map_eq_cons_iff] at has
    obtain ⟨a, as', rfl, ha, has⟩ := has
    obtain ⟨rfl, haction⟩ := Prod.mk.inj ha
    rw [List.append_cons] at hnodup hown ⊢
    refine ⟨t ++ [a.row], ?_, ih has hnodup (fun s hs => hreads s (List.mem_cons_of_mem _ hs))
      (fun s hs => hnull s (List.mem_cons_of_mem _ hs))
      fun s hs => hown s (List.mem_cons_of_mem _ hs)⟩
    unfold TraceRow
    rw [haction]
    refine ⟨List.perm_append_singleton a.row t, hreads _ List.mem_cons_self,
      hnull _ List.mem_cons_self, fun s hs => ?_⟩
    refine hown a.row List.mem_cons_self s (by simp [hs]) fun heq => ?_
    rw [List.append_assoc] at hnodup
    exact (List.nodup_append.mp hnodup).2.2 s hs a.row (by simp) heq

omit [DecidableEq ν] in
theorem trace_deletes {rest : List (Row n ν)}
    (has : as.map AuditRow.change = rows.map (·, Action.DEL)) (hperm : t.Perm (rows ++ rest))
    (hkeyed : Keyed T (rows ++ rest)) (hrestorable : ∀ r ∈ rows, T.Restorable r) :
    Trace T t as rest := by
  induction rows generalizing t as with
  | nil =>
    rw [List.map_nil, List.map_eq_nil_iff] at has
    subst has
    exact hperm
  | cons r rows ih =>
    rw [List.map_cons, List.map_eq_cons_iff] at has
    obtain ⟨a, as', rfl, ha, has⟩ := has
    obtain ⟨rfl, haction⟩ := Prod.mk.inj ha
    have hunique := hkeyed.unique
    rw [List.cons_append, List.map_cons, List.nodup_cons] at hunique
    refine ⟨rows ++ rest, ?_, ih has (List.Perm.refl _)
      ⟨fun s hs => hkeyed.notNull s (List.mem_cons_of_mem _ hs), hunique.2⟩
      fun s hs => hrestorable s (List.mem_cons_of_mem _ hs)⟩
    unfold TraceRow
    rw [haction]
    refine ⟨hperm, hrestorable _ List.mem_cons_self, hkeyed.notNull _ List.mem_cons_self,
      fun s hs heq => hunique.1 ?_⟩
    rw [← heq]
    exact List.mem_map_of_mem hs

theorem checkPrimaryKey_ok (h : checkPrimaryKey T t r = .ok ()) :
    (∀ i ∈ T.pks, r i ≠ none) ∧ ∀ s ∈ t, T.key s ≠ T.key r := by
  obtain ⟨hnull, hunique⟩ := bind_unit_eq_ok.mp h
  exact ⟨fun i hi hnone => raiseIf_eq_ok.mp hnull ⟨i, hi, hnone⟩, checkUnique_ok hunique⟩

/-- A statement that can be undone writes rows of the key, and leaves a trace. -/
theorem trace_write (hkeyed : Keyed T db.rows)
    (hs : ∀ e ∈ s.events db.rows, UndoesRow T (s.after db.rows) e)
    (h : writeRows T env db s = .ok db') :
    Keyed T db'.rows ∧ ∃ as, db'.audit = db.audit ++ as ∧ Trace T db.rows as db'.rows := by
  obtain ⟨hexecute, hrows, as, haudit, has⟩ := writeRows_ok h
  have hunique : (db'.rows.map T.key).Nodup :=
    nodup_execute (fun _ _ hcheck => (checkPrimaryKey_ok hcheck).2) hkeyed.unique hexecute
  cases s with
  | insert rows =>
    have hnull : ∀ r ∈ rows, ∀ i ∈ T.pks, r i ≠ none :=
      insertRows_checked (fun _ _ hcheck => (checkPrimaryKey_ok hcheck).1) hexecute
    have hevents : ∀ r ∈ rows, T.Reads r T.lastKey ∧ ∀ s ∈ db.rows ++ rows, s ≠ r →
        s T.lastKey ≠ r T.lastKey := fun r hr => hs _ (List.mem_map_of_mem hr)
    rw [hrows] at hunique ⊢
    refine ⟨⟨fun r hr => ?_, hunique⟩, as, haudit, ?_⟩
    · exact (List.mem_append.mp hr).elim (hkeyed.notNull r) (hnull r)
    · refine trace_inserts (has.trans ?_) (List.Nodup.of_map _ hunique)
        (fun r hr => (hevents r hr).1) (fun r hr => hnull r hr _ (List.getLast_mem _))
        fun r hr => (hevents r hr).2
      rw [events, List.filterMap_map]
      show rows.filterMap (fun r => some (r, Action.INS)) = _
      rw [List.filterMap_eq_map']
  | update set =>
    have hnone : ((RowStatement.update set).events db.rows).filterMap recorded = [] := by
      refine List.filterMap_eq_nil_iff.mpr fun e he => ?_
      obtain ⟨old, -, new, -, rfl⟩ := exists_of_update he
      rw [recorded, if_neg]
      exact fun hne => hne (hs _ he).symm
    have hsame : db'.rows = db.rows := by
      rw [hrows, after]
      refine (List.map_congr_left fun r hr => ?_).trans (List.map_id' _)
      cases hset : set r with
      | none => rfl
      | some new =>
        exact hs (.update r new) (List.mem_filterMap.mpr ⟨r, hr, by rw [hset]; rfl⟩)
    rw [hnone, List.map_eq_nil_iff] at has
    subst has
    rw [hsame]
    exact ⟨hkeyed, [], haudit, List.Perm.refl _⟩
  | delete cond =>
    have hperm : db.rows.Perm (db.rows.filter cond ++ db'.rows) := by
      rw [hrows]
      exact (List.filter_append_perm cond db.rows).symm
    refine ⟨⟨fun r hr => ?_, hunique⟩, as, haudit, ?_⟩
    · rw [hrows] at hr
      exact hkeyed.notNull r (List.mem_filter.mp hr).1
    · refine trace_deletes (has.trans ?_) hperm ⟨fun r hr => ?_, ?_⟩
        fun r hr => hs _ (List.mem_map_of_mem hr)
      · rw [events, List.filterMap_map]
        show (db.rows.filter cond).filterMap (fun r => some (r, Action.DEL)) = _
        rw [List.filterMap_eq_map']
      · exact hkeyed.notNull r (hperm.mem_iff.mpr hr)
      · exact (hperm.map _).nodup_iff.mp hkeyed.unique

theorem trace_run {l : List (Env × RowStatement (Row n ν))} (hkeyed : Keyed T db.rows)
    (hl : AllSteps (step T) (Undoes T) db l) :
    ∃ as, (run (step T) db l).audit = db.audit ++ as ∧
      Trace T db.rows as (run (step T) db l).rows := by
  induction l generalizing db with
  | nil => exact ⟨[], (List.append_nil _).symm, List.Perm.refl _⟩
  | cons s l ih =>
    have hstep : Keyed T (step T db s).rows ∧ ∃ as, (step T db s).audit = db.audit ++ as ∧
        Trace T db.rows as (step T db s).rows := by
      cases hok : writeRows T s.1 db (s.2.naming T.keepKey) with
      | error e =>
        rw [step, hok]
        exact ⟨hkeyed, [], (List.append_nil _).symm, List.Perm.refl _⟩
      | ok db' =>
        rw [step, hok]
        exact trace_write hkeyed hl.1 hok
    obtain ⟨hkeyed₁, as₁, haudit₁, htrace₁⟩ := hstep
    obtain ⟨as, haudit, htrace⟩ := ih hkeyed₁ hl.2
    refine ⟨as₁ ++ as, ?_, htrace₁.append htrace⟩
    rw [run_cons, haudit, haudit₁, List.append_assoc]

/-! ## Going back -/

omit [DecidableEq ν] in
theorem readLiteral_of_reads {i : Fin n} (h : T.Reads r i) :
    readLiteral T ⟨i, (r i).map (T.column i).json⟩ = .ok (r i) := by
  rw [readLiteral]
  cases hr : r i with
  | none => rfl
  | some v =>
    dsimp only [Option.map_some]
    rw [h v hr]

omit [DecidableEq ν] in
theorem readLiterals_of_reads {cols : List (Fin n)} (h : ∀ i ∈ cols, T.Reads r i) :
    readLiterals T (List.zipWith Clause.mk cols (cols.map fun i => (r i).map (T.column i).json)) =
      .ok (cols.map fun i => (i, r i)) := by
  induction cols with
  | nil => rfl
  | cons i cols ih =>
    rw [List.forall_mem_cons] at h
    rw [List.map_cons, List.zipWith_cons_cons, readLiterals, readLiteral_of_reads h.1, ih h.2]
    rfl

omit [DecidableEq ν] in
theorem assign_restorable (h : T.Restorable r) :
    assign (T.getColumns.map fun i => (i, r i)) (fun i => (T.column i).default) = r := by
  funext i
  unfold assign
  cases hfind : (T.getColumns.map fun j => (j, r j)).find? (·.1 = i) with
  | none =>
    refine (h.2.2 i fun hi => ?_).symm
    have hmem : (i, r i) ∈ T.getColumns.map fun j => (j, r j) := List.mem_map_of_mem hi
    simpa using List.find?_eq_none.mp hfind _ hmem
  | some p =>
    obtain ⟨j, -, rfl⟩ := List.mem_map.mp (List.mem_of_find?_eq_some hfind)
    have hj : j = i := by simpa using List.find?_some hfind
    rw [← hj]

/-- What undoing one audit row leaves. -/
structure UndoneRow (T : AuditedTable n ν) (a : AuditRow n ν) (t : List (Row n ν))
    (u u' : Undo n ν) : Prop where
  rows : u'.db.rows.Perm t
  tally : u'.tally = u.tally + 1
  audit : ∃ bs, u'.db.audit = u.db.audit ++ bs ∧ ∀ b ∈ bs, b.row = a.row

theorem undoRow_of {statement : Statement n}
    (hbuild : buildEq T server u.db u.eq a = .ok (some statement))
    (hexecute : executeStatement T env u.db statement = .ok db') :
    undoRow T server env u a = .ok ⟨db', some statement, u.tally + 1⟩ := by
  rw [undoRow, hbuild]
  show (executeStatement T env u.db statement >>= fun db => _) = _
  rw [hexecute]
  rfl

theorem undoRow_ins (haction : a.action = .INS) (h : TraceRow T t a t') (hu : u.db.rows.Perm t') :
    ∃ u', undoRow T server env u a = .ok u' ∧ UndoneRow T a t u u' := by
  unfold TraceRow at h
  rw [haction] at h
  obtain ⟨hperm, hreads, hnull, hown⟩ := h
  obtain ⟨v, hv⟩ := Option.ne_none_iff_exists'.mp hnull
  have hread : readLiteral T (whereClause T a) = .ok (some v) := by
    rw [← hv]
    exact readLiteral_of_reads hreads
  have hmatches : ∀ r, matching (whereClause T a) (some v) r = true ↔
      r T.lastKey = a.row T.lastKey := by
    intro r
    rw [hv, matching, Option.isSome_some, Bool.true_and, decide_eq_true_eq]
    rfl
  have hothers : ∀ r ∈ t, (!matching (whereClause T a) (some v) r) = true := by
    intro r hr
    rw [Bool.not_eq_true', Bool.eq_false_iff, ne_eq, hmatches]
    exact hown r hr
  obtain ⟨d, hd⟩ : ∃ d, writeRows T env u.db (.delete (matching (whereClause T a) (some v))) =
      .ok d := ⟨_, rfl⟩
  have hexecute : executeStatement T env u.db (.delete (whereClause T a)) = .ok d := by
    rw [executeStatement, hread]
    exact hd
  obtain ⟨-, hrows, bs, haudit, hbs⟩ := writeRows_ok hd
  refine ⟨_, undoRow_of (by rw [buildEq, haction]) hexecute, ?_, rfl, bs, haudit, fun b hb => ?_⟩
  · show d.rows.Perm t
    rw [hrows, after]
    refine ((hu.trans hperm).filter _).trans ?_
    rw [List.filter_cons_of_neg (by simp [hmatches]), List.filter_eq_self.mpr hothers]
  · have hb' : b.change ∈ bs.map AuditRow.change := List.mem_map_of_mem hb
    rw [hbs] at hb'
    obtain ⟨e, he, hrecorded⟩ := List.mem_filterMap.mp hb'
    obtain ⟨r, hr, rfl⟩ := List.mem_map.mp he
    obtain ⟨hr, hmatch⟩ := List.mem_filter.mp hr
    have hbrow : r = b.row := congrArg Prod.fst (Option.some.inj hrecorded)
    rw [← hbrow]
    refine ((List.mem_cons.mp ((hu.trans hperm).mem_iff.mp hr)).resolve_right fun hrt => ?_)
    exact hown r hrt ((hmatches r).mp hmatch)

theorem undoRow_del (haction : a.action = .DEL) (h : TraceRow T t a t') (hu : u.db.rows.Perm t') :
    ∃ u', undoRow T server env u a = .ok u' ∧ UndoneRow T a t u u' := by
  unfold TraceRow at h
  rw [haction] at h
  obtain ⟨hperm, hrestorable, hnull, hunique⟩ := h
  have hcheck : checkPrimaryKey T u.db.rows a.row = .ok () := by
    refine bind_unit_eq_ok.mpr ⟨raiseIf_eq_ok.mpr ?_, raiseIf_eq_ok.mpr ?_⟩
    · exact fun ⟨i, hi, hnone⟩ => hnull i hi hnone
    · exact fun ⟨r, hr, heq⟩ => hunique r (hu.mem_iff.mp hr) heq
  obtain ⟨d, hd⟩ : ∃ d, writeRows T env u.db (.insert [a.row]) = .ok d := by
    rw [writeRows, RowStatement.execute, insertRows, hcheck]
    exact ⟨_, rfl⟩
  have hexecute : executeStatement T env u.db (.insert T.getColumns
      (T.valueColumns.map fun i => (a.row i).map (T.column i).json)) = .ok d := by
    rw [executeStatement, ← hrestorable.1.1, List.length_map, raiseIf, if_neg (fun h => h rfl),
      readLiterals_of_reads hrestorable.2.1]
    show writeRows T env u.db (.insert [assign _ _]) = .ok d
    rw [assign_restorable hrestorable]
    exact hd
  have hbuild : buildEq T server u.db u.eq a = .ok (some (.insert T.getColumns
      (T.valueColumns.map fun i => (a.row i).map (T.column i).json))) := by
    obtain ⟨⟨hsame, hsome⟩, -⟩ := hrestorable
    rw [buildEq, haction]
    dsimp only
    rw [raiseIf, if_neg hsome, if_neg (hsame ▸ hsome)]
    rfl
  obtain ⟨-, hrows, bs, haudit, hbs⟩ := writeRows_ok hd
  refine ⟨_, undoRow_of hbuild hexecute, ?_, rfl, bs, haudit, fun b hb => ?_⟩
  · show d.rows.Perm t
    rw [hrows, after]
    exact (List.perm_append_singleton a.row _).trans ((hu.cons a.row).trans hperm.symm)
  · have hb' : b.change ∈ bs.map AuditRow.change := List.mem_map_of_mem hb
    rw [hbs] at hb'
    obtain ⟨e, he, hrecorded⟩ := List.mem_filterMap.mp hb'
    obtain ⟨r, hr, rfl⟩ := List.mem_map.mp he
    rw [← List.mem_singleton.mp hr]
    exact (congrArg Prod.fst (Option.some.inj hrecorded)).symm

theorem undoRow_ok (h : TraceRow T t a t') (hu : u.db.rows.Perm t') :
    ∃ u', undoRow T server env u a = .ok u' ∧ UndoneRow T a t u u' := by
  cases haction : a.action with
  | INS => exact undoRow_ins haction h hu
  | DEL => exact undoRow_del haction h hu
  | UPD =>
    unfold TraceRow at h
    rw [haction] at h
    exact absurd h id

theorem undo_trace (h : Trace T t as t') (hu : u.db.rows.Perm t') :
    ∃ u', as.reverse.foldlM (undoRow T server env) u = .ok u' ∧ u'.db.rows.Perm t ∧
      u'.tally = u.tally + as.length ∧
      ∃ bs, u'.db.audit = u.db.audit ++ bs ∧ ∀ b ∈ bs, ∃ a ∈ as, b.row = a.row := by
  induction as generalizing t with
  | nil =>
    exact ⟨u, rfl, hu.trans h.symm, rfl, [], (List.append_nil _).symm,
      fun b hb => absurd hb List.not_mem_nil⟩
  | cons a as ih =>
    obtain ⟨t₁, ha, has⟩ := h
    obtain ⟨u₁, hfold, hrows₁, htally₁, bs₁, haudit₁, hbs₁⟩ := ih has
    obtain ⟨u₂, hrow, hundone⟩ := undoRow_ok ha hrows₁
    obtain ⟨bs, haudit, hbs⟩ := hundone.audit
    refine ⟨u₂, ?_, hundone.rows, ?_, bs₁ ++ bs, ?_, fun b hb => ?_⟩
    · rw [List.reverse_cons, foldlM_concat_eq_ok]
      exact ⟨u₁, hfold, hrow⟩
    · rw [hundone.tally, htally₁, List.length_cons, Nat.add_assoc]
    · rw [haudit, haudit₁, List.append_assoc]
    · rcases List.mem_append.mp hb with hb | hb
      · obtain ⟨a', ha', heq⟩ := hbs₁ b hb
        exact ⟨a', List.mem_cons_of_mem _ ha', heq⟩
      · exact ⟨a, List.mem_cons_self, hbs b hb⟩

/-- **Runs that are undone.** -/
theorem undone_run {l : List (Env × RowStatement (Row n ν))} (hkeyed : Keyed T db.rows)
    (hl : AllSteps (step T) (Undoes T) db l)
    (hq : q.query (run (step T) db l).audit =
      .ok ((run (step T) db l).audit.drop db.audit.length)) :
    Undone T server env q db (run (step T) db l) := by
  obtain ⟨as, haudit, htrace⟩ := trace_run hkeyed hl
  have hdrop : (run (step T) db l).audit.drop db.audit.length = as := by
    rw [haudit, List.drop_left]
  rw [hdrop] at hq
  have hback := @undo_trace n ν _ T server env db.rows (run (step T) db l).rows as
    ⟨run (step T) db l, none, 0⟩ htrace (List.Perm.refl _)
  obtain ⟨u, hfold, hrows, htally, bs, hbs, hall⟩ := hback
  refine ⟨u.db, ?_, hrows, fun b hb => ?_⟩
  · rw [hdrop, undoAuditRow, hq]
    show (as.reverse.foldlM (undoRow T server env) ⟨run (step T) db l, none, 0⟩ >>= fun u => _) = _
    rw [hfold]
    show Except.ok (u.db, u.tally) = _
    rw [htally, Nat.zero_add]
  · rw [hbs, List.drop_left] at hb
    obtain ⟨a, ha, heq⟩ := hall b hb
    rw [hdrop]
    exact ⟨a, ha, by rw [heq]⟩

/-! ## A table with a key and one more column -/

def textColumn (name : String) : Column String := ⟨name, id, id, some, none⟩

def accounts : AuditedTable 2 String where
  column := fun i => textColumn (!["account_id", "login"] i)
  pks := [0]
  pks_ne_nil := List.cons_ne_nil _ _

def oneAccount : Db 2 String := ⟨[![some "1", some "a"]], [], 1⟩

def texts : Server 2 String := ⟨fun value val => value = val, FirstRow.listed _⟩

def at100 : Env := ⟨100, 7, "u"⟩

/-- An account comes and another one goes. -/
def accountReplaced : List (Env × RowStatement (Row 2 String)) :=
  [(at100, .insert [![some "2", some "c"]]), (at100, .delete fun r => r 0 = some "1")]

theorem accountReplaced_undone :
    Undone accounts texts at100 ⟨none, none, none, some [1, 2], none⟩ oneAccount
      (run (step accounts) oneAccount accountReplaced) := by
  refine undone_run ⟨by decide, by decide⟩ ⟨fun e he => ?_, fun e he => ?_, trivial⟩ rfl
  · obtain ⟨r, hr, rfl⟩ := List.mem_map.mp he
    obtain rfl := List.mem_singleton.mp hr
    exact ⟨fun v _ => rfl, by decide⟩
  · obtain ⟨r, -, rfl⟩ := List.mem_map.mp he
    have hall : ∀ i, i ∈ accounts.getColumns := by decide
    exact ⟨by decide, fun i _ v _ => rfl, fun i hi => absurd (hall i) hi⟩

/-- An account has another login now. -/
def loginChanged : List (Env × RowStatement (Row 2 String)) :=
  [(at100, .update fun _ => some ![some "1", some "b"])]

theorem loginChanged_not_undone :
    (⟨none, none, none, some [1], none⟩ : Restriction).query
        (run (step accounts) oneAccount loginChanged).audit =
      .ok ((run (step accounts) oneAccount loginChanged).audit.drop oneAccount.audit.length) ∧
    ¬ Undone accounts texts at100 ⟨none, none, none, some [1], none⟩ oneAccount
      (run (step accounts) oneAccount loginChanged) := by
  refine ⟨rfl, ?_⟩
  rintro ⟨db₂, hok, -⟩
  have htally : (undoAuditRow accounts texts at100 (run (step accounts) oneAccount loginChanged)
      ⟨none, none, none, some [1], none⟩).toOption.map (·.2) = some 0 := by decide
  rw [hok] at htally
  cases htally

end JazzHands.SchemaSupport

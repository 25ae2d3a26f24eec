import JazzHands.Library.KeyedRows
import JazzHands.Postgres.Error
import Mathlib.Algebra.Group.Nat.Defs
import Mathlib.Data.List.Dedup
import Mathlib.Data.List.ProdSigma

/-!
# `schema_support.relation_diff`

Whether two relations have the same rows, as schema migrations ask it of a table or view before and
after.

* `Relation`: the columns, the primary key and the rows; a view has no primary key, and may hold NULL
  or the same value twice anywhere.

How the relations are found from their names is not part of the model.
-/

namespace JazzHands.RelationDiff

open Library Postgres

variable {V : Type}

/-- A row gives each of its columns a value, or NULL. -/
abbrev Row (V : Type) : Type := String → Option V

structure Relation (V : Type) where
  columns : List String
  primaryKey : List String
  rows : List (Row V)

variable {a b old new : Relation V} {keyRelation : Option (Relation V)}
variable {prikeys : Option (List String)} {pk cols : List String} {r s : Row V}

/-- The values of some columns. -/
def Row.onto (cols : List String) (r : Row V) : List (Option V) := cols.map r

theorem onto_eq_of_subset (h : pk ⊆ cols) (hrs : r.onto cols = s.onto cols) :
    r.onto pk = s.onto pk := by
  refine List.map_congr_left fun c hc => ?_
  exact List.map_inj_left.mp hrs c (h hc)

def getCommonColumns (old new : Relation V) : List String :=
  old.columns.filter (· ∈ new.columns)

theorem mem_getCommonColumns {c : String} :
    c ∈ getCommonColumns old new ↔ c ∈ old.columns ∧ c ∈ new.columns := by
  simp [getCommonColumns]

/-- The keys that the call names, and otherwise those of `schema_support.get_pk_columns`. -/
def keyColumns (old : Relation V) (keyRelation : Option (Relation V))
    (prikeys : Option (List String)) : Result (List String) :=
  match prikeys with
  | some pk => .ok pk
  | none =>
    match (keyRelation.getD old).primaryKey with
    | [] => raise .raiseException "Could not determine primary keys"
    | c :: l => .ok (c :: l)

/-- `SELECT count(*) ... INTO` a variable of type `integer`. -/
def countRows (a : Relation V) : Result ℕ := do
  raiseIf (2 ^ 31 ≤ a.rows.length) .numericValueOutOfRange "integer out of range"
  .ok a.rows.length

theorem countRows_eq_ok {n : ℕ} :
    countRows a = .ok n ↔ a.rows.length < 2 ^ 31 ∧ n = a.rows.length := by
  rw [countRows, bind_unit_eq_ok, raiseIf_eq_ok, Nat.not_le, Except.ok.injEq, eq_comm (a := n)]

/-- A row of the inner query: a name that its relation does not have is a column of the row `r`
outside. -/
def Relation.seenFrom (b : Relation V) (r s : Row V) : Row V := fun c =>
  if c ∈ b.columns then s c else r c

theorem seenFrom_onto (h : pk ⊆ b.columns) : (b.seenFrom r s).onto pk = s.onto pk := by
  refine List.map_congr_left fun c hc => ?_
  rw [Relation.seenFrom, if_pos (h hc)]

/-- No column of the key is NULL. -/
def Keyed (key : List (Option V)) : Prop := ∀ v ∈ key, v ≠ none

instance (key : List (Option V)) : Decidable (Keyed key) :=
  decidable_of_iff (∀ v ∈ key, v.isSome) (by simp [Keyed, Option.isSome_iff_ne_none])

/-- The two relations have the same rows, equally often, on their common columns. -/
def SameRows (old new : Relation V) : Prop :=
  (old.rows.map (·.onto (getCommonColumns old new))).Perm
    (new.rows.map (·.onto (getCommonColumns old new)))

/-- Every key without a NULL is a key of the other relation too. -/
def KeysIn (pk : List String) (a b : Relation V) : Prop :=
  ∀ r ∈ a.rows, Keyed (r.onto pk) → ∃ s ∈ b.rows, s.onto pk = r.onto pk

/-- Every row whose key has no NULL is a row of the other relation too. -/
def RowsIn (pk cols : List String) (a b : Relation V) : Prop :=
  ∀ r ∈ a.rows, Keyed (r.onto pk) → r.onto cols ∈ b.rows.map (·.onto cols)

/-- The size of the relations and the key are such that all queries can be run. -/
def CanRun (pk : List String) (old new : Relation V) : Prop :=
  old.rows.length < 2 ^ 31 ∧ new.rows.length < 2 ^ 31 ∧ pk ≠ []

/-- What the function looks at before it compares rows: the counts and the keys. -/
def KeysMatch (pk : List String) (old new : Relation V) : Prop :=
  old.rows.length = new.rows.length ∧ KeysIn pk old new ∧ KeysIn pk new old

theorem SameRows.rowsIn (h : SameRows old new) :
    RowsIn pk (getCommonColumns old new) old new := fun _ hr _ =>
  h.subset (List.mem_map_of_mem hr)

theorem SameRows.keysMatch (h : SameRows old new) (hsub : pk ⊆ getCommonColumns old new) :
    KeysMatch pk old new := by
  refine ⟨by simpa using h.length_eq, fun _ hr _ => ?_, fun _ hr _ => ?_⟩
  · obtain ⟨s, hs, hsr⟩ := List.mem_map.mp (h.subset (List.mem_map_of_mem hr))
    exact ⟨s, hs, onto_eq_of_subset hsub hsr⟩
  · obtain ⟨s, hs, hsr⟩ := List.mem_map.mp (h.symm.subset (List.mem_map_of_mem hr))
    exact ⟨s, hs, onto_eq_of_subset hsub hsr⟩

/-! ## The function -/

variable [DecidableEq V]

/-- `key IN (SELECT ...)`, which is not true of a key with a NULL. -/
def IsIn (key : List (Option V)) (l : List (List (Option V))) : Prop := Keyed key ∧ key ∈ l

instance {key : List (Option V)} {l : List (List (Option V))} : Decidable (IsIn key l) :=
  inferInstanceAs (Decidable (_ ∧ _))

/-- `SELECT ... EXCEPT (SELECT ...)`, for which NULLs are alike. -/
def except (l m : List (List (Option V))) : List (List (Option V)) :=
  (l.filter fun key => ¬ ∃ k ∈ m, k = key).dedup

theorem mem_except {key : List (Option V)} {l m : List (List (Option V))} :
    key ∈ except l m ↔ key ∈ l ∧ key ∉ m := by
  simp [except]

/-- `SELECT ... FROM a WHERE (pk) IN (SELECT pk FROM a EXCEPT (SELECT pk FROM b))`. -/
def missing (pk : List String) (a b : Relation V) : Result (List (Row V)) := do
  raiseIf (∃ c ∈ pk, c ∉ a.columns) .undefinedColumn "column \"%\" does not exist"
  .ok (a.rows.filter fun r => IsIn (r.onto pk)
    (except (a.rows.map (·.onto pk)) (b.rows.map fun s => (b.seenFrom r s).onto pk)))

/-- The rows of `old EXCEPT new`. -/
def changed (cols : List String) (old new : Relation V) : List (Row V) :=
  old.rows.filter fun r => ¬ ∃ s ∈ new.rows, s.onto cols = r.onto cols

/-- `SELECT ... FROM old JOIN new USING (pk) WHERE (pk) IN (SELECT pk FROM (old EXCEPT new))`. -/
def mismatched (pk cols : List String) (old new : Relation V) :
    Result (List (Row V × Row V)) := do
  raiseIf (∃ c ∈ pk, c ∉ cols) .undefinedColumn
    "column \"%\" specified in USING clause does not exist in left table"
  raiseIf (¬ pk.Nodup) .duplicateColumn "column name \"%\" appears more than once in USING clause"
  .ok ((old.rows ×ˢ new.rows).filter fun x =>
    x.1.onto pk = x.2.onto pk ∧ IsIn (x.1.onto pk) ((changed cols old new).map (·.onto pk)))

def relationDiff (old new : Relation V) (keyRelation : Option (Relation V))
    (prikeys : Option (List String)) (raiseException : Bool) : Result Bool := do
  let t1 ← countRows old
  let t2 ← countRows new
  let pk ← keyColumns old keyRelation prikeys
  let cols := getCommonColumns old new
  raiseIf (pk = [] ∨ cols = []) .nullValueNotAllowed "query string argument of EXECUTE is null"
  let inOld ← missing pk old new
  let inNew ← missing pk new old
  if t1 ≠ t2 ∨ inOld ≠ [] ∨ inNew ≠ [] then do
    raiseIf (raiseException = true) .raiseException "Relations do not match"
    .ok false
  else do
    let rows ← mismatched pk cols old new
    raiseIf (rows ≠ [] ∧ raiseException = true) .raiseException
      "Relations do not match (% rows)"
    .ok rows.isEmpty

/-- The call returns, and its answer is whether the rows are the same. -/
def Right (old new : Relation V) (keyRelation : Option (Relation V))
    (prikeys : Option (List String)) : Prop :=
  ∃ ans, relationDiff old new keyRelation prikeys false = .ok ans ∧
    (ans = true ↔ SameRows old new)

/-- The rows whose key holds a NULL or is repeated are there equally often. -/
def OthersAgree (pk cols : List String) (old new : Relation V) : Prop :=
  ∀ r, r ∈ old.rows ∨ r ∈ new.rows →
    ¬ Keyed (r.onto pk) ∨ Repeated (Row.onto pk) old.rows (r.onto pk) ∨
      Repeated (Row.onto pk) new.rows (r.onto pk) →
    (old.rows.map (·.onto cols)).count (r.onto cols) =
      (new.rows.map (·.onto cols)).count (r.onto cols)

/-! ## The queries on common columns -/

theorem missing_eq_ok (ha : pk ⊆ a.columns) (hb : pk ⊆ b.columns) :
    ∃ l, missing pk a b = .ok l ∧ (l = [] ↔ KeysIn pk a b) := by
  refine ⟨_, bind_unit_eq_ok.mpr ⟨raiseIf_eq_ok.mpr ?_, rfl⟩, ?_⟩
  · rintro ⟨c, hc, hne⟩
    exact hne (ha hc)
  rw [List.filter_eq_nil_iff]
  refine forall₂_congr fun r hr => ?_
  have hinner : (b.rows.map fun s => (b.seenFrom r s).onto pk) = b.rows.map (·.onto pk) :=
    List.map_congr_left fun s _ => seenFrom_onto hb
  have hkey : r.onto pk ∈ a.rows.map (·.onto pk) := List.mem_map_of_mem hr
  rw [decide_eq_true_eq, hinner, IsIn, mem_except, not_and]
  refine imp_congr_right fun _ => ?_
  rw [not_and, not_not]
  exact ⟨fun h => List.mem_map.mp (h hkey), fun h _ => List.mem_map.mpr h⟩

theorem mismatched_eq_ok (hpk : pk ⊆ cols) (hnd : pk.Nodup) (hkeys : KeysIn pk old new) :
    ∃ l, mismatched pk cols old new = .ok l ∧ (l = [] ↔ RowsIn pk cols old new) := by
  refine ⟨_, bind_unit_eq_ok.mpr ⟨raiseIf_eq_ok.mpr ?_, bind_unit_eq_ok.mpr
    ⟨raiseIf_eq_ok.mpr (not_not.mpr hnd), rfl⟩⟩, ?_⟩
  · rintro ⟨c, hc, hne⟩
    exact hne (hpk hc)
  rw [List.filter_eq_nil_iff]
  constructor
  · intro h r hr hkeyed
    by_contra hout
    obtain ⟨s, hs, hsr⟩ := hkeys r hr hkeyed
    rw [List.mem_map] at hout
    refine h (r, s) (List.mem_product.mpr ⟨hr, hs⟩) (decide_eq_true ⟨hsr.symm, hkeyed, ?_⟩)
    exact List.mem_map_of_mem (List.mem_filter.mpr ⟨hr, decide_eq_true hout⟩)
  · rintro h ⟨r, s⟩ hrs hx
    rw [decide_eq_true_eq] at hx
    obtain ⟨-, hkeyed, hin⟩ := hx
    obtain ⟨r', hr', hkey⟩ := List.mem_map.mp hin
    obtain ⟨hr', hout⟩ := List.mem_filter.mp hr'
    exact of_decide_eq_true hout (List.mem_map.mp (h r' hr' (by rwa [hkey])))

theorem mismatched_ne_ok (hnd : ¬ pk.Nodup) {l : List (Row V × Row V)} :
    mismatched pk cols old new ≠ .ok l := by
  intro h
  obtain ⟨-, h⟩ := bind_unit_eq_ok.mp h
  exact raiseIf_eq_ok.mp (bind_unit_eq_ok.mp h).1 hnd

/-! ## The answer -/

theorem relationDiff_eq_ok {ans : Bool} (hpk : keyColumns old keyRelation prikeys = .ok pk)
    (hsub : pk ⊆ getCommonColumns old new) :
    relationDiff old new keyRelation prikeys false = .ok ans ↔
      CanRun pk old new ∧ (¬ KeysMatch pk old new ∧ ans = false ∨
        KeysMatch pk old new ∧ pk.Nodup ∧
          (ans = true ↔ RowsIn pk (getCommonColumns old new) old new)) := by
  have hold : pk ⊆ old.columns := fun c hc => (mem_getCommonColumns.mp (hsub hc)).1
  have hnew : pk ⊆ new.columns := fun c hc => (mem_getCommonColumns.mp (hsub hc)).2
  obtain ⟨inOld, hinOld, hio⟩ := missing_eq_ok hold hnew
  obtain ⟨inNew, hinNew, hin⟩ := missing_eq_ok hnew hold
  have hquery : (pk = [] ∨ getCommonColumns old new = []) ↔ pk = [] :=
    or_iff_left_of_imp fun h => List.eq_nil_of_subset_nil (h ▸ hsub)
  have hdiffer : (old.rows.length ≠ new.rows.length ∨ inOld ≠ [] ∨ inNew ≠ []) ↔
      ¬ KeysMatch pk old new := by
    rw [KeysMatch, not_and_or, not_and_or, ← hio, ← hin]
  simp only [relationDiff, CanRun, bind_eq_ok, countRows_eq_ok, hpk, hinOld, hinNew, Except.ok.injEq,
    exists_eq_left', raiseIf_eq_ok, and_assoc, exists_and_left, exists_eq_left, exists_const,
    hquery]
  refine and_congr_right fun _ => and_congr_right fun _ => and_congr_right fun _ => ?_
  by_cases hmatch : KeysMatch pk old new
  · rw [if_neg (hdiffer.not_left.mpr hmatch), or_iff_right fun h => h.1 hmatch,
      and_iff_right hmatch]
    by_cases hnd : pk.Nodup
    · obtain ⟨rows, hrows, hri⟩ := mismatched_eq_ok hsub hnd hmatch.2.1
      rw [hrows, and_iff_right hnd, ← hri, bind_eq_ok]
      simp only [Except.ok.injEq, exists_eq_left', Bool.false_eq_true, and_false, bind_unit_eq_ok,
        raiseIf_eq_ok, not_false_eq_true, true_and, ← List.isEmpty_iff]
      rw [← Bool.eq_iff_iff, eq_comm]
    · refine iff_of_false (fun h => ?_) fun h => hnd h.1
      obtain ⟨rows, hrows, -⟩ := bind_eq_ok.mp h
      exact mismatched_ne_ok hnd hrows
  · rw [if_pos (hdiffer.mpr hmatch), or_iff_left fun h => hmatch h.1, and_iff_right hmatch]
    simp [raiseIf, eq_comm]

/-! ## When it is right -/

theorem SameRows.othersAgree (h : SameRows old new) :
    OthersAgree pk (getCommonColumns old new) old new := fun _ _ _ => h.count_eq _

theorem sameRows_of (hsub : pk ⊆ getCommonColumns old new) (hmatch : KeysMatch pk old new)
    (hrows : RowsIn pk (getCommonColumns old new) old new)
    (hothers : OthersAgree pk (getCommonColumns old new) old new) : SameRows old new := by
  have hkeyed : ∀ r ∈ old.rows, Keyed (Row.onto pk r) →
      Row.onto (getCommonColumns old new) r ∈ new.rows.map (Row.onto (getCommonColumns old new)) :=
    hrows
  exact map_perm_of_keyed (fun r s => onto_eq_of_subset hsub) hkeyed hmatch.2.2 hothers

theorem right_of (hpk : keyColumns old keyRelation prikeys = .ok pk)
    (hsub : pk ⊆ getCommonColumns old new) (hrun : CanRun pk old new)
    (h : ¬ KeysMatch pk old new ∨ pk.Nodup ∧
      (¬ RowsIn pk (getCommonColumns old new) old new ∨
        OthersAgree pk (getCommonColumns old new) old new)) :
    Right old new keyRelation prikeys := by
  unfold Right
  simp only [relationDiff_eq_ok hpk hsub]
  by_cases hmatch : KeysMatch pk old new
  · obtain ⟨hnd, h⟩ := h.resolve_left (not_not.mpr hmatch)
    by_cases hrows : RowsIn pk (getCommonColumns old new) old new
    · have hothers := h.resolve_left (not_not.mpr hrows)
      exact ⟨true, ⟨hrun, Or.inr ⟨hmatch, hnd, iff_of_true rfl hrows⟩⟩,
        iff_of_true rfl (sameRows_of hsub hmatch hrows hothers)⟩
    · exact ⟨false, ⟨hrun, Or.inr ⟨hmatch, hnd, iff_of_false Bool.false_ne_true hrows⟩⟩,
        iff_of_false Bool.false_ne_true fun h => hrows h.rowsIn⟩
  · exact ⟨false, ⟨hrun, Or.inl ⟨hmatch, rfl⟩⟩,
      iff_of_false Bool.false_ne_true fun h => hmatch (h.keysMatch hsub)⟩

/-- **When the answer is right.** -/
theorem relationDiff_right_iff (hpk : keyColumns old keyRelation prikeys = .ok pk)
    (hsub : pk ⊆ getCommonColumns old new) :
    Right old new keyRelation prikeys ↔ CanRun pk old new ∧
      (¬ KeysMatch pk old new ∨ pk.Nodup ∧
        (¬ RowsIn pk (getCommonColumns old new) old new ∨
          OthersAgree pk (getCommonColumns old new) old new)) := by
  constructor
  · rintro ⟨ans, h, hans⟩
    rw [relationDiff_eq_ok hpk hsub] at h
    obtain ⟨hrun, ⟨hmatch, -⟩ | ⟨hmatch, hnd, hrows⟩⟩ := h
    · exact ⟨hrun, Or.inl hmatch⟩
    · refine ⟨hrun, Or.inr ⟨hnd, ?_⟩⟩
      rw [or_iff_not_imp_left, not_not]
      exact fun h => (hans.mp (hrows.mpr h)).othersAgree
  · rintro ⟨hrun, h⟩
    exact right_of hpk hsub hrun h

/-- A relation with two columns `id` and `v`, whose rows are found by `id`. -/
def twoColumns (rows : List (Option ℕ × Option ℕ)) : Relation ℕ where
  columns := ["id", "v"]
  primaryKey := ["id"]
  rows := rows.map fun x c => if c = "id" then x.1 else if c = "v" then x.2 else none

theorem relationDiff_right_twoColumns :
    Right (twoColumns [(some 1, some 5), (some 2, none)])
        (twoColumns [(some 2, none), (some 1, some 5)]) none none := by
  have hpk : keyColumns (twoColumns [(some 1, some 5), (some 2, none)]) none none = .ok ["id"] := rfl
  refine (relationDiff_right_iff hpk (by decide)).mpr ?_
  refine ⟨by unfold CanRun; decide, Or.inr ⟨by decide, Or.inr fun r hr hodd => ?_⟩⟩
  simp only [twoColumns, List.map_cons, List.map_nil, List.mem_cons, List.not_mem_nil,
    or_false] at hr
  rcases hr with (rfl | rfl) | rfl | rfl <;> exact absurd hodd (by decide)

/-- A key that another row repeats, a row of `new` alone, and a key that is NULL: the call answers
that the relations have the same rows. -/
theorem relationDiff_wrong_twoColumns :
    (relationDiff (twoColumns [(some 1, none), (some 1, none), (some 2, none)])
        (twoColumns [(some 1, none), (some 2, none), (some 2, none)]) none none false = .ok true ∧
      ¬ Right (twoColumns [(some 1, none), (some 1, none), (some 2, none)])
        (twoColumns [(some 1, none), (some 2, none), (some 2, none)]) none none) ∧
    (relationDiff (twoColumns [(some 1, some 5), (some 1, some 5)])
        (twoColumns [(some 1, some 5), (some 1, some 6)]) none none false = .ok true ∧
      ¬ Right (twoColumns [(some 1, some 5), (some 1, some 5)])
        (twoColumns [(some 1, some 5), (some 1, some 6)]) none none) ∧
    (relationDiff (twoColumns [(none, some 5)]) (twoColumns [(none, some 6)]) none none false =
        .ok true ∧
      ¬ Right (twoColumns [(none, some 5)]) (twoColumns [(none, some 6)]) none none) := by
  have hwrong : ∀ {old new : Relation ℕ}, relationDiff old new none none false = .ok true →
      ¬ SameRows old new → ¬ Right old new none none := by
    rintro old new h hne ⟨ans, hans, hiff⟩
    rw [h, Except.ok.injEq] at hans
    exact hne (hiff.mp hans.symm)
  refine ⟨⟨rfl, hwrong rfl ?_⟩, ⟨rfl, hwrong rfl ?_⟩, rfl, hwrong rfl ?_⟩ <;>
    · unfold SameRows
      decide

end JazzHands.RelationDiff

import Mathlib.Data.List.Nodup
import JazzHands.Postgres.Error

/-!
# Tables with an identity column

A table keeps its rows with their primary keys, in the order in which they were inserted, and the
next value of its sequence.  A statement that fails sets the sequence back, which changes nothing
but the keys of later rows.
-/

namespace JazzHands.Postgres

/-- Rows with their keys, no two with the same. -/
structure Table (ρ : Type) where
  rows : List (ℕ × ρ)
  nextval : ℕ
  nodup : (rows.map Prod.fst).Nodup

namespace Table

variable {ρ : Type} {t t' : Table ρ} {id j : ℕ} {row : ρ} {f : ρ → ρ}

def empty : Table ρ := ⟨[], 1, List.nodup_nil⟩

/-- The row with a key. -/
def get (t : Table ρ) (id : ℕ) : Option ρ := t.rows.lookup id

/-- `INSERT` of a row with its key. -/
def insertAt (t : Table ρ) (id : ℕ) (row : ρ) : Result (Table ρ) :=
  if h : id ∈ t.rows.map Prod.fst then
    raise .uniqueViolation "duplicate key value violates unique constraint"
  else .ok
    { rows := t.rows ++ [(id, row)]
      nextval := t.nextval
      nodup := by
        rw [List.map_append, List.nodup_append]
        refine ⟨t.nodup, List.nodup_singleton id, fun a ha b hb => ?_⟩
        rw [List.map_singleton, List.mem_singleton] at hb
        rintro rfl
        obtain rfl : a = id := hb
        exact h ha }

/-- `INSERT ... RETURNING` of a row that gets its key from the sequence. -/
def insert (t : Table ρ) (row : ρ) : Result (ℕ × Table ρ) := do
  let t' ← t.insertAt t.nextval row
  pure (t.nextval, { t' with nextval := t.nextval + 1 })

/-- `UPDATE`: a row and its key give the new row. -/
def modify (t : Table ρ) (g : ℕ → ρ → ρ) : Table ρ where
  rows := t.rows.map fun x => (x.1, g x.1 x.2)
  nextval := t.nextval
  nodup := by
    rw [List.map_map]
    exact t.nodup

/-- `UPDATE` of the row with a key. -/
def update (t : Table ρ) (id : ℕ) (f : ρ → ρ) : Table ρ :=
  t.modify fun j row => if j = id then f row else row

/-! ## Lookups -/

theorem lookup_of_mem {l : List (ℕ × ρ)} (hl : (l.map Prod.fst).Nodup) (h : (id, row) ∈ l) :
    l.lookup id = some row := by
  induction l with
  | nil => cases h
  | cons x l ih =>
    rw [List.map_cons, List.nodup_cons] at hl
    rcases List.mem_cons.mp h with rfl | h
    · exact List.lookup_cons_self
    · have hne : id ≠ x.1 := by
        intro heq
        exact hl.1 (heq ▸ List.mem_map_of_mem (f := Prod.fst) h)
      rw [List.lookup_cons, beq_false_of_ne hne]
      exact ih hl.2 h

theorem mem_of_lookup {l : List (ℕ × ρ)} (h : l.lookup id = some row) : (id, row) ∈ l := by
  obtain ⟨l₁, l₂, rfl, -⟩ := List.lookup_eq_some_iff.mp h
  simp

theorem get_eq_some : t.get id = some row ↔ (id, row) ∈ t.rows :=
  ⟨mem_of_lookup, lookup_of_mem t.nodup⟩

theorem get_eq_none : t.get id = none ↔ id ∉ t.rows.map Prod.fst := by
  unfold get
  rw [List.lookup_eq_none_iff]
  simp only [bne_iff_ne, ne_eq, List.mem_map, not_exists, not_and]
  exact ⟨fun h x hx hid => h x hx hid.symm, fun h x hx hid => h x hx hid.symm⟩

/-! ## Statements -/

theorem insertAt_ok (h : t.insertAt id row = .ok t') :
    t'.rows = t.rows ++ [(id, row)] ∧ t'.nextval = t.nextval ∧ t.get id = none := by
  unfold insertAt at h
  split at h
  · exact absurd h raise_ne_ok
  next hid =>
    obtain rfl := Except.ok.inj h
    exact ⟨rfl, rfl, get_eq_none.mpr hid⟩

theorem get_insertAt (h : t.insertAt id row = .ok t') (j : ℕ) :
    t'.get j = if j = id then some row else t.get j := by
  obtain ⟨hrows, -, hnone⟩ := insertAt_ok h
  unfold get at hnone ⊢
  rw [hrows, List.lookup_append, List.lookup_cons, List.lookup_nil]
  by_cases hj : j = id
  · subst hj
    rw [hnone]
    simp
  · rw [if_neg hj, beq_false_of_ne hj]
    simp

theorem insert_ok (h : t.insert row = .ok (id, t')) :
    id = t.nextval ∧ t'.rows = t.rows ++ [(id, row)] ∧ t.get id = none := by
  unfold insert at h
  rw [bind_eq_ok] at h
  obtain ⟨t₁, h₁, h₂⟩ := h
  rw [pure_eq_ok] at h₂
  cases h₂
  obtain ⟨hrows, -, hnone⟩ := insertAt_ok h₁
  exact ⟨rfl, hrows, hnone⟩

theorem insert_avoids {c : SqlState} (hc : SqlState.uniqueViolation ≠ c) :
    Avoids c (t.insert row) := by
  unfold insert insertAt
  refine Avoids.bind ?_ fun t' _ => avoids_ok
  split
  · exact avoids_raise.mpr hc
  · exact avoids_ok

theorem get_insert (h : t.insert row = .ok (id, t')) (j : ℕ) :
    t'.get j = if j = id then some row else t.get j := by
  unfold insert at h
  rw [bind_eq_ok] at h
  obtain ⟨t₁, h₁, h₂⟩ := h
  rw [pure_eq_ok] at h₂
  cases h₂
  exact get_insertAt h₁ j

theorem get_modify (t : Table ρ) (g : ℕ → ρ → ρ) (j : ℕ) :
    (t.modify g).get j = (t.get j).map (g j) := by
  show (t.rows.map fun x => (x.1, g x.1 x.2)).lookup j = (t.rows.lookup j).map (g j)
  induction t.rows with
  | nil => rfl
  | cons x l ih =>
    rw [List.map_cons, List.lookup_cons, List.lookup_cons, ih]
    by_cases hj : j = x.1
    · subst hj
      simp
    · rw [beq_false_of_ne hj]

theorem get_update (t : Table ρ) (id : ℕ) (f : ρ → ρ) (j : ℕ) :
    (t.update id f).get j = if j = id then (t.get j).map f else t.get j := by
  unfold update
  rw [get_modify]
  by_cases hj : j = id
  · simp [hj]
  · simp [hj]


theorem rows_update_of_get (h : t.get id = some row) (hf : f row = row) :
    (t.update id f).rows = t.rows := by
  show (t.rows.map fun x => (x.1, if x.1 = id then f x.2 else x.2)) = t.rows
  conv_rhs => rw [← List.map_id t.rows]
  refine List.map_congr_left fun x hx => ?_
  by_cases hid : x.1 = id
  · have hget := get_eq_some.mpr (show (x.1, x.2) ∈ t.rows from hx)
    rw [hid, h] at hget
    obtain rfl := Option.some.inj hget
    rw [if_pos hid, hf, id_eq]
  · rw [if_neg hid, id_eq]

/-- An `UPDATE` of the row that has just come in. -/
theorem rows_update_insert (h : t.insert row = .ok (id, t')) :
    (t'.update id f).rows = t.rows ++ [(id, f row)] := by
  obtain ⟨-, hrows, hnone⟩ := insert_ok h
  show (t'.rows.map fun x => (x.1, if x.1 = id then f x.2 else x.2)) = _
  rw [hrows, List.map_append, List.map_singleton, if_pos rfl]
  congr 1
  conv_rhs => rw [← List.map_id t.rows]
  refine List.map_congr_left fun x hx => ?_
  have hid : x.1 ≠ id := by
    intro heq
    exact get_eq_none.mp hnone (heq ▸ List.mem_map_of_mem (f := Prod.fst) hx)
  rw [if_neg hid, id_eq]

end Table
end JazzHands.Postgres

import JazzHands.Postgres.RowStatement

/-!
# Triggers that change the rows to be written

A trigger `BEFORE ... FOR EACH ROW` may change the new row, and write to other tables, which the
trigger sees again when the next row comes.
-/

namespace JazzHands.Postgres

inductive Slot (ρ : Type) where
  | keep (r : ρ)
  | write (e : RowEvent ρ)

/-- The row that is there before. -/
def Slot.old? {ρ : Type} : Slot ρ → Option ρ
  | keep r => some r
  | write e => e.old?

/-- The other tables, the rows that are done, and those of them that are new. -/
structure Written (σ ρ : Type) where
  state : σ
  rows : List ρ
  news : List ρ

namespace Written

variable {σ ρ : Type}

def keep (w : Written σ ρ) (r : ρ) : Written σ ρ := { w with rows := w.rows ++ [r] }

def write (w : Written σ ρ) (s : σ) (new : ρ) : Written σ ρ := ⟨s, w.rows ++ [new], w.news ++ [new]⟩

variable {w : Written σ ρ} {s : σ} {r c new : ρ}

@[simp] theorem state_keep : (w.keep r).state = w.state := rfl
@[simp] theorem state_write : (w.write s new).state = s := rfl

@[simp] theorem mem_rows_keep : c ∈ (w.keep r).rows ↔ c ∈ w.rows ∨ c = r := by
  simp [keep]

@[simp] theorem mem_rows_write : c ∈ (w.write s new).rows ↔ c ∈ w.rows ∨ c = new := by
  simp [write]

end Written

namespace RowStatement

variable {σ ρ : Type}

def slots (t : List ρ) : RowStatement ρ → List (Slot ρ)
  | insert rows => t.map .keep ++ rows.map fun r => .write (.insert r)
  | update set => t.map fun r => ((set r).map fun new => .write (.update r new)).getD (.keep r)
  | delete cond => t.map fun r => if cond r then .write (.delete r) else .keep r

variable (before : σ → RowEvent ρ → ρ → Result (σ × ρ)) (check : List ρ → ρ → Result Unit)

def writeSlots : Written σ ρ → List (Slot ρ) → Result (Written σ ρ)
  | w, [] => .ok w
  | w, .keep r :: l => writeSlots (w.keep r) l
  | w, .write e :: l =>
    match e.new? with
    | none => writeSlots w l
    | some new => do
      let (s, new) ← before w.state e new
      check (w.rows ++ l.filterMap Slot.old?) new
      writeSlots (w.write s new) l

def executeBefore (state : σ) (t : List ρ) (s : RowStatement ρ) : Result (Written σ ρ) :=
  writeSlots before check ⟨state, [], []⟩ (s.slots t)

variable {before check} {t : List ρ} {s : RowStatement ρ} {e : RowEvent ρ} {r : ρ}
  {w w' : Written σ ρ} {l : List (Slot ρ)} {state : σ}

theorem mem_slots_write : .write e ∈ s.slots t ↔ e ∈ s.events t := by
  cases s with
  | insert rows => simp [slots, events]
  | update set =>
    simp only [slots, events, List.mem_map, List.mem_filterMap]
    refine exists_congr fun r => and_congr_right fun _ => ?_
    cases set r <;> simp
  | delete cond =>
    simp only [slots, events, List.mem_map, List.mem_filter]
    constructor
    · rintro ⟨r, hr, heq⟩
      split at heq
      · rename_i hcond
        exact ⟨r, ⟨hr, hcond⟩, Slot.write.inj heq⟩
      · cases heq
    · rintro ⟨r, ⟨hr, hcond⟩, rfl⟩
      exact ⟨r, hr, if_pos hcond⟩

theorem mem_of_mem_slots_keep (h : .keep r ∈ s.slots t) : r ∈ t := by
  cases s with
  | insert rows => simpa [slots] using h
  | update set =>
    obtain ⟨r', hr', heq⟩ := List.mem_map.mp h
    cases hset : set r' with
    | none =>
      rw [hset] at heq
      exact Slot.keep.inj heq ▸ hr'
    | some new =>
      rw [hset] at heq
      cases heq
  | delete cond =>
    obtain ⟨r', hr', heq⟩ := List.mem_map.mp h
    split at heq
    · cases heq
    · exact Slot.keep.inj heq ▸ hr'

theorem mem_slots_keep_or_old (h : r ∈ t) :
    .keep r ∈ s.slots t ∨ ∃ e ∈ s.events t, e.old? = some r := by
  cases s with
  | insert rows => exact .inl (List.mem_append_left _ (List.mem_map_of_mem h))
  | update set =>
    cases hset : set r with
    | none => exact .inl (List.mem_map.mpr ⟨r, h, by rw [hset]; rfl⟩)
    | some new =>
      exact .inr ⟨.update r new, List.mem_filterMap.mpr ⟨r, h, by rw [hset]; rfl⟩, rfl⟩
  | delete cond =>
    cases hcond : cond r with
    | false => exact .inl (List.mem_map.mpr ⟨r, h, by rw [hcond]; rfl⟩)
    | true =>
      exact .inr ⟨.delete r, List.mem_map_of_mem (List.mem_filter.mpr ⟨h, hcond⟩), rfl⟩

/-- What every row keeps, with those that are still to come, holds at the end. -/
theorem writeSlots_keeps {I : List (Slot ρ) → Written σ ρ → Prop}
    (hkeep : ∀ r l w, I (.keep r :: l) w → I l (w.keep r))
    (hdelete : ∀ e l w, e.new? = none → I (.write e :: l) w → I l w)
    (hwrite : ∀ e new l w s new', e.new? = some new → I (.write e :: l) w →
      before w.state e new = .ok (s, new') → I l (w.write s new'))
    (hw : I l w) (h : writeSlots before check w l = .ok w') : I [] w' := by
  induction l generalizing w with
  | nil =>
    obtain rfl := Except.ok.inj h
    exact hw
  | cons slot l ih =>
    cases slot with
    | keep r => exact ih (hkeep r l w hw) h
    | write e =>
      rw [writeSlots] at h
      cases hnew : e.new? with
      | none =>
        rw [hnew] at h
        exact ih (hdelete e l w hnew hw) h
      | some new =>
        rw [hnew] at h
        obtain ⟨p, hp, h⟩ := bind_eq_ok.mp h
        exact ih (hwrite e new l w p.1 p.2 hnew hw hp) (bind_unit_eq_ok.mp h).2

end RowStatement
end JazzHands.Postgres

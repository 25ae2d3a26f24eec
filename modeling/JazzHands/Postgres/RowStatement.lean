import JazzHands.Postgres.Error
import JazzHands.Postgres.RowEvent
import Mathlib.Data.List.Nodup

/-!
# Statements on the rows of a table

A statement writes any number of rows, one after the other; constraints on keys are checked with
each of them, and the triggers `AFTER` the statement are told of each.
-/

namespace JazzHands.Postgres

/-- For an `UPDATE`, `set` gives the new row where the condition holds. -/
inductive RowStatement (ρ : Type) where
  | insert (rows : List ρ)
  | update (set : ρ → Option ρ)
  | delete (cond : ρ → Bool)

namespace RowStatement

variable {ρ κ : Type}

/-- The rows when all of them are written. -/
def after (t : List ρ) : RowStatement ρ → List ρ
  | insert rows => t ++ rows
  | update set => t.map fun r => (set r).getD r
  | delete cond => t.filter fun r => !cond r

/-- What a trigger `FOR EACH ROW` is told. -/
def events (t : List ρ) : RowStatement ρ → List (RowEvent ρ)
  | insert rows => rows.map .insert
  | update set => t.filterMap fun r => (set r).map (.update r)
  | delete cond => (t.filter cond).map .delete

/-- An `UPDATE` takes only some columns of the new rows. -/
def naming (merge : ρ → ρ → ρ) : RowStatement ρ → RowStatement ρ
  | update set => update fun r => (set r).map (merge r)
  | s => s

/-- A unique key, with a row that comes to the others. -/
def checkUnique [DecidableEq κ] (key : ρ → κ) (constraint : String) (others : List ρ) (new : ρ) :
    Result Unit :=
  raiseIf (∃ c ∈ others, key c = key new) .uniqueViolation
    ("duplicate key value violates unique constraint " ++ constraint)

variable (check : List ρ → ρ → Result Unit)

def insertRows : List ρ → List ρ → Result (List ρ)
  | t, [] => .ok t
  | t, new :: rows => do
    check t new
    insertRows (t ++ [new]) rows

/-- The rows that come before are done. -/
def updateRows (set : ρ → Option ρ) : List ρ → List ρ → Result (List ρ)
  | done, [] => .ok done
  | done, old :: rows =>
    match set old with
    | none => updateRows set (done ++ [old]) rows
    | some new => do
      check (done ++ rows) new
      updateRows set (done ++ [new]) rows

def execute (t : List ρ) : RowStatement ρ → Result (List ρ)
  | insert rows => insertRows check t rows
  | update set => updateRows check set [] t
  | delete cond => .ok (t.filter fun r => !cond r)

/-! ## Triggers on some columns -/

/-- `AFTER INSERT OR UPDATE OF`: an `UPDATE` names one of the columns of the trigger. -/
def Fires {γ : Type} (triggerColumns columns : List γ) : RowEvent ρ → Prop
  | .insert _ => True
  | .update _ _ => ∃ c ∈ triggerColumns, c ∈ columns
  | .delete _ => False

instance {γ : Type} [DecidableEq γ] (triggerColumns columns : List γ) (e : RowEvent ρ) :
    Decidable (Fires triggerColumns columns e) :=
  match e with
  | .insert _ => inferInstanceAs (Decidable True)
  | .update _ _ => inferInstanceAs (Decidable (∃ c ∈ triggerColumns, c ∈ columns))
  | .delete _ => inferInstanceAs (Decidable False)

def afterColumns {γ : Type} [DecidableEq γ] (triggerColumns columns : List γ)
    (trigger : ρ → Result Unit) (e : RowEvent ρ) : Result Unit :=
  match e.new? with
  | none => .ok ()
  | some new => if Fires triggerColumns columns e then trigger new else .ok ()

/-- What the new row has to meet. -/
def onNew (check : ρ → Result Unit) (e : RowEvent ρ) : Result Unit :=
  match e.new? with
  | none => .ok ()
  | some new => check new

/-! ## Which rows are written -/

variable {check} {t t' rows done : List ρ} {c new old : ρ} {e : RowEvent ρ} {s : RowStatement ρ}
  {set : ρ → Option ρ} {key : ρ → κ}

theorem afterColumns_ok {γ : Type} [DecidableEq γ] {triggerColumns columns : List γ}
    {trigger : ρ → Result Unit} (h : afterColumns triggerColumns columns trigger e = .ok ())
    (hnew : e.new? = some new) (hfires : Fires triggerColumns columns e) : trigger new = .ok () := by
  simpa only [afterColumns, hnew, if_pos hfires] using h

theorem onNew_ok {check : ρ → Result Unit} (h : onNew check e = .ok ())
    (hnew : e.new? = some new) : check new = .ok () := by
  rwa [onNew, hnew] at h

theorem mem_after (h : c ∈ s.after t) : c ∈ t ∨ ∃ e ∈ s.events t, e.new? = some c := by
  cases s with
  | insert rows =>
    refine (List.mem_append.mp h).imp_right fun hc => ⟨.insert c, ?_, rfl⟩
    exact List.mem_map_of_mem hc
  | update set =>
    obtain ⟨r, hr, rfl⟩ := List.mem_map.mp h
    cases hset : set r with
    | none => exact .inl hr
    | some new =>
      refine .inr ⟨.update r new, List.mem_filterMap.mpr ⟨r, hr, ?_⟩, rfl⟩
      rw [hset, Option.map_some]
  | delete cond => exact .inl (List.mem_filter.mp h).1

theorem mem_after_of_new (he : e ∈ s.events t) (hnew : e.new? = some c) : c ∈ s.after t := by
  cases s with
  | insert rows =>
    obtain ⟨r, hr, rfl⟩ := List.mem_map.mp he
    obtain rfl := Option.some.inj hnew
    exact List.mem_append_right t hr
  | update set =>
    obtain ⟨r, hr, hmap⟩ := List.mem_filterMap.mp he
    obtain ⟨new, hset, rfl⟩ := Option.map_eq_some_iff.mp hmap
    obtain rfl := Option.some.inj hnew
    exact List.mem_map.mpr ⟨r, hr, by rw [hset, Option.getD_some]⟩
  | delete cond =>
    obtain ⟨r, -, rfl⟩ := List.mem_map.mp he
    cases hnew

/-- A row that was there is there still, or is an old row. -/
theorem mem_or_old_of_mem (h : c ∈ t) : c ∈ s.after t ∨ ∃ e ∈ s.events t, e.old? = some c := by
  cases s with
  | insert rows => exact .inl (List.mem_append_left rows h)
  | update set =>
    cases hset : set c with
    | none => exact .inl (List.mem_map.mpr ⟨c, h, by rw [hset, Option.getD_none]⟩)
    | some new =>
      refine .inr ⟨.update c new, List.mem_filterMap.mpr ⟨c, h, ?_⟩, rfl⟩
      rw [hset, Option.map_some]
  | delete cond =>
    cases hcond : cond c with
    | false => exact .inl (List.mem_filter.mpr ⟨h, by rw [hcond]; rfl⟩)
    | true =>
      exact .inr ⟨.delete c, List.mem_map_of_mem (List.mem_filter.mpr ⟨h, hcond⟩), rfl⟩

theorem old_mem (he : e ∈ s.events t) (hold : e.old? = some c) : c ∈ t := by
  cases s with
  | insert rows =>
    obtain ⟨r, -, rfl⟩ := List.mem_map.mp he
    cases hold
  | update set =>
    obtain ⟨r, hr, hset⟩ := List.mem_filterMap.mp he
    obtain ⟨new, -, rfl⟩ := Option.map_eq_some_iff.mp hset
    exact Option.some.inj hold ▸ hr
  | delete cond =>
    obtain ⟨r, hr, rfl⟩ := List.mem_map.mp he
    exact Option.some.inj hold ▸ (List.mem_filter.mp hr).1

theorem mem_after_of_insert (he : .insert new ∈ s.events t) (hc : c ∈ t) : c ∈ s.after t := by
  cases s with
  | insert rows => exact List.mem_append_left rows hc
  | update set =>
    obtain ⟨r, -, hset⟩ := List.mem_filterMap.mp he
    obtain ⟨new, -, heq⟩ := Option.map_eq_some_iff.mp hset
    cases heq
  | delete cond =>
    obtain ⟨r, -, heq⟩ := List.mem_map.mp he
    cases heq

theorem new_sublist_after : ((s.events t).filterMap RowEvent.new?).Sublist (s.after t) := by
  cases s with
  | insert rows =>
    have hrows : ((insert rows).events t).filterMap RowEvent.new? = rows := by
      simp [events, List.filterMap_map, Function.comp_def]
    rw [hrows]
    exact List.sublist_append_right t rows
  | update set =>
    show ((t.filterMap fun r => (set r).map (.update r)).filterMap RowEvent.new?).Sublist
      (t.map fun r => (set r).getD r)
    induction t with
    | nil => exact List.Sublist.slnil
    | cons r t ih =>
      cases hset : set r with
      | none => simpa [hset] using ih.cons r
      | some new => simpa [hset] using ih
  | delete cond =>
    have hnone : ((delete cond).events t).filterMap RowEvent.new? = [] := by simp [events]
    rw [hnone]
    exact List.nil_sublist _

theorem after_update_eq_self (h : (update set).events t = []) : (update set).after t = t := by
  rw [events, List.filterMap_eq_nil_iff] at h
  have hnone : ∀ r ∈ t, (set r).getD r = r := by
    intro r hr
    rw [Option.map_eq_none_iff.mp (h r hr), Option.getD_none]
  rw [after, List.map_congr_left hnone, List.map_id']

theorem exists_of_update (he : e ∈ (update set).events t) :
    ∃ r ∈ t, ∃ new, set r = some new ∧ e = .update r new := by
  obtain ⟨r, hr, hmap⟩ := List.mem_filterMap.mp he
  obtain ⟨new, hset, rfl⟩ := Option.map_eq_some_iff.mp hmap
  exact ⟨r, hr, new, hset, rfl⟩

theorem exists_of_naming {merge : ρ → ρ → ρ} (he : .update old new ∈ (s.naming merge).events t) :
    ∃ values, new = merge old values := by
  cases s with
  | insert rows =>
    obtain ⟨r, -, heq⟩ := List.mem_map.mp he
    cases heq
  | update set =>
    obtain ⟨r, -, hmap⟩ := List.mem_filterMap.mp he
    obtain ⟨new', hset, heq⟩ := Option.map_eq_some_iff.mp hmap
    obtain ⟨rfl, rfl⟩ := RowEvent.update.inj heq
    obtain ⟨values, -, rfl⟩ := Option.map_eq_some_iff.mp hset
    exact ⟨values, rfl⟩
  | delete cond =>
    obtain ⟨r, -, heq⟩ := List.mem_map.mp he
    cases heq

/-- A trigger on some columns that does not fire for a new row leaves one that was there, with the
same values in these columns. -/
theorem exists_of_not_fires {γ : Type} {triggerColumns columns : List γ} {merge : ρ → ρ → ρ}
    {new : ρ} (he : e ∈ (s.naming merge).events t) (hnew : e.new? = some new)
    (hfires : ¬ Fires triggerColumns columns e) :
    ∃ old ∈ t, (∃ values, new = merge old values) ∧ ∀ c ∈ triggerColumns, c ∉ columns := by
  cases e with
  | insert new => exact absurd trivial hfires
  | delete old => cases hnew
  | update old new =>
    obtain rfl := Option.some.inj hnew
    exact ⟨old, old_mem he rfl, exists_of_naming he, fun c hc hc' => hfires ⟨c, hc, hc'⟩⟩

/-- Where no new row counts there are not more that count. -/
theorem countP_after_le {p : ρ → Bool}
    (h : ∀ e ∈ s.events t, ∀ new, e.new? = some new → p new = false) :
    (s.after t).countP p ≤ t.countP p := by
  cases s with
  | insert rows =>
    have hrows : rows.countP p = 0 := by
      rw [List.countP_eq_zero]
      intro r hr
      simp [h (.insert r) (List.mem_map_of_mem hr) r rfl]
    exact Nat.le_of_eq (by rw [after, List.countP_append, hrows, Nat.add_zero])
  | update set =>
    rw [after, List.countP_map]
    refine List.countP_mono_left fun r hr hp => ?_
    cases hset : set r with
    | none => simpa [hset] using hp
    | some new =>
      have he : .update r new ∈ (update set).events t :=
        List.mem_filterMap.mpr ⟨r, hr, by rw [hset, Option.map_some]⟩
      simp [hset, h _ he new rfl] at hp
  | delete cond => exact List.filter_sublist.countP_le

/-! ## Keys -/

theorem checkUnique_ok [DecidableEq κ] {constraint : String}
    (h : checkUnique key constraint t new = .ok ()) : ∀ c ∈ t, key c ≠ key new :=
  fun c hc heq => raiseIf_eq_ok.mp h ⟨c, hc, heq⟩

/-- The key of a row of an `INSERT` is new. -/
theorem ne_of_insert (ht : ((s.after t).map key).Nodup) (he : .insert new ∈ s.events t)
    (hc : c ∈ t) : key c ≠ key new := by
  cases s with
  | insert rows =>
    obtain ⟨r, hr, heq⟩ := List.mem_map.mp he
    obtain rfl := RowEvent.insert.inj heq
    rw [after, List.map_append, List.nodup_append] at ht
    exact ht.2.2 _ (List.mem_map_of_mem hc) _ (List.mem_map_of_mem hr)
  | update set =>
    obtain ⟨r, -, hset⟩ := List.mem_filterMap.mp he
    obtain ⟨new, -, heq⟩ := Option.map_eq_some_iff.mp hset
    cases heq
  | delete cond =>
    obtain ⟨r, -, heq⟩ := List.mem_map.mp he
    cases heq

theorem nodup_insert {l l' : List ρ} (hkey : ((l ++ l').map key).Nodup)
    (h : ∀ c ∈ l ++ l', key c ≠ key new) : ((l ++ new :: l').map key).Nodup := by
  have hperm : ((l ++ new :: l').map key).Perm ((new :: (l ++ l')).map key) :=
    List.perm_middle.map key
  rw [hperm.nodup_iff, List.map_cons, List.nodup_cons]
  refine ⟨fun hmem => ?_, hkey⟩
  obtain ⟨c, hc, heq⟩ := List.mem_map.mp hmem
  exact h c hc heq

theorem nodup_concat (ht : (t.map key).Nodup) (h : ∀ c ∈ t, key c ≠ key new) :
    ((t ++ [new]).map key).Nodup :=
  nodup_insert (by rwa [List.append_nil]) (by rwa [List.append_nil])

theorem insertRows_ok (h : insertRows check t rows = .ok t') : t' = t ++ rows := by
  induction rows generalizing t with
  | nil =>
    obtain rfl := Except.ok.inj h
    exact (List.append_nil t).symm
  | cons new rows ih =>
    rw [ih (bind_unit_eq_ok.mp h).2, List.append_assoc]
    rfl

theorem insertRows_of_forall (h : ∀ new ∈ rows, ∀ l, check l new = .ok ()) :
    insertRows check t rows = .ok (t ++ rows) := by
  induction rows generalizing t with
  | nil => rw [insertRows, List.append_nil]
  | cons new rows ih =>
    rw [insertRows, h new List.mem_cons_self]
    show insertRows check (t ++ [new]) rows = _
    rw [ih fun new' hnew' => h new' (List.mem_cons_of_mem _ hnew'), List.append_assoc]
    rfl

theorem insertRows_checked {P : ρ → Prop} (hcheck : ∀ l new, check l new = .ok () → P new)
    (h : insertRows check t rows = .ok t') : ∀ r ∈ rows, P r := by
  induction rows generalizing t with
  | nil => exact fun _ hr => absurd hr List.not_mem_nil
  | cons new rows ih =>
    obtain ⟨hnew, h⟩ := bind_unit_eq_ok.mp h
    exact List.forall_mem_cons.mpr ⟨hcheck t new hnew, ih h⟩

theorem updateRows_checked {P : ρ → Prop} (hcheck : ∀ l new, check l new = .ok () → P new)
    (h : updateRows check set done rows = .ok t') :
    ∀ r ∈ rows, ∀ new, set r = some new → P new := by
  induction rows generalizing done with
  | nil => exact fun _ hr => absurd hr List.not_mem_nil
  | cons old rows ih =>
    rw [updateRows] at h
    cases hset : set old with
    | none =>
      rw [hset] at h
      refine List.forall_mem_cons.mpr ⟨fun new hnew => ?_, ih h⟩
      rw [hset] at hnew
      cases hnew
    | some new =>
      rw [hset] at h
      obtain ⟨hnew, h⟩ := bind_unit_eq_ok.mp h
      refine List.forall_mem_cons.mpr ⟨fun new' hnew' => ?_, ih h⟩
      obtain rfl := Option.some.inj (hset.symm.trans hnew')
      exact hcheck _ new hnew

theorem updateRows_ok (h : updateRows check set done rows = .ok t') :
    t' = done ++ rows.map fun r => (set r).getD r := by
  induction rows generalizing done with
  | nil =>
    obtain rfl := Except.ok.inj h
    exact (List.append_nil done).symm
  | cons old rows ih =>
    rw [updateRows] at h
    cases hset : set old with
    | none =>
      rw [hset] at h
      rw [ih h, List.map_cons, hset, Option.getD_none, List.append_assoc]
      rfl
    | some new =>
      rw [hset] at h
      rw [ih (bind_unit_eq_ok.mp h).2, List.map_cons, hset, Option.getD_some, List.append_assoc]
      rfl

theorem execute_ok (h : s.execute check t = .ok t') : t' = s.after t := by
  cases s with
  | insert rows => exact insertRows_ok h
  | update set => rw [updateRows_ok h, List.nil_append, after]
  | delete cond => exact (Except.ok.inj h).symm

theorem execute_checked {P : ρ → Prop} (hcheck : ∀ l new, check l new = .ok () → P new)
    (h : s.execute check t = .ok t') : ∀ e ∈ s.events t, ∀ new, e.new? = some new → P new := by
  intro e he new hnew
  cases s with
  | insert rows =>
    obtain ⟨r, hr, rfl⟩ := List.mem_map.mp he
    exact Option.some.inj hnew ▸ insertRows_checked hcheck h r hr
  | update set =>
    obtain ⟨r, hr, new', hset, rfl⟩ := exists_of_update he
    exact Option.some.inj hnew ▸ updateRows_checked hcheck h r hr new' hset
  | delete cond =>
    obtain ⟨r, -, rfl⟩ := List.mem_map.mp he
    cases hnew

/-- A statement that succeeds, with triggers that only look at what it has written. -/
theorem execute_events_ok {σ : Type} {put : List ρ → σ}
    {trigger : List ρ → RowEvent ρ → Result Unit} {db' : σ} (h : (do
      let rows ← s.execute check t
      (s.events t).forM (trigger rows)
      .ok (put rows)) = .ok db') :
    db' = put (s.after t) ∧ ∀ e ∈ s.events t, trigger (s.after t) e = .ok () := by
  obtain ⟨rows, hrows, h⟩ := bind_eq_ok.mp h
  obtain ⟨htriggers, h⟩ := bind_unit_eq_ok.mp h
  obtain rfl := execute_ok hrows
  exact ⟨(Except.ok.inj h).symm, forM_eq_ok.mp htriggers⟩

theorem execute_triggers_ok {σ : Type} {put : List ρ → σ} {trigger : σ → RowEvent ρ → Result Unit}
    {db' : σ} (h : (do
      let rows ← s.execute check t
      (s.events t).forM (trigger (put rows))
      .ok (put rows)) = .ok db') :
    db' = put (s.after t) ∧ ∀ e ∈ s.events t, trigger db' e = .ok () := by
  obtain ⟨rfl, htriggers⟩ := execute_events_ok h
  exact ⟨rfl, htriggers⟩

section

variable (hcheck : ∀ l new, check l new = .ok () → ∀ c ∈ l, key c ≠ key new)
include hcheck

theorem nodup_insertRows (ht : (t.map key).Nodup) (h : insertRows check t rows = .ok t') :
    (t'.map key).Nodup := by
  induction rows generalizing t with
  | nil =>
    obtain rfl := Except.ok.inj h
    exact ht
  | cons new rows ih =>
    obtain ⟨hnew, h⟩ := bind_unit_eq_ok.mp h
    refine ih (nodup_insert (by rwa [List.append_nil]) ?_) h
    rw [List.append_nil]
    exact hcheck t new hnew

theorem nodup_updateRows (ht : ((done ++ rows).map key).Nodup)
    (h : updateRows check set done rows = .ok t') :
    (t'.map key).Nodup := by
  induction rows generalizing done with
  | nil =>
    obtain rfl := Except.ok.inj h
    rwa [List.append_nil] at ht
  | cons old rows ih =>
    rw [updateRows] at h
    cases hset : set old with
    | none =>
      rw [hset] at h
      exact ih (by simpa using ht) h
    | some new =>
      rw [hset] at h
      obtain ⟨hnew, h⟩ := bind_unit_eq_ok.mp h
      have hothers : ((done ++ rows).map key).Nodup :=
        ht.sublist (((List.sublist_cons_self old rows).append_left done).map key)
      exact ih (by simpa using nodup_insert hothers (hcheck _ new hnew)) h

end

/-! ## Rows that may stand together -/

section Together

variable {R : ρ → ρ → Prop}

section

variable (hsymm : ∀ a b, R a b → R b a)
include hsymm

/-- Rows that a check compares with the others, as those with different keys. -/
theorem pairwise_middle {l l' : List ρ} (h : (l ++ l').Pairwise R) (hnew : ∀ c ∈ l ++ l', R c new) :
    (l ++ new :: l').Pairwise R := by
  rw [List.pairwise_append] at h ⊢
  refine ⟨h.1, List.pairwise_cons.mpr ⟨fun c hc => ?_, h.2.1⟩, fun a ha b hb => ?_⟩
  · exact hsymm _ _ (hnew c (List.mem_append_right l hc))
  · rcases List.mem_cons.mp hb with rfl | hb
    · exact hnew a (List.mem_append_left l' ha)
    · exact h.2.2 a ha b hb

section

variable (hcheck : ∀ l new, check l new = .ok () → ∀ c ∈ l, R c new)
include hcheck

theorem pairwise_insertRows (ht : t.Pairwise R) (h : insertRows check t rows = .ok t') :
    t'.Pairwise R := by
  induction rows generalizing t with
  | nil =>
    obtain rfl := Except.ok.inj h
    exact ht
  | cons new rows ih =>
    obtain ⟨hnew, h⟩ := bind_unit_eq_ok.mp h
    refine ih (pairwise_middle hsymm (by rwa [List.append_nil]) ?_) h
    rw [List.append_nil]
    exact hcheck t new hnew

theorem pairwise_updateRows (ht : (done ++ rows).Pairwise R)
    (h : updateRows check set done rows = .ok t') :
    t'.Pairwise R := by
  induction rows generalizing done with
  | nil =>
    obtain rfl := Except.ok.inj h
    rwa [List.append_nil] at ht
  | cons old rows ih =>
    rw [updateRows] at h
    cases hset : set old with
    | none =>
      rw [hset] at h
      exact ih (by simpa using ht) h
    | some new =>
      rw [hset] at h
      obtain ⟨hnew, h⟩ := bind_unit_eq_ok.mp h
      have hothers : (done ++ rows).Pairwise R :=
        ht.sublist ((List.sublist_cons_self old rows).append_left done)
      exact ih (by simpa using pairwise_middle hsymm hothers (hcheck _ new hnew)) h

theorem pairwise_execute (ht : t.Pairwise R) (h : s.execute check t = .ok t') : t'.Pairwise R := by
  cases s with
  | insert rows => exact pairwise_insertRows hsymm hcheck ht h
  | update set => exact pairwise_updateRows hsymm hcheck (by rwa [List.nil_append]) h
  | delete cond =>
    obtain rfl := Except.ok.inj h
    exact ht.sublist List.filter_sublist

end

/-- An `UPDATE` whose new rows may stand where the old ones stood. -/
theorem updateRows_of_pairwise (hrows : (done ++ rows).Pairwise R)
    (hset : ∀ r ∈ rows, ∀ new, set r = some new → (∀ c, R c r → R c new) ∧
      ∀ l, (∀ c ∈ l, R c new) → check l new = .ok ()) :
    updateRows check set done rows = .ok (done ++ rows.map fun r => (set r).getD r) := by
  induction rows generalizing done with
  | nil => rw [updateRows, List.map_nil, List.append_nil]
  | cons old rows ih =>
    have hrest := fun r hr => hset r (List.mem_cons_of_mem old hr)
    rw [updateRows]
    cases hold : set old with
    | none =>
      dsimp only
      rw [ih (by simpa using hrows) hrest, List.map_cons, hold, Option.getD_none,
        List.append_assoc, List.singleton_append]
    | some new =>
      dsimp only
      obtain ⟨hkeep, hcheck⟩ := hset old List.mem_cons_self new hold
      have hother : ∀ c ∈ done ++ rows, R c new := by
        intro c hc
        refine hkeep c ?_
        rw [List.pairwise_append] at hrows
        rcases List.mem_append.mp hc with hc | hc
        · exact hrows.2.2 c hc old List.mem_cons_self
        · exact hsymm _ _ ((List.pairwise_cons.mp hrows.2.1).1 c hc)
      have hothers : (done ++ rows).Pairwise R :=
        hrows.sublist ((List.sublist_cons_self old rows).append_left done)
      rw [hcheck _ hother]
      show updateRows check set (done ++ [new]) rows = _
      rw [ih (by simpa using pairwise_middle hsymm hothers hother) hrest, List.map_cons, hold,
        Option.getD_some, List.append_assoc, List.singleton_append]

theorem execute_update_of_pairwise (ht : t.Pairwise R)
    (hset : ∀ r ∈ t, ∀ new, set r = some new → (∀ c, R c r → R c new) ∧
      ∀ l, (∀ c ∈ l, R c new) → check l new = .ok ()) :
    (update set).execute check t = .ok ((update set).after t) := by
  rw [execute, updateRows_of_pairwise hsymm (by rwa [List.nil_append]) hset, List.nil_append, after]

end

end Together

theorem filter_key [DecidableEq κ] (ht : (t.map key).Nodup) (hc : c ∈ t) :
    t.filter (fun r => key r = key c) = [c] := by
  refine List.perm_singleton.mp ((List.perm_ext_iff_of_nodup ((List.Nodup.of_map key ht).filter _)
    (List.nodup_singleton c)).mpr fun r => ?_)
  rw [List.mem_filter, List.mem_singleton, decide_eq_true_eq]
  constructor
  · exact fun hr => List.inj_on_of_nodup_map ht hr.1 hc hr.2
  · rintro rfl
    exact ⟨hc, rfl⟩

theorem set_of_events (h : (update set).events t = [.update old new]) :
    set old = some new ∧ ∀ r ∈ t, r ≠ old → set r = none := by
  have hmem : .update old new ∈ (update set).events t := h ▸ List.mem_singleton.mpr rfl
  obtain ⟨r, hr, hmap⟩ := List.mem_filterMap.mp hmem
  obtain ⟨new', hset, heq⟩ := Option.map_eq_some_iff.mp hmap
  obtain ⟨rfl, rfl⟩ := RowEvent.update.inj heq
  refine ⟨hset, fun r' hr' hne => Option.eq_none_iff_forall_ne_some.mpr fun new hset' => hne ?_⟩
  have hmem' : .update r' new ∈ (update set).events t :=
    List.mem_filterMap.mpr ⟨r', hr', by rw [hset']; rfl⟩
  rw [h] at hmem'
  exact (RowEvent.update.inj (List.mem_singleton.mp hmem')).1

theorem after_update_if {p : ρ → Prop} [DecidablePred p] {f : ρ → ρ} :
    (update fun r => if p r then some (f r) else none).after t =
      t.map fun r => if p r then f r else r := by
  refine List.map_congr_left fun r _ => ?_
  dsimp only
  split <;> rfl

theorem events_update_if {p : ρ → Prop} [DecidablePred p] {f : ρ → ρ} :
    (update fun r => if p r then some (f r) else none).events t =
      (t.filter fun r => p r).map fun r => .update r (f r) := by
  induction t with
  | nil => rfl
  | cons r t ih =>
    rw [events] at ih ⊢
    rw [List.filterMap_cons, List.filter_cons, ih]
    by_cases hr : p r
    · rw [if_pos hr, if_pos (decide_eq_true hr)]
      rfl
    · rw [if_neg hr, if_neg (by simpa using hr)]
      rfl

theorem updateRows_none (h : ∀ r ∈ rows, set r = none) :
    updateRows check set done rows = .ok (done ++ rows) := by
  induction rows generalizing done with
  | nil => rw [updateRows, List.append_nil]
  | cons r rows ih =>
    rw [updateRows, h r List.mem_cons_self]
    dsimp only
    rw [ih fun r' hr' => h r' (List.mem_cons_of_mem _ hr'), List.append_assoc,
      List.singleton_append]

theorem execute_update_none (h : ∀ r ∈ t, set r = none) :
    (update set).execute check t = .ok t :=
  updateRows_none h

theorem events_update_none (h : ∀ r ∈ t, set r = none) : (update set).events t = [] := by
  rw [events, List.filterMap_eq_nil_iff]
  intro r hr
  rw [h r hr, Option.map_none]

/-- An `UPDATE` of one row, whose new row passes its check beside any others. -/
theorem exists_execute_of_one (ht : t.Nodup) (hold : old ∈ t) (hset : set old = some new)
    (hothers : ∀ r ∈ t, r ≠ old → set r = none)
    (hcheck : ∀ l : List ρ, (∀ r ∈ l, r ∈ t ∧ r ≠ old) → check l new = .ok ()) :
    ∃ t', (update set).execute check t = .ok t' := by
  have hrows : ∀ rows done, old ∈ rows → done ++ rows = t → old ∉ done →
      ∃ t', updateRows check set done rows = .ok t' := by
    intro rows
    induction rows with
    | nil => exact fun done hmem => absurd hmem List.not_mem_nil
    | cons r rows ih =>
      intro done hmem heq hdone
      by_cases hr : r = old
      · subst hr
        have hnot : r ∉ rows := by
          rw [← heq] at ht
          exact (List.nodup_cons.mp (List.nodup_append.mp ht).2.1).1
        have hmem' : ∀ r' ∈ done ++ rows, r' ∈ t ∧ r' ≠ r := by
          intro r' hr'
          rw [← heq]
          rcases List.mem_append.mp hr' with hr' | hr'
          · exact ⟨List.mem_append_left _ hr', fun h => hdone (h ▸ hr')⟩
          · exact ⟨List.mem_append_right _ (List.mem_cons_of_mem _ hr'), fun h => hnot (h ▸ hr')⟩
        refine ⟨done ++ [new] ++ rows, ?_⟩
        rw [updateRows, hset]
        refine bind_unit_eq_ok.mpr ⟨hcheck _ hmem', updateRows_none fun r' hr' => ?_⟩
        have hr'' := hmem' r' (List.mem_append_right _ hr')
        exact hothers r' hr''.1 hr''.2
      · have hrt : r ∈ t := heq ▸ List.mem_append_right _ List.mem_cons_self
        rw [updateRows, hothers r hrt hr]
        refine ih _ ((List.mem_cons.mp hmem).resolve_left (Ne.symm hr)) (by simpa using heq) ?_
        simpa [hdone] using Ne.symm hr
  exact hrows t [] hold rfl List.not_mem_nil

/-- A statement that succeeds keeps a key that is checked. -/
theorem nodup_execute (hcheck : ∀ l new, check l new = .ok () → ∀ c ∈ l, key c ≠ key new)
    (ht : (t.map key).Nodup) (h : s.execute check t = .ok t') : (t'.map key).Nodup := by
  cases s with
  | insert rows => exact nodup_insertRows hcheck ht h
  | update set => exact nodup_updateRows hcheck (by rwa [List.nil_append]) h
  | delete cond =>
    obtain rfl := Except.ok.inj h
    exact ht.sublist (List.filter_sublist.map key)

end RowStatement
end JazzHands.Postgres

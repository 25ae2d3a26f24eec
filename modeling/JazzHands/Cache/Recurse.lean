import JazzHands.Cache.WaysUp
import JazzHands.Library.Runs

/-!
# `ct_account_collection_hier_recurse` is its view

`Sound.newEdge` and `Sound.erase` are what the handler does for an edge that comes and one that
goes, and `recurseHandler_loop` says when it raises its error.  `ctRecurse_exact` is the run.
-/

namespace JazzHands.AccountCollection

open Library Postgres

variable {coll : List ℕ} {hier : List Hier} {ct : List HierRow} {db db' : Db} {old new : Hier}
  {id : ℕ} {r : HierRow}

/-! ## What the statements do -/

theorem fireCollection_eq_ok {ev : RowEvent ℕ} : fireCollection db ev = .ok db' ↔
    ∃ ctFromAncestor ctRecurse, baseHandler db.ctFromAncestor ev = .ok ctFromAncestor ∧
      baseHandler db.ctRecurse ev = .ok ctRecurse ∧
      db' = { db with ctRecurse := ctRecurse, ctFromAncestor := ctFromAncestor } := by
  constructor
  · intro h
    obtain ⟨fa, hfa, h⟩ := bind_eq_ok.mp h
    obtain ⟨rc, hrc, h⟩ := bind_eq_ok.mp h
    cases h
    exact ⟨fa, rc, hfa, hrc, rfl⟩
  · rintro ⟨fa, rc, hfa, hrc, rfl⟩
    exact bind_eq_ok.mpr ⟨fa, hfa, bind_eq_ok.mpr ⟨rc, hrc, rfl⟩⟩

theorem fireHier_eq_ok {ev : RowEvent Hier} : fireHier db ev = .ok db' ↔
    ∃ ctRecurse ctFromAncestor,
      accountCollectionHierRecurseHandler db.ctRecurse ev = .ok ctRecurse ∧
      accountCollectionRootHandler db.ctFromAncestor ev = .ok ctFromAncestor ∧
      db' = { db with ctRecurse := ctRecurse, ctFromAncestor := ctFromAncestor } := by
  constructor
  · intro h
    obtain ⟨rc, hrc, h⟩ := bind_eq_ok.mp h
    obtain ⟨fa, hfa, h⟩ := bind_eq_ok.mp h
    cases h
    exact ⟨rc, fa, hrc, hfa, rfl⟩
  · rintro ⟨rc, fa, hrc, hfa, rfl⟩
    exact bind_eq_ok.mpr ⟨rc, hrc, bind_eq_ok.mpr ⟨fa, hfa, rfl⟩⟩

theorem checkHier_eq_ok : checkHier db hier new = .ok () ↔ new ∉ hier ∧
    new.accountCollectionId ∈ db.accountCollection ∧
    new.childAccountCollectionId ∈ db.accountCollection := by
  simp [checkHier]

theorem execute_insertCollection : execute db (.insertCollection id) = .ok db' ↔
    id ∉ db.accountCollection ∧
      fireCollection { db with accountCollection := db.accountCollection ++ [id] } (.insert id) =
        .ok db' := by
  simp [execute]

theorem execute_deleteCollection : execute db (.deleteCollection id) = .ok db' ↔
    (id ∉ db.accountCollection ∧ db' = db) ∨
      id ∈ db.accountCollection ∧
      (∀ h ∈ db.accountCollectionHier, h.accountCollectionId ≠ id ∧
        h.childAccountCollectionId ≠ id) ∧
      fireCollection { db with accountCollection := db.accountCollection.erase id } (.delete id) =
        .ok db' := by
  rw [execute]
  by_cases hid : id ∈ db.accountCollection
  · simp [hid, not_or]
  · simp [hid, eq_comm]

theorem execute_insertHier : execute db (.insertHier new) = .ok db' ↔
    new ∉ db.accountCollectionHier ∧ new.accountCollectionId ∈ db.accountCollection ∧
      new.childAccountCollectionId ∈ db.accountCollection ∧
      fireHier { db with accountCollectionHier := db.accountCollectionHier ++ [new] }
        (.insert new) = .ok db' := by
  rw [execute, bind_unit_eq_ok, checkHier_eq_ok]
  tauto

theorem execute_deleteHier : execute db (.deleteHier old) = .ok db' ↔
    (old ∉ db.accountCollectionHier ∧ db' = db) ∨
      old ∈ db.accountCollectionHier ∧
      fireHier { db with accountCollectionHier := db.accountCollectionHier.erase old }
        (.delete old) = .ok db' := by
  rw [execute]
  by_cases hold : old ∈ db.accountCollectionHier
  · simp [hold]
  · simp [hold, eq_comm]

theorem execute_updateHier : execute db (.updateHier old new) = .ok db' ↔
    (old ∉ db.accountCollectionHier ∧ db' = db) ∨
      old ∈ db.accountCollectionHier ∧ new ∉ db.accountCollectionHier.erase old ∧
      new.accountCollectionId ∈ db.accountCollection ∧
      new.childAccountCollectionId ∈ db.accountCollection ∧
      fireHier { db with
        accountCollectionHier := db.accountCollectionHier.erase old ++ [new] }
        (.update old new) = .ok db' := by
  rw [execute]
  by_cases hold : old ∈ db.accountCollectionHier
  · rw [if_neg (not_not_intro hold), bind_unit_eq_ok, checkHier_eq_ok]
    tauto
  · simp [hold, eq_comm]

/-! ## The handler -/

/-- The paths with the two ends of the edge next to each other are those over the edge. -/
theorem holds_recurseDelete (hv : Valid coll hier) (h : Holds coll hier ct) :
    Holds coll (hier.erase old) (recurseDelete ct old) where
  nodup := h.nodup.filter _
  mem r := by
    have hcut := Ascends.cut_iff (up_erase old hv.edges) (l := r.path)
      (a := r.accountCollectionId) (z := r.rootAccountCollectionId)
    rw [recurseDelete, List.mem_filter, decide_eq_true_iff, h.mem, Consecutive, mem_zip_tail_iff]
    constructor
    · rintro ⟨hr, hnot⟩
      exact ⟨hcut.mpr ⟨hr.ascends, hnot⟩, hr.mem, hr.noCycle⟩
    · intro hr
      obtain ⟨ha, hnot⟩ := hcut.mp hr.ascends
      exact ⟨⟨ha, hr.mem, hr.noCycle⟩, hnot⟩

theorem recurseSmashes_perm (h : Holds coll hier ct) : (recurseSmashes ct new).Perm
    (smashes ct new fun p c => decide (new.childAccountCollectionId ∈ p.path) ||
      decide (new.accountCollectionId ∈ c.path)) := by
  rw [recurseSmashes, (nodup_smashes h.within).dedup]

/-- The flag of a pair is up when the new edge closes a cycle along its paths. -/
theorem cycle_of_recurseSmash (h : Holds coll hier ct) (hv : Valid coll hier)
    (hacyclic : Acyclic (Up (hier ++ [new]))) :
    ∀ s ∈ recurseSmashes ct new, s.cycle = false := by
  intro s hs
  have hreach := (acyclic_linked_iff up_append hv.acyclic).mp hacyclic
  obtain ⟨p, hp, c, hc, hpa, hcr, rfl⟩ :=
    mem_smashes_iff.mp ((recurseSmashes_perm h).mem_iff.mp hs)
  have hp := ((h.mem p).mp hp).ascends
  have hc := ((h.mem c).mp hc).ascends
  refine Bool.or_eq_false_iff.mpr ⟨decide_eq_false fun hmem => ?_, decide_eq_false fun hmem => ?_⟩
  · exact hreach (hpa ▸ hp.reflTransGen_of_mem hmem)
  · obtain ⟨-, t, -, ht⟩ := hc.suffix_of_mem hmem
    exact hreach (hcr ▸ ht.reflTransGen)

theorem exists_cycle_recurseSmash (h : Holds coll hier ct) (hv : Valid coll hier)
    (hp : new.accountCollectionId ∈ coll) (hc : new.childAccountCollectionId ∈ coll)
    (hcycle : ¬ Acyclic (Up (hier ++ [new]))) :
    ∃ s ∈ recurseSmashes ct new, s.cycle = true := by
  have hreach := not_not.mp (mt (acyclic_linked_iff up_append hv.acyclic).mpr hcycle)
  obtain ⟨l, hl⟩ := exists_ascends_iff.mpr hreach
  have hpct := (h.mem ⟨_, _, l, false⟩).mpr ⟨hl, hp, rfl⟩
  have hcct := (h.mem _).mpr (isWayUp_self hc)
  refine ⟨_, (recurseSmashes_perm h).mem_iff.mpr
    (mem_smashes_iff.mpr ⟨_, hpct, _, hcct, rfl, rfl, rfl⟩), ?_⟩
  exact Bool.or_eq_true_iff.mpr (Or.inl (decide_eq_true hl.last_mem))

def infiniteLoop : PgError := ⟨.invalidParameterValue, "This creates an infite loop"⟩

section NewEdge

variable (h : Holds coll hier ct) (hv : Valid coll hier) (hnew : new ∉ hier)
  (hp : new.accountCollectionId ∈ coll) (hc : new.childAccountCollectionId ∈ coll)

include h hv hnew hp

theorem recurseInsert_acyclic (hacyclic : Acyclic (Up (hier ++ [new]))) :
    ∃ ct', insertSmashes .invalidParameterValue "This creates an infite loop" ct
        (recurseSmashes ct new) = .ok ct' ∧ Holds coll (hier ++ [new]) ct' :=
  glue h hnew hp hacyclic (recurseSmashes_perm h) (cycle_of_recurseSmash h hv hacyclic)

include hc

theorem recurseInsert_cycle (hcycle : ¬ Acyclic (Up (hier ++ [new]))) :
    insertSmashes .invalidParameterValue "This creates an infite loop" ct
      (recurseSmashes ct new) = .error infiniteLoop :=
  insertSmashes_eq_error (exists_cycle_recurseSmash h hv hp hc hcycle)
    (smash_paths_nodup h.within hnew (recurseSmashes_perm h))
    (smash_fresh h.within hnew (recurseSmashes_perm h))

end NewEdge

/-! ## One statement -/

/-- The keys hold, there is no cycle, and the cache has one row for each way up. -/
structure Sound (db : Db) : Prop where
  valid : Valid db.accountCollection db.accountCollectionHier
  recurse : Holds db.accountCollection db.accountCollectionHier db.ctRecurse

/-- What the handler does for a new edge is right for the hierarchy with it. -/
theorem Sound.newEdge (h : Sound db) (hnew : new ∉ db.accountCollectionHier)
    (hp : new.accountCollectionId ∈ db.accountCollection)
    (hc : new.childAccountCollectionId ∈ db.accountCollection)
    (hct : accountCollectionHierRecurseHandler db.ctRecurse (.insert new) = .ok ct)
    (fa : List HierRow) : Sound
      { db with
        accountCollectionHier := db.accountCollectionHier ++ [new]
        ctRecurse := ct
        ctFromAncestor := fa } := by
  by_cases hacyclic : Acyclic (Up (db.accountCollectionHier ++ [new]))
  · obtain ⟨ct', hct', hholds⟩ := recurseInsert_acyclic h.recurse h.valid hnew hp hacyclic
    obtain rfl := Except.ok.inj (hct'.symm.trans hct)
    exact ⟨h.valid.append hnew hp hc hacyclic, hholds⟩
  · exact absurd (hct.symm.trans (recurseInsert_cycle h.recurse h.valid hnew hp hc hacyclic)) nofun

/-- What the deletion leaves is right for the hierarchy without the edge. -/
theorem Sound.erase (h : Sound db) (old : Hier) (fa : List HierRow) : Sound
    { db with
      accountCollectionHier := db.accountCollectionHier.erase old
      ctRecurse := recurseDelete db.ctRecurse old
      ctFromAncestor := fa } :=
  ⟨h.valid.erase, holds_recurseDelete h.valid h.recurse⟩

/-- **Every statement keeps the cache right.** -/
theorem Sound.execute (h : Sound db) {s : Statement} (hs : execute db s = .ok db') :
    Sound db' := by
  cases s with
  | insertCollection id =>
    obtain ⟨hid, hfire⟩ := execute_insertCollection.mp hs
    obtain ⟨fa, rc, -, hrc, rfl⟩ := fireCollection_eq_ok.mp hfire
    exact ⟨h.valid.insertCollection hid, holds_insertCollection h.valid h.recurse hid hrc⟩
  | deleteCollection id =>
    rcases execute_deleteCollection.mp hs with ⟨-, rfl⟩ | ⟨-, hid, hfire⟩
    · exact h
    · obtain ⟨fa, rc, -, hrc, rfl⟩ := fireCollection_eq_ok.mp hfire
      exact ⟨h.valid.deleteCollection hid, holds_deleteCollection h.valid h.recurse hid hrc⟩
  | insertHier new =>
    obtain ⟨hnew, hp, hc, hfire⟩ := execute_insertHier.mp hs
    obtain ⟨rc, fa, hrc, -, rfl⟩ := fireHier_eq_ok.mp hfire
    exact h.newEdge hnew hp hc hrc fa
  | deleteHier old =>
    rcases execute_deleteHier.mp hs with ⟨-, rfl⟩ | ⟨-, hfire⟩
    · exact h
    · obtain ⟨rc, fa, hrc, -, rfl⟩ := fireHier_eq_ok.mp hfire
      obtain rfl := Except.ok.inj hrc
      exact h.erase _ fa
  | updateHier old new =>
    rcases execute_updateHier.mp hs with ⟨-, rfl⟩ | ⟨-, hnew, hp, hc, hfire⟩
    · exact h
    · obtain ⟨rc, fa, hrc, -, rfl⟩ := fireHier_eq_ok.mp hfire
      -- the handler deletes for the old edge, and inserts for the new one into what is left
      exact (h.erase old fa).newEdge hnew hp hc hrc fa

theorem Sound.step (h : Sound db) (s : Statement) : Sound (step db s) := by
  unfold AccountCollection.step
  cases hs : AccountCollection.execute db s with
  | ok db' => exact h.execute hs
  | error e => exact h

/-! ## The error about an infinite loop -/

theorem rootHandler_ne_infiniteLoop {ev : RowEvent Hier} :
    accountCollectionRootHandler ct ev ≠ .error infiniteLoop := by
  intro h
  cases ev with
  | delete old => exact nomatch h
  | insert new =>
    rcases insertSmashes_error h with h | h
    · exact nomatch h
    · exact nomatch h
  | update old new =>
    rcases insertSmashes_error h with h | h
    · exact nomatch h
    · exact nomatch h

theorem fireHier_eq_infiniteLoop {ev : RowEvent Hier} : fireHier db ev = .error infiniteLoop ↔
    accountCollectionHierRecurseHandler db.ctRecurse ev = .error infiniteLoop := by
  constructor
  · intro h
    rcases bind_eq_error.mp h with h | ⟨rc, -, h⟩
    · exact h
    · rcases bind_eq_error.mp h with h | ⟨fa, -, h⟩
      · exact absurd h rootHandler_ne_infiniteLoop
      · exact nomatch h
  · intro h
    exact bind_eq_error.mpr (Or.inl h)

theorem checkHier_ne_infiniteLoop : checkHier db hier new ≠ .error infiniteLoop := by
  intro h
  simp only [checkHier, bind_eq_error, raiseIf_eq_error, infiniteLoop] at h
  simp at h

/-- The handler raises the error for a new edge that closes a cycle, and for no other. -/
theorem recurseHandler_loop (h : Sound db) (hnew : new ∉ db.accountCollectionHier)
    (hp : new.accountCollectionId ∈ db.accountCollection)
    (hc : new.childAccountCollectionId ∈ db.accountCollection) :
    accountCollectionHierRecurseHandler db.ctRecurse (.insert new) = .error infiniteLoop ↔
      ¬ Acyclic (Up (db.accountCollectionHier ++ [new])) := by
  constructor
  · intro hloop hacyclic
    obtain ⟨ct', hct', -⟩ := recurseInsert_acyclic h.recurse h.valid hnew hp hacyclic
    exact absurd (hct'.symm.trans hloop) nofun
  · exact recurseInsert_cycle h.recurse h.valid hnew hp hc

theorem Sound.not_mem_of_cycle (h : Sound db)
    (hcycle : ¬ Acyclic (Up (db.accountCollectionHier ++ [new]))) :
    new ∉ db.accountCollectionHier := by
  intro hnew
  refine hcycle (h.valid.acyclic.mono fun x y hxy => ?_)
  rcases (up_append x y).mp hxy with hxy | ⟨rfl, rfl⟩
  · exact hxy
  · exact hnew

theorem insertHier_eq_infiniteLoop (h : Sound db) :
    AccountCollection.execute db (.insertHier new) = .error infiniteLoop ↔
      new.accountCollectionId ∈ db.accountCollection ∧
      new.childAccountCollectionId ∈ db.accountCollection ∧
      ¬ Acyclic (Up (db.accountCollectionHier ++ [new])) := by
  rw [AccountCollection.execute, bind_eq_error]
  constructor
  · rintro (hs | ⟨_, hcheck, hs⟩)
    · exact absurd hs checkHier_ne_infiniteLoop
    · obtain ⟨hnew, hp, hc⟩ := checkHier_eq_ok.mp hcheck
      have hloop := fireHier_eq_infiniteLoop.mp hs
      exact ⟨hp, hc, (recurseHandler_loop h hnew hp hc).mp hloop⟩
  · rintro ⟨hp, hc, hcycle⟩
    have hnew := h.not_mem_of_cycle hcycle
    exact Or.inr ⟨(), checkHier_eq_ok.mpr ⟨hnew, hp, hc⟩,
      fireHier_eq_infiniteLoop.mpr ((recurseHandler_loop h hnew hp hc).mpr hcycle)⟩

theorem updateHier_eq_infiniteLoop (h : Sound db) :
    AccountCollection.execute db (.updateHier old new) = .error infiniteLoop ↔
      old ∈ db.accountCollectionHier ∧ new.accountCollectionId ∈ db.accountCollection ∧
      new.childAccountCollectionId ∈ db.accountCollection ∧
      ¬ Acyclic (Up (db.accountCollectionHier.erase old ++ [new])) := by
  rw [AccountCollection.execute]
  by_cases hold : old ∈ db.accountCollectionHier
  · rw [if_neg (not_not_intro hold), bind_eq_error, and_iff_right hold]
    have herase := h.erase old []
    constructor
    · rintro (hs | ⟨_, hcheck, hs⟩)
      · exact absurd hs checkHier_ne_infiniteLoop
      · obtain ⟨hnew, hp, hc⟩ := checkHier_eq_ok.mp hcheck
        have hloop := fireHier_eq_infiniteLoop.mp hs
        exact ⟨hp, hc, (recurseHandler_loop herase hnew hp hc).mp hloop⟩
    · rintro ⟨hp, hc, hcycle⟩
      have hnew := herase.not_mem_of_cycle hcycle
      exact Or.inr ⟨(), checkHier_eq_ok.mpr ⟨hnew, hp, hc⟩,
        fireHier_eq_infiniteLoop.mpr ((recurseHandler_loop herase hnew hp hc).mpr hcycle)⟩
  · rw [if_pos hold]
    exact ⟨nofun, fun hs => absurd hs.1 hold⟩

/-! ## Every run -/

theorem sound_of_perm (hv : Valid db.accountCollection db.accountCollectionHier)
    (hct : db.ctRecurse.Perm (vAccountCollectionHierRecurse db)) : Sound db :=
  ⟨hv, (holds_vRecurse hv).of_perm hct⟩

theorem Sound.run (h : Sound db) (l : List Statement) :
    Sound (Library.run AccountCollection.step db l) :=
  run_invariant (P := fun _ _ => True) (fun _ s hdb _ => hdb.step s) h
    (allSteps_of_forall fun _ _ => trivial)

/-- **The cache is its view after every run,** one row for each way up the hierarchy and none with a
cycle; and an edge is refused with the error about an infinite loop exactly when its ends are
collections and it closes a cycle. -/
theorem ctRecurse_exact (hv : Valid db.accountCollection db.accountCollectionHier)
    (hct : db.ctRecurse.Perm (vAccountCollectionHierRecurse db)) (l : List Statement) :
    let db' := Library.run step db l
    db'.ctRecurse.Perm (vAccountCollectionHierRecurse db') ∧
    (∀ r, r ∈ db'.ctRecurse ↔ IsWayUp db'.accountCollection db'.accountCollectionHier r) ∧
    (∀ new, execute db' (.insertHier new) = .error infiniteLoop ↔
      new.accountCollectionId ∈ db'.accountCollection ∧
      new.childAccountCollectionId ∈ db'.accountCollection ∧
      ¬ Acyclic (Up (db'.accountCollectionHier ++ [new]))) ∧
    (∀ old new, execute db' (.updateHier old new) = .error infiniteLoop ↔
      old ∈ db'.accountCollectionHier ∧ new.accountCollectionId ∈ db'.accountCollection ∧
      new.childAccountCollectionId ∈ db'.accountCollection ∧
      ¬ Acyclic (Up (db'.accountCollectionHier.erase old ++ [new]))) := by
  have h := (sound_of_perm hv hct).run l
  exact ⟨h.recurse.perm (holds_vRecurse h.valid), h.recurse.mem,
    fun new => insertHier_eq_infiniteLoop h, fun old new => updateHier_eq_infiniteLoop h⟩

def Db.empty : Db := ⟨[], [], [], []⟩

theorem Db.valid_empty : Valid Db.empty.accountCollection Db.empty.accountCollectionHier where
  collections := List.nodup_nil
  edges := List.nodup_nil
  parents _ he := absurd he List.not_mem_nil
  children _ he := absurd he List.not_mem_nil
  acyclic a ha := by
    obtain ⟨b, hab, -⟩ := Relation.TransGen.head'_iff.mp ha
    exact absurd hab List.not_mem_nil

/-- The statements that make a diamond, with the collection 1 on top and 4 at the bottom. -/
def diamond : List Statement :=
  [.insertCollection 1, .insertCollection 2, .insertCollection 3, .insertCollection 4,
    .insertHier ⟨1, 2⟩, .insertHier ⟨1, 3⟩, .insertHier ⟨2, 4⟩, .insertHier ⟨3, 4⟩]

theorem ctRecurse_exact_diamond :
    let db := Library.run step Db.empty diamond
    (⟨1, 4, [4, 2, 1], false⟩ : HierRow) ∈ db.ctRecurse ∧ db.ctRecurse.length = 10 ∧
    db.ctRecurse.Perm (vAccountCollectionHierRecurse db) :=
  ⟨by decide, by decide, (ctRecurse_exact Db.valid_empty (List.Perm.refl _) diamond).1⟩

end JazzHands.AccountCollection

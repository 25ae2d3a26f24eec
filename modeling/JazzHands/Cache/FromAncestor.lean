import JazzHands.Cache.Recurse

/-!
# `ct_account_collection_hier_from_ancestor` against its view

The handler of this cache removes the paths that both ends of an edge lie on.  These are the paths
over the edge when the child is below its parent in no other way.
-/

namespace JazzHands.AccountCollection

open Library Postgres

variable {coll : List ℕ} {hier : List Hier} {ct ct' : List HierRow} {db db' : Db} {old new : Hier}
  {r : HierRow}

/-- There is a way up from the child to the parent that does not take the edge. -/
def Detour (hier : List Hier) (e : Hier) : Prop :=
  Relation.ReflTransGen (Up (hier.erase e)) e.childAccountCollectionId e.accountCollectionId

/-! ## The deletion -/

/-- Without a detour the ways up on which both ends lie take the edge. -/
theorem infix_of_mem (hv : Valid coll hier) (hold : old ∈ hier) (hdetour : ¬ Detour hier old)
    (hr : IsWayUp coll hier r) (hp : old.accountCollectionId ∈ r.path)
    (hc : old.childAccountCollectionId ∈ r.path) :
    [old.childAccountCollectionId, old.accountCollectionId] <:+: r.path := by
  obtain ⟨m, hm, hup | hdown⟩ := hr.ascends.between hc hp
  · by_contra hnot
    have hcut := (Ascends.cut_iff (up_erase old hv.edges)).mpr
      ⟨hup, fun hin => hnot (hin.trans hm)⟩
    exact hdetour hcut.reflTransGen
  · -- the edge would close a cycle
    exact absurd (Relation.TransGen.head' hold hdown.reflTransGen) (hv.acyclic _)

theorem rootDelete_within (old : Hier) (hv : Valid coll hier)
    (h : Holds coll hier ct) : Within coll (hier.erase old) (rootDelete ct old) where
  nodup := h.nodup.filter _
  isWayUp r hr := by
    rw [rootDelete, List.mem_filter, decide_eq_true_iff] at hr
    have hway := (h.mem r).mp hr.1
    refine ⟨(Ascends.cut_iff (up_erase old hv.edges)).mpr ⟨hway.ascends, fun hin => hr.2 ?_⟩, hway.mem,
      hway.noCycle⟩
    exact ⟨hin.subset (List.mem_cons_of_mem _ List.mem_cons_self), hin.subset List.mem_cons_self⟩

/-- **The deletion is right** exactly when the edge has no detour. -/
theorem holds_rootDelete_iff (hv : Valid coll hier) (h : Holds coll hier ct) (hold : old ∈ hier) :
    Holds coll (hier.erase old) (rootDelete ct old) ↔ ¬ Detour hier old := by
  constructor
  · intro hdel hdetour
    obtain ⟨m, hm⟩ := exists_ascends_iff.mpr hdetour
    -- the row of the detour is gone
    have hrow := (hdel.mem ⟨_, _, m, false⟩).mpr ⟨hm, hv.children _ hold, rfl⟩
    rw [rootDelete, List.mem_filter, decide_eq_true_iff] at hrow
    exact hrow.2 ⟨hm.last_mem, hm.head_mem⟩
  · intro hdetour
    have hwithin := rootDelete_within old hv h
    refine ⟨hwithin.nodup, fun r => ⟨hwithin.isWayUp r, fun hr => ?_⟩⟩
    obtain ⟨ha, hnot⟩ := (Ascends.cut_iff (up_erase old hv.edges)).mp hr.ascends
    have hway : IsWayUp coll hier r := ⟨ha, hr.mem, hr.noCycle⟩
    rw [rootDelete, List.mem_filter, decide_eq_true_iff]
    exact ⟨(h.mem r).mpr hway, fun ⟨hp, hc⟩ => hnot (infix_of_mem hv hold hdetour hway hp hc)⟩

/-! ## A new edge -/

/-- The pairs never have a cycle, and their paths are new. -/
theorem rootInsert_eq_ok (h : Within coll hier ct) (hnew : new ∉ hier) :
    accountCollectionRootHandler ct (.insert new) =
      .ok (ct ++ (smashes ct new fun _ _ => false).map Smash.row) := by
  refine insertSmashes_eq_ok (fun s hs => ?_) (smash_paths_nodup h hnew (List.Perm.refl _))
    (smash_fresh h hnew (List.Perm.refl _))
  obtain ⟨p, -, c, -, -, -, rfl⟩ := mem_smashes_iff.mp hs
  rfl

theorem holds_rootInsert (h : Holds coll hier ct) (hnew : new ∉ hier)
    (hp : new.accountCollectionId ∈ coll) (hacyclic : Acyclic (Up (hier ++ [new])))
    (hct : accountCollectionRootHandler ct (.insert new) = .ok ct') :
    Holds coll (hier ++ [new]) ct' := by
  have hcycle : ∀ s ∈ smashes ct new fun _ _ => false, s.cycle = false := by
    intro s hs
    obtain ⟨p, -, c, -, -, -, rfl⟩ := mem_smashes_iff.mp hs
    rfl
  obtain ⟨ct'', hct'', hholds⟩ := glue h hnew hp hacyclic (List.Perm.refl _) hcycle
  obtain rfl := Except.ok.inj (hct''.symm.trans hct)
  exact hholds

/-- What is missing stays missing: the pairs bring in ways up over the new edge only. -/
theorem holds_of_rootInsert (h : Within coll hier ct) (hnew : new ∉ hier)
    (hacyclic : Acyclic (Up (hier ++ [new])))
    (hct : accountCollectionRootHandler ct (.insert new) = .ok ct')
    (hholds : Holds coll (hier ++ [new]) ct') : Holds coll hier ct := by
  refine ⟨h.nodup, fun r => ⟨h.isWayUp r, fun hr => ?_⟩⟩
  have hrow := (hholds.mem r).mpr ⟨(Ascends.linked_iff up_append hacyclic).mpr (Or.inl hr.ascends),
    hr.mem, hr.noCycle⟩
  rw [rootInsert_eq_ok h hnew] at hct
  obtain rfl := Except.ok.inj hct
  rcases List.mem_append.mp hrow with hrow | hrow
  · exact hrow
  · obtain ⟨s, hs, rfl⟩ := List.mem_map.mp hrow
    obtain ⟨p, hp, c, hc, hpa, hcr, rfl⟩ := mem_smashes_iff.mp hs
    exact absurd hr.ascends.chain (Ascends.not_isChain_append hnew
      (hcr ▸ (h.isWayUp c hc).ascends) (hpa ▸ (h.isWayUp p hp).ascends.head))

/-! ## One statement -/

/-- The statement takes away no edge with a detour.  An UPDATE that the keys or the other cache
refuse takes away none. -/
def KeepsFromAncestor (db : Db) : Statement → Prop
  | .deleteHier old => old ∈ db.accountCollectionHier → ¬ Detour db.accountCollectionHier old
  | .updateHier old new => old ∈ db.accountCollectionHier →
      new ∉ db.accountCollectionHier.erase old →
      new.accountCollectionId ∈ db.accountCollection →
      new.childAccountCollectionId ∈ db.accountCollection →
      Acyclic (Up (db.accountCollectionHier.erase old ++ [new])) →
      ¬ Detour db.accountCollectionHier old
  | _ => True

/-- The cache has one row for each way up. -/
def FromAncestorHolds (db : Db) : Prop :=
  Holds db.accountCollection db.accountCollectionHier db.ctFromAncestor

theorem step_eq (s : Statement) (hs : execute db s = .ok db') : step db s = db' := by
  rw [step, hs]

theorem step_eq_self (s : Statement) {e : PgError} (hs : execute db s = .error e) :
    step db s = db := by
  rw [step, hs]

section

variable (h : Sound db) (hf : FromAncestorHolds db)
include h hf

theorem deleteHier_iff :
    FromAncestorHolds (step db (.deleteHier old)) ↔ KeepsFromAncestor db (.deleteHier old) := by
  by_cases hold : old ∈ db.accountCollectionHier
  · have hs := execute_deleteHier.mpr (Or.inr ⟨hold, fireHier_eq_ok.mpr
      ⟨recurseDelete db.ctRecurse old, rootDelete db.ctFromAncestor old, rfl, rfl, rfl⟩⟩)
    rw [step_eq _ hs]
    exact (holds_rootDelete_iff h.valid hf hold).trans ⟨fun hd _ => hd, fun hd => hd hold⟩
  · rw [step_eq _ (execute_deleteHier.mpr (Or.inl ⟨hold, rfl⟩))]
    exact ⟨fun _ hmem => absurd hmem hold, fun _ => hf⟩

theorem updateHier_iff_of_acyclic (hold : old ∈ db.accountCollectionHier)
    (hnew : new ∉ db.accountCollectionHier.erase old)
    (hp : new.accountCollectionId ∈ db.accountCollection)
    (hc : new.childAccountCollectionId ∈ db.accountCollection)
    (hacyclic : Acyclic (Up (db.accountCollectionHier.erase old ++ [new]))) :
    FromAncestorHolds (step db (.updateHier old new)) ↔ ¬ Detour db.accountCollectionHier old := by
  have herase := h.erase old []
  obtain ⟨rc, hrc, -⟩ := recurseInsert_acyclic herase.recurse herase.valid hnew hp hacyclic
  have hwithin := rootDelete_within old h.valid hf
  have hfa := rootInsert_eq_ok hwithin hnew
  have hs := execute_updateHier.mpr (Or.inr ⟨hold, hnew, hp, hc, fireHier_eq_ok.mpr
    ⟨rc, _, hrc, hfa, rfl⟩⟩)
  rw [step_eq _ hs, ← holds_rootDelete_iff h.valid hf hold]
  constructor
  · exact holds_of_rootInsert hwithin hnew hacyclic hfa
  · intro hdel
    exact holds_rootInsert hdel hnew hp hacyclic hfa

theorem updateHier_iff :
    FromAncestorHolds (step db (.updateHier old new)) ↔
      KeepsFromAncestor db (.updateHier old new) := by
  cases hs : execute db (.updateHier old new) with
  | error e =>
    rw [step_eq_self _ hs]
    refine ⟨fun _ hold hnew hp hc hacyclic => ?_, fun _ => hf⟩
    -- an UPDATE that nothing refuses does not fail
    have herase := h.erase old []
    obtain ⟨rc, hrc, -⟩ := recurseInsert_acyclic herase.recurse herase.valid hnew hp hacyclic
    have hfa := rootInsert_eq_ok (rootDelete_within old h.valid hf) hnew
    have hok := execute_updateHier.mpr (Or.inr ⟨hold, hnew, hp, hc, fireHier_eq_ok.mpr
      ⟨rc, _, hrc, hfa, rfl⟩⟩)
    exact absurd (hok.symm.trans hs) nofun
  | ok db' =>
    rcases execute_updateHier.mp hs with ⟨hold, rfl⟩ | ⟨hold, hnew, hp, hc, hfire⟩
    · rw [step_eq _ hs]
      exact ⟨fun _ hmem => absurd hmem hold, fun _ => hf⟩
    · have hacyclic : Acyclic (Up (db.accountCollectionHier.erase old ++ [new])) := by
        have hsound := (h.execute hs).valid.acyclic
        obtain ⟨rc, fa, -, -, rfl⟩ := fireHier_eq_ok.mp hfire
        exact hsound
      rw [updateHier_iff_of_acyclic h hf hold hnew hp hc hacyclic]
      exact ⟨fun hd _ _ _ _ _ => hd, fun hd => hd hold hnew hp hc hacyclic⟩

/-- **A statement keeps the cache right** exactly when it takes away no edge with a detour. -/
theorem fromAncestorHolds_step_iff (s : Statement) :
    FromAncestorHolds (step db s) ↔ KeepsFromAncestor db s := by
  cases s with
  | insertCollection id =>
    refine ⟨fun _ => trivial, fun _ => ?_⟩
    cases hs : execute db (.insertCollection id) with
    | error e => rwa [step_eq_self _ hs]
    | ok db' =>
      rw [step_eq _ hs]
      obtain ⟨hid, hfire⟩ := execute_insertCollection.mp hs
      obtain ⟨fa, rc, hfa, -, rfl⟩ := fireCollection_eq_ok.mp hfire
      exact holds_insertCollection h.valid hf hid hfa
  | deleteCollection id =>
    refine ⟨fun _ => trivial, fun _ => ?_⟩
    cases hs : execute db (.deleteCollection id) with
    | error e => rwa [step_eq_self _ hs]
    | ok db' =>
      rw [step_eq _ hs]
      rcases execute_deleteCollection.mp hs with ⟨-, rfl⟩ | ⟨-, hid, hfire⟩
      · exact hf
      · obtain ⟨fa, rc, hfa, -, rfl⟩ := fireCollection_eq_ok.mp hfire
        exact holds_deleteCollection h.valid hf hid hfa
  | insertHier new =>
    refine ⟨fun _ => trivial, fun _ => ?_⟩
    cases hs : execute db (.insertHier new) with
    | error e => rwa [step_eq_self _ hs]
    | ok db' =>
      rw [step_eq _ hs]
      obtain ⟨hnew, hp, -, hfire⟩ := execute_insertHier.mp hs
      have hacyclic := (h.execute hs).valid.acyclic
      obtain ⟨rc, fa, -, hfa, rfl⟩ := fireHier_eq_ok.mp hfire
      exact holds_rootInsert hf hnew hp hacyclic hfa
  | deleteHier old => exact deleteHier_iff h hf
  | updateHier old new => exact updateHier_iff h hf

end

/-! ## Every run -/

/-- The cache has the rows of its view, and so those of the other cache. -/
def FromAncestorExact (db : Db) : Prop :=
  db.ctFromAncestor.Perm (vAccountCollectionHierFromAncestor db) ∧
    db.ctFromAncestor.Perm db.ctRecurse

theorem fromAncestorExact_iff (h : Sound db) : FromAncestorExact db ↔ FromAncestorHolds db := by
  constructor
  · intro hf
    exact (holds_vFromAncestor h.valid).of_perm hf.1
  · intro hf
    exact ⟨hf.perm (holds_vFromAncestor h.valid), hf.perm h.recurse⟩

/-- **The cache is its view all along a run** exactly when no statement of the run takes away an edge
with a detour. -/
theorem ctFromAncestor_exact_iff (hv : Valid db.accountCollection db.accountCollectionHier)
    (hrc : db.ctRecurse.Perm (vAccountCollectionHierRecurse db))
    (hfa : db.ctFromAncestor.Perm (vAccountCollectionHierFromAncestor db)) (l : List Statement) :
    (∀ l', l' <+: l → FromAncestorExact (Library.run step db l')) ↔
      AllSteps step KeepsFromAncestor db l := by
  have h := sound_of_perm hv hrc
  have hf : FromAncestorHolds db := (holds_vFromAncestor hv).of_perm hfa
  rw [← forall_prefix_iff (I := FromAncestorHolds) (Q := fun _ _ => True) (fun _ s hdb _ => Sound.step hdb s)
    (fun _ s hdb _ hdbf => fromAncestorHolds_step_iff hdb hdbf s) h hf
    (allSteps_of_forall fun _ _ => trivial)]
  exact forall₂_congr fun l' _ => fromAncestorExact_iff (h.run l')

/-- A chain of three collections and the edge from its top to its bottom, which is then deleted. -/
def triangle : List Statement :=
  [.insertCollection 1, .insertCollection 2, .insertCollection 3, .insertHier ⟨1, 2⟩,
    .insertHier ⟨2, 3⟩, .insertHier ⟨1, 3⟩, .deleteHier ⟨1, 3⟩]

/-- The path of the chain is lost with the edge. -/
theorem ctFromAncestor_triangle :
    let db := Library.run step Db.empty triangle
    (⟨1, 3, [3, 2, 1], false⟩ : HierRow) ∈ vAccountCollectionHierFromAncestor db ∧
      (⟨1, 3, [3, 2, 1], false⟩ : HierRow) ∉ db.ctFromAncestor ∧ ¬ FromAncestorExact db := by
  have hmem : (⟨1, 3, [3, 2, 1], false⟩ : HierRow) ∈
      vAccountCollectionHierFromAncestor (Library.run step Db.empty triangle) := by decide
  have hnot : (⟨1, 3, [3, 2, 1], false⟩ : HierRow) ∉
      (Library.run step Db.empty triangle).ctFromAncestor := by decide
  exact ⟨hmem, hnot, fun h => hnot (h.1.mem_iff.mpr hmem)⟩

theorem ctFromAncestor_exact_iff_diamond :
    FromAncestorExact (Library.run step Db.empty diamond) :=
  (ctFromAncestor_exact_iff Db.valid_empty (List.Perm.refl _) (List.Perm.refl _) diamond).mpr
    ⟨trivial, trivial, trivial, trivial, trivial, trivial, trivial, trivial, trivial⟩
    diamond List.prefix_rfl

end JazzHands.AccountCollection

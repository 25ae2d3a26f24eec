import JazzHands.Cache.NetblockNested
import JazzHands.Netblock.Subnettable

/-!
# The cache after a statement

`Holds` is the invariant of the cache, by paths and without an order of rows.  An `INSERT` keeps it
(`holds_insert`), and a `DELETE` only under a condition (`holds_delete_iff`).  Both follow the
parents that the triggers set, before and after the handler is fired.
-/

namespace JazzHands.NetblockHier

open Library Postgres Relation

variable {db : Schema} {order : ScanOrder} {t t' : List Netblock} {d d' : HierDb}
  {x x' : HierTxn} {old new n r : Netblock} {i j : ℕ} {s : Statement}

/-! ## Tables of networks -/

/-- A child is of the type and in the universe of its parent. -/
def SameKind (t : List Netblock) : Prop := ∀ n ∈ t, ∀ m ∈ t, n.IsChildOf m →
  n.netblockType = m.netblockType ∧ n.ipUniverseId = m.ipUniverseId

/-- The rows are networks, the constraints hold, and no netblock is above itself. -/
structure Settled (t : List Netblock) : Prop where
  wellFormed : WellFormed t
  keys : (keys t).Nodup
  network : ∀ n ∈ t, n.isSingleAddress = false
  exist : ∀ n ∈ t, ∀ p ∈ n.parentNetblockId, ∃ m ∈ t, m.netblockId = p
  kind : SameKind t
  acyclic : Acyclic (Up t)

theorem Settled.up_mem (h : Settled t) (hij : Up t i j) : j ∈ ids t := by
  obtain ⟨n, hn, -, hp⟩ := hij
  exact h.exist n hn j hp

theorem Settled.networks (h : Settled t) : Networks t :=
  ⟨h.wellFormed.pk, h.network, fun _ _ hij => h.up_mem hij⟩

/-- The cache has lost no way up. -/
def Holds (d : HierDb) : Prop :=
  Tidy d.ctNetblockHier ∧
    Recorded (Up d.netblock) (ids d.netblock) (fun _ => False) (paths d.ctNetblockHier)

/-- Statements on networks: INSERT, DELETE, and UPDATE of `ip_address` or `parent_netblock_id`. -/
def OnNetworks : Statement → Prop
  | .insert rec => rec.isSingleAddress ≠ some true
  | .update _ set => set =
      { ipAddress := set.ipAddress, parentNetblockId := set.parentNetblockId : SetClause } ∧
      firesHandler set = true
  | .delete _ => True

theorem settled_nil : Settled [] :=
  ⟨.nil, List.nodup_nil, fun _ hn => absurd hn List.not_mem_nil,
    fun _ hn => absurd hn List.not_mem_nil, fun _ hn => absurd hn List.not_mem_nil,
    .of_lt id fun _ _ ⟨_, hn, _⟩ => absurd hn List.not_mem_nil⟩

/-- A record that is not one of a single address is completed to a network. -/
theorem complete_network {rec : NetblockRecord} (h : rec.complete db t = .ok n)
    (hrec : rec.isSingleAddress ≠ some true) : n.isSingleAddress = false := by
  obtain ⟨-, -, -, hsingle, -⟩ := complete_ok h
  cases hs : rec.isSingleAddress with
  | some b =>
    rw [hsingle b hs]
    cases b with
    | false => rfl
    | true => exact absurd hs hrec
  | none =>
    unfold NetblockRecord.complete at h
    cases hip : rec.ipAddress with
    | none =>
      rw [hip] at h
      exact absurd h raise_ne_ok
    | some ip =>
      rw [hip, hs] at h
      dsimp only at h
      split at h
      · next single subnet hcol _ =>
        cases h
        split_ifs at hcol
        exact (Option.some_inj.mp hcol).symm
      · exact absurd h raise_ne_ok

/-- The columns of the row of an UPDATE of `ip_address` and `parent_netblock_id`. -/
structure Renewed (old new : Netblock) : Prop where
  netblockId : new.netblockId = old.netblockId
  netblockType : new.netblockType = old.netblockType
  isSingleAddress : new.isSingleAddress = old.isSingleAddress
  ipUniverseId : new.ipUniverseId = old.ipUniverseId

theorem renewed_of_complete {set : SetClause} (hs : OnNetworks (.update i set))
    (h : (set.apply old).complete db t = .ok n) : Renewed old n := by
  obtain ⟨hid, -, htype, hsingle, -, -, huniverse⟩ := complete_ok h
  rw [hs.1] at hid htype hsingle huniverse
  exact ⟨hid, htype, hsingle _ rfl, huniverse _ rfl⟩

theorem Renewed.written {o : Option Netblock} {fires : Bool} (h : Renewed old n)
    (hw : WrittenRow db t o fires n new) : Renewed old new :=
  ⟨hw.netblockId.trans h.netblockId, hw.netblockType.trans h.netblockType,
    hw.isSingleAddress.trans h.isSingleAddress, hw.ipUniverseId.trans h.ipUniverseId⟩

/-- Statements on networks keep children of the kind of their parents. -/
theorem SameKind.change {gone written : Option Netblock} (h : Settled t)
    (hc : Change db t t' s gone written) (hs : OnNetworks s) : SameKind t' := by
  intro c hc' m hm hp
  rcases hc.child_cases h.exist hm hc' hp with ⟨o, ho⟩ | ⟨hct, -, ⟨m₀, hm₀, hp₀, hst⟩ | ⟨hw, old, hold, holdt, hpo⟩⟩
  · obtain ⟨-, -, hu, hτ, -⟩ := ho.of_child hc.wellFormed hc' hm hp
    exact ⟨hτ.symm, hu.symm⟩
  · obtain ⟨-, htype, huniverse, -⟩ := hst.columns
    rw [htype, huniverse]
    exact h.kind c hct m₀ hm₀ hp₀
  · obtain rfl := Option.mem_def.mp hw
    cases hc.writes with
    | insert => cases hold
    | update find fires complete row =>
      obtain rfl := Option.mem_some_iff.mp hold
      have hnew := (renewed_of_complete hs complete).written row
      rw [hnew.netblockType, hnew.ipUniverseId]
      exact h.kind c hct _ holdt hpo

theorem network_change {gone written : Option Netblock} (h : Settled t)
    (hc : Change db t t' s gone written) (hs : OnNetworks s) :
    ∀ n ∈ t', n.isSingleAddress = false := by
  intro n hn
  rcases hc.source_cases hn with hw | ⟨m, hm, -, hst⟩
  · obtain rfl := Option.mem_def.mp hw
    cases hc.writes with
    | insert complete row =>
      rw [row.isSingleAddress]
      exact complete_network complete hs
    | update find fires complete row =>
      rw [((renewed_of_complete hs complete).written row).isSingleAddress]
      exact h.network _ (findNetblock_eq_some find).1
  · rw [hst.columns.2.2.2.1]
    exact h.network m hm

/-! ## INSERT -/

theorem manipulateNetblockParentageAfterInsert_nested (hx : WellFormed x.txn.netblock)
    (hkeys : (keys x.txn.netblock).Nodup) (hnet : ∀ n ∈ x.txn.netblock, n.isSingleAddress = false)
    (htidy : Tidy x.ctNetblockHier)
    (h : manipulateNetblockParentageAfterInsert db order x new = .ok x') :
    ∃ g L, Nested new.parentNetblockId (some new.netblockId) (AdoptedByInsert db new) x x' g L := by
  unfold manipulateNetblockParentageAfterInsert at h
  split_ifs at h with hf hs
  · cases h
    exact ⟨id, [], .nop hx htidy fun r _ ha => by rw [ha.1] at hf; cases hf⟩
  · cases h
    exact ⟨id, [], .nop hx htidy fun r _ ha => by rw [ha.2.1] at hs; cases hs⟩
  · have hf' : db.dbForcedHierarchy new.netblockType = true := by simpa using hf
    have hs' : new.isSingleAddress = false := by simpa using hs
    cases hp : new.parentNetblockId with
    | none =>
      rw [hp] at h
      obtain ⟨g, L, hg⟩ := updateParents_nested hx hkeys hnet htidy (fun r _ hc => hc.1)
        (fun r _ hc he => hc.2.2.1 (Option.some_inj.mp he).symm) h
      refine ⟨g, L, hg.congr fun r _ => ?_⟩
      simp only [AdoptedByInsert, hf', hs', hp, true_and, true_implies]
    | some parent =>
      rw [hp] at h
      obtain ⟨g, L, hg⟩ := updateParents_nested hx hkeys hnet htidy (fun r _ hc => hc.1)
        (fun r _ hc he => hc.2.2 (Option.some_inj.mp he).symm) h
      refine ⟨g, L, hg.congr fun r _ => ?_⟩
      simp only [AdoptedByInsert, hf', hs', hp, true_and, reduceCtorEq, false_implies, and_true]

theorem up_append : Up (t ++ [new]) i j ↔
    Up t i j ∨ (i = new.netblockId ∧ new.parentNetblockId = some j) := by
  constructor
  · rintro ⟨n, hn, rfl, hp⟩
    rcases mem_append_new.mp hn with hn | rfl
    · exact Or.inl ⟨n, hn, rfl, hp⟩
    · exact Or.inr ⟨rfl, hp⟩
  · rintro (⟨n, hn, rfl, hp⟩ | ⟨rfl, hp⟩)
    · exact ⟨n, mem_append_new.mpr (Or.inl hn), rfl, hp⟩
    · exact ⟨new, mem_append_new.mpr (Or.inr rfl), rfl, hp⟩

/-- A table with another row, whose key is new. -/
structure Grown (t : List Netblock) (new : Netblock) : Prop where
  fresh : ∀ r ∈ t, r.netblockId ≠ new.netblockId
  irrefl : new.parentNetblockId ≠ some new.netblockId

namespace Grown

variable (h : Grown t new) (ht : Settled t)

include h

theorem notMem : new.netblockId ∉ ids t := fun ⟨r, hr, hid⟩ => h.fresh r hr hid

include ht

theorem not_up : ¬ Up (t ++ [new]) i new.netblockId := by
  intro hup
  rcases up_append.mp hup with hup | ⟨-, hp⟩
  · exact h.notMem (ht.up_mem hup)
  · exact h.irrefl hp

theorem acyclic : Acyclic (Up (t ++ [new])) := by
  refine Acyclic.of_changed (B := {new.netblockId}) ht.acyclic (fun i hi j => ?_) fun b hb hcyc => ?_
  · rw [up_append]
    exact ⟨Or.inl, fun hup => hup.resolve_right fun hnew => hi hnew.1⟩
  · rw [Set.mem_singleton_iff.mp hb] at hcyc
    obtain ⟨y, -, hy⟩ := TransGen.tail'_iff.mp hcyc
    exact h.not_up ht hy

theorem agreeAbove (hi : i ∈ ids t) : AgreeAbove (Up t) (Up (t ++ [new])) i := by
  intro a ha j
  have hat : a ∈ ids t := by
    rcases ReflTransGen.cases_tail ha with rfl | ⟨y, -, hya⟩
    · exact hi
    · exact ht.up_mem hya
  rw [up_append]
  exact ⟨Or.inl, fun hup => hup.resolve_right fun hnew => h.notMem (hnew.1 ▸ hat)⟩

end Grown

theorem not_across_empty {l : List ℕ} : ¬ Across (∅ : Set ℕ) l := fun ⟨_, hb, _⟩ => hb

theorem ids_eq_of_keys (h : keys t = keys t') : ids t = ids t' := by
  ext i
  rw [← mem_keys, ← mem_keys, h]

theorem ids_append : ids (t ++ [new]) = insert new.netblockId (ids t) := by
  ext i
  rw [← mem_keys, keys, List.map_append, List.mem_append, Set.mem_insert_iff, ← mem_keys, keys]
  simp [eq_comm, or_comm]

theorem keys_append (h : (keys t).Nodup) (hnew : ∀ r ∈ t, r.netblockId ≠ new.netblockId) :
    (keys (t ++ [new])).Nodup := by
  rw [keys, List.map_append, List.nodup_append]
  refine ⟨h, List.nodup_singleton _, fun a ha b hb hab => ?_⟩
  obtain ⟨r, hr, rfl⟩ := List.mem_map.mp ha
  rw [List.map_singleton, List.mem_singleton] at hb
  exact hnew r hr (hab.trans hb)

theorem parent_ne_of_commit {o : Option Netblock} (hwf : WellFormed t') (hc : commit db x.txn = .ok t')
    (hev : ⟨o, new⟩ ∈ x.txn.deferred) (hmem : new ∈ t') :
    new.parentNetblockId ≠ some new.netblockId := by
  obtain ⟨-, hval, -⟩ := commit_ok hc
  intro hp
  exact (Validated.parent hwf hmem (hval _ hev) hp).1 rfl

theorem holds_insert {rec : NetblockRecord} (ht : Settled d.netblock) (hd : Holds d)
    (hrec : rec.isSingleAddress ≠ some true) (h : executeInsert db order d rec = .ok x)
    (hc : commit db x.txn = .ok t') :
    (keys t').Nodup ∧ Acyclic (Up t') ∧ Holds ⟨t', x.ctNetblockHier⟩ := by
  obtain ⟨new₀, hv, h⟩ := bind_eq_ok.mp h
  obtain ⟨n, hn, hm, hcheck⟩ := validateNetblock_ok hv
  obtain ⟨⟨y, new⟩, hb, h⟩ := bind_eq_ok.mp h
  obtain ⟨hw, rfl⟩ := manipulateNetblockParentageBefore_insert hm hcheck hb
  obtain ⟨y, hins, h⟩ := bind_eq_ok.mp h
  obtain ⟨hcons, hins⟩ := bind_unit_eq_ok.mp hins
  obtain rfl := Except.ok.inj hins
  obtain ⟨x₁, hafter, h⟩ := bind_eq_ok.mp h
  obtain ⟨ct, hct, h⟩ := bind_eq_ok.mp h
  obtain rfl := Except.ok.inj h
  have hfresh := (checkConstraints_ok hcons).1
  have hsingle : new.isSingleAddress = false := by
    rw [hw.isSingleAddress]
    exact complete_network hn hrec
  have hwf : WellFormed (d.netblock ++ [new]) := ht.wellFormed.append hcons hw.network
  have hkeys := keys_append ht.keys hfresh
  have hnet : ∀ m ∈ d.netblock ++ [new], m.isSingleAddress = false := by
    intro m hm
    rcases mem_append_new.mp hm with hm | rfl
    · exact ht.network m hm
    · exact hsingle
  obtain ⟨g, L, hg⟩ := manipulateNetblockParentageAfterInsert_nested
    (x := ⟨⟨d.netblock ++ [new], _⟩, d.ctNetblockHier⟩) hwf hkeys hnet hd.1 hafter
  obtain rfl := (commit_ok hc).1
  have hkeys' := hg.keys_eq
  -- the new row is not its own parent, so the handler does not pass over it
  have hmem : new ∈ x₁.txn.netblock := by
    rw [hg.updates.netblock]
    refine List.mem_map.mpr ⟨new, mem_append_new.mpr (Or.inr rfl), ?_⟩
    exact hg.updates.kept new (mem_append_new.mpr (Or.inr rfl)) fun ha => ha.2.2.2.2.1 rfl
  have hgrown : Grown d.netblock new :=
    ⟨hfresh, parent_ne_of_commit hg.updates.wellFormed hc
      (hg.updates.deferred List.mem_cons_self) hmem⟩
  have hpass : ¬ Passes new := by
    rintro (hs | hp)
    · rw [hsingle] at hs
      cases hs
    · exact hgrown.irrefl hp
  obtain ⟨htidy, hpaths, hcyc⟩ := handler_insert_ok hg.tidy ⟨new, hmem, rfl⟩ hpass hct
  have hE := hgrown.acyclic ht
  have hoff : ∀ i ∉ L, ∀ j, Up (d.netblock ++ [new]) i j ↔ Up x₁.txn.netblock i j := by
    intro i hi j
    rw [hg.up_iff hkeys]
    simp [hi]
  have hrec₀ : Recorded (Up (d.netblock ++ [new])) (ids d.netblock) (Across ∅)
      (paths d.ctNetblockHier) :=
    hd.2.congr (fun i hi => hgrown.agreeAbove ht hi) fun l _ _ _ _ =>
      iff_of_false id not_across_empty
  have hrec₁ := hg.recorded hkeys hrec₀ (fun i hi => ?_) hE hoff
    (fun i hi j hij => (hg.parent_old hkeys hi).mp hij) (hg.not_up_old hkeys hE)
    (fun b hb => absurd hb (Set.notMem_empty b))
  · have hchildren : (∅ ∪ {i | i ∈ L} : Set ℕ) = {i | Up x₁.txn.netblock i new.netblockId} := by
      ext i
      rw [Set.empty_union, Set.mem_ofPred_eq, Set.mem_ofPred_eq, hg.up_iff hkeys]
      exact ⟨fun hi => Or.inl ⟨hi, rfl⟩, fun hup => hup.elim And.left fun hup =>
        absurd hup.2 (hgrown.not_up ht)⟩
    rw [← hg.paths, hchildren] at hrec₁
    have hids : ids x₁.txn.netblock = insert new.netblockId (ids d.netblock) :=
      (ids_eq_of_keys hkeys').trans ids_append
    refine ⟨hkeys' ▸ hkeys, hg.acyclic hE hoff, htidy, ?_⟩
    show Recorded (Up x₁.txn.netblock) (ids x₁.txn.netblock) _ (paths ct)
    rw [hids, hpaths]
    refine hrec₁.combine (fun i hi j hij => ?_) hcyc
    rw [hg.up_iff hkeys] at hi hij
    rcases hi with ⟨hi, -⟩ | ⟨-, hi⟩
    · rcases hij with ⟨-, hj⟩ | ⟨hi', -⟩
      · exact (Option.some_inj.mp hj).symm
      · exact absurd hi hi'
    · exact absurd hi (hgrown.not_up ht)
  · obtain ⟨r, hr, ha, rfl⟩ := (hg.mem i).mp hi
    rcases mem_append_new.mp hr with hr | rfl
    · exact ⟨r, hr, rfl⟩
    · exact absurd rfl ha.2.2.2.2.1

/-! ## DELETE -/

/-- The netblock has a child. -/
def HasChild (t : List Netblock) (k : Netblock) : Prop :=
  ∃ c ∈ t, c.parentNetblockId = some k.netblockId
  deriving Decidable

/-- The deleted netblock is at the top, or has no grandchild. -/
def MayDelete (t : List Netblock) (old : Netblock) : Prop :=
  old.parentNetblockId = none ∨
    ¬ ∃ k ∈ t, k.parentNetblockId = some old.netblockId ∧ HasChild t k
  deriving Decidable

theorem manipulateNetblockParentageAfterDelete_nested (hx : WellFormed x.txn.netblock)
    (hkeys : (keys x.txn.netblock).Nodup) (hnet : ∀ n ∈ x.txn.netblock, n.isSingleAddress = false)
    (htidy : Tidy x.ctNetblockHier)
    (hself : ∀ r ∈ x.txn.netblock, r.parentNetblockId = some old.netblockId →
      old.parentNetblockId ≠ some r.netblockId)
    (h : manipulateNetblockParentageAfterDelete db order x old = .ok x') :
    ∃ g L, Nested (some old.netblockId) old.parentNetblockId (ReleasedByDelete db old) x x' g L := by
  unfold manipulateNetblockParentageAfterDelete at h
  split_ifs at h with hf
  · cases h
    exact ⟨id, [], .nop hx htidy fun r _ ha => by rw [ha.1] at hf; cases hf⟩
  · have hf' : db.dbForcedHierarchy old.netblockType = true := by simpa using hf
    obtain ⟨g, L, hg⟩ := updateParents_nested hx hkeys hnet htidy (fun r _ hc => hc) hself h
    exact ⟨g, L, hg.congr fun r _ => by simp only [ReleasedByDelete, hf', true_and]⟩

theorem up_without {m : ℕ} : Up (without t m) i j ↔ Up t i j ∧ i ≠ m := by
  constructor
  · rintro ⟨n, hn, rfl, hp⟩
    obtain ⟨hn, hne⟩ := mem_without.mp hn
    exact ⟨⟨n, hn, rfl, hp⟩, hne⟩
  · rintro ⟨⟨n, hn, rfl, hp⟩, hne⟩
    exact ⟨n, mem_without.mpr ⟨hn, hne⟩, rfl, hp⟩

theorem ids_without {m : ℕ} : ids (without t m) = ids t \ {m} := by
  ext i
  constructor
  · rintro ⟨n, hn, rfl⟩
    obtain ⟨hn, hne⟩ := mem_without.mp hn
    exact ⟨⟨n, hn, rfl⟩, hne⟩
  · rintro ⟨⟨n, hn, rfl⟩, hne⟩
    exact ⟨n, mem_without.mpr ⟨hn, hne⟩, rfl⟩

theorem up_of_mem (hn : n ∈ t) (hp : n.parentNetblockId = some j) : Up t n.netblockId j :=
  ⟨n, hn, rfl, hp⟩

theorem up_mem_of_commit (hc : commit db x.txn = .ok t') (hij : Up t' i j) : j ∈ ids t' := by
  obtain ⟨n, hn, -, hp⟩ := hij
  obtain ⟨m, hm⟩ := (commit_ok hc).2.2 n hn j hp
  obtain ⟨hm, hid⟩ := findNetblock_eq_some hm
  exact ⟨m, hm, hid⟩

/-- **A DELETE** keeps the cache exactly when the netblock is at the top or has no grandchild. -/
theorem holds_delete_iff (ht : Settled d.netblock) (hd : Holds d) (hold : old ∈ d.netblock)
    (h : executeDelete db order d old = .ok x) (hc : commit db x.txn = .ok t') :
    (keys t').Nodup ∧ Acyclic (Up t') ∧
      (Holds ⟨t', x.ctNetblockHier⟩ ↔ MayDelete d.netblock old) := by
  obtain ⟨x₁, hafter, h⟩ := bind_eq_ok.mp h
  obtain ⟨ct, hct, h⟩ := bind_eq_ok.mp h
  obtain rfl := Except.ok.inj h
  have hkeys : (keys (without d.netblock old.netblockId)).Nodup :=
    ht.keys.sublist (List.filter_sublist.map _)
  obtain ⟨g, L, hg⟩ := manipulateNetblockParentageAfterDelete_nested
    (x := ⟨⟨without d.netblock old.netblockId, []⟩, d.ctNetblockHier⟩)
    (ht.wellFormed.mono (without_subset _ _)) hkeys
    (fun m hm => ht.network m (mem_without.mp hm).1) hd.1 (fun r hr hp hpo =>
      ht.acyclic _ (.tail (.single (up_of_mem (mem_without.mp hr).1 hp)) (up_of_mem hold hpo))) hafter
  obtain rfl := (commit_ok hc).1
  obtain ⟨htidy, hpaths⟩ := handler_delete_ok hg.tidy hct
  have hkeys' := hg.keys_eq
  have hids : ids x₁.txn.netblock = ids d.netblock \ {old.netblockId} :=
    (ids_eq_of_keys hkeys').trans ids_without
  have hmem : ∀ {i j}, Up x₁.txn.netblock i j → j ≠ old.netblockId := by
    intro i j hij hj
    have := up_mem_of_commit hc hij
    rw [hids, hj] at this
    exact this.2 rfl
  have hL : ∀ i ∈ L, Up d.netblock i old.netblockId ∧ i ≠ old.netblockId := by
    intro i hi
    obtain ⟨r, hr, ha, rfl⟩ := (hg.mem i).mp hi
    obtain ⟨hr, hne⟩ := mem_without.mp hr
    exact ⟨up_of_mem hr ha.2, hne⟩
  -- the graph without the deleted netblock, in which its children are at the top
  let E : ℕ → ℕ → Prop := fun i j => Up d.netblock i j ∧ i ≠ old.netblockId ∧ j ≠ old.netblockId
  have hE : Acyclic E := ht.acyclic.mono fun _ _ hij => hij.1
  have hnone : ∀ i ∈ L, ∀ j, ¬ E i j := by
    intro i hi j hij
    exact hij.2.2 (ht.networks.up_unique hij.1 (hL i hi).1)
  have hup : ∀ {i j}, Up x₁.txn.netblock i j ↔
      (i ∈ L ∧ old.parentNetblockId = some j) ∨ (i ∉ L ∧ Up d.netblock i j ∧ i ≠ old.netblockId) := by
    intro i j
    rw [hg.up_iff hkeys, up_without]
  have hoff : ∀ i ∉ L, ∀ j, E i j ↔ Up x₁.txn.netblock i j := by
    intro i hi j
    constructor
    · exact fun hij => hup.mpr (Or.inr ⟨hi, hij.1, hij.2.1⟩)
    · intro hij
      obtain ⟨-, hij', hne⟩ := (hup.mp hij).resolve_left fun hl => hi hl.1
      exact ⟨hij', hne, hmem hij⟩
  have hE' := hg.acyclic hE hoff
  have hrec₀ : Recorded E (ids d.netblock \ {old.netblockId}) (Across ∅)
      (purge True old.netblockId (paths d.ctNetblockHier)) :=
    (hd.2.erase fun i j => Iff.rfl).congr (fun _ _ _ _ _ => Iff.rfl) fun l _ _ _ _ =>
      iff_of_false id not_across_empty
  have hrec₁ := hg.recorded hkeys hrec₀ (fun i hi => ⟨up_mem_ids (hL i hi).1, (hL i hi).2⟩) hE hoff
    (fun i hi j hij => absurd hij (hnone i hi j)) (fun i hi j _ => hnone i hi j)
    (fun b hb => absurd hb (Set.notMem_empty b))
  have hpass : ∀ c ∈ L, ∀ l z, Ascends (Up x₁.txn.netblock) l c z → old.netblockId ∉ l := by
    intro c hc' l z hl hmem'
    rcases ReflTransGen.cases_tail (hl.reflTransGen_of_mem hmem') with hcm | ⟨y, -, hy⟩
    · exact (hL c hc').2 hcm.symm
    · exact hmem hy rfl
  rw [Set.empty_union, ← purge_mendEach hpass, ← hg.paths, ← hpaths] at hrec₁
  refine ⟨hkeys' ▸ hkeys, hE', ?_⟩
  have hiff : Holds ⟨x₁.txn.netblock, ct⟩ ↔ ∀ l, ∀ a ∈ ids d.netblock \ {old.netblockId}, ∀ z,
      Ascends (Up x₁.txn.netblock) l a z → ¬ Across {i | i ∈ L} l := by
    rw [← recorded_iff_of_forall hrec₁, ← hids]
    exact and_iff_right htidy
  rw [hiff]
  constructor
  · intro hall
    by_contra hnot
    obtain ⟨htop, k, hk, hkp, c, hcm, hcp⟩ := by
      rwa [MayDelete, not_or, not_not] at hnot
    obtain ⟨q, hq⟩ := Option.ne_none_iff_exists'.mp htop
    have hkold := up_of_mem hk hkp
    have hck := up_of_mem hcm hcp
    have hne : k.netblockId ≠ old.netblockId := by
      intro he
      rw [he] at hkold
      exact ht.acyclic.irrefl hkold
    have hkL : k.netblockId ∈ L := by
      by_contra hkL
      exact hmem (hup.mpr (Or.inr ⟨hkL, hkold, hne⟩)) rfl
    have hcL : c.netblockId ∉ L := fun hcL =>
      hne (ht.networks.up_unique hck (hL _ hcL).1)
    have hcne : c.netblockId ≠ old.netblockId := by
      intro he
      rw [he] at hck
      exact ht.acyclic _ (.tail (.single hkold) hck)
    refine hall [c.netblockId, k.netblockId, q] c.netblockId ⟨⟨c, hcm, rfl⟩, hcne⟩ q ?_ ?_
    · exact Ascends.cons_iff.mpr ⟨rfl, hup.mpr (Or.inr ⟨hcL, hck, hcne⟩), Ascends.cons_iff.mpr
        ⟨rfl, hup.mpr (Or.inl ⟨hkL, hq⟩), .singleton q⟩⟩
    · exact ⟨k.netblockId, hkL, List.mem_cons_self⟩
  · rintro hmay l a - z hl ⟨b, hb, hbl⟩
    obtain ⟨s, w, y, u, rfl⟩ := exists_of_mem_interior hbl
    obtain ⟨-, hwb, htail⟩ := hl.split
    obtain ⟨-, hby, -⟩ := Ascends.cons_iff.mp htail
    rcases hmay with htop | hnot
    · rcases hup.mp hby with ⟨-, hy⟩ | ⟨hbL, -⟩
      · rw [htop] at hy
        cases hy
      · exact hbL hb
    · rcases hup.mp hwb with ⟨-, hpb⟩ | ⟨-, ⟨c, hcm, -, hcp⟩, -⟩
      · exact hE'.irrefl (hup.mpr (Or.inl ⟨hb, hpb⟩))
      · obtain ⟨⟨k, hk, rfl, hkp⟩, -⟩ := hL b hb
        exact hnot ⟨k, hk, hkp, c, hcm, hcp⟩

end JazzHands.NetblockHier

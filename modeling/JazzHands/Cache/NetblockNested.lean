import JazzHands.Cache.NetblockPaths
import JazzHands.Netblock.Change

/-!
# The handler below the statements of the triggers

The triggers set parents of other rows, and with each such statement the handler is fired below it.
`updateParents_nested` says what such a statement leaves, and `execute_txn` that the rest is as in
the model without the cache, so that its results can be used.
-/

namespace JazzHands.NetblockHier

open Library Postgres Relation

variable {db : Schema} {order : ScanOrder} {t t' : List Netblock} {o p q : Option ℕ}
  {cond : Netblock → Prop} {x x' : HierTxn} {y y' : Txn} {g : Netblock → Netblock} {L l : List ℕ}
  {old new r : Netblock} {i j : ℕ}

/-! ## The events of a statement inside a trigger -/

/-- The ids of the rows. -/
def keys (t : List Netblock) : List ℕ := t.map (·.netblockId)

theorem mem_keys : i ∈ keys t ↔ i ∈ ids t := by
  simp [keys, ids]

theorem keys_replace (hid : new.netblockId = old.netblockId) : keys (replace t old new) = keys t := by
  rw [keys, replace, List.map_map]
  refine List.map_congr_left fun n _ => ?_
  show (if n.netblockId = old.netblockId then new else n).netblockId = n.netblockId
  split_ifs with h
  · rw [hid, h]
  · rfl

theorem eq_of_keys (h : (keys t).Nodup) {r s : Netblock} (hr : r ∈ t) (hs : s ∈ t)
    (hid : r.netblockId = s.netblockId) : r = s := List.inj_on_of_nodup_map h hr hs hid

/-- Each row that `UPDATE netblock SET parent_netblock_id = p` visits gets an event. -/
theorem updateParentAll_deferred (hy : WellFormed y.netblock) (hl : l.Nodup)
    (hmem : ∀ i ∈ l, i ∈ keys y.netblock) (h : updateParentAll db p y l = .ok y') :
    ∃ evs, y'.deferred = y.deferred ++ evs ∧ evs.map (·.new.netblockId) = l ∧
      ∀ ev ∈ evs, ∃ r ∈ y.netblock, ev.old = some r ∧ Touched p r ev.new := by
  induction l generalizing y with
  | nil =>
    obtain rfl := Except.ok.inj h
    exact ⟨[], (List.append_nil _).symm, rfl, fun ev hev => absurd hev List.not_mem_nil⟩
  | cons i l ih =>
    obtain ⟨hil, hl'⟩ := List.nodup_cons.mp hl
    obtain ⟨y₁, h₁, h₂⟩ := bind_eq_ok.mp h
    obtain ⟨g, hg⟩ := updateParent_ok hy h₁
    rw [updateParent] at h₁
    split at h₁
    · next hf =>
      obtain ⟨n, hn, hid⟩ := List.mem_map.mp (hmem i List.mem_cons_self)
      exact absurd hid (findNetblock_eq_none.mp hf n hn)
    · next old hf =>
      obtain ⟨hold, rfl⟩ := findNetblock_eq_some hf
      obtain ⟨new, hnew, hw⟩ := bind_eq_ok.mp h₁
      obtain ⟨-, rfl⟩ := writeRow_ok hw
      have htouch : Touched p old new := touched_of_validateNetblock hnew
      obtain ⟨evs, hdef, hids, hevs⟩ := ih hg.wellFormed hl' (fun j hj => by
        show j ∈ keys (replace y.netblock old new)
        rw [keys_replace htouch.netblockId]
        exact hmem j (List.mem_cons_of_mem _ hj)) h₂
      refine ⟨⟨some old, new⟩ :: evs, ?_, ?_, fun ev hev => ?_⟩
      · rw [hdef, List.append_assoc, List.singleton_append]
      · rw [List.map_cons, hids, htouch.netblockId]
      · rcases List.mem_cons.mp hev with rfl | hmem'
        · exact ⟨old, hold, rfl, htouch⟩
        · obtain ⟨r, hr, ho, ht⟩ := hevs ev hmem'
          rcases (mem_replace hold).mp hr with rfl | ⟨hr, -⟩
          · -- the row was visited already
            refine absurd ?_ hil
            rw [← hids, ← htouch.netblockId, ← ht.netblockId]
            exact List.mem_map_of_mem hmem'
          · exact ⟨r, hr, ho, ht⟩

/-- The rows that a statement inside a trigger updates, in the order in which it visits them. -/
theorem updateParents_deferred [DecidablePred cond] (hy : WellFormed y.netblock)
    (hkeys : (keys y.netblock).Nodup) (h : JazzHands.updateParents db order p cond y = .ok y') :
    ∃ evs, y'.deferred = y.deferred ++ evs ∧ (evs.map (·.new.netblockId)).Nodup ∧
      (∀ i, i ∈ evs.map (·.new.netblockId) ↔ ∃ r ∈ y.netblock, cond r ∧ r.netblockId = i) ∧
      ∀ ev ∈ evs, ∃ r ∈ y.netblock, ev.old = some r ∧ Touched p r ev.new := by
  have hperm := order.perm ((y.netblock.filter cond).map (·.netblockId))
  have hnodup : (order.visit ((y.netblock.filter cond).map (·.netblockId))).Nodup :=
    hperm.nodup_iff.mpr (hkeys.sublist (List.filter_sublist.map _))
  have hsel : ∀ i, i ∈ order.visit ((y.netblock.filter cond).map (·.netblockId)) ↔
      ∃ r ∈ y.netblock, cond r ∧ r.netblockId = i := by
    intro i
    rw [hperm.mem_iff, List.mem_map]
    constructor
    · rintro ⟨r, hr, hid⟩
      exact ⟨r, List.mem_of_mem_filter hr, of_decide_eq_true (List.mem_filter.mp hr).2, hid⟩
    · rintro ⟨r, hr, hc, hid⟩
      exact ⟨r, List.mem_filter.mpr ⟨hr, decide_eq_true hc⟩, hid⟩
  obtain ⟨evs, hdef, hids, hevs⟩ := updateParentAll_deferred hy hnodup (fun i hi => by
    obtain ⟨r, hr, -, hid⟩ := (hsel i).mp hi
    exact List.mem_map.mpr ⟨r, hr, hid⟩) h
  rw [← hids] at hnodup hsel
  exact ⟨evs, hdef, hnodup, hsel, hevs⟩

/-! ## The effect on the paths -/

/-- The statement inside a trigger gave the parent `p` to the rows that `cond` selects, whose parent
was `o`, and the handler was fired for them; `L` are their ids. -/
structure Nested (o p : Option ℕ) (cond : Netblock → Prop) (x x' : HierTxn)
    (g : Netblock → Netblock) (L : List ℕ) : Prop where
  updates : UpdatesParents p cond x.txn x'.txn g
  nodup : L.Nodup
  mem : ∀ i, i ∈ L ↔ ∃ r ∈ x.txn.netblock, cond r ∧ r.netblockId = i
  old : ∀ r ∈ x.txn.netblock, cond r → r.parentNetblockId = o
  tidy : Tidy x'.ctNetblockHier
  paths : paths x'.ctNetblockHier =
    mendEach (Up x'.txn.netblock) (o ≠ none) L (paths x.ctNetblockHier)
  cycle : ∀ i ∈ L, ¬ TransGen (Up x'.txn.netblock) i i

namespace Nested

theorem nop (hx : WellFormed x.txn.netblock) (htidy : Tidy x.ctNetblockHier)
    (hc : ∀ r ∈ x.txn.netblock, ¬ cond r) : Nested o p cond x x id [] where
  updates := .nop hx hc
  nodup := List.nodup_nil
  mem _ := iff_of_false List.not_mem_nil fun ⟨r, hr, hcr, _⟩ => hc r hr hcr
  old r hr h := absurd h (hc r hr)
  tidy := htidy
  paths := rfl
  cycle _ hi := absurd hi List.not_mem_nil

section

variable (h : Nested o p cond x x' g L)
include h

theorem congr {cond' : Netblock → Prop} (hc : ∀ r ∈ x.txn.netblock, cond r ↔ cond' r) :
    Nested o p cond' x x' g L where
  updates := h.updates.congr hc
  nodup := h.nodup
  mem i := (h.mem i).trans ⟨fun ⟨r, hr, hcr, hid⟩ => ⟨r, hr, (hc r hr).mp hcr, hid⟩,
    fun ⟨r, hr, hcr, hid⟩ => ⟨r, hr, (hc r hr).mpr hcr, hid⟩⟩
  old r hr hcr := h.old r hr ((hc r hr).mpr hcr)
  tidy := h.tidy
  paths := h.paths
  cycle := h.cycle

theorem keys_eq : keys x'.txn.netblock = keys x.txn.netblock := by
  rw [keys, h.updates.netblock, List.map_map]
  exact List.map_congr_left fun r hr => h.updates.netblockId hr

theorem isSingleAddress (hnet : ∀ n ∈ x.txn.netblock, n.isSingleAddress = false) :
    ∀ n ∈ x'.txn.netblock, n.isSingleAddress = false := by
  intro n hn
  rw [h.updates.netblock] at hn
  obtain ⟨r, hr, rfl⟩ := List.mem_map.mp hn
  rcases h.updates.touched_or_eq hr with he | ht
  · rw [he]
    exact hnet r hr
  · rw [ht.isSingleAddress]
    exact hnet r hr

theorem mem_iff (hkeys : (keys x.txn.netblock).Nodup) (hr : r ∈ x.txn.netblock) :
    r.netblockId ∈ L ↔ cond r := by
  rw [h.mem]
  constructor
  · rintro ⟨s, hs, hc, hid⟩
    rwa [← eq_of_keys hkeys hs hr hid]
  · exact fun hc => ⟨r, hr, hc, rfl⟩

theorem up_iff (hkeys : (keys x.txn.netblock).Nodup) :
    Up x'.txn.netblock i j ↔ (i ∈ L ∧ p = some j) ∨ (i ∉ L ∧ Up x.txn.netblock i j) := by
  have hg : ∀ r ∈ x.txn.netblock, ∀ j, (g r).parentNetblockId = some j ↔
      (r.netblockId ∈ L ∧ p = some j) ∨ (r.netblockId ∉ L ∧ r.parentNetblockId = some j) := by
    intro r hr j
    by_cases hc : cond r
    · have hL := (h.mem_iff hkeys hr).mpr hc
      rw [(h.updates.touched r hr hc).parentNetblockId]
      simp [hL]
    · have hL := mt (h.mem_iff hkeys hr).mp hc
      rw [h.updates.kept r hr hc]
      simp [hL]
  constructor
  · rintro ⟨n, hn, rfl, hpar⟩
    rw [h.updates.netblock] at hn
    obtain ⟨r, hr, rfl⟩ := List.mem_map.mp hn
    rw [h.updates.netblockId hr]
    exact ((hg r hr j).mp hpar).imp_right fun ⟨hL, hj⟩ => ⟨hL, r, hr, rfl, hj⟩
  · have hup : ∀ r ∈ x.txn.netblock, (g r).parentNetblockId = some j →
        Up x'.txn.netblock r.netblockId j := fun r hr hpar =>
      ⟨g r, h.updates.netblock ▸ List.mem_map_of_mem hr, h.updates.netblockId hr, hpar⟩
    rintro (⟨hL, hj⟩ | ⟨hL, r, hr, rfl, hj⟩)
    · obtain ⟨r, hr, -, rfl⟩ := (h.mem i).mp hL
      exact hup r hr ((hg r hr j).mpr (Or.inl ⟨hL, hj⟩))
    · exact hup r hr ((hg r hr j).mpr (Or.inr ⟨hL, hj⟩))

end

end Nested

/-- **A statement inside a trigger**, with the handler. -/
theorem updateParents_nested [DecidablePred cond] (hx : WellFormed x.txn.netblock)
    (hkeys : (keys x.txn.netblock).Nodup) (hnet : ∀ n ∈ x.txn.netblock, n.isSingleAddress = false)
    (htidy : Tidy x.ctNetblockHier) (hold : ∀ r ∈ x.txn.netblock, cond r → r.parentNetblockId = o)
    (hself : ∀ r ∈ x.txn.netblock, cond r → p ≠ some r.netblockId)
    (h : updateParents db order p cond x = .ok x') : ∃ g L, Nested o p cond x x' g L := by
  obtain ⟨y, hy, h⟩ := bind_eq_ok.mp h
  obtain ⟨ct, hct, h⟩ := bind_eq_ok.mp h
  obtain rfl := Except.ok.inj h
  obtain ⟨g, hg⟩ := updateParents_ok hx hy
  obtain ⟨evs, hdef, hnodup, hsel, hevs⟩ := updateParents_deferred hx hkeys hy
  rw [hdef, List.drop_left] at hct
  have hev : ∀ ev ∈ evs, ∃ r, ev.old = some r ∧ r.netblockId = ev.new.netblockId ∧
      r.parentNetblockId = o ∧ ev.new.netblockId ∈ ids y.netblock ∧ ¬ Passes ev.new := by
    intro ev hev
    obtain ⟨r, hr, ho, ht⟩ := hevs ev hev
    obtain ⟨s, hs, hc, hid⟩ := (hsel _).mp (List.mem_map_of_mem hev)
    obtain rfl := eq_of_keys hkeys hs hr (hid.trans ht.netblockId)
    refine ⟨s, ho, ht.netblockId.symm, hold s hs hc, ?_, ?_⟩
    · rw [ht.netblockId, ← hg.netblockId hr]
      exact ⟨g s, hg.netblock ▸ List.mem_map_of_mem hr, rfl⟩
    · rintro (hsingle | hpar)
      · rw [ht.isSingleAddress, hnet s hr] at hsingle
        cases hsingle
      · rw [ht.parentNetblockId, ht.netblockId] at hpar
        exact hself s hs hc hpar
  obtain ⟨htidy', hpaths, hcyc⟩ := fireHandler_ok htidy hev hct
  refine ⟨g, evs.map (·.new.netblockId), hg, hnodup, hsel, hold, htidy', hpaths, ?_⟩
  intro i hi
  obtain ⟨ev, hmem, rfl⟩ := List.mem_map.mp hi
  exact hcyc ev hmem

variable {E : ℕ → ℕ → Prop} {d : HierDb}

/-- Nodes with one and the same parent are not above each other. -/
theorem not_transGen_of_parent (hE : Acyclic E) (hp : ∀ i ∈ L, ∀ j, E i j ↔ p = some j)
    : ∀ i ∈ L, ∀ j ∈ L, ¬ TransGen E i j := by
  intro i hi j hj hij
  obtain ⟨k, hik, hkj⟩ := TransGen.head'_iff.mp hij
  have hjk : E j k := (hp j hj k).mpr ((hp i hi k).mp hik)
  exact hE k (.tail' hkj hjk)

theorem Nested.acyclic (h : Nested o p cond x x' g L) (hE : Acyclic E)
    (hoff : ∀ i ∉ L, ∀ j, E i j ↔ Up x'.txn.netblock i j) : Acyclic (Up x'.txn.netblock) :=
  Acyclic.of_changed (B := {i | i ∈ L}) hE hoff h.cycle

section

variable (h : Nested o p cond x x' g L) (hkeys : (keys x.txn.netblock).Nodup)
include h hkeys

/-- **The handler below a statement inside a trigger**, on a table with the ways up of `E` but for
those across `B`. -/
theorem Nested.recorded {D B : Set ℕ} {C : Set (List ℕ)} (hrec : Recorded E D (Across B) C)
    (hD : ∀ i ∈ L, i ∈ D) (hE : Acyclic E) (hoff : ∀ i ∉ L, ∀ j, E i j ↔ Up x'.txn.netblock i j)
    (hL : ∀ i ∈ L, ∀ j, E i j → o = some j) (hLL : ∀ i ∈ L, ∀ j ∈ L, ¬ E i j)
    (hB : ∀ b ∈ B, ∀ i ∈ L, ¬ TransGen (Up x'.txn.netblock) i b ∧ ¬ Up x'.txn.netblock b i) :
    Recorded (Up x'.txn.netblock) D (Across (B ∪ {i | i ∈ L}))
      (mendEach (Up x'.txn.netblock) (o ≠ none) L C) := by
  have hE' := h.acyclic hE hoff
  have hparent : ∀ i ∈ L, ∀ j, Up x'.txn.netblock i j ↔ p = some j := by
    intro i hi j
    rw [h.up_iff hkeys]
    simp [hi]
  refine hrec.mendEach h.nodup hD hoff hLL (not_transGen_of_parent hE' hparent) hB ?_
  intro ho i hi j hij
  rw [not_not] at ho
  rw [ho] at hL
  exact nomatch hL i hi j hij

/-- The rows of the statement had the parent `o`, and were not above each other. -/
theorem Nested.parent_old (hi : i ∈ L) : Up x.txn.netblock i j ↔ o = some j := by
  obtain ⟨r, hr, hc, rfl⟩ := (h.mem i).mp hi
  rw [← h.old r hr hc]
  constructor
  · rintro ⟨n, hn, hid, hpar⟩
    rwa [← eq_of_keys hkeys hn hr hid]
  · exact fun hpar => ⟨r, hr, rfl, hpar⟩

theorem Nested.not_up_old (hE : Acyclic (Up x.txn.netblock)) :
    ∀ i ∈ L, ∀ j ∈ L, ¬ Up x.txn.netblock i j := by
  intro i hi j hj hij
  have hj' := (h.parent_old hkeys hj).mpr ((h.parent_old hkeys hi).mp hij)
  exact hE.irrefl hj'

end

/-! ## The statements without the cache -/

theorem updateParents_txn [DecidablePred cond] (h : updateParents db order p cond x = .ok x') :
    JazzHands.updateParents db order p cond x.txn = .ok x'.txn := by
  obtain ⟨y, hy, h⟩ := bind_eq_ok.mp h
  obtain ⟨ct, -, h⟩ := bind_eq_ok.mp h
  obtain rfl := Except.ok.inj h
  exact hy

theorem rehomeChildren_txn (h : rehomeChildren db order x old new = .ok x') :
    JazzHands.rehomeChildren db order x.txn old new = .ok x'.txn := by
  obtain ⟨x₁, h₁, h₂⟩ := bind_eq_ok.mp h
  exact bind_eq_ok.mpr ⟨x₁.txn, updateParents_txn h₁, updateParents_txn h₂⟩

theorem manipulateNetblockParentageBefore_txn {n : Netblock}
    (h : manipulateNetblockParentageBefore db order x old n = .ok (x', new)) :
    JazzHands.manipulateNetblockParentageBefore db order x.txn (some old) n =
      .ok (x'.txn, new) := by
  rw [manipulateNetblockParentageBefore] at h
  rw [JazzHands.manipulateNetblockParentageBefore]
  split_ifs at h ⊢ with hf
  · cases h
    rfl
  · dsimp only at h ⊢
    split_ifs at h ⊢ with hs
    · cases h
      rfl
    · obtain ⟨x₁, h₁, h⟩ := bind_eq_ok.mp h
      cases h
      exact bind_eq_ok.mpr ⟨_, rehomeChildren_txn h₁, rfl⟩

theorem manipulateNetblockParentageAfterInsert_txn
    (h : manipulateNetblockParentageAfterInsert db order x new = .ok x') :
    JazzHands.manipulateNetblockParentageAfterInsert db order x.txn new = .ok x'.txn := by
  rw [manipulateNetblockParentageAfterInsert] at h
  rw [JazzHands.manipulateNetblockParentageAfterInsert]
  split_ifs at h ⊢ with hf hs
  · cases h
    rfl
  · cases h
    rfl
  · cases hp : new.parentNetblockId with
    | none =>
      rw [hp] at h
      exact updateParents_txn h
    | some q =>
      rw [hp] at h
      exact updateParents_txn h

theorem manipulateNetblockParentageAfterDelete_txn
    (h : manipulateNetblockParentageAfterDelete db order x old = .ok x') :
    JazzHands.manipulateNetblockParentageAfterDelete db order x.txn old = .ok x'.txn := by
  rw [manipulateNetblockParentageAfterDelete] at h
  rw [JazzHands.manipulateNetblockParentageAfterDelete]
  split_ifs at h ⊢ with hf
  · cases h
    rfl
  · exact updateParents_txn h

theorem fireManipulate_txn {set : SetClause} {n : Netblock}
    (h : fireManipulate db order d old set n = .ok (x, new)) :
    JazzHands.fireManipulate db order d.netblock old set n = .ok (x.txn, new) := by
  rw [fireManipulate] at h
  rw [JazzHands.fireManipulate]
  split_ifs at h ⊢ with hm
  · exact manipulateNetblockParentageBefore_txn h
  · cases h
    rfl

theorem fire_txn {ev : RowEvent Netblock} (h : x.fire ev = .ok x') : x'.txn = x.txn := by
  obtain ⟨ct, -, h⟩ := bind_eq_ok.mp h
  obtain rfl := Except.ok.inj h
  rfl

theorem executeUpdate_txn {set : SetClause} (h : executeUpdate db order d old set = .ok x) :
    JazzHands.executeUpdate db order d.netblock old set = .ok x.txn := by
  rw [executeUpdate] at h
  rw [JazzHands.executeUpdate]
  by_cases hfires : set.firesValidate = false
  · rw [if_pos hfires] at h ⊢
    obtain rfl := Except.ok.inj h
    rfl
  · rw [if_neg hfires] at h ⊢
    obtain ⟨new₀, hv, h⟩ := bind_eq_ok.mp h
    obtain ⟨⟨x₁, new⟩, hb, h⟩ := bind_eq_ok.mp h
    obtain ⟨hmod, h⟩ := bind_unit_eq_ok.mp h
    obtain ⟨y, hw, h⟩ := bind_eq_ok.mp h
    have hx : x.txn = y := by
      split_ifs at h with hh
      · exact fire_txn h
      · cases h
        rfl
    rw [hx]
    exact bind_eq_ok.mpr ⟨new₀, hv, bind_eq_ok.mpr ⟨(x₁.txn, new), fireManipulate_txn hb,
      bind_unit_eq_ok.mpr ⟨hmod, hw⟩⟩⟩

/-- **But for the cache** a statement does what it does without the handler. -/
theorem execute_txn {s : Statement} (h : execute db order d s = .ok x) :
    JazzHands.execute db order d.netblock s = .ok x.txn := by
  cases s with
  | insert rec =>
    obtain ⟨new₀, hv, h⟩ := bind_eq_ok.mp h
    obtain ⟨⟨y, new⟩, hb, h⟩ := bind_eq_ok.mp h
    obtain ⟨y', hins, h⟩ := bind_eq_ok.mp h
    obtain ⟨x₁, hafter, h⟩ := bind_eq_ok.mp h
    rw [fire_txn h]
    exact bind_eq_ok.mpr ⟨new₀, hv, bind_eq_ok.mpr ⟨(y, new), hb, bind_eq_ok.mpr
      ⟨y', hins, manipulateNetblockParentageAfterInsert_txn hafter⟩⟩⟩
  | update i set =>
    rw [execute] at h
    rw [JazzHands.execute]
    cases hf : findNetblock d.netblock i with
    | none =>
      rw [hf] at h
      obtain rfl := Except.ok.inj h
      rfl
    | some old =>
      rw [hf] at h
      exact executeUpdate_txn h
  | delete i =>
    rw [execute] at h
    rw [JazzHands.execute]
    cases hf : findNetblock d.netblock i with
    | none =>
      rw [hf] at h
      obtain rfl := Except.ok.inj h
      rfl
    | some old =>
      rw [hf] at h
      obtain ⟨x₁, hafter, h⟩ := bind_eq_ok.mp h
      rw [fire_txn h]
      exact manipulateNetblockParentageAfterDelete_txn hafter

theorem transaction_netblock {d' : HierDb} {s : Statement} (h : transaction db order d s = .ok d') :
    JazzHands.transaction db order d.netblock s = .ok d'.netblock := by
  obtain ⟨x, hx, h⟩ := bind_eq_ok.mp h
  obtain ⟨t', hc, h⟩ := bind_eq_ok.mp h
  obtain rfl := Except.ok.inj h
  exact bind_eq_ok.mpr ⟨x.txn, execute_txn hx, hc⟩

end JazzHands.NetblockHier

import JazzHands.Netblock.Effects

/-!
# What a committed transaction can do

Each kind of statement gets one lemma that says everything a successful execution does, and the
commit gets one; the invariants of the table follow from these and never unfold a trigger.

* `Change`: the part that is common to the three kinds of statement: which rows of the committed
  table come from which rows of the table before.
-/

namespace JazzHands

open Postgres

variable {db : Schema} {order : ScanOrder} {t t' : List Netblock} {x x' : Txn}
variable {n new old r r' : Netblock} {o : Option Netblock} {i : ℕ} {set : SetClause}

/-! ## The row of a statement -/

/-- The BEFORE triggers made `new` of the row `n` of a statement.  `fires` says whether
`manipulate_netblock_parentage_before` is one of them. -/
structure WrittenRow (db : Schema) (t : List Netblock) (old : Option Netblock) (fires : Bool)
    (n new : Netblock) : Prop where
  row : new = { n with ipAddress := new.ipAddress, parentNetblockId := new.parentNetblockId }
  host : new.ipAddress.host = n.ipAddress.host
  ip : n.isSingleAddress = false ∨ db.dbForcedHierarchy n.netblockType = false →
    new.ipAddress = n.ipAddress
  check : checkNetblock db t old new = .ok ()
  forced : fires = true → db.dbForcedHierarchy new.netblockType = true →
    new.parentNetblockId = new.bestParent t
  given : fires = false ∨ db.dbForcedHierarchy new.netblockType = false →
    new.parentNetblockId = n.parentNetblockId

namespace WrittenRow

variable {fires : Bool}

section

variable (h : WrittenRow db t o fires n new)
include h

theorem netblockId : new.netblockId = n.netblockId := by
  rw [h.row]

theorem netblockType : new.netblockType = n.netblockType := by
  rw [h.row]

theorem isSingleAddress : new.isSingleAddress = n.isSingleAddress := by
  rw [h.row]

theorem canSubnet : new.canSubnet = n.canSubnet := by
  rw [h.row]

theorem ipUniverseId : new.ipUniverseId = n.ipUniverseId := by
  rw [h.row]

theorem network (hs : new.isSingleAddress = false) :
    new.ipAddress.network = new.ipAddress :=
  (checkNetblock_ok h.check).2 hs

end

end WrittenRow

/-- The best parent of a row does not depend on the parent it has. -/
theorem bestParent_with (t : List Netblock) (n : Netblock) (p : Option ℕ) :
    { n with parentNetblockId := p }.bestParent t = n.bestParent t := rfl

/-- The parent that the BEFORE triggers give to a network with the columns of `n`: the best one when
the hierarchy is forced, and otherwise the one of the statement. -/
def writtenParent (db : Schema) (t : List Netblock) (fires : Bool) (n : Netblock) : Option ℕ :=
  if fires = true ∧ db.dbForcedHierarchy n.netblockType = true then n.bestParent t
  else n.parentNetblockId

theorem WrittenRow.parent_eq {fires : Bool} (h : WrittenRow db t o fires n new)
    (hs : n.isSingleAddress = false) : new.parentNetblockId = writtenParent db t fires n := by
  unfold writtenParent
  split_ifs with hc
  · rw [h.forced hc.1 (h.netblockType ▸ hc.2), h.row, h.ip (Or.inl hs)]
    exact bestParent_with t n _
  · rw [not_and_or, Bool.not_eq_true, Bool.not_eq_true] at hc
    exact h.given (hc.imp_right fun hf => h.netblockType ▸ hf)

section

variable (hm : singleAddressMask db t n = .ok new) (hc : checkNetblock db t o new = .ok ())
include hm hc

theorem writtenRow_of_validate (hf : db.dbForcedHierarchy new.netblockType = false) (fires : Bool) :
    WrittenRow db t o fires n new := by
  obtain ⟨hrow, hhost, hip⟩ := singleAddressMask_ok hm
  refine ⟨?_, hhost, fun h => congrArg _ (hip h), hc, fun _ h => ?_, fun _ => ?_⟩
  · rw [hrow]
  · rw [hf] at h
    cases h
  · rw [hrow]

theorem writtenRow_forced (hf : db.dbForcedHierarchy new.netblockType = true) :
    WrittenRow db t o true n { new with parentNetblockId := new.bestParent t } := by
  obtain ⟨hrow, hhost, hip⟩ := singleAddressMask_ok hm
  refine ⟨?_, hhost, fun h => ?_, hc, fun _ _ => rfl, fun h => ?_⟩
  · have hid : new.netblockId = n.netblockId := by rw [hrow]
    have htype : new.netblockType = n.netblockType := by rw [hrow]
    have hsingle : new.isSingleAddress = n.isSingleAddress := by rw [hrow]
    have hsubnet : new.canSubnet = n.canSubnet := by rw [hrow]
    have huniverse : new.ipUniverseId = n.ipUniverseId := by rw [hrow]
    exact Netblock.ext hid rfl htype hsingle hsubnet rfl huniverse
  · show new.ipAddress = n.ipAddress
    rw [hip h]
  · rcases h with h | h
    · cases h
    · rw [show db.dbForcedHierarchy new.netblockType = false from h] at hf
      cases hf

theorem writtenRow_unfired : WrittenRow db t o false n new := by
  obtain ⟨hrow, hhost, hip⟩ := singleAddressMask_ok hm
  refine ⟨?_, hhost, fun h => congrArg _ (hip h), hc, fun h => ?_, fun _ => ?_⟩
  · rw [hrow]
  · cases h
  · rw [hrow]

end

/-! ## INSERT -/

/-- The rows that `manipulate_netblock_parentage_after` gives to an inserted row. -/
def AdoptedByInsert (db : Schema) (new n : Netblock) : Prop :=
  db.dbForcedHierarchy new.netblockType = true ∧ new.isSingleAddress = false ∧
    n.parentNetblockId = new.parentNetblockId ∧ n.ipAddress.subnetEq new.ipAddress ∧
    n.netblockId ≠ new.netblockId ∧
    (new.parentNetblockId = none →
      n.netblockType = new.netblockType ∧ n.ipUniverseId = new.ipUniverseId)

theorem manipulateNetblockParentageAfterInsert_ok (hx : WellFormed x.netblock)
    (h : manipulateNetblockParentageAfterInsert db order x new = .ok x') :
    ∃ g, UpdatesParents (some new.netblockId) (AdoptedByInsert db new) x x' g := by
  unfold manipulateNetblockParentageAfterInsert at h
  split_ifs at h with hf hs
  · cases h
    exact ⟨id, .nop hx fun r _ ha => by rw [ha.1] at hf; cases hf⟩
  · cases h
    exact ⟨id, .nop hx fun r _ ha => by rw [ha.2.1] at hs; cases hs⟩
  · have hf' : db.dbForcedHierarchy new.netblockType = true := by simpa using hf
    have hs' : new.isSingleAddress = false := by simpa using hs
    cases hp : new.parentNetblockId with
    | none =>
      rw [hp] at h
      obtain ⟨g, hg⟩ := updateParents_ok hx h
      refine ⟨g, hg.congr fun r _ => ?_⟩
      simp only [AdoptedByInsert, hf', hs', hp, true_and, true_implies]
    | some parent =>
      rw [hp] at h
      obtain ⟨g, hg⟩ := updateParents_ok hx h
      refine ⟨g, hg.congr fun r _ => ?_⟩
      simp only [AdoptedByInsert, hf', hs', hp, true_and, reduceCtorEq, false_implies, and_true]

theorem mem_append_new : r ∈ t ++ [new] ↔ r ∈ t ∨ r = new := by
  rw [List.mem_append, List.mem_singleton]

theorem WellFormed.append (ht : WellFormed t) (hc : checkConstraints db t new = .ok ())
    (hn : new.isSingleAddress = false → new.ipAddress.network = new.ipAddress) :
    WellFormed (t ++ [new]) := by
  obtain ⟨hid, hak⟩ := checkConstraints_ok hc
  refine ⟨fun r hr s hs hrs => ?_, fun r hr s hs hrs => ?_, fun r hr hsingle => ?_⟩
  · rcases mem_append_new.mp hr with hr' | rfl <;> rcases mem_append_new.mp hs with hs' | rfl
    · exact ht.pk r hr' s hs' hrs
    · exact absurd hrs (hid r hr')
    · exact absurd hrs.symm (hid s hs')
    · rfl
  · rcases mem_append_new.mp hr with hr' | rfl <;> rcases mem_append_new.mp hs with hs' | rfl
    · exact ht.ak r hr' s hs' hrs
    · exact absurd hrs (hak r hr')
    · exact absurd ⟨hrs.1.symm, hrs.2.1.symm, hrs.2.2.1.symm, hrs.2.2.2.symm⟩ (hak s hs')
    · rfl
  · rcases mem_append_new.mp hr with hr | rfl
    · exact ht.network r hr hsingle
    · exact hn hsingle

/-- On an INSERT the BEFORE trigger changes the row alone. -/
theorem manipulateNetblockParentageBefore_insert {new₀ : Netblock}
    (hm : singleAddressMask db t n = .ok new₀) (hc : checkNetblock db t none new₀ = .ok ())
    (h : manipulateNetblockParentageBefore db order ⟨t, []⟩ none new₀ = .ok (x, new)) :
    WrittenRow db t none true n new ∧ x = ⟨t, []⟩ := by
  unfold manipulateNetblockParentageBefore at h
  split_ifs at h with hf
  · cases h
    exact ⟨writtenRow_of_validate hm hc hf true, rfl⟩
  · cases h
    exact ⟨writtenRow_forced hm hc (by simpa using hf), rfl⟩

theorem executeInsert_ok {rec : NetblockRecord} (ht : WellFormed t)
    (h : executeInsert db order t rec = .ok x) :
    ∃ n new g, rec.complete db t = .ok n ∧ WrittenRow db t none true n new ∧
      checkConstraints db t new = .ok () ∧
      UpdatesParents (some new.netblockId) (AdoptedByInsert db new)
        ⟨t ++ [new], [⟨none, new⟩]⟩ x g := by
  obtain ⟨new₀, hv, h⟩ := bind_eq_ok.mp h
  obtain ⟨n, hn, hm, hc⟩ := validateNetblock_ok hv
  obtain ⟨⟨x₁, new⟩, hb, h⟩ := bind_eq_ok.mp h
  obtain ⟨x₂, hins, h⟩ := bind_eq_ok.mp h
  obtain ⟨hw, rfl⟩ := manipulateNetblockParentageBefore_insert hm hc hb
  obtain ⟨hcons, hins⟩ := bind_unit_eq_ok.mp hins
  cases hins
  have hx : WellFormed (t ++ [new]) := ht.append hcons hw.network
  obtain ⟨g, hg⟩ := manipulateNetblockParentageAfterInsert_ok (x := ⟨t ++ [new], _⟩) hx h
  exact ⟨n, new, g, hn, hw, hcons, hg⟩

/-! ## UPDATE -/

/-- The children of its new parent that `manipulate_netblock_parentage_before` gives to an updated
row. -/
def AdoptedByUpdate (db : Schema) (fires : Bool) (new n : Netblock) : Prop :=
  (fires = true ∧ db.dbForcedHierarchy new.netblockType = true ∧ new.isSingleAddress = false) ∧
    n.parentNetblockId ≠ none ∧ n.parentNetblockId = new.parentNetblockId ∧
    n.ipAddress.subnetEq new.ipAddress ∧ n.netblockId ≠ new.netblockId
  deriving Decidable

/-- The children that `manipulate_netblock_parentage_before` takes away from an updated row. -/
def ReleasedByUpdate (db : Schema) (fires : Bool) (new n : Netblock) : Prop :=
  (fires = true ∧ db.dbForcedHierarchy new.netblockType = true ∧ new.isSingleAddress = false) ∧
    n.parentNetblockId = some new.netblockId ∧
    (n.ipUniverseId ≠ new.ipUniverseId ∨ n.netblockType ≠ new.netblockType ∨
      ¬ n.ipAddress.subnetEq new.ipAddress)
  deriving Decidable

theorem manipulateNetblockParentageBefore_ok {new₀ : Netblock} (ht : WellFormed t)
    (hm : singleAddressMask db t n = .ok new₀) (hc : checkNetblock db t (some old) new₀ = .ok ())
    (h : manipulateNetblockParentageBefore db order ⟨t, []⟩ (some old) new₀ = .ok (x, new)) :
    ∃ x₁ g g', WrittenRow db t (some old) true n new ∧
      UpdatesParents (some new.netblockId) (AdoptedByUpdate db true new) ⟨t, []⟩ x₁ g ∧
      UpdatesParents old.parentNetblockId (ReleasedByUpdate db true new) x₁ x g' := by
  have hx : WellFormed (⟨t, []⟩ : Txn).netblock := ht
  unfold manipulateNetblockParentageBefore at h
  by_cases hf : db.dbForcedHierarchy new₀.netblockType = false
  · rw [if_pos hf] at h
    cases h
    have hno : ¬ db.dbForcedHierarchy new.netblockType = true := by simp [hf]
    exact ⟨_, id, id, writtenRow_of_validate hm hc hf true, .nop hx fun r _ ha => hno ha.1.2.1,
      .nop hx fun r _ ha => hno ha.1.2.1⟩
  rw [if_neg hf] at h
  have hf' : db.dbForcedHierarchy new₀.netblockType = true := by simpa using hf
  by_cases hs : new₀.isSingleAddress = true
  · dsimp only at h
    rw [if_pos hs] at h
    cases h
    have hno : ¬ new₀.isSingleAddress = false := by simp [hs]
    exact ⟨_, id, id, writtenRow_forced hm hc hf', .nop hx fun r _ ha => hno ha.1.2.2,
      .nop hx fun r _ ha => hno ha.1.2.2⟩
  · dsimp only at h
    rw [if_neg hs] at h
    have hs' : new₀.isSingleAddress = false := by simpa using hs
    obtain ⟨x₂, h₂, h⟩ := bind_eq_ok.mp h
    cases h
    obtain ⟨x₁, h₁, h₂⟩ := bind_eq_ok.mp h₂
    obtain ⟨g, hg⟩ := updateParents_ok hx h₁
    obtain ⟨g', hg'⟩ := updateParents_ok hg.wellFormed h₂
    refine ⟨x₁, g, g', writtenRow_forced hm hc hf', hg.congr fun r _ => ?_,
      hg'.congr fun r _ => ?_⟩
    · simp only [AdoptedByUpdate, hf', hs', true_and]
    · simp only [ReleasedByUpdate, hf', hs', true_and]

theorem executeUpdate_ok (ht : WellFormed t) (hold : old ∈ t)
    (h : executeUpdate db order t old set = .ok x) :
    (set.firesValidate = false ∧ x = ⟨t, []⟩) ∨
    ∃ n new x₁ x₂ g g', set.firesValidate = true ∧ (set.apply old).complete db t = .ok n ∧
      WrittenRow db t (some old) set.firesManipulate n new ∧
      UpdatesParents (some new.netblockId) (AdoptedByUpdate db set.firesManipulate new)
        ⟨t, []⟩ x₁ g ∧
      UpdatesParents old.parentNetblockId (ReleasedByUpdate db set.firesManipulate new) x₁ x₂ g' ∧
      ¬ AdoptedByUpdate db set.firesManipulate new old ∧
      ¬ ReleasedByUpdate db set.firesManipulate new old ∧
      checkConstraints db (without x₂.netblock old.netblockId) new = .ok () ∧
      x = ⟨replace x₂.netblock old new, x₂.deferred ++ [⟨some old, new⟩]⟩ := by
  unfold executeUpdate at h
  by_cases hfire : set.firesValidate = false
  · rw [if_pos hfire] at h
    cases h
    exact Or.inl ⟨hfire, rfl⟩
  rw [if_neg hfire] at h
  right
  obtain ⟨new₀, hv, h⟩ := bind_eq_ok.mp h
  obtain ⟨n, hn, hm, hc⟩ := validateNetblock_ok hv
  obtain ⟨⟨x₂, new⟩, hb, h⟩ := bind_eq_ok.mp h
  obtain ⟨hmod, h⟩ := bind_unit_eq_ok.mp h
  obtain ⟨hcons, hx⟩ := writeRow_ok h
  have hx₀ : WellFormed (⟨t, []⟩ : Txn).netblock := ht
  have hparts : ∃ x₁ g g', WrittenRow db t (some old) set.firesManipulate n new ∧
      UpdatesParents (some new.netblockId) (AdoptedByUpdate db set.firesManipulate new)
        ⟨t, []⟩ x₁ g ∧
      UpdatesParents old.parentNetblockId (ReleasedByUpdate db set.firesManipulate new)
        x₁ x₂ g' := by
    unfold fireManipulate at hb
    split_ifs at hb with hman
    · rw [hman]
      exact manipulateNetblockParentageBefore_ok ht hm hc hb
    · cases hb
      have hman' : set.firesManipulate = false := by simpa using hman
      rw [hman']
      exact ⟨_, id, id, writtenRow_unfired hm hc,
        .nop hx₀ fun r _ ha => Bool.false_ne_true ha.1.1,
        .nop hx₀ fun r _ ha => Bool.false_ne_true ha.1.1⟩
  obtain ⟨x₁, g, g', hw, hg, hg'⟩ := hparts
  rw [raiseIf_eq_ok] at hmod
  -- a statement inside the trigger that touched the row would have queued an event for it
  have hA : ¬ AdoptedByUpdate db set.firesManipulate new old := fun ha => by
    obtain ⟨ev, hev, -, o, ho, hid⟩ := hg.event old hold ha
    exact hmod ⟨ev, hg'.deferred hev, o, ho, hid⟩
  have hR : ¬ ReleasedByUpdate db set.firesManipulate new old := fun ha => by
    have hmem : old ∈ x₁.netblock := by
      rw [hg.netblock, List.mem_map]
      exact ⟨old, hold, hg.kept old hold hA⟩
    obtain ⟨ev, hev, -, o, ho, hid⟩ := hg'.event old hmem ha
    exact hmod ⟨ev, hev, o, ho, hid⟩
  exact ⟨n, new, x₁, x₂, g, g', by simpa using hfire, hn, hw, hg, hg', hA, hR, hcons, hx⟩

/-! ## DELETE -/

/-- The rows that `manipulate_netblock_parentage_after` moves up when `old` is deleted. -/
def ReleasedByDelete (db : Schema) (old n : Netblock) : Prop :=
  db.dbForcedHierarchy old.netblockType = true ∧ n.parentNetblockId = some old.netblockId

theorem WellFormed.mono (ht : WellFormed t) (h : t' ⊆ t) : WellFormed t' :=
  ⟨fun r hr s hs => ht.pk r (h hr) s (h hs), fun r hr s hs => ht.ak r (h hr) s (h hs),
    fun r hr => ht.network r (h hr)⟩

theorem without_subset (t : List Netblock) (i : ℕ) : without t i ⊆ t :=
  fun _ hr => (mem_without.mp hr).1

theorem executeDelete_ok (ht : WellFormed t) (h : executeDelete db order t old = .ok x) :
    ∃ g, UpdatesParents old.parentNetblockId (ReleasedByDelete db old)
      ⟨without t old.netblockId, []⟩ x g := by
  have hx : WellFormed (⟨without t old.netblockId, []⟩ : Txn).netblock :=
    ht.mono (without_subset t _)
  unfold executeDelete manipulateNetblockParentageAfterDelete at h
  split_ifs at h with hf
  · cases h
    exact ⟨id, .nop hx fun r _ ha => by rw [ha.1] at hf; cases hf⟩
  · have hf' : db.dbForcedHierarchy old.netblockType = true := by simpa using hf
    obtain ⟨g, hg⟩ := updateParents_ok hx h
    exact ⟨g, hg.congr fun r _ => by simp only [ReleasedByDelete, hf', true_and]⟩

/-! ## COMMIT -/

theorem validateEvents_ok {l : List Event} (h : validateEvents db t l = .ok ()) :
    ∀ ev ∈ l, validateNetblockParentage db t ev = .ok () := by
  induction l with
  | nil => simp
  | cons ev l ih =>
    obtain ⟨hev, hl⟩ := bind_unit_eq_ok.mp h
    intro ev' hev'
    rcases List.mem_cons.mp hev' with rfl | hev'
    · exact hev
    · exact ih hl ev' hev'

theorem commit_ok (h : commit db x = .ok t') :
    t' = x.netblock ∧ (∀ ev ∈ x.deferred, validateNetblockParentage db t' ev = .ok ()) ∧
      ∀ r ∈ t', ∀ p ∈ r.parentNetblockId, ∃ m, findNetblock t' p = some m := by
  obtain ⟨hev, h⟩ := bind_unit_eq_ok.mp h
  obtain ⟨hfk, h⟩ := bind_unit_eq_ok.mp h
  cases h
  refine ⟨rfl, validateEvents_ok hev, fun r hr p hp => ?_⟩
  rw [raiseIf_eq_ok] at hfk
  exact Option.ne_none_iff_exists'.mp fun hnone => hfk ⟨r, hr, p, hp, hnone⟩

end JazzHands

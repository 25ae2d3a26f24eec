import JazzHands.Library.Runs
import JazzHands.Netblock.Change
import JazzHands.Netblock.Forest

/-!
# Single addresses and their parents

A single address of a validated type belongs under a network of its type, universe and mask length
that is not subnettable.  The deferred trigger checks this of a single address when its own row is
written; an UPDATE of the parent alone can break it.
-/

namespace JazzHands

open Library Postgres

variable {db : Schema} {t t' : List Netblock} {s : Statement} {gone written : Option Netblock}
variable {n m c r r' w old new : Netblock} {i : ℕ} {o : Option Netblock}

/-- The single address `r` has the parent `m`, which is a network without subnets, of its type,
universe and mask length, and contains it. -/
structure HangsUnder (r m : Netblock) : Prop where
  parent : r.parentNetblockId = some m.netblockId
  network : m.isSingleAddress = false
  subnet : m.canSubnet = false
  netblockType : m.netblockType = r.netblockType
  ipUniverseId : m.ipUniverseId = r.ipUniverseId
  masklen : r.ipAddress.masklen = m.ipAddress.masklen
  contains : r.ipAddress.subnetEq m.ipAddress

/-- Every single address of a validated type hangs under such a network. -/
def SingleAddressesHang (db : Schema) (t : List Netblock) : Prop :=
  ∀ r ∈ t, r.isSingleAddress = true → db.isValidatedHierarchy r.netblockType = true →
    ∃ m ∈ t, HangsUnder r m

/-- The statement does not rewrite a key of the table. -/
def Statement.KeepsNetblockId : Statement → Prop
  | .insert _ => True
  | .update _ set => set.netblockId = none
  | .delete _ => True

/-- The row that `old` becomes may keep its single addresses: it is not subnettable, it changes its
type and universe together or not at all, and without a parent it stays where it is. -/
structure SetClause.FitsSingleAddresses (db : Schema) (t : List Netblock) (set : SetClause)
    (old n : Netblock) : Prop where
  subnet : n.canSubnet = false
  key : n.netblockType = old.netblockType ↔ n.ipUniverseId = old.ipUniverseId
  root : n.isSingleAddress = false → writtenParent db t set.firesManipulate n = none →
    n.ipAddress = old.ipAddress

/-- An UPDATE of a row that keeps single addresses as its children fits them. -/
def Statement.KeepsSingleAddresses (db : Schema) (t : List Netblock) : Statement → Prop
  | .insert _ => True
  | .update i set => ∀ old, findNetblock t i = some old → ∀ n,
      (set.apply old).complete db t = .ok n → ∀ c ∈ t, c.isSingleAddress = true →
        db.isValidatedHierarchy c.netblockType = true → c.parentNetblockId = some i →
        set.Leaves db n c → set.FitsSingleAddresses db t old n
  | .delete _ => True

/-! ## The rule where the deferred trigger has checked it -/

theorem Validated.hangsUnder (ht : WellFormed t) (hr : r ∈ t) (h : Validated db t o r)
    (hv : db.isValidatedHierarchy r.netblockType = true) (hs : r.isSingleAddress = true) :
    ∃ m ∈ t, HangsUnder r m := by
  cases hp : r.parentNetblockId with
  | none => exact absurd hp (h.parent_ne_none ht hr hv hs)
  | some p =>
    obtain ⟨-, m, hm, rfl, hnet, hu, hτ, hchild⟩ := h.parent ht hr hp
    have hc := hchild hv
    obtain ⟨m', hm', hid, hsub, -⟩ := findBestParentNetblockId_eq_some hc.best
    rw [ht.pk m' hm' m hm hid] at hsub
    exact ⟨m, hm, hp, hnet, hc.subnet hs, hτ, hu, hc.mask hs, hsub⟩

theorem HangsUnder.network_eq (h : HangsUnder c m) (hm : m.ipAddress.network = m.ipAddress) :
    c.ipAddress.network = m.ipAddress := by
  rw [← hm, Inet.network_eq_iff]
  have hle := Inet.subnetEq_iff.mp h.contains
  rcases hle.eq_or_lt with heq | hlt
  · exact heq
  · have := (Inet.cidr_lt_iff hle).mp hlt
    have := h.masklen
    omega

/-- The parent of a single address under another parent row, with the same columns. -/
theorem HangsUnder.of_touched {p : Option ℕ} (h : HangsUnder c m) (hm : Touched p m r') :
    HangsUnder c r' where
  parent := by rw [h.parent, hm.netblockId]
  network := hm.isSingleAddress.trans h.network
  subnet := hm.canSubnet.trans h.subnet
  netblockType := hm.netblockType.trans h.netblockType
  ipUniverseId := hm.ipUniverseId.trans h.ipUniverseId
  masklen := by rw [h.masklen, hm.ip h.network]
  contains := by rw [hm.ip h.network]; exact h.contains

/-- The parent was not the row that the statement took away. -/
theorem Change.hangsUnder_kept (hc : Change db t t' s gone written) (h : HangsUnder c m)
    (hm : m ∈ t) (hne : ∀ o ∈ gone, m.netblockId ≠ o.netblockId) : ∃ m' ∈ t', HangsUnder c m' := by
  obtain ⟨m', hm', ⟨-, rfl⟩ | hmoved⟩ := hc.image m hm hne
  · exact ⟨m', hm', h⟩
  · obtain ⟨p, hp⟩ := hmoved.touched
    exact ⟨m', hm', h.of_touched hp⟩

/-! ## UPDATE of a parent -/

section

variable (hc : Change db t t' s (some old) (some w)) (ht : WellFormed t) (hold : old ∈ t)
  (hwv : db.isValidatedHierarchy w.netblockType = true)
include hc ht hold hwv

/-- JH10E: an updated row that keeps a single address keeps its own address, unless it has no parent
now. -/
theorem Change.ip_eq_of_child (hc' : c ∈ t') (hs : c.isSingleAddress = true) (hu : HangsUnder c old)
    (hid : w.netblockId = old.netblockId) (hwp : w.parentNetblockId ≠ none) :
    w.ipAddress = old.ipAddress := by
  by_contra hne
  have hw : w ∈ t' := hc.written_mem w rfl
  obtain ⟨p, hp⟩ := Option.ne_none_iff_exists'.mp hwp
  obtain ⟨-, m, -, -, -, -, -, hchild⟩ := (hc.checked w rfl).parent hc.wellFormed hw hp
  have hmoved := (hchild hwv).moved ⟨old, rfl, hne⟩ c hc' (hid ▸ hu.parent)
  rw [← hmoved.1 hs] at hne
  exact hne (hu.network_eq (ht.network old hold hu.network))

/-- A network that keeps its address does not become a single address: its parent would be a second
network at that address. -/
theorem Change.not_single_of_ip_eq (hnet : old.isSingleAddress = false)
    (htype : w.netblockType = old.netblockType) (huniverse : w.ipUniverseId = old.ipUniverseId)
    (hip : w.ipAddress = old.ipAddress) :
    w.isSingleAddress = false := by
  by_contra hws
  rw [Bool.not_eq_false] at hws
  have hw : w ∈ t' := hc.written_mem w rfl
  obtain ⟨m', hm', hu⟩ := (hc.checked w rfl).hangsUnder hc.wellFormed hw hwv hws
  -- the parent of the written row was there before, at the address of the old row
  rcases hc.source m' hm' with hm' | ⟨m, hm, hne, hsame⟩
  · obtain rfl := Option.mem_some_iff.mp hm'
    rw [hu.network] at hws
    cases hws
  have hcols : m.ipAddress = m'.ipAddress ∧ m.netblockType = m'.netblockType ∧
      m.ipUniverseId = m'.ipUniverseId ∧ m.isSingleAddress = m'.isSingleAddress := by
    rcases hsame with ⟨-, rfl⟩ | ⟨hmoved, -⟩
    · exact ⟨rfl, rfl, rfl, rfl⟩
    · obtain ⟨p, hp⟩ := hmoved.touched
      exact ⟨(hp.ip (hp.isSingleAddress.symm.trans hu.network)).symm, hp.netblockType.symm,
        hp.ipUniverseId.symm, hp.isSingleAddress.symm⟩
  have hip' : m'.ipAddress = old.ipAddress := by
    rw [← hu.network_eq (hc.wellFormed.network m' hm' hu.network), hip]
    exact ht.network old hold hnet
  refine hne old rfl (congrArg _ (ht.ak m hm old hold ⟨hcols.1.trans hip', ?_, ?_, ?_⟩))
  · rw [hcols.2.1, hu.netblockType, htype]
  · rw [hcols.2.2.1, hu.ipUniverseId, huniverse]
  · rw [hcols.2.2.2, hu.network, hnet]

end

/-- A single address that no trigger moves away still hangs under its parent once that is
updated. -/
theorem Change.hangsUnder_update {set : SetClause}
    (hc : Change db t t' (.update i set) (some old) (some w)) (ht : WellFormed t)
    (hk : (Statement.update i set).KeepsNetblockId)
    (hfit : (Statement.update i set).KeepsSingleAddresses db t) (hcm : c ∈ t) (hc' : c ∈ t')
    (hs : c.isSingleAddress = true) (hv : db.isValidatedHierarchy c.netblockType = true)
    (hold : old ∈ t) (hu : HangsUnder c old)
    (htouch : ¬ (Statement.update i set).Touches db (some old) (some w) c) : HangsUnder c w := by
  have hw : w ∈ t' := hc.written_mem w rfl
  cases hc.writes with
  | @update _ _ _ n _ find fires complete row =>
    obtain ⟨-, rfl⟩ := findNetblock_eq_some find
    have hid : w.netblockId = old.netblockId := by
      rw [row.netblockId, (complete_ok complete).1, SetClause.apply, show set.netblockId = none from hk]
      rfl
    have hfits := hfit old find n complete c hcm hs hv hu.parent
      (row.leaves (hid ▸ hu.parent) htouch)
    -- JH109 sees a change of both the type and the universe
    have hkey : w.netblockType = old.netblockType ∧ w.ipUniverseId = old.ipUniverseId := by
      rw [row.netblockType, row.ipUniverseId]
      rcases (hc.checked w rfl).childrenMatch hc.wellFormed hw c hc' (hid ▸ hu.parent) with h | h
      · rw [row.netblockType, ← hu.netblockType] at h
        exact ⟨h.symm, hfits.key.mp h.symm⟩
      · rw [row.ipUniverseId, ← hu.ipUniverseId] at h
        exact ⟨hfits.key.mpr h.symm, h.symm⟩
    have hwv : db.isValidatedHierarchy w.netblockType = true := by
      rw [hkey.1, hu.netblockType]
      exact hv
    have hip : w.ipAddress = old.ipAddress := by
      cases hp : w.parentNetblockId with
      | some p => exact hc.ip_eq_of_child ht hold hwv hc' hs hu hid (by simp [hp])
      | none =>
        have hnet : n.isSingleAddress = false := by
          rw [← row.isSingleAddress]
          exact ((hc.checked w rfl).topLevel hc.wellFormed hw hwv hp).single
        rw [row.ip (Or.inl hnet)]
        exact hfits.root hnet ((row.parent_eq hnet).symm.trans hp)
    exact
      { parent := by rw [hu.parent, hid]
        network := hc.not_single_of_ip_eq ht hold hwv hu.network hkey.1 hkey.2 hip
        subnet := row.canSubnet.trans hfits.subnet
        netblockType := hkey.1.trans hu.netblockType
        ipUniverseId := hkey.2.trans hu.ipUniverseId
        masklen := by rw [hip, hu.masklen]
        contains := by rw [hip]; exact hu.contains }

/-! ## Runs -/

/-- **A committed transaction** that fits the single addresses of the row it updates keeps the
rule. -/
theorem Change.singleAddressesHang (hc : Change db t t' s gone written) (ht : WellFormed t)
    (hk : s.KeepsNetblockId) (hfit : s.KeepsSingleAddresses db t)
    (h : SingleAddressesHang db t) : SingleAddressesHang db t' := by
  intro r' hr' hs hv
  rcases hc.source r' hr' with hw | ⟨r, hr, hne, ⟨htouch, rfl⟩ | ⟨-, o, ho⟩⟩
  · exact (hc.checked r' hw).hangsUnder hc.wellFormed hr' hv hs
  · obtain ⟨m, hm, hu⟩ := h r' hr hs hv
    by_cases hgone : ∀ o ∈ gone, m.netblockId ≠ o.netblockId
    · exact hc.hangsUnder_kept hu hm hgone
    · push Not at hgone
      obtain ⟨o, ho, hid⟩ := hgone
      cases hc.writes with
      | insert => cases ho
      | @update i set old n w find fires complete row =>
        obtain rfl := Option.mem_some_iff.mp ho
        have hold : old ∈ t := (findNetblock_eq_some find).1
        obtain rfl := ht.pk m hm old hold hid
        exact ⟨w, hc.written_mem w rfl, hc.hangsUnder_update ht hk hfit hr hr' hs hv hold hu htouch⟩
      | @delete i old find =>
        obtain rfl := Option.mem_some_iff.mp ho
        -- the parent is gone, and the foreign key would have failed
        obtain ⟨m', hm'⟩ := hc.parent r' hr' _ (by rw [hu.parent]; rfl)
        obtain ⟨hm', hid'⟩ := findNetblock_eq_some hm'
        obtain hm' | ⟨m₀, -, hne', hsame⟩ := hc.source m' hm'
        · cases hm'
        refine absurd (hid'.trans hid) ?_
        rcases hsame with ⟨-, rfl⟩ | ⟨hmoved, -⟩
        · exact hne' old rfl
        · obtain ⟨p, hp⟩ := hmoved.touched
          rw [hp.netblockId]
          exact hne' old rfl
  · exact ho.hangsUnder hc.wellFormed hr' hv hs

/-- **Single addresses.**  In every run whose updates fit the single addresses of the rows they
update, every single address of a validated type hangs under a network without subnets of its
type, universe and mask length that contains it. -/
theorem singleAddressesHang_run (ht : WellFormed t) (h₀ : SingleAddressesHang db t)
    (l : List (Statement × ScanOrder))
    (hl : AllSteps (step db) (fun t sa => sa.1.KeepsNetblockId ∧ sa.1.KeepsSingleAddresses db t) t l) :
    SingleAddressesHang db (run (step db) t l) :=
  (run_invariant (I := fun t => WellFormed t ∧ SingleAddressesHang db t)
    (fun _ _ hI hs => ⟨hI.1.step, step_cases hI.1 hI.2 fun _ _ _ hc =>
      hc.singleAddressesHang hI.1 hs.1 hs.2 hI.2⟩) ⟨ht, h₀⟩ hl).2

/-- A network is put in with a single address, and is then marked as not subnettable once more. -/
def unsubnettable : List (Statement × ScanOrder) :=
  [(.insertNetwork 1 (.v4 10 0 0 0 24) false, .asIs),
    (.insertSingleAddress 2 (.v4 10 0 0 5 32), .asIs),
    (.update 1 { canSubnet := some (some false) }, .asIs)]

theorem singleAddressesHang_run_unsubnettable :
    SingleAddressesHang .initial (run (step .initial) [] unsubnettable) := by
  refine singleAddressesHang_run .nil (by simp [SingleAddressesHang]) unsubnettable
    ⟨⟨trivial, trivial⟩, ⟨trivial, trivial⟩, ⟨rfl, ?_⟩, trivial⟩
  intro old _ n hn c _ _ _ _ _
  obtain ⟨-, hip, htype, -, hsubnet, -, huniverse⟩ := complete_ok hn
  exact ⟨hsubnet false rfl, iff_of_true htype (huniverse _ rfl), fun _ _ =>
    (Option.some.inj hip).symm⟩

/-- A network is put in with a single address, and then marked as subnettable. -/
def subnettable : List (Statement × ScanOrder) :=
  [(.insertNetwork 1 (.v4 10 0 0 0 24) false, .asIs),
    (.insertSingleAddress 2 (.v4 10 0 0 5 32), .asIs),
    (.update 1 { canSubnet := some (some true) }, .asIs)]

/-- The deferred trigger looks at the updated row and not at its children, so the last statement
commits. -/
theorem subnettable_breaks : (∀ sa ∈ subnettable, sa.1.KeepsNetblockId) ∧
    ¬ SingleAddressesHang .initial (run (step .initial) [] subnettable) := by
  refine ⟨by simp [subnettable, Statement.KeepsNetblockId, Statement.insertNetwork,
    Statement.insertSingleAddress], fun h => ?_⟩
  obtain ⟨m, hm, hu⟩ := h ⟨2, .v4 10 0 0 5 24, "default", true, false, some 1, 0⟩ (by decide) rfl rfl
  have hall : ∀ m ∈ run (step .initial) [] subnettable,
      m.isSingleAddress = false → m.canSubnet = true := by decide
  have hsub := hall m hm hu.network
  rw [hu.subnet] at hsub
  cases hsub

end JazzHands

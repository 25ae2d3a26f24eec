import JazzHands.Library.Runs
import JazzHands.Netblock.Change
import JazzHands.Netblock.Forest

/-!
# The forced hierarchy of networks

In a type whose hierarchy is forced and validated, every network hangs off the longest prefix
around it, whatever statements on addresses and flags are run.
-/

namespace JazzHands

open Library Postgres

variable {db : Schema} {t t' : List Netblock} {s : Statement} {gone written : Option Netblock}
variable {n m r r' w old new : Netblock} {τ : String} {u i : ℕ} {o : Option Netblock}

/-- The statement changes no columns but `ip_address`, `can_subnet` and `is_single_address`. -/
def Statement.SetsAddressOrFlags : Statement → Prop
  | .insert _ => True
  | .update _ set => set.netblockId = none ∧ set.netblockType = none ∧ set.ipUniverseId = none ∧
      set.parentNetblockId = none
  | .delete _ => True

/-- Every network of the type `τ` in the universe `u` hangs off the nearest network above it. -/
def HungNetworks (t : List Netblock) (τ : String) (u : ℕ) : Prop :=
  ∀ r ∈ t, r.IsNetwork τ u → Nearest (networks t τ u) r.ipAddress.cidr r.parentNetblockId

theorem hungNetworks_iff (ht : WellFormed t) :
    HungNetworks t τ u ↔ ∀ r ∈ t, r.IsNetwork τ u → HangsOffBestParent t r := by
  refine forall₃_congr fun r hr hnet => ?_
  obtain ⟨-, rfl, rfl⟩ := hnet
  exact nearest_iff_container ht

/-! ## The networks of the committed table -/

theorem Touched.isNetwork_iff {p : Option ℕ} (h : Touched p r r') :
    r'.IsNetwork τ u ↔ r.IsNetwork τ u := by
  rw [Netblock.IsNetwork, Netblock.IsNetwork, h.isSingleAddress, h.netblockType, h.ipUniverseId]

theorem Touched.labelled {p : Option ℕ} (h : Touched p r r') (hs : r.isSingleAddress = false) :
    r'.labelled = r.labelled := by
  rw [Netblock.labelled, Netblock.labelled, h.netblockId, h.ip hs]

/-- The networks of the committed table are the written one and those that were not taken away. -/
theorem Change.mem_networks (hc : Change db t t' s gone written) {x : ℕ × Cidr} :
    x ∈ networks t' τ u ↔ (∃ w ∈ written, w.IsNetwork τ u ∧ w.labelled = x) ∨
      (x ∈ networks t τ u ∧ ∀ o ∈ gone, x.1 ≠ o.netblockId) := by
  constructor
  · rintro ⟨r', hr', hnet, rfl⟩
    rcases hc.source r' hr' with hw | ⟨r, hr, hne, ⟨-, rfl⟩ | ⟨hm, -⟩⟩
    · exact Or.inl ⟨r', hw, hnet, rfl⟩
    · exact Or.inr ⟨JazzHands.mem_networks hr hnet, hne⟩
    · obtain ⟨p, hp⟩ := hm.touched
      have hnet' := hp.isNetwork_iff.mp hnet
      rw [hp.labelled hnet'.1]
      exact Or.inr ⟨JazzHands.mem_networks hr hnet', hne⟩
  · rintro (⟨w, hw, hnet, rfl⟩ | ⟨⟨r, hr, hnet, rfl⟩, hne⟩)
    · exact JazzHands.mem_networks (hc.written_mem w hw) hnet
    · obtain ⟨r', hr', ⟨-, rfl⟩ | hm⟩ := hc.image r hr hne
      · exact JazzHands.mem_networks hr' hnet
      · obtain ⟨p, hp⟩ := hm.touched
        rw [← hp.labelled hnet.1]
        exact JazzHands.mem_networks hr' (hp.isNetwork_iff.mpr hnet)

/-- A network of a validated type that passed the deferred trigger hangs off the nearest one. -/
theorem Validated.nearest (ht : WellFormed t) (hr : r ∈ t) (h : Validated db t o r)
    (hv : db.isValidatedHierarchy τ = true) (hnet : r.IsNetwork τ u) :
    Nearest (networks t τ u) r.ipAddress.cidr r.parentNetblockId := by
  rw [h.parent_eq_best ht hr (hnet.2.1 ▸ hv)]
  exact nearest_bestParent ht hr hnet

/-- The row that the statement takes away, and the one it stores, have one key, type and universe,
and the triggers of the hierarchy fire. -/
theorem Writes.keeps {set : SetClause} (h : Writes db t (.update i set) (some old) (some new))
    (hs : (Statement.update i set).SetsAddressOrFlags) :
    set.firesManipulate = true ∧ new.netblockId = old.netblockId ∧
      new.netblockType = old.netblockType ∧ new.ipUniverseId = old.ipUniverseId := by
  obtain ⟨hid, htype, huniverse, hparent⟩ := hs
  cases h with
  | update find fires complete row =>
    obtain ⟨cid, -, ctype, -, -, -, cuniverse⟩ := complete_ok complete
    refine ⟨?_, ?_, ?_, ?_⟩
    · simpa [SetClause.firesValidate, hparent] using fires
    · rw [row.netblockId, cid]
      simp [SetClause.apply, hid]
    · rw [row.netblockType, ctype]
      simp [SetClause.apply, htype]
    · rw [row.ipUniverseId]
      exact cuniverse _ (by simp [SetClause.apply, huniverse])

/-! ## Rows that no trigger looks at -/

theorem networks_finite (t : List Netblock) (τ : String) (u : ℕ) : (networks t τ u).Finite := by
  refine ((List.finite_toSet t).image Netblock.labelled).subset ?_
  rintro _ ⟨n, hn, -, rfl⟩
  exact ⟨n, hn, rfl⟩

theorem HungNetworks.parent_ne (ht : WellFormed t) (h : HungNetworks t τ u) (hr : r ∈ t)
    (hnet : r.IsNetwork τ u) (hm : m ∈ t) (hp : r.parentNetblockId = some m.netblockId) :
    m.IsNetwork τ u ∧ r.ipAddress.cidr < m.ipAddress.cidr := by
  have hnear := h r hr hnet
  rw [hp] at hnear
  obtain ⟨b, ⟨n, hn, hnet', hnb⟩, hlt, -⟩ := hnear
  have hid : n.netblockId = m.netblockId := congrArg Prod.fst hnb
  obtain rfl := ht.pk n hn m hm hid
  rw [show n.ipAddress.cidr = b from congrArg Prod.snd hnb]
  exact ⟨hnet', hlt⟩

theorem nearest_written {fires : Bool} (hw : WrittenRow db t o fires n w) (hf : fires = true)
    (hforced : db.dbForcedHierarchy τ = true) (hnet : w.IsNetwork τ u) :
    Nearest (others (networks t τ u) w.netblockId) w.ipAddress.cidr w.parentNetblockId := by
  rw [hw.forced hf (hnet.2.1 ▸ hforced)]
  obtain ⟨hs, hτ, hu⟩ := hnet
  rw [Netblock.bestParent, hs, hτ, hu]
  exact nearest_findBestParent

/-- A row whose nearest network is not the written one keeps it, unless it belongs under the
written row. -/
theorem nearest_insert (ht : WellFormed t) (h : HungNetworks t τ u) (hr : r ∈ t)
    (hnet : r.IsNetwork τ u) (hne : r.parentNetblockId ≠ some w.netblockId)
    (hw : Nearest (others (networks t τ u) w.netblockId) w.ipAddress.cidr w.parentNetblockId)
    (hkeep : ¬ (r.ipAddress.cidr < w.ipAddress.cidr ∧ r.parentNetblockId = w.parentNetblockId)) :
    Nearest (insert w.labelled (others (networks t τ u) w.netblockId)) r.ipAddress.cidr
      r.parentNetblockId := by
  have hother : Nearest (others (networks t τ u) w.netblockId) r.ipAddress.cidr r.parentNetblockId :=
    (h r hr hnet).subset (fun x hx => hx.1) fun k hk b hb =>
      ⟨hb, fun e => hne (by rw [Option.mem_def.mp hk, show k = w.netblockId from e])⟩
  exact hother.insert_keep (ht.labelled_networks.mono fun x hx => hx.1) hw hkeep

/-- A network that is not written has another block than the written one. -/
theorem Change.lt_written (hc : Change db t t' s gone (some w)) (hr : r ∈ t')
    (hnet : r.IsNetwork τ u) (hwnet : w.IsNetwork τ u) (hne : r.netblockId ≠ w.netblockId)
    (hsub : r.ipAddress.subnetEq w.ipAddress) : r.ipAddress.cidr < w.ipAddress.cidr := by
  refine lt_of_le_of_ne (Inet.subnetEq_iff.mp hsub) fun e => hne ?_
  exact congrArg Prod.fst (hc.wellFormed.labelled_networks.block _ (JazzHands.mem_networks hr hnet)
    _ (JazzHands.mem_networks (hc.written_mem w rfl) hwnet) e)

/-- The networks of the committed table when the written row is a network and takes the place of
the row with its key. -/
theorem Change.networks_eq (hc : Change db t t' s gone (some w)) (hwnet : w.IsNetwork τ u)
    (hgone : ∀ o ∈ gone, o.netblockId = w.netblockId) :
    networks t' τ u = insert w.labelled (others (networks t τ u) w.netblockId) := by
  have hw := JazzHands.mem_networks (hc.written_mem w rfl) hwnet
  ext x
  rw [Set.mem_insert_iff]
  constructor
  · intro hx
    by_cases he : x.1 = w.netblockId
    · exact Or.inl (hc.wellFormed.labelled_networks.label x hx _ hw he)
    · rcases hc.mem_networks.mp hx with ⟨w', ⟨⟩, -, rfl⟩ | ⟨hx', -⟩
      · exact absurd rfl he
      · exact Or.inr ⟨hx', he⟩
  · rintro (rfl | ⟨hx, he⟩)
    · exact hw
    · exact hc.mem_networks.mpr (Or.inr ⟨hx, fun o ho => hgone o ho ▸ he⟩)

/-- When no network is written, a network keeps its parent if that is not taken away. -/
theorem Change.nearest_erase (hc : Change db t t' s gone written) (h : HungNetworks t τ u)
    (hw : ∀ w ∈ written, ¬ w.IsNetwork τ u) (hr : r ∈ t) (hnet : r.IsNetwork τ u)
    (hne : ∀ o ∈ gone, r.parentNetblockId ≠ some o.netblockId) :
    Nearest (networks t' τ u) r.ipAddress.cidr r.parentNetblockId := by
  refine (h r hr hnet).subset (fun x hx => ?_) fun k hk b hb => ?_
  · rcases hc.mem_networks.mp hx with ⟨w, hw', hwnet, -⟩ | ⟨hx', -⟩
    · exact absurd hwnet (hw w hw')
    · exact hx'
  · refine hc.mem_networks.mpr (Or.inr ⟨hb, fun o ho e => hne o ho ?_⟩)
    rw [Option.mem_def.mp hk, show k = o.netblockId from e]

theorem Change.nearest_insert {rec : NetblockRecord}
    (hc : Change db t t' (.insert rec) none (some w)) (ht : WellFormed t)
    (hforced : db.dbForcedHierarchy τ = true) (h : HungNetworks t τ u) (hwnet : w.IsNetwork τ u)
    (hr : r ∈ t) (hnet : r.IsNetwork τ u)
    (htouch : ¬ (Statement.insert rec).Touches db none (some w) r) :
    Nearest (networks t' τ u) r.ipAddress.cidr r.parentNetblockId := by
  cases hc.writes with
  | insert complete row =>
    rw [hc.networks_eq hwnet (by simp)]
    refine JazzHands.nearest_insert ht h hr hnet (fun hp => ?_)
      (nearest_written row rfl hforced hwnet) ?_
    · -- the key of an inserted row is new
      obtain ⟨b, ⟨m, hm, -, hmb⟩, -⟩ := hp ▸ h r hr hnet
      exact hc.fresh w rfl m hm (by simp) (congrArg Prod.fst hmb)
    · rintro ⟨hlt, hpar⟩
      exact htouch ⟨w, rfl, hwnet.2.1 ▸ hforced, hwnet.1, hpar, Inet.subnetEq_iff.mpr hlt.le,
        hc.fresh w rfl r hr (by simp),
        fun _ => ⟨hnet.2.1.trans hwnet.2.1.symm, hnet.2.2.trans hwnet.2.2.symm⟩⟩

section

variable {set : SetClause} (hc : Change db t t' (.update i set) (some old) (some w))
  (ht : WellFormed t) (hs : (Statement.update i set).SetsAddressOrFlags)
  (hforced : db.dbForcedHierarchy τ = true) (hv : db.isValidatedHierarchy τ = true)
  (h : HungNetworks t τ u) (hwnet : w.IsNetwork τ u) (hold : old ∈ t) (hr : r ∈ t) (hr' : r ∈ t')
  (hnet : r.IsNetwork τ u) (hne : r.netblockId ≠ w.netblockId)
  (htouch : ¬ (Statement.update i set).Touches db (some old) (some w) r)
include hc ht hs hforced hv h hwnet hold hr hr' hnet hne htouch

/-- The children of an updated network that stay are below its new block, with nothing between. -/
theorem Change.nearest_child (hp : r.parentNetblockId = some w.netblockId) :
    Nearest (networks t' τ u) r.ipAddress.cidr (some w.netblockId) := by
  obtain ⟨hfires, hid, htype, huniverse⟩ := hc.writes.keeps hs
  have hw : w ∈ t' := hc.written_mem w rfl
  have hcheck : Validated db t' (some old) w := hc.checked w rfl
  have hgone : ∀ o ∈ some old, o.netblockId = w.netblockId := by
    rintro o ⟨⟩
    exact hid.symm
  -- the row is below the new block, or the trigger would have moved it away
  have hlt : r.ipAddress.cidr < w.ipAddress.cidr := by
    refine hc.lt_written hr' hnet hwnet hne ?_
    by_contra hsub
    exact htouch ⟨w, rfl, Or.inr ⟨⟨hfires, hwnet.2.1 ▸ hforced, hwnet.1⟩, hp,
      Or.inr (Or.inr hsub)⟩⟩
  obtain ⟨hold', hlt'⟩ := h.parent_ne ht hr hnet hold (hid ▸ hp)
  by_cases hip : w.ipAddress = old.ipAddress
  · -- the networks are what they were
    have hlabel : w.labelled = old.labelled := by
      rw [Netblock.labelled, Netblock.labelled, hid, hip]
    have hall : networks t' τ u = networks t τ u := by
      rw [hc.networks_eq hwnet hgone, hlabel]
      ext x
      rw [Set.mem_insert_iff]
      constructor
      · rintro (rfl | hx)
        · exact JazzHands.mem_networks hold hold'
        · exact hx.1
      · intro hx
        by_cases he : x.1 = w.netblockId
        · exact Or.inl (ht.labelled_networks.label x hx _ (JazzHands.mem_networks hold hold')
            (he.trans hid))
        · exact Or.inr ⟨hx, he⟩
    rw [hall, ← hp]
    exact h r hr hnet
  cases hwp : w.parentNetblockId with
  | some q =>
    -- JH10E asks for the best parent of each child
    obtain ⟨-, m, -, -, -, -, -, hchild⟩ := hcheck.parent hc.wellFormed hw hwp
    have hmoved := ((hchild (hwnet.2.1 ▸ hv)).moved ⟨old, rfl, hip⟩ r hr' hp).2 hnet.1
    have hbest := nearest_findBestParentOf hc.wellFormed hr' hnet
    cases hf : findBestParentOf t' r.netblockId with
    | none =>
      rw [hf] at hbest
      exact absurd hlt (hbest _ (JazzHands.mem_networks hw hwnet))
    | some q' =>
      rw [hf, hmoved q' hf] at hbest
      exact hbest
  | none =>
    -- JH108 asks for other networks without a parent below the block
    have htop := hcheck.topLevel hc.wellFormed hw (hwnet.2.1 ▸ hv) hwp
    cases hc.writes with
    | update find fires complete row =>
      have hnone : Nearest (others (networks t τ u) w.netblockId) w.ipAddress.cidr none :=
        hwp ▸ nearest_written row hfires hforced hwnet
      rw [hc.networks_eq hwnet hgone]
      refine Nearest.move_root ht.labelled_networks (networks_finite t τ u) (hp ▸ h r hr hnet) hlt
        hnone ?_
      rintro _ ⟨⟨z, hz, hznet, rfl⟩, hzne⟩ hzroot hzw
      have hzpar : z.parentNetblockId = none := (h z hz hznet).unique ht.labelled_networks hzroot
      have hz' : z ∈ t' := by
        obtain ⟨z', hz', ⟨-, rfl⟩ | hm⟩ := hc.image z hz (by rintro o ⟨⟩; exact hid ▸ hzne)
        · exact hz'
        · cases hm with
          | adopt adopted _ | pass adopted _ _ _ => exact absurd hzpar adopted.2.1
          | release released _ => exact absurd (hzpar.symm.trans released.2.1) (by simp)
      exact htop.others z hz' hzpar hzne (hznet.2.1.trans hwnet.2.1.symm)
        (hznet.2.2.trans hwnet.2.2.symm) (Inet.subnetEq_iff.mpr hzw)

/-- A network keeps its parent through an UPDATE of another row that does not touch it. -/
theorem Change.nearest_update :
    Nearest (networks t' τ u) r.ipAddress.cidr r.parentNetblockId := by
  by_cases hp : r.parentNetblockId = some w.netblockId
  · rw [hp]
    exact hc.nearest_child ht hs hforced hv h hwnet hold hr hr' hnet hne htouch hp
  obtain ⟨hfires, hid, -, -⟩ := hc.writes.keeps hs
  have hw : w ∈ t' := hc.written_mem w rfl
  cases hc.writes with
  | update find fires complete row =>
    rw [hc.networks_eq hwnet (by rintro o ⟨⟩; exact hid.symm)]
    refine JazzHands.nearest_insert ht h hr hnet hp (nearest_written row hfires hforced hwnet) ?_
    rintro ⟨hlt, hpar⟩
    have hsub : r.ipAddress.subnetEq w.ipAddress := Inet.subnetEq_iff.mpr hlt.le
    by_cases hnone : r.parentNetblockId = none
    · -- the trigger leaves the rows without a parent alone, and JH108 finds them
      have htop := (hc.checked w rfl).topLevel hc.wellFormed hw (hwnet.2.1 ▸ hv)
        (hpar.symm.trans hnone)
      exact htop.others r hr' hnone hne (hnet.2.1.trans hwnet.2.1.symm)
        (hnet.2.2.trans hwnet.2.2.symm) hsub
    · exact htouch ⟨w, rfl, Or.inl ⟨⟨hfires, hwnet.2.1 ▸ hforced, hwnet.1⟩, hnone, hpar, hsub,
        hne⟩⟩

end

section

variable (hc : Change db t t' s gone written) (ht : WellFormed t) (hs : s.SetsAddressOrFlags)
  (hforced : db.dbForcedHierarchy τ = true) (hv : db.isValidatedHierarchy τ = true)
  (h : HungNetworks t τ u)
include hc ht hs hforced hv h

/-- A network that the transaction neither writes nor touches still hangs off the nearest one. -/
theorem Change.nearest_kept (hr : r ∈ t) (hr' : r ∈ t') (hnet : r.IsNetwork τ u)
    (hne : ∀ o ∈ gone, r.netblockId ≠ o.netblockId) (htouch : ¬ s.Touches db gone written r) :
    Nearest (networks t' τ u) r.ipAddress.cidr r.parentNetblockId := by
  cases hc.writes with
  | @insert rec n w complete row =>
    by_cases hwnet : w.IsNetwork τ u
    · exact hc.nearest_insert ht hforced h hwnet hr hnet htouch
    · exact hc.nearest_erase h (by rintro _ ⟨⟩; exact hwnet) hr hnet (by simp)
  | @update i set old n w find fires complete row =>
    obtain ⟨hold, -⟩ := findNetblock_eq_some find
    obtain ⟨-, hid, htype, huniverse⟩ := hc.writes.keeps hs
    by_cases hwnet : w.IsNetwork τ u
    · exact hc.nearest_update ht hs hforced hv h hwnet hold hr hr' hnet
        (by rw [hid]; exact hne old rfl) htouch
    refine hc.nearest_erase h (by rintro _ ⟨⟩; exact hwnet) hr hnet ?_
    rintro _ ⟨⟩ hp
    -- the parent was a network, so it has become a single address
    obtain ⟨hold', -⟩ := h.parent_ne ht hr hnet hold hp
    have htype' : w.netblockType = τ := htype.trans hold'.2.1
    have hws : w.isSingleAddress = true := by
      by_contra hws
      exact hwnet ⟨by simpa using hws, htype', huniverse.trans hold'.2.2⟩
    have hrs := hc.child_of_single hws (htype' ▸ hv) ((checkNetblock_ok row.check).1 hws) hr'
      (hid ▸ hp)
    rw [hnet.1] at hrs
    cases hrs
  | @delete i old find =>
    obtain ⟨hold, -⟩ := findNetblock_eq_some find
    refine hc.nearest_erase h (by simp) hr hnet ?_
    rintro _ ⟨⟩ hp
    obtain ⟨hold', -⟩ := h.parent_ne ht hr hnet hold hp
    exact htouch ⟨old, rfl, hold'.2.1 ▸ hforced, hp⟩

/-- **A committed transaction** on addresses and flags keeps the networks hung. -/
theorem Change.hungNetworks : HungNetworks t' τ u := by
  intro r' hr' hnet
  rcases hc.source r' hr' with hw | ⟨r, hr, hne, ⟨htouch, rfl⟩ | ⟨-, o, ho⟩⟩
  · exact (hc.checked r' hw).nearest hc.wellFormed hr' hv hnet
  · exact hc.nearest_kept ht hs hforced hv h hr hr' hnet hne htouch
  · exact ho.nearest hc.wellFormed hr' hv hnet

end

theorem HungNetworks.step {sa : Statement × ScanOrder} (ht : WellFormed t)
    (h : HungNetworks t τ u) (hs : sa.1.SetsAddressOrFlags)
    (hforced : db.dbForcedHierarchy τ = true) (hv : db.isValidatedHierarchy τ = true) :
    HungNetworks (step db t sa) τ u :=
  step_cases ht h fun _ _ _ hc => hc.hungNetworks ht hs hforced hv h

theorem hungNetworks_run (hforced : db.dbForcedHierarchy τ = true)
    (hv : db.isValidatedHierarchy τ = true) (ht : WellFormed t) (h₀ : HungNetworks t τ u)
    {l : List (Statement × ScanOrder)} (hl : ∀ sa ∈ l, sa.1.SetsAddressOrFlags) :
    WellFormed (run (step db) t l) ∧ HungNetworks (run (step db) t l) τ u :=
  run_invariant (I := fun t => WellFormed t ∧ HungNetworks t τ u)
    (fun _ _ hI hs => ⟨hI.1.step, hI.2.step hI.1 hs hforced hv⟩) ⟨ht, h₀⟩ (allSteps_of_forall hl)

/-- **The hierarchy invariant.**  After any run of statements on addresses and flags, each a
transaction of its own, every network of a forced and validated type has the longest prefix that
strictly contains it as its parent, and no parent exactly when there is none. -/
theorem hangsOffBestParent_run (hforced : db.dbForcedHierarchy τ = true)
    (hv : db.isValidatedHierarchy τ = true) (ht : WellFormed t)
    (h₀ : ∀ r ∈ t, r.IsNetwork τ u → HangsOffBestParent t r)
    (l : List (Statement × ScanOrder)) (hl : ∀ sa ∈ l, sa.1.SetsAddressOrFlags) :
    ∀ r ∈ run (step db) t l, r.IsNetwork τ u → HangsOffBestParent (run (step db) t l) r := by
  obtain ⟨ht', h⟩ := hungNetworks_run hforced hv ht ((hungNetworks_iff ht).mpr h₀) hl
  exact (hungNetworks_iff ht').mp h

/-- **The networks are a forest.**  Everything above a network, in any number of steps from a row to
its parent, is a network of its type and universe that strictly contains it. -/
theorem networksAbove_run (hforced : db.dbForcedHierarchy τ = true)
    (hv : db.isValidatedHierarchy τ = true) (ht : WellFormed t)
    (h₀ : ∀ r ∈ t, r.IsNetwork τ u → HangsOffBestParent t r)
    (l : List (Statement × ScanOrder)) (hl : ∀ sa ∈ l, sa.1.SetsAddressOrFlags)
    (hr : r ∈ run (step db) t l) (hnet : r.IsNetwork τ u)
    (habove : Relation.TransGen (fun x y => y ∈ run (step db) t l ∧
      x.parentNetblockId = some y.netblockId) r m) :
    m.IsNetwork τ u ∧ r.ipAddress.cidr < m.ipAddress.cidr := by
  obtain ⟨ht', h⟩ := hungNetworks_run hforced hv ht ((hungNetworks_iff ht).mpr h₀) hl
  suffices m ∈ run (step db) t l ∧ m.IsNetwork τ u ∧ r.ipAddress.cidr < m.ipAddress.cidr from this.2
  induction habove with
  | single hp => exact ⟨hp.1, h.parent_ne ht' hr hnet hp.1 hp.2⟩
  | tail _ hp ih =>
    obtain ⟨hn, hnet', hlt⟩ := ih
    obtain ⟨hnet'', hlt'⟩ := h.parent_ne ht' hn hnet' hp.1 hp.2
    exact ⟨hp.1, hnet'', hlt.trans hlt'⟩

/-- A block between two others is put in, made wider than the one above it, and taken out. -/
def widening : List (Statement × ScanOrder) :=
  [(.insertNetwork 1 (.v4 10 0 0 0 8) true, .asIs),
    (.insertNetwork 2 (.v4 10 1 2 0 24) true, .asIs),
    (.insertNetwork 3 (.v4 10 1 0 0 16) true, .asIs),
    (.setIpAddress 3 (.v4 10 0 0 0 12), .asIs),
    (.insertNetwork 4 (.v4 10 1 0 0 20) true, .asIs)]

theorem hangsOffBestParent_run_widening :
    (∀ r ∈ run (step .initial) [] widening, r.IsNetwork "default" 0 →
      HangsOffBestParent (run (step .initial) [] widening) r) ∧
    (run (step .initial) [] widening).map (fun r => (r.netblockId, r.parentNetblockId)) =
      [(1, none), (2, some 4), (3, some 1), (4, some 3)] :=
  ⟨hangsOffBestParent_run rfl rfl .nil (by simp) widening
    (by simp [widening, Statement.insertNetwork, Statement.setIpAddress,
      Statement.SetsAddressOrFlags]), by decide⟩

theorem networksAbove_run_widening :
    (⟨4, .v4 10 1 0 0 20, "default", false, true, some 3, 0⟩ : Netblock).IsNetwork "default" 0 ∧
      (Inet.v4 10 1 2 0 24).cidr < (Inet.v4 10 1 0 0 20).cidr := by
  have hr : ⟨2, .v4 10 1 2 0 24, "default", false, true, some 4, 0⟩ ∈
      run (step .initial) [] widening := by decide
  exact networksAbove_run rfl rfl .nil (by simp) widening (by simp [widening,
    Statement.insertNetwork, Statement.setIpAddress, Statement.SetsAddressOrFlags]) hr
    ⟨rfl, rfl, rfl⟩ (.single ⟨by decide, rfl⟩)

end JazzHands

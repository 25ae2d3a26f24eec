import JazzHands.Allocation.Prepared
import JazzHands.Netblock.Forest
import JazzHands.Netblock.Subnettable
import Mathlib.Tactic.MkIffOfInductiveProp

/-!
# The search returns only what is free

What `find_free_netblocks` returns lies in one of the parents, has the requested mask length, and
is not taken: no netblock below the parent and no network range of it is in the way.  The query in
the loop looks at the children of the parent only, and for a single address only at equal ones; the
hierarchy makes that enough.
-/

namespace JazzHands

open Library Postgres

variable {t : List Netblock} {s : RangeTables} {o : Outcomes} {q : FindFree} {p n m r : Netblock}
variable {v v' : Search} {c c' : ParentSearch} {k k' : Cursor} {parents : List ℕ} {x : Inet}
variable {f : FreeNetblock} {passes : ℕ}

/-! ## The hierarchy -/

/-- Every row hangs off its best parent, and a single address has the mask of its parent. -/
@[mk_iff]
structure InPlace (t : List Netblock) : Prop where
  parent : ∀ r ∈ t, r.parentNetblockId = r.bestParent t
  masklen : ∀ r ∈ t, r.isSingleAddress = true → ∀ m ∈ t, r.IsChildOf m →
    r.ipAddress.masklen = m.ipAddress.masklen

/-- A network that is not subnettable has no network among its children. -/
def NoNetworkBelowUnsubnettable (t : List Netblock) : Prop :=
  ∀ m ∈ t, m.isSingleAddress = false → m.canSubnet = false → ∀ n ∈ t, n.IsChildOf m →
    n.isSingleAddress = true
  deriving Decidable

/-- The stored row `n` is a child of the stored row `m`. -/
def ChildIn (t : List Netblock) (n m : Netblock) : Prop := n ∈ t ∧ m ∈ t ∧ n.IsChildOf m

/-- The row `n` is below the row `m`, as a child, a child of a child, and so on. -/
def Below (t : List Netblock) : Netblock → Netblock → Prop := Relation.TransGen (ChildIn t)

/-- The addresses that a row stands for: one for a single address, a block for a network. -/
def Netblock.extent (n : Netblock) : Inet :=
  if n.isSingleAddress = true then n.ipAddress.host else n.ipAddress

theorem extent_le (n : Netblock) : n.extent.cidr ≤ n.ipAddress.cidr := by
  rw [Netblock.extent]
  split
  · exact Inet.cidr_le_of_host_eq rfl n.ipAddress.masklen_le
  · exact le_rfl

/-- What is below a row is contained in it, and of its type and universe; the row is a network. -/
structure LiesIn (n m : Netblock) : Prop where
  network : m.isSingleAddress = false
  netblockType : m.netblockType = n.netblockType
  ipUniverseId : m.ipUniverseId = n.ipUniverseId
  contains : n.ipAddress.subnetEq m.ipAddress

theorem LiesIn.trans (hnm : LiesIn n m) (hmr : LiesIn m r) : LiesIn n r where
  network := hmr.network
  netblockType := hmr.netblockType.trans hnm.netblockType
  ipUniverseId := hmr.ipUniverseId.trans hnm.ipUniverseId
  contains := Inet.subnetEq_iff.mpr
    ((Inet.subnetEq_iff.mp hnm.contains).trans (Inet.subnetEq_iff.mp hmr.contains))

/-- A parent is a candidate for the best parent of its child. -/
theorem InPlace.candidate (h : InPlace t) (ht : WellFormed t) (hc : ChildIn t n m) :
    IsCandidateParent n.ipAddress none n.netblockType n.ipUniverseId n.isSingleAddress
      n.netblockId m := by
  obtain ⟨hn, hm, hchild⟩ := hc
  have hbest := (h.parent n hn).symm.trans hchild
  obtain ⟨m', hm', hid, hcand⟩ := findBestParentNetblockId_eq_some hbest
  obtain rfl := ht.pk m' hm' m hm hid
  exact hcand

theorem InPlace.liesIn (h : InPlace t) (ht : WellFormed t) (hb : Below t n m) : LiesIn n m := by
  have hstep : ∀ {n m}, ChildIn t n m → LiesIn n m := by
    intro n m hc
    obtain ⟨hsub, hnet, hτ, hu, -⟩ := h.candidate ht hc
    exact ⟨hnet, hτ, hu, hsub⟩
  induction hb with
  | single hc => exact hstep hc
  | tail _ hc ih => exact ih.trans (hstep hc)

/-- What is below a row is one of its children, or below one of them. -/
theorem Below.child (hb : Below t n m) : ∃ c, ChildIn t c m ∧ (n = c ∨ Below t n c) := by
  cases hb with
  | single hc => exact ⟨n, hc, Or.inl rfl⟩
  | tail hb hc => exact ⟨_, hc, Or.inr hb⟩

/-! ## Free rows -/

/-- The address lies in the range. -/
def NetworkRange.Holds (s : RangeTables) (nr : NetworkRange) (ip : Inet) : Prop :=
  ∃ start ∈ s.start nr, ∃ stop ∈ s.stop nr, ip.family = start.ipAddress.family ∧
    ip.family = stop.ipAddress.family ∧ start.ipAddress.addr ≤ ip.addr ∧
    ip.addr ≤ stop.ipAddress.addr

/-- The addresses that a result of the search stands for. -/
def FindFree.extent (q : FindFree) (x : Inet) : Inet :=
  if q.singleAddress = true then x.host else x

/-- The row `f` is what the caller asks for, and free below the parent `p`. -/
structure IsFree (s : RangeTables) (q : FindFree) (p : Netblock) (f : FreeNetblock) : Prop where
  netblockType : f.netblockType = p.netblockType
  ipUniverseId : f.ipUniverseId = p.ipUniverseId
  within : f.ipAddress.subnetEq p.ipAddress
  requested : q.Requests p f.ipAddress.masklen
  apart : ∀ n, Below s.netblock n p → n.netblockType = p.netblockType →
    n.ipUniverseId = p.ipUniverseId → ¬ (q.extent f.ipAddress).Overlaps n.extent
  outside : q.singleAddress = true → ∀ nr ∈ s.networkRange, nr.parentNetblockId = p.netblockId →
    ¬ nr.Holds s f.ipAddress
  ends : q.singleAddress = true → q.desiredIpAddress = none → 2 ≤ p.ipAddress.hostbits →
    f.ipAddress.addr ≠ p.ipAddress.block.first ∧ f.ipAddress.addr ≠ p.ipAddress.block.last

theorem leMasked_iff {a ip : Inet} (hf : ip.family = a.family) :
    leMasked a ip = true ↔ a.addr ≤ ip.addr := by
  rw [leMasked, Inet.setMasklen_of_le (hf ▸ a.masklen_le)]
  dsimp only
  rw [decide_eq_true_iff]
  exact Inet.le_iff_of_masklen_eq (b := ip.withMasklen a.masklen _) hf.symm rfl

theorem geMasked_iff {a ip : Inet} (hf : ip.family = a.family) :
    geMasked a ip = true ↔ ip.addr ≤ a.addr := by
  rw [geMasked, Inet.setMasklen_of_le (hf ▸ a.masklen_le)]
  dsimp only
  rw [decide_eq_true_iff]
  exact Inet.le_iff_of_masklen_eq (a := ip.withMasklen a.masklen _) hf rfl

theorem around_iff {nr : NetworkRange} {i : ℕ} :
    nr.Around s i x ↔ nr.parentNetblockId = i ∧ nr.Holds s x := by
  refine and_congr_right fun _ => exists_congr fun start => and_congr_right fun _ =>
    exists_congr fun stop => and_congr_right fun _ => and_congr_right fun hf =>
      and_congr_right fun hf' => ?_
  rw [leMasked_iff hf, geMasked_iff hf']

theorem netrangeRec_eq_none (hs : c.singleAddress = true) :
    c.netrangeRec s o x = none ↔ ∀ nr ∈ s.networkRange,
      nr.parentNetblockId = c.netblockRec.netblockId → ¬ nr.Holds s x := by
  rw [ParentSearch.netrangeRec, if_pos hs]
  constructor
  · intro h nr hnr hp hholds
    have hmem : nr ∈ s.networkRange.filter (NetworkRange.Around s c.netblockRec.netblockId x) :=
      List.mem_filter.mpr ⟨hnr, decide_eq_true (around_iff.mpr ⟨hp, hholds⟩)⟩
    rw [o.pick_none _ h] at hmem
    exact absurd hmem List.not_mem_nil
  · intro h
    cases hpick : o.pick (s.networkRange.filter
        (NetworkRange.Around s c.netblockRec.netblockId x)) with
    | none => rfl
    | some nr =>
      obtain ⟨hnr, haround⟩ := List.mem_filter.mp (o.pick_mem _ nr hpick)
      obtain ⟨hp, hholds⟩ := around_iff.mp (of_decide_eq_true haround)
      exact absurd hholds (h nr hnr hp)

/-! ## What the query misses -/

/-- **A block that no child overlaps** is apart from everything below the parent. -/
theorem apart_of_network (h : InPlace s.netblock) (ht : WellFormed s.netblock)
    (hs : c.singleAddress = false) (hfree : ¬ ∃ n ∈ s.netblock, c.Taken x n)
    (hb : Below s.netblock n c.netblockRec) (hτ : n.netblockType = c.netblockRec.netblockType)
    (hu : n.ipUniverseId = c.netblockRec.ipUniverseId) : ¬ x.Overlaps n.extent := by
  intro hover
  obtain ⟨m, hchild, hnm⟩ := hb.child
  -- the child of the parent on the way up contains the row and is of its type and universe
  have hm : n.ipAddress.cidr ≤ m.ipAddress.cidr ∧ m.netblockType = n.netblockType ∧
      m.ipUniverseId = n.ipUniverseId := by
    rcases hnm with rfl | hnm
    · exact ⟨le_rfl, rfl, rfl⟩
    · have hlies := h.liesIn ht hnm
      exact ⟨Inet.subnetEq_iff.mp hlies.contains, hlies.netblockType, hlies.ipUniverseId⟩
  obtain ⟨hle, hmτ, hmu⟩ := hm
  have hle' := (extent_le n).trans hle
  have hover' : x.Overlaps m.ipAddress := by
    obtain ⟨hf, y, hyx, hyn⟩ := hover
    exact ⟨hf.trans hle'.1, y, hyx, AlignedBlock.mem_of_le hle'.2 hyn⟩
  refine hfree ⟨m, hchild.1, hmu.trans hu, hmτ.trans hτ, hchild.2.2, ?_⟩
  rw [if_neg (by simp [hs])]
  exact Inet.overlaps_iff.mp hover'

/-- **An address that no child is equal to** is apart from everything below a parent that has only
single addresses as its children. -/
theorem apart_of_single (h : InPlace s.netblock) (ht : WellFormed s.netblock)
    (hsub : NoNetworkBelowUnsubnettable s.netblock) (hs : c.singleAddress = true)
    (hc : c.netblockRec.canSubnet = false)
    (hx : x.masklen = c.netblockRec.ipAddress.masklen)
    (hfree : ¬ ∃ n ∈ s.netblock, c.Taken x n) (hb : Below s.netblock n c.netblockRec)
    (hτ : n.netblockType = c.netblockRec.netblockType)
    (hu : n.ipUniverseId = c.netblockRec.ipUniverseId) : ¬ x.host.Overlaps n.extent := by
  have hnet := (h.liesIn ht hb).network
  obtain ⟨m, hchild, hnm⟩ := hb.child
  have hm := hsub _ hchild.2.1 hnet hc m hchild.1 hchild.2.2
  -- single addresses have no children
  obtain rfl : n = m := by
    rcases hnm with rfl | hnm
    · rfl
    · rw [(h.liesIn ht hnm).network] at hm
      exact nomatch hm
  intro hover
  rw [Netblock.extent, if_pos hm] at hover
  obtain ⟨hf, y, hyx, hyn⟩ := hover
  have hhost : ∀ {i : Inet} {y : ℕ}, y ∈ i.host.block → y = i.addr := by
    intro i y hy
    have hzero : i.host.hostbits = 0 := Nat.sub_self _
    have hdiv : y / 2 ^ i.host.hostbits = i.addr / 2 ^ i.host.hostbits := hy
    rwa [hzero, pow_zero, Nat.div_one, Nat.div_one] at hdiv
  have haddr : n.ipAddress.addr = x.addr := (hhost hyn).symm.trans (hhost hyx)
  refine hfree ⟨n, hchild.1, hu, hτ, hchild.2.2, ?_⟩
  rw [if_pos hs]
  exact Inet.eq_of_fields hf.symm haddr
    ((h.masklen n hchild.1 hm _ hchild.2.1 hchild.2.2).trans hx.symm)

/-! ## The loop -/

/-- What the function has collected. -/
structure Collected (s : RangeTables) (q : FindFree) (parents : List ℕ) (v : Search) : Prop where
  free : ∀ f ∈ v.rows, ∃ p ∈ s.netblock, p.netblockId ∈ parents ∧ IsFree s q p f
  inetList : v.inetList = v.rows.map (·.ipAddress)
  nodup : (v.rows.map (·.ipAddress)).Nodup
  matchCount : v.matchCount = v.rows.length
  atMost : (v.rows.length : ℤ) ≤ max 0 (q.maxAddresses.getD 0)

theorem Collected.of_sameRows (h : Collected s q parents v) (hv : SameRows v v') :
    Collected s q parents v' where
  free := by rw [hv.rows]; exact h.free
  inetList := by rw [hv.rows, hv.inetList]; exact h.inetList
  nodup := by rw [hv.rows]; exact h.nodup
  matchCount := by rw [hv.rows, hv.matchCount]; exact h.matchCount
  atMost := by rw [hv.rows]; exact h.atMost

/-- The addresses that the loop looks at are those with the requested mask length. -/
theorem Masks.requests_iff (hv : Masks q v) (hc : Ready q p v c) {m : ℕ} :
    q.Requests p m ↔ m = c.resultMasklen := by
  cases hs : q.singleAddress with
  | true => rw [FindFree.Requests, if_pos hs, hc.single_masklen hs]
  | false => rw [hv.requested hs p, ← (hc.network_masklen hs).1, Nat.cast_inj]

theorem isFree_current (h : InPlace s.netblock) (ht : WellFormed s.netblock)
    (hsub : q.singleAddress = true → NoNetworkBelowUnsubnettable s.netblock) (hv : Masks q v)
    (hc : Ready q p v c) (hx : c.Fits x) (hmin : c.minIp.le x) (hmax : x.lt c.maxIp)
    (hrange : c.netrangeRec s o x = none) (hfree : ¬ ∃ n ∈ s.netblock, c.Taken x n) :
    IsFree s q p ⟨x, p.netblockType, p.ipUniverseId⟩ where
  netblockType := rfl
  ipUniverseId := rfl
  within := hc.within hx hmin hmax
  requested := by
    exact (hv.requests_iff hc).mpr hx.masklen
  apart := by
    obtain rfl := hc.netblockRec
    intro n hb hτ hu
    have hcs := hc.singleAddress
    rw [FindFree.extent]
    cases hs : q.singleAddress with
    | false =>
      rw [if_neg (by decide)]
      exact apart_of_network h ht (hcs.trans hs) hfree hb hτ hu
    | true =>
      rw [if_pos rfl]
      have hsubnet := hc.subnet
      rw [hs] at hsubnet
      exact apart_of_single h ht (hsub hs) (hcs.trans hs) hsubnet
        (hx.masklen.trans (hc.single_masklen hs)) hfree hb hτ hu
  outside := by
    intro hs
    rw [← hc.netblockRec]
    exact (netrangeRec_eq_none (hc.singleAddress.trans hs)).mp hrange
  ends := by
    intro hs hd h2
    refine hc.ne_ends hx ?_ hs h2 hmin hmax
    have := hv.desired
    rw [hd] at this
    simpa using this

theorem record_currentIp (c : ParentSearch) (s : RangeTables) (k : Cursor) :
    (c.record s k).currentIp = k.currentIp ∧ (c.record s k).netmaskBits = k.netmaskBits ∧
      (c.record s k).desiredIpAddress = k.desiredIpAddress := by
  rw [ParentSearch.record]
  split
  · exact ⟨rfl, rfl, rfl⟩
  · split <;> exact ⟨rfl, rfl, rfl⟩

/-- In a search for single addresses the bounds have the mask of the addresses themselves. -/
theorem Ready.bounds_fit (hc : Ready q p v c) (hs : q.singleAddress = true) :
    c.Fits c.minIp ∧ c.Fits c.maxIp := by
  have hm := hc.single_masklen hs
  cases hd : v.desiredIpAddress with
  | none =>
    have hspan := hc.parent hd
    rw [← hc.netblockRec] at hspan hm
    exact ⟨⟨hspan.minFamily, hspan.minMasklen.trans hm.symm⟩,
      ⟨hspan.maxFamily, hspan.maxMasklen.trans hm.symm⟩⟩
  | some d =>
    obtain ⟨hspan, hsub, hdm⟩ := hc.desired d hd
    have hf := hsub.1
    rw [← hc.netblockRec] at hf
    exact ⟨⟨hspan.minFamily.trans hf, hspan.minMasklen.trans hdm⟩,
      ⟨hspan.maxFamily.trans hf, hspan.maxMasklen.trans hdm⟩⟩

theorem Ready.randomIp_fits (hc : Ready q p v c) (hs : q.singleAddress = true) {n : ℕ}
    (h : c.randomIp o n = .ok x) : c.Fits x := by
  obtain ⟨hf, hm⟩ := randomIp_ok h
  have hmin := (hc.bounds_fit hs).1
  exact ⟨hf.trans hmin.family, hm.trans hmin.masklen⟩

theorem Ready.next_fits (hc : Ready q p v c) (hk : c.Fits k.currentIp) {n : ℕ}
    (h : c.next o k = .ok (x, n)) : c.Fits x := by
  rw [ParentSearch.next] at h
  split at h
  · next hs =>
    split at h
    · obtain ⟨y, hadd, h⟩ := bind_eq_ok.mp h
      obtain ⟨rfl, -⟩ := Prod.mk.inj (Except.ok.inj h)
      obtain ⟨hf, hm, -⟩ := Inet.add_eq_ok.mp hadd
      exact ⟨hf.trans hk.family, hm.trans hk.masklen⟩
    · obtain ⟨y, hsub, h⟩ := bind_eq_ok.mp h
      obtain ⟨rfl, -⟩ := Prod.mk.inj (Except.ok.inj h)
      obtain ⟨hf, hm, -⟩ := Inet.sub_eq_ok.mp hsub
      exact ⟨hf.trans hk.family, hm.trans hk.masklen⟩
    · obtain ⟨y, hrandom, h⟩ := bind_eq_ok.mp h
      obtain ⟨rfl, -⟩ := Prod.mk.inj (Except.ok.inj h)
      exact hc.randomIp_fits (hc.singleAddress.symm.trans hs) hrandom
  · split at h
    · obtain ⟨y, hadd, h⟩ := bind_eq_ok.mp h
      obtain ⟨rfl, -⟩ := Prod.mk.inj (Except.ok.inj h)
      obtain ⟨hf, hm, -⟩ := Inet.add_eq_ok.mp hadd
      exact ⟨hf.trans hk.family, hm.trans hk.masklen⟩
    · obtain ⟨y, hsub, h⟩ := bind_eq_ok.mp h
      obtain ⟨rfl, -⟩ := Prod.mk.inj (Except.ok.inj h)
      obtain ⟨hf, hm, -⟩ := Inet.sub_eq_ok.mp hsub
      exact ⟨hf.trans hk.family, hm.trans hk.masklen⟩

theorem netrangeRec_eq_some {nr : NetworkRange} (h : c.netrangeRec s o x = some nr) :
    c.singleAddress = true ∧ nr ∈ s.networkRange ∧
      nr.parentNetblockId = c.netblockRec.netblockId ∧ nr.Holds s x := by
  rw [ParentSearch.netrangeRec] at h
  split at h
  · next hs =>
    obtain ⟨hnr, haround⟩ := List.mem_filter.mp (o.pick_mem _ nr h)
    exact ⟨hs, hnr, around_iff.mp (of_decide_eq_true haround)⟩
  · exact nomatch h

theorem Ready.jump_fits {nr : NetworkRange} (hc : Ready q p v c) (hk : c.Fits k.currentIp)
    (hnr : c.netrangeRec s o k.currentIp = some nr) {n : ℕ} {y : Inet}
    (h : c.jump s o nr k = .ok (y, n)) (hx : y.setMasklen c.maxIp.masklen = .ok x) :
    c.Fits x := by
  obtain ⟨hs, -, -, start, hstart, stop, hstop, hf, hf', -⟩ := netrangeRec_eq_some hnr
  have hs := hc.singleAddress.symm.trans hs
  obtain ⟨hxf, -, hxm⟩ := Inet.setMasklen_eq_ok hx
  refine ⟨hxf.trans ?_, ?_⟩
  · rw [ParentSearch.jump, Option.mem_def.mp hstart, Option.mem_def.mp hstop] at h
    cases hmethod : c.allocationMethod with
    | bottom =>
      rw [hmethod] at h
      obtain ⟨z, hadd, h⟩ := bind_eq_ok.mp h
      obtain ⟨rfl, -⟩ := Prod.mk.inj (Except.ok.inj h)
      exact (Inet.add_eq_ok.mp hadd).1.trans (hf'.symm.trans hk.family)
    | top =>
      rw [hmethod] at h
      obtain ⟨z, hsub, h⟩ := bind_eq_ok.mp h
      obtain ⟨rfl, -⟩ := Prod.mk.inj (Except.ok.inj h)
      exact (Inet.sub_eq_ok.mp hsub).1.trans (hf.symm.trans hk.family)
    | random =>
      rw [hmethod] at h
      obtain ⟨z, hrandom, h⟩ := bind_eq_ok.mp h
      obtain ⟨rfl, -⟩ := Prod.mk.inj (Except.ok.inj h)
      exact (hc.randomIp_fits hs hrandom).family
  · have := hxm (by omega)
    have := (hc.bounds_fit hs).2.masklen
    omega

theorem searchPass_done (h : c.searchPass s o k = .ok (.done k')) : k' = k ∧ ¬ c.Going k := by
  rw [ParentSearch.searchPass] at h
  split at h
  · split at h
    · obtain ⟨a, -, h⟩ := bind_eq_ok.mp h
      obtain ⟨b, -, h⟩ := bind_eq_ok.mp h
      exact nomatch h
    · obtain ⟨a, -, h⟩ := bind_eq_ok.mp h
      exact nomatch h
  · next hgoing => exact ⟨(ForInStep.done.inj (Except.ok.inj h)).symm, hgoing⟩

theorem next_record : c.next o (c.record s k) = c.next o k := by
  have h : (c.record s k).currentIp = k.currentIp ∧ (c.record s k).drawn = k.drawn := by
    rw [ParentSearch.record]
    split
    · exact ⟨rfl, rfl⟩
    · split <;> exact ⟨rfl, rfl⟩
  rw [ParentSearch.next, ParentSearch.next, h.1, h.2]

/-- **A pass that goes on** jumps over a network range, or records the address and takes the next. -/
theorem searchPass_yield (h : c.searchPass s o k = .ok (.yield k')) : c.Going k ∧
    ((∃ nr y x n, c.netrangeRec s o k.currentIp = some nr ∧ c.jump s o nr k = .ok (y, n) ∧
        y.setMasklen c.maxIp.masklen = .ok x ∧ k' = { k with currentIp := x, drawn := n }) ∨
      ∃ x n, c.netrangeRec s o k.currentIp = none ∧ c.next o k = .ok (x, n) ∧
        k' = { c.record s k with currentIp := x, drawn := n }) := by
  rw [ParentSearch.searchPass] at h
  split at h
  · next hgoing =>
    refine ⟨hgoing, ?_⟩
    split at h
    · next nr hnr =>
      obtain ⟨⟨y, n⟩, hjump, h⟩ := bind_eq_ok.mp h
      obtain ⟨x, hx, h⟩ := bind_eq_ok.mp h
      exact .inl ⟨nr, y, x, n, hnr, hjump, hx, (ForInStep.yield.inj (Except.ok.inj h)).symm⟩
    · next hnr =>
      obtain ⟨⟨x, n⟩, hnext, h⟩ := bind_eq_ok.mp h
      rw [next_record] at hnext
      exact .inr ⟨x, n, hnr, hnext, (ForInStep.yield.inj (Except.ok.inj h)).symm⟩
  · exact nomatch h

/-- What holds in every pass of the loop. -/
structure Looping (s : RangeTables) (q : FindFree) (parents : List ℕ) (v : Search)
    (c : ParentSearch) (k : Cursor) : Prop where
  collected : Collected s q parents k.toSearch
  fits : c.Fits k.currentIp
  netmaskBits : k.netmaskBits = v.netmaskBits
  desired : k.desiredIpAddress = v.desiredIpAddress

/-- **One address**: recording it keeps what holds of the collected rows. -/
theorem Collected.record (hk : Collected s q parents k.toSearch) (hc : Ready q p v c)
    (hfree : (¬ ∃ n ∈ s.netblock, c.Taken k.currentIp n) →
      ∃ p' ∈ s.netblock, p'.netblockId ∈ parents ∧
        IsFree s q p' ⟨k.currentIp, p.netblockType, p.ipUniverseId⟩)
    (hcount : ∃ m ∈ c.maxAddresses, k.matchCount < m) :
    Collected s q parents (c.record s k).toSearch := by
  rw [ParentSearch.record]
  split
  · next hnew =>
    obtain ⟨hnew, hnotin⟩ := hnew
    rw [hk.inetList] at hnotin
    refine ⟨fun f hf => ?_, ?_, ?_, ?_, ?_⟩
    · rcases List.mem_append.mp hf with hf | hf
      · exact hk.free f hf
      · obtain rfl := List.mem_singleton.mp hf
        rw [hc.netblockRec]
        exact hfree hnew
    · show k.inetList ++ [k.currentIp] = (k.rows ++ [_]).map _
      rw [List.map_append, hk.inetList]
      rfl
    · show ((k.rows ++ [_]).map _).Nodup
      rw [List.map_append, List.nodup_append']
      exact ⟨hk.nodup, List.nodup_singleton _, List.disjoint_singleton.mpr hnotin⟩
    · show k.matchCount + 1 = ((k.rows ++ [_]).length : ℤ)
      rw [hk.matchCount, List.length_append]
      rfl
    · show ((k.rows ++ [_]).length : ℤ) ≤ _
      obtain ⟨m, hm, hlt⟩ := hcount
      rw [hc.maxAddresses] at hm
      rw [hk.matchCount] at hlt
      rw [Option.mem_def.mp hm, List.length_append, List.length_singleton, Option.getD_some]
      omega
  · split
    · exact ⟨hk.free, hk.inetList, hk.nodup, hk.matchCount, hk.atMost⟩
    · exact hk

section

variable (h : InPlace s.netblock) (ht : WellFormed s.netblock)
  (hsub : q.singleAddress = true → NoNetworkBelowUnsubnettable s.netblock)
include h ht hsub

theorem Looping.pass (hp : p ∈ s.netblock) (hparents : p.netblockId ∈ parents) (hv : Masks q v)
    (hc : Ready q p v c) (hk : Looping s q parents v c k)
    (hpass : c.searchPass s o k = .ok (.yield k')) : Looping s q parents v c k' := by
  obtain ⟨⟨hmin, hmax, hcount, -⟩, hcases⟩ := searchPass_yield hpass
  obtain ⟨nr, y, x, n, hnr, hjump, hx, rfl⟩ | ⟨x, n, hnr, hnext, rfl⟩ := hcases
  · have hk' := hk.collected
    exact ⟨⟨hk'.free, hk'.inetList, hk'.nodup, hk'.matchCount, hk'.atMost⟩,
      hc.jump_fits hk.fits hnr hjump hx, hk.netmaskBits, hk.desired⟩
  · obtain ⟨-, hbits, hdesired⟩ := record_currentIp c s k
    have hk' := hk.collected.record hc (fun hfree => ⟨p, hp, hparents,
      isFree_current h ht hsub hv hc hk.fits hmin hmax hnr hfree⟩) hcount
    exact ⟨⟨hk'.free, hk'.inetList, hk'.nodup, hk'.matchCount, hk'.atMost⟩,
      hc.next_fits hk.fits hnext, hbits.trans hk.netmaskBits, hdesired.trans hk.desired⟩

/-! ## The parents, one after the other -/

theorem searchParent_returns {i : ℕ} (hi : i ∈ parents) (hv : Masks q v)
    (hcol : Collected s q parents v) (hr : Returns (searchParent s o q passes v i) v') :
    Masks q v' ∧ Collected s q parents v' := by
  rw [searchParent] at hr
  split at hr
  · exact absurd (returns_ended.mp hr) raise_ne_ok
  · next p hfind =>
    obtain ⟨hp, rfl⟩ := findNetblock_eq_some hfind
    obtain ⟨⟨v₁, r⟩, hprepare, hr⟩ := returns_bind.mp hr
    obtain ⟨hsame, hv₁, hprepared⟩ := prepare_ok hv (returns_ended.mp hprepare)
    have hcol₁ := hcol.of_sameRows hsame
    cases r with
    | none =>
      obtain rfl := returns_pure.mp hr
      exact ⟨hv₁, hcol₁⟩
    | some c =>
      obtain ⟨⟨c', k⟩, hstart, hr⟩ := returns_bind.mp hr
      obtain ⟨hready, hbegins, -, hk⟩ := start_ok hv₁ (hprepared c rfl) (returns_ended.mp hstart)
      obtain ⟨k', hloop, hr⟩ := returns_bind.mp hr
      obtain rfl := returns_pure.mp hr
      have h0 : Looping s q parents v₁ c' k := by
        refine ⟨?_, hbegins.toFits, ?_, ?_⟩
        · rw [hk]
          exact ⟨hcol₁.free, hcol₁.inetList, hcol₁.nodup, hcol₁.matchCount, hcol₁.atMost⟩
        · rw [hk]
        · rw [hk]
      have hend : Looping s q parents v₁ c' k' := by
        refine loop_returns (fun k₁ k₂ hk₁ hpass => ?_) (fun k₁ k₂ hk₁ hpass => ?_) h0 hloop
        · exact hk₁.pass h ht hsub hp hi hv₁ hready hpass
        · rw [(searchPass_done hpass).1]
          exact hk₁
      refine ⟨⟨?_, hv₁.method, ?_, ?_⟩, hend.collected⟩
      · rw [hend.desired]
        exact hv₁.desired
      · rw [hend.netmaskBits]
        exact hv₁.requested
      · rw [hend.netmaskBits, hend.desired]
        exact hv₁.desiredMask

theorem searchParents_returns {l : List ℕ} (hl : ∀ i ∈ l, i ∈ parents) (hv : Masks q v)
    (hcol : Collected s q parents v) (hr : Returns (searchParents s o q passes v l) v') :
    Collected s q parents v' := by
  induction l generalizing v with
  | nil =>
    obtain rfl := returns_pure.mp hr
    exact hcol
  | cons i l ih =>
    obtain ⟨v₁, h₁, hr⟩ := returns_bind.mp hr
    obtain ⟨hv₁, hcol₁⟩ :=
      searchParent_returns h ht hsub (hl i List.mem_cons_self) hv hcol h₁
    exact ih (fun j hj => hl j (List.mem_cons_of_mem _ hj)) hv₁ hcol₁ hr

end

/-- **The search returns only what is free**, for whatever arguments and outcomes of `random()`. -/
theorem findFreeNetblocks_sound {rows : List FreeNetblock} (ht : WellFormed s.netblock)
    (h : InPlace s.netblock)
    (hsub : q.singleAddress = true → NoNetworkBelowUnsubnettable s.netblock)
    (hr : Returns (findFreeNetblocks s o q passes parents) rows) :
    (∀ f ∈ rows, ∃ p ∈ s.netblock, p.netblockId ∈ parents ∧ IsFree s q p f) ∧
      (rows.map (·.ipAddress)).Nodup ∧ (rows.length : ℤ) ≤ max 0 (q.maxAddresses.getD 0) := by
  obtain ⟨⟨bits, desired⟩, hsanitize, hr⟩ := returns_bind.mp hr
  obtain ⟨v, hsearch, hr⟩ := returns_bind.mp hr
  obtain rfl := returns_pure.mp hr
  have hv : Masks q { netmaskBits := bits, desiredIpAddress := desired } :=
    .of_sanitize (returns_ended.mp hsanitize) rfl rfl
  have h0 : Collected s q parents { netmaskBits := bits, desiredIpAddress := desired } :=
    ⟨fun f hf => absurd hf List.not_mem_nil, rfl, List.nodup_nil, rfl, le_max_left _ _⟩
  have hend := searchParents_returns h ht hsub (fun _ hi => hi) hv h0 hsearch
  exact ⟨hend.free, hend.nodup, hend.atMost⟩

instance (t : List Netblock) : Decidable (InPlace t) :=
  decidable_of_iff _ (inPlace_iff t).symm

/-- A network of eight addresses with three single addresses, two of them the ends of a range. -/
def eightAddresses : RangeTables where
  netblock := [⟨1, .v4 10 0 0 0 24, "default", false, true, none, 0⟩,
    ⟨2, .v4 10 0 0 8 29, "default", false, false, some 1, 0⟩,
    ⟨3, .v4 10 0 0 9 29, "default", true, false, some 2, 0⟩,
    ⟨4, .v4 10 0 0 11 29, "default", true, false, some 2, 0⟩,
    ⟨5, .v4 10 0 0 12 29, "default", true, false, some 2, 0⟩]
  networkRange := [⟨1, "dhcp", 2, 4, 5⟩]
  valNetworkRangeType := []

/-- The search of the network of eight addresses returns the three that are free. -/
theorem findFreeNetblocks_sound_eightAddresses :
    (∀ f ∈ [⟨.v4 10 0 0 10 29, "default", 0⟩, ⟨.v4 10 0 0 13 29, "default", 0⟩,
      (⟨.v4 10 0 0 14 29, "default", 0⟩ : FreeNetblock)], ∃ p ∈ eightAddresses.netblock,
        p.netblockId ∈ [2] ∧ IsFree eightAddresses { singleAddress := true } p f) ∧
      ([⟨.v4 10 0 0 10 29, "default", 0⟩, ⟨.v4 10 0 0 13 29, "default", 0⟩,
        (⟨.v4 10 0 0 14 29, "default", 0⟩ : FreeNetblock)].map (·.ipAddress)).Nodup ∧
      (3 : ℤ) ≤ max 0 1024 :=
  have hrun : Returns (findFreeNetblocks eightAddresses .first { singleAddress := true } 8 [2])
      [⟨.v4 10 0 0 10 29, "default", 0⟩, ⟨.v4 10 0 0 13 29, "default", 0⟩,
        ⟨.v4 10 0 0 14 29, "default", 0⟩] := by decide
  findFreeNetblocks_sound (by decide) (by decide) (fun _ => by decide) hrun

/-- The rows of a network without subnets that has a network as its child. -/
def networkBelow : RangeTables where
  netblock := [⟨1, .v4 10 0 0 8 29, "default", false, false, none, 0⟩,
    ⟨2, .v4 10 0 0 8 30, "default", false, false, some 1, 0⟩]
  networkRange := []
  valNetworkRangeType := []

/-- **A network below one that is not subnettable**: the search for a single address returns
10.0.0.9, which lies in the network below. -/
theorem networkBelow_taken : WellFormed networkBelow.netblock ∧ InPlace networkBelow.netblock ∧
    Returns (findFreeNetblocks networkBelow .first
      { singleAddress := true, maxAddresses := some 1 } 8 [1]) [⟨.v4 10 0 0 9 29, "default", 0⟩] ∧
    Below networkBelow.netblock ⟨2, .v4 10 0 0 8 30, "default", false, false, some 1, 0⟩
      ⟨1, .v4 10 0 0 8 29, "default", false, false, none, 0⟩ ∧
    (FindFree.extent { singleAddress := true } (.v4 10 0 0 9 29)).Overlaps
      (Netblock.extent ⟨2, .v4 10 0 0 8 30, "default", false, false, some 1, 0⟩) := by
  refine ⟨by decide, by decide, by decide, .single ⟨by decide, by decide, by decide⟩, ?_⟩
  exact Inet.overlaps_iff.mpr (Or.inl (by decide))

end JazzHands

import JazzHands.Allocation.FindFreeNetblocks

/-!
# What the search has settled before it loops over the addresses of a parent

`Checked` says that a parent has passed the tests, `Prepared` adds the bounds of the parent, and
`Ready` has them without the ends that the search leaves out.  The modules on the loop speak of
`Ready` and of where the loop begins (`start_ok`).
-/

namespace JazzHands

open Library Postgres

variable {q : FindFree} {p : Netblock} {v v' : Search} {c c' : ParentSearch} {k : Cursor}
variable {o : Outcomes} {m : ℕ} {x : Inet}

namespace FindFree

/-- `m` is the mask length that the caller asks for: that of the parent for a single address, and
otherwise `netmask_bits` or, without it, that of the desired address. -/
def Requests (q : FindFree) (p : Netblock) (m : ℕ) : Prop :=
  if q.singleAddress = true then m = p.ipAddress.masklen
  else match q.netmaskBits with
    | some bits => (m : ℤ) = bits
    | none => ∃ desired ∈ q.desiredIpAddress, m = desired.masklen

end FindFree

/-! ## Masks -/

/-- The masks that the search carries along are those of the request. -/
structure Masks (q : FindFree) (v : Search) : Prop where
  desired : v.desiredIpAddress.isSome = q.desiredIpAddress.isSome
  method : q.singleAddress = false → q.allocationMethod ≠ some "random"
  requested : q.singleAddress = false → ∀ p, ∀ m : ℕ, q.Requests p m ↔ m = v.netmaskBits
  desiredMask : q.singleAddress = false → 0 ≤ v.netmaskBits →
    ∀ d ∈ v.desiredIpAddress, (d.masklen : ℤ) = v.netmaskBits

theorem Masks.of_sanitize {bits : ℤ} {desired : Option Inet}
    (h : q.sanitize = .ok (bits, desired)) (hb : v.netmaskBits = bits)
    (hd : v.desiredIpAddress = desired) : Masks q v := by
  simp only [FindFree.sanitize, bind_unit_eq_ok] at h
  obtain ⟨-, h⟩ := h
  split at h
  · next hs =>
    obtain ⟨rfl, rfl⟩ := Prod.mk.inj (Except.ok.inj h)
    have hne : q.singleAddress ≠ false := by simp [hs]
    exact ⟨by rw [hd], fun h => absurd h hne, fun h => absurd h hne, fun h => absurd h hne⟩
  · next hs =>
    have hs : q.singleAddress = false := by simpa using hs
    obtain ⟨masks, h₁, h⟩ := bind_eq_ok.mp h
    simp only [bind_unit_eq_ok, raiseIf_eq_ok, Except.ok.injEq] at h
    obtain ⟨hrandom, rfl⟩ := h
    rw [FindFree.networkMasks] at h₁
    split at h₁
    · next d hqd hqb =>
      obtain ⟨rfl, rfl⟩ := Prod.mk.inj (Except.ok.inj h₁)
      refine ⟨by rw [hd, hqd], fun _ => hrandom, fun _ p m => ?_, fun _ _ d' hd' => ?_⟩
      · simp only [FindFree.Requests, hs, hqb, hqd, Bool.false_eq_true, if_false,
          Option.mem_some_iff, exists_eq_left', hb, Nat.cast_inj]
      · rw [hd] at hd'
        obtain rfl := Option.mem_some_iff.mp hd'
        exact hb.symm
    · next d b hqd hqb =>
      obtain ⟨d', hset, h₁⟩ := bind_eq_ok.mp h₁
      obtain ⟨rfl, rfl⟩ := Prod.mk.inj (Except.ok.inj h₁)
      refine ⟨by rw [hd, hqd]; rfl, fun _ => hrandom, fun _ p m => ?_, fun _ h0 d'' hd' => ?_⟩
      · simp only [FindFree.Requests, hs, hqb, Bool.false_eq_true, if_false, hb]
      · rw [hd] at hd'
        obtain rfl := Option.mem_some_iff.mp hd'
        rw [hb] at h0 ⊢
        exact (Inet.setMasklen_eq_ok hset).2.2 h0
    · next b hqd hqb =>
      obtain ⟨rfl, rfl⟩ := Prod.mk.inj (Except.ok.inj h₁)
      refine ⟨by rw [hd, hqd], fun _ => hrandom, fun _ p m => ?_, fun _ _ d hd' => ?_⟩
      · simp only [FindFree.Requests, hs, hqb, Bool.false_eq_true, if_false, hb]
      · rw [hd] at hd'
        exact absurd hd' (Option.not_mem_none d)
    · exact absurd h₁ raise_ne_ok

/-! ## The checks of a parent -/

/-- Nothing has been collected between `v` and `v'`. -/
structure SameRows (v v' : Search) : Prop where
  rows : v'.rows = v.rows
  inetList : v'.inetList = v.inetList
  matchCount : v'.matchCount = v.matchCount

theorem SameRows.refl (v : Search) : SameRows v v := ⟨rfl, rfl, rfl⟩

/-- The parent `p` has passed the checks, with the masks in `v`. -/
structure Checked (q : FindFree) (p : Netblock) (v : Search) (c : ParentSearch) : Prop where
  netblockRec : c.netblockRec = p
  singleAddress : c.singleAddress = q.singleAddress
  subnet : p.canSubnet = !q.singleAddress
  maxAddresses : c.maxAddresses = q.maxAddresses
  rndMaxCount : c.rndMaxCount = q.rndMaxCount
  method : c.allocationMethod = q.methodFor v.desiredIpAddress.isSome p
  netmaskBits : c.netmaskBits = v.netmaskBits
  le_bits : v.netmaskBits ≤ p.ipAddress.family.bits
  bits : q.singleAddress = true → v.netmaskBits = p.ipAddress.family.bits
  smaller : q.singleAddress = false → p.ipAddress.masklen < v.netmaskBits

/-- The bounds are those from before the first and last address are left out. -/
structure Prepared (q : FindFree) (p : Netblock) (v : Search) (c : ParentSearch) : Prop extends
    Checked q p v c where
  bounds : FindFree.bounds v.desiredIpAddress p = .ok (c.minIp, c.maxIp)
  desired : ∀ d ∈ v.desiredIpAddress, d.subnetEq p.ipAddress ∧
    (q.singleAddress = true → d.masklen = p.ipAddress.masklen)

theorem checkParent_ok {method : AllocationMethod} {o : Option ParentSearch}
    (h : q.checkParent v p method = .ok (v', o)) : v' = v ∧ ∀ c ∈ o,
      v.netmaskBits ≤ p.ipAddress.family.bits ∧ p.canSubnet = (!q.singleAddress) ∧
      (∀ d ∈ v.desiredIpAddress, d.subnetEq p.ipAddress) ∧ ∃ minIp maxIp,
        FindFree.bounds v.desiredIpAddress p = .ok (minIp, maxIp) ∧
        c = ⟨p, q.singleAddress, method, v.netmaskBits, minIp, maxIp, q.maxAddresses,
          q.rndMaxCount⟩ := by
  simp only [FindFree.checkParent, bind_unit_eq_ok, raiseIf_eq_ok] at h
  obtain ⟨hbits, h⟩ := h
  split at h
  · obtain ⟨rfl, rfl⟩ := Prod.mk.inj (Except.ok.inj h)
    exact ⟨rfl, fun c hc => absurd hc (Option.not_mem_none c)⟩
  · next hdesired =>
    obtain ⟨hsingle, h⟩ := bind_unit_eq_ok.mp h
    obtain ⟨hnetwork, h⟩ := bind_unit_eq_ok.mp h
    obtain ⟨⟨minIp, maxIp⟩, hbounds, h⟩ := bind_eq_ok.mp h
    rw [raiseIf_eq_ok] at hsingle hnetwork
    obtain ⟨rfl, rfl⟩ := Prod.mk.inj (Except.ok.inj h)
    refine ⟨rfl, fun c hc => ?_⟩
    obtain rfl := Option.mem_some_iff.mp hc
    refine ⟨not_lt.mp hbits, ?_, fun d hd => ?_, minIp, maxIp, hbounds, rfl⟩
    · cases hs : q.singleAddress <;> simp_all
    · exact not_not.mp fun hn => hdesired ⟨d, hd, hn⟩

theorem singleMasks_ok (h : FindFree.singleMasks v p = .ok v') :
    SameRows v v' ∧ v'.desiredIpAddress.isSome = v.desiredIpAddress.isSome ∧
      v'.netmaskBits = p.ipAddress.family.bits ∧
      ∀ d ∈ v'.desiredIpAddress, d.masklen = p.ipAddress.masklen := by
  rw [FindFree.singleMasks] at h
  cases hd : v.desiredIpAddress with
  | none =>
    rw [hd] at h
    obtain rfl := Except.ok.inj h
    exact ⟨⟨rfl, rfl, rfl⟩, rfl, rfl, fun d hd' => nomatch hd'⟩
  | some desired =>
    rw [hd] at h
    obtain ⟨d', hset, h⟩ := bind_eq_ok.mp h
    obtain rfl := Except.ok.inj h
    refine ⟨⟨rfl, rfl, rfl⟩, rfl, rfl, fun d hd' => ?_⟩
    obtain rfl := Option.mem_some_iff.mp hd'
    have := (Inet.setMasklen_eq_ok hset).2.2 (by omega)
    omega

theorem prepare_ok {o : Option ParentSearch} (hv : Masks q v)
    (h : q.prepare v p = .ok (v', o)) :
    SameRows v v' ∧ Masks q v' ∧ ∀ c ∈ o, Prepared q p v' c := by
  rw [FindFree.prepare] at h
  split at h
  · obtain ⟨rfl, rfl⟩ := Prod.mk.inj (Except.ok.inj h)
    exact ⟨.refl v, hv, fun c hc => nomatch hc⟩
  dsimp only at h
  split at h
  · next hs =>
    have hne : q.singleAddress ≠ false := by simp [hs]
    obtain ⟨v₁, hmasks, h⟩ := bind_eq_ok.mp h
    obtain ⟨rfl, hc⟩ := checkParent_ok h
    obtain ⟨hrows, hdesired, hbits, hmask⟩ := singleMasks_ok hmasks
    refine ⟨hrows, ⟨hdesired.trans hv.desired, fun h => absurd h hne, fun h => absurd h hne,
      fun h => absurd h hne⟩, fun c hmem => ?_⟩
    obtain ⟨hle, hsubnet, hwithin, minIp, maxIp, hbounds, rfl⟩ := hc c hmem
    exact ⟨⟨rfl, rfl, hsubnet, rfl, rfl, by rw [hdesired], rfl, hle, fun _ => hbits,
      fun h => absurd h hne⟩, hbounds, fun d hd => ⟨hwithin d hd, fun _ => hmask d hd⟩⟩
  · next hs =>
    split at h
    · obtain ⟨rfl, rfl⟩ := Prod.mk.inj (Except.ok.inj h)
      exact ⟨.refl v, hv, fun c hc => nomatch hc⟩
    · next hsmaller =>
      obtain ⟨rfl, hc⟩ := checkParent_ok h
      refine ⟨.refl _, hv, fun c hmem => ?_⟩
      obtain ⟨hle, hsubnet, hwithin, minIp, maxIp, hbounds, rfl⟩ := hc c hmem
      exact ⟨⟨rfl, rfl, hsubnet, rfl, rfl, rfl, rfl, hle, fun h => absurd h hs,
        fun _ => not_le.mp hsmaller⟩, hbounds, fun d hd => ⟨hwithin d hd, fun h => absurd h hs⟩⟩

/-! ## The bounds of the loop -/

/-- The mask length of the addresses that the loop looks at. -/
def ParentSearch.resultMasklen (c : ParentSearch) : ℕ :=
  if c.singleAddress = true then c.netblockRec.ipAddress.masklen else c.netmaskBits.toNat

/-- How many addresses the search leaves out at either end of a parent, when none is desired. -/
def FindFree.margin (q : FindFree) (p : Netblock) : ℕ :=
  if q.singleAddress = true ∧ 2 ≤ p.ipAddress.hostbits then 1 else 0

/-- The bounds have the family and mask of `ip`, and the addresses `lo` and `hi`. -/
structure ParentSearch.Spans (c : ParentSearch) (ip : Inet) (lo hi : ℕ) : Prop where
  minFamily : c.minIp.family = ip.family
  maxFamily : c.maxIp.family = ip.family
  minMasklen : c.minIp.masklen = ip.masklen
  maxMasklen : c.maxIp.masklen = ip.masklen
  minAddr : c.minIp.addr = lo
  maxAddr : c.maxIp.addr = hi

/-- The bounds of the loop for the parent `p`. -/
structure Ready (q : FindFree) (p : Netblock) (v : Search) (c : ParentSearch) : Prop extends
    Checked q p v c where
  parent : v.desiredIpAddress = none → c.Spans p.ipAddress (p.ipAddress.addr + q.margin p)
    (p.ipAddress.block.last + 1 - q.margin p)
  desired : ∀ d ∈ v.desiredIpAddress, c.Spans d d.addr (d.addr + 1) ∧
    d.subnetEq p.ipAddress ∧ d.masklen = c.resultMasklen

/-- The address has the family and mask of the addresses that the loop looks at. -/
structure ParentSearch.Fits (c : ParentSearch) (x : Inet) : Prop where
  family : x.family = c.netblockRec.ipAddress.family
  masklen : x.masklen = c.resultMasklen

theorem methodFor_desired : q.methodFor true p = .bottom := by
  simp [FindFree.methodFor]

theorem methodFor_random {b : Bool} (h : q.methodFor b p = .random) : b = false ∧
    2 ≤ p.ipAddress.hostbits ∧ (q.singleAddress = true ∨ q.allocationMethod = some "random") := by
  cases b with
  | true =>
    rw [methodFor_desired] at h
    exact nomatch h
  | false =>
    simp only [FindFree.methodFor, Bool.false_eq_true, if_false] at h
    have hfits : ∀ m : AllocationMethod,
        (if m = .random ∧ p.ipAddress.hostbits < 2 then .bottom else m) = .random →
          m = .random ∧ 2 ≤ p.ipAddress.hostbits := by
      intro m hm
      split_ifs at hm with hsize
      exact ⟨hm, Nat.le_of_not_lt fun hlt => hsize ⟨hm, hlt⟩⟩
    obtain ⟨hm, hbits⟩ := hfits _ h
    refine ⟨rfl, hbits, ?_⟩
    split_ifs at hm with htop hbottom hrandom hsingle
    · exact Or.inr hrandom
    · exact Or.inl hsingle.1

theorem Prepared.spans (hc : Prepared q p v c) :
    (v.desiredIpAddress = none →
      c.Spans p.ipAddress p.ipAddress.addr (p.ipAddress.block.last + 1)) ∧
    ∀ d ∈ v.desiredIpAddress, c.Spans d d.addr (d.addr + 1) := by
  have h := hc.bounds
  cases hd : v.desiredIpAddress with
  | none =>
    rw [hd] at h
    dsimp only [FindFree.bounds] at h
    obtain ⟨maxIp, hadd, h⟩ := bind_eq_ok.mp h
    obtain ⟨hmin, rfl⟩ := Prod.mk.inj (Except.ok.inj h)
    obtain ⟨hf, hm, haddr⟩ := Inet.add_eq_ok.mp hadd
    refine ⟨fun _ => ⟨by rw [← hmin], hf, by rw [← hmin], hm, by rw [← hmin], ?_⟩,
      fun d hd' => nomatch hd'⟩
    have : p.ipAddress.broadcast.addr = p.ipAddress.block.last := rfl
    omega
  | some d =>
    rw [hd] at h
    dsimp only [FindFree.bounds] at h
    obtain ⟨maxIp, hadd, h⟩ := bind_eq_ok.mp h
    obtain ⟨hmin, rfl⟩ := Prod.mk.inj (Except.ok.inj h)
    obtain ⟨hf, hm, haddr⟩ := Inet.add_eq_ok.mp hadd
    refine ⟨fun hn => (nomatch hn), fun d' hd' => ?_⟩
    obtain rfl := Option.mem_some_iff.mp hd'
    exact ⟨by rw [← hmin], hf, by rw [← hmin], hm, by rw [← hmin], by omega⟩

theorem Prepared.family (hc : Prepared q p v c) :
    c.minIp.family = p.ipAddress.family ∧ c.maxIp.family = p.ipAddress.family := by
  obtain ⟨hparent, hdesired⟩ := hc.spans
  cases hd : v.desiredIpAddress with
  | none => exact ⟨(hparent hd).minFamily, (hparent hd).maxFamily⟩
  | some d =>
    have hf := (hc.desired d hd).1.1
    exact ⟨(hdesired d hd).minFamily.trans hf, (hdesired d hd).maxFamily.trans hf⟩

theorem Checked.natCast_netmaskBits (hc : Checked q p v c) : (c.netmaskBits.toNat : ℤ) =
    c.netmaskBits := by
  refine Int.toNat_of_nonneg ?_
  rw [hc.netmaskBits]
  cases hs : q.singleAddress with
  | true =>
    have := hc.bits hs
    omega
  | false =>
    have := hc.smaller hs
    omega

theorem randomIp_ok {n : ℕ} (h : c.randomIp o n = .ok x) :
    x.family = c.minIp.family ∧ x.masklen = c.minIp.masklen := by
  simp only [ParentSearch.randomIp, bind_unit_eq_ok] at h
  obtain ⟨hf, hm, -⟩ := Inet.add_eq_ok.mp h.2
  exact ⟨hf, hm⟩

/-- The height of the blocks that the loop steps over; single addresses have height `0`. -/
def ParentSearch.height (c : ParentSearch) : ℕ :=
  c.netblockRec.ipAddress.family.bits - c.netmaskBits.toNat

theorem firstIp_ok {n n' : ℕ} (hv : Masks q v) (hc : Prepared q p v c)
    (h : c.firstIp o n = .ok (x, n')) :
    x.family = p.ipAddress.family ∧
      (q.singleAddress = false → x.masklen = c.netmaskBits.toNat) ∧
      (c.allocationMethod = .bottom → x.addr = c.minIp.addr) ∧
      (c.allocationMethod = .top → x.addr = (AlignedBlock.of c.height (c.maxIp.addr - 1)).first) := by
  have hbits := hc.natCast_netmaskBits
  rw [ParentSearch.firstIp] at h
  split at h
  · next hmethod =>
    obtain ⟨y, hsub, h⟩ := bind_eq_ok.mp h
    obtain ⟨z, hset, h⟩ := bind_eq_ok.mp h
    obtain ⟨rfl, -⟩ := Prod.mk.inj (Except.ok.inj h)
    obtain ⟨hyf, -, hya⟩ := Inet.sub_eq_ok.mp hsub
    obtain ⟨hzf, hza, hzm⟩ := Inet.setMasklen_eq_ok hset
    have hf : z.family = p.ipAddress.family := by rw [hzf, hyf, hc.family.2]
    have hm : z.masklen = c.netmaskBits.toNat := by
      have := hzm (by omega)
      omega
    refine ⟨hf, fun _ => hm, fun hb => absurd (hmethod.symm.trans hb) (by decide), fun _ => ?_⟩
    show (AlignedBlock.of z.hostbits z.addr).first = _
    rw [Inet.hostbits, hf, hm, hza, ParentSearch.height, hc.netblockRec]
    congr 2
    omega
  · next hmethod =>
    obtain ⟨y, hrandom, h⟩ := bind_eq_ok.mp h
    obtain ⟨rfl, -⟩ := Prod.mk.inj (Except.ok.inj h)
    refine ⟨(randomIp_ok hrandom).1.trans hc.family.1, fun hs => ?_,
      fun hb => absurd (hmethod.symm.trans hb) (by decide),
      fun hb => absurd (hmethod.symm.trans hb) (by decide)⟩
    -- networks are never looked for at random
    obtain ⟨-, -, hsingle | hrandom⟩ := methodFor_random (hc.method.symm.trans hmethod)
    · rw [hs] at hsingle
      exact absurd hsingle (by decide)
    · exact absurd hrandom (hv.method hs)
  · next hmethod =>
    obtain ⟨y, hset, h⟩ := bind_eq_ok.mp h
    obtain ⟨rfl, -⟩ := Prod.mk.inj (Except.ok.inj h)
    obtain ⟨hyf, hya, hym⟩ := Inet.setMasklen_eq_ok hset
    refine ⟨hyf.trans hc.family.1, fun _ => ?_, fun _ => hya,
      fun hb => absurd (hmethod.symm.trans hb) (by decide)⟩
    have := hym (by omega)
    omega

/-- Where the loop begins: at the lower bound, or at the last block below the upper one. -/
structure ParentSearch.Begins (c : ParentSearch) (x : Inet) : Prop extends c.Fits x where
  bottom : c.allocationMethod = .bottom → x.addr = c.minIp.addr
  top : c.allocationMethod = .top → x.addr = (AlignedBlock.of c.height (c.maxIp.addr - 1)).first

theorem Checked.height_single (hc : Checked q p v c) (hs : q.singleAddress = true) :
    c.height = 0 := by
  have hbits := hc.natCast_netmaskBits
  have := hc.bits hs
  have := hc.netmaskBits
  rw [ParentSearch.height, hc.netblockRec]
  omega

theorem margin_of_two_le (hs : q.singleAddress = true) (h : 2 ≤ p.ipAddress.hostbits) :
    q.margin p = 1 := by
  rw [FindFree.margin, if_pos ⟨hs, h⟩]

theorem adjustSingle_ok {y : Inet} (hc : Prepared q p v c) (hs : q.singleAddress = true)
    (hf : x.family = p.ipAddress.family)
    (hbottom : c.allocationMethod = .bottom → x.addr = c.minIp.addr)
    (htop : c.allocationMethod = .top → x.addr = c.maxIp.addr - 1)
    (h : c.adjustSingle v.desiredIpAddress.isSome x = .ok (c', y)) :
    Ready q p v c' ∧ c'.Begins y := by
  have hspans := hc.spans
  have hsingle : c.singleAddress = true := hc.singleAddress.trans hs
  obtain ⟨z, hset, h⟩ := bind_eq_ok.mp h
  obtain ⟨hzf, hza, hzm⟩ := Inet.setMasklen_eq_ok hset
  have hzm : z.masklen = p.ipAddress.masklen := by
    have := hzm (by omega)
    rw [hc.netblockRec] at this
    omega
  split at h
  · next hcond =>
    obtain ⟨hlong, hdesired⟩ := hcond
    rw [hc.netblockRec] at hlong
    have hdesired : v.desiredIpAddress = none := by simpa using hdesired
    have hmargin : q.margin p = 1 := margin_of_two_le hs (by rw [Inet.hostbits]; omega)
    obtain ⟨y', hadd, h⟩ := bind_eq_ok.mp h
    obtain ⟨lo, hlo, h⟩ := bind_eq_ok.mp h
    obtain ⟨hi, hhi, h⟩ := bind_eq_ok.mp h
    obtain ⟨rfl, rfl⟩ := Prod.mk.inj (Except.ok.inj h)
    obtain ⟨hyf, hym, hya⟩ := Inet.add_eq_ok.mp hadd
    obtain ⟨hlof, hlom, hloa⟩ := Inet.add_eq_ok.mp hlo
    obtain ⟨hhif, hhim, hhia⟩ := Inet.sub_eq_ok.mp hhi
    have hspan := hspans.1 hdesired
    have hchecked : Checked q p v { c with minIp := lo, maxIp := hi } := { hc.toChecked with }
    refine ⟨⟨hchecked, fun _ => ?_, fun d hd => ?_⟩, ⟨⟨?_, ?_⟩, fun hb => ?_, fun ht => ?_⟩⟩
    · rw [hmargin]
      refine ⟨hlof.trans hspan.minFamily, hhif.trans hspan.maxFamily,
        hlom.trans hspan.minMasklen, hhim.trans hspan.maxMasklen, ?_, ?_⟩
      · have := hspan.minAddr
        show lo.addr = _
        omega
      · have := hspan.maxAddr
        show hi.addr = _
        omega
    · rw [hdesired] at hd
      exact absurd hd (Option.not_mem_none d)
    · show y'.family = c.netblockRec.ipAddress.family
      rw [hc.netblockRec, hyf, hzf, hf]
    · show y'.masklen = _
      rw [hym, hzm, ParentSearch.resultMasklen, if_pos hsingle, hc.netblockRec]
    · have hb : c.allocationMethod = .bottom := hb
      have := hbottom hb
      rw [if_neg (by rw [hb]; decide)] at hya
      show y'.addr = lo.addr
      omega
    · have ht : c.allocationMethod = .top := ht
      have := htop ht
      rw [if_pos ht] at hya
      rw [hchecked.height_single hs, AlignedBlock.first_of_zero]
      show y'.addr = hi.addr - 1
      omega
  · next hcond =>
    obtain ⟨rfl, rfl⟩ := Prod.mk.inj (Except.ok.inj h)
    have hmask : c.resultMasklen = p.ipAddress.masklen := by
      rw [ParentSearch.resultMasklen, if_pos hsingle, hc.netblockRec]
    refine ⟨⟨hc.toChecked, fun hd => ?_, fun d hd => ?_⟩, ⟨⟨?_, ?_⟩, fun hb => ?_, fun ht => ?_⟩⟩
    · have hmargin : q.margin p = 0 := by
        rw [FindFree.margin, if_neg]
        rintro ⟨-, h2⟩
        refine hcond ⟨?_, by rw [hd]; rfl⟩
        rw [hc.netblockRec]
        rw [Inet.hostbits] at h2
        omega
      rw [hmargin]
      exact hspans.1 hd
    · exact ⟨hspans.2 d hd, (hc.desired d hd).1, ((hc.desired d hd).2 hs).trans hmask.symm⟩
    · rw [hc.netblockRec, hzf, hf]
    · rw [hzm, hmask]
    · rw [hza, hbottom hb]
    · rw [hc.height_single hs, AlignedBlock.first_of_zero, hza, htop ht]

/-- **The loop begins** with bounds and an address that fit the request. -/
theorem start_ok (hv : Masks q v) (hc : Prepared q p v c) (h : c.start o v = .ok (c', k)) :
    Ready q p v c' ∧ c'.Begins k.currentIp ∧ k.rndMatches = 0 ∧
      k.toSearch = { v with drawn := k.drawn } := by
  obtain ⟨⟨x, n⟩, hfirst, h⟩ := bind_eq_ok.mp h
  obtain ⟨hf, hm, hbottom, htop⟩ := firstIp_ok hv hc hfirst
  dsimp only at h
  split at h
  · next hs =>
    have hs : q.singleAddress = true := hc.singleAddress.symm.trans hs
    obtain ⟨⟨c₁, y⟩, hadjust, h⟩ := bind_eq_ok.mp h
    obtain ⟨rfl, rfl⟩ := Prod.mk.inj (Except.ok.inj h)
    rw [hc.height_single hs] at htop
    simp only [AlignedBlock.first_of_zero] at htop
    obtain ⟨hready, hbegins⟩ := adjustSingle_ok hc hs hf hbottom htop hadjust
    exact ⟨hready, hbegins, rfl, rfl⟩
  · next hs =>
    have hs : q.singleAddress = false := by
      rw [hc.singleAddress] at hs
      simpa using hs
    obtain ⟨rfl, rfl⟩ := Prod.mk.inj (Except.ok.inj h)
    have hmask : c.resultMasklen = c.netmaskBits.toNat := by
      rw [ParentSearch.resultMasklen, hc.singleAddress, hs]
      rfl
    have hmargin : q.margin p = 0 := by simp [FindFree.margin, hs]
    refine ⟨⟨hc.toChecked, fun hd => ?_, fun d hd => ?_⟩,
      ⟨⟨hc.netblockRec ▸ hf, (hm hs).trans hmask.symm⟩, hbottom, htop⟩, rfl, rfl⟩
    · rw [hmargin]
      exact hc.spans.1 hd
    · have hbits := hc.natCast_netmaskBits
      have := hv.desiredMask hs (by have := hc.smaller hs; omega) d hd
      refine ⟨hc.spans.2 d hd, (hc.desired d hd).1, ?_⟩
      rw [hmask]
      have := hc.netmaskBits
      omega

/-! ## What lies between the bounds -/

theorem Checked.single_masklen (hc : Checked q p v c) (hs : q.singleAddress = true) :
    c.resultMasklen = p.ipAddress.masklen := by
  rw [ParentSearch.resultMasklen, hc.singleAddress, if_pos hs, hc.netblockRec]

theorem Checked.network_masklen (hc : Checked q p v c) (hs : q.singleAddress = false) :
    (c.resultMasklen : ℤ) = v.netmaskBits ∧ p.ipAddress.masklen < c.resultMasklen := by
  have hbits := hc.natCast_netmaskBits
  have := hc.smaller hs
  rw [ParentSearch.resultMasklen, hc.singleAddress, hs, if_neg (by decide)]
  rw [hc.netmaskBits] at hbits ⊢
  omega

theorem ParentSearch.Spans.hostbits {ip : Inet} {lo hi : ℕ} (h : c.Spans ip lo hi) :
    c.minIp.hostbits = ip.hostbits ∧ c.maxIp.hostbits = ip.hostbits := by
  simp only [Inet.hostbits, h.minFamily, h.maxFamily, h.minMasklen, h.maxMasklen, and_self]

variable (hc : Ready q p v c) (hx : c.Fits x)
include hc hx

theorem Ready.lt_maxIp_iff (hd : v.desiredIpAddress = none) :
    x.lt c.maxIp ↔ x.addr < p.ipAddress.block.last + 1 - q.margin p := by
  have hspan := hc.parent hd
  have hf : x.family = c.maxIp.family := by rw [hx.family, hspan.maxFamily, hc.netblockRec]
  cases hs : q.singleAddress with
  | true =>
    rw [Inet.lt_iff_of_masklen_eq hf
      (by rw [hx.masklen, hc.single_masklen hs, hspan.maxMasklen]), hspan.maxAddr]
  | false =>
    -- a longer mask: only the bits of the parent's mask are compared
    have hm := (hc.network_masklen hs).2
    rw [Inet.lt_iff_of_masklen_lt hf (by rw [hx.masklen, hspan.maxMasklen]; exact hm),
      hspan.hostbits.2, hspan.maxAddr]
    have hmargin : q.margin p = 0 := by simp [FindFree.margin, hs]
    rw [hmargin, Nat.sub_zero, AlignedBlock.last_add_one, Inet.height_block,
      Nat.mul_div_cancel _ (Nat.two_pow_pos _), Nat.div_lt_iff_lt_mul (Nat.two_pow_pos _)]

theorem Ready.minIp_le_iff (hd : v.desiredIpAddress = none) :
    c.minIp.le x ↔ (if q.singleAddress = true then p.ipAddress.addr else p.ipAddress.block.first) +
      q.margin p ≤ x.addr := by
  have hspan := hc.parent hd
  have hf : c.minIp.family = x.family := by rw [hx.family, hspan.minFamily, hc.netblockRec]
  cases hs : q.singleAddress with
  | true =>
    rw [Inet.le_iff_of_masklen_eq hf
      (by rw [hx.masklen, hc.single_masklen hs, hspan.minMasklen]), hspan.minAddr, if_pos rfl]
  | false =>
    have hm := (hc.network_masklen hs).2
    rw [Inet.le_iff_of_masklen_lt hf (by rw [hx.masklen, hspan.minMasklen]; exact hm),
      hspan.hostbits.1, hspan.minAddr]
    have hmargin : q.margin p = 0 := by simp [FindFree.margin, hs]
    rw [hmargin, Nat.add_zero, Nat.add_zero, if_neg (by decide),
      Nat.le_div_iff_mul_le (Nat.two_pow_pos _)]
    rfl

theorem Ready.eq_desired {d : Inet} (hd : d ∈ v.desiredIpAddress) (hmin : c.minIp.le x)
    (hmax : x.lt c.maxIp) : x = d := by
  obtain ⟨hspan, hsub, hm⟩ := hc.desired d hd
  have hf : x.family = d.family := by rw [hx.family, hc.netblockRec, hsub.1]
  rw [Inet.le_iff_of_masklen_eq (hspan.minFamily.trans hf.symm)
    (by rw [hx.masklen, hspan.minMasklen, hm]), hspan.minAddr] at hmin
  rw [Inet.lt_iff_of_masklen_eq (hf.trans hspan.maxFamily.symm)
    (by rw [hx.masklen, hspan.maxMasklen, hm]), hspan.maxAddr] at hmax
  exact Inet.eq_of_fields hf (by omega) (hx.masklen.trans hm.symm)

/-- **Between the bounds lie only addresses of the parent.** -/
theorem Ready.within (hmin : c.minIp.le x) (hmax : x.lt c.maxIp) :
    x.subnetEq p.ipAddress := by
  cases hd : v.desiredIpAddress with
  | none =>
    rw [hc.minIp_le_iff hx hd] at hmin
    rw [hc.lt_maxIp_iff hx hd] at hmax
    have hmem : x.addr ∈ p.ipAddress.block := by
      rw [AlignedBlock.mem_iff_first_last]
      have := (AlignedBlock.mem_iff_first_last.mp p.ipAddress.addr_mem_block).1
      split at hmin <;> omega
    refine ⟨by rw [hx.family, hc.netblockRec], ?_, hmem⟩
    cases hs : q.singleAddress with
    | true => rw [hx.masklen, hc.single_masklen hs]
    | false => rw [hx.masklen]; exact (hc.network_masklen hs).2.le
  | some d =>
    obtain rfl := hc.eq_desired hx hd hmin hmax
    exact (hc.desired x hd).2.1

/-- A single address between the bounds is not at an end of the parent. -/
theorem Ready.ne_ends (hd : v.desiredIpAddress = none) (hs : q.singleAddress = true)
    (hbits : 2 ≤ p.ipAddress.hostbits) (hmin : c.minIp.le x) (hmax : x.lt c.maxIp) :
    x.addr ≠ p.ipAddress.block.first ∧ x.addr ≠ p.ipAddress.block.last := by
  rw [hc.minIp_le_iff hx hd, if_pos hs, margin_of_two_le hs hbits] at hmin
  rw [hc.lt_maxIp_iff hx hd, margin_of_two_le hs hbits] at hmax
  have := (AlignedBlock.mem_iff_first_last.mp p.ipAddress.addr_mem_block).1
  omega

end JazzHands

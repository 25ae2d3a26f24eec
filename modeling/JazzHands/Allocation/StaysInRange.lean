import JazzHands.Allocation.FamilyEnds

/-!
# When the search stays in range

A parent that the search does not leave has room for every address that is computed in it
(`Taking.bounds_avoids`).  This is shown of one pass of the loop, from the bottom, at random, and
for a desired address; the search from the top has a module of its own.
-/

namespace JazzHands

open Library Postgres

variable {s : RangeTables} {o : Outcomes} {q : FindFree} {p : Netblock} {v v' : Search}
variable {c c' : ParentSearch} {k k' : Cursor} {x y d : Inet} {m n t i passes : ℕ} {l : List ℕ}

/-! ## Carried along -/

/-- `d'` is the address `d`, perhaps with another mask. -/
def SameAddress (d d' : Option Inet) : Prop :=
  ∀ x ∈ d', ∃ y ∈ d, x.family = y.family ∧ x.addr = y.addr

theorem SameAddress.refl (d : Option Inet) : SameAddress d d := fun x hx => ⟨x, hx, rfl, rfl⟩

theorem SameAddress.trans {a b c : Option Inet} (hab : SameAddress a b) (hbc : SameAddress b c) :
    SameAddress a c := by
  intro x hx
  obtain ⟨y, hy, hf, ha⟩ := hbc x hx
  obtain ⟨z, hz, hf', ha'⟩ := hab y hy
  exact ⟨z, hz, hf.trans hf', ha.trans ha'⟩

theorem sameAddress_setMasklen {b : ℤ} (h : x.setMasklen b = .ok y) :
    SameAddress (some x) (some y) := by
  obtain ⟨hf, ha, -⟩ := Inet.setMasklen_eq_ok h
  intro z hz
  obtain rfl := Option.mem_some_iff.mp hz
  exact ⟨x, rfl, hf, ha⟩

variable {desired : Option Inet} {r : Option ParentSearch}

theorem sanitize_address {bits : ℤ} (h : q.sanitize = .ok (bits, desired))
    : SameAddress q.desiredIpAddress desired := by
  simp only [FindFree.sanitize, bind_unit_eq_ok] at h
  obtain ⟨-, h⟩ := h
  split at h
  · obtain ⟨-, rfl⟩ := Prod.mk.inj (Except.ok.inj h)
    exact .refl _
  obtain ⟨masks, hmasks, h⟩ := bind_eq_ok.mp h
  obtain ⟨-, h⟩ := bind_unit_eq_ok.mp h
  obtain rfl := Except.ok.inj h
  rw [FindFree.networkMasks] at hmasks
  split at hmasks
  · next d hd _ =>
    obtain ⟨-, rfl⟩ := Prod.mk.inj (Except.ok.inj hmasks)
    rw [hd]
    exact .refl _
  · next d b hd _ =>
    obtain ⟨d', hset, hmasks⟩ := bind_eq_ok.mp hmasks
    obtain ⟨-, rfl⟩ := Prod.mk.inj (Except.ok.inj hmasks)
    rw [hd]
    exact sameAddress_setMasklen hset
  · next b hd _ =>
    obtain ⟨-, rfl⟩ := Prod.mk.inj (Except.ok.inj hmasks)
    rw [hd]
    exact .refl _
  · exact absurd hmasks raise_ne_ok

theorem singleMasks_address (h : FindFree.singleMasks v p = .ok v') :
    SameAddress v.desiredIpAddress v'.desiredIpAddress := by
  rw [FindFree.singleMasks] at h
  split at h
  · obtain rfl := Except.ok.inj h
    exact .refl _
  · next d hd =>
    obtain ⟨d', hset, h⟩ := bind_eq_ok.mp h
    obtain rfl := Except.ok.inj h
    rw [hd]
    exact sameAddress_setMasklen hset

theorem prepare_address (h : q.prepare v p = .ok (v', r)) :
    SameAddress v.desiredIpAddress v'.desiredIpAddress := by
  rw [FindFree.prepare] at h
  split at h
  · obtain ⟨rfl, -⟩ := Prod.mk.inj (Except.ok.inj h)
    exact .refl _
  dsimp only at h
  split at h
  · obtain ⟨v₁, hmasks, h⟩ := bind_eq_ok.mp h
    obtain ⟨rfl, -⟩ := checkParent_ok h
    exact singleMasks_address hmasks
  · split at h
    · obtain ⟨rfl, -⟩ := Prod.mk.inj (Except.ok.inj h)
      exact .refl _
    · obtain ⟨rfl, -⟩ := checkParent_ok h
      exact .refl _

/-- What the search carries from one parent to the next: the desired address, whatever its mask is,
and no more addresses than it has counted. -/
structure Taking (q : FindFree) (v : Search) : Prop extends Carried q v where
  address : SameAddress q.desiredIpAddress v.desiredIpAddress
  counted : (v.inetList.length : ℤ) ≤ v.matchCount

theorem Taking.of_sanitize {bits : ℤ} (h : q.sanitize = .ok (bits, desired)) :
    Taking q { netmaskBits := bits, desiredIpAddress := desired } :=
  ⟨.of_sanitize h, sanitize_address h, le_rfl⟩

theorem Taking.of_sameRows (hv : Taking q v) (hsame : SameRows v v') (hmasks : Masks q v')
    (haddr : SameAddress v.desiredIpAddress v'.desiredIpAddress) : Taking q v' where
  masks := hmasks
  known := hv.known
  count := hsame.matchCount ▸ hv.count
  address := hv.address.trans haddr
  counted := by
    rw [hsame.inetList, hsame.matchCount]
    exact hv.counted

theorem Taking.of_prepare (hv : Taking q v) (h : q.prepare v p = .ok (v', r)) : Taking q v' := by
  obtain ⟨hsame, hv', -⟩ := prepare_ok hv.masks h
  exact hv.of_sameRows hsame hv' (prepare_address h)

theorem Taking.searches (hv : Taking q v) (hsub : p.canSubnet = !q.singleAddress)
    (hr : q.Requests p m) (hb : q.singleAddress = false →
      p.ipAddress.masklen < m ∧ m ≤ p.ipAddress.family.bits)
    (hd : ∀ d ∈ v.desiredIpAddress, d.subnetEq p.ipAddress) : q.Searches p m := by
  refine ⟨hv.known, hr, hsub, hv.masks.method, hb, fun d₀ hd₀ => ?_⟩
  have hsome := hv.masks.desired
  rw [Option.mem_def.mp hd₀] at hsome
  obtain ⟨d, hdv⟩ := Option.isSome_iff_exists.mp hsome
  obtain ⟨d₁, hd₁, hf, ha⟩ := hv.address d hdv
  obtain rfl : d₁ = d₀ := Option.mem_unique hd₁ hd₀
  obtain ⟨hpf, -, haddr⟩ := hd d hdv
  refine ⟨hf.symm.trans hpf, ?_, ?_⟩
  · show p.ipAddress.masklen ≤ d₁.family.bits
    rw [← hf, hpf]
    exact p.ipAddress.masklen_le
  · show d₁.addr / _ = _
    rw [← ha]
    exact haddr

theorem Taking.searches_ready (hv : Taking q v) (hc : Ready q p v c) :
    q.Searches p c.resultMasklen := by
  refine hv.searches hc.subnet ((hv.masks.requests_iff hc).mpr rfl) (fun hs => ?_)
    fun d hd => (hc.desired d hd).2.1
  obtain ⟨hbits, hlt⟩ := hc.network_masklen hs
  have := hc.le_bits
  exact ⟨hlt, by omega⟩

/-! ## Before the loop -/

theorem avoids_bounds :
    Avoids .numericValueOutOfRange (FindFree.bounds desired p) ↔
      match desired with
      | some d => d.addr + 1 < 2 ^ d.family.bits
      | none => p.ipAddress.block.last + 1 < 2 ^ p.ipAddress.family.bits := by
  cases desired with
  | none => exact avoids_bind_ok.trans Inet.add_one_avoids
  | some d => exact avoids_bind_ok.trans Inet.add_one_avoids

theorem checkParent_avoids {method : AllocationMethod}
    (h : v.netmaskBits ≤ p.ipAddress.family.bits → p.canSubnet = (!q.singleAddress) →
      (∀ d ∈ v.desiredIpAddress, d.subnetEq p.ipAddress) →
      Avoids .numericValueOutOfRange (FindFree.bounds v.desiredIpAddress p)) :
    Avoids .numericValueOutOfRange (q.checkParent v p method) := by
  rw [FindFree.checkParent]
  refine (avoids_raiseIf (by decide)).bind fun _ hbits => ?_
  split
  · exact avoids_ok
  · next hwithin =>
    refine (avoids_raiseIf (by decide)).bind fun _ hsingle =>
      (avoids_raiseIf (by decide)).bind fun _ hnetwork => avoids_bind_ok.mpr (h ?_ ?_ ?_)
    · exact not_lt.mp (raiseIf_eq_ok.mp hbits)
    · have hsingle := raiseIf_eq_ok.mp hsingle
      have hnetwork := raiseIf_eq_ok.mp hnetwork
      cases hs : q.singleAddress <;> simp_all
    · exact fun d hd => not_not.mp fun hn => hwithin ⟨d, hd, hn⟩

/-- A parent that the search does not leave has an address after its end, and so has the desired
address. -/
theorem Taking.bounds_avoids (hv : Taking q v) (h : q.Searches p m) (hp : ¬ LeavesFamily s q p)
    (hd : ∀ d ∈ v.desiredIpAddress, d.family = p.ipAddress.family) :
    Avoids .numericValueOutOfRange (FindFree.bounds v.desiredIpAddress p) := by
  rw [avoids_bounds]
  have hsome := hv.masks.desired
  cases hdv : v.desiredIpAddress with
  | none =>
    rw [hdv] at hsome
    have hq : q.desiredIpAddress = none := by simpa using hsome.symm
    have hle := p.ipAddress.last_block_lt
    have hne : p.ipAddress.block.last + 1 ≠ _ := fun hlast => hp (.parent h hq hlast)
    dsimp only
    omega
  | some d =>
    obtain ⟨d₀, hd₀, -, ha⟩ := hv.address d hdv
    have hle := d.addr_lt
    have hf := hd d hdv
    have hne : d₀.addr + 1 ≠ _ := fun hlast => hp (.desired h hd₀ hlast)
    dsimp only
    rw [hf] at hle ⊢
    omega

theorem prepare_avoids (hv : Taking q v) (hp : ¬ LeavesFamily s q p) :
    Avoids .numericValueOutOfRange (q.prepare v p) := by
  rw [FindFree.prepare]
  split
  · exact avoids_ok
  dsimp only
  split
  · next hs =>
    have hmasks : Avoids .numericValueOutOfRange (FindFree.singleMasks v p) := by
      rw [FindFree.singleMasks]
      split
      · exact avoids_ok
      · exact avoids_bind_ok.mpr Inet.setMasklen_avoids
    refine hmasks.bind fun v₁ hv₁ => checkParent_avoids fun _ hsub hwithin => ?_
    obtain ⟨hsame, hsome, -, -⟩ := singleMasks_ok hv₁
    have hne : q.singleAddress ≠ false := by simp [hs]
    have hv₁ : Taking q v₁ := hv.of_sameRows hsame ⟨hsome.trans hv.masks.desired,
      fun h => absurd h hne, fun h => absurd h hne, fun h => absurd h hne⟩ (singleMasks_address hv₁)
    have hr : q.Requests p p.ipAddress.masklen := by rw [FindFree.Requests, if_pos hs]
    exact hv₁.bounds_avoids (hv₁.searches hsub hr (fun h => absurd h hne) hwithin) hp
      fun d hd => (hwithin d hd).1
  · next hs =>
    have hs : q.singleAddress = false := by simpa using hs
    split
    · exact avoids_ok
    · next hsmaller =>
      refine checkParent_avoids fun hbits hsub hwithin => ?_
      have hm : (v.netmaskBits.toNat : ℤ) = v.netmaskBits := Int.toNat_of_nonneg (by omega)
      refine hv.bounds_avoids (hv.searches hsub ((hv.masks.requested hs p _).mpr hm) (fun _ => ?_)
        hwithin) hp fun d hd => (hwithin d hd).1
      omega

theorem start_total_desired (hc : Prepared q p v c) (hd : v.desiredIpAddress = some d) :
    ∃ r, c.start o v = .ok r := by
  have hm : c.allocationMethod = .bottom := by rw [hc.method, hd, Option.isSome_some, methodFor_desired]
  obtain ⟨z, hz⟩ := hc.exists_setMasklen hc.family.1
  have hfirst : c.firstIp o v.drawn = .ok (z, v.drawn) := by
    rw [ParentSearch.firstIp, hm]
    exact bind_eq_ok.mpr ⟨z, hz, rfl⟩
  have hmask : c.netblockRec.ipAddress.masklen ≤ z.family.bits := by
    rw [(Inet.setMasklen_eq_ok hz).1, hc.family.1, hc.netblockRec]
    exact p.ipAddress.masklen_le
  rw [ParentSearch.start, hfirst]
  show ∃ r, (if c.singleAddress = true then _ else _) = _
  split
  · refine ⟨_, bind_eq_ok.mpr ⟨(c, z.withMasklen _ hmask), ?_, rfl⟩⟩
    refine bind_eq_ok.mpr ⟨_, Inet.setMasklen_of_le hmask, if_neg ?_⟩
    rw [hd]
    simp
  · exact ⟨_, rfl⟩

/-- Every distance that is drawn leads to an address before the last one of the parent. -/
theorem maxRndValue_le (h : 2 ≤ p.ipAddress.hostbits) :
    p.ipAddress.block.first + maxRndValue p + 2 ≤ p.ipAddress.block.last := by
  have hlast : p.ipAddress.block.last = p.ipAddress.block.first + (2 ^ p.ipAddress.hostbits - 1) := rfl
  have hpow := Nat.two_pow_pos p.ipAddress.hostbits
  have hle : 0x7fffffffffffffff >>> (if 63 ≤ p.ipAddress.hostbits then 0
      else 63 - p.ipAddress.hostbits) < 2 ^ p.ipAddress.hostbits := by
    split
    · next hlong =>
      have : 2 ^ 63 ≤ 2 ^ p.ipAddress.hostbits := Nat.pow_le_pow_right (by decide) hlong
      rw [Nat.shiftRight_zero]
      omega
    · next hshort =>
      rw [Nat.shiftRight_eq_div_pow, Nat.div_lt_iff_lt_mul (Nat.two_pow_pos _), ← pow_add,
        Nat.add_sub_cancel' (by omega)]
      decide
  rw [maxRndValue]
  omega

theorem randomIp_avoids (ho : o.DrawsFit) (hp : c.netblockRec = p) (hbits : 2 ≤ p.ipAddress.hostbits)
    (hroom : c.minIp.addr + maxRndValue p < (2 ^ c.minIp.family.bits : ℕ)) :
    Avoids .numericValueOutOfRange (c.randomIp o n) := by
  have hpos := maxRndValue_pos hbits
  rw [ParentSearch.randomIp, hp]
  have hlo := Int.emod_nonneg
    ((((o.random n).high <<< 32 + (o.random n).low + 1 : ℕ)) : ℤ) hpos.ne'
  have hhi := Int.emod_lt_of_pos
    ((((o.random n).high <<< 32 + (o.random n).low + 1 : ℕ)) : ℤ) hpos
  have hfits : raiseIf (2 ^ 63 ≤ (o.random n).high <<< 32 + (o.random n).low + 1)
      .numericValueOutOfRange "bigint out of range" = .ok () :=
    raiseIf_eq_ok.mpr (not_le.mpr (ho n))
  rw [hfits]
  show Avoids _ (c.minIp.add _)
  rw [Inet.add, dif_pos ⟨by omega, by omega⟩]
  exact avoids_ok

section

variable (ho : o.DrawsFit) (hnet : p.ipAddress.network = p.ipAddress)
include ho hnet

theorem start_avoids_random (hc : Prepared q p v c) (hd : v.desiredIpAddress = none)
    (hm : c.allocationMethod = .random) :
    Avoids .numericValueOutOfRange (c.start o v) := by
  obtain ⟨-, hbits, -⟩ := methodFor_random (hc.method.symm.trans hm)
  have hspan := hc.spans.1 hd
  have hle := maxRndValue_le hbits
  have hpos := maxRndValue_pos hbits
  have hlast := p.ipAddress.last_block_lt
  have hfirst : p.ipAddress.addr = p.ipAddress.block.first := (congrArg Inet.addr hnet).symm
  have hfamily := hspan.minFamily
  have hmin := hspan.minAddr
  have hdraw : Avoids .numericValueOutOfRange (c.randomIp o v.drawn) := by
    refine randomIp_avoids ho hc.netblockRec hbits ?_
    rw [hmin, hfamily]
    omega
  rw [ParentSearch.start, ParentSearch.firstIp, hm]
  refine (avoids_bind_ok.mpr hdraw).bind fun r hr => ?_
  obtain ⟨x, hx, hr⟩ := bind_eq_ok.mp hr
  obtain rfl := Except.ok.inj hr
  obtain ⟨-, hhi⟩ := randomIp_addr hc.netblockRec hbits hx
  obtain ⟨hxf, -⟩ := randomIp_ok hx
  dsimp only
  split
  · refine avoids_bind_ok.mpr (Inet.setMasklen_avoids.bind fun y hy => ?_)
    obtain ⟨hyf, hya, -⟩ := Inet.setMasklen_eq_ok hy
    split
    · rw [if_neg (by simp [hm])]
      refine (Inet.add_one_avoids.mpr ?_).bind fun _ _ =>
        (Inet.add_one_avoids.mpr ?_).bind fun _ _ => avoids_bind_ok.mpr (Inet.sub_one_avoids.mpr ?_)
      · rw [hyf, hxf, hfamily]
        omega
      · rw [hfamily]
        omega
      · rw [hspan.maxAddr]
        omega
    · exact avoids_ok
  · exact avoids_ok

theorem start_avoids (hv : Masks q v) (hc : Prepared q p v c) :
    Avoids .numericValueOutOfRange (c.start o v) := by
  have hok : (∃ r, c.start o v = .ok r) → Avoids .numericValueOutOfRange (c.start o v) := by
    rintro ⟨r, hr⟩
    rw [hr]
    exact avoids_ok
  cases hd : v.desiredIpAddress with
  | some d => exact hok (start_total_desired hc hd)
  | none =>
    have hlast : p.ipAddress.block.last + 1 < 2 ^ p.ipAddress.family.bits := by
      have hspan := hc.spans.1 hd
      have := c.maxIp.addr_lt
      rwa [hspan.maxAddr, hspan.maxFamily] at this
    cases hm : c.allocationMethod with
    | random => exact start_avoids_random ho hnet hc hd hm
    | top => exact hok (start_total hlast hnet hd (Or.inr hm) hv hc)
    | bottom => exact hok (start_total hlast hnet hd (Or.inl hm) hv hc)

/-! ## The passes of a search at random, or from the bottom -/

theorem Ready.pass_avoids_random (hv : Masks q v) (hc : Ready q p v c)
    (hm : c.allocationMethod = .random) (hgoing : c.Going k) :
    Avoids .numericValueOutOfRange (c.searchPass s o k) := by
  obtain ⟨hs, hd, hbits, -⟩ := hc.random hv hm
  have hmin := hc.minIp_random hv hm
  have hfamily := (hc.parent hd).minFamily
  have hle := maxRndValue_le hbits
  have hlast := p.ipAddress.last_block_lt
  have hfirst : p.ipAddress.addr = p.ipAddress.block.first := (congrArg Inet.addr hnet).symm
  have hdraw : Avoids .numericValueOutOfRange (c.randomIp o k.drawn) := by
    refine randomIp_avoids ho hc.netblockRec hbits ?_
    rw [hmin, hfamily]
    omega
  rw [searchPass_avoids hgoing]
  split
  · next nr hnr =>
    obtain ⟨-, -, -, start, hstart, stop, hstop, -⟩ := netrangeRec_eq_some hnr
    rw [ParentSearch.jump, hm, Option.mem_def.mp hstart, Option.mem_def.mp hstop]
    exact avoids_bind_ok.mpr hdraw
  · rw [ParentSearch.next, if_pos (hc.singleAddress.trans hs), hm]
    exact avoids_bind_ok.mpr hdraw

end

/-- From the bottom the search stays below the address after the parent. -/
theorem Ready.pass_avoids_bottom (hranges : RangesWithin s p) (hc : Ready q p v c)
    (hk : c.Fits k.currentIp) (hm : c.allocationMethod = .bottom)
    (hroom : p.ipAddress.block.last + 1 < 2 ^ p.ipAddress.family.bits) (hgoing : c.Going k) :
    Avoids .numericValueOutOfRange (c.searchPass s o k) := by
  have hwithin := hc.within hk hgoing.1 hgoing.2.1
  rw [searchPass_avoids hgoing]
  split
  · next nr hnr =>
    obtain ⟨-, hmem, hparent, start, hstart, stop, hstop, hf, hf', -⟩ := netrangeRec_eq_some hnr
    rw [hc.netblockRec] at hparent
    have hstopp := (hranges nr hmem hparent start hstart stop hstop).2
    have hle := (AlignedBlock.mem_iff_first_last.mp
      (show stop.ipAddress.addr ∈ p.ipAddress.block from hstopp.2.2)).2
    rw [avoids_jump_bottom hm hstop, ← hf', hwithin.1]
    omega
  · have hblock := (Inet.subnetEq_iff.mp hwithin).2
    have hle : k.currentIp.addr ≤ p.ipAddress.block.last := (AlignedBlock.mem_iff_first_last.mp
      (AlignedBlock.mem_of_le hblock k.currentIp.addr_mem_block)).2
    have hle' : k.currentIp.block.last ≤ p.ipAddress.block.last := AlignedBlock.last_le_last hblock
    rw [avoids_next_bottom hm, hwithin.1]
    split <;> omega

theorem Ready.block_eq (hc : Ready q p v c) (hx : c.Fits x) :
    x.block = AlignedBlock.of (p.ipAddress.family.bits - c.resultMasklen) x.addr := by
  rw [Inet.block, Inet.hostbits, hx.family, hx.masklen, hc.netblockRec]

/-- The loop counts from zero. -/
structure Counting (k : Cursor) : Prop where
  matchCount : 0 ≤ k.matchCount
  rndMatches : 0 ≤ k.rndMatches

theorem Counting.looks (hk : Counting k) (hc : Ready q p v c) (hgoing : c.Going k) : q.Looks := by
  obtain ⟨-, -, ⟨l, hl, hlt⟩, hrnd⟩ := hgoing
  rw [hc.maxAddresses] at hl
  rw [hc.rndMaxCount] at hrnd
  have := hk.matchCount
  have := hk.rndMatches
  exact ⟨⟨l, hl, by omega⟩, by omega⟩

theorem Counting.record (hk : Counting k) : Counting (c.record s k) := by
  have hmatch := hk.matchCount
  have hrnd := hk.rndMatches
  rw [ParentSearch.record]
  split
  · refine ⟨?_, le_rfl⟩
    show 0 ≤ k.matchCount + 1
    omega
  · split
    · refine ⟨hmatch, ?_⟩
      show 0 ≤ k.rndMatches + 1
      omega
    · exact hk

theorem Counting.pass (hk : Counting k) (hpass : c.searchPass s o k = .ok (.yield k')) :
    Counting k' := by
  obtain ⟨-, ⟨nr, y, x, n, -, -, -, rfl⟩ | ⟨x, n, -, -, rfl⟩⟩ := searchPass_yield hpass
  · exact ⟨hk.matchCount, hk.rndMatches⟩
  · have hrecord := hk.record (c := c) (s := s)
    exact ⟨hrecord.matchCount, hrecord.rndMatches⟩

/-- A pass for a desired address stays in range, unless the address, its block or a network range
around it ends with the family. -/
theorem Ready.pass_avoids_desired (hv : Taking q v) (hc : Ready q p v c) (hk : c.Fits k.currentIp)
    (hcount : Counting k) (hd : d ∈ v.desiredIpAddress) (hp : ¬ LeavesFamily s q p)
    (hgoing : c.Going k) : Avoids .numericValueOutOfRange (c.searchPass s o k) := by
  have hx := hc.eq_desired hk hd hgoing.1 hgoing.2.1
  have hm : c.allocationMethod = .bottom := by
    rw [hc.method, Option.mem_def.mp hd, Option.isSome_some, methodFor_desired]
  have hsearches := hv.searches_ready hc
  have hlooks := hcount.looks hc hgoing
  have hf : k.currentIp.family = p.ipAddress.family := by rw [hk.family, hc.netblockRec]
  obtain ⟨d₀, hd₀, -, ha⟩ := hv.address d hd
  rw [← hx] at ha
  rw [searchPass_avoids hgoing]
  split
  · next nr hnr =>
    obtain ⟨hs, start, hstart, stop, hstop, hrange, hlo, hhi, hstopf⟩ :=
      hc.netrangeRec_some hk hnr
    have hle := stop.ipAddress.addr_lt
    have hne : stop.ipAddress.addr + 1 ≠ _ := fun hlast =>
      hp (.range hsearches hd₀ hs hlooks hrange (ha ▸ hlo) (ha ▸ hhi) hlast)
    rw [avoids_jump_bottom hm hstop]
    rw [hstopf] at hle ⊢
    omega
  · rw [avoids_next_bottom hm, hc.singleAddress, hf]
    split
    · have hle := k.currentIp.addr_lt
      have hne : d₀.addr + 1 ≠ _ := fun hlast => hp (.desired hsearches hd₀ hlast)
      rw [hf] at hle
      omega
    · next hs =>
      have hle := k.currentIp.last_block_lt
      have hne : k.currentIp.block.last + 1 ≠ 2 ^ p.ipAddress.family.bits := by
        intro hlast
        rw [hc.block_eq hk, ha] at hlast
        exact hp (.block hsearches hd₀ (by simpa using hs) hlooks hlast)
      rw [hf] at hle
      omega

end JazzHands

import JazzHands.Library.Scan
import JazzHands.Allocation.Sound

/-!
# The sequential search misses nothing

With the method `top` or `bottom`, and no desired address, the search of one parent goes through the
addresses of the parent in order.  It steps over what is taken, jumps over network ranges, and
returns everything else.
-/

namespace JazzHands

open Library Postgres

variable {t : List Netblock} {s : RangeTables} {o : Outcomes} {q : FindFree} {p n m r : Netblock}
variable {v v' : Search} {c c' : ParentSearch} {k k' : Cursor} {x y : Inet}
variable {f : FreeNetblock} {passes i j : ℕ}

/-- The caller could use `x`: it is what the caller asks for, inside the parent, overlaps no child,
and, as a single address, is in no range and not at an end of the parent.  A block is smaller than
the parent. -/
structure Usable (s : RangeTables) (q : FindFree) (p : Netblock) (x : Inet) : Prop where
  within : x.subnetEq p.ipAddress
  requested : q.Requests p x.masklen
  block : q.singleAddress = false → x.network = x ∧ p.ipAddress.masklen < x.masklen
  ends : q.singleAddress = true → 2 ≤ p.ipAddress.hostbits →
    x.addr ≠ p.ipAddress.block.first ∧ x.addr ≠ p.ipAddress.block.last
  outside : q.singleAddress = true → ∀ nr ∈ s.networkRange, nr.parentNetblockId = p.netblockId →
    ¬ nr.Holds s x
  apart : ∀ n ∈ s.netblock, n.IsChildOf p → ¬ (q.extent x).Overlaps n.extent

namespace Usable

theorem fits (hx : Usable s q p x) (hv : Masks q v) (hc : Ready q p v c) : c.Fits x where
  family := by rw [hc.netblockRec]; exact hx.within.1
  masklen := (hv.requests_iff hc).mp hx.requested

theorem bounds (hx : Usable s q p x) : p.ipAddress.block.first + q.margin p ≤ x.addr ∧
    x.addr < p.ipAddress.block.last + 1 - q.margin p := by
  obtain ⟨hlo, hhi⟩ := AlignedBlock.mem_iff_first_last.mp
    (show x.addr ∈ p.ipAddress.block from hx.within.2.2)
  by_cases h : q.singleAddress = true ∧ 2 ≤ p.ipAddress.hostbits
  · obtain ⟨hne, hne'⟩ := hx.ends h.1 h.2
    rw [FindFree.margin, if_pos h]
    omega
  · rw [FindFree.margin, if_neg h]
    omega

theorem not_taken (hx : Usable s q p x) (h : InPlace s.netblock) (ht : WellFormed s.netblock) (hp : p ∈ s.netblock)
    (hc : Ready q p v c) : ¬ ∃ n ∈ s.netblock, c.Taken x n := by
  rintro ⟨n, hn, -, -, hchild, htaken⟩
  rw [hc.netblockRec] at hchild
  have happart := hx.apart n hn hchild
  rw [hc.singleAddress] at htaken
  cases hs : q.singleAddress with
  | true =>
    rw [if_pos hs] at htaken
    rw [FindFree.extent, if_pos hs, ← htaken, Netblock.extent] at happart
    refine happart ?_
    split
    · exact Inet.overlaps_self _
    · exact ⟨rfl, n.ipAddress.addr, n.ipAddress.host.addr_mem_block, n.ipAddress.addr_mem_block⟩
  | false =>
    rw [if_neg (by simp [hs])] at htaken
    rw [FindFree.extent, if_neg (by simp [hs]), Netblock.extent] at happart
    -- a parent that is subnettable has no single addresses
    have hnet : n.isSingleAddress ≠ true := by
      intro hsingle
      obtain ⟨-, -, -, -, hsub, -⟩ := h.candidate ht ⟨hn, hp, hchild⟩
      rw [hsingle] at hsub
      have hsubnet := hc.subnet
      rw [hs] at hsubnet
      simp [hsubnet] at hsub
    rw [if_neg hnet] at happart
    exact happart (Inet.overlaps_iff.mpr htaken)

end Usable

/-! ## Steps of the cursor -/

/-- The order of the search: upwards, or downwards with the method `top`. -/
def ParentSearch.Precedes (c : ParentSearch) (a b : ℕ) : Prop :=
  if c.allocationMethod = .top then b < a else a < b

instance : IsTrans ℕ c.Precedes where
  trans a b d hab hbd := by
    simp only [ParentSearch.Precedes] at *
    split_ifs at * <;> omega

theorem first_of_mul (h j : ℕ) : (AlignedBlock.of h (j * 2 ^ h)).first = j * 2 ^ h := by
  show j * 2 ^ h / 2 ^ h * 2 ^ h = _
  rw [Nat.mul_div_cancel _ (Nat.two_pow_pos h)]

theorem first_of_mul_sub_one (h j : ℕ) :
    (AlignedBlock.of h ((j + 1) * 2 ^ h - 1)).first = j * 2 ^ h := by
  have hpos := Nat.two_pow_pos h
  show ((j + 1) * 2 ^ h - 1) / 2 ^ h * 2 ^ h = _
  congr 1
  rw [Nat.div_eq_iff hpos, Nat.add_mul]
  omega

theorem Ready.hostbits_eq (hc : Ready q p v c) (hx : c.Fits x) (hs : q.singleAddress = false) :
    x.hostbits = c.height := by
  rw [Inet.hostbits, hx.family, hx.masklen, ParentSearch.height, ParentSearch.resultMasklen,
    if_neg (by rw [hc.singleAddress, hs]; decide)]

theorem Ready.next_addr (hc : Ready q p v c) (hx : c.Fits k.currentIp)
    (hj : k.currentIp.addr = j * 2 ^ c.height) {n : ℕ} (h : c.next o k = .ok (x, n)) :
    (c.allocationMethod = .bottom → x.addr = (j + 1) * 2 ^ c.height) ∧
      (c.allocationMethod = .top → ∃ i, j = i + 1 ∧ x.addr = i * 2 ^ c.height) := by
  have hpos := Nat.two_pow_pos c.height
  rw [ParentSearch.next] at h
  split at h
  · next hs =>
    have hheight := hc.height_single (hc.singleAddress.symm.trans hs)
    rw [hheight, pow_zero, Nat.mul_one] at hj
    rw [hheight]
    split at h
    · next hm =>
      obtain ⟨y, hadd, h⟩ := bind_eq_ok.mp h
      obtain ⟨rfl, -⟩ := Prod.mk.inj (Except.ok.inj h)
      obtain ⟨-, -, ha⟩ := Inet.add_eq_ok.mp hadd
      exact ⟨fun _ => by omega, fun ht => absurd (hm.symm.trans ht) (by decide)⟩
    · next hm =>
      obtain ⟨y, hsub, h⟩ := bind_eq_ok.mp h
      obtain ⟨rfl, -⟩ := Prod.mk.inj (Except.ok.inj h)
      obtain ⟨-, -, ha⟩ := Inet.sub_eq_ok.mp hsub
      exact ⟨fun hb => absurd (hm.symm.trans hb) (by decide), fun _ => ⟨j - 1, by omega, by omega⟩⟩
    · next hm =>
      exact ⟨fun hb => absurd (hm.symm.trans hb) (by decide), fun ht => absurd (hm.symm.trans ht) (by decide)⟩
  · next hs =>
    have hs : q.singleAddress = false := by
      rw [hc.singleAddress] at hs
      simpa using hs
    have hhost := hc.hostbits_eq hx hs
    split at h
    · next hm =>
      obtain ⟨y, hadd, h⟩ := bind_eq_ok.mp h
      obtain ⟨rfl, -⟩ := Prod.mk.inj (Except.ok.inj h)
      obtain ⟨hf, hmask, ha⟩ := Inet.add_eq_ok.mp hadd
      refine ⟨fun _ => ?_, fun ht => absurd (hm.symm.trans ht) (by decide)⟩
      have hy : y.addr = (j + 1) * 2 ^ c.height := by
        have hlast : k.currentIp.broadcast.addr + 1 = (k.currentIp.addr / 2 ^ k.currentIp.hostbits + 1)
          * 2 ^ k.currentIp.hostbits := k.currentIp.block.last_add_one
        rw [hhost, hj, Nat.mul_div_cancel _ hpos] at hlast
        omega
      have hyh : y.hostbits = c.height := by
        rw [Inet.hostbits, hf, hmask]
        exact hhost
      show (AlignedBlock.of y.hostbits y.addr).first = _
      rw [hyh, hy, first_of_mul]
    · next hm =>
      obtain ⟨y, hsub, h⟩ := bind_eq_ok.mp h
      obtain ⟨rfl, -⟩ := Prod.mk.inj (Except.ok.inj h)
      obtain ⟨hf, hmask, ha⟩ := Inet.sub_eq_ok.mp hsub
      refine ⟨fun hb => absurd hb hm, fun _ => ?_⟩
      have hyh : y.hostbits = c.height := by
        rw [Inet.hostbits, hf, hmask]
        exact hhost
      obtain ⟨i, rfl⟩ : ∃ i, j = i + 1 := by
        refine Nat.exists_eq_succ_of_ne_zero ?_
        rintro rfl
        omega
      refine ⟨i, rfl, ?_⟩
      show (AlignedBlock.of y.hostbits y.addr).first = _
      rw [hyh, show y.addr = (i + 1) * 2 ^ c.height - 1 by omega, first_of_mul_sub_one]

/-- **The address after a range** is right above its stop, or right below its start. -/
theorem jump_addr {nr : NetworkRange} (hnr : c.netrangeRec s o k.currentIp = some nr) {n : ℕ}
    (h : c.jump s o nr k = .ok (y, n)) (hx : y.setMasklen c.maxIp.masklen = .ok x) :
    ∃ start ∈ s.start nr, ∃ stop ∈ s.stop nr, start.ipAddress.addr ≤ k.currentIp.addr ∧
      k.currentIp.addr ≤ stop.ipAddress.addr ∧
      k.currentIp.family = start.ipAddress.family ∧ k.currentIp.family = stop.ipAddress.family ∧
      (c.allocationMethod = .bottom → x.addr = stop.ipAddress.addr + 1) ∧
      (c.allocationMethod = .top → x.addr + 1 = start.ipAddress.addr) := by
  obtain ⟨hs, -, -, start, hstart, stop, hstop, hf, hf', hlo, hhi⟩ := netrangeRec_eq_some hnr
  refine ⟨start, hstart, stop, hstop, hlo, hhi, hf, hf', fun hm => ?_, fun hm => ?_⟩
  · rw [ParentSearch.jump, hm, Option.mem_def.mp hstart, Option.mem_def.mp hstop] at h
    obtain ⟨z, hadd, h⟩ := bind_eq_ok.mp h
    obtain ⟨rfl, -⟩ := Prod.mk.inj (Except.ok.inj h)
    obtain ⟨-, -, ha⟩ := Inet.add_eq_ok.mp hadd
    rw [(Inet.setMasklen_eq_ok hx).2.1]
    omega
  · rw [ParentSearch.jump, hm, Option.mem_def.mp hstart, Option.mem_def.mp hstop] at h
    obtain ⟨z, hsub, h⟩ := bind_eq_ok.mp h
    obtain ⟨rfl, -⟩ := Prod.mk.inj (Except.ok.inj h)
    obtain ⟨-, -, ha⟩ := Inet.sub_eq_ok.mp hsub
    rw [(Inet.setMasklen_eq_ok hx).2.1]
    omega

/-! ## The loop -/

def usableAddrs (s : RangeTables) (q : FindFree) (p : Netblock) : Set ℕ :=
  {a | ∃ x, Usable s q p x ∧ x.addr = a}

/-- What holds in every pass of a loop that goes through the addresses in order. -/
structure Scanning (s : RangeTables) (q : FindFree) (p : Netblock) (c : ParentSearch)
    (k : Cursor) : Prop where
  fits : c.Fits k.currentIp
  aligned : ∃ j, k.currentIp.addr = j * 2 ^ c.height
  scanned : Scanned c.Precedes (usableAddrs s q p) (k.rows.map (·.ipAddress.addr))
    k.currentIp.addr
  rows : ∀ f ∈ k.rows, c.Fits f.ipAddress ∧ f.netblockType = p.netblockType ∧
    f.ipUniverseId = p.ipUniverseId
  inetList : k.inetList = k.rows.map (·.ipAddress)
  matchCount : k.matchCount = k.rows.length
  rndMatches : k.rndMatches = 0
  bound : if c.allocationMethod = .top then
      k.currentIp.addr < p.ipAddress.block.last + 1 - q.margin p
    else p.ipAddress.block.first + q.margin p ≤ k.currentIp.addr

theorem ParentSearch.Fits.eq_of_addr (hx : c.Fits x) (hy : c.Fits y) (h : x.addr = y.addr) :
    x = y :=
  Inet.eq_of_fields (hx.family.trans hy.family.symm) h (hx.masklen.trans hy.masklen.symm)

theorem ParentSearch.Precedes.irrefl {a : ℕ} : ¬ c.Precedes a a := by
  simp only [ParentSearch.Precedes]
  split_ifs <;> omega

theorem Usable.aligned (hx : Usable s q p x) (hv : Masks q v) (hc : Ready q p v c) : ∃ i, x.addr = i * 2 ^ c.height := by
  cases hs : q.singleAddress with
  | true =>
    rw [hc.height_single hs]
    exact ⟨x.addr, by omega⟩
  | false =>
    rw [← hc.hostbits_eq (hx.fits hv hc) hs]
    exact ⟨x.block.index, (congrArg Inet.addr (hx.block hs).1).symm⟩

section Steps

variable (h : InPlace s.netblock) (ht : WellFormed s.netblock) (hp : p ∈ s.netblock)
  (hm : c.allocationMethod = .bottom ∨ c.allocationMethod = .top)
  (hv : Masks q v) (hc : Ready q p v c)

include hm hv hc

theorem Scanning.gap_next (hk : Scanning s q p c k) {n : ℕ} (hnext : c.next o k = .ok (x, n)) :
    c.Precedes k.currentIp.addr x.addr ∧ ∀ e ∈ usableAddrs s q p, c.Precedes e x.addr →
      c.Precedes e k.currentIp.addr ∨ e = k.currentIp.addr := by
  obtain ⟨j, hj⟩ := hk.aligned
  obtain ⟨hbottom, htop⟩ := hc.next_addr hk.fits hj hnext
  have hpos := Nat.two_pow_pos c.height
  have haligned : ∀ e ∈ usableAddrs s q p, ∃ i, e = i * 2 ^ c.height := by
    rintro _ ⟨y, hy, rfl⟩
    exact hy.aligned hv hc
  rcases hm with hm | hm
  · have hx := hbottom hm
    simp only [ParentSearch.Precedes, hm, reduceCtorEq, if_false]
    refine ⟨?_, fun e he hlt => ?_⟩
    · rw [hx, hj, Nat.add_mul]
      omega
    · obtain ⟨i, rfl⟩ := haligned e he
      rw [hx] at hlt
      have hij : i < j + 1 := Nat.lt_of_mul_lt_mul_right hlt
      rcases Nat.lt_succ_iff_lt_or_eq.mp hij with hij | rfl
      · exact Or.inl (by rw [hj]; exact Nat.mul_lt_mul_of_pos_right hij hpos)
      · exact Or.inr hj.symm
  · obtain ⟨j', rfl, hx⟩ := htop hm
    simp only [ParentSearch.Precedes, hm, if_true]
    refine ⟨?_, fun e he hlt => ?_⟩
    · rw [hx, hj, Nat.add_mul]
      omega
    · obtain ⟨i, rfl⟩ := haligned e he
      rw [hx] at hlt
      have hij : j' < i := Nat.lt_of_mul_lt_mul_right hlt
      rcases Nat.lt_or_eq_of_le (Nat.succ_le_of_lt hij) with hij | rfl
      · exact Or.inl (by rw [hj]; exact Nat.mul_lt_mul_of_pos_right hij hpos)
      · exact Or.inr hj.symm

omit hv in
theorem Scanning.gap_jump {nr : NetworkRange} (hk : Scanning s q p c k)
    (hnr : c.netrangeRec s o k.currentIp = some nr) {n : ℕ} (hjump : c.jump s o nr k = .ok (y, n))
    (hset : y.setMasklen c.maxIp.masklen = .ok x) :
    c.Precedes k.currentIp.addr x.addr ∧ ∀ e ∈ usableAddrs s q p, c.Precedes e x.addr →
      c.Precedes e k.currentIp.addr := by
  obtain ⟨start, hstart, stop, hstop, hlo, hhi, hf, hf', hbottom, htop⟩ := jump_addr hnr hjump hset
  obtain ⟨hs, hmem, hparent, -⟩ := netrangeRec_eq_some hnr
  -- an address from the start to the stop lies in the range
  have hout : ∀ e ∈ usableAddrs s q p, ¬ (start.ipAddress.addr ≤ e ∧ e ≤ stop.ipAddress.addr) := by
    rintro _ ⟨z, hz, rfl⟩ ⟨h₁, h₂⟩
    have hzf : z.family = k.currentIp.family := by
      rw [hz.within.1, hk.fits.family, hc.netblockRec]
    refine hz.outside (hc.singleAddress.symm.trans hs) nr hmem (by rw [hparent, hc.netblockRec]) ?_
    exact ⟨start, hstart, stop, hstop, hzf.trans hf, hzf.trans hf', h₁, h₂⟩
  rcases hm with hm | hm
  · have hx := hbottom hm
    simp only [ParentSearch.Precedes, hm, reduceCtorEq, if_false]
    refine ⟨by omega, fun e he hlt => ?_⟩
    have := hout e he
    omega
  · have hx := htop hm
    simp only [ParentSearch.Precedes, hm, if_true]
    refine ⟨by omega, fun e he hlt => ?_⟩
    have := hout e he
    omega

include h ht hp

theorem Scanning.record (hk : Scanning s q p c k) {next : ℕ}
    (hnext : c.Precedes k.currentIp.addr next)
    (hgap : ∀ e ∈ usableAddrs s q p, c.Precedes e next →
      c.Precedes e k.currentIp.addr ∨ e = k.currentIp.addr) :
    Scanned c.Precedes (usableAddrs s q p) ((c.record s k).rows.map (·.ipAddress.addr)) next ∧
      (∀ f ∈ (c.record s k).rows, c.Fits f.ipAddress ∧ f.netblockType = p.netblockType ∧
        f.ipUniverseId = p.ipUniverseId) ∧
      (c.record s k).inetList = (c.record s k).rows.map (·.ipAddress) ∧
      (c.record s k).matchCount = (c.record s k).rows.length ∧ (c.record s k).rndMatches = 0 := by
  rw [ParentSearch.record]
  split
  · refine ⟨?_, fun f hf => ?_, ?_, ?_, rfl⟩
    · show Scanned _ _ ((k.rows ++ [_]).map _) _
      rw [List.map_append]
      exact hk.scanned.take hnext hgap
    · rcases List.mem_append.mp hf with hf | hf
      · exact hk.rows f hf
      · obtain rfl := List.mem_singleton.mp hf
        rw [hc.netblockRec]
        exact ⟨hk.fits, rfl, rfl⟩
    · show k.inetList ++ [k.currentIp] = (k.rows ++ [_]).map _
      rw [List.map_append, hk.inetList]
      rfl
    · show k.matchCount + 1 = ((k.rows ++ [_]).length : ℤ)
      rw [hk.matchCount, List.length_append]
      rfl
  · next hold =>
    rw [if_neg (by rcases hm with hm | hm <;> simp [hm])]
    refine ⟨hk.scanned.skip hnext fun e he hlt => ?_, hk.rows, hk.inetList, hk.matchCount,
      hk.rndMatches⟩
    rcases hgap e he hlt with hlt | rfl
    · exact hlt
    -- the address is usable, so it is neither taken nor among those found before
    obtain ⟨y, hy, haddr⟩ := he
    obtain rfl := (hy.fits hv hc).eq_of_addr hk.fits haddr
    refine absurd ⟨hy.not_taken h ht hp hc, fun hmem => ?_⟩ hold
    rw [hk.inetList] at hmem
    obtain ⟨f, hf, hfip⟩ := List.mem_map.mp hmem
    have := hk.scanned.before _ (List.mem_map_of_mem (f := fun f => f.ipAddress.addr) hf)
    rw [hfip] at this
    exact absurd this ParentSearch.Precedes.irrefl

omit h ht hp hv hc in
theorem Scanning.bound_of_precedes (hk : Scanning s q p c k) {next : ℕ}
    (hnext : c.Precedes k.currentIp.addr next) : if c.allocationMethod = .top then
      next < p.ipAddress.block.last + 1 - q.margin p
    else p.ipAddress.block.first + q.margin p ≤ next := by
  have hbound := hk.bound
  rcases hm with hm | hm
  all_goals
    simp only [ParentSearch.Precedes, hm, reduceCtorEq, if_false, if_true] at hbound hnext ⊢
    omega

theorem Scanning.pass (hk : Scanning s q p c k) (hpass : c.searchPass s o k = .ok (.yield k')) :
    Scanning s q p c k' ∧ c.Precedes k.currentIp.addr k'.currentIp.addr := by
  obtain ⟨-, ⟨nr, y, x, n, hnr, hjump, hx, rfl⟩ | ⟨x, n, -, hnext, rfl⟩⟩ := searchPass_yield hpass
  · obtain ⟨hnext, hgap⟩ := hk.gap_jump hm hc hnr hjump hx
    have hs : q.singleAddress = true := hc.singleAddress.symm.trans (netrangeRec_eq_some hnr).1
    refine ⟨⟨hc.jump_fits hk.fits hnr hjump hx, ?_, hk.scanned.skip hnext hgap, hk.rows,
      hk.inetList, hk.matchCount, hk.rndMatches, hk.bound_of_precedes hm hnext⟩, hnext⟩
    rw [hc.height_single hs]
    exact ⟨x.addr, by simp⟩
  · obtain ⟨hlt, hgap⟩ := hk.gap_next hm hv hc hnext
    obtain ⟨hscanned, hrows, hlist, hcount, hrnd⟩ := hk.record h ht hp hm hv hc hlt hgap
    obtain ⟨j, hj⟩ := hk.aligned
    obtain ⟨hbottom, htop⟩ := hc.next_addr hk.fits hj hnext
    refine ⟨⟨hc.next_fits hk.fits hnext, ?_, hscanned, hrows, hlist, hcount, hrnd,
      hk.bound_of_precedes hm hlt⟩, hlt⟩
    rcases hm with hm | hm
    · exact ⟨_, hbottom hm⟩
    · obtain ⟨i, -, hi⟩ := htop hm
      exact ⟨i, hi⟩

end Steps

/-! ## The beginning and the end of the loop -/

/-- A block of two addresses or more does not end with the first address of its family. -/
theorem last_block_pos (h : 0 < x.hostbits) : 0 < x.block.last := by
  have hpow : 2 ^ 1 ≤ 2 ^ x.hostbits := Nat.pow_le_pow_right (by decide) h
  have hlast := x.block.last_add_one
  have hle : 1 * 2 ^ x.hostbits ≤ (x.block.index + 1) * 2 ^ x.hostbits :=
    Nat.mul_le_mul_right _ (by omega)
  rw [Inet.height_block] at hlast
  omega

theorem margin_le_last (q : FindFree) (p : Netblock) : q.margin p ≤ p.ipAddress.block.last := by
  rw [FindFree.margin]
  split
  · next h => exact last_block_pos (by omega)
  · omega

/-- The largest multiple of `2 ^ h` up to `b` is at least every other one. -/
theorem mul_le_first_of {h b : ℕ} (hi : i * 2 ^ h ≤ b) : i * 2 ^ h ≤ (AlignedBlock.of h b).first :=
  Nat.mul_le_mul_right _ ((Nat.le_div_iff_mul_le (Nat.two_pow_pos h)).mpr hi)

theorem first_of_le (h b : ℕ) : (AlignedBlock.of h b).first ≤ b := Nat.div_mul_le_self b (2 ^ h)

theorem Checked.height_le (hc : Checked q p v c) : c.height ≤ p.ipAddress.hostbits := by
  cases hs : q.singleAddress with
  | true => exact (hc.height_single hs).trans_le (Nat.zero_le _)
  | false =>
    have hsmaller := hc.smaller hs
    have hbits := hc.natCast_netmaskBits
    have hnetmask := hc.netmaskBits
    rw [ParentSearch.height, hc.netblockRec, Inet.hostbits]
    omega

section

variable (hnet : p.ipAddress.network = p.ipAddress) (hd : v.desiredIpAddress = none)
  (hm : c.allocationMethod = .bottom ∨ c.allocationMethod = .top)
include hnet hd hm

/-- **The loop begins** before everything that is usable. -/
theorem Scanning.begin (hv : Masks q v) (hc : Ready q p v c) (hb : c.Begins k.currentIp)
    (hrows : k.rows = []) (hlist : k.inetList = []) (hcount : k.matchCount = 0)
    (hrnd : k.rndMatches = 0) :
    Scanning s q p c k := by
  have hspan := hc.parent hd
  have hfirst : p.ipAddress.addr = p.ipAddress.block.first := (congrArg Inet.addr hnet).symm
  have hmax := hspan.maxAddr
  have hmargin := margin_le_last q p
  have hstart : ∃ j, k.currentIp.addr = j * 2 ^ c.height := by
    rcases hm with hm | hm
    · cases hs : q.singleAddress with
      | true =>
        rw [hc.height_single hs]
        exact ⟨k.currentIp.addr, by simp⟩
      | false =>
        have hzero : q.margin p = 0 := by simp [FindFree.margin, hs]
        refine ⟨p.ipAddress.block.index * 2 ^ (p.ipAddress.hostbits - c.height), ?_⟩
        rw [hb.bottom hm, hspan.minAddr, hzero, Nat.add_zero, hfirst, Nat.mul_assoc, ← pow_add,
          Nat.sub_add_cancel hc.height_le]
        rfl
    · exact ⟨_, hb.top hm⟩
  refine ⟨hb.toFits, hstart, ?_, by simp [hrows], by rw [hlist, hrows]; rfl,
    by rw [hcount, hrows]; rfl, hrnd, ?_⟩
  · rw [hrows]
    refine .start ?_
    rintro _ ⟨x, hx, rfl⟩ hlt
    obtain ⟨hlo, hhi⟩ := hx.bounds
    rcases hm with hm | hm
    · simp only [ParentSearch.Precedes, hm, reduceCtorEq, if_false] at hlt
      rw [hb.bottom hm, hspan.minAddr] at hlt
      omega
    · simp only [ParentSearch.Precedes, hm, if_true] at hlt
      obtain ⟨i, hi⟩ := hx.aligned hv hc
      have hle : i * 2 ^ c.height ≤ c.maxIp.addr - 1 := by omega
      have := mul_le_first_of hle
      rw [hb.top hm] at hlt
      omega
  · rcases hm with hm | hm
    · simp only [hm, reduceCtorEq, if_false]
      rw [hb.bottom hm, hspan.minAddr]
      omega
    · simp only [hm, if_true]
      have := first_of_le c.height (c.maxIp.addr - 1)
      rw [hb.top hm]
      omega

/-- **The loop is left** after everything that is usable, unless it has found enough. -/
theorem Scanning.done (hc : Ready q p v c) (hrnd : 0 < q.rndMaxCount) (hk : Scanning s q p c k)
    (hgoing : ¬ c.Going k) (hcount : ∃ m ∈ q.maxAddresses, (k.rows.length : ℤ) < m) :
    ∀ e ∈ usableAddrs s q p, c.Precedes e k.currentIp.addr := by
  rintro _ ⟨x, hx, rfl⟩
  obtain ⟨hlo, hhi⟩ := hx.bounds
  have hfirst : p.ipAddress.addr = p.ipAddress.block.first := (congrArg Inet.addr hnet).symm
  have hcount' : ∃ m ∈ c.maxAddresses, k.matchCount < m := by
    rw [hc.maxAddresses, hk.matchCount]
    exact hcount
  have hrnd' : k.rndMatches < c.rndMaxCount := by
    rw [hc.rndMaxCount, hk.rndMatches]
    exact hrnd
  have hbetween : ¬ (c.minIp.le k.currentIp ∧ k.currentIp.lt c.maxIp) :=
    fun hb => hgoing ⟨hb.1, hb.2, hcount', hrnd'⟩
  rw [hc.minIp_le_iff hk.fits hd, hc.lt_maxIp_iff hk.fits hd, hfirst, ite_self] at hbetween
  have hbound := hk.bound
  rcases hm with hm | hm
  all_goals
    simp only [ParentSearch.Precedes, hm, reduceCtorEq, if_false, if_true] at hbound ⊢
    omega

end

/-- How far the loop still has to go. -/
def ParentSearch.distance (c : ParentSearch) (k : Cursor) : ℕ :=
  if c.allocationMethod = .top then k.currentIp.addr
  else 2 ^ c.netblockRec.ipAddress.family.bits - k.currentIp.addr

theorem ParentSearch.distance_lt (hk : c.Fits k.currentIp) (hk' : c.Fits k'.currentIp)
    (h : c.Precedes k.currentIp.addr k'.currentIp.addr) : c.distance k' < c.distance k := by
  have hlt := k.currentIp.addr_lt
  have hlt' := k'.currentIp.addr_lt
  rw [hk.family] at hlt
  rw [hk'.family] at hlt'
  rw [ParentSearch.distance, ParentSearch.distance]
  simp only [ParentSearch.Precedes] at h
  split_ifs at h ⊢ <;> omega

theorem ParentSearch.distance_le (hk : c.Fits k.currentIp) :
    c.distance k ≤ 2 ^ c.netblockRec.ipAddress.family.bits := by
  have := k.currentIp.addr_lt
  rw [hk.family] at this
  rw [ParentSearch.distance]
  split_ifs <;> omega

/-! ## No pass fails -/

/-- The parent does not touch the first or the last address of its family. -/
structure InsideFamily (p : Netblock) : Prop where
  first : 0 < p.ipAddress.block.first
  last : p.ipAddress.block.last + 1 < 2 ^ p.ipAddress.family.bits

/-- The network ranges of the parent lie within it, as their trigger demands. -/
def RangesWithin (s : RangeTables) (p : Netblock) : Prop :=
  ∀ nr ∈ s.networkRange, nr.parentNetblockId = p.netblockId → ∀ start ∈ s.start nr,
    ∀ stop ∈ s.stop nr, WithinParent p start stop

theorem jump_total {nr : NetworkRange} (hin : InsideFamily p) (hranges : RangesWithin s p)
    (hm : c.allocationMethod = .bottom ∨ c.allocationMethod = .top) (hc : Ready q p v c)
    (hk : c.Fits k.currentIp) (hnr : c.netrangeRec s o k.currentIp = some nr) :
    ∃ y n x, c.jump s o nr k = .ok (y, n) ∧ y.setMasklen c.maxIp.masklen = .ok x := by
  obtain ⟨hs, hmem, hparent, start, hstart, stop, hstop, hf, hf', -⟩ := netrangeRec_eq_some hnr
  rw [hc.netblockRec] at hparent
  obtain ⟨hstartp, hstopp⟩ := hranges nr hmem hparent start hstart stop hstop
  have hpf : k.currentIp.family = p.ipAddress.family := by rw [hk.family, hc.netblockRec]
  have hset : ∀ y : Inet, y.family = p.ipAddress.family →
      ∃ x, y.setMasklen c.maxIp.masklen = .ok x := by
    intro y hy
    have hmax := (hc.bounds_fit (hc.singleAddress.symm.trans hs)).2.family
    rw [hc.netblockRec] at hmax
    exact ⟨_, Inet.setMasklen_of_le (by rw [hy, ← hmax]; exact c.maxIp.masklen_le)⟩
  rw [ParentSearch.jump, Option.mem_def.mp hstart, Option.mem_def.mp hstop]
  rcases hm with hm | hm
  · have hle := (AlignedBlock.mem_iff_first_last.mp
      (show stop.ipAddress.addr ∈ p.ipAddress.block from hstopp.2.2)).2
    obtain ⟨y, hy⟩ := Inet.exists_add_one (a := stop.ipAddress) (by
      rw [← hf', hpf]
      exact (Nat.add_le_add_right hle 1).trans_lt hin.last)
    obtain ⟨x, hx⟩ := hset y ((Inet.add_eq_ok.mp hy).1.trans (hf'.symm.trans hpf))
    exact ⟨y, k.drawn, x, by rw [hm]; exact bind_eq_ok.mpr ⟨y, hy, rfl⟩, hx⟩
  · have hle := (AlignedBlock.mem_iff_first_last.mp
      (show start.ipAddress.addr ∈ p.ipAddress.block from hstartp.2.2)).1
    obtain ⟨y, hy⟩ := Inet.exists_sub_one (a := start.ipAddress) (hin.first.trans_le hle)
    obtain ⟨x, hx⟩ := hset y ((Inet.sub_eq_ok.mp hy).1.trans (hf.symm.trans hpf))
    exact ⟨y, k.drawn, x, by rw [hm]; exact bind_eq_ok.mpr ⟨y, hy, rfl⟩, hx⟩

theorem next_total (hin : InsideFamily p)
    (hm : c.allocationMethod = .bottom ∨ c.allocationMethod = .top) (hwithin : k.currentIp.subnetEq p.ipAddress) :
    ∃ x n, c.next o k = .ok (x, n) := by
  have hblock := (Inet.subnetEq_iff.mp hwithin).2
  have hle := (AlignedBlock.mem_iff_first_last.mp
    (AlignedBlock.mem_of_le hblock k.currentIp.addr_mem_block))
  have hlast := (AlignedBlock.mem_iff_first_last.mp
    (AlignedBlock.mem_of_le hblock k.currentIp.block.last_mem)).2
  have hf := hwithin.1
  rw [ParentSearch.next]
  rcases hm with hm | hm
  · simp only [hm, if_true]
    split
    · obtain ⟨y, hy⟩ := Inet.exists_add_one (a := k.currentIp) (by
        rw [hf]
        exact (Nat.add_le_add_right hle.2 1).trans_lt hin.last)
      exact ⟨y, k.drawn, by rw [hy]; rfl⟩
    · obtain ⟨y, hy⟩ := Inet.exists_add_one (a := k.currentIp.broadcast) (by
        show k.currentIp.block.last + 1 < 2 ^ k.currentIp.family.bits
        rw [hf]
        exact (Nat.add_le_add_right hlast 1).trans_lt hin.last)
      exact ⟨y.network, k.drawn, by rw [hy]; rfl⟩
  · simp only [hm, reduceCtorEq, if_false]
    obtain ⟨y, hy⟩ := Inet.exists_sub_one (a := k.currentIp) (hin.first.trans_le hle.1)
    split
    · exact ⟨y, k.drawn, by rw [hy]; rfl⟩
    · exact ⟨y.network, k.drawn, by rw [hy]; rfl⟩

/-- **No pass fails** when the parent and its ranges keep away from the ends of the family. -/
theorem searchPass_total (hin : InsideFamily p) (hranges : RangesWithin s p)
    (hm : c.allocationMethod = .bottom ∨ c.allocationMethod = .top) (hc : Ready q p v c)
    (hk : c.Fits k.currentIp) :
    c.searchPass s o k = .ok (.done k) ∨ ∃ k', c.searchPass s o k = .ok (.yield k') := by
  rw [ParentSearch.searchPass]
  split
  · next hgoing =>
    refine Or.inr ?_
    split
    · next nr hnr =>
      obtain ⟨y, n, x, hjump, hx⟩ := jump_total hin hranges hm hc hk hnr
      rw [hjump]
      refine ⟨_, bind_eq_ok.mpr ⟨(y, n), rfl, bind_eq_ok.mpr ⟨x, hx, rfl⟩⟩⟩
    · next hnr =>
      obtain ⟨x, n, hnext⟩ :=
        next_total (o := o) hin hm (hc.within hk hgoing.1 hgoing.2.1)
      rw [← next_record (s := s)] at hnext
      exact ⟨_, bind_eq_ok.mpr ⟨(x, n), hnext, rfl⟩⟩
  · exact Or.inl rfl

section

variable (hlast : p.ipAddress.block.last + 1 < 2 ^ p.ipAddress.family.bits)
include hlast

theorem checkParent_total {method : AllocationMethod} (hd : v.desiredIpAddress = none)
    (hsub : p.canSubnet = !q.singleAddress) (hbits : v.netmaskBits ≤ p.ipAddress.family.bits) :
    ∃ r, q.checkParent v p method = .ok r := by
  obtain ⟨maxIp, hmax⟩ := Inet.exists_add_one (a := p.ipAddress.broadcast) hlast
  rw [FindFree.checkParent, hd]
  refine ⟨(v, some ⟨p, q.singleAddress, method, v.netmaskBits, p.ipAddress, maxIp,
    q.maxAddresses, q.rndMaxCount⟩), bind_unit_eq_ok.mpr ⟨raiseIf_eq_ok.mpr (by omega), ?_⟩⟩
  rw [if_neg (by simp)]
  refine bind_unit_eq_ok.mpr ⟨raiseIf_eq_ok.mpr (by simp [hsub]), bind_unit_eq_ok.mpr
    ⟨raiseIf_eq_ok.mpr (by simp [hsub]), bind_eq_ok.mpr ⟨(p.ipAddress, maxIp), ?_, rfl⟩⟩⟩
  exact bind_eq_ok.mpr ⟨maxIp, hmax, rfl⟩

theorem prepare_total (hd : v.desiredIpAddress = none) (hsub : p.canSubnet = !q.singleAddress)
    (hbits : q.singleAddress = false → v.netmaskBits ≤ p.ipAddress.family.bits) :
    ∃ r, q.prepare v p = .ok r := by
  rw [FindFree.prepare, if_neg (by simp [hd])]
  dsimp only
  split
  · rw [FindFree.singleMasks, hd]
    exact checkParent_total hlast rfl hsub le_rfl
  · next hs =>
    split
    · exact ⟨_, rfl⟩
    · exact checkParent_total hlast hd hsub (hbits (by simpa using hs))

theorem adjustSingle_total (hm : c.allocationMethod = .bottom ∨ c.allocationMethod = .top)
    (hc : Prepared q p v c) (hd : v.desiredIpAddress = none)
    (hfirst : p.ipAddress.addr = p.ipAddress.block.first) (hxf : x.family = p.ipAddress.family)
    (hbottom : c.allocationMethod = .bottom → x.addr = p.ipAddress.addr)
    (htop : c.allocationMethod = .top → x.addr = p.ipAddress.block.last + 1 - 1) :
    ∃ r, c.adjustSingle v.desiredIpAddress.isSome x = .ok r := by
  obtain rfl := hc.netblockRec
  have hspan := hc.spans.1 hd
  have hle := c.netblockRec.ipAddress.block.first_le_last
  obtain ⟨z, hz, hzf, hza⟩ : ∃ z, x.setMasklen c.netblockRec.ipAddress.masklen = .ok z ∧
      z.family = c.netblockRec.ipAddress.family ∧ z.addr = x.addr :=
    ⟨_, Inet.setMasklen_of_le (by rw [hxf]; exact c.netblockRec.ipAddress.masklen_le), hxf, rfl⟩
  rw [ParentSearch.adjustSingle]
  by_cases hcond : (c.netblockRec.ipAddress.masklen : ℤ) < c.netblockRec.ipAddress.family.bits - 1 ∧
    v.desiredIpAddress.isSome = false
  · obtain ⟨y, hy⟩ : ∃ y, z.add (if c.allocationMethod = .top then -1 else 1) = .ok y := by
      rcases hm with hm | hm
      · rw [if_neg (by simp [hm])]
        refine Inet.exists_add_one ?_
        rw [hzf, hza, hbottom hm]
        omega
      · rw [if_pos hm]
        refine Inet.exists_sub_one ?_
        have := last_block_pos (x := c.netblockRec.ipAddress) (by
          rw [Inet.hostbits]
          omega)
        rw [hza, htop hm]
        omega
    obtain ⟨lo, hlo⟩ := Inet.exists_add_one (a := c.minIp) (by
      rw [hspan.minAddr, hspan.minFamily]
      omega)
    obtain ⟨hi, hhi⟩ := Inet.exists_sub_one (a := c.maxIp) (by rw [hspan.maxAddr]; omega)
    refine ⟨({ c with minIp := lo, maxIp := hi }, y), bind_eq_ok.mpr ⟨z, hz, ?_⟩⟩
    rw [if_pos hcond]
    exact bind_eq_ok.mpr ⟨y, hy, bind_eq_ok.mpr ⟨lo, hlo, bind_eq_ok.mpr ⟨hi, hhi, rfl⟩⟩⟩
  · refine ⟨(c, z), bind_eq_ok.mpr ⟨z, hz, ?_⟩⟩
    rw [if_neg hcond]

end

/-- The mask that the search has settled on suits every address of the family. -/
theorem Checked.exists_setMasklen (hc : Checked q p v c) (hy : y.family = p.ipAddress.family) :
    ∃ z, y.setMasklen c.netmaskBits = .ok z := by
  have hbits := hc.natCast_netmaskBits
  have := hc.le_bits
  have := hc.netmaskBits
  rw [← hbits]
  refine ⟨_, Inet.setMasklen_of_le ?_⟩
  rw [hy]
  omega

theorem start_total (hlast : p.ipAddress.block.last + 1 < 2 ^ p.ipAddress.family.bits)
    (hnet : p.ipAddress.network = p.ipAddress)
    (hd : v.desiredIpAddress = none)
    (hm : c.allocationMethod = .bottom ∨ c.allocationMethod = .top) (hv : Masks q v)
    (hc : Prepared q p v c) : ∃ r, c.start o v = .ok r := by
  have hspan := hc.spans.1 hd
  have hfirst : p.ipAddress.addr = p.ipAddress.block.first := (congrArg Inet.addr hnet).symm
  obtain ⟨x, n, hx⟩ : ∃ x n, c.firstIp o v.drawn = .ok (x, n) := by
    rw [ParentSearch.firstIp]
    rcases hm with hm | hm
    · obtain ⟨z, hz⟩ := hc.exists_setMasklen hc.family.1
      exact ⟨z, v.drawn, by rw [hm]; exact bind_eq_ok.mpr ⟨z, hz, rfl⟩⟩
    · obtain ⟨y, hy⟩ := Inet.exists_sub_one (a := c.maxIp) (by rw [hspan.maxAddr]; omega)
      obtain ⟨z, hz⟩ := hc.exists_setMasklen ((Inet.sub_eq_ok.mp hy).1.trans hc.family.2)
      exact ⟨z.network, v.drawn, by
        rw [hm]
        exact bind_eq_ok.mpr ⟨y, hy, bind_eq_ok.mpr ⟨z, hz, rfl⟩⟩⟩
  obtain ⟨hxf, -, hbottom, htop⟩ := firstIp_ok hv hc hx
  rw [ParentSearch.start, hx]
  show ∃ r, (if c.singleAddress = true then _ else _) = _
  split
  · next hs =>
    have hs := hc.singleAddress.symm.trans hs
    rw [hc.height_single hs, AlignedBlock.first_of_zero, hspan.maxAddr] at htop
    rw [hspan.minAddr] at hbottom
    obtain ⟨r, hr⟩ := adjustSingle_total hlast hm hc hd hfirst hxf hbottom htop
    exact ⟨_, bind_eq_ok.mpr ⟨r, hr, rfl⟩⟩
  · exact ⟨_, rfl⟩

/-! ## The search of one parent -/

/-- A request for the addresses in order. -/
structure FindFree.Sequential (q : FindFree) : Prop where
  method : q.allocationMethod = some "top" ∨ q.allocationMethod = some "bottom"
  desired : q.desiredIpAddress = none
  rndMaxCount : 0 < q.rndMaxCount

/-- The order of the results: upwards, or downwards with the method `top`. -/
def FindFree.InOrder (q : FindFree) (f g : FreeNetblock) : Prop :=
  if q.allocationMethod = some "top" then g.ipAddress.addr < f.ipAddress.addr
  else f.ipAddress.addr < g.ipAddress.addr

theorem methodFor_top (h : q.allocationMethod = some "top") : q.methodFor false p = .top := by
  simp [FindFree.methodFor, h]

theorem methodFor_bottom (h : q.allocationMethod = some "bottom") :
    q.methodFor false p = .bottom := by
  simp [FindFree.methodFor, h]

theorem Checked.sequential (hc : Checked q p v c) (hq : q.Sequential)
    (hd : v.desiredIpAddress = none) :
    (c.allocationMethod = .bottom ∨ c.allocationMethod = .top) ∧
      ∀ f g : FreeNetblock, c.Precedes f.ipAddress.addr g.ipAddress.addr → q.InOrder f g := by
  have hm := hc.method
  rw [hd] at hm
  rcases hq.method with h | h
  · have hm := hm.trans (methodFor_top h)
    refine ⟨Or.inr hm, fun f g hfg => ?_⟩
    rw [ParentSearch.Precedes, if_pos hm] at hfg
    rwa [FindFree.InOrder, if_pos h]
  · have hm := hm.trans (methodFor_bottom h)
    refine ⟨Or.inl hm, fun f g hfg => ?_⟩
    rw [ParentSearch.Precedes, if_neg (by simp [hm])] at hfg
    rwa [FindFree.InOrder, if_neg (by simp [h])]

/-- Nothing has been found yet. -/
structure Search.Fresh (v : Search) : Prop where
  rows : v.rows = []
  inetList : v.inetList = []
  matchCount : v.matchCount = 0
  desired : v.desiredIpAddress = none

/-- Without a desired address, the checks skip a parent only for its size. -/
theorem prepare_none (hd : v.desiredIpAddress = none) (h : q.prepare v p = .ok (v', none)) :
    v' = v ∧ q.singleAddress = false ∧ v.netmaskBits ≤ p.ipAddress.masklen := by
  have hcheck : ∀ {v method}, v.desiredIpAddress = none →
      q.checkParent v p method ≠ .ok (v', none) := by
    intro v method hd h
    rw [FindFree.checkParent, hd] at h
    obtain ⟨-, h⟩ := bind_unit_eq_ok.mp h
    rw [if_neg (by simp)] at h
    obtain ⟨-, h⟩ := bind_unit_eq_ok.mp h
    obtain ⟨-, h⟩ := bind_unit_eq_ok.mp h
    obtain ⟨b, -, h⟩ := bind_eq_ok.mp h
    cases h
  rw [FindFree.prepare, if_neg (by simp [hd])] at h
  dsimp only at h
  split at h
  · obtain ⟨v₁, hmasks, h⟩ := bind_eq_ok.mp h
    rw [FindFree.singleMasks, hd] at hmasks
    obtain rfl := Except.ok.inj hmasks
    exact absurd h (hcheck rfl)
  · next hs =>
    split at h
    · next hle => exact ⟨(Prod.mk.inj (Except.ok.inj h)).1.symm, by simpa using hs, hle⟩
    · exact absurd h (hcheck hd)

theorem Search.Fresh.of_sameRows (hv : v.Fresh) (hsame : SameRows v v') (hq : q.Sequential)
    (hv' : Masks q v') : v'.Fresh where
  rows := hsame.rows.trans hv.rows
  inetList := hsame.inetList.trans hv.inetList
  matchCount := hsame.matchCount.trans hv.matchCount
  desired := by
    have := hv'.desired
    rw [hq.desired] at this
    simpa using this

section Parent

variable (ht : WellFormed s.netblock) (h : InPlace s.netblock) (hp : p ∈ s.netblock)
  (hnet : p.ipAddress.network = p.ipAddress) (hq : q.Sequential) (hv : Masks q v)

theorem Scanning.start (hnet : p.ipAddress.network = p.ipAddress) (hq : q.Sequential)
    (hv : Masks q v) (hfresh : v.Fresh) (hc : Prepared q p v c) (hstart : c.start o v = .ok (c', k)) :
    Ready q p v c' ∧ Scanning s q p c' k := by
  obtain ⟨hready, hbegins, hrnd, hk⟩ := start_ok hv hc hstart
  refine ⟨hready, .begin hnet hfresh.desired (hready.sequential hq hfresh.desired).1 hv hready
    hbegins ?_ ?_ ?_ hrnd⟩
  · rw [hk]
    exact hfresh.rows
  · rw [hk]
    exact hfresh.inetList
  · rw [hk]
    exact hfresh.matchCount

include ht h hp hnet hq hv

/-- **Partial correctness** of the search of one parent. -/
theorem searchParent_complete (hfresh : v.Fresh)
    (hr : Returns (searchParent s o q passes v p.netblockId) v') :
    v'.rows.Pairwise q.InOrder ∧ ((∃ m ∈ q.maxAddresses, (v'.rows.length : ℤ) < m) →
      ∀ x, Usable s q p x → ⟨x, p.netblockType, p.ipUniverseId⟩ ∈ v'.rows) := by
  rw [searchParent, ht.findNetblock_mem hp] at hr
  dsimp only at hr
  obtain ⟨⟨v₁, r⟩, hprepare, hr⟩ := returns_bind.mp hr
  have hprepare := returns_ended.mp hprepare
  obtain ⟨hsame, hv₁, hprepared⟩ := prepare_ok hv hprepare
  have hfresh₁ := hfresh.of_sameRows hsame hq hv₁
  cases r with
  | none =>
    obtain rfl := returns_pure.mp hr
    obtain ⟨-, hs, hle⟩ := prepare_none hfresh.desired hprepare
    refine ⟨by rw [hfresh₁.rows]; exact .nil, fun _ x hx => ?_⟩
    -- every usable block is smaller than the parent
    have hlt := (hx.block hs).2
    have := (hv.requested hs p _).mp hx.requested
    omega
  | some c =>
    obtain ⟨⟨c', k⟩, hstart, hr⟩ := returns_bind.mp hr
    obtain ⟨hready, hscanning⟩ :=
      Scanning.start (s := s) hnet hq hv₁ hfresh₁ (hprepared c rfl) (returns_ended.mp hstart)
    obtain ⟨k', hloop, hr⟩ := returns_bind.mp hr
    obtain rfl := returns_pure.mp hr
    obtain ⟨hm, horder⟩ := hready.sequential hq hfresh₁.desired
    obtain ⟨hk', hgoing⟩ : Scanning s q p c' k' ∧ ¬ c'.Going k' := by
      refine loop_returns (J := fun k => Scanning s q p c' k ∧ ¬ c'.Going k)
        (fun k₁ k₂ hk₁ hpass => ?_) (fun k₁ k₂ hk₁ hpass => ?_) hscanning hloop
      · exact (hk₁.pass h ht hp hm hv₁ hready hpass).1
      · obtain ⟨rfl, hgoing⟩ := searchPass_done hpass
        exact ⟨hk₁, hgoing⟩
    refine ⟨?_, fun hcount x hx => ?_⟩
    · exact (List.pairwise_map.mp hk'.scanned.sorted).imp (horder _ _)
    · have hmem := hk'.scanned.all
        (hk'.done hnet hfresh₁.desired hm hready hq.rndMaxCount hgoing hcount) x.addr ⟨x, hx, rfl⟩
      obtain ⟨f, hf, haddr⟩ := List.mem_map.mp hmem
      obtain ⟨hfits, hτ, hu⟩ := hk'.rows f hf
      obtain rfl := hfits.eq_of_addr (hx.fits hv₁ hready) haddr
      rw [← hτ, ← hu]
      exact hf

/-- **Termination** of the search of one parent. -/
theorem searchParent_finishes (hfresh : v.Fresh) (hpasses : 2 ^ p.ipAddress.family.bits < passes) :
    Finishes (searchParent s o q passes v p.netblockId) := by
  rw [searchParent, ht.findNetblock_mem hp]
  refine finishes_bind (finishes_ended _) ?_
  rintro ⟨v₁, r⟩ hprepare
  obtain ⟨hsame, hv₁, hprepared⟩ := prepare_ok hv (returns_ended.mp hprepare)
  have hfresh₁ := hfresh.of_sameRows hsame hq hv₁
  cases r with
  | none => exact finishes_ended _
  | some c =>
    refine finishes_bind (finishes_ended _) ?_
    rintro ⟨c', k⟩ hstart
    obtain ⟨hready, hscanning⟩ :=
      Scanning.start (s := s) hnet hq hv₁ hfresh₁ (hprepared c rfl) (returns_ended.mp hstart)
    refine finishes_bind ?_ fun _ _ => finishes_ended _
    obtain ⟨hm, -⟩ := hready.sequential hq hfresh₁.desired
    refine loop_finishes c'.distance (fun k₁ k₂ hk₁ hpass => ?_) hscanning ?_
    · obtain ⟨hk₂, hprecedes⟩ := hk₁.pass h ht hp hm hv₁ hready hpass
      exact ⟨hk₂, ParentSearch.distance_lt hk₁.fits hk₂.fits hprecedes⟩
    · have := ParentSearch.distance_le hscanning.fits
      rw [hready.netblockRec] at this
      omega

/-- **Total correctness** of the search of one parent. -/
theorem searchParent_total (hfresh : v.Fresh) (hin : InsideFamily p) (hranges : RangesWithin s p)
    (hsub : p.canSubnet = !q.singleAddress)
    (hbits : q.singleAddress = false → v.netmaskBits ≤ p.ipAddress.family.bits)
    (hpasses : 2 ^ p.ipAddress.family.bits < passes) :
    ∃ v', Returns (searchParent s o q passes v p.netblockId) v' := by
  rw [searchParent, ht.findNetblock_mem hp]
  dsimp only
  obtain ⟨⟨v₁, r⟩, hprepare⟩ := prepare_total hin.last hfresh.desired hsub hbits
  obtain ⟨hsame, hv₁, hprepared⟩ := prepare_ok hv hprepare
  have hfresh₁ := hfresh.of_sameRows hsame hq hv₁
  have hprepare := returns_ended.mpr hprepare
  cases r with
  | none => exact ⟨v₁, returns_bind.mpr ⟨_, hprepare, returns_pure.mpr rfl⟩⟩
  | some c =>
    have hc := hprepared c rfl
    obtain ⟨⟨c', k⟩, hstart⟩ := start_total (o := o) hin.last hnet hfresh₁.desired
      (hc.sequential hq hfresh₁.desired).1 hv₁ hc
    obtain ⟨hready, hscanning⟩ := Scanning.start (s := s) hnet hq hv₁ hfresh₁ hc hstart
    obtain ⟨hm, -⟩ := hready.sequential hq hfresh₁.desired
    obtain ⟨k', hloop, -⟩ : ∃ k', Returns (loop (c'.searchPass s o) passes k) k' ∧ True := by
      refine loop_total (I := Scanning s q p c') c'.distance (fun k₁ hk₁ => ?_) hscanning ?_
      · rcases searchPass_total (o := o) hin hranges hm hready hk₁.fits with hpass | ⟨k₂, hpass⟩
        · exact Or.inl ⟨k₁, hpass, trivial⟩
        · obtain ⟨hk₂, hprecedes⟩ := hk₁.pass h ht hp hm hv₁ hready hpass
          exact Or.inr ⟨k₂, hpass, hk₂, ParentSearch.distance_lt hk₁.fits hk₂.fits hprecedes⟩
      · have := ParentSearch.distance_le hscanning.fits
        rw [hready.netblockRec] at this
        omega
    exact ⟨k'.toSearch, returns_bind.mpr ⟨_, hprepare, returns_bind.mpr
      ⟨_, returns_ended.mpr hstart, returns_bind.mpr ⟨k', hloop, returns_pure.mpr rfl⟩⟩⟩⟩

end Parent

/-! ## The function -/

/-- The request asks a parent for what it can have: single addresses of a network that is not
subnettable, or blocks of one that is. -/
structure FindFree.Suits (q : FindFree) (p : Netblock) : Prop where
  kind : p.canSubnet = !q.singleAddress
  bits : q.singleAddress = false → ∃ bits ∈ q.netmaskBits, bits ≤ p.ipAddress.family.bits

theorem sanitize_total (hq : q.Sequential) (hs : q.Suits p) : ∃ bits,
    q.sanitize = .ok (bits, none) ∧
      (q.singleAddress = false → bits ≤ p.ipAddress.family.bits) := by
  have hmethod : ¬ ∃ m ∈ q.allocationMethod, m ∉ ["top", "bottom", "random", "default"] := by
    rintro ⟨m, hm, hnot⟩
    rcases hq.method with h | h
    all_goals
      rw [h] at hm
      obtain rfl := Option.mem_some_iff.mp hm
      simp at hnot
  have hrandom : q.allocationMethod ≠ some "random" := by
    rcases hq.method with h | h <;> simp [h]
  rw [FindFree.sanitize]
  cases hsingle : q.singleAddress with
  | true =>
    refine ⟨q.netmaskBits.getD 0, bind_unit_eq_ok.mpr ⟨raiseIf_eq_ok.mpr hmethod, ?_⟩, fun h => absurd h (by decide)⟩
    rw [if_pos rfl, hq.desired]
  | false =>
    obtain ⟨bits, hbits, hle⟩ := hs.bits hsingle
    refine ⟨bits, bind_unit_eq_ok.mpr ⟨raiseIf_eq_ok.mpr hmethod, ?_⟩, fun _ => hle⟩
    rw [if_neg (by decide), FindFree.networkMasks, hq.desired, Option.mem_def.mp hbits]
    exact bind_eq_ok.mpr ⟨_, rfl, bind_unit_eq_ok.mpr ⟨raiseIf_eq_ok.mpr hrandom, rfl⟩⟩

theorem Sequential.fresh {bits : ℤ} {desired : Option Inet} (hq : q.Sequential)
    (h : q.sanitize = .ok (bits, desired)) :
    Masks q { netmaskBits := bits, desiredIpAddress := desired } ∧
      Search.Fresh { netmaskBits := bits, desiredIpAddress := desired } := by
  have hv : Masks q { netmaskBits := bits, desiredIpAddress := desired } := .of_sanitize h rfl rfl
  refine ⟨hv, rfl, rfl, rfl, ?_⟩
  have := hv.desired
  rw [hq.desired] at this
  simpa using this

/-- **The sequential search misses nothing**: its results come in order, and when there are fewer
than `max_addresses`, everything that is usable is among them.  The search comes to its end, and
without an error when the arguments suit the parent and the ranges lie within it. -/
theorem findFreeNetblocks_complete (ht : WellFormed s.netblock) (h : InPlace s.netblock)
    (hp : p ∈ s.netblock) (hnet : p.isSingleAddress = false) (hin : InsideFamily p)
    (hq : q.Sequential) :
    (∀ passes rows, Returns (findFreeNetblocks s o q passes [p.netblockId]) rows →
      rows.Pairwise q.InOrder ∧ ((∃ m ∈ q.maxAddresses, (rows.length : ℤ) < m) →
        ∀ x, Usable s q p x → ⟨x, p.netblockType, p.ipUniverseId⟩ ∈ rows)) ∧
    ∀ passes, 2 ^ p.ipAddress.family.bits < passes →
      Finishes (findFreeNetblocks s o q passes [p.netblockId]) ∧
      (q.Suits p → RangesWithin s p →
        ∃ rows, Returns (findFreeNetblocks s o q passes [p.netblockId]) rows) := by
  have hnet := ht.network p hp hnet
  refine ⟨fun passes rows hr => ?_, fun passes hpasses => ⟨?_, fun hsuits hranges => ?_⟩⟩
  · obtain ⟨⟨bits, desired⟩, hsanitize, hr⟩ := returns_bind.mp hr
    obtain ⟨v, hsearch, hr⟩ := returns_bind.mp hr
    obtain rfl := returns_pure.mp hr
    obtain ⟨v₁, hparent, hsearch⟩ := returns_bind.mp hsearch
    obtain rfl := returns_pure.mp hsearch
    obtain ⟨hv, hfresh⟩ := Sequential.fresh hq (returns_ended.mp hsanitize)
    exact searchParent_complete ht h hp hnet hq hv hfresh hparent
  · refine finishes_bind (finishes_ended _) ?_
    rintro ⟨bits, desired⟩ hsanitize
    obtain ⟨hv, hfresh⟩ := Sequential.fresh hq (returns_ended.mp hsanitize)
    refine finishes_bind (finishes_bind ?_ fun _ _ => finishes_ended _) fun _ _ => finishes_ended _
    exact searchParent_finishes ht h hp hnet hq hv hfresh hpasses
  · obtain ⟨bits, hsanitize, hbits⟩ := sanitize_total hq hsuits
    obtain ⟨hv, hfresh⟩ := Sequential.fresh hq hsanitize
    obtain ⟨v, hparent⟩ := searchParent_total (o := o) ht h hp hnet hq hv hfresh hin hranges
      hsuits.kind hbits hpasses
    exact ⟨v.rows, returns_bind.mpr ⟨_, returns_ended.mpr hsanitize, returns_bind.mpr ⟨v,
      returns_bind.mpr ⟨v, hparent, returns_pure.mpr rfl⟩, returns_pure.mpr rfl⟩⟩⟩

/-- The search of the network of eight addresses returns a usable address. -/
theorem findFreeNetblocks_complete_eightAddresses :
    ∃ rows, Returns (findFreeNetblocks eightAddresses .first
        { singleAddress := true, allocationMethod := some "bottom" } 8 [2]) rows ∧
      ⟨.v4 10 0 0 13 29, "default", 0⟩ ∈ rows := by
  have hrows : Returns (findFreeNetblocks eightAddresses .first
      { singleAddress := true, allocationMethod := some "bottom" } 8 [2])
      [⟨.v4 10 0 0 10 29, "default", 0⟩, ⟨.v4 10 0 0 13 29, "default", 0⟩,
        ⟨.v4 10 0 0 14 29, "default", 0⟩] := by decide
  have husable : Usable eightAddresses { singleAddress := true, allocationMethod := some "bottom" }
      ⟨2, .v4 10 0 0 8 29, "default", false, false, some 1, 0⟩ (.v4 10 0 0 13 29) := by
    refine ⟨by decide, rfl, fun h => absurd h (by decide), fun _ _ => by decide, ?_, ?_⟩
    · simp only [NetworkRange.Holds]
      decide
    · have hapart : ∀ n ∈ eightAddresses.netblock, n.parentNetblockId = some 2 →
          ¬ ((Inet.v4 10 0 0 13 32).subnetEq n.extent ∨
            n.extent.subnetEq (.v4 10 0 0 13 32)) := by decide
      exact fun n hn hchild => Inet.overlaps_iff.not.mpr (hapart n hn hchild)
  refine ⟨_, hrows, ?_⟩
  exact ((findFreeNetblocks_complete (by decide) (by decide) (by decide) rfl ⟨by decide, by decide⟩
    ⟨Or.inr rfl, rfl, by decide⟩).1 8 _ hrows).2 ⟨1024, rfl, by decide⟩ _ husable

def emptyNetwork : RangeTables where
  netblock := [⟨1, .v4 10 0 0 0 24, "default", false, true, none, 0⟩]
  networkRange := []
  valNetworkRangeType := []

/-- **A block as large as the parent** is not returned, although nothing is in its way. -/
theorem wholeParent_skipped : WellFormed emptyNetwork.netblock ∧ InPlace emptyNetwork.netblock ∧
    Returns (findFreeNetblocks emptyNetwork .first
      { netmaskBits := some 24, allocationMethod := some "bottom" } 8 [1]) [] ∧
    (Inet.v4 10 0 0 0 24).subnetEq (.v4 10 0 0 0 24) ∧ (Inet.v4 10 0 0 0 24).masklen = 24 ∧
    (Inet.v4 10 0 0 0 24).network = .v4 10 0 0 0 24 ∧
    ∀ n ∈ emptyNetwork.netblock, n.parentNetblockId ≠ some 1 := by
  decide

end JazzHands

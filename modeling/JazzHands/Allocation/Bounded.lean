import JazzHands.Allocation.Complete

/-!
# The search comes to its end

From the bottom and from the top every pass of the loop of `find_free_netblocks` moves on.  At random
it is the counter of misses that ends the loop, and a pass that finds a network range does not count
as a miss.
-/

namespace JazzHands

open Library Postgres

variable {s : RangeTables} {o : Outcomes} {q : FindFree} {p : Netblock} {v v' : Search}
variable {c c' : ParentSearch} {k k' k₁ k₂ : Cursor} {x y : Inet} {n m i passes : ℕ} {l : List ℕ}

/-- `k'` is what `n` passes make of `k`. -/
inductive ParentSearch.Passes (c : ParentSearch) (s : RangeTables) (o : Outcomes) :
    ℕ → Cursor → Cursor → Prop
  | refl (k : Cursor) : Passes c s o 0 k k
  | step {n : ℕ} {k k₁ k' : Cursor} (hpass : c.searchPass s o k = .ok (.yield k₁))
      (h : Passes c s o n k₁ k') : Passes c s o (n + 1) k k'

/-- The loop has finitely many passes and, at random, at most `rnd_max_count` one after the other
that return nothing. -/
structure ParentSearch.Bounded (c : ParentSearch) (s : RangeTables) (o : Outcomes) (k : Cursor) :
    Prop where
  finite : ∃ passes, Finishes (loop (c.searchPass s o) passes k)
  misses : c.allocationMethod = .random → ∀ m n k₁ k₂, c.Passes s o m k k₁ →
    c.Passes s o n k₁ k₂ → k₂.rows = k₁.rows → n ≤ c.rndMaxCount.toNat

/-- The loop over the addresses of a parent in the list is run from `k`. -/
inductive EntersLoop (s : RangeTables) (o : Outcomes) (q : FindFree) :
    Search → List ℕ → ParentSearch → Cursor → Prop
  | here {v v' : Search} {i : ℕ} {l : List ℕ} {p : Netblock} {c c' : ParentSearch} {k : Cursor}
      (hp : findNetblock s.netblock i = some p) (hprepare : q.prepare v p = .ok (v', some c))
      (hstart : c.start o v' = .ok (c', k)) : EntersLoop s o q v (i :: l) c' k
  | later {v v' : Search} {i passes : ℕ} {l : List ℕ} {c : ParentSearch} {k : Cursor}
      (hparent : Returns (searchParent s o q passes v i) v') (h : EntersLoop s o q v' l c k) :
      EntersLoop s o q v (i :: l) c k

/-- Every loop of the call is bounded. -/
def SearchBounded (s : RangeTables) (o : Outcomes) (q : FindFree) (parentNetblockList : List ℕ) :
    Prop :=
  ∀ netmaskBits desiredIpAddress, q.sanitize = .ok (netmaskBits, desiredIpAddress) → ∀ c k,
    EntersLoop s o q { netmaskBits, desiredIpAddress } parentNetblockList c k → c.Bounded s o k

/-- The address can be drawn in a search of the parent. -/
structure Drawable (p : Netblock) (x : Inet) : Prop where
  family : x.family = p.ipAddress.family
  first : p.ipAddress.addr + 2 ≤ x.addr
  drawn : (x.addr : ℤ) ≤ p.ipAddress.addr + 1 + maxRndValue p
  last : x.addr < p.ipAddress.block.last

/-- A network range of the parent is around an address that can be drawn. -/
def RangeDrawable (s : RangeTables) (p : Netblock) : Prop :=
  ∃ nr ∈ s.networkRange, nr.parentNetblockId = p.netblockId ∧ ∃ x, Drawable p x ∧ nr.Holds s x

/-- The parent is searched at random, for at least one address, and one of its network ranges is
around an address that can be drawn. -/
structure Trapped (s : RangeTables) (q : FindFree) (p : Netblock) : Prop where
  singleAddress : q.singleAddress = true
  canSubnet : p.canSubnet = false
  desired : q.desiredIpAddress = none
  known : ∀ m ∈ q.allocationMethod, m ∈ ["top", "bottom", "random", "default"]
  method : q.methodFor false p = .random
  maxAddresses : ∃ m ∈ q.maxAddresses, 0 < m
  rndMaxCount : 0 < q.rndMaxCount
  room : p.ipAddress.block.last + 1 < 2 ^ p.ipAddress.family.bits
  range : RangeDrawable s p

/-! ## What is drawn -/

/-- With two host bits or more there is an address to draw. -/
theorem maxRndValue_pos (h : 2 ≤ p.ipAddress.hostbits) : 0 < maxRndValue p := by
  rw [maxRndValue]
  split
  · decide
  · next hlt =>
    have hle : (0x7fffffffffffffff : ℕ) >>> 61 ≤
        0x7fffffffffffffff >>> (63 - p.ipAddress.hostbits) := by
      rw [Nat.shiftRight_eq_div_pow, Nat.shiftRight_eq_div_pow]
      exact Nat.div_le_div_left (Nat.pow_le_pow_right (by decide) (by omega)) (Nat.two_pow_pos _)
    have : (0x7fffffffffffffff : ℕ) >>> 61 = 3 := by decide
    omega

theorem maxRndValue_lt : maxRndValue p < 2 ^ 63 := by
  rw [maxRndValue, Nat.shiftRight_eq_div_pow]
  have := Nat.div_le_self 0x7fffffffffffffff
    (2 ^ (if 63 ≤ p.ipAddress.hostbits then 0 else 63 - p.ipAddress.hostbits))
  omega

/-- A draw is at least one and at most `max_rnd_value` after the lower bound. -/
theorem randomIp_addr (hp : c.netblockRec = p) (hbits : 2 ≤ p.ipAddress.hostbits)
    (h : c.randomIp o n = .ok x) :
    c.minIp.addr + 1 ≤ x.addr ∧ (x.addr : ℤ) ≤ c.minIp.addr + maxRndValue p := by
  simp only [ParentSearch.randomIp, bind_unit_eq_ok] at h
  obtain ⟨-, -, haddr⟩ := Inet.add_eq_ok.mp h.2
  have hpos := maxRndValue_pos hbits
  rw [hp] at haddr
  have hlo := Int.emod_nonneg
    ((((o.random n).high <<< 32 + (o.random n).low + 1 : ℕ)) : ℤ) hpos.ne'
  have hhi := Int.emod_lt_of_pos
    ((((o.random n).high <<< 32 + (o.random n).low + 1 : ℕ)) : ℤ) hpos
  omega

/-- Every distance up to `max_rnd_value` is drawn for some values of `random()`. -/
theorem exists_randomPair {d : ℕ} (hd : (d : ℤ) < maxRndValue p) :
    ∃ r : RandomPair, r.high <<< 32 + r.low + 1 < 2 ^ 63 ∧
      ((r.high <<< 32 + r.low + 1 : ℕ) : ℤ) % maxRndValue p = d := by
  have hlt := maxRndValue_lt (p := p)
  obtain ⟨w, hpos, hw, hmod⟩ : ∃ w : ℕ, 0 < w ∧ w < 2 ^ 63 ∧ (w : ℤ) % maxRndValue p = d := by
    rcases Nat.eq_zero_or_pos d with rfl | hpos
    · refine ⟨(maxRndValue p).toNat, by omega, by omega, ?_⟩
      rw [Int.toNat_of_nonneg (by omega)]
      exact Int.emod_self
    · exact ⟨d, hpos, by omega, Int.emod_eq_of_lt (by omega) hd⟩
  refine ⟨⟨(w - 1) / 2 ^ 32, (w - 1) % 2 ^ 32, by omega, by omega⟩, ?_, ?_⟩ <;>
  · have hsum : ((w - 1) / 2 ^ 32) <<< 32 + (w - 1) % 2 ^ 32 + 1 = w := by
      rw [Nat.shiftLeft_eq]
      omega
    simp only [hsum]
    assumption

/-! ## The sequential methods -/

/-- From the bottom and from the top every address is further on than the last one. -/
theorem next_precedes (hm : c.allocationMethod ≠ .random)
    (h : c.next o k = .ok (x, n)) : c.Precedes k.currentIp.addr x.addr := by
  rw [ParentSearch.next] at h
  rw [ParentSearch.Precedes]
  split at h
  · split at h
    · next hbottom =>
      obtain ⟨y, hadd, h⟩ := bind_eq_ok.mp h
      obtain ⟨rfl, -⟩ := Prod.mk.inj (Except.ok.inj h)
      have haddr := (Inet.add_eq_ok.mp hadd).2.2
      rw [if_neg (by rw [hbottom]; decide)]
      omega
    · next htop =>
      obtain ⟨y, hsub, h⟩ := bind_eq_ok.mp h
      obtain ⟨rfl, -⟩ := Prod.mk.inj (Except.ok.inj h)
      have haddr := (Inet.sub_eq_ok.mp hsub).2.2
      rw [if_pos htop]
      omega
    · next hrandom => exact absurd hrandom hm
  · split at h
    · next hbottom =>
      obtain ⟨y, hadd, h⟩ := bind_eq_ok.mp h
      obtain ⟨rfl, -⟩ := Prod.mk.inj (Except.ok.inj h)
      obtain ⟨hf, hmask, haddr⟩ := Inet.add_eq_ok.mp hadd
      rw [if_neg (by rw [hbottom]; decide)]
      -- the block after the last address of the current one begins there
      have hcur := (AlignedBlock.mem_iff_first_last.mp k.currentIp.addr_mem_block).2
      have hnext : y.addr = k.currentIp.block.next.first := by
        rw [AlignedBlock.first_next]
        have : k.currentIp.broadcast.addr = k.currentIp.block.last := rfl
        omega
      have hblock : y.block = k.currentIp.block.next := by
        rw [← AlignedBlock.of_height_of_mem k.currentIp.block.next.first_mem, ← hnext]
        show AlignedBlock.of (y.family.bits - y.masklen) y.addr = _
        rw [hf, hmask]
        rfl
      show k.currentIp.addr < y.block.first
      rw [hblock, AlignedBlock.first_next]
      omega
    · next hbottom =>
      obtain ⟨y, hsub, h⟩ := bind_eq_ok.mp h
      obtain ⟨rfl, -⟩ := Prod.mk.inj (Except.ok.inj h)
      have haddr := (Inet.sub_eq_ok.mp hsub).2.2
      have htop : c.allocationMethod = .top := by
        cases hmethod : c.allocationMethod with
        | top => rfl
        | bottom => exact absurd hmethod hbottom
        | random => exact absurd hmethod hm
      rw [if_pos htop]
      have hfirst := (AlignedBlock.mem_iff_first_last.mp y.addr_mem_block).1
      show y.block.first < k.currentIp.addr
      omega

section

variable (hc : Ready q p v c) (hfits : c.Fits k.currentIp) (hm : c.allocationMethod ≠ .random)
include hc hfits hm

theorem Ready.pass_precedes (hpass : c.searchPass s o k = .ok (.yield k')) :
    c.Fits k'.currentIp ∧ c.Precedes k.currentIp.addr k'.currentIp.addr := by
  obtain ⟨-, ⟨nr, y, x, n, hnr, hjump, hx, rfl⟩ | ⟨x, n, -, hnext, rfl⟩⟩ := searchPass_yield hpass
  · refine ⟨hc.jump_fits hfits hnr hjump hx, ?_⟩
    obtain ⟨start, -, stop, -, hlo, hhi, -, -, hbottom, htop⟩ := jump_addr hnr hjump hx
    show c.Precedes k.currentIp.addr x.addr
    rw [ParentSearch.Precedes]
    cases hmethod : c.allocationMethod with
    | top =>
      have := htop hmethod
      rw [if_pos rfl]
      omega
    | bottom =>
      have := hbottom hmethod
      rw [if_neg (by decide)]
      omega
    | random => exact absurd hmethod hm
  · exact ⟨hc.next_fits hfits hnext, next_precedes hm hnext⟩

theorem Ready.bounded_sequential : c.Bounded s o k where
  finite := by
    refine ⟨c.distance k + 1, loop_finishes (I := fun k => c.Fits k.currentIp) c.distance
      (fun k₁ k₂ hk₁ hpass => ?_) hfits (Nat.lt_succ_self _)⟩
    obtain ⟨hk₂, hprecedes⟩ := hc.pass_precedes hk₁ hm hpass
    exact ⟨hk₂, ParentSearch.distance_lt hk₁ hk₂ hprecedes⟩
  misses h := absurd h hm

end

/-! ## Searches at random -/

/-- Only single addresses are searched for at random, below a network of four addresses or more. -/
theorem Ready.random (hv : Masks q v) (hc : Ready q p v c) (hm : c.allocationMethod = .random) :
    q.singleAddress = true ∧ v.desiredIpAddress = none ∧ 2 ≤ p.ipAddress.hostbits ∧
      q.methodFor false p = .random := by
  have hmethod := hc.method.symm.trans hm
  obtain ⟨hd, hbits, hsingle⟩ := methodFor_random hmethod
  rw [hd] at hmethod
  refine ⟨?_, by simpa using hd, hbits, hmethod⟩
  by_contra hs
  have hs : q.singleAddress = false := by simpa using hs
  rcases hsingle with h | h
  · rw [hs] at h
    exact absurd h (by decide)
  · exact hv.method hs h

/-- What holds in every pass of a search at random. -/
structure Drawing (p : Netblock) (c : ParentSearch) (k : Cursor) : Prop where
  fits : c.Fits k.currentIp
  first : p.ipAddress.addr + 2 ≤ k.currentIp.addr
  drawn : (k.currentIp.addr : ℤ) ≤ p.ipAddress.addr + 1 + maxRndValue p
  misses : 0 ≤ k.rndMatches

/-- A pass returns an address, or it counts as a miss. -/
def Counts (k k' : Cursor) : Prop :=
  k'.rows.length = k.rows.length + 1 ∧ k'.matchCount = k.matchCount + 1 ∧ k'.rndMatches = 0 ∨
    k'.rows = k.rows ∧ k'.matchCount = k.matchCount ∧ k'.rndMatches = k.rndMatches + 1

theorem counts_record (hm : c.allocationMethod = .random) : Counts k (c.record s k) := by
  rw [ParentSearch.record]
  split
  · left
    exact ⟨List.length_append, rfl, rfl⟩
  · right
    exact ⟨rfl, rfl, rfl⟩

section Random

variable (hv : Masks q v) (hc : Ready q p v c) (hm : c.allocationMethod = .random)
include hv hc hm

theorem Ready.minIp_random : c.minIp.addr = p.ipAddress.addr + 1 := by
  obtain ⟨hs, hd, hbits, -⟩ := hc.random hv hm
  rw [(hc.parent hd).minAddr, margin_of_two_le hs hbits]

theorem Drawing.drawable (hk : Drawing p c k) (hgoing : c.Going k) : Drawable p k.currentIp := by
  obtain ⟨hs, hd, hbits, -⟩ := hc.random hv hm
  refine ⟨?_, hk.first, hk.drawn, ?_⟩
  · rw [hk.fits.family, hc.netblockRec]
  · have hlt := (hc.lt_maxIp_iff hk.fits hd).mp hgoing.2.1
    rw [margin_of_two_le hs hbits] at hlt
    omega

section

variable (hrange : ¬ RangeDrawable s p) (hk : Drawing p c k)
include hrange hk

theorem Drawing.pass (hpass : c.searchPass s o k = .ok (.yield k')) :
    c.Going k ∧ Drawing p c k' ∧ Counts k k' := by
  obtain ⟨hs, hd, hbits, -⟩ := hc.random hv hm
  obtain ⟨hgoing, hcases⟩ := searchPass_yield hpass
  refine ⟨hgoing, ?_⟩
  have hnone : c.netrangeRec s o k.currentIp = none := by
    refine (netrangeRec_eq_none (hc.singleAddress.trans hs)).mpr fun nr hnr hp hholds => ?_
    rw [hc.netblockRec] at hp
    exact hrange ⟨nr, hnr, hp, k.currentIp, hk.drawable hv hc hm hgoing, hholds⟩
  obtain ⟨nr, y, x, n, hnr, -⟩ | ⟨x, n, -, hnext, rfl⟩ := hcases
  · rw [hnone] at hnr
    exact nomatch hnr
  · have hcounts := counts_record (s := s) (k := k) hm
    have hfits := hc.next_fits hk.fits hnext
    rw [ParentSearch.next, if_pos (hc.singleAddress.trans hs), hm] at hnext
    obtain ⟨y, hrandom, hnext⟩ := bind_eq_ok.mp hnext
    obtain ⟨rfl, -⟩ := Prod.mk.inj (Except.ok.inj hnext)
    obtain ⟨hlo, hhi⟩ := randomIp_addr hc.netblockRec hbits hrandom
    rw [hc.minIp_random hv hm] at hlo hhi
    refine ⟨⟨hfits, hlo, by simpa using hhi, ?_⟩, hcounts⟩
    have hmisses := hk.misses
    show 0 ≤ (c.record s k).rndMatches
    rcases hcounts with ⟨-, -, hr⟩ | ⟨-, -, hr⟩ <;> omega

/-- **Passes at random** that return nothing are counted one by one. -/
theorem Drawing.run (h : c.Passes s o n k k') : Drawing p c k' ∧ k.rows.length ≤ k'.rows.length ∧
      (k'.rows = k.rows → n + k.rndMatches ≤ c.rndMaxCount ∨ n = 0) := by
  induction h with
  | refl k => exact ⟨hk, le_rfl, fun _ => .inr rfl⟩
  | @step n k k₁ k' hpass h ih =>
    obtain ⟨hgoing, hk₁, hcounts⟩ := hk.pass hv hc hm hrange hpass
    obtain ⟨hk', hle, hmisses⟩ := ih hk₁
    rcases hcounts with ⟨hlen, -, -⟩ | ⟨hrows, -, hr⟩
    · refine ⟨hk', by omega, fun heq => ?_⟩
      rw [heq] at hle
      omega
    · rw [hrows] at hle hmisses
      refine ⟨hk', hle, fun heq => .inl ?_⟩
      have hlt := hgoing.2.2.2
      rcases hmisses heq with h | h <;> omega

/-- How many passes are left at most. -/
def ParentSearch.rounds (c : ParentSearch) (k : Cursor) : ℕ :=
  (c.maxAddresses.getD 0 - k.matchCount).toNat * (c.rndMaxCount.toNat + 1) +
    (c.rndMaxCount - k.rndMatches).toNat

theorem Ready.bounded_random :
    c.Bounded s o k where
  finite := by
    refine ⟨c.rounds k + 1, loop_finishes (I := Drawing p c) c.rounds
      (fun k₁ k₂ hk₁ hpass => ?_) hk (Nat.lt_succ_self _)⟩
    obtain ⟨hgoing, hk₂, hcounts⟩ := hk₁.pass hv hc hm hrange hpass
    obtain ⟨-, -, ⟨m, hmax, hroom⟩, hlt⟩ := hgoing
    refine ⟨hk₂, ?_⟩
    have hmisses := hk₁.misses
    rw [ParentSearch.rounds, ParentSearch.rounds, Option.mem_def.mp hmax, Option.getD_some]
    rcases hcounts with ⟨-, hcount, hr⟩ | ⟨-, hcount, hr⟩
    · have hone : (m - k₁.matchCount).toNat = (m - k₂.matchCount).toNat + 1 := by omega
      rw [hone, Nat.add_mul]
      omega
    · rw [hcount]
      omega
  misses _ m n k₁ k₂ h₁ h₂ heq := by
    obtain ⟨hk₁, -, -⟩ := hk.run hv hc hm hrange h₁
    obtain ⟨-, -, hn⟩ := hk₁.run hv hc hm hrange h₂
    have hmisses := hk₁.misses
    rcases hn heq with h | h <;> omega

end

end Random

theorem bounded_of_not_going (h : ¬ c.Going k) : c.Bounded s o k := by
  have hpass : c.searchPass s o k = .ok (.done k) := by rw [ParentSearch.searchPass, if_neg h]
  have hnone : ∀ {n k'}, c.Passes s o n k k' → n = 0 ∧ k' = k := by
    intro n k' hp
    cases hp with
    | refl => exact ⟨rfl, rfl⟩
    | step h' _ =>
      rw [hpass] at h'
      cases h'
  refine ⟨⟨1, ?_⟩, fun _ m n k₁ k₂ h₁ h₂ _ => ?_⟩
  · rw [loop, hpass]
    exact finishes_ended _
  · rw [(hnone h₁).2] at h₂
    rw [(hnone h₂).1]
    exact Nat.zero_le _

/-! ## Where a loop begins -/

/-- A search at random begins with an address that can be drawn. -/
theorem Drawing.start {v₁ : Search} (hv : Masks q v₁) (hc : Prepared q p v₁ c)
    (h : c.start o v₁ = .ok (c', k)) (hm : c'.allocationMethod = .random) : Drawing p c' k := by
  obtain ⟨hready, hbegins, hzero, -⟩ := start_ok hv hc h
  obtain ⟨hs, hd, hbits, -⟩ := hready.random hv hm
  have hmethod : c.allocationMethod = .random :=
    hc.method.trans (hready.method.symm.trans hm)
  obtain ⟨⟨y, n⟩, hfirst, h⟩ := bind_eq_ok.mp h
  rw [ParentSearch.firstIp, hmethod] at hfirst
  obtain ⟨z, hrandom, hfirst⟩ := bind_eq_ok.mp hfirst
  obtain ⟨rfl, -⟩ := Prod.mk.inj (Except.ok.inj hfirst)
  obtain ⟨hlo, hhi⟩ := randomIp_addr hc.netblockRec hbits hrandom
  rw [(hc.spans.1 hd).minAddr] at hlo hhi
  dsimp only at h
  rw [if_pos (hc.singleAddress.trans hs)] at h
  obtain ⟨⟨c₁, w⟩, hadjust, h⟩ := bind_eq_ok.mp h
  obtain ⟨rfl, rfl⟩ := Prod.mk.inj (Except.ok.inj h)
  obtain ⟨u, hset, hadjust⟩ := bind_eq_ok.mp hadjust
  have hcond : (c.netblockRec.ipAddress.masklen : ℤ) < c.netblockRec.ipAddress.family.bits - 1 ∧
      v₁.desiredIpAddress.isSome = false := by
    rw [hd, hc.netblockRec]
    rw [Inet.hostbits] at hbits
    exact ⟨by omega, rfl⟩
  rw [if_pos hcond, if_neg (by rw [hmethod]; decide)] at hadjust
  obtain ⟨w', hadd, hadjust⟩ := bind_eq_ok.mp hadjust
  obtain ⟨lo, -, hadjust⟩ := bind_eq_ok.mp hadjust
  obtain ⟨hi, -, hadjust⟩ := bind_eq_ok.mp hadjust
  obtain ⟨-, rfl⟩ := Prod.mk.inj (Except.ok.inj hadjust)
  have haddr := (Inet.add_eq_ok.mp hadd).2.2
  rw [(Inet.setMasklen_eq_ok hset).2.1] at haddr
  refine ⟨hbegins.toFits, ?_, ?_, hzero.ge⟩
  · show p.ipAddress.addr + 2 ≤ w'.addr
    omega
  · show (w'.addr : ℤ) ≤ _
    omega

/-- What the search carries from one parent to the next. -/
structure Carried (q : FindFree) (v : Search) : Prop where
  masks : Masks q v
  known : ∀ m ∈ q.allocationMethod, m ∈ ["top", "bottom", "random", "default"]
  count : 0 ≤ v.matchCount

theorem Masks.congr (hv : Masks q v) (hb : v'.netmaskBits = v.netmaskBits)
    (hd : v'.desiredIpAddress = v.desiredIpAddress) : Masks q v' := by
  refine ⟨hd ▸ hv.desired, hv.method, fun hs p m => ?_, fun hs h0 d hmem => ?_⟩
  · rw [hb]
    exact hv.requested hs p m
  · rw [hb] at h0 ⊢
    rw [hd] at hmem
    exact hv.desiredMask hs h0 d hmem

theorem Carried.of_sanitize {bits : ℤ} {desired : Option Inet}
    (h : q.sanitize = .ok (bits, desired)) :
    Carried q { netmaskBits := bits, desiredIpAddress := desired } := by
  refine ⟨.of_sanitize h rfl rfl, fun m hm => ?_, le_rfl⟩
  simp only [FindFree.sanitize, bind_unit_eq_ok, raiseIf_eq_ok] at h
  by_contra hnot
  exact h.1 ⟨m, hm, hnot⟩

/-- A pass of the loop leaves the masks as they are and does not take back a result. -/
theorem searchPass_carried (hpass : c.searchPass s o k = .ok (.yield k')) :
    k'.netmaskBits = k.netmaskBits ∧ k'.desiredIpAddress = k.desiredIpAddress ∧
      k.matchCount ≤ k'.matchCount := by
  obtain ⟨-, ⟨nr, y, x, n, -, -, -, rfl⟩ | ⟨x, n, -, -, rfl⟩⟩ := searchPass_yield hpass
  · exact ⟨rfl, rfl, le_rfl⟩
  · obtain ⟨-, hbits, hdesired⟩ := record_currentIp c s k
    refine ⟨hbits, hdesired, ?_⟩
    show k.matchCount ≤ (c.record s k).matchCount
    rw [ParentSearch.record]
    split
    · show k.matchCount ≤ k.matchCount + 1
      omega
    · split <;> exact le_rfl

theorem Carried.searchParent (hv : Carried q v)
    (h : Returns (searchParent s o q passes v i) v') : Carried q v' := by
  rw [JazzHands.searchParent] at h
  split at h
  · exact absurd (returns_ended.mp h) raise_ne_ok
  · next p hp =>
    obtain ⟨⟨v₁, r⟩, hprepare, h⟩ := returns_bind.mp h
    obtain ⟨hsame, hv₁, hc⟩ := prepare_ok hv.masks (returns_ended.mp hprepare)
    have hcount : 0 ≤ v₁.matchCount := hsame.matchCount ▸ hv.count
    cases r with
    | none =>
      obtain rfl := returns_pure.mp h
      exact ⟨hv₁, hv.known, hcount⟩
    | some c =>
      obtain ⟨⟨c', k⟩, hstart, h⟩ := returns_bind.mp h
      obtain ⟨k', hloop, h⟩ := returns_bind.mp h
      obtain rfl := returns_pure.mp h
      obtain ⟨-, -, -, hk⟩ := start_ok hv₁ (hc c rfl) (returns_ended.mp hstart)
      obtain ⟨hb, hd, hle⟩ := loop_returns
        (I := fun k => k.netmaskBits = v₁.netmaskBits ∧
          k.desiredIpAddress = v₁.desiredIpAddress ∧ 0 ≤ k.matchCount)
        (J := fun k => k.netmaskBits = v₁.netmaskBits ∧
          k.desiredIpAddress = v₁.desiredIpAddress ∧ 0 ≤ k.matchCount)
        (fun k₁ k₂ hk₁ hpass => by
          obtain ⟨hb, hd, hle⟩ := searchPass_carried hpass
          exact ⟨hb.trans hk₁.1, hd.trans hk₁.2.1, hk₁.2.2.trans hle⟩)
        (fun k₁ k₂ hk₁ hpass => (searchPass_done hpass).1 ▸ hk₁)
        ⟨by rw [hk], by rw [hk], by rw [hk]; exact hcount⟩ hloop
      exact ⟨hv₁.congr hb hd, hv.known, hle⟩

/-- **The loop of a parent** that is not trapped is bounded. -/
theorem Carried.bounded (hv : Carried q v) (hprepare : q.prepare v p = .ok (v', some c))
    (hstart : c.start o v' = .ok (c', k)) (hp : ¬ Trapped s q p) : c'.Bounded s o k := by
  obtain ⟨hsame, hv', hc⟩ := prepare_ok hv.masks hprepare
  have hc := hc c rfl
  obtain ⟨hready, hbegins, hzero, hk⟩ := start_ok hv' hc hstart
  by_cases hm : c'.allocationMethod = .random
  · by_cases hrange : RangeDrawable s p
    · refine bounded_of_not_going fun hgoing => hp ?_
      obtain ⟨hs, hd, hbits, hmethod⟩ := hready.random hv' hm
      obtain ⟨-, -, ⟨m, hmax, hroom⟩, hcount⟩ := hgoing
      have hmatch : k.matchCount = v.matchCount := by
        have : k.matchCount = v'.matchCount := by rw [hk]
        rw [this, hsame.matchCount]
      have hpos := hv.count
      have hlast : p.ipAddress.block.last + 1 < 2 ^ p.ipAddress.family.bits := by
        have hspan := hc.spans.1 hd
        have hlt := c.maxIp.addr_lt
        rw [hspan.maxAddr, hspan.maxFamily] at hlt
        exact hlt
      have hdesired : q.desiredIpAddress = none := by
        have := hv'.desired
        rw [hd] at this
        simpa using this.symm
      exact ⟨hs, by rw [hready.subnet, hs]; rfl, hdesired, hv.known, hmethod,
        ⟨m, hready.maxAddresses ▸ hmax, by omega⟩, by rw [← hready.rndMaxCount]; omega, hlast,
        hrange⟩
    · exact hready.bounded_random hv' hm hrange (.start hv' hc hstart hm)
  · exact hready.bounded_sequential hbegins.toFits hm

theorem EntersLoop.bounded (h : EntersLoop s o q v l c k) (hv : Carried q v)
    (hl : ∀ i ∈ l, ∀ p, findNetblock s.netblock i = some p → ¬ Trapped s q p) :
    c.Bounded s o k := by
  induction h with
  | here hp hprepare hstart =>
    exact hv.bounded hprepare hstart (hl _ List.mem_cons_self _ hp)
  | later hparent _ ih =>
    exact ih (hv.searchParent hparent) fun i hi => hl i (List.mem_cons_of_mem _ hi)

/-! ## A trapped parent -/

section Trapped

variable {r : RandomPair} {d : ℕ} (ho : ∀ n, o.random n = r)
variable (hr : r.high <<< 32 + r.low + 1 < 2 ^ 63)
variable (hd : ((r.high <<< 32 + r.low + 1 : ℕ) : ℤ) % maxRndValue p = d)
include ho hr hd

theorem randomIp_const (hp : c.netblockRec = p)
    (hlt : c.minIp.addr + d + 1 < 2 ^ c.minIp.family.bits) :
    ∃ y, c.randomIp o n = .ok y ∧ y.family = c.minIp.family ∧ y.masklen = c.minIp.masklen ∧
      y.addr = c.minIp.addr + d + 1 := by
  let y : Inet := ⟨c.minIp.family, c.minIp.addr + d + 1, c.minIp.masklen, hlt, c.minIp.masklen_le⟩
  have hadd : c.minIp.add ((d : ℤ) + 1) = .ok y := by
    refine Inet.add_eq_ok.mpr ⟨rfl, rfl, ?_⟩
    show ((c.minIp.addr + d + 1 : ℕ) : ℤ) = _
    omega
  refine ⟨y, ?_, rfl, rfl, rfl⟩
  simp only [ParentSearch.randomIp, bind_unit_eq_ok, raiseIf_eq_ok]
  rw [ho, hp, hd]
  exact ⟨by omega, hadd⟩

/-- The loop of a search at random begins with the first address drawn. -/
theorem start_const {v₁ : Search} (hc : Prepared q p v₁ c) (hm : c.allocationMethod = .random)
    (hs : q.singleAddress = true) (hnone : v₁.desiredIpAddress = none)
    (hbits : 2 ≤ p.ipAddress.hostbits) (hlt : p.ipAddress.addr + d + 2 < p.ipAddress.block.last) :
    ∃ c' k, c.start o v₁ = .ok (c', k) ∧ k.currentIp.addr = p.ipAddress.addr + d + 2 := by
  have hspan := hc.spans.1 hnone
  have hlast := p.ipAddress.last_block_lt
  obtain ⟨y, hy, hyf, hym, hya⟩ := randomIp_const (n := v₁.drawn) ho hr hd hc.netblockRec (by
    rw [hspan.minAddr, hspan.minFamily]
    omega)
  rw [hspan.minAddr] at hya
  have hmask : p.ipAddress.masklen ≤ y.family.bits := by
    rw [hyf, hspan.minFamily]
    exact p.ipAddress.masklen_le
  obtain ⟨w, hw⟩ := Inet.exists_add_one (a := y.withMasklen p.ipAddress.masklen hmask) (by
    show y.addr + 1 < 2 ^ y.family.bits
    rw [hya, hyf, hspan.minFamily]
    omega)
  obtain ⟨lo, hlo⟩ := Inet.exists_add_one (a := c.minIp) (by
    rw [hspan.minAddr, hspan.minFamily]
    omega)
  obtain ⟨hi, hhi⟩ := Inet.exists_sub_one (a := c.maxIp) (by rw [hspan.maxAddr]; omega)
  have hwa := (Inet.add_eq_ok.mp hw).2.2
  have hcond : (p.ipAddress.masklen : ℤ) < p.ipAddress.family.bits - 1 ∧
      v₁.desiredIpAddress.isSome = false := by
    rw [hnone]
    rw [Inet.hostbits] at hbits
    exact ⟨by omega, rfl⟩
  have hadjust : c.adjustSingle v₁.desiredIpAddress.isSome y =
      .ok ({ c with minIp := lo, maxIp := hi }, w) := by
    rw [ParentSearch.adjustSingle, hc.netblockRec]
    refine bind_eq_ok.mpr ⟨_, Inet.setMasklen_of_le hmask, ?_⟩
    rw [if_pos hcond, if_neg (by rw [hm]; decide)]
    exact bind_eq_ok.mpr ⟨w, hw, bind_eq_ok.mpr ⟨lo, hlo, bind_eq_ok.mpr ⟨hi, hhi, rfl⟩⟩⟩
  refine ⟨{ c with minIp := lo, maxIp := hi },
    { v₁ with currentIp := w, drawn := v₁.drawn + 1 }, ?_, ?_⟩
  · refine bind_eq_ok.mpr ⟨(y, v₁.drawn + 1), ?_, ?_⟩
    · rw [ParentSearch.firstIp, hm]
      exact bind_eq_ok.mpr ⟨y, hy, rfl⟩
    · dsimp only
      rw [if_pos (hc.singleAddress.trans hs)]
      exact bind_eq_ok.mpr ⟨_, hadjust, rfl⟩
  · have : (y.withMasklen p.ipAddress.masklen hmask).addr = y.addr := rfl
    show w.addr = _
    omega

/-- **A pass that draws an address in a network range** comes back to that address. -/
theorem pass_const (hv : Masks q v) (hc : Ready q p v c) (hm : c.allocationMethod = .random)
    (hfits : c.Fits k.currentIp) (haddr : k.currentIp.addr = p.ipAddress.addr + d + 2)
    (hgoing : c.Going k) (hrange : c.netrangeRec s o k.currentIp ≠ none) :
    ∃ n, c.searchPass s o k = .ok (.yield { k with drawn := n }) := by
  obtain ⟨nr, hnr⟩ := Option.ne_none_iff_exists'.mp hrange
  obtain ⟨hs, -, -, start, hstart, stop, hstop, -⟩ := netrangeRec_eq_some hnr
  have hmin := (hc.bounds_fit (hc.singleAddress.symm.trans hs)).1
  have hmax := (hc.bounds_fit (hc.singleAddress.symm.trans hs)).2
  have hlow := hc.minIp_random hv hm
  have hlt := k.currentIp.addr_lt
  obtain ⟨y, hy, hyf, hym, hya⟩ := randomIp_const (n := k.drawn) ho hr hd hc.netblockRec (by
    rw [hlow, hmin.family, ← hfits.family]
    omega)
  have hmask : c.maxIp.masklen ≤ y.family.bits := by
    rw [hyf, hmin.family, ← hmax.family]
    exact c.maxIp.masklen_le
  have hsame : y.withMasklen c.maxIp.masklen hmask = k.currentIp := by
    refine Inet.eq_of_fields ?_ ?_ ?_
    · exact hyf.trans (hmin.family.trans hfits.family.symm)
    · show y.addr = _
      omega
    · exact hmax.masklen.trans hfits.masklen.symm
  have hjump : c.jump s o nr k = .ok (y, k.drawn + 1) := by
    rw [ParentSearch.jump, hm, Option.mem_def.mp hstart, Option.mem_def.mp hstop]
    exact bind_eq_ok.mpr ⟨y, hy, rfl⟩
  refine ⟨k.drawn + 1, ?_⟩
  rw [ParentSearch.searchPass, if_pos hgoing, hnr]
  refine bind_eq_ok.mpr ⟨_, hjump, bind_eq_ok.mpr ⟨_, Inet.setMasklen_of_le hmask, ?_⟩⟩
  rw [hsame]

end Trapped

theorem Trapped.runs_on (h : Trapped s q p) (hp : findNetblock s.netblock i = some p) :
    ∃ o bits c k, q.sanitize = .ok (bits, none) ∧
      EntersLoop s o q { netmaskBits := bits, desiredIpAddress := none } [i] c k ∧
      ∀ passes, ¬ Finishes (loop (c.searchPass s o) passes k) := by
  obtain ⟨nr, hnr, hparent, x, hx, hholds⟩ := h.range
  have hfirst := hx.first
  have hdrawn := hx.drawn
  obtain ⟨d, hd⟩ := Nat.exists_eq_add_of_le hfirst
  obtain ⟨r, hr, hmod⟩ := exists_randomPair (p := p) (d := d) (by omega)
  have hsanitize : q.sanitize = .ok (q.netmaskBits.getD 0, none) := by
    rw [FindFree.sanitize]
    refine bind_unit_eq_ok.mpr ⟨raiseIf_eq_ok.mpr ?_, ?_⟩
    · rintro ⟨m, hm, hnot⟩
      exact hnot (h.known m hm)
    · rw [if_pos h.singleAddress, h.desired]
  have hcarried := Carried.of_sanitize hsanitize
  obtain ⟨maxIp, hmaxIp⟩ := Inet.exists_add_one (a := p.ipAddress.broadcast) h.room
  have hprepare : q.prepare { netmaskBits := q.netmaskBits.getD 0, desiredIpAddress := none } p =
      .ok ({ netmaskBits := p.ipAddress.family.bits, desiredIpAddress := none },
        some ⟨p, q.singleAddress, .random, p.ipAddress.family.bits, p.ipAddress, maxIp,
          q.maxAddresses, q.rndMaxCount⟩) := by
    rw [FindFree.prepare, if_neg (by simp)]
    dsimp only [Option.isSome_none]
    rw [if_pos h.singleAddress, h.method]
    refine bind_eq_ok.mpr ⟨_, rfl, ?_⟩
    rw [FindFree.checkParent]
    refine bind_unit_eq_ok.mpr ⟨raiseIf_eq_ok.mpr (by simp), ?_⟩
    rw [if_neg (by simp)]
    refine bind_unit_eq_ok.mpr ⟨raiseIf_eq_ok.mpr (by simp [h.canSubnet]), bind_unit_eq_ok.mpr
      ⟨raiseIf_eq_ok.mpr (by simp [h.singleAddress]), bind_eq_ok.mpr ⟨(p.ipAddress, maxIp), ?_, rfl⟩⟩⟩
    exact bind_eq_ok.mpr ⟨maxIp, hmaxIp, rfl⟩
  obtain ⟨-, hv, hc⟩ := prepare_ok hcarried.masks hprepare
  have hc := hc _ rfl
  have hbits := (methodFor_random h.method).2.1
  let o : Outcomes := { Outcomes.first with random := fun _ => r }
  obtain ⟨c, k, hstart, haddr⟩ := start_const (o := o) (fun _ => rfl) hr hmod hc rfl
    h.singleAddress rfl hbits (by have := hx.last; omega)
  refine ⟨o, _, c, k, hsanitize, .here hp hprepare hstart, fun passes => ?_⟩
  obtain ⟨hready, hbegins, hzero, hk⟩ := start_ok hv hc hstart
  have hm : c.allocationMethod = .random := hready.method.trans h.method
  have hfits := hbegins.toFits
  have hxlast := hx.last
  have hgoing : c.Going k := by
    refine ⟨?_, ?_, ?_, ?_⟩
    · rw [hready.minIp_le_iff hfits rfl, if_pos h.singleAddress,
        margin_of_two_le h.singleAddress hbits]
      omega
    · rw [hready.lt_maxIp_iff hfits rfl, margin_of_two_le h.singleAddress hbits]
      omega
    · obtain ⟨m, hmax, hpos⟩ := h.maxAddresses
      have hmatch : k.matchCount = 0 := by rw [hk]
      exact ⟨m, hready.maxAddresses ▸ hmax, by omega⟩
    · rw [hzero, hready.rndMaxCount]
      exact h.rndMaxCount
  have hrange : c.netrangeRec s o k.currentIp ≠ none := by
    intro hnone
    have hno := (netrangeRec_eq_none (hready.singleAddress.trans h.singleAddress)).mp hnone nr hnr
      (by rw [hready.netblockRec]; exact hparent)
    obtain ⟨start, hs, stop, ht, hf, hf', hlo, hhi⟩ := hholds
    have hfam : k.currentIp.family = x.family := by
      rw [hfits.family, hready.netblockRec, hx.family]
    refine hno ⟨start, hs, stop, ht, hfam.trans hf, hfam.trans hf', ?_, ?_⟩ <;> omega
  -- every pass begins with the variables of the first one, but for the number of draws
  refine loop_runs_on (I := fun k' => ∃ n, k' = { k with drawn := n }) ?_ ⟨k.drawn, rfl⟩
  rintro _ ⟨n, rfl⟩
  obtain ⟨n', hpass⟩ := pass_const (k := { k with drawn := n }) (fun _ => rfl) hr hmod hv hready hm
    hfits haddr hgoing hrange
  exact ⟨_, hpass, n', rfl⟩

/-- **The loops of `find_free_netblocks` are bounded** for every list of parents and all values of
`random()` if and only if none of the parents is trapped. -/
theorem findFreeNetblocks_bounded_iff (s : RangeTables) (q : FindFree) (parents : List ℕ) :
    (∀ l ⊆ parents, ∀ o, SearchBounded s o q l) ↔
      ∀ i ∈ parents, ∀ p, findNetblock s.netblock i = some p → ¬ Trapped s q p := by
  constructor
  · intro h i hi p hp htrapped
    obtain ⟨o, bits, c, k, hsanitize, henters, hruns⟩ := htrapped.runs_on hp
    have hsub : [i] ⊆ parents := List.cons_subset.mpr ⟨hi, List.nil_subset _⟩
    obtain ⟨passes, hfinishes⟩ := (h [i] hsub o bits none hsanitize c k henters).finite
    exact hruns passes hfinishes
  · intro h l hl o bits desired hsanitize c k henters
    exact henters.bounded (.of_sanitize hsanitize) fun i hi => h i (hl hi)

/-- A network of eight addresses with a network range over its six hosts. -/
def hostsInRange : RangeTables where
  netblock := [⟨1, .v4 10 0 0 8 29, "default", false, false, none, 0⟩,
    ⟨2, .v4 10 0 0 9 32, "network_range", true, false, none, 0⟩,
    ⟨3, .v4 10 0 0 14 32, "network_range", true, false, none, 0⟩]
  networkRange := [⟨1, "dhcp", 1, 2, 3⟩]
  valNetworkRangeType := []

/-- The search for one of the hosts at random. -/
def atRandom : FindFree where
  singleAddress := true
  allocationMethod := some "random"

/-- **A network range over all hosts**: the search for one of them at random runs on. -/
theorem hostsInRange_runs_on : ¬ ∀ o, SearchBounded hostsInRange o atRandom [1] := by
  intro h
  have htrapped : Trapped hostsInRange atRandom
      ⟨1, .v4 10 0 0 8 29, "default", false, false, none, 0⟩ := by
    refine ⟨rfl, rfl, rfl, by decide, by decide, by decide, by decide, by decide, ⟨1, "dhcp", 1, 2, 3⟩,
      by decide, rfl, .v4 10 0 0 11 29, ⟨rfl, by decide, by decide, by decide⟩, ?_⟩
    unfold NetworkRange.Holds
    decide
  obtain ⟨o, bits, c, k, hsanitize, henters, hruns⟩ := htrapped.runs_on (i := 1) rfl
  obtain ⟨passes, hfinishes⟩ := (h o bits none hsanitize c k henters).finite
  exact hruns passes hfinishes

end JazzHands

import JazzHands.Allocation.StaysInRange

/-!
# A search from the top

On the way down the search returns or steps over everything that is free, so it has counted at least
as many addresses as there are free ones above it.  It leaves the family when that is not enough.
-/

namespace JazzHands

open Library Postgres

variable {s : RangeTables} {o : Outcomes} {q : FindFree} {p : Netblock} {v v' : Search}
variable {c c' : ParentSearch} {k k' : Cursor} {x y : Inet} {a b m n t i passes : ℕ} {l : List ℕ}

/-! ## Addresses -/

theorem ParentSearch.Fits.at_eq (hx : c.Fits x) (hp : c.netblockRec = p) :
    p.ipAddress.at c.resultMasklen x.addr = x := by
  have hf : p.ipAddress.family = x.family := by rw [hx.family, hp]
  refine Inet.eq_of_fields hf ?_ ?_
  · show x.addr % 2 ^ p.ipAddress.family.bits = x.addr
    rw [hf]
    exact Nat.mod_eq_of_lt x.addr_lt
  · show min c.resultMasklen p.ipAddress.family.bits = x.masklen
    rw [hf, ← hx.masklen]
    exact min_eq_left x.masklen_le

theorem Checked.taken_iff (hc : Checked q p v c) {r : Netblock} :
    c.Taken x r ↔ q.InTheWay p x r := by
  rw [ParentSearch.Taken, FindFree.InTheWay, hc.netblockRec, hc.singleAddress]

theorem Checked.step_eq (hc : Checked q p v c) : q.step p c.resultMasklen = 2 ^ c.height := by
  cases hs : q.singleAddress with
  | true => rw [FindFree.step, if_pos hs, hc.height_single hs, pow_zero]
  | false =>
    rw [FindFree.step, if_neg (by simp [hs]), ParentSearch.height, ParentSearch.resultMasklen,
      if_neg (by simp [hc.singleAddress, hs]), hc.netblockRec]

theorem FindFree.mem_freeAbove : b ∈ q.freeAbove s p m a ↔ a < b ∧
    b < p.ipAddress.block.last + 1 - q.margin p ∧ q.FreeAt s p m b := by
  rw [FindFree.freeAbove, Finset.mem_filter, Finset.mem_Ioo, and_assoc]

/-- What the search has returned on its way down is as much as it found free. -/
theorem card_freeAbove_le {f : List Inet}
    (h : ∀ b ∈ q.freeAbove s p m a, p.ipAddress.at m b ∈ f) :
    (q.freeAbove s p m a).card ≤ f.length := by
  have hlast := p.ipAddress.last_block_lt
  have hinj : Set.InjOn (p.ipAddress.at m) (q.freeAbove s p m a) := by
    intro b hb b' hb' heq
    obtain ⟨-, hlt, -⟩ := FindFree.mem_freeAbove.mp hb
    obtain ⟨-, hlt', -⟩ := FindFree.mem_freeAbove.mp hb'
    have haddr : b % 2 ^ p.ipAddress.family.bits = b' % 2 ^ p.ipAddress.family.bits :=
      congrArg Inet.addr heq
    rwa [Nat.mod_eq_of_lt (by omega), Nat.mod_eq_of_lt (by omega)] at haddr
  calc (q.freeAbove s p m a).card
      ≤ f.toFinset.card := Finset.card_le_card_of_injOn _
        (fun b hb => List.mem_toFinset.mpr (h b hb)) hinj
    _ ≤ f.length := List.toFinset_card_le f

/-! ## The loop -/

theorem methodFor_eq_top (h : q.methodFor false p = .top) : q.allocationMethod = some "top" := by
  by_contra hne
  simp only [FindFree.methodFor, Bool.false_eq_true, if_false, if_neg hne] at h
  split_ifs at h

/-- What holds in every pass of a search from the top. -/
structure Descending (s : RangeTables) (q : FindFree) (p : Netblock) (c : ParentSearch)
    (k : Cursor) : Prop where
  fits : c.Fits k.currentIp
  aligned : ∃ j, k.currentIp.addr = j * 2 ^ c.height
  below : k.currentIp.addr < p.ipAddress.block.last + 1 - q.margin p
  found : ∀ b ∈ q.freeAbove s p c.resultMasklen k.currentIp.addr,
    p.ipAddress.at c.resultMasklen b ∈ k.inetList
  passable : q.singleAddress = true → ∀ a, k.currentIp.addr < a →
    a < p.ipAddress.block.last + 1 - q.margin p → InSomeRange s p a →
    ∃ lo hi, HasRange s p lo hi ∧ lo ≤ a ∧ a ≤ hi ∧ k.currentIp.addr < lo
  counted : (k.inetList.length : ℤ) ≤ k.matchCount
  counting : Counting k

theorem record_subset : k.inetList ⊆ (c.record s k).inetList := by
  rw [ParentSearch.record]
  split
  · exact List.subset_append_left _ _
  · split <;> exact List.Subset.refl _

theorem record_counted (h : (k.inetList.length : ℤ) ≤ k.matchCount) :
    ((c.record s k).inetList.length : ℤ) ≤ (c.record s k).matchCount := by
  rw [ParentSearch.record]
  split
  · show ((k.inetList ++ [k.currentIp]).length : ℤ) ≤ k.matchCount + 1
    rw [List.length_append, List.length_singleton, Nat.cast_add_one]
    omega
  · split <;> exact h

theorem Checked.record_mem (hc : Checked q p v c)
    (hfree : ¬ ∃ r ∈ s.netblock, q.InTheWay p k.currentIp r) :
    k.currentIp ∈ (c.record s k).inetList := by
  rw [ParentSearch.record]
  split
  · exact List.mem_append_right _ (List.mem_singleton_self _)
  · next hold =>
    have hmem : k.currentIp ∈ k.inetList := by
      by_contra hnew
      refine hold ⟨?_, hnew⟩
      rintro ⟨r, hr, htaken⟩
      exact hfree ⟨r, hr, hc.taken_iff.mp htaken⟩
    split <;> exact hmem

section Top

variable (hm : c.allocationMethod = .top) (hc : Ready q p v c)
include hm hc

theorem Descending.jump {nr : NetworkRange} (hk : Descending s q p c k)
    (hnr : c.netrangeRec s o k.currentIp = some nr) (hjump : c.jump s o nr k = .ok (y, n))
    (hset : y.setMasklen c.maxIp.masklen = .ok x) :
    Descending s q p c { k with currentIp := x, drawn := n } := by
  obtain ⟨hs, start, hstart, stop, -, hrange, hlo, hhi, -⟩ := hc.netrangeRec_some hk.fits hnr
  obtain ⟨start', hstart', -, -, -, -, -, -, -, htop⟩ := jump_addr hnr hjump hset
  obtain rfl : start' = start := Option.mem_unique hstart' hstart
  have hx := htop hm
  have hbelow := hk.below
  refine ⟨hc.jump_fits hk.fits hnr hjump hset, ?_, ?_, fun b hb => ?_, fun _ a hlt hub ha => ?_,
    hk.counted, ⟨hk.counting.matchCount, hk.counting.rndMatches⟩⟩
  · rw [hc.height_single hs]
    exact ⟨x.addr, by simp⟩
  · show x.addr < _
    omega
  · obtain ⟨hlt, hub, hfree⟩ := FindFree.mem_freeAbove.mp hb
    have hlt : x.addr < b := hlt
    refine hk.found b (FindFree.mem_freeAbove.mpr ⟨?_, hub, hfree⟩)
    -- an address from the start up to the current one lies in the range
    by_contra hle
    exact hfree.2.1 hs (inSomeRange_iff.mpr ⟨_, _, hrange, by omega, by omega⟩)
  · have hlt : x.addr < a := hlt
    show ∃ lo hi, HasRange s p lo hi ∧ lo ≤ a ∧ a ≤ hi ∧ x.addr < lo
    by_cases hup : k.currentIp.addr < a
    · obtain ⟨lo, hi, h, hloa, hahi, hcur⟩ := hk.passable hs a hup hub ha
      exact ⟨lo, hi, h, hloa, hahi, by omega⟩
    · exact ⟨_, _, hrange, by omega, by omega, by omega⟩

/-- **A step to the next block** passes over nothing that is free but what it records. -/
theorem Descending.next (hk : Descending s q p c k) (hnr : c.netrangeRec s o k.currentIp = none)
    (hnext : c.next o k = .ok (x, n)) :
    Descending s q p c { c.record s k with currentIp := x, drawn := n } := by
  obtain ⟨j, hj⟩ := hk.aligned
  obtain ⟨i, rfl, hx⟩ := (hc.next_addr hk.fits hj hnext).2 hm
  have hrecord := hk.counting.record (c := c) (s := s)
  have hpos := Nat.two_pow_pos c.height
  have hmul : (i + 1) * 2 ^ c.height = i * 2 ^ c.height + 2 ^ c.height := Nat.succ_mul _ _
  have hbelow := hk.below
  refine ⟨hc.next_fits hk.fits hnext, ⟨i, hx⟩, ?_, fun b hb => ?_, fun hs a hlt hub ha => ?_,
    record_counted hk.counted, ⟨hrecord.matchCount, hrecord.rndMatches⟩⟩
  · show x.addr < _
    omega
  · obtain ⟨hlt, hub, hfree⟩ := FindFree.mem_freeAbove.mp hb
    have hlt : x.addr < b := hlt
    obtain ⟨e, he⟩ := hfree.1
    rw [hc.step_eq, Nat.mul_comm] at he
    rw [hx, he] at hlt
    have hie : i + 1 ≤ e := Nat.lt_of_mul_lt_mul_right hlt
    show _ ∈ (c.record s k).inetList
    rcases Nat.lt_or_eq_of_le hie with hie | rfl
    · refine record_subset (hk.found b (FindFree.mem_freeAbove.mpr ⟨?_, hub, hfree⟩))
      rw [hj, he]
      exact Nat.mul_lt_mul_of_pos_right hie hpos
    · have hcur : p.ipAddress.at c.resultMasklen b = k.currentIp := by
        rw [he, ← hj]
        exact hk.fits.at_eq hc.netblockRec
      rw [hcur]
      refine hc.record_mem ?_
      rw [← hcur]
      exact hfree.2.2
  · have hlt : x.addr < a := hlt
    show ∃ lo hi, HasRange s p lo hi ∧ lo ≤ a ∧ a ≤ hi ∧ x.addr < lo
    rw [hc.height_single hs, pow_zero, Nat.mul_one] at hj
    rw [hc.height_single hs, pow_zero, Nat.mul_one] at hx
    rcases Nat.lt_or_eq_of_le (show k.currentIp.addr ≤ a by omega) with hup | rfl
    · obtain ⟨lo, hi, h, hloa, hahi, hcur⟩ := hk.passable hs a hup hub ha
      exact ⟨lo, hi, h, hloa, hahi, by omega⟩
    · exact absurd ha ((hc.netrangeRec_eq_none_iff hk.fits hs).mp hnr)

theorem Descending.pass (hk : Descending s q p c k)
    (hpass : c.searchPass s o k = .ok (.yield k')) : Descending s q p c k' := by
  obtain ⟨-, ⟨nr, y, x, n, hnr, hjump, hx, rfl⟩ | ⟨x, n, hnr, hnext, rfl⟩⟩ :=
    searchPass_yield hpass
  · exact hk.jump hm hc hnr hjump hx
  · exact hk.next hm hc hnr hnext

variable (hd : v.desiredIpAddress = none)
include hd

/-- Above the beginning of the loop there is nothing that it could find. -/
theorem Descending.begin (hb : c.Begins k.currentIp)
    (hcounted : (k.inetList.length : ℤ) ≤ k.matchCount) (hcounting : Counting k) : Descending s q p c k := by
  have hmax := (hc.parent hd).maxAddr
  have hmargin := margin_le_last q p
  have htop := hb.top hm
  have hle := first_of_le c.height (c.maxIp.addr - 1)
  refine ⟨hb.toFits, ⟨_, htop⟩, by omega, fun b hb' => ?_, fun hs a hlt hub _ => ?_, hcounted,
    hcounting⟩
  · obtain ⟨hlt, hub, ⟨e, he⟩, -⟩ := FindFree.mem_freeAbove.mp hb'
    rw [hc.step_eq, Nat.mul_comm] at he
    have := mul_le_first_of (h := c.height) (i := e) (b := c.maxIp.addr - 1) (by omega)
    omega
  · rw [hc.height_single hs, AlignedBlock.first_of_zero] at htop
    omega

/-- **A pass that leaves the family** has come down to the end of it. -/
theorem Descending.comesDown (hnet : p.ipAddress.network = p.ipAddress)
    (hk : Descending s q p c k) (hgoing : c.Going k)
    (hout : ¬ Avoids .numericValueOutOfRange (c.searchPass s o k)) :
    ∃ t, q.ComesDown s p c.resultMasklen t := by
  have hmethod : q.allocationMethod = some "top" := by
    have h := hc.method.symm.trans hm
    rw [hd] at h
    exact methodFor_eq_top h
  have hfirst : p.ipAddress.addr = p.ipAddress.block.first := (congrArg Inet.addr hnet).symm
  have hlow := (hc.minIp_le_iff hk.fits hd).mp hgoing.1
  rw [hfirst, ite_self] at hlow
  obtain ⟨w, hw, hmatch⟩ := hgoing.2.2.1
  rw [hc.maxAddresses] at hw
  have hlooks := hk.counting.looks hc hgoing
  have hcard : ∀ t, k.currentIp.addr ≤ t →
      ((q.freeAbove s p c.resultMasklen t).card : ℤ) < w := by
    intro t ht
    have hle := card_freeAbove_le (f := k.inetList) (a := t) fun b hb => by
      obtain ⟨hlt, hub⟩ := FindFree.mem_freeAbove.mp hb
      exact hk.found b (FindFree.mem_freeAbove.mpr ⟨by omega, hub⟩)
    have := hk.counted
    omega
  have hpassable : ∀ t, k.currentIp.addr ≤ t → q.singleAddress = true → ∀ a, t < a →
      a < p.ipAddress.block.last + 1 - q.margin p → InSomeRange s p a →
      ∃ lo hi, HasRange s p lo hi ∧ lo ≤ a ∧ a ≤ hi ∧
        p.ipAddress.block.first + q.margin p < lo := by
    intro t ht hs a hlt hub ha
    obtain ⟨lo, hi, h, hlo, hhi, hcur⟩ := hk.passable hs a (by omega) hub ha
    exact ⟨lo, hi, h, hlo, hhi, by omega⟩
  rw [searchPass_avoids hgoing] at hout
  split at hout
  · next nr hnr =>
    obtain ⟨hs, start, hstart, stop, -, hrange, hlo, hhi, -⟩ := hc.netrangeRec_some hk.fits hnr
    rw [avoids_jump_top hm hstart, Nat.pos_iff_ne_zero, not_not] at hout
    rw [hout] at hrange
    exact ⟨_, hmethod, by omega, Or.inr ⟨hs, hrange⟩, hpassable _ hhi, ⟨w, hw, hcard _ hhi⟩,
      hlooks.rndMaxCount⟩
  · next hnr =>
    rw [avoids_next_top hm, Nat.pos_iff_ne_zero, not_not] at hout
    refine ⟨0, hmethod, by omega, Or.inl ⟨rfl, fun hs => ?_⟩, hpassable 0 (by omega),
      ⟨w, hw, hcard 0 (by omega)⟩, hlooks.rndMaxCount⟩
    rw [← hout]
    exact (hc.netrangeRec_eq_none_iff hk.fits hs).mp hnr

end Top

/-! ## Every pass -/

theorem Ready.pass_fits (hc : Ready q p v c) (hk : c.Fits k.currentIp)
    (hpass : c.searchPass s o k = .ok (.yield k')) : c.Fits k'.currentIp := by
  obtain ⟨-, ⟨nr, y, x, n, hnr, hjump, hx, rfl⟩ | ⟨x, n, -, hnext, rfl⟩⟩ := searchPass_yield hpass
  · exact hc.jump_fits hk hnr hjump hx
  · exact hc.next_fits hk hnext

/-- What holds in every pass of a search that does not leave the family. -/
structure Staying (s : RangeTables) (q : FindFree) (p : Netblock) (c : ParentSearch)
    (k : Cursor) : Prop where
  fits : c.Fits k.currentIp
  counting : Counting k
  top : c.allocationMethod = .top → Descending s q p c k

/-- Only without a desired address are there other methods than `bottom`. -/
theorem Ready.desired_none (hc : Ready q p v c) (hm : c.allocationMethod ≠ .bottom) :
    v.desiredIpAddress = none := by
  by_contra hd
  obtain ⟨d, hd⟩ := Option.ne_none_iff_exists'.mp hd
  exact hm (by rw [hc.method, hd, Option.isSome_some, methodFor_desired])

theorem Staying.pass (hc : Ready q p v c) (hk : Staying s q p c k)
    (hpass : c.searchPass s o k = .ok (.yield k')) : Staying s q p c k' where
  fits := hc.pass_fits hk.fits hpass
  counting := hk.counting.pass hpass
  top hm := (hk.top hm).pass hm hc hpass

/-- **No pass leaves the family** unless the search of the parent does. -/
theorem Staying.pass_avoids (ho : o.DrawsFit) (hnet : p.ipAddress.network = p.ipAddress)
    (hranges : RangesWithin s p) (hv : Taking q v) (hc : Ready q p v c)
    (hp : ¬ LeavesFamily s q p) (hk : Staying s q p c k) :
    Avoids .numericValueOutOfRange (c.searchPass s o k) := by
  by_cases hgoing : c.Going k
  · have hsearches := hv.searches_ready hc
    cases hd : v.desiredIpAddress with
    | some d => exact hc.pass_avoids_desired hv hk.fits hk.counting hd hp hgoing
    | none =>
      have hq : q.desiredIpAddress = none := by
        have := hv.masks.desired
        rw [hd] at this
        simpa using this.symm
      cases hm : c.allocationMethod with
      | random => exact hc.pass_avoids_random ho hnet hv.masks hm hgoing
      | bottom =>
        have hlast := p.ipAddress.last_block_lt
        have hne : p.ipAddress.block.last + 1 ≠ _ := fun h => hp (.parent hsearches hq h)
        exact hc.pass_avoids_bottom hranges hk.fits hm (by omega) hgoing
      | top =>
        by_contra hout
        obtain ⟨t, hdown⟩ := (hk.top hm).comesDown hm hc hd hnet hgoing hout
        exact hp (.first hsearches hq hdown)
  · rw [ParentSearch.searchPass, if_neg hgoing]
    exact avoids_ok

theorem Staying.begin (hv : Taking q v) (hc : Prepared q p v c)
    (hstart : c.start o v = .ok (c', k)) : Ready q p v c' ∧ Staying s q p c' k := by
  obtain ⟨hready, hbegins, hrnd, hk⟩ := start_ok hv.masks hc hstart
  have hmatch : k.matchCount = v.matchCount := by rw [hk]
  have hlist : k.inetList = v.inetList := by rw [hk]
  have hcounting : Counting k := ⟨hmatch ▸ hv.count, hrnd.ge⟩
  refine ⟨hready, hbegins.toFits, hcounting, fun hm => ?_⟩
  exact .begin hm hready (hready.desired_none (by simp [hm])) hbegins
    (by rw [hlist, hmatch]; exact hv.counted) hcounting

/-! ## The function -/

theorem searchPass_counted (h : (k.inetList.length : ℤ) ≤ k.matchCount)
    (hpass : c.searchPass s o k = .ok (.yield k')) :
    (k'.inetList.length : ℤ) ≤ k'.matchCount := by
  obtain ⟨-, ⟨nr, y, x, n, -, -, -, rfl⟩ | ⟨x, n, -, -, rfl⟩⟩ := searchPass_yield hpass
  · exact h
  · exact record_counted h

theorem Taking.searchParent (hv : Taking q v)
    (h : Returns (searchParent s o q passes v i) v') : Taking q v' := by
  have hcarried := hv.toCarried.searchParent h
  suffices hkeep : SameAddress q.desiredIpAddress v'.desiredIpAddress ∧
      (v'.inetList.length : ℤ) ≤ v'.matchCount from ⟨hcarried, hkeep.1, hkeep.2⟩
  rw [JazzHands.searchParent] at h
  split at h
  · exact absurd (returns_ended.mp h) raise_ne_ok
  · next p hp =>
    obtain ⟨⟨v₁, r⟩, hprepare, h⟩ := returns_bind.mp h
    have hprepare := returns_ended.mp hprepare
    have hv₁ := hv.of_prepare hprepare
    obtain ⟨-, -, hc⟩ := prepare_ok hv.masks hprepare
    cases r with
    | none =>
      obtain rfl := returns_pure.mp h
      exact ⟨hv₁.address, hv₁.counted⟩
    | some c =>
      obtain ⟨⟨c', k⟩, hstart, h⟩ := returns_bind.mp h
      obtain ⟨k', hloop, h⟩ := returns_bind.mp h
      obtain rfl := returns_pure.mp h
      obtain ⟨-, -, -, hk⟩ := start_ok hv₁.masks (hc c rfl) (returns_ended.mp hstart)
      refine loop_returns
        (I := fun k => SameAddress q.desiredIpAddress k.desiredIpAddress ∧
          (k.inetList.length : ℤ) ≤ k.matchCount)
        (J := fun k => SameAddress q.desiredIpAddress k.desiredIpAddress ∧
          (k.inetList.length : ℤ) ≤ k.matchCount)
        (fun k₁ k₂ hk₁ hpass => ?_) (fun k₁ k₂ hk₁ hpass => (searchPass_done hpass).1 ▸ hk₁)
        ⟨?_, ?_⟩ hloop
      · obtain ⟨-, hd, -⟩ := searchPass_carried hpass
        exact ⟨hd ▸ hk₁.1, searchPass_counted hk₁.2 hpass⟩
      · rw [hk]
        exact hv₁.address
      · rw [hk]
        exact hv₁.counted

theorem Taking.searchParent_inRange (ho : o.DrawsFit) (hv : Taking q v)
    (h : ∀ p, findNetblock s.netblock i = some p → p.ipAddress.network = p.ipAddress ∧
      RangesWithin s p ∧ ¬ LeavesFamily s q p) :
    InRange (JazzHands.searchParent s o q passes v i) := by
  rw [JazzHands.searchParent]
  split
  · exact failsOnly_ended.mpr (avoids_raise.mpr (by decide))
  · next p hp =>
    obtain ⟨hnet, hranges, hp⟩ := h p hp
    refine FailsOnly.bind (failsOnly_ended.mpr (prepare_avoids hv hp)) ?_
    rintro ⟨v₁, r⟩ hprepare
    have hprepare := returns_ended.mp hprepare
    have hv₁ := hv.of_prepare hprepare
    obtain ⟨-, -, hc⟩ := prepare_ok hv.masks hprepare
    cases r with
    | none => exact failsOnly_pure
    | some c =>
      refine FailsOnly.bind (failsOnly_ended.mpr (start_avoids ho hnet hv₁.masks (hc c rfl))) ?_
      rintro ⟨c', k⟩ hstart
      obtain ⟨hready, hk⟩ := Staying.begin (s := s) hv₁ (hc c rfl) (returns_ended.mp hstart)
      refine FailsOnly.bind ?_ fun _ _ => failsOnly_pure
      exact loop_failsOnly (I := Staying s q p c')
        (fun k₁ e hk₁ => hk₁.pass_avoids ho hnet hranges hv₁ hready hp e)
        (fun k₁ k₂ hk₁ => hk₁.pass hready) hk

theorem Taking.searchParents_inRange (ho : o.DrawsFit) (hv : Taking q v)
    (h : ∀ i ∈ l, ∀ p, findNetblock s.netblock i = some p → p.ipAddress.network = p.ipAddress ∧
      RangesWithin s p ∧ ¬ LeavesFamily s q p) :
    InRange (searchParents s o q passes v l) := by
  induction l generalizing v with
  | nil => exact failsOnly_pure
  | cons i l ih =>
    refine FailsOnly.bind (hv.searchParent_inRange ho (h i List.mem_cons_self)) fun v' hv' => ?_
    exact ih (hv.searchParent hv') fun j hj => h j (List.mem_cons_of_mem _ hj)

theorem sanitize_avoids : Avoids .numericValueOutOfRange q.sanitize := by
  rw [FindFree.sanitize]
  refine (avoids_raiseIf (by decide)).bind fun _ _ => ?_
  split
  · exact avoids_ok
  · refine Avoids.bind ?_ fun _ _ => (avoids_raiseIf (by decide)).bind fun _ _ => avoids_ok
    rw [FindFree.networkMasks]
    split
    · exact avoids_ok
    · exact avoids_bind_ok.mpr Inet.setMasklen_avoids
    · exact avoids_ok
    · exact avoids_raise.mpr (by decide)

/-- **The call stays in range** when none of its parents leaves the family. -/
theorem findFreeNetblocks_inRange (ho : o.DrawsFit)
    (h : ∀ i ∈ l, ∀ p, findNetblock s.netblock i = some p → p.ipAddress.network = p.ipAddress ∧
      RangesWithin s p ∧ ¬ LeavesFamily s q p) :
    InRange (findFreeNetblocks s o q passes l) := by
  refine FailsOnly.bind (failsOnly_ended.mpr sanitize_avoids) ?_
  rintro ⟨bits, desired⟩ hsanitize
  have hv := Taking.of_sanitize (returns_ended.mp hsanitize)
  exact FailsOnly.bind (hv.searchParents_inRange ho h) fun _ _ => failsOnly_pure

end JazzHands

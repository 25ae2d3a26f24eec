import JazzHands.Allocation.Descending

/-!
# When the search leaves the family

The converse: where a parent leaves its family, some outcome of `random()` and some choice of ranges
make the call fail.  `Falling` is the invariant of a search that comes down.  Less is free further
down than is wanted, so it goes on to the first address of the family, and past it.
-/

namespace JazzHands

open Library Postgres

variable {s : RangeTables} {o : Outcomes} {q : FindFree} {p : Netblock} {v v' : Search}
variable {c c' : ParentSearch} {k k' : Cursor} {x y d : Inet} {a b m n t i passes : ℕ} {l : List ℕ}

/-- The call fails with an address that its family does not have. -/
def OutOfRange {α : Type} (x : ExceptT PgError Option α) : Prop :=
  Fails (fun err => err.errcode = .numericValueOutOfRange) x

/-! ## Before the loop -/

theorem FindFree.Searches.sanitize (h : q.Searches p m) :
    ∃ bits desired, q.sanitize = .ok (bits, desired) := by
  have hknown : ¬ ∃ x ∈ q.allocationMethod, x ∉ ["top", "bottom", "random", "default"] := by
    rintro ⟨x, hx, hnot⟩
    exact hnot (h.known x hx)
  rw [FindFree.sanitize]
  cases hs : q.singleAddress with
  | true =>
    exact ⟨q.netmaskBits.getD 0, q.desiredIpAddress,
      bind_unit_eq_ok.mpr ⟨raiseIf_eq_ok.mpr hknown, if_pos rfl⟩⟩
  | false =>
    obtain ⟨masks, hmasks⟩ : ∃ masks, q.networkMasks = .ok masks := by
      have hr := h.requested
      rw [FindFree.Requests, if_neg (by simp [hs])] at hr
      rw [FindFree.networkMasks]
      split
      · exact ⟨_, rfl⟩
      · next d bits hd hbits =>
        rw [hbits] at hr
        obtain rfl : (m : ℤ) = bits := hr
        have hf : d.family = p.ipAddress.family := (h.desired d hd).1
        exact ⟨_, bind_eq_ok.mpr ⟨_, Inet.setMasklen_of_le (hf ▸ (h.block hs).2), rfl⟩⟩
      · exact ⟨_, rfl⟩
      · next hd hbits =>
        rw [hbits] at hr
        obtain ⟨d, hd', -⟩ := hr
        rw [hd] at hd'
        cases hd'
    refine ⟨masks.1, masks.2, bind_unit_eq_ok.mpr ⟨raiseIf_eq_ok.mpr hknown, ?_⟩⟩
    rw [if_neg (by simp)]
    exact bind_eq_ok.mpr ⟨masks, hmasks,
      bind_unit_eq_ok.mpr ⟨raiseIf_eq_ok.mpr (h.method hs), rfl⟩⟩

/-- Past the checks, it is the bounds that may leave the family. -/
theorem checkParent_eq {method : AllocationMethod} (hbits : v.netmaskBits ≤ p.ipAddress.family.bits)
    (hsub : p.canSubnet = !q.singleAddress) (hd : ∀ d ∈ v.desiredIpAddress, d.subnetEq p.ipAddress) :
    q.checkParent v p method = FindFree.bounds v.desiredIpAddress p >>= fun b =>
      .ok (v, some ⟨p, q.singleAddress, method, v.netmaskBits, b.1, b.2, q.maxAddresses,
        q.rndMaxCount⟩) := by
  have hwithin : ¬ ∃ d ∈ v.desiredIpAddress, ¬ d.subnetEq p.ipAddress := by
    rintro ⟨d, hdv, hnot⟩
    exact hnot (hd d hdv)
  have h₁ : ¬ (q.singleAddress = true ∧ p.canSubnet = true) := by
    rintro ⟨hs, hc⟩
    rw [hsub, hs] at hc
    exact absurd hc (by decide)
  have h₂ : ¬ (q.singleAddress = false ∧ p.canSubnet = false) := by
    rintro ⟨hs, hc⟩
    rw [hsub, hs] at hc
    exact absurd hc (by decide)
  have h₀ : ¬ (p.ipAddress.family.bits : ℤ) < v.netmaskBits := not_lt.mpr hbits
  simp only [FindFree.checkParent, raiseIf, if_neg h₀, if_neg h₁, if_neg h₂, if_neg hwithin]
  rfl

/-- The steps before the loop, for a request that gets past the checks. -/
theorem FindFree.Searches.prepare (h : q.Searches p m) (hv : Taking q v) :
    ∃ v' method, SameAddress v.desiredIpAddress v'.desiredIpAddress ∧
      v'.desiredIpAddress.isSome = v.desiredIpAddress.isSome ∧
      q.prepare v p = FindFree.bounds v'.desiredIpAddress p >>= fun b =>
        .ok (v', some ⟨p, q.singleAddress, method, v'.netmaskBits, b.1, b.2, q.maxAddresses,
          q.rndMaxCount⟩) := by
  have hwithin : ∀ d ∈ v.desiredIpAddress, d.host.subnetEq p.ipAddress := by
    intro d hd
    obtain ⟨d₀, hd₀, hf, ha⟩ := hv.address d hd
    have hhost : d.host = d₀.host := Inet.eq_of_fields hf ha (congrArg Family.bits hf)
    rw [hhost]
    exact h.desired d₀ hd₀
  have hfamily : ¬ ∃ d ∈ v.desiredIpAddress, d.family ≠ p.ipAddress.family := by
    rintro ⟨d, hd, hne⟩
    exact hne (hwithin d hd).1
  rw [FindFree.prepare, if_neg hfamily]
  dsimp only
  cases hs : q.singleAddress with
  | true =>
    rw [if_pos rfl]
    have hmasks : ∃ v', FindFree.singleMasks v p = .ok v' ∧
        v'.netmaskBits = p.ipAddress.family.bits ∧
        ∀ d ∈ v'.desiredIpAddress, d.subnetEq p.ipAddress := by
      rw [FindFree.singleMasks]
      cases hd : v.desiredIpAddress with
      | none =>
        exact ⟨_, rfl, rfl, by simp⟩
      | some d =>
        obtain ⟨hf, -, haddr⟩ := hwithin d hd
        have hle : p.ipAddress.masklen ≤ d.family.bits := by
          rw [show d.family = p.ipAddress.family from hf]
          exact p.ipAddress.masklen_le
        refine ⟨_, bind_eq_ok.mpr ⟨_, Inet.setMasklen_of_le hle, rfl⟩, rfl, fun d' hd' => ?_⟩
        obtain rfl := Option.mem_some_iff.mp hd'
        exact ⟨hf, le_rfl, haddr⟩
    obtain ⟨v', hv', hbits, hsub⟩ := hmasks
    refine ⟨v', q.methodFor v.desiredIpAddress.isSome p, singleMasks_address hv',
      (singleMasks_ok hv').2.1, ?_⟩
    rw [hv', ← hs]
    exact checkParent_eq hbits.le h.canSubnet hsub
  | false =>
    have hm : (m : ℤ) = v.netmaskBits := by
      have := (hv.masks.requested hs p m).mp h.requested
      exact this
    obtain ⟨hlt, hle⟩ := h.block hs
    rw [if_neg (by simp), if_neg (by omega), ← hs]
    refine ⟨v, q.methodFor v.desiredIpAddress.isSome p, .refl _, rfl,
      checkParent_eq (by omega) h.canSubnet fun d hd => ?_⟩
    obtain ⟨hf, -, haddr⟩ := hwithin d hd
    have := hv.masks.desiredMask hs (by omega) d hd
    exact ⟨hf, by omega, haddr⟩

theorem bounds_ok (h : Avoids .numericValueOutOfRange (FindFree.bounds (some d) p)) :
    ∃ b, FindFree.bounds (some d) p = .ok b := by
  obtain ⟨y, hy⟩ := Inet.exists_add_one (avoids_bounds.mp h)
  exact ⟨(d, y), bind_eq_ok.mpr ⟨y, hy, rfl⟩⟩

theorem bounds_ok_none (h : Avoids .numericValueOutOfRange (FindFree.bounds none p)) :
    ∃ b, FindFree.bounds none p = .ok b := by
  obtain ⟨y, hy⟩ := Inet.exists_add_one (a := p.ipAddress.broadcast) (avoids_bounds.mp h)
  exact ⟨(p.ipAddress, y), bind_eq_ok.mpr ⟨y, hy, rfl⟩⟩

/-- **The search of one parent** fails before its loop, or it fails where the loop does. -/
theorem FindFree.Searches.enters (h : q.Searches p m) (hp : findNetblock s.netblock i = some p)
    (hnet : p.ipAddress.network = p.ipAddress)
    (hm : q.desiredIpAddress = none → q.allocationMethod = some "top") (o : Outcomes) :
    (∀ passes, OutOfRange (findFreeNetblocks s o q passes [i])) ∨
      ∃ v c k, Taking q v ∧ Ready q p v c ∧ c.Begins k.currentIp ∧ k.matchCount = 0 ∧
        k.rndMatches = 0 ∧ ∀ passes, OutOfRange (loop (c.searchPass s o) passes k) →
          OutOfRange (findFreeNetblocks s o q passes [i]) := by
  obtain ⟨bits, desired, hsanitize⟩ := h.sanitize
  have hv := Taking.of_sanitize hsanitize
  obtain ⟨v, method, -, -, hprepare⟩ := h.prepare hv
  have hfind : ∀ passes, OutOfRange (searchParent s o q passes
        { netmaskBits := bits, desiredIpAddress := desired } i) →
      OutOfRange (findFreeNetblocks s o q passes [i]) := by
    intro passes hout
    exact Returns.fails_bind (returns_ended.mpr hsanitize) (Fails.bind (Fails.bind hout))
  by_cases hbounds : Avoids .numericValueOutOfRange (FindFree.bounds v.desiredIpAddress p)
  · right
    obtain ⟨b, hb⟩ : ∃ b, FindFree.bounds v.desiredIpAddress p = .ok b := by
      cases hd : v.desiredIpAddress with
      | none =>
        rw [hd] at hbounds
        exact bounds_ok_none hbounds
      | some d =>
        rw [hd] at hbounds
        exact bounds_ok hbounds
    rw [hb] at hprepare
    obtain ⟨hsame, hmasks, hc⟩ := prepare_ok hv.masks hprepare
    have hv₁ := hv.of_prepare hprepare
    have hc := hc _ rfl
    obtain ⟨⟨c, k⟩, hstart⟩ : ∃ r, ParentSearch.start _ o v = .ok r := by
      cases hd : v.desiredIpAddress with
      | some d => exact start_total_desired hc hd
      | none =>
        have hq : q.desiredIpAddress = none := by
          have := hmasks.desired
          rw [hd] at this
          simpa using this.symm
        have htop := hc.method
        rw [hd] at htop hbounds
        exact start_total (avoids_bounds.mp hbounds) hnet hd
          (Or.inr (htop.trans (methodFor_top (hm hq)))) hmasks hc
    obtain ⟨hready, hbegins, hrnd, hk⟩ := start_ok hmasks hc hstart
    refine ⟨v, c, k, hv₁, hready, hbegins, ?_, hrnd, fun passes hout => hfind passes ?_⟩
    · have : k.matchCount = v.matchCount := by rw [hk]
      rw [this, hsame.matchCount]
    · rw [searchParent, hp]
      exact Returns.fails_bind (returns_ended.mpr hprepare)
        (Returns.fails_bind (returns_ended.mpr hstart) (Fails.bind hout))
  · left
    refine fun passes => hfind passes ?_
    rw [searchParent, hp]
    refine Fails.bind (fails_ended.mpr (not_avoids.mp ?_))
    rw [hprepare]
    exact fun havoids => hbounds (avoids_bind_ok.mp havoids)

/-! ## A desired address -/

/-- The loop for a desired address begins with a pass for it. -/
theorem Ready.going_desired (hc : Ready q p v c) (hd : d ∈ v.desiredIpAddress)
    (hb : c.Begins k.currentIp) (hlooks : q.Looks) (hmatch : k.matchCount = 0)
    (hrnd : k.rndMatches = 0) : c.Going k ∧ k.currentIp = d := by
  obtain ⟨hspan, hsub, hmask⟩ := hc.desired d hd
  have hm : c.allocationMethod = .bottom := by
    rw [hc.method, Option.mem_def.mp hd, Option.isSome_some, methodFor_desired]
  have hx : k.currentIp = d := by
    refine Inet.eq_of_fields ?_ ((hb.bottom hm).trans hspan.minAddr) ?_
    · rw [hb.family, hc.netblockRec, hsub.1]
    · rw [hb.masklen, hmask]
  obtain ⟨w, hw, hpos⟩ := hlooks.maxAddresses
  refine ⟨⟨?_, ?_, ⟨w, hc.maxAddresses ▸ hw, by omega⟩, ?_⟩, hx⟩
  · rw [hx, Inet.le_iff_of_masklen_eq hspan.minFamily hspan.minMasklen, hspan.minAddr]
  · rw [hx, Inet.lt_iff_of_masklen_eq hspan.maxFamily.symm hspan.maxMasklen.symm, hspan.maxAddr]
    exact Nat.lt_succ_self _
  · rw [hrnd, hc.rndMaxCount]
    exact hlooks.rndMaxCount

theorem outOfRange_loop (h : ¬ Avoids .numericValueOutOfRange (c.searchPass s o k)) :
    OutOfRange (loop (c.searchPass s o) 1 k) :=
  loop_fails (I := fun k' => k' = k) (fun _ => 0)
    (fun _ hk => Or.inl (hk ▸ not_avoids.mp h)) rfl Nat.one_pos

/-! ## Which range is taken -/

/-- Nothing but zeros, and of several ranges one with the given property, if there is one. -/
def Outcomes.preferring (R : NetworkRange → Bool) : Outcomes :=
  { Outcomes.first with
    pick := fun l => (l.find? R).or l.head?
    pick_mem := by
      intro l nr h
      cases hfind : l.find? R with
      | none =>
        rw [hfind, Option.none_or] at h
        exact List.mem_of_mem_head? h
      | some nr' =>
        rw [hfind, Option.some_or] at h
        obtain rfl := Option.mem_some_iff.mp h
        exact List.mem_of_find?_eq_some hfind
    pick_none := fun l h => List.head?_eq_none_iff.mp (Option.or_eq_none_iff.mp h).2 }

theorem Outcomes.preferring_drawsFit (R : NetworkRange → Bool) : (preferring R).DrawsFit := by
  intro n
  show (0 <<< 32 + 0 + 1 : ℕ) < 2 ^ 63
  decide

/-- A range with the property is found around an address of which there is one. -/
theorem Checked.netrangeRec_preferring (hc : Checked q p v c) (hx : c.Fits x)
    (hs : q.singleAddress = true) {R : NetworkRange → Bool} {nr : NetworkRange}
    {start stop : Netblock} (hnr : nr ∈ s.networkRange) (hp : nr.parentNetblockId = p.netblockId)
    (hstart : start ∈ s.start nr) (hstop : stop ∈ s.stop nr)
    (hf : start.ipAddress.family = p.ipAddress.family)
    (hf' : stop.ipAddress.family = p.ipAddress.family) (hlo : start.ipAddress.addr ≤ x.addr)
    (hhi : x.addr ≤ stop.ipAddress.addr) (hR : R nr = true) :
    ∃ nr', c.netrangeRec s (.preferring R) x = some nr' ∧ R nr' = true := by
  have hxf : x.family = p.ipAddress.family := by rw [hx.family, hc.netblockRec]
  have haround : nr.Around s c.netblockRec.netblockId x := by
    rw [around_iff, hc.netblockRec]
    exact ⟨hp, start, hstart, stop, hstop, hxf.trans hf.symm, hxf.trans hf'.symm, hlo, hhi⟩
  have hmem : nr ∈ s.networkRange.filter (NetworkRange.Around s c.netblockRec.netblockId x) :=
    List.mem_filter.mpr ⟨hnr, decide_eq_true haround⟩
  have hfound : (s.networkRange.filter
      (NetworkRange.Around s c.netblockRec.netblockId x)).find? R ≠ none :=
    fun hnone => List.find?_eq_none.mp hnone nr hmem hR
  obtain ⟨nr', hnr'⟩ := Option.ne_none_iff_exists'.mp hfound
  refine ⟨nr', ?_, List.find?_some hnr'⟩
  rw [ParentSearch.netrangeRec, if_pos (hc.singleAddress.trans hs)]
  show (List.find? R _).or _ = _
  rw [hnr', Option.some_or]

/-! ## Down to the first address -/

/-- The addresses from `t` on up to `a` where the search finds a result. -/
def freeBetween (s : RangeTables) (q : FindFree) (p : Netblock) (m t a : ℕ) : Finset ℕ :=
  {b ∈ q.freeAbove s p m t | b ≤ a}

theorem mem_freeBetween : b ∈ freeBetween s q p m t a ↔ b ∈ q.freeAbove s p m t ∧ b ≤ a :=
  Finset.mem_filter

theorem card_freeBetween_mono (h : a ≤ b) :
    (freeBetween s q p m t a).card ≤ (freeBetween s q p m t b).card := by
  refine Finset.card_le_card fun e he => ?_
  obtain ⟨hmem, hle⟩ := mem_freeBetween.mp he
  exact mem_freeBetween.mpr ⟨hmem, hle.trans h⟩

theorem card_freeBetween_lt (h : a < b) (hb : b ∈ q.freeAbove s p m t) :
    (freeBetween s q p m t a).card < (freeBetween s q p m t b).card := by
  refine Finset.card_lt_card ⟨fun e he => ?_, fun hsub => ?_⟩
  · obtain ⟨hmem, hle⟩ := mem_freeBetween.mp he
    exact mem_freeBetween.mpr ⟨hmem, hle.trans h.le⟩
  · exact absurd (mem_freeBetween.mp (hsub (mem_freeBetween.mpr ⟨hb, le_rfl⟩))).2 (not_le.mpr h)

/-- What holds in every pass of a search that is going to leave the family. -/
structure Falling (s : RangeTables) (q : FindFree) (p : Netblock) (c : ParentSearch) (t : ℕ)
    (k : Cursor) : Prop where
  fits : c.Fits k.currentIp
  aligned : ∃ j, k.currentIp.addr = j * 2 ^ c.height
  lowest : p.ipAddress.block.first + q.margin p ≤ k.currentIp.addr
  below : k.currentIp.addr < p.ipAddress.block.last + 1 - q.margin p
  wanted : ∃ w ∈ q.maxAddresses, k.matchCount +
    (freeBetween s q p c.resultMasklen t k.currentIp.addr).card < w
  rndMatches : k.rndMatches = 0

/-- A range from which the search leaves the family, or goes on further down. -/
def LeadsDown (s : RangeTables) (q : FindFree) (p : Netblock) (nr : NetworkRange) : Bool :=
  decide (∃ start ∈ s.start nr, start.ipAddress.addr = 0 ∨
    p.ipAddress.block.first + q.margin p < start.ipAddress.addr)

theorem record_matchCount (hm : c.allocationMethod = .top) (hrnd : k.rndMatches = 0) :
    (c.record s k).rndMatches = 0 ∧ ((c.record s k).matchCount = k.matchCount ∨
      (¬ ∃ r ∈ s.netblock, c.Taken k.currentIp r) ∧
        (c.record s k).matchCount = k.matchCount + 1) := by
  rw [ParentSearch.record]
  split
  · next hnew => exact ⟨rfl, Or.inr ⟨hnew.1, rfl⟩⟩
  · rw [if_neg (by simp [hm])]
    exact ⟨hrnd, Or.inl rfl⟩

section Down

variable (hm : c.allocationMethod = .top) (hc : Ready q p v c) (hd : v.desiredIpAddress = none)
  (hnet : p.ipAddress.network = p.ipAddress) (hdown : q.ComesDown s p c.resultMasklen t)
include hm hc hd hnet hdown

omit hm in
theorem Falling.going (hk : Falling s q p c t k) : c.Going k := by
  have hfirst : p.ipAddress.addr = p.ipAddress.block.first := (congrArg Inet.addr hnet).symm
  obtain ⟨w, hw, hlt⟩ := hk.wanted
  refine ⟨?_, ?_, ⟨w, hc.maxAddresses ▸ hw, by omega⟩, ?_⟩
  · rw [hc.minIp_le_iff hk.fits hd, hfirst, ite_self]
    exact hk.lowest
  · rw [hc.lt_maxIp_iff hk.fits hd]
    exact hk.below
  · rw [hk.rndMatches, hc.rndMaxCount]
    exact hdown.rndMaxCount

omit hnet in
/-- The search begins above everything that it could find. -/
theorem Falling.begin (hb : c.Begins k.currentIp) (hmatch : k.matchCount = 0)
    (hrnd : k.rndMatches = 0) : Falling s q p c t k := by
  have hmax := (hc.parent hd).maxAddr
  have hmargin := margin_le_last q p
  have htop := hb.top hm
  have hle := first_of_le c.height (c.maxIp.addr - 1)
  have hlow : p.ipAddress.block.first + q.margin p ≤ k.currentIp.addr := by
    cases hs : q.singleAddress with
    | true =>
      rw [htop, hc.height_single hs, AlignedBlock.first_of_zero, hmax]
      have hlast := p.ipAddress.block.first_le_last
      rw [FindFree.margin]
      split
      · next hbits =>
        have hsize : p.ipAddress.block.last =
          p.ipAddress.block.first + (2 ^ p.ipAddress.hostbits - 1) := rfl
        have h4 : 2 ^ 2 ≤ 2 ^ p.ipAddress.hostbits := Nat.pow_le_pow_right (by decide) hbits.2
        omega
      · omega
    | false =>
      have hzero : q.margin p = 0 := by simp [FindFree.margin, hs]
      have hlast := p.ipAddress.block.first_le_last
      have hfirst : p.ipAddress.block.first =
          p.ipAddress.block.index * 2 ^ (p.ipAddress.hostbits - c.height) * 2 ^ c.height := by
        rw [Nat.mul_assoc, ← pow_add, Nat.sub_add_cancel hc.height_le]
        rfl
      rw [hzero, Nat.add_zero, htop, hfirst]
      refine mul_le_first_of ?_
      rw [← hfirst, hmax]
      omega
  obtain ⟨w, hw, hlt⟩ := hdown.wanted
  refine ⟨hb.toFits, ⟨_, htop⟩, hlow, by omega, ⟨w, hw, ?_⟩, hrnd⟩
  have hsub : (freeBetween s q p c.resultMasklen t k.currentIp.addr).card ≤
      (q.freeAbove s p c.resultMasklen t).card :=
    Finset.card_le_card fun e he => (mem_freeBetween.mp he).1
  omega

/-- A pass that finds no range leaves the family, or goes on below the address. -/
theorem Falling.next (hk : Falling s q p c t k)
    (hnr : c.netrangeRec s o k.currentIp = none) :
    ¬ Avoids .numericValueOutOfRange (c.searchPass s o k) ∨
      ∃ k', c.searchPass s o k = .ok (.yield k') ∧ Falling s q p c t k' ∧
        k'.currentIp.addr < k.currentIp.addr := by
  have hgoing := hk.going hc hd hnet hdown
  by_cases hzero : k.currentIp.addr = 0
  · left
    rw [searchPass_avoids hgoing, hnr]
    dsimp only
    rw [avoids_next_top hm, hzero]
    exact lt_irrefl 0
  right
  -- there is a range around every address up to `t`, unless that is zero
  have hunranged : q.singleAddress = true → ¬ InSomeRange s p k.currentIp.addr := fun hs =>
    (hc.netrangeRec_eq_none_iff hk.fits hs).mp hnr
  have ht : t < k.currentIp.addr := by
    rcases hdown.zero with ⟨rfl, -⟩ | ⟨hs, hrange⟩
    · omega
    · by_contra hle
      exact hunranged hs (inSomeRange_iff.mpr ⟨0, t, hrange, Nat.zero_le _, by omega⟩)
  obtain ⟨⟨x, n⟩, hnext⟩ : ∃ r, c.next o k = .ok r := by
    obtain ⟨y, hy⟩ := Inet.exists_sub_one (a := k.currentIp) (by omega)
    rw [ParentSearch.next]
    simp only [hm, reduceCtorEq, if_false]
    split
    · exact ⟨_, bind_eq_ok.mpr ⟨y, hy, rfl⟩⟩
    · exact ⟨_, bind_eq_ok.mpr ⟨y, hy, rfl⟩⟩
  obtain ⟨j, hj⟩ := hk.aligned
  obtain ⟨i, rfl, hx⟩ := (hc.next_addr hk.fits hj hnext).2 hm
  have hpos := Nat.two_pow_pos c.height
  have hmul : (i + 1) * 2 ^ c.height = i * 2 ^ c.height + 2 ^ c.height := Nat.succ_mul _ _
  have hbelow := hk.below
  have hxlt : x.addr < k.currentIp.addr := by omega
  obtain ⟨hrnd, hmatch⟩ := record_matchCount (s := s) hm hk.rndMatches
  refine ⟨{ c.record s k with currentIp := x, drawn := n }, ?_, ⟨hc.next_fits hk.fits hnext,
    ⟨i, hx⟩, ?_, hxlt.trans hbelow, ?_, hrnd⟩, hxlt⟩
  · rw [ParentSearch.searchPass, if_pos hgoing, hnr]
    exact bind_eq_ok.mpr ⟨(x, n), next_record.trans hnext, rfl⟩
  · show _ ≤ x.addr
    have hlowest := hdown.lowest
    cases hs : q.singleAddress with
    | true =>
      rw [hc.height_single hs, pow_zero] at hmul hpos hx hj
      omega
    | false =>
      rcases hdown.zero with ⟨rfl, -⟩ | ⟨hs', -⟩
      · omega
      · exact absurd (hs'.symm.trans hs) (by decide)
  · obtain ⟨w, hw, hlt⟩ := hk.wanted
    refine ⟨w, hw, ?_⟩
    show (c.record s k).matchCount + ((freeBetween s q p c.resultMasklen t x.addr).card : ℤ) < w
    rcases hmatch with hmatch | ⟨hfree, hmatch⟩
    · have := card_freeBetween_mono (s := s) (q := q) (p := p) (m := c.resultMasklen) (t := t)
        hxlt.le
      omega
    · have hmem : k.currentIp.addr ∈ q.freeAbove s p c.resultMasklen t := by
        refine FindFree.mem_freeAbove.mpr ⟨ht, hbelow, ?_, hunranged, ?_⟩
        · rw [hc.step_eq, hj]
          exact Dvd.intro_left _ rfl
        · rw [hk.fits.at_eq hc.netblockRec]
          rintro ⟨r, hr, hway⟩
          exact hfree ⟨r, hr, hc.taken_iff.mpr hway⟩
      have := card_freeBetween_lt hxlt hmem
      omega

/-- A pass that finds a range leaves the family, or goes on below the range. -/
theorem Falling.jump (hk : Falling s q p c t k) (hs : q.singleAddress = true)
    (hin : InSomeRange s p k.currentIp.addr) :
    ¬ Avoids .numericValueOutOfRange (c.searchPass s (.preferring (LeadsDown s q p)) k) ∨
      ∃ k', c.searchPass s (.preferring (LeadsDown s q p)) k = .ok (.yield k') ∧
        Falling s q p c t k' ∧ k'.currentIp.addr < k.currentIp.addr := by
  have hgoing := hk.going hc hd hnet hdown
  obtain ⟨nr, hnr, hleads⟩ : ∃ nr, c.netrangeRec s (.preferring (LeadsDown s q p)) k.currentIp =
      some nr ∧ LeadsDown s q p nr = true := by
    have hrange : ∃ lo hi, HasRange s p lo hi ∧ lo ≤ k.currentIp.addr ∧ k.currentIp.addr ≤ hi ∧
        (lo = 0 ∨ p.ipAddress.block.first + q.margin p < lo) := by
      by_cases ht : t < k.currentIp.addr
      · obtain ⟨lo, hi, h, hlo, hhi, hlow⟩ := hdown.passable hs _ ht hk.below hin
        exact ⟨lo, hi, h, hlo, hhi, Or.inr hlow⟩
      · rcases hdown.zero with ⟨rfl, hout⟩ | ⟨-, hrange⟩
        · have hzero : k.currentIp.addr = 0 := by omega
          exact absurd (hzero ▸ hin) (hout hs)
        · exact ⟨0, t, hrange, Nat.zero_le _, by omega, Or.inl rfl⟩
    obtain ⟨_, _, ⟨nr, hnr, hp, start, hstart, stop, hstop, hf, hf', rfl, rfl⟩, hlo, hhi, hlow⟩ :=
      hrange
    exact hc.netrangeRec_preferring hk.fits hs hnr hp hstart hstop hf hf' hlo hhi
      (decide_eq_true ⟨start, hstart, hlow⟩)
  obtain ⟨-, start, hstart, stop, hstop, hrange, hlo, hhi, -⟩ := hc.netrangeRec_some hk.fits hnr
  obtain ⟨start', hstart', hlow⟩ := of_decide_eq_true hleads
  obtain rfl : start' = start := Option.mem_unique hstart' hstart
  by_cases hzero : start'.ipAddress.addr = 0
  · left
    rw [searchPass_avoids hgoing, hnr]
    dsimp only
    rw [avoids_jump_top hm hstart, hzero]
    exact lt_irrefl 0
  right
  obtain ⟨y, hy⟩ := Inet.exists_sub_one (a := start'.ipAddress) (by omega)
  obtain ⟨hyf, -, hya⟩ := Inet.sub_eq_ok.mp hy
  obtain ⟨-, -, -, start₂, hstart₂, -, -, hf, -⟩ := netrangeRec_eq_some hnr
  obtain rfl : start₂ = start' := Option.mem_unique hstart₂ hstart
  have hmask : c.maxIp.masklen ≤ y.family.bits := by
    rw [hyf, ← hf, hk.fits.family, ← (hc.bounds_fit hs).2.family]
    exact c.maxIp.masklen_le
  have hjump : c.jump s (.preferring (LeadsDown s q p)) nr k = .ok (y, k.drawn) := by
    rw [ParentSearch.jump, hm, Option.mem_def.mp hstart]
    exact bind_eq_ok.mpr ⟨y, hy, rfl⟩
  have hset := Inet.setMasklen_of_le hmask
  have hbelow := hk.below
  have hlow := hlow.resolve_left hzero
  have hxa : (y.withMasklen c.maxIp.masklen hmask).addr = y.addr := rfl
  have hxlt : (y.withMasklen c.maxIp.masklen hmask).addr < k.currentIp.addr := by omega
  refine ⟨{ k with currentIp := y.withMasklen _ hmask }, ?_,
    ⟨hc.jump_fits hk.fits hnr hjump hset, ?_, ?_, hxlt.trans hbelow, ?_, hk.rndMatches⟩, hxlt⟩
  · rw [ParentSearch.searchPass, if_pos hgoing, hnr]
    exact bind_eq_ok.mpr ⟨_, hjump, bind_eq_ok.mpr ⟨_, hset, rfl⟩⟩
  · rw [hc.height_single hs]
    exact ⟨y.addr, (Nat.mul_one _).symm⟩
  · show _ ≤ (y.withMasklen c.maxIp.masklen hmask).addr
    omega
  · obtain ⟨w, hw, hlt⟩ := hk.wanted
    have := card_freeBetween_mono (s := s) (q := q) (p := p) (m := c.resultMasklen) (t := t)
      hxlt.le
    refine ⟨w, hw, ?_⟩
    show k.matchCount + ((freeBetween s q p c.resultMasklen t
      (y.withMasklen c.maxIp.masklen hmask).addr).card : ℤ) < w
    omega

/-- **A search that comes down** to the first address leaves the family. -/
theorem Falling.outOfRange (hk : Falling s q p c t k) : ∃ passes,
    OutOfRange (loop (c.searchPass s (.preferring (LeadsDown s q p))) passes k) := by
  refine ⟨_, loop_fails (I := Falling s q p c t) (fun k => k.currentIp.addr) (fun k hk => ?_) hk
    (Nat.lt_succ_self _)⟩
  have hpass : ¬ Avoids .numericValueOutOfRange
        (c.searchPass s (.preferring (LeadsDown s q p)) k) ∨
      ∃ k', c.searchPass s (.preferring (LeadsDown s q p)) k = .ok (.yield k') ∧
        Falling s q p c t k' ∧ k'.currentIp.addr < k.currentIp.addr := by
    cases hnr : c.netrangeRec s (.preferring (LeadsDown s q p)) k.currentIp with
    | none => exact hk.next hm hc hd hnet hdown hnr
    | some nr =>
      obtain ⟨hs, start, -, stop, -, hrange, hlo, hhi, -⟩ := hc.netrangeRec_some hk.fits hnr
      exact hk.jump hm hc hd hnet hdown hs (inSomeRange_iff.mpr ⟨_, _, hrange, hlo, hhi⟩)
  exact hpass.imp not_avoids.mp id

end Down

/-! ## The function -/

/-- Without an address after the parent, or after the desired one, the call fails. -/
theorem FindFree.Searches.outOfRange (h : q.Searches p m)
    (hp : findNetblock s.netblock i = some p)
    (hout : ∀ d, SameAddress q.desiredIpAddress d → d.isSome = q.desiredIpAddress.isSome →
      ¬ Avoids .numericValueOutOfRange (FindFree.bounds d p)) :
    OutOfRange (findFreeNetblocks s o q passes [i]) := by
  obtain ⟨bits, desired, hsanitize⟩ := h.sanitize
  have hv := Taking.of_sanitize hsanitize
  obtain ⟨v, method, haddr, hsome, hprepare⟩ := h.prepare hv
  refine Returns.fails_bind (returns_ended.mpr hsanitize) (Fails.bind (Fails.bind ?_))
  rw [searchParent, hp]
  refine Fails.bind (fails_ended.mpr (not_avoids.mp ?_))
  rw [hprepare]
  exact fun havoids => hout v.desiredIpAddress (hv.address.trans haddr)
    (hsome.trans hv.masks.desired) (avoids_bind_ok.mp havoids)

theorem Taking.exists_desired (hv : Taking q v) (hq : q.desiredIpAddress = some d) :
    ∃ d' ∈ v.desiredIpAddress, d'.family = d.family ∧ d'.addr = d.addr := by
  have hsome := hv.masks.desired
  rw [hq] at hsome
  obtain ⟨d', hd'⟩ := Option.isSome_iff_exists.mp hsome
  obtain ⟨d₀, hd₀, hf, ha⟩ := hv.address d' hd'
  obtain rfl : d₀ = d := Option.mem_unique hd₀ hq
  exact ⟨d', hd', hf, ha⟩

/-- **A search that leaves the family** fails for some values of `random()` and some choice among the
network ranges. -/
theorem LeavesFamily.outOfRange (h : LeavesFamily s q p) (hp : findNetblock s.netblock i = some p)
    (hnet : p.ipAddress.network = p.ipAddress) : ∃ o : Outcomes, o.DrawsFit ∧
      ∃ passes, OutOfRange (findFreeNetblocks s o q passes [i]) := by
  have hfirst := Outcomes.preferring_drawsFit fun _ => true
  cases h with
  | parent h hd hlast =>
    refine ⟨_, hfirst, 0, h.outOfRange hp fun d _ hsome => ?_⟩
    rw [hd, Option.isSome_none, Option.isSome_eq_false_iff, Option.isNone_iff_eq_none] at hsome
    rw [hsome, avoids_bounds]
    exact not_lt.mpr hlast.ge
  | @desired m d₀ h hd hlast =>
    refine ⟨_, hfirst, 0, h.outOfRange hp fun d haddr hsome => ?_⟩
    rw [hd] at haddr hsome
    obtain ⟨d', rfl⟩ := Option.isSome_iff_exists.mp hsome
    obtain ⟨d₁, hd₁, hf, ha⟩ := haddr d' rfl
    obtain rfl := Option.mem_some_iff.mp hd₁
    have hpf : d₀.family = p.ipAddress.family := (h.desired d₀ hd).1
    rw [avoids_bounds]
    dsimp only
    rw [hf, ha, hpf]
    exact not_lt.mpr hlast.ge
  | @block m d₀ h hd hs hlooks hlast =>
    refine ⟨_, hfirst, 1, ?_⟩
    rcases h.enters hp hnet (fun hnone => absurd (hd.symm.trans hnone) (by simp))
      (Outcomes.preferring fun _ => true) with hout | ⟨v, c, k, hv, hc, hb, hmatch, hrnd, hout⟩
    · exact hout 1
    obtain ⟨d, hdv, -, ha⟩ := hv.exists_desired hd
    obtain ⟨hgoing, hx⟩ := hc.going_desired hdv hb hlooks hmatch hrnd
    have hm : c.allocationMethod = .bottom := by
      rw [hc.method, Option.mem_def.mp hdv, Option.isSome_some, methodFor_desired]
    have hnone : c.netrangeRec s (Outcomes.preferring fun _ => true) k.currentIp = none :=
      if_neg (by simp [hc.singleAddress, hs])
    obtain rfl := (hv.masks.requests_iff hc).mp h.requested
    refine hout 1 (outOfRange_loop ?_)
    rw [searchPass_avoids hgoing, hnone]
    dsimp only
    rw [avoids_next_bottom hm, if_neg (by simp [hc.singleAddress, hs]), hc.block_eq hb.toFits, hx, ha,
      hlast, ← hx, hb.family, hc.netblockRec]
    exact lt_irrefl _
  | @range m lo hi d₀ h hd hs hlooks hrange hlo hhi hlast =>
    let R : NetworkRange → Bool := fun nr =>
      decide (∃ stop ∈ s.stop nr, stop.ipAddress.addr + 1 = 2 ^ p.ipAddress.family.bits)
    refine ⟨_, Outcomes.preferring_drawsFit R, 1, ?_⟩
    rcases h.enters hp hnet (fun hnone => absurd (hd.symm.trans hnone) (by simp))
      (Outcomes.preferring R) with hout | ⟨v, c, k, hv, hc, hb, hmatch, hrnd, hout⟩
    · exact hout 1
    obtain ⟨d, hdv, -, ha⟩ := hv.exists_desired hd
    obtain ⟨hgoing, hx⟩ := hc.going_desired hdv hb hlooks hmatch hrnd
    have hm : c.allocationMethod = .bottom := by
      rw [hc.method, Option.mem_def.mp hdv, Option.isSome_some, methodFor_desired]
    obtain ⟨nr, hnr, hparent, start, hstart, stop, hstop, hf, hf', rfl, rfl⟩ := hrange
    rw [← ha, ← hx] at hlo hhi
    obtain ⟨nr', hnr', hR⟩ := hc.netrangeRec_preferring hb.toFits hs (R := R) hnr hparent hstart
      hstop hf hf' hlo hhi (decide_eq_true ⟨stop, hstop, hlast⟩)
    obtain ⟨-, -, -, stop', hstop', -, -, -, hstopf⟩ := hc.netrangeRec_some hb.toFits hnr'
    obtain ⟨stop'', hstop'', hend⟩ := of_decide_eq_true hR
    obtain rfl : stop'' = stop' := Option.mem_unique hstop'' hstop'
    refine hout 1 (outOfRange_loop ?_)
    rw [searchPass_avoids hgoing, hnr']
    dsimp only
    rw [avoids_jump_bottom hm hstop', hend, hstopf]
    exact lt_irrefl _
  | @first m t h hd hdown =>
    refine ⟨_, Outcomes.preferring_drawsFit (LeadsDown s q p), ?_⟩
    rcases h.enters hp hnet (fun _ => hdown.method) (Outcomes.preferring (LeadsDown s q p)) with
      hout | ⟨v, c, k, hv, hc, hb, hmatch, hrnd, hout⟩
    · exact ⟨0, hout 0⟩
    have hnone : v.desiredIpAddress = none := by
      have := hv.masks.desired
      rw [hd] at this
      simpa using this
    have hm : c.allocationMethod = .top := by
      rw [hc.method, hnone]
      exact methodFor_top hdown.method
    obtain rfl := (hv.masks.requests_iff hc).mp h.requested
    obtain ⟨passes, hloop⟩ :=
      (Falling.begin hm hc hnone hdown hb hmatch hrnd).outOfRange hm hc hnone hnet hdown
    exact ⟨passes, hout passes hloop⟩

/-- **`find_free_netblocks` stays in range** for every list of the parents, all values of `random()`
and every choice among the network ranges if and only if none of the parents leaves its family. -/
theorem findFreeNetblocks_inRange_iff {parents : List ℕ}
    (hparents : ∀ i ∈ parents, ∀ p, findNetblock s.netblock i = some p →
      p.ipAddress.network = p.ipAddress ∧ RangesWithin s p) :
    (∀ l ⊆ parents, ∀ o : Outcomes, o.DrawsFit → ∀ passes,
        InRange (findFreeNetblocks s o q passes l)) ↔
      ∀ i ∈ parents, ∀ p, findNetblock s.netblock i = some p → ¬ LeavesFamily s q p := by
  constructor
  · intro h i hi p hp hleaves
    obtain ⟨o, ho, passes, hout⟩ := hleaves.outOfRange hp (hparents i hi p hp).1
    have hsub : [i] ⊆ parents := List.cons_subset.mpr ⟨hi, List.nil_subset _⟩
    exact hout.not_failsOnly (h [i] hsub o ho passes)
  · intro h l hl o ho passes
    refine findFreeNetblocks_inRange ho fun i hi p hp => ?_
    obtain ⟨hnet, hranges⟩ := hparents i (hl hi) p hp
    exact ⟨hnet, hranges, h i (hl hi) p hp⟩

end JazzHands

import JazzHands.Allocation.FamilyLeft
import JazzHands.Allocation.Intermediate

/-!
# Both ends of a network

`list_unallocated_netblocks` begins its list one address before the network and ends it one address
after it, so a network at an end of its family cannot be listed once there is something in it.
-/

namespace JazzHands

open Library Postgres

variable {t : List Netblock} {τ : String} {u passes : ℕ} {a b c x y ip : Inet} {l : List Inet}
variable {v v' : Intermediate} {s : RangeTables} {q : FindFree} {sub : Bool}

/-! ## The blocks between two networks -/

/-- Of two networks in order, the second one begins after the first, or lies within it. -/
theorem Postgres.Inet.le.after_or_within (h : a.le b) (hf : a.family = b.family) :
    a.block.last < b.block.first ∨ b.subnetEq a := by
  by_cases hsub : b.subnetEq a
  · exact Or.inr hsub
  left
  have hnot : ¬ b.block ≤ a.block := fun hle => hsub (Inet.subnetEq_iff.mpr ⟨hf.symm, hle⟩)
  refine AlignedBlock.last_lt_first (lt_of_le_of_ne (h.first_le hf) fun heq => ?_) hnot
  -- two networks that begin together are nested, and the larger one comes first
  have hle : a.block ≤ b.block := (AlignedBlock.le_or_le_of_mem (heq ▸ a.block.first_mem)
    b.block.first_mem).resolve_right hnot
  have hcidr : a.cidr ≤ b.cidr := ⟨hf, hle⟩
  have hmask := (Inet.cidr_lt_iff hcidr).mp
    (lt_of_le_not_ge hcidr fun hge => hnot (Cidr.le_def.mp hge).2)
  refine h ?_
  rw [Inet.cmp_eq, hf, heq, Nat.compare_eq_eq.mpr rfl, Nat.compare_eq_eq.mpr rfl,
    Nat.compare_eq_gt.mpr hmask]
  rfl

theorem orderBlocks_avoids : Avoids .numericValueOutOfRange (orderBlocks a b) := by
  refine (avoids_raiseIf (by decide)).bind fun _ _ => (avoids_raiseIf (by decide)).bind fun _ _ => ?_
  split
  · exact avoids_ok
  · exact avoids_ok

theorem orderBlocks_eq_ok (h : orderBlocks a b = .ok (x, y)) : x.family = y.family ∧ x.le y ∧
    (x = a.network ∧ y = b.network ∨ x = b.network ∧ y = a.network) := by
  simp only [orderBlocks, bind_unit_eq_ok, raiseIf_eq_ok, not_not] at h
  obtain ⟨hf, -, h⟩ := h
  split at h
  · next hlt =>
    obtain ⟨rfl, rfl⟩ := Prod.mk.inj (Except.ok.inj h)
    refine ⟨hf.symm, ?_, Or.inr ⟨rfl, rfl⟩⟩
    rw [Inet.lt] at hlt
    rw [Inet.le, hlt]
    decide
  · next hlt =>
    obtain ⟨rfl, rfl⟩ := Prod.mk.inj (Except.ok.inj h)
    refine ⟨hf, fun hgt => hlt ?_, Or.inl ⟨rfl, rfl⟩⟩
    exact Std.OrientedCmp.gt_iff_lt.mp hgt

/-- The second loop halves networks, whatever it descends to. -/
theorem narrowPass_keeps (h : v.currentNb.network = v.currentNb) :
    narrowPass t τ u b v = .ok (.done v) ∨
      ∃ v', narrowPass t τ u b v = .ok (.yield v') ∧ v'.currentNb.network = v'.currentNb := by
  rw [narrowPass]
  by_cases hdone : v.currentNb.host = b.host ∨ v.currentNb.family.bits ≤ v.currentNb.masklen
  · exact Or.inl (if_pos hdone)
  right
  rw [if_neg hdone]
  have hmask : v.currentNb.masklen < v.currentNb.family.bits := not_le.mp (not_or.mp hdone).2
  have hpos : 0 < v.currentNb.block.height := by
    rw [Inet.height_block, Inet.hostbits]
    omega
  obtain ⟨y, hset, hyf, -, hyn, hyb⟩ := Inet.exists_longer h hmask
  have hroom : y.block.last + 1 < 2 ^ y.family.bits := by
    have := v.currentNb.last_block_lt
    have := v.currentNb.block.upper.first_le_last
    rw [AlignedBlock.last_upper hpos, AlignedBlock.first_upper] at this
    rw [hyb, hyf]
    omega
  by_cases hsub : b.subnetEq y
  · refine ⟨{ v with currentNb := y }, bind_eq_ok.mpr ⟨y, hset, ?_⟩, hyn⟩
    rw [if_neg (not_not.mpr hsub)]
  · obtain ⟨z, hadd, -, -, hzn, -⟩ := Inet.exists_next hroom
    obtain ⟨rows, hrows, -⟩ := splitStored_total (t := t) (τ := τ) (u := u) hyn
    refine ⟨{ v with currentNb := z, rows := v.rows ++ rows }, bind_eq_ok.mpr ⟨y, hset, ?_⟩, hzn⟩
    rw [if_pos hsub]
    exact bind_eq_ok.mpr ⟨rows, hrows, bind_eq_ok.mpr ⟨z, hadd, rfl⟩⟩

/-- When the second network lies within the first, the first loop is left at once. -/
theorem widenPass_nested (hsub : b.subnetEq v.currentNb)
    (hlast : v.currentNb.block.last + 1 < 2 ^ v.currentNb.family.bits) :
    ∃ v', widenPass t τ u b v = .ok (.done v') ∧ v'.currentNb.network = v'.currentNb := by
  have hpos : 0 < v.currentNb.masklen := by
    refine Nat.pos_of_ne_zero fun hzero => ?_
    have hend := v.currentNb.block.last_add_one
    have hbits : v.currentNb.hostbits = v.currentNb.family.bits := by
      rw [Inet.hostbits, hzero, Nat.sub_zero]
    rw [Inet.height_block, hbits] at hend
    have : 1 * 2 ^ v.currentNb.family.bits ≤
        (v.currentNb.block.index + 1) * 2 ^ v.currentNb.family.bits :=
      Nat.mul_le_mul_right _ (by omega)
    omega
  obtain ⟨y, hset, hyf, -, hyb⟩ := Inet.exists_shorter hpos
  obtain ⟨z, hadd, -, -, hzn, -⟩ := Inet.exists_next hlast
  have hin : b.subnetEq y.network := by
    rw [Inet.subnetEq_iff, Inet.cidr_network]
    refine (Inet.subnetEq_iff.mp hsub).trans ⟨hyf.symm, ?_⟩
    show v.currentNb.block ≤ y.block
    rw [hyb]
    exact v.currentNb.block.le_up
  refine ⟨{ v with currentNb := z }, bind_eq_ok.mpr ⟨y, hset, ?_⟩, hzn⟩
  rw [if_pos hin]
  exact bind_eq_ok.mpr ⟨z, hadd, rfl⟩

/-- **The blocks between two networks** are found within the family, unless one network contains the
other and ends with the family. -/
theorem calculateIntermediateNetblocks_inRange
    (hab : b.subnetEq a → a.block.last + 1 < 2 ^ a.family.bits)
    (hba : a.subnetEq b → b.block.last + 1 < 2 ^ b.family.bits) :
    InRange (calculateIntermediateNetblocks t passes (some a) (some b) τ u) := by
  refine FailsOnly.bind (failsOnly_ended.mpr orderBlocks_avoids) ?_
  rintro ⟨x, y⟩ horder
  obtain ⟨hf, hle, hxy⟩ := orderBlocks_eq_ok (returns_ended.mp horder)
  -- the first loop ends with a network, and the second one begins with it
  have hfirst : InRange (loop (widenPass t τ u y) passes { currentNb := x, maxAddr := x.broadcast }) ∧
      ∀ v, Returns (loop (widenPass t τ u y) passes { currentNb := x, maxAddr := x.broadcast }) v →
        v.currentNb.network = v.currentNb := by
    have hxn : x = x.network := by
      rcases hxy with ⟨rfl, -⟩ | ⟨rfl, -⟩ <;> exact (Inet.network_eq_self (by simp; rfl)).symm
    rcases hle.after_or_within hf with hafter | hwithin
    · have hstart : Widening x y { currentNb := x, maxAddr := x.broadcast } := by
        have h := Widening.start hf hafter
        rwa [← hxn] at h
      constructor
      · refine loop_failsOnly (I := Widening x y) (fun v err hv herr => ?_) (fun v v' hv hpass => ?_)
          hstart
        · rcases widenPass_total (t := t) (τ := τ) (u := u) hv with ⟨v', h, -⟩ | ⟨v', h, -⟩
          all_goals cases h.symm.trans herr
        · rcases widenPass_total (t := t) (τ := τ) (u := u) hv with ⟨v₁, h, -⟩ | ⟨v₁, h, hv₁, -⟩
          · cases h.symm.trans hpass
          · obtain rfl := ForInStep.yield.inj (Except.ok.inj (h.symm.trans hpass))
            exact hv₁
      · intro v hv
        refine loop_returns (I := Widening x y) (J := fun v => v.currentNb.network = v.currentNb)
          (fun v v' hv hpass => ?_) (fun v v' hv hpass => ?_) hstart hv
        · rcases widenPass_total (t := t) (τ := τ) (u := u) hv with ⟨v₁, h, -⟩ | ⟨v₁, h, hv₁, -⟩
          · cases h.symm.trans hpass
          · obtain rfl := ForInStep.yield.inj (Except.ok.inj (h.symm.trans hpass))
            exact hv₁
        · rcases widenPass_total (t := t) (τ := τ) (u := u) hv with ⟨v₁, h, hv₁⟩ | ⟨v₁, h, -, -⟩
          · obtain rfl := ForInStep.done.inj (Except.ok.inj (h.symm.trans hpass))
            exact hv₁.network
          · cases h.symm.trans hpass
    · have hroom : x.block.last + 1 < 2 ^ x.family.bits := by
        rw [Inet.subnetEq_iff] at hwithin
        rcases hxy with ⟨rfl, rfl⟩ | ⟨rfl, rfl⟩
        · rw [Inet.cidr_network, Inet.cidr_network] at hwithin
          rw [Inet.block_network]
          exact hab (Inet.subnetEq_iff.mpr hwithin)
        · rw [Inet.cidr_network, Inet.cidr_network] at hwithin
          rw [Inet.block_network]
          exact hba (Inet.subnetEq_iff.mpr hwithin)
      obtain ⟨v₁, hpass, hv₁⟩ := widenPass_nested (t := t) (τ := τ) (u := u)
        (v := { currentNb := x, maxAddr := x.broadcast }) hwithin hroom
      cases passes with
      | zero => exact ⟨fun err h => (by cases h), fun v h => (by cases h)⟩
      | succ n =>
        rw [loop, hpass]
        refine ⟨failsOnly_ended.mpr fun err h => (by cases h), fun v h => ?_⟩
        obtain rfl := Except.ok.inj (returns_ended.mp h)
        exact hv₁
  refine FailsOnly.bind hfirst.1 fun v hv => ?_
  refine FailsOnly.bind ?_ fun _ _ => failsOnly_pure
  refine loop_failsOnly (I := fun v => v.currentNb.network = v.currentNb)
    (fun v err hv herr => ?_) (fun v v' hv hpass => ?_) (hfirst.2 v hv)
  · rcases narrowPass_keeps (t := t) (τ := τ) (u := u) (b := y) hv with h | ⟨v', h, -⟩
    all_goals cases h.symm.trans herr
  · rcases narrowPass_keeps (t := t) (τ := τ) (u := u) (b := y) hv with h | ⟨v₁, h, hv₁⟩
    · cases h.symm.trans hpass
    · obtain rfl := ForInStep.yield.inj (Except.ok.inj (h.symm.trans hpass))
      exact hv₁

/-! ## The network that is listed -/

/-- If one of the networks contains the other, it does not end with the family. -/
def EndsInside (a b : Inet) : Prop :=
  (b.subnetEq a → a.block.last + 1 < 2 ^ a.family.bits) ∧
    (a.subnetEq b → b.block.last + 1 < 2 ^ b.family.bits)

theorem intermediateNetblocks_inRange (h : l.Pairwise EndsInside) :
    InRange (intermediateNetblocks t passes l) := by
  induction l with
  | nil => exact failsOnly_pure
  | cons a l ih =>
    cases l with
    | nil => exact failsOnly_pure
    | cons b l =>
      obtain ⟨ha, hl⟩ := List.pairwise_cons.mp h
      obtain ⟨hab, hba⟩ := ha b List.mem_cons_self
      exact FailsOnly.bind (calculateIntermediateNetblocks_inRange hab hba) fun _ _ =>
        FailsOnly.bind (ih hl) fun _ _ => failsOnly_pure

theorem mem_ipArray (h : x ∈ ipArray t ip u τ sub) : x.cidr ≤ ip.cidr := by
  rw [ipArray] at h
  split at h
  · obtain ⟨n, hn, rfl⟩ := List.mem_map.mp ((List.mem_insertionSort _).mp h)
    exact Inet.subnetEq_iff.mp (of_decide_eq_true (List.mem_filter.mp hn).2).1
  · obtain ⟨y, hy, rfl⟩ := List.mem_map.mp h
    obtain ⟨n, hn, rfl⟩ := List.mem_map.mp ((List.mem_insertionSort _).mp hy)
    exact (Inet.cidr_le_of_host_eq (a := n.ipAddress.host) (b := n.ipAddress) rfl n.ipAddress.masklen_le).trans
      (Inet.subnetEq_iff.mp (of_decide_eq_true (List.mem_filter.mp hn).2).1)

/-- A network that contains an address of another one and ends within it does not end with the family
unless that one does. -/
theorem endsInside_of_le (hroom : ip.block.last + 1 < 2 ^ ip.family.bits) (hf : a.family = ip.family)
    (hlast : a.block.last ≤ ip.block.last) : a.block.last + 1 < 2 ^ a.family.bits := by
  rw [hf]
  omega

/-- Inside the family, the list from one end of the network to the other has no network in it that
ends with the family and contains another one. -/
theorem pairwise_endsInside (hroom : ip.block.last + 1 < 2 ^ ip.family.bits)
    (hfirst : ip.sub 1 = .ok a) (hlast : ip.broadcast.add 1 = .ok b)
    (hl : ∀ x ∈ l, x.cidr ≤ ip.cidr) : (a :: (l ++ [b])).Pairwise EndsInside := by
  obtain ⟨haf, ham, haa⟩ := Inet.sub_eq_ok.mp hfirst
  obtain ⟨c, hc, hbf, -, -, hbb⟩ := Inet.exists_next hroom
  obtain rfl : c = b := Except.ok.inj (hc.symm.trans hlast)
  have hbfirst : c.block.first = ip.block.last + 1 := by rw [hbb, AlignedBlock.first_next]
  have hle : ∀ x ∈ l, x.family = ip.family ∧ x.block.last ≤ ip.block.last := fun x hx =>
    ⟨(hl x hx).1, AlignedBlock.last_le_last (hl x hx).2⟩
  have halast : a.block.last ≤ ip.block.last := by
    have ha := a.block.last_add_one
    have hi := ip.block.last_add_one
    have hbits : a.hostbits = ip.hostbits := by rw [Inet.hostbits, Inet.hostbits, haf, ham]
    have hdiv : a.block.index ≤ ip.block.index := by
      show a.addr / 2 ^ a.hostbits ≤ ip.addr / 2 ^ ip.hostbits
      rw [hbits]
      exact Nat.div_le_div_right (by omega)
    rw [Inet.height_block, hbits] at ha
    rw [Inet.height_block] at hi
    have := Nat.mul_le_mul_right (2 ^ ip.hostbits) (Nat.add_le_add_right hdiv 1)
    omega
  -- the network after the end contains nothing that is in the list
  have hout : ∀ x : Inet, x.block.last ≤ ip.block.last → ¬ x.subnetEq c := by
    intro x hx hsub
    have hmem := AlignedBlock.mem_of_le (Inet.subnetEq_iff.mp hsub).2 x.addr_mem_block
    have := (AlignedBlock.mem_iff_first_last.mp x.addr_mem_block).2
    have := (AlignedBlock.mem_iff_first_last.mp hmem).1
    have hfirst : c.cidr.block.first = c.block.first := rfl
    omega
  have hlistend : ∀ x : Inet, x.family = ip.family → x.block.last ≤ ip.block.last →
      EndsInside x c := fun x hf hx =>
    ⟨fun _ => endsInside_of_le hroom hf hx, fun hsub => absurd hsub (hout x hx)⟩
  refine List.pairwise_cons.mpr ⟨fun x hx => ?_, List.pairwise_append.mpr ⟨?_, by simp, ?_⟩⟩
  · rcases List.mem_append.mp hx with hx | hx
    · obtain ⟨hf, hxl⟩ := hle x hx
      exact ⟨fun _ => endsInside_of_le hroom haf halast, fun _ => endsInside_of_le hroom hf hxl⟩
    · obtain rfl := List.mem_singleton.mp hx
      exact hlistend a haf halast
  · refine List.Pairwise.imp_of_mem (R := fun _ _ => True) (fun hx hy _ => ?_)
      (List.pairwise_of_forall fun _ _ => trivial)
    exact ⟨fun _ => endsInside_of_le hroom (hle _ hx).1 (hle _ hx).2,
      fun _ => endsInside_of_le hroom (hle _ hy).1 (hle _ hy).2⟩
  · intro x hx y hy
    obtain rfl := List.mem_singleton.mp hy
    exact hlistend x (hle x hx).1 (hle x hx).2

theorem unallocatedNetblocks_inRange_iff :
    (∀ passes, InRange (unallocatedNetblocks t passes ip u τ sub)) ↔
      (ipArray t ip u τ sub ≠ [] → 0 < ip.addr ∧ ip.block.last + 1 < 2 ^ ip.family.bits) := by
  constructor
  · intro h hne
    have h := h 0
    rw [unallocatedNetblocks] at h
    cases harray : ipArray t ip u τ sub with
    | nil => exact absurd harray hne
    | cons x l =>
      rw [harray] at h
      by_contra hends
      have hout : OutOfRange (do
          let first ← ended (ip.sub 1)
          let last ← ended (ip.broadcast.add 1)
          intermediateNetblocks t 0 (first :: (x :: l ++ [last]))) := by
        by_cases hsub : Avoids .numericValueOutOfRange (ip.sub 1)
        · obtain ⟨y, hy⟩ := Inet.exists_sub_one (Inet.sub_one_avoids.mp hsub)
          refine Returns.fails_bind (returns_ended.mpr hy)
            (Fails.bind (fails_ended.mpr (not_avoids.mp ?_)))
          exact fun hadd => hends ⟨Inet.sub_one_avoids.mp hsub, Inet.add_one_avoids.mp hadd⟩
        · exact Fails.bind (fails_ended.mpr (not_avoids.mp hsub))
      exact hout.not_failsOnly h
  · intro h passes
    rw [unallocatedNetblocks]
    cases harray : ipArray t ip u τ sub with
    | nil => exact failsOnly_pure
    | cons x l =>
      obtain ⟨hpos, hroom⟩ := h (by simp [harray])
      refine FailsOnly.bind (failsOnly_ended.mpr (Inet.sub_one_avoids.mpr hpos)) fun a ha => ?_
      refine FailsOnly.bind (failsOnly_ended.mpr (Inet.add_one_avoids.mpr hroom)) fun b hb => ?_
      refine intermediateNetblocks_inRange (pairwise_endsInside hroom (returns_ended.mp ha)
        (returns_ended.mp hb) fun y hy => ?_)
      rw [← harray] at hy
      exact mem_ipArray hy

/-- The network that a call of `list_unallocated_netblocks` divides, with its universe, its type and
whether it is subnettable. -/
def divides (t : List Netblock) (netblockId : Option ℕ) (ipAddress : Option Inet) :
    Option (Inet × ℕ × String × Bool) :=
  match netblockId, ipAddress with
  | some netblockId, _ => (findNetblock t netblockId).bind fun n =>
      if n.isSingleAddress = true then none
      else some (n.ipAddress, n.ipUniverseId, n.netblockType, n.canSubnet)
  | none, some ip => some (ip, 0, "default", true)
  | none, none => none

/-- **`list_unallocated_netblocks` stays in range** if and only if the network has nothing in it, or
neither begins with the first nor ends with the last address of its family. -/
theorem listUnallocatedNetblocks_inRange_iff {netblockId : Option ℕ} {ipAddress : Option Inet} :
    (∀ passes, InRange (listUnallocatedNetblocks t passes netblockId ipAddress u τ)) ↔
      ∀ ip u' τ' sub, divides t netblockId ipAddress = some (ip, u', τ', sub) →
        ipArray t ip u' τ' sub ≠ [] → 0 < ip.addr ∧ ip.block.last + 1 < 2 ^ ip.family.bits := by
  have hraise : ∀ m : String, ∀ passes : ℕ,
      InRange (ended (raise .raiseException m) : ExceptT PgError Option (List Inet)) :=
    fun m passes => failsOnly_ended.mpr (avoids_raise.mpr (by decide))
  cases netblockId with
  | some i =>
    simp only [listUnallocatedNetblocks, divides]
    cases findNetblock t i with
    | none => exact iff_of_true (hraise _) fun ip u' τ' sub h => by cases h
    | some n =>
      dsimp only [Option.bind_some]
      split
      · exact iff_of_true (fun _ => failsOnly_pure) fun ip u' τ' sub h => by cases h
      · rw [unallocatedNetblocks_inRange_iff]
        constructor
        · rintro h ip u' τ' sub heq
          obtain ⟨rfl, rfl, rfl, rfl⟩ := by simpa using heq
          exact h
        · exact fun h => h _ _ _ _ rfl
  | none =>
    cases ipAddress with
    | some ip =>
      simp only [listUnallocatedNetblocks, divides]
      rw [unallocatedNetblocks_inRange_iff]
      constructor
      · rintro h ip' u' τ' sub heq
        obtain ⟨rfl, rfl, rfl, rfl⟩ := by simpa using heq
        exact h
      · exact fun h => h _ _ _ _ rfl
    | none => exact iff_of_true (hraise _) fun ip u' τ' sub h => by cases h

/-! ## Both functions -/

/-- **The addresses of `find_free_netblocks` and `list_unallocated_netblocks` stay in range** of their
family if and only if no parent that is searched leaves its family, and the network that is listed has
nothing in it or is not at an end of its family. -/
theorem inetArithmetic_inRange_iff {parents : List ℕ} (ht : WellFormed s.netblock)
    (hparents : ∀ i ∈ parents, ∀ p, findNetblock s.netblock i = some p →
      p.isSingleAddress = false ∧ RangesWithin s p) :
    ((∀ l ⊆ parents, ∀ o : Outcomes, o.DrawsFit → ∀ passes,
        InRange (findFreeNetblocks s o q passes l)) ↔
      ∀ i ∈ parents, ∀ p, findNetblock s.netblock i = some p → ¬ LeavesFamily s q p) ∧
    ∀ netblockId ipAddress u τ,
      (∀ passes, InRange (listUnallocatedNetblocks s.netblock passes netblockId ipAddress u τ)) ↔
        ∀ ip u' τ' sub, divides s.netblock netblockId ipAddress = some (ip, u', τ', sub) →
          ipArray s.netblock ip u' τ' sub ≠ [] →
            0 < ip.addr ∧ ip.block.last + 1 < 2 ^ ip.family.bits := by
  refine ⟨findFreeNetblocks_inRange_iff fun i hi p hp => ?_,
    fun _ _ _ _ => listUnallocatedNetblocks_inRange_iff⟩
  obtain ⟨hnet, hranges⟩ := hparents i hi p hp
  exact ⟨ht.network p (findNetblock_eq_some hp).1 hnet, hranges⟩

/-- The search from the bottom of the network of eight addresses, and the list of what is free in the
network around it, stay in range. -/
theorem inetArithmetic_inRange_eightAddresses :
    (∀ o : Outcomes, o.DrawsFit → ∀ passes, InRange (findFreeNetblocks eightAddresses o
      { singleAddress := true, allocationMethod := some "bottom" } passes [2])) ∧
    ∀ passes, InRange (listUnallocatedNetblocks eightAddresses.netblock passes (some 1) none) := by
  have hparents : ∀ i ∈ [2], ∀ p, findNetblock eightAddresses.netblock i = some p →
      p.isSingleAddress = false ∧ RangesWithin eightAddresses p := by
    intro i hi p hp
    obtain rfl := List.mem_singleton.mp hi
    obtain rfl := Option.some_inj.mp hp
    refine ⟨rfl, ?_⟩
    unfold RangesWithin
    decide
  obtain ⟨hfind, hlist⟩ := inetArithmetic_inRange_iff
    (q := { singleAddress := true, allocationMethod := some "bottom" }) (by decide) hparents
  refine ⟨fun o ho passes => hfind.mpr (fun i hi p hp hleaves => ?_) [2] (List.Subset.refl _) o ho
    passes, (hlist (some 1) none 0 "default").mpr fun ip u τ sub h _ => ?_⟩
  · obtain rfl := List.mem_singleton.mp hi
    obtain rfl := Option.some_inj.mp hp
    cases hleaves with
    | parent _ _ hlast => exact absurd hlast (by decide)
    | desired _ hd => exact nomatch hd
    | block _ hd => exact nomatch hd
    | range _ hd => exact nomatch hd
    | first _ _ hdown => exact absurd hdown.method (by decide)
  · obtain ⟨rfl, -⟩ := Prod.mk.inj (Option.some_inj.mp h)
    decide

/-- The last network of its size, and the first one with a network in it. -/
def outermostNetworks : RangeTables where
  netblock := [⟨1, .v4 255 255 255 0 24, "default", false, true, none, 0⟩,
    ⟨2, .v4 0 0 0 0 24, "default", false, true, none, 0⟩,
    ⟨3, .v4 0 0 0 128 25, "default", false, false, some 2, 0⟩]
  networkRange := []
  valNetworkRangeType := []

/-- **At either end of the family** both functions fail. -/
theorem outermostNetworks_outOfRange :
    ¬ InRange (findFreeNetblocks outermostNetworks .first { netmaskBits := some 26 } 8 [1]) ∧
    ¬ InRange (findFreeNetblocks outermostNetworks .first
      { netmaskBits := some 26, allocationMethod := some "top" } 8 [2]) ∧
    ¬ InRange (listUnallocatedNetblocks outermostNetworks.netblock 8 (some 2) none) := by
  refine ⟨fun h => h _ rfl rfl, fun h => h _ rfl rfl, fun h => h _ rfl rfl⟩

end JazzHands

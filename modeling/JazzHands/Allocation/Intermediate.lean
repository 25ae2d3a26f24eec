import JazzHands.Library.Tiling
import JazzHands.Allocation.ListUnallocated

/-!
# The blocks between two networks

`calculate_intermediate_netblocks` climbs from the first network to the largest block that does not
contain the second, and then descends to the second.  On the way up it returns the upper halves, on
the way down the lower ones.
-/

namespace JazzHands

open Library Postgres

variable {t : List Netblock} {τ : String} {u passes : ℕ} {f : Family} {a b x : Inet}
variable {v v' : Intermediate} {rows rows' l : List Inet} {S S' : Set ℕ}

/-- The rows are networks of one family that tile a set of addresses. -/
structure Covers (f : Family) (rows : List Inet) (S : Set ℕ) : Prop where
  network : ∀ r ∈ rows, r.network = r
  family : ∀ r ∈ rows, r.family = f
  tiles : Tiles (rows.map Inet.block) S

theorem Covers.nil : Covers f [] ∅ := ⟨by simp, by simp, .nil⟩

theorem Covers.singleton (h : x.network = x) :
    Covers x.family [x] (Set.Ico x.block.first (x.block.last + 1)) :=
  ⟨by simpa using h, by simp, .singleton _⟩

theorem Covers.append (h : Covers f rows S) (h' : Covers f rows' S') (hd : ∀ x ∈ S, x ∉ S') :
    Covers f (rows ++ rows') (S ∪ S') where
  network r hr := (List.mem_append.mp hr).elim (h.network r) (h'.network r)
  family r hr := (List.mem_append.mp hr).elim (h.family r) (h'.family r)
  tiles := by
    rw [List.map_append]
    exact h.tiles.append h'.tiles hd

theorem Covers.append_Ico {lo mid hi : ℕ} (h : Covers f rows (Set.Ico lo mid))
    (h' : Covers f rows' (Set.Ico mid hi)) (hlo : lo ≤ mid) (hhi : mid ≤ hi) :
    Covers f (rows ++ rows') (Set.Ico lo hi) := by
  rw [← Set.Ico_union_Ico_eq_Ico hlo hhi]
  exact h.append h' fun x hx hx' => absurd (hx.2.trans_le hx'.1) (lt_irrefl _)

theorem splitStored_total (h : x.network = x) : ∃ rows, splitStored t τ u x = .ok rows ∧
    Covers x.family rows (Set.Ico x.block.first (x.block.last + 1)) := by
  rw [splitStored]
  split
  · next hsplit =>
    have hpos : 0 < x.block.height := by
      have := hsplit.2
      rw [Inet.height_block, Inet.hostbits]
      omega
    obtain ⟨y, hset, hyf, -, hyn, hyb⟩ := Inet.exists_longer h hsplit.2
    have hlt : y.block.last + 1 < 2 ^ y.family.bits := by
      have := x.last_block_lt
      have := x.block.upper.first_le_last
      rw [AlignedBlock.last_upper hpos, AlignedBlock.first_upper] at this
      rw [hyb, hyf]
      omega
    obtain ⟨z, hadd, hzf, -, hzn, hzb⟩ := Inet.exists_next hlt
    refine ⟨[y, z], bind_eq_ok.mpr ⟨y, hset, bind_eq_ok.mpr ⟨z, hadd, rfl⟩⟩, ?_, ?_, ?_⟩
    · simp [hyn, hzn]
    · simp [hyf, hzf]
    · rw [List.map_cons, List.map_singleton, hzb, hyb, AlignedBlock.next_lower]
      exact .halves hpos
  · exact ⟨[x], rfl, .singleton h⟩

/-- The network of a given mask that begins after the last address of another one of that mask. -/
theorem exists_after {m : Inet} (hf : m.family = a.family) (haddr : m.addr = a.block.last)
    (hlt : a.block.last + 1 < 2 ^ a.family.bits) :
    ∃ w x, m.add 1 = .ok w ∧ w.setMasklen a.masklen = .ok x ∧ x.family = a.family ∧
      x.network = x ∧ x.block = a.block.next := by
  obtain ⟨w, hadd⟩ := Inet.exists_add_one (a := m) (by rw [hf, haddr]; exact hlt)
  obtain ⟨hwf, -, hwa⟩ := Inet.add_eq_ok.mp hadd
  have hfamily : w.family = a.family := hwf.trans hf
  have hmask : a.masklen ≤ w.family.bits := hfamily ▸ a.masklen_le
  have hfirst : w.addr = a.block.next.first := by
    rw [AlignedBlock.first_next]
    omega
  have hblock : (w.withMasklen a.masklen hmask).block = a.block.next := by
    rw [← AlignedBlock.of_height_of_mem a.block.next.first_mem, ← hfirst]
    show AlignedBlock.of (w.family.bits - a.masklen) w.addr = AlignedBlock.of a.hostbits w.addr
    rw [hfamily]
    rfl
  refine ⟨w, w.withMasklen a.masklen hmask, hadd, Inet.setMasklen_of_le hmask, hfamily, ?_, hblock⟩
  refine Inet.network_eq_self ?_
  rw [hblock]
  exact hfirst

/-! ## Up -/

/-- What holds in every pass of the first loop: `current_nb` lies before `ip_block_2`, and the
addresses from the end of `ip_block_1` to the end of `current_nb` have been returned. -/
structure Widening (a b : Inet) (v : Intermediate) : Prop where
  family : v.currentNb.family = b.family
  maxFamily : v.maxAddr.family = b.family
  maxAddr : v.maxAddr.addr = v.currentNb.block.last
  contains : a.block.last ≤ v.currentNb.block.last
  before : v.currentNb.block.last < b.block.first
  rows : Covers b.family v.rows (Set.Ico (a.block.last + 1) (v.currentNb.block.last + 1))

/-- What holds in every pass of the second loop: `current_nb` contains `ip_block_2`, and the
addresses from the end of `ip_block_1` to the beginning of `current_nb` have been returned. -/
structure Narrowing (a b : Inet) (v : Intermediate) : Prop where
  network : v.currentNb.network = v.currentNb
  family : v.currentNb.family = b.family
  after : a.block.last < v.currentNb.block.first
  contains : b.block ≤ v.currentNb.block
  rows : Covers b.family v.rows (Set.Ico (a.block.last + 1) v.currentNb.block.first)

/-- A network that ends before another one of its family begins is not the whole family. -/
theorem Widening.masklen_pos (h : Widening a b v) : 0 < v.currentNb.masklen := by
  refine Nat.pos_of_ne_zero fun hzero => ?_
  have hlast : v.currentNb.block.last + 1 = (v.currentNb.block.index + 1) *
    2 ^ v.currentNb.hostbits := v.currentNb.block.last_add_one
  have hbits : v.currentNb.hostbits = b.family.bits := by
    rw [Inet.hostbits, hzero, h.family, Nat.sub_zero]
  have hle : 1 * 2 ^ b.family.bits ≤ (v.currentNb.block.index + 1) * 2 ^ b.family.bits :=
    Nat.mul_le_mul_right _ (by omega)
  have := h.before
  have := b.block.first_le_last
  have := b.last_block_lt
  rw [hbits] at hlast
  omega

/-- A block that contains the second network but ends after the first one is halved between them. -/
theorem Widening.halves (h : Widening a b v) (hcontains : b.block ≤ v.currentNb.block.up) :
    b.block ≤ v.currentNb.block.next := by
  have hbefore := h.before
  have hpos : 0 < v.currentNb.block.up.height := Nat.succ_pos _
  have hfirst := b.block.first_le_last
  have hlast := AlignedBlock.last_le_last hcontains
  obtain ⟨hlower, hupper⟩ := v.currentNb.block.last_up.resolve_left (by omega)
  have hne : b.block ≠ v.currentNb.block.up := by
    intro he
    have := v.currentNb.block.first_le_last
    rw [he, ← AlignedBlock.first_lower hpos, hlower] at hbefore
    omega
  rw [← hupper]
  refine (AlignedBlock.le_lower_or_le_upper (lt_of_le_of_ne hcontains hne)).resolve_left ?_
  intro hle
  rw [hlower] at hle
  have := AlignedBlock.last_le_last hle
  omega

theorem widenPass_total (h : Widening a b v) :
    (∃ v', widenPass t τ u b v = .ok (.done v') ∧ Narrowing a b v') ∨
      ∃ v', widenPass t τ u b v = .ok (.yield v') ∧ Widening a b v' ∧
        v'.currentNb.masklen < v.currentNb.masklen := by
  obtain ⟨y, hset, hyf, hym, hyb⟩ := Inet.exists_shorter h.masklen_pos
  have hbefore := h.before
  have hblast := b.last_block_lt
  have hbfirst := b.block.first_le_last
  have hcontained := h.contains
  have hyn : y.network.block = v.currentNb.block.up := by rw [Inet.block_network, hyb]
  have hyfam : y.network.family = b.family := hyf.trans h.family
  have hmask : y.network.masklen < v.currentNb.masklen := by
    rw [Inet.masklen_network]
    omega
  have hsub : b.subnetEq y.network ↔ b.block ≤ v.currentNb.block.up := by
    rw [Inet.subnetEq_iff, Cidr.le_def, ← hyn]
    exact and_iff_right hyfam.symm
  have hroom : v.currentNb.block.last + 1 < 2 ^ v.currentNb.family.bits := by
    rw [h.family]
    omega
  rw [widenPass]
  by_cases hcontains : b.block ≤ v.currentNb.block.up
  · -- the larger block contains the second network: go on with its upper half
    obtain ⟨z, hadd, hzf, -, hzn, hzb⟩ := Inet.exists_next hroom
    refine Or.inl ⟨{ v with currentNb := z }, bind_eq_ok.mpr ⟨y, hset, ?_⟩, hzn,
      hzf.trans h.family, ?_, ?_, ?_⟩
    · rw [if_pos (hsub.mpr hcontains)]
      exact bind_eq_ok.mpr ⟨z, hadd, rfl⟩
    · show a.block.last < z.block.first
      rw [hzb, AlignedBlock.first_next]
      omega
    · show b.block ≤ z.block
      rw [hzb]
      exact h.halves hcontains
    · show Covers b.family v.rows (Set.Ico _ z.block.first)
      rw [hzb, AlignedBlock.first_next]
      exact h.rows
  · have hfirst := AlignedBlock.first_le_first v.currentNb.block.le_up
    have hle := v.currentNb.block.first_le_last
    have hnext : v.currentNb.block.up.last < b.block.first :=
      AlignedBlock.last_lt_first (by omega) hcontains
    have hlast : y.network.broadcast.addr = v.currentNb.block.up.last :=
      congrArg AlignedBlock.last hyn
    have hgt : v.maxAddr.host.lt y.network.broadcast.host ↔
        v.currentNb.block.last < v.currentNb.block.up.last := by
      rw [Inet.lt_iff_of_masklen_eq (a := v.maxAddr.host) (b := y.network.broadcast.host)
        (h.maxFamily.trans hyfam.symm) (congrArg Family.bits (h.maxFamily.trans hyfam.symm))]
      show v.maxAddr.addr < y.network.broadcast.addr ↔ _
      rw [h.maxAddr, hlast]
    refine Or.inr ?_
    by_cases hmore : v.currentNb.block.last < v.currentNb.block.up.last
    · -- `current_nb` is a lower half: the upper one lies between the networks
      obtain ⟨-, hupper⟩ := v.currentNb.block.last_up.resolve_left (by omega)
      have hnextLast : v.currentNb.block.next.last = v.currentNb.block.up.last := by
        rw [← hupper, AlignedBlock.last_upper (Nat.succ_pos _)]
      obtain ⟨w, x, hadd, hmasked, hxf, hxn, hxb⟩ :=
        exists_after (h.maxFamily.trans h.family.symm) h.maxAddr hroom
      obtain ⟨rows, hrows, hcovers⟩ := splitStored_total (t := t) (τ := τ) (u := u) hxn
      rw [hxf, h.family, hxb, AlignedBlock.first_next, hnextLast] at hcovers
      refine ⟨⟨y.network, y.network.broadcast, v.rows ++ rows⟩, bind_eq_ok.mpr ⟨y, hset, ?_⟩,
        ⟨hyfam, hyfam, hlast.trans (congrArg _ hyn.symm), ?_, ?_, ?_⟩, hmask⟩
      · rw [if_neg (fun hs => hcontains (hsub.mp hs)), if_pos (hgt.mpr hmore)]
        exact bind_eq_ok.mpr ⟨w, hadd, bind_eq_ok.mpr
          ⟨_, hmasked, bind_eq_ok.mpr ⟨rows, hrows, rfl⟩⟩⟩
      · show a.block.last ≤ y.network.block.last
        rw [hyn]
        omega
      · show y.network.block.last < _
        rw [hyn]
        exact hnext
      · show Covers b.family (v.rows ++ rows) (Set.Ico _ (y.network.block.last + 1))
        rw [hyn]
        exact h.rows.append_Ico hcovers (by omega) (by omega)
    · -- `current_nb` is an upper half: nothing is added after it
      have heq : y.network.block.last = v.currentNb.block.last := by
        have := AlignedBlock.last_le_last v.currentNb.block.le_up
        rw [hyn]
        omega
      refine ⟨{ v with currentNb := y.network }, bind_eq_ok.mpr ⟨y, hset, ?_⟩,
        ⟨hyfam, h.maxFamily, ?_, ?_, ?_, ?_⟩, hmask⟩
      · rw [if_neg (fun hs => hcontains (hsub.mp hs)), if_neg fun hlt => hmore (hgt.mp hlt)]
      · show v.maxAddr.addr = y.network.block.last
        rw [heq]
        exact h.maxAddr
      · show a.block.last ≤ y.network.block.last
        rw [heq]
        exact hcontained
      · show y.network.block.last < _
        rw [heq]
        exact hbefore
      · show Covers b.family v.rows (Set.Ico _ (y.network.block.last + 1))
        rw [heq]
        exact h.rows

/-! ## Down -/

/-- The block that contains the second network begins with it, or is larger than it. -/
theorem Narrowing.first_eq_or_lt (h : Narrowing a b v) (hb : b.network = b) :
    v.currentNb.host = b.host ∨ b.block < v.currentNb.block := by
  rcases h.contains.eq_or_lt with heq | hlt
  · left
    refine Inet.eq_of_fields h.family ?_ (congrArg Family.bits h.family)
    show v.currentNb.addr = b.addr
    rw [Inet.addr_of_network h.network, Inet.addr_of_network hb, heq]
  · exact Or.inr hlt

/-- Where the second loop is left, `current_nb` begins where the second network does. -/
theorem Narrowing.first_eq (h : Narrowing a b v) (hb : b.network = b)
    (hdone : v.currentNb.host = b.host ∨ v.currentNb.family.bits ≤ v.currentNb.masklen) :
    v.currentNb.block.first = b.block.first := by
  rcases hdone with hhost | hmask
  · rw [← Inet.addr_of_network h.network, ← Inet.addr_of_network hb]
    have haddr : v.currentNb.host.addr = b.host.addr := congrArg Inet.addr hhost
    exact haddr
  · have hheight : v.currentNb.block.height = 0 := by
      rw [Inet.height_block, Inet.hostbits]
      omega
    have hle := AlignedBlock.height_le_of_le h.contains
    rw [AlignedBlock.eq_of_mem_of_height_eq b.block.first_mem
      (AlignedBlock.mem_of_le h.contains b.block.first_mem) (by omega)]

theorem narrowPass_total (hb : b.network = b) (h : Narrowing a b v) :
    (∃ v', narrowPass t τ u b v = .ok (.done v') ∧
      Covers b.family v'.rows (Set.Ico (a.block.last + 1) b.block.first)) ∨
      ∃ v', narrowPass t τ u b v = .ok (.yield v') ∧ Narrowing a b v' ∧
        b.family.bits - v'.currentNb.masklen < b.family.bits - v.currentNb.masklen := by
  rw [narrowPass]
  by_cases hdone : v.currentNb.host = b.host ∨ v.currentNb.family.bits ≤ v.currentNb.masklen
  · refine Or.inl ⟨v, if_pos hdone, ?_⟩
    rw [← h.first_eq hb hdone]
    exact h.rows
  · rw [if_neg hdone]
    obtain ⟨hhost, hmask⟩ := not_or.mp hdone
    have hlt := (h.first_eq_or_lt hb).resolve_left hhost
    have hpos : 0 < v.currentNb.block.height := by
      rw [Inet.height_block, Inet.hostbits]
      omega
    obtain ⟨y, hset, hyf, hym, hyn, hyb⟩ := Inet.exists_longer h.network (not_le.mp hmask)
    have hyfam : y.family = b.family := hyf.trans h.family
    have hshorter : b.family.bits - (v.currentNb.masklen + 1) <
        b.family.bits - v.currentNb.masklen := by
      rw [← h.family]
      omega
    have hsub : b.subnetEq y ↔ b.block ≤ v.currentNb.block.lower := by
      rw [Inet.subnetEq_iff, Cidr.le_def, ← hyb]
      exact and_iff_right hyfam.symm
    refine Or.inr ?_
    by_cases hlower : b.block ≤ v.currentNb.block.lower
    · refine ⟨{ v with currentNb := y }, bind_eq_ok.mpr ⟨y, hset, ?_⟩,
        ⟨hyn, hyfam, ?_, ?_, ?_⟩, ?_⟩
      · rw [if_neg (not_not.mpr (hsub.mpr hlower))]
      · show a.block.last < y.block.first
        rw [hyb, AlignedBlock.first_lower hpos]
        exact h.after
      · show b.block ≤ y.block
        rw [hyb]
        exact hlower
      · show Covers b.family v.rows (Set.Ico _ y.block.first)
        rw [hyb, AlignedBlock.first_lower hpos]
        exact h.rows
      · show b.family.bits - y.masklen < _
        rw [hym]
        exact hshorter
    · -- the lower half lies between the networks
      have hupper := (AlignedBlock.le_lower_or_le_upper hlt).resolve_left hlower
      have hroom : y.block.last + 1 < 2 ^ y.family.bits := by
        have := v.currentNb.last_block_lt
        have := v.currentNb.block.upper.first_le_last
        rw [AlignedBlock.last_upper hpos, AlignedBlock.first_upper] at this
        rw [hyb, hyf]
        omega
      obtain ⟨z, hadd, hzf, hzm, hzn, hzb⟩ := Inet.exists_next hroom
      have hzb : z.block = v.currentNb.block.upper := by
        rw [hzb, hyb, AlignedBlock.next_lower]
      obtain ⟨rows, hrows, hcovers⟩ := splitStored_total (t := t) (τ := τ) (u := u) hyn
      have hfirst := v.currentNb.block.lower.first_le_last
      have hafter := h.after
      rw [hyfam, hyb, ← AlignedBlock.first_upper, AlignedBlock.first_lower hpos] at hcovers
      rw [AlignedBlock.first_lower hpos] at hfirst
      refine ⟨{ v with currentNb := z, rows := v.rows ++ rows }, bind_eq_ok.mpr ⟨y, hset, ?_⟩,
        ⟨hzn, hzf.trans hyfam, ?_, ?_, ?_⟩, ?_⟩
      · rw [if_pos fun hs => hlower (hsub.mp hs)]
        exact bind_eq_ok.mpr ⟨rows, hrows, bind_eq_ok.mpr ⟨z, hadd, rfl⟩⟩
      · show a.block.last < z.block.first
        rw [hzb, AlignedBlock.first_upper]
        omega
      · show b.block ≤ z.block
        rw [hzb]
        exact hupper
      · show Covers b.family (v.rows ++ rows) (Set.Ico _ z.block.first)
        rw [hzb]
        refine h.rows.append_Ico hcovers (by omega) ?_
        rw [AlignedBlock.first_upper]
        omega
      · show b.family.bits - z.masklen < _
        rw [hzm, hym]
        exact hshorter

/-! ## Both loops -/

section

variable (hf : a.family = b.family) (h : a.block.last < b.block.first)
include hf h

/-- The blocks are taken in their order, whichever is given first. -/
theorem orderBlocks_ok :
    orderBlocks a b = .ok (a.network, b.network) ∧ orderBlocks b a = .ok (a.network, b.network) := by
  have hle := a.block.first_le_last
  have hlt : a.network.lt b.network := by
    refine Inet.lt_of_first_lt hf ?_
    rw [Inet.block_network, Inet.block_network]
    omega
  have hge : ¬ b.network.lt a.network := by
    intro hba
    have hle' : b.network.le a.network := by
      rw [Inet.lt] at hba
      rw [Inet.le, hba]
      decide
    have := hle'.first_le hf.symm
    rw [Inet.block_network, Inet.block_network] at this
    omega
  have hapart : ¬ a.network.subnetEq b.network := by
    intro hsub
    rw [Inet.subnetEq_iff, Inet.cidr_network, Inet.cidr_network, Cidr.le_def] at hsub
    have hfirst : b.block.first ≤ a.block.first := AlignedBlock.first_le_first hsub.2
    omega
  constructor
  · simp only [orderBlocks, bind_unit_eq_ok, raiseIf_eq_ok]
    exact ⟨not_not.mpr hf, fun h => hapart h.1, if_neg hge⟩
  · simp only [orderBlocks, bind_unit_eq_ok, raiseIf_eq_ok]
    exact ⟨not_not.mpr hf.symm, fun h => hapart h.2, if_pos hlt⟩

/-- The first loop begins with nothing between the networks. -/
theorem Widening.start :
    Widening a b { currentNb := a.network, maxAddr := a.network.broadcast } := by
  have hblock := a.block_network
  refine ⟨hf, hf, ?_, ?_, ?_, ?_⟩
  · show a.network.block.last = a.network.block.last
    rfl
  · show a.block.last ≤ a.network.block.last
    rw [hblock]
  · show a.network.block.last < b.block.first
    rw [hblock]
    exact h
  · show Covers b.family [] (Set.Ico (a.block.last + 1) (a.network.block.last + 1))
    rw [hblock, Set.Ico_self]
    exact Covers.nil

/-- Both loops come to their end, and give the addresses between the networks. -/
theorem loops_total :
    ∃ v v', Returns (loop (widenPass t τ u b.network) 129
        { currentNb := a.network, maxAddr := a.network.broadcast }) v ∧
      Returns (loop (narrowPass t τ u b.network) 129 v) v' ∧
      Covers b.family v'.rows (Set.Ico (a.block.last + 1) b.block.first) := by
  have hbits : b.family.bits ≤ 128 := by cases b.family <;> decide
  have hb : b.network.network = b.network := Inet.network_eq_self (by
    rw [Inet.block_network]
    rfl)
  have hstart : Widening a b.network { currentNb := a.network, maxAddr := a.network.broadcast } :=
    .start hf (by rw [Inet.block_network]; exact h)
  have hmask : a.network.masklen < 129 := by
    have := a.masklen_le
    rw [hf] at this
    rw [Inet.masklen_network]
    omega
  obtain ⟨v, hv, hnarrow⟩ := loop_total (I := Widening a b.network) (J := Narrowing a b.network)
    (fun v => v.currentNb.masklen) (fun _ => widenPass_total) hstart hmask
  obtain ⟨v', hv', hcovers⟩ := loop_total (I := Narrowing a b.network)
    (fun v => b.family.bits - v.currentNb.masklen) (fun _ => narrowPass_total hb) hnarrow
    (show b.family.bits - v.currentNb.masklen < 129 by omega)
  rw [Inet.block_network] at hcovers
  exact ⟨v, v', hv, hv', hcovers⟩

end

theorem calculateIntermediateNetblocks_returns {c d : Inet} (horder : orderBlocks c d = .ok (a, b))
    (hv : Returns (loop (widenPass t τ u b) passes { currentNb := a, maxAddr := a.broadcast }) v)
    (hv' : Returns (loop (narrowPass t τ u b) passes v) v') :
    Returns (calculateIntermediateNetblocks t passes (some c) (some d) τ u) v'.rows :=
  returns_bind.mpr ⟨(a, b), returns_ended.mpr horder,
    returns_bind.mpr ⟨v, hv, returns_bind.mpr ⟨v', hv', returns_pure.mpr rfl⟩⟩⟩

/-- **The blocks between two networks** tile the addresses between them, whichever network is given
first and whatever the table holds. -/
theorem calculateIntermediateNetblocks_tiles (hf : a.family = b.family) (hd : ¬ a.Overlaps b)
    (hlt : a.lt b) : ∃ rows, (∀ r ∈ rows, r.network = r ∧ r.family = a.family) ∧
      Tiles (rows.map Inet.block) (Set.Ioo a.block.last b.block.first) ∧
      ∀ passes, 128 < passes →
        Returns (calculateIntermediateNetblocks t passes (some a) (some b) τ u) rows ∧
        Returns (calculateIntermediateNetblocks t passes (some b) (some a) τ u) rows := by
  have hbetween := hlt.last_lt_first hf hd
  obtain ⟨hab, hba⟩ := orderBlocks_ok hf hbetween
  obtain ⟨v, v', hv, hv', hcovers⟩ := loops_total (t := t) (τ := τ) (u := u) hf hbetween
  refine ⟨v'.rows, fun r hr => ⟨hcovers.network r hr, (hcovers.family r hr).trans hf.symm⟩, ?_,
    fun passes hpasses => ?_⟩
  · have hset : Set.Ioo a.block.last b.block.first =
        Set.Ico (a.block.last + 1) b.block.first := by
      ext x
      rw [Set.mem_Ioo, Set.mem_Ico, Nat.succ_le_iff]
    rw [hset]
    exact hcovers.tiles
  · have hv := loop_of_le hv hpasses
    have hv' := loop_of_le hv' hpasses
    exact ⟨calculateIntermediateNetblocks_returns hab hv hv',
      calculateIntermediateNetblocks_returns hba hv hv'⟩

/-- A table with the block `10.0.2.0/24`. -/
def oneStored : List Netblock := [⟨1, .v4 10 0 2 0 24, "default", false, true, none, 0⟩]

/-- The addresses between `10.0.0.0/24` and `10.0.3.0/25`. -/
theorem calculateIntermediateNetblocks_tiles_oneStored :
    ∃ rows, (∀ r ∈ rows, r.network = r ∧ r.family = (Inet.v4 10 0 0 0 24).family) ∧
      Tiles (rows.map Inet.block) (Set.Ioo (Inet.v4 10 0 0 0 24).block.last
        (Inet.v4 10 0 3 0 25).block.first) ∧
      ∀ passes, 128 < passes →
        Returns (calculateIntermediateNetblocks oneStored passes (some (.v4 10 0 0 0 24))
          (some (.v4 10 0 3 0 25))) rows ∧
        Returns (calculateIntermediateNetblocks oneStored passes (some (.v4 10 0 3 0 25))
          (some (.v4 10 0 0 0 24))) rows :=
  calculateIntermediateNetblocks_tiles rfl (by rw [Inet.overlaps_iff]; decide) (by decide)

example : Returns (calculateIntermediateNetblocks oneStored 129 (some (.v4 10 0 3 0 25))
    (some (.v4 10 0 0 0 24))) [.v4 10 0 1 0 24, .v4 10 0 2 0 25, .v4 10 0 2 128 25] := by decide

end JazzHands

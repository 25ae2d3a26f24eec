import JazzHands.Library.AlignedBlock
import JazzHands.Postgres.Error

/-!
# The type `inet`

An `inet` is an address of one of the two families together with a mask length.  The addresses that
agree with it on the first `masklen` bits are its network, an aligned block of addresses.

* `cmp`, `lt`, `le`: the order of `inet` values, network bits first, then mask length, then address.
-/

namespace JazzHands.Postgres

open Library

/-- The values of `family`. -/
inductive Family where
  | inet4
  | inet6
  deriving DecidableEq

def Family.bits : Family → ℕ
  | .inet4 => 32
  | .inet6 => 128

structure Inet where
  family : Family
  addr : ℕ
  masklen : ℕ
  addr_lt : addr < 2 ^ family.bits
  masklen_le : masklen ≤ family.bits
  deriving DecidableEq

/-- A network: the family and the block of its addresses. -/
@[ext] structure Cidr where
  family : Family
  block : AlignedBlock
  deriving DecidableEq

namespace Cidr

instance : PartialOrder Cidr where
  le a b := a.family = b.family ∧ a.block ≤ b.block
  le_refl a := ⟨rfl, le_rfl⟩
  le_trans a b c hab hbc := ⟨hab.1.trans hbc.1, hab.2.trans hbc.2⟩
  le_antisymm a b hab hba := Cidr.ext hab.1 (le_antisymm hab.2 hba.2)

theorem le_def {a b : Cidr} : a ≤ b ↔ a.family = b.family ∧ a.block ≤ b.block := Iff.rfl

theorem lt_iff {a b : Cidr} : a < b ↔ a.family = b.family ∧ a.block < b.block := by
  rw [lt_iff_le_and_ne, lt_iff_le_and_ne, le_def, and_assoc]
  refine and_congr_right fun hf => and_congr_right fun _ => not_congr ?_
  exact ⟨fun e => congrArg block e, fun e => Cidr.ext hf e⟩

instance : ForestOrder Cidr where
  comparable {a b c} hab hac := by
    have hbc : b.family = c.family := hab.1.symm.trans hac.1
    rcases ForestOrder.comparable hab.2 hac.2 with h | h
    · exact Or.inl ⟨hbc, h⟩
    · exact Or.inr ⟨hbc.symm, h⟩

end Cidr

namespace Inet

variable {a b c : Inet}

/-! Octets and mask lengths are written as numerals. -/

instance neZero_octet : NeZero 256 := ⟨by decide⟩

instance neZero_masklen : NeZero 33 := ⟨by decide⟩

/-- The IPv4 address `p.q.r.s/m`. -/
def v4 (p q r s : Fin 256) (m : Fin 33) : Inet where
  family := .inet4
  addr := ((p * 256 + q) * 256 + r) * 256 + s
  masklen := m
  addr_lt := by simp only [Family.bits]; omega
  masklen_le := by simp only [Family.bits]; omega

/-- The number of bits after the mask. -/
def hostbits (i : Inet) : ℕ := i.family.bits - i.masklen

/-- The addresses that agree with `i` on the first `masklen` bits. -/
def block (i : Inet) : AlignedBlock := .of i.hostbits i.addr

def cidr (i : Inet) : Cidr := ⟨i.family, i.block⟩

@[simp] theorem height_block (i : Inet) : i.block.height = i.hostbits := rfl

theorem addr_mem_block (i : Inet) : i.addr ∈ i.block := AlignedBlock.mem_of _ _

theorem masklen_add_hostbits (i : Inet) : i.masklen + i.hostbits = i.family.bits :=
  Nat.add_sub_cancel' i.masklen_le

/-- The network of `i` ends inside the family. -/
theorem last_block_lt (i : Inet) : i.block.last < 2 ^ i.family.bits := by
  have hpow : 2 ^ i.family.bits = 2 ^ i.masklen * 2 ^ i.hostbits := by
    rw [← pow_add, i.masklen_add_hostbits]
  have hindex : i.block.index + 1 ≤ 2 ^ i.masklen := by
    have := i.addr_lt
    rw [hpow] at this
    exact Nat.div_lt_of_lt_mul (by rwa [Nat.mul_comm])
  have hle := Nat.mul_le_mul_right (2 ^ i.hostbits) hindex
  have hlast : i.block.last + 1 = (i.block.index + 1) * 2 ^ i.hostbits := i.block.last_add_one
  rw [hpow]
  omega

/-! ## Functions and operators -/

/-- `network(i)`, and the cast `i::cidr`: the host bits are set to zero. -/
def network (i : Inet) : Inet where
  family := i.family
  addr := i.block.first
  masklen := i.masklen
  addr_lt := i.block.first_le_last.trans_lt i.last_block_lt
  masklen_le := i.masklen_le

/-- `broadcast(i)`: the host bits are set to one. -/
def broadcast (i : Inet) : Inet where
  family := i.family
  addr := i.block.last
  masklen := i.masklen
  addr_lt := i.last_block_lt
  masklen_le := i.masklen_le

/-- `host(i)::inet`: the address on its own. -/
def host (i : Inet) : Inet where
  family := i.family
  addr := i.addr
  masklen := i.family.bits
  addr_lt := i.addr_lt
  masklen_le := le_rfl

/-- The address of `i` with a mask length that its family has. -/
def withMasklen (i : Inet) (m : ℕ) (h : m ≤ i.family.bits) : Inet where
  family := i.family
  addr := i.addr
  masklen := m
  addr_lt := i.addr_lt
  masklen_le := h

/-- `set_masklen(i, m)`; a mask length of `-1` stands for the longest one. -/
def setMasklen (i : Inet) (m : ℤ) : Result Inet :=
  if m = -1 then .ok i.host
  else if h : 0 ≤ m ∧ m.toNat ≤ i.family.bits then .ok (i.withMasklen m.toNat h.2)
  else raise .invalidParameterValue "invalid mask length: %"

/-- `i + n`, for a positive or negative number `n`. -/
def add (i : Inet) (n : ℤ) : Result Inet :=
  if h : 0 ≤ i.addr + n ∧ (i.addr + n).toNat < 2 ^ i.family.bits then
    .ok ⟨i.family, (i.addr + n).toNat, i.masklen, h.2, i.masklen_le⟩
  else raise .numericValueOutOfRange "result is out of range"

/-- `i - n`. -/
def sub (i : Inet) (n : ℤ) : Result Inet := i.add (-n)

/-- `a <<= b`: the network of `a` is contained in the one of `b`, or equal to it. -/
def subnetEq (a b : Inet) : Prop :=
  a.family = b.family ∧ b.masklen ≤ a.masklen ∧
    a.addr / 2 ^ b.hostbits = b.addr / 2 ^ b.hostbits
  deriving Decidable

/-- The comparison of `inet` values: IPv4 before IPv6, then the bits that both masks cover, then
the mask length, then the whole address. -/
def cmp (a b : Inet) : Ordering :=
  let common := a.family.bits - min a.masklen b.masklen
  (compare a.family.bits b.family.bits).then <|
    (compare (a.addr / 2 ^ common) (b.addr / 2 ^ common)).then <|
      (compare a.masklen b.masklen).then (compare a.addr b.addr)

def lt (a b : Inet) : Prop := a.cmp b = .lt

def le (a b : Inet) : Prop := a.cmp b ≠ .gt

instance (a b : Inet) : Decidable (a.lt b) := inferInstanceAs (Decidable (a.cmp b = .lt))

instance (a b : Inet) : Decidable (a.le b) := inferInstanceAs (Decidable (a.cmp b ≠ .gt))

/-! ## Results of the functions -/

theorem eq_of_fields (hf : a.family = b.family) (ha : a.addr = b.addr) (hm : a.masklen = b.masklen) :
    a = b := by
  cases a
  cases b
  simp only [Inet.mk.injEq]
  exact ⟨hf, ha, hm⟩

/-- `a + n` is the address that far up, with the mask of `a`, when the family has it. -/
theorem add_eq_ok {n : ℤ} : a.add n = .ok b ↔
    b.family = a.family ∧ b.masklen = a.masklen ∧ (b.addr : ℤ) = a.addr + n := by
  rw [add]
  split
  · next h =>
    rw [Except.ok.injEq]
    constructor
    · rintro rfl
      exact ⟨rfl, rfl, Int.toNat_of_nonneg h.1⟩
    · rintro ⟨hf, hm, haddr⟩
      exact eq_of_fields hf.symm (by simp only; omega) hm.symm
  · next h =>
    refine ⟨fun hr => absurd hr raise_ne_ok, ?_⟩
    rintro ⟨hf, -, haddr⟩
    have hlt := b.addr_lt
    rw [hf] at hlt
    exact absurd ⟨by omega, by omega⟩ h

theorem sub_eq_ok {n : ℤ} : a.sub n = .ok b ↔
    b.family = a.family ∧ b.masklen = a.masklen ∧ (b.addr : ℤ) = a.addr - n := by
  rw [sub, add_eq_ok, sub_eq_add_neg]

theorem exists_add_one (h : a.addr + 1 < 2 ^ a.family.bits) : ∃ b, a.add 1 = .ok b := by
  rw [add, dif_pos ⟨by omega, by omega⟩]
  exact ⟨_, rfl⟩

theorem exists_sub_one (h : 0 < a.addr) : ∃ b, a.sub 1 = .ok b := by
  have := a.addr_lt
  rw [sub, add, dif_pos ⟨by omega, by omega⟩]
  exact ⟨_, rfl⟩

/-- The address after `a` is out of range exactly at the end of the family. -/
theorem add_one_avoids : Avoids .numericValueOutOfRange (a.add 1) ↔
    a.addr + 1 < 2 ^ a.family.bits := by
  constructor
  · intro h
    by_contra hend
    rw [add, dif_neg (by omega)] at h
    exact avoids_raise.mp h rfl
  · intro h
    obtain ⟨b, hb⟩ := exists_add_one h
    rw [hb]
    exact avoids_ok

/-- The address before `a` is out of range exactly at the beginning of the family. -/
theorem sub_one_avoids : Avoids .numericValueOutOfRange (a.sub 1) ↔ 0 < a.addr := by
  constructor
  · intro h
    by_contra hend
    rw [sub, add, dif_neg (by omega)] at h
    exact avoids_raise.mp h rfl
  · intro h
    obtain ⟨b, hb⟩ := exists_sub_one h
    rw [hb]
    exact avoids_ok

theorem setMasklen_avoids {m : ℤ} : Avoids .numericValueOutOfRange (a.setMasklen m) := by
  rw [setMasklen]
  split
  · exact avoids_ok
  · split
    · exact avoids_ok
    · exact avoids_raise.mpr (by decide)

theorem setMasklen_eq_ok {m : ℤ} (h : a.setMasklen m = .ok b) :
    b.family = a.family ∧ b.addr = a.addr ∧ (0 ≤ m → (b.masklen : ℤ) = m) := by
  rw [setMasklen] at h
  split at h
  · next hm =>
    obtain rfl := Except.ok.inj h
    exact ⟨rfl, rfl, fun h => by omega⟩
  · split at h
    · obtain rfl := Except.ok.inj h
      exact ⟨rfl, rfl, Int.toNat_of_nonneg⟩
    · exact absurd h raise_ne_ok

theorem setMasklen_of_le {m : ℕ} (h : m ≤ a.family.bits) :
    a.setMasklen m = .ok (a.withMasklen m h) := by
  rw [setMasklen, if_neg (by omega), dif_pos ⟨by omega, by omega⟩]
  rfl

/-! ## Networks -/

@[simp] theorem family_network (i : Inet) : i.network.family = i.family := rfl

@[simp] theorem masklen_network (i : Inet) : i.network.masklen = i.masklen := rfl

@[simp] theorem block_network (i : Inet) : i.network.block = i.block :=
  AlignedBlock.of_height_of_mem i.block.first_mem

@[simp] theorem cidr_network (i : Inet) : i.network.cidr = i.cidr :=
  Cidr.ext rfl i.block_network

theorem hostbits_le_iff (h : a.family = b.family) :
    a.hostbits ≤ b.hostbits ↔ b.masklen ≤ a.masklen := by
  have ha := a.masklen_add_hostbits
  have hb := b.masklen_add_hostbits
  rw [h] at ha
  omega

/-- **The operator `<<=` is inclusion of networks.** -/
theorem subnetEq_iff : a.subnetEq b ↔ a.cidr ≤ b.cidr := by
  rw [subnetEq, Cidr.le_def]
  refine and_congr_right fun hf => ?_
  show _ ↔ a.block ≤ b.block
  rw [AlignedBlock.le_iff_of_mem a.addr_mem_block, height_block, height_block, hostbits_le_iff hf]
  rfl

/-- The networks of `a` and `b` have an address in common. -/
def Overlaps (a b : Inet) : Prop := a.family = b.family ∧ ∃ x, x ∈ a.block ∧ x ∈ b.block

theorem overlaps_self (a : Inet) : a.Overlaps a :=
  ⟨rfl, a.addr, a.addr_mem_block, a.addr_mem_block⟩

theorem Overlaps.symm (h : a.Overlaps b) : b.Overlaps a :=
  ⟨h.1.symm, h.2.imp fun _ hx => hx.symm⟩

theorem overlaps_iff : a.Overlaps b ↔ a.subnetEq b ∨ b.subnetEq a := by
  rw [subnetEq_iff, subnetEq_iff, Cidr.le_def, Cidr.le_def]
  constructor
  · rintro ⟨hf, x, hxa, hxb⟩
    rcases AlignedBlock.le_or_le_of_mem hxa hxb with h | h
    · exact Or.inl ⟨hf, h⟩
    · exact Or.inr ⟨hf.symm, h⟩
  · rintro (⟨hf, h⟩ | ⟨hf, h⟩)
    · exact ⟨hf, _, a.addr_mem_block, AlignedBlock.mem_of_le h a.addr_mem_block⟩
    · exact ⟨hf.symm, _, AlignedBlock.mem_of_le h b.addr_mem_block, b.addr_mem_block⟩

theorem cidr_lt_iff (h : a.cidr ≤ b.cidr) : a.cidr < b.cidr ↔ b.masklen < a.masklen := by
  rw [Cidr.lt_iff, AlignedBlock.lt_iff_height_lt h.2]
  have ha := a.masklen_add_hostbits
  have hb := b.masklen_add_hostbits
  have hf : a.family = b.family := h.1
  rw [hf] at ha
  show a.family = b.family ∧ a.hostbits < b.hostbits ↔ _
  rw [and_iff_right hf]
  omega

theorem cidr_le_of_host_eq (h : a.host = b.host) (hm : b.masklen ≤ a.masklen) : a.cidr ≤ b.cidr := by
  obtain ⟨hf, haddr, -⟩ : a.family = b.family ∧ a.addr = b.addr ∧ _ := by
    simpa only [host, Inet.mk.injEq] using h
  refine ⟨hf, ?_⟩
  show AlignedBlock.of a.hostbits a.addr ≤ AlignedBlock.of b.hostbits b.addr
  rw [haddr]
  exact AlignedBlock.of_le_of ((hostbits_le_iff hf).mpr hm) _

theorem masklen_eq_of_cidr_eq (h : a.cidr = b.cidr) : a.masklen = b.masklen := by
  have hf : a.family = b.family := congrArg Cidr.family h
  have hh : a.hostbits = b.hostbits := congrArg (fun c => c.block.height) h
  have ha := a.masklen_add_hostbits
  have hb := b.masklen_add_hostbits
  rw [hf] at ha
  omega

/-- Two networks that are equal as blocks are equal once their host bits are zero. -/
theorem network_eq_iff : a.network = b.network ↔ a.cidr = b.cidr := by
  refine ⟨fun h => by rw [← cidr_network a, h, cidr_network b], fun h => ?_⟩
  have hf : a.family = b.family := congrArg Cidr.family h
  have hb : a.block = b.block := congrArg Cidr.block h
  have hm := masklen_eq_of_cidr_eq h
  cases a
  cases b
  simp only [network, Inet.mk.injEq]
  exact ⟨hf, congrArg AlignedBlock.first hb, hm⟩

/-! ## Blocks next to each other -/

theorem network_eq_self (h : a.addr = a.block.first) : a.network = a :=
  eq_of_fields rfl h.symm rfl

theorem addr_of_network (h : a.network = a) : a.addr = a.block.first :=
  (congrArg Inet.addr h).symm

theorem exists_shorter (hm : 0 < a.masklen) : ∃ b, a.setMasklen (a.masklen - 1) = .ok b ∧
    b.family = a.family ∧ b.masklen + 1 = a.masklen ∧ b.block = a.block.up := by
  have hle : a.masklen - 1 ≤ a.family.bits := by
    have := a.masklen_le
    omega
  refine ⟨a.withMasklen (a.masklen - 1) hle, ?_, rfl, ?_, ?_⟩
  · rw [← setMasklen_of_le hle]
    congr 1
    omega
  · show a.masklen - 1 + 1 = a.masklen
    omega
  · rw [← AlignedBlock.of_succ_height a.addr_mem_block, height_block]
    have := a.masklen_le
    show AlignedBlock.of (a.family.bits - (a.masklen - 1)) a.addr = _
    congr 1
    rw [hostbits]
    omega

theorem exists_longer (h : a.network = a) (hm : a.masklen < a.family.bits) :
    ∃ b, a.setMasklen (a.masklen + 1) = .ok b ∧ b.family = a.family ∧
      b.masklen = a.masklen + 1 ∧ b.network = b ∧ b.block = a.block.lower := by
  have hpos : 0 < a.block.height := by
    rw [height_block, hostbits]
    omega
  have haddr : a.addr ∈ a.block.lower := by
    rw [addr_of_network h, ← AlignedBlock.first_lower hpos]
    exact a.block.lower.first_mem
  have hblock : (a.withMasklen (a.masklen + 1) hm).block = a.block.lower := by
    rw [← AlignedBlock.of_height_of_mem haddr]
    rfl
  refine ⟨a.withMasklen (a.masklen + 1) hm, setMasklen_of_le hm, rfl, rfl, network_eq_self ?_,
    hblock⟩
  rw [hblock, AlignedBlock.first_lower hpos]
  exact addr_of_network h

theorem exists_next (h : a.block.last + 1 < 2 ^ a.family.bits) :
    ∃ b, a.broadcast.add 1 = .ok b ∧ b.family = a.family ∧ b.masklen = a.masklen ∧
      b.network = b ∧ b.block = a.block.next := by
  obtain ⟨b, hb⟩ := exists_add_one (a := a.broadcast) h
  obtain ⟨hf, hm, haddr⟩ := add_eq_ok.mp hb
  have haddr : b.addr = a.block.next.first := by
    rw [AlignedBlock.first_next]
    have : a.broadcast.addr = a.block.last := rfl
    omega
  have hblock : b.block = a.block.next := by
    rw [← AlignedBlock.of_height_of_mem a.block.next.first_mem, ← haddr]
    show AlignedBlock.of b.hostbits b.addr = AlignedBlock.of a.hostbits b.addr
    rw [hostbits, hf, hm]
    rfl
  exact ⟨b, hb, hf, hm, network_eq_self (by rw [hblock, haddr]), hblock⟩

/-! ## The order -/

/-- Comparing first the quotients and then the numbers is comparing the numbers. -/
theorem compare_div_then (x y d : ℕ) :
    (compare (x / d) (y / d)).then (compare x y) = compare x y := by
  rcases lt_trichotomy x y with h | rfl | h
  · have hle := Nat.div_le_div_right (c := d) h.le
    rw [Nat.compare_eq_lt.mpr h]
    rcases hle.lt_or_eq with hlt | heq
    · rw [Nat.compare_eq_lt.mpr hlt]
      rfl
    · rw [Nat.compare_eq_eq.mpr heq]
      rfl
  · rw [Nat.compare_eq_eq.mpr rfl]
    rfl
  · have hle := Nat.div_le_div_right (c := d) h.le
    rw [Nat.compare_eq_gt.mpr h]
    rcases hle.lt_or_eq with hlt | heq
    · rw [Nat.compare_eq_gt.mpr hlt]
      rfl
    · rw [Nat.compare_eq_eq.mpr heq.symm]
      rfl

section

variable (hf : a.family = b.family) (hm : a.masklen = b.masklen)
include hf hm

/-- With one mask length, the order is that of the addresses. -/
theorem cmp_of_masklen_eq :
    a.cmp b = compare a.addr b.addr := by
  rw [cmp, hf, hm, Nat.compare_eq_eq.mpr rfl, Nat.compare_eq_eq.mpr rfl]
  exact compare_div_then _ _ _

theorem le_iff_of_masklen_eq :
    a.le b ↔ a.addr ≤ b.addr := by
  rw [le, cmp_of_masklen_eq hf hm, Nat.compare_ne_gt]

theorem lt_iff_of_masklen_eq :
    a.lt b ↔ a.addr < b.addr := by
  rw [lt, cmp_of_masklen_eq hf hm, Nat.compare_eq_lt]

end

/-- Among the networks of one mask length, a longer mask comes after its own one. -/
theorem le_iff_of_masklen_lt (hf : a.family = b.family) (hm : a.masklen < b.masklen) :
    a.le b ↔ a.addr / 2 ^ a.hostbits ≤ b.addr / 2 ^ a.hostbits := by
  rw [le, cmp, ← hf, min_eq_left hm.le, Nat.compare_eq_eq.mpr rfl, Nat.compare_eq_lt.mpr hm]
  rw [← Nat.compare_ne_gt, hostbits]
  generalize compare (a.addr / 2 ^ (a.family.bits - a.masklen))
    (b.addr / 2 ^ (a.family.bits - a.masklen)) = o
  cases o <;> simp [Ordering.then]

theorem lt_iff_of_masklen_lt (hf : a.family = b.family) (hm : b.masklen < a.masklen) :
    a.lt b ↔ a.addr / 2 ^ b.hostbits < b.addr / 2 ^ b.hostbits := by
  rw [lt, cmp, hf, min_eq_right hm.le, Nat.compare_eq_eq.mpr rfl, Nat.compare_eq_gt.mpr hm]
  rw [← Nat.compare_eq_lt, hostbits]
  generalize compare (a.addr / 2 ^ (b.family.bits - b.masklen))
    (b.addr / 2 ^ (b.family.bits - b.masklen)) = o
  cases o <;> simp [Ordering.then]
/-- Dividing by a size of at least the network's own does not see the host bits. -/
theorem first_div {h : ℕ} (hi : a.hostbits ≤ h) : a.block.first / 2 ^ h = a.addr / 2 ^ h :=
  AlignedBlock.mem_of_le (AlignedBlock.of_le_of hi a.addr) a.block.first_mem

/-- A network begins at a multiple of its size, so before every other network in a block of that
size. -/
theorem first_le_of_div_eq (h : a.block.first / 2 ^ a.hostbits = b.block.first / 2 ^ a.hostbits) :
    a.block.first ≤ b.block.first := by
  have hfirst : a.block.first = a.block.first / 2 ^ a.hostbits * 2 ^ a.hostbits := by
    rw [first_div le_rfl]
    rfl
  rw [hfirst, h]
  exact Nat.div_mul_le_self _ _

/-- **The order of `inet` values**: the first address of the network, then the mask length, then
the address. -/
theorem cmp_eq (a b : Inet) : a.cmp b = (compare a.family.bits b.family.bits).then
    ((compare a.block.first b.block.first).then
      ((compare a.masklen b.masklen).then (compare a.addr b.addr))) := by
  rw [cmp]
  cases h : compare a.family.bits b.family.bits with
  | lt => rfl
  | gt => rfl
  | eq =>
    have hf : a.family.bits = b.family.bits := Nat.compare_eq_eq.mp h
    have ha := a.masklen_add_hostbits
    have hb := b.masklen_add_hostbits
    generalize hc : a.family.bits - min a.masklen b.masklen = common
    rw [← first_div (a := a) (h := common) (by omega), ← first_div (a := b) (h := common) (by omega)]
    rw [← compare_div_then a.block.first b.block.first (2 ^ common)]
    cases hdiv : compare (a.block.first / 2 ^ common) (b.block.first / 2 ^ common) with
    | lt => rfl
    | gt => rfl
    | eq =>
      have hdiv := Nat.compare_eq_eq.mp hdiv
      rcases lt_trichotomy a.masklen b.masklen with hm | hm | hm
      · obtain rfl : common = a.hostbits := by omega
        rw [Nat.compare_eq_lt.mpr hm]
        rcases (first_le_of_div_eq hdiv).lt_or_eq with hlt | heq
        · rw [Nat.compare_eq_lt.mpr hlt]
          rfl
        · rw [Nat.compare_eq_eq.mpr heq]
          rfl
      · have hle : a.block.first ≤ b.block.first :=
          first_le_of_div_eq (by rw [show a.hostbits = common by omega]; exact hdiv)
        have hge : b.block.first ≤ a.block.first :=
          first_le_of_div_eq (by rw [show b.hostbits = common by omega]; exact hdiv.symm)
        rw [Nat.compare_eq_eq.mpr (le_antisymm hle hge)]
        rfl
      · obtain rfl : common = b.hostbits := by omega
        rw [Nat.compare_eq_gt.mpr hm]
        rcases (first_le_of_div_eq hdiv.symm).lt_or_eq with hlt | heq
        · rw [Nat.compare_eq_gt.mpr hlt]
          rfl
        · rw [Nat.compare_eq_eq.mpr heq.symm]
          rfl

theorem cmp_eq_compareLex : cmp = compareLex (compareOn fun i : Inet => i.family.bits)
    (compareLex (compareOn fun i => i.block.first)
      (compareLex (compareOn fun i => i.masklen) (compareOn fun i => i.addr))) :=
  funext fun a => funext fun b => cmp_eq a b

instance : Std.TransCmp cmp := by
  rw [cmp_eq_compareLex]
  infer_instance

theorem le_iff_isLE : a.le b ↔ (a.cmp b).isLE := by
  rw [le, Ordering.isLE_iff_ne_gt]

instance : IsTrans Inet le where
  trans a b c hab hbc := by
    rw [le_iff_isLE] at *
    exact Std.TransCmp.isLE_trans hab hbc

instance : Std.Total le where
  total a b := by
    rw [le_iff_isLE, le_iff_isLE, (Std.OrientedCmp.eq_swap : a.cmp b = (b.cmp a).swap), Ordering.isLE_swap]
    cases b.cmp a <;> simp

/-- In one family, a network before another one does not begin after it. -/
theorem le.first_le (h : a.le b) (hf : a.family = b.family) : a.block.first ≤ b.block.first := by
  rw [le, cmp_eq, hf, Nat.compare_eq_eq.mpr rfl] at h
  by_contra hlt
  rw [Nat.compare_eq_gt.mpr (not_le.mp hlt)] at h
  exact h rfl

/-- In one family, a network that begins before another one comes before it. -/
theorem lt_of_first_lt (hf : a.family = b.family) (h : a.block.first < b.block.first) :
    a.lt b := by
  rw [lt, cmp_eq, hf, Nat.compare_eq_eq.mpr rfl, Nat.compare_eq_lt.mpr h]
  rfl

/-- Of two networks of a family without a common address, the smaller one ends before the other
begins. -/
theorem lt.last_lt_first (h : a.lt b) (hf : a.family = b.family) (hd : ¬ a.Overlaps b) :
    a.block.last < b.block.first := by
  have hle : a.le b := by
    rw [lt] at h
    rw [le, h]
    decide
  have hne : a.block.first ≠ b.block.first := fun heq =>
    hd ⟨hf, a.block.first, a.block.first_mem, heq ▸ b.block.first_mem⟩
  refine AlignedBlock.last_lt_first (lt_of_le_of_ne (hle.first_le hf) hne) fun hsub => ?_
  exact hd ⟨hf, b.block.first, AlignedBlock.mem_of_le hsub b.block.first_mem, b.block.first_mem⟩

/-! ## Hosts in order -/

/-- The place of an address in the order of addresses, IPv4 before IPv6. -/
def position (i : Inet) : ℕ :=
  match i.family with
  | .inet4 => i.addr
  | .inet6 => 2 ^ 32 + i.addr

@[simp] theorem position_host (i : Inet) : i.host.position = i.position := rfl

theorem cmp_host (a b : Inet) : a.host.cmp b.host = compare a.position b.position := by
  have ha := a.addr_lt
  have hb := b.addr_lt
  rw [cmp, position, position]
  cases hfa : a.family <;> cases hfb : b.family
  · simp [host, hfa, hfb, Family.bits]
  · -- an IPv4 address comes before every IPv6 address
    have hlt : a.addr < 2 ^ 32 + b.addr := by
      rw [hfa] at ha
      exact ha.trans_le (Nat.le_add_right _ _)
    simp only [host, hfa, hfb, Family.bits, Nat.compare_eq_lt.mpr hlt]
    rfl
  · have hlt : b.addr < 2 ^ 32 + a.addr := by
      rw [hfb] at hb
      exact hb.trans_le (Nat.le_add_right _ _)
    simp only [host, hfa, hfb, Family.bits, Nat.compare_eq_gt.mpr hlt]
    rfl
  · simp only [host, hfa, hfb, Family.bits, min_self, Nat.sub_self, pow_zero, Nat.div_one,
      Nat.compare_eq_eq.mpr rfl, Ordering.eq_then, Ordering.then_self]
    rcases h : compare a.addr b.addr with _ | _ | _
    · exact (Nat.compare_eq_lt.mpr (by have := Nat.compare_eq_lt.mp h; omega)).symm
    · exact (Nat.compare_eq_eq.mpr (by have := Nat.compare_eq_eq.mp h; omega)).symm
    · exact (Nat.compare_eq_gt.mpr (by have := Nat.compare_eq_gt.mp h; omega)).symm

theorem le_host_iff {a b : Inet} : a.host.le b.host ↔ a.position ≤ b.position := by
  rw [le, cmp_host, Nat.compare_ne_gt]

theorem lt_host_iff {a b : Inet} : a.host.lt b.host ↔ a.position < b.position := by
  rw [lt, cmp_host, Nat.compare_eq_lt]

end Inet

end JazzHands.Postgres

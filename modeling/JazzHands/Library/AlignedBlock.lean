import JazzHands.Library.ForestOrder
import Mathlib.Algebra.Order.Group.Nat
import Mathlib.Data.Nat.Basic
import Mathlib.Tactic.Ring

/-!
# Aligned blocks of natural numbers

An aligned block is an interval `[n · 2 ^ h, (n + 1) · 2 ^ h)`: `2 ^ h` consecutive numbers that
start at a multiple of `2 ^ h`.

* `AlignedBlock`, with the numbers in it (`∈`), its first and last number.
* `AlignedBlock.le_iff_forall_mem`: the order is inclusion.
* `AlignedBlock.up`, `lower`, `upper`: the next larger block, and the two halves.
-/

namespace JazzHands.Library

/-- The numbers from `index * 2 ^ height` up to, and without, `(index + 1) * 2 ^ height`. -/
structure AlignedBlock where
  height : ℕ
  index : ℕ
  deriving DecidableEq

namespace AlignedBlock

variable {a b c : AlignedBlock} {x y h : ℕ}

/-- The block of height `h` that `x` lies in. -/
def of (h x : ℕ) : AlignedBlock := ⟨h, x / 2 ^ h⟩

def first (b : AlignedBlock) : ℕ := b.index * 2 ^ b.height

def last (b : AlignedBlock) : ℕ := b.first + (2 ^ b.height - 1)

instance : Membership ℕ AlignedBlock := ⟨fun b x => x / 2 ^ b.height = b.index⟩

instance (b : AlignedBlock) : DecidablePred (· ∈ b) := fun x =>
  inferInstanceAs (Decidable (x / 2 ^ b.height = b.index))

theorem mem_def : x ∈ b ↔ x / 2 ^ b.height = b.index := Iff.rfl

theorem mem_of (h x : ℕ) : x ∈ of h x := rfl

/-- A block is the block of its height around each of its numbers. -/
theorem of_height_of_mem (hx : x ∈ b) : of b.height x = b := by
  rw [mem_def] at hx
  cases b
  simp only [of, hx]

theorem mem_iff_first_last : x ∈ b ↔ b.first ≤ x ∧ x ≤ b.last := by
  have hpos : 0 < 2 ^ b.height := Nat.two_pow_pos _
  rw [mem_def, Nat.div_eq_iff hpos, last, first]
  omega

theorem first_mem (b : AlignedBlock) : b.first ∈ b :=
  Nat.mul_div_cancel _ (Nat.two_pow_pos _)

theorem last_mem (b : AlignedBlock) : b.last ∈ b :=
  mem_iff_first_last.mpr ⟨Nat.le_add_right _ _, le_rfl⟩

theorem first_le_last (b : AlignedBlock) : b.first ≤ b.last := Nat.le_add_right _ _

@[simp] theorem first_of_zero (x : ℕ) : (of 0 x).first = x := by
  simp [of, first]

theorem last_add_one (b : AlignedBlock) : b.last + 1 = (b.index + 1) * 2 ^ b.height := by
  have hpos : 0 < 2 ^ b.height := Nat.two_pow_pos _
  rw [last, first, Nat.add_mul]
  omega

/-! ## Inclusion -/

instance : LE AlignedBlock :=
  ⟨fun a b => a.height ≤ b.height ∧ a.index / 2 ^ (b.height - a.height) = b.index⟩

theorem le_def : a ≤ b ↔ a.height ≤ b.height ∧ a.index / 2 ^ (b.height - a.height) = b.index :=
  Iff.rfl

theorem div_div_of_le {m n : ℕ} (hmn : m ≤ n) (x : ℕ) : x / 2 ^ m / 2 ^ (n - m) = x / 2 ^ n := by
  rw [Nat.div_div_eq_div_mul, ← pow_add, Nat.add_sub_cancel' hmn]

theorem le_iff_of_mem (hx : x ∈ a) : a ≤ b ↔ a.height ≤ b.height ∧ x ∈ b := by
  rw [le_def, mem_def, ← mem_def.mp hx]
  exact and_congr_right fun hle => by rw [div_div_of_le hle]

theorem mem_of_le (hab : a ≤ b) (hx : x ∈ a) : x ∈ b := ((le_iff_of_mem hx).mp hab).2

theorem height_le_of_le (hab : a ≤ b) : a.height ≤ b.height := hab.1

theorem eq_of_mem_of_height_eq (ha : x ∈ a) (hb : x ∈ b) (h : a.height = b.height) : a = b := by
  rw [← of_height_of_mem ha, ← of_height_of_mem hb, h]

instance : PartialOrder AlignedBlock where
  le_refl a := (le_iff_of_mem a.first_mem).mpr ⟨le_rfl, a.first_mem⟩
  le_trans a b c hab hbc := (le_iff_of_mem a.first_mem).mpr
    ⟨hab.1.trans hbc.1, mem_of_le hbc (mem_of_le hab a.first_mem)⟩
  le_antisymm a b hab hba :=
    eq_of_mem_of_height_eq a.first_mem (mem_of_le hab a.first_mem) (le_antisymm hab.1 hba.1)

instance : DecidableLE AlignedBlock := fun a b =>
  inferInstanceAs (Decidable (a.height ≤ b.height ∧ a.index / 2 ^ (b.height - a.height) = b.index))

theorem le_or_le_of_mem (ha : x ∈ a) (hb : x ∈ b) : a ≤ b ∨ b ≤ a := by
  rcases le_total a.height b.height with h | h
  · exact Or.inl ((le_iff_of_mem ha).mpr ⟨h, hb⟩)
  · exact Or.inr ((le_iff_of_mem hb).mpr ⟨h, ha⟩)

instance : ForestOrder AlignedBlock where
  comparable hab hac := le_or_le_of_mem (mem_of_le hab (first_mem _)) (mem_of_le hac (first_mem _))

theorem lt_iff_height_lt (hab : a ≤ b) : a < b ↔ a.height < b.height := by
  refine ⟨fun hlt => ?_, fun hlt => lt_of_le_of_ne hab fun e => by rw [e] at hlt; exact hlt.false⟩
  refine lt_of_le_of_ne hab.1 fun e => hlt.ne ?_
  exact eq_of_mem_of_height_eq a.first_mem (mem_of_le hab a.first_mem) e

theorem of_le_of {m n : ℕ} (hmn : m ≤ n) (x : ℕ) : of m x ≤ of n x :=
  (le_iff_of_mem (mem_of m x)).mpr ⟨hmn, mem_of n x⟩

/-! ## Halves -/

/-- The block of twice the size around `b`. -/
def up (b : AlignedBlock) : AlignedBlock := ⟨b.height + 1, b.index / 2⟩

/-- The lower half of a block of more than one number. -/
def lower (b : AlignedBlock) : AlignedBlock := ⟨b.height - 1, 2 * b.index⟩

def upper (b : AlignedBlock) : AlignedBlock := ⟨b.height - 1, 2 * b.index + 1⟩

/-- The block of the same size after `b`. -/
def next (b : AlignedBlock) : AlignedBlock := ⟨b.height, b.index + 1⟩

theorem first_next (b : AlignedBlock) : b.next.first = b.last + 1 := b.last_add_one.symm

theorem next_lower (b : AlignedBlock) : b.lower.next = b.upper := rfl

theorem le_up (b : AlignedBlock) : b ≤ b.up := by
  refine ⟨Nat.le_succ _, ?_⟩
  rw [up, Nat.add_sub_cancel_left, pow_one]

theorem of_succ_height (hx : x ∈ b) : of (b.height + 1) x = b.up :=
  of_height_of_mem (b := b.up) (mem_of_le b.le_up hx)

/-- A block is the lower or the upper half of the next larger one. -/
theorem eq_lower_or_upper (b : AlignedBlock) : b = b.up.lower ∨ b = b.up.upper := by
  cases b with
  | mk h i =>
    simp only [up, lower, upper, Nat.add_sub_cancel, AlignedBlock.mk.injEq, true_and]
    omega

theorem first_upper (b : AlignedBlock) : b.upper.first = b.lower.last + 1 := b.lower.first_next

theorem last_lt_first (h : a.first < b.first) (hba : ¬ b ≤ a) : a.last < b.first := by
  by_contra hge
  have hmem : b.first ∈ a := mem_iff_first_last.mpr ⟨h.le, not_lt.mp hge⟩
  rcases le_or_le_of_mem b.first_mem hmem with hle | hle
  · exact hba hle
  · have := (mem_iff_first_last.mp (mem_of_le hle a.first_mem)).1
    omega

theorem first_le_first (hab : a ≤ b) : b.first ≤ a.first :=
  (mem_iff_first_last.mp (mem_of_le hab a.first_mem)).1

theorem last_le_last (hab : a ≤ b) : a.last ≤ b.last :=
  (mem_iff_first_last.mp (mem_of_le hab a.last_mem)).2

section Halves

variable (hb : 0 < b.height)
include hb

theorem two_pow_height : 2 ^ b.height = 2 * 2 ^ (b.height - 1) := by
  rw [← pow_succ', Nat.sub_add_cancel hb]

theorem first_lower : b.lower.first = b.first := by
  simp only [first, lower]
  rw [two_pow_height hb]
  ring

theorem last_upper : b.upper.last = b.last := by
  have h : b.upper.last + 1 = b.last + 1 := by
    rw [last_add_one, last_add_one]
    simp only [upper]
    rw [two_pow_height hb]
    ring
  omega

theorem mem_halves : x ∈ b ↔ x ∈ b.lower ∨ x ∈ b.upper := by
  have hlower := b.lower.first_le_last
  have hupper := b.upper.first_le_last
  rw [first_upper] at hupper
  rw [mem_iff_first_last, mem_iff_first_last, mem_iff_first_last, first_lower hb, first_upper,
    last_upper hb]
  rw [first_lower hb] at hlower
  rw [last_upper hb] at hupper
  omega

end Halves

/-- The next larger block ends where `b` does, or `b` is its lower half. -/
theorem last_up (b : AlignedBlock) :
    b.up.last = b.last ∨ b.up.lower = b ∧ b.up.upper = b.next := by
  rcases b.eq_lower_or_upper with h | h
  · exact Or.inr ⟨h.symm, congrArg next h.symm⟩
  · exact Or.inl ((last_upper (Nat.succ_pos _)).symm.trans (congrArg last h.symm))

theorem le_lower_or_le_upper (hab : a < b) : a ≤ b.lower ∨ a ≤ b.upper := by
  have hheight := (lt_iff_height_lt hab.le).mp hab
  have hle : a.height ≤ b.height - 1 := by omega
  refine ((mem_halves (by omega)).mp (mem_of_le hab.le a.first_mem)).imp (fun h => ?_) fun h => ?_
  · exact (le_iff_of_mem a.first_mem).mpr ⟨hle, h⟩
  · exact (le_iff_of_mem a.first_mem).mpr ⟨hle, h⟩

end AlignedBlock

end JazzHands.Library

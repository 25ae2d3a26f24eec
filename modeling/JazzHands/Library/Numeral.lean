import Mathlib.Algebra.Order.Group.Nat
import Mathlib.Data.Nat.Basic
import Mathlib.Tactic.Ring

/-!
# Numerals

* `take_padded`, `drop_padded`: the first and the last digits.  `flatten_padded`: several numbers.
* `mem_toDigits`, `mem_padded`: the characters of numerals.
-/

namespace JazzHands.Library
namespace Numeral

variable {b k n m w : ℕ} {s : List Char}

/-- The last `w` digits of `n` in base `b`. -/
def padded (b : ℕ) : ℕ → ℕ → List Char
  | 0, _ => []
  | w + 1, n => Nat.digitChar (n / b ^ w % b) :: padded b w n

@[simp] theorem padded_zero : padded b 0 n = [] := rfl

theorem padded_succ : padded b (w + 1) n = Nat.digitChar (n / b ^ w % b) :: padded b w n := rfl

@[simp] theorem length_padded : (padded b w n).length = w := by
  induction w with
  | zero => rfl
  | succ w ih => rw [padded_succ, List.length_cons, ih]

theorem padded_succ' : padded b (w + 1) n = padded b w (n / b) ++ [Nat.digitChar (n % b)] := by
  induction w with
  | zero => simp [padded_succ]
  | succ w ih =>
    rw [padded_succ, ih, padded_succ, Nat.div_div_eq_div_mul, ← Nat.pow_succ']
    rfl

@[simp] theorem drop_padded : (padded b (k + w) n).drop k = padded b w n := by
  induction k with
  | zero => rw [Nat.zero_add, List.drop_zero]
  | succ k ih => rw [Nat.succ_add, padded_succ, List.drop_succ_cons, ih]

@[simp] theorem take_padded : (padded b (k + w) n).take k = padded b k (n / b ^ w) := by
  induction k with
  | zero => rfl
  | succ k ih =>
    rw [Nat.succ_add, padded_succ, List.take_succ_cons, ih, padded_succ, Nat.div_div_eq_div_mul,
      ← Nat.pow_add, Nat.add_comm w k]

theorem padded_add : padded b (k + w) n = padded b k (n / b ^ w) ++ padded b w n := by
  have h := List.take_append_drop k (padded b (k + w) n)
  rw [take_padded, drop_padded] at h
  exact h.symm

theorem padded_mod (h : w ≤ m) : padded b w (n % b ^ m) = padded b w n := by
  induction w with
  | zero => rfl
  | succ w ih =>
    have hdvd : b ^ m = b ^ (w + 1) * b ^ (m - (w + 1)) := by
      rw [← Nat.pow_add, Nat.add_sub_cancel' h]
    rw [padded_succ, padded_succ, ih (by omega)]
    congr 2
    rw [hdvd, Nat.pow_succ, Nat.mul_assoc, Nat.mod_mul_right_div_self, Nat.mod_mul_right_mod]

theorem padded_zero_eq : padded b w 0 = List.replicate w '0' := by
  induction w with
  | zero => rfl
  | succ w ih =>
    rw [padded_succ, ih, Nat.zero_div, Nat.zero_mod, List.replicate_succ]
    rfl

theorem leftpad_toDigits (hb : 1 < b) (hw : 0 < w) (h : n < b ^ w) :
    (Nat.toDigits b n).leftpad w '0' = padded b w n := by
  induction w generalizing n with
  | zero => exact absurd hw (Nat.lt_irrefl _)
  | succ w ih =>
    rw [padded_succ', Nat.toDigits_eq_if hb]
    by_cases hlt : n < b
    · rw [if_pos hlt, Nat.div_eq_of_lt hlt, padded_zero_eq, Nat.mod_eq_of_lt hlt]
      rfl
    · have hdiv : n / b < b ^ w := by
        rw [Nat.div_lt_iff_lt_mul (by omega), ← Nat.pow_succ]
        exact h
      have hpos : 0 < w := by
        rcases Nat.eq_zero_or_pos w with rfl | hpos
        · rw [Nat.zero_add, Nat.pow_one] at h
          omega
        · exact hpos
      rw [if_neg hlt, ← ih hpos hdiv, List.leftpad, List.leftpad, List.length_append,
        List.length_singleton, Nat.add_sub_add_right, List.append_assoc]

theorem length_toDigits_le (hb : 1 < b) (hw : 0 < w) (h : n < b ^ w) :
    (Nat.toDigits b n).length ≤ w := by
  have hlen := congrArg List.length (leftpad_toDigits hb hw h)
  rw [List.length_leftpad, length_padded] at hlen
  omega

/-- The digits of a number, in groups of `w`. -/
theorem flatten_padded (b w n : ℕ) : ∀ k,
    ((List.range k).map fun j => padded b w (n / (b ^ w) ^ (k - 1 - j))).flatten =
      padded b (k * w) n
  | 0 => by rw [Nat.zero_mul]; rfl
  | k + 1 => by
    have hrest : ∀ j ∈ List.range k, padded b w (n / (b ^ w) ^ (k - (j + 1))) =
        padded b w (n / (b ^ w) ^ (k - 1 - j)) := fun j _ => by
      rw [Nat.sub_sub, Nat.add_comm 1 j]
    rw [List.range_succ_eq_map, List.map_cons, List.map_map, List.flatten_cons,
      Nat.succ_mul, Nat.add_comm (k * w) w, padded_add, ← flatten_padded b w n k,
      ← List.map_congr_left hrest, Nat.add_sub_cancel, Nat.sub_zero, ← Nat.pow_mul, Nat.mul_comm w k]
    rfl

theorem foldl_digits (b n : ℕ) : ∀ k m, ((List.range k).map fun j => n / b ^ (k - 1 - j) % b).foldl
    (· * b + ·) m = m * b ^ k + n % b ^ k
  | 0, m => by simp [Nat.mod_one]
  | k + 1, m => by
    have hrest : ∀ j ∈ List.range k, n / b ^ (k - (j + 1)) % b = n / b ^ (k - 1 - j) % b :=
      fun j _ => by rw [Nat.sub_sub, Nat.add_comm 1 j]
    have hfold := foldl_digits b n k (m * b + n / b ^ k % b)
    rw [← List.map_congr_left hrest] at hfold
    rw [List.range_succ_eq_map, List.map_cons, List.map_map, List.foldl_cons, Nat.add_sub_cancel,
      Nat.sub_zero]
    refine hfold.trans ?_
    rw [Nat.pow_succ, Nat.mod_mul]
    ring

theorem foldl_zeros (b m : ℕ) : ∀ k, (List.replicate k 0).foldl (· * b + ·) m = m * b ^ k
  | 0 => (Nat.mul_one m).symm
  | k + 1 => by
    rw [List.replicate_succ', List.foldl_append, foldl_zeros b m k, Nat.pow_succ, ← Nat.mul_assoc]
    rfl

/-! ## Characters -/

theorem mem_padded {c : Char} (hb : 0 < b) (h : c ∈ padded b w n) : ∃ d < b, c = Nat.digitChar d := by
  induction w with
  | zero => exact absurd h List.not_mem_nil
  | succ w ih =>
    rw [padded_succ, List.mem_cons] at h
    rcases h with rfl | h
    · exact ⟨_, Nat.mod_lt _ hb, rfl⟩
    · exact ih h

theorem mem_toDigits {c : Char} (hb : 1 < b) (h : c ∈ Nat.toDigits b n) :
    ∃ d < b, c = Nat.digitChar d := by
  obtain ⟨w, hw, hn⟩ : ∃ w, 0 < w ∧ n < b ^ w :=
    ⟨n + 1, Nat.succ_pos n, (Nat.lt_succ_self n).trans (Nat.lt_pow_self hb)⟩
  have hmem : c ∈ (Nat.toDigits b n).leftpad w '0' := List.mem_append_right _ h
  rw [leftpad_toDigits hb hw hn] at hmem
  exact mem_padded (by omega) hmem

theorem notMem_toDigits {c : Char} (hb : 1 < b) (hc : ∀ d < b, c ≠ Nat.digitChar d) :
    c ∉ Nat.toDigits b n := fun h => by
  obtain ⟨d, hd, heq⟩ := mem_toDigits hb h
  exact hc d hd heq

theorem notMem_padded {c : Char} (hb : 0 < b) (hc : ∀ d < b, c ≠ Nat.digitChar d) :
    c ∉ padded b w n := fun h => by
  obtain ⟨d, hd, heq⟩ := mem_padded hb h
  exact hc d hd heq

/-! ## Values -/

def value? (c : Char) : Option ℕ :=
  if '0' ≤ c ∧ c ≤ '9' then some (c.toNat - '0'.toNat)
  else if 'a' ≤ c ∧ c ≤ 'f' then some (c.toNat - 'a'.toNat + 10)
  else if 'A' ≤ c ∧ c ≤ 'F' then some (c.toNat - 'A'.toNat + 10)
  else none

/-- The value of one digit in base `b`. -/
def digit? (b : ℕ) (c : Char) : Option ℕ := (value? c).filter (· < b)

/-- The value of the digits after those that make up `acc`. -/
def readFrom (b : ℕ) : ℕ → List Char → Option ℕ
  | acc, [] => some acc
  | acc, c :: s => (digit? b c).bind fun d => readFrom b (acc * b + d) s

/-- The value of a numeral of at least one digit. -/
def read (b : ℕ) (s : List Char) : Option ℕ := if s = [] then none else readFrom b 0 s

theorem value?_digitChar (h : n < 16) : value? (Nat.digitChar n) = some n := by
  revert h n
  decide

theorem digit?_digitChar (hb : b ≤ 16) (h : n < b) : digit? b (Nat.digitChar n) = some n := by
  rw [digit?, value?_digitChar (h.trans_le hb), Option.filter_some, if_pos (by simpa using h)]

theorem readFrom_append {t : List Char} :
    readFrom b n (s ++ t) = (readFrom b n s).bind fun m => readFrom b m t := by
  induction s generalizing n with
  | nil => rfl
  | cons c s ih =>
    rw [List.cons_append, readFrom, readFrom]
    cases digit? b c with
    | none => rfl
    | some d => exact ih

theorem readFrom_toDigits (hb : 1 < b) (hb' : b ≤ 16) (n : ℕ) :
    readFrom b 0 (Nat.toDigits b n) = some n := by
  induction n using Nat.strong_induction_on with
  | _ n ih =>
    rw [Nat.toDigits_eq_if hb]
    by_cases hlt : n < b
    · rw [if_pos hlt, readFrom, digit?_digitChar hb' hlt]
      simp [readFrom]
    · have hdiv : n / b < n := Nat.div_lt_self (by omega) hb
      have hmod := Nat.div_add_mod n b
      rw [if_neg hlt, readFrom_append, ih _ hdiv, Option.bind_some, readFrom,
        digit?_digitChar hb' (Nat.mod_lt _ (by omega)), Option.bind_some, readFrom]
      rw [Nat.mul_comm, hmod]

theorem read_toDigits (hb : 1 < b) (hb' : b ≤ 16) (n : ℕ) : read b (Nat.toDigits b n) = some n := by
  rw [read, if_neg Nat.toDigits_ne_nil, readFrom_toDigits hb hb']

theorem readFrom_padded (hb : 0 < b) (hb' : b ≤ 16) (w n : ℕ) :
    readFrom b k (padded b w n) = some (k * b ^ w + n % b ^ w) := by
  induction w generalizing k with
  | zero => simp [readFrom, Nat.mod_one]
  | succ w ih =>
    rw [padded_succ, readFrom, digit?_digitChar hb' (Nat.mod_lt _ hb), Option.bind_some, ih,
      Nat.pow_succ, Nat.mod_mul]
    congr 1
    ring

theorem read_padded (hb : 0 < b) (hb' : b ≤ 16) (hw : 0 < w) (n : ℕ) :
    read b (padded b w n) = some (n % b ^ w) := by
  have hne : padded b w n ≠ [] := by
    rw [← List.length_pos_iff, length_padded]
    exact hw
  rw [read, if_neg hne, readFrom_padded hb hb', Nat.zero_mul, Nat.zero_add]

/-- The numeral of an integer. -/
def signed (n : ℤ) : List Char :=
  if n < 0 then '-' :: Nat.toDigits 10 n.natAbs else Nat.toDigits 10 n.natAbs

theorem length_signed_le {n : ℤ} (hw : 0 < w) (h : n.natAbs < 10 ^ w) : (signed n).length ≤ w + 1 := by
  have hlen := length_toDigits_le (by decide) hw h
  rw [signed]
  split
  · rw [List.length_cons]
    omega
  · omega

/-! ## Digits two by two -/

/-- The characters two by two; one that is left over is dropped. -/
def pairs : List Char → List (List Char)
  | c :: d :: s => [c, d] :: pairs s
  | _ => []

theorem pairs_padded (hb : 0 < b) (hb' : b ≤ 16) (w n : ℕ) :
    (pairs (padded b (2 * w) n)).map (read b) =
      (List.range w).reverse.map fun i => some (n / (b * b) ^ i % (b * b)) := by
  induction w with
  | zero => rfl
  | succ w ih =>
    have hpair : padded b (2 * (w + 1)) n =
        Nat.digitChar (n / b ^ (2 * w + 1) % b) :: Nat.digitChar (n / b ^ (2 * w) % b) ::
          padded b (2 * w) n := rfl
    rw [hpair, pairs, List.map_cons, ih, List.range_succ, List.reverse_append, List.reverse_singleton,
      List.singleton_append, List.map_cons]
    congr 1
    have hread : read b (padded b 2 (n / b ^ (2 * w))) =
        some (n / b ^ (2 * w) % b ^ 2) := read_padded hb hb' (by decide) _
    rw [Nat.pow_two, Nat.pow_mul, Nat.pow_two] at hread
    rw [← hread, padded_succ, padded_succ, padded_zero, Nat.pow_one, Nat.pow_zero, Nat.div_one,
      Nat.div_div_eq_div_mul, ← Nat.pow_two, ← Nat.pow_mul, ← Nat.pow_succ]

end Numeral
end JazzHands.Library

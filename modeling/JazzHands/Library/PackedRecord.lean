import JazzHands.Library.ByteText
import Mathlib.Algebra.Group.Nat.Defs

/-!
# Records of numbers and strings

* `packN`, `unpackN`: a number of 32 bits, the most significant byte first.
* `unpackN_packN`, `unpackZ_packZ`: the round trips, with what comes after.
-/

namespace JazzHands.Library

def packN (n : ℕ) : Bytes :=
  [UInt8.ofNat (n / 2 ^ 24), UInt8.ofNat (n / 2 ^ 16), UInt8.ofNat (n / 2 ^ 8), UInt8.ofNat n]

def unpackN : Bytes → Option (ℕ × Bytes)
  | a :: b :: c :: d :: rest =>
    some (a.toNat * 2 ^ 24 + b.toNat * 2 ^ 16 + c.toNat * 2 ^ 8 + d.toNat, rest)
  | _ => none

def packZ (s : Bytes) : Bytes := s ++ [0]

/-- A string without its zero byte ends with the record. -/
def unpackZ (s : Bytes) : Bytes × Bytes := (s.takeWhile (· ≠ 0), (s.dropWhile (· ≠ 0)).tail)

theorem unpackN_packN {n : ℕ} (h : n < 2 ^ 32) (rest : Bytes) :
    unpackN (packN n ++ rest) = some (n, rest) := by
  show some (_, rest) = some (n, rest)
  simp only [UInt8.toNat_ofNat']
  congr 2
  omega

theorem unpackZ_packZ {s : Bytes} (h : 0 ∉ s) (rest : Bytes) :
    unpackZ (packZ s ++ rest) = (s, rest) := by
  have hs : ∀ c ∈ s, decide (c ≠ 0) = true := fun c hc => by
    simpa using fun heq : c = 0 => h (heq ▸ hc)
  rw [unpackZ, packZ, List.append_assoc, List.takeWhile_append_of_pos hs,
    List.dropWhile_append_of_pos hs]
  simp

end JazzHands.Library

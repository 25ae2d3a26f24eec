import JazzHands.Library.Numeral
import JazzHands.Library.PackedRecord

/-!
# The one-time password of a counter

Texts of digits and bytes are numbers here: packing and unpacking are base 16 and base 256, which
gives the truncation of any hash (`dynamicTruncation_eq`).
-/

namespace JazzHands.Hotpants

open Library

/-- A hash of 20 bytes. -/
abbrev Hash : Type := { hash : Bytes // hash.length = 20 }

/-- The options of `GenerateHOTP`; the sequence is a counter, so not negative. -/
structure HotpOptions where
  key : Option Bytes
  sequence : Option ℕ
  digits : Option ℕ
  keytype : Option Bytes

/-- `as_hex` of a `Math::BigInt`. -/
def asHex (n : ℕ) : List Char := '0' :: 'x' :: Nat.toDigits 16 n

def hex (s : List Char) : ℕ := (Numeral.read 16 s).getD 0

/-- `unpack( "H*" => $hash )`. -/
def unpackH (s : Bytes) : List Char := s.flatMap fun c => Numeral.padded 16 2 c.toNat

/-- `s/^0x(.*)/"0"x(16 - length $1).$1/e`. -/
def padHex (s : List Char) : List Char :=
  if ['0', 'x'] <+: s then (s.drop 2).leftpad 16 '0' else s

/-- `join '', map chr hex, $hex =~ /(..)/g`. -/
def packHex (s : List Char) : Bytes := (Numeral.pairs s).map fun t => UInt8.ofNat (hex t)

/-- `unpack "N" => substr $hash, $offset, 4`, without the topmost bit. -/
def dynamicTruncation (hash : Bytes) : Option ℕ :=
  let offset := hex ((unpackH hash).drop ((unpackH hash).length - 1))
  (unpackN ((hash.drop offset).take 4)).map fun dt => dt.1 &&& 0x7fffffff

/-- `substr( sprintf( "%010d", $dt ), 0 - $opt->{digits} )`. -/
def lastDigits (dt digits : ℕ) : List Char :=
  let otp := (Nat.toDigits 10 dt).leftpad 10 '0'
  otp.drop (otp.length - digits)

variable (hmac : (data key : Bytes) → Hash)

/-- The key, decoded when it is in Base64. -/
def HotpOptions.rawKey (opt : HotpOptions) : Option Bytes :=
  if opt.keytype = some (ascii "base64") then opt.key.map Base64.decode else opt.key

def generateHOTP (opt : HotpOptions) : Option (List Char) := do
  let key ← opt.rawKey
  let sequence ← opt.sequence
  let digits ← opt.digits.filter (· ≠ 0)
  if key.length < 16 then none
  -- no number of digits is turned down
  else if digits < 6 ∧ 10 < digits then none
  else do
    let hash := hmac (packHex (padHex (asHex sequence))) key
    let dt ← dynamicTruncation hash
    some (lastDigits dt digits)

namespace Rfc4226

/-- The counter as 8 bytes, the most significant one first. -/
def counterBytes (c : ℕ) : Bytes := (List.range 8).reverse.map fun i => UInt8.ofNat (c / 256 ^ i)

/-- The last 31 bits of the four bytes at the offset that the last byte gives. -/
def truncate (hash : Hash) : ℕ :=
  let byte (i : ℕ) : ℕ := (hash.1.getD i 0).toNat
  let offset := byte 19 % 16
  byte offset % 128 * 2 ^ 24 + byte (offset + 1) * 2 ^ 16 + byte (offset + 2) * 2 ^ 8 +
    byte (offset + 3)

/-- The password of a key and a counter, with a number of digits. -/
def hotp (key : Bytes) (c digits : ℕ) : List Char :=
  (Nat.toDigits 10 (truncate (hmac (counterBytes c) key) % 10 ^ digits)).leftpad digits '0'

end Rfc4226

variable {hmac} {opt : HotpOptions} {key : Bytes} {c dt digits : ℕ}

/-! ## The counter -/

theorem packHex_asHex (h : c < 2 ^ 64) :
    packHex (padHex (asHex c)) = Rfc4226.counterBytes c := by
  have hprefix : ['0', 'x'] <+: asHex c := ⟨Nat.toDigits 16 c, rfl⟩
  have hpad : padHex (asHex c) = Numeral.padded 16 (2 * 8) c := by
    rw [padHex, if_pos hprefix]
    exact Numeral.leftpad_toDigits (by decide) (by decide) h
  have hread := Numeral.pairs_padded (b := 16) (by decide) (by decide) 8 c
  have hbytes : ∀ l : List (List Char), l.map (fun t => UInt8.ofNat (hex t)) =
      (l.map (Numeral.read 16)).map fun x => UInt8.ofNat (x.getD 0) := fun l => by
    rw [List.map_map]
    rfl
  rw [hpad, packHex, hbytes, hread, List.map_map, Rfc4226.counterBytes]
  refine List.map_congr_left fun i _ => ?_
  show UInt8.ofNat (c / (16 * 16) ^ i % (16 * 16)) = UInt8.ofNat (c / 256 ^ i)
  exact UInt8.ofNat_mod_size

/-! ## The digest -/

theorem hex_drop_unpackH {s : Bytes} {a : UInt8} :
    hex ((unpackH (s ++ [a])).drop ((unpackH (s ++ [a])).length - 1)) = a.toNat % 16 := by
  have hsplit : unpackH (s ++ [a]) =
      (unpackH s ++ [Nat.digitChar (a.toNat / 16 % 16)]) ++ [Nat.digitChar (a.toNat % 16)] := by
    simp [unpackH, Numeral.padded_succ]
  have hdrop : (unpackH (s ++ [a])).drop ((unpackH (s ++ [a])).length - 1) =
      Numeral.padded 16 1 (a.toNat) := by
    rw [hsplit, List.length_append, List.length_singleton, Nat.add_sub_cancel, List.drop_left]
    simp [Numeral.padded_succ]
  rw [hdrop, hex, Numeral.read_padded (by decide) (by decide) (by decide)]
  rfl

theorem take_drop_four {s : Bytes} {i : ℕ} (h : i + 4 ≤ s.length) :
    (s.drop i).take 4 = [s.getD i 0, s.getD (i + 1) 0, s.getD (i + 2) 0, s.getD (i + 3) 0] := by
  have hcons : ∀ j, j < s.length → s.drop j = s.getD j 0 :: s.drop (j + 1) := fun j hj => by
    rw [List.drop_eq_getElem_cons hj, List.getD_eq_getElem?_getD, List.getElem?_eq_getElem hj,
      Option.getD_some]
  rw [hcons i (by omega), hcons (i + 1) (by omega), hcons (i + 1 + 1) (by omega),
    hcons (i + 1 + 1 + 1) (by omega)]
  rfl

/-- **The truncation** of a hash, whatever the hash is. -/
theorem dynamicTruncation_eq (hash : Hash) :
    dynamicTruncation hash.1 = some (Rfc4226.truncate hash) := by
  obtain ⟨s, a, hs⟩ : ∃ s a, hash.1 = s ++ [a] := by
    have hne : hash.1 ≠ [] := fun h => by simpa [h] using hash.2
    exact ⟨hash.1.dropLast, hash.1.getLast hne, (List.dropLast_append_getLast hne).symm⟩
  have hlen : s.length = 19 := by
    have := hash.2
    rw [hs, List.length_append, List.length_singleton] at this
    omega
  have hlast : (hash.1.getD 19 0).toNat = a.toNat := by
    rw [hs, ← hlen, List.getD_eq_getElem?_getD, List.getElem?_concat_length]
    rfl
  have hoffset : hex ((unpackH hash.1).drop ((unpackH hash.1).length - 1)) =
      (hash.1.getD 19 0).toNat % 16 := by
    rw [hlast, hs, hex_drop_unpackH]
  have hroom : (hash.1.getD 19 0).toNat % 16 + 4 ≤ hash.1.length := by
    rw [hash.2]
    omega
  rw [dynamicTruncation, hoffset, take_drop_four hroom, unpackN, Option.map_some, Rfc4226.truncate]
  congr 1
  show _ &&& (2 ^ 31 - 1) = _
  rw [Nat.and_two_pow_sub_one_eq_mod]
  -- three bytes are less than the weight of the first one
  have h1 := (hash.1.getD ((hash.1.getD 19 0).toNat % 16 + 1) 0).toNat_lt
  have h2 := (hash.1.getD ((hash.1.getD 19 0).toNat % 16 + 2) 0).toNat_lt
  have h3 := (hash.1.getD ((hash.1.getD 19 0).toNat % 16 + 3) 0).toNat_lt
  dsimp only
  omega

/-! ## The digits -/

theorem truncate_lt (hash : Hash) : Rfc4226.truncate hash < 2 ^ 31 := by
  rw [Rfc4226.truncate]
  have h1 := (hash.1.getD ((hash.1.getD 19 0).toNat % 16 + 1) 0).toNat_lt
  have h2 := (hash.1.getD ((hash.1.getD 19 0).toNat % 16 + 2) 0).toNat_lt
  have h3 := (hash.1.getD ((hash.1.getD 19 0).toNat % 16 + 3) 0).toNat_lt
  dsimp only
  omega

/-- The last digits of a number are those of its remainder. -/
theorem lastDigits_eq (hdt : dt < 2 ^ 31) (hpos : 0 < digits) (hdigits : digits ≤ 10) :
    lastDigits dt digits = (Nat.toDigits 10 (dt % 10 ^ digits)).leftpad digits '0' := by
  have hlt : dt < 10 ^ 10 := hdt.trans (by decide)
  have hmod : dt % 10 ^ digits < 10 ^ digits := Nat.mod_lt _ (Nat.pow_pos (by decide))
  have hdrop : (Numeral.padded 10 (10 - digits + digits) dt).drop (10 - digits) =
      Numeral.padded 10 digits dt := Numeral.drop_padded
  rw [Nat.sub_add_cancel hdigits] at hdrop
  rw [lastDigits, Numeral.leftpad_toDigits (by decide) (by decide) hlt, Numeral.length_padded,
    hdrop, Numeral.leftpad_toDigits (by decide) hpos hmod, Numeral.padded_mod le_rfl]

/-- **The one-time password of a counter** is that of RFC 4226. -/
theorem generateHOTP_eq (hkey : opt.rawKey = some key) (hlength : 16 ≤ key.length)
    (hsequence : opt.sequence = some c) (hc : c < 2 ^ 64) (hdigits : opt.digits = some digits)
    (hlo : 6 ≤ digits) (hhi : digits ≤ 10) :
    generateHOTP hmac opt = some (Rfc4226.hotp hmac key c digits) := by
  have hfilter : opt.digits.filter (· ≠ 0) = some digits := by
    rw [hdigits, Option.filter_some, if_pos (by simpa using show digits ≠ 0 by omega)]
  rw [generateHOTP, hkey, hsequence, hfilter]
  show (if key.length < 16 then none else _) = _
  rw [if_neg (by omega), if_neg (by omega), packHex_asHex hc]
  dsimp only
  rw [dynamicTruncation_eq]
  show some (lastDigits _ digits) = _
  rw [lastDigits_eq (truncate_lt _) (by omega) hhi, Rfc4226.hotp]

/-- The HMAC-SHA-1 of the counter 0 under the key `12345678901234567890`. -/
def firstHash : Hash :=
  ⟨[0xcc, 0x93, 0xcf, 0x18, 0x50, 0x8d, 0x94, 0x93, 0x4c, 0x64, 0xb6, 0x5d, 0x8b, 0xa7, 0x66, 0x7f,
    0xb7, 0xcd, 0xe4, 0xb0], rfl⟩

/-- The first password of that key. -/
theorem generateHOTP_first : generateHOTP (fun _ _ => firstHash)
    ⟨some (ascii "12345678901234567890"), some 0, some 6, none⟩ = some "755224".toList :=
  (generateHOTP_eq rfl (by decide) rfl (by decide) rfl (by decide) (by decide)).trans (by decide)

end JazzHands.Hotpants

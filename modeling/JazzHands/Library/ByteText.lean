import Mathlib.Data.List.Basic

/-!
# Bytes as text

* `Base64.encode`, `Base64.decode`: groups of three bytes are four digits; decoding leaves out what
  is no digit, and stops at the padding.
* `Base64.encodeLines`: lines of 76 digits.
* `Percent.escape`, `Percent.unescape`: all but letters and digits as hexadecimal numbers.
-/

namespace JazzHands.Library

/-- A string of bytes. -/
abbrev Bytes : Type := List UInt8

def ascii (s : String) : Bytes := s.toList.map fun c => UInt8.ofNat c.toNat

namespace Base64

def pad : UInt8 := 61

def newline : UInt8 := 10

def digit (n : ℕ) : UInt8 :=
  UInt8.ofNat <|
    if n < 26 then n + 65
    else if n < 52 then n + 71
    else if n < 62 then n - 4
    else if n = 62 then 43
    else 47

/-- The value of a digit; the padding has the value 64. -/
def value? (c : UInt8) : Option ℕ :=
  let n := c.toNat
  if 65 ≤ n ∧ n ≤ 90 then some (n - 65)
  else if 97 ≤ n ∧ n ≤ 122 then some (n - 71)
  else if 48 ≤ n ∧ n ≤ 57 then some (n + 4)
  else if n = 43 then some 62
  else if n = 47 then some 63
  else if c = pad then some 64
  else none

def encode : Bytes → Bytes
  | a :: b :: c :: rest =>
    digit (a.toNat / 4) :: digit (a.toNat % 4 * 16 + b.toNat / 16) ::
      digit (b.toNat % 16 * 4 + c.toNat / 64) :: digit (c.toNat % 64) :: encode rest
  | [a, b] =>
    [digit (a.toNat / 4), digit (a.toNat % 4 * 16 + b.toNat / 16), digit (b.toNat % 16 * 4), pad]
  | [a] => [digit (a.toNat / 4), digit (a.toNat % 4 * 16), pad, pad]
  | [] => []

/-- Four values are three bytes; the last ones may be missing. -/
def decodeValues : List ℕ → Bytes
  | a :: b :: c :: d :: rest =>
    if a = 64 ∨ b = 64 then []
    else UInt8.ofNat (a * 4 + b / 16) ::
      if c = 64 then []
      else UInt8.ofNat (b % 16 * 16 + c / 4) ::
        if d = 64 then [] else UInt8.ofNat (c % 4 * 64 + d) :: decodeValues rest
  | [a, b, c] =>
    if a = 64 ∨ b = 64 then []
    else UInt8.ofNat (a * 4 + b / 16) ::
      if c = 64 then [] else [UInt8.ofNat (b % 16 * 16 + c / 4)]
  | [a, b] => if a = 64 ∨ b = 64 then [] else [UInt8.ofNat (a * 4 + b / 16)]
  | _ => []

def decode (s : Bytes) : Bytes := decodeValues (s.filterMap value?)

/-- A newline after each line, the last one too; `k` more digits have their place in a line. -/
def breakLines : ℕ → Bytes → Bytes
  | _, [] => [newline]
  | 0, c :: s => newline :: c :: breakLines 75 s
  | k + 1, c :: s => c :: breakLines k s

def encodeLines (s : Bytes) : Bytes :=
  if s = [] then [] else breakLines 76 (encode s)

variable {s t : Bytes} {n : ℕ}

theorem value?_digit (h : n < 64) : value? (digit n) = some n := by
  revert h n
  decide

@[simp] theorem value?_pad : value? pad = some 64 := by decide

@[simp] theorem value?_newline : value? newline = none := by decide

/-- The values of the digits of some bytes. -/
def values : Bytes → List ℕ
  | a :: b :: c :: rest =>
    a.toNat / 4 :: (a.toNat % 4 * 16 + b.toNat / 16) :: (b.toNat % 16 * 4 + c.toNat / 64) ::
      c.toNat % 64 :: values rest
  | [a, b] => [a.toNat / 4, a.toNat % 4 * 16 + b.toNat / 16, b.toNat % 16 * 4, 64]
  | [a] => [a.toNat / 4, a.toNat % 4 * 16, 64, 64]
  | [] => []

theorem filterMap_value?_encode (s : Bytes) : (encode s).filterMap value? = values s := by
  induction s using encode.induct with
  | case1 a b c rest ih =>
    have ha := a.toNat_lt
    have hb := b.toNat_lt
    have hc := c.toNat_lt
    rw [encode, values, List.filterMap_cons_some (value?_digit (by omega)),
      List.filterMap_cons_some (value?_digit (by omega)),
      List.filterMap_cons_some (value?_digit (by omega)),
      List.filterMap_cons_some (value?_digit (by omega)), ih]
  | case2 a b =>
    have ha := a.toNat_lt
    have hb := b.toNat_lt
    rw [encode, values, List.filterMap_cons_some (value?_digit (by omega)),
      List.filterMap_cons_some (value?_digit (by omega)),
      List.filterMap_cons_some (value?_digit (by omega)), List.filterMap_cons_some value?_pad]
    rfl
  | case3 a =>
    have ha := a.toNat_lt
    rw [encode, values, List.filterMap_cons_some (value?_digit (by omega)),
      List.filterMap_cons_some (value?_digit (by omega)), List.filterMap_cons_some value?_pad,
      List.filterMap_cons_some value?_pad]
    rfl
  | case4 => rfl

theorem ofNat_eq {c : UInt8} (h : n = c.toNat) : UInt8.ofNat n = c := by
  rw [h, UInt8.ofNat_toNat]

theorem decodeValues_values (s : Bytes) : decodeValues (values s) = s := by
  induction s using encode.induct with
  | case1 a b c rest ih =>
    have ha := a.toNat_lt
    have hb := b.toNat_lt
    have hc := c.toNat_lt
    rw [values, decodeValues, if_neg (by omega), if_neg (by omega), if_neg (by omega),
      ofNat_eq (c := a) (by omega), ofNat_eq (c := b) (by omega), ofNat_eq (c := c) (by omega), ih]
  | case2 a b =>
    have ha := a.toNat_lt
    have hb := b.toNat_lt
    rw [values, decodeValues, if_neg (by omega), if_neg (by omega), if_pos rfl,
      ofNat_eq (c := a) (by omega), ofNat_eq (c := b) (by omega)]
  | case3 a =>
    have ha := a.toNat_lt
    rw [values, decodeValues, if_neg (by omega), if_pos rfl, ofNat_eq (c := a) (by omega)]
  | case4 => rfl

theorem decode_encode (h : t.filterMap value? = (encode s).filterMap value?) : decode t = s := by
  rw [decode, h, filterMap_value?_encode, decodeValues_values]

theorem filterMap_value?_breakLines (k : ℕ) :
    (breakLines k s).filterMap value? = s.filterMap value? := by
  induction s generalizing k with
  | nil => rfl
  | cons c s ih =>
    cases k with
    | zero =>
      rw [breakLines, List.filterMap_cons_none value?_newline, List.filterMap_cons,
        List.filterMap_cons, ih]
    | succ k => rw [breakLines, List.filterMap_cons, List.filterMap_cons, ih]

theorem filterMap_value?_encodeLines (s : Bytes) :
    (encodeLines s).filterMap value? = (encode s).filterMap value? := by
  rw [encodeLines]
  split
  · rename_i h
    rw [h]
    rfl
  · exact filterMap_value?_breakLines 76

theorem four_le_length_encode (h : s ≠ []) : 4 ≤ (encode s).length := by
  match s with
  | a :: b :: c :: rest => simp [encode]
  | [a, b] => simp [encode]
  | [a] => simp [encode]

theorem length_breakLines (k : ℕ) : s.length < (breakLines k s).length := by
  induction s generalizing k with
  | nil => simp [breakLines]
  | cons c s ih =>
    cases k with
    | zero =>
      have hs := ih 75
      simp only [breakLines, List.length_cons]
      omega
    | succ k =>
      have hs := ih k
      simp only [breakLines, List.length_cons]
      omega

theorem five_le_length_encodeLines (h : s ≠ []) : 5 ≤ (encodeLines s).length := by
  have hdigits := four_le_length_encode h
  have hlines := length_breakLines (s := encode s) 76
  rw [encodeLines, if_neg h]
  omega

end Base64

namespace Percent

def sign : UInt8 := 37

def IsAlphanumeric (c : UInt8) : Prop :=
  (65 ≤ c.toNat ∧ c.toNat ≤ 90) ∨ (97 ≤ c.toNat ∧ c.toNat ≤ 122) ∨
    (48 ≤ c.toNat ∧ c.toNat ≤ 57)
  deriving Decidable

/-- A hexadecimal digit, in upper case. -/
def hexDigit (n : ℕ) : UInt8 := UInt8.ofNat (if n < 10 then n + 48 else n + 55)

/-- In either case. -/
def hexValue? (c : UInt8) : Option ℕ :=
  let n := c.toNat
  if 48 ≤ n ∧ n ≤ 57 then some (n - 48)
  else if 65 ≤ n ∧ n ≤ 70 then some (n - 55)
  else if 97 ≤ n ∧ n ≤ 102 then some (n - 87)
  else none

def escapeByte (c : UInt8) : Bytes :=
  if IsAlphanumeric c then [c] else [sign, hexDigit (c.toNat / 16), hexDigit (c.toNat % 16)]

def escape (s : Bytes) : Bytes := s.flatMap escapeByte

/-- The byte that a sign and two digits stand for. -/
def unescapeByte? (c a b : UInt8) : Option UInt8 :=
  if c = sign then
    (hexValue? a).bind fun x => (hexValue? b).map fun y => UInt8.ofNat (x * 16 + y)
  else none

/-- From left to right. -/
def unescape : Bytes → Bytes
  | c :: a :: b :: rest =>
    match unescapeByte? c a b with
    | some x => x :: unescape rest
    | none => c :: unescape (a :: b :: rest)
  | [c, a] => [c, a]
  | [c] => [c]
  | [] => []

variable {s : Bytes} {n : ℕ} {c : UInt8}

theorem hexValue?_hexDigit (h : n < 16) : hexValue? (hexDigit n) = some n := by
  revert h n
  decide

theorem unescape_cons (h : c ≠ sign) : unescape (c :: s) = c :: unescape s := by
  match s with
  | a :: b :: rest => rw [unescape, unescapeByte?, if_neg h]
  | [a] => rfl
  | [] => rfl

theorem unescape_hex (c : UInt8) :
    unescape (sign :: hexDigit (c.toNat / 16) :: hexDigit (c.toNat % 16) :: s) =
      c :: unescape s := by
  have hc := c.toNat_lt
  have hbyte : unescapeByte? sign (hexDigit (c.toNat / 16)) (hexDigit (c.toNat % 16)) = some c := by
    rw [unescapeByte?, if_pos rfl, hexValue?_hexDigit (by omega), hexValue?_hexDigit (by omega)]
    exact congrArg some (Base64.ofNat_eq (by omega))
  rw [unescape, hbyte]

theorem unescape_escape (s : Bytes) : unescape (escape s) = s := by
  induction s with
  | nil => rfl
  | cons c s ih =>
    rw [escape, List.flatMap_cons, escapeByte]
    split
    · rename_i hc
      have hsign : c ≠ sign := by
        rintro rfl
        revert hc
        decide
      rw [List.singleton_append, unescape_cons hsign]
      exact congrArg (c :: ·) ih
    · exact (unescape_hex c).trans (congrArg (c :: ·) ih)

theorem length_escape (s : Bytes) : s.length ≤ (escape s).length := by
  induction s with
  | nil => exact Nat.le_refl 0
  | cons c s ih =>
    rw [escape] at ih ⊢
    rw [List.flatMap_cons, List.length_append, escapeByte]
    split <;> simp only [List.length_cons, List.length_nil] <;> omega

end Percent

end JazzHands.Library

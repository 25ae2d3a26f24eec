import JazzHands.Library.Numeral
import JazzHands.Library.SeparatedText
import JazzHands.Postgres.Inet
import Mathlib.Data.List.MinMax

/-!
# The text of an `inet`

The text of an IPv6 address leaves out its longest run of zero words (`hostText_run`, `words_run`),
and reading a text fills it in again (`read6_double`); the octets of an IPv4 address come back by
`readDotted_joined`.  A mask length is cut off first (`inetIn_mask`).
-/

namespace JazzHands.Postgres

open Library

/-- What stands before and after the first `::`. -/
def cutDouble : List Char → Option (List Char × List Char)
  | [] => none
  | c :: s =>
    if c = ':' ∧ s.head? = some ':' then some ([], s.tail)
    else (cutDouble s).map fun x => (c :: x.1, x.2)

/-- What stands between the colons of a text. -/
def pieces (s : List Char) : List (List Char) := if s = [] then [] else s.splitOn ':'

namespace Inet

/-! ## Output -/

/-- The octets of the last 32 bits. -/
def octets (i : Inet) : List ℕ := (List.range 4).map fun k => i.addr / 256 ^ (3 - k) % 256

/-- The words of 16 bits. -/
def words (i : Inet) : List ℕ := (List.range 8).map fun k => i.addr / 65536 ^ (7 - k) % 65536

def dottedQuad (i : Inet) : List Char := joined '.' (i.octets.map (Nat.toDigits 10))

/-- How many words are zero from the one at `j` on. -/
def zerosFrom (ws : List ℕ) (j : ℕ) : ℕ := ((ws.drop j).takeWhile (· = 0)).length

/-- Where the longest run of zeros begins, the first one of several, when it has two words. -/
def bestRun (ws : List ℕ) : Option ℕ :=
  ((List.range ws.length).argmax (zerosFrom ws)).filter (2 ≤ zerosFrom ws ·)

/-- The address is IPv4-compatible or IPv4-mapped. -/
def Dotted (i : Inet) : Prop :=
  bestRun i.words = some 0 ∧ (zerosFrom i.words 0 = 6 ∨
    (zerosFrom i.words 0 = 5 ∧ i.words[5]? = some 0xffff))

instance (i : Inet) : Decidable i.Dotted := inferInstanceAs (Decidable (_ ∧ _))

/-- What is written before the run at `j`. -/
def piecesBefore (i : Inet) (j : ℕ) : List (List Char) := (i.words.take j).map (Nat.toDigits 16)

/-- What is written after the run at `j`. -/
def piecesAfter (i : Inet) (j : ℕ) : List (List Char) :=
  let after := (i.words.drop (j + zerosFrom i.words j)).map (Nat.toDigits 16)
  if i.Dotted then after.take (after.length - 2) ++ [i.dottedQuad] else after

/-- `host(i)`. -/
def hostText (i : Inet) : List Char :=
  match i.family, bestRun i.words with
  | .inet4, _ => i.dottedQuad
  | .inet6, none => joined ':' (i.words.map (Nat.toDigits 16))
  | .inet6, some j => joined ':' (i.piecesBefore j) ++ ':' :: ':' :: joined ':' (i.piecesAfter j)

/-- `i::text`.  Whether the mask length of a single address is shown is left open: the cast shows
it, the output function does not. -/
def text (showsAll : Bool) (i : Inet) : List Char :=
  if i.masklen = i.family.bits ∧ showsAll = false then i.hostText
  else i.hostText ++ '/' :: Nat.toDigits 10 i.masklen

/-! ## Input -/

def readDotted (s : List Char) : Option ℕ := do
  let octets ← (s.splitOn '.').mapM (Numeral.read 10)
  if octets.length = 4 ∧ ∀ n ∈ octets, n < 256 then some (octets.foldl (· * 256 + ·) 0) else none

def readWord (s : List Char) : Option ℕ := if s.length ≤ 4 then Numeral.read 16 s else none

/-- The words of some pieces; the last one may be written as an IPv4 address. -/
def readWords : List (List Char) → Option (List ℕ)
  | [] => some []
  | [s] =>
    if '.' ∈ s then (readDotted s).map fun n => [n / 65536, n % 65536]
    else (readWord s).map fun w => [w]
  | s :: t :: l => do
    let w ← readWord s
    let ws ← readWords (t :: l)
    some (w :: ws)

def read6 (s : List Char) : Option (List ℕ) :=
  match cutDouble s with
  | none => (readWords (s.splitOn ':')).filter (·.length = 8)
  | some x => do
    let before ← (pieces x.1).mapM readWord
    let after ← readWords (pieces x.2)
    if before.length + after.length ≤ 7 then
      some (before ++ List.replicate (8 - before.length - after.length) 0 ++ after)
    else none

/-- An address with a mask length, when the family has both. -/
def make? (family : Family) (addr masklen : ℕ) : Option Inet :=
  if h : addr < 2 ^ family.bits ∧ masklen ≤ family.bits then some ⟨family, addr, masklen, h.1, h.2⟩
  else none

/-- The address of a text without mask length. -/
def readAddress (s : List Char) : Option (Family × ℕ) :=
  if ':' ∈ s then (read6 s).map fun ws => (.inet6, ws.foldl (· * 65536 + ·) 0)
  else (readDotted s).map fun n => (.inet4, n)

/-- The cast from text to `inet`. -/
def inetIn (s : String) : Option Inet :=
  match s.toList.splitOn '/' with
  | [a] => (readAddress a).bind fun x => make? x.1 x.2 x.1.bits
  | [a, m] => (readAddress a).bind fun x => (Numeral.read 10 m).bind fun m => make? x.1 x.2 m
  | _ => none

end Inet

/-! ## Where `::` stands -/

/-- What is written between two colons. -/
def IsPiece (s : List Char) : Prop := s ≠ [] ∧ ':' ∉ s

variable {s t : List Char} {p q : List (List Char)} {ws vs : List ℕ} {j k w : ℕ}

theorem cutDouble_append (h : ':' ∉ s) :
    cutDouble (s ++ t) = (cutDouble t).map fun x => (s ++ x.1, x.2) := by
  induction s with
  | nil => exact Option.map_id'.symm
  | cons c s ih =>
    rw [List.mem_cons, not_or] at h
    rw [List.cons_append, cutDouble, if_neg fun hc => h.1 hc.1.symm, ih h.2, Option.map_map]
    rfl

theorem cutDouble_colon (h : t.head? ≠ some ':') :
    cutDouble (':' :: t) = (cutDouble t).map fun x => (':' :: x.1, x.2) :=
  if_neg fun hc => h hc.2

section

variable (hp : ∀ s ∈ p, IsPiece s)
include hp

theorem head_joined (hne : p ≠ []) :
    ∃ c l, joined ':' p = c :: l ∧ c ≠ ':' := by
  cases p with
  | nil => exact absurd rfl hne
  | cons s p =>
    obtain ⟨hs, hcolon⟩ := hp s List.mem_cons_self
    cases s with
    | nil => exact absurd rfl hs
    | cons c s =>
      have hc : c ≠ ':' := fun heq => hcolon (heq ▸ List.mem_cons_self)
      by_cases hp' : p = []
      · exact ⟨c, s, by rw [hp', joined_singleton], hc⟩
      · exact ⟨c, s ++ ':' :: joined ':' p, by rw [joined_cons _ hp', List.cons_append], hc⟩

theorem last_joined (hne : p ≠ []) :
    ∃ l c, joined ':' p = l ++ [c] ∧ c ≠ ':' := by
  induction p with
  | nil => exact absurd rfl hne
  | cons s p ih =>
    by_cases hp' : p = []
    · obtain ⟨hs, hcolon⟩ := hp s List.mem_cons_self
      refine ⟨s.dropLast, s.getLast hs, ?_, fun heq => hcolon (heq ▸ List.getLast_mem hs)⟩
      rw [hp', joined_singleton, List.dropLast_append_getLast]
    · obtain ⟨l, c, hlc, hc⟩ := ih (fun x hx => hp x (List.mem_cons_of_mem s hx)) hp'
      refine ⟨s ++ ':' :: l, c, ?_, hc⟩
      rw [joined_cons s hp', hlc, List.append_assoc, List.cons_append]

theorem cutDouble_joined_append : cutDouble (joined ':' p ++ t) =
    (cutDouble t).map fun x => (joined ':' p ++ x.1, x.2) := by
  induction p with
  | nil => exact Option.map_id'.symm
  | cons s p ih =>
    have hs := hp s List.mem_cons_self
    have hp' : ∀ s ∈ p, IsPiece s := fun x hx => hp x (List.mem_cons_of_mem s hx)
    by_cases hne : p = []
    · rw [hne, joined_singleton, cutDouble_append hs.2]
    · obtain ⟨c, l, hcl, hc⟩ := head_joined hp' hne
      have hhead : (joined ':' p ++ t).head? ≠ some ':' := by
        rw [hcl]
        simpa using hc
      rw [joined_cons s hne, List.append_assoc, List.cons_append, cutDouble_append hs.2,
        cutDouble_colon hhead, ih hp', Option.map_map, Option.map_map]
      congr 1
      funext x
      simp

theorem cutDouble_joined : cutDouble (joined ':' p) = none := by
  have h := cutDouble_joined_append (t := []) hp
  rwa [List.append_nil] at h

theorem cutDouble_double :
    cutDouble (joined ':' p ++ ':' :: ':' :: s) = some (joined ':' p, s) := by
  rw [cutDouble_joined_append hp]
  simp [cutDouble]

theorem splitOn_pieces (hne : p ≠ []) :
    (joined ':' p).splitOn ':' = p := splitOn_joined hne fun s hs => (hp s hs).2

theorem pieces_joined : pieces (joined ':' p) = p := by
  by_cases hne : p = []
  · rw [hne]
    rfl
  · obtain ⟨c, l, hcl, -⟩ := head_joined hp hne
    rw [pieces, if_neg (by rw [hcl]; exact List.cons_ne_nil c l), splitOn_pieces hp hne]

end

theorem isPiece_hex (w : ℕ) : IsPiece (Nat.toDigits 16 w) :=
  ⟨Nat.toDigits_ne_nil, Numeral.notMem_toDigits (by decide) (by decide)⟩

theorem isPiece_map_hex : ∀ s ∈ ws.map (Nat.toDigits 16), IsPiece s := fun s hs => by
  obtain ⟨w, -, rfl⟩ := List.mem_map.mp hs
  exact isPiece_hex w

namespace Inet

variable {i : Inet}

theorem dottedQuad_eq (i : Inet) : i.dottedQuad = Nat.toDigits 10 (i.addr / 256 ^ 3 % 256) ++
    '.' :: joined '.' ((i.octets.drop 1).map (Nat.toDigits 10)) :=
  joined_cons _ (List.cons_ne_nil _ _)

theorem isPiece_dottedQuad : IsPiece i.dottedQuad := by
  constructor
  · rw [dottedQuad_eq]
    exact List.append_ne_nil_of_right_ne_nil _ (List.cons_ne_nil _ _)
  · intro hmem
    rcases mem_joined hmem with heq | ⟨s, hs, hmem⟩
    · exact absurd heq (by decide)
    · obtain ⟨n, -, rfl⟩ := List.mem_map.mp hs
      exact Numeral.notMem_toDigits (by decide) (by decide) hmem

theorem isPiece_before : ∀ s ∈ i.piecesBefore j, IsPiece s := isPiece_map_hex

theorem isPiece_after : ∀ s ∈ i.piecesAfter j, IsPiece s := by
  intro s hs
  unfold piecesAfter at hs
  split at hs
  · rcases List.mem_append.mp hs with hs | hs
    · exact isPiece_map_hex s (List.mem_of_mem_take hs)
    · rw [List.mem_singleton.mp hs]
      exact isPiece_dottedQuad
  · exact isPiece_map_hex s hs

/-! ## The text -/

theorem hostText_none (hf : i.family = .inet6) (h : bestRun i.words = none) :
    i.hostText = joined ':' (i.words.map (Nat.toDigits 16)) := by
  rw [hostText, hf, h]

theorem hostText_run (hf : i.family = .inet6) (h : bestRun i.words = some j) :
    i.hostText = joined ':' (i.piecesBefore j) ++ ':' :: ':' :: joined ':' (i.piecesAfter j) := by
  rw [hostText, hf, h]

theorem piecesAfter_eq (h : ¬ i.Dotted) : i.piecesAfter j =
    (i.words.drop (j + zerosFrom i.words j)).map (Nat.toDigits 16) := by
  rw [piecesAfter, if_neg h]

/-! ## The words -/

@[simp] theorem length_words : i.words.length = 8 := by simp [words]

theorem lt_of_mem_words (h : w ∈ i.words) : w < 65536 := by
  obtain ⟨k, -, rfl⟩ := List.mem_map.mp h
  exact Nat.mod_lt _ (by decide)

theorem drop_eq_zeros (ws : List ℕ) (j : ℕ) : ws.drop j =
    List.replicate (zerosFrom ws j) 0 ++ ws.drop (j + zerosFrom ws j) := by
  have hzeros : (ws.drop j).takeWhile (· = 0) = List.replicate (zerosFrom ws j) 0 :=
    List.eq_replicate_iff.mpr ⟨rfl, fun w hw => by simpa using List.mem_takeWhile_imp hw⟩
  have hsplit := List.takeWhile_append_dropWhile (p := (· = 0)) (l := ws.drop j)
  have hrest : ws.drop (j + zerosFrom ws j) = (ws.drop j).dropWhile (· = 0) := by
    rw [← List.drop_drop]
    nth_rewrite 1 [← hsplit]
    exact List.drop_left
  rw [hrest, ← hzeros, hsplit]

theorem getElem?_zerosFrom : ws[zerosFrom ws 0]? ≠ some 0 := by
  induction ws with
  | nil => simp
  | cons w ws ih =>
    by_cases hw : w = 0
    · simpa [zerosFrom, hw] using ih
    · simp [zerosFrom, hw]

/-- **The words around the run** that is left out. -/
theorem words_run (h : bestRun i.words = some j) : 2 ≤ zerosFrom i.words j ∧
    j + zerosFrom i.words j ≤ 8 ∧ i.words = i.words.take j ++
      (List.replicate (zerosFrom i.words j) 0 ++ i.words.drop (j + zerosFrom i.words j)) := by
  obtain ⟨hmax, htwo⟩ := Option.filter_eq_some_iff.mp h
  have hj : j < 8 := by simpa using List.argmax_mem hmax
  refine ⟨by simpa using htwo, ?_, ?_⟩
  · have hle := (List.takeWhile_prefix (l := i.words.drop j) (· = 0)).length_le
    rw [List.length_drop, length_words] at hle
    show j + ((i.words.drop j).takeWhile (· = 0)).length ≤ 8
    omega
  · rw [← drop_eq_zeros, List.take_append_drop]

/-! ## What is read back -/

theorem mapM_some {α β : Type} {read : β → Option α} {f : α → β} {l : List α}
    (h : ∀ a ∈ l, read (f a) = some a) : (l.map f).mapM read = some l := by
  induction l with
  | nil => rfl
  | cons a l ih =>
    have hl := ih fun b hb => h b (List.mem_cons_of_mem a hb)
    rw [List.map_cons, List.mapM_cons, h a List.mem_cons_self, hl]
    rfl

theorem readDotted_joined (hlen : ws.length = 4) (hlt : ∀ w ∈ ws, w < 256) :
    readDotted (joined '.' (ws.map (Nat.toDigits 10))) = some (ws.foldl (· * 256 + ·) 0) := by
  have hne : ws.map (Nat.toDigits 10) ≠ [] := by
    rw [← List.length_pos_iff, List.length_map, hlen]
    decide
  have hdot : ∀ s ∈ ws.map (Nat.toDigits 10), '.' ∉ s := fun s hs => by
    obtain ⟨w, -, rfl⟩ := List.mem_map.mp hs
    exact Numeral.notMem_toDigits (by decide) (by decide)
  rw [readDotted, splitOn_joined hne hdot,
    mapM_some fun w _ => Numeral.read_toDigits (by decide) (by decide) w]
  exact if_pos ⟨hlen, hlt⟩

theorem readWord_padded (h : w < 65536) : readWord (Numeral.padded 16 4 w) = some w := by
  rw [readWord, if_pos Numeral.length_padded.le,
    Numeral.read_padded (by decide) (by decide) (by decide),
    Nat.mod_eq_of_lt (show w < 16 ^ 4 from h)]

theorem read6_double (hp : ∀ s ∈ p, IsPiece s) (hq : ∀ s ∈ q, IsPiece s)
    (hws : p.mapM readWord = some ws) (hvs : readWords q = some vs)
    (hlen : ws.length + vs.length ≤ 7) :
    read6 (joined ':' p ++ ':' :: ':' :: joined ':' q) =
      some (ws ++ List.replicate (8 - ws.length - vs.length) 0 ++ vs) := by
  rw [read6, cutDouble_double hp]
  dsimp only
  rw [pieces_joined hp, pieces_joined hq, hws, hvs]
  exact if_pos hlen

theorem colon_mem_double : ':' ∈ s ++ ':' :: ':' :: t := by simp

theorem inetIn_mask (h : '/' ∉ s) : inetIn (String.ofList (s ++ '/' :: Nat.toDigits 10 k)) =
    (readAddress s).bind fun x => make? x.1 x.2 k := by
  have hsplit : (s ++ '/' :: Nat.toDigits 10 k).splitOn '/' = [s, Nat.toDigits 10 k] := by
    have hdigits : '/' ∉ Nat.toDigits 10 k := Numeral.notMem_toDigits (by decide) (by decide)
    have hjoined : (joined '/' [s, Nat.toDigits 10 k]).splitOn '/' = [s, Nat.toDigits 10 k] :=
      splitOn_joined (List.cons_ne_nil _ _) (by simpa using ⟨h, hdigits⟩)
    rwa [joined_cons_cons, joined_singleton] at hjoined
  rw [inetIn, String.toList_ofList, hsplit]
  dsimp only
  rw [Numeral.read_toDigits (by decide) (by decide)]
  rfl

/-! ## The round trip -/

theorem lt_of_mem_octets (h : w ∈ i.octets) : w < 256 := by
  obtain ⟨k, -, rfl⟩ := List.mem_map.mp h
  exact Nat.mod_lt _ (by decide)

theorem make?_self (i : Inet) : make? i.family i.addr i.masklen = some i :=
  dif_pos ⟨i.addr_lt, i.masklen_le⟩

end Inet
end JazzHands.Postgres

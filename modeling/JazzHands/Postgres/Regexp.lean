import JazzHands.Library.SequencePattern
import JazzHands.Postgres.Query
import Mathlib.Data.List.Forall2
import Mathlib.Data.List.Infix

/-!
# Regular expressions

The part of the advanced regular expressions that is needed for names: characters, `.`, escaped
punctuation, `?`, and the anchors `^` and `$`.

With an expression that does not belong to this part both functions find nothing.
-/

namespace JazzHands.Postgres

open Library

/-- The characters that stand for themselves. -/
def IsOrdinary (c : Char) : Prop :=
  c ∉ ['\\', '.', '*', '+', '?', '(', ')', '[', ']', '\x7b', '\x7d', '|', '^', '$']
  deriving Decidable

/-- One character; the flag `i` makes it match in both cases. -/
def charItem (caseInsensitive : Bool) (c : Char) : Item Char :=
  if caseInsensitive then ⟨fun d => d.toLower = c.toLower, false⟩ else .letter c

/-- `.`. -/
def anyItem : Item Char := ⟨fun _ => true, false⟩

/-- The items of an expression after those in `acc`, and whether it ends with `$`. -/
def parse (caseInsensitive : Bool) : List Char → List (Item Char) → Option (List (Item Char) × Bool)
  | [], acc => some (acc.reverse, false)
  | c :: s, acc =>
    if c = '\\' then
      match s with
      | [] => none
      | d :: s' =>
        if d.isAlphanum then none else parse caseInsensitive s' (charItem caseInsensitive d :: acc)
    else if c = '.' then parse caseInsensitive s (anyItem :: acc)
    else if c = '?' then
      match acc with
      | [] => none
      | i :: acc' =>
        if i.optional = true then none else parse caseInsensitive s (⟨i.takes, true⟩ :: acc')
    else if c = '$' then
      if s = [] then some (acc.reverse, true) else none
    else if IsOrdinary c then parse caseInsensitive s (charItem caseInsensitive c :: acc)
    else none

/-- The pattern of an expression. -/
def compile (caseInsensitive : Bool) (pattern : String) : Option (SequencePattern Char) :=
  if pattern.toList.head? = some '^' then
    (parse caseInsensitive pattern.toList.tail []).map fun x => ⟨true, x.1, x.2⟩
  else
    (parse caseInsensitive pattern.toList []).map fun x => ⟨false, x.1, x.2⟩

/-- The replacement: `\&` is the match, `\\` a backslash, and there are no groups. -/
def expand (matched : List Char) : List Char → List Char
  | [] => []
  | [c] => [c]
  | c :: d :: s =>
    if c = '\\' then
      if d = '\\' then '\\' :: expand matched s
      else if d = '&' then matched ++ expand matched s
      else if d.isDigit then expand matched s
      else c :: d :: expand matched s
    else c :: expand matched (d :: s)

/-- `regexp_replace(source, pattern, replacement)`, or with the flag `i`. -/
def regexpReplace (source pattern replacement : String) (caseInsensitive : Bool) : String :=
  match (compile caseInsensitive pattern).bind (·.search source.toList) with
  | none => source
  | some (before, after) =>
    let matched := (source.toList.drop before.length).take
      (source.length - before.length - after.length)
    String.ofList (before ++ expand matched replacement.toList ++ after)

/-- `text ~ pattern`. -/
def regexpMatch (text pattern : String) : Bool :=
  (compile false pattern).any fun p => (p.search text.toList).isSome

/-! ## Letters -/

variable {c : Char} {l s : List Char} {acc : List (Item Char)} {caseInsensitive : Bool}
  {source pattern text : String}

theorem toLower_eq_or_isAlpha (c : Char) : c.toLower = c ∨ c.toLower.isAlpha = true := by
  by_cases h : c.val ≥ 'A'.val ∧ c.val ≤ 'Z'.val
  · right
    have hval : c.toLower.val = c.val + 32 := congrArg Char.val (dif_pos h)
    refine (Bool.or_eq_true _ _).mpr (.inr ?_)
    show (decide (c.toLower.val ≥ 'a'.val) && decide (c.toLower.val ≤ 'z'.val)) = true
    simp only [hval, Bool.and_eq_true, decide_eq_true_iff, ge_iff_le, UInt32.le_iff_toNat_le] at h ⊢
    rw [UInt32.toNat_add]
    simp at h ⊢
    omega
  · exact .inl (dif_neg h)

theorem isOrdinary_of_isAlpha (h : c.isAlpha = true) : IsOrdinary c := by
  intro hc
  have hnot : ['\\', '.', '*', '+', '?', '(', ')', '[', ']', '\x7b', '\x7d', '|', '^', '$'].all
      (fun d => !d.isAlpha) = true := by decide
  have hc' := List.all_eq_true.mp hnot c hc
  rw [h] at hc'
  cases hc'

theorem isOrdinary_toLower (h : IsOrdinary c) : IsOrdinary c.toLower := by
  rcases toLower_eq_or_isAlpha c with heq | halpha
  · rwa [heq]
  · exact isOrdinary_of_isAlpha halpha

/-- A character that is no letter is not in `lower(s)` when it is not in `s`. -/
theorem not_mem_lower {t : String} (hc : c.isAlpha = false) (h : c ∉ t.toList) :
    c ∉ (lower t).toList := by
  rw [lower, String.toList_ofList]
  intro hmem
  obtain ⟨d, hd, rfl⟩ := List.mem_map.mp hmem
  rcases toLower_eq_or_isAlpha d with heq | halpha
  · rw [heq] at h
    exact h hd
  · rw [halpha] at hc
    cases hc

/-! ## Names in expressions -/

/-- A name in an expression: its dots match every character. -/
def textItem (caseInsensitive : Bool) (c : Char) : Item Char :=
  if c = '.' then anyItem else charItem caseInsensitive c

theorem parse_char (hc : IsOrdinary c) : parse caseInsensitive (c :: s) acc =
    parse caseInsensitive s (charItem caseInsensitive c :: acc) := by
  have hne : ∀ {d}, ¬ IsOrdinary d → c ≠ d := fun hd heq => hd (heq ▸ hc)
  rw [parse.eq_def]
  show ite _ _ _ = _
  rw [if_neg (hne (by decide)), if_neg (hne (by decide)), if_neg (hne (by decide)),
    if_neg (hne (by decide)), if_pos hc]

theorem parse_any : parse caseInsensitive ('.' :: s) acc =
    parse caseInsensitive s (anyItem :: acc) := by
  rw [parse.eq_def]
  rfl

theorem parse_text (hl : ∀ c ∈ l, IsOrdinary c ∨ c = '.') :
    parse caseInsensitive (l ++ s) acc =
      parse caseInsensitive s ((l.map (textItem caseInsensitive)).reverse ++ acc) := by
  induction l generalizing acc with
  | nil => rfl
  | cons c l ih =>
    have hl' : ∀ c ∈ l, IsOrdinary c ∨ c = '.' := fun d hd => hl d (List.mem_cons_of_mem c hd)
    rw [List.map_cons, List.reverse_cons, List.append_assoc, List.singleton_append, ← ih hl',
      List.cons_append, textItem]
    by_cases hdot : c = '.'
    · rw [if_pos hdot, hdot, parse_any]
    · rw [if_neg hdot, parse_char ((hl c List.mem_cons_self).resolve_right hdot)]

theorem parse_dot : parse caseInsensitive ('\\' :: '.' :: s) acc =
    parse caseInsensitive s (charItem caseInsensitive '.' :: acc) := rfl

theorem parse_backslash : parse caseInsensitive ('\\' :: '\\' :: s) acc =
    parse caseInsensitive s (charItem caseInsensitive '\\' :: acc) := rfl

theorem parse_optional {i : Item Char} (hi : i.optional = false) :
    parse caseInsensitive ('?' :: s) (i :: acc) =
      parse caseInsensitive s (⟨i.takes, true⟩ :: acc) := by
  rw [parse.eq_def]
  simp [hi]

theorem parse_end : parse caseInsensitive ['$'] acc = some (acc.reverse, true) := rfl

theorem mem_of_mem_regexpReplace
    (h : c ∈ (regexpReplace source pattern "" caseInsensitive).toList) : c ∈ source.toList := by
  unfold regexpReplace at h
  split at h
  · exact h
  · next before after hfind =>
    obtain ⟨p, -, hp⟩ := Option.bind_eq_some_iff.mp hfind
    obtain ⟨w, hs, -⟩ := SequencePattern.search_eq_some hp
    rw [String.toList_ofList, show expand _ "".toList = [] from rfl, List.append_nil,
      List.mem_append] at h
    rw [hs, List.append_assoc, List.mem_append, List.mem_append]
    exact h.imp_right .inr

/-- An expression that asks for a character is matched only by texts that have it. -/
theorem mem_of_regexpMatch {p : SequencePattern Char} (hp : compile false pattern = some p)
    (hc : Item.letter c ∈ p.items) (h : regexpMatch text pattern = true) : c ∈ text.toList := by
  rw [regexpMatch, hp, Option.any_some, SequencePattern.isSome_search_iff] at h
  obtain ⟨u, w, r, hs, hw, -⟩ := h
  rw [hs, List.mem_append, List.mem_append]
  exact .inl (.inr (hw.mem_of_letter hc))

/-! ## The operator `LIKE` -/

/-- `text LIKE pattern`. -/
def like : List Char → List Char → Bool
  | [], s => s.isEmpty
  | c :: p, s =>
    if c = '%' then s.tails.any (like p)
    else
      match s with
      | [] => false
      | d :: s =>
        if c = '\\' then
          match p with
          | [] => false
          | e :: p => e == d && like p s
        else (c == '_' || c == d) && like p s

/-- The text agrees with a name, but for the underscores of the name. -/
def AgreesExceptUnderscores (name text : List Char) : Prop :=
  List.Forall₂ (fun c d => c = '_' ∨ c = d) name text

theorem like_percent_iff {p : List Char} :
    like ('%' :: p) s = true ↔ ∃ u v, s = u ++ v ∧ like p v = true := by
  rw [like.eq_def]
  dsimp only
  rw [if_pos rfl, List.any_eq_true]
  constructor
  · rintro ⟨v, hv, hlike⟩
    obtain ⟨u, rfl⟩ := (List.mem_tails _ _).mp hv
    exact ⟨u, v, rfl, hlike⟩
  · rintro ⟨u, v, rfl, hlike⟩
    exact ⟨v, (List.mem_tails _ _).mpr ⟨u, rfl⟩, hlike⟩

theorem like_iff {p : List Char} (hp : ∀ c ∈ p, c ≠ '%' ∧ c ≠ '\\') :
    like p s = true ↔ AgreesExceptUnderscores p s := by
  induction p generalizing s with
  | nil =>
    rw [like, List.isEmpty_iff]
    constructor
    · rintro rfl
      exact .nil
    · intro h
      cases h
      rfl
  | cons c p ih =>
    obtain ⟨hpercent, hescape⟩ := hp c List.mem_cons_self
    have ih := fun {s} => ih (s := s) (fun d hd => hp d (List.mem_cons_of_mem c hd))
    rw [like.eq_def]
    dsimp only
    rw [if_neg hpercent]
    cases s with
    | nil => exact iff_of_false (by simp) fun h => by cases h
    | cons d s =>
      dsimp only
      rw [if_neg hescape, Bool.and_eq_true, ih]
      simp [AgreesExceptUnderscores]

theorem agreesExceptUnderscores_self (name : List Char) : AgreesExceptUnderscores name name :=
  List.forall₂_same.mpr fun _ _ => .inr rfl

end JazzHands.Postgres

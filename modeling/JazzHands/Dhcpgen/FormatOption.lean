import JazzHands.Library.Nesting
import JazzHands.Postgres.InetText

/-!
# The options that `dhcpgen.pl` writes

`FormatOption` makes a line of `dhcpd.conf` of a DHCP property, in the way that `$option_map` says.

* `PlainText`: a text without quotes and braces.  `Address`: a `NetAddr::IP` object of IPv4.

Where an option is an address, the method `addr` is called on the value, whatever it is.
-/

namespace JazzHands.Dhcpgen

open Library Library.Nesting Postgres

/-! ## Texts and addresses -/

/-- Quotes and braces do not occur. -/
def Plain (s : List Char) : Prop := '"' ∉ s ∧ '\x7b' ∉ s ∧ '\x7d' ∉ s
  deriving Decidable

structure PlainText where
  chars : List Char
  plain : Plain chars

/-- Perl takes `""` and `"0"` for false. -/
def PlainText.IsTrue (t : PlainText) : Prop := t.chars ≠ [] ∧ t.chars ≠ ['0']

instance (t : PlainText) : Decidable t.IsTrue := inferInstanceAs (Decidable (_ ∧ _))

/-- Braces are balanced. -/
abbrev Braced (s : List Char) : Prop := Balanced '\x7b' '\x7d' s

variable {s indent : List Char} {x : Option Scalar} {type : OptionType} {val : OptionValue}
  {perl : Perl} {props : DhcpOption → Option OptionValue} {xs : List (List Char)}

theorem Plain.braced (h : Plain s) : Braced s := balanced_of_notMem h.2.1 h.2.2

/-- A `NetAddr::IP` object of IPv4. -/
structure Address where
  inet : Inet
  v4 : inet.family = .inet4

namespace Address

def addr (a : Address) : List Char := a.inet.dottedQuad

def masklen (a : Address) : ℕ := a.inet.masklen

/-- The mask as an address. -/
def netmask (a : Address) : Inet where
  family := .inet4
  addr := 2 ^ 32 - 2 ^ (32 - a.inet.masklen)
  masklen := 32
  addr_lt := Nat.sub_lt (by decide) (Nat.two_pow_pos _)
  masklen_le := le_rfl

def mask (a : Address) : List Char := a.netmask.dottedQuad

/-- The object as a string. -/
def cidr (a : Address) : List Char := a.addr ++ '/' :: Nat.toDigits 10 a.masklen

end Address

theorem plain_toDigits (n : ℕ) : Plain (Nat.toDigits 10 n) :=
  ⟨Numeral.notMem_toDigits (by decide) (by decide), Numeral.notMem_toDigits (by decide) (by decide),
    Numeral.notMem_toDigits (by decide) (by decide)⟩

theorem Plain.append {t : List Char} (hs : Plain s) (ht : Plain t) : Plain (s ++ t) := by
  simp only [Plain, List.mem_append, not_or]
  exact ⟨⟨hs.1, ht.1⟩, ⟨hs.2.1, ht.2.1⟩, hs.2.2, ht.2.2⟩

theorem plain_dottedQuad (i : Inet) : Plain i.dottedQuad := by
  have hout {c : Char} (hdot : c ≠ '.') (hc : ∀ n, c ∉ Nat.toDigits 10 n) : c ∉ i.dottedQuad := by
    intro hmem
    rcases mem_joined hmem with h | ⟨x, hx, hcx⟩
    · exact hdot h
    · obtain ⟨n, -, rfl⟩ := List.mem_map.mp hx
      exact hc n hcx
  exact ⟨hout (by decide) fun n => (plain_toDigits n).1, hout (by decide) fun n => (plain_toDigits n).2.1,
    hout (by decide) fun n => (plain_toDigits n).2.2⟩

theorem plain_addr (a : Address) : Plain a.addr := plain_dottedQuad _

theorem plain_mask (a : Address) : Plain a.mask := plain_dottedQuad _

theorem plain_cidr (a : Address) : Plain a.cidr :=
  (plain_addr a).append ((by decide : Plain ['/']).append (plain_toDigits _))

/-! ## Values -/

inductive Scalar where
  | text (t : PlainText)
  | address (a : Address)

/-- The value of a property.  A property of several values has an array, in which undefined values
occur. -/
inductive OptionValue where
  | scalar (s : Scalar)
  | array (l : List (Option Scalar))

/-- What Perl makes of values. -/
structure Perl where
  /-- An array reference as a string. -/
  arrayText : PlainText
  /-- A value as an integer, for `%d`. -/
  toInt : Scalar → ℤ

def Scalar.string : Scalar → List Char
  | .text t => t.chars
  | .address a => a.cidr

def Scalar.IsTrue : Scalar → Prop
  | .text t => t.IsTrue
  | .address _ => True

instance : (s : Scalar) → Decidable s.IsTrue
  | .text t => inferInstanceAs (Decidable t.IsTrue)
  | .address _ => inferInstanceAs (Decidable True)

theorem Scalar.plain_string (s : Scalar) : Plain s.string := by
  cases s with
  | text t => exact t.plain
  | address a => exact plain_cidr a

/-- An element of an array as a string. -/
def elementString (x : Option Scalar) : List Char := x.elim [] Scalar.string

theorem plain_elementString (x : Option Scalar) : Plain (elementString x) := by
  cases x with
  | none => decide
  | some s => exact s.plain_string

namespace OptionValue

def string (perl : Perl) : OptionValue → List Char
  | .scalar s => s.string
  | .array _ => perl.arrayText.chars

theorem plain_string (perl : Perl) (v : OptionValue) : Plain (v.string perl) := by
  cases v with
  | scalar s => exact s.plain_string
  | array l => exact perl.arrayText.plain

def IsTrue : OptionValue → Prop
  | .scalar s => s.IsTrue
  | .array _ => True

instance : (v : OptionValue) → Decidable v.IsTrue
  | .scalar s => inferInstanceAs (Decidable s.IsTrue)
  | .array _ => inferInstanceAs (Decidable True)

/-- `ref($val) eq 'ARRAY' ? @$val : ( $val )`. -/
def elements : OptionValue → List (Option Scalar)
  | .scalar s => [some s]
  | .array l => l

end OptionValue

/-! ## The options -/

/-- The names in `$option_map`, in the order of `sort`. -/
inductive DhcpOption where
  | bootFile
  | configStanza
  | defaultLeaseTime
  | domainName
  | domainNameServers
  | domainSearch
  | maxLeaseTime
  | minLeaseTime
  | ntpServers
  | nextServer
  | uefiBootFile
  deriving DecidableEq

def DhcpOption.sorted : List DhcpOption :=
  [.bootFile, .configStanza, .defaultLeaseTime, .domainName, .domainNameServers, .domainSearch,
    .maxLeaseTime, .minLeaseTime, .ntpServers, .nextServer, .uefiBootFile]

/-- The `type` of an entry and its `option`; where this is a format, what stands before and after
its `%s`. -/
inductive OptionType where
  | integer (option : List Char)
  | quotedString (option : List Char)
  | stringReplacement (before after : List Char)
  | quotedStringList (option : List Char)
  | ipAddress (option : List Char)
  | ipAddressList (option : List Char)

/-! The stanza for PXE clients of an architecture. -/

def pxeIf : List Char :=
  "\nif substring(option vendor-class-identifier, 0, 9) = \"PXEClient\"".toList

def pxeArch : List Char := " and option PXEArch = ".toList

def pxeName : List Char := "    option bootfile-name \"".toList

def pxeBefore (arch : List Char) : List Char :=
  pxeIf ++ pxeArch ++ arch ++ [' '] ++ ['\x7b', '\n'] ++ pxeName

def pxeAfter : List Char := "\";\n\x7d\n".toList

def optionMap : DhcpOption → OptionType
  | .bootFile => .stringReplacement (pxeBefore "00:00".toList) pxeAfter
  | .configStanza => .stringReplacement [] []
  | .defaultLeaseTime => .integer "default-lease-time".toList
  | .domainName => .quotedString "option domain-name".toList
  | .domainNameServers => .ipAddressList "option domain-name-servers".toList
  | .domainSearch => .quotedStringList "option domain-search".toList
  | .maxLeaseTime => .integer "max-lease-time".toList
  | .minLeaseTime => .integer "min-lease-time".toList
  | .ntpServers => .ipAddressList "option ntp-servers".toList
  | .nextServer => .ipAddress "next-server".toList
  | .uefiBootFile => .stringReplacement (pxeBefore "00:07".toList) pxeAfter

/-! ## `FormatOption` -/

/-- The program ends with an error. -/
inductive Died where
  /-- `Can't call method "addr"`, or `Can't locate object method "addr"`. -/
  | noMethodAddr

/-- `$val->addr`. -/
def callAddr : Option Scalar → Except Died (List Char)
  | some (.address a) => .ok a.addr
  | _ => .error .noMethodAddr

def commaJoined (xs : List (List Char)) : List Char := ", ".toList.intercalate xs

def quoted (s : List Char) : List Char := '"' :: (s ++ ['"'])

/-- `s/\n/\n${indent}/g`. -/
def indented (indent s : List Char) : List Char :=
  s.flatMap fun c => if c = '\n' then '\n' :: indent else [c]

/-- The text before it is indented.  Nothing is returned of an integer that begins with no digit. -/
def formatted (perl : Perl) (type : OptionType) (val : OptionValue) : Except Died (List Char) :=
  match type with
  | .integer option =>
    match val with
    | .scalar s =>
      if s.string.head?.any Char.isDigit then
        .ok (option ++ ' ' :: (Numeral.signed (perl.toInt s) ++ [';']))
      else .ok []
    | .array _ => .ok []
  | .quotedString option => .ok (option ++ ' ' :: (quoted (val.string perl) ++ [';']))
  | .stringReplacement before after =>
    match val with
    | .array l => .ok (joined '\n' (l.map fun x => before ++ (elementString x ++ after)))
    | .scalar s => .ok (before ++ (s.string ++ after))
  | .quotedStringList option =>
    .ok (option ++ ' ' :: (commaJoined (val.elements.map fun x => quoted (elementString x)) ++ [';']))
  | .ipAddress option =>
    match val with
    | .scalar s => do
      let addr ← callAddr (some s)
      .ok (option ++ ' ' :: (addr ++ [';']))
    | .array _ => .error .noMethodAddr
  | .ipAddressList option => do
    let addrs ← val.elements.mapM callAddr
    .ok (option ++ ' ' :: (commaJoined addrs ++ [';']))

def formatOption (perl : Perl) (type : OptionType) (val : OptionValue) (indent : List Char) :
    Except Died (List Char) := do
  let ret ← formatted perl type val
  .ok (indented indent ret)

/-- The lines of the options that a property hash defines. -/
def optionLines (perl : Perl) (props : DhcpOption → Option OptionValue) (lead indent : List Char) :
    Except Died (List (List Char)) :=
  (DhcpOption.sorted.filterMap fun o => (props o).map fun v => (optionMap o, v)).mapM fun x => do
    let ret ← formatOption perl x.1 x.2 indent
    .ok (lead ++ (ret ++ ['\n']))

/-! ## When it returns -/

/-- The value has the method that is called on it. -/
def HasAddr : Option Scalar → Prop
  | some (.address _) => True
  | _ => False

instance : (x : Option Scalar) → Decidable (HasAddr x)
  | some (.address _) => inferInstanceAs (Decidable True)
  | some (.text _) => inferInstanceAs (Decidable False)
  | none => inferInstanceAs (Decidable False)

/-- The values of an option of addresses are addresses. -/
def Formats : OptionType → OptionValue → Prop
  | .ipAddress _, .scalar s => HasAddr (some s)
  | .ipAddress _, .array _ => False
  | .ipAddressList _, val => ∀ x ∈ val.elements, HasAddr x
  | _, _ => True

theorem callAddr_ok_iff : (∃ s, callAddr x = .ok s) ↔ HasAddr x := by
  rcases x with _ | t | a <;> simp [callAddr, HasAddr]

/-- What a step returned. -/
def returned {γ : Type} (x : Except Died (List γ)) : List γ := x.toOption.getD []

theorem eq_ok_iff_returned {γ : Type} {x : Except Died (List γ)} {s : List γ} :
    x = .ok s ↔ (∃ s', x = .ok s') ∧ s = returned x := by
  cases x with
  | error e => simp
  | ok s' => simp [returned, Except.toOption, eq_comm]

theorem mapM_returned_iff {α : Type} {f : α → Except Died (List Char)} {l : List α}
    {bs : List (List Char)} : l.mapM f = .ok bs ↔
      (∀ a ∈ l, ∃ s, f a = .ok s) ∧ bs = l.map fun a => returned (f a) :=
  mapM_ok_iff fun _ _ => eq_ok_iff_returned

theorem formatted_ok_iff (perl : Perl) :
    (∃ s, formatted perl type val = .ok s) ↔ Formats type val := by
  cases type with
  | integer option =>
    refine iff_of_true ?_ trivial
    cases val with
    | scalar s =>
      by_cases h : (s.string.head?.any Char.isDigit) = true
      · exact ⟨_, if_pos h⟩
      · exact ⟨_, if_neg h⟩
    | array l => exact ⟨_, rfl⟩
  | quotedString option => exact iff_of_true ⟨_, rfl⟩ trivial
  | stringReplacement before after =>
    cases val with
    | scalar s => exact iff_of_true ⟨_, rfl⟩ trivial
    | array l => exact iff_of_true ⟨_, rfl⟩ trivial
  | quotedStringList option => exact iff_of_true ⟨_, rfl⟩ trivial
  | ipAddress option =>
    cases val with
    | scalar s =>
      rw [Formats, ← callAddr_ok_iff, formatted]
      simp only [bind_ok_iff, Except.ok.injEq]
      exact ⟨fun ⟨_, addr, h, _⟩ => ⟨addr, h⟩, fun ⟨addr, h⟩ => ⟨_, addr, h, rfl⟩⟩
    | array l => simp [formatted, Formats]
  | ipAddressList option =>
    have hall (addrs : List (List Char)) : val.elements.mapM callAddr = .ok addrs ↔
        (∀ x ∈ val.elements, HasAddr x) ∧ addrs = val.elements.map fun x => returned (callAddr x) := by
      rw [mapM_returned_iff]
      simp only [callAddr_ok_iff]
    rw [Formats, formatted]
    simp only [bind_ok_iff, Except.ok.injEq, hall]
    exact ⟨fun ⟨_, _, h, _⟩ => h.1, fun h => ⟨_, _, ⟨h, rfl⟩, rfl⟩⟩

theorem formatOption_ok_iff (perl : Perl) (indent : List Char)
    : (∃ s, formatOption perl type val indent = .ok s) ↔ Formats type val := by
  rw [← formatted_ok_iff perl, formatOption]
  simp only [bind_ok_iff, Except.ok.injEq]
  exact ⟨fun ⟨_, s, h, _⟩ => ⟨s, h⟩, fun ⟨s, h⟩ => ⟨_, s, h, rfl⟩⟩

/-- All options of a property hash can be written. -/
def AllFormat (props : DhcpOption → Option OptionValue) : Prop :=
  ∀ o, ∀ v ∈ props o, Formats (optionMap o) v

theorem mem_sorted (o : DhcpOption) : o ∈ DhcpOption.sorted := by
  cases o <;> decide

theorem optionLines_ok_iff {lead : List Char} :
    (∃ lines, optionLines perl props lead indent = .ok lines) ↔ AllFormat props := by
  have hstep (x : OptionType × OptionValue) :
      (∃ s, (formatOption perl x.1 x.2 indent >>= fun ret => .ok (lead ++ (ret ++ ['\n']))) = .ok s) ↔
        Formats x.1 x.2 := by
    rw [← formatOption_ok_iff perl indent]
    constructor
    · rintro ⟨s, hs⟩
      obtain ⟨ret, hret, -⟩ := bind_ok_iff.mp hs
      exact ⟨ret, hret⟩
    · rintro ⟨ret, hret⟩
      exact ⟨_, bind_ok_iff.mpr ⟨ret, hret, rfl⟩⟩
  rw [optionLines]
  simp only [mapM_returned_iff, exists_and_left, and_iff_left (⟨_, rfl⟩ : ∃ lines, lines = _), hstep]
  constructor
  · intro h o v hv
    exact h (optionMap o, v) (List.mem_filterMap.mpr ⟨o, mem_sorted o, by rw [hv]; rfl⟩)
  · intro h x hx
    obtain ⟨o, -, ho⟩ := List.mem_filterMap.mp hx
    obtain ⟨v, hv, rfl⟩ := Option.map_eq_some_iff.mp ho
    exact h o v hv

/-! ## What it returns -/

theorem braced_joined (h : ∀ x ∈ xs, Braced x) : Braced (joined '\n' xs) :=
  Balanced.intercalate (by decide) h

theorem braced_commaJoined (h : ∀ x ∈ xs, Braced x) :
    Braced (commaJoined xs) :=
  Balanced.intercalate (by decide) h

theorem Plain.braced_quoted (h : Plain s) : Braced (quoted s) :=
  (by decide : Braced ['"']).append (h.braced.append (by decide : Braced ['"']))

theorem plain_signed (n : ℤ) : Plain (Numeral.signed n) := by
  rw [Numeral.signed]
  split
  · exact (by decide : Plain ['-']).append (plain_toDigits _)
  · exact plain_toDigits _

theorem braced_indented (hi : Braced indent) (hs : Braced s) :
    Braced (indented indent s) := by
  have hchar : ∀ c ∈ s, ∀ k, depth '\x7b' '\x7d' (if c = '\n' then '\n' :: indent else [c]) k =
      depth '\x7b' '\x7d' [c] k := by
    intro c _ k
    split
    next h =>
      have hbreak : Braced ['\n'] := by decide
      rw [h, hbreak.depth_eq, ← List.singleton_append, (hbreak.append hi).depth_eq]
    next => rfl
  rw [Braced, Nesting.Balanced, indented, depth_flatMap hchar]
  exact hs

/-- A format is balanced when nothing in the place of `%s` is. -/
theorem braced_filled {before after x : List Char} (h : Braced (before ++ after))
    (hb : ∃ k, depth '\x7b' '\x7d' before 0 = some k) (hx : Braced x) :
    Braced (before ++ (x ++ after)) := by
  obtain ⟨k, hk⟩ := hb
  rw [Braced, Nesting.Balanced, depth_append, hk, Option.bind_some] at h ⊢
  rw [depth_append, hx.depth_eq, Option.bind_some, h]

/-- The texts of an entry of the map are balanced, those of a format together. -/
def OptionType.IsBraced : OptionType → Prop
  | .stringReplacement before after =>
    Braced (before ++ after) ∧ ∃ k, depth '\x7b' '\x7d' before 0 = some k
  | .integer option => Braced option
  | .quotedString option => Braced option
  | .quotedStringList option => Braced option
  | .ipAddress option => Braced option
  | .ipAddressList option => Braced option

theorem depth_opening {a c : List Char} (ha : Braced a) (hc : Braced c) (n : ℕ) :
    depth '\x7b' '\x7d' (a ++ ['\x7b', '\n'] ++ c) n = some (n + 1) := by
  rw [depth_append, depth_append, ha.depth_eq, Option.bind_some, depth_cons_left,
    (by decide : Braced ['\n']).depth_eq, Option.bind_some, hc.depth_eq]

theorem depth_pxeBefore {arch : List Char} (h : Plain arch) (n : ℕ) :
    depth '\x7b' '\x7d' (pxeBefore arch) n = some (n + 1) := by
  have hif : Braced pxeIf := balanced_of_notMem (by decide) (by decide)
  have harch : Braced pxeArch := balanced_of_notMem (by decide) (by decide)
  have hname : Braced pxeName := balanced_of_notMem (by decide) (by decide)
  exact depth_opening (((hif.append harch).append h.braced).append (by decide)) hname n

theorem isBraced_pxe {arch : List Char} (h : Plain arch) :
    (OptionType.stringReplacement (pxeBefore arch) pxeAfter).IsBraced := by
  refine ⟨?_, 1, depth_pxeBefore h 0⟩
  rw [Braced, Nesting.Balanced, depth_append, depth_pxeBefore h, Option.bind_some]
  rfl

theorem isBraced_optionMap (o : DhcpOption) : (optionMap o).IsBraced := by
  cases o with
  | bootFile => exact isBraced_pxe (by decide)
  | uefiBootFile => exact isBraced_pxe (by decide)
  | configStanza => exact ⟨rfl, 0, rfl⟩
  | _ => exact balanced_of_notMem (by decide) (by decide)

theorem plain_of_callAddr (h : callAddr x = .ok s) : Plain s := by
  rcases x with _ | t | a
  · simp [callAddr] at h
  · simp [callAddr] at h
  · rw [callAddr, Except.ok.injEq] at h
    exact h ▸ plain_addr a

theorem braced_formatted (htype : type.IsBraced) (h : formatted perl type val = .ok s)
    : Braced s := by
  have hline {option x : List Char} (ho : Braced option) (hx : Braced x) :
      Braced (option ++ ' ' :: (x ++ [';'])) :=
    ho.append ((by decide : Braced [' ']).append (hx.append (by decide)))
  cases type with
  | integer option =>
    cases val with
    | scalar v =>
      change (if v.string.head?.any Char.isDigit then _ else _) = _ at h
      by_cases hdigit : (v.string.head?.any Char.isDigit) = true
      · rw [if_pos hdigit] at h
        exact Except.ok.inj h ▸ hline htype (plain_signed _).braced
      · rw [if_neg hdigit] at h
        exact Except.ok.inj h ▸ rfl
    | array l => exact Except.ok.inj h ▸ rfl
  | quotedString option =>
    exact Except.ok.inj h ▸ hline htype (val.plain_string perl).braced_quoted
  | stringReplacement before after =>
    cases val with
    | scalar v => exact Except.ok.inj h ▸ braced_filled htype.1 htype.2 v.plain_string.braced
    | array l =>
      refine Except.ok.inj h ▸ braced_joined fun x hx => ?_
      obtain ⟨v, -, rfl⟩ := List.mem_map.mp hx
      exact braced_filled htype.1 htype.2 (plain_elementString v).braced
  | quotedStringList option =>
    refine Except.ok.inj h ▸ hline htype (braced_commaJoined fun x hx => ?_)
    obtain ⟨v, -, rfl⟩ := List.mem_map.mp hx
    exact (plain_elementString v).braced_quoted
  | ipAddress option =>
    cases val with
    | scalar v =>
      obtain ⟨addr, haddr, h⟩ := bind_ok_iff.mp h
      exact Except.ok.inj h ▸ hline htype (plain_of_callAddr haddr).braced
    | array l => cases h
  | ipAddressList option =>
    obtain ⟨addrs, haddrs, h⟩ := bind_ok_iff.mp h
    obtain ⟨hok, rfl⟩ := mapM_returned_iff.mp haddrs
    refine Except.ok.inj h ▸ hline htype (braced_commaJoined fun x hx => ?_)
    obtain ⟨v, hv, rfl⟩ := List.mem_map.mp hx
    exact (plain_of_callAddr (eq_ok_iff_returned.mpr ⟨hok v hv, rfl⟩)).braced

theorem braced_formatOption (htype : type.IsBraced) (hindent : Braced indent)
    (h : formatOption perl type val indent = .ok s) : Braced s := by
  obtain ⟨ret, hret, h⟩ := bind_ok_iff.mp h
  exact Except.ok.inj h ▸ braced_indented hindent (braced_formatted htype hret)

theorem braced_optionLines {lead : List Char} {lines : List (List Char)} (hlead : Braced lead)
    (hindent : Braced indent) (h : optionLines perl props lead indent = .ok lines) :
    ∀ line ∈ lines, Braced line := by
  obtain ⟨hok, rfl⟩ := mapM_returned_iff.mp h
  intro line hline
  obtain ⟨x, hx, rfl⟩ := List.mem_map.mp hline
  obtain ⟨o, -, ho⟩ := List.mem_filterMap.mp hx
  obtain ⟨v, -, rfl⟩ := Option.map_eq_some_iff.mp ho
  obtain ⟨s, hs⟩ := hok _ hx
  rw [hs]
  obtain ⟨ret, hret, h⟩ := bind_ok_iff.mp hs
  have hbraced := braced_formatOption (isBraced_optionMap o) hindent hret
  exact Except.ok.inj h ▸ hlead.append (hbraced.append (by decide))

end JazzHands.Dhcpgen

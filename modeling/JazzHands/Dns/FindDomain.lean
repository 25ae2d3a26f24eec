import JazzHands.Dns.Record
import JazzHands.Postgres.Regexp

/-!
# The zone of a name

`dns_utils.find_dns_domain` and `dns_utils.find_dns_domain_from_fqdn`.

Both take the longest of the rows that `LIKE` finds, in which an underscore stands for any character
(`likeBelow_iff`).  Which one of several longest rows comes first is left open.
-/

namespace JazzHands.Dns

open Library Postgres

/-- A row of the result. -/
structure FoundDomain where
  dnsName : String
  dnsDomainName : String
  dnsDomainId : ℕ
  deriving DecidableEq

/-- `[a-zA-Z0-9_.-]`. -/
def isNameChar (c : Char) : Bool := c.isAlphanum || c == '_' || c == '.' || c == '-'

/-- `fqdn ~ '^[^.][a-zA-Z0-9_.-]+[^.]$'`. -/
def isName (fqdn : String) : Bool :=
  match fqdn.toList with
  | [] => false
  | c :: s => c != '.' && !s.dropLast.isEmpty && s.dropLast.all isNameChar && s.getLast? != some '.'

/-- The rows that may be the first one in the order of `length(dns_domain_name) DESC`. -/
def longestRows (rows : List DnsDomain) : List DnsDomain :=
  rows.filter fun d => ∀ e ∈ rows, e.dnsDomainName.length ≤ d.dnsDomainName.length

/-- `fqdn LIKE ('%.' || dns_domain_name)`. -/
def likeBelow (fqdn : String) (d : DnsDomain) : Bool :=
  like ('%' :: '.' :: d.dnsDomainName.toList) fqdn.toList

def findDnsDomain (first : FirstRow DnsDomain) (dnsDomain : List DnsDomain) (fqdn : String) :
    Result (Option FoundDomain) := do
  raiseIf (isName fqdn = false) .raiseException "% is not a valid DNS name"
  let rows := dnsDomain.filter fun d => likeBelow fqdn d = true
  .ok ((first.pick (longestRows rows)).map fun d =>
    ⟨regexpReplace fqdn ("." ++ d.dnsDomainName ++ "$") "" false, d.dnsDomainName, d.dnsDomainId⟩)

def findDnsDomainFromFqdn (first : FirstRow DnsDomain) (dnsDomain : List DnsDomain)
    (fqdn : String) : Result (Option FoundDomain) := do
  raiseIf (isName fqdn = false) .raiseException "% is not a valid DNS name"
  let rows := dnsDomain.filter fun d => likeBelow fqdn d = true ∨ fqdn = d.dnsDomainName
  .ok ((first.pick (longestRows rows)).map fun d =>
    ⟨regexpReplace fqdn ("\\.?" ++ d.dnsDomainName ++ "$") "" false, d.dnsDomainName,
      d.dnsDomainId⟩)

/-! ## What is to be found -/

/-- The zone is a proper suffix of the name, after a dot. -/
def IsBelow (fqdn zone : String) : Prop := ∃ u, u ≠ [] ∧ fqdn.toList = u ++ '.' :: zone.toList

/-- The result is the longest of the zones, with what stands before it. -/
structure Found (isZone : String → Prop) (dnsDomain : List DnsDomain) (fqdn : String)
    (result : Option FoundDomain) : Prop where
  isSome_iff : result.isSome = true ↔ ∃ d ∈ dnsDomain, isZone d.dnsDomainName
  row : ∀ r ∈ result, ∃ d ∈ dnsDomain, d.dnsDomainName = r.dnsDomainName ∧
    d.dnsDomainId = r.dnsDomainId
  zone : ∀ r ∈ result, isZone r.dnsDomainName
  longest : ∀ r ∈ result, ∀ d ∈ dnsDomain, isZone d.dnsDomainName →
    d.dnsDomainName.length ≤ r.dnsDomainName.length
  name : ∀ r ∈ result, r.dnsName ≠ "" → r.dnsName ++ "." ++ r.dnsDomainName = fqdn
  apex : ∀ r ∈ result, r.dnsName = "" ↔ r.dnsDomainName = fqdn

/-- Letters, digits, `-`, `_` and dots. -/
def IsZoneName (zone : String) : Prop := ∀ c ∈ zone.toList, isNameChar c = true

/-- The name ends like the zone, but for underscores of the zone that stand for other characters. -/
def LooksBelow (fqdn zone : String) : Prop :=
  ∃ u v, fqdn.toList = u ++ '.' :: v ∧ AgreesExceptUnderscores zone.toList v ∧ zone.toList ≠ v

variable {fqdn zone : String} {u v s : List Char} {c : Char} {dnsDomain rows : List DnsDomain}
  {d : DnsDomain} {first : FirstRow DnsDomain} {p : SequencePattern Char}

/-! ## Zones in expressions -/

theorem ordinary_of_isNameChar (h : isNameChar c = true) :
    (IsOrdinary c ∨ c = '.') ∧ c ≠ '%' ∧ c ≠ '\\' := by
  have hne : ∀ d, isNameChar d = false → c ≠ d := fun d hd heq => by
    rw [heq, hd] at h
    cases h
  have hspecial : (['\\', '.', '*', '+', '?', '(', ')', '[', ']', '\x7b', '\x7d', '|', '^', '$'].all
      fun d => d == '.' || !isNameChar d) = true := by decide
  refine ⟨?_, hne _ (by decide), hne _ (by decide)⟩
  by_cases hdot : c = '.'
  · exact .inr hdot
  · refine .inl fun hmem => ?_
    have hc := List.all_eq_true.mp hspecial c hmem
    simp [hdot, h] at hc

theorem spells_text (s : List Char) : Spells (s.map (textItem false)) s := by
  induction s with
  | nil => exact .nil
  | cons c s ih =>
    refine .take ?_ ih
    unfold textItem
    split
    · rfl
    · exact decide_eq_true rfl

theorem optional_textItem (c : Char) : (textItem false c).optional = false := by
  unfold textItem
  split <;> rfl

theorem compile_zone (hzone : IsZoneName zone) :
    compile false ("." ++ zone ++ "$") =
      some ⟨false, anyItem :: zone.toList.map (textItem false), true⟩ := by
  have hl : ∀ c ∈ zone.toList, IsOrdinary c ∨ c = '.' := fun c hc =>
    (ordinary_of_isNameChar (hzone c hc)).1
  have htext : ("." ++ zone ++ "$").toList = '.' :: (zone.toList ++ ['$']) := by simp
  rw [compile, htext, if_neg (by simp), parse_any, parse_text hl, parse_end]
  simp

theorem compile_optional (hzone : IsZoneName zone) :
    compile false ("\\.?" ++ zone ++ "$") =
      some ⟨false, ⟨(charItem false '.').takes, true⟩ :: zone.toList.map (textItem false), true⟩ := by
  have hl : ∀ c ∈ zone.toList, IsOrdinary c ∨ c = '.' := fun c hc =>
    (ordinary_of_isNameChar (hzone c hc)).1
  have htext : ("\\.?" ++ zone ++ "$").toList = '\\' :: '.' :: '?' :: (zone.toList ++ ['$']) := by
    simp
  rw [compile, htext, if_neg (by simp), parse_dot, parse_optional rfl, parse_text hl, parse_end]
  simp

/-! ## The host part -/

theorem regexpReplace_of_search {source pattern : String} (hp : compile false pattern = some p)
    (hs : p.search source.toList = some (u, [])) :
    regexpReplace source pattern "" false = String.ofList u := by
  rw [regexpReplace, hp, Option.bind_some, hs]
  simp [expand]

theorem length_of_spells_text {w : List Char} (h : Spells (s.map (textItem false)) w) :
    w.length = s.length := by
  refine (h.length_eq fun i hi => ?_).trans (List.length_map _)
  obtain ⟨c, -, rfl⟩ := List.mem_map.mp hi
  exact optional_textItem c

theorem regexpReplace_below (hzone : IsZoneName zone) (h : fqdn.toList = u ++ '.' :: zone.toList) :
    regexpReplace fqdn ("." ++ zone ++ "$") "" false = String.ofList u := by
  have hspells : Spells (anyItem :: zone.toList.map (textItem false)) ('.' :: zone.toList) :=
    .take rfl (spells_text _)
  have hsome := SequencePattern.isSome_search_of_spells
    (p := ⟨false, anyItem :: zone.toList.map (textItem false), true⟩) (u := u) (r := []) hspells
    (by simp) (fun _ => rfl)
  rw [List.append_nil, ← h] at hsome
  obtain ⟨⟨u', r⟩, hsearch⟩ := Option.isSome_iff_exists.mp hsome
  obtain ⟨w, hfqdn, hw, -, hend⟩ := SequencePattern.search_eq_some hsearch
  obtain rfl : r = [] := hend rfl
  have hlen : w.length = zone.toList.length + 1 := by
    cases hw with
    | take _ hw => rw [List.length_cons, length_of_spells_text hw]
    | skip hopt _ => cases hopt
  have hu : u = u' := by
    rw [h, List.append_nil] at hfqdn
    exact List.append_inj_left' hfqdn (by simp [hlen])
  rw [hu]
  exact regexpReplace_of_search (compile_zone hzone) hsearch

theorem regexpReplace_optional (hzone : IsZoneName zone)
    (h : fqdn.toList = u ++ '.' :: zone.toList ∨ (u = [] ∧ fqdn = zone)) :
    regexpReplace fqdn ("\\.?" ++ zone ++ "$") "" false = String.ofList u := by
  let p : SequencePattern Char :=
    ⟨false, ⟨(charItem false '.').takes, true⟩ :: zone.toList.map (textItem false), true⟩
  obtain ⟨w, hfqdn, hw⟩ : ∃ w, fqdn.toList = u ++ w ++ [] ∧ Spells p.items w := by
    rcases h with h | ⟨rfl, rfl⟩
    · exact ⟨'.' :: zone.toList, by rw [h, List.append_nil], .take rfl (spells_text _)⟩
    · exact ⟨fqdn.toList, by simp, .skip rfl (spells_text _)⟩
  have hsome := SequencePattern.isSome_search_of_spells (r := []) hw (show p.atStart = true → u = []
    from fun hstart => by cases hstart) (fun _ => rfl)
  rw [← hfqdn] at hsome
  obtain ⟨⟨u', r⟩, hsearch⟩ := Option.isSome_iff_exists.mp hsome
  have hle : u'.length ≤ u.length := SequencePattern.search_length_le hsearch hfqdn hw fun _ => rfl
  obtain ⟨w', hfqdn', hw', -, hend⟩ := SequencePattern.search_eq_some hsearch
  obtain rfl : r = [] := hend rfl
  have hu : u = u' := by
    rcases h with h | ⟨rfl, -⟩
    · -- the match has at most the dot and the zone
      have hlen : w'.length ≤ zone.toList.length + 1 := by
        cases hw' with
        | take _ hw' => rw [List.length_cons, length_of_spells_text hw']
        | skip _ hw' =>
          rw [length_of_spells_text hw']
          exact Nat.le_succ _
      rw [h, List.append_nil] at hfqdn'
      have hlens := congrArg List.length hfqdn'
      rw [List.length_append, List.length_append, List.length_cons] at hlens
      exact List.append_inj_left hfqdn' (by omega)
    · exact (List.eq_nil_of_length_eq_zero (Nat.le_zero.mp hle)).symm
  rw [hu]
  exact regexpReplace_of_search (compile_optional hzone) hsearch

/-! ## Names that match -/

theorem ne_nil_of_isName (hname : isName fqdn = true) (h : fqdn.toList = u ++ '.' :: s) :
    u ≠ [] := by
  rintro rfl
  rw [isName, h] at hname
  simp at hname

/-- What `LIKE` finds is below the zone or looks so. -/
theorem likeBelow_iff (hname : isName fqdn = true) (hzone : IsZoneName d.dnsDomainName) :
    likeBelow fqdn d = true ↔ IsBelow fqdn d.dnsDomainName ∨ LooksBelow fqdn d.dnsDomainName := by
  have hplain : ∀ c ∈ d.dnsDomainName.toList, c ≠ '%' ∧ c ≠ '\\' := fun c hc =>
    (ordinary_of_isNameChar (hzone c hc)).2
  have hdot : ∀ c ∈ '.' :: d.dnsDomainName.toList, c ≠ '%' ∧ c ≠ '\\' := fun c hc => by
    rcases List.mem_cons.mp hc with rfl | hc
    · decide
    · exact hplain c hc
  rw [likeBelow, like_percent_iff]
  simp only [like_iff hdot]
  constructor
  · rintro ⟨u, v, hfqdn, hagrees⟩
    cases hagrees with
    | @cons _ c _ v hc hv =>
      obtain rfl := hc.resolve_left (by decide)
      by_cases heq : d.dnsDomainName.toList = v
      · exact .inl ⟨u, ne_nil_of_isName hname hfqdn, heq ▸ hfqdn⟩
      · exact .inr ⟨u, v, hfqdn, hv, heq⟩
  · rintro (⟨u, -, hfqdn⟩ | ⟨u, v, hfqdn, hv, -⟩)
    · exact ⟨u, _, hfqdn, .cons (.inr rfl) (agreesExceptUnderscores_self _)⟩
    · exact ⟨u, _, hfqdn, .cons (.inr rfl) hv⟩

theorem LooksBelow.not_isBelow (h : LooksBelow fqdn zone) : ¬ IsBelow fqdn zone := by
  obtain ⟨u, v, hfqdn, hv, hne⟩ := h
  rintro ⟨u', -, hfqdn'⟩
  have hlen : zone.toList.length = v.length := hv.length_eq
  rw [hfqdn] at hfqdn'
  have hinj := List.append_inj_right' hfqdn' (by simp [hlen])
  exact hne (List.cons.inj hinj).2.symm

theorem eq_of_agrees (h : AgreesExceptUnderscores s v) (hs : '_' ∉ s) : s = v := by
  induction h with
  | nil => rfl
  | cons hc _ ih =>
    rw [List.mem_cons, not_or] at hs
    rw [hc.resolve_left fun heq => hs.1 heq.symm, ih hs.2]

theorem not_looksBelow (h : '_' ∉ zone.toList) : ¬ LooksBelow fqdn zone := by
  rintro ⟨u, v, -, hv, hne⟩
  exact hne (eq_of_agrees hv h)

/-! ## The longest row -/

variable {isZone looks : String → Prop} {rowOf : DnsDomain → FoundDomain}

theorem mem_longestRows : d ∈ longestRows rows ↔
    d ∈ rows ∧ ∀ e ∈ rows, e.dnsDomainName.length ≤ d.dnsDomainName.length := by
  rw [longestRows, List.mem_filter, decide_eq_true_iff]

theorem exists_longest (h : rows ≠ []) : ∃ d, d ∈ longestRows rows := by
  obtain ⟨d, hd⟩ : ∃ d, rows.argmax (fun d => d.dnsDomainName.length) = some d :=
    Option.ne_none_iff_exists'.mp (mt List.argmax_eq_none.mp h)
  exact ⟨d, mem_longestRows.mpr ⟨List.argmax_mem hd, fun e he =>
    List.le_of_mem_argmax (f := fun d : DnsDomain => d.dnsDomainName.length) he hd⟩⟩

/-- **The longest row is right, whichever it is,** when every other one is shorter than a zone. -/
theorem found_longest_iff (hsplit : ∀ d, d ∈ rows ↔ d ∈ dnsDomain ∧
      (isZone d.dnsDomainName ∨ looks d.dnsDomainName))
    (hdisjoint : ∀ zone, looks zone → ¬ isZone zone)
    (hrow : ∀ d, (rowOf d).dnsDomainName = d.dnsDomainName ∧
      (rowOf d).dnsDomainId = d.dnsDomainId)
    (hname : ∀ d ∈ rows, isZone d.dnsDomainName →
      ((rowOf d).dnsName ≠ "" → (rowOf d).dnsName ++ "." ++ d.dnsDomainName = fqdn) ∧
        ((rowOf d).dnsName = "" ↔ d.dnsDomainName = fqdn)) :
    (∀ first : FirstRow DnsDomain,
      Found isZone dnsDomain fqdn ((first.pick (longestRows rows)).map rowOf)) ↔
      ∀ d ∈ dnsDomain, looks d.dnsDomainName → ∃ e ∈ dnsDomain, isZone e.dnsDomainName ∧
        d.dnsDomainName.length < e.dnsDomainName.length := by
  constructor
  · intro hfound d hd hlooks
    by_contra hnone
    have hzones : ∀ e ∈ dnsDomain, isZone e.dnsDomainName →
        e.dnsDomainName.length ≤ d.dnsDomainName.length := fun e he hzone =>
      Nat.le_of_not_lt fun hlt => hnone ⟨e, he, hzone, hlt⟩
    have hrows : d ∈ rows := (hsplit d).mpr ⟨hd, .inr hlooks⟩
    -- a longest row that is no zone
    obtain ⟨x, hx, hxlooks⟩ : ∃ x ∈ longestRows rows, looks x.dnsDomainName := by
      obtain ⟨x, hx⟩ := exists_longest (List.ne_nil_of_mem hrows)
      obtain ⟨hxrows, hmax⟩ := mem_longestRows.mp hx
      obtain ⟨hxmem, hzone | hxlooks⟩ := (hsplit x).mp hxrows
      · refine ⟨d, mem_longestRows.mpr ⟨hrows, fun e he => ?_⟩, hlooks⟩
        exact (hmax e he).trans (hzones x hxmem hzone)
      · exact ⟨x, hx, hxlooks⟩
    have hpick : (FirstRow.preferring x).pick (longestRows rows) = some x := if_pos hx
    have hzone := (hfound (FirstRow.preferring x)).zone (rowOf x) (by rw [hpick]; rfl)
    rw [(hrow x).1] at hzone
    exact hdisjoint _ hxlooks hzone
  · intro hshorter first
    cases hpick : first.pick (longestRows rows) with
    | none =>
      have hnone : ∀ d ∈ dnsDomain, ¬ isZone d.dnsDomainName := fun d hd hzone => by
        obtain ⟨x, hx⟩ := exists_longest (List.ne_nil_of_mem ((hsplit d).mpr ⟨hd, .inl hzone⟩))
        rw [first.ne_nil hpick] at hx
        exact List.not_mem_nil hx
      have hno : ¬ ∃ d ∈ dnsDomain, isZone d.dnsDomainName := by
        rintro ⟨d, hd, hzone⟩
        exact hnone d hd hzone
      refine ⟨iff_of_false (by simp) hno, ?_, ?_, ?_, ?_, ?_⟩ <;> simp
    | some d =>
      obtain ⟨hrows, hmax⟩ := mem_longestRows.mp (first.mem hpick)
      obtain ⟨hd, hcases⟩ := (hsplit d).mp hrows
      have hzone : isZone d.dnsDomainName := by
        refine hcases.resolve_right fun hlooks => ?_
        obtain ⟨e, he, hezone, hlt⟩ := hshorter d hd hlooks
        exact absurd (hmax e ((hsplit e).mpr ⟨he, .inl hezone⟩)) (by omega)
      have hr := hrow d
      have hn := hname d hrows hzone
      have hlongest : ∀ e ∈ dnsDomain, isZone e.dnsDomainName →
          e.dnsDomainName.length ≤ d.dnsDomainName.length := fun e he hezone =>
        hmax e ((hsplit e).mpr ⟨he, .inl hezone⟩)
      rw [Option.map_some]
      have hall : ∀ P : FoundDomain → Prop, P (rowOf d) → ∀ r ∈ some (rowOf d), P r :=
        fun P hP r hmem => Option.some.inj hmem ▸ hP
      refine ⟨iff_of_true rfl ⟨d, hd, hzone⟩, hall _ ⟨d, hd, hr.1.symm, hr.2.symm⟩, hall _ ?_,
        hall _ ?_, hall _ ?_, hall _ ?_⟩
      · rwa [hr.1]
      · rwa [hr.1]
      · rw [hr.1]
        exact hn.1
      · rw [hr.1]
        exact hn.2

/-! ## The two functions -/

theorem toList_eq_nil : fqdn = "" ↔ fqdn.toList = [] := by
  rw [← String.toList_inj]
  rfl

theorem name_below (hu : u ≠ []) (h : fqdn.toList = u ++ '.' :: zone.toList) :
    (String.ofList u ≠ "" → String.ofList u ++ "." ++ zone = fqdn) ∧
      (String.ofList u = "" ↔ zone = fqdn) := by
  have hne : String.ofList u ≠ "" := fun heq => hu (by
    rw [toList_eq_nil, String.toList_ofList] at heq
    exact heq)
  refine ⟨fun _ => ?_, iff_of_false hne fun heq => ?_⟩
  · rw [← String.toList_inj, h]
    simp
  · rw [← heq] at h
    have hlen := congrArg List.length h
    rw [List.length_append, List.length_cons] at hlen
    omega

/-- **The zone of a name** is found, by both functions, when every zone that the name matches
through an underscore only is shorter than a zone of the name. -/
theorem findDnsDomain_iff (dnsDomain : List DnsDomain) (fqdn : String) (hname : isName fqdn = true)
    (hzones : ∀ d ∈ dnsDomain, IsZoneName d.dnsDomainName) :
    ((∀ first, ∃ result, findDnsDomain first dnsDomain fqdn = .ok result ∧
      Found (IsBelow fqdn) dnsDomain fqdn result) ↔
        ∀ d ∈ dnsDomain, LooksBelow fqdn d.dnsDomainName → ∃ e ∈ dnsDomain,
          IsBelow fqdn e.dnsDomainName ∧ d.dnsDomainName.length < e.dnsDomainName.length) ∧
    ((∀ first, ∃ result, findDnsDomainFromFqdn first dnsDomain fqdn = .ok result ∧
      Found (fun zone => IsBelow fqdn zone ∨ zone = fqdn) dnsDomain fqdn result) ↔
        ∀ d ∈ dnsDomain, LooksBelow fqdn d.dnsDomainName → ∃ e ∈ dnsDomain,
          (IsBelow fqdn e.dnsDomainName ∨ e.dnsDomainName = fqdn) ∧
            d.dnsDomainName.length < e.dnsDomainName.length) := by
  have hraise : raiseIf (isName fqdn = false) .raiseException "% is not a valid DNS name" =
      .ok () := raiseIf_eq_ok.mpr (by rw [hname]; decide)
  have hok : ∀ {x : Option FoundDomain} {P : Option FoundDomain → Prop},
      (∃ result, (.ok x : Result (Option FoundDomain)) = .ok result ∧ P result) ↔ P x := by
    intro x P
    constructor
    · rintro ⟨_, heq, hP⟩
      exact Except.ok.inj heq ▸ hP
    · exact fun hP => ⟨x, rfl, hP⟩
  have hbelow : ∀ first, findDnsDomain first dnsDomain fqdn = .ok _ := fun first => by
    rw [findDnsDomain, hraise]
    rfl
  have hfqdn : ∀ first, findDnsDomainFromFqdn first dnsDomain fqdn = .ok _ := fun first => by
    rw [findDnsDomainFromFqdn, hraise]
    rfl
  constructor
  · simp only [hbelow, hok]
    refine found_longest_iff (fun d => ?_) (fun _ => LooksBelow.not_isBelow) (fun _ => ⟨rfl, rfl⟩)
      fun d hd hzone => ?_
    · rw [List.mem_filter, decide_eq_true_iff]
      exact and_congr_right fun hd => likeBelow_iff hname (hzones d hd)
    · obtain ⟨u, hu, hsuffix⟩ := hzone
      dsimp only
      rw [regexpReplace_below (hzones d (List.mem_of_mem_filter hd)) hsuffix]
      exact name_below hu hsuffix
  · simp only [hfqdn, hok]
    refine found_longest_iff (fun d => ?_) (fun zone hlooks => ?_) (fun _ => ⟨rfl, rfl⟩)
      fun d hd hzone => ?_
    · rw [List.mem_filter, decide_eq_true_iff]
      refine and_congr_right fun hd => ?_
      rw [likeBelow_iff hname (hzones d hd), eq_comm, or_right_comm]
    · rintro (hbelow | rfl)
      · exact hlooks.not_isBelow hbelow
      · obtain ⟨u, v, hsuffix, hv, -⟩ := hlooks
        have hlen := congrArg List.length hsuffix
        rw [List.length_append, List.length_cons, hv.length_eq] at hlen
        omega
    · dsimp only
      rcases hzone with ⟨u, hu, hsuffix⟩ | heq
      · rw [regexpReplace_optional (hzones d (List.mem_of_mem_filter hd)) (.inl hsuffix)]
        exact name_below hu hsuffix
      · rw [regexpReplace_optional (hzones d (List.mem_of_mem_filter hd)) (.inr ⟨rfl, heq.symm⟩)]
        exact ⟨fun hne => absurd rfl hne, iff_of_true rfl heq⟩

/-- Two zones, one below the other. -/
def orgZones : List DnsDomain := [⟨1, "example.org", none⟩, ⟨2, "lab.example.org", some 1⟩]

theorem findDnsDomain_lab : ∃ result,
    findDnsDomain (FirstRow.listed DnsDomain) orgZones "www.lab.example.org" = .ok result ∧
      Found (IsBelow "www.lab.example.org") orgZones "www.lab.example.org" result := by
  have hnames : ∀ d ∈ orgZones, d.dnsDomainName.toList.all isNameChar = true ∧
      '_' ∉ d.dnsDomainName.toList := by decide +kernel
  refine (findDnsDomain_iff orgZones "www.lab.example.org" (by decide +kernel) fun d hd =>
    List.all_eq_true.mp (hnames d hd).1).1.mpr (fun d hd hlooks => ?_) _
  exact absurd hlooks (not_looksBelow (hnames d hd).2)

/-- A zone with an underscore. -/
def underscoreZones : List DnsDomain := [⟨1, "my_zone.org", none⟩]

/-- A name in another zone. -/
theorem findDnsDomain_underscore :
    findDnsDomain (FirstRow.listed DnsDomain) underscoreZones "www.my-zone.org" =
      .ok (some ⟨"www.my-zone.org", "my_zone.org", 1⟩) ∧
    findDnsDomainFromFqdn (FirstRow.listed DnsDomain) underscoreZones "www.my-zone.org" =
      .ok (some ⟨"www.my-zone.org", "my_zone.org", 1⟩) := by
  decide +kernel

end JazzHands.Dns

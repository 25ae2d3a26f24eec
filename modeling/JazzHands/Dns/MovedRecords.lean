import JazzHands.Library.Runs
import JazzHands.Dns.AddDomain
import JazzHands.Dns.Rendering

/-!
# Which records go into a new zone

The zone above a new one is found label by label (`labelLoop_eq_some`, by induction on the labels).
The records to be moved are those that a regular expression matches, which is compiled here: it asks
for a backslash (`compile_moveRe`), and no checked name has one.
-/

namespace JazzHands.Dns

open Library Postgres Tables

/-- Labels that have a character, and none with a meaning in regular expressions. -/
structure ZoneName where
  labels : List String
  labels_ne_nil : labels ≠ []
  nonempty : ∀ l ∈ labels, l ≠ ""
  ordinary : ∀ l ∈ labels, ∀ c ∈ l.toList, IsOrdinary c

/-- The labels with dots between them. -/
def dotted (labels : List String) : String := ".".intercalate labels

def ZoneName.text (z : ZoneName) : String := dotted z.labels

/-- The zone with the longest name among those above `z`. -/
def NearestAncestor (zones : List DnsZone) (z : ZoneName) (p : DnsZone) : Prop :=
  p ∈ zones ∧ ∃ k, 0 < k ∧ k < z.labels.length ∧ p.dnsDomainName = dotted (z.labels.drop k) ∧
    ∀ j, 0 < j → j < k → ∀ q ∈ zones, q.dnsDomainName ≠ dotted (z.labels.drop j)

/-- The fully qualified name of a record. -/
def fqdn (db : Db) (r : DnsRecord) : String :=
  let zone := ((findDomain db.dnsDomain r.dnsDomainId).map (·.dnsDomainName)).getD ""
  match shownName db.dnsRecord r with
  | none => zone
  | some name => name ++ "." ++ zone

/-- The name is `z`, or ends in `.z`, in either case. -/
def LiesIn (name z : String) : Prop :=
  lower name = lower z ∨ ("." ++ lower z).toList <:+ (lower name).toList
  deriving Decidable

/-- A record of the zone above `z` with a name in `z`. -/
def ToMove (t : Tables) (z : ZoneName) (r : DnsRecord) : Prop :=
  (∃ p, NearestAncestor t.dnsDomain z p ∧ r.dnsDomainId = p.dnsDomainId) ∧
    LiesIn (fqdn t.db r) z.text

/-- Exactly the records of the zone above with names in `z` are moved to the new zone, under the same
full names, and the others stay as they are. -/
structure MovesRecords (t t' : Tables) (z : ZoneName) (domainId : ℕ) : Prop where
  moved : ∀ r ∈ t.dnsRecord, ToMove t z r →
    ∃ r', findRecord t'.dnsRecord r.dnsRecordId = some r' ∧ r'.dnsDomainId = domainId ∧
      lower (fqdn t'.db r') = lower (fqdn t.db r) ∧
      (lower (fqdn t.db r) = lower z.text → r'.dnsName = none)
  kept : ∀ r ∈ t.dnsRecord, ¬ ToMove t z r → findRecord t'.dnsRecord r.dnsRecordId = some r

/-- Names with the characters that `dns_record_check_name` lets through. -/
def NamesChecked (t : List DnsRecord) : Prop :=
  ∀ r ∈ t, ∀ name ∈ r.dnsName, ∀ c ∈ name.toList, c.isAlphanum = true ∨ c ∈ ['-', '.', '*', '_']

variable {z : ZoneName} {zones : List DnsZone} {p : DnsZone} {srv : Server} {t t' : Tables}
  {done rest ls : List String} {elem sofar parentZone shortName : String} {s : List Char}
  {acc : List (Item Char)} {db : Db} {r : DnsRecord} {op : Op} {given new : DnsRecord}

/-! ## The names are checked -/

/-- The name of the row that is written is checked, or was there. -/
theorem Written.nameChecked {first : FirstRow (ℕ × ℕ)} (h : Written first db op given new)
    (hfires : op.Fires [.dnsName, .shouldGeneratePtr]) :
    ∀ name ∈ new.dnsName, ∀ c ∈ name.toList, c.isAlphanum = true ∨ c ∈ ['-', '.', '*', '_'] := by
  obtain ⟨filled, -, hrest⟩ := bind_eq_ok.mp h.before
  obtain ⟨-, hrest⟩ := bind_unit_eq_ok.mp hrest
  obtain ⟨hname, hrest⟩ := bind_unit_eq_ok.mp hrest
  obtain ⟨-, hrest⟩ := bind_unit_eq_ok.mp hrest
  obtain rfl := Except.ok.inj hrest
  rw [Op.on, if_pos hfires] at hname
  have hnot := raiseIf_eq_ok.mp (bind_unit_eq_ok.mp hname).1
  intro name hmem c hc
  have hchar : IsNameChar filled.dnsType c := by
    by_contra hbad
    exact hnot ⟨name, hmem, List.any_eq_true.mpr ⟨c, hc, decide_eq_true hbad⟩⟩
  rcases hchar with hal | hdash | ⟨-, rfl⟩
  · exact .inl hal
  · exact .inr (List.mem_append_left ['_'] hdash)
  · exact .inr (by decide)

theorem namesChecked_step (h : NamesChecked db.dnsRecord) (sa : Statement × FirstRow (ℕ × ℕ)) :
    NamesChecked (step db sa).dnsRecord := by
  rcases step_cases db sa with heq | ⟨op, given, new, hs, hw, heq⟩ | ⟨id, -, heq⟩
  · rwa [heq]
  · rw [heq]
    intro r hr name hname
    rcases (mem_writeRow hs.of).mp hr with rfl | ⟨hr, -⟩
    · by_cases hfires : op.Fires [.dnsName, .shouldGeneratePtr]
      · exact hw.nameChecked hfires name hname
      · -- the `UPDATE` does not name `dns_name`
        obtain ⟨hfill, -⟩ := hw.checks
        obtain ⟨u, hu⟩ := fillIpUniverse_eq db given
        rw [hfill, hu] at hname
        obtain ⟨s, first⟩ := sa
        cases s with
        | insert row =>
          obtain ⟨rfl, -⟩ := hs
          exact absurd trivial hfires
        | delete id => exact hs.elim
        | update id columns values =>
          obtain ⟨old, hfind, rfl, rfl⟩ := hs
          have hnot : Column.dnsName ∉ columns := fun hc => hfires ⟨_, hc, by simp⟩
          refine h old (mem_of_findRecord hfind).1 name ?_
          simpa [DnsRecord.set, hnot] using hname
    · exact h r hr name hname
  · rw [heq]
    exact fun r hr => h r (List.mem_filter.mp hr).1

/-- **Checked names** stay in every run of statements on `dns_record`. -/
theorem namesChecked_run (h : NamesChecked db.dnsRecord)
    (l : List (Statement × FirstRow (ℕ × ℕ))) : NamesChecked (run step db l).dnsRecord :=
  run_invariant (I := fun db : Db => NamesChecked db.dnsRecord) (P := fun _ _ => True)
    (fun _ sa h _ => namesChecked_step h sa) h (allSteps_of_forall fun _ _ => trivial)

/-! ## The zone above -/

theorem toList_dotted : (dotted ls).toList = ['.'].intercalate (ls.map String.toList) := by
  rw [dotted, String.toList_intercalate]
  rfl

/-- The labels as `sofar` has them. -/
def escaped (ls : List String) : List Char := ['\\', '.'].intercalate (ls.map String.toList)

theorem intercalate_append {α : Type*} {sep : List α} {as bs : List (List α)} (ha : as ≠ [])
    (hb : bs ≠ []) :
    sep.intercalate (as ++ bs) = sep.intercalate as ++ sep ++ sep.intercalate bs := by
  induction as with
  | nil => exact absurd rfl ha
  | cons a as ih =>
    cases as with
    | nil => rw [List.singleton_append, List.intercalate_cons_of_ne_nil hb, List.intercalate_singleton]
    | cons a' as =>
      have hne : a' :: as ≠ [] := List.cons_ne_nil a' as
      rw [List.cons_append, List.intercalate_cons_of_ne_nil (List.append_ne_nil_of_left_ne_nil hne bs),
        ih hne, List.intercalate_cons_of_ne_nil hne]
      simp only [List.append_assoc]

theorem parse_ordinary {l : List Char} (hl : ∀ c ∈ l, IsOrdinary c) :
    parse false (l ++ s) acc = parse false s ((l.map Item.letter).reverse ++ acc) := by
  induction l generalizing acc with
  | nil => rfl
  | cons c l ih =>
    rw [List.cons_append, parse_char (hl c List.mem_cons_self),
      ih fun d hd => hl d (List.mem_cons_of_mem c hd)]
    simp [charItem]

theorem parse_escaped (hls : ∀ l ∈ ls, ∀ c ∈ l.toList, IsOrdinary c) :
    parse false (escaped ls ++ s) acc =
      parse false s (((dotted ls).toList.map Item.letter).reverse ++ acc) := by
  rw [toList_dotted]
  induction ls generalizing acc with
  | nil => rfl
  | cons l ls ih =>
    have hl := hls l List.mem_cons_self
    have hls' : ∀ l ∈ ls, ∀ c ∈ l.toList, IsOrdinary c :=
      fun l' h' => hls l' (List.mem_cons_of_mem l h')
    unfold escaped at ih ⊢
    by_cases hnil : ls = []
    · subst hnil
      rw [List.map_singleton, List.intercalate_singleton, List.intercalate_singleton,
        parse_ordinary hl]
    · have hmap : ls.map String.toList ≠ [] := by simpa using hnil
      rw [List.map_cons, List.intercalate_cons_of_ne_nil hmap, List.append_assoc,
        List.append_assoc, parse_ordinary hl, List.cons_append, List.cons_append, List.nil_append,
        parse_dot, ih hls', List.intercalate_cons_of_ne_nil hmap]
      simp [charItem]

theorem regexpReplace_escaped (hz : z.labels = done ++ rest) (hdone : done ≠ [])
    (hs : sofar.toList = escaped done) :
    regexpReplace z.text ("^" ++ sofar ++ "\\.") "" false =
      if rest = [] then z.text else dotted rest := by
  have hordinary : ∀ l ∈ done, ∀ c ∈ l.toList, IsOrdinary c := fun l hl =>
    z.ordinary l (by rw [hz]; exact List.mem_append_left _ hl)
  have hcompile : compile false ("^" ++ sofar ++ "\\.") =
      some ⟨true, ((dotted done).toList ++ ['.']).map .letter, false⟩ := by
    have htext : ("^" ++ sofar ++ "\\.").toList = '^' :: (escaped done ++ ['\\', '.']) := by
      rw [String.toList_append, String.toList_append, hs]
      rfl
    rw [compile, htext, List.head?_cons, if_pos rfl, List.tail_cons, parse_escaped hordinary,
      parse_dot]
    simp [parse, charItem]
  rw [regexpReplace, hcompile, Option.bind_some]
  by_cases hrest : rest = []
  · rw [if_pos hrest]
    have hnot : ¬ (dotted done).toList ++ ['.'] <+: z.text.toList := by
      intro hpre
      have hlen := hpre.length_le
      rw [ZoneName.text, hz, hrest, List.append_nil, List.length_append] at hlen
      simp at hlen
    rw [SequencePattern.search_letters_eq_none hnot]
  · rw [if_neg hrest]
    have htext : z.text.toList = ((dotted done).toList ++ ['.']) ++ (dotted rest).toList := by
      rw [ZoneName.text, hz, toList_dotted, List.map_append,
        intercalate_append (by simpa using hdone) (by simpa using hrest), toList_dotted,
        toList_dotted]
    rw [htext, SequencePattern.search_letters]
    show String.ofList ([] ++ expand _ "".toList ++ (dotted rest).toList) = _
    rw [show expand _ "".toList = [] from rfl, List.nil_append, List.nil_append,
      String.ofList_toList]

/-- `parent_zone`, with these labels left. -/
def stripped (z : ZoneName) (rest : List String) : String :=
  if rest = [] then z.text else dotted rest

theorem labelLoop_cons (zones : List DnsZone) (parentZone : String)
    (hz : z.labels = done ++ elem :: rest) (hs : sofar.toList = escaped done) :
    ∃ sofar', sofar'.toList = escaped (done ++ [elem]) ∧
      (∀ p, zones.find? (·.dnsDomainName = stripped z rest) = some p →
        (labelLoop zones z.text (elem :: rest) sofar parentZone).2 = some p) ∧
      (zones.find? (·.dnsDomainName = stripped z rest) = none →
        labelLoop zones z.text (elem :: rest) sofar parentZone =
          labelLoop zones z.text rest sofar' (stripped z rest)) := by
  have hsofar : ((if sofar ≠ "" then sofar ++ "\\." else sofar) ++ elem).toList =
      escaped (done ++ [elem]) := by
    by_cases hdone : done = []
    · subst hdone
      have hempty : sofar = "" := String.toList_inj.mp hs
      rw [hempty, if_neg (not_not.mpr rfl), String.toList_append]
      simp [escaped]
    · have hne : sofar ≠ "" := by
        rintro rfl
        obtain ⟨l, ls, rfl⟩ := List.exists_cons_of_ne_nil hdone
        have hl : l ≠ "" := z.nonempty l (by rw [hz]; simp)
        obtain ⟨c, cs, hc⟩ := List.exists_cons_of_ne_nil (mt String.toList_eq_nil_iff.mp hl)
        rw [escaped, List.map_cons, hc, List.intercalate_cons_cons_left] at hs
        cases hs
      rw [if_pos hne, String.toList_append, String.toList_append, hs, escaped, escaped,
        List.map_append, intercalate_append (by simpa using hdone) (by simp)]
      simp
  have hz' : z.labels = (done ++ [elem]) ++ rest := by rw [hz, List.append_assoc]; rfl
  have hstrip := regexpReplace_escaped hz' (by simp) hsofar
  refine ⟨_, hsofar, fun p hp => ?_, fun hnone => ?_⟩
  · rw [labelLoop, hstrip, show (if rest = [] then z.text else dotted rest) = stripped z rest from rfl,
      hp]
  · rw [labelLoop, hstrip, show (if rest = [] then z.text else dotted rest) = stripped z rest from rfl,
      hnone]

variable {name : String} {l l' : List DnsRecord} {domainId : ℕ} {can : Option Bool}

theorem find?_name_eq_some (h : zones.find? (·.dnsDomainName = name) = some p)
    : p ∈ zones ∧ p.dnsDomainName = name :=
  Library.of_find?_eq_some h

theorem find?_name_eq_none (h : zones.find? (·.dnsDomainName = name) = none)
    : ∀ q ∈ zones, q.dnsDomainName ≠ name :=
  fun q hq heq => List.find?_eq_none.mp h q hq (decide_eq_true heq)

/-- The zone that the loop finds is the first one among the suffixes of the name. -/
theorem labelLoop_eq_some (hnew : ∀ q ∈ zones, q.dnsDomainName ≠ z.text) :
    ∀ {rest done : List String} {sofar parentZone : String}, z.labels = done ++ rest →
      sofar.toList = escaped done →
      (labelLoop zones z.text rest sofar parentZone).2 = some p →
      p ∈ zones ∧ ∃ k, done.length < k ∧ k < z.labels.length ∧
        p.dnsDomainName = dotted (z.labels.drop k) ∧
        ∀ j, done.length < j → j < k → ∀ q ∈ zones, q.dnsDomainName ≠ dotted (z.labels.drop j)
  | [], _, _, _, _, _, h => by cases h
  | elem :: rest, done, sofar, parentZone, hz, hs, h => by
    obtain ⟨sofar', hs', hsome, hnone⟩ := labelLoop_cons zones parentZone hz hs
    have hz' : z.labels = (done ++ [elem]) ++ rest := by rw [hz, List.append_assoc]; rfl
    have hdrop : z.labels.drop (done.length + 1) = rest := by
      rw [hz']
      exact List.drop_left' (by simp)
    cases hfind : zones.find? (·.dnsDomainName = stripped z rest) with
    | some q =>
      rw [hsome q hfind] at h
      obtain rfl := Option.some.inj h
      obtain ⟨hq, hname⟩ := find?_name_eq_some hfind
      have hrest : rest ≠ [] := by
        rintro rfl
        exact hnew q hq hname
      rw [stripped, if_neg hrest] at hname
      refine ⟨hq, done.length + 1, by omega, ?_, by rw [hdrop, hname], fun j hj hj' => by omega⟩
      have hpos := List.length_pos_iff.mpr hrest
      rw [hz, List.length_append, List.length_cons]
      omega
    | none =>
      rw [hnone hfind] at h
      obtain ⟨hp, k, hk, hlen, hname, hbefore⟩ := labelLoop_eq_some hnew hz' hs' h
      rw [List.length_append, List.length_singleton] at hk hbefore
      refine ⟨hp, k, by omega, hlen, hname, fun j hj hjk => ?_⟩
      by_cases hj' : j = done.length + 1
      · subst hj'
        have hrest : rest ≠ [] := by
          rintro rfl
          rw [hz, List.length_append, List.length_singleton] at hlen
          omega
        have hno := find?_name_eq_none hfind
        rwa [stripped, if_neg hrest, ← hdrop] at hno
      · exact hbefore j (by omega) hjk

theorem labelLoop_eq_none :
    ∀ {rest done : List String} {sofar parentZone : String}, z.labels = done ++ rest →
      sofar.toList = escaped done →
      (labelLoop zones z.text rest sofar parentZone).2 = none →
      ∀ k, done.length < k → k < z.labels.length →
        ∀ q ∈ zones, q.dnsDomainName ≠ dotted (z.labels.drop k)
  | [], done, _, _, hz, _, _ => fun k hk hlen => by
    rw [hz, List.append_nil] at hlen
    omega
  | elem :: rest, done, sofar, parentZone, hz, hs, h => by
    obtain ⟨sofar', hs', hsome, hnone⟩ := labelLoop_cons zones parentZone hz hs
    have hz' : z.labels = (done ++ [elem]) ++ rest := by rw [hz, List.append_assoc]; rfl
    cases hfind : zones.find? (·.dnsDomainName = stripped z rest) with
    | some q =>
      rw [hsome q hfind] at h
      cases h
    | none =>
      rw [hnone hfind] at h
      intro k hk hlen
      by_cases hk' : k = done.length + 1
      · subst hk'
        have hrest : rest ≠ [] := by
          rintro rfl
          rw [hz, List.length_append, List.length_singleton] at hlen
          omega
        have hno := find?_name_eq_none hfind
        rw [stripped, if_neg hrest] at hno
        have hdrop : z.labels.drop (done.length + 1) = rest := by
          rw [hz']
          exact List.drop_left' (by simp)
        rwa [hdrop]
      · refine labelLoop_eq_none hz' hs' h k ?_ hlen
        rw [List.length_append, List.length_singleton]
        omega

/-- `elements` gives the labels back. -/
theorem elements_text : elements z.text = z.labels := by
  have hsplit : (['.'].intercalate (z.labels.map String.toList)).splitOn '.' =
      z.labels.map String.toList := by
    refine List.splitOn_intercalate '.' ?_ (by simpa using z.labels_ne_nil)
    intro l hl hdot
    obtain ⟨label, hlabel, rfl⟩ := List.mem_map.mp hl
    exact absurd (z.ordinary label hlabel '.' hdot) (by decide)
  rw [elements, ZoneName.text, toList_dotted, hsplit, List.map_map]
  simp

/-- The zone that `add_dns_domain` takes as the parent of a new one is the nearest above it. -/
theorem nearestAncestor_iff_labelLoop (hnew : ∀ q ∈ zones, q.dnsDomainName ≠ z.text)
    (huniq : ∀ p ∈ zones, ∀ q ∈ zones, p.dnsDomainName = q.dnsDomainName → p = q) :
    NearestAncestor zones z p ↔ (labelLoop zones z.text (elements z.text) "" "").2 = some p := by
  rw [elements_text]
  have hstart : z.labels = [] ++ z.labels := rfl
  have hsofar : "".toList = escaped [] := rfl
  constructor
  · rintro ⟨hp, k, hk, hlen, hname, hbefore⟩
    cases hloop : (labelLoop zones z.text z.labels "" "").2 with
    | none => exact absurd hname (labelLoop_eq_none hstart hsofar hloop k hk hlen p hp)
    | some q =>
      obtain ⟨hq, k', hk', hlen', hname', hbefore'⟩ := labelLoop_eq_some hnew hstart hsofar hloop
      rcases Nat.lt_trichotomy k k' with hlt | rfl | hlt
      · exact absurd hname (hbefore' k hk hlt p hp)
      · rw [huniq p hp q hq (hname.trans hname'.symm)]
      · exact absurd hname' (hbefore k' hk' hlt q hq)
  · intro hloop
    obtain ⟨hp, k, hk, hlen, hname, hbefore⟩ := labelLoop_eq_some hnew hstart hsofar hloop
    exact ⟨hp, k, hk, hlen, hname, hbefore⟩

/-! ## The expression -/

theorem moveRe_toList : (moveRe shortName).toList =
    '\\' :: '\\' :: '.' :: 'g' :: '?' :: ((lower shortName).toList ++ ['$']) := by
  have hcompile : compile false "\\." = some ⟨false, [.letter '.'], false⟩ := rfl
  have hsource : ("\\.?" ++ lower shortName ++ "$").toList =
      '\\' :: '.' :: '?' :: ((lower shortName).toList ++ ['$']) := by
    rw [String.toList_append, String.toList_append]
    rfl
  have hsearch : ∀ l : List Char, SequencePattern.search ⟨false, [.letter '.'], false⟩
      ('\\' :: '.' :: l) = some (['\\'], l) := fun l => rfl
  rw [moveRe, regexpReplace, hcompile, Option.bind_some, hsource, hsearch]
  show (String.ofList (_ ++ expand _ "\\\\.g".toList ++ _)).toList = _
  rw [String.toList_ofList]
  rfl

/-- The expression that is meant to find the records asks for a backslash. -/
theorem compile_moveRe (hshort : ∀ c ∈ shortName.toList, IsOrdinary c ∨ c = '.') :
    ∃ p : SequencePattern Char, compile false (moveRe shortName) = some p ∧
      Item.letter '\\' ∈ p.items := by
  have hlower : ∀ c ∈ (lower shortName).toList, IsOrdinary c ∨ c = '.' := by
    intro c hc
    rw [lower, String.toList_ofList] at hc
    obtain ⟨d, hd, rfl⟩ := List.mem_map.mp hc
    rcases hshort d hd with h | rfl
    · exact .inl (isOrdinary_toLower h)
    · exact .inr rfl
  rw [compile, moveRe_toList, if_neg (by simp), parse_backslash, parse_any,
    parse_char (by decide), parse_optional rfl, parse_text hlower, parse_end]
  refine ⟨_, rfl, ?_⟩
  simp [charItem]

theorem not_regexpMatch_moveRe (hshort : ∀ c ∈ shortName.toList, IsOrdinary c ∨ c = '.')
    (hname : ∀ c ∈ name.toList, c.isAlphanum = true ∨ c ∈ ['-', '.', '*', '_']) :
    regexpMatch (lower name) (moveRe shortName) = false := by
  obtain ⟨p, hp, hmem⟩ := compile_moveRe hshort
  cases hmatch : regexpMatch (lower name) (moveRe shortName) with
  | false => rfl
  | true =>
    have hback : '\\' ∉ name.toList := fun h => absurd (hname '\\' h) (by decide)
    exact absurd (mem_of_regexpMatch hp hmem hmatch) (not_mem_lower (by decide) hback)

/-! ## What the function does to the records -/

/-- Records without a name come after those that are there. -/
def AddsUnnamed (l l' : List DnsRecord) : Prop :=
  ∃ added, l' = l ++ added ∧ ∀ r ∈ added, r.dnsName = none

theorem AddsUnnamed.refl (l : List DnsRecord) : AddsUnnamed l l :=
  ⟨[], (List.append_nil l).symm, fun _ hr => absurd hr List.not_mem_nil⟩

theorem AddsUnnamed.trans {l'' : List DnsRecord} (h : AddsUnnamed l l') (h' : AddsUnnamed l' l'')
    : AddsUnnamed l l'' := by
  obtain ⟨added, rfl, hadded⟩ := h
  obtain ⟨added', rfl, hadded'⟩ := h'
  refine ⟨added ++ added', List.append_assoc _ _ _, fun r hr => ?_⟩
  exact (List.mem_append.mp hr).elim (hadded r) (hadded' r)

theorem addsUnnamed_writeEach {l : List (Op × DnsRecord)} (hl : ∀ w ∈ l, w.1 = .insert ∧
    w.2.dnsName = none) {x : Db × List (Op × DnsRecord)} (h : writeEach db l = .ok x) :
    AddsUnnamed db.dnsRecord x.1.dnsRecord := by
  induction l generalizing db x with
  | nil =>
    obtain rfl := Except.ok.inj h
    exact .refl _
  | cons w l ih =>
    obtain ⟨new, hnew, h⟩ := bind_eq_ok.mp h
    obtain ⟨-, h⟩ := bind_unit_eq_ok.mp h
    obtain ⟨y, hy, h⟩ := bind_eq_ok.mp h
    obtain rfl := Except.ok.inj h
    obtain ⟨hw, hname⟩ := hl w List.mem_cons_self
    have hone : AddsUnnamed db.dnsRecord (db.after w.1 new).dnsRecord := by
      rw [hw]
      refine ⟨[new], rfl, fun r hr => ?_⟩
      obtain rfl := List.mem_singleton.mp hr
      obtain ⟨filled, hfilled, hrest⟩ := bind_eq_ok.mp hnew
      obtain ⟨-, hrest⟩ := bind_unit_eq_ok.mp hrest
      obtain ⟨-, hrest⟩ := bind_unit_eq_ok.mp hrest
      obtain ⟨-, hrest⟩ := bind_unit_eq_ok.mp hrest
      obtain rfl := Except.ok.inj hrest
      obtain ⟨u, hu⟩ := fillIpUniverse_eq db w.2
      rw [(dnsARecValidation_ok hfilled).1, hu]
      exact hname
    have hrest := ih (fun w' hw' => hl w' (List.mem_cons_of_mem w hw')) hy
    exact hone.trans hrest

theorem addsUnnamed_write {l : List (Op × DnsRecord)} (hl : ∀ w ∈ l, w.1 = .insert ∧
    w.2.dnsName = none) (h : t.write srv l = .ok t') : AddsUnnamed t.dnsRecord t'.dnsRecord := by
  obtain ⟨x, hx, h⟩ := bind_eq_ok.mp h
  obtain rfl := Except.ok.inj h
  obtain ⟨y, hy, hx⟩ := bind_eq_ok.mp hx
  obtain ⟨-, hx⟩ := bind_unit_eq_ok.mp hx
  obtain rfl := Except.ok.inj hx
  have hadds := addsUnnamed_writeEach hl hy
  exact hadds

theorem addsUnnamed_insertRecords {rows : List DnsRecord} (hrows : ∀ r ∈ rows, r.dnsName = none)
    (h : t.insertRecords srv rows = .ok t') : AddsUnnamed t.dnsRecord t'.dnsRecord := by
  obtain ⟨x, hx, h⟩ := bind_eq_ok.mp h
  obtain rfl := Except.ok.inj h
  have hadds : AddsUnnamed t.dnsRecord x.dnsRecord := by
    refine addsUnnamed_write (fun w hw => ?_) hx
    obtain ⟨y, hy, rfl⟩ := List.mem_map.mp hw
    exact ⟨rfl, hrows y.1 (List.fst_mem_of_mem_zipIdx hy)⟩
  exact hadds

theorem addsUnnamed_addNsRecords (h : t.addNsRecords srv domainId = .ok t') :
    AddsUnnamed t.dnsRecord t'.dnsRecord := by
  refine addsUnnamed_insertRecords (fun r hr => ?_) h
  obtain ⟨q, -, rfl⟩ := List.mem_map.mp hr
  rfl

theorem dnsRecord_reverseNetblock {ip : Inet} {x : Tables × ℕ}
    (h : t.reverseNetblock srv ip = .ok x) : x.1.dnsRecord = t.dnsRecord := by
  unfold reverseNetblock at h
  split at h
  · obtain rfl := Except.ok.inj h
    rfl
  · obtain ⟨y, -, h⟩ := bind_eq_ok.mp h
    obtain rfl := Except.ok.inj h
    rfl

theorem addsUnnamed_link (h : t.getOrCreateInaddrDomainNetblockLink srv name domainId = .ok t') :
    AddsUnnamed t.dnsRecord t'.dnsRecord := by
  obtain ⟨text, -, h⟩ := bind_eq_ok.mp h
  cases text with
  | none =>
    obtain rfl := Except.ok.inj h
    exact .refl _
  | some text =>
    dsimp only at h
    split at h
    · exact absurd h raise_ne_ok
    · obtain ⟨x, hx, h⟩ := bind_eq_ok.mp h
      rw [← dnsRecord_reverseNetblock hx]
      refine addsUnnamed_insertRecords (fun r hr => ?_) h
      obtain rfl := List.mem_singleton.mp hr
      rfl

theorem dnsRecord_insertUniverse {univ : ℕ} (h : insertUniverse domainId can t univ = .ok t')
    : t'.dnsRecord = t.dnsRecord := by
  unfold insertUniverse at h
  split at h
  · obtain ⟨-, h⟩ := bind_unit_eq_ok.mp h
    obtain ⟨-, h⟩ := bind_unit_eq_ok.mp h
    obtain ⟨-, h⟩ := bind_unit_eq_ok.mp h
    obtain rfl := Except.ok.inj h
    rfl
  · exact absurd h raise_ne_ok

theorem dnsRecord_insertUniverses {univs : Option (List ℕ)}
    (h : insertUniverses domainId can t univs = .ok t') : t'.dnsRecord = t.dnsRecord := by
  cases univs with
  | none => exact absurd h raise_ne_ok
  | some l =>
    rw [insertUniverses] at h
    induction l generalizing t with
    | nil =>
      obtain rfl := Except.ok.inj h
      rfl
    | cons univ l ih =>
      rw [List.foldlM_cons] at h
      obtain ⟨t₁, h₁, h⟩ := bind_eq_ok.mp h
      rw [ih h, dnsRecord_insertUniverse h₁]

theorem dnsRecord_moveRecords {parentId : ℕ}
    (hshort : ∀ c ∈ shortName.toList, IsOrdinary c ∨ c = '.') (hl : NamesChecked l)
    (hadds : AddsUnnamed l t.dnsRecord) (h : t.moveRecords srv parentId domainId shortName = .ok t')
    : t'.dnsRecord = t.dnsRecord := by
  obtain ⟨added, heq, hadded⟩ := hadds
  have hnone : (t.dnsRecord.filter fun r => r.dnsDomainId = parentId ∧
      ∃ name ∈ r.dnsName, regexpMatch (lower name) (moveRe shortName) = true) = [] := by
    rw [List.filter_eq_nil_iff]
    intro r hr hmatch
    obtain ⟨-, name, hname, hmatch⟩ := of_decide_eq_true hmatch
    rw [heq] at hr
    rcases List.mem_append.mp hr with hr | hr
    · rw [not_regexpMatch_moveRe hshort (hl r hr name hname)] at hmatch
      cases hmatch
    · rw [hadded r hr] at hname
      exact absurd hname (Option.not_mem_none name)
  rw [moveRecords, hnone] at h
  obtain rfl := Except.ok.inj h
  rfl

theorem AddsUnnamed.findRecord (h : AddsUnnamed l l') (hl : (l.map (·.dnsRecordId)).Nodup)
    (hr : r ∈ l) : findRecord l' r.dnsRecordId = some r := by
  obtain ⟨added, rfl, -⟩ := h
  have hfind : Dns.findRecord l r.dnsRecordId = some r := Library.find?_key hl hr
  unfold Dns.findRecord at hfind ⊢
  rw [List.find?_append, hfind]
  rfl

theorem ordinary_shortName {pattern : String} (z : ZoneName) :
    ∀ c ∈ (regexpReplace z.text pattern "" false).toList, IsOrdinary c ∨ c = '.' := by
  intro c hc
  have hmem := mem_of_mem_regexpReplace hc
  have hlabels : ∀ ls : List String, (∀ l ∈ ls, ∀ c ∈ l.toList, IsOrdinary c) →
      c ∈ ['.'].intercalate (ls.map String.toList) → IsOrdinary c ∨ c = '.' := by
    intro ls hls hin
    induction ls with
    | nil => exact absurd hin List.not_mem_nil
    | cons l ls ih =>
      have hl := hls l List.mem_cons_self
      by_cases hnil : ls = []
      · subst hnil
        rw [List.map_singleton, List.intercalate_singleton] at hin
        exact .inl (hl c hin)
      · rw [List.map_cons, List.intercalate_cons_of_ne_nil (by simpa using hnil),
          List.mem_append, List.mem_append, List.mem_singleton] at hin
        rcases hin with (hin | hdot) | hin
        · exact .inl (hl c hin)
        · exact .inr hdot
        · exact ih (fun l' h' => hls l' (List.mem_cons_of_mem l h')) hin
  rw [ZoneName.text, toList_dotted] at hmem
  exact hlabels z.labels z.ordinary hmem

/-- A call that makes the zone gives it the next id, and only adds records without a name. -/
theorem addDnsDomain_ok {type : Option String} {univs : Option (List ℕ)} {addNs : Option Bool}
    {id : ℕ} (hnames : NamesChecked t.dnsRecord) (hnew : ∀ d ∈ t.dnsDomain, d.dnsDomainName ≠ z.text)
    (h : addDnsDomain srv t z.text type univs addNs = .ok (t', some id)) :
    AddsUnnamed t.dnsRecord t'.dnsRecord ∧ ∀ d ∈ t.dnsDomain, d.dnsDomainId ≠ id := by
  obtain ⟨guessed, -, h⟩ := bind_eq_ok.mp h
  split at h
  · have hnone : t.dnsDomain.find? (·.dnsDomainName = z.text) = none :=
      List.find?_eq_none.mpr fun d hd heq => hnew d hd (of_decide_eq_true heq)
    rw [hnone] at h
    cases h
  · next hfree =>
    obtain ⟨t₁, h₁, h⟩ := bind_eq_ok.mp h
    obtain ⟨t₂, h₂, h⟩ := bind_eq_ok.mp h
    obtain ⟨t₃, h₃, h⟩ := bind_eq_ok.mp h
    obtain ⟨t₄, h₄, h⟩ := bind_eq_ok.mp h
    obtain ⟨t₅, h₅, h⟩ := bind_eq_ok.mp h
    obtain ⟨rfl, hid⟩ := Prod.mk.inj (Except.ok.inj h)
    obtain rfl := Option.some.inj hid
    have hdomain : t₁.dnsRecord = t.dnsRecord := by
      obtain ⟨-, h₁⟩ := bind_unit_eq_ok.mp h₁
      obtain rfl := Except.ok.inj h₁
      rfl
    have huniv : t₂.dnsRecord = t.dnsRecord := (dnsRecord_insertUniverses h₂).trans hdomain
    have hlink : AddsUnnamed t.dnsRecord t₃.dnsRecord := by
      rw [← huniv]
      split at h₃
      · exact addsUnnamed_link h₃
      · obtain rfl := Except.ok.inj h₃
        exact .refl _
    have hmove : AddsUnnamed t.dnsRecord t₄.dnsRecord := by
      split at h₄
      · rwa [dnsRecord_moveRecords (ordinary_shortName z) hnames hlink h₄]
      · obtain rfl := Except.ok.inj h₄
        exact hlink
    have hserver : AddsUnnamed t₄.dnsRecord t₅.dnsRecord := by
      split at h₅
      · exact addsUnnamed_addNsRecords h₅
      · obtain rfl := Except.ok.inj h₅
        exact .refl _
    refine ⟨hmove.trans hserver, fun d hd hid => hfree ⟨d, hd, .inr hid⟩⟩

/-- The records of the new zone go into it only where there are none. -/
theorem movesRecords_iff {type : Option String} {univs : Option (List ℕ)} {addNs : Option Bool}
    {id : ℕ} (hids : (t.dnsRecord.map (·.dnsRecordId)).Nodup) (hnames : NamesChecked t.dnsRecord)
    (hnew : ∀ d ∈ t.dnsDomain, d.dnsDomainName ≠ z.text)
    (h : addDnsDomain srv t z.text type univs addNs = .ok (t', some id)) :
    MovesRecords t t' z id ↔ ∀ r ∈ t.dnsRecord, ¬ ToMove t z r := by
  obtain ⟨hadds, hid⟩ := addDnsDomain_ok hnames hnew h
  constructor
  · intro hmoves r hr hto
    obtain ⟨r', hfind, hdomain, -⟩ := hmoves.moved r hr hto
    rw [hadds.findRecord hids hr] at hfind
    obtain rfl := Option.some.inj hfind
    obtain ⟨⟨p, ⟨hp, -⟩, hzone⟩, -⟩ := hto
    exact hid p hp (hzone.symm.trans hdomain)
  · intro hnone
    exact ⟨fun r hr hto => absurd hto (hnone r hr), fun r hr _ => hadds.findRecord hids hr⟩

def txtRecord (name : String) : DnsRecord :=
  { newRecord 1 "IN" "TXT" (some "x") none with dnsRecordId := 1, dnsName := some name }

/-- The zone `example.com` with one record. -/
def Tables.oneRecord (name : String) : Tables where
  dnsRecord := [txtRecord name]
  dnsDomain := [⟨⟨1, "example.com", none⟩, "service"⟩]
  dnsDomainIpUniverse := []
  dnsChangeRecord := []
  netblock := []
  netblockStatus := []
  property := [⟨1, "Defaults", "_dnsrname", some "hostmaster.example.com"⟩]
  valDnsDomainType := [("service", true)]
  ipUniverse := [(0, "default")]
  schema := .initial
  dnsRecordSeq := 2
  dnsDomainSeq := 2
  netblockSeq := 1

theorem nonempty_subLabels : ∀ l ∈ ["sub", "example", "com"], l ≠ "" := by decide

theorem ordinary_subLabels : ∀ l ∈ ["sub", "example", "com"], ∀ c ∈ l.toList, IsOrdinary c := by
  have hall : ["sub", "example", "com"].all fun l => l.toList.all (IsOrdinary ·) := by decide
  intro l hl c hc
  simpa using List.all_eq_true.mp (List.all_eq_true.mp hall l hl) c hc

/-- `sub.example.com`. -/
def subZone : ZoneName where
  labels := ["sub", "example", "com"]
  labels_ne_nil := List.cons_ne_nil _ _
  nonempty := nonempty_subLabels
  ordinary := ordinary_subLabels

def asListed : Server := ⟨fun _ => none, .listed _, .asIs⟩

theorem namesChecked_oneRecord
    (h : name.toList.all fun c => c.isAlphanum || ['-', '.', '*', '_'].contains c) :
    NamesChecked (oneRecord name).dnsRecord := by
  intro r hr name' hname c hc
  obtain rfl := List.mem_singleton.mp hr
  obtain rfl := Option.some.inj hname
  simpa using List.all_eq_true.mp h c hc

theorem namesChecked_run_www :
    NamesChecked (run step (oneRecord "www").db [(.insert (txtRecord "a b"), .listed _)]).dnsRecord := by
  have h : NamesChecked (oneRecord "www").db.dnsRecord := namesChecked_oneRecord (by decide)
  exact namesChecked_run h _

/-- `example.com` is the zone above. -/
theorem nearestAncestor_subZone :
    NearestAncestor (oneRecord "www").dnsDomain subZone ⟨⟨1, "example.com", none⟩, "service"⟩ :=
  (nearestAncestor_iff_labelLoop (by decide) (by simp [oneRecord])).mpr (by decide +kernel)

theorem exists_addDnsDomain_sub (name : String) (hok : (addDnsDomain asListed (oneRecord name)
    subZone.text none none none).toOption.map (·.2) = some (some 2)) :
    ∃ t', addDnsDomain asListed (oneRecord name) subZone.text none none none =
      .ok (t', some 2) := by
  cases h : addDnsDomain asListed (oneRecord name) subZone.text none none none with
  | error e =>
    rw [h] at hok
    cases hok
  | ok x =>
    rw [h] at hok
    exact ⟨x.1, by rw [← Option.some.inj hok]⟩

theorem movesRecords_www : ∃ t',
    addDnsDomain asListed (oneRecord "www") subZone.text none none none = .ok (t', some 2) ∧
      MovesRecords (oneRecord "www") t' subZone 2 := by
  obtain ⟨t', h⟩ := exists_addDnsDomain_sub "www" (by decide +kernel)
  have hiff := movesRecords_iff (z := subZone) (by decide) (namesChecked_oneRecord (by decide)) (by decide) h
  refine ⟨t', h, hiff.mpr fun r hr hto => ?_⟩
  obtain rfl := List.mem_singleton.mp hr
  exact absurd hto.2 (by decide +kernel)

/-- `www.sub` in `example.com` is not moved to `sub.example.com`. -/
theorem delegated_breaks : NamesChecked (oneRecord "www.sub").dnsRecord ∧
    (∀ d ∈ (oneRecord "www.sub").dnsDomain, d.dnsDomainName ≠ subZone.text) ∧
    ∃ t', addDnsDomain asListed (oneRecord "www.sub") subZone.text none none none =
        .ok (t', some 2) ∧ ¬ MovesRecords (oneRecord "www.sub") t' subZone 2 := by
  obtain ⟨t', h⟩ := exists_addDnsDomain_sub "www.sub" (by decide +kernel)
  have hnames : NamesChecked (oneRecord "www.sub").dnsRecord := namesChecked_oneRecord (by decide)
  have hnew : ∀ d ∈ (oneRecord "www.sub").dnsDomain, d.dnsDomainName ≠ subZone.text := by decide
  refine ⟨hnames, hnew, t', h, fun hmoves => ?_⟩
  obtain ⟨hadds, -⟩ := addDnsDomain_ok hnames hnew h
  have hmem : txtRecord "www.sub" ∈ (oneRecord "www.sub").dnsRecord := List.mem_singleton_self _
  have habove : NearestAncestor (oneRecord "www.sub").dnsDomain subZone
      ⟨⟨1, "example.com", none⟩, "service"⟩ :=
    ⟨List.mem_singleton_self _, 1, by decide, by decide, by decide +kernel, fun j hj hj' => by omega⟩
  obtain ⟨r', hfind, hdomain, -⟩ := hmoves.moved _ hmem ⟨⟨_, habove, rfl⟩, by decide +kernel⟩
  rw [hadds.findRecord (by decide) hmem] at hfind
  rw [← Option.some.inj hfind] at hdomain
  cases hdomain

end JazzHands.Dns

import JazzHands.Dns.ReverseNames

/-!
# IPv6 addresses written out

Both functions are read on the parts that a text has between its colons.  `expandIpv6Address_run`
and `expandV6_run` say what the empty part becomes, and the two results are compared with the 32
digits of the address.
-/

namespace JazzHands.Dns

open Library Postgres

/-- The words with four digits each. -/
def groups (ip : Inet) : List (List Char) := ip.words.map (Numeral.padded 16 4)

/-- The 32 digits, the last one first. -/
def nibbles (ip : Inet) : List (List Char) := (Numeral.padded 16 32 ip.addr).reverse.map fun c => [c]

variable {ip : Inet} {s t zero : List Char} {p q l : List (List Char)} {ws : List ℕ} {k n w j : ℕ}
  {showsAll : Bool}

/-! ## Padding -/

theorem lpad_hex (h : w < 65536) : lpad (Nat.toDigits 16 w) 4 = Numeral.padded 16 4 w := by
  rw [lpad, Numeral.leftpad_toDigits (by decide) (by decide) (show w < 16 ^ 4 from h)]
  exact List.take_of_length_le Numeral.length_padded.le

theorem lpad_ne_nil (hk : 0 < k) : lpad s k ≠ [] := by
  rw [← List.length_pos_iff, lpad, List.length_take, List.length_leftpad]
  omega

theorem lpad_zero : lpad ['0'] 4 = Numeral.padded 16 4 0 := rfl

theorem lpad_nil : lpad [] 4 = Numeral.padded 16 4 0 := rfl

theorem map_lpad_hex (h : ∀ w ∈ ws, w < 65536) :
    (ws.map (Nat.toDigits 16)).map (fun s => lpad s 4) = ws.map (Numeral.padded 16 4) := by
  rw [List.map_map]
  exact List.map_congr_left fun w hw => lpad_hex (h w hw)

theorem colon_notMem_padded : ':' ∉ Numeral.padded 16 k n :=
  Numeral.notMem_padded (by decide) (by decide)

theorem colon_notMem_lpad (h : ':' ∉ s) : ':' ∉ lpad s k := fun hc => by
  rcases List.mem_append.mp (List.mem_of_mem_take hc) with hc | hc
  · exact absurd (List.eq_of_mem_replicate hc) (by decide)
  · exact h hc

theorem colon_notMem_groups : ∀ s ∈ groups ip, ':' ∉ s := fun s hs => by
  obtain ⟨w, -, rfl⟩ := List.mem_map.mp hs
  exact colon_notMem_padded

theorem flatten_groups (ip : Inet) : (groups ip).flatten = Numeral.padded 16 32 ip.addr := by
  have hdigits := Numeral.flatten_padded 16 4 ip.addr 8
  rw [groups, Inet.words, List.map_map, ← hdigits]
  congr 1
  refine List.map_congr_left fun k _ => ?_
  exact Numeral.padded_mod (b := 16) (m := 4) le_rfl

/-! ## The parts of `expand_ipv6_address` -/

theorem zeroFill_eq : zeroFill k zero = zero ++ (List.replicate k (':' :: lpad [] 4)).flatten := by
  induction k generalizing zero with
  | zero => exact (List.append_nil zero).symm
  | succ k ih =>
    rw [zeroFill, ih, List.replicate_succ, List.flatten_cons, List.append_assoc]

/-- `zero` is so many groups. -/
theorem dropColon_zeroFill :
    dropColon (zeroFill k []) = joined ':' (List.replicate k (Numeral.padded 16 4 0)) := by
  have hflatten : ∀ k, (List.replicate (k + 1) (':' :: lpad [] 4)).flatten =
      ':' :: joined ':' (List.replicate (k + 1) (Numeral.padded 16 4 0)) := by
    intro k
    induction k with
    | zero => rfl
    | succ k ih =>
      rw [List.replicate_succ, List.flatten_cons, ih, List.replicate_succ (n := k + 1),
        joined_cons _ (by simp)]
      rfl
  rw [zeroFill_eq, List.nil_append]
  cases k with
  | zero => rfl
  | succ k =>
    rw [hflatten]
    rfl

/-- What is made of one part. -/
def expandElem (zero elem : List Char) : List Char := if elem = [] then zero else lpad elem 4

theorem expandElem_nil : expandElem zero [] = zero := rfl

theorem map_expandElem (h : ∀ s ∈ p, IsPiece s) :
    p.map (expandElem zero) = p.map fun s => lpad s 4 :=
  List.map_congr_left fun s hs => if_neg (h s hs).1

/-- The two loops over the parts, with the count between them. -/
theorem expandIpv6Address_eq (h : ip.family = .inet6)
    (hl : (stripColons (dropMask (ip.text showsAll))).splitOn ':' = l) :
    expandIpv6Address showsAll ip = .ok (joined ':' (l.map (expandElem
      (joined ':' (List.replicate (8 - (l.filter (· ≠ [])).length) (Numeral.padded 16 4 0)))))) := by
  have helem : ∀ zero, (fun elem => if elem ≠ [] then elem else zero) ∘
      (fun elem => if elem ≠ [] then lpad elem 4 else elem) = expandElem zero := fun zero => by
    funext elem
    by_cases hne : elem = []
    · simp [expandElem, hne]
    · simp [expandElem, hne, lpad_ne_nil]
  have hraise : raiseIf (ip.family ≠ .inet6) .invalidParameterValue
      "net_manip.expand_ipv6_address only works on IPv6 addresses" = .ok () :=
    raiseIf_eq_ok.mpr fun hne => hne h
  rw [expandIpv6Address, hraise, hl]
  show Except.ok (joined ':' ((l.map _).map _)) = _
  rw [List.map_map, helem, dropColon_zeroFill]

theorem filter_pieces (h : ∀ s ∈ p, IsPiece s) : p.filter (· ≠ []) = p :=
  List.filter_eq_self.mpr fun s hs => by simpa using (h s hs).1

/-- **The empty part** stands for the groups that are missing. -/
theorem expandIpv6Address_run (h : ip.family = .inet6)
    (hp : ∀ s ∈ p, IsPiece s) (hq : ∀ s ∈ q, IsPiece s) (hlen : p.length + q.length < 8)
    (hl : (stripColons (dropMask (ip.text showsAll))).splitOn ':' = p ++ [] :: q) :
    expandIpv6Address showsAll ip = .ok (joined ':' (p.map (fun s => lpad s 4) ++
      (List.replicate (8 - (p.length + q.length)) (Numeral.padded 16 4 0) ++
        q.map fun s => lpad s 4))) := by
  have hcount : ((p ++ [] :: q).filter (· ≠ [])).length = p.length + q.length := by
    rw [List.filter_append, filter_pieces hp, List.filter_cons_of_neg (by simp), filter_pieces hq,
      List.length_append]
  have hne : List.replicate (8 - (p.length + q.length)) (Numeral.padded 16 4 0) ≠ [] := by
    rw [Ne, List.replicate_eq_nil_iff]
    omega
  rw [expandIpv6Address_eq h hl, hcount, List.map_append, List.map_cons, map_expandElem hp,
    map_expandElem hq, expandElem_nil, joined_joined hne]

/-- Two empty parts both stand for all the groups that are missing. -/
theorem expandIpv6Address_two (h : ip.family = .inet6) (hp : ∀ s ∈ p, IsPiece s)
    (hlen : p.length + n = 8) (hn : 2 ≤ n)
    (hl : (stripColons (dropMask (ip.text showsAll))).splitOn ':' = p ++ [[], []]) :
    expandIpv6Address showsAll ip ≠ .ok (joined ':' (groups ip)) := by
  let zeros := List.replicate n (Numeral.padded 16 4 0)
  have hzeros : zeros ≠ [] := by
    rw [Ne, List.replicate_eq_nil_iff]
    omega
  have hcount : 8 - ((p ++ [[], []]).filter (· ≠ [])).length = n := by
    rw [List.filter_append, filter_pieces hp]
    simp
    omega
  have hvalue : expandIpv6Address showsAll ip =
      .ok (joined ':' (p.map (fun s => lpad s 4) ++ (zeros ++ (zeros ++ [])))) := by
    rw [expandIpv6Address_eq h hl, hcount, List.map_append, map_expandElem hp]
    show Except.ok (joined ':' (_ ++ joined ':' zeros :: [joined ':' zeros])) = _
    rw [joined_joined hzeros, ← List.append_assoc, joined_joined hzeros, List.append_assoc]
  intro heq
  have hpadded : ∀ s ∈ p.map (fun s => lpad s 4) ++ (zeros ++ (zeros ++ [])), ':' ∉ s := by
    intro s hs
    rw [List.append_nil, List.mem_append, List.mem_append, or_self] at hs
    rcases hs with hs | hs
    · obtain ⟨t, ht, rfl⟩ := List.mem_map.mp hs
      exact colon_notMem_lpad (hp t ht).2
    · rw [List.eq_of_mem_replicate hs]
      exact colon_notMem_padded
  have hinj := joined_inj (by simp [hzeros]) (List.cons_ne_nil _ _) hpadded colon_notMem_groups
    (Except.ok.inj (hvalue.symm.trans heq))
  have hlengths := congrArg List.length hinj
  simp [zeros] at hlengths
  omega

/-! ## From the text to the parts -/

theorem isDigit_of_mem {c : Char} (h : c ∈ Nat.toDigits 10 n) : c.isDigit = true := by
  obtain ⟨d, hd, rfl⟩ := Numeral.mem_toDigits (by decide) h
  have hall : ∀ d < 10, (Nat.digitChar d).isDigit = true := by decide
  exact hall d hd

/-- The mask length is dropped after a `::`, together with one colon. -/
theorem dropMask_mask : dropMask (s ++ '/' :: Nat.toDigits 10 n) =
    if [':', ':'] <:+ s then s.dropLast else s ++ '/' :: Nat.toDigits 10 n := by
  have hrest : (s ++ '/' :: Nat.toDigits 10 n).rdropWhile Char.isDigit = s ++ ['/'] := by
    have hdigits : ∀ c ∈ (Nat.toDigits 10 n).reverse, c.isDigit = true := fun c hc =>
      isDigit_of_mem (List.mem_reverse.mp hc)
    have hsplit : s ++ '/' :: Nat.toDigits 10 n = (s ++ ['/']) ++ Nat.toDigits 10 n := by simp
    rw [hsplit, List.rdropWhile, List.reverse_append, List.dropWhile_append_of_pos hdigits]
    exact List.rdropWhile_concat_neg _ _ _ (by decide)
  have hne : s ++ ['/'] ≠ s ++ '/' :: Nat.toDigits 10 n := fun heq => by
    have hnil := (List.cons.inj (List.append_cancel_left heq)).2
    exact Nat.toDigits_ne_nil hnil.symm
  have hsuffix : [':', ':', '/'] <:+ s ++ ['/'] ↔ [':', ':'] <:+ s := by
    constructor
    · rintro ⟨u, hu⟩
      have hu : (u ++ [':', ':']) ++ ['/'] = s ++ ['/'] := by rw [← hu, List.append_assoc]; rfl
      exact ⟨u, List.append_cancel_right hu⟩
    · rintro ⟨u, rfl⟩
      exact ⟨u, by simp⟩
  rw [dropMask, hrest]
  simp only [hsuffix, hne, ne_eq, not_false_eq_true, and_true, List.dropLast_concat]

theorem dropMask_of_notMem (h : '/' ∉ s) : dropMask s = s := by
  refine if_neg fun hc => h ?_
  have hmem : '/' ∈ s.rdropWhile Char.isDigit := hc.1.subset (by simp)
  exact (List.rdropWhile_prefix _ _).subset hmem

/-- Characters that the group takes, and a mask length or nothing. -/
theorem stripColons_append (hs : ∀ c ∈ s, isHexOrColon c = true)
    (ht : t = [] ∨ ∃ n, t = '/' :: Nat.toDigits 10 n) : stripColons (s ++ t) = dropColon s := by
  have hhead : t.head? ≠ some ':' := by
    rcases ht with rfl | ⟨n, rfl⟩ <;> simp
  have hdrop : dropColon (s ++ t) = dropColon s ++ t := by
    cases s with
    | nil => exact if_neg hhead
    | cons c s =>
      rw [dropColon, dropColon, List.cons_append, List.head?_cons, List.head?_cons]
      split <;> rfl
  have hall : ∀ c ∈ dropColon s, isHexOrColon c = true := fun c hc => by
    rw [dropColon] at hc
    split at hc
    · exact hs c (List.mem_of_mem_tail hc)
    · exact hs c hc
  have htake : (dropColon s ++ t).takeWhile isHexOrColon = dropColon s := by
    rw [List.takeWhile_append_of_pos hall]
    rcases ht with rfl | ⟨n, rfl⟩
    · exact List.append_nil _
    · rw [List.takeWhile_cons_of_neg (by decide), List.append_nil]
  have hrest : (dropColon s ++ t).dropWhile isHexOrColon = t := by
    rw [List.dropWhile_append_of_pos hall]
    rcases ht with rfl | ⟨n, rfl⟩
    · rfl
    · exact List.dropWhile_cons_of_neg (by decide)
  rw [stripColons, hdrop, htake, hrest]
  refine if_pos (ht.imp_right fun hmask => ?_)
  obtain ⟨n, hn⟩ := hmask
  rw [hn]
  exact ⟨rfl, Nat.toDigits_ne_nil, List.all_eq_true.mpr fun c hc => isDigit_of_mem hc⟩

/-- The parts of a text with a colon after the first pieces. -/
theorem splitOn_colon (hp : ∀ s ∈ p, IsPiece s) (hl : ∀ s ∈ l, ':' ∉ s) (hne : l ≠ []) :
    (joined ':' p ++ ':' :: joined ':' l).splitOn ':' = (if p = [] then [[]] else p) ++ l := by
  by_cases hp' : p = []
  · have hall : ∀ s ∈ [] :: l, ':' ∉ s := by simpa using hl
    rw [hp', if_pos rfl, List.singleton_append, ← splitOn_joined (List.cons_ne_nil _ _) hall,
      joined_cons [] hne]
    rfl
  · rw [if_neg hp', ← joined_append hp' hne]
    refine splitOn_joined (List.append_ne_nil_of_left_ne_nil hp' l) fun s hs => ?_
    rcases List.mem_append.mp hs with hs | hs
    · exact (hp s hs).2
    · exact hl s hs

theorem splitOn_dropColon (hp : ∀ s ∈ p, IsPiece s) (hl : ∀ s ∈ l, ':' ∉ s) (hne : l ≠ []) :
    (dropColon (joined ':' p ++ ':' :: joined ':' l)).splitOn ':' = p ++ l := by
  by_cases hp' : p = []
  · rw [hp']
    exact splitOn_joined hne hl
  · obtain ⟨c, t, hct, hc⟩ := head_joined hp hp'
    have hdrop : dropColon (joined ':' p ++ ':' :: joined ':' l) =
        joined ':' p ++ ':' :: joined ':' l := by
      refine if_neg ?_
      rw [hct]
      simpa using hc
    rw [hdrop, splitOn_colon hp hl hne, if_neg hp']

theorem isHexOrColon_joined (hws : ∀ s ∈ p, ∃ w, s = Nat.toDigits 16 w) :
    ∀ c ∈ joined ':' p, isHexOrColon c = true := fun c hc => by
  rcases mem_joined hc with rfl | ⟨s, hs, hc⟩
  · decide
  · obtain ⟨w, rfl⟩ := hws s hs
    obtain ⟨d, hd, rfl⟩ := Numeral.mem_toDigits (by decide) hc
    have hall : ∀ d < 16, isHexOrColon (Nat.digitChar d) = true := by decide
    exact hall d hd

theorem not_suffix_joined (hq : ∀ s ∈ q, IsPiece s) (hne : q ≠ []) :
    ¬ [':', ':'] <:+ s ++ joined ':' q := by
  obtain ⟨l, c, hlc, hc⟩ := last_joined hq hne
  rintro ⟨u, hu⟩
  have hu : (u ++ [':']) ++ [':'] = (s ++ l) ++ [c] := by rw [List.append_assoc s, ← hlc, ← hu]; simp
  exact hc (List.cons.inj (List.append_inj_right' hu rfl)).1.symm

/-- The mask length is not written. -/
def Hidden (showsAll : Bool) (ip : Inet) : Prop := ip.masklen = ip.family.bits ∧ showsAll = false
  deriving Decidable

theorem isHexOrColon_hostText (h : ip.family = .inet6) (hd : ¬ ip.Dotted) :
    ∀ c ∈ ip.hostText, isHexOrColon c = true := by
  have hhex : ∀ ws : List ℕ, ∀ c ∈ joined ':' (ws.map (Nat.toDigits 16)), isHexOrColon c = true :=
    fun ws => isHexOrColon_joined fun s hs => by
      obtain ⟨w, -, rfl⟩ := List.mem_map.mp hs
      exact ⟨w, rfl⟩
  cases hrun : Inet.bestRun ip.words with
  | none =>
    rw [Inet.hostText_none h hrun]
    exact hhex _
  | some j =>
    rw [Inet.hostText_run h hrun, Inet.piecesAfter_eq hd]
    intro c hc
    rcases List.mem_append.mp hc with hc | hc
    · exact hhex _ c hc
    · rcases List.mem_cons.mp hc with rfl | hc
      · decide
      · rcases List.mem_cons.mp hc with rfl | hc
        · decide
        · exact hhex _ c hc

theorem stripColons_text (h : ip.family = .inet6) (hd : ¬ ip.Dotted) :
    stripColons (dropMask (ip.text showsAll)) = dropColon
      (if ¬ Hidden showsAll ip ∧ [':', ':'] <:+ ip.hostText then ip.hostText.dropLast
        else ip.hostText) := by
  have hall := isHexOrColon_hostText h hd
  have hself : stripColons ip.hostText = dropColon ip.hostText := by
    have happ := stripColons_append (t := []) hall (Or.inl rfl)
    rwa [List.append_nil] at happ
  rw [Inet.text]
  by_cases hhidden : ip.masklen = ip.family.bits ∧ showsAll = false
  · have hslash : '/' ∉ ip.hostText := fun hmem => absurd (hall _ hmem) (by decide)
    rw [if_pos hhidden, dropMask_of_notMem hslash, hself, if_neg fun hc => hc.1 hhidden]
  · rw [if_neg hhidden, dropMask_mask]
    by_cases hsuffix : [':', ':'] <:+ ip.hostText
    · have hlast : ∀ c ∈ ip.hostText.dropLast, isHexOrColon c = true := fun c hc =>
        hall c (List.mem_of_mem_dropLast hc)
      have happ := stripColons_append (t := []) hlast (Or.inl rfl)
      rw [List.append_nil] at happ
      rw [if_pos hsuffix, if_pos ⟨hhidden, hsuffix⟩, happ]
    · rw [if_neg hsuffix, if_neg fun hc => hsuffix hc.2]
      exact stripColons_append hall (Or.inr ⟨_, rfl⟩)

/-! ## The groups around the run -/

theorem groups_run (hd : ¬ ip.Dotted) (hrun : Inet.bestRun ip.words = some j) :
    (ip.piecesBefore j).map (fun s => lpad s 4) ++
      (List.replicate (8 - ((ip.piecesBefore j).length + (ip.piecesAfter j).length))
        (Numeral.padded 16 4 0) ++ (ip.piecesAfter j).map fun s => lpad s 4) = groups ip ∧
      (ip.piecesBefore j).length + (ip.piecesAfter j).length + Inet.zerosFrom ip.words j = 8 ∧
      2 ≤ Inet.zerosFrom ip.words j := by
  obtain ⟨htwo, hle, hwords⟩ := Inet.words_run hrun
  have hbefore : (ip.piecesBefore j).length = j := by
    rw [Inet.piecesBefore, List.length_map, List.length_take, Inet.length_words]
    omega
  have hafter : (ip.piecesAfter j).length = 8 - (j + Inet.zerosFrom ip.words j) := by
    rw [Inet.piecesAfter_eq hd, List.length_map, List.length_drop, Inet.length_words]
  have hcount : 8 - ((ip.piecesBefore j).length + (ip.piecesAfter j).length) =
      Inet.zerosFrom ip.words j := by omega
  refine ⟨?_, by omega, htwo⟩
  rw [hcount, Inet.piecesBefore, Inet.piecesAfter_eq hd,
    map_lpad_hex fun w hw => Inet.lt_of_mem_words (List.mem_of_mem_take hw),
    map_lpad_hex fun w hw => Inet.lt_of_mem_words (List.mem_of_mem_drop hw)]
  have hgroups := congrArg (List.map (Numeral.padded 16 4)) hwords
  rw [List.map_append, List.map_append, List.map_replicate] at hgroups
  exact hgroups.symm

theorem suffix_hostText (h : ip.family = .inet6) :
    [':', ':'] <:+ ip.hostText ↔
      ∃ j, Inet.bestRun ip.words = some j ∧ ip.piecesAfter j = [] := by
  cases hrun : Inet.bestRun ip.words with
  | none =>
    have hpieces : ∀ s ∈ ip.words.map (Nat.toDigits 16), IsPiece s := isPiece_map_hex
    have hnot := not_suffix_joined (s := []) hpieces
      (by rw [← List.length_pos_iff, List.length_map, Inet.length_words]; decide)
    rw [Inet.hostText_none h hrun]
    simpa using hnot
  | some j =>
    rw [Inet.hostText_run h hrun]
    by_cases hq : ip.piecesAfter j = []
    · simp only [Option.some.injEq, exists_eq_left', hq, joined_nil, iff_true]
      exact ⟨_, rfl⟩
    · have hnot := not_suffix_joined (s := joined ':' (ip.piecesBefore j) ++ [':', ':'])
        Inet.isPiece_after hq
      simpa [hq] using hnot

/-- **`expand_ipv6_address`** without an IPv4 address at the end. -/
theorem expandIpv6Address_iff (h : ip.family = .inet6) (hd : ¬ ip.Dotted) :
    expandIpv6Address showsAll ip = .ok (joined ':' (groups ip)) ↔
      ¬ (Hidden showsAll ip ∧ [':', ':'] <:+ ip.hostText) := by
  have hstrip : stripColons (dropMask (ip.text showsAll)) = _ := stripColons_text h hd
  cases hrun : Inet.bestRun ip.words with
  | none =>
    have hnot : ¬ [':', ':'] <:+ ip.hostText := by
      rw [suffix_hostText h, hrun]
      simp
    have hpieces : ∀ s ∈ ip.words.map (Nat.toDigits 16), IsPiece s := isPiece_map_hex
    have hne : ip.words.map (Nat.toDigits 16) ≠ [] := by
      rw [← List.length_pos_iff, List.length_map, Inet.length_words]
      decide
    obtain ⟨c, t, hct, hc⟩ := head_joined hpieces hne
    have hdrop : dropColon ip.hostText = ip.hostText := if_neg <| by
      rw [Inet.hostText_none h hrun, hct]
      simpa using hc
    rw [if_neg fun hs => hnot hs.2, hdrop] at hstrip
    have hparts : (stripColons (dropMask (ip.text showsAll))).splitOn ':' =
        ip.words.map (Nat.toDigits 16) := by
      rw [hstrip, Inet.hostText_none h hrun, splitOn_pieces hpieces hne]
    refine iff_of_true ?_ fun hs => hnot hs.2
    rw [expandIpv6Address_eq h hparts, map_expandElem hpieces,
      map_lpad_hex fun w hw => Inet.lt_of_mem_words hw]
    rfl
  | some j =>
    obtain ⟨hgroups, hlen, htwo⟩ := groups_run hd hrun
    have htext := Inet.hostText_run h hrun
    have hp : ∀ s ∈ ip.piecesBefore j, IsPiece s := Inet.isPiece_before
    by_cases hq : ip.piecesAfter j = []
    · have hsuffix : [':', ':'] <:+ ip.hostText := (suffix_hostText h).mpr ⟨j, hrun, hq⟩
      rw [hq] at htext hgroups hlen
      by_cases hhidden : Hidden showsAll ip
      · rw [if_neg fun hs => hs.1 hhidden, htext] at hstrip
        have hparts := splitOn_dropColon (l := [[], []]) hp (by simp) (List.cons_ne_nil _ _)
        exact iff_of_false (expandIpv6Address_two h hp (by simpa using hlen) htwo
          (hstrip ▸ hparts)) fun hnot => hnot ⟨hhidden, hsuffix⟩
      · have hdrop : ip.hostText.dropLast =
            joined ':' (ip.piecesBefore j) ++ ':' :: joined ':' [[]] := by
          rw [htext]
          simp
        rw [if_pos ⟨hhidden, hsuffix⟩, hdrop] at hstrip
        have hparts := splitOn_dropColon (l := [[]]) hp (by simp) (List.cons_ne_nil _ _)
        refine iff_of_true ?_ fun hs => hhidden hs.1
        rw [expandIpv6Address_run h hp (List.forall_mem_nil _) (by simp at hlen ⊢; omega)
          (hstrip ▸ hparts), hgroups]
    · have hnot : ¬ [':', ':'] <:+ ip.hostText := by
        rw [suffix_hostText h, hrun]
        simpa using hq
      have hjoined : ':' :: joined ':' (ip.piecesAfter j) = joined ':' ([] :: ip.piecesAfter j) :=
        (joined_cons [] hq).symm
      rw [if_neg fun hs => hnot hs.2, htext, hjoined] at hstrip
      have hparts := splitOn_dropColon (l := [] :: ip.piecesAfter j) hp
        (fun s hs => (List.mem_cons.mp hs).elim (fun heq => by simp [heq])
          fun hs => (Inet.isPiece_after s hs).2) (List.cons_ne_nil _ _)
      refine iff_of_true ?_ fun hs => hnot hs.2
      rw [expandIpv6Address_run h hp Inet.isPiece_after (by omega) (hstrip ▸ hparts), hgroups]

/-! ## The parts of `expand_v6` -/

theorem length_sub_filter (s : List Char) :
    s.length - (s.filter (· ≠ ':')).length = s.count ':' := by
  induction s with
  | nil => rfl
  | cons c s ih =>
    have hle := List.length_filter_le (· ≠ ':') s
    by_cases hc : c = ':'
    · rw [hc, List.filter_cons_of_neg (by simp), List.count_cons_self, List.length_cons, ← ih]
      omega
    · rw [List.filter_cons_of_pos (by simpa using hc), List.count_cons_of_ne hc, List.length_cons,
        List.length_cons, ← ih]
      omega

theorem repeatZero_append (hne : q ≠ []) :
    repeatZero k ++ joined ':' q = joined ':' (List.replicate k ['0'] ++ q) := by
  induction k with
  | zero => rfl
  | succ k ih =>
    rw [List.replicate_succ, List.cons_append,
      joined_cons ['0'] (List.append_ne_nil_of_right_ne_nil _ hne), ← ih]
    rfl

theorem endColon_repeatZero (hq : ∀ s ∈ q, IsPiece s) :
    endColon (s ++ ':' :: (repeatZero k ++ joined ':' q)) = s ++ ':' :: joined ':'
      (List.replicate k ['0'] ++ if q = [] then [['0']] else q) := by
  by_cases hne : q = []
  · have hlast : (s ++ ':' :: (repeatZero k ++ joined ':' [])).getLast? = some ':' := by
      cases k with
      | zero => simp [repeatZero]
      | succ k =>
        have hend : ':' :: (repeatZero (k + 1) ++ joined ':' []) =
            (':' :: repeatZero k ++ ['0']) ++ [':'] := by
          simp [repeatZero, List.replicate_succ']
        rw [hend, ← List.append_assoc, List.getLast?_concat]
    rw [hne, if_pos rfl, ← repeatZero_append (List.cons_ne_nil _ _), endColon, if_pos hlast]
    simp
  · obtain ⟨l, c, hlc, hc⟩ := last_joined hq hne
    have hlast : (s ++ ':' :: (repeatZero k ++ joined ':' q)).getLast? ≠ some ':' := by
      rw [hlc, ← List.append_assoc, ← List.cons_append, ← List.append_assoc, List.getLast?_concat]
      simpa using hc
    rw [endColon, if_neg hlast, if_neg hne, repeatZero_append hne]

/-- **The parts that `expand_v6` finds.** -/
theorem expandV6_run (h : ip.family = .inet6) (hrun : Inet.bestRun ip.words = some j)
    (hp : p = ip.piecesBefore j) (hq : q = ip.piecesAfter j) :
    expandV6 ip = joined ':' (((if p = [] then [[]] else p) ++
      (List.replicate (6 - ((p.length - 1) + (q.length - 1))) ['0'] ++
        if q = [] then [['0']] else q)).map fun s => lpad s 4) := by
  have hpiece : ∀ s ∈ p, IsPiece s := hp ▸ Inet.isPiece_before
  have hpiece' : ∀ s ∈ q, IsPiece s := hq ▸ Inet.isPiece_after
  have hcut : cutDouble ip.hostText = some (joined ':' p, joined ':' q) := by
    rw [Inet.hostText_run h hrun, ← hp, ← hq, cutDouble_double hpiece]
  have hcount : (joined ':' p ++ joined ':' q).count ':' = (p.length - 1) + (q.length - 1) := by
    rw [List.count_append, count_joined fun s hs => (hpiece s hs).2,
      count_joined fun s hs => (hpiece' s hs).2]
  have hreplace : ∀ t, replaceDouble ip.hostText t = joined ':' p ++ (t ++ joined ':' q) :=
    fun t => by rw [replaceDouble, hcut]
  have hzeros : ∀ k, ∀ s ∈ List.replicate k ['0'] ++ (if q = [] then [['0']] else q), ':' ∉ s := by
    intro k s hs
    rcases List.mem_append.mp hs with hs | hs
    · rw [List.eq_of_mem_replicate hs]
      decide
    · split at hs
      · rw [List.mem_singleton.mp hs]
        decide
      · exact (hpiece' s hs).2
  have hne : ∀ k, List.replicate k ['0'] ++ (if q = [] then [['0']] else q) ≠ [] := fun k => by
    refine List.append_ne_nil_of_right_ne_nil _ ?_
    split
    · exact List.cons_ne_nil _ _
    · assumption
  unfold expandV6
  dsimp only
  rw [hreplace, hreplace, List.nil_append, length_sub_filter, hcount, List.cons_append,
    endColon_repeatZero hpiece', splitOn_colon hpiece (hzeros _) (hne _)]

theorem map_lpad_first : (if p = [] then [[]] else p).map (fun s => lpad s 4) =
    p.map (fun s => lpad s 4) ++ List.replicate (1 - p.length) (Numeral.padded 16 4 0) := by
  by_cases hp : p = []
  · rw [if_pos hp, hp]
    rfl
  · have hlen : 1 - p.length = 0 := by
      have := List.length_pos_iff.mpr hp
      omega
    rw [if_neg hp, hlen, List.replicate_zero, List.append_nil]

theorem map_lpad_last : (if q = [] then [['0']] else q).map (fun s => lpad s 4) =
    List.replicate (1 - q.length) (Numeral.padded 16 4 0) ++ q.map fun s => lpad s 4 := by
  by_cases hq : q = []
  · rw [if_pos hq, hq]
    rfl
  · have hlen : 1 - q.length = 0 := by
      have := List.length_pos_iff.mpr hq
      omega
    rw [if_neg hq, hlen, List.replicate_zero, List.nil_append]

/-- **`expand_v6`** without an IPv4 address at the end. -/
theorem expandV6_eq (h : ip.family = .inet6) (hd : ¬ ip.Dotted) :
    expandV6 ip = joined ':' (groups ip) := by
  cases hrun : Inet.bestRun ip.words with
  | none =>
    have hpieces : ∀ s ∈ ip.words.map (Nat.toDigits 16), IsPiece s := isPiece_map_hex
    have hne : ip.words.map (Nat.toDigits 16) ≠ [] := by
      rw [← List.length_pos_iff, List.length_map, Inet.length_words]
      decide
    have htext := Inet.hostText_none h hrun
    have hreplace : ∀ t, replaceDouble ip.hostText t = ip.hostText := fun t => by
      rw [replaceDouble, htext, cutDouble_joined hpieces]
    have hend : endColon ip.hostText = ip.hostText := by
      obtain ⟨l, c, hlc, hc⟩ := last_joined hpieces hne
      rw [htext, hlc, endColon, List.getLast?_concat]
      exact if_neg (by simpa using hc)
    unfold expandV6
    dsimp only
    rw [hreplace, hend, htext, splitOn_pieces hpieces hne,
      map_lpad_hex fun w hw => Inet.lt_of_mem_words hw]
    rfl
  | some j =>
    obtain ⟨hgroups, hlen, htwo⟩ := groups_run hd hrun
    rw [expandV6_run h hrun rfl rfl, List.map_append, List.map_append, map_lpad_first,
      map_lpad_last, List.map_replicate, lpad_zero, ← hgroups]
    generalize ip.piecesBefore j = p at hlen ⊢
    generalize ip.piecesAfter j = q at hlen ⊢
    have hcount : 8 - (p.length + q.length) =
        1 - p.length + (6 - ((p.length - 1) + (q.length - 1)) + (1 - q.length)) := by omega
    rw [hcount, List.replicate_add, List.replicate_add]
    simp only [List.append_assoc]

theorem dot_mem_lpad (ip : Inet) : '.' ∈ lpad ip.dottedQuad 4 := by
  have hlen : (Nat.toDigits 10 (ip.addr / 256 ^ 3 % 256)).length ≤ 3 :=
    Numeral.length_toDigits_le (by decide) (by decide)
      ((Nat.mod_lt _ (by decide)).trans (by decide))
  have htake : ∀ a b : List Char, a.length ≤ 3 → '.' ∈ (a ++ '.' :: b).take 4 := fun a b ha => by
    obtain ⟨m, hm⟩ : ∃ m, 4 - a.length = m + 1 := ⟨3 - a.length, by omega⟩
    rw [List.take_append, hm, List.take_succ_cons]
    exact List.mem_append_right _ List.mem_cons_self
  rw [lpad, Inet.dottedQuad_eq, List.leftpad, ← List.append_assoc]
  refine htake _ _ ?_
  rw [List.length_append, List.length_replicate, List.length_append, List.length_cons]
  omega

theorem expandV6_of_dotted (h : ip.family = .inet6) (hd : ip.Dotted) :
    expandV6 ip ≠ joined ':' (groups ip) := by
  have hquad : ip.dottedQuad ∈ ip.piecesAfter 0 := by
    rw [Inet.piecesAfter, if_pos hd]
    exact List.mem_append_right _ List.mem_cons_self
  have hmem : '.' ∈ expandV6 ip := by
    rw [expandV6_run h hd.1 rfl rfl, if_neg (List.ne_nil_of_mem hquad)]
    refine mem_joined_of_mem (List.mem_map.mpr ⟨ip.dottedQuad, ?_, rfl⟩) (dot_mem_lpad ip)
    exact List.mem_append_right _ (List.mem_append_right _ hquad)
  intro heq
  rw [heq] at hmem
  rcases mem_joined hmem with hcolon | ⟨s, hs, hdot⟩
  · exact absurd hcolon (by decide)
  · obtain ⟨w, -, rfl⟩ := List.mem_map.mp hs
    exact Numeral.notMem_padded (by decide) (by decide) hdot

/-! ## Digits with dots -/

theorem joined_dots (c : Char) : joined '.' (s.map (fun d => [d]) ++ [[c]]) =
    (s.flatMap fun d => [d, '.']) ++ [c] := by
  induction s with
  | nil => rfl
  | cons d s ih =>
    rw [List.map_cons, List.cons_append, joined_cons _ (by simp), ih]
    rfl

theorem rdropWhile_dots (h : '.' ∉ s) :
    (s.flatMap fun c => [c, '.']).rdropWhile (· = '.') = joined '.' (s.map fun c => [c]) := by
  rcases s.eq_nil_or_concat with rfl | ⟨u, c, rfl⟩
  · rfl
  · have hc : c ≠ '.' := fun heq => h (by simp [heq])
    have hlast : (u ++ [c]).flatMap (fun d => [d, '.']) =
        ((u.flatMap fun d => [d, '.']) ++ [c]) ++ ['.'] := by simp
    rw [List.concat_eq_append, hlast, List.rdropWhile_concat_pos _ _ _ (by simp),
      List.rdropWhile_concat_neg _ _ _ (by simpa using hc), List.map_append, List.map_singleton,
      joined_dots]

theorem v6Inaddr_eq (h : expandV6 ip = joined ':' (groups ip)) :
    v6Inaddr ip = joined '.' (nibbles ip) := by
  have hdot : '.' ∉ (Numeral.padded 16 32 ip.addr).reverse := fun hmem =>
    Numeral.notMem_padded (by decide) (by decide) (List.mem_reverse.mp hmem)
  rw [v6Inaddr, h, filter_joined colon_notMem_groups, flatten_groups, rdropWhile_dots hdot, nibbles]

/-! ## The three functions -/

/-- The run of zeros that is left out is at the end. -/
def EndsWithRun (ip : Inet) : Prop :=
  ∃ j, Inet.bestRun ip.words = some j ∧ j + Inet.zerosFrom ip.words j = 8

theorem suffix_iff_endsWithRun (h : ip.family = .inet6) (hd : ¬ ip.Dotted) :
    [':', ':'] <:+ ip.hostText ↔ EndsWithRun ip := by
  rw [suffix_hostText h, EndsWithRun]
  refine exists_congr fun j => and_congr_right fun hrun => ?_
  obtain ⟨-, hle, -⟩ := Inet.words_run hrun
  rw [Inet.piecesAfter_eq hd, List.map_eq_nil_iff, List.drop_eq_nil_iff, Inet.length_words]
  omega

/-- **An IPv6 address is written out** unless an IPv4 address is written at its end, or the text
ends with `::`. -/
theorem expanded_iff (showsAll : Bool) (ip : Inet) (h : ip.family = .inet6) :
    (expandIpv6Address showsAll ip = .ok (joined ':' (groups ip)) ∧
      expandV6 ip = joined ':' (groups ip) ∧ v6Inaddr ip = joined '.' (nibbles ip)) ↔
      ¬ ip.Dotted ∧ ¬ (showsAll = false ∧ ip.masklen = 128 ∧ EndsWithRun ip) := by
  by_cases hd : ip.Dotted
  · exact iff_of_false (fun hall => expandV6_of_dotted h hd hall.2.1) fun hnot => hnot.1 hd
  · have hbits : ip.family.bits = 128 := by rw [h]; rfl
    have hv6 := expandV6_eq h hd
    rw [expandIpv6Address_iff h hd, suffix_iff_endsWithRun h hd, Hidden, hbits]
    constructor
    · rintro ⟨hnot, -, -⟩
      exact ⟨hd, fun hc => hnot ⟨⟨hc.2.1, hc.1⟩, hc.2.2⟩⟩
    · rintro ⟨-, hnot⟩
      exact ⟨fun hc => hnot ⟨hc.1.2, hc.1.1, hc.2⟩, hv6, v6Inaddr_eq hv6⟩

/-- `2001:db8::1/64`. -/
def documentation : Inet := ⟨.inet6, 0x20010db8000000000000000000000001, 64, by decide, by decide⟩

theorem expanded_documentation : ¬ documentation.Dotted ∧
    (expandIpv6Address false documentation = .ok (joined ':' (groups documentation)) ∧
      expandV6 documentation = joined ':' (groups documentation) ∧
      v6Inaddr documentation = joined '.' (nibbles documentation)) := by
  have hd : ¬ documentation.Dotted := by decide
  exact ⟨hd, (expanded_iff false documentation rfl).mpr ⟨hd, fun hc => absurd hc.2.1 (by decide)⟩⟩

/-- `::ffff:192.0.2.1`. -/
def mapped : Inet := ⟨.inet6, 0xffffc0000201, 128, by decide, by decide⟩

/-- The address at the end is cut to four characters. -/
theorem expandV6_mapped : expandV6 mapped ≠ joined ':' (groups mapped) ∧
    expandIpv6Address true mapped ≠ .ok (joined ':' (groups mapped)) ∧
    expandIpv6Address false mapped ≠ .ok (joined ':' (groups mapped)) := by
  decide

end JazzHands.Dns

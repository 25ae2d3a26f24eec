import JazzHands.TableSync.Copied

/-!
# When the copy is one

A table that is made again starts without rows, and one that is kept has rows already;
`copyTable_mirrors_iff` says of both when the copy is the table upstream.  One way,
`copyRows_mirrors` follows the loops (`copyRows_loops`).  The other way, `canMirror_of_mirrors`
reads from a run that has ended well what it must have met: there was room for every row at its turn
(`room_of_foldlM`), no row stayed that no text finds (`copyRows_stays`), and no key came twice
(`copyRows_count`).
-/

namespace JazzHands.TableSync

open Library

variable {pk : List String} {up down t : Relation} {rows : List Row} {r : Row}
  {uporder dnorder : Order} {c : CopyConfig} {there : Option Relation}

/-- The run ends without error, with the columns and the rows of upstream. -/
def Mirrors (up : Relation) (x : Except Failure (Relation × ℕ)) : Prop :=
  ∃ s, x = .ok s ∧ s.1.columns = up.columns ∧ s.1.rows.Perm up.rows

/-- The table downstream, unless it is made again. -/
def CopyConfig.kept (c : CopyConfig) (up : Relation) (down : Option Relation) : Option Relation :=
  down.filter fun d => !c.schemasync || tableIdentical d.columns up.columns

/-! ## Texts that tell the keys apart -/

theorem toldApart_singleton {col : String} (h : ∀ r ∈ rows, r col ≠ none) :
    ToldApart [col] rows := by
  intro r hr r' hr' heq
  obtain ⟨v, hv⟩ := Option.ne_none_iff_exists'.mp (h r hr)
  obtain ⟨v', hv'⟩ := Option.ne_none_iff_exists'.mp (h r' hr')
  have hvv : v = v' := by simpa [joinKey, hv, hv'] using heq
  simp [hv, hv', hvv]

/-! ## The columns -/

theorem tableIdentical_iff {dncols upcols : List Column} : tableIdentical dncols upcols = true ↔
    dncols.length = upcols.length ∧ dncols.dropLast = upcols.dropLast := by
  rw [tableIdentical, Bool.and_eq_true, beq_iff_eq, List.all_eq_true]
  constructor
  · rintro ⟨hlength, hall⟩
    refine ⟨hlength.symm, List.ext_getElem? fun i => ?_⟩
    rw [List.getElem?_dropLast, List.getElem?_dropLast, hlength]
    by_cases hi : i < dncols.length - 1
    · have hcol := hall i (List.mem_range.mpr (hlength ▸ hi))
      rw [if_pos hi, if_pos hi, beq_iff_eq.mp hcol]
    · rw [if_neg hi, if_neg hi]
  · rintro ⟨hlength, hdrop⟩
    refine ⟨hlength.symm, fun i hi => beq_iff_eq.mpr ?_⟩
    have hi : i < upcols.length - 1 := List.mem_range.mp hi
    have hcol := congrArg (fun l : List Column => l[i]?) hdrop
    simp only [List.getElem?_dropLast, hlength, if_pos hi] at hcol
    exact hcol.symm

theorem tableIdentical_self {columns : List Column} : tableIdentical columns columns = true :=
  tableIdentical_iff.mpr ⟨rfl, rfl⟩

/-! ## The table that is compared -/

theorem prepare_kept {d : Relation} (h : c.kept up there = some d) :
    c.prepare up there = .ok (some d) := by
  obtain ⟨hd, hkeep⟩ := Option.filter_eq_some_iff.mp h
  subst hd
  cases hs : c.schemasync with
  | false => simp [CopyConfig.prepare, hs]
  | true =>
    have hidentical : tableIdentical d.columns up.columns = true := by simpa [hs] using hkeep
    simp [CopyConfig.prepare, hs, syncSchema, hidentical]

theorem mktable_eq_ok (hcols : ∀ col ∈ c.key up, col ∈ colnames up.columns) :
    ∃ t, mktable up c.pk = .ok t ∧ t.columns = up.columns ∧ t.primaryKey = c.key up ∧ t.rows = [] :=
  ⟨_, if_pos hcols, rfl, rfl, rfl⟩

theorem prepare_made (hkey : c.key up ≠ []) (hcols : ∀ col ∈ c.key up, col ∈ colnames up.columns)
    (hsame : c.schemasync = true ∨ ∃ d, there = some d ∧ d.columns = up.columns)
    (h : c.kept up there = none) : ∃ t, c.prepare up there = .ok (some t) ∧
      t.columns = up.columns ∧ t.primaryKey = c.key up ∧ t.rows = [] := by
  have hsync : c.schemasync = true := by
    refine hsame.resolve_right ?_
    rintro ⟨d, rfl, hcolumns⟩
    refine Option.filter_eq_none_iff.mp h d rfl ?_
    rw [hcolumns, tableIdentical_self, Bool.or_true]
  have hdifferent : tableIdentical (there.elim [] Relation.columns) up.columns = false := by
    cases there with
    | none =>
      obtain ⟨col, hcol⟩ := List.exists_mem_of_ne_nil _ hkey
      obtain ⟨column, hmem, -⟩ := List.mem_map.mp (hcols col hcol)
      have hlength : up.columns.length ≠ 0 := (List.length_pos_of_mem hmem).ne'
      rw [← Bool.not_eq_true, tableIdentical_iff]
      exact fun hlen => hlength hlen.1.symm
    | some d => simpa [hsync] using Option.filter_eq_none_iff.mp h d rfl
  obtain ⟨t, ht, hmade⟩ := mktable_eq_ok hcols
  refine ⟨t, ?_, hmade⟩
  rw [CopyConfig.prepare, if_pos hsync, syncSchema, if_neg (by simp [hdifferent]), ht]
  rfl

/-! ## A table that is kept -/

/-- What a table that is kept must be like for the copy to be one. -/
structure CanMirror (order : Order) (pk : List String) (up down : Relation) : Prop where
  columns : down.columns = up.columns
  plain : ∀ r ∈ down.rows, r ∉ up.rows → Plain pk r
  /-- No key of upstream occurs twice. -/
  once : ∀ u ∈ up.rows, (down.rows.map (keyOf pk)).count (keyOf pk u) ≤ 1
  /-- The constraint downstream holds while the rows with the first texts are as upstream, and the
  others as they were. -/
  room : ∀ done, done <+: order.keys ((order.orderBy pk up.rows).map (joinKey pk)).dedup →
    Keyed down.primaryKey (halfway (joinKey pk) down.rows up.rows done)

/-- With the same primary key there is always room. -/
theorem keyed_halfway (hup : Keyed pk up.rows) (hdown : Keyed pk down.rows) (done : List String) :
    Keyed pk (halfway (joinKey pk) down.rows up.rows done) := by
  refine fun hpk => ⟨fun r hr => ?_, ?_⟩
  · rcases List.mem_append.mp hr with hr | hr
    · exact (hdown hpk).1 r (List.mem_filter.mp hr).1
    · exact (hup hpk).1 r (List.mem_filter.mp hr).1
  · rw [halfway, List.map_append, List.nodup_append']
    refine ⟨(hdown hpk).2.sublist (List.filter_sublist.map _),
      (hup hpk).2.sublist (List.filter_sublist.map _), fun v hv hv' => ?_⟩
    obtain ⟨r, hr, rfl⟩ := List.mem_map.mp hv
    obtain ⟨r', hr', heq⟩ := List.mem_map.mp hv'
    have hnot := of_decide_eq_true (List.mem_filter.mp hr).2
    exact hnot (joinKey_congr heq ▸ of_decide_eq_true (List.mem_filter.mp hr').2)

theorem CanMirror.of_primaryKey (hdown : down.primaryKey = pk) (hpk : pk ≠ [])
    (hup : Keyed pk up.rows) (hcolumns : down.columns = up.columns)
    (hplain : ∀ r ∈ down.rows, r ∉ up.rows → Plain pk r) : CanMirror uporder pk up down :=
  have hkeyed : Keyed pk down.rows := hdown ▸ down.keyed
  ⟨hcolumns, hplain, fun _ _ => List.nodup_iff_count_le_one.mp (hkeyed hpk).2 _,
    fun done _ => hdown.symm ▸ keyed_halfway hup hkeyed done⟩

theorem plain_of_mirrors (h : Mirrors up (copyRows uporder dnorder pk up down)) :
    down.columns = up.columns ∧ ∀ r ∈ down.rows, r ∉ up.rows → Plain pk r := by
  obtain ⟨s, hs, hcolumns, hrows⟩ := h
  have hstays := copyRows_stays hs
  refine ⟨hstays.columns.symm.trans hcolumns, fun r hr hnot => ?_⟩
  by_contra hplain
  exact hnot (hrows.mem_iff.mp (hstays.rows r hr fun k hk => hplain (plain_of_dbKey_eq hk)))

section

variable (hpk : pk ≠ []) (hup : Keyed pk up.rows) (htold : ToldApart pk (up.rows ++ down.rows))

include hpk hup htold

theorem copyRows_mirrors (hcols : ∀ col ∈ pk, col ∈ colnames up.columns)
    (h : CanMirror uporder pk up down) : Mirrors up (copyRows uporder dnorder pk up down) := by
  obtain ⟨fromt, hfrom⟩ : ∃ f, fetchTable uporder up pk = .ok f := fetchTable_eq_ok hpk hcols
  obtain ⟨downt, hdown⟩ : ∃ f, fetchTable dnorder down pk = .ok f :=
    fetchTable_eq_ok hpk (h.columns.symm ▸ hcols)
  have hroom := h.room
  rw [← keys_of_fetchTable hfrom] at hroom
  obtain ⟨s, hs, s', hs', hmirrors⟩ :=
    copyRows_loops ⟨hpk, h.columns, hup, htold, h.plain, h.once, fetchedFrom_of_eq_ok hfrom,
      fetchedFrom_of_eq_ok hdown⟩ hroom
  refine ⟨s', ?_, hmirrors⟩
  simp only [copyRows, bind_ok_iff]
  exact ⟨fromt, hfrom, downt, hdown, s, hs, hs'⟩

theorem canMirror_of_mirrors (h : Mirrors up (copyRows uporder dnorder pk up down)) :
    CanMirror uporder pk up down := by
  obtain ⟨hcolumns, hplain⟩ := plain_of_mirrors h
  obtain ⟨s, hs, -, hrows⟩ := h
  have honce : ∀ u ∈ up.rows, (down.rows.map (keyOf pk)).count (keyOf pk u) ≤ 1 := fun u hu => by
    refine (copyRows_count htold hpk hplain hu hs).trans ?_
    rw [(hrows.map _).count_eq]
    exact List.nodup_iff_count_le_one.mp (hup hpk).2 _
  refine ⟨hcolumns, hplain, honce, ?_⟩
  simp only [copyRows, bind_ok_iff] at hs
  obtain ⟨fromt, hfrom, downt, hdown, s₁, hs₁, -⟩ := hs
  rw [← keys_of_fetchTable hfrom]
  exact room_of_foldlM ⟨hpk, hcolumns, hup, htold, hplain, honce, fetchedFrom_of_eq_ok hfrom,
    fetchedFrom_of_eq_ok hdown⟩ hs₁

end

/-! ## When the copy is one -/

/-- Into a table without rows come those of the hash, which have different texts. -/
theorem toldApart_of_mirrors (hdown : down.rows = [])
    (h : Mirrors up (copyRows uporder dnorder pk up down)) : ToldApart pk up.rows := by
  obtain ⟨s, hs, -, hrows⟩ := h
  simp only [copyRows, bind_ok_iff] at hs
  obtain ⟨fromt, hfrom, downt, hdown', s₁, hs₁, hs⟩ := hs
  have hfromt := fetchedFrom_of_eq_ok hfrom
  have hdownt := fetchedFrom_of_eq_ok hdown'
  have hcopied : ∀ r ∈ s₁.1.rows, fromt.row (joinKey pk r) = some r := by
    refine foldlM_preserves (I := fun s : Relation × ℕ => ∀ r ∈ s.1.rows,
      fromt.row (joinKey pk r) = some r) (fun k _ s s' h hs => ?_) (fun r hr => ?_) hs₁
    · rcases copyRow_cases hs with heq | ⟨-, u, hu, ⟨-, hinsert⟩ | ⟨d, hd, -⟩⟩
      · rwa [heq]
      · -- what is inserted is the row of the text
        obtain ⟨hmem, huk⟩ := hfromt.mem hu
        rw [hinsert, hfromt.columns, inserted_eq_self (up.fits u hmem)]
        simp only [List.mem_append, List.mem_singleton]
        rintro r (hr | rfl)
        · exact h r hr
        · rw [huk, hu]
      · obtain ⟨hmem, -⟩ := hdownt.mem hd
        exact absurd (hdown ▸ hmem) List.not_mem_nil
    · exact absurd (hdown ▸ hr) List.not_mem_nil
  have hnokeys : downt.keys = [] := by
    refine List.eq_nil_iff_forall_not_mem.mpr fun k hk => ?_
    obtain ⟨r, hr, -⟩ := hdownt.keys.mp hk
    exact absurd (hdown ▸ hr) List.not_mem_nil
  rw [hnokeys] at hs
  obtain rfl : s₁ = s := Except.ok.inj hs
  intro r hr r' hr' heq
  have hsame := hcopied r (hrows.mem_iff.mpr hr)
  rw [heq, hcopied r' (hrows.mem_iff.mpr hr')] at hsame
  rw [Option.some_inj.mp hsame]

theorem of_mirrors_kept {d : Relation} (h : Mirrors up (copyTable uporder dnorder c up there))
    (hkept : c.kept up there = some d) :
    d.columns = up.columns ∧ ∀ r ∈ d.rows, r ∉ up.rows → Plain (c.key up) r := by
  rw [copyTable, prepare_kept hkept] at h
  exact plain_of_mirrors h

/-- **When the copy is one.**  A table that is made again mirrors the one upstream exactly if the
joined texts tell the rows of upstream apart.  One that is kept, with texts that tell all keys
apart, mirrors it exactly if it can. -/
theorem copyTable_mirrors_iff (hkey : c.key up ≠ [])
    (hcols : ∀ col ∈ c.key up, col ∈ colnames up.columns) (hup : Keyed (c.key up) up.rows)
    (hsame : c.schemasync = true ∨ ∃ d, there = some d ∧ d.columns = up.columns)
    (hkeep : ∀ d ∈ c.kept up there, ToldApart (c.key up) (up.rows ++ d.rows)) :
    Mirrors up (copyTable uporder dnorder c up there) ↔
      ToldApart (c.key up) up.rows ∧ ∀ d ∈ c.kept up there, CanMirror uporder (c.key up) up d := by
  cases hkept : c.kept up there with
  | none =>
    obtain ⟨t, ht, hcolumns, hprimary, hrows⟩ := prepare_made hkey hcols hsame hkept
    rw [copyTable, ht]
    constructor
    · exact fun h => ⟨toldApart_of_mirrors hrows h, fun d hd => absurd hd (by simp)⟩
    · rintro ⟨htold, -⟩
      refine copyRows_mirrors hkey hup ?_ hcols (.of_primaryKey hprimary hkey hup hcolumns ?_)
      · rwa [hrows, List.append_nil]
      · exact fun r hr => absurd (hrows ▸ hr) List.not_mem_nil
  | some d =>
    have htold := hkeep d hkept
    rw [copyTable, prepare_kept hkept]
    constructor
    · intro h
      refine ⟨fun r hr r' hr' => ?_, ?_⟩
      · exact htold r (List.mem_append_left _ hr) r' (List.mem_append_left _ hr')
      · rintro _ ⟨⟩
        exact canMirror_of_mirrors hkey hup htold h
    · exact fun h => copyRows_mirrors hkey hup htold hcols (h.2 d rfl)

/-! ## Sites and their cities -/

/-- Rows are sent and keys are listed in the order in which they are. -/
def Order.asIs : Order :=
  ⟨fun _ rows => rows, fun ks => ks, fun _ _ => .refl _, fun _ => .refl _⟩

def site (code city : String) : Row := fun c =>
  if c = "site_code" then some code else if c = "city" then some city else none

/-- A table of sites; the last column has some type. -/
def sites (coltype : String) (l : List (String × String)) (h : (l.map Prod.fst).Nodup) :
    Relation where
  columns := [⟨"site_code", "text"⟩, ⟨"city", coltype⟩]
  primaryKey := ["site_code"]
  rows := l.map fun x => site x.1 x.2
  keyed := fun _ => by
    constructor
    · intro r hr
      obtain ⟨x, -, rfl⟩ := List.mem_map.mp hr
      simp [site]
    · rw [List.map_map]
      refine List.Nodup.of_map (fun v => v.head?.join.getD "") ?_
      rw [List.map_map]
      exact h
  fits := by
    intro r hr c hc
    obtain ⟨x, -, rfl⟩ := List.mem_map.mp hr
    simp_all [site]

theorem key_sites {coltype : String} {l : List (String × String)} {h : (l.map Prod.fst).Nodup} :
    CopyConfig.key ⟨true, none⟩ (sites coltype l h) ≠ [] :=
  List.cons_ne_nil _ _

theorem copyTable_mirrors_sites : Mirrors
    (sites "text" [("NYC", "New York"), ("SJC", "San Jose")] (by decide))
    (copyTable Order.asIs Order.asIs ⟨true, none⟩
      (sites "text" [("NYC", "New York"), ("SJC", "San Jose")] (by decide))
      (some (sites "text" [("NYC", "Newark"), ("LON", "London")] (by decide)))) := by
  have hkept : ∀ d, CopyConfig.kept ⟨true, none⟩
      (sites "text" [("NYC", "New York"), ("SJC", "San Jose")] (by decide))
      (some (sites "text" [("NYC", "Newark"), ("LON", "London")] (by decide))) = some d →
      sites "text" [("NYC", "Newark"), ("LON", "London")] (by decide) = d :=
    fun d hd => Option.some_inj.mp (Option.filter_eq_some_iff.mp hd).1
  refine (copyTable_mirrors_iff key_sites (by decide) (Relation.keyed _) (.inl rfl)
    fun d hd => ?_).mpr ⟨?_, fun d hd => ?_⟩
  · obtain rfl := hkept d hd
    exact toldApart_singleton (by simp [sites, site])
  · exact toldApart_singleton (by simp [sites, site])
  · obtain rfl := hkept d hd
    refine .of_primaryKey rfl key_sites (Relation.keyed _) rfl fun r hr hnot => ?_
    obtain ⟨x, hx, rfl⟩ := List.mem_map.mp hr
    refine ⟨[x.1], 0, rfl, ?_⟩
    clear hr hnot
    revert x
    decide

/-- A key with a comma ends the run, a row with an empty key is not updated, and another type of the
last column is not noticed. -/
theorem copyTable_not_mirrors :
    (copyTable Order.asIs Order.asIs ⟨true, none⟩ (sites "text" [("NYC,1", "New York")] (by decide))
      (some (sites "text" [("NYC,1", "Newark")] (by decide))) =
        .error (.died "DBUpdate: must be same number of values as keys")) ∧
    (¬ Mirrors (sites "text" [("", "New York")] (by decide))
      (copyTable Order.asIs Order.asIs ⟨true, none⟩ (sites "text" [("", "New York")] (by decide))
        (some (sites "text" [("", "Newark")] (by decide))))) ∧
    ¬ Mirrors (sites "text" [("NYC", "New York")] (by decide))
      (copyTable Order.asIs Order.asIs ⟨true, none⟩ (sites "text" [("NYC", "New York")] (by decide))
        (some (sites "varchar" [("NYC", "New York")] (by decide)))) := by
  refine ⟨rfl, fun h => ?_, fun h => ?_⟩
  · have hnot : site "" "Newark" ∉ [site "" "New York"] := fun hmem => by
      have hcity := congrFun (List.mem_singleton.mp hmem) "city"
      exact absurd hcity (by decide)
    exact (of_mirrors_kept (d := sites "text" [("", "Newark")] (by decide))
      h rfl).2 _ List.mem_cons_self hnot |>.last_ne rfl rfl
  · have hcolumns := (of_mirrors_kept (d := sites "varchar" [("NYC", "New York")] (by decide))
      h rfl).1
    revert hcolumns
    decide

end JazzHands.TableSync

import JazzHands.Postgres.RowStatement
import JazzHands.Zonegen.GenerateZones

/-!
# Which zones a run generates, and which change records it deletes

The hash of zones is followed through the loops of the script one key at a time (`recordsAt`,
`bumpAt`, `reviewed`), which is enough, since no turn looks at another key.
-/

namespace JazzHands.Zonegen

variable {Inet : Type} {o : Options} {env : Environment} {db db' : Db Inet} {g g' : Generate}
  {hr : Pending} {z : Zone} {k dom : String} {e : Entry} {getDomainFromCidr : Inet → String}

structure Constraints (db : Db Inet) : Prop where
  domainKey : (db.dnsDomain.map (·.dnsDomainId)).Nodup
  nameKey : (db.dnsDomain.map (·.dnsDomainName)).Nodup
  universeKey : (db.dnsDomainIpUniverse.map fun du => (du.dnsDomainId, du.ipUniverseId)).Nodup
  changeKey : (db.dnsChangeRecord.map (·.dnsChangeRecordId)).Nodup

/-! ## The hash -/

/-- The elements of `rec` under a key. -/
def recordsAt (g : Generate) (k : String) : List Rec := (g.lookup k).elim [] Entry.records

/-- `bumpsoa` under a key. -/
def bumpAt (g : Generate) (k : String) : Bool := (g.lookup k).any Entry.bumpsoa

theorem lookup_eq_none_iff : g.lookup k = none ↔ recordsAt g k = [] := by
  cases h : g.lookup k with
  | none => simp [recordsAt, h]
  | some e => simp [recordsAt, h, Entry.records]

theorem recordsAt_collect :
    recordsAt (collect g hr) k = recordsAt g k ++ if hr.dom = k then [hr.toRec] else [] := by
  by_cases hk : hr.dom = k
  · subst hk
    cases h : g.lookup hr.dom <;> simp [recordsAt, collect, h, Entry.records]
  · have hlookup : (collect g hr).lookup k = g.lookup k := by
      rw [collect]
      split <;> exact AList.lookup_insert_ne (Ne.symm hk)
    simp [recordsAt, hlookup, hk]

theorem bumpAt_collect : bumpAt (collect g hr) k = (bumpAt g k || decide (hr.dom = k)) := by
  by_cases hk : hr.dom = k
  · subst hk
    cases h : g.lookup hr.dom <;> simp [bumpAt, collect, h]
  · have hlookup : (collect g hr).lookup k = g.lookup k := by
      rw [collect]
      split <;> exact AList.lookup_insert_ne (Ne.symm hk)
    simp [bumpAt, hlookup, hk]

theorem recordsAt_foldl_collect (l : List Pending) :
    recordsAt (l.foldl collect g) k =
      recordsAt g k ++ (l.filter fun hr => hr.dom = k).map Pending.toRec := by
  induction l generalizing g with
  | nil => simp
  | cons hr l ih =>
    rw [List.foldl_cons, ih, recordsAt_collect, List.filter_cons]
    by_cases hk : hr.dom = k <;> simp [hk]

theorem bumpAt_foldl_collect (l : List Pending) :
    bumpAt (l.foldl collect g) k = (bumpAt g k || l.any fun hr => hr.dom = k) := by
  induction l generalizing g with
  | nil => simp
  | cons hr l ih => rw [List.foldl_cons, ih, bumpAt_collect, List.any_cons, Bool.or_assoc]

/-- What becomes of the entry of a zone. -/
def reviewed (o : Options) (env : Environment) (z : Zone) (e? : Option Entry) : Option Entry :=
  if o.refuses z then none
  else match e? with
    | some e => some e
    | none => if genit o env z then some ⟨false, ⟨none, z.dnsDomainId⟩, []⟩ else none

theorem reviewed_of_refuses (h : o.refuses z = true) (e? : Option Entry) :
    reviewed o env z e? = none := if_pos h

theorem reviewed_some (h : ¬ o.refuses z = true) : reviewed o env z (some e) = some e := if_neg h

theorem reviewed_none (h : ¬ o.refuses z = true) : reviewed o env z none =
    if genit o env z then some ⟨false, ⟨none, z.dnsDomainId⟩, []⟩ else none := if_neg h

theorem lookup_review_self :
    (review o env g z).lookup z.soaName = reviewed o env z (g.lookup z.soaName) := by
  unfold review reviewed
  split
  · exact AList.lookup_erase _ _
  · cases h : g.lookup z.soaName with
    | some e =>
      have hmem : z.soaName ∈ g := AList.lookup_isSome.mp (by rw [h]; rfl)
      rw [if_pos hmem, h]
    | none =>
      have hmem : z.soaName ∉ g := AList.lookup_eq_none.mp h
      rw [if_neg hmem]
      dsimp only
      split
      · exact AList.lookup_insert _
      · exact h

theorem lookup_review_ne (hne : z.soaName ≠ k) : (review o env g z).lookup k = g.lookup k := by
  rw [review]
  split
  · exact AList.lookup_erase_ne (Ne.symm hne)
  · split
    · rfl
    · split
      · exact AList.lookup_insert_ne (Ne.symm hne)
      · rfl

theorem lookup_foldl_review_of_notMem {l : List Zone} (h : ∀ z ∈ l, z.soaName ≠ k) :
    (l.foldl (review o env) g).lookup k = g.lookup k := by
  induction l generalizing g with
  | nil => rfl
  | cons z l ih =>
    rw [List.foldl_cons, ih fun z' hz' => h z' (List.mem_cons_of_mem _ hz'),
      lookup_review_ne (h z List.mem_cons_self)]

theorem lookup_foldl_review {l : List Zone} (hl : (l.map (·.soaName)).Nodup) (hz : z ∈ l) :
    (l.foldl (review o env) g).lookup z.soaName = reviewed o env z (g.lookup z.soaName) := by
  induction l generalizing g with
  | nil => cases hz
  | cons z' l ih =>
    rw [List.map_cons, List.nodup_cons] at hl
    rw [List.foldl_cons]
    rcases List.mem_cons.mp hz with rfl | hz
    · have hnot : ∀ z' ∈ l, z'.soaName ≠ z.soaName :=
        fun z' hz' heq => hl.1 (heq ▸ List.mem_map_of_mem hz')
      rw [lookup_foldl_review_of_notMem hnot, lookup_review_self]
    · have hne : z'.soaName ≠ z.soaName :=
        fun heq => hl.1 (heq ▸ List.mem_map_of_mem (f := Zone.soaName) hz)
      rw [ih hl.2 hz, lookup_review_ne hne]

/-! ## Zones -/

variable {n n' : DnsDomain} {du : DomainUniverse} {x y : String × Entry}

section

variable (hdb : Constraints db)
include hdb

theorem Constraints.find?_domain (hn : n ∈ db.dnsDomain) :
    db.dnsDomain.find? (fun n' => n'.dnsDomainId = n.dnsDomainId) = some n :=
  Library.find?_key hdb.domainKey hn

theorem Constraints.eq_of_id (hn : n ∈ db.dnsDomain) (hn' : n' ∈ db.dnsDomain)
    (h : n.dnsDomainId = n'.dnsDomainId) : n = n' :=
  List.inj_on_of_nodup_map hdb.domainKey hn hn' h

theorem Constraints.eq_of_name (hn : n ∈ db.dnsDomain) (hn' : n' ∈ db.dnsDomain)
    (h : n.dnsDomainName = n'.dnsDomainName) : n = n' :=
  List.inj_on_of_nodup_map hdb.nameKey hn hn' h

/-- The row of the view for one of the table. -/
def zoneOf (n : DnsDomain) (du : DomainUniverse) : Zone :=
  ⟨n.dnsDomainId, n.dnsDomainName, du.soaSerial, du.shouldGenerate, du.lastGenerated⟩

theorem mem_vDnsDomainNouniverse :
    z ∈ vDnsDomainNouniverse db ↔ ∃ n ∈ db.dnsDomain, ∃ du ∈ db.dnsDomainIpUniverse,
      du.IsOf n.dnsDomainId ∧ z = zoneOf n du := by
  rw [vDnsDomainNouniverse, List.mem_filterMap]
  constructor
  · rintro ⟨du, hdu, hz⟩
    split at hz
    · next hu =>
      obtain ⟨n, hn, rfl⟩ := Option.map_eq_some_iff.mp hz
      obtain ⟨hn, hid⟩ := Library.of_find?_eq_some hn
      exact ⟨n, hn, du, hdu, ⟨hid.symm, hu⟩, by rw [zoneOf, hid]⟩
    · cases hz
  · rintro ⟨n, hn, du, hdu, ⟨hid, hu⟩, rfl⟩
    refine ⟨du, hdu, ?_⟩
    rw [if_pos hu, hid, hdb.find?_domain hn]
    rfl

/-- The rows of the view, each from a row of the table of its own. -/
theorem pairwise_vDnsDomainNouniverse {R : Zone → Zone → Prop}
    (hR : ∀ n ∈ db.dnsDomain, ∀ n' ∈ db.dnsDomain, ∀ du du', n ≠ n' →
      R (zoneOf n du) (zoneOf n' du')) : (vDnsDomainNouniverse db).Pairwise R := by
  rw [vDnsDomainNouniverse, List.pairwise_filterMap]
  refine (List.pairwise_map.mp hdb.universeKey).imp fun {du du'} hne z hz z' hz' => ?_
  split at hz
  · next hu =>
    split at hz'
    · next hu' =>
      obtain ⟨n, hn, rfl⟩ := Option.map_eq_some_iff.mp hz
      obtain ⟨n', hn', rfl⟩ := Option.map_eq_some_iff.mp hz'
      obtain ⟨hn, hid⟩ := Library.of_find?_eq_some hn
      obtain ⟨hn', hid'⟩ := Library.of_find?_eq_some hn'
      rw [← hid, ← hid']
      refine hR n hn n' hn' du du' ?_
      rintro rfl
      exact hne (Prod.ext (hid.symm.trans hid') (hu.trans hu'.symm))
    · cases hz'
  · cases hz

theorem nodup_soaName : ((vDnsDomainNouniverse db).map (·.soaName)).Nodup :=
  List.pairwise_map.mpr (pairwise_vDnsDomainNouniverse hdb fun _ hn _ hn' _ _ hne heq =>
    hne (hdb.eq_of_name hn hn' heq))

theorem nodup_dnsDomainId : ((vDnsDomainNouniverse db).map (·.dnsDomainId)).Nodup :=
  List.pairwise_map.mpr (pairwise_vDnsDomainNouniverse hdb fun _ hn _ hn' _ _ hne heq =>
    hne (hdb.eq_of_id hn hn' heq))

theorem exists_dnsDomain (hz : z ∈ vDnsDomainNouniverse db) :
    ∃ n ∈ db.dnsDomain, n.dnsDomainId = z.dnsDomainId ∧ n.dnsDomainName = z.soaName := by
  obtain ⟨n, hn, du, -, -, rfl⟩ := (mem_vDnsDomainNouniverse hdb).mp hz
  exact ⟨n, hn, rfl, rfl⟩

theorem soaSerial_eq_some (hn : n ∈ db.dnsDomain) {s : ℤ} :
    soaSerial db n.dnsDomainId = some s ↔ ∃ du ∈ db.dnsDomainIpUniverse,
      du.IsOf n.dnsDomainId ∧ du.soaSerial = some s := by
  rw [soaSerial, Option.bind_eq_some_iff]
  constructor
  · rintro ⟨z, hz, hs⟩
    obtain ⟨n', hn', du, hdu, hof, rfl⟩ :=
      (mem_vDnsDomainNouniverse hdb).mp (List.mem_of_find?_eq_some hz)
    have hid : (zoneOf n' du).dnsDomainId = n.dnsDomainId := by simpa using List.find?_some hz
    exact ⟨du, hdu, hid ▸ hof, hs⟩
  · rintro ⟨du, hdu, hof, hs⟩
    have hz : zoneOf n du ∈ vDnsDomainNouniverse db :=
      (mem_vDnsDomainNouniverse hdb).mpr ⟨n, hn, du, hdu, hof, rfl⟩
    exact ⟨zoneOf n du, Library.find?_key (nodup_dnsDomainId hdb) hz, hs⟩

end

theorem mem_pendingRows {chg : ChangeRecord Inet} {on : DnsDomain → DomainUniverse → Bool}
    (h : hr ∈ pendingRows db chg on) : hr.dnsChangeRecordId = chg.dnsChangeRecordId ∧
      ∃ n ∈ db.dnsDomain, n.dnsDomainId = hr.dnsDomainId ∧ n.dnsDomainName = hr.soaName := by
  obtain ⟨n, hn, h⟩ := List.mem_flatMap.mp h
  obtain ⟨du, -, rfl⟩ := List.mem_map.mp h
  exact ⟨rfl, n, hn, rfl, rfl⟩

theorem mem_vDnsChangesPending (h : hr ∈ vDnsChangesPending getDomainFromCidr db) :
    (∃ r ∈ db.dnsChangeRecord, r.dnsChangeRecordId = hr.dnsChangeRecordId) ∧
      ∃ n ∈ db.dnsDomain, n.dnsDomainId = hr.dnsDomainId ∧ n.dnsDomainName = hr.soaName := by
  have hrows : ∃ chg ∈ db.dnsChangeRecord, ∃ on, hr ∈ pendingRows db chg on := by
    simp only [vDnsChangesPending, List.mem_append, List.mem_flatMap] at h
    rcases h with ((⟨chg, hchg, h⟩ | ⟨chg, hchg, h⟩) | ⟨chg, hchg, h⟩) | ⟨chg, hchg, iv, -, h⟩
    all_goals exact ⟨chg, hchg, _, h⟩
  obtain ⟨chg, hchg, on, h⟩ := hrows
  obtain ⟨hid, hdomain⟩ := mem_pendingRows h
  exact ⟨⟨chg, hchg, hid.symm⟩, hdomain⟩

/-! ## What is chosen -/

/-- The key is taken out of the hash. -/
def Refused (o : Options) (db : Db Inet) (k : String) : Prop :=
  ∃ z ∈ vDnsDomainNouniverse db, z.soaName = k ∧ o.refuses z = true

/-- The zone is new in the hash, without a change. -/
def Added (o : Options) (env : Environment) (db : Db Inet) (k : String) (z : Zone) : Prop :=
  z ∈ vDnsDomainNouniverse db ∧ z.soaName = k ∧ genit o env z = true

variable (getDomainFromCidr) in
/-- The key has pending rows. -/
def Changed (o : Options) (env : Environment) (db : Db Inet) (k : String) : Prop :=
  ∃ hr ∈ considered getDomainFromCidr o env db, hr.dom = k

theorem lookup_choose_of_refused (hdb : Constraints db) (h : Refused o db k) :
    (choose getDomainFromCidr o env db).lookup k = none := by
  obtain ⟨z, hz, rfl, hrefuses⟩ := h
  rw [choose, lookup_foldl_review (nodup_soaName hdb) hz,
    reviewed_of_refuses hrefuses]

theorem lookup_choose_of_changed (hdb : Constraints db) (h : ¬ Refused o db k)
    (hk : Changed getDomainFromCidr o env db k) :
    ∃ e, (choose getDomainFromCidr o env db).lookup k = some e ∧ e.bumpsoa = true ∧
      e.records = ((considered getDomainFromCidr o env db).filter fun hr => hr.dom = k).map
        Pending.toRec := by
  have hrecords := recordsAt_foldl_collect (g := ∅) (k := k) (considered getDomainFromCidr o env db)
  have hbump := bumpAt_foldl_collect (g := ∅) (k := k) (considered getDomainFromCidr o env db)
  obtain ⟨hr, hhr, rfl⟩ := hk
  have hany : ((considered getDomainFromCidr o env db).any fun hr' => hr'.dom = hr.dom) = true :=
    List.any_eq_true.mpr ⟨hr, hhr, decide_eq_true rfl⟩
  rw [hany, Bool.or_true] at hbump
  cases hlookup : ((considered getDomainFromCidr o env db).foldl collect ∅).lookup hr.dom with
  | none =>
    rw [bumpAt, hlookup] at hbump
    cases hbump
  | some e =>
    rw [recordsAt, hlookup] at hrecords
    rw [bumpAt, hlookup] at hbump
    refine ⟨e, ?_, hbump, by simpa [recordsAt] using hrecords⟩
    by_cases hz : ∃ z ∈ vDnsDomainNouniverse db, z.soaName = hr.dom
    · obtain ⟨z, hz, hname⟩ := hz
      have hrefuses : ¬ o.refuses z = true := fun hrefuses => h ⟨z, hz, hname, hrefuses⟩
      rw [choose, ← hname, lookup_foldl_review (nodup_soaName hdb) hz, hname, hlookup,
        reviewed_some hrefuses]
    · rw [choose, lookup_foldl_review_of_notMem (fun z hz' heq => hz ⟨z, hz', heq⟩), hlookup]

theorem lookup_choose_of_not_changed (hdb : Constraints db) (h : ¬ Refused o db k)
    (hk : ¬ Changed getDomainFromCidr o env db k) :
    (choose getDomainFromCidr o env db).lookup k = some e ↔
      ∃ z, Added o env db k z ∧ e = ⟨false, ⟨none, z.dnsDomainId⟩, []⟩ := by
  have hlookup : ((considered getDomainFromCidr o env db).foldl collect ∅).lookup k = none := by
    rw [lookup_eq_none_iff, recordsAt_foldl_collect]
    have hnil : (considered getDomainFromCidr o env db).filter (fun hr => hr.dom = k) = [] := by
      rw [List.filter_eq_nil_iff]
      exact fun hr hhr hdom => hk ⟨hr, hhr, of_decide_eq_true hdom⟩
    rw [hnil]
    rfl
  by_cases hz : ∃ z ∈ vDnsDomainNouniverse db, z.soaName = k
  · obtain ⟨z, hz, rfl⟩ := hz
    have hrefuses : ¬ o.refuses z = true := fun hrefuses => h ⟨z, hz, rfl, hrefuses⟩
    rw [choose, lookup_foldl_review (nodup_soaName hdb) hz, hlookup,
      reviewed_none hrefuses]
    constructor
    · intro he
      split at he
      · next hgen => exact ⟨z, ⟨hz, rfl, hgen⟩, (Option.some.inj he).symm⟩
      · cases he
    · rintro ⟨z', ⟨hz', hname, hgen⟩, rfl⟩
      obtain rfl := List.inj_on_of_nodup_map (nodup_soaName hdb) hz' hz hname
      rw [if_pos hgen]
  · rw [choose, lookup_foldl_review_of_notMem (fun z hz' heq => hz ⟨z, hz', heq⟩), hlookup]
    constructor
    · intro he
      cases he
    · rintro ⟨z, ⟨hz', hname, -⟩, -⟩
      exact absurd ⟨z, hz', hname⟩ hz

/-! ## What is made of it -/

theorem mem_zones : x ∈ zones g ↔ x.1 ≠ "__unknown__" ∧ g.lookup x.1 = some x.2 := by
  have hkeys : ∀ dom, dom ∈ sortedKeys g ↔ dom ∈ g := fun dom =>
    (List.perm_insertionSort _ _).mem_iff
  simp only [zones, List.mem_filterMap, List.mem_filter, hkeys, decide_eq_true_eq,
    Option.map_eq_some_iff]
  constructor
  · rintro ⟨dom, ⟨-, hne⟩, e, he, rfl⟩
    exact ⟨hne, he⟩
  · rintro ⟨hne, he⟩
    exact ⟨x.1, ⟨AList.lookup_isSome.mp (by rw [he]; rfl), hne⟩, x.2, he, rfl⟩

theorem nodup_zones : ((zones g).map Prod.fst).Nodup := by
  have hkeys : ((sortedKeys g).filter (· ≠ "__unknown__")).Nodup :=
    ((List.perm_insertionSort _ _).nodup_iff.mpr g.keys_nodup).filter _
  refine List.pairwise_map.mpr (List.pairwise_filterMap.mpr (hkeys.imp ?_))
  intro dom dom' hne x hx x' hx'
  obtain ⟨e, -, rfl⟩ := Option.map_eq_some_iff.mp hx
  obtain ⟨e', -, rfl⟩ := Option.map_eq_some_iff.mp hx'
  exact hne

theorem mem_considered (h : hr ∈ considered getDomainFromCidr o env db) :
    hr ∈ vDnsChangesPending getDomainFromCidr db := by
  rw [considered] at h
  split at h
  · cases h
  · exact (List.mem_filter.mp h).1

/-- The first element of `rec` has the domain of the key. -/
theorem exists_dnsDomain_of_zones (hdb : Constraints db)
    (hx : x ∈ zones (choose getDomainFromCidr o env db)) :
    ∃ n ∈ db.dnsDomain, n.dnsDomainName = x.1 ∧ n.dnsDomainId = x.2.first.dnsDomainId := by
  obtain ⟨hne, hlookup⟩ := mem_zones.mp hx
  have hrefused : ¬ Refused o db x.1 := by
    intro h
    rw [lookup_choose_of_refused hdb h] at hlookup
    cases hlookup
  by_cases hchanged : Changed getDomainFromCidr o env db x.1
  · obtain ⟨e, he, -, hrecords⟩ := lookup_choose_of_changed hdb hrefused hchanged
    obtain rfl := Option.some.inj (he.symm.trans hlookup)
    have hfirst : x.2.first ∈ x.2.records := List.mem_cons_self
    rw [hrecords] at hfirst
    obtain ⟨hr, hhr, heq⟩ := List.mem_map.mp hfirst
    obtain ⟨hhr, hdom⟩ := List.mem_filter.mp hhr
    obtain ⟨-, n, hn, hid, hname⟩ := mem_vDnsChangesPending (mem_considered hhr)
    have hdom : hr.dom = x.1 := of_decide_eq_true hdom
    refine ⟨n, hn, ?_, by rw [hid, ← heq]; rfl⟩
    rw [Pending.dom] at hdom
    split at hdom
    · exact absurd hdom.symm hne
    · exact hname.trans hdom
  · obtain ⟨z, ⟨hz, hname, -⟩, he⟩ := (lookup_choose_of_not_changed hdb hrefused hchanged).mp hlookup
    obtain ⟨n, hn, hid, hname'⟩ := exists_dnsDomain hdb hz
    exact ⟨n, hn, hname'.trans hname, by rw [hid, he]⟩

variable (getDomainFromCidr) in
/-- The zone is generated with a new serial number. -/
structure Bumped (o : Options) (env : Environment) (db : Db Inet) (name : String) : Prop where
  known : name ≠ "__unknown__"
  kept : ¬ Refused o db name
  reason : Changed getDomainFromCidr o env db name ∨
    (o.forcesSoa = true ∧ ∃ z, Added o env db name z)

section

variable (hdb : Constraints db)
include hdb

theorem bumped_iff (hnosoa : o.nosoa = false) :
    Bumped getDomainFromCidr o env db k ↔
      ∃ e, (k, e) ∈ zones (choose getDomainFromCidr o env db) ∧ o.bumps e = true := by
  constructor
  · rintro ⟨hknown, hkept, hreason⟩
    by_cases hchanged : Changed getDomainFromCidr o env db k
    · obtain ⟨e, he, hbump, -⟩ := lookup_choose_of_changed hdb hkept hchanged
      exact ⟨e, mem_zones.mpr ⟨hknown, he⟩, by simp [Options.bumps, hnosoa, hbump]⟩
    · obtain ⟨hforces, z, hz⟩ := hreason.resolve_left hchanged
      have he := (lookup_choose_of_not_changed hdb hkept hchanged).mpr ⟨z, hz, rfl⟩
      exact ⟨_, mem_zones.mpr ⟨hknown, he⟩, by simp [Options.bumps, hnosoa, hforces]⟩
  · rintro ⟨e, he, hbumps⟩
    obtain ⟨hknown, hlookup⟩ := mem_zones.mp he
    have hkept : ¬ Refused o db k := by
      intro h
      rw [lookup_choose_of_refused hdb h] at hlookup
      cases hlookup
    refine ⟨hknown, hkept, ?_⟩
    by_cases hchanged : Changed getDomainFromCidr o env db k
    · exact .inl hchanged
    · obtain ⟨z, hz, rfl⟩ := (lookup_choose_of_not_changed hdb hkept hchanged).mp hlookup
      exact .inr ⟨by simpa [Options.bumps, hnosoa] using hbumps, z, hz⟩

theorem mem_bumpedIds (hnosoa : o.nosoa = false) (hn : n ∈ db.dnsDomain) :
    n.dnsDomainId ∈ bumpedIds o (choose getDomainFromCidr o env db) ↔
      Bumped getDomainFromCidr o env db n.dnsDomainName := by
  rw [bumped_iff hdb hnosoa, bumpedIds, List.mem_map]
  constructor
  · rintro ⟨x, hx, hid⟩
    obtain ⟨hx, hbumps⟩ := List.mem_filter.mp hx
    obtain ⟨n', hn', hname, hid'⟩ := exists_dnsDomain_of_zones hdb hx
    obtain rfl := hdb.eq_of_id hn' hn (hid'.trans hid)
    exact ⟨x.2, by rwa [hname], hbumps⟩
  · rintro ⟨e, he, hbumps⟩
    obtain ⟨n', hn', hname, hid⟩ := exists_dnsDomain_of_zones hdb he
    obtain rfl := hdb.eq_of_name hn' hn hname
    exact ⟨_, List.mem_filter.mpr ⟨he, hbumps⟩, hid.symm⟩

theorem nodup_bumpedIds :
    (bumpedIds o (choose getDomainFromCidr o env db)).Nodup := by
  refine List.pairwise_map.mpr ((List.pairwise_map.mp nodup_zones).filter _ |>.imp_of_mem ?_)
  intro x y hx hy hne heq
  obtain ⟨n, hn, hname, hid⟩ := exists_dnsDomain_of_zones hdb (List.mem_filter.mp hx).1
  obtain ⟨n', hn', hname', hid'⟩ := exists_dnsDomain_of_zones hdb (List.mem_filter.mp hy).1
  obtain rfl := hdb.eq_of_id hn hn' (hid.trans (heq.trans hid'.symm))
  exact hne (hname.symm.trans hname')

theorem exists_mem_recordsAt {id : ℕ} :
    (∃ rec ∈ recordsAt (choose getDomainFromCidr o env db) k, rec.dnsChangeRecordId = some id) ↔
      ¬ Refused o db k ∧ ∃ hr ∈ considered getDomainFromCidr o env db,
        hr.dom = k ∧ hr.dnsChangeRecordId = id := by
  by_cases hrefused : Refused o db k
  · rw [recordsAt, lookup_choose_of_refused hdb hrefused]
    simp [hrefused]
  by_cases hchanged : Changed getDomainFromCidr o env db k
  · obtain ⟨e, he, -, hrecords⟩ := lookup_choose_of_changed hdb hrefused hchanged
    rw [recordsAt, he, Option.elim_some, hrecords]
    simp [hrefused, Pending.toRec, and_assoc]
  · have hnone : ¬ ∃ hr ∈ considered getDomainFromCidr o env db,
        hr.dom = k ∧ hr.dnsChangeRecordId = id :=
      fun ⟨hr, hhr, hdom, _⟩ => hchanged ⟨hr, hhr, hdom⟩
    refine iff_of_false ?_ fun h => hnone h.2
    rintro ⟨rec, hrec, hid⟩
    rw [recordsAt] at hrec
    cases he : (choose getDomainFromCidr o env db).lookup k with
    | none =>
      rw [he] at hrec
      cases hrec
    | some e =>
      obtain ⟨z, -, rfl⟩ := (lookup_choose_of_not_changed hdb hrefused hchanged).mp he
      rw [he] at hrec
      obtain rfl := List.mem_singleton.mp hrec
      cases hid

theorem mem_purgedIds (hnosoa : o.nosoa = false) {id : ℕ} :
    id ∈ purgedIds o env db (choose getDomainFromCidr o env db) ↔ id ≠ 0 ∧
      id ∈ lockDbChanges env.now db ∧ ∃ hr ∈ considered getDomainFromCidr o env db,
        hr.dnsChangeRecordId = id ∧ ¬ Refused o db hr.dom := by
  have hchangeids : changeids o env db = lockDbChanges env.now db := by
    rw [changeids, hnosoa]
    rfl
  rw [purgedIds, hnosoa, hchangeids, if_neg Bool.false_ne_true, List.mem_filter, and_comm]
  simp only [Bool.and_eq_true, decide_eq_true_eq, List.contains_iff_mem, and_assoc]
  refine and_congr_right fun _ => and_congr_right fun _ => ?_
  rw [List.mem_filterMap]
  constructor
  · rintro ⟨rec, hrec, hid⟩
    obtain ⟨dom, -, hrec⟩ := List.mem_flatMap.mp hrec
    obtain ⟨hkept, hr, hhr, rfl, rfl⟩ := (exists_mem_recordsAt hdb).mp ⟨rec, hrec, hid⟩
    exact ⟨hr, hhr, rfl, hkept⟩
  · rintro ⟨hr, hhr, rfl, hkept⟩
    obtain ⟨rec, hrec, hid⟩ := (exists_mem_recordsAt hdb).mpr ⟨hkept, hr, hhr, rfl, rfl⟩
    refine ⟨rec, List.mem_flatMap.mpr ⟨hr.dom, ?_, hrec⟩, hid⟩
    refine (List.perm_insertionSort _ _).mem_iff.mpr (AList.lookup_isSome.mp ?_)
    rw [Option.isSome_iff_ne_none, Ne, lookup_eq_none_iff]
    exact List.ne_nil_of_mem hrec

theorem mem_writtenZones (hn : n ∈ db.dnsDomain) {s : ℤ} :
    (n.dnsDomainName, s) ∈ writtenZones o env db (choose getDomainFromCidr o env db) ↔
      env.checkzone n.dnsDomainName = true ∧ n.dnsDomainId ≠ 0 ∧
        ∃ e, (n.dnsDomainName, e) ∈ zones (choose getDomainFromCidr o env db) ∧
          s = processSoa db n.dnsDomainId (o.bumps e) := by
  have hdomid : ∀ x ∈ zones (choose getDomainFromCidr o env db), x.1 = n.dnsDomainName →
      domidOf db x = if n.dnsDomainId = 0 then none else some n.dnsDomainId := by
    intro x hx hname
    obtain ⟨n', hn', hname', hid⟩ := exists_dnsDomain_of_zones hdb hx
    obtain rfl := hdb.eq_of_name hn' hn (hname'.trans hname)
    rw [domidOf, ← hid]
    split
    · next hzero =>
      cases hget : getDnsDomid db x.1 with
      | none => rfl
      | some domid =>
        obtain ⟨z, hz, rfl⟩ := Option.map_eq_some_iff.mp hget
        obtain ⟨n'', hn'', hid'', hname''⟩ := exists_dnsDomain hdb (List.mem_of_find?_eq_some hz)
        have hz' : z.soaName = x.1 := by simpa using List.find?_some hz
        obtain rfl := hdb.eq_of_name hn'' hn' (hname''.trans (hz'.trans hname'.symm))
        rw [← hid'', hzero]
        rfl
    · rfl
  rw [writtenZones, List.mem_filterMap]
  constructor
  · rintro ⟨x, hx, hmap⟩
    obtain ⟨hx, hcheck⟩ := List.mem_filter.mp hx
    obtain ⟨domid, hdomid', heq⟩ := Option.map_eq_some_iff.mp hmap
    obtain ⟨hname, rfl⟩ := Prod.mk.inj heq
    rw [hdomid x hx hname] at hdomid'
    split at hdomid'
    · cases hdomid'
    · next hzero =>
      obtain rfl := Option.some.inj hdomid'
      exact ⟨hname ▸ hcheck, hzero, x.2, by rwa [← hname], rfl⟩
  · rintro ⟨hcheck, hzero, e, he, rfl⟩
    refine ⟨_, List.mem_filter.mpr ⟨he, hcheck⟩, ?_⟩
    rw [hdomid _ he rfl, if_neg hzero]
    rfl

end

/-! ## The database -/

theorem untracks_recordNewgen {now : ℤ} {d d' : ℕ} {r : ChangeRecord Inet}
    (h : recordNewgen now db d = some db') : Untracks db' d' r ↔ Untracks db d' r := by
  rw [recordNewgen] at h
  split at h
  · cases h
  · obtain rfl := Option.some.inj h
    refine and_congr_left fun _ => ?_
    simp only [List.mem_map, exists_exists_and_eq_and]
    refine exists_congr fun du => and_congr_right fun _ => ?_
    split
    · simp [DomainUniverse.bump, DomainUniverse.IsOf]
    · rfl

/-- All serials are bumped, and all change records deleted that the trigger deletes. -/
theorem foldlM_recordNewgen {now : ℤ} {ids : List ℕ} (hids : ids.Nodup)
    (h : ids.foldlM (recordNewgen now) db = some db') :
    db'.dnsDomain = db.dnsDomain ∧
      db'.dnsDomainIpUniverse = db.dnsDomainIpUniverse.map (fun du =>
        if ∃ d ∈ ids, du.IsOf d then du.bump now else du) ∧
      db'.dnsChangeRecord.Sublist db.dnsChangeRecord ∧
      ∀ r, r ∈ db'.dnsChangeRecord ↔
        r ∈ db.dnsChangeRecord ∧ ∀ d ∈ ids, ¬ Untracks db d r := by
  induction ids generalizing db with
  | nil =>
    obtain rfl := Option.some.inj h
    simp
  | cons d ids ih =>
    rw [List.foldlM_cons, Option.bind_eq_bind, Option.bind_eq_some_iff] at h
    obtain ⟨db₁, h₁, h⟩ := h
    obtain ⟨hnot, hids⟩ := List.nodup_cons.mp hids
    obtain ⟨hdomain, huniverse, hsub, hrecord⟩ := ih hids h
    have huntracks : ∀ d' r, Untracks db₁ d' r ↔ Untracks db d' r :=
      fun _ _ => untracks_recordNewgen h₁
    rw [recordNewgen] at h₁
    split at h₁
    · cases h₁
    obtain rfl := Option.some.inj h₁
    refine ⟨hdomain, ?_, hsub.trans List.filter_sublist, fun r => ?_⟩
    · rw [huniverse, List.map_map]
      refine List.map_congr_left fun du _ => ?_
      simp only [Function.comp_apply]
      by_cases hd : du.IsOf d
      · have hother : ¬ ∃ d' ∈ ids, (du.bump now).IsOf d' := by
          rintro ⟨d', hd', hof⟩
          exact hnot (hd.1 ▸ hof.1 ▸ hd')
        rw [if_pos hd, if_neg hother, if_pos ⟨d, List.mem_cons_self, hd⟩]
      · rw [if_neg hd]
        simp [hd]
    · simp only [hrecord, huntracks]
      simp [and_assoc]

end JazzHands.Zonegen

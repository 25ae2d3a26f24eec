import JazzHands.Collection.ByType

/-!
# Every collection is in the one of its type

The triggers write an edge from the collection of its type to each collection.  `Grouped` is the
invariant, for some of the types, so that rows of types can be written one at a time;
`grouped_write` keeps it for a statement on collections, event by event.
-/

namespace JazzHands.Collection

open Postgres RowStatement

variable {o : Objects} {db db' : Db} {types types' : List String} {type : String}
  {c q p old new : Coll} {rows : List Coll} {f : ℕ → Option String} {s : RowStatement Coll}

/-- The type of whose collection a collection of this type is a child. -/
def Objects.group (o : Objects) (type : String) : Option String :=
  if o.Special type then none else some type

theorem group_eq_some {name : String} : o.group type = some name ↔ ¬ o.Special type ∧ type = name := by
  unfold Objects.group
  split_ifs with h
  · simp [h]
  · simp [h]

theorem group_of_special (h : o.Special type) : o.group type = none := if_pos h

theorem group_of_not_special (h : ¬ o.Special type) : o.group type = some type := if_neg h

/-- The edges from collections of types go to the collections with these keys. -/
def Edges (db : Db) (f : ℕ → Option String) : Prop :=
  ∀ q ∈ db.collection, q.collectionType = "by-coll-type" → ∀ c ∈ db.collection,
    (⟨q.collectionId, c.collectionId⟩ ∈ db.collectionHier ↔
      f c.collectionId = some q.collectionName)

/-- The keys and foreign keys of the collections. -/
structure Keys (db : Db) : Prop where
  ids : (db.collection.map (·.collectionId)).Nodup
  names : (db.collection.map fun c => (c.collectionName, c.collectionType)).Nodup
  parentRef : ∀ h ∈ db.collectionHier, ∃ q ∈ db.collection, q.collectionId = h.collectionId ∧
    q.collectionType = "by-coll-type"
  childRef : ∀ h ∈ db.collectionHier, ∃ c ∈ db.collection, c.collectionId = h.childCollectionId

/-- `types` are the types with a collection of their own. -/
structure Grouped (o : Objects) (types : List String) (db : Db) : Prop where
  keys : Keys db
  each : ∀ type ∈ types, ¬ o.Special type → ∃ q ∈ db.collection, q.IsOf type
  typeRef : ∀ c ∈ db.collection, ¬ o.Special c.collectionType → c.collectionType ∈ types
  edge : ∀ q ∈ db.collection, q.collectionType = "by-coll-type" → ∀ c ∈ db.collection,
    (⟨q.collectionId, c.collectionId⟩ ∈ db.collectionHier ↔
      o.group c.collectionType = some q.collectionName)

/-! ## Keys -/

theorem Keys.eq_of_id (h : Keys db) (hc : c ∈ db.collection) (hq : q ∈ db.collection)
    (hid : c.collectionId = q.collectionId) : c = q :=
  List.inj_on_of_nodup_map h.ids hc hq hid

theorem Keys.eq_of_isOf (h : Keys db) (hc : c ∈ db.collection) (hq : q ∈ db.collection)
    (hcof : c.IsOf type) (hqof : q.IsOf type) : c = q :=
  List.inj_on_of_nodup_map h.names hc hq
    (Prod.ext (hcof.2.trans hqof.2.symm) (hcof.1.trans hqof.1.symm))

theorem byType_mem (h : db.byType type = some q) : q ∈ db.collection ∧ q.IsOf type :=
  Library.of_find?_eq_some h

theorem byType_eq_none (h : db.byType type = none) : ∀ q ∈ db.collection, ¬ q.IsOf type := by
  simpa [Db.byType, List.find?_eq_none] using h

theorem Keys.byType_of_isOf (h : Keys db) (hq : q ∈ db.collection) (hof : q.IsOf type) :
    db.byType type = some q := by
  cases hfind : db.byType type with
  | none => exact absurd hof (byType_eq_none hfind q hq)
  | some p =>
    obtain ⟨hp, hpof⟩ := byType_mem hfind
    rw [h.eq_of_isOf hp hq hpof hof]

theorem collectionKeys_ok {others : List Coll} (h : collectionKeys others new = .ok ()) :
    (∀ c ∈ others, c.collectionId ≠ new.collectionId) ∧
      ∀ c ∈ others, (c.collectionName, c.collectionType) ≠ (new.collectionName, new.collectionType) := by
  obtain ⟨hid, hname⟩ := bind_unit_eq_ok.mp h
  exact ⟨checkUnique_ok hid, checkUnique_ok hname⟩

/-! ## One event -/

/-- The triggers change nothing but the hierarchy. -/
structure OnlyHier (db db' : Db) : Prop where
  valCollectionType : db'.valCollectionType = db.valCollectionType
  collection : db'.collection = db.collection
  collectionSeq : db'.collectionSeq = db.collectionSeq

theorem OnlyHier.refl (db : Db) : OnlyHier db db := ⟨rfl, rfl, rfl⟩

theorem OnlyHier.trans {db'' : Db} (h : OnlyHier db db') (h' : OnlyHier db' db'') :
    OnlyHier db db'' :=
  ⟨h'.valCollectionType.trans h.valCollectionType, h'.collection.trans h.collection,
    h'.collectionSeq.trans h.collectionSeq⟩

variable {g : Option String} {e : RowEvent Coll}

theorem Edges.keep (h : Edges db f) (hg : g = f c.collectionId) :
    Edges db (Function.update f c.collectionId g) := by
  rw [hg, Function.update_eq_self]
  exact h

section

variable (hkeys : Keys db) (h : Edges db f)
include hkeys h

/-- The row of a collection that the triggers write is in place of the ones it had. -/
theorem Edges.replace (hc : c ∈ db.collection) (hcollection : db'.collection = db.collection)
    (hrow : ∀ q ∈ db.collection, q.collectionType = "by-coll-type" →
      (⟨q.collectionId, c.collectionId⟩ ∈ db'.collectionHier ↔ g = some q.collectionName))
    (hothers : ∀ h : Hier, h.childCollectionId ≠ c.collectionId →
      (h ∈ db'.collectionHier ↔ h ∈ db.collectionHier)) :
    Edges db' (Function.update f c.collectionId g) := by
  unfold Edges
  rw [hcollection]
  intro q hq htype c' hc'
  by_cases hid : c'.collectionId = c.collectionId
  · obtain rfl := hkeys.eq_of_id hc' hc hid
    rw [Function.update_self]
    exact hrow q hq htype
  · rw [Function.update_of_ne hid, hothers _ hid]
    exact h q hq htype c' hc'

theorem joinType_ok (hnew : new ∈ db.collection) (hf : f new.collectionId = none)
    (hjoin : joinType db new = .ok db') :
    OnlyHier db db' ∧ Keys db' ∧
      Edges db' (Function.update f new.collectionId (some new.collectionType)) := by
  have hnone : ∀ q ∈ db.collection, q.collectionType = "by-coll-type" →
      (⟨q.collectionId, new.collectionId⟩ : Hier) ∉ db.collectionHier := by
    intro q hq htype hmem
    have hfq := (h q hq htype new hnew).mp hmem
    rw [hf] at hfq
    cases hfq
  unfold joinType at hjoin
  cases hparent : db.byType new.collectionType with
  | none =>
    rw [hparent] at hjoin
    obtain rfl := Except.ok.inj hjoin
    refine ⟨.refl db, hkeys, h.replace hkeys hnew rfl (fun q hq htype => ?_) fun _ _ => Iff.rfl⟩
    refine iff_of_false (hnone q hq htype) fun hname => ?_
    exact byType_eq_none hparent q hq ⟨htype, (Option.some.inj hname).symm⟩
  | some parent =>
    rw [hparent] at hjoin
    obtain ⟨hparent, hof⟩ := byType_mem hparent
    obtain ⟨-, hjoin⟩ := bind_unit_eq_ok.mp hjoin
    obtain ⟨-, hjoin⟩ := bind_unit_eq_ok.mp hjoin
    cases hjoin
    refine ⟨⟨rfl, rfl, rfl⟩, ⟨hkeys.ids, hkeys.names, fun x hx => ?_, fun x hx => ?_⟩,
      h.replace hkeys hnew rfl (fun q hq htype => ?_) fun x hx => ?_⟩
    · rcases List.mem_append.mp hx with hx | hx
      · exact hkeys.parentRef x hx
      · rw [List.mem_singleton.mp hx]
        exact ⟨parent, hparent, rfl, hof.1⟩
    · rcases List.mem_append.mp hx with hx | hx
      · exact hkeys.childRef x hx
      · rw [List.mem_singleton.mp hx]
        exact ⟨new, hnew, rfl⟩
    · rw [List.mem_append, List.mem_singleton, Hier.mk.injEq, Option.some_inj]
      constructor
      · rintro (hmem | ⟨hid, -⟩)
        · exact absurd hmem (hnone q hq htype)
        · rw [hkeys.eq_of_id hq hparent hid]
          exact hof.2.symm
      · intro hname
        exact .inr ⟨congrArg _ (hkeys.eq_of_isOf hq hparent ⟨htype, hname.symm⟩ hof), rfl⟩
    · rw [List.mem_append, List.mem_singleton]
      refine or_iff_left fun heq => hx ?_
      rw [heq]

theorem moveType_ok (hnew : new ∈ db.collection) (hid : new.collectionId = old.collectionId)
    (hsource : ∃ q ∈ db.collection, q.IsOf old.collectionType)
    (hf : f new.collectionId = some old.collectionType) (hmove : moveType db old new = .ok db') :
    OnlyHier db db' ∧ Keys db' ∧
      Edges db' (Function.update f new.collectionId (some new.collectionType)) := by
  obtain ⟨source, hsource, hsourceof⟩ := hsource
  have hrow : (⟨source.collectionId, new.collectionId⟩ : Hier) ∈ db.collectionHier := by
    rw [h source hsource hsourceof.1 new hnew, hf, hsourceof.2]
  unfold moveType at hmove
  rw [hkeys.byType_of_isOf hsource hsourceof, ← hid] at hmove
  dsimp only at hmove
  cases htarget : db.byType new.collectionType with
  | none =>
    rw [htarget] at hmove
    obtain ⟨hnull, -⟩ := bind_unit_eq_ok.mp hmove
    exact absurd ⟨_, hrow, rfl⟩ (raiseIf_eq_ok.mp hnull)
  | some target =>
    rw [htarget] at hmove
    obtain ⟨htarget, htargetof⟩ := byType_mem htarget
    obtain ⟨t, ht, hmove⟩ := bind_eq_ok.mp hmove
    obtain ⟨-, hmove⟩ := bind_unit_eq_ok.mp hmove
    cases hmove
    have hmem : ∀ x, x ∈ t ↔ x = ⟨target.collectionId, new.collectionId⟩ ∨
        (x ∈ db.collectionHier ∧ x ≠ ⟨source.collectionId, new.collectionId⟩) := by
      intro x
      rw [execute_ok ht, RowStatement.after, List.mem_map]
      constructor
      · rintro ⟨y, hy, rfl⟩
        split_ifs with hxy
        · exact .inl rfl
        · exact .inr ⟨hy, hxy⟩
      · rintro (rfl | ⟨hx, hne⟩)
        · exact ⟨_, hrow, by rw [if_pos rfl]; rfl⟩
        · exact ⟨x, hx, by rw [if_neg hne]; rfl⟩
    refine ⟨⟨rfl, rfl, rfl⟩, ⟨hkeys.ids, hkeys.names, fun x hx => ?_, fun x hx => ?_⟩,
      h.replace hkeys hnew rfl (fun q hq htype => ?_) fun x hx => ?_⟩
    · rcases (hmem x).mp hx with rfl | ⟨hx, -⟩
      · exact ⟨target, htarget, rfl, htargetof.1⟩
      · exact hkeys.parentRef x hx
    · rcases (hmem x).mp hx with rfl | ⟨hx, -⟩
      · exact ⟨new, hnew, rfl⟩
      · exact hkeys.childRef x hx
    · rw [hmem, Hier.mk.injEq, Option.some_inj]
      constructor
      · rintro (⟨hqid, -⟩ | ⟨hx, hne⟩)
        · rw [hkeys.eq_of_id hq htarget hqid]
          exact htargetof.2.symm
        · -- the only row that it had
          rw [h q hq htype new hnew, hf, Option.some_inj] at hx
          obtain rfl := hkeys.eq_of_isOf hq hsource ⟨htype, hx.symm⟩ hsourceof
          exact absurd rfl hne
      · intro hname
        exact .inl ⟨congrArg _ (hkeys.eq_of_isOf hq htarget ⟨htype, hname.symm⟩ htargetof), rfl⟩
    · rw [hmem]
      constructor
      · rintro (rfl | ⟨hx, -⟩)
        · exact absurd rfl hx
        · exact hx
      · exact fun hx' => .inr ⟨hx', fun heq => hx (by rw [heq])⟩

theorem leaveType_eq (hc : c ∈ db.collection) (hid : c.collectionId = old.collectionId)
    (hf : f c.collectionId = none) :
    leaveType db old = db := by
  have hfilter : (leaveType db old).collectionHier = db.collectionHier := by
    refine List.filter_eq_self.mpr fun x hx => decide_eq_true fun hleft => ?_
    obtain ⟨q, hq, hqid, htype⟩ := hkeys.parentRef x hx
    have hedge : (⟨q.collectionId, c.collectionId⟩ : Hier) ∈ db.collectionHier := by
      rw [hqid, hid, ← hleft.1]
      exact hx
    rw [h q hq htype c hc, hf] at hedge
    cases hedge
  show { db with collectionHier := (leaveType db old).collectionHier } = db
  rw [hfilter]

end

/-- The changes of a collection that the triggers follow. -/
def Fits (o : Objects) : RowEvent Coll → Prop
  | .insert _ => True
  | .delete _ => False
  | .update old new => new = { old with collectionType := new.collectionType } ∧
      (o.Special new.collectionType ↔ o.Special old.collectionType)

/-- The types of whose collection the collections of an event were children. -/
def before (o : Objects) (e : RowEvent Coll) : Option String :=
  e.old?.bind fun old => o.group old.collectionType

theorem typeRef_of_afterCollection (hnew : e.new? = some new)
    (hok : afterCollection o db e = .ok db') :
    ∃ t ∈ db.valCollectionType, t.collectionType = new.collectionType := by
  have hnone := raiseIf_eq_ok.mp (bind_unit_eq_ok.mp hok).1
  by_contra hall
  exact hnone ⟨new, hnew, fun t ht heq => hall ⟨t, ht, heq⟩⟩

theorem edges_afterCollection (hkeys : Keys db) (h : Edges db f) (hfits : Fits o e)
    (hnew : e.new? = some new) (hmem : new ∈ db.collection) (hf : f new.collectionId = before o e)
    (hsource : ∀ type, before o e = some type → ∃ q ∈ db.collection, q.IsOf type)
    (hok : afterCollection o db e = .ok db') :
    OnlyHier db db' ∧ Keys db' ∧
      Edges db' (Function.update f new.collectionId (o.group new.collectionType)) := by
  obtain ⟨-, hok⟩ := bind_unit_eq_ok.mp hok
  cases e with
  | delete old => exact absurd hfits id
  | insert new' =>
    obtain rfl := Option.some.inj hnew
    rw [manipCollectionBytype] at hok
    split_ifs at hok with hspecial
    · obtain rfl := Except.ok.inj hok
      exact ⟨.refl db, hkeys, h.keep (by rw [hf, group_of_special hspecial]; rfl)⟩
    · rw [group_of_not_special hspecial]
      exact joinType_ok hkeys h hmem hf hok
  | update old new' =>
    obtain rfl := Option.some.inj hnew
    obtain ⟨hsame, hspecial⟩ := hfits
    have hid : new'.collectionId = old.collectionId := by rw [hsame]
    have hbefore : before o (.update old new') = o.group old.collectionType := rfl
    rw [hbefore] at hf hsource
    rw [manipCollectionBytype] at hok
    split_ifs at hok with hper hnewspecial
    · -- it stays one of an object
      have hold : o.Special old.collectionType := .inr hper
      rw [group_of_special hold] at hf
      rw [leaveType_eq hkeys h hmem hid hf] at hok
      obtain rfl := Except.ok.inj hok
      exact ⟨.refl db, hkeys, h.keep (by rw [hf, group_of_special (hspecial.mpr hold)])⟩
    · obtain rfl := Except.ok.inj hok
      rw [group_of_special (hspecial.mp hnewspecial)] at hf
      exact ⟨.refl db, hkeys, h.keep (by rw [hf, group_of_special hnewspecial])⟩
    · have hgroup := group_of_not_special fun hold => hnewspecial (hspecial.mpr hold)
      rw [hgroup] at hf
      rw [group_of_not_special hnewspecial]
      exact moveType_ok hkeys h hmem hid (hsource _ hgroup) hf hok

/-! ## A statement on collections -/

theorem edges_events {events : List (RowEvent Coll)} (hkeys : Keys db) (h : Edges db f)
    (hfits : ∀ e ∈ events, Fits o e)
    (hnew : ∀ e ∈ events, ∃ new ∈ db.collection, e.new? = some new ∧
      f new.collectionId = before o e)
    (hsource : ∀ e ∈ events, ∀ type, before o e = some type → ∃ q ∈ db.collection, q.IsOf type)
    (hnodup : ((events.filterMap RowEvent.new?).map (·.collectionId)).Nodup)
    (hok : events.foldlM (afterCollection o) db = .ok db') :
    OnlyHier db db' ∧ Keys db' ∧ ∃ g, Edges db' g ∧
      (∀ e ∈ events, ∀ new, e.new? = some new →
        g new.collectionId = o.group new.collectionType ∧
          ∃ t ∈ db.valCollectionType, t.collectionType = new.collectionType) ∧
      ∀ id ∉ (events.filterMap RowEvent.new?).map (·.collectionId), g id = f id := by
  induction events generalizing db f with
  | nil =>
    obtain rfl := Except.ok.inj hok
    exact ⟨.refl db, hkeys, f, h, fun e he => absurd he List.not_mem_nil, fun _ _ => rfl⟩
  | cons e events ih =>
    rw [List.foldlM_cons] at hok
    obtain ⟨db₁, hok₁, hok⟩ := bind_eq_ok.mp hok
    obtain ⟨new, hmem, he, hf⟩ := hnew e List.mem_cons_self
    obtain ⟨honly₁, hkeys₁, h₁⟩ := edges_afterCollection hkeys h (hfits e List.mem_cons_self) he
      hmem hf (hsource e List.mem_cons_self) hok₁
    rw [List.filterMap_cons_some he, List.map_cons, List.nodup_cons] at hnodup
    have hne : ∀ e' ∈ events, ∀ new', e'.new? = some new' →
        new'.collectionId ≠ new.collectionId := by
      intro e' he' new' hnew' hid
      refine hnodup.1 (hid ▸ List.mem_map_of_mem ?_)
      exact List.mem_filterMap.mpr ⟨e', he', hnew'⟩
    obtain ⟨honly, hkeys', g, hg, hdone, hrest⟩ := ih hkeys₁ h₁
      (fun e' he' => hfits e' (List.mem_cons_of_mem e he'))
      (fun e' he' => by
        obtain ⟨new', hmem', hnew', hf'⟩ := hnew e' (List.mem_cons_of_mem e he')
        refine ⟨new', honly₁.collection ▸ hmem', hnew', ?_⟩
        rw [Function.update_of_ne (hne e' he' new' hnew'), hf'])
      (fun e' he' => by
        rw [honly₁.collection]
        exact hsource e' (List.mem_cons_of_mem e he'))
      hnodup.2 hok
    refine ⟨honly₁.trans honly, hkeys', g, hg, fun e' he' new' hnew' => ?_, fun id hid => ?_⟩
    · rcases List.mem_cons.mp he' with rfl | he'
      · obtain rfl := Option.some.inj (he.symm.trans hnew')
        rw [hrest _ hnodup.1, Function.update_self]
        exact ⟨rfl, typeRef_of_afterCollection he hok₁⟩
      · rw [← honly₁.valCollectionType]
        exact hdone e' he' new' hnew'
    · rw [List.filterMap_cons_some he, List.map_cons, List.mem_cons, not_or] at hid
      rw [hrest id hid.2, Function.update_of_ne hid.1]

/-- The type of whose collection the one with a key was a child. -/
def groupOf (o : Objects) (db : Db) (id : ℕ) : Option String :=
  (db.collection.find? (·.collectionId = id)).bind fun c => o.group c.collectionType

theorem groupOf_of_mem (hkeys : Keys db) (hc : c ∈ db.collection) :
    groupOf o db c.collectionId = o.group c.collectionType := by
  rw [groupOf, Library.find?_key hkeys.ids hc, Option.bind_some]

theorem groupOf_eq_none {id : ℕ} (h : ∀ c ∈ db.collection, c.collectionId ≠ id) :
    groupOf o db id = none := by
  have hfind : db.collection.find? (·.collectionId = id) = none := by
    simpa [List.find?_eq_none] using h
  rw [groupOf, hfind, Option.bind_none]

theorem exists_of_groupOf {id : ℕ} (h : groupOf o db id = some type) :
    ∃ c ∈ db.collection, c.collectionId = id ∧ o.group c.collectionType = some type := by
  obtain ⟨c, hfind, hgroup⟩ := Option.bind_eq_some_iff.mp h
  obtain ⟨hc, hid⟩ := Library.of_find?_eq_some hfind
  exact ⟨c, hc, hid, hgroup⟩

/-- The collections of types that are written over stay as they were. -/
structure Regroups (o : Objects) (types : List String) (db : Db) (s : RowStatement Coll) : Prop where
  fits : ∀ e ∈ s.events db.collection, Fits o e
  stays : ∀ old new, .update old new ∈ s.events db.collection → ∀ type ∈ types,
    ¬ o.Special type → old.IsOf type → new = old

theorem Regroups.mem_after (hs : Regroups o types db s) (hc : c ∈ db.collection)
    (htype : type ∈ types) (hordinary : ¬ o.Special type) (hof : c.IsOf type) :
    c ∈ s.after db.collection := by
  rcases mem_or_old_of_mem (s := s) hc with hc | ⟨e, he, hold⟩
  · exact hc
  · cases e with
    | insert new => cases hold
    | delete old => exact absurd (hs.fits _ he) id
    | update old new =>
      obtain rfl := Option.some.inj hold
      obtain rfl := hs.stays old new he type htype hordinary hof
      exact mem_after_of_new he rfl

theorem Regroups.mem_old (hs : Regroups o types db s) (hkeys : Keys db)
    (hids : ((s.after db.collection).map (·.collectionId)).Nodup) (hp : p ∈ db.collection)
    (hptype : p.collectionType = "by-coll-type") (hq : q ∈ s.after db.collection)
    (hqtype : q.collectionType = "by-coll-type") (hid : p.collectionId = q.collectionId) :
    q ∈ db.collection := by
  rcases RowStatement.mem_after hq with hq | ⟨e, he, hnew⟩
  · exact hq
  · cases e with
    | insert new =>
      obtain rfl := Option.some.inj hnew
      exact absurd hid (ne_of_insert hids he hp)
    | delete old => cases hnew
    | update old new =>
      obtain rfl := Option.some.inj hnew
      have hsame := (hs.fits _ he).1
      have hpold : p = old := by
        refine hkeys.eq_of_id hp (old_mem he rfl) (hid.trans ?_)
        rw [hsame]
      have hqp : new = p := by
        rw [hsame, hqtype, hpold, ← hptype, hpold]
      exact hqp ▸ hp

section

variable (hdb : Grouped o types db) (hs : Regroups o types db s)
  (hids : ((s.after db.collection).map (·.collectionId)).Nodup)
include hdb hs hids

section

variable
  (hnames : ((s.after db.collection).map fun c => (c.collectionName, c.collectionType)).Nodup)
include hnames

theorem Grouped.edges_start :
    Edges { db with collection := s.after db.collection } (groupOf o db) := by
  intro q hq htype c hc
  constructor
  · intro hedge
    obtain ⟨p, hp, hpid, hptype⟩ := hdb.keys.parentRef _ hedge
    obtain ⟨c', hc', hcid⟩ := hdb.keys.childRef _ hedge
    have hqold := hs.mem_old hdb.keys hids hp hptype hq htype hpid
    dsimp only at hcid hedge
    rw [← hcid] at hedge ⊢
    rw [groupOf_of_mem hdb.keys hc']
    exact (hdb.edge q hqold htype c' hc').mp hedge
  · intro hgroup
    obtain ⟨c', hc', hcid, hgroup⟩ := exists_of_groupOf hgroup
    obtain ⟨hordinary, hname⟩ := group_eq_some.mp hgroup
    have hmem := hdb.typeRef c' hc' hordinary
    rw [hname] at hordinary hmem
    obtain ⟨p, hp, hpof⟩ := hdb.each _ hmem hordinary
    have hpt := hs.mem_after hp hmem hordinary hpof
    have hpq : p = q := List.inj_on_of_nodup_map hnames hpt hq
      (Prod.ext hpof.2 (hpof.1.trans htype.symm))
    rw [hpq] at hp
    rw [← hcid]
    exact (hdb.edge q hp htype c' hc').mpr hgroup

/-- No collection with children is one of another type now. -/
theorem Grouped.keys_start :
    Keys { db with collection := s.after db.collection } where
  ids := hids
  names := hnames
  parentRef := by
    intro h hh
    obtain ⟨q, hq, hqid, hqtype⟩ := hdb.keys.parentRef h hh
    obtain ⟨c, hc, hcid⟩ := hdb.keys.childRef h hh
    have hedge : (⟨q.collectionId, c.collectionId⟩ : Hier) ∈ db.collectionHier := by
      rw [hqid, hcid]
      exact hh
    obtain ⟨hordinary, hname⟩ := group_eq_some.mp ((hdb.edge q hq hqtype c hc).mp hedge)
    have hmem := hdb.typeRef c hc hordinary
    rw [hname] at hordinary hmem
    exact ⟨q, hs.mem_after hq hmem hordinary ⟨hqtype, rfl⟩, hqid, hqtype⟩
  childRef := by
    intro h hh
    obtain ⟨c, hc, hcid⟩ := hdb.keys.childRef h hh
    rcases mem_or_old_of_mem (s := s) hc with hc | ⟨e, he, hold⟩
    · exact ⟨c, hc, hcid⟩
    · cases e with
      | insert new => cases hold
      | delete old => exact absurd (hs.fits _ he) id
      | update old new =>
        obtain rfl := Option.some.inj hold
        have hid : new.collectionId = old.collectionId := by rw [(hs.fits _ he).1]
        exact ⟨new, mem_after_of_new he rfl, hid.trans hcid⟩

end

theorem Grouped.groupOf_new (he : e ∈ s.events db.collection) :
    ∃ new ∈ s.after db.collection, e.new? = some new ∧
      groupOf o db new.collectionId = before o e := by
  cases e with
  | insert new =>
    refine ⟨new, mem_after_of_new he rfl, rfl, groupOf_eq_none fun c hc => ?_⟩
    exact ne_of_insert hids he hc
  | delete old => exact absurd (hs.fits _ he) id
  | update old new =>
    have hid : new.collectionId = old.collectionId := by rw [(hs.fits _ he).1]
    refine ⟨new, mem_after_of_new he rfl, rfl, ?_⟩
    rw [hid, groupOf_of_mem hdb.keys (old_mem he rfl)]
    rfl

end

theorem Grouped.source (hdb : Grouped o types db) (hs : Regroups o types db s)
    (he : e ∈ s.events db.collection) (hbefore : before o e = some type) :
    ∃ q ∈ s.after db.collection, q.IsOf type := by
  obtain ⟨old, hold, hgroup⟩ := Option.bind_eq_some_iff.mp hbefore
  obtain ⟨hordinary, hname⟩ := group_eq_some.mp hgroup
  have hmem := hdb.typeRef old (old_mem he hold) hordinary
  rw [hname] at hordinary hmem
  obtain ⟨q, hq, hof⟩ := hdb.each type hmem hordinary
  exact ⟨q, hs.mem_after hq hmem hordinary hof, hof⟩

/-- An `INSERT`, or an `UPDATE` that the triggers can follow. -/
theorem grouped_write (hdb : Grouped o types db) (hs : Regroups o types db s)
    (href : ∀ e ∈ s.events db.collection, ∀ new, e.new? = some new →
      (∃ t ∈ db.valCollectionType, t.collectionType = new.collectionType) →
      ¬ o.Special new.collectionType → new.collectionType ∈ types)
    (hok : writeCollections o db s = .ok db') :
    Grouped o types db' ∧ db'.collection = s.after db.collection ∧
      db'.valCollectionType = db.valCollectionType := by
  obtain ⟨t, ht, hok⟩ := bind_eq_ok.mp hok
  have hids := nodup_execute (fun _ _ hkeys => (collectionKeys_ok hkeys).1) hdb.keys.ids ht
  have hnames := nodup_execute (fun _ _ hkeys => (collectionKeys_ok hkeys).2) hdb.keys.names ht
  obtain rfl := execute_ok ht
  obtain ⟨honly, hkeys, g, hg, hdone, hrest⟩ := edges_events (hdb.keys_start hs hids hnames)
    (hdb.edges_start hs hids hnames) hs.fits (fun e he => hdb.groupOf_new hs hids he)
    (fun e he type hbefore => hdb.source hs he hbefore)
    (hids.sublist (new_sublist_after.map _)) hok
  have hcollection : db'.collection = s.after db.collection := honly.collection
  have hgroup : ∀ c ∈ s.after db.collection, g c.collectionId = o.group c.collectionType := by
    intro c hc
    by_cases hid : c.collectionId ∈
        ((s.events db.collection).filterMap RowEvent.new?).map (·.collectionId)
    · obtain ⟨new, hnew, heq⟩ := List.mem_map.mp hid
      have hcnew : new = c :=
        List.inj_on_of_nodup_map hids (new_sublist_after.subset hnew) hc heq
      obtain ⟨e, he, hnew⟩ := List.mem_filterMap.mp hnew
      exact (hdone e he c (hcnew ▸ hnew)).1
    · rw [hrest _ hid]
      rcases RowStatement.mem_after hc with hc | ⟨e, he, hnew⟩
      · exact groupOf_of_mem hdb.keys hc
      · exact absurd (List.mem_map_of_mem (List.mem_filterMap.mpr ⟨e, he, hnew⟩)) hid
  refine ⟨⟨hkeys, ?_, ?_, ?_⟩, hcollection, honly.valCollectionType⟩
  · intro type htype hordinary
    obtain ⟨q, hq, hof⟩ := hdb.each type htype hordinary
    rw [hcollection]
    exact ⟨q, hs.mem_after hq htype hordinary hof, hof⟩
  · intro c hc hordinary
    rw [hcollection] at hc
    rcases RowStatement.mem_after hc with hc | ⟨e, he, hnew⟩
    · exact hdb.typeRef c hc hordinary
    · exact href e he c hnew (hdone e he c hnew).2 hordinary
  · intro q hq htype c hc
    rw [← hgroup c (hcollection ▸ hc)]
    exact hg q hq htype c hc

end JazzHands.Collection

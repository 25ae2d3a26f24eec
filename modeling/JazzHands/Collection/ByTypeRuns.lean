import JazzHands.Collection.Grouped

/-!
# Runs of statements on types and collections

* `RightlyGrouped`: each type has its collection, and each collection is in the one of its type.
-/

namespace JazzHands.Collection

open Postgres RowStatement Library

variable {o : Objects} {db db' : Db} {types types' : List String} {type : String}
  {c q old new : Coll} {rows : List Coll}

/-- A collection of a type that is there. -/
def Db.CollectsType (o : Objects) (db : Db) (q : Coll) : Prop :=
  q.collectionType = "by-coll-type" ∧ ¬ o.Special q.collectionName ∧
    ∃ t ∈ db.valCollectionType, t.collectionType = q.collectionName

structure RightlyGrouped (o : Objects) (db : Db) : Prop where
  own : ∀ t ∈ db.valCollectionType, ¬ o.Special t.collectionType →
    ∃ q, db.collection.filter (·.IsOf t.collectionType) = [q]
  member : ∀ c ∈ db.collection, ¬ o.Special c.collectionType →
    ∃ q ∈ db.collection, q.IsOf c.collectionType ∧
      ∀ p ∈ db.collection, p.collectionType = "by-coll-type" →
        (⟨p.collectionId, c.collectionId⟩ ∈ db.collectionHier ↔ p = q)
  special : ∀ c ∈ db.collection, o.Special c.collectionType → ∀ p ∈ db.collection,
    p.collectionType = "by-coll-type" → ⟨p.collectionId, c.collectionId⟩ ∉ db.collectionHier

/-- The statements that the triggers can follow. -/
def KeepsGroups (o : Objects) (db : Db) : Statement → Prop
  | .updateCollections set => ∀ c ∈ db.collection, ∀ type, set c = some type →
      (o.Special type ↔ o.Special c.collectionType) ∧
        (db.CollectsType o c → type = "by-coll-type")
  | .deleteCollections cond => ∀ q ∈ db.collection, cond q = true → db.CollectsType o q →
      ∃ c ∈ db.collection, c.collectionType = q.collectionName ∧ cond c = false
  | _ => True

def Db.typeNames (db : Db) : List String := db.valCollectionType.map (·.collectionType)

def Right (o : Objects) (db : Db) : Prop := Grouped o db.typeNames db

theorem right_empty (o : Objects) : Right o Db.empty where
  keys := ⟨List.nodup_nil, List.nodup_nil, fun _ h => absurd h List.not_mem_nil,
    fun _ h => absurd h List.not_mem_nil⟩
  each := fun _ h => absurd h List.not_mem_nil
  typeRef := fun _ h => absurd h List.not_mem_nil
  edge := fun _ h => absurd h List.not_mem_nil

theorem Grouped.unique (h : Grouped o types db) (hq : q ∈ db.collection) (hof : q.IsOf type) :
    db.collection.filter (·.IsOf type) = [q] := by
  have hnodup : db.collection.Nodup := List.Nodup.of_map _ h.keys.ids
  refine List.perm_singleton.mp ((List.perm_ext_iff_of_nodup (hnodup.filter _)
    (List.nodup_singleton q)).mpr fun c => ?_)
  rw [List.mem_filter, List.mem_singleton]
  constructor
  · intro hc
    exact h.keys.eq_of_isOf hc.1 hq (of_decide_eq_true hc.2) hof
  · rintro rfl
    exact ⟨hq, decide_eq_true hof⟩

theorem Right.rightlyGrouped (h : Right o db) : RightlyGrouped o db where
  own := by
    intro t ht hordinary
    obtain ⟨q, hq, hof⟩ := h.each _ (List.mem_map_of_mem ht) hordinary
    exact ⟨q, h.unique hq hof⟩
  member := by
    intro c hc hordinary
    obtain ⟨q, hq, hof⟩ := h.each _ (h.typeRef c hc hordinary) hordinary
    refine ⟨q, hq, hof, fun p hp htype => ?_⟩
    rw [h.edge p hp htype c hc, group_of_not_special hordinary, Option.some_inj]
    constructor
    · intro hname
      exact h.keys.eq_of_isOf hp hq ⟨htype, hname.symm⟩ hof
    · rintro rfl
      exact hof.2.symm
  special := by
    intro c hc hspecial p hp htype hedge
    have hgroup := (h.edge p hp htype c hc).mp hedge
    rw [group_of_special hspecial] at hgroup
    cases hgroup

theorem Grouped.of_types (h : Grouped o types db) (v : List CollectionType) (n : ℕ) :
    Grouped o types { db with valCollectionType := v, collectionSeq := n } where
  keys := ⟨h.keys.ids, h.keys.names, h.keys.parentRef, h.keys.childRef⟩
  each := h.each
  typeRef := h.typeRef
  edge := h.edge

/-! ## `DELETE` of collections -/

/-- What is left after a `DELETE`. -/
structure Deleted (rows : List Coll) (db db' : Db) : Prop where
  valCollectionType : db'.valCollectionType = db.valCollectionType
  mem : ∀ c, c ∈ db'.collection ↔ c ∈ db.collection ∧ ∀ old ∈ rows, c.collectionId ≠ old.collectionId
  sublist : db'.collection.Sublist db.collection
  sub : ∀ h ∈ db'.collectionHier, h ∈ db.collectionHier
  kept : ∀ h ∈ db.collectionHier, (∀ old ∈ rows, h.childCollectionId ≠ old.collectionId) →
    h ∈ db'.collectionHier

theorem Deleted.nil (db : Db) : Deleted [] db db where
  valCollectionType := rfl
  mem := by simp
  sublist := List.Sublist.refl _
  sub := fun _ h => h
  kept := fun _ h _ => h

theorem Deleted.cons {db₁ : Db} (h₁ : deleteCollection o db old = .ok db₁)
    (h : Deleted rows db₁ db') : Deleted (old :: rows) db db' := by
  obtain rfl := Except.ok.inj h₁
  refine ⟨h.valCollectionType, fun c => ?_, h.sublist.trans List.filter_sublist,
    fun x hx => (List.mem_filter.mp (h.sub x hx)).1, fun x hx hne => ?_⟩
  · rw [h.mem, List.mem_filter, decide_eq_true_eq, List.forall_mem_cons, and_assoc]
    rfl
  · rw [List.forall_mem_cons] at hne
    refine h.kept x (List.mem_filter.mpr ⟨hx, decide_eq_true fun hleft => ?_⟩) hne.2
    exact hne.1 hleft.1

theorem deleted_of_foldlM (hok : rows.foldlM (deleteCollection o) db = .ok db') :
    Deleted rows db db' := by
  induction rows generalizing db with
  | nil =>
    obtain rfl := Except.ok.inj hok
    exact .nil db
  | cons old rows ih =>
    rw [List.foldlM_cons] at hok
    obtain ⟨db₁, hstep, hok⟩ := bind_eq_ok.mp hok
    exact .cons hstep (ih hok)

theorem deleteCollections_ok (hok : deleteCollections o db rows = .ok db') :
    Deleted rows db db' ∧ ∀ old ∈ rows, ∀ h ∈ db'.collectionHier,
      h.collectionId ≠ old.collectionId ∧ h.childCollectionId ≠ old.collectionId := by
  obtain ⟨db₁, hfold, hok⟩ := bind_eq_ok.mp hok
  obtain ⟨hfk, hok⟩ := bind_unit_eq_ok.mp hok
  obtain rfl := Except.ok.inj hok
  refine ⟨deleted_of_foldlM hfold, fun old hold h hh => ?_⟩
  rw [← not_or]
  exact fun hrefers => raiseIf_eq_ok.mp hfk ⟨old, hold, h, hh, hrefers⟩

/-- `types'` are the types that have their collection still. -/
theorem grouped_delete (hdb : Grouped o types db) (hrows : ∀ old ∈ rows, old ∈ db.collection)
    (hsub : ∀ type ∈ types', type ∈ types)
    (hkept : ∀ type ∈ types', ¬ o.Special type → ∀ q ∈ rows, q.IsOf type →
      ∃ c ∈ db.collection, c.collectionType = type ∧ c ∉ rows)
    (hlost : ∀ type ∈ types, ¬ o.Special type → type ∈ types' ∨ ∀ q ∈ db.collection,
      q.IsOf type → q ∈ rows)
    (hok : deleteCollections o db rows = .ok db') :
    Grouped o types' db' ∧ db'.valCollectionType = db.valCollectionType := by
  obtain ⟨hdel, hfk⟩ := deleteCollections_ok hok
  have hleft : ∀ c ∈ db.collection, c ∉ rows → ∀ old ∈ rows, c.collectionId ≠ old.collectionId :=
    fun c hc hnot old hold hid => hnot (hdb.keys.eq_of_id hc (hrows old hold) hid ▸ hold)
  -- the row of the hierarchy would refer to a collection that is gone
  have hmember : ∀ q ∈ rows, ∀ c ∈ db.collection, ¬ o.Special c.collectionType →
      q.IsOf c.collectionType → c ∈ rows := by
    intro q hq c hc hordinary hof
    by_contra hnot
    have hedge := (hdb.edge q (hrows q hq) hof.1 c hc).mpr
      (by rw [group_of_not_special hordinary, hof.2])
    exact (hfk q hq _ (hdel.kept _ hedge (hleft c hc hnot))).1 rfl
  refine ⟨⟨⟨?_, ?_, ?_, ?_⟩, ?_, ?_, ?_⟩, hdel.valCollectionType⟩
  · exact hdb.keys.ids.sublist (hdel.sublist.map _)
  · exact hdb.keys.names.sublist (hdel.sublist.map _)
  · intro h hh
    obtain ⟨q, hq, hqid, htype⟩ := hdb.keys.parentRef h (hdel.sub h hh)
    refine ⟨q, (hdel.mem q).mpr ⟨hq, fun old hold => ?_⟩, hqid, htype⟩
    rw [hqid]
    exact (hfk old hold h hh).1
  · intro h hh
    obtain ⟨c, hc, hcid⟩ := hdb.keys.childRef h (hdel.sub h hh)
    refine ⟨c, (hdel.mem c).mpr ⟨hc, fun old hold => ?_⟩, hcid⟩
    rw [hcid]
    exact (hfk old hold h hh).2
  · intro type htype hordinary
    obtain ⟨q, hq, hof⟩ := hdb.each type (hsub type htype) hordinary
    refine ⟨q, (hdel.mem q).mpr ⟨hq, hleft q hq fun hmem => ?_⟩, hof⟩
    obtain ⟨c, hc, rfl, hnot⟩ := hkept type htype hordinary q hmem hof
    exact hnot (hmember q hmem c hc hordinary hof)
  · intro c hc hordinary
    obtain ⟨hc, hne⟩ := (hdel.mem c).mp hc
    have hnot : c ∉ rows := fun hmem => hne c hmem rfl
    have htype := hdb.typeRef c hc hordinary
    refine (hlost _ htype hordinary).resolve_right fun hall => hnot ?_
    obtain ⟨q, hq, hof⟩ := hdb.each _ htype hordinary
    exact hmember q (hall q hq hof) c hc hordinary hof
  · intro q hq htype c hc
    obtain ⟨hq, -⟩ := (hdel.mem q).mp hq
    obtain ⟨hc, hne⟩ := (hdel.mem c).mp hc
    rw [← hdb.edge q hq htype c hc]
    exact ⟨hdel.sub _, fun hedge => hdel.kept _ hedge hne⟩

theorem right_deleteCollections {cond : Coll → Bool} (hdb : Right o db)
    (hkeeps : KeepsGroups o db (.deleteCollections cond))
    (hok : execute o db (.deleteCollections cond) = .ok db') : Right o db' := by
  have hkept : ∀ type ∈ db.typeNames, ¬ o.Special type →
      ∀ q ∈ db.collection.filter cond, q.IsOf type →
        ∃ c ∈ db.collection, c.collectionType = type ∧ c ∉ db.collection.filter cond := by
    intro type htype hordinary q hq hof
    obtain ⟨hq, hcond⟩ := List.mem_filter.mp hq
    obtain ⟨t, ht, rfl⟩ := List.mem_map.mp htype
    obtain ⟨c, hc, hctype, hnot⟩ := hkeeps q hq hcond
      ⟨hof.1, by rwa [hof.2], t, ht, hof.2.symm⟩
    refine ⟨c, hc, hctype.trans hof.2, fun hmem => ?_⟩
    rw [(List.mem_filter.mp hmem).2] at hnot
    cases hnot
  obtain ⟨h, htypes⟩ := grouped_delete hdb (fun q hq => (List.mem_filter.mp hq).1)
    (fun _ h => h) hkept (fun _ h _ => .inl h) hok
  rw [Right, Db.typeNames, htypes]
  exact h

/-! ## `INSERT` and `UPDATE` of collections -/

theorem right_write {s : RowStatement Coll} (hdb : Right o db) (hs : Regroups o db.typeNames db s)
    (hok : writeCollections o db s = .ok db') : Right o db' := by
  obtain ⟨h, -, htypes⟩ := grouped_write hdb hs (fun e _ new _ href _ => by
    obtain ⟨t, ht, htype⟩ := href
    rw [← htype]
    exact List.mem_map_of_mem ht) hok
  rw [Right, Db.typeNames, htypes]
  exact h

theorem regroups_insert : Regroups o types db (.insert rows) where
  fits := by
    intro e he
    obtain ⟨r, -, rfl⟩ := List.mem_map.mp he
    trivial
  stays := by
    intro old new he
    obtain ⟨r, -, heq⟩ := List.mem_map.mp he
    cases heq

theorem regroups_update {set : Coll → Option String}
    (hkeeps : KeepsGroups o db (.updateCollections set)) :
    Regroups o db.typeNames db (collectionsUpdate set) := by
  have hevent : ∀ e ∈ (collectionsUpdate set).events db.collection, ∃ c ∈ db.collection,
      ∃ type, set c = some type ∧ e = .update c { c with collectionType := type } := by
    intro e he
    obtain ⟨c, hc, new, hnew, rfl⟩ := exists_of_update he
    obtain ⟨type, hset, rfl⟩ : ∃ type, set c = some type ∧
        { c with collectionType := type } = new := Option.map_eq_some_iff.mp hnew
    exact ⟨c, hc, type, hset, rfl⟩
  constructor
  · intro e he
    obtain ⟨c, hc, type, hset, rfl⟩ := hevent e he
    exact ⟨rfl, (hkeeps c hc type hset).1⟩
  · intro old new he type htype hordinary hof
    obtain ⟨c, hc, type', hset, heq⟩ := hevent _ he
    obtain ⟨rfl, rfl⟩ := RowEvent.update.inj heq
    obtain ⟨t, ht, rfl⟩ := List.mem_map.mp htype
    rw [(hkeeps old hc type' hset).2 ⟨hof.1, by rwa [hof.2], t, ht, hof.2.symm⟩, ← hof.1]

/-! ## Statements on types -/

theorem grouped_insertType {new : CollectionType} (hdb : Grouped o types db)
    (hok : manipCollectionTypeBytype o db (.insert new) = .ok db') :
    Grouped o (types ++ [new.collectionType]) db' ∧
      db'.valCollectionType = db.valCollectionType := by
  rw [manipCollectionTypeBytype] at hok
  split_ifs at hok with hspecial
  · obtain rfl := Except.ok.inj hok
    refine ⟨⟨hdb.keys, fun type htype hordinary => ?_, fun c hc hordinary => ?_, hdb.edge⟩, rfl⟩
    · rcases List.mem_append.mp htype with htype | htype
      · exact hdb.each type htype hordinary
      · rw [List.mem_singleton.mp htype] at hordinary
        exact absurd hspecial hordinary
    · exact List.mem_append_left _ (hdb.typeRef c hc hordinary)
  · obtain ⟨h, hcollection, htypes⟩ := grouped_write (hdb.of_types db.valCollectionType _)
      regroups_insert (fun e he row hrow _ hordinary => by
        -- the row is of a type that has no collection
        obtain ⟨r, hr, rfl⟩ := List.mem_map.mp he
        obtain rfl := Option.some.inj hrow
        rw [List.mem_singleton.mp hr] at hordinary
        exact absurd (.inl rfl) hordinary) hok
    refine ⟨⟨h.keys, fun type htype hordinary => ?_, fun c hc hordinary => ?_, h.edge⟩, htypes⟩
    · rcases List.mem_append.mp htype with htype | htype
      · exact h.each type htype hordinary
      · rw [List.mem_singleton.mp htype, hcollection]
        exact ⟨_, List.mem_append_right _ (List.mem_singleton.mpr rfl), rfl, rfl⟩
    · exact List.mem_append_left _ (h.typeRef c hc hordinary)

theorem right_insertTypes {rows : List CollectionType} (hdb : Right o db)
    (hok : writeTypes o db (.insert rows) = .ok db') : Right o db' := by
  obtain ⟨t, ht, hok⟩ := bind_eq_ok.mp hok
  obtain rfl := execute_ok ht
  have hevents : (RowStatement.insert rows).events db.valCollectionType = rows.map .insert := rfl
  rw [hevents, List.foldlM_map] at hok
  obtain ⟨done, hdone, hlist⟩ := foldlM_rest_keeps
    (P := fun (rest : List CollectionType) db' => ∃ done, Grouped o done db' ∧
      db'.typeNames = done ++ rest.map (·.collectionType))
    (fun new rest d d' ⟨done, hdone, hlist⟩ hstep => by
      obtain ⟨h, htypes⟩ := grouped_insertType hdone hstep
      refine ⟨_, h, ?_⟩
      rw [Db.typeNames, htypes, List.append_assoc]
      exact hlist)
    ⟨db.typeNames, hdb.of_types _ _, List.map_append⟩ hok
  rw [List.map_nil, List.append_nil] at hlist
  rw [Right, hlist]
  exact hdone

theorem right_deleteType {old : CollectionType} (hdb : Right o db)
    (hok : deleteType o db old = .ok db') : Right o db' := by
  obtain ⟨db₁, hdel, hok⟩ := bind_eq_ok.mp hok
  have hsub : ∀ type ∈ db.typeNames.filter (· ≠ old.collectionType), type ∈ db.typeNames :=
    fun type htype => (List.mem_filter.mp htype).1
  have hother : ∀ type ∈ db.typeNames, type ≠ old.collectionType →
      type ∈ db.typeNames.filter (· ≠ old.collectionType) :=
    fun type htype hne => List.mem_filter.mpr ⟨htype, decide_eq_true hne⟩
  have hdb₁ : Grouped o (db.typeNames.filter (· ≠ old.collectionType)) db₁ ∧
      db₁.valCollectionType = db.valCollectionType := by
    rw [manipCollectionTypeBytype] at hdel
    split_ifs at hdel with hspecial
    · obtain rfl := Except.ok.inj hdel
      refine ⟨⟨hdb.keys, fun type htype => hdb.each type (hsub type htype), fun c hc hordinary => ?_,
        hdb.edge⟩, rfl⟩
      refine hother _ (hdb.typeRef c hc hordinary) fun heq => hordinary ?_
      rw [heq]
      exact hspecial
    · refine grouped_delete hdb (fun q hq => (List.mem_filter.mp hq).1) hsub
        (fun type htype _ q hq hof => ?_) (fun type htype _ => ?_) hdel
      · have hqof : q.IsOf old.collectionType := of_decide_eq_true (List.mem_filter.mp hq).2
        have hne := of_decide_eq_true (List.mem_filter.mp htype).2
        exact absurd (hof.2.symm.trans hqof.2) hne
      · by_cases heq : type = old.collectionType
        · exact .inr fun q hq hof => List.mem_filter.mpr ⟨hq, decide_eq_true (heq ▸ hof)⟩
        · exact .inl (hother type htype heq)
  obtain rfl := Except.ok.inj hok
  have hnames : (db₁.valCollectionType.filter (·.collectionType ≠ old.collectionType)).map
      (·.collectionType) = db.typeNames.filter (· ≠ old.collectionType) := by
    rw [hdb₁.2, Db.typeNames, List.filter_map]
    rfl
  rw [Right, Db.typeNames, hnames]
  exact hdb₁.1.of_types _ db₁.collectionSeq

theorem right_deleteTypes {rows : List CollectionType} (hdb : Right o db)
    (hok : deleteTypes o db rows = .ok db') : Right o db' := by
  obtain ⟨db₁, hfold, hok⟩ := bind_eq_ok.mp hok
  obtain rfl := Except.ok.inj (bind_unit_eq_ok.mp hok).2
  exact foldlM_keeps (fun old _ d d' hd hstep => right_deleteType hd hstep) hdb hfold

theorem typesUpdate_ok {set : CollectionType → Option String}
    (hok : writeTypes o db (typesUpdate set) = .ok db') : db' = db := by
  obtain ⟨t, ht, hok⟩ := bind_eq_ok.mp hok
  obtain rfl := execute_ok ht
  cases hevents : (typesUpdate set).events db.valCollectionType with
  | nil =>
    rw [hevents] at hok
    obtain rfl := Except.ok.inj hok
    rw [typesUpdate, after_update_eq_self hevents]
  | cons e events =>
    rw [hevents, List.foldlM_cons] at hok
    obtain ⟨db₁, hok, -⟩ := bind_eq_ok.mp hok
    have he : e ∈ (typesUpdate set).events db.valCollectionType := hevents ▸ List.mem_cons_self
    obtain ⟨old, -, new, -, rfl⟩ := exists_of_update he
    rw [manipCollectionTypeBytype] at hok
    split_ifs at hok
    · exact absurd hok raise_ne_ok
    · exact absurd hok raise_ne_ok

theorem right_step {s : Statement} (hdb : Right o db) (hkeeps : KeepsGroups o db s) :
    Right o (step o db s) := by
  unfold step
  cases hok : execute o db s with
  | error e => exact hdb
  | ok db' =>
    show Right o db'
    cases s with
    | insertTypes rows => exact right_insertTypes hdb hok
    | updateTypes set => exact typesUpdate_ok hok ▸ hdb
    | deleteTypes cond => exact right_deleteTypes hdb hok
    | insertCollections rows => exact right_write hdb regroups_insert hok
    | updateCollections set => exact right_write hdb (regroups_update hkeeps) hok
    | deleteCollections cond => exact right_deleteCollections hdb hkeeps hok

theorem rightlyGrouped_run {l : List Statement}
    (hl : AllSteps (step o) (KeepsGroups o) Db.empty l) :
    RightlyGrouped o (run (step o) Db.empty l) :=
  (run_invariant (fun _ _ => right_step) (right_empty o) hl).rightlyGrouped

/-- An application is taken from one type to another, and the collection of a device away. -/
def appMoved : List Statement :=
  [.insertTypes [⟨"by-coll-type", true⟩, ⟨"per-device", true⟩, ⟨"app", true⟩, ⟨"db", true⟩],
    .insertCollections [⟨10, "x", "app"⟩, ⟨11, "y", "per-device"⟩],
    .updateCollections fun c => if c.collectionName = "x" then some "db" else none,
    .deleteCollections (·.collectionName = "y")]

theorem appMoved_rightlyGrouped :
    RightlyGrouped .device (run (step .device) Db.empty appMoved) := by
  have hx : ∀ c ∈ (run (step .device) Db.empty (appMoved.take 2)).collection,
      c.collectionName = "x" → c.collectionType = "app" := by decide
  have hy : ∀ c ∈ (run (step .device) Db.empty (appMoved.take 3)).collection,
      c.collectionName = "y" → c.collectionType = "per-device" := by decide
  refine rightlyGrouped_run ⟨trivial, trivial, fun c hc type hset => ?_, fun q hq hcond hof => ?_,
    trivial⟩
  · obtain ⟨hname, htype⟩ := Option.ite_none_right_eq_some.mp hset
    obtain rfl := Option.some.inj htype
    rw [hx c hc hname]
    refine ⟨by decide, fun hof => ?_⟩
    rw [Db.CollectsType, hx c hc hname] at hof
    exact absurd hof.1 (by decide)
  · rw [Db.CollectsType, hy q hq (of_decide_eq_true hcond)] at hof
    exact absurd hof.1 (by decide)

/-- The collection of a device becomes one of applications. -/
def deviceRetyped : List Statement :=
  [.insertTypes [⟨"by-coll-type", true⟩, ⟨"per-device", true⟩, ⟨"app", true⟩],
    .insertCollections [⟨10, "x", "per-device"⟩],
    .updateCollections fun c => if c.collectionName = "x" then some "app" else none]

theorem deviceRetyped_alone :
    ¬ RightlyGrouped .device (run (step .device) Db.empty deviceRetyped) := by
  intro h
  have hhier : (run (step .device) Db.empty deviceRetyped).collectionHier = [] := by decide
  obtain ⟨q, hq, hof, hall⟩ := h.member ⟨10, "x", "app"⟩ (by decide) (by decide)
  have hedge := (hall q hq hof.1).mpr rfl
  rw [hhier] at hedge
  exact List.not_mem_nil hedge

end JazzHands.Collection

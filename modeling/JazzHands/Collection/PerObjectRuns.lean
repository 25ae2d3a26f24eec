import JazzHands.Collection.PerObject

/-!
# Runs of statements on service environments and accounts

The trigger of service environments compares their ids where it should compare names.
-/

namespace JazzHands.PerObject

open Postgres RowStatement Library

/-- An object is given by its id and its name. -/
structure OwnCollections (type : String) (objects : List (ℕ × String)) (t : Collections) :
    Prop where
  own : ∀ x ∈ objects, ∃ c,
    t.collection.filter (fun c => c.collectionType = type ∧ ⟨c.collectionId, x.1⟩ ∈ t.member) = [c] ∧
      c.collectionName = newname x.2 x.1 ∧ ∀ i, ⟨c.collectionId, i⟩ ∈ t.member ↔ i = x.1
  left : ∀ c ∈ t.collection, c.collectionType = type →
    ∃ x ∈ objects, ⟨c.collectionId, x.1⟩ ∈ t.member

def ServiceEnvironment.object (e : ServiceEnvironment) : ℕ × String :=
  (e.serviceEnvironmentId, e.serviceEnvironmentName)

def Account.object (a : Account) : ℕ × String := (a.accountId, a.login)

structure Right (db : Db) : Prop where
  serviceEnvironment : OwnCollections "per-environment"
    (db.serviceEnvironment.map ServiceEnvironment.object) db.serviceEnvironmentCollections
  account : OwnCollections "per-account" (db.account.map Account.object) db.accountCollections

/-- The keys of the collections, and that members are members of collections. -/
structure Collections.Keys (t : Collections) : Prop where
  ids : (t.collection.map (·.collectionId)).Nodup
  names : (t.collection.map fun c => (c.collectionName, c.collectionType)).Nodup
  memberRef : ∀ m ∈ t.member, m.collectionId ∈ t.collection.map (·.collectionId)

structure Keys (db : Db) : Prop where
  serviceEnvironment : (db.serviceEnvironment.map (·.serviceEnvironmentId)).Nodup
  serviceEnvironmentCollections : db.serviceEnvironmentCollections.Keys
  account : (db.account.map (·.accountId)).Nodup
  accountCollections : db.accountCollections.Keys

/-- No service environment gets another name. -/
def Statement.KeepsNames (db : Db) : Statement → Prop
  | .updateServiceEnvironments set => ∀ e ∈ db.serviceEnvironment, ∀ name, set e = some name →
      name = e.serviceEnvironmentName
  | _ => True

/-! ## The collections by membership -/

/-- The collection is that of the object, and of no other. -/
structure IsOwn (type : String) (t : Collections) (x : ℕ × String) (c : Coll) : Prop where
  type_eq : c.collectionType = type
  name_eq : c.collectionName = newname x.2 x.1
  members : ∀ i, ⟨c.collectionId, i⟩ ∈ t.member ↔ i = x.1

structure Owned (type : String) (objects : List (ℕ × String)) (t : Collections) : Prop where
  keys : t.Keys
  own : ∀ x ∈ objects, ∃ c ∈ t.collection, IsOwn type t x c
  only : ∀ c ∈ t.collection, c.collectionType = type → ∃ x ∈ objects, IsOwn type t x c

variable {type name : String} {objects objects' : List (ℕ × String)} {t t' t₁ : Collections}
  {x y : ℕ × String} {c d : Coll} {i id : ℕ} {first : FirstRow ℕ} {db db' : Db}

theorem Collections.Keys.eq_of_id (h : t.Keys) (hc : c ∈ t.collection) (hd : d ∈ t.collection)
    (heq : c.collectionId = d.collectionId) : c = d :=
  List.inj_on_of_nodup_map h.ids hc hd heq

theorem Collections.Keys.eq_of_isOwn (h : t.Keys) (hc : c ∈ t.collection) (hd : d ∈ t.collection)
    (hcx : IsOwn type t x c) (hdx : IsOwn type t x d) : c = d :=
  List.inj_on_of_nodup_map h.names hc hd
    (Prod.ext (hcx.name_eq.trans hdx.name_eq.symm) (hcx.type_eq.trans hdx.type_eq.symm))

theorem mem_ofType : id ∈ t.ofType type i ↔ ∃ c ∈ t.collection, c.collectionType = type ∧
    ⟨c.collectionId, i⟩ ∈ t.member ∧ c.collectionId = id := by
  simp only [Collections.ofType, List.mem_map, List.mem_filter, decide_eq_true_eq, and_assoc]

namespace Owned

theorem congr (h : Owned type objects t) (hsame : ∀ x, x ∈ objects ↔ x ∈ objects') :
    Owned type objects' t where
  keys := h.keys
  own := fun x hx => h.own x ((hsame x).mpr hx)
  only := fun c hc htype => by
    obtain ⟨x, hx, hown⟩ := h.only c hc htype
    exact ⟨x, (hsame x).mp hx, hown⟩

theorem ownCollections (h : Owned type objects t) (hids : (objects.map Prod.fst).Nodup) :
    OwnCollections type objects t where
  own := by
    intro x hx
    obtain ⟨c, hc, hown⟩ := h.own x hx
    refine ⟨c, ?_, hown.name_eq, hown.members⟩
    rw [← filter_key h.keys.ids hc]
    refine List.filter_congr fun d hd => decide_eq_decide.mpr ⟨?_, ?_⟩
    · rintro ⟨htype, hmem⟩
      obtain ⟨y, hy, hdown⟩ := h.only d hd htype
      have hxy : x.1 = y.1 := (hdown.members x.1).mp hmem
      obtain rfl : x = y := List.inj_on_of_nodup_map hids hx hy hxy
      rw [h.keys.eq_of_isOwn hd hc hdown hown]
    · intro hid
      rw [h.keys.eq_of_id hd hc hid]
      exact ⟨hown.type_eq, (hown.members x.1).mpr rfl⟩
  left := by
    intro c hc htype
    obtain ⟨x, hx, hown⟩ := h.only c hc htype
    exact ⟨x, hx, (hown.members x.1).mpr rfl⟩

theorem of_ownCollections (hkeys : t.Keys) (h : OwnCollections type objects t) :
    Owned type objects t where
  keys := hkeys
  own := by
    intro x hx
    obtain ⟨c, hfilter, hname, hmembers⟩ := h.own x hx
    have hc : c ∈ t.collection.filter _ := hfilter ▸ List.mem_singleton_self c
    obtain ⟨hc, htype⟩ := List.mem_filter.mp hc
    exact ⟨c, hc, (of_decide_eq_true htype).1, hname, hmembers⟩
  only := by
    intro c hc htype
    obtain ⟨x, hx, hmem⟩ := h.left c hc htype
    obtain ⟨d, hfilter, hname, hmembers⟩ := h.own x hx
    have hcd : c ∈ t.collection.filter (fun c =>
        c.collectionType = type ∧ ⟨c.collectionId, x.1⟩ ∈ t.member) :=
      List.mem_filter.mpr ⟨hc, decide_eq_true ⟨htype, hmem⟩⟩
    rw [hfilter, List.mem_singleton] at hcd
    rw [hcd] at htype ⊢
    exact ⟨x, hx, htype, hname, hmembers⟩

/-! ## What each change does -/

/-- **A new object gets its collection.** -/
theorem insertOwn (h : Owned type objects t)
    (hok : PerObject.insertOwn t type (newname x.2 x.1) x.1 = .ok t') :
    Owned type (objects ++ [x]) t' := by
  obtain ⟨hkeys, hok⟩ := bind_unit_eq_ok.mp hok
  obtain ⟨hid, hname⟩ := bind_unit_eq_ok.mp hkeys
  obtain rfl := Except.ok.inj hok
  have hid := checkUnique_ok hid
  have hname := checkUnique_ok hname
  have hold : ∀ c ∈ t.collection, ∀ j, (⟨c.collectionId, j⟩ : Member) ∈
      t.member ++ [⟨t.collectionSeq, x.1⟩] ↔ ⟨c.collectionId, j⟩ ∈ t.member := by
    intro c hc j
    refine List.mem_append.trans (or_iff_left fun hnew => hid c hc ?_)
    exact congrArg Member.collectionId (List.mem_singleton.mp hnew)
  have hnew : ∀ j, (⟨t.collectionSeq, j⟩ : Member) ∈ t.member ++ [⟨t.collectionSeq, x.1⟩] ↔
      j = x.1 := by
    intro j
    rw [List.mem_append, or_iff_right, List.mem_singleton, Member.mk.injEq, and_iff_right rfl]
    intro hmem
    obtain ⟨c, hc, hseq⟩ := List.mem_map.mp (h.keys.memberRef _ hmem)
    exact hid c hc hseq
  refine ⟨⟨?_, ?_, fun m hm => ?_⟩, fun y hy => ?_, fun c hc htype => ?_⟩
  · exact nodup_concat h.keys.ids hid
  · exact nodup_concat h.keys.names hname
  · rw [List.map_append]
    rcases List.mem_append.mp hm with hm | hm
    · exact List.mem_append_left _ (h.keys.memberRef m hm)
    · rw [List.mem_singleton.mp hm]
      exact List.mem_append_right _ (List.mem_singleton_self _)
  · rcases List.mem_append.mp hy with hy | hy
    · obtain ⟨c, hc, hown⟩ := h.own y hy
      refine ⟨c, List.mem_append_left _ hc, hown.type_eq, hown.name_eq, fun j => ?_⟩
      exact (hold c hc j).trans (hown.members j)
    · rw [List.mem_singleton.mp hy]
      exact ⟨_, List.mem_append_right _ (List.mem_singleton_self _), rfl, rfl, hnew⟩
  · rcases List.mem_append.mp hc with hc | hc
    · obtain ⟨y, hy, hown⟩ := h.only c hc htype
      refine ⟨y, List.mem_append_left _ hy, hown.type_eq, hown.name_eq, fun j => ?_⟩
      exact (hold c hc j).trans (hown.members j)
    · rw [List.mem_singleton.mp hc]
      exact ⟨x, List.mem_append_right _ (List.mem_singleton_self x), rfl, rfl, hnew⟩

/-- **The collection of an object goes.** -/
theorem deleteOwn (h : Owned type objects t) (hids : (objects.map Prod.fst).Nodup)
    {pick : Option ℕ}
    (hsome : ∀ id, pick = some id → id ∈ t.ofType type i)
    (hnone : pick = none → t.ofType type i = []) (hok : PerObject.deleteOwn t pick = .ok t') :
    Owned type (objects.filter fun x => x.1 ≠ i) t' := by
  cases pick with
  | none =>
    obtain rfl := Except.ok.inj hok
    refine h.congr fun x => (List.mem_filter.trans (and_iff_left_of_imp fun hx => ?_)).symm
    refine decide_eq_true fun hxi => ?_
    obtain ⟨c, hc, hown⟩ := h.own x hx
    have hmem : c.collectionId ∈ t.ofType type i :=
      mem_ofType.mpr ⟨c, hc, hown.type_eq, (hown.members i).mpr hxi.symm, rfl⟩
    rw [hnone rfl] at hmem
    exact List.not_mem_nil hmem
  | some id =>
    obtain ⟨-, hok⟩ := bind_unit_eq_ok.mp hok
    obtain rfl := Except.ok.inj hok
    obtain ⟨c, hc, htype, hmem, rfl⟩ := mem_ofType.mp (hsome id rfl)
    have hmembers : ∀ d : Coll, d.collectionId ≠ c.collectionId → ∀ j,
        ((⟨d.collectionId, j⟩ : Member) ∈ t.member.filter fun m => m.collectionId ≠ c.collectionId) ↔
          ⟨d.collectionId, j⟩ ∈ t.member :=
      fun d hd j => List.mem_filter.trans (and_iff_left (decide_eq_true hd))
    refine ⟨⟨h.keys.ids.sublist (List.filter_sublist.map _),
      h.keys.names.sublist (List.filter_sublist.map _), fun m hm => ?_⟩, fun x hx => ?_,
      fun d hd htype' => ?_⟩
    · obtain ⟨hm, hne⟩ := List.mem_filter.mp hm
      obtain ⟨d, hd, hid⟩ := List.mem_map.mp (h.keys.memberRef m hm)
      refine List.mem_map.mpr ⟨d, List.mem_filter.mpr ⟨hd, decide_eq_true ?_⟩, hid⟩
      rw [hid]
      exact of_decide_eq_true hne
    · obtain ⟨hx, hxi⟩ := List.mem_filter.mp hx
      obtain ⟨d, hd, hown⟩ := h.own x hx
      have hne : d.collectionId ≠ c.collectionId := by
        intro heq
        rw [← h.keys.eq_of_id hd hc heq] at hmem
        exact of_decide_eq_true hxi ((hown.members i).mp hmem).symm
      exact ⟨d, List.mem_filter.mpr ⟨hd, decide_eq_true hne⟩, hown.type_eq, hown.name_eq,
        fun j => (hmembers d hne j).trans (hown.members j)⟩
    · obtain ⟨hd, hne⟩ := List.mem_filter.mp hd
      have hne := of_decide_eq_true hne
      obtain ⟨x, hx, hown⟩ := h.only d hd htype'
      refine ⟨x, List.mem_filter.mpr ⟨hx, decide_eq_true fun hxi => hne ?_⟩, hown.type_eq,
        hown.name_eq, fun j => (hmembers d hne j).trans (hown.members j)⟩
      -- both are collections of the object, which has one of its own
      obtain ⟨y, hy, hcy⟩ := h.only c hc htype
      have hxy : x.1 = y.1 := hxi.trans ((hcy.members i).mp hmem)
      obtain rfl : x = y := List.inj_on_of_nodup_map hids hx hy hxy
      rw [h.keys.eq_of_isOwn hd hc hown hcy]

/-- **The collection of an object gets its new name.** -/
theorem rename {d rest : List (ℕ × String)} (h : Owned type (d ++ (i, name) :: rest) t)
    (hids : ((d ++ (i, name) :: rest).map Prod.fst).Nodup) {name' : String}
    (htype : t.ofType type i = [id])
    (hok : PerObject.rename t (fun c => c.collectionType = type ∧ c.collectionId = id)
      (newname name' i) = .ok t') : Owned type (d ++ (i, name') :: rest) t' := by
  obtain ⟨collection, hexec, hok⟩ := bind_eq_ok.mp hok
  obtain rfl := Except.ok.inj hok
  have hcheck := fun l new (hc : collectionKeys l new = .ok ()) => bind_unit_eq_ok.mp hc
  have hmem : id ∈ t.ofType type i := htype ▸ List.mem_singleton_self id
  obtain ⟨c, hc, hctype, hcmem, rfl⟩ := mem_ofType.mp hmem
  have hafter := execute_ok hexec
  have hmap : collection = t.collection.map fun d =>
      if d.collectionId = c.collectionId then { d with collectionName := newname name' i } else d := by
    rw [hafter]
    refine List.map_congr_left fun d hd => ?_
    by_cases hid : d.collectionId = c.collectionId
    · have hdtype : d.collectionType = type := by rw [h.keys.eq_of_id hd hc hid, hctype]
      simp [hid, hdtype]
    · simp [hid]
  have hci : IsOwn type t (i, name) c := by
    obtain ⟨y, hy, hcy⟩ := h.only c hc hctype
    have hyi : (i, name).1 = y.1 := (hcy.members i).mp hcmem
    rwa [List.inj_on_of_nodup_map hids (by simp) hy hyi]
  have hothers : ∀ y, y ∈ d ++ rest → y.1 ≠ i := by
    rw [List.map_append, List.map_cons] at hids
    intro y hy hyi
    refine (List.nodup_cons.mp (List.nodup_middle.mp hids)).1 ?_
    rw [← List.map_append]
    exact List.mem_map.mpr ⟨y, hy, hyi⟩
  have hother : ∀ d ∈ t.collection, ∀ y, y.1 ≠ i → IsOwn type t y d →
      d.collectionId ≠ c.collectionId := by
    intro d hd y hyi hdy heq
    rw [h.keys.eq_of_id hd hc heq] at hdy
    exact hyi ((hdy.members i).mp ((hci.members i).mpr rfl)).symm
  refine ⟨⟨nodup_execute (fun l new hl => checkUnique_ok (hcheck l new hl).1) h.keys.ids hexec,
    nodup_execute (fun l new hl => checkUnique_ok (hcheck l new hl).2) h.keys.names hexec,
    fun m hm => ?_⟩, fun y hy => ?_, fun d' hd' hdtype => ?_⟩
  · have hsame : collection.map (·.collectionId) = t.collection.map (·.collectionId) := by
      rw [hmap, List.map_map]
      refine List.map_congr_left fun d _ => ?_
      show (if d.collectionId = c.collectionId then _ else d : Coll).collectionId = _
      split <;> rfl
    show m.collectionId ∈ collection.map (·.collectionId)
    rw [hsame]
    exact h.keys.memberRef m hm
  · rw [List.mem_append, List.mem_cons, or_left_comm, ← List.mem_append] at hy
    rcases hy with rfl | hy
    · refine ⟨{ c with collectionName := newname name' i }, ?_, hctype, rfl, hci.members⟩
      show _ ∈ collection
      rw [hmap]
      exact List.mem_map.mpr ⟨c, hc, if_pos rfl⟩
    · have hy' : y ∈ d ++ (i, name) :: rest := by
        rw [List.mem_append, List.mem_cons, or_left_comm, ← List.mem_append]
        exact .inr hy
      obtain ⟨d, hd, hdy⟩ := h.own y hy'
      refine ⟨d, ?_, hdy.type_eq, hdy.name_eq, hdy.members⟩
      show d ∈ collection
      rw [hmap]
      exact List.mem_map.mpr ⟨d, hd, if_neg (hother d hd y (hothers y hy) hdy)⟩
  · have hd'' : d' ∈ collection := hd'
    rw [hmap] at hd''
    obtain ⟨d, hd, rfl⟩ := List.mem_map.mp hd''
    by_cases hid : d.collectionId = c.collectionId
    · rw [if_pos hid, h.keys.eq_of_id hd hc hid]
      exact ⟨(i, name'), by simp, hctype, rfl, hci.members⟩
    · rw [if_neg hid] at hdtype ⊢
      obtain ⟨y, hy, hdy⟩ := h.only d hd hdtype
      rw [List.mem_append, List.mem_cons, or_left_comm, ← List.mem_append] at hy
      refine ⟨y, ?_, hdy.type_eq, hdy.name_eq, hdy.members⟩
      rcases hy with rfl | hy
      · exact absurd (congrArg Coll.collectionId (h.keys.eq_of_isOwn hd hc hdy hci)) hid
      · rw [List.mem_append, List.mem_cons, or_left_comm, ← List.mem_append]
        exact .inr hy

end Owned

/-! ## Statements on many rows -/

section Rows

variable {ρ : Type} {o : ρ → ℕ × String} {check : List ρ → ρ → Result Unit}
  {delete : Collections → ρ → Result Collections}
  {update : Collections → RowEvent ρ → Result Collections} {rows rows' d : List ρ}
  {s : RowStatement ρ}

theorem owned_inserts
    (hupdate : ∀ t new, update t (.insert new) =
      insertOwn t type (newname (o new).2 (o new).1) (o new).1)
    (h : Owned type (d.map o) t)
    (hok : (rows.map RowEvent.insert).foldlM update t = .ok t') :
    Owned type ((d ++ rows).map o) t' := by
  induction rows generalizing d t with
  | nil =>
    obtain rfl := Except.ok.inj hok
    rwa [List.append_nil]
  | cons new rows ih =>
    rw [List.map_cons, List.foldlM_cons, bind_eq_ok] at hok
    obtain ⟨t₁, h₁, hok⟩ := hok
    rw [hupdate] at h₁
    have hnext := ih (d := d ++ [new]) (by simpa using h.insertOwn h₁) hok
    rwa [List.append_assoc, List.singleton_append] at hnext

/-- The triggers before a `DELETE`, whose rows are those of `gone`. -/
theorem owned_deletes {gone : List ρ}
    (hdelete : ∀ t old, ∃ pick, delete t old = deleteOwn t pick ∧
      (∀ id, pick = some id → id ∈ t.ofType type (o old).1) ∧
        (pick = none → t.ofType type (o old).1 = []))
    (h : Owned type objects t) (hids : (objects.map Prod.fst).Nodup)
    (hok : (gone.map RowEvent.delete).foldlM (beforeDelete delete) t = .ok t') :
    Owned type (objects.filter fun x => ∀ old ∈ gone, x.1 ≠ (o old).1) t' := by
  induction gone generalizing objects t with
  | nil =>
    obtain rfl := Except.ok.inj hok
    exact h.congr fun x => by simp
  | cons old gone ih =>
    rw [List.map_cons, List.foldlM_cons, bind_eq_ok] at hok
    obtain ⟨t₁, h₁, hok⟩ := hok
    obtain ⟨pick, hpick, hsome, hnone⟩ := hdelete t old
    have h₁ : deleteOwn t pick = .ok t₁ := by rw [← hpick]; exact h₁
    have hnext := ih (h.deleteOwn hids hsome hnone h₁)
      (hids.sublist (List.filter_sublist.map Prod.fst)) hok
    refine hnext.congr fun x => ?_
    simp only [List.mem_filter, decide_eq_true_eq, List.forall_mem_cons, and_assoc]

theorem foldlM_beforeDelete {evs : List (RowEvent ρ)} (hevs : ∀ e ∈ evs, ∀ old, e ≠ .delete old) :
    evs.foldlM (beforeDelete delete) t = .ok t := by
  induction evs with
  | nil => rfl
  | cons e evs ih =>
    have he : beforeDelete delete t e = .ok t := by
      cases e with
      | delete old => exact absurd rfl (hevs _ List.mem_cons_self old)
      | insert new => rfl
      | update old new => rfl
    rw [List.foldlM_cons, he]
    exact ih fun e he => hevs e (List.mem_cons_of_mem _ he)

theorem executeRows_ok (h : executeRows (fun r => (o r).1) check delete update rows t s =
    .ok (rows', t')) : ∃ t₁, (s.events rows).foldlM (beforeDelete delete) t = .ok t₁ ∧
      s.execute check rows = .ok rows' ∧ (s.events rows).foldlM update t₁ = .ok t' := by
  obtain ⟨t₁, h₁, h⟩ := bind_eq_ok.mp h
  obtain ⟨rows₁, hexec, h⟩ := bind_eq_ok.mp h
  obtain ⟨-, h⟩ := bind_unit_eq_ok.mp h
  obtain ⟨t₂, h₂, h⟩ := bind_eq_ok.mp h
  cases h
  exact ⟨t₁, h₁, hexec, h₂⟩

theorem owned_insert
    (hupdate : ∀ t new, update t (.insert new) =
      insertOwn t type (newname (o new).2 (o new).1) (o new).1)
    (h : Owned type (rows.map o) t) {new : List ρ}
    (hok : executeRows (fun r => (o r).1) check delete update rows t (.insert new) =
      .ok (rows', t')) : Owned type (rows'.map o) t' := by
  obtain ⟨t₁, h₁, hexec, h₂⟩ := executeRows_ok hok
  have hnone : ∀ e ∈ (RowStatement.insert new).events rows, ∀ old, e ≠ .delete old := by
    intro e he old
    obtain ⟨r, -, rfl⟩ := List.mem_map.mp he
    exact fun heq => by cases heq
  rw [foldlM_beforeDelete hnone] at h₁
  obtain rfl := Except.ok.inj h₁
  rw [execute_ok hexec]
  exact owned_inserts hupdate h h₂

theorem owned_delete
    (hdelete : ∀ t old, ∃ pick, delete t old = deleteOwn t pick ∧
      (∀ id, pick = some id → id ∈ t.ofType type (o old).1) ∧
        (pick = none → t.ofType type (o old).1 = []))
    (hupdate : ∀ t old, update t (.delete old) = .ok t) {cond : ρ → Bool}
    (h : Owned type (rows.map o) t) (hids : (rows.map fun r => (o r).1).Nodup)
    (hok : executeRows (fun r => (o r).1) check delete update rows t (.delete cond) =
      .ok (rows', t')) : Owned type (rows'.map o) t' := by
  obtain ⟨t₁, h₁, hexec, h₂⟩ := executeRows_ok hok
  have hrest : ∀ gone : List ρ, (gone.map RowEvent.delete).foldlM update t₁ = .ok t₁ := by
    intro gone
    induction gone with
    | nil => rfl
    | cons old gone ih =>
      rw [List.map_cons, List.foldlM_cons, hupdate]
      exact ih
  rw [show (RowStatement.delete cond).events rows = (rows.filter cond).map .delete from rfl,
    hrest] at h₂
  obtain rfl := Except.ok.inj h₂
  have hgone := owned_deletes hdelete h (by rwa [List.map_map]) h₁
  rw [execute_ok hexec]
  refine hgone.congr fun x => ?_
  rw [List.mem_filter, List.mem_map, decide_eq_true_eq]
  constructor
  · rintro ⟨⟨r, hr, rfl⟩, hne⟩
    refine List.mem_map_of_mem (List.mem_filter.mpr ⟨hr, ?_⟩)
    cases hcond : cond r with
    | false => rfl
    | true => exact absurd rfl (hne r (List.mem_filter.mpr ⟨hr, hcond⟩))
  · intro hx
    obtain ⟨r, hr, rfl⟩ := List.mem_map.mp hx
    obtain ⟨hr, hcond⟩ := List.mem_filter.mp hr
    refine ⟨⟨r, hr, rfl⟩, fun old hold heq => ?_⟩
    obtain ⟨hold, hcond'⟩ := List.mem_filter.mp hold
    rw [List.inj_on_of_nodup_map hids hr hold heq, hcond'] at hcond
    cases hcond

end Rows

/-! ## The two kinds of objects -/

theorem pick_ofType (first : FirstRow ℕ) (type : String) (i : ℕ) (t : Collections) :
    (∀ id, first.pick (t.ofType type i) = some id → id ∈ t.ofType type i) ∧
      (first.pick (t.ofType type i) = none → t.ofType type i = []) :=
  ⟨fun _ => first.mem, first.ne_nil⟩

/-- The new names of accounts, with the rows of `d` before. -/
theorem owned_setLogin {set : Account → Option String} {rows d : List Account}
    (h : Owned "per-account" ((d ++ rows).map Account.object) t)
    (hids : ((d ++ rows).map (·.accountId)).Nodup)
    (hok : ((setLogin set).events rows).foldlM updatePeraccount t = .ok t') :
    Owned "per-account" ((d ++ (setLogin set).after rows).map Account.object) t' := by
  induction rows generalizing d t with
  | nil =>
    obtain rfl := Except.ok.inj hok
    exact h
  | cons a rows ih =>
    cases hset : set a with
    | none =>
      have hevents : (setLogin set).events (a :: rows) = (setLogin set).events rows := by
        simp [setLogin, events, hset]
      have hafter : (setLogin set).after (a :: rows) = a :: (setLogin set).after rows := by
        simp [setLogin, after, hset]
      rw [hevents] at hok
      have hnext := ih (d := d ++ [a]) (by simpa using h) (by simpa using hids) hok
      rw [hafter]
      simpa using hnext
    | some login =>
      have hevents : (setLogin set).events (a :: rows) =
          .update a { a with login := login } :: (setLogin set).events rows := by
        simp [setLogin, events, hset]
      have hafter : (setLogin set).after (a :: rows) =
          { a with login := login } :: (setLogin set).after rows := by
        simp [setLogin, after, hset]
      rw [hevents, List.foldlM_cons, bind_eq_ok] at hok
      obtain ⟨t₁, h₁, hok⟩ := hok
      have hfst : ((d ++ a :: rows).map Account.object).map Prod.fst =
          (d ++ a :: rows).map (·.accountId) := by
        rw [List.map_map]
        rfl
      have hnext : Owned "per-account"
          ((d ++ { a with login := login } :: rows).map Account.object) t₁ := by
        by_cases hlogin : a.login = login
        · have hsame : ({ a with login := login } : Account) = a := by rw [← hlogin]
          simp only [updatePeraccount, hlogin, ne_eq, not_true_eq_false, if_false] at h₁
          obtain rfl := Except.ok.inj h₁
          rwa [hsame]
        · simp only [updatePeraccount, ne_eq, hlogin, not_false_eq_true, if_true] at h₁
          rw [List.map_append, List.map_cons] at h hfst ⊢
          split at h₁
          · next hnone =>
            -- the account has its collection
            obtain ⟨c, hc, hown⟩ := h.own a.object (by simp)
            have hmem : c.collectionId ∈ t.ofType "per-account" a.accountId :=
              mem_ofType.mpr ⟨c, hc, hown.type_eq, (hown.members _).mpr rfl, rfl⟩
            rw [hnone] at hmem
            exact absurd hmem List.not_mem_nil
          · next id hone => exact h.rename (hfst ▸ hids) hone h₁
          · exact absurd h₁ raise_ne_ok
      have hlast := ih (d := d ++ [{ a with login := login }]) (by simpa using hnext)
        (by simpa using hids) hok
      rw [hafter]
      simpa using hlast

theorem foldlM_setName {set : ServiceEnvironment → Option String}
    {rows : List ServiceEnvironment} (hok : ((setName set).events rows).foldlM
      updatePerServiceEnvironment t = .ok t') : t' = t := by
  refine (foldlM_looks (fun e he t₁ h₁ => ?_) hok).1
  obtain ⟨r, -, new, hset, rfl⟩ := exists_of_update he
  obtain ⟨name, -, rfl⟩ := Option.map_eq_some_iff.mp hset
  simp only [updatePerServiceEnvironment, ne_eq, not_true_eq_false, if_false] at h₁
  exact (Except.ok.inj h₁).symm

/-! ## Runs -/

structure Sound (db : Db) : Prop where
  environmentKey : (db.serviceEnvironment.map (·.serviceEnvironmentId)).Nodup
  environment : Owned "per-environment" (db.serviceEnvironment.map ServiceEnvironment.object)
    db.serviceEnvironmentCollections
  accountKey : (db.account.map (·.accountId)).Nodup
  account : Owned "per-account" (db.account.map Account.object) db.accountCollections

theorem sound_of_right (hkeys : Keys db) (h : Right db) : Sound db where
  environmentKey := hkeys.serviceEnvironment
  environment := .of_ownCollections hkeys.serviceEnvironmentCollections h.serviceEnvironment
  accountKey := hkeys.account
  account := .of_ownCollections hkeys.accountCollections h.account

theorem Sound.right (h : Sound db) : Right db where
  serviceEnvironment := h.environment.ownCollections
    (by rw [List.map_map]; exact h.environmentKey)
  account := h.account.ownCollections (by rw [List.map_map]; exact h.accountKey)

theorem serviceEnvironmentKeys_ok {others : List ServiceEnvironment} {new : ServiceEnvironment}
    (h : serviceEnvironmentKeys others new = .ok ()) :
    ∀ e ∈ others, e.serviceEnvironmentId ≠ new.serviceEnvironmentId :=
  checkUnique_ok (bind_unit_eq_ok.mp h).1

theorem accountKeys_ok {others : List Account} {new : Account}
    (h : accountKeys others new = .ok ()) : ∀ a ∈ others, a.accountId ≠ new.accountId :=
  checkUnique_ok (bind_unit_eq_ok.mp h).1

theorem Sound.executeServiceEnvironment (h : Sound db) {s : RowStatement ServiceEnvironment}
    (hok : executeServiceEnvironment db s = .ok db')
    (howned : ∀ rows t, executeRows (·.serviceEnvironmentId) serviceEnvironmentKeys
      deletePerServiceEnvironment updatePerServiceEnvironment db.serviceEnvironment
        db.serviceEnvironmentCollections s = .ok (rows, t) →
          Owned "per-environment" (rows.map ServiceEnvironment.object) t) : Sound db' := by
  obtain ⟨⟨rows, t⟩, hrows, hok⟩ := bind_eq_ok.mp hok
  obtain rfl := Except.ok.inj hok
  obtain ⟨-, -, hexec, -⟩ := executeRows_ok (o := ServiceEnvironment.object) hrows
  exact ⟨nodup_execute (fun _ _ hc => serviceEnvironmentKeys_ok hc) h.environmentKey hexec,
    howned rows t hrows, h.accountKey, h.account⟩

theorem Sound.executeAccount (h : Sound db) {s : RowStatement Account}
    (hok : executeAccount first db s = .ok db')
    (howned : ∀ rows t, executeRows (·.accountId) accountKeys (deletePeraccount first)
      updatePeraccount db.account db.accountCollections s = .ok (rows, t) →
        Owned "per-account" (rows.map Account.object) t) : Sound db' := by
  obtain ⟨⟨rows, t⟩, hrows, hok⟩ := bind_eq_ok.mp hok
  obtain rfl := Except.ok.inj hok
  obtain ⟨-, -, hexec, -⟩ := executeRows_ok (o := Account.object) hrows
  exact ⟨h.environmentKey, h.environment,
    nodup_execute (fun _ _ hc => accountKeys_ok hc) h.accountKey hexec, howned rows t hrows⟩

/-- **Every statement keeps the collections right, but for a rename of a service environment.** -/
theorem Sound.execute (h : Sound db) {s : Statement} (hs : s.KeepsNames db)
    (hok : execute first db s = .ok db') : Sound db' := by
  cases s with
  | insertServiceEnvironments new =>
    refine h.executeServiceEnvironment hok fun rows t hrows => ?_
    exact owned_insert (o := ServiceEnvironment.object) (fun _ _ => rfl) h.environment hrows
  | updateServiceEnvironments set =>
    refine h.executeServiceEnvironment hok fun rows t hrows => ?_
    obtain ⟨t₁, h₁, hexec, h₂⟩ := executeRows_ok (o := ServiceEnvironment.object) hrows
    rw [foldlM_beforeDelete] at h₁
    · obtain rfl := Except.ok.inj h₁
      obtain rfl := foldlM_setName h₂
      rw [execute_ok hexec]
      have hsame : (setName set).after db.serviceEnvironment = db.serviceEnvironment := by
        refine (List.map_congr_left fun e he => ?_).trans (List.map_id' _)
        cases hset : set e with
        | none => simp [hset]
        | some name =>
          have hname := hs e he name hset
          simp [hset, hname]
      rw [hsame]
      exact h.environment
    · intro e he old
      obtain ⟨r, -, new, -, rfl⟩ := exists_of_update he
      exact fun heq => by cases heq
  | deleteServiceEnvironments cond =>
    refine h.executeServiceEnvironment hok fun rows t hrows => ?_
    refine owned_delete (o := ServiceEnvironment.object) (fun t old => ⟨_, rfl, ?_, ?_⟩)
      (fun _ _ => rfl) h.environment h.environmentKey hrows
    · exact fun id hid => List.min?_mem hid
    · exact List.min?_eq_none_iff.mp
  | insertAccounts new =>
    refine h.executeAccount hok fun rows t hrows => ?_
    exact owned_insert (o := Account.object) (fun _ _ => rfl) h.account hrows
  | updateAccounts set =>
    refine h.executeAccount hok fun rows t hrows => ?_
    obtain ⟨t₁, h₁, hexec, h₂⟩ := executeRows_ok (o := Account.object) hrows
    rw [foldlM_beforeDelete] at h₁
    · obtain rfl := Except.ok.inj h₁
      rw [execute_ok hexec]
      exact owned_setLogin (d := []) h.account h.accountKey h₂
    · intro e he old
      obtain ⟨r, -, new, -, rfl⟩ := exists_of_update he
      exact fun heq => by cases heq
  | deleteAccounts cond =>
    refine h.executeAccount hok fun rows t hrows => ?_
    exact owned_delete (o := Account.object)
      (fun t old => ⟨_, rfl, pick_ofType first _ _ _⟩) (fun _ _ => rfl) h.account h.accountKey hrows

theorem Sound.step (h : Sound db) {s : Statement} (hs : s.KeepsNames db) :
    Sound (step first db s) := by
  unfold PerObject.step
  cases hok : PerObject.execute first db s with
  | ok db' => exact h.execute hs hok
  | error err => exact h

/-- **In every run that renames no service environment each object has its own collection.** -/
theorem each_owns_run (hkeys : Keys db) (h : Right db) {l : List Statement}
    (hl : AllSteps (step first) (fun db s => s.KeepsNames db) db l) :
    Right (run (step first) db l) :=
  (run_invariant (fun _ _ hdb hs => hdb.step hs) (sound_of_right hkeys h) hl).right

/-! ## A staging environment -/

theorem keys_empty : Keys Db.empty :=
  ⟨List.nodup_nil, ⟨List.nodup_nil, List.nodup_nil, fun _ h => absurd h List.not_mem_nil⟩,
    List.nodup_nil, ⟨List.nodup_nil, List.nodup_nil, fun _ h => absurd h List.not_mem_nil⟩⟩

theorem right_empty : Right Db.empty :=
  ⟨⟨fun _ h => absurd h List.not_mem_nil, fun _ h => absurd h List.not_mem_nil⟩,
    ⟨fun _ h => absurd h List.not_mem_nil, fun _ h => absurd h List.not_mem_nil⟩⟩

/-- An environment and an account come, and the account gets another login. -/
def staging : List Statement :=
  [.insertServiceEnvironments [⟨1, "staging", "default"⟩], .insertAccounts [⟨7, "alice", 1⟩],
    .updateAccounts fun _ => some "alicia"]

theorem right_staging : Right (run (step (.listed ℕ)) Db.empty staging) :=
  each_owns_run keys_empty right_empty ⟨trivial, trivial, trivial, trivial⟩

/-- The collection of a renamed environment keeps the old name. -/
theorem not_right_renamed : (Keys Db.empty ∧ Right Db.empty) ∧
    ¬ Right (run (step (.listed ℕ)) Db.empty
      [.insertServiceEnvironments [⟨1, "staging", "default"⟩],
        .updateServiceEnvironments fun _ => some "preview"]) := by
  refine ⟨⟨keys_empty, right_empty⟩, fun h => ?_⟩
  obtain ⟨c, hc, hname, -⟩ := h.serviceEnvironment.own (1, "preview") (by decide)
  have hc : c ∈ [(⟨1, "staging_1", "per-environment"⟩ : Coll)] := by
    have hmem : c ∈ (_ : List Coll) := hc ▸ List.mem_singleton_self c
    exact (List.mem_filter.mp hmem).1
  rw [List.mem_singleton.mp hc] at hname
  exact absurd hname (by decide)

end JazzHands.PerObject

import JazzHands.Service.VersionCollections

/-!
# Collections that mirror services and versions

`Mirrors` ties collections to slots and members to places, both given from outside, so that it can
be kept while a statement is halfway through its rows.
-/

namespace JazzHands.ServiceVersion

open Postgres RowStatement

/-- The collection is the service's, for this purpose. -/
def Db.IsFor (db : Db) (c : ℕ) (u : String) (sid : ℕ) : Prop := ⟨c, u, some sid⟩ ∈ db.purpose

/-- The slots `K`, a service and a purpose each, have a collection each, and a version `v` is a
member of the collection of `sid` for the purpose `u` where `L u v sid`. -/
structure Mirrors (K : Service → String → Prop) (L : String → ℕ → ℕ → Prop) (db : Db) : Prop where
  purposeKey : (db.purpose.map (·.collectionId)).Nodup
  collectionKey : (db.collection.map (·.id)).Nodup
  fresh : ∀ col ∈ db.collection, col.id < db.collectionSeq
  memberFresh : ∀ m ∈ db.member, m.collectionId < db.collectionSeq
  memberKey : db.member.Nodup
  collectionRef : ∀ p ∈ db.purpose, ∃ col ∈ db.collection, col.id = p.collectionId
  slot : ∀ p ∈ db.purpose, ∃ s, K s p.purpose ∧ p.serviceId = some s.serviceId
  each : ∀ s u, K s u → ∃ c, db.IsFor c u s.serviceId
  one : ∀ c c' u sid, db.IsFor c u sid → db.IsFor c' u sid → c = c'
  named : ∀ s u c, K s u → db.IsFor c u s.serviceId →
    ∀ col ∈ db.collection, col.id = c → col.name = s.collectionName
  members : ∀ c u sid, db.IsFor c u sid → ∀ v, ⟨c, v⟩ ∈ db.member ↔ L u v sid

/-- The slots of services. -/
def SlotsOf (services : List Service) (s : Service) (u : String) : Prop :=
  s ∈ services ∧ (u = "all" ∨ u = "current")

/-- Versions are with their services, for each purpose. -/
def PlacesOf (versions : List Version) (_ : String) (v sid : ℕ) : Prop :=
  ∃ ver ∈ versions, ver.serviceVersionId = v ∧ ver.serviceId = sid

structure Sound (db : Db) : Prop extends
    Mirrors (SlotsOf db.service) (PlacesOf db.serviceVersion) db where
  serviceKey : (db.service.map (·.serviceId)).Nodup
  versionKey : (db.serviceVersion.map (·.serviceVersionId)).Nodup
  versionRef : ∀ v ∈ db.serviceVersion, ∃ s ∈ db.service, s.serviceId = v.serviceId

/-- The service has the same collections, and they have the same rows and members. -/
def SameFor (sid : ℕ) (db db' : Db) : Prop :=
  ∀ c u, (db.IsFor c u sid ↔ db'.IsFor c u sid) ∧ (db.IsFor c u sid →
    (∀ col, col.id = c → (col ∈ db.collection ↔ col ∈ db'.collection)) ∧
      ∀ v, ⟨c, v⟩ ∈ db.member ↔ ⟨c, v⟩ ∈ db'.member)

variable {db db' db'' : Db} {K K' : Service → String → Prop} {L L' : String → ℕ → ℕ → Prop}
  {services : List Service} {versions : List Version} {c c' v sid a b : ℕ} {u : String}
  {s : Service} {p : Purpose}

theorem SameFor.refl : SameFor sid db db :=
  fun _ _ => ⟨Iff.rfl, fun _ => ⟨fun _ _ => Iff.rfl, fun _ => Iff.rfl⟩⟩

theorem SameFor.trans (h : SameFor sid db db') (h' : SameFor sid db' db'') :
    SameFor sid db db'' := by
  intro c u
  refine ⟨(h c u).1.trans (h' c u).1, fun hc => ?_⟩
  have hc' := (h' c u).2 ((h c u).1.mp hc)
  exact ⟨fun col hcol => ((h c u).2 hc |>.1 col hcol).trans (hc'.1 col hcol),
    fun v => ((h c u).2 hc |>.2 v).trans (hc'.2 v)⟩

theorem Mirrors.congr (h : Mirrors K L db) (hK : ∀ s u, K s u ↔ K' s u)
    (hL : ∀ u v sid, L u v sid ↔ L' u v sid) : Mirrors K' L' db := by
  obtain rfl : K = K' := funext₂ fun s u => propext (hK s u)
  obtain rfl : L = L' := funext₃ fun u v sid => propext (hL u v sid)
  exact h

theorem Mirrors.eq_of_collectionId (h : Mirrors K L db) {p' : Purpose} (hp : p ∈ db.purpose)
    (hp' : p' ∈ db.purpose) (heq : p.collectionId = p'.collectionId) : p = p' :=
  List.inj_on_of_nodup_map h.purposeKey hp hp' heq

theorem Mirrors.exists_isFor (h : Mirrors K L db) (hp : p ∈ db.purpose) :
    ∃ s, K s p.purpose ∧ p = ⟨p.collectionId, p.purpose, some s.serviceId⟩ := by
  obtain ⟨s, hs, heq⟩ := h.slot p hp
  exact ⟨s, hs, by rw [← heq]⟩

theorem Mirrors.lt_collectionSeq (h : Mirrors K L db) (hc : db.IsFor c u sid) :
    c < db.collectionSeq := by
  obtain ⟨col, hcol, rfl⟩ := h.collectionRef _ hc
  exact h.fresh col hcol

theorem Mirrors.isAutomatic (h : Mirrors (SlotsOf services) L db) (hp : p ∈ db.purpose) :
    p.IsAutomatic := by
  obtain ⟨s, hs, -⟩ := h.slot p hp
  exact hs.2

theorem Mirrors.congr_places (h : Mirrors (SlotsOf services) L db)
    (hL : ∀ u, u = "all" ∨ u = "current" → ∀ v sid, L u v sid ↔ L' u v sid) :
    Mirrors (SlotsOf services) L' db :=
  { h with
    members := fun c u sid hc v =>
      (h.members c u sid hc v).trans (hL u (h.isAutomatic hc) v sid) }

/-- A purpose of a collection whose members are with their service. -/
theorem Mirrors.not_mismatches (h : Mirrors K L db) (hp : p ∈ db.purpose) {ver : Version}
    (hm : ⟨p.collectionId, ver.serviceVersionId⟩ ∈ db.member)
    (hL : ∀ sid, L p.purpose ver.serviceVersionId sid → sid = ver.serviceId) :
    ¬ p.Mismatches ver := by
  rintro ⟨sid, hsid, hne⟩
  obtain ⟨s, -, heq⟩ := h.exists_isFor hp
  have hp' : db.IsFor p.collectionId p.purpose s.serviceId := by
    show _ ∈ db.purpose
    rwa [← heq]
  rw [heq] at hsid
  obtain rfl := Option.some.inj hsid
  exact hne (hL _ ((h.members _ _ _ hp' _).mp hm))

/-! ## New services -/

theorem mirrors_insertCollection {type : String} (h : Mirrors K L db)
    (hnew : ∀ c, ¬ db.IsFor c u s.serviceId) (hL : ∀ v, ¬ L u v s.serviceId)
    (hok : insertCollection db s.collectionName type u s.serviceId = .ok db') :
    Mirrors (fun s' u' => K s' u' ∨ (s' = s ∧ u' = u)) L db' ∧
      ∀ sid, sid ≠ s.serviceId → SameFor sid db db' := by
  obtain ⟨-, hok⟩ := bind_unit_eq_ok.mp hok
  obtain ⟨-, hok⟩ := bind_unit_eq_ok.mp hok
  obtain ⟨-, hok⟩ := bind_unit_eq_ok.mp hok
  obtain rfl := Except.ok.inj hok
  have hseq : ∀ col ∈ db.collection, col.id ≠ db.collectionSeq :=
    fun col hcol => Nat.ne_of_lt (h.fresh col hcol)
  have hpurpose : ∀ p ∈ db.purpose, p.collectionId ≠ db.collectionSeq := by
    intro p hp
    obtain ⟨col, hcol, heq⟩ := h.collectionRef p hp
    exact heq ▸ hseq col hcol
  have hfor : ∀ c u' sid, Db.IsFor { db with
        collection := db.collection ++ [⟨db.collectionSeq, s.collectionName, type⟩]
        purpose := db.purpose ++ [⟨db.collectionSeq, u, some s.serviceId⟩]
        collectionSeq := db.collectionSeq + 1 } c u' sid ↔
      db.IsFor c u' sid ∨ (c = db.collectionSeq ∧ u' = u ∧ sid = s.serviceId) := by
    intro c u' sid
    simp [Db.IsFor]
  refine ⟨⟨?_, ?_, ?_, ?_, h.memberKey, ?_, ?_, ?_, ?_, ?_, ?_⟩, fun sid hsid c u' => ⟨?_, ?_⟩⟩
  · exact nodup_insert (by simpa using h.purposeKey) (by simpa using hpurpose)
  · exact nodup_insert (by simpa using h.collectionKey) (by simpa using hseq)
  · intro col hcol
    rcases List.mem_append.mp hcol with hcol | hcol
    · exact Nat.lt_succ_of_lt (h.fresh col hcol)
    · obtain rfl := List.mem_singleton.mp hcol
      exact Nat.lt_succ_self _
  · exact fun m hm => Nat.lt_succ_of_lt (h.memberFresh m hm)
  · intro p hp
    rcases List.mem_append.mp hp with hp | hp
    · obtain ⟨col, hcol, heq⟩ := h.collectionRef p hp
      exact ⟨col, List.mem_append_left _ hcol, heq⟩
    · obtain rfl := List.mem_singleton.mp hp
      exact ⟨_, List.mem_append_right _ (List.mem_singleton.mpr rfl), rfl⟩
  · intro p hp
    rcases List.mem_append.mp hp with hp | hp
    · obtain ⟨s', hs', heq⟩ := h.slot p hp
      exact ⟨s', .inl hs', heq⟩
    · obtain rfl := List.mem_singleton.mp hp
      exact ⟨s, .inr ⟨rfl, rfl⟩, rfl⟩
  · intro s' u' hK
    rcases hK with hK | ⟨rfl, rfl⟩
    · obtain ⟨c, hc⟩ := h.each s' u' hK
      exact ⟨c, (hfor _ _ _).mpr (.inl hc)⟩
    · exact ⟨db.collectionSeq, (hfor _ _ _).mpr (.inr ⟨rfl, rfl, rfl⟩)⟩
  · intro c c' u' sid hc hc'
    rcases (hfor _ _ _).mp hc with hc | ⟨rfl, rfl, rfl⟩ <;>
      rcases (hfor _ _ _).mp hc' with hc' | ⟨rfl, heq, heq'⟩
    · exact h.one c c' u' sid hc hc'
    · exact absurd (heq ▸ heq' ▸ hc) (hnew c)
    · exact absurd hc' (hnew c')
    · rfl
  · intro s' u' c hK hc col hcol hid
    rw [hfor] at hc
    rcases hc with hc | ⟨rfl, rfl, hsid⟩
    · rcases List.mem_append.mp hcol with hcol | hcol
      · rcases hK with hK | ⟨rfl, rfl⟩
        · exact h.named s' u' c hK hc col hcol hid
        · exact absurd hc (hnew c)
      · obtain rfl := List.mem_singleton.mp hcol
        exact absurd (hid ▸ h.lt_collectionSeq hc) (Nat.lt_irrefl _)
    · rcases List.mem_append.mp hcol with hcol | hcol
      · exact absurd hid (hseq col hcol)
      · obtain rfl := List.mem_singleton.mp hcol
        rcases hK with hK | ⟨rfl, -⟩
        · obtain ⟨c, hc⟩ := h.each s' u' hK
          exact absurd (hsid ▸ hc) (hnew c)
        · rfl
  · intro c u' sid hc v
    rcases (hfor _ _ _).mp hc with hc | ⟨rfl, rfl, rfl⟩
    · exact h.members c u' sid hc v
    · refine iff_of_false (fun hm => ?_) (hL v)
      exact Nat.lt_irrefl _ (h.memberFresh _ hm)
  · rw [hfor]
    exact ⟨.inl, fun hc => hc.resolve_right fun hc => hsid hc.2.2⟩
  · intro hc
    refine ⟨fun col hcol => ⟨List.mem_append_left _, fun hmem => ?_⟩, fun v => Iff.rfl⟩
    rcases List.mem_append.mp hmem with hmem | hmem
    · exact hmem
    · obtain rfl := List.mem_singleton.mp hmem
      exact absurd (hcol ▸ h.lt_collectionSeq hc) (Nat.lt_irrefl _)

theorem mirrors_insertService (h : Mirrors (SlotsOf services) L db)
    (hkey : ∀ s' ∈ services, s'.serviceId ≠ s.serviceId) (hL : ∀ u v, ¬ L u v s.serviceId)
    (hok : createAllServicesCollection db (.insert s) = .ok db') :
    Mirrors (SlotsOf (services ++ [s])) L db' ∧ ∀ sid, sid ≠ s.serviceId → SameFor sid db db' := by
  obtain ⟨db₁, hall, hcurrent⟩ := bind_eq_ok.mp hok
  have hnone : ∀ u c, ¬ db.IsFor c u s.serviceId := by
    intro u c hc
    obtain ⟨s', hs', heq⟩ := h.slot _ hc
    exact hkey s' hs'.1 (Option.some.inj heq).symm
  obtain ⟨h₁, hsame₁⟩ := mirrors_insertCollection h (hnone "all") (hL "all") hall
  have hnone' : ∀ c, ¬ db₁.IsFor c "current" s.serviceId := by
    intro c hc
    obtain ⟨s', hs' | ⟨-, heq⟩, heq'⟩ := h₁.slot _ hc
    · exact hkey s' hs'.1 (Option.some.inj heq').symm
    · have hne : "current" ≠ "all" := by decide
      exact hne heq
  obtain ⟨h₂, hsame₂⟩ := mirrors_insertCollection h₁ hnone' (hL "current") hcurrent
  refine ⟨h₂.congr (fun s' u => ?_) fun _ _ _ => Iff.rfl,
    fun sid hsid => (hsame₁ sid hsid).trans (hsame₂ sid hsid)⟩
  simp only [SlotsOf, List.mem_append, List.mem_singleton]
  tauto

/-! ## Members -/

theorem mem_automaticCollections (h : Mirrors (SlotsOf services) L db) :
    c ∈ automaticCollections db sid ↔ ∃ u, db.IsFor c u sid := by
  simp only [automaticCollections, List.mem_flatMap, List.mem_map, List.mem_filter,
    decide_eq_true_eq]
  constructor
  · rintro ⟨col, -, p, ⟨hp, -, -, hsid⟩, rfl⟩
    refine ⟨p.purpose, ?_⟩
    show _ ∈ db.purpose
    rwa [← hsid]
  · rintro ⟨u, hc⟩
    obtain ⟨col, hcol, hid⟩ := h.collectionRef _ hc
    exact ⟨col, hcol, ⟨c, u, some sid⟩, ⟨hc, hid.symm, h.isAutomatic hc, rfl⟩, rfl⟩

theorem mirrors_member {t : List Member} (h : Mirrors K L db) (hkey : t.Nodup)
    (hfresh : ∀ m ∈ t, m.collectionId < db.collectionSeq)
    (hmembers : ∀ c u sid, db.IsFor c u sid → ∀ v, ⟨c, v⟩ ∈ t ↔ L' u v sid) :
    Mirrors K L' { db with member := t } :=
  { h with memberFresh := hfresh, memberKey := hkey, members := hmembers }

theorem nodup_checkMember {s : RowStatement Member} {t t' : List Member} (ht : t.Nodup)
    (h : s.execute checkMember t = .ok t') : t'.Nodup := by
  have hcheck : ∀ l new, checkMember l new = .ok () → ∀ m ∈ l, id m ≠ id new :=
    fun l new => checkUnique_ok
  simpa using nodup_execute hcheck (by simpa using ht) h

theorem mirrors_insertMembers {new : Version}
    (h : Mirrors (SlotsOf services) (PlacesOf versions) db)
    (hok : manipAllSvcCollectionMembers db (.insert new) = .ok db') :
    Mirrors (SlotsOf services) (PlacesOf (versions ++ [new])) db' := by
  obtain ⟨t, ht, hok⟩ := bind_eq_ok.mp hok
  obtain ⟨-, hok⟩ := bind_unit_eq_ok.mp hok
  obtain rfl := Except.ok.inj hok
  have hkey := nodup_checkMember h.memberKey ht
  obtain rfl := execute_ok ht
  refine mirrors_member h hkey ?_ ?_
  · intro m hm
    rcases List.mem_append.mp hm with hm | hm
    · exact h.memberFresh m hm
    · obtain ⟨c, hc, rfl⟩ := List.mem_map.mp hm
      obtain ⟨u, hc⟩ := (mem_automaticCollections h).mp hc
      exact h.lt_collectionSeq hc
  · intro c u sid hc v
    have hnew : (⟨c, v⟩ : Member) ∈ (automaticCollections db new.serviceId).map
        (fun c => ⟨c, new.serviceVersionId⟩) ↔ new.serviceVersionId = v ∧ new.serviceId = sid := by
      simp only [List.mem_map, Member.mk.injEq, mem_automaticCollections h]
      constructor
      · rintro ⟨c, ⟨u', hc'⟩, rfl, rfl⟩
        have heq := congrArg Purpose.serviceId (h.eq_of_collectionId hc' hc rfl)
        exact ⟨rfl, Option.some.inj heq⟩
      · rintro ⟨rfl, rfl⟩
        exact ⟨c, ⟨u, hc⟩, rfl, rfl⟩
    rw [RowStatement.after, List.mem_append, hnew, h.members c u sid hc]
    simp [PlacesOf, or_and_right, exists_or]

theorem mirrors_deleteMembers {old : Version} (h : Mirrors (SlotsOf services) L db)
    (hok : manipAllSvcCollectionMembers db (.delete old) = .ok db') :
    Mirrors (SlotsOf services)
      (fun u v sid => L u v sid ∧ ¬ (old.serviceVersionId = v ∧ old.serviceId = sid)) db' := by
  obtain rfl := Except.ok.inj hok
  refine mirrors_member h (h.memberKey.filter _) ?_ ?_
  · exact fun m hm => h.memberFresh m (List.mem_filter.mp hm).1
  · intro c u sid hc v
    rw [List.mem_filter, decide_eq_true_eq, h.members c u sid hc, mem_automaticCollections h]
    refine and_congr_right fun _ => not_congr (and_congr eq_comm ⟨?_, ?_⟩)
    · rintro ⟨u', hc'⟩
      exact Option.some.inj (congrArg Purpose.serviceId (h.eq_of_collectionId hc' hc rfl))
    · rintro rfl
      exact ⟨u, hc⟩

/-! ## Members that move -/

section

variable (h : Mirrors K L db) (hc : db.IsFor c u sid)
include h hc

theorem Mirrors.eq_iff {u' : String} {sid' : ℕ} (hc' : db.IsFor c' u' sid') :
    c = c' ↔ u = u' ∧ sid = sid' := by
  constructor
  · rintro rfl
    obtain ⟨-, rfl, heq⟩ := Purpose.mk.inj (h.eq_of_collectionId hc hc' rfl)
    exact ⟨rfl, Option.some.inj heq⟩
  · rintro ⟨rfl, rfl⟩
    exact h.one c c' u sid hc hc'

theorem Mirrors.collectionOf :
    collectionOf db sid u = .ok (some c) := by
  have hperm : (db.purpose.filter fun p => p.serviceId = some sid ∧ p.purpose = u).Perm
      [⟨c, u, some sid⟩] := by
    have hnodup := (List.Nodup.of_map _ h.purposeKey).filter
      (fun p => decide (p.serviceId = some sid ∧ p.purpose = u))
    rw [List.perm_ext_iff_of_nodup hnodup (List.nodup_singleton _)]
    intro p
    rw [List.mem_filter, List.mem_singleton, decide_eq_true_eq]
    constructor
    · rintro ⟨hp, hsid, rfl⟩
      have hp' : db.IsFor p.collectionId p.purpose sid := by
        show _ ∈ db.purpose
        rwa [← hsid]
      exact h.eq_of_collectionId hp hc (h.one _ _ _ _ hp' hc)
    · rintro rfl
      exact ⟨hc, rfl, rfl⟩
  rw [ServiceVersion.collectionOf, List.perm_singleton.mp hperm]

/-- The versions in a collection are those of its service. -/
theorem Mirrors.collectionEnforce :
    collectionEnforce db c = .ok () ↔ ∀ ver ∈ db.serviceVersion,
      L u ver.serviceVersionId sid → ver.serviceId = sid := by
  rw [ServiceVersion.collectionEnforce, raiseIf_eq_ok]
  constructor
  · intro hnot ver hver hL
    by_contra hne
    refine hnot ⟨⟨c, ver.serviceVersionId⟩, ?_, rfl, ver, hver, rfl, _, hc, rfl, sid, rfl, ?_⟩
    · exact (h.members c u sid hc _).mpr hL
    · exact Ne.symm hne
  · rintro hall ⟨m, hm, rfl, ver, hver, hid, p, hp, hpc, sid', hsid', hne⟩
    obtain rfl := h.eq_of_collectionId hp hc hpc
    obtain rfl := Option.some.inj hsid'
    have hL : L u ver.serviceVersionId sid := by
      rw [hid]
      exact (h.members _ u sid hc _).mp hm
    exact hne (hall ver hver hL).symm

end

/-- With the versions of `a` in the collection of `b`, for a purpose. -/
def Relocated (L : String → ℕ → ℕ → Prop) (u : String) (a b : ℕ) (u' : String) (v sid : ℕ) : Prop :=
  (L u' v sid ∧ ¬ (u' = u ∧ sid = a)) ∨ (u' = u ∧ sid = b ∧ L u v a)

variable {ca cb : ℕ}

theorem relocated_of_ne {u' : String} (hne : u' ≠ u) :
    Relocated L u a b u' v sid ↔ L u' v sid := by
  simp [Relocated, hne]

section

variable (h : Mirrors K L db) (ha : db.IsFor ca u a) (hb : db.IsFor cb u b)
include h ha hb

theorem mirrors_relocated {t : List Member}
    (ht : (moving ca cb).execute checkMember db.member = .ok t) :
    Mirrors K (Relocated L u a b) { db with member := t } := by
  have hkey := nodup_checkMember h.memberKey ht
  obtain rfl := execute_ok ht
  have hmem : ∀ c v, ⟨c, v⟩ ∈ (moving ca cb).after db.member ↔
      (⟨c, v⟩ ∈ db.member ∧ c ≠ ca) ∨ (c = cb ∧ ⟨ca, v⟩ ∈ db.member) := by
    intro c v
    rw [moving, RowStatement.after, List.mem_map]
    constructor
    · rintro ⟨m, hm, heq⟩
      by_cases hca : m.collectionId = ca
      · rw [if_pos hca, Option.getD_some] at heq
        obtain ⟨rfl, rfl⟩ := Member.mk.inj heq
        exact .inr ⟨rfl, hca ▸ hm⟩
      · rw [if_neg hca, Option.getD_none] at heq
        subst heq
        exact .inl ⟨hm, hca⟩
    · rintro (⟨hm, hca⟩ | ⟨rfl, hm⟩)
      · exact ⟨_, hm, by rw [if_neg hca, Option.getD_none]⟩
      · exact ⟨_, hm, by rw [if_pos rfl, Option.getD_some]⟩
  refine mirrors_member h hkey ?_ ?_
  · intro m hm
    rcases (hmem m.collectionId m.serviceVersionId).mp hm with ⟨hm, -⟩ | ⟨heq, -⟩
    · exact h.memberFresh m hm
    · exact heq ▸ h.lt_collectionSeq hb
  · intro c u' sid hc v
    rw [hmem, h.members c u' sid hc, h.members ca u a ha, Ne, h.eq_iff hc ha, h.eq_iff hc hb,
      Relocated, and_assoc]

/-- Where anything has moved, what is then with `b` is of `b`. -/
theorem mirrors_moveMembers (hok : moveMembers db (some ca) (some cb) = .ok db') :
    Mirrors K (Relocated L u a b) db' ∧ (∃ t, db' = { db with member := t }) ∧
      ((∃ v, L u v a) → ∀ ver ∈ db.serviceVersion,
        Relocated L u a b u ver.serviceVersionId b → ver.serviceId = b) := by
  obtain ⟨t, ht, hok⟩ := bind_eq_ok.mp hok
  obtain ⟨hcheck, hok⟩ := bind_unit_eq_ok.mp hok
  obtain rfl := Except.ok.inj hok
  have h' := mirrors_relocated h ha hb ht
  refine ⟨h', ⟨t, rfl⟩, fun hv => ?_⟩
  obtain ⟨v, hv⟩ := hv
  have hm := (h.members ca u a ha v).mpr hv
  rw [forM_eq_ok] at hcheck
  refine (h'.collectionEnforce hb).mp (hcheck (.update ⟨ca, v⟩ ⟨cb, v⟩) ?_)
  exact List.mem_filterMap.mpr ⟨_, hm, by dsimp only; rw [if_pos rfl]; rfl⟩

theorem exists_moveMembers (hv : L u v a) (hone : ∀ v', L u v' a → v' = v) (hnot : ¬ L u v b)
    (htable : ∀ ver ∈ db.serviceVersion,
      L u ver.serviceVersionId b ∨ ver.serviceVersionId = v → ver.serviceId = b) :
    ∃ db', moveMembers db (some ca) (some cb) = .ok db' := by
  have hold := (h.members ca u a ha v).mpr hv
  obtain ⟨t, ht⟩ : ∃ t, (moving ca cb).execute checkMember db.member = .ok t := by
    refine exists_execute_of_one h.memberKey hold (if_pos rfl) ?_ ?_
    · intro m hm hne
      refine if_neg fun hca => hne ?_
      have hm' : (⟨ca, m.serviceVersionId⟩ : Member) ∈ db.member := by rwa [← hca]
      rw [← hca, ← hone _ ((h.members ca u a ha _).mp hm')]
    · intro l hl
      refine raiseIf_eq_ok.mpr ?_
      rintro ⟨m, hm, rfl⟩
      exact hnot ((h.members cb u b hb v).mp (hl _ hm).1)
  have h' := mirrors_relocated h ha hb ht
  refine ⟨{ db with member := t }, bind_eq_ok.mpr ⟨t, ht, bind_unit_eq_ok.mpr ⟨?_, rfl⟩⟩⟩
  rw [forM_eq_ok]
  intro e he
  refine (h'.collectionEnforce hb).mpr fun ver hver hL => htable ver hver ?_
  exact hL.imp (·.1) fun hL => hone _ hL.2.2

end

end JazzHands.ServiceVersion

import JazzHands.Service.Mirrored

/-!
# Runs of statements on services and versions

Each kind of statement is a loop over its rows with `Mirrors` as invariant; `SameFor` frames the
services that it does not touch.
-/

namespace JazzHands.ServiceVersion

open Library Postgres RowStatement

/-- Each service has its two collections, with its name and its versions. -/
structure Kept (db : Db) : Prop where
  unique : ∀ s ∈ db.service, ∀ u, u = "all" ∨ u = "current" →
    ∃! col, col ∈ db.collection ∧ db.IsFor col.id u s.serviceId
  named : ∀ s ∈ db.service, ∀ u, u = "all" ∨ u = "current" →
    ∀ col ∈ db.collection, db.IsFor col.id u s.serviceId → col.name = s.collectionName
  all : ∀ s ∈ db.service, ∀ c, db.IsFor c "all" s.serviceId → ∀ v, ⟨c, v⟩ ∈ db.member ↔
    ∃ ver ∈ db.serviceVersion, ver.serviceVersionId = v ∧ ver.serviceId = s.serviceId
  current : ∀ s ∈ db.service, ∀ c, db.IsFor c "current" s.serviceId → ∀ v, ⟨c, v⟩ ∈ db.member →
    ∃ ver ∈ db.serviceVersion, ver.serviceVersionId = v ∧ ver.serviceId = s.serviceId

/-- The statement writes a row of the service, or of a version of it. -/
def Touches (db : Db) : Statement → ℕ → Prop
  | .service s, sid => ∃ e ∈ (serviceStatement s).events db.service,
    ∃ r, (e.old? = some r ∨ e.new? = some r) ∧ r.serviceId = sid
  | .version s, sid => ∃ e ∈ (versionStatement s).events db.serviceVersion,
    ∃ r, (e.old? = some r ∨ e.new? = some r) ∧ r.serviceId = sid

/-- The statement moves one version to another service. -/
structure Moves (db : Db) (s : RowStatement Version) (old new : Version) : Prop where
  events : (versionStatement s).events db.serviceVersion = [.update old new]
  other : new.serviceId ≠ old.serviceId
  ref : ∃ sv ∈ db.service, sv.serviceId = new.serviceId

/-- The collections of other services stay, and a version can be moved. -/
structure Right (db : Db) (s : Statement) : Prop where
  others : ∀ sid, ¬ Touches db s sid → SameFor sid db (step db s)
  moves : ∀ vs old new, s = .version vs → Moves db vs old new → ∃ db', execute db s = .ok db'

/-- The last service renamed is named like all others, and a version that moves is the only one of
its service and has a new name in the other. -/
def Guarded (db : Db) : Statement → Prop
  | .service s => ∀ old new,
    ((serviceStatement s).events db.service).getLast? = some (.update old new) →
      ∀ r ∈ (serviceStatement s).after db.service, r.collectionName = new.collectionName
  | .version s => ∀ old new, Moves db s old new →
    (∀ v ∈ db.serviceVersion, v.serviceId = old.serviceId → v = old) ∧
      ∀ v ∈ db.serviceVersion, v.serviceId = new.serviceId →
        v.serviceVersionName ≠ old.serviceVersionName

variable {db db' db'' : Db} {K K' : Service → String → Prop} {L L' : String → ℕ → ℕ → Prop}
  {services rows : List Service} {versions : List Version} {c c' v sid a b : ℕ} {u : String}

/-! ## Services -/

/-- Services and versions are none of the collections' business. -/
theorem Mirrors.tables (h : Mirrors K L db) (services : List Service) (versions : List Version) :
    Mirrors K L { db with service := services, serviceVersion := versions } :=
  { h with }

theorem insertCollection_tables {name type : String}
    (h : insertCollection db name type u sid = .ok db') :
    db'.service = db.service ∧ db'.serviceVersion = db.serviceVersion := by
  obtain ⟨-, h⟩ := bind_unit_eq_ok.mp h
  obtain ⟨-, h⟩ := bind_unit_eq_ok.mp h
  obtain ⟨-, h⟩ := bind_unit_eq_ok.mp h
  obtain rfl := Except.ok.inj h
  exact ⟨rfl, rfl⟩

theorem afterService_tables {e : RowEvent Service} (h : afterService db e = .ok db') :
    db'.service = db.service ∧ db'.serviceVersion = db.serviceVersion := by
  cases e with
  | insert new =>
    obtain ⟨db₁, h₁, h⟩ := bind_eq_ok.mp h
    obtain ⟨hs, hv⟩ := insertCollection_tables h
    obtain ⟨hs₁, hv₁⟩ := insertCollection_tables h₁
    exact ⟨hs.trans hs₁, hv.trans hv₁⟩
  | update old new =>
    obtain rfl := Except.ok.inj h
    exact ⟨rfl, rfl⟩
  | delete old =>
    obtain ⟨-, h⟩ := bind_unit_eq_ok.mp h
    obtain rfl := Except.ok.inj h
    exact ⟨rfl, rfl⟩

variable {events : List (RowEvent Service)} {s : RowStatement Version}

theorem afterServices_tables (h : events.foldlM afterService db = .ok db') :
    db'.service = db.service ∧ db'.serviceVersion = db.serviceVersion := by
  refine foldlM_keeps (P := fun db' => db'.service = db.service ∧
    db'.serviceVersion = db.serviceVersion) ?_ ⟨rfl, rfl⟩ h
  intro e _ s s' hs hok
  obtain ⟨hs', hv'⟩ := afterService_tables hok
  exact ⟨hs'.trans hs.1, hv'.trans hs.2⟩

theorem mirrors_insertServices (h : Mirrors (SlotsOf services) L db)
    (hkey : ((services ++ rows).map (·.serviceId)).Nodup)
    (hL : ∀ s ∈ rows, ∀ u v, ¬ L u v s.serviceId)
    (hok : (rows.map RowEvent.insert).foldlM afterService db = .ok db') :
    Mirrors (SlotsOf (services ++ rows)) L db' ∧
      ∀ sid, (∀ s ∈ rows, s.serviceId ≠ sid) → SameFor sid db db' := by
  induction rows generalizing services db with
  | nil =>
    obtain rfl := Except.ok.inj hok
    rw [List.append_nil]
    exact ⟨h, fun _ _ => SameFor.refl⟩
  | cons s rows ih =>
    rw [List.map_cons, List.foldlM_cons, bind_eq_ok] at hok
    obtain ⟨db₁, h₁, hok⟩ := hok
    have hkey' : ∀ s' ∈ services, s'.serviceId ≠ s.serviceId := by
      intro s' hs' heq
      rw [List.map_append, List.nodup_append] at hkey
      exact hkey.2.2 _ (List.mem_map_of_mem hs') _ (List.mem_map_of_mem List.mem_cons_self) heq
    obtain ⟨hm, hsame⟩ := mirrors_insertService h hkey' (hL s List.mem_cons_self) h₁
    obtain ⟨hm', hsame'⟩ := ih hm (by simpa using hkey)
      (fun s' hs' => hL s' (List.mem_cons_of_mem _ hs')) hok
    refine ⟨by simpa using hm', fun sid hsid => ?_⟩
    exact (hsame sid (hsid s List.mem_cons_self).symm).trans
      (hsame' sid fun s' hs' => hsid s' (List.mem_cons_of_mem _ hs'))

theorem sound_insertServices (hdb : Sound db)
    (hok : execute db (.service (.insert rows)) = .ok db') :
    Sound db' ∧ ∀ sid, ¬ Touches db (.service (.insert rows)) sid → SameFor sid db db' := by
  obtain ⟨db₁, h₁, hok⟩ := bind_eq_ok.mp hok
  obtain ⟨t, ht, hok⟩ := bind_eq_ok.mp hok
  obtain rfl : db₁ = db := by
    refine (foldlM_looks (fun e he s' hstep => ?_) h₁).1
    obtain ⟨s, -, rfl⟩ := List.mem_map.mp he
    exact (Except.ok.inj hstep).symm
  have hkey : (t.map (·.serviceId)).Nodup :=
    nodup_execute (fun l new => checkUnique_ok) hdb.serviceKey ht
  obtain rfl := execute_ok ht
  obtain ⟨hservice, hversion⟩ := afterServices_tables hok
  have hnone : ∀ s ∈ rows, ∀ u v, ¬ PlacesOf db₁.serviceVersion u v s.serviceId := by
    rintro s hs u v ⟨ver, hver, -, hid⟩
    obtain ⟨s', hs', heq⟩ := hdb.versionRef ver hver
    have hkey' : ((db₁.service ++ rows).map (·.serviceId)).Nodup := hkey
    rw [List.map_append, List.nodup_append] at hkey'
    exact hkey'.2.2 _ (List.mem_map_of_mem hs') _ (List.mem_map_of_mem hs) (heq.trans hid)
  obtain ⟨hm, hsame⟩ :=
    mirrors_insertServices (hdb.toMirrors.tables _ db₁.serviceVersion) hkey hnone hok
  refine ⟨{ toMirrors := ?_, serviceKey := ?_, versionKey := ?_, versionRef := ?_ }, ?_⟩
  · rwa [hservice, hversion]
  · rwa [hservice]
  · rw [hversion]
    exact hdb.versionKey
  · rw [hservice, hversion]
    intro ver hver
    obtain ⟨s, hs, heq⟩ := hdb.versionRef ver hver
    exact ⟨s, List.mem_append_left _ hs, heq⟩
  · intro sid htouch
    refine hsame sid fun s hs heq => htouch ⟨.insert s, List.mem_map_of_mem hs, s, .inr rfl, heq⟩

theorem renameCollections_last (hupdate : ∀ e ∈ events, ∃ old new, e = .update old new)
    (hok : events.foldlM afterService db = .ok db') : (events = [] ∧ db' = db) ∨
      ∃ old new, events.getLast? = some (.update old new) ∧ db' = renameCollections db new := by
  induction events generalizing db with
  | nil => exact .inl ⟨rfl, (Except.ok.inj hok).symm⟩
  | cons e events ih =>
    obtain ⟨old, new, rfl⟩ := hupdate e List.mem_cons_self
    have hok' : events.foldlM afterService (renameCollections db new) = .ok db' := hok
    rcases ih (fun e he => hupdate e (List.mem_cons_of_mem _ he)) hok' with
      ⟨rfl, rfl⟩ | ⟨old', new', hlast, rfl⟩
    · exact .inr ⟨old, new, rfl, rfl⟩
    · refine .inr ⟨old', new', ?_, ?_⟩
      · cases events with
        | nil => cases hlast
        | cons e' events => rw [List.getLast?_cons_cons, hlast]
      · simp only [renameCollections, List.map_map]
        congr 1
        refine List.map_congr_left fun col _ => ?_
        dsimp only [Function.comp_apply]
        split <;> rfl

theorem mirrors_renameCollections {services' : List Service} {new : Service}
    (h : Mirrors (SlotsOf services) L db)
    (hids : ∀ sid, (∃ s ∈ services, s.serviceId = sid) ↔ ∃ s ∈ services', s.serviceId = sid)
    (hnames : ∀ s ∈ services', s.collectionName = new.collectionName) :
    Mirrors (SlotsOf services') L (renameCollections db new) := by
  have hid : ∀ col ∈ (renameCollections db new).collection, ∃ col' ∈ db.collection,
      col'.id = col.id ∧ ∀ p ∈ db.purpose, p.collectionId = col.id →
        col.name = new.collectionName := by
    intro col hcol
    obtain ⟨col', hcol', rfl⟩ := List.mem_map.mp hcol
    refine ⟨col', hcol', ?_⟩
    split
    · exact ⟨rfl, fun p hp hpid => rfl⟩
    · next hnot =>
      exact ⟨rfl, fun p hp hpid => absurd ⟨p, hp, hpid.symm, h.isAutomatic hp⟩ hnot⟩
  have hids' : (renameCollections db new).collection.map (·.id) = db.collection.map (·.id) := by
    rw [renameCollections, List.map_map]
    refine List.map_congr_left fun col _ => ?_
    dsimp only [Function.comp_apply]
    split <;> rfl
  refine ⟨h.purposeKey, ?_, ?_, h.memberFresh, h.memberKey, ?_, ?_, ?_, h.one, ?_, h.members⟩
  · rw [hids']
    exact h.collectionKey
  · intro col hcol
    obtain ⟨col', hcol', heq, -⟩ := hid col hcol
    exact heq ▸ h.fresh col' hcol'
  · intro p hp
    obtain ⟨col, hcol, heq⟩ := h.collectionRef p hp
    have hmem : col.id ∈ (renameCollections db new).collection.map (·.id) :=
      hids' ▸ List.mem_map_of_mem hcol
    obtain ⟨col', hcol', heq'⟩ := List.mem_map.mp hmem
    exact ⟨col', hcol', heq'.trans heq⟩
  · intro p hp
    obtain ⟨s, hs, heq⟩ := h.slot p hp
    obtain ⟨s', hs', heq'⟩ := (hids s.serviceId).mp ⟨s, hs.1, rfl⟩
    exact ⟨s', ⟨hs', hs.2⟩, heq' ▸ heq⟩
  · intro s' u hs'
    obtain ⟨s, hs, heq⟩ := (hids s'.serviceId).mpr ⟨s', hs'.1, rfl⟩
    exact heq ▸ h.each s u ⟨hs, hs'.2⟩
  · intro s u c hs hc col hcol hcid
    obtain ⟨-, -, -, hname⟩ := hid col hcol
    rw [hname _ hc hcid.symm, hnames s hs.1]

theorem sameFor_renameCollections {new : Service} (h : Mirrors (SlotsOf services) L db)
    (hname : ∀ s ∈ services, s.serviceId = sid → s.collectionName = new.collectionName) :
    SameFor sid db (renameCollections db new) := by
  intro c u
  refine ⟨Iff.rfl, fun hc => ⟨fun col hcol => ?_, fun v => Iff.rfl⟩⟩
  obtain ⟨s, hs, heq⟩ := h.slot _ hc
  have hsid : sid = s.serviceId := Option.some.inj heq
  have hsame : ∀ col' ∈ db.collection, col'.id = c → { col' with name := new.collectionName } = col' := by
    intro col' hcol' hid
    have hnamed := h.named s u c hs (hsid ▸ hc) col' hcol' hid
    rw [← hname s hs.1 hsid.symm, ← hnamed]
  constructor
  · intro hmem
    refine List.mem_map.mpr ⟨col, hmem, ?_⟩
    split
    · exact hsame col hmem hcol
    · rfl
  · intro hmem
    obtain ⟨col', hcol', heq'⟩ := List.mem_map.mp hmem
    split at heq'
    · have hid : col'.id = c := by rw [← hcol, ← heq']
      rw [hsame col' hcol' hid] at heq'
      exact heq' ▸ hcol'
    · exact heq' ▸ hcol'

theorem sound_updateServices {set : Service → Option Service} (hdb : Sound db)
    (hg : Guarded db (.service (.update set)))
    (hok : execute db (.service (.update set)) = .ok db') :
    Sound db' ∧ ∀ sid, ¬ Touches db (.service (.update set)) sid → SameFor sid db db' := by
  obtain ⟨db₁, h₁, hok⟩ := bind_eq_ok.mp hok
  obtain ⟨t, ht, hok⟩ := bind_eq_ok.mp hok
  have hupdate : ∀ e ∈ (serviceStatement (.update set)).events db.service,
      ∃ old new, e = .update old new := by
    intro e he
    obtain ⟨s, -, new, -, rfl⟩ := exists_of_update he
    exact ⟨s, new, rfl⟩
  obtain rfl : db₁ = db := by
    refine (foldlM_looks (fun e he s' hstep => ?_) h₁).1
    obtain ⟨old, new, rfl⟩ := hupdate e he
    exact (Except.ok.inj hstep).symm
  have hkey : (t.map (·.serviceId)).Nodup :=
    nodup_execute (fun l new => checkUnique_ok) hdb.serviceKey ht
  obtain rfl := execute_ok ht
  obtain ⟨hservice, hversion⟩ := afterServices_tables hok
  have hids : ∀ sid, (∃ s ∈ db₁.service, s.serviceId = sid) ↔
      ∃ s ∈ (serviceStatement (.update set)).after db₁.service, s.serviceId = sid := by
    intro sid
    have hid : ∀ s : Service, (((set s).map fun v => { s with
        serviceName := v.serviceName, serviceType := v.serviceType }).getD s).serviceId =
          s.serviceId := by
      intro s
      cases set s <;> rfl
    constructor
    · rintro ⟨s, hs, rfl⟩
      exact ⟨_, List.mem_map_of_mem hs, hid s⟩
    · rintro ⟨s', hs', rfl⟩
      obtain ⟨s, hs, rfl⟩ := List.mem_map.mp hs'
      exact ⟨s, hs, (hid s).symm⟩
  have hm := hdb.toMirrors.tables ((serviceStatement (.update set)).after db₁.service)
    db₁.serviceVersion
  have hkept : ∀ s ∈ db₁.service, ¬ Touches db₁ (.service (.update set)) s.serviceId →
      s ∈ (serviceStatement (.update set)).after db₁.service := by
    intro s hs hnot
    refine (mem_or_old_of_mem hs).resolve_right ?_
    rintro ⟨e, he, hold⟩
    exact hnot ⟨e, he, s, .inl hold, rfl⟩
  have hmirrors : Mirrors (SlotsOf ((serviceStatement (.update set)).after db₁.service))
      (PlacesOf db₁.serviceVersion) db' ∧
        ∀ sid, ¬ Touches db₁ (.service (.update set)) sid → SameFor sid db₁ db' := by
    rcases renameCollections_last hupdate hok with ⟨hnil, rfl⟩ | ⟨old, new, hlast, rfl⟩
    · refine ⟨hm.congr (fun s u => and_congr_left fun _ => ?_) fun _ _ _ => Iff.rfl,
        fun sid _ => SameFor.refl⟩
      -- nothing is written
      constructor
      · intro hs
        exact (mem_or_old_of_mem hs).resolve_right fun h => by simp [hnil] at h
      · intro hs
        exact (mem_after hs).resolve_right fun h => by simp [hnil] at h
    · have hnames := hg old new hlast
      refine ⟨mirrors_renameCollections hm hids hnames, fun sid hnot => ?_⟩
      have hsame : SameFor sid db₁ (renameCollections db₁ new) := by
        refine sameFor_renameCollections hdb.toMirrors ?_
        rintro s hs rfl
        exact hnames s (hkept s hs hnot)
      exact hsame
  refine ⟨{ toMirrors := ?_, serviceKey := ?_, versionKey := ?_, versionRef := ?_ }, hmirrors.2⟩
  · rw [hservice, hversion]
    exact hmirrors.1
  · rwa [hservice]
  · rw [hversion]
    exact hdb.versionKey
  · rw [hservice, hversion]
    exact fun ver hver => (hids ver.serviceId).mp (hdb.versionRef ver hver)

theorem mirrors_deletePurposes (hdelete : ∀ e ∈ events, ∃ old, e = .delete old)
    (hok : events.foldlM beforeService db = .ok db') :
    ∃ t, db' = { db with purpose := t } ∧ t.Sublist db.purpose ∧
      ∀ p ∈ db.purpose, (∀ old, .delete old ∈ events → p.serviceId ≠ some old.serviceId) → p ∈ t := by
  refine foldlM_keeps (P := fun db' => ∃ t, db' = { db with purpose := t } ∧
    t.Sublist db.purpose ∧ ∀ p ∈ db.purpose,
      (∀ old, .delete old ∈ events → p.serviceId ≠ some old.serviceId) → p ∈ t) ?_
    ⟨db.purpose, rfl, List.Sublist.refl _, fun _ hp _ => hp⟩ hok
  rintro e he _ s' ⟨t, rfl, hsub, hother⟩ hstep
  obtain ⟨old, rfl⟩ := hdelete e he
  obtain rfl := Except.ok.inj hstep
  refine ⟨_, rfl, List.filter_sublist.trans hsub, fun p hp hne => ?_⟩
  refine List.mem_filter.mpr ⟨hother p hp hne, ?_⟩
  simp [hne old he]

theorem sound_deleteServices {cond : Service → Bool} (hdb : Sound db)
    (hok : execute db (.service (.delete cond)) = .ok db') :
    Sound db' ∧ ∀ sid, ¬ Touches db (.service (.delete cond)) sid → SameFor sid db db' := by
  obtain ⟨db₁, h₁, hok⟩ := bind_eq_ok.mp hok
  obtain ⟨t, ht, hok⟩ := bind_eq_ok.mp hok
  have hdelete : ∀ e ∈ (serviceStatement (.delete cond)).events db.service,
      ∃ old, e = .delete old ∧ cond old = true := by
    intro e he
    obtain ⟨s, hs, rfl⟩ := List.mem_map.mp he
    exact ⟨s, rfl, (List.mem_filter.mp hs).2⟩
  obtain ⟨purpose, rfl, hsub, hother⟩ :=
    mirrors_deletePurposes (fun e he => (hdelete e he).imp fun _ h => h.1) h₁
  have hkey : (t.map (·.serviceId)).Nodup :=
    nodup_execute (fun l new => checkUnique_ok) hdb.serviceKey ht
  obtain rfl := execute_ok ht
  -- what comes after only looks at the references
  obtain ⟨rfl, href⟩ := foldlM_looks (fun e he s' hstep => by
    obtain ⟨old, rfl, -⟩ := hdelete e he
    exact (Except.ok.inj (bind_unit_eq_ok.mp hstep).2).symm) hok
  have hnone : ∀ s ∈ db.service, cond s = true →
      (∀ ver ∈ db.serviceVersion, ver.serviceId ≠ s.serviceId) ∧
        ∀ p ∈ purpose, p.serviceId ≠ some s.serviceId := by
    intro s hs hcond
    have he := href (.delete s) (List.mem_map_of_mem (List.mem_filter.mpr ⟨hs, hcond⟩))
    obtain ⟨hversion, hpurpose⟩ := bind_unit_eq_ok.mp (bind_unit_eq_ok.mp he).1
    have hversion := raiseIf_eq_ok.mp hversion
    have hpurpose := raiseIf_eq_ok.mp hpurpose
    exact ⟨fun ver hver heq => hversion ⟨ver, hver, heq⟩, fun p hp heq => hpurpose ⟨p, hp, heq⟩⟩
  have hmem : ∀ s, s ∈ (serviceStatement (.delete cond)).after db.service ↔
      s ∈ db.service ∧ cond s = false := by
    intro s
    show s ∈ db.service.filter (fun s => !cond s) ↔ _
    simp
  have hkept : ∀ c u sid, db.IsFor c u sid → (∀ s ∈ db.service, s.serviceId = sid → cond s = false) →
      ⟨c, u, some sid⟩ ∈ purpose := by
    intro c u sid hc hsid
    refine hother _ hc fun old hold heq => ?_
    obtain ⟨_, heq', hcond⟩ := hdelete _ hold
    obtain rfl := RowEvent.delete.inj heq'
    rw [hsid old (old_mem hold rfl) (Option.some.inj heq).symm] at hcond
    cases hcond
  refine ⟨⟨⟨?_, hdb.collectionKey, hdb.fresh, hdb.memberFresh, hdb.memberKey, ?_, ?_, ?_, ?_, ?_, ?_⟩,
    hkey, hdb.versionKey, ?_⟩, fun sid hnot c u => ⟨⟨fun hc => ?_, fun hc => hsub.subset hc⟩,
      fun _ => ⟨fun _ _ => Iff.rfl, fun _ => Iff.rfl⟩⟩⟩
  · exact hdb.purposeKey.sublist (hsub.map _)
  · exact fun p hp => hdb.collectionRef p (hsub.subset hp)
  · intro p hp
    obtain ⟨s, hs, heq⟩ := hdb.slot p (hsub.subset hp)
    refine ⟨s, ⟨(hmem s).mpr ⟨hs.1, ?_⟩, hs.2⟩, heq⟩
    by_contra hcond
    exact (hnone s hs.1 (by simpa using hcond)).2 p hp heq
  · intro s u hs
    obtain ⟨hs', hcond⟩ := (hmem s).mp hs.1
    obtain ⟨c, hc⟩ := hdb.each s u ⟨hs', hs.2⟩
    refine ⟨c, hkept c u _ hc fun s' hs'' heq => ?_⟩
    rw [List.inj_on_of_nodup_map hdb.serviceKey hs'' hs' heq, hcond]
  · exact fun c c' u sid hc hc' => hdb.one c c' u sid (hsub.subset hc) (hsub.subset hc')
  · exact fun s u c hs hc =>
      hdb.named s u c ⟨((hmem s).mp hs.1).1, hs.2⟩ (hsub.subset hc)
  · exact fun c u sid hc => hdb.members c u sid (hsub.subset hc)
  · intro ver hver
    obtain ⟨s, hs, heq⟩ := hdb.versionRef ver hver
    refine ⟨s, (hmem s).mpr ⟨hs, ?_⟩, heq⟩
    by_contra hcond
    exact (hnone s hs (by simpa using hcond)).1 ver hver heq.symm
  · refine hkept c u sid hc fun s hs heq => ?_
    by_contra hcond
    exact hnot ⟨.delete s, List.mem_map_of_mem (List.mem_filter.mpr ⟨hs, by simpa using hcond⟩),
      s, .inl rfl, heq⟩

/-! ## Versions -/

theorem moveMembers_member {source target : Option ℕ}
    (h : moveMembers db source target = .ok db') : ∃ t, db' = { db with member := t } := by
  cases source with
  | none => exact ⟨db.member, (Except.ok.inj h).symm⟩
  | some a =>
    cases target with
    | none =>
      obtain ⟨-, h⟩ := bind_unit_eq_ok.mp h
      exact ⟨db.member, (Except.ok.inj h).symm⟩
    | some b =>
      obtain ⟨t, -, h⟩ := bind_eq_ok.mp h
      obtain ⟨-, h⟩ := bind_unit_eq_ok.mp h
      exact ⟨t, (Except.ok.inj h).symm⟩

theorem manipAllSvcCollectionMembers_member {e : RowEvent Version}
    (h : manipAllSvcCollectionMembers db e = .ok db') : ∃ t, db' = { db with member := t } := by
  cases e with
  | insert new =>
    obtain ⟨t, -, h⟩ := bind_eq_ok.mp h
    obtain ⟨-, h⟩ := bind_unit_eq_ok.mp h
    exact ⟨t, (Except.ok.inj h).symm⟩
  | update old new =>
    obtain ⟨source, -, h⟩ := bind_eq_ok.mp h
    obtain ⟨target, -, h⟩ := bind_eq_ok.mp h
    obtain ⟨db₁, h₁, h⟩ := bind_eq_ok.mp h
    obtain ⟨source', -, h⟩ := bind_eq_ok.mp h
    obtain ⟨target', -, h⟩ := bind_eq_ok.mp h
    obtain ⟨t, rfl⟩ := moveMembers_member h₁
    obtain ⟨t', rfl⟩ := moveMembers_member h
    exact ⟨t', rfl⟩
  | delete old => exact ⟨_, (Except.ok.inj h).symm⟩

/-- The same collections, with the same versions of the service. -/
theorem sameFor_of_mirrors (h : Mirrors K L db) (h' : Mirrors K' L' db')
    (hpurpose : db'.purpose = db.purpose) (hcollection : db'.collection = db.collection)
    (hL : ∀ u v, L u v sid ↔ L' u v sid) : SameFor sid db db' := by
  intro c u
  have hfor : db.IsFor c u sid ↔ db'.IsFor c u sid := by rw [Db.IsFor, Db.IsFor, hpurpose]
  refine ⟨hfor, fun hc => ⟨fun col _ => by rw [hcollection], fun v => ?_⟩⟩
  rw [h.members c u sid hc, h'.members c u sid (hfor.mp hc), hL]

theorem placesOf_iff (hnot : ¬ Touches db (.version s) sid) :
    PlacesOf db.serviceVersion u v sid ↔
      PlacesOf ((versionStatement s).after db.serviceVersion) u v sid := by
  constructor
  · rintro ⟨ver, hver, rfl, rfl⟩
    refine ⟨ver, (mem_or_old_of_mem hver).resolve_right ?_, rfl, rfl⟩
    rintro ⟨e, he, hold⟩
    exact hnot ⟨e, he, ver, .inl hold, rfl⟩
  · rintro ⟨ver, hver, rfl, rfl⟩
    refine ⟨ver, (mem_after hver).resolve_right ?_, rfl, rfl⟩
    rintro ⟨e, he, hnew⟩
    exact hnot ⟨e, he, ver, .inr hnew, rfl⟩

theorem versionKeys_ok {l : List Version} {new : Version} (h : versionKeys l new = .ok ()) :
    ∀ ver ∈ l, ver.serviceVersionId ≠ new.serviceVersionId :=
  checkUnique_ok (bind_unit_eq_ok.mp h).1

theorem mirrors_insertVersions {rows : List Version}
    (h : Mirrors (SlotsOf services) (PlacesOf versions) db)
    (hok : (rows.map RowEvent.insert).foldlM afterVersion db = .ok db') :
    Mirrors (SlotsOf services) (PlacesOf (versions ++ rows)) db' ∧
      (∃ t, db' = { db with member := t }) ∧
      ∀ ver ∈ rows, ∃ s ∈ db.service, s.serviceId = ver.serviceId := by
  induction rows generalizing versions db with
  | nil =>
    obtain rfl := Except.ok.inj hok
    rw [List.append_nil]
    exact ⟨h, ⟨_, rfl⟩, fun _ hver => absurd hver List.not_mem_nil⟩
  | cons new rows ih =>
    rw [List.map_cons, List.foldlM_cons, bind_eq_ok] at hok
    obtain ⟨db₁, h₁, hok⟩ := hok
    obtain ⟨hcheck, h₁⟩ := bind_unit_eq_ok.mp h₁
    obtain ⟨t, rfl⟩ := manipAllSvcCollectionMembers_member h₁
    obtain ⟨hm, ⟨t', rfl⟩, href⟩ := ih (mirrors_insertMembers h h₁) hok
    refine ⟨by simpa using hm, ⟨t', rfl⟩, List.forall_mem_cons.mpr ⟨?_, href⟩⟩
    simpa using raiseIf_eq_ok.mp hcheck

theorem sound_insertVersions {rows : List Version} (hdb : Sound db)
    (hok : execute db (.version (.insert rows)) = .ok db') :
    Sound db' ∧ ∀ sid, ¬ Touches db (.version (.insert rows)) sid → SameFor sid db db' := by
  obtain ⟨db₁, h₁, hok⟩ := bind_eq_ok.mp hok
  obtain ⟨t, ht, hok⟩ := bind_eq_ok.mp hok
  obtain rfl : db₁ = db := by
    refine (foldlM_looks (fun e he s' hstep => ?_) h₁).1
    obtain ⟨ver, -, rfl⟩ := List.mem_map.mp he
    exact (Except.ok.inj hstep).symm
  have hkey : (t.map (·.serviceVersionId)).Nodup :=
    nodup_execute (fun l new => versionKeys_ok) hdb.versionKey ht
  obtain rfl := execute_ok ht
  obtain ⟨hm, ⟨member, rfl⟩, href⟩ := mirrors_insertVersions (hdb.toMirrors.tables db₁.service
    ((versionStatement (.insert rows)).after db₁.serviceVersion)) hok
  refine ⟨⟨hm, hdb.serviceKey, hkey, fun ver hver => ?_⟩, fun sid hnot => ?_⟩
  · exact (List.mem_append.mp hver).elim (hdb.versionRef ver) (href ver)
  · exact sameFor_of_mirrors hdb.toMirrors hm rfl rfl fun u v => placesOf_iff hnot

theorem mirrors_deleteVersions {old : List Version} (h : Mirrors (SlotsOf services) L db)
    (hok : (old.map RowEvent.delete).foldlM beforeVersion db = .ok db') :
    Mirrors (SlotsOf services) (fun u v sid => L u v sid ∧
      ∀ ver ∈ old, ¬ (ver.serviceVersionId = v ∧ ver.serviceId = sid)) db' ∧
        ∃ t, db' = { db with member := t } := by
  induction old generalizing L db with
  | nil =>
    obtain rfl := Except.ok.inj hok
    refine ⟨h.congr (fun _ _ => Iff.rfl) fun u v sid => ?_, ⟨_, rfl⟩⟩
    simp
  | cons ver old ih =>
    rw [List.map_cons, List.foldlM_cons, bind_eq_ok] at hok
    obtain ⟨db₁, h₁, hok⟩ := hok
    have h₁ : manipAllSvcCollectionMembers db (.delete ver) = .ok db₁ := h₁
    obtain ⟨t, rfl⟩ := manipAllSvcCollectionMembers_member h₁
    obtain ⟨hm, t', rfl⟩ := ih (mirrors_deleteMembers h h₁) hok
    refine ⟨hm.congr (fun _ _ => Iff.rfl) fun u v sid => ?_, t', rfl⟩
    rw [List.forall_mem_cons, and_assoc]

theorem sound_deleteVersions {cond : Version → Bool} (hdb : Sound db)
    (hok : execute db (.version (.delete cond)) = .ok db') :
    Sound db' ∧ ∀ sid, ¬ Touches db (.version (.delete cond)) sid → SameFor sid db db' := by
  obtain ⟨db₁, h₁, hok⟩ := bind_eq_ok.mp hok
  obtain ⟨t, ht, hok⟩ := bind_eq_ok.mp hok
  obtain ⟨hm, member, rfl⟩ := mirrors_deleteVersions hdb.toMirrors h₁
  have hkey : (t.map (·.serviceVersionId)).Nodup :=
    nodup_execute (fun l new => versionKeys_ok) hdb.versionKey ht
  obtain rfl := execute_ok ht
  obtain ⟨rfl, -⟩ := foldlM_looks (fun e he s' hstep => by
    obtain ⟨ver, -, rfl⟩ := List.mem_map.mp he
    exact (Except.ok.inj (bind_unit_eq_ok.mp hstep).2).symm) hok
  have hmem : ∀ ver, ver ∈ (versionStatement (.delete cond)).after db.serviceVersion ↔
      ver ∈ db.serviceVersion ∧ cond ver = false := by
    intro ver
    show ver ∈ db.serviceVersion.filter (fun ver => !cond ver) ↔ _
    simp
  have hplaces : ∀ u v sid, (PlacesOf db.serviceVersion u v sid ∧
      ∀ ver ∈ db.serviceVersion.filter cond, ¬ (ver.serviceVersionId = v ∧ ver.serviceId = sid)) ↔
        PlacesOf ((versionStatement (.delete cond)).after db.serviceVersion) u v sid := by
    intro u v sid
    constructor
    · rintro ⟨⟨ver, hver, hid, hsid⟩, hnot⟩
      refine ⟨ver, (hmem ver).mpr ⟨hver, ?_⟩, hid, hsid⟩
      by_contra hcond
      exact hnot ver (List.mem_filter.mpr ⟨hver, by simpa using hcond⟩) ⟨hid, hsid⟩
    · rintro ⟨ver, hver, rfl, rfl⟩
      obtain ⟨hver, hcond⟩ := (hmem ver).mp hver
      refine ⟨⟨ver, hver, rfl, rfl⟩, fun ver' hver' heq => ?_⟩
      obtain ⟨hver', hcond'⟩ := List.mem_filter.mp hver'
      rw [List.inj_on_of_nodup_map hdb.versionKey hver' hver heq.1, hcond] at hcond'
      cases hcond'
  have hm' := (hm.tables db.service
    ((versionStatement (.delete cond)).after db.serviceVersion)).congr (fun _ _ => Iff.rfl) hplaces
  refine ⟨⟨hm', hdb.serviceKey, hkey, fun ver hver => ?_⟩, fun sid hnot => ?_⟩
  · exact hdb.versionRef ver ((hmem ver).mp hver).1
  · exact sameFor_of_mirrors hdb.toMirrors hm' rfl rfl fun u v => placesOf_iff hnot

/-! ## Moves -/

/-- A version is where it is to be, or where it was if its row is still to come. -/
structure Moving (services : List Service) (versions : List Version) (L : String → ℕ → ℕ → Prop)
    (rest : List (RowEvent Version)) (db : Db) : Prop extends Mirrors (SlotsOf services) L db where
  place : ∀ u, u = "all" ∨ u = "current" → ∀ v sid, L u v sid →
    ∃ ver ∈ versions, ver.serviceVersionId = v ∧
      (ver.serviceId = sid ∨ ∃ old, .update old ver ∈ rest ∧ old.serviceId = sid)
  anywhere : ∀ u, u = "all" ∨ u = "current" → ∀ ver ∈ versions, ∃ sid, L u ver.serviceVersionId sid
  ref : ∀ u v sid, L u v sid → ∃ s ∈ services, s.serviceId = sid
  rows : ∀ e ∈ rest, ∃ old new, e = .update old new ∧ ∃ s ∈ services, s.serviceId = old.serviceId

variable {rest : List (RowEvent Version)} {old new : Version}

theorem moving_moveMembers {ca cb : ℕ}
    (h : Moving services db.serviceVersion L (.update old new :: rest) db)
    (ha : db.IsFor ca u old.serviceId) (hb : db.IsFor cb u new.serviceId)
    (hnew : ∃ s ∈ services, s.serviceId = new.serviceId)
    (hok : moveMembers db (some ca) (some cb) = .ok db') :
    Moving services db.serviceVersion (Relocated L u old.serviceId new.serviceId)
      (.update old new :: rest) db' ∧
      (∀ v sid, Relocated L u old.serviceId new.serviceId u v sid → ∃ ver ∈ db.serviceVersion,
        ver.serviceVersionId = v ∧
          (ver.serviceId = sid ∨ ∃ old, .update old ver ∈ rest ∧ old.serviceId = sid)) := by
  obtain ⟨hm, ⟨t, rfl⟩, hchecked⟩ := mirrors_moveMembers h.toMirrors ha hb hok
  have hmoved : ∀ v, L u v old.serviceId → ∃ ver ∈ db.serviceVersion,
      ver.serviceVersionId = v ∧ ver.serviceId = new.serviceId := by
    intro v hv
    obtain ⟨ver, hver, rfl, -⟩ := h.place u (h.isAutomatic ha) v _ hv
    exact ⟨ver, hver, rfl, hchecked ⟨_, hv⟩ ver hver (.inr ⟨rfl, rfl, hv⟩)⟩
  refine ⟨{ toMirrors := hm, place := ?_, anywhere := ?_, ref := ?_, rows := h.rows }, ?_⟩
  · rintro u' hu' v sid (⟨hL, -⟩ | ⟨rfl, rfl, hL⟩)
    · exact h.place u' hu' v sid hL
    · obtain ⟨ver, hver, hid, hsid⟩ := hmoved v hL
      exact ⟨ver, hver, hid, .inl hsid⟩
  · intro u' hu' ver hver
    obtain ⟨sid, hL⟩ := h.anywhere u' hu' ver hver
    by_cases hmove : u' = u ∧ sid = old.serviceId
    · obtain ⟨rfl, rfl⟩ := hmove
      exact ⟨new.serviceId, .inr ⟨rfl, rfl, hL⟩⟩
    · exact ⟨sid, .inl ⟨hL, hmove⟩⟩
  · rintro u' v sid (⟨hL, -⟩ | ⟨-, rfl, -⟩)
    · exact h.ref u' v sid hL
    · exact hnew
  · rintro v sid (⟨hL, hnot⟩ | ⟨-, rfl, hL⟩)
    · obtain ⟨ver, hver, hid, hsid | ⟨old', hold', hsid⟩⟩ := h.place u (h.isAutomatic ha) v sid hL
      · exact ⟨ver, hver, hid, .inl hsid⟩
      · rcases List.mem_cons.mp hold' with heq | hold'
        · obtain ⟨rfl, rfl⟩ := RowEvent.update.inj heq
          exact absurd ⟨rfl, hsid.symm⟩ hnot
        · exact ⟨ver, hver, hid, .inr ⟨old', hold', hsid⟩⟩
    · obtain ⟨ver, hver, hid, hsid⟩ := hmoved v hL
      exact ⟨ver, hver, hid, .inl hsid⟩

theorem currentNe : "current" ≠ "all" := by decide

theorem moving_afterVersion (h : Moving db.service db.serviceVersion L (.update old new :: rest) db)
    (hok : afterVersion db (.update old new) = .ok db') :
    (∃ t, db' = { db with member := t }) ∧ ∃ L', Moving db.service db.serviceVersion L' rest db' := by
  obtain ⟨hcheck, hok⟩ := bind_unit_eq_ok.mp hok
  obtain ⟨db₁, hmanip, hok⟩ := bind_eq_ok.mp hok
  obtain ⟨-, hok⟩ := bind_unit_eq_ok.mp hok
  obtain rfl := Except.ok.inj hok
  refine ⟨manipAllSvcCollectionMembers_member hmanip, ?_⟩
  obtain ⟨_, _, heq, so, hso, hsold⟩ := h.rows _ List.mem_cons_self
  obtain ⟨rfl, rfl⟩ := RowEvent.update.inj heq
  obtain ⟨sn, hsn, hsnew⟩ : ∃ s ∈ db.service, s.serviceId = new.serviceId := by
    simpa using raiseIf_eq_ok.mp hcheck
  -- the collections for both purposes
  have hfor : ∀ u, u = "all" ∨ u = "current" →
      ∃ ca cb, db.IsFor ca u old.serviceId ∧ db.IsFor cb u new.serviceId := by
    intro u hu
    obtain ⟨ca, ha⟩ := h.each so u ⟨hso, hu⟩
    obtain ⟨cb, hb⟩ := h.each sn u ⟨hsn, hu⟩
    exact ⟨ca, cb, hsold ▸ ha, hsnew ▸ hb⟩
  obtain ⟨ca, cb, ha, hb⟩ := hfor "current" (.inr rfl)
  obtain ⟨ca', cb', ha', hb'⟩ := hfor "all" (.inl rfl)
  obtain ⟨source, hsource, hmanip⟩ := bind_eq_ok.mp hmanip
  obtain ⟨target, htarget, hmanip⟩ := bind_eq_ok.mp hmanip
  obtain ⟨db₂, hcurrent, hmanip⟩ := bind_eq_ok.mp hmanip
  obtain rfl := Except.ok.inj ((h.collectionOf ha).symm.trans hsource)
  obtain rfl := Except.ok.inj ((h.collectionOf hb).symm.trans htarget)
  obtain ⟨h₂, hplace₂⟩ := moving_moveMembers h ha hb ⟨sn, hsn, hsnew⟩ hcurrent
  obtain ⟨t, rfl⟩ := moveMembers_member hcurrent
  obtain ⟨source', hsource', hmanip⟩ := bind_eq_ok.mp hmanip
  obtain ⟨target', htarget', hall⟩ := bind_eq_ok.mp hmanip
  have ha' : Db.IsFor { db with member := t } ca' "all" old.serviceId := ha'
  have hb' : Db.IsFor { db with member := t } cb' "all" new.serviceId := hb'
  obtain rfl := Except.ok.inj ((h₂.collectionOf ha').symm.trans hsource')
  obtain rfl := Except.ok.inj ((h₂.collectionOf hb').symm.trans htarget')
  obtain ⟨h₃, hplace₃⟩ := moving_moveMembers h₂ ha' hb' ⟨sn, hsn, hsnew⟩ hall
  refine ⟨_, { h₃ with place := ?_, rows := fun e he => h₃.rows e (List.mem_cons_of_mem _ he) }⟩
  rintro u (rfl | rfl) v sid hL
  · exact hplace₃ v sid hL
  · exact hplace₂ v sid ((relocated_of_ne currentNe).mp hL)

/-- When all rows are done, the versions are with their services. -/
theorem Moving.done {versions : List Version} (h : Moving services versions L [] db)
    (hkey : (versions.map (·.serviceVersionId)).Nodup) :
    Mirrors (SlotsOf services) (PlacesOf versions) db ∧
      ∀ ver ∈ versions, ∃ s ∈ services, s.serviceId = ver.serviceId := by
  have hplace : ∀ u, u = "all" ∨ u = "current" → ∀ v sid, L u v sid →
      PlacesOf versions u v sid := by
    intro u hu v sid hL
    obtain ⟨ver, hver, hid, hsid | ⟨old, hold, -⟩⟩ := h.place u hu v sid hL
    · exact ⟨ver, hver, hid, hsid⟩
    · exact absurd hold List.not_mem_nil
  have hsame : ∀ u, u = "all" ∨ u = "current" → ∀ ver ∈ versions,
      L u ver.serviceVersionId ver.serviceId := by
    intro u hu ver hver
    obtain ⟨sid, hL⟩ := h.anywhere u hu ver hver
    obtain ⟨ver', hver', hid, hsid⟩ := hplace u hu _ sid hL
    obtain rfl := List.inj_on_of_nodup_map hkey hver' hver hid
    exact hsid ▸ hL
  refine ⟨h.congr_places fun u hu v sid => ⟨hplace u hu v sid, ?_⟩, fun ver hver => ?_⟩
  · rintro ⟨ver, hver, rfl, rfl⟩
    exact hsame u hu ver hver
  · exact h.ref _ _ _ (hsame "all" (.inl rfl) ver hver)

theorem sound_updateVersions {set : Version → Option Version} (hdb : Sound db)
    (hok : execute db (.version (.update set)) = .ok db') :
    Sound db' ∧ ∀ sid, ¬ Touches db (.version (.update set)) sid → SameFor sid db db' := by
  obtain ⟨db₁, h₁, hok⟩ := bind_eq_ok.mp hok
  obtain ⟨t, ht, hok⟩ := bind_eq_ok.mp hok
  have hupdate : ∀ e ∈ (versionStatement (.update set)).events db.serviceVersion,
      ∃ old new, e = .update old new := by
    intro e he
    obtain ⟨s, -, new, -, rfl⟩ := exists_of_update he
    exact ⟨s, new, rfl⟩
  obtain rfl : db₁ = db := by
    refine (foldlM_looks (fun e he s' hstep => ?_) h₁).1
    obtain ⟨old, new, rfl⟩ := hupdate e he
    exact (Except.ok.inj hstep).symm
  have hkey : (t.map (·.serviceVersionId)).Nodup :=
    nodup_execute (fun l new => versionKeys_ok) hdb.versionKey ht
  obtain rfl := execute_ok ht
  have hids : ∀ old new, .update old new ∈ (versionStatement (.update set)).events
      db₁.serviceVersion → new.serviceVersionId = old.serviceVersionId := by
    intro old new he
    obtain ⟨values, rfl⟩ := exists_of_naming he
    rfl
  have hstart : Moving db₁.service ((versionStatement (.update set)).after db₁.serviceVersion)
      (PlacesOf db₁.serviceVersion) ((versionStatement (.update set)).events db₁.serviceVersion)
      { db₁ with serviceVersion := (versionStatement (.update set)).after db₁.serviceVersion } := by
    refine { toMirrors := hdb.toMirrors.tables _ _, place := ?_, anywhere := ?_, ref := ?_, rows := ?_ }
    · rintro u - v sid ⟨ver, hver, rfl, rfl⟩
      rcases mem_or_old_of_mem hver with hafter | ⟨e, he, hold⟩
      · exact ⟨ver, hafter, rfl, .inl rfl⟩
      · obtain ⟨old, new, rfl⟩ := hupdate e he
        obtain rfl := Option.some.inj hold
        exact ⟨new, mem_after_of_new he rfl, hids _ _ he, .inr ⟨old, he, rfl⟩⟩
    · rintro u - ver hver
      rcases mem_after hver with hver | ⟨e, he, hnew⟩
      · exact ⟨_, ver, hver, rfl, rfl⟩
      · obtain ⟨old, new, rfl⟩ := hupdate e he
        obtain rfl := Option.some.inj hnew
        exact ⟨_, old, old_mem he rfl, (hids _ _ he).symm, rfl⟩
    · rintro u v sid ⟨ver, hver, -, rfl⟩
      exact hdb.versionRef ver hver
    · intro e he
      obtain ⟨old, new, rfl⟩ := hupdate e he
      exact ⟨old, new, rfl, hdb.versionRef old (old_mem he rfl)⟩
  obtain ⟨⟨member, rfl⟩, L, hend⟩ := foldlM_rest_keeps (P := fun rest db' =>
    (∃ member, db' = { db₁ with
      serviceVersion := (versionStatement (.update set)).after db₁.serviceVersion
      member := member }) ∧ ∃ L, Moving db₁.service
        ((versionStatement (.update set)).after db₁.serviceVersion) L rest db') (by
      rintro e rest _ db'' ⟨⟨member, rfl⟩, L, hmoving⟩ hstep
      obtain ⟨old, new, rfl, -⟩ := hmoving.rows e List.mem_cons_self
      obtain ⟨⟨member', rfl⟩, hmoving'⟩ := moving_afterVersion hmoving hstep
      exact ⟨⟨member', rfl⟩, hmoving'⟩)
    ⟨⟨db₁.member, rfl⟩, _, hstart⟩ hok
  obtain ⟨hm, href⟩ := hend.done hkey
  exact ⟨⟨hm, hdb.serviceKey, hkey, href⟩,
    fun sid hnot => sameFor_of_mirrors hdb.toMirrors hm rfl rfl fun u v => placesOf_iff hnot⟩

theorem versionEnforce_ok (h : Mirrors (SlotsOf services) L db)
    (hL : ∀ u, u = "all" ∨ u = "current" → ∀ sid, L u new.serviceVersionId sid →
      sid = new.serviceId) : versionEnforce db new = .ok () := by
  refine raiseIf_eq_ok.mpr ?_
  rintro ⟨m, hm, hid, p, hp, hpc, hmismatch⟩
  have hm' : ⟨p.collectionId, new.serviceVersionId⟩ ∈ db.member := by rwa [hpc, ← hid]
  exact h.not_mismatches hp hm' (hL p.purpose (h.isAutomatic hp)) hmismatch

theorem exists_manip (h : Mirrors (SlotsOf services) (PlacesOf versions) db)
    (hkey : (versions.map (·.serviceVersionId)).Nodup) (hold : old ∈ versions)
    (hid : new.serviceVersionId = old.serviceVersionId) (hne : new.serviceId ≠ old.serviceId)
    (holdRef : ∃ s ∈ services, s.serviceId = old.serviceId)
    (hnewRef : ∃ s ∈ services, s.serviceId = new.serviceId)
    (hone : ∀ v ∈ versions, v.serviceId = old.serviceId → v = old)
    (htable : ∀ ver ∈ db.serviceVersion, ver = new ∨ (ver ∈ versions ∧ ver ≠ old)) :
    ∃ db', manipAllSvcCollectionMembers db (.update old new) = .ok db' ∧
      versionEnforce db' new = .ok () := by
  have hplace : ∀ u v sid, PlacesOf versions u v sid → v = old.serviceVersionId →
      sid = old.serviceId := by
    rintro u v sid ⟨ver, hver, rfl, rfl⟩ heq
    rw [List.inj_on_of_nodup_map hkey hver hold heq]
  have htable' : ∀ u, ∀ ver ∈ db.serviceVersion,
      PlacesOf versions u ver.serviceVersionId new.serviceId ∨
        ver.serviceVersionId = old.serviceVersionId → ver.serviceId = new.serviceId := by
    intro u ver hver hor
    rcases htable ver hver with rfl | ⟨hver, hnot⟩
    · rfl
    · rcases hor with ⟨ver', hver', heq, hsid⟩ | heq
      · rw [← List.inj_on_of_nodup_map hkey hver' hver heq, hsid]
      · exact absurd (List.inj_on_of_nodup_map hkey hver hold heq) hnot
  have hfor : ∀ u, u = "all" ∨ u = "current" →
      ∃ ca cb, db.IsFor ca u old.serviceId ∧ db.IsFor cb u new.serviceId := by
    intro u hu
    obtain ⟨so, hso, hsold⟩ := holdRef
    obtain ⟨sn, hsn, hsnew⟩ := hnewRef
    obtain ⟨ca, ha⟩ := h.each so u ⟨hso, hu⟩
    obtain ⟨cb, hb⟩ := h.each sn u ⟨hsn, hu⟩
    exact ⟨ca, cb, hsold ▸ ha, hsnew ▸ hb⟩
  have honly : ∀ u v, PlacesOf versions u v old.serviceId → v = old.serviceVersionId := by
    rintro u v ⟨ver, hver, rfl, hsid⟩
    rw [hone ver hver hsid]
  have hnot : ∀ u, ¬ PlacesOf versions u old.serviceVersionId new.serviceId :=
    fun u hL => hne (hplace u _ _ hL rfl)
  have hthere : ∀ u, PlacesOf versions u old.serviceVersionId old.serviceId :=
    fun u => ⟨old, hold, rfl, rfl⟩
  obtain ⟨ca, cb, ha, hb⟩ := hfor "current" (.inr rfl)
  obtain ⟨ca', cb', ha', hb'⟩ := hfor "all" (.inl rfl)
  obtain ⟨db₁, hcurrent⟩ := exists_moveMembers h ha hb (hthere _) (honly _) (hnot _) (htable' _)
  obtain ⟨h₁, ⟨t, rfl⟩, -⟩ := mirrors_moveMembers h ha hb hcurrent
  -- the members of the other collections are as before
  have hsame : ∀ v sid, Relocated (PlacesOf versions) "current" old.serviceId new.serviceId "all" v
      sid ↔ PlacesOf versions "all" v sid := fun v sid => relocated_of_ne (Ne.symm currentNe)
  have ha₁ : Db.IsFor { db with member := t } ca' "all" old.serviceId := ha'
  have hb₁ : Db.IsFor { db with member := t } cb' "all" new.serviceId := hb'
  obtain ⟨db₂, hall⟩ := exists_moveMembers h₁ ha₁ hb₁ ((hsame _ _).mpr (hthere _))
    (fun v hL => honly _ v ((hsame _ _).mp hL)) (fun hL => hnot _ ((hsame _ _).mp hL))
    (fun ver hver hor => htable' "all" ver hver (hor.imp_left (hsame _ _).mp))
  obtain ⟨h₂, -, -⟩ := mirrors_moveMembers h₁ ha₁ hb₁ hall
  refine ⟨db₂, ?_, versionEnforce_ok h₂ ?_⟩
  · refine bind_eq_ok.mpr ⟨_, h.collectionOf ha, bind_eq_ok.mpr ⟨_, h.collectionOf hb, ?_⟩⟩
    refine bind_eq_ok.mpr ⟨_, hcurrent, ?_⟩
    exact bind_eq_ok.mpr ⟨_, h₁.collectionOf ha₁, bind_eq_ok.mpr ⟨_, h₁.collectionOf hb₁, hall⟩⟩
  · rw [hid]
    rintro u (rfl | rfl) sid hL
    · rcases hL with ⟨hL, hleft⟩ | ⟨-, rfl, -⟩
      · exact absurd ⟨rfl, hplace _ _ _ ((hsame _ _).mp hL) rfl⟩ hleft
      · rfl
    · rcases (relocated_of_ne currentNe).mp hL with ⟨hL, hleft⟩ | ⟨-, rfl, -⟩
      · exact absurd ⟨rfl, hplace _ _ _ hL rfl⟩ hleft
      · rfl

/-- The only version of a service can be moved to another service. -/
theorem exists_execute_of_moves (hdb : Sound db) (hmoves : Moves db s old new)
    (hg : Guarded db (.version s)) :
    ∃ db', execute db (.version s) = .ok db' := by
  obtain ⟨hone, hname⟩ := hg old new hmoves
  obtain ⟨set, rfl⟩ : ∃ set, s = .update set := by
    have hevents := hmoves.events
    cases s with
    | insert rows =>
      obtain ⟨r, -, heq⟩ := List.map_eq_singleton_iff.mp hevents
      cases heq
    | update set => exact ⟨set, rfl⟩
    | delete cond =>
      obtain ⟨r, -, heq⟩ := List.map_eq_singleton_iff.mp hevents
      cases heq
  have he : .update old new ∈ (versionStatement (.update set)).events db.serviceVersion := by
    rw [hmoves.events]
    exact List.mem_singleton.mpr rfl
  have hold : old ∈ db.serviceVersion := old_mem he rfl
  obtain ⟨values, rfl⟩ := exists_of_naming he
  obtain ⟨hset, hothers⟩ := set_of_events hmoves.events
  obtain ⟨t, ht⟩ : ∃ t, (versionStatement (.update set)).execute versionKeys db.serviceVersion =
      .ok t := by
    refine exists_execute_of_one hdb.versionKey.of_map hold hset hothers fun l hl => ?_
    refine bind_unit_eq_ok.mpr ⟨raiseIf_eq_ok.mpr ?_, raiseIf_eq_ok.mpr ?_⟩
    · rintro ⟨ver, hver, hid⟩
      obtain ⟨hver, hne⟩ := hl ver hver
      exact hne (List.inj_on_of_nodup_map hdb.versionKey hver hold hid)
    · rintro ⟨ver, hver, hid⟩
      obtain ⟨hsid, heq⟩ := Prod.mk.inj hid
      exact hname ver (hl ver hver).1 hsid heq
  have hafter := execute_ok ht
  have htable : ∀ ver ∈ t, ver = { old with serviceId := values.serviceId } ∨
      (ver ∈ db.serviceVersion ∧ ver ≠ old) := by
    intro ver hver
    rw [hafter] at hver
    obtain ⟨r, hr, rfl⟩ := List.mem_map.mp hver
    dsimp only at hset hothers ⊢
    by_cases hr' : r = old
    · subst hr'
      rw [hset]
      exact .inl rfl
    · rw [hothers r hr hr']
      exact .inr ⟨hr, hr'⟩
  have hmirrors : Mirrors (SlotsOf db.service) (PlacesOf db.serviceVersion)
      { db with serviceVersion := t } := hdb.toMirrors.tables db.service t
  have hid : Version.serviceVersionId { old with serviceId := values.serviceId } =
      old.serviceVersionId := rfl
  obtain ⟨db', hmanip, henforce⟩ := exists_manip hmirrors hdb.versionKey hold hid hmoves.other
    (hdb.versionRef old hold) hmoves.ref hone htable
  refine ⟨db', bind_eq_ok.mpr ⟨db, by rw [hmoves.events]; rfl, bind_eq_ok.mpr ⟨t, ht, ?_⟩⟩⟩
  rw [hmoves.events, List.foldlM_cons]
  refine bind_eq_ok.mpr ⟨db', bind_unit_eq_ok.mpr ⟨?_, ?_⟩, rfl⟩
  · refine raiseIf_eq_ok.mpr fun hnone => ?_
    obtain ⟨sv, hsv, heq⟩ := hmoves.ref
    exact hnone sv hsv heq
  · exact bind_eq_ok.mpr ⟨db', hmanip, bind_unit_eq_ok.mpr ⟨henforce, rfl⟩⟩

/-! ## Runs -/

theorem sound_execute {s : Statement} (hdb : Sound db) (hg : Guarded db s)
    (hok : execute db s = .ok db') :
    Sound db' ∧ ∀ sid, ¬ Touches db s sid → SameFor sid db db' := by
  cases s with
  | service s =>
    cases s with
    | insert rows => exact sound_insertServices hdb hok
    | update set => exact sound_updateServices hdb hg hok
    | delete cond => exact sound_deleteServices hdb hok
  | version s =>
    cases s with
    | insert rows => exact sound_insertVersions hdb hok
    | update set => exact sound_updateVersions hdb hok
    | delete cond => exact sound_deleteVersions hdb hok

theorem sound_step {s : Statement} (hdb : Sound db) (hg : Guarded db s) :
    Sound (step db s) ∧ Right db s := by
  have hmoves : ∀ vs old new, s = .version vs → Moves db vs old new → ∃ db', execute db s = .ok db' := by
    rintro vs old new rfl hmoves
    exact exists_execute_of_moves hdb hmoves hg
  cases hok : execute db s with
  | error e =>
    have hstep : step db s = db := by
      rw [step, hok]
      rfl
    refine ⟨by rwa [hstep], ⟨fun sid _ => ?_, hmoves⟩⟩
    rw [hstep]
    exact SameFor.refl
  | ok db' =>
    have hstep : step db s = db' := by
      rw [step, hok]
      rfl
    obtain ⟨hsound, hsame⟩ := sound_execute hdb hg hok
    refine ⟨by rwa [hstep], ⟨fun sid hnot => ?_, hmoves⟩⟩
    rw [hstep]
    exact hsame sid hnot

theorem Sound.kept (h : Sound db) : Kept db where
  unique := by
    intro s hs u hu
    obtain ⟨c, hc⟩ := h.each s u ⟨hs, hu⟩
    obtain ⟨col, hcol, rfl⟩ := h.collectionRef _ hc
    refine ⟨col, ⟨hcol, hc⟩, fun col' hcol' => ?_⟩
    have hid := h.one _ _ _ _ hcol'.2 hc
    exact List.inj_on_of_nodup_map h.collectionKey hcol'.1 hcol hid
  named := fun s hs u hu col hcol hc => h.named s u col.id ⟨hs, hu⟩ hc col hcol rfl
  all := fun s _ c hc v => h.members c _ _ hc v
  current := fun s _ c hc v hm => (h.members c _ _ hc v).mp hm

theorem sound_empty : Sound .empty := by
  refine ⟨⟨?_, ?_, ?_, ?_, ?_, ?_, ?_, ?_, ?_, ?_, ?_⟩, ?_, ?_, ?_⟩ <;>
    simp [Db.empty, Db.IsFor, SlotsOf]

/-- **Each service keeps its two collections in every guarded run.** -/
theorem kept_run {l : List Statement} (h : AllSteps step Guarded .empty l) :
    Kept (run step .empty l) ∧ AllSteps step Right .empty l := by
  have hsound := run_invariant (I := Sound) (fun _ _ hdb hg => (sound_step hdb hg).1) sound_empty h
  exact ⟨hsound.kept, h.of_invariant (fun _ _ => sound_step) sound_empty⟩

/-- A service with a version, and one without; the version moves. -/
theorem kept_run_moved : AllSteps step Right .empty
    [.service (.insert [⟨1, "a", "t"⟩, ⟨2, "b", "t"⟩]), .version (.insert [⟨1, 1, "v"⟩]),
      .version (.update fun v => some { v with serviceId := 2 })] := by
  refine (kept_run (l := [_, _, _]) ⟨?_, ?_, ?_, trivial⟩).2
  · intro old new hlast
    cases hlast
  · intro old new hmoves
    cases hmoves.events
  · have hversion : (run step .empty [.service (.insert [⟨1, "a", "t"⟩, ⟨2, "b", "t"⟩]),
        .version (.insert [⟨1, 1, "v"⟩])]).serviceVersion = [⟨1, 1, "v"⟩] := by decide
    intro old new hmoves
    have hevents := hmoves.events
    rw [run_cons, run_cons, run_nil] at hversion
    rw [hversion] at hevents ⊢
    obtain ⟨rfl, rfl⟩ := RowEvent.update.inj (List.singleton_inj.mp hevents)
    decide

/-- The first of two services is renamed, and a version that is not alone is moved. -/
theorem renamed_breaks :
    let db := run step .empty [.service (.insert [⟨1, "a", "t"⟩, ⟨2, "b", "t"⟩]),
      .version (.insert [⟨1, 1, "v"⟩, ⟨2, 1, "w"⟩])]
    ¬ Kept (step db (.service (.update fun s =>
        if s.serviceId = 1 then some { s with serviceName := "c" } else none))) ∧
      ¬ Right db (.version (.update fun v =>
        if v.serviceVersionId = 1 then some { v with serviceId := 2 } else none)) := by
  constructor
  · intro h
    have hname := h.named ⟨2, "b", "t"⟩ (by decide) "all" (.inl rfl)
      ⟨3, "t:c", "all-services"⟩ (by decide) (by show _ ∈ _; decide)
    exact absurd hname (by decide)
  · intro h
    have hmoves : Moves (run step .empty [.service (.insert [⟨1, "a", "t"⟩, ⟨2, "b", "t"⟩]),
        .version (.insert [⟨1, 1, "v"⟩, ⟨2, 1, "w"⟩])]) (.update fun v =>
          if v.serviceVersionId = 1 then some { v with serviceId := 2 } else none)
        ⟨1, 1, "v"⟩ ⟨1, 2, "v"⟩ := ⟨by decide, by decide, by decide⟩
    obtain ⟨db', hok⟩ := h.moves _ _ _ rfl hmoves
    have hfails : (execute (run step .empty [.service (.insert [⟨1, "a", "t"⟩, ⟨2, "b", "t"⟩]),
        .version (.insert [⟨1, 1, "v"⟩, ⟨2, 1, "w"⟩])]) (.version (.update fun v =>
          if v.serviceVersionId = 1 then some { v with serviceId := 2 } else none))).toOption.isNone =
            true := by decide
    rw [hok] at hfails
    cases hfails

end JazzHands.ServiceVersion

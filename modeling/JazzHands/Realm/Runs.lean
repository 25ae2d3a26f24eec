import JazzHands.Realm.Restriction

/-!
# Which statements keep members in their realm

`Sound` is kept by each of the five kinds of statements (`sound_member` and so on) when it is
`Guarded`, and by runs of them.  The keys are kept without a condition.
-/

namespace JazzHands.Realm

open Library Postgres RowStatement

/-- Members are of the realm of their collection, and edges join collections of one realm. -/
structure Respects (db : Db) : Prop where
  member : ∀ m ∈ db.accountCollectionAccount, ∀ realm ∈ db.realmOf m.accountCollectionId,
    ∀ a ∈ db.account, a.accountId = m.accountId → a.accountRealmId = realm
  hier : ∀ h ∈ db.accountCollectionHier,
    db.realmOf h.accountCollectionId = db.realmOf h.childAccountCollectionId

structure Constraints (db : Db) : Prop where
  collectionKey : (db.accountCollection.map (·.accountCollectionId)).Nodup
  typeKey : (db.valAccountCollectionType.map (·.accountCollectionType)).Nodup
  accountKey : (db.account.map (·.accountId)).Nodup
  memberRef : ∀ m ∈ db.accountCollectionAccount, ∃ c ∈ db.accountCollection,
    c.accountCollectionId = m.accountCollectionId
  hierRef : ∀ h ∈ db.accountCollectionHier,
    (∃ c ∈ db.accountCollection, c.accountCollectionId = h.accountCollectionId) ∧
      ∃ c ∈ db.accountCollection, c.accountCollectionId = h.childAccountCollectionId
  collectionRef : ∀ c ∈ db.accountCollection, ∃ vt ∈ db.valAccountCollectionType,
    vt.accountCollectionType = c.accountCollectionType

structure Sound (db : Db) : Prop extends Constraints db, Respects db

/-! ## What no trigger looks at -/

/-- A member is moved, as the same account, to a collection that is restricted to another realm. -/
def MovesOther (db : Db) (s : RowStatement Member) : Prop :=
  ∃ old new, .update old new ∈ s.events db.accountCollectionAccount ∧
    new.accountId = old.accountId ∧ new.accountCollectionId ≠ old.accountCollectionId ∧
      ∃ realm ∈ db.realmOf new.accountCollectionId,
        ∃ a ∈ db.account, a.accountId = new.accountId ∧ a.accountRealmId ≠ realm

/-- One end of an edge is no longer restricted, with the rows of `db'`, and the other one is. -/
def LiftsOneEnd (db db' : Db) : Prop :=
  ∃ h ∈ db.accountCollectionHier,
    (db.realmOf h.accountCollectionId ≠ none ∧ db'.realmOf h.accountCollectionId = none ∧
      db'.realmOf h.childAccountCollectionId ≠ none) ∨
    (db.realmOf h.childAccountCollectionId ≠ none ∧
      db'.realmOf h.childAccountCollectionId = none ∧ db'.realmOf h.accountCollectionId ≠ none)

/-- A collection takes the key of one with another restriction. -/
def TakesKey (db : Db) (s : RowStatement AccountCollection) : Prop :=
  ∃ old new, .update old new ∈ s.events db.accountCollection ∧
    new.accountCollectionId ≠ old.accountCollectionId ∧
      ∃ c ∈ db.accountCollection, c.accountCollectionId = new.accountCollectionId ∧
        db.realmOfType c.accountCollectionType ≠ db.realmOfType old.accountCollectionType

/-- The triggers look at what the statement changes. -/
def Guarded (db : Db) : Statement → Prop
  | .member s => ¬ MovesOther db s
  | .hier _ => True
  | .collection columns s =>
    let s' := s.naming (AccountCollection.set columns)
    ¬ LiftsOneEnd db { db with accountCollection := s'.after db.accountCollection } ∧
      (.accountCollectionType ∉ columns → ¬ TakesKey db s')
  | .type columns s =>
    let s' := s.naming (CollectionType.set columns)
    ¬ LiftsOneEnd db { db with valAccountCollectionType := s'.after db.valAccountCollectionType }
  | .accountRealm _ => True

variable {db db' : Db} {k : ℕ} {c : AccountCollection} {vt : CollectionType} {s : Statement}
  {columns : List CollectionColumn} {typeColumns : List TypeColumn}

/-! ## Restrictions -/

section

variable (h : Constraints db)
include h

theorem Constraints.findAccount {a : Account} (ha : a ∈ db.account) :
    db.findAccount a.accountId = some a := Library.find?_key h.accountKey ha

theorem Constraints.findCollection (hc : c ∈ db.accountCollection) :
    db.findCollection c.accountCollectionId = some c := Library.find?_key h.collectionKey hc

theorem Constraints.findType (hvt : vt ∈ db.valAccountCollectionType) :
    db.findType vt.accountCollectionType = some vt := Library.find?_key h.typeKey hvt

theorem Constraints.realmOf (hc : c ∈ db.accountCollection) :
    db.realmOf c.accountCollectionId = db.realmOfType c.accountCollectionType := by
  rw [Db.realmOf, Db.typeOf, h.findCollection hc]
  rfl

theorem Constraints.realmOfType (hvt : vt ∈ db.valAccountCollectionType) :
    db.realmOfType vt.accountCollectionType = vt.accountRealmId := by
  rw [Db.realmOfType, h.findType hvt]
  rfl

theorem Constraints.exists_typeOf (hk : ∃ c ∈ db.accountCollection, c.accountCollectionId = k) :
    ∃ vt, db.typeOf k = some vt ∧ db.realmOf k = vt.accountRealmId := by
  obtain ⟨c, hc, rfl⟩ := hk
  obtain ⟨vt, hvt, heq⟩ := h.collectionRef c hc
  have htype : db.typeOf c.accountCollectionId = some vt := by
    rw [Db.typeOf, h.findCollection hc, Option.bind_some, ← heq, h.findType hvt]
  exact ⟨vt, htype, by rw [Db.realmOf, htype, Option.bind_some]⟩

end

/-- A collection with its members and edges keeps to its restriction. -/
structure Fine (db : Db) (k : ℕ) : Prop where
  member : ∀ realm ∈ db.realmOf k, ¬ db.HasOther k realm
  hier : ∀ h ∈ db.accountCollectionHier,
    h.accountCollectionId = k ∨ h.childAccountCollectionId = k →
      db.realmOf h.accountCollectionId = db.realmOf h.childAccountCollectionId

/-- Collections whose restriction stays need not be looked at. -/
theorem respects_of_fine (hdb : Sound db) (hdb' : Constraints db')
    (hmember : db'.accountCollectionAccount = db.accountCollectionAccount)
    (hhier : db'.accountCollectionHier = db.accountCollectionHier)
    (haccount : db'.account = db.account)
    (hfine : ∀ c ∈ db.accountCollection, ∀ c' ∈ db'.accountCollection,
      ∀ k, c.accountCollectionId = k → c'.accountCollectionId = k → db'.realmOf k = db.realmOf k ∨ Fine db' k) : Respects db' where
  member := by
    intro m hm realm hrealm a ha hid
    have hm' : m ∈ db.accountCollectionAccount := hmember ▸ hm
    obtain ⟨c, hc, hid'⟩ := hdb.memberRef m hm'
    obtain ⟨c', hc', hid''⟩ := hdb'.memberRef m hm
    rcases hfine c hc c' hc' _ hid' hid'' with heq | hk
    · rw [heq] at hrealm
      exact hdb.member m hm' realm hrealm a (haccount ▸ ha) hid
    · by_contra hne
      exact hk.member realm hrealm ⟨m, hm, rfl, a, ha, hid, hne⟩
  hier := by
    intro h hh
    have hh' : h ∈ db.accountCollectionHier := hhier ▸ hh
    obtain ⟨⟨p, hp, hpid⟩, ⟨c, hc, hcid⟩⟩ := hdb.hierRef h hh'
    obtain ⟨⟨p', hp', hpid'⟩, ⟨c', hc', hcid'⟩⟩ := hdb'.hierRef h hh
    rcases hfine p hp p' hp' _ hpid hpid' with heq | hk
    · rcases hfine c hc c' hc' _ hcid hcid' with heq' | hk
      · rw [heq, heq', hdb.hier h hh']
      · exact hk.hier h hh (.inr rfl)
    · exact hk.hier h hh (.inl rfl)

/-- A restriction that is lifted at both ends of each edge. -/
theorem fine_of_not_liftsOneEnd (hlift : ¬ LiftsOneEnd db db')
    (hhier : db'.accountCollectionHier = db.accountCollectionHier) (hold : db.realmOf k ≠ none)
    (hnew : db'.realmOf k = none) : Fine db' k where
  member := fun realm hrealm => by
    rw [hnew] at hrealm
    cases hrealm
  hier := by
    intro h hh hend
    have hh' : h ∈ db.accountCollectionHier := hhier ▸ hh
    by_contra hne
    rcases hend with rfl | rfl
    · rw [hnew] at hne
      exact hlift ⟨h, hh', .inl ⟨hold, hnew, Ne.symm hne⟩⟩
    · rw [hnew] at hne
      exact hlift ⟨h, hh', .inr ⟨hold, hnew, hne⟩⟩

/-! ## Members and edges -/

theorem sound_member {s : RowStatement Member} (hdb : Sound db) (hg : ¬ MovesOther db s)
    (h : execute db (.member s) = .ok db') : Sound db' := by
  obtain ⟨rfl, hcheck⟩ := execute_events_ok h
  refine ⟨{ hdb.toConstraints with memberRef := fun m hm => ?_ }, ⟨fun m hm => ?_, hdb.hier⟩⟩
  · rcases mem_after hm with hm | ⟨e, he, hnew⟩
    · exact hdb.memberRef m hm
    · have hkeys := (bind_unit_eq_ok.mp (hcheck e he)).1
      rw [memberKeys, hnew] at hkeys
      simpa using raiseIf_eq_ok.mp (bind_unit_eq_ok.mp hkeys).2
  · intro realm hrealm a ha hid
    rcases mem_after hm with hm | ⟨e, he, hnew⟩
    · exact hdb.member m hm realm hrealm a ha hid
    · have htrig := (bind_unit_eq_ok.mp (hcheck e he)).2
      rw [accountCollectionAccountRealm, hnew] at htrig
      dsimp only at htrig
      rw [Option.mem_def.mp hrealm] at htrig
      dsimp only at htrig
      split at htrig
      · have hfind : Db.findAccount { db with
            accountCollectionAccount := s.after db.accountCollectionAccount } m.accountId = some a := by
          rw [← hid]
          exact hdb.findAccount ha
        rw [raiseIf_eq_ok, hfind] at htrig
        simpa using htrig
      · next hskip =>
        -- the account stays, so the test is left out
        cases e with
        | insert new => exact absurd (fun old hold => absurd hold (Option.not_mem_none old)) hskip
        | delete old => cases hnew
        | update old new =>
          obtain rfl := Option.some.inj hnew
          have hsame : old.accountId = new.accountId := by simpa using hskip
          by_cases hcoll : new.accountCollectionId = old.accountCollectionId
          · rw [hcoll] at hrealm
            exact hdb.member old (old_mem he rfl) realm hrealm a ha (hid.trans hsame.symm)
          · by_contra hne
            exact hg ⟨old, new, he, hsame.symm, hcoll, realm, hrealm, a, ha, hid, hne⟩

theorem sound_hier {s : RowStatement Hier} (hdb : Sound db)
    (h : execute db (.hier s) = .ok db') : Sound db' := by
  obtain ⟨rfl, hcheck⟩ := execute_events_ok h
  refine ⟨{ hdb.toConstraints with hierRef := fun x hx => ?_ }, ⟨hdb.member, fun x hx => ?_⟩⟩
  · rcases mem_after hx with hx | ⟨e, he, hnew⟩
    · exact hdb.hierRef x hx
    · have hkeys := (bind_unit_eq_ok.mp (hcheck e he)).1
      rw [hierKeys, hnew] at hkeys
      obtain ⟨hparent, hchild⟩ := bind_unit_eq_ok.mp hkeys
      exact ⟨by simpa using raiseIf_eq_ok.mp hparent, by simpa using raiseIf_eq_ok.mp hchild⟩
  · rcases mem_after hx with hx | ⟨e, he, hnew⟩
    · exact hdb.hier x hx
    · have htrig := (bind_unit_eq_ok.mp (hcheck e he)).2
      rw [accountCollectionHierRealm, hnew] at htrig
      exact not_not.mp (raiseIf_eq_ok.mp htrig)

/-! ## Accounts -/

theorem sound_accountRealm {set : Account → Option ℕ} (hdb : Sound db)
    (h : execute db (.accountRealm set) = .ok db') : Sound db' := by
  obtain ⟨hcheck, h⟩ := bind_unit_eq_ok.mp h
  obtain rfl := Except.ok.inj h
  rw [forM_eq_ok] at hcheck
  have hkey : ((db.setRealms set).account.map (·.accountId)).Nodup := by
    rw [Db.setRealms, List.map_map]
    exact hdb.accountKey
  refine ⟨{ hdb.toConstraints with accountKey := hkey }, ⟨fun m hm => ?_, hdb.hier⟩⟩
  intro realm hrealm a ha hid
  obtain ⟨old, hold, rfl⟩ := List.mem_map.mp ha
  cases hset : set old with
  | none => exact hdb.member m hm realm hrealm old hold hid
  | some new =>
    have htrig := hcheck old hold
    rw [hset] at htrig
    by_contra hne
    exact raiseIf_eq_ok.mp htrig ⟨m, hm, hid.symm, realm, hrealm, Ne.symm hne⟩

/-! ## Collections -/

theorem fine_of_accountCollectionRealm (hdb : Constraints db) (hc : c ∈ db.accountCollection)
    (hrealm : db.realmOfType c.accountCollectionType ≠ none)
    (h : accountCollectionRealm db c = .ok ()) : Fine db c.accountCollectionId := by
  obtain ⟨realm, hrealm⟩ := Option.ne_none_iff_exists'.mp hrealm
  rw [accountCollectionRealm, hrealm] at h
  obtain ⟨hmember, hhier⟩ := bind_unit_eq_ok.mp h
  constructor
  · intro realm' hrealm'
    rw [hdb.realmOf hc, hrealm] at hrealm'
    obtain rfl := Option.some.inj hrealm'
    exact raiseIf_eq_ok.mp hmember
  · intro x hx hend
    obtain ⟨pat, hpat, hp⟩ := hdb.exists_typeOf (hdb.hierRef x hx).1
    obtain ⟨cat, hcat, hc⟩ := hdb.exists_typeOf (hdb.hierRef x hx).2
    rw [hp, hc]
    by_contra hne
    exact raiseIf_eq_ok.mp hhier ⟨x, hx, hend, pat, hpat, cat, hcat, hne⟩

theorem constraints_collection {s : RowStatement AccountCollection} (hdb : Constraints db)
    (h : execute db (.collection columns s) = .ok db') : Constraints db' := by
  obtain ⟨t, ht, h⟩ := bind_eq_ok.mp h
  obtain ⟨hcheck, h⟩ := bind_unit_eq_ok.mp h
  obtain rfl := Except.ok.inj h
  have hkey := nodup_execute (fun _ _ => checkUnique_ok) hdb.collectionKey ht
  obtain rfl := execute_ok ht
  rw [forM_eq_ok] at hcheck
  -- a row that is referred to is there still, or another one has its key
  have hkept : ∀ c ∈ db.accountCollection,
      (∃ m ∈ db.accountCollectionAccount, m.accountCollectionId = c.accountCollectionId) ∨
        (∃ x ∈ db.accountCollectionHier, x.accountCollectionId = c.accountCollectionId ∨
          x.childAccountCollectionId = c.accountCollectionId) →
      ∃ c' ∈ (s.naming (AccountCollection.set columns)).after db.accountCollection,
        c'.accountCollectionId = c.accountCollectionId := by
    intro c hc href
    rcases mem_or_old_of_mem hc with hc' | ⟨e, he, hold⟩
    · exact ⟨c, hc', rfl⟩
    · obtain ⟨-, hcheck⟩ := bind_unit_eq_ok.mp (hcheck e he)
      have hrefs := (bind_unit_eq_ok.mp hcheck).1
      rw [collectionReferences, hold] at hrefs
      by_contra hnone
      exact raiseIf_eq_ok.mp hrefs ⟨fun c' hc' heq => hnone ⟨c', hc', heq⟩, href⟩
  refine { hdb with collectionKey := hkey, memberRef := ?_, hierRef := ?_, collectionRef := ?_ }
  · intro m hm
    obtain ⟨c, hc, hid⟩ := hdb.memberRef m hm
    obtain ⟨c', hc', hid'⟩ := hkept c hc (.inl ⟨m, hm, hid.symm⟩)
    exact ⟨c', hc', hid'.trans hid⟩
  · intro x hx
    obtain ⟨⟨p, hp, hpid⟩, ⟨c, hc, hcid⟩⟩ := hdb.hierRef x hx
    obtain ⟨p', hp', hpid'⟩ := hkept p hp (.inr ⟨x, hx, .inl hpid.symm⟩)
    obtain ⟨c', hc', hcid'⟩ := hkept c hc (.inr ⟨x, hx, .inr hcid.symm⟩)
    exact ⟨⟨p', hp', hpid'.trans hpid⟩, ⟨c', hc', hcid'.trans hcid⟩⟩
  · intro c hc
    rcases mem_after hc with hc | ⟨e, he, hnew⟩
    · exact hdb.collectionRef c hc
    · have hkeys := (bind_unit_eq_ok.mp (hcheck e he)).1
      rw [collectionKeys, hnew] at hkeys
      simpa using raiseIf_eq_ok.mp hkeys

theorem sound_collection {s : RowStatement AccountCollection} (hdb : Sound db)
    (hg : Guarded db (.collection columns s))
    (h : execute db (.collection columns s) = .ok db') : Sound db' := by
  have hdb' := constraints_collection hdb.toConstraints h
  obtain ⟨hlift, htake⟩ := hg
  obtain ⟨rfl, hcheck⟩ := execute_events_ok h
  refine ⟨hdb', respects_of_fine hdb hdb' rfl rfl rfl fun c hc c' hc' k hk hk' => ?_⟩
  have hrealm : db.realmOf k = db.realmOfType c.accountCollectionType := hk ▸ hdb.realmOf hc
  have hrealm' := hk' ▸ hdb'.realmOf hc'
  rcases mem_after hc' with hold | ⟨e, he, hnew⟩
  · -- the row is as it was
    left
    rw [hrealm', ← hk', hdb.realmOf hold]
    rfl
  · cases e with
    | insert new =>
      left
      have hsame := List.inj_on_of_nodup_map hdb'.collectionKey (mem_after_of_insert he hc) hc'
        (hk.trans hk'.symm)
      rw [hrealm', hrealm, hsame]
      rfl
    | delete old => cases hnew
    | update old new =>
      obtain rfl := Option.some.inj hnew
      by_cases htype : .accountCollectionType ∈ columns
      · have htrig := (bind_unit_eq_ok.mp (bind_unit_eq_ok.mp (hcheck _ he)).2).2
        rw [onUpdate, if_pos (decide_eq_true htype)] at htrig
        by_cases hnew : db.realmOfType new.accountCollectionType = none
        · by_cases hnone : db.realmOf k = none
          · exact .inl ((hrealm'.trans hnew).trans hnone.symm)
          · exact .inr (fine_of_not_liftsOneEnd hlift rfl hnone (hrealm'.trans hnew))
        · exact .inr (hk' ▸ fine_of_accountCollectionRealm hdb' hc' hnew htrig)
      · left
        obtain ⟨values, hvalues⟩ := exists_of_naming he
        have hsame : new.accountCollectionType = old.accountCollectionType := by
          rw [hvalues, AccountCollection.set, if_neg htype]
        rw [hrealm']
        show db.realmOfType new.accountCollectionType = _
        by_cases hid : new.accountCollectionId = old.accountCollectionId
        · rw [hsame, ← hk', hid, hdb.realmOf (old_mem he rfl)]
        · by_contra hne
          refine htake htype ⟨old, new, he, hid, c, hc, hk.trans hk'.symm, fun heq => hne ?_⟩
          rw [hsame, hrealm, heq]

/-! ## Types -/

/-- What the trigger on a type finds out, for each collection of the type. -/
theorem fine_of_accountCollectionTypeRealm (hdb : Constraints db) (hc : c ∈ db.accountCollection)
    (hvt : vt ∈ db.valAccountCollectionType)
    (htype : vt.accountCollectionType = c.accountCollectionType) (hrealm : vt.accountRealmId ≠ none)
    (h : accountCollectionTypeRealm db vt = .ok ()) : Fine db c.accountCollectionId := by
  obtain ⟨realm, hrealm⟩ := Option.ne_none_iff_exists'.mp hrealm
  have hfind : db.findType c.accountCollectionType = some vt := htype ▸ hdb.findType hvt
  have hof : db.typeOf c.accountCollectionId = some vt := by
    rw [Db.typeOf, hdb.findCollection hc, Option.bind_some, hfind]
  rw [accountCollectionTypeRealm, hrealm] at h
  obtain ⟨hmember, hhier⟩ := bind_unit_eq_ok.mp h
  constructor
  · intro realm' hrealm'
    rw [Db.realmOf, hof, Option.bind_some, hrealm] at hrealm'
    obtain rfl := Option.some.inj hrealm'
    exact fun hother => raiseIf_eq_ok.mp hmember ⟨c, hc, htype.symm, hother⟩
  · intro x hx hend
    obtain ⟨pat, hpat, hp⟩ := hdb.exists_typeOf (hdb.hierRef x hx).1
    obtain ⟨cat, hcat, hc'⟩ := hdb.exists_typeOf (hdb.hierRef x hx).2
    have hends : pat.accountCollectionType = vt.accountCollectionType ∨
        cat.accountCollectionType = vt.accountCollectionType := by
      rcases hend with heq | heq
      · rw [heq, hof] at hpat
        exact .inl (by rw [Option.some.inj hpat])
      · rw [heq, hof] at hcat
        exact .inr (by rw [Option.some.inj hcat])
    rw [hp, hc']
    by_contra hne
    refine raiseIf_eq_ok.mp hhier ⟨x, hx, pat, hpat, cat, hcat, hends, ?_⟩
    by_contra hboth
    obtain ⟨hpat', hcat'⟩ := not_or.mp hboth
    exact hne ((not_not.mp hpat').trans (not_not.mp hcat').symm)

theorem constraints_type {s : RowStatement CollectionType} (hdb : Constraints db)
    (h : execute db (.type typeColumns s) = .ok db') : Constraints db' := by
  obtain ⟨t, ht, h⟩ := bind_eq_ok.mp h
  obtain ⟨hcheck, h⟩ := bind_unit_eq_ok.mp h
  obtain rfl := Except.ok.inj h
  have hkey := nodup_execute (fun _ _ => checkUnique_ok) hdb.typeKey ht
  obtain rfl := execute_ok ht
  rw [forM_eq_ok] at hcheck
  refine { hdb with typeKey := hkey, collectionRef := fun c hc => ?_ }
  obtain ⟨vt, hvt, htype⟩ := hdb.collectionRef c hc
  rcases mem_or_old_of_mem hvt with hvt | ⟨e, he, hold⟩
  · exact ⟨vt, hvt, htype⟩
  · have hrefs := (bind_unit_eq_ok.mp (hcheck e he)).1
    rw [typeReferences, hold] at hrefs
    by_contra hnone
    refine raiseIf_eq_ok.mp hrefs ⟨fun vt' hvt' heq => ?_, c, hc, htype.symm⟩
    exact hnone ⟨vt', hvt', heq.trans htype⟩

theorem sound_type {s : RowStatement CollectionType} (hdb : Sound db)
    (hlift : Guarded db (.type typeColumns s))
    (h : execute db (.type typeColumns s) = .ok db') : Sound db' := by
  have hdb' := constraints_type hdb.toConstraints h
  obtain ⟨rfl, hcheck⟩ := execute_events_ok h
  refine ⟨hdb', respects_of_fine hdb hdb' rfl rfl rfl fun _ _ c hc k _ hk => ?_⟩
  subst hk
  obtain ⟨vt, hvt, htype⟩ := hdb'.collectionRef c hc
  have hrealm := (hdb'.realmOf hc).trans (htype ▸ hdb'.realmOfType hvt)
  rcases mem_after hvt with hold | ⟨e, he, hnew⟩
  · left
    rw [hrealm, hdb.realmOf hc, ← htype, hdb.realmOfType hold]
  · cases e with
    | insert new =>
      obtain ⟨vt', hvt', htype'⟩ := hdb.collectionRef c hc
      have hsame := List.inj_on_of_nodup_map hdb'.typeKey (mem_after_of_insert he hvt') hvt
        (htype'.trans htype.symm)
      left
      rw [hrealm, hdb.realmOf hc, ← htype', hdb.realmOfType hvt', hsame]
    | delete old => cases hnew
    | update old new =>
      obtain rfl := Option.some.inj hnew
      obtain ⟨htrig, hrename⟩ := bind_unit_eq_ok.mp (bind_unit_eq_ok.mp (hcheck _ he)).2
      obtain ⟨values, hvalues⟩ := exists_of_naming he
      -- no `UPDATE` of the name of a type goes through
      have hname : .accountCollectionType ∉ typeColumns := by
        intro hmem
        rw [onUpdate, if_pos (decide_eq_true hmem)] at hrename
        exact raise_ne_ok hrename
      have hsame : new.accountCollectionType = old.accountCollectionType := by
        rw [hvalues, CollectionType.set, if_neg hname]
      have hbefore : db.realmOf c.accountCollectionId = old.accountRealmId := by
        rw [hdb.realmOf hc, ← htype, hsame, hdb.realmOfType (old_mem he rfl)]
      by_cases hset : .accountRealmId ∈ typeColumns
      · rw [onUpdate, if_pos (decide_eq_true hset)] at htrig
        by_cases hnone : new.accountRealmId = none
        · by_cases hold : db.realmOf c.accountCollectionId = none
          · exact .inl ((hrealm.trans hnone).trans hold.symm)
          · exact .inr (fine_of_not_liftsOneEnd hlift rfl hold (hrealm.trans hnone))
        · exact .inr (fine_of_accountCollectionTypeRealm hdb' hc hvt htype hnone htrig)
      · left
        rw [hrealm, hbefore, hvalues, CollectionType.set, if_neg hset]

/-! ## Runs -/

theorem sound_step (hdb : Sound db) (hg : Guarded db s) : Sound (step db s) := by
  unfold step
  cases h : execute db s with
  | error e => exact hdb
  | ok db' =>
    show Sound db'
    cases s with
    | member s => exact sound_member hdb hg h
    | hier s => exact sound_hier hdb h
    | collection columns s => exact sound_collection hdb hg h
    | type columns s => exact sound_type hdb hg h
    | accountRealm set => exact sound_accountRealm hdb h

/-- Runs of statements that the triggers look at keep members and edges to the realms. -/
theorem respects_run (hdb : Sound db) {l : List Statement} (hl : AllSteps step Guarded db l) :
    Respects (run step db l) := by
  have hend : Sound (run step db l) :=
    run_invariant (fun db s hdb hs => sound_step hdb hs) hdb hl
  exact hend.toRespects

/-- A collection of realm 1 with a member, and one of realm 2. -/
def Db.twoRealms : Db where
  accountCollectionAccount := [⟨1, 1⟩]
  accountCollectionHier := []
  accountCollection := [⟨1, "one"⟩, ⟨2, "two"⟩]
  valAccountCollectionType := [⟨"one", some 1⟩, ⟨"two", some 2⟩]
  account := [⟨1, 1⟩]

theorem sound_twoRealms : Sound .twoRealms where
  collectionKey := by decide
  typeKey := by decide
  accountKey := by decide
  memberRef := by decide
  hierRef := by decide
  collectionRef := by decide
  member := by decide
  hier := by decide

/-- The type of the first collection is opened to all, and an account of realm 2 goes into it. -/
theorem respects_run_opened : Respects (run step .twoRealms
    [.type [.accountRealmId] (.update fun vt => if vt.accountCollectionType = "one" then
      some ⟨"one", none⟩ else none), .accountRealm fun _ => some 2]) := by
  refine respects_run sound_twoRealms ⟨?_, trivial, trivial⟩
  rintro ⟨h, hh, -⟩
  exact absurd hh List.not_mem_nil

/-- `UPDATE account_collection_account SET account_collection_id = 2`. -/
theorem moved_breaks : Sound .twoRealms ∧
    ¬ Respects (run step .twoRealms [.member (.update fun m => some ⟨2, m.accountId⟩)]) := by
  refine ⟨sound_twoRealms, fun hmoved => ?_⟩
  exact absurd (hmoved.member ⟨2, 1⟩ (by decide) 2 (by decide) ⟨1, 1⟩ (by decide) rfl) (by decide)

end JazzHands.Realm

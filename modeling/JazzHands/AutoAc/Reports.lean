import JazzHands.AutoAc.ReportCollections

/-!
# Who reports to whom, and with which collections

* `Named`, `AlreadyRight`: the properties of an account say what is so, and its collections are there
  when they should be.
-/

namespace JazzHands.AutoAc

open Library Postgres

/-- The keys of the tables, and that the two properties are not multivalue. -/
structure Constraints (db : Db) : Prop where
  accountKey : (db.account.map (·.accountId)).Nodup
  loginKey : (db.account.map fun a => (a.accountRealmId, a.login)).Nodup
  companyKey : (db.personCompany.map fun pc => (pc.companyId, pc.personId)).Nodup
  nameKey : (db.accountCollection.map fun ac =>
    (ac.accountCollectionName, ac.accountCollectionType)).Nodup
  collectionKey : (db.accountCollection.map (·.accountCollectionId)).Nodup
  fresh : ∀ ac ∈ db.accountCollection, ac.accountCollectionId < db.accountCollectionSeq
  propertyRef : ∀ p ∈ db.property, ∀ c, p.propertyValueAccountCollectionId = some c →
    ∃ ac ∈ db.accountCollection, ac.accountCollectionId = c
  propertyKey : db.property.Pairwise fun p q => ∀ acType a, p.IsFor acType a → ¬ q.IsFor acType a
  hierRef : ∀ h ∈ db.accountCollectionHier,
    (∃ ac ∈ db.accountCollection, ac.accountCollectionId = h.accountCollectionId) ∧
      ∃ ac ∈ db.accountCollection, ac.accountCollectionId = h.childAccountCollectionId

/-- Both accounts are enabled and of employees, and one has the other for a manager. -/
def Reports (db : Db) (r a : Account) : Prop :=
  ∃ p ∈ peeps db, p.account = r ∧ ∃ m ∈ peeps db, m.account = a ∧ p.ReportsTo m

def HasReports (db : Db) (a : Account) : Prop := ∃ r, Reports db r a

def HasReportsWithReports (db : Db) (a : Account) : Prop := ∃ r, Reports db r a ∧ HasReports db r

/-- The account collection of the account: it has the name, and an active property says so. -/
def IsAc (db : Db) (a : Account) (acType : AcType) (c : ℕ) : Prop :=
  (∃ ac ∈ db.accountCollection, ac.accountCollectionId = c ∧ ac.IsNamed a acType) ∧
    IsValue db a acType c

/-- The roll-up collection of the account, or that of its directs where there is none. -/
def IsRollupOrDirects (db : Db) (a : Account) (c : ℕ) : Prop :=
  IsAc db a .rollups c ∨ (¬ ∃ c', IsAc db a .rollups c') ∧ IsAc db a .directs c

/-- The properties of an account say what is so. -/
def Named (db : Db) (r : Account) : Prop := ∀ acType c, IsValue db r acType c → IsAc db r acType c

structure AlreadyRight (db : Db) (r : Account) : Prop where
  named : ∀ acType c, IsValue db r acType c → IsAc db r acType c
  directs : (∃ c, IsAc db r .directs c) ↔ HasReports db r
  rollups : (∃ c, IsAc db r .rollups c) ↔ HasReportsWithReports db r

variable {db db' : Db} {a b r : Account} {p m : Peep} {acType acType' : AcType} {c c' k x : ℕ}
  {rs ms : List Peep} {row : Agg}

/-! ## Reports -/

theorem mem_employees (h : p ∈ employees db) : p.account ∈ db.account := by
  obtain ⟨a, ha, hp⟩ := List.mem_flatMap.mp h
  split at hp
  · obtain ⟨pc, -, rfl⟩ := List.mem_map.mp hp
    exact ha
  · cases hp

theorem mem_peeps : p ∈ peeps db ↔ p ∈ employees db ∧ p.account.isEnabled = true := List.mem_filter

theorem pairwise_employees (hdb : Constraints db) :
    (employees db).Pairwise fun p m => p.account ≠ m.account := by
  refine List.pairwise_flatMap.mpr ⟨fun a _ => ?_, (List.pairwise_map.mp hdb.accountKey).imp ?_⟩
  · split
    · refine List.pairwise_map.mpr (((List.pairwise_map.mp hdb.companyKey).filter _).imp_of_mem ?_)
      intro pc pc' hpc hpc' hne
      have hpc := of_decide_eq_true (List.mem_filter.mp hpc).2
      have hpc' := of_decide_eq_true (List.mem_filter.mp hpc').2
      exact absurd (Prod.ext (hpc.2.1.trans hpc'.2.1.symm) (hpc.1.trans hpc'.1.symm)) hne
    · exact List.Pairwise.nil
  · intro a a' hne p hp m hm
    have haccount : ∀ {a : Account} {p : Peep}, p ∈ (if a.accountRole = "primary" ∧
        a.accountType = "person" then (db.personCompany.filter fun pc => pc.personId = a.personId ∧
          pc.companyId = a.companyId ∧ pc.personCompanyRelation = "employee").map fun pc =>
            ⟨a, pc.managerPersonId⟩ else []) → p.account = a := by
      intro a p hp
      split at hp
      · obtain ⟨pc, -, rfl⟩ := List.mem_map.mp hp
        rfl
      · cases hp
    rw [haccount hp, haccount hm]
    exact fun heq => hne (congrArg Account.accountId heq)

theorem mem_pairs : (p, m) ∈ pairs rs ms ↔ p ∈ rs ∧ m ∈ ms ∧ p.ReportsTo m := by
  simp only [pairs, List.mem_flatMap, List.mem_map, List.mem_filter, Prod.mk.injEq,
    decide_eq_true_eq]
  constructor
  · rintro ⟨m', hm, p', ⟨hp, hto⟩, rfl, rfl⟩
    exact ⟨hp, hm, hto⟩
  · rintro ⟨hp, hm, hto⟩
    exact ⟨m, hm, p, ⟨hp, hto⟩, rfl, rfl⟩

theorem pairwise_pairs (hrs : rs.Pairwise fun p m => p.account ≠ m.account)
    (hms : ms.Pairwise fun p m => p.account ≠ m.account) :
    (pairs rs ms).Pairwise fun x y => x.1.account ≠ y.1.account ∨ x.2.account ≠ y.2.account := by
  refine List.pairwise_flatMap.mpr ⟨fun m _ => ?_, hms.imp ?_⟩
  · exact List.pairwise_map.mpr ((hrs.filter _).imp .inl)
  · intro m m' hne x hx y hy
    obtain ⟨p, -, rfl⟩ := List.mem_map.mp hx
    obtain ⟨p', -, rfl⟩ := List.mem_map.mp hy
    exact .inr hne

theorem Constraints.eq_of_accountId (hdb : Constraints db) (ha : a ∈ db.account)
    (hb : b ∈ db.account) (h : a.accountId = b.accountId) : a = b :=
  List.inj_on_of_nodup_map hdb.accountKey ha hb h

theorem Reports.mem_account (h : Reports db r a) : r ∈ db.account := by
  obtain ⟨p, hp, rfl, -⟩ := h
  exact mem_employees (mem_peeps.mp hp).1

theorem reports_of_pair (h : (p, m) ∈ pairs (peeps db) (peeps db)) :
    Reports db p.account m.account := by
  obtain ⟨hp, hm, hto⟩ := mem_pairs.mp h
  exact ⟨p, hp, rfl, m, hm, rfl, hto⟩

theorem getNumDirectReports_eq_zero (hdb : Constraints db) (ha : a ∈ db.account) :
    getNumDirectReports db a = 0 ↔ ¬ HasReports db a := by
  rw [getNumDirectReports, List.length_eq_zero_iff, List.filter_eq_nil_iff]
  constructor
  · rintro hnone ⟨r, p, hp, rfl, m, hm, rfl, hto⟩
    exact hnone (p, m) (mem_pairs.mpr ⟨hp, hm, hto⟩) (decide_eq_true ⟨rfl, rfl⟩)
  · rintro hnone ⟨p, m⟩ hx hid
    obtain ⟨-, hm, -⟩ := mem_pairs.mp hx
    have hm' := mem_employees (mem_peeps.mp hm).1
    have heq := hdb.eq_of_accountId hm' ha (of_decide_eq_true hid).1
    exact hnone ⟨p.account, heq ▸ reports_of_pair hx⟩

theorem mem_directMembers (hdb : Constraints db) (ha : a ∈ db.account)
    (henabled : a.isEnabled = true) : x ∈ directMembers db a ↔
      x = a.accountId ∨ ∃ r, Reports db r a ∧ r.accountId = x := by
  rw [directMembers, List.mem_dedup, List.mem_append, henabled, or_comm]
  refine or_congr List.mem_singleton ?_
  rw [List.mem_map]
  constructor
  · rintro ⟨⟨p, m⟩, hx, rfl⟩
    obtain ⟨hx, hid⟩ := List.mem_filter.mp hx
    have hm := mem_employees (mem_peeps.mp (mem_pairs.mp hx).2.1).1
    have heq := hdb.eq_of_accountId hm ha (of_decide_eq_true hid)
    exact ⟨p.account, heq ▸ reports_of_pair hx, rfl⟩
  · rintro ⟨r, ⟨p, hp, rfl, m, hm, rfl, hto⟩, rfl⟩
    exact ⟨(p, m), List.mem_filter.mpr ⟨mem_pairs.mpr ⟨hp, hm, hto⟩, decide_eq_true rfl⟩, rfl⟩

/-! ## The ranked rows -/

theorem mem_agg : row ∈ agg db rs ms ↔ ∃ p m, (p, m) ∈ pairs rs ms ∧ ∃ acType c,
    IsValue db p.account acType c ∧
      row = ⟨p.account.accountId, m.account.accountId, acType.text, c⟩ := by
  simp only [agg, List.mem_flatMap, List.mem_filterMap]
  constructor
  · rintro ⟨⟨p, m⟩, hx, q, hq, hrow⟩
    split at hrow
    · next hq' =>
      obtain ⟨c, hc, rfl⟩ := Option.map_eq_some_iff.mp hrow
      obtain ⟨hactive, hfor | hfor⟩ := hq'
      · exact ⟨p, m, hx, .directs, c, ⟨q, hq, hactive, hfor, hc⟩, by rw [← hfor.1]⟩
      · exact ⟨p, m, hx, .rollups, c, ⟨q, hq, hactive, hfor, hc⟩, by rw [← hfor.1]⟩
    · cases hrow
  · rintro ⟨p, m, hx, acType, c, ⟨q, hq, hactive, hfor, hc⟩, rfl⟩
    have hkind : q.IsFor .directs p.account ∨ q.IsFor .rollups p.account := by
      cases acType with
      | directs => exact .inl hfor
      | rollups => exact .inr hfor
    refine ⟨(p, m), hx, q, hq, ?_⟩
    rw [if_pos ⟨hactive, hkind⟩, hc, hfor.1]
    rfl

theorem text_lt : acType.text < acType'.text ↔ acType = .directs ∧ acType' = .rollups := by
  cases acType <;> cases acType' <;> decide

/-- Rows for roll-ups come first, and rows for directs where there are no others. -/
theorem mem_rankedFirst (hdb : Constraints db) (hrs : ∀ p ∈ rs, p ∈ employees db) :
    row ∈ rankedFirst (agg db rs ms) ↔ ∃ p m, (p, m) ∈ pairs rs ms ∧ ∃ acType c,
      IsValue db p.account acType c ∧
        (acType = .rollups ∨ ¬ ∃ c', IsValue db p.account .rollups c') ∧
          row = ⟨p.account.accountId, m.account.accountId, acType.text, c⟩ := by
  rw [rankedFirst, List.mem_filter, mem_agg, decide_eq_true_eq]
  constructor
  · rintro ⟨⟨p, m, hx, acType, c, hvalue, rfl⟩, hfirst⟩
    refine ⟨p, m, hx, acType, c, hvalue, ?_, rfl⟩
    by_contra hnot
    obtain ⟨hkind, hc'⟩ := not_or.mp hnot
    obtain ⟨c', hvalue'⟩ := not_not.mp hc'
    have hdirects : acType = .directs := by
      cases acType with
      | directs => rfl
      | rollups => exact absurd rfl hkind
    exact hfirst _ (mem_agg.mpr ⟨p, m, hx, .rollups, c', hvalue', rfl⟩) rfl
      (text_lt.mpr ⟨hdirects, rfl⟩)
  · rintro ⟨p, m, hx, acType, c, hvalue, hkind, rfl⟩
    refine ⟨⟨p, m, hx, acType, c, hvalue, rfl⟩, fun y hy hid hlt => ?_⟩
    obtain ⟨p', m', hx', acType', c', hvalue', rfl⟩ := mem_agg.mp hy
    obtain ⟨rfl, rfl⟩ := text_lt.mp hlt
    have hmem := mem_employees (hrs p (mem_pairs.mp hx).1)
    have hmem' := mem_employees (hrs p' (mem_pairs.mp hx').1)
    rw [hdb.eq_of_accountId hmem' hmem hid] at hvalue'
    rcases hkind with hkind | hkind
    · cases hkind
    · exact hkind ⟨c', hvalue'⟩

theorem getNumReportsWithReports_eq_zero (hdb : Constraints db) (ha : a ∈ db.account)
    (henabled : a.isEnabled = true) : getNumReportsWithReports db a = 0 ↔
      ¬ ∃ r acType c, Reports db r a ∧ IsValue db r acType c := by
  rw [getNumReportsWithReports, List.length_eq_zero_iff, List.filter_eq_nil_iff]
  have hrs : ∀ p ∈ ((employees db).filter fun m => m.account.accountRealmId = a.accountRealmId).filter
      (·.account.isEnabled), p ∈ employees db :=
    fun p hp => (List.mem_filter.mp (List.mem_filter.mp hp).1).1
  constructor
  · rintro hnone ⟨r, acType, c, ⟨p, hp, rfl, m, hm, rfl, hto⟩, hvalue⟩
    obtain ⟨hp, hpe⟩ := mem_peeps.mp hp
    obtain ⟨hm, -⟩ := mem_peeps.mp hm
    have hx : (p, m) ∈ pairs (((employees db).filter fun m' =>
        m'.account.accountRealmId = m.account.accountRealmId).filter (·.account.isEnabled))
          ((employees db).filter fun m' => m'.account.accountRealmId = m.account.accountRealmId) := by
      refine mem_pairs.mpr ⟨List.mem_filter.mpr ⟨List.mem_filter.mpr ⟨hp, ?_⟩, hpe⟩,
        List.mem_filter.mpr ⟨hm, decide_eq_true rfl⟩, hto⟩
      exact decide_eq_true hto.2.symm
    by_cases hrollups : ∃ c', IsValue db p.account .rollups c'
    · obtain ⟨c', hvalue'⟩ := hrollups
      exact hnone _ ((mem_rankedFirst hdb hrs).mpr
        ⟨p, m, hx, .rollups, c', hvalue', .inl rfl, rfl⟩) (decide_eq_true rfl)
    · exact hnone _ ((mem_rankedFirst hdb hrs).mpr
        ⟨p, m, hx, acType, c, hvalue, .inr hrollups, rfl⟩) (decide_eq_true rfl)
  · intro hnone row hrow hid
    obtain ⟨p, m, hx, acType, c, hvalue, -, rfl⟩ := (mem_rankedFirst hdb hrs).mp hrow
    obtain ⟨hp, hm, hto⟩ := mem_pairs.mp hx
    obtain ⟨hp, hpe⟩ := List.mem_filter.mp hp
    have hm := (List.mem_filter.mp hm).1
    have heq := hdb.eq_of_accountId (mem_employees hm) ha (of_decide_eq_true hid)
    refine hnone ⟨p.account, acType, c, ⟨p, mem_peeps.mpr ⟨(List.mem_filter.mp hp).1, hpe⟩, rfl, m,
      mem_peeps.mpr ⟨hm, ?_⟩, heq, hto⟩, hvalue⟩
    rw [heq, henabled]

theorem Named.isValue_iff (hr : Named db r) : IsValue db r acType c ↔ IsAc db r acType c :=
  ⟨hr _ _, fun h => h.2⟩

theorem mem_rollupChildren (hdb : Constraints db) (ha : a ∈ db.account)
    (hnamed : ∀ r, Reports db r a → Named db r) :
    k ∈ rollupChildren db a ↔ ∃ r, Reports db r a ∧ IsRollupOrDirects db r k := by
  have hrs : ∀ p ∈ peeps db, p ∈ employees db := fun p hp => (mem_peeps.mp hp).1
  rw [rollupChildren, List.mem_map]
  constructor
  · rintro ⟨row, hrow, rfl⟩
    obtain ⟨hrow, hid⟩ := List.mem_filter.mp hrow
    obtain ⟨p, m, hx, acType, c, hvalue, hkind, rfl⟩ := (mem_rankedFirst hdb hrs).mp hrow
    have hm := mem_employees (hrs m (mem_pairs.mp hx).2.1)
    have heq := hdb.eq_of_accountId hm ha (of_decide_eq_true hid)
    have hreports : Reports db p.account a := heq ▸ reports_of_pair hx
    simp only [(hnamed _ hreports).isValue_iff] at hvalue hkind
    refine ⟨p.account, hreports, ?_⟩
    cases acType with
    | directs => exact .inr ⟨hkind.resolve_left (fun h => by cases h), hvalue⟩
    | rollups => exact .inl hvalue
  · rintro ⟨r, hreports, hchild⟩
    have hvalue : IsValue db r .rollups k ∨
        (¬ ∃ k', IsValue db r .rollups k') ∧ IsValue db r .directs k := by
      simpa only [(hnamed r hreports).isValue_iff, IsRollupOrDirects] using hchild
    obtain ⟨p, hp, rfl, m, hm, rfl, hto⟩ := hreports
    have hx := mem_pairs.mpr ⟨hp, hm, hto⟩
    rcases hvalue with hvalue | ⟨hnone, hvalue⟩
    · exact ⟨_, List.mem_filter.mpr ⟨(mem_rankedFirst hdb hrs).mpr
        ⟨p, m, hx, .rollups, k, hvalue, .inl rfl, rfl⟩, decide_eq_true rfl⟩, rfl⟩
    · exact ⟨_, List.mem_filter.mpr ⟨(mem_rankedFirst hdb hrs).mpr
        ⟨p, m, hx, .directs, k, hvalue, .inr hnone, rfl⟩, decide_eq_true rfl⟩, rfl⟩

/-! ## No collection is linked twice -/

theorem acname_inj (h : acname a acType = acname b acType') :
    a.login = b.login ∧ acType = acType' := by
  have hlist := congrArg String.toList h
  have hlast := congrArg List.getLast? hlist
  cases acType <;> cases acType' <;> simp only [acname, String.toList_append] at hlist hlast
  · exact ⟨String.toList_inj.mp (List.append_cancel_right hlist), rfl⟩
  · simp at hlast
  · simp at hlast
  · exact ⟨String.toList_inj.mp (List.append_cancel_right hlist), rfl⟩

theorem IsAc.exists_mem (h : IsAc db a acType c) :
    ∃ ac ∈ db.accountCollection, ac.accountCollectionId = c := by
  obtain ⟨⟨ac, hac, hid, -⟩, -⟩ := h
  exact ⟨ac, hac, hid⟩

theorem IsAc.eq (hdb : Constraints db) (h : IsAc db a acType c) (h' : IsAc db a acType c') :
    c = c' := by
  obtain ⟨⟨ac, hac, rfl, hnamed⟩, -⟩ := h
  obtain ⟨⟨ac', hac', rfl, hnamed'⟩, -⟩ := h'
  have hkey : ac = ac' := List.inj_on_of_nodup_map hdb.nameKey hac hac'
    (Prod.ext (hnamed.1.trans hnamed'.1.symm) (hnamed.2.trans hnamed'.2.symm))
  rw [hkey]

theorem IsAc.name_eq (hdb : Constraints db) (h : IsAc db a acType c) (h' : IsAc db b acType' c) :
    a.login = b.login ∧ acType = acType' := by
  obtain ⟨⟨ac, hac, hid, hnamed⟩, -⟩ := h
  obtain ⟨⟨ac', hac', hid', hnamed'⟩, -⟩ := h'
  have hkey : ac = ac' := List.inj_on_of_nodup_map hdb.collectionKey hac hac' (hid.trans hid'.symm)
  subst hkey
  exact acname_inj (hnamed.1.symm.trans hnamed'.1)

theorem Constraints.eq_of_login (hdb : Constraints db) (ha : a ∈ db.account)
    (hb : b ∈ db.account) (hrealm : a.accountRealmId = b.accountRealmId)
    (hlogin : a.login = b.login) : a = b :=
  List.inj_on_of_nodup_map hdb.loginKey ha hb (Prod.ext hrealm hlogin)

theorem Reports.realm_eq (h : Reports db r a) : r.accountRealmId = a.accountRealmId := by
  obtain ⟨p, -, rfl, m, -, rfl, hto⟩ := h
  exact hto.2.symm

theorem text_inj (h : acType.text = acType'.text) : acType = acType' := by
  revert h
  cases acType <;> cases acType' <;> decide

theorem pairwise_agg (hdb : Constraints db) (hrs : ∀ p ∈ rs, p ∈ employees db)
    (hms : ∀ m ∈ ms, m ∈ employees db) (hrs' : rs.Pairwise fun p m => p.account ≠ m.account)
    (hms' : ms.Pairwise fun p m => p.account ≠ m.account) :
    (agg db rs ms).Pairwise fun x y => ¬ (x.accountId = y.accountId ∧
      x.managerAccountId = y.managerAccountId ∧ x.propertyName = y.propertyName) := by
  refine List.pairwise_flatMap.mpr ⟨?_, (pairwise_pairs hrs' hms').imp_of_mem ?_⟩
  · rintro ⟨p, m⟩ -
    refine List.pairwise_filterMap.mpr (hdb.propertyKey.imp ?_)
    intro q q' hne x hx y hy hsame
    split at hx
    · next hq =>
      split at hy
      · next hq' =>
        obtain ⟨c, -, rfl⟩ := Option.map_eq_some_iff.mp hx
        obtain ⟨c', -, rfl⟩ := Option.map_eq_some_iff.mp hy
        have hname : q.propertyName = q'.propertyName := hsame.2.2
        rcases hq.2 with h | h
        · exact hne .directs _ h ⟨hname ▸ h.1, (hq'.2.elim (·.2) (·.2))⟩
        · exact hne .rollups _ h ⟨hname ▸ h.1, (hq'.2.elim (·.2) (·.2))⟩
      · cases hy
    · cases hx
  · rintro ⟨p, m⟩ ⟨p', m'⟩ hx hx' hne row hrow row' hrow' ⟨hid, hmanager, -⟩
    obtain ⟨q, -, hq⟩ := List.mem_filterMap.mp hrow
    obtain ⟨q', -, hq'⟩ := List.mem_filterMap.mp hrow'
    split at hq
    · split at hq'
      · obtain ⟨c, -, rfl⟩ := Option.map_eq_some_iff.mp hq
        obtain ⟨c', -, rfl⟩ := Option.map_eq_some_iff.mp hq'
        obtain ⟨hp, hm, -⟩ := mem_pairs.mp hx
        obtain ⟨hp', hm', -⟩ := mem_pairs.mp hx'
        rcases hne with hne | hne
        · exact hne (hdb.eq_of_accountId (mem_employees (hrs p hp)) (mem_employees (hrs p' hp'))
            hid)
        · exact hne (hdb.eq_of_accountId (mem_employees (hms m hm)) (mem_employees (hms m' hm'))
            hmanager)
      · cases hq'
    · cases hq

theorem nodup_rollupChildren (hdb : Constraints db) (ha : a ∈ db.account)
    (hnamed : ∀ r, Reports db r a → Named db r) : (rollupChildren db a).Nodup := by
  have hrs : ∀ p ∈ peeps db, p ∈ employees db := fun p hp => (mem_peeps.mp hp).1
  have hpeeps : (peeps db).Pairwise fun p m => p.account ≠ m.account :=
    (pairwise_employees hdb).filter _
  refine List.pairwise_map.mpr ((((pairwise_agg hdb hrs hrs hpeeps hpeeps).filter _).filter
    _).imp_of_mem ?_)
  intro row row' hrow hrow' hne hc
  obtain ⟨hrow, hid⟩ := List.mem_filter.mp hrow
  obtain ⟨hrow', hid'⟩ := List.mem_filter.mp hrow'
  obtain ⟨p, m, hx, acType, c, hvalue, -, rfl⟩ := (mem_rankedFirst hdb hrs).mp hrow
  obtain ⟨p', m', hx', acType', c', hvalue', -, rfl⟩ := (mem_rankedFirst hdb hrs).mp hrow'
  have hm := hdb.eq_of_accountId (mem_employees (hrs m (mem_pairs.mp hx).2.1)) ha
    (of_decide_eq_true hid)
  have hm' := hdb.eq_of_accountId (mem_employees (hrs m' (mem_pairs.mp hx').2.1)) ha
    (of_decide_eq_true hid')
  have hreports : Reports db p.account a := hm ▸ reports_of_pair hx
  have hreports' : Reports db p'.account a := hm' ▸ reports_of_pair hx'
  cases hc
  obtain ⟨hlogin, rfl⟩ := (hnamed _ hreports _ _ hvalue).name_eq hdb
    (hnamed _ hreports' _ _ hvalue')
  have heq := hdb.eq_of_login hreports.mem_account hreports'.mem_account
    (hreports.realm_eq.trans hreports'.realm_eq.symm) hlogin
  exact hne ⟨congrArg Account.accountId heq, by rw [hm, hm'], rfl⟩

end JazzHands.AutoAc

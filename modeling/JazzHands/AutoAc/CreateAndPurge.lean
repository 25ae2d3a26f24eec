import JazzHands.AutoAc.Reports

/-!
# Creating and purging one collection

`SameBut` frames both functions: all is as before but for the collection of one account for one
purpose.  `findOrCreate_spec` adds what that collection is like.
-/

namespace JazzHands.AutoAc

open Library Postgres

/-- The tables differ in the collection of the account for the purpose only. -/
structure SameBut (a : Account) (acType : AcType) (db db' : Db) : Prop where
  account : db'.account = db.account
  personCompany : db'.personCompany = db.personCompany
  isValue : ∀ r ∈ db.account, ∀ acType' c, (r, acType') ≠ (a, acType) →
    (IsValue db' r acType' c ↔ IsValue db r acType' c)
  isAc : ∀ r ∈ db.account, ∀ acType' c, (r, acType') ≠ (a, acType) →
    (IsAc db' r acType' c ↔ IsAc db r acType' c)

/-- No other row refers to the collections. -/
def Clean (db : Db) (a : Account) (acType : AcType) : Prop :=
  ∀ c ∈ purgedCollections db a acType, c ∉ db.references ∧
    ∀ q ∈ db.property, q.propertyValueAccountCollectionId = some c → q.IsFor acType a

/-- Neither the name, but by a collection that is gone then, nor the property is taken. -/
def Free (db : Db) (a : Account) (acType : AcType) (gone : List ℕ) : Prop :=
  (∀ ac ∈ db.accountCollection, ac.IsNamed a acType → ac.accountCollectionId ∈ gone) ∧
    ∀ q ∈ db.property, ¬ q.IsFor acType a

def Ready (db : Db) (a : Account) (acType : AcType) (gone : List ℕ) : Prop :=
  (∃ c, IsAc db a acType c) ∨ Free db a acType gone

variable {db db' : Db} {a b r : Account} {acType acType' : AcType} {c c' k x : ℕ} {q : Property}
  {gone : List ℕ}

theorem isFor_eq (ha : q.IsFor acType a) (hb : q.IsFor acType' b) :
    acType = acType' ∧ a.accountId = b.accountId :=
  ⟨text_inj (ha.1.symm.trans hb.1), Option.some.inj (ha.2.2.1.symm.trans hb.2.2.1)⟩

theorem Constraints.not_isFor (hdb : Constraints db) (ha : a ∈ db.account) (hr : r ∈ db.account)
    (hne : (r, acType') ≠ (a, acType)) (h : q.IsFor acType' r) : ¬ q.IsFor acType a := by
  intro h'
  obtain ⟨rfl, hid⟩ := isFor_eq h h'
  rw [hdb.eq_of_accountId hr ha hid] at hne
  exact hne rfl

/-! ## What else there is -/

namespace SameBut

section

variable (h : SameBut a acType db db')
include h

theorem peeps_eq : peeps db' = peeps db := by
  unfold peeps employees
  rw [h.account, h.personCompany]

theorem reports_iff : Reports db' r b ↔ Reports db r b := by
  unfold Reports
  rw [h.peeps_eq]

theorem hasReports_iff : HasReports db' b ↔ HasReports db b :=
  exists_congr fun _ => h.reports_iff

theorem hasReportsWithReports_iff : HasReportsWithReports db' b ↔ HasReportsWithReports db b :=
  exists_congr fun _ => and_congr h.reports_iff h.hasReports_iff

theorem alreadyRight (hr : r ∈ db.account) (hne : r ≠ a) (hright : AlreadyRight db r) :
    AlreadyRight db' r := by
  have hother : ∀ k, (r, k) ≠ (a, acType) := fun k heq => hne (congrArg Prod.fst heq)
  refine ⟨fun k c hvalue => ?_, ?_, ?_⟩
  · exact (h.isAc r hr k c (hother k)).mpr (hright.named k c
      ((h.isValue r hr k c (hother k)).mp hvalue))
  · simpa only [h.isAc r hr _ _ (hother _), h.hasReports_iff] using hright.directs
  · simpa only [h.isAc r hr _ _ (hother _), h.hasReportsWithReports_iff] using hright.rollups

end

end SameBut

theorem SameBut.isRollupOrDirects_iff (h : SameBut a acType db db') (hr : r ∈ db.account) (hne : r ≠ a) :
    IsRollupOrDirects db' r x ↔ IsRollupOrDirects db r x := by
  have hother : ∀ k, (r, k) ≠ (a, acType) := fun k heq => hne (congrArg Prod.fst heq)
  simp only [IsRollupOrDirects, h.isAc r hr _ _ (hother _)]

/-! ## The purge -/

theorem purge_eq_ok : purgeReportAccountCollection db a acType = .ok db' ↔
    Clean db a acType ∧ db' = purged db a acType := by
  simp only [purgeReportAccountCollection, bind_unit_eq_ok, raiseIf_eq_ok, Except.ok.injEq]
  refine and_congr ?_ eq_comm
  have hmem : ∀ q, q ∈ (purged db a acType).property ↔ q ∈ db.property ∧ ¬ q.IsFor acType a := by
    intro q
    exact List.mem_filter.trans (and_congr_right fun _ => decide_eq_true_iff)
  constructor
  · intro h c hc
    by_contra hnot
    obtain href | href := not_and_or.mp hnot
    · exact h ⟨c, hc, .inl (not_not.mp href)⟩
    · push Not at href
      obtain ⟨q, hq, hvalue, hfor⟩ := href
      exact h ⟨c, hc, .inr ⟨q, (hmem q).mpr ⟨hq, hfor⟩, hvalue⟩⟩
  · rintro h ⟨c, hc, href | ⟨q, hq, hvalue⟩⟩
    · exact (h c hc).1 href
    · exact ((hmem q).mp hq).2 ((h c hc).2 q ((hmem q).mp hq).1 hvalue)

theorem isValue_purged (hdb : Constraints db) (ha : a ∈ db.account) (hr : r ∈ db.account)
    (hne : (r, acType') ≠ (a, acType)) :
    IsValue (purged db a acType) r acType' c ↔ IsValue db r acType' c := by
  constructor
  · rintro ⟨q, hq, h⟩
    exact ⟨q, (List.mem_filter.mp hq).1, h⟩
  · rintro ⟨q, hq, hactive, hfor, hvalue⟩
    exact ⟨q, List.mem_filter.mpr ⟨hq, decide_eq_true (hdb.not_isFor ha hr hne hfor)⟩, hactive,
      hfor, hvalue⟩

theorem not_isFor_purged : ∀ q ∈ (purged db a acType).property, ¬ q.IsFor acType a :=
  fun _ hq => of_decide_eq_true (List.mem_filter.mp hq).2

theorem not_isAc_of_not_isFor (h : ∀ q ∈ db.property, ¬ q.IsFor acType a) :
    ¬ ∃ c, IsAc db a acType c := by
  rintro ⟨c, -, q, hq, -, hfor, -⟩
  exact h q hq hfor

theorem sameBut_purged (hdb : Constraints db) (ha : a ∈ db.account) (hclean : Clean db a acType) :
    SameBut a acType db (purged db a acType) := by
  refine ⟨rfl, rfl, fun r hr k c hne => isValue_purged hdb ha hr hne, fun r hr k c hne => ?_⟩
  constructor
  · rintro ⟨⟨ac, hac, h⟩, hvalue⟩
    exact ⟨⟨ac, (List.mem_filter.mp hac).1, h⟩, (isValue_purged hdb ha hr hne).mp hvalue⟩
  · rintro ⟨⟨ac, hac, rfl, hnamed⟩, hvalue⟩
    obtain ⟨q, hq, -, hfor, hc⟩ := id hvalue
    refine ⟨⟨ac, List.mem_filter.mpr ⟨hac, decide_eq_true fun hgone => ?_⟩, rfl, hnamed⟩,
      (isValue_purged hdb ha hr hne).mpr hvalue⟩
    exact hdb.not_isFor ha hr hne hfor ((hclean _ hgone).2 q hq hc)

theorem constraints_purged (hdb : Constraints db) (hclean : Clean db a acType) :
    Constraints (purged db a acType) where
  accountKey := hdb.accountKey
  loginKey := hdb.loginKey
  companyKey := hdb.companyKey
  nameKey := hdb.nameKey.sublist (List.filter_sublist.map _)
  collectionKey := hdb.collectionKey.sublist (List.filter_sublist.map _)
  fresh := fun ac hac => hdb.fresh ac (List.mem_filter.mp hac).1
  propertyRef := fun q hq c hc => by
    obtain ⟨ac, hac, rfl⟩ := hdb.propertyRef q (List.mem_filter.mp hq).1 c hc
    refine ⟨ac, List.mem_filter.mpr ⟨hac, decide_eq_true fun hgone => ?_⟩, rfl⟩
    exact not_isFor_purged q hq ((hclean _ hgone).2 q (List.mem_filter.mp hq).1 hc)
  propertyKey := hdb.propertyKey.filter _
  hierRef := fun h hh => by
    obtain ⟨hh, hkept⟩ := List.mem_filter.mp hh
    obtain ⟨hparent, hchild⟩ := not_or.mp (of_decide_eq_true hkept)
    obtain ⟨⟨p, hp, hpid⟩, x, hx, hxid⟩ := hdb.hierRef h hh
    exact ⟨⟨p, List.mem_filter.mpr ⟨hp, decide_eq_true (hpid ▸ hparent)⟩, hpid⟩,
      x, List.mem_filter.mpr ⟨hx, decide_eq_true (hxid ▸ hchild)⟩, hxid⟩

theorem purge_of_not_isFor (h : ∀ q ∈ db.property, ¬ q.IsFor acType a) :
    purgeReportAccountCollection db a acType = .ok db := by
  have hnone : purgedCollections db a acType = [] := by
    rw [purgedCollections, List.filter_eq_nil_iff.mpr fun q hq => by simpa using h q hq,
      List.filterMap_nil]
  have hclean : Clean db a acType := by
    intro c hc
    rw [hnone] at hc
    cases hc
  have hsame : purged db a acType = db := by
    have hproperty : db.property.filter (fun q => ¬ q.IsFor acType a) = db.property :=
      List.filter_eq_self.mpr fun q hq => decide_eq_true (h q hq)
    simp only [purged, hnone, hproperty]
    simp
  exact purge_eq_ok.mpr ⟨hclean, hsame.symm⟩

theorem ready_purged (hdb : Constraints db) (ha : a ∈ db.account) (hclean : Clean db a acType)
    (hne : acType' ≠ acType) : Ready (purged db a acType) a acType' [] ↔
      Ready db a acType' (purgedCollections db a acType) := by
  have hother : (a, acType') ≠ (a, acType) := fun heq => hne (congrArg Prod.snd heq)
  refine or_congr (exists_congr fun c => (sameBut_purged hdb ha hclean).isAc a ha _ c hother)
    (and_congr ?_ ?_)
  · constructor
    · intro h ac hac hnamed
      by_contra hkept
      cases h ac (List.mem_filter.mpr ⟨hac, decide_eq_true hkept⟩) hnamed
    · intro h ac hac hnamed
      obtain ⟨hac, hkept⟩ := List.mem_filter.mp hac
      exact absurd (h ac hac hnamed) (of_decide_eq_true hkept)
  · constructor
    · intro h q hq hfor
      exact h q (List.mem_filter.mpr ⟨hq, decide_eq_true (hdb.not_isFor ha ha hother hfor)⟩) hfor
    · intro h q hq
      exact h q (List.mem_filter.mp hq).1

/-! ## The creation -/

theorem findOrCreate_of_isAc (hdb : Constraints db) (h : IsAc db a acType c) :
    findOrCreateAutomatedAc db a acType = .ok (c, db) := by
  obtain ⟨⟨ac, hac, rfl, hnamed⟩, hvalue⟩ := h
  unfold findOrCreateAutomatedAc
  split
  · next ac' hfind =>
    obtain ⟨hac', hnamed', -⟩ := Library.of_find?_eq_some hfind
    have hkey : ac' = ac := List.inj_on_of_nodup_map hdb.nameKey hac' hac
      (Prod.ext (hnamed'.1.trans hnamed.1.symm) (hnamed'.2.trans hnamed.2.symm))
    rw [hkey]
  · next hnone =>
    exact (Library.not_of_find?_eq_none hnone hac ⟨hnamed, hvalue⟩).elim

theorem findOrCreate_of_not_isAc (h : ¬ ∃ c, IsAc db a acType c) :
    findOrCreateAutomatedAc db a acType = .ok (c, db') ↔ Free db a acType [] ∧
      c = db.accountCollectionSeq ∧ db' = createAutomatedAc db a acType := by
  unfold findOrCreateAutomatedAc
  split
  · next ac hfind =>
    obtain ⟨hac, hnamed, hvalue⟩ := Library.of_find?_eq_some hfind
    exact absurd ⟨_, ⟨ac, hac, rfl, hnamed⟩, hvalue⟩ h
  · simp only [bind_unit_eq_ok, raiseIf_eq_ok, Except.ok.injEq, Prod.mk.injEq, not_exists,
      not_and, Free, List.not_mem_nil, and_assoc, eq_comm (a := c), eq_comm (a := db')]

theorem createdIsFor : (⟨acType.text, "auto_acct_coll", some a.accountId, some a.accountRealmId,
    some c, true⟩ : Property).IsFor acType a := ⟨rfl, rfl, rfl, rfl⟩

theorem isAc_create : IsAc (createAutomatedAc db a acType) a acType db.accountCollectionSeq :=
  ⟨⟨_, List.mem_append_right _ (List.mem_singleton_self _), rfl, rfl, rfl⟩,
    _, List.mem_append_right _ (List.mem_singleton_self _), rfl, createdIsFor, rfl⟩

section

variable (hdb : Constraints db)
include hdb

theorem isValue_create (ha : a ∈ db.account) (hr : r ∈ db.account)
    (hne : (r, acType') ≠ (a, acType)) :
    IsValue (createAutomatedAc db a acType) r acType' c ↔ IsValue db r acType' c := by
  constructor
  · rintro ⟨q, hq, hactive, hfor, hvalue⟩
    rcases List.mem_append.mp hq with hq | hq
    · exact ⟨q, hq, hactive, hfor, hvalue⟩
    · rw [List.mem_singleton.mp hq] at hfor
      exact absurd createdIsFor (hdb.not_isFor ha hr hne hfor)
  · rintro ⟨q, hq, h⟩
    exact ⟨q, List.mem_append_left _ hq, h⟩

theorem sameBut_create (ha : a ∈ db.account) :
    SameBut a acType db (createAutomatedAc db a acType) := by
  refine ⟨rfl, rfl, fun r hr k c hne => isValue_create hdb ha hr hne, fun r hr k c hne => ?_⟩
  constructor
  · rintro ⟨⟨ac, hac, hid, hnamed⟩, hvalue⟩
    have hvalue := (isValue_create hdb ha hr hne).mp hvalue
    rcases List.mem_append.mp hac with hac | hac
    · exact ⟨⟨ac, hac, hid, hnamed⟩, hvalue⟩
    · -- no property has the new collection for a value yet
      obtain ⟨q, hq, -, -, hc⟩ := hvalue
      obtain ⟨ac', hac', hid'⟩ := hdb.propertyRef q hq c hc
      have hfresh := hdb.fresh ac' hac'
      rw [List.mem_singleton.mp hac] at hid
      have hseq : db.accountCollectionSeq = c := hid
      omega
  · rintro ⟨⟨ac, hac, h⟩, hvalue⟩
    exact ⟨⟨ac, List.mem_append_left _ hac, h⟩, (isValue_create hdb ha hr hne).mpr hvalue⟩

theorem constraints_create (hfree : Free db a acType []) :
    Constraints (createAutomatedAc db a acType) where
  accountKey := hdb.accountKey
  loginKey := hdb.loginKey
  companyKey := hdb.companyKey
  nameKey := by
    show ((db.accountCollection ++ [_]).map _).Nodup
    rw [List.map_append]
    refine List.nodup_append.mpr ⟨hdb.nameKey, List.nodup_singleton _, ?_⟩
    intro x hx y hy heq
    obtain ⟨ac, hac, rfl⟩ := List.mem_map.mp hx
    have hname := heq.trans (List.mem_singleton.mp hy)
    cases hfree.1 ac hac ⟨congrArg Prod.fst hname, congrArg Prod.snd hname⟩
  collectionKey := by
    show ((db.accountCollection ++ [_]).map _).Nodup
    rw [List.map_append]
    refine List.nodup_append.mpr ⟨hdb.collectionKey, List.nodup_singleton _, ?_⟩
    intro x hx y hy heq
    obtain ⟨ac, hac, rfl⟩ := List.mem_map.mp hx
    exact Nat.ne_of_lt (hdb.fresh ac hac) (heq.trans (List.mem_singleton.mp hy))
  fresh := fun ac hac => by
    rcases List.mem_append.mp hac with hac | hac
    · exact Nat.lt_succ_of_lt (hdb.fresh ac hac)
    · rw [List.mem_singleton.mp hac]
      exact Nat.lt_succ_self _
  propertyRef := fun q hq c hc => by
    rcases List.mem_append.mp hq with hq | hq
    · obtain ⟨ac, hac, hid⟩ := hdb.propertyRef q hq c hc
      exact ⟨ac, List.mem_append_left _ hac, hid⟩
    · rw [List.mem_singleton.mp hq] at hc
      exact ⟨_, List.mem_append_right _ (List.mem_singleton_self _), Option.some.inj hc⟩
  propertyKey := by
    refine List.pairwise_append.mpr ⟨hdb.propertyKey, List.pairwise_singleton _ _, ?_⟩
    intro q hq q' hq' k b hfor hfor'
    rw [List.mem_singleton.mp hq'] at hfor'
    exact hfree.2 q hq ⟨hfor.1.trans hfor'.1.symm, hfor.2.1, hfor.2.2.1.trans hfor'.2.2.1.symm,
      hfor.2.2.2.trans hfor'.2.2.2.symm⟩
  hierRef := fun h hh => by
    obtain ⟨⟨p, hp, hpid⟩, x, hx, hxid⟩ := hdb.hierRef h hh
    exact ⟨⟨p, List.mem_append_left _ hp, hpid⟩, x, List.mem_append_left _ hx, hxid⟩

/-- What the function leaves, whether it found the collection or created it. -/
theorem findOrCreate_spec (ha : a ∈ db.account)
    (h : findOrCreateAutomatedAc db a acType = .ok (c, db')) :
    Constraints db' ∧ SameBut a acType db db' ∧ IsAc db' a acType c ∧
      (∀ q ∈ db'.property, q ∈ db.property ∨ q.IsFor acType a) ∧
        db'.accountCollectionHier = db.accountCollectionHier ∧
          (acType = .rollups → db'.accountCollectionAccount = db.accountCollectionAccount) := by
  by_cases hac : ∃ c, IsAc db a acType c
  · obtain ⟨c', hac⟩ := hac
    rw [findOrCreate_of_isAc hdb hac] at h
    cases h
    exact ⟨hdb, ⟨rfl, rfl, fun _ _ _ _ _ => Iff.rfl, fun _ _ _ _ _ => Iff.rfl⟩, hac,
      fun q hq => .inl hq, rfl, fun _ => rfl⟩
  · obtain ⟨hfree, rfl, rfl⟩ := (findOrCreate_of_not_isAc hac).mp h
    refine ⟨constraints_create hdb hfree, sameBut_create hdb ha, isAc_create, fun q hq => ?_, rfl, ?_⟩
    · refine (List.mem_append.mp hq).imp id fun hq => ?_
      rw [List.mem_singleton.mp hq]
      exact createdIsFor
    · rintro rfl
      exact List.append_nil _

theorem exists_findOrCreate_iff :
    (∃ x, findOrCreateAutomatedAc db a acType = .ok x) ↔ Ready db a acType [] := by
  by_cases hac : ∃ c, IsAc db a acType c
  · obtain ⟨c, hac⟩ := hac
    exact iff_of_true ⟨_, findOrCreate_of_isAc hdb hac⟩ (.inl ⟨c, hac⟩)
  · constructor
    · rintro ⟨⟨c, db'⟩, h⟩
      exact .inr ((findOrCreate_of_not_isAc hac).mp h).1
    · intro h
      exact ⟨(_, _), (findOrCreate_of_not_isAc hac).mpr ⟨h.resolve_left hac, rfl, rfl⟩⟩

theorem free_create (ha : a ∈ db.account) (hne : acType' ≠ acType) :
    Free (createAutomatedAc db a acType) a acType' [] ↔ Free db a acType' [] := by
  have hother : (a, acType') ≠ (a, acType) := fun heq => hne (congrArg Prod.snd heq)
  refine and_congr ?_ ?_
  · constructor
    · intro h ac hac
      exact h ac (List.mem_append_left _ hac)
    · intro h ac hac hnamed
      rcases List.mem_append.mp hac with hac | hac
      · exact h ac hac hnamed
      · rw [List.mem_singleton.mp hac] at hnamed
        exact absurd (acname_inj hnamed.1).2.symm hne
  · constructor
    · intro h q hq
      exact h q (List.mem_append_left _ hq)
    · intro h q hq hfor
      rcases List.mem_append.mp hq with hq | hq
      · exact h q hq hfor
      · rw [List.mem_singleton.mp hq] at hfor
        exact hdb.not_isFor ha ha hother hfor createdIsFor

theorem ready_findOrCreate (ha : a ∈ db.account) (hne : acType' ≠ acType)
    (h : findOrCreateAutomatedAc db a acType = .ok (c, db')) :
    Ready db' a acType' [] ↔ Ready db a acType' [] := by
  by_cases hac : ∃ c, IsAc db a acType c
  · obtain ⟨c', hac⟩ := hac
    rw [findOrCreate_of_isAc hdb hac] at h
    cases h
    rfl
  · obtain ⟨-, rfl, rfl⟩ := (findOrCreate_of_not_isAc hac).mp h
    have hother : (a, acType') ≠ (a, acType) := fun heq => hne (congrArg Prod.snd heq)
    exact or_congr (exists_congr fun c => (sameBut_create hdb ha).isAc a ha _ c hother)
      (free_create hdb ha hne)

end

end JazzHands.AutoAc

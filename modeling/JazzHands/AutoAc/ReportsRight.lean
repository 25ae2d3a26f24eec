import JazzHands.AutoAc.Making
import Mathlib.Logic.Relation

/-!
# Making the collections of a manager right

The roll-up collection stays where the account has no reports any more: the purge of the directs
returns before it comes to the roll-ups.
-/

namespace JazzHands.AutoAc

open Library Postgres

def Forest (db : Db) : Prop := ∀ b, ¬ Relation.TransGen (Reports db) b b

structure Given (db : Db) (a : Account) : Prop where
  constraints : Constraints db
  mem : a ∈ db.account
  enabled : a.isEnabled = true
  forest : Forest db
  right : ∀ r, Reports db r a → AlreadyRight db r

structure MadeRight (db : Db) (a : Account) : Prop where
  directs : (∃ c, IsAc db a .directs c) ↔ HasReports db a
  members : ∀ c, IsAc db a .directs c → ∀ x, ⟨c, x⟩ ∈ db.accountCollectionAccount ↔
    x = a.accountId ∨ ∃ r, Reports db r a ∧ r.accountId = x
  rollups : (∃ c, IsAc db a .rollups c) ↔ HasReportsWithReports db a
  links : ∀ c, IsAc db a .rollups c → ∀ k, ⟨c, k⟩ ∈ db.accountCollectionHier ↔
    IsAc db a .directs k ∨ ∃ r, Reports db r a ∧ IsRollupOrDirects db r k

/-- No collection that the roll-up is to link, and does not link yet, lies above it.  Its own directs
are linked anew by every call. -/
def NoLoop (db : Db) (a : Account) : Prop :=
  ∀ k, IsAc db a .rollups k → (∀ c, IsAc db a .directs c → ¬ Above db k c) ∧
    ∀ r x, Reports db r a → IsRollupOrDirects db r x → ⟨k, x⟩ ∉ db.accountCollectionHier →
      ¬ Above db k x

/-- By what there should be: none, the directs only, or both. -/
structure CanBeRight (db : Db) (a : Account) : Prop where
  none : ¬ HasReports db a → Clean db a .directs ∧ ¬ ∃ c, IsAc db a .rollups c
  directs : HasReports db a → ¬ HasReportsWithReports db a →
    Clean db a .rollups ∧ Ready db a .directs (purgedCollections db a .rollups)
  both : HasReportsWithReports db a →
    Ready db a .directs [] ∧ Ready db a .rollups [] ∧ NoLoop db a

variable {db db' db₁ : Db} {a r : Account} {acType : AcType} {c k x : ℕ}

/-! ## What stays given -/

namespace Given

theorem ne (h : Given db a) (hr : Reports db r a) : r ≠ a := by
  rintro rfl
  exact h.forest r (.single hr)

theorem sameBut (h : Given db a) (hsame : SameBut a acType db db') (hdb' : Constraints db') :
    Given db' a where
  constraints := hdb'
  mem := hsame.account ▸ h.mem
  enabled := h.enabled
  forest := by
    have hreports : Reports db' = Reports db := by
      funext r b
      exact propext hsame.reports_iff
    intro b
    rw [hreports]
    exact h.forest b
  right := fun r hr =>
    have hr := hsame.reports_iff.mp hr
    hsame.alreadyRight hr.mem_account (h.ne hr) (h.right r hr)

theorem manager (h : Given db a) : Manager db a where
  constraints := h.constraints
  mem := h.mem
  enabled := h.enabled
  irrefl := fun hr => h.forest a (.single hr)
  named := fun r hr => (h.right r hr).named

theorem hasReportsWithAc_iff (h : Given db a) : HasReportsWithAc db a ↔ HasReportsWithReports db a := by
  constructor
  · rintro ⟨r, hr, k, c, hac⟩
    refine ⟨r, hr, ?_⟩
    cases k with
    | directs => exact (h.right r hr).directs.mp ⟨c, hac⟩
    | rollups =>
      obtain ⟨r', hr', -⟩ := (h.right r hr).rollups.mp ⟨c, hac⟩
      exact ⟨r', hr'⟩
  · rintro ⟨r, hr, hreports⟩
    obtain ⟨c, hac⟩ := (h.right r hr).directs.mpr hreports
    exact ⟨r, hr, .directs, c, hac⟩

end Given

/-! ## Once and for all -/

/-- The call succeeds, makes the collections right, and changes nothing when called again. -/
def MakesRight (db : Db) (a : Account) : Prop :=
  ∃ db', makeAutoReportAcsRight db a.accountId = .ok db' ∧ MadeRight db' a ∧
    makeAutoReportAcsRight db' a.accountId = .ok db'

theorem hasReports_of_hasReportsWithReports (h : HasReportsWithReports db a) : HasReports db a := by
  obtain ⟨r, hr, -⟩ := h
  exact ⟨r, hr⟩

theorem makesRight_of_none (h : Given db a) (hnone : ¬ HasReports db a) :
    MakesRight db a ↔ Clean db a .directs ∧ ¬ ∃ c, IsAc db a .rollups c := by
  have hrollups : Clean db a .directs →
      ((∃ c, IsAc (purged db a .directs) a .rollups c) ↔ ∃ c, IsAc db a .rollups c) :=
    fun hclean => exists_congr fun c => (sameBut_purged h.constraints h.mem hclean).isAc a h.mem
      .rollups c (fun heq => by cases heq)
  constructor
  · rintro ⟨db', hmake, hright, -⟩
    rw [h.manager.make_of_none hnone] at hmake
    obtain ⟨hclean, rfl⟩ := purge_eq_ok.mp hmake
    refine ⟨hclean, fun hac => hnone ?_⟩
    have hreports := hright.rollups.mp ((hrollups hclean).mpr hac)
    exact (sameBut_purged h.constraints h.mem hclean).hasReports_iff.mp
      (hasReports_of_hasReportsWithReports hreports)
  · rintro ⟨hclean, hac⟩
    have hsame := sameBut_purged h.constraints h.mem hclean
    have h' := h.sameBut hsame (constraints_purged h.constraints hclean)
    have hnone' : ¬ HasReports (purged db a .directs) a := fun hr => hnone (hsame.hasReports_iff.mp hr)
    have hgone : ¬ ∃ c, IsAc (purged db a .directs) a .directs c :=
      not_isAc_of_not_isFor not_isFor_purged
    refine ⟨purged db a .directs, ?_, ⟨iff_of_false hgone hnone', fun c hc => absurd ⟨c, hc⟩ hgone,
      ?_, fun c hc => absurd ((hrollups hclean).mp ⟨c, hc⟩) hac⟩, ?_⟩
    · rw [h.manager.make_of_none hnone]
      exact purge_eq_ok.mpr ⟨hclean, rfl⟩
    · exact iff_of_false (fun hc => hac ((hrollups hclean).mp hc))
        fun hr => hnone' (hasReports_of_hasReportsWithReports hr)
    · rw [h'.manager.make_of_none hnone']
      exact purge_of_not_isFor not_isFor_purged

theorem makesRight_of_directs (h : Given db a) (hreports : HasReports db a)
    (hnone : ¬ HasReportsWithReports db a) : MakesRight db a ↔
      Clean db a .rollups ∧ Ready db a .directs (purgedCollections db a .rollups) := by
  have hnoneac := mt h.hasReportsWithAc_iff.mp hnone
  constructor
  · rintro ⟨db', hmake, -⟩
    obtain ⟨db₁, hpurge, c, hpop⟩ := (h.manager.make_of_directs hreports hnoneac).mp hmake
    obtain ⟨hclean, rfl⟩ := purge_eq_ok.mp hpurge
    have hready := (exists_populateDirect_iff (constraints_purged h.constraints hclean)).mp
      ⟨c, db', hpop⟩
    exact ⟨hclean, (ready_purged h.constraints h.mem hclean (by decide)).mp hready⟩
  · rintro ⟨hclean, hready⟩
    have hsame₁ := sameBut_purged h.constraints h.mem hclean
    have h₁ := h.sameBut hsame₁ (constraints_purged h.constraints hclean)
    obtain ⟨c, db', hpop⟩ := (exists_populateDirect_iff h₁.constraints).mpr
      ((ready_purged h.constraints h.mem hclean (by decide)).mpr hready)
    obtain ⟨h', hsame, hac, hmembers, hproperty, -⟩ := populateDirect_spec h₁.manager hpop
    have hreports' : HasReports db' a := hsame.hasReports_iff.mpr (hsame₁.hasReports_iff.mpr hreports)
    have hnone' : ¬ HasReportsWithReports db' a := fun hr => hnone
      (hsame₁.hasReportsWithReports_iff.mp (hsame.hasReportsWithReports_iff.mp hr))
    have hrollups : ∀ q ∈ db'.property, ¬ q.IsFor .rollups a := by
      intro q hq hfor
      rcases hproperty q hq with hq | hfor'
      · exact not_isFor_purged q hq hfor
      · cases (isFor_eq hfor hfor').1
    have hgone := not_isAc_of_not_isFor hrollups
    refine ⟨db', (h.manager.make_of_directs hreports hnoneac).mpr ⟨_, purge_eq_ok.mpr ⟨hclean, rfl⟩, c, hpop⟩,
      ⟨iff_of_true ⟨c, hac⟩ hreports', fun c' hac' x => ?_, iff_of_false hgone hnone',
        fun k hk => absurd ⟨k, hk⟩ hgone⟩, ?_⟩
    · rw [hac'.eq h'.constraints hac, hmembers, h'.mem_directMembers]
    · have hnoneac' : ¬ HasReportsWithAc db' a :=
        mt (h₁.sameBut hsame h'.constraints).hasReportsWithAc_iff.mp hnone'
      exact (h'.make_of_directs hreports' hnoneac').mpr ⟨db', purge_of_not_isFor hrollups, c,
        populateDirect_of_members h'.constraints hac hmembers⟩

theorem SameBut.isRollup (hsame : SameBut a .directs db db₁) (ha : a ∈ db.account) :
    IsAc db₁ a .rollups k ↔ IsAc db a .rollups k :=
  hsame.isAc a ha .rollups k fun heq => by cases heq

/-- Whether the collections of the reports may be linked is decided by the tables before. -/
theorem linkable_iff (h : Given db a) (hsame : SameBut a .directs db db₁) (h₁ : Manager db₁ a)
    (hhier : db₁.accountCollectionHier = db.accountCollectionHier) : Linkable db₁ a k ↔
      ∀ r x, Reports db r a → IsRollupOrDirects db r x → ⟨k, x⟩ ∉ db.accountCollectionHier →
        ¬ Above db k x := by
  have habove : ∀ x, Above db₁ k x ↔ Above db k x := fun x =>
    ⟨fun hx => hx.congr fun l _ hl => hhier ▸ hl, fun hx => hx.congr fun l _ hl => hhier ▸ hl⟩
  have hchild : ∀ r x, Reports db r a → (IsRollupOrDirects db₁ r x ↔ IsRollupOrDirects db r x) :=
    fun r x hr => hsame.isRollupOrDirects_iff hr.mem_account (h.ne hr)
  unfold Linkable
  simp only [mem_rollupChildren h₁.constraints h₁.mem h₁.named, hhier, habove, hsame.reports_iff]
  constructor
  · exact fun hlink r x hr hx => hlink x ⟨r, hr, (hchild r x hr).mpr hx⟩
  · rintro hlink x ⟨r, hr, hx⟩
    exact hlink r x hr ((hchild r x hr).mp hx)

theorem makesRight_of_both (h : Given db a) (hreports : HasReportsWithReports db a) :
    MakesRight db a ↔ Ready db a .directs [] ∧ Ready db a .rollups [] ∧ NoLoop db a := by
  have hreportsac := h.hasReportsWithAc_iff.mpr hreports
  constructor
  · rintro ⟨db', hmake, -⟩
    obtain ⟨c, db₁, hpop, k, db₂, hpop', -, habove, -⟩ := (h.manager.make_of_both hreportsac).mp hmake
    obtain ⟨h₁, hsame₁, -, -, -, hready, hhier₁⟩ := populateDirect_spec h.manager hpop
    obtain ⟨hrollups, hlinkable⟩ := (exists_populateRollup_iff h₁).mp ⟨k, db₂, hpop'⟩
    refine ⟨(exists_populateDirect_iff h.constraints).mp ⟨c, db₁, hpop⟩, hready.mp hrollups,
      fun k' hk => ⟨fun c' hc hcycle => habove ?_, ?_⟩⟩
    · obtain rfl := populateDirect_id h.constraints hpop hc
      obtain rfl := populateRollup_id h₁ hpop' ((hsame₁.isRollup h.mem).mpr hk)
      exact above_populateRollup h₁ hpop' |>.mpr (hcycle.congr fun l _ hl => hhier₁ ▸ hl)
    · exact (linkable_iff h hsame₁ h₁ hhier₁).mp (hlinkable k' ((hsame₁.isRollup h.mem).mpr hk))
  · rintro ⟨hdirects, hrollups, hloop⟩
    obtain ⟨c, db₁, hpop⟩ := (exists_populateDirect_iff h.constraints).mpr hdirects
    obtain ⟨h₁, hsame₁, hac₁, hmembers, -, hready, hhier₁⟩ := populateDirect_spec h.manager hpop
    obtain ⟨k, db₂, hpop'⟩ := (exists_populateRollup_iff h₁).mpr ⟨hready.mpr hrollups, fun k hk =>
      (linkable_iff h hsame₁ h₁ hhier₁).mpr (hloop k ((hsame₁.isRollup h.mem).mp hk)).2⟩
    obtain ⟨h₂, hsame₂, hac₂, hmembers₂, ht⟩ := populateRollup_spec h₁ hpop'
    have hac : IsAc db₂ a .directs c :=
      (hsame₂.isAc a h₁.mem .directs c (fun heq => by cases heq)).mpr hac₁
    have habove : ¬ Above db₂ k c := by
      intro habove
      have hne : k ≠ c := fun heq => by cases (hac₂.name_eq h₂.constraints (heq ▸ hac)).2
      have habove₁ := (above_populateRollup h₁ hpop').mp habove
      obtain ⟨db₀, hfound, -⟩ := populateDirect_eq_ok.mp hpop
      obtain ⟨db₃, hfound', -, -⟩ := (populateRollup_eq_ok h₁).mp hpop'
      have habove₀ : Above db k c := habove₁.congr fun l _ hl => hhier₁ ▸ hl
      rcases isAc_or_apart h.constraints hfound with hc | hapart
      · rcases isAc_or_apart h₁.constraints hfound' with hk | hapart'
        · exact (hloop k ((hsame₁.isRollup h.mem).mp hk)).1 c hc habove₀
        · exact hne ((hapart' c).1 habove₁)
      · exact hne ((hapart k).2 habove₀)
    have hdirects₂ : ∀ x, ⟨c, x⟩ ∈ db₂.accountCollectionAccount ↔ x ∈ directMembers db₂ a := by
      intro x
      rw [hmembers₂, hmembers, h₁.mem_directMembers, h₂.mem_directMembers]
      simp only [hsame₂.reports_iff]
    have hreports₂ : HasReportsWithReports db₂ a := hsame₂.hasReportsWithReports_iff.mpr
      (hsame₁.hasReportsWithReports_iff.mpr hreports)
    have hc := h₂.not_mem_rollupChildren hac
    have hlink : ⟨k, c⟩ ∉ db₂.accountCollectionHier := by
      rw [ht, mem_children]
      exact hc
    let db' : Db := { db₂ with accountCollectionHier := db₂.accountCollectionHier ++ [⟨k, c⟩] }
    have hsame : SameBut a .rollups db₂ db' :=
      ⟨rfl, rfl, fun _ _ _ _ _ => Iff.rfl, fun _ _ _ _ _ => Iff.rfl⟩
    have h₂given : Given db₂ a := (h.sameBut hsame₁ h₁.constraints).sameBut hsame₂ h₂.constraints
    have h'given : Given db' a := h₂given.sameBut hsame { h₂.constraints with
      hierRef := fun l hl => by
        rcases List.mem_append.mp hl with hl | hl
        · exact h₂.constraints.hierRef l hl
        · rw [List.mem_singleton.mp hl]
          exact ⟨hac₂.exists_mem, hac.exists_mem⟩ }
    have h' := h'given.manager
    refine ⟨db', (h.manager.make_of_both hreportsac).mpr
      ⟨c, db₁, hpop, k, db₂, hpop', hlink, habove, rfl⟩,
      ⟨iff_of_true ⟨c, hac⟩ (hasReports_of_hasReportsWithReports hreports₂), fun c' hac' x => ?_,
        iff_of_true ⟨k, hac₂⟩ hreports₂, fun k' hk x => ?_⟩, ?_⟩
    · rw [hac'.eq h'.constraints hac]
      exact (hdirects₂ x).trans h₂.mem_directMembers
    · rw [hk.eq h'.constraints hac₂]
      have hown : IsAc db' a .directs x ↔ x = c :=
        ⟨fun hx => hx.eq h'.constraints hac, fun hx => hx ▸ hac⟩
      have hchildren : ⟨k, x⟩ ∈ db₂.accountCollectionHier ↔
          ∃ r, Reports db₂ r a ∧ IsRollupOrDirects db₂ r x := by
        rw [ht, mem_children, mem_rollupChildren h₂.constraints h₂.mem h₂.named]
      rw [hown, or_comm]
      refine List.mem_append.trans (or_congr hchildren ?_)
      simp
    · have hrollup : populateRollupReportAc db' a = .ok (k, db₂) := by
        have hlinks : children db' a k db₁.accountCollectionHier = db₂.accountCollectionHier := ht.symm
        have hagain := populateRollup_of_children h' hac₂ (congrArg (· ++ [⟨k, c⟩]) ht) hc
        rw [hlinks] at hagain
        exact hagain
      exact (h'.make_of_both (h'given.hasReportsWithAc_iff.mpr hreports₂)).mpr ⟨c, db',
        populateDirect_of_members h'.constraints hac hdirects₂, k, db₂, hrollup, hlink, habove, rfl⟩

theorem makeAutoReportAcsRight_iff (h : Given db a) : MakesRight db a ↔ CanBeRight db a := by
  by_cases hreports : HasReports db a
  · by_cases hboth : HasReportsWithReports db a
    · rw [makesRight_of_both h hboth]
      exact ⟨fun hready => ⟨fun hnone => absurd hreports hnone, fun _ hnone => absurd hboth hnone,
        fun _ => hready⟩, fun hcan => hcan.both hboth⟩
    · rw [makesRight_of_directs h hreports hboth]
      exact ⟨fun hready => ⟨fun hnone => absurd hreports hnone, fun _ _ => hready,
        fun hr => absurd hr hboth⟩, fun hcan => hcan.directs hreports hboth⟩
  · rw [makesRight_of_none h hreports]
    exact ⟨fun hready => ⟨fun _ => hready, fun hr => absurd hr hreports,
      fun hr => absurd (hasReports_of_hasReportsWithReports hr) hreports⟩,
      fun hcan => hcan.none hreports⟩

/-! ## Two managers -/

def alice : Account := ⟨1, "alice", 1, 1, true, 1, "primary", "person"⟩

def bob : Account := ⟨2, "bob", 2, 1, true, 1, "primary", "person"⟩

/-- Bob has just come, and reports to Alice. -/
def joined : Db where
  account := [alice, bob]
  personCompany := [⟨1, 1, "employee", none⟩, ⟨1, 2, "employee", some 1⟩]
  accountCollection := []
  accountCollectionAccount := []
  accountCollectionHier := []
  property := []
  references := []
  accountCollectionSeq := 1

theorem reports_joined : Reports joined r a ↔ r = bob ∧ a = alice := by
  have hpeeps : peeps joined = [⟨alice, none⟩, ⟨bob, some 1⟩] := by decide
  unfold Reports
  rw [hpeeps]
  constructor
  · rintro ⟨p, hp, rfl, m, hm, rfl, hto⟩
    rcases List.mem_pair.mp hp with rfl | rfl <;> rcases List.mem_pair.mp hm with rfl | rfl
    · exact absurd hto (by decide)
    · exact absurd hto (by decide)
    · exact ⟨rfl, rfl⟩
    · exact absurd hto (by decide)
  · rintro ⟨rfl, rfl⟩
    exact ⟨⟨bob, some 1⟩, by decide, rfl, ⟨alice, none⟩, by decide, rfl, by decide⟩

theorem not_hasReports_bob : ¬ HasReports joined bob := by
  rintro ⟨r, hr⟩
  exact absurd (reports_joined.mp hr).2 (by decide)

theorem not_hasReportsWithReports_joined : ¬ HasReportsWithReports joined a := by
  rintro ⟨r, hr, hreports⟩
  rw [(reports_joined.mp hr).1] at hreports
  exact not_hasReports_bob hreports

theorem not_isAc_joined : ¬ ∃ c, IsAc joined a acType c :=
  not_isAc_of_not_isFor fun q hq => by cases hq

theorem constraints_joined : Constraints joined where
  accountKey := by decide
  loginKey := by decide
  companyKey := by decide
  nameKey := List.nodup_nil
  collectionKey := List.nodup_nil
  fresh := fun ac hac => by cases hac
  propertyRef := fun q hq => by cases hq
  propertyKey := List.Pairwise.nil
  hierRef := fun h hh => by cases hh

theorem given_joined : Given joined alice where
  constraints := constraints_joined
  mem := List.mem_cons_self
  enabled := rfl
  forest := by
    have hpath : ∀ r a, Relation.TransGen (Reports joined) r a → r = bob ∧ a = alice := by
      intro r a hpath
      induction hpath with
      | single hr => exact reports_joined.mp hr
      | tail _ hr ih => exact ⟨ih.1, (reports_joined.mp hr).2⟩
    intro b hb
    obtain ⟨rfl, hsame⟩ := hpath b b hb
    exact absurd hsame (by decide)
  right := fun r hr => by
    rw [(reports_joined.mp hr).1]
    refine ⟨fun k c hvalue => ?_, iff_of_false not_isAc_joined not_hasReports_bob,
      iff_of_false not_isAc_joined not_hasReportsWithReports_joined⟩
    obtain ⟨q, hq, -⟩ := hvalue
    cases hq

/-- Alice gets a collection of her directs. -/
theorem makesRight_joined : MakesRight joined alice := by
  refine (makeAutoReportAcsRight_iff given_joined).mpr ⟨fun hnone => ?_, fun _ _ => ?_, fun hr =>
    absurd hr not_hasReportsWithReports_joined⟩
  · exact absurd ⟨bob, reports_joined.mpr ⟨rfl, rfl⟩⟩ hnone
  · have hclean : Clean joined alice .rollups := fun c hc => by cases hc
    exact ⟨hclean, .inr ⟨fun ac hac => (by cases hac), fun q hq => by cases hq⟩⟩

/-- Nobody reports to Alice any more, who had reports that had reports. -/
def left : Db where
  account := [alice]
  personCompany := [⟨1, 1, "employee", none⟩]
  accountCollection := [⟨10, "alice-employee-directs", "automated"⟩,
    ⟨11, "alice-employee-rollup", "automated"⟩]
  accountCollectionAccount := [⟨10, 1⟩]
  accountCollectionHier := [⟨11, 10⟩]
  property := [⟨"AutomatedDirectsAC", "auto_acct_coll", some 1, some 1, some 10, true⟩,
    ⟨"AutomatedRollupsAC", "auto_acct_coll", some 1, some 1, some 11, true⟩]
  references := []
  accountCollectionSeq := 12

theorem not_reports_left : ¬ Reports left r a := by
  have hpeeps : peeps left = [⟨alice, none⟩] := by decide
  unfold Reports
  rw [hpeeps]
  rintro ⟨p, hp, -, m, hm, -, hto⟩
  rw [List.mem_singleton.mp hp, List.mem_singleton.mp hm] at hto
  exact absurd hto (by decide)

theorem constraints_left : Constraints left where
  accountKey := by decide
  loginKey := by decide
  companyKey := by decide
  nameKey := by decide
  collectionKey := by decide
  fresh := by decide
  propertyRef := by
    intro q hq c hc
    rcases List.mem_pair.mp hq with rfl | rfl
    · exact ⟨_, List.mem_cons_self, Option.some.inj hc⟩
    · exact ⟨_, List.mem_cons_of_mem _ List.mem_cons_self, Option.some.inj hc⟩
  propertyKey := by
    refine List.pairwise_pair.mpr fun acType a hfor hfor' => ?_
    exact absurd (hfor.1.trans hfor'.1.symm) (by decide)
  hierRef := fun h hh => by
    rw [List.mem_singleton.mp hh]
    exact ⟨⟨_, List.mem_cons_of_mem _ List.mem_cons_self, rfl⟩, _, List.mem_cons_self, rfl⟩

theorem given_left : Given left alice where
  constraints := constraints_left
  mem := List.mem_cons_self
  enabled := rfl
  forest := by
    intro b hb
    cases hb with
    | single hr => exact not_reports_left hr
    | tail _ hr => exact not_reports_left hr
  right := fun r hr => absurd hr not_reports_left

/-- Her collection of directs goes, and the roll-up stays. -/
theorem rollup_stays : Given left alice ∧ ¬ MakesRight left alice := by
  have hnone : ¬ HasReports left alice := by
    rintro ⟨r, hr⟩
    exact not_reports_left hr
  refine ⟨given_left, fun h => ((makesRight_of_none given_left hnone).mp h).2 ⟨11, ?_, ?_⟩⟩
  · exact ⟨_, List.mem_cons_of_mem _ List.mem_cons_self, rfl, by decide⟩
  · decide

end JazzHands.AutoAc

import JazzHands.AutoAc.CreateAndPurge
import Mathlib.Logic.Relation

/-!
# One call for a manager

What `make_auto_report_acs_right` does for an enabled account, whatever collections its reports
have.

* `Manager`: the account does not report to itself, and the properties of its reports say what is so.
-/

namespace JazzHands.AutoAc

open Library Postgres

def HasReportsWithAc (db : Db) (a : Account) : Prop :=
  ∃ r, Reports db r a ∧ ∃ acType c, IsAc db r acType c

structure Manager (db : Db) (a : Account) : Prop where
  constraints : Constraints db
  mem : a ∈ db.account
  enabled : a.isEnabled = true
  irrefl : ¬ Reports db a a
  named : ∀ r, Reports db r a → Named db r

variable {db db' db₁ : Db} {a r : Account} {acType : AcType} {c k x : ℕ}

/-! ## Ways up -/

/-- The collection is `k` itself, or lies above it in `account_collection_hier`. -/
def Above (db : Db) (k x : ℕ) : Prop :=
  Relation.ReflTransGen (fun c p => ⟨p, c⟩ ∈ db.accountCollectionHier) k x

theorem accountCollectionHierRecurseHandler_eq_ok {inserted : List Hier} {u : Unit} :
    accountCollectionHierRecurseHandler db.accountCollectionHier inserted = .ok u ↔
      ∀ new ∈ inserted, ¬ Above db new.accountCollectionId new.childAccountCollectionId := by
  rw [accountCollectionHierRecurseHandler, raiseIf_eq_ok]
  push Not
  refine forall₂_congr fun new _ => not_congr ?_
  have hup : ∀ x, ∀ y ∈ (db.accountCollectionHier.filter (·.childAccountCollectionId = x)).map
      (·.accountCollectionId), y ∈ db.accountCollectionHier.map (·.accountCollectionId) :=
    fun x => (List.filter_sublist.map _).subset
  have hnodes := Guarded.mem_unionAll_guarded (a := new.accountCollectionId)
    (z := new.childAccountCollectionId) hup
  rw [List.length_map] at hnodes
  refine hnodes.trans (Eq.to_iff (congrArg (Relation.ReflTransGen · _ _) ?_))
  funext x y
  simp only [List.mem_map, List.mem_filter, decide_eq_true_eq, eq_iff_iff]
  constructor
  · rintro ⟨⟨p, c⟩, ⟨hmem, rfl⟩, rfl⟩
    exact hmem
  · exact fun hmem => ⟨_, ⟨hmem, rfl⟩, rfl⟩

theorem Above.congr (h : ∀ l, l.accountCollectionId ≠ k →
      l ∈ db.accountCollectionHier → l ∈ db'.accountCollectionHier)
    (hx : Above db k x) : Above db' k x := by
  induction hx with
  | refl => exact .refl
  | @tail y z _ hyz ih =>
    by_cases hz : z = k
    · exact hz ▸ .refl
    · exact ih.tail (h ⟨z, y⟩ hz hyz)

namespace Manager

theorem ne (h : Manager db a) (hr : Reports db r a) : r ≠ a := by
  rintro rfl
  exact h.irrefl hr

theorem sameBut (h : Manager db a) (hsame : SameBut a acType db db') (hdb' : Constraints db') :
    Manager db' a where
  constraints := hdb'
  mem := hsame.account ▸ h.mem
  enabled := h.enabled
  irrefl := fun hr => h.irrefl (hsame.reports_iff.mp hr)
  named := fun r hr k c hvalue => by
    have hr := hsame.reports_iff.mp hr
    have hother : (r, k) ≠ (a, acType) := fun heq => h.ne hr (congrArg Prod.fst heq)
    exact (hsame.isAc r hr.mem_account k c hother).mpr
      (h.named r hr k c ((hsame.isValue r hr.mem_account k c hother).mp hvalue))

theorem getNumReportsWithReports_eq_zero (h : Manager db a) :
    getNumReportsWithReports db a = 0 ↔ ¬ HasReportsWithAc db a := by
  rw [AutoAc.getNumReportsWithReports_eq_zero h.constraints h.mem h.enabled]
  refine not_congr ⟨?_, ?_⟩
  · rintro ⟨r, k, c, hr, hvalue⟩
    exact ⟨r, hr, k, c, h.named r hr k c hvalue⟩
  · rintro ⟨r, hr, k, c, hac⟩
    exact ⟨r, k, c, hr, hac.2⟩

theorem mem_directMembers (h : Manager db a) :
    x ∈ directMembers db a ↔ x = a.accountId ∨ ∃ r, Reports db r a ∧ r.accountId = x :=
  AutoAc.mem_directMembers h.constraints h.mem h.enabled

theorem makeAutoReportAcsRight_eq (h : Manager db a) :
    makeAutoReportAcsRight db a.accountId = makeAccountRight db a := by
  have hfind : db.account.find? (·.accountId = a.accountId) = some a :=
    Library.find?_eq_some_of_unique h.mem rfl fun _ hb hid =>
      h.constraints.eq_of_accountId hb h.mem hid
  rw [makeAutoReportAcsRight, hfind]

/-! ## The three classes of counts -/

theorem make_of_none (h : Manager db a) (hnone : ¬ HasReports db a) :
    makeAutoReportAcsRight db a.accountId = purgeReportAccountCollection db a .directs := by
  rw [h.makeAutoReportAcsRight_eq, makeAccountRight,
    (getNumDirectReports_eq_zero h.constraints h.mem).mpr hnone]
  show purgeReportAccountCollection db a .directs >>= _ = _
  cases purgeReportAccountCollection db a .directs <;> rfl

theorem make_of_directs (h : Manager db a) (hreports : HasReports db a)
    (hnone : ¬ HasReportsWithAc db a) : makeAutoReportAcsRight db a.accountId = .ok db' ↔
      ∃ db₁, purgeReportAccountCollection db a .rollups = .ok db₁ ∧
        ∃ c, populateDirectReportAc db₁ a = .ok (c, db') := by
  have hnumrpt : ¬ getNumDirectReports db a = 0 :=
    fun h0 => (getNumDirectReports_eq_zero h.constraints h.mem).mp h0 hreports
  have hnumrlup := h.getNumReportsWithReports_eq_zero.mpr hnone
  simp only [h.makeAutoReportAcsRight_eq, makeAccountRight, destroyReportAccountCollections,
    createReportAccountCollections, hnumrpt, hnumrlup, if_false, if_true, bind_eq_ok,
    Prod.exists, Except.ok.injEq]
  simp

theorem make_of_both (h : Manager db a) (hreports : HasReportsWithAc db a) :
    makeAutoReportAcsRight db a.accountId = .ok db' ↔
      ∃ c db₁, populateDirectReportAc db a = .ok (c, db₁) ∧
        ∃ k db₂, populateRollupReportAc db₁ a = .ok (k, db₂) ∧
          ⟨k, c⟩ ∉ db₂.accountCollectionHier ∧ ¬ Above db₂ k c ∧ db' = { db₂ with
            accountCollectionHier := db₂.accountCollectionHier ++ [⟨k, c⟩] } := by
  have hnumrpt : ¬ getNumDirectReports db a = 0 := fun h0 => by
    obtain ⟨r, hr, -⟩ := hreports
    exact (getNumDirectReports_eq_zero h.constraints h.mem).mp h0 ⟨r, hr⟩
  have hnumrlup : ¬ getNumReportsWithReports db a = 0 :=
    fun h0 => h.getNumReportsWithReports_eq_zero.mp h0 hreports
  simp only [h.makeAutoReportAcsRight_eq, makeAccountRight, destroyReportAccountCollections,
    createReportAccountCollections, hnumrpt, hnumrlup, if_false, bind_eq_ok, raiseIf_eq_ok,
    accountCollectionHierRecurseHandler_eq_ok, List.forall_mem_singleton,
    Prod.exists, Except.ok.injEq, exists_const, exists_eq_left', eq_comm (a := db')]

end Manager

/-! ## The population -/

theorem populateDirect_eq_ok : populateDirectReportAc db a = .ok (c, db') ↔
    ∃ db₁, findOrCreateAutomatedAc db a .directs = .ok (c, db₁) ∧ db' = { db₁ with
      accountCollectionAccount := sync (fun m => m.accountCollectionId = c)
        ((directMembers db₁ a).map fun x => ⟨c, x⟩) db₁.accountCollectionAccount } := by
  have hnodup : ∀ db₁ c (t : List Member),
      (missing ((directMembers db₁ a).map fun x => (⟨c, x⟩ : Member)) t).Nodup := by
    intro db₁ c t
    refine ((List.nodup_dedup _).map ?_).filter _
    intro x y hxy
    exact congrArg Member.accountId hxy
  simp only [populateDirectReportAc, insDel, bind_eq_ok, raiseIf_eq_ok, hnodup, Prod.exists,
    Except.ok.injEq, Prod.mk.injEq, not_true_eq_false, not_false_eq_true]
  constructor
  · rintro ⟨c', db₁, hfound, -, ⟨-, -, rfl⟩, rfl, rfl⟩
    exact ⟨db₁, hfound, rfl⟩
  · rintro ⟨db₁, hfound, rfl⟩
    exact ⟨c, db₁, hfound, _, ⟨(), trivial, rfl⟩, rfl, rfl⟩

theorem exists_populateDirect_iff (hdb : Constraints db) :
    (∃ c db', populateDirectReportAc db a = .ok (c, db')) ↔ Ready db a .directs [] := by
  rw [← exists_findOrCreate_iff hdb]
  constructor
  · rintro ⟨c, db', h⟩
    obtain ⟨db₁, hfound, -⟩ := populateDirect_eq_ok.mp h
    exact ⟨_, hfound⟩
  · rintro ⟨⟨c, db₁⟩, hfound⟩
    exact ⟨c, _, populateDirect_eq_ok.mpr ⟨db₁, hfound, rfl⟩⟩

theorem populateDirect_spec (h : Manager db a) (hpop : populateDirectReportAc db a = .ok (c, db')) :
    Manager db' a ∧ SameBut a .directs db db' ∧ IsAc db' a .directs c ∧
      (∀ x, ⟨c, x⟩ ∈ db'.accountCollectionAccount ↔ x ∈ directMembers db' a) ∧
        (∀ q ∈ db'.property, q ∈ db.property ∨ q.IsFor .directs a) ∧
          (Ready db' a .rollups [] ↔ Ready db a .rollups []) ∧
            db'.accountCollectionHier = db.accountCollectionHier := by
  obtain ⟨db₁, hfound, rfl⟩ := populateDirect_eq_ok.mp hpop
  obtain ⟨hdb₁, hsame, hac, hproperty, hhier, -⟩ := findOrCreate_spec h.constraints h.mem hfound
  have hready : Ready db₁ a .rollups [] ↔ Ready db a .rollups [] :=
    ready_findOrCreate h.constraints h.mem (by decide) hfound
  have hsame' : SameBut a .directs db { db₁ with
      accountCollectionAccount := sync (fun m => m.accountCollectionId = c)
        ((directMembers db₁ a).map fun x => ⟨c, x⟩) db₁.accountCollectionAccount } :=
    ⟨hsame.account, hsame.personCompany, hsame.isValue, hsame.isAc⟩
  refine ⟨h.sameBut hsame' { hdb₁ with }, hsame', hac, fun x => ?_,
    hproperty, hready, hhier⟩
  refine mem_sync.trans ?_
  have hown : ¬ decide ((⟨c, x⟩ : Member).accountCollectionId = c) = false := by simp
  rw [or_iff_left fun hx => hown hx.2]
  exact List.mem_map_of_injective fun x y hxy => congrArg Member.accountId hxy

theorem populateDirect_of_members (hdb : Constraints db) (hac : IsAc db a .directs c)
    (hmembers : ∀ x, ⟨c, x⟩ ∈ db.accountCollectionAccount ↔ x ∈ directMembers db a) :
    populateDirectReportAc db a = .ok (c, db) := by
  refine populateDirect_eq_ok.mpr ⟨db, findOrCreate_of_isAc hdb hac, ?_⟩
  rw [sync_eq_self]
  · intro m hm
    obtain ⟨x, hx, rfl⟩ := List.mem_map.mp hm
    exact (hmembers x).mpr hx
  · rintro ⟨c', x⟩ hm hown
    cases of_decide_eq_true hown
    exact List.mem_map_of_mem ((hmembers x).mp hm)

/-- The collection was there, or it is new, and no other is above or below it. -/
theorem isAc_or_apart (hdb : Constraints db) (h : findOrCreateAutomatedAc db a acType = .ok (c, db')) :
    IsAc db a acType c ∨ ∀ x, (Above db c x → c = x) ∧ (Above db x c → x = c) := by
  by_cases hac : ∃ c, IsAc db a acType c
  · obtain ⟨c', hac⟩ := hac
    rw [findOrCreate_of_isAc hdb hac] at h
    cases h
    exact .inl hac
  · obtain ⟨-, rfl, -⟩ := (findOrCreate_of_not_isAc hac).mp h
    refine .inr fun x => ⟨fun habove => ?_, fun habove => ?_⟩
    · rcases habove.cases_head with hx | ⟨p, hp, -⟩
      · exact hx
      · obtain ⟨ac, hmem, hid⟩ := (hdb.hierRef _ hp).2
        exact absurd hid (Nat.ne_of_lt (hdb.fresh ac hmem))
    · rcases habove.cases_tail with hx | ⟨l, -, hl⟩
      · exact hx.symm
      · obtain ⟨ac, hmem, hid⟩ := (hdb.hierRef _ hl).1
        exact absurd hid (Nat.ne_of_lt (hdb.fresh ac hmem))

/-- None of the collections that the roll-up is to link, and does not link yet, lies above it. -/
def Linkable (db : Db) (a : Account) (k : ℕ) : Prop :=
  ∀ x ∈ rollupChildren db a, ⟨k, x⟩ ∉ db.accountCollectionHier → ¬ Above db k x

/-- The roll-up collection links the same collections whatever it links already. -/
theorem populateRollup_eq_ok (h : Manager db a) : populateRollupReportAc db a = .ok (k, db') ↔
    ∃ db₁, findOrCreateAutomatedAc db a .rollups = .ok (k, db₁) ∧ Linkable db₁ a k ∧
      db' = { db₁ with
        accountCollectionHier := sync (fun l => l.accountCollectionId = k)
          ((rollupChildren db₁ a).map fun x => ⟨k, x⟩) db₁.accountCollectionHier } := by
  have hnodup : ∀ db₁ k, findOrCreateAutomatedAc db a .rollups = .ok (k, db₁) →
      ∀ t : List Hier, (missing ((rollupChildren db₁ a).map fun x => (⟨k, x⟩ : Hier)) t).Nodup := by
    intro db₁ k hfound t
    obtain ⟨hdb₁, hsame, -⟩ := findOrCreate_spec h.constraints h.mem hfound
    have h₁ := h.sameBut hsame hdb₁
    refine ((nodup_rollupChildren hdb₁ h₁.mem h₁.named).map ?_).filter _
    intro x y hxy
    exact congrArg Hier.childAccountCollectionId hxy
  have hlinkable : ∀ db₁ k, (∀ new ∈ missing ((rollupChildren db₁ a).map fun x => (⟨k, x⟩ : Hier))
      db₁.accountCollectionHier, ¬ Above db₁ new.accountCollectionId new.childAccountCollectionId) ↔
        Linkable db₁ a k := fun db₁ k => by
    simp only [mem_missing, List.mem_map, Linkable]
    constructor
    · exact fun hnew x hx hnot => hnew ⟨k, x⟩ ⟨⟨x, hx, rfl⟩, hnot⟩
    · rintro hlink _ ⟨⟨x, hx, rfl⟩, hnot⟩
      exact hlink x hx hnot
  simp only [populateRollupReportAc, insDel, bind_eq_ok, raiseIf_eq_ok, Prod.exists,
    accountCollectionHierRecurseHandler_eq_ok, hlinkable, Except.ok.injEq, Prod.mk.injEq, not_not]
  constructor
  · rintro ⟨k', db₁, hfound, -, ⟨-, -, rfl⟩, -, hlink, rfl, rfl⟩
    exact ⟨db₁, hfound, hlink, rfl⟩
  · rintro ⟨db₁, hfound, hlink, rfl⟩
    exact ⟨k, db₁, hfound, _, ⟨(), hnodup db₁ k hfound _, rfl⟩, (), hlink, rfl, rfl⟩

/-- The roll-up is none of the collections that are to be linked. -/
theorem Manager.not_mem_rollupChildren (h : Manager db a) (hac : IsAc db a acType c) :
    c ∉ rollupChildren db a := by
  intro hc
  obtain ⟨r, hr, hchild⟩ := (mem_rollupChildren h.constraints h.mem h.named).mp hc
  have hlogin : r.login = a.login := by
    rcases hchild with hchild | ⟨-, hchild⟩
    · exact (hchild.name_eq h.constraints hac).1
    · exact (hchild.name_eq h.constraints hac).1
  exact h.ne hr (h.constraints.eq_of_login hr.mem_account h.mem hr.realm_eq hlogin)

theorem exists_populateRollup_iff (h : Manager db a) :
    (∃ k db', populateRollupReportAc db a = .ok (k, db')) ↔
      Ready db a .rollups [] ∧ ∀ k, IsAc db a .rollups k → Linkable db a k := by
  rw [← exists_findOrCreate_iff h.constraints]
  constructor
  · rintro ⟨k, db', hpop⟩
    obtain ⟨db₁, hfound, hlink, -⟩ := (populateRollup_eq_ok h).mp hpop
    refine ⟨⟨_, hfound⟩, fun k' hac => ?_⟩
    rw [findOrCreate_of_isAc h.constraints hac] at hfound
    cases hfound
    exact hlink
  · rintro ⟨⟨⟨k, db₁⟩, hfound⟩, hlink⟩
    refine ⟨k, _, (populateRollup_eq_ok h).mpr ⟨db₁, hfound, ?_, rfl⟩⟩
    rcases isAc_or_apart h.constraints hfound with hac | hapart
    · rw [findOrCreate_of_isAc h.constraints hac] at hfound
      cases hfound
      exact hlink _ hac
    · obtain ⟨hdb₁, hsame, hac₁, -, hhier, -⟩ := findOrCreate_spec h.constraints h.mem hfound
      intro x hx _ habove
      obtain rfl := (hapart x).1 (habove.congr fun l _ hl => hhier ▸ hl)
      exact (h.sameBut hsame hdb₁).not_mem_rollupChildren hac₁ hx

/-- The links of a roll-up collection that is right but for its own directs. -/
def children (db : Db) (a : Account) (k : ℕ) (t : List Hier) : List Hier :=
  sync (fun l => l.accountCollectionId = k) ((rollupChildren db a).map fun x => ⟨k, x⟩) t

theorem mem_children {t : List Hier} : ⟨k, x⟩ ∈ children db a k t ↔ x ∈ rollupChildren db a := by
  refine mem_sync.trans ?_
  have hown : ¬ decide ((⟨k, x⟩ : Hier).accountCollectionId = k) = false := by simp
  rw [or_iff_left fun hx => hown hx.2]
  exact List.mem_map_of_injective fun x y hxy => congrArg Hier.childAccountCollectionId hxy

theorem populateRollup_spec (h : Manager db a) (hpop : populateRollupReportAc db a = .ok (k, db')) :
    Manager db' a ∧ SameBut a .rollups db db' ∧ IsAc db' a .rollups k ∧
      db'.accountCollectionAccount = db.accountCollectionAccount ∧
        db'.accountCollectionHier = children db' a k db.accountCollectionHier := by
  obtain ⟨db₁, hfound, -, rfl⟩ := (populateRollup_eq_ok h).mp hpop
  obtain ⟨hdb₁, hsame, hac, -, hhier, hmembers⟩ := findOrCreate_spec h.constraints h.mem hfound
  have hsame' : SameBut a .rollups db { db₁ with
      accountCollectionHier := sync (fun l => l.accountCollectionId = k)
        ((rollupChildren db₁ a).map fun x => ⟨k, x⟩) db₁.accountCollectionHier } :=
    ⟨hsame.account, hsame.personCompany, hsame.isValue, hsame.isAc⟩
  have h₁ := h.sameBut hsame hdb₁
  refine ⟨h.sameBut hsame' { hdb₁ with hierRef := fun l hl => ?_ }, hsame', hac, hmembers rfl, ?_⟩
  · rcases mem_sync.mp hl with hl | ⟨hl, -⟩
    · obtain ⟨x, hx, rfl⟩ := List.mem_map.mp hl
      obtain ⟨r, -, hchild⟩ := (mem_rollupChildren hdb₁ h₁.mem h₁.named).mp hx
      refine ⟨hac.exists_mem, ?_⟩
      rcases hchild with hchild | ⟨-, hchild⟩
      · exact hchild.exists_mem
      · exact hchild.exists_mem
    · exact hdb₁.hierRef l hl
  · rw [← hhier]
    rfl

theorem populateRollup_of_children (h : Manager db a) (hac : IsAc db a .rollups k) {t : List Hier}
    (ht : db.accountCollectionHier = children db a k t ++ [⟨k, c⟩])
    (hc : c ∉ rollupChildren db a) :
    populateRollupReportAc db a = .ok (k, { db with accountCollectionHier := children db a k t }) := by
  refine (populateRollup_eq_ok h).mpr ⟨db, findOrCreate_of_isAc h.constraints hac, ?_, ?_⟩
  · intro x hx hnot
    rw [ht] at hnot
    exact absurd (List.mem_append_left _ (mem_children.mpr hx)) hnot
  rw [ht, children, sync_append]
  · exact decide_eq_true rfl
  · intro hx
    obtain ⟨x, hx, hlink⟩ := List.mem_map.mp hx
    cases hlink
    exact hc hx

/-- The collections that were there are the ones that are filled. -/
theorem populateDirect_id (hdb : Constraints db) (hpop : populateDirectReportAc db a = .ok (c, db'))
    (hac : IsAc db a .directs x) : x = c := by
  obtain ⟨db₁, hfound, -⟩ := populateDirect_eq_ok.mp hpop
  rw [findOrCreate_of_isAc hdb hac] at hfound
  cases hfound
  rfl

theorem populateRollup_id (h : Manager db a) (hpop : populateRollupReportAc db a = .ok (k, db'))
    (hac : IsAc db a .rollups x) : x = k := by
  obtain ⟨db₁, hfound, -⟩ := (populateRollup_eq_ok h).mp hpop
  rw [findOrCreate_of_isAc h.constraints hac] at hfound
  cases hfound
  rfl

theorem above_populateRollup (h : Manager db a) (hpop : populateRollupReportAc db a = .ok (k, db')) :
    Above db' k x ↔ Above db k x := by
  obtain ⟨-, -, -, -, hhier⟩ := populateRollup_spec h hpop
  constructor
  · refine fun hx => hx.congr fun l hk hl => ?_
    rw [hhier] at hl
    rcases mem_sync.mp hl with hl | ⟨hl, -⟩
    · obtain ⟨y, -, rfl⟩ := List.mem_map.mp hl
      exact absurd rfl hk
    · exact hl
  · refine fun hx => hx.congr fun l hk hl => ?_
    rw [hhier]
    exact mem_sync.mpr (.inr ⟨hl, decide_eq_false hk⟩)

end JazzHands.AutoAc

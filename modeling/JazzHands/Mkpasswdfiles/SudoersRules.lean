import Mathlib.Data.List.TakeWhile
import JazzHands.Mkpasswdfiles.Sudoers
import JazzHands.Postgres.RowStatement

/-!
# The rules of a sudoers file

The walk over the mclasses is a fold that collects rules and what they name (`Collected`);
`privileges_perm` and the lemmas on aliases read the lines of the file from it, up to their order.
`rightFile_iff` compares them with the rules that the file should have.
-/

namespace JazzHands.Mkpasswdfiles

open Library Relation

section

variable (t : SudoTables)

/-- The mclass `mid` is `m`, or above it. -/
def Above (m mid : ℕ) : Prop := ReflTransGen (fun x y => y ∈ t.parents x) m mid

/-- The constraints on the rows.  Keys start at 1. -/
structure Stored : Prop where
  hier : ∀ h ∈ t.deviceCollectionHier, h.1 ≠ 0
  rules : ∀ r ∈ t.rules, r.deviceCollectionId ≠ 0 ∧ r.runAsAccountCollectionId ≠ some 0
  sudoAlias : ∀ r ∈ t.rules, ∃ v, (r.sudoAliasName, v) ∈ t.sudoAlias
  accountCollection : ∀ r ∈ t.rules, ∃ name, (r.accountCollectionId, name) ∈ t.accountCollection
  runAs : ∀ r ∈ t.rules, ∀ id ∈ r.runAsAccountCollectionId,
    ∃ name, (id, name) ∈ t.accountCollection
  sudoAlias_pk : (t.sudoAlias.map (·.1)).Nodup
  accountCollection_pk : (t.accountCollection.map (·.1)).Nodup

end

variable {t : SudoTables} {m mid : ℕ} {r : SudoRule} {key : UclassKey} {ids l : List ℕ}

/-! ## The walk -/

theorem nodup_foldl_new (hids : ids.Nodup) :
    (l.foldl (fun ids id => if id ∈ ids then ids else id :: ids) ids).Nodup := by
  induction l generalizing ids with
  | nil => exact hids
  | cons id l ih =>
    rw [List.foldl_cons]
    split_ifs with hid
    · exact ih hids
    · exact ih (List.nodup_cons.mpr ⟨hid, hids⟩)

theorem mem_foldl_new : mid ∈ l.foldl (fun ids id => if id ∈ ids then ids else id :: ids) ids ↔
    mid ∈ ids ∨ mid ∈ l := by
  induction l generalizing ids with
  | nil => simp
  | cons id l ih =>
    rw [List.foldl_cons, ih, List.mem_cons]
    split_ifs with hid
    · constructor
      · exact fun h => h.imp_right Or.inr
      · rintro (h | rfl | h)
        · exact Or.inl h
        · exact Or.inl hid
        · exact Or.inr h
    · rw [List.mem_cons, or_comm (a := mid = id), or_assoc]

theorem parents_mem : ∀ x, ∀ y ∈ t.parents x, y ∈ t.deviceCollectionHier.map (·.1) := by
  intro x y hy
  obtain ⟨h, hh, rfl⟩ := List.mem_map.mp hy
  exact List.mem_map_of_mem (List.mem_of_mem_filter hh)

theorem mem_vDeviceCollHierDetail :
    mid ∈ (t.vDeviceCollHierDetail m).map (·.node) ↔ Above t m mid := by
  have h := Guarded.mem_unionAll_guarded (a := m) (z := mid) (parents_mem (t := t))
  rw [List.length_map] at h
  rw [List.mem_map]
  exact h

theorem Stored.ne_zero_of_above (ht : Stored t) (h : Above t m mid) (hne : mid ≠ m) : mid ≠ 0 := by
  rcases h.cases_tail with heq | ⟨x, -, hx⟩
  · exact absurd heq hne
  · obtain ⟨row, hrow, rfl⟩ := List.mem_map.mp (parents_mem x mid hx)
    exact ht.hier row hrow

theorem mem_getParentsForMclass (ht : Stored t) :
    mid ∈ t.getParentsForMclass m ↔ mid ≠ m ∧ Above t m mid := by
  have hall : ∀ id ∈ ((t.vDeviceCollHierDetail m).map (·.node)).filter (· ≠ m), id ≠ 0 := by
    intro id hid
    obtain ⟨hid, hne⟩ := List.mem_filter.mp hid
    exact ht.ne_zero_of_above (mem_vDeviceCollHierDetail.mp hid) (of_decide_eq_true hne)
  have htake : (((t.vDeviceCollHierDetail m).map (·.node)).filter (· ≠ m)).takeWhile (· ≠ 0) =
      ((t.vDeviceCollHierDetail m).map (·.node)).filter (· ≠ m) :=
    List.takeWhile_eq_self_iff.mpr fun id hid => decide_eq_true (hall id hid)
  rw [SudoTables.getParentsForMclass, mem_foldl_new, htake, List.mem_filter,
    mem_vDeviceCollHierDetail, decide_eq_true_iff]
  simp [and_comm]

theorem nodup_walk (ht : Stored t) : (t.getParentsForMclass m ++ [m]).Nodup := by
  refine List.nodup_append.mpr ⟨nodup_foldl_new List.nodup_nil, List.nodup_singleton m, ?_⟩
  intro x hx y hy hxy
  rw [List.mem_singleton.mp hy] at hxy
  exact ((mem_getParentsForMclass ht).mp hx).1 hxy

theorem mem_walk (ht : Stored t) : mid ∈ t.getParentsForMclass m ++ [m] ↔ Above t m mid := by
  rw [List.mem_append, List.mem_singleton, mem_getParentsForMclass ht]
  by_cases hne : mid = m
  · simp only [hne, or_true, true_iff]
    exact .refl
  · simp only [hne, not_false_eq_true, true_and, or_false, ne_eq]

/-! ## What the walk collects -/

section Hash

variable {κ β : Type*} [DecidableEq κ] {h h' : AList fun _ : κ => β} {k : κ} {v : β}

theorem lookup_foldl_insert {l : List (κ × β)}
    (hv : (l.foldl (fun h p => h.insert p.1 p.2) h).lookup k = some v) :
    h.lookup k = some v ∨ (k, v) ∈ l := by
  induction l generalizing h with
  | nil => exact Or.inl hv
  | cons p l ih =>
    rcases ih hv with hv | hv
    · by_cases hk : k = p.1
      · subst hk
        rw [AList.lookup_insert, Option.some.injEq] at hv
        exact Or.inr (hv ▸ List.mem_cons_self)
      · rw [AList.lookup_insert_ne hk] at hv
        exact Or.inl hv
    · exact Or.inr (List.mem_cons_of_mem _ hv)

theorem mem_foldl_insert {l : List (κ × β)} :
    k ∈ l.foldl (fun h p => h.insert p.1 p.2) h ↔ k ∈ h ∨ k ∈ l.map (·.1) := by
  induction l generalizing h with
  | nil => simp
  | cons p l ih =>
    rw [List.foldl_cons, ih, AList.mem_insert, List.map_cons, List.mem_cons, or_comm (a := k = p.1),
      or_assoc]

theorem mem_of_lookup_assign {l : List (κ × β)} (hv : (assign l).lookup k = some v) :
    (k, v) ∈ l :=
  (lookup_foldl_insert hv).resolve_left (by simp)

theorem mem_assign {l : List (κ × β)} : k ∈ assign l ↔ k ∈ l.map (·.1) := by
  rw [assign, mem_foldl_insert, or_iff_right (AList.notMem_empty k)]

end Hash

/-- The alias for a collection. -/
def SudoTables.collectionAlias (t : SudoTables) (key : UclassKey) : String :=
  aliasName key ((t.accountCollection.lookup key.uclassId).getD "")

/-- The hashes have what the rules that are collected ask for, and nothing but what the tables
have. -/
structure Collected (t : SudoTables) (x : Merged) : Prop where
  rules : ∀ r ∈ x.uspec, r ∈ t.rules
  cmnd : ∀ name v, x.cmnd.lookup name = some v → (name, v) ∈ t.sudoAlias
  cmnd_mem : ∀ r ∈ x.uspec, r.sudoAliasName ∈ x.cmnd
  ucn : ∀ key v, x.ucn.lookup key = some v → v = t.collectionAlias key
  ucn_mem : ∀ r ∈ x.uspec, ⟨.U, r.accountCollectionId⟩ ∈ x.ucn ∧
    ∀ id ∈ r.runAsAccountCollectionId, ⟨.R, id⟩ ∈ x.ucn

theorem mem_sudoUserSpec : r ∈ t.sudoUserSpec mid ↔ r ∈ t.rules ∧ r.deviceCollectionId = mid := by
  rw [SudoTables.sudoUserSpec, List.mem_filter, List.mem_mergeSort, decide_eq_true_iff]

theorem mem_rulesOf : r ∈ t.rulesOf mid ↔ r ∈ t.rules ∧ r.deviceCollectionId = mid := by
  rw [SudoTables.rulesOf, List.mem_filter, decide_eq_true_iff]

theorem lookup_of_mem {l : List (ℕ × String)} {id : ℕ} {name : String}
    (hpk : (l.map (·.1)).Nodup) (h : (id, name) ∈ l) : l.lookup id = some name := by
  induction l with
  | nil => exact absurd h List.not_mem_nil
  | cons p l ih =>
    obtain ⟨hnew, hpk⟩ := List.nodup_cons.mp hpk
    rcases List.mem_cons.mp h with rfl | h
    · exact List.lookup_cons_self
    · have hne : id ≠ p.1 := fun heq => hnew (List.mem_map.mpr ⟨(id, name), h, heq⟩)
      rw [List.lookup_cons, beq_eq_false_iff_ne.mpr hne]
      exact ih hpk h

theorem mem_sudoUclasses {c : Utype × ℕ × String} : c ∈ t.sudoUclasses mid ↔
    (c.2.1, c.2.2) ∈ t.accountCollection ∧
      ((c.1 = .U ∧ ∃ r ∈ t.rulesOf mid, r.accountCollectionId = c.2.1) ∨
        (c.1 = .R ∧ ∃ r ∈ t.rulesOf mid, r.runAsAccountCollectionId = some c.2.1)) := by
  obtain ⟨utype, id, name⟩ := c
  simp only [SudoTables.sudoUclasses, List.mem_append, List.mem_dedup, List.mem_flatMap,
    List.mem_map, List.mem_filter, decide_eq_true_eq, Prod.mk.injEq]
  constructor
  · rintro (⟨r, hr, p, ⟨hp, hid⟩, rfl, rfl⟩ | ⟨r, hr, p, ⟨hp, hid⟩, rfl, rfl⟩)
    · exact ⟨hp, Or.inl ⟨rfl, r, hr, hid.symm⟩⟩
    · exact ⟨hp, Or.inr ⟨rfl, r, hr, hid.symm⟩⟩
  · rintro ⟨hp, ⟨rfl, r, hr, hid⟩ | ⟨rfl, r, hr, hid⟩⟩
    · exact Or.inl ⟨r, hr, (id, name), ⟨hp, hid.symm⟩, rfl, rfl⟩
    · exact Or.inr ⟨r, hr, (id, name), ⟨hp, hid.symm⟩, rfl, rfl⟩

theorem mem_sudoCmndAliases {p : String × String} : p ∈ t.sudoCmndAliases mid ↔
    p ∈ t.sudoAlias ∧ ∃ r ∈ t.rulesOf mid, r.sudoAliasName = p.1 := by
  simp only [SudoTables.sudoCmndAliases, List.mem_flatMap, List.mem_filter, decide_eq_true_eq]
  constructor
  · rintro ⟨r, hr, hp, hname⟩
    exact ⟨hp, r, hr, hname.symm⟩
  · rintro ⟨hp, r, hr, hname⟩
    exact ⟨r, hr, hp, hname.symm⟩

theorem lookup_getSudoUclassesForMclass (ht : Stored t) {v : String}
    (hv : (t.getSudoUclassesForMclass mid).lookup key = some v) : v = t.collectionAlias key := by
  obtain ⟨c, hc, heq⟩ := List.mem_map.mp (mem_of_lookup_assign hv)
  cases heq
  rw [SudoTables.collectionAlias, lookup_of_mem ht.accountCollection_pk (mem_sudoUclasses.mp hc).1,
    Option.getD_some]

theorem mem_getSudoUclassesForMclass (ht : Stored t) (hr : r ∈ t.sudoUserSpec mid) :
    ⟨.U, r.accountCollectionId⟩ ∈ t.getSudoUclassesForMclass mid ∧
      ∀ id ∈ r.runAsAccountCollectionId, ⟨.R, id⟩ ∈ t.getSudoUclassesForMclass mid := by
  have hrule := mem_sudoUserSpec.mp hr
  have hof : r ∈ t.rulesOf mid := mem_rulesOf.mpr hrule
  refine ⟨?_, fun id hid => ?_⟩
  · obtain ⟨name, hname⟩ := ht.accountCollection r hrule.1
    have hmem : (.U, r.accountCollectionId, name) ∈ t.sudoUclasses mid :=
      mem_sudoUclasses.mpr ⟨hname, Or.inl ⟨rfl, r, hof, rfl⟩⟩
    exact mem_assign.mpr (List.mem_map.mpr ⟨_, List.mem_map_of_mem hmem, rfl⟩)
  · obtain ⟨name, hname⟩ := ht.runAs r hrule.1 id hid
    have hmem : (.R, id, name) ∈ t.sudoUclasses mid :=
      mem_sudoUclasses.mpr ⟨hname, Or.inr ⟨rfl, r, hof, hid⟩⟩
    exact mem_assign.mpr (List.mem_map.mpr ⟨_, List.mem_map_of_mem hmem, rfl⟩)

theorem mem_assign_sudoCmndAliases (ht : Stored t) (hr : r ∈ t.sudoUserSpec mid) :
    r.sudoAliasName ∈ assign (t.sudoCmndAliases mid) := by
  have hrule := mem_sudoUserSpec.mp hr
  obtain ⟨v, hv⟩ := ht.sudoAlias r hrule.1
  exact mem_assign.mpr (List.mem_map.mpr
    ⟨_, mem_sudoCmndAliases.mpr ⟨hv, r, mem_rulesOf.mpr hrule, rfl⟩, rfl⟩)

theorem Collected.step {x : Merged} (ht : Stored t) (h : Collected t x) :
    Collected t (mergeMclass t x mid) := by
  unfold mergeMclass
  split_ifs with hzero hdefault
  · exact h
  · exact h
  refine ⟨fun r hr => ?_, fun name v hv => ?_, fun r hr => ?_, fun key v hv => ?_, fun r hr => ?_⟩
  · rcases List.mem_append.mp hr with hr | hr
    · exact h.rules r hr
    · exact (mem_sudoUserSpec.mp hr).1
  · rcases AList.lookup_union_eq_some.mp hv with hv | ⟨-, hv⟩
    · exact (mem_sudoCmndAliases.mp (mem_of_lookup_assign hv)).1
    · exact h.cmnd name v hv
  · rw [AList.mem_union]
    rcases List.mem_append.mp hr with hr | hr
    · exact Or.inr (h.cmnd_mem r hr)
    · exact Or.inl (mem_assign_sudoCmndAliases ht hr)
  · rcases AList.lookup_union_eq_some.mp hv with hv | ⟨-, hv⟩
    · exact lookup_getSudoUclassesForMclass ht hv
    · exact h.ucn key v hv
  · simp only [AList.mem_union]
    rcases List.mem_append.mp hr with hr | hr
    · exact (h.ucn_mem r hr).imp Or.inr fun hrun id hid => Or.inr (hrun id hid)
    · exact (mem_getSudoUclassesForMclass ht hr).imp Or.inl fun hrun id hid => Or.inl (hrun id hid)

theorem collected_mergedFor (ht : Stored t) : Collected t (mergedFor t m) := by
  have hrun : ∀ (l : List ℕ) (x : Merged), Collected t x → Collected t (l.foldl (mergeMclass t) x) := by
    intro l
    induction l with
    | nil => exact fun x hx => hx
    | cons mid l ih => exact fun x hx => ih _ (hx.step ht)
  exact hrun _ _ ⟨by simp, by simp, by simp, by simp, by simp⟩

/-- The mclass has a default of its own, and the walk does not skip it. -/
def SudoTables.HasDefault (t : SudoTables) (mid : ℕ) : Prop := t.sudoDefaults mid ≠ []
  deriving Decidable

/-- The rules that are collected: those of the mclasses that are not skipped. -/
theorem uspec_foldl {x : Merged} : (l.foldl (mergeMclass t) x).uspec =
    x.uspec ++ (l.filter fun mid => mid ≠ 0 ∧ t.HasDefault mid).flatMap t.sudoUserSpec := by
  induction l generalizing x with
  | nil => simp
  | cons mid l ih =>
    rw [List.foldl_cons, ih, List.filter_cons]
    unfold mergeMclass SudoTables.HasDefault
    split_ifs with hzero hdefault <;> simp_all

/-- The elements that meet one of two conditions, of which no two hold at once. -/
theorem filter_or_perm {α : Type*} {l : List α} {p q : α → Prop} [DecidablePred p]
    [DecidablePred q] (hpq : ∀ x ∈ l, p x → ¬ q x) :
    (l.filter p ++ l.filter q).Perm (l.filter fun x => p x ∨ q x) := by
  induction l with
  | nil => exact .refl _
  | cons x l ih =>
    have ih := ih fun y hy => hpq y (List.mem_cons_of_mem _ hy)
    by_cases hp : p x
    · have hq := hpq x List.mem_cons_self hp
      simpa [hp, hq] using ih
    · by_cases hq : q x
      · simpa [hp, hq] using List.perm_middle.trans (ih.cons x)
      · simpa [hp, hq] using ih

theorem flatMap_sudoUserSpec_perm (hl : l.Nodup) : (l.flatMap t.sudoUserSpec).Perm
    (t.rules.filter fun r => r.deviceCollectionId ∈ l) := by
  induction l with
  | nil => simp
  | cons mid l ih =>
    obtain ⟨hnew, hl⟩ := List.nodup_cons.mp hl
    have hfirst : (t.sudoUserSpec mid).Perm (t.rules.filter (·.deviceCollectionId = mid)) :=
      (List.mergeSort_perm _ _).filter _
    have hor := filter_or_perm (l := t.rules) (p := fun r => r.deviceCollectionId = mid)
      (q := fun r => r.deviceCollectionId ∈ l) fun r _ hr hmem => hnew (hr ▸ hmem)
    simpa only [List.flatMap_cons, List.mem_cons] using (hfirst.append (ih hl)).trans hor

theorem uspec_perm (ht : Stored t) : (mergedFor t m).uspec.Perm
    (t.rules.filter fun r => r.deviceCollectionId ∈ t.getParentsForMclass m ++ [m] ∧
      t.HasDefault r.deviceCollectionId) := by
  have hperm := flatMap_sudoUserSpec_perm (t := t) ((nodup_walk (m := m) ht).filter
    fun mid => decide (mid ≠ 0 ∧ t.HasDefault mid))
  rw [mergedFor, uspec_foldl, List.nil_append]
  refine hperm.trans (List.Perm.of_eq (List.filter_congr fun r hr => ?_))
  rw [decide_eq_decide, List.mem_filter, decide_eq_true_iff]
  simp only [ne_eq, (ht.rules r hr).1, not_false_eq_true, true_and]

/-! ## The user aliases -/

/-- What stands for an uclass after `get_sudoers_user_aliases`, where `name` did before. -/
def pruned (t : SudoTables) (key : UclassKey) (name : Option String) : Option String :=
  match t.sudoExpandUclass key.uclassId with
  | [] => none
  | [login] => some login
  | _ => name

/-- The line for an uclass that `name` stands for. -/
def aliasLine (t : SudoTables) (key : UclassKey) (name : Option String) : Option UserAlias :=
  match t.sudoExpandUclass key.uclassId with
  | [] => none
  | [_] => none
  | logins => some ⟨key.utype, name.getD "", logins.mergeSort (· ≤ ·)⟩

variable {keys : List UclassKey} {x : List UserAlias × UcName}

theorem userAliasStep_eq (t : SudoTables) (x : List UserAlias × UcName) (key : UclassKey) :
    (userAliasStep t x key).1 = x.1 ++ (aliasLine t key (x.2.lookup key)).toList ∧
    ∀ key', (userAliasStep t x key).2.lookup key' =
      if key' = key then pruned t key (x.2.lookup key) else x.2.lookup key' := by
  unfold userAliasStep aliasLine pruned
  rcases t.sudoExpandUclass key.uclassId with _ | ⟨login, _ | ⟨login', logins⟩⟩
  · refine ⟨by simp, fun key' => ?_⟩
    split_ifs with hkey
    · rw [hkey]
      exact AList.lookup_erase _ _
    · exact AList.lookup_erase_ne hkey
  · refine ⟨by simp, fun key' => ?_⟩
    split_ifs with hkey
    · rw [hkey]
      exact AList.lookup_insert _
    · exact AList.lookup_insert_ne hkey
  · refine ⟨by simp, fun key' => ?_⟩
    split_ifs with hkey
    · rw [hkey]
    · rfl

theorem foldl_userAliasStep (hkeys : keys.Nodup) :
    (keys.foldl (userAliasStep t) x).1 =
      x.1 ++ keys.filterMap (fun key => aliasLine t key (x.2.lookup key)) ∧
    ∀ key, (keys.foldl (userAliasStep t) x).2.lookup key =
      if key ∈ keys then pruned t key (x.2.lookup key) else x.2.lookup key := by
  induction keys generalizing x with
  | nil => simp
  | cons key keys ih =>
    obtain ⟨hnew, hkeys⟩ := List.nodup_cons.mp hkeys
    obtain ⟨hline, hlookup⟩ := userAliasStep_eq t x key
    obtain ⟨hlines, hlookups⟩ := ih (x := userAliasStep t x key) hkeys
    have hkeep : ∀ key' ∈ keys, (userAliasStep t x key).2.lookup key' = x.2.lookup key' := by
      intro key' hkey'
      rw [hlookup, if_neg fun heq : key' = key => hnew (heq ▸ hkey')]
    refine ⟨?_, fun key' => ?_⟩
    · have hcongr : keys.filterMap (fun k => aliasLine t k ((userAliasStep t x key).2.lookup k)) =
          keys.filterMap fun k => aliasLine t k (x.2.lookup k) :=
        List.filterMap_congr fun k hk => by rw [hkeep k hk]
      rw [List.foldl_cons, hlines, hline, hcongr, List.append_assoc, List.filterMap_cons]
      cases aliasLine t key (x.2.lookup key) with
      | none => rfl
      | some line => rfl
    · rw [List.foldl_cons, hlookups, hlookup]
      by_cases hk : key' = key
      · subst hk
        rw [if_neg hnew, if_pos rfl, if_pos List.mem_cons_self]
      · rw [if_neg hk]
        simp only [List.mem_cons, hk, false_or]

/-- Nothing for an uclass that is empty, the login for one with a single account, and else the
alias. -/
def SudoTables.shown (t : SudoTables) (key : UclassKey) : String :=
  match t.enabledLogins key.uclassId with
  | [login] => login
  | _ => t.collectionAlias key

theorem sudoExpandUclass_eq (hrules : t.rules ≠ []) (uclassId : ℕ) :
    t.sudoExpandUclass uclassId = t.enabledLogins uclassId := if_neg hrules

theorem pruned_eq (hrules : t.rules ≠ []) : pruned t key (some (t.collectionAlias key)) =
    if t.enabledLogins key.uclassId = [] then none else some (t.shown key) := by
  unfold pruned SudoTables.shown
  rw [sudoExpandUclass_eq hrules]
  rcases t.enabledLogins key.uclassId with _ | ⟨login, _ | ⟨login', logins⟩⟩ <;> simp

theorem aliasLine_eq (hrules : t.rules ≠ [])
    (hlogins : 2 ≤ (t.enabledLogins key.uclassId).length) :
    aliasLine t key (some (t.collectionAlias key)) = some ⟨key.utype, t.collectionAlias key,
      (t.enabledLogins key.uclassId).mergeSort (· ≤ ·)⟩ := by
  unfold aliasLine
  rw [sudoExpandUclass_eq hrules]
  rcases hl : t.enabledLogins key.uclassId with _ | ⟨login, _ | ⟨login', logins⟩⟩
  · simp [hl] at hlogins
  · simp [hl] at hlogins
  · rfl

section Aliases

variable {x : Merged}

theorem keys_sorted : (x.ucn.keys.mergeSort fun a b => a.text ≤ b.text).Nodup :=
  (List.mergeSort_perm _ _).nodup_iff.mpr x.ucn.nodupKeys

theorem mem_keys_sorted : key ∈ x.ucn.keys.mergeSort (fun a b => a.text ≤ b.text) ↔ key ∈ x.ucn := by
  rw [List.mem_mergeSort, AList.mem_keys]

theorem Collected.lookup_ucn (h : Collected t x) (hkey : key ∈ x.ucn) :
    x.ucn.lookup key = some (t.collectionAlias key) := by
  obtain ⟨v, hv⟩ := Option.isSome_iff_exists.mp (AList.lookup_isSome.mpr hkey)
  rw [hv, h.ucn key v hv]

theorem Collected.lookup_aliases (h : Collected t x) (hrules : t.rules ≠ []) (hkey : key ∈ x.ucn) :
    (getSudoersUserAliases t x.ucn).2.lookup key =
      if t.enabledLogins key.uclassId = [] then none else some (t.shown key) := by
  rw [getSudoersUserAliases, (foldl_userAliasStep keys_sorted).2 key, if_pos (mem_keys_sorted.mpr hkey),
    h.lookup_ucn hkey, pruned_eq hrules]

theorem getSudoersUserAliases_lines : (getSudoersUserAliases t x.ucn).1 =
    (x.ucn.keys.mergeSort fun a b => a.text ≤ b.text).filterMap
      fun key => aliasLine t key (x.ucn.lookup key) := by
  rw [getSudoersUserAliases, (foldl_userAliasStep keys_sorted).1, List.nil_append]

end Aliases

/-! ## The lines of the rules -/

/-- Each collection of the rule has an enabled account. -/
def Eligible (t : SudoTables) (r : SudoRule) : Prop :=
  t.enabledLogins r.accountCollectionId ≠ [] ∧
    ∀ id ∈ r.runAsAccountCollectionId, t.enabledLogins id ≠ []
  deriving Decidable

def privilegeOf (t : SudoTables) (r : SudoRule) : Privilege where
  uclass := t.shown ⟨.U, r.accountCollectionId⟩
  runas := match r.runAsAccountCollectionId with
    | none => "ALL"
    | some id => t.shown ⟨.R, id⟩
  passwd := flagText "PASSWD:" "NOPASSWD:" r.requiresPassword
  exec := flagText "EXEC:" "NOEXEC:" r.canExecChild
  cmnd := r.sudoAliasName

theorem Stored.runAs_eq (ht : Stored t) (hr : r ∈ t.rules) :
    r.runAs = r.runAsAccountCollectionId := by
  have hne := (ht.rules r hr).2
  unfold SudoRule.runAs
  cases hrun : r.runAsAccountCollectionId with
  | none => rfl
  | some id =>
    have hid : id ≠ 0 := fun h => hne (by rw [hrun, h])
    simp [hid]

theorem Collected.privilege_eq {x : Merged} (ht : Stored t) (h : Collected t x) (hr : r ∈ x.uspec) :
    privilege (getSudoersUserAliases t x.ucn).2 r =
      if Eligible t r then some (privilegeOf t r) else none := by
  have hrule := h.rules r hr
  have hrules : t.rules ≠ [] := List.ne_nil_of_mem hrule
  obtain ⟨huser, hrun⟩ := h.ucn_mem r hr
  have hlookup := h.lookup_aliases hrules huser
  have hrunAs := ht.runAs_eq hrule
  unfold privilege privilegeOf Eligible
  rw [hlookup, hrunAs]
  clear hr hrule hlookup hrunAs
  obtain ⟨_, _, userId, runAs, _, _⟩ := r
  by_cases hempty : t.enabledLogins userId = []
  · simp [hempty]
  cases runAs with
  | none => simp [hempty]
  | some runAsId =>
    have hlookup := h.lookup_aliases hrules (hrun runAsId rfl)
    by_cases hempty' : t.enabledLogins runAsId = []
    · simp [hempty', hlookup]
    · simp [hempty, hempty', hlookup]

theorem privileges_sudoersFile (ht : Stored t) : (sudoersFile t m).privileges =
    ((mergedFor t m).uspec.filter (Eligible t ·)).map (privilegeOf t) := by
  have h := collected_mergedFor (m := m) ht
  have hcongr : (mergedFor t m).uspec.filterMap
        (privilege (getSudoersUserAliases t (mergedFor t m).ucn).2) =
      (mergedFor t m).uspec.filterMap
        fun r => if Eligible t r then some (privilegeOf t r) else none :=
    List.filterMap_congr fun r hr => h.privilege_eq ht hr
  refine hcongr.trans ?_
  induction (mergedFor t m).uspec with
  | nil => rfl
  | cons r l ih =>
    by_cases hr : Eligible t r
    · simp [hr, ih]
    · simp [hr, ih]

/-! ## The aliases that are defined -/

def Utype.char : Utype → Char
  | .U => 'U'
  | .R => 'R'

theorem toList_aliasName (key : UclassKey) (name : String) : ∃ s, (aliasName key name).toList =
    key.utype.char :: (Nat.toDigits 10 key.uclassId ++ '_' :: s) := by
  obtain ⟨utype, id⟩ := key
  refine ⟨(name.map fun c =>
    if c.toUpper.isAlphanum = true ∨ c = '_' then c.toUpper else '_').toList, ?_⟩
  cases utype <;> simp [aliasName, UclassKey.text, Utype.letter, Utype.char]

/-- The digits of a key end where `_` is. -/
theorem aliasName_inj {key' : UclassKey} {name name' : String}
    (h : aliasName key name = aliasName key' name') : key = key' := by
  have hread : ∀ n (s : List Char), (Nat.toDigits 10 n ++ '_' :: s).takeWhile Char.isDigit =
      Nat.toDigits 10 n := by
    intro n s
    have hdigits : ∀ c ∈ Nat.toDigits 10 n, c.isDigit = true := fun c hc =>
      Nat.isDigit_of_mem_toDigits (by decide) (by decide) hc
    rw [List.takeWhile_append_of_pos hdigits]
    simp
  obtain ⟨s, hs⟩ := toList_aliasName key name
  obtain ⟨s', hs'⟩ := toList_aliasName key' name'
  rw [h, hs', List.cons.injEq] at hs
  have htype : key.utype = key'.utype := by
    have hchar := hs.1
    cases hkey : key.utype <;> cases hkey' : key'.utype <;> simp_all [Utype.char]
  have hid : Nat.toDigits 10 key'.uclassId = Nat.toDigits 10 key.uclassId := by
    rw [← hread key'.uclassId s', hs.2, hread]
  have hparsed := congrArg (fun digits => Nat.ofDigitChars 10 digits 0) hid
  exact UclassKey.ext htype (by simpa using hparsed.symm)

theorem SudoTables.collectionAlias_inj {key' : UclassKey}
    (h : t.collectionAlias key = t.collectionAlias key') : key = key' :=
  aliasName_inj h

/-- The file defines the alias of an uclass once, with the logins of the uclass. -/
def DefinesUclass (t : SudoTables) (f : SudoersFile) (key : UclassKey) : Prop :=
  ∃ logins, logins.Perm (t.enabledLogins key.uclassId) ∧
    f.userAliases.filter (·.name = t.collectionAlias key) =
      [⟨key.utype, t.collectionAlias key, logins⟩]

/-- The file defines a command alias once, with the command of the alias. -/
def DefinesCmnd (t : SudoTables) (f : SudoersFile) (name : String) : Prop :=
  ∃ value, (name, value) ∈ t.sudoAlias ∧
    f.cmndAliases.filter (·.1 = name) = [(name, chomp value)]

def SudoRule.uclassKeys (r : SudoRule) : List UclassKey :=
  ⟨.U, r.accountCollectionId⟩ :: r.runAsAccountCollectionId.toList.map (⟨.R, ·⟩)

theorem userAliases_sudoersFile (ht : Stored t) : (sudoersFile t m).userAliases =
    ((mergedFor t m).ucn.keys.mergeSort fun a b => a.text ≤ b.text).filterMap
      fun key => aliasLine t key (some (t.collectionAlias key)) := by
  have h := collected_mergedFor (m := m) ht
  refine getSudoersUserAliases_lines.trans (List.filterMap_congr fun key hkey => ?_)
  rw [h.lookup_ucn (mem_keys_sorted.mp hkey)]

theorem name_aliasLine {line : UserAlias}
    (h : aliasLine t key (some (t.collectionAlias key)) = some line) :
    line.name = t.collectionAlias key := by
  unfold aliasLine at h
  split at h
  · simp at h
  · simp at h
  · rw [← Option.some.inj h]
    rfl

theorem nodup_userAliases (ht : Stored t) :
    ((sudoersFile t m).userAliases.map (·.name)).Nodup := by
  rw [userAliases_sudoersFile ht, List.map_filterMap]
  refine List.Nodup.filterMap (fun key key' name hname hname' => ?_) keys_sorted
  obtain ⟨line, hline, rfl⟩ := Option.map_eq_some_iff.mp hname
  obtain ⟨line', hline', heq⟩ := Option.map_eq_some_iff.mp hname'
  rw [name_aliasLine hline, name_aliasLine hline'] at heq
  exact (SudoTables.collectionAlias_inj heq).symm

theorem definesUclass (ht : Stored t) (hkey : key ∈ (mergedFor t m).ucn) (hrules : t.rules ≠ [])
    (hlogins : 2 ≤ (t.enabledLogins key.uclassId).length) :
    DefinesUclass t (sudoersFile t m) key := by
  refine ⟨(t.enabledLogins key.uclassId).mergeSort (· ≤ ·), List.mergeSort_perm _ _, ?_⟩
  have hline : (⟨key.utype, t.collectionAlias key,
      (t.enabledLogins key.uclassId).mergeSort (· ≤ ·)⟩ : UserAlias) ∈
      (sudoersFile t m).userAliases := by
    rw [userAliases_sudoersFile ht]
    exact List.mem_filterMap.mpr ⟨key, mem_keys_sorted.mpr hkey, aliasLine_eq hrules hlogins⟩
  exact Postgres.RowStatement.filter_key (nodup_userAliases ht) hline

theorem map_fst_cmndAliases : (sudoersFile t m).cmndAliases.map (·.1) =
    ((mergedFor t m).cmnd.keys.mergeSort (· ≤ ·)).filter (· ≠ "ALL") := by
  show List.map _ (List.map _ _) = _
  rw [List.map_map]
  exact List.map_id _

theorem definesCmnd (ht : Stored t) (hr : r ∈ (mergedFor t m).uspec) (hall : r.sudoAliasName ≠ "ALL") :
    DefinesCmnd t (sudoersFile t m) r.sudoAliasName := by
  have h := collected_mergedFor (m := m) ht
  have hmem := h.cmnd_mem r hr
  obtain ⟨value, hvalue⟩ := Option.isSome_iff_exists.mp (AList.lookup_isSome.mpr hmem)
  have hnodup : ((sudoersFile t m).cmndAliases.map (·.1)).Nodup := by
    rw [map_fst_cmndAliases]
    exact ((List.mergeSort_perm _ _).nodup_iff.mpr (mergedFor t m).cmnd.nodupKeys).filter _
  have hline : (r.sudoAliasName, chomp value) ∈ (sudoersFile t m).cmndAliases := by
    refine List.mem_map.mpr ⟨r.sudoAliasName, ?_, by rw [hvalue, Option.getD_some]⟩
    exact List.mem_filter.mpr ⟨List.mem_mergeSort.mpr hmem, decide_eq_true hall⟩
  exact ⟨value, h.cmnd _ _ hvalue, Postgres.RowStatement.filter_key hnodup hline⟩

/-! ## The file that the rules ask for -/

open Classical in
/-- The lines that the file of a mclass should have: one for each rule of the mclass or of one above
it that has enabled accounts, with the aliases that they use. -/
structure RightFile (t : SudoTables) (m : ℕ) (f : SudoersFile) : Prop where
  privileges : f.privileges.Perm
    ((t.rules.filter fun r => Above t m r.deviceCollectionId ∧ Eligible t r).map (privilegeOf t))
  aliases : ∀ p ∈ f.privileges, ∃ r ∈ t.rules, p = privilegeOf t r ∧
    (p.cmnd ≠ "ALL" → DefinesCmnd t f p.cmnd) ∧
    ∀ key ∈ r.uclassKeys, 2 ≤ (t.enabledLogins key.uclassId).length → DefinesUclass t f key

theorem aliases_sudoersFile (ht : Stored t) {p : Privilege} (hp : p ∈ (sudoersFile t m).privileges) :
    ∃ r ∈ t.rules, p = privilegeOf t r ∧
      (p.cmnd ≠ "ALL" → DefinesCmnd t (sudoersFile t m) p.cmnd) ∧
      ∀ key ∈ r.uclassKeys, 2 ≤ (t.enabledLogins key.uclassId).length →
        DefinesUclass t (sudoersFile t m) key := by
  have h := collected_mergedFor (m := m) ht
  rw [privileges_sudoersFile ht] at hp
  obtain ⟨r, hr, rfl⟩ := List.mem_map.mp hp
  have hr := (List.mem_filter.mp hr).1
  have hrule := h.rules r hr
  obtain ⟨huser, hrun⟩ := h.ucn_mem r hr
  refine ⟨r, hrule, rfl, definesCmnd ht hr, fun key hkey hlogins => ?_⟩
  refine definesUclass ht ?_ (List.ne_nil_of_mem hrule) hlogins
  rcases List.mem_cons.mp hkey with rfl | hkey
  · exact huser
  · obtain ⟨id, hid, rfl⟩ := List.mem_map.mp hkey
    exact hrun id (Option.mem_toList.mp hid)

open Classical in
/-- The lines are those of the rules whose mclass is not skipped. -/
theorem privileges_perm (ht : Stored t) : (sudoersFile t m).privileges.Perm
    ((t.rules.filter fun r => t.HasDefault r.deviceCollectionId ∧
      Above t m r.deviceCollectionId ∧ Eligible t r).map (privilegeOf t)) := by
  rw [privileges_sudoersFile ht]
  refine (((uspec_perm ht).filter _).map _).trans (List.Perm.of_eq (congrArg _ ?_))
  rw [List.filter_filter]
  refine List.filter_congr fun r _ => ?_
  rw [Bool.eq_iff_iff]
  simp only [Bool.and_eq_true, decide_eq_true_eq, mem_walk ht]
  tauto

theorem forall_of_length_filter {α : Type*} {l : List α} {p q : α → Prop} [DecidablePred p]
    [DecidablePred q] (hpq : ∀ x ∈ l, p x → q x)
    (hlength : (l.filter p).length = (l.filter q).length) : ∀ x ∈ l, q x → p x := by
  intro x hx hq
  have hsub : l.filter p = (l.filter q).filter p := by
    rw [List.filter_filter]
    refine List.filter_congr fun y hy => ?_
    by_cases hp : p y
    · simp [hp, hpq y hy hp]
    · simp [hp]
  have heq : (l.filter q).filter p = l.filter q :=
    List.filter_sublist.eq_of_length (hsub ▸ hlength)
  have hmem : x ∈ l.filter q := List.mem_filter.mpr ⟨hx, decide_eq_true hq⟩
  exact of_decide_eq_true (List.filter_eq_self.mp heq x hmem)

/-- The file is right when no rule that it should have stands at a mclass that has no default. -/
theorem rightFile_iff (ht : Stored t) : RightFile t m (sudoersFile t m) ↔
    ∀ r ∈ t.rules, Above t m r.deviceCollectionId → Eligible t r →
      t.HasDefault r.deviceCollectionId := by
  classical
  have hperm := privileges_perm (m := m) ht
  constructor
  · intro hright r hr habove helig
    have hlength := (hperm.symm.trans hright.privileges).length_eq
    rw [List.length_map, List.length_map] at hlength
    have hall := forall_of_length_filter (fun r _ h => h.2) hlength r hr ⟨habove, helig⟩
    exact hall.1
  · intro hdefault
    refine ⟨?_, fun p hp => aliases_sudoersFile ht hp⟩
    refine hperm.trans (List.Perm.of_eq (congrArg _ (List.filter_congr fun r hr => ?_)))
    rw [decide_eq_decide]
    exact ⟨fun h => h.2, fun h => ⟨hdefault r hr h.1 h.2, h⟩⟩

/-- The mclass 3 is above 1 and has a rule for two accounts. -/
def parentRule : SudoTables where
  sudoDefault := [(1, some "env_reset"), (3, some "env_reset")]
  rules := [⟨"REBOOT", 3, 2, none, some "N", none⟩]
  sudoAlias := [("REBOOT", "/sbin/reboot")]
  accountCollection := [(2, "admins")]
  account := [⟨5, "joe", "enabled"⟩, ⟨6, "ann", "enabled"⟩]
  accountCollectionHierRecurse := [(2, 2)]
  accountCollectionAccount := [(2, 5), (2, 6)]
  deviceCollectionHier := [(3, 1)]

/-- The same, where the mclass 3 has no default of its own. -/
def bareParent : SudoTables := { parentRule with sudoDefault := [(1, some "env_reset")] }

theorem stored_parentRule : Stored parentRule where
  hier := by decide
  rules := by decide
  sudoAlias := by simp [parentRule]
  accountCollection := by simp [parentRule]
  runAs := by simp [parentRule]
  sudoAlias_pk := by decide
  accountCollection_pk := by decide

theorem stored_bareParent : Stored bareParent := by
  obtain ⟨hhier, hrules, halias, hcollection, hrunAs, hpk, hpk'⟩ := stored_parentRule
  exact ⟨hhier, hrules, halias, hcollection, hrunAs, hpk, hpk'⟩

theorem rightFile_parentRule : RightFile parentRule 1 (sudoersFile parentRule 1) := by
  refine (rightFile_iff stored_parentRule).mpr fun r hr _ _ => ?_
  have hdefault : ∀ r ∈ parentRule.rules, parentRule.HasDefault r.deviceCollectionId := by decide
  exact hdefault r hr

/-- The rule of the mclass above, which has no default, is lost. -/
theorem sudoersFile_bareParent_wrong :
    Stored bareParent ∧ ¬ RightFile bareParent 1 (sudoersFile bareParent 1) := by
  classical
  refine ⟨stored_bareParent, fun hright => ?_⟩
  have hspec : (mergedFor bareParent 1).uspec = [] :=
    ((uspec_perm stored_bareParent).trans (List.Perm.of_eq (by decide))).eq_nil
  have hnone : (sudoersFile bareParent 1).privileges = [] := by
    rw [privileges_sudoersFile stored_bareParent, hspec]
    rfl
  have hlines := List.map_eq_nil_iff.mp (List.nil_perm.mp (hnone ▸ hright.privileges))
  have habove : Above bareParent 1 3 := .single (by decide)
  exact List.filter_eq_nil_iff.mp hlines _ List.mem_cons_self
    (decide_eq_true ⟨habove, by decide⟩)

end JazzHands.Mkpasswdfiles

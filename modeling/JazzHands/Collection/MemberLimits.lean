import JazzHands.Collection.MemberEnforce
import JazzHands.Library.Runs

/-!
# The limits on members hold

The limit on the members in a relation is compared with the members of all the collections of the
type.
-/

namespace JazzHands.MemberLimits

open Postgres RowStatement Library

/-- There may be at most so many rows that count. -/
inductive Limit (cat : Catalog) : (Member → Bool) → ℕ → Prop
  | members {c : AccountCollection} {act : CollectionType} {n : ℕ} :
      c ∈ cat.accountCollection → act ∈ cat.valAccountCollectionType →
      act.accountCollectionType = c.accountCollectionType → act.maxNumMembers = some n →
      Limit cat (fun m => m.accountCollectionId = c.accountCollectionId) n
  | membersInRelation {c : AccountCollection} {act : TypeRelation} {n : ℕ} :
      c ∈ cat.accountCollection → act ∈ cat.accountCollectionTypeRelation →
      act.accountCollectionType = c.accountCollectionType → act.maxNumMembers = some n →
      Limit cat (fun m => m.accountCollectionId = c.accountCollectionId ∧
        m.accountCollectionRelation = some act.accountCollectionRelation) n
  | collections {act : CollectionType} {n : ℕ} (accountId : ℕ) :
      act ∈ cat.valAccountCollectionType → act.maxNumCollections = some n →
      Limit cat (fun m => m.accountId = accountId ∧
        cat.typeOf m.accountCollectionId = some act.accountCollectionType) n
  | collectionsInRelation {act : TypeRelation} {n : ℕ} (accountId : ℕ) :
      act ∈ cat.accountCollectionTypeRelation → act.maxNumCollections = some n →
      Limit cat (fun m => cat.typeOf m.accountCollectionId = some act.accountCollectionType ∧
        m.accountCollectionRelation = some act.accountCollectionRelation ∧
          m.accountId = accountId) n

def WithinLimits (cat : Catalog) (rows : List Member) : Prop :=
  ∀ p n, Limit cat p n → rows.countP p ≤ n

/-- One of the triggers refuses a row of the statement. -/
def Refuses (cat : Catalog) (t rows : List Member) (s : RowStatement Member) : Prop :=
  ∃ e ∈ s.events t, ∃ new, e.new? = some new ∧
    (accountCollMemberRelationEnforce cat rows new ≠ .ok () ∨
      accountCollectionMemberEnforce cat rows new ≠ .ok ())

def RefusesOnlyOver (cat : Catalog) (t : List Member) (s : RowStatement Member) : Prop :=
  ∀ rows, s.execute memberKey t = .ok rows → Refuses cat t rows s → ¬ WithinLimits cat rows

/-- The members in the relation of a row are too many in all the collections of its type together. -/
def Spread (cat : Catalog) (rows : List Member) (new : Member) : Prop :=
  ∃ act ∈ cat.accountCollectionTypeRelation,
    cat.typeOf new.accountCollectionId = some act.accountCollectionType ∧
      new.accountCollectionRelation = some act.accountCollectionRelation ∧
        ∃ n, act.maxNumMembers = some n ∧
          n < rows.countP fun m => cat.typeOf m.accountCollectionId = some act.accountCollectionType ∧
            m.accountCollectionRelation = some act.accountCollectionRelation

/-- Where those of a written row are too many together, a limit is exceeded. -/
def NotSpread (cat : Catalog) (t : List Member) (s : RowStatement Member) : Prop :=
  ∀ rows, s.execute memberKey t = .ok rows → ∀ e ∈ s.events t, ∀ new, e.new? = some new →
    Spread cat rows new → ¬ WithinLimits cat rows

/-- All states of a run are within the limits, and all refusals are due to them. -/
def Kept (cat : Catalog) (t : List Member) (l : List (RowStatement Member)) : Prop :=
  (∀ l', l' <+: l → WithinLimits cat (run (step cat) t l')) ∧
    AllSteps (step cat) (RefusesOnlyOver cat) t l

structure Keys (cat : Catalog) : Prop where
  collections : (cat.accountCollection.map (·.accountCollectionId)).Nodup
  types : (cat.valAccountCollectionType.map (·.accountCollectionType)).Nodup
  relations : (cat.accountCollectionTypeRelation.map fun act =>
    (act.accountCollectionRelation, act.accountCollectionType)).Nodup

variable {cat : Catalog} {t t' rows : List Member} {s : RowStatement Member} {new m : Member}
  {c : AccountCollection} {n : ℕ} {max : Option ℕ} {message type : String}

/-! ## The checks -/

theorem checkMax_ok : checkMax max n message = .ok () ↔ ∀ k, max = some k → n ≤ k := by
  cases max with
  | none => simp [checkMax]
  | some k => simp [checkMax]

theorem typeOf_eq (h : Keys cat) (hc : c ∈ cat.accountCollection) :
    cat.typeOf c.accountCollectionId = some c.accountCollectionType := by
  rw [Catalog.typeOf, Library.find?_key h.collections hc, Option.map_some]

theorem exists_of_typeOf {id : ℕ} (h : cat.typeOf id = some type) :
    ∃ c ∈ cat.accountCollection, c.accountCollectionId = id ∧ c.accountCollectionType = type := by
  obtain ⟨c, hfind, htype⟩ := Option.map_eq_some_iff.mp h
  obtain ⟨hc, hid⟩ := Library.of_find?_eq_some hfind
  exact ⟨c, hc, hid, htype⟩

theorem memberEnforce_ok (h : Keys cat) : accountCollectionMemberEnforce cat rows new = .ok () ↔
    ∀ act ∈ cat.valAccountCollectionType,
      cat.typeOf new.accountCollectionId = some act.accountCollectionType →
        (∀ k, act.maxNumMembers = some k →
          (rows.countP fun m => m.accountCollectionId = new.accountCollectionId) ≤ k) ∧
        ∀ k, act.maxNumCollections = some k →
          (rows.countP fun m => m.accountId = new.accountId ∧
            cat.typeOf m.accountCollectionId = some act.accountCollectionType) ≤ k := by
  rw [accountCollectionMemberEnforce]
  split
  · next hnone =>
    refine iff_of_true rfl fun act hact htype => ?_
    exact (Library.not_of_find?_eq_none hnone hact htype).elim
  · next act hfind =>
    obtain ⟨hact, htype⟩ := Library.of_find?_eq_some hfind
    rw [bind_unit_eq_ok, checkMax_ok, checkMax_ok]
    constructor
    · intro hchecks act' hact' htype'
      have hsame := List.inj_on_of_nodup_map h.types hact' hact
        (Option.some.inj (htype'.symm.trans htype))
      rw [hsame]
      exact hchecks
    · intro hall
      exact hall act hact htype

theorem relationEnforce_ok (h : Keys cat) :
    accountCollMemberRelationEnforce cat rows new = .ok () ↔ ¬ Spread cat rows new ∧
      ∀ act ∈ cat.accountCollectionTypeRelation,
        cat.typeOf new.accountCollectionId = some act.accountCollectionType →
          new.accountCollectionRelation = some act.accountCollectionRelation →
            ∀ k, act.maxNumCollections = some k →
              (rows.countP fun m =>
                cat.typeOf m.accountCollectionId = some act.accountCollectionType ∧
                  m.accountCollectionRelation = some act.accountCollectionRelation ∧
                    m.accountId = new.accountId) ≤ k := by
  rw [accountCollMemberRelationEnforce]
  split
  · next hnone =>
    have hnot := fun act hact => Library.not_of_find?_eq_none hnone (a := act) hact
    refine iff_of_true rfl ⟨?_, fun act hact htype hrelation => ?_⟩
    · rintro ⟨act, hact, htype, hrelation, -⟩
      exact hnot act hact ⟨htype, hrelation⟩
    · exact absurd ⟨htype, hrelation⟩ (hnot act hact)
  · next act hfind =>
    obtain ⟨hact, htype, hrelation⟩ := Library.of_find?_eq_some hfind
    have hsame : ∀ act' ∈ cat.accountCollectionTypeRelation,
        cat.typeOf new.accountCollectionId = some act'.accountCollectionType →
          new.accountCollectionRelation = some act'.accountCollectionRelation → act' = act := by
      intro act' hact' htype' hrelation'
      exact List.inj_on_of_nodup_map h.relations hact' hact
        (Prod.ext (Option.some.inj (hrelation'.symm.trans hrelation))
          (Option.some.inj (htype'.symm.trans htype)))
    rw [bind_unit_eq_ok, checkMax_ok, checkMax_ok]
    refine and_congr ⟨?_, ?_⟩ ⟨?_, ?_⟩
    · rintro hmax ⟨act', hact', htype', hrelation', k, hk, hlt⟩
      rw [hsame act' hact' htype' hrelation'] at hk hlt
      exact absurd (hmax k hk) (Nat.not_le.mpr hlt)
    · intro hspread k hk
      by_contra hlt
      exact hspread ⟨act, hact, htype, hrelation, k, hk, Nat.not_le.mp hlt⟩
    · intro hmax act' hact' htype' hrelation'
      rw [hsame act' hact' htype' hrelation']
      exact hmax
    · intro hall
      exact hall act hact htype hrelation

/-! ## Nothing is over a limit -/

/-- A row that passes both triggers is over no limit that it counts for. -/
theorem countP_le_of_checked (h : Keys cat)
    (hrelation : accountCollMemberRelationEnforce cat rows new = .ok ())
    (hmember : accountCollectionMemberEnforce cat rows new = .ok ()) {p : Member → Bool}
    (hlimit : Limit cat p n) (hp : p new = true) : rows.countP p ≤ n := by
  obtain ⟨hspread, hcollections⟩ := (relationEnforce_ok h).mp hrelation
  have hmember := (memberEnforce_ok h).mp hmember
  cases hlimit with
  | @members c act _ hc hact htype hmax =>
    have hid := of_decide_eq_true hp
    have hnew : cat.typeOf new.accountCollectionId = some act.accountCollectionType := by
      rw [hid, typeOf_eq h hc, htype]
    rw [← hid]
    exact (hmember act hact hnew).1 n hmax
  | @membersInRelation c act _ hc hact htype hmax =>
    obtain ⟨hid, hrel⟩ := of_decide_eq_true hp
    have hof : ∀ {m : Member}, m.accountCollectionId = c.accountCollectionId →
        cat.typeOf m.accountCollectionId = some act.accountCollectionType := by
      intro m hm
      rw [hm, typeOf_eq h hc, htype]
    refine Nat.le_trans (List.countP_mono_left fun m _ hm => ?_) (Nat.not_lt.mp fun hlt =>
      hspread ⟨act, hact, hof hid, hrel, n, hmax, hlt⟩)
    obtain ⟨hm, hmrel⟩ := of_decide_eq_true hm
    exact decide_eq_true ⟨hof hm, hmrel⟩
  | @collections act _ accountId hact hmax =>
    obtain ⟨rfl, hnew⟩ := of_decide_eq_true hp
    exact (hmember act hact hnew).2 n hmax
  | @collectionsInRelation act _ accountId hact hmax =>
    obtain ⟨hnew, hrel, rfl⟩ := of_decide_eq_true hp
    exact hcollections act hact hnew hrel n hmax

theorem afterRow_ok {e : RowEvent Member} (hok : afterRow cat rows e = .ok ())
    (hnew : e.new? = some new) : accountCollMemberRelationEnforce cat rows new = .ok () ∧
      accountCollectionMemberEnforce cat rows new = .ok () := by
  rw [afterRow, hnew] at hok
  exact bind_unit_eq_ok.mp (bind_unit_eq_ok.mp hok).2

/-- **A statement that succeeds keeps the limits.** -/
theorem within_execute (h : Keys cat) (ht : WithinLimits cat t) (hok : execute cat t s = .ok t') :
    WithinLimits cat t' := by
  obtain ⟨rows, hexec, hok⟩ := bind_eq_ok.mp hok
  obtain ⟨hafter, hok⟩ := bind_unit_eq_ok.mp hok
  obtain rfl := Except.ok.inj hok
  have hafter := forM_eq_ok.mp hafter
  obtain rfl := execute_ok hexec
  intro p n hlimit
  by_cases hcounts : ∃ e ∈ s.events t, ∃ new, e.new? = some new ∧ p new = true
  · obtain ⟨e, he, new, hnew, hp⟩ := hcounts
    obtain ⟨hrelation, hmember⟩ := afterRow_ok (hafter e he) hnew
    exact countP_le_of_checked h hrelation hmember hlimit hp
  · -- only rows that were there before count
    refine Nat.le_trans (countP_after_le fun e he new hnew => ?_) (ht p n hlimit)
    exact Bool.eq_false_iff.mpr fun hp => hcounts ⟨e, he, new, hnew, hp⟩

theorem within_step (h : Keys cat) (ht : WithinLimits cat t) : WithinLimits cat (step cat t s) := by
  unfold step
  cases hok : execute cat t s with
  | ok t' => exact within_execute h ht hok
  | error err => exact ht

/-! ## Refusals -/

/-- But for members that are spread, a refused row is over a limit. -/
theorem spread_of_refused (h : Keys cat) (hrows : WithinLimits cat rows)
    (hrefused : accountCollMemberRelationEnforce cat rows new ≠ .ok () ∨
      accountCollectionMemberEnforce cat rows new ≠ .ok ()) : Spread cat rows new := by
  by_contra hspread
  rcases hrefused with hrefused | hrefused
  · refine hrefused ((relationEnforce_ok h).mpr ⟨hspread, fun act hact _ _ k hk => ?_⟩)
    exact hrows _ _ (.collectionsInRelation new.accountId hact hk)
  · refine hrefused ((memberEnforce_ok h).mpr fun act hact htype => ⟨fun k hk => ?_, fun k hk => ?_⟩)
    · obtain ⟨c, hc, hid, hctype⟩ := exists_of_typeOf htype
      rw [← hid]
      exact hrows _ _ (.members hc hact hctype.symm hk)
    · exact hrows _ _ (.collections new.accountId hact hk)

theorem refusesOnlyOver_iff (h : Keys cat) : RefusesOnlyOver cat t s ↔ NotSpread cat t s := by
  constructor
  · intro hover rows hexec e he new hnew hspread
    refine hover rows hexec ⟨e, he, new, hnew, .inl fun hok => ?_⟩
    exact ((relationEnforce_ok h).mp hok).1 hspread
  · rintro hnot rows hexec ⟨e, he, new, hnew, hrefused⟩ hwithin
    exact hnot rows hexec e he new hnew (spread_of_refused h hwithin hrefused) hwithin

/-- **The limits are kept in every run, and refusals are due to them exactly where no members are
too many just by being spread.** -/
theorem kept_iff (h : Keys cat) (ht : WithinLimits cat t) {l : List (RowStatement Member)} :
    Kept cat t l ↔ AllSteps (step cat) (NotSpread cat) t l := by
  have hwithin : ∀ l', WithinLimits cat (run (step cat) t l') := fun l' =>
    run_invariant (P := fun _ _ => True) (fun _ _ ht _ => within_step h ht) ht
      (allSteps_of_forall fun _ _ => trivial)
  constructor
  · rintro ⟨-, hsteps⟩
    exact hsteps.mono fun _ _ => (refusesOnlyOver_iff h).mp
  · intro hsteps
    exact ⟨fun l' _ => hwithin l', hsteps.mono fun _ _ => (refusesOnlyOver_iff h).mpr⟩

/-! ## Two teams -/

/-- Each team has one lead. -/
def teams : Catalog where
  accountCollection := [⟨1, "team"⟩, ⟨2, "team"⟩]
  valAccountCollectionType := [⟨"team", some 3, none⟩]
  accountCollectionTypeRelation := [⟨"lead", "team", some 1, none⟩, ⟨"direct", "team", none, none⟩]

theorem keys_teams : Keys teams := ⟨by decide, by decide, by decide⟩

theorem within_nil : WithinLimits cat [] := fun _ _ _ => Nat.zero_le _

/-- One team gets its lead and another member. -/
theorem kept_teams : Kept teams [] [.insert [⟨1, 10, some "lead"⟩, ⟨1, 11, some "direct"⟩]] := by
  refine (kept_iff keys_teams within_nil).mpr ⟨fun rows hexec e he new hnew hspread => ?_, trivial⟩
  obtain rfl := execute_ok hexec
  obtain ⟨act, hact, -, -, n, hmax, hlt⟩ := hspread
  rcases List.mem_pair.mp hact with rfl | rfl
  · cases hmax
    exact absurd hlt (by decide)
  · cases hmax

theorem within_leads : WithinLimits teams [⟨1, 10, some "lead"⟩, ⟨2, 20, some "lead"⟩] := by
  intro p n hlimit
  cases hlimit with
  | @members c act _ hc hact _ hmax =>
    rw [List.mem_singleton.mp hact] at hmax
    cases hmax
    exact Nat.le_trans List.countP_le_length (by decide)
  | @membersInRelation c act _ hc hact _ hmax =>
    rcases List.mem_pair.mp hact with rfl | rfl
    · cases hmax
      rcases List.mem_pair.mp hc with rfl | rfl <;> decide
    · cases hmax
  | @collections act _ accountId hact hmax =>
    rw [List.mem_singleton.mp hact] at hmax
    cases hmax
  | @collectionsInRelation act _ accountId hact hmax =>
    rcases List.mem_pair.mp hact with rfl | rfl <;> cases hmax

/-- The other team gets no lead. -/
theorem not_kept_leads : (Keys teams ∧ WithinLimits teams []) ∧
    ¬ Kept teams [] [.insert [⟨1, 10, some "lead"⟩], .insert [⟨2, 20, some "lead"⟩]] := by
  refine ⟨⟨keys_teams, within_nil⟩, fun ⟨_, _, hsecond, _⟩ => ?_⟩
  refine hsecond [⟨1, 10, some "lead"⟩, ⟨2, 20, some "lead"⟩] rfl ?_ within_leads
  exact ⟨.insert ⟨2, 20, some "lead"⟩, by decide, _, rfl, .inl (by decide)⟩

end JazzHands.MemberLimits

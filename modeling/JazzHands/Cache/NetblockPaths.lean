import JazzHands.Cache.NetblockHier
import JazzHands.Library.Recorded
import JazzHands.Netblock.Effects
import Mathlib.Data.List.Perm.Subperm

/-!
# The paths in `ct_netblock_hier`

The cache and its view are compared by their paths alone: in a `Tidy` table the other columns follow
from the path (`Tidy.perm_iff`).  Both are then sets of ways up, the view by induction on its rounds
(`tidy_vNetblockHier`), and the handler by what each of its loops adds (`fireHandler_ok`).
-/

namespace JazzHands.NetblockHier

open Library Postgres Relation

variable {t : List Netblock} {ct ct' l : List HierRow} {r : HierRow} {old new : Netblock}
  {i k : ℕ} {p : List ℕ}

/-! ## Rows and paths -/

/-- The netblock `x` has the parent `y`. -/
def Up (t : List Netblock) (x y : ℕ) : Prop :=
  ∃ n ∈ t, n.netblockId = x ∧ n.parentNetblockId = some y

def ids (t : List Netblock) : Set ℕ := {i | ∃ n ∈ t, n.netblockId = i}

def paths (ct : List HierRow) : Set (List ℕ) := {p | HasPath ct p}

/-- The path of the row begins with the netblock and ends with the root. -/
structure HierRow.Fits (r : HierRow) : Prop where
  head : r.path.head? = some r.netblockId
  last : r.path.getLast? = some r.rootNetblockId

/-- The primary key holds, and the columns of the rows follow from their paths. -/
structure Tidy (ct : List HierRow) : Prop where
  nodup : (ct.map (·.path)).Nodup
  fits : ∀ r ∈ ct, r.Fits

theorem mem_paths (hr : r ∈ ct) : r.path ∈ paths ct := ⟨r, hr, rfl⟩

theorem Tidy.filter (h : Tidy ct) (P : HierRow → Bool) : Tidy (ct.filter P) where
  nodup := h.nodup.sublist (List.filter_sublist.map _)
  fits r hr := h.fits r (List.mem_of_mem_filter hr)

theorem Tidy.concat (h : Tidy ct) (hr : r.Fits) (hnew : ¬ HasPath ct r.path) :
    Tidy (ct ++ [r]) where
  nodup := by
    rw [List.map_append, List.nodup_append]
    refine ⟨h.nodup, List.nodup_singleton _, ?_⟩
    intro p hp q hq hpq
    obtain ⟨s, hs, rfl⟩ := List.mem_map.mp hp
    rw [List.map_singleton, List.mem_singleton] at hq
    exact hnew ⟨s, hs, hpq.trans hq⟩
  fits s hs := by
    rcases List.mem_append.mp hs with hs | hs
    · exact h.fits s hs
    · rw [List.mem_singleton.mp hs]
      exact hr

theorem hasPath_append : HasPath (ct ++ l) p ↔ HasPath ct p ∨ HasPath l p := by
  simp only [HasPath, List.mem_append, or_and_right, exists_or]

theorem hasPath_singleton : HasPath [r] p ↔ r.path = p := by simp [HasPath]

theorem hasPath_cons : HasPath (r :: l) p ↔ r.path = p ∨ HasPath l p := by simp [HasPath]

theorem not_hasPath_nil : ¬ HasPath [] p := by simp [HasPath]

/-! ## The loops -/

theorem insertMissing_spec (h : Tidy ct) (hl : ∀ r ∈ l, r.Fits) :
    Tidy (insertMissing ct l) ∧
      ∀ p, HasPath (insertMissing ct l) p ↔ HasPath ct p ∨ HasPath l p := by
  induction l generalizing ct with
  | nil => exact ⟨h, fun p => by rw [insertMissing, or_iff_left not_hasPath_nil]⟩
  | cons r l ih =>
    have hl' := fun s hs => hl s (List.mem_cons_of_mem _ hs)
    rw [insertMissing]
    split
    · next hr =>
      obtain ⟨htidy, hpaths⟩ := ih h hl'
      refine ⟨htidy, fun p => (hpaths p).trans ?_⟩
      rw [hasPath_cons]
      constructor
      · exact Or.imp_right Or.inr
      · rintro (hp | rfl | hp)
        · exact Or.inl hp
        · exact Or.inl hr
        · exact Or.inr hp
    · next hr =>
      obtain ⟨htidy, hpaths⟩ := ih (h.concat (hl r List.mem_cons_self) hr) hl'
      refine ⟨htidy, fun p => (hpaths p).trans ?_⟩
      rw [hasPath_append, hasPath_singleton, hasPath_cons, or_assoc]

theorem insertAll_ok (h : Tidy ct) (hl : ∀ r ∈ l, r.Fits) (hok : insertAll ct l = .ok ct') :
    Tidy ct' ∧ ∀ p, HasPath ct' p ↔ HasPath ct p ∨ HasPath l p := by
  induction l generalizing ct with
  | nil =>
    obtain rfl := Except.ok.inj hok
    exact ⟨h, fun p => by rw [or_iff_left not_hasPath_nil]⟩
  | cons r l ih =>
    obtain ⟨hr, hok⟩ := bind_unit_eq_ok.mp hok
    rw [raiseIf_eq_ok] at hr
    obtain ⟨htidy, hpaths⟩ := ih (h.concat (hl r List.mem_cons_self) hr)
      (fun s hs => hl s (List.mem_cons_of_mem _ hs)) hok
    refine ⟨htidy, fun p => (hpaths p).trans ?_⟩
    rw [hasPath_append, hasPath_singleton, hasPath_cons, or_assoc]

/-! ## `tier` -/

theorem mem_tierBase : r ∈ tierBase t i ↔ ∃ q, Up t i q ∧ r = ⟨q, q, i, [i, q]⟩ := by
  simp only [tierBase, List.mem_flatMap, List.mem_filter, List.mem_map, Option.mem_toList,
    decide_eq_true_eq]
  constructor
  · rintro ⟨n, ⟨hn, rfl⟩, q, hq, rfl⟩
    exact ⟨q, ⟨n, hn, rfl, hq⟩, rfl⟩
  · rintro ⟨q, ⟨n, hn, rfl, hq⟩, rfl⟩
    exact ⟨n, ⟨hn, rfl⟩, q, hq, rfl⟩

theorem mem_tierNext {x : HierRow} : r ∈ tierNext t x ↔
    ∃ q, Up t x.rootNetblockId q ∧ r = { x with rootNetblockId := q, path := x.path ++ [q] } := by
  simp only [tierNext, List.mem_flatMap, List.mem_filter, List.mem_map, Option.mem_toList,
    decide_eq_true_eq]
  constructor
  · rintro ⟨n, ⟨hn, hid⟩, q, hq, rfl⟩
    exact ⟨q, ⟨n, hn, hid, hq⟩, rfl⟩
  · rintro ⟨q, ⟨n, hn, hid, hq⟩, rfl⟩
    exact ⟨n, ⟨hn, hid⟩, q, hq, rfl⟩

theorem ascends_of_mem_rounds (hr : r ∈ rounds (tierNext t) (tierBase t i) k) :
    Ascends (Up t) r.path i r.rootNetblockId ∧ r.netblockId = i ∧ r.path.length = k + 2 := by
  induction k generalizing r with
  | zero =>
    obtain ⟨q, hq, rfl⟩ := mem_tierBase.mp hr
    exact ⟨(Ascends.singleton i).append hq (.singleton q), rfl, rfl⟩
  | succ k ih =>
    obtain ⟨x, hx, hr⟩ := mem_rounds_succ.mp hr
    obtain ⟨q, hq, rfl⟩ := mem_tierNext.mp hr
    obtain ⟨hup, hid, hlen⟩ := ih hx
    exact ⟨hup.append hq (.singleton q), hid, by simp [hlen]⟩

theorem exists_mem_rounds {z : ℕ} (hp : Ascends (Up t) p i z) (hlen : p.length = k + 2) :
    ∃ r ∈ rounds (tierNext t) (tierBase t i) k, r.path = p ∧ r.rootNetblockId = z := by
  induction k generalizing p z with
  | zero =>
    match p, hlen with
    | [x, y], _ =>
      obtain ⟨rfl, hxy, hy⟩ := Ascends.cons_iff.mp hp
      obtain ⟨-, rfl⟩ := Ascends.singleton_iff.mp hy
      exact ⟨⟨y, y, x, [x, y]⟩, mem_tierBase.mpr ⟨y, hxy, rfl⟩, rfl, rfl⟩
  | succ k ih =>
    obtain ⟨s, c, rfl, hs, hcz⟩ := hp.exists_concat (by omega)
    obtain ⟨x, hx, rfl, rfl⟩ := ih hs (by simpa using hlen)
    exact ⟨_, mem_rounds_succ.mpr ⟨x, hx, mem_tierNext.mpr ⟨z, hcz, rfl⟩⟩, rfl, rfl⟩

theorem exists_ascends_of_cycle {E : ℕ → ℕ → Prop} (h : TransGen E i i) (k : ℕ) :
    ∃ p, k + 2 ≤ p.length ∧ Ascends E p i i := by
  obtain ⟨y, hiy, hyi⟩ := TransGen.head'_iff.mp h
  obtain ⟨s, hs⟩ := exists_ascends_iff.mpr hyi
  have hpos := List.length_pos_of_ne_nil hs.ne_nil
  induction k with
  | zero => exact ⟨i :: s, by rw [List.length_cons]; omega, (Ascends.singleton i).append hiy hs⟩
  | succ k ih =>
    obtain ⟨p, hlen, hp⟩ := ih
    exact ⟨p ++ s, by rw [List.length_append]; omega, hp.append hiy hs⟩

/-- **`tier`** has the ways up from the netblock, and it has an end only off all cycles. -/
theorem tier_ok (h : tier t i = .ok l) :
    (∀ r ∈ l, r.Fits) ∧ (∀ p, HasPath l p ↔ 2 ≤ p.length ∧ ∃ z, Ascends (Up t) p i z) ∧
      ¬ TransGen (Up t) i i := by
  obtain ⟨hend, h⟩ := bind_unit_eq_ok.mp h
  obtain rfl := Except.ok.inj h
  rw [raiseIf_eq_ok, not_not] at hend
  have hlt : ∀ {p : List ℕ} {z : ℕ}, Ascends (Up t) p i z → p.length < t.length + 2 := by
    intro p z hp
    by_contra hle
    obtain ⟨r, hr, -⟩ := exists_mem_rounds hp (Nat.sub_add_cancel (by omega)).symm
    rw [rounds_eq_nil hend (by omega)] at hr
    exact absurd hr List.not_mem_nil
  refine ⟨fun r hr => ?_, fun p => ⟨?_, ?_⟩, fun hcyc => ?_⟩
  · obtain ⟨k, -, hr⟩ := mem_unionAll.mp hr
    obtain ⟨hup, rfl, -⟩ := ascends_of_mem_rounds hr
    exact ⟨hup.head, hup.last⟩
  · rintro ⟨r, hr, rfl⟩
    obtain ⟨k, -, hr⟩ := mem_unionAll.mp hr
    obtain ⟨hup, -, hlen⟩ := ascends_of_mem_rounds hr
    exact ⟨by omega, _, hup⟩
  · rintro ⟨hlen, z, hp⟩
    have := hlt hp
    obtain ⟨r, hr, hpath, -⟩ := exists_mem_rounds hp (Nat.sub_add_cancel hlen).symm
    exact ⟨r, mem_unionAll.mpr ⟨_, by omega, hr⟩, hpath⟩
  · obtain ⟨p, hlen, hp⟩ := exists_ascends_of_cycle hcyc t.length
    have := hlt hp
    omega

/-! ## The handler -/

theorem HierRow.fits_self (i : ℕ) : (HierRow.self i).Fits := ⟨rfl, rfl⟩

theorem insertUp_ok (h : Tidy ct) (hi : new.netblockId ∈ ids t)
    (hok : insertUp t ct new = .ok ct') :
    Tidy ct' ∧ paths ct' = addUp (Up t) new.netblockId (paths ct) ∧
      ¬ TransGen (Up t) new.netblockId new.netblockId := by
  obtain ⟨tr, htr, hok⟩ := bind_eq_ok.mp hok
  obtain rfl := Except.ok.inj hok
  obtain ⟨hfits, hpaths, hcyc⟩ := tier_ok htr
  have hself : ∀ r ∈ (t.filter (·.netblockId = new.netblockId)).map
      (fun n => HierRow.self n.netblockId), r = .self new.netblockId := by
    intro r hr
    obtain ⟨n, hn, rfl⟩ := List.mem_map.mp hr
    rw [of_decide_eq_true (List.mem_filter.mp hn).2]
  have hl := insertMissing_spec h (l := (tr ++ (t.filter (·.netblockId = new.netblockId)).map
      fun n => HierRow.self n.netblockId).filter fun r => ¬ HasPath ct r.path) (by
    intro r hr
    rcases List.mem_append.mp (List.mem_of_mem_filter hr) with hr | hr
    · exact hfits r hr
    · rw [hself r hr]
      exact HierRow.fits_self _)
  refine ⟨hl.1, ?_, hcyc⟩
  ext p
  refine (hl.2 p).trans ⟨?_, ?_⟩
  · rintro (hp | ⟨r, hr, rfl⟩)
    · exact Or.inl hp
    · rcases List.mem_append.mp (List.mem_of_mem_filter hr) with hr | hr
      · exact Or.inr ((hpaths r.path).mp ⟨r, hr, rfl⟩).2
      · rw [hself r hr]
        exact Or.inr ⟨_, .singleton _⟩
  · rintro (hp | ⟨z, hp⟩)
    · exact Or.inl hp
    · by_cases hhas : HasPath ct p
      · exact Or.inl hhas
      · right
        by_cases hlen : 2 ≤ p.length
        · obtain ⟨r, hr, rfl⟩ := (hpaths p).mpr ⟨hlen, z, hp⟩
          exact ⟨r, List.mem_filter.mpr ⟨List.mem_append_left _ hr, decide_eq_true hhas⟩, rfl⟩
        · have hone : p = [new.netblockId] := by
            match p, hp, hlen with
            | [x], hp, _ => rw [(Ascends.singleton_iff.mp hp).1]
            | [], hp, _ => exact absurd rfl hp.ne_nil
            | x :: y :: p, _, hlen => simp at hlen
          obtain ⟨n, hn, hid⟩ := hi
          subst hone
          refine ⟨.self n.netblockId, List.mem_filter.mpr ⟨List.mem_append_right _
            (List.mem_map_of_mem (List.mem_filter.mpr ⟨hn, decide_eq_true hid⟩)), ?_⟩, ?_⟩
          · rw [hid]
            exact decide_eq_true hhas
          · rw [hid]
            rfl

theorem mem_fromRows : r ∈ fromRows t ct new ↔ ∃ h ∈ ct, Up t h.rootNetblockId new.netblockId ∧
    r = ⟨new.netblockId, if h.path.length = 1 then new.netblockId else h.intermediateNetblockId,
      h.netblockId, h.path ++ [new.netblockId]⟩ := by
  simp only [fromRows, List.mem_flatMap, List.mem_map, List.mem_filter, decide_eq_true_eq]
  constructor
  · rintro ⟨h, hh, n, ⟨hn, hid, hpar⟩, rfl⟩
    exact ⟨h, hh, ⟨n, hn, hid, hpar⟩, rfl⟩
  · rintro ⟨h, hh, ⟨n, hn, hid, hpar⟩, rfl⟩
    exact ⟨h, hh, n, ⟨hn, hid, hpar⟩, rfl⟩

theorem head?_append_of_some {α : Type*} {l l' : List α} {a : α} (h : l.head? = some a) :
    (l ++ l').head? = some a := by
  rw [List.head?_append, h, Option.some_or]

theorem insertMissing_fromRows (t : List Netblock) (new : Netblock) (h : Tidy ct) :
    Tidy (insertMissing ct (fromRows t ct new)) ∧
      paths (insertMissing ct (fromRows t ct new)) =
        addDown (Up t) new.netblockId (paths ct) := by
  have hl := insertMissing_spec h (l := fromRows t ct new) (by
    intro r hr
    obtain ⟨q, hq, -, rfl⟩ := mem_fromRows.mp hr
    exact ⟨head?_append_of_some (h.fits q hq).head, List.getLast?_concat⟩)
  refine ⟨hl.1, ?_⟩
  ext p
  refine (hl.2 p).trans (or_congr_right ⟨?_, ?_⟩)
  · rintro ⟨r, hr, rfl⟩
    obtain ⟨q, hq, hup, rfl⟩ := mem_fromRows.mp hr
    exact ⟨q.path, mem_paths hq, _, (h.fits q hq).last, hup, rfl⟩
  · rintro ⟨s, ⟨q, hq, rfl⟩, z, hz, hup, rfl⟩
    obtain rfl : q.rootNetblockId = z := Option.some_inj.mp ((h.fits q hq).last.symm.trans hz)
    exact ⟨_, mem_fromRows.mpr ⟨q, hq, hup, rfl⟩, rfl⟩

theorem mem_combinedRows : r ∈ combinedRows ct new ↔ ∃ hkid ∈ ct, ∃ hpar ∈ ct,
    (hkid.rootNetblockId = hpar.netblockId ∧ hpar.netblockId = new.netblockId ∧
      1 < hpar.path.length ∧ 2 < hkid.path.length) ∧
    r = ⟨hpar.rootNetblockId, hkid.intermediateNetblockId, hkid.netblockId,
      hkid.path ++ hpar.path.tail⟩ := by
  simp only [combinedRows, List.mem_flatMap, List.mem_map, List.mem_filter, decide_eq_true_eq]
  constructor
  · rintro ⟨hkid, hk, hpar, ⟨hp, hc⟩, rfl⟩
    exact ⟨hkid, hk, hpar, hp, hc, rfl⟩
  · rintro ⟨hkid, hk, hpar, hp, hc, rfl⟩
    exact ⟨hkid, hk, hpar, ⟨hp, hc⟩, rfl⟩

theorem getLast?_append_tail {α : Type*} {l l' : List α} {a : α} (h : l'.getLast? = some a)
    (hlen : 1 < l'.length) : (l ++ l'.tail).getLast? = some a := by
  match l', hlen with
  | x :: y :: l', _ =>
    rw [List.tail_cons, List.getLast?_append_of_ne_nil _ (List.cons_ne_nil _ _)]
    rwa [List.getLast?_cons_cons] at h

theorem insertAll_combinedRows_ok (h : Tidy ct)
    (hok : insertAll ct (combinedRows ct new) = .ok ct') :
    Tidy ct' ∧ paths ct' = combine new.netblockId (paths ct) := by
  have hl := insertAll_ok h (l := combinedRows ct new) (by
    intro r hr
    obtain ⟨hkid, hk, hpar, hp, ⟨-, -, hlen, -⟩, rfl⟩ := mem_combinedRows.mp hr
    exact ⟨head?_append_of_some (h.fits hkid hk).head,
      getLast?_append_tail (h.fits hpar hp).last hlen⟩) hok
  refine ⟨hl.1, ?_⟩
  ext p
  refine (hl.2 p).trans (or_congr_right ⟨?_, ?_⟩)
  · rintro ⟨r, hr, rfl⟩
    obtain ⟨hkid, hk, hpar, hp, ⟨hroot, hid, hlen, hlen'⟩, rfl⟩ := mem_combinedRows.mp hr
    refine ⟨_, mem_paths hk, _, mem_paths hp, ?_, hlen', ?_, hlen, rfl⟩
    · rw [(h.fits hkid hk).last, hroot, hid]
    · rw [(h.fits hpar hp).head, hid]
  · rintro ⟨_, ⟨hkid, hk, rfl⟩, _, ⟨hpar, hp, rfl⟩, hlast, hlen', hhead, hlen, rfl⟩
    have hroot := Option.some_inj.mp ((h.fits hkid hk).last.symm.trans hlast)
    have hid := Option.some_inj.mp ((h.fits hpar hp).head.symm.trans hhead)
    exact ⟨_, mem_combinedRows.mpr ⟨hkid, hk, hpar, hp, ⟨hroot.trans hid.symm, hid, hlen, hlen'⟩,
      rfl⟩, rfl⟩

theorem paths_filter_notMem :
    paths (ct.filter fun r => i ∉ r.path) = {p ∈ paths ct | i ∉ p} := by
  ext p
  constructor
  · rintro ⟨r, hr, rfl⟩
    obtain ⟨hr, hi⟩ := List.mem_filter.mp hr
    exact ⟨mem_paths hr, of_decide_eq_true hi⟩
  · rintro ⟨⟨r, hr, rfl⟩, hi⟩
    exact ⟨r, List.mem_filter.mpr ⟨hr, decide_eq_true hi⟩, rfl⟩

theorem handler_update_ok (h : Tidy ct) (hid : old.netblockId = new.netblockId)
    (hi : new.netblockId ∈ ids t) (hp : ¬ Passes new)
    (hok : cacheNetblockHierHandler t ct (.update old new) = .ok ct') :
    Tidy ct' ∧ paths ct' = mend (Up t) new.netblockId
      (purge (old.parentNetblockId ≠ none) new.netblockId (paths ct)) ∧
      ¬ TransGen (Up t) new.netblockId new.netblockId := by
  rw [cacheNetblockHierHandler, if_neg hp] at hok
  obtain ⟨ct₁, hup, hok⟩ := bind_eq_ok.mp hok
  obtain rfl := Except.ok.inj hok
  have hclean : Tidy (cleanup ct (.update old new)) ∧ paths (cleanup ct (.update old new)) =
      purge (old.parentNetblockId ≠ none) new.netblockId (paths ct) := by
    rw [cleanup]
    split
    · next hpar =>
      refine ⟨h.filter _, ?_⟩
      rw [paths_filter_notMem, hid]
      ext p
      exact and_congr_right fun _ => ⟨fun hm _ => hm, fun hm => hm hpar⟩
    · next hpar =>
      refine ⟨h, ?_⟩
      ext p
      exact ⟨fun hp => ⟨hp, fun hc => absurd hc hpar⟩, And.left⟩
  obtain ⟨htidy, hpaths, hcyc⟩ := insertUp_ok hclean.1 hi hup
  obtain ⟨htidy', hpaths'⟩ := insertMissing_fromRows t new htidy
  exact ⟨htidy', by rw [hpaths', hpaths, hclean.2, mend], hcyc⟩

theorem handler_insert_ok (h : Tidy ct) (hi : new.netblockId ∈ ids t) (hp : ¬ Passes new)
    (hok : cacheNetblockHierHandler t ct (.insert new) = .ok ct') :
    Tidy ct' ∧ paths ct' = combine new.netblockId
      (mend (Up t) new.netblockId (purgeRoot new.netblockId (paths ct))) ∧
      ¬ TransGen (Up t) new.netblockId new.netblockId := by
  rw [cacheNetblockHierHandler, if_neg hp] at hok
  obtain ⟨ct₁, hup, hok⟩ := bind_eq_ok.mp hok
  have hclean : paths (cleanup ct (.insert new)) = purgeRoot new.netblockId (paths ct) := by
    ext p
    constructor
    · rintro ⟨r, hr, rfl⟩
      obtain ⟨hr, hroot⟩ := List.mem_filter.mp hr
      refine ⟨mem_paths hr, fun hlast => of_decide_eq_true hroot ?_⟩
      exact Option.some_inj.mp ((h.fits r hr).last.symm.trans hlast)
    · rintro ⟨⟨r, hr, rfl⟩, hlast⟩
      refine ⟨r, List.mem_filter.mpr ⟨hr, decide_eq_true fun hroot => hlast ?_⟩, rfl⟩
      rw [(h.fits r hr).last, hroot]
  obtain ⟨htidy, hpaths, hcyc⟩ := insertUp_ok (h.filter _) hi hup
  obtain ⟨htidy', hpaths'⟩ := insertMissing_fromRows t new htidy
  obtain ⟨htidy'', hpaths''⟩ := insertAll_combinedRows_ok htidy' hok
  refine ⟨htidy'', ?_, hcyc⟩
  rw [hpaths'', hpaths', hpaths, mend]
  exact congrArg (fun C => combine _ (addDown _ _ (addUp _ _ C))) hclean

theorem handler_delete_ok (h : Tidy ct)
    (hok : cacheNetblockHierHandler t ct (.delete old) = .ok ct') :
    Tidy ct' ∧ paths ct' = purge True old.netblockId (paths ct) := by
  obtain rfl := Except.ok.inj hok
  refine ⟨h.filter _, ?_⟩
  rw [cleanup, paths_filter_notMem]
  ext p
  exact and_congr_right fun _ => ⟨fun hm _ => hm, fun hm => hm trivial⟩

/-- The handler on the rows of a statement that sets the parent of netblocks with one and the same
parent. -/
theorem fireHandler_ok {evs : List Event} {o : Option ℕ} (h : Tidy ct)
    (hevs : ∀ ev ∈ evs, ∃ r, ev.old = some r ∧ r.netblockId = ev.new.netblockId ∧
      r.parentNetblockId = o ∧ ev.new.netblockId ∈ ids t ∧ ¬ Passes ev.new)
    (hok : fireHandler t ct evs = .ok ct') :
    Tidy ct' ∧ paths ct' =
      mendEach (Up t) (o ≠ none) (evs.map (·.new.netblockId)) (paths ct) ∧
      ∀ ev ∈ evs, ¬ TransGen (Up t) ev.new.netblockId ev.new.netblockId := by
  induction evs generalizing ct with
  | nil =>
    obtain rfl := Except.ok.inj hok
    exact ⟨h, rfl, fun ev hev => absurd hev List.not_mem_nil⟩
  | cons ev evs ih =>
    obtain ⟨ct₁, hev, hok⟩ := bind_eq_ok.mp hok
    obtain ⟨r, hold, hid, rfl, hi, hp⟩ := hevs ev List.mem_cons_self
    rw [hold] at hev
    obtain ⟨htidy, hpaths, hcyc⟩ := handler_update_ok h hid hi hp hev
    obtain ⟨htidy', hpaths', hcyc'⟩ := ih htidy (fun e he => hevs e (List.mem_cons_of_mem _ he)) hok
    refine ⟨htidy', by rw [hpaths', hpaths, List.map_cons, mendEach], fun e he => ?_⟩
    rcases List.mem_cons.mp he with rfl | he
    · exact hcyc
    · exact hcyc' e he

/-! ## The view -/

/-- The netblocks are networks, and their parents are there. -/
structure Networks (t : List Netblock) : Prop where
  pk : ∀ r ∈ t, ∀ s ∈ t, r.netblockId = s.netblockId → r = s
  network : ∀ n ∈ t, n.isSingleAddress = false
  exist : ∀ x y, Up t x y → y ∈ ids t

theorem Networks.up_unique (h : Networks t) {x y z : ℕ} (hy : Up t x y) (hz : Up t x z) :
    y = z := by
  obtain ⟨n, hn, rfl, hny⟩ := hy
  obtain ⟨m, hm, hid, hmz⟩ := hz
  rw [h.pk m hm n hn hid, hny] at hmz
  exact Option.some_inj.mp hmz

theorem up_mem_ids {x y : ℕ} (h : Up t x y) : x ∈ ids t := by
  obtain ⟨n, hn, hid, -⟩ := h
  exact ⟨n, hn, hid⟩

theorem mem_childRows (h : Networks t) {x : HierRow} : r ∈ childRows t x ↔
    ∃ i, Up t i x.netblockId ∧ r = ⟨x.rootNetblockId, x.netblockId, i, i :: x.path⟩ := by
  simp only [childRows, List.mem_map, List.mem_filter, decide_eq_true_eq]
  constructor
  · rintro ⟨n, ⟨hn, hpar, -⟩, rfl⟩
    exact ⟨n.netblockId, ⟨n, hn, rfl, hpar⟩, rfl⟩
  · rintro ⟨i, ⟨n, hn, rfl, hpar⟩, rfl⟩
    exact ⟨n, ⟨hn, hpar, h.network n hn⟩, rfl⟩

/-- The rows of a round of the view: the ways up of its number of edges. -/
theorem mem_viewRounds (h : Networks t) :
    r ∈ rounds (childRows t) ((t.filter (·.isSingleAddress = false)).map
        fun n => .self n.netblockId) k ↔
      Ascends (Up t) r.path r.netblockId r.rootNetblockId ∧ r.netblockId ∈ ids t ∧
        r.path.length = k + 1 ∧ r.intermediateNetblockId = r.path.tail.head?.getD r.netblockId := by
  induction k generalizing r with
  | zero =>
    rw [rounds, List.mem_map]
    constructor
    · rintro ⟨n, hn, rfl⟩
      exact ⟨.singleton _, ⟨n, List.mem_of_mem_filter hn, rfl⟩, rfl, rfl⟩
    · obtain ⟨root, mid, i, path⟩ := r
      rintro ⟨ha, ⟨n, hn, rfl⟩, hlen, hmid⟩
      obtain ⟨x, rfl⟩ := List.length_eq_one_iff.mp hlen
      dsimp only at ha
      obtain ⟨rfl, rfl⟩ := Ascends.singleton_iff.mp ha
      obtain rfl : mid = n.netblockId := hmid
      exact ⟨n, List.mem_filter.mpr ⟨hn, decide_eq_true (h.network n hn)⟩, rfl⟩
  | succ k ih =>
    rw [mem_rounds_succ]
    constructor
    · rintro ⟨x, hx, hr⟩
      obtain ⟨ha, hmem, hlen, -⟩ := ih.mp hx
      obtain ⟨i, hup, rfl⟩ := (mem_childRows h).mp hr
      refine ⟨(Ascends.singleton i).append hup ha, up_mem_ids hup, by simp [hlen], ?_⟩
      rw [List.tail_cons, ha.head, Option.getD_some]
    · obtain ⟨root, mid, i, path⟩ := r
      rintro ⟨ha, hmem, hlen, hmid⟩
      dsimp only at ha hmem hlen hmid
      obtain ⟨b, s, rfl, hup, hs⟩ := ha.exists_cons (by omega)
      have hb := h.exist _ _ hup
      refine ⟨⟨root, s.tail.head?.getD b, b, s⟩, ih.mpr ⟨hs, hb, Nat.succ_inj.mp hlen, rfl⟩,
        (mem_childRows h).mpr ⟨i, hup, ?_⟩⟩
      rw [hmid, List.tail_cons, hs.head, Option.getD_some]

theorem length_le (h : Networks t) (hE : Acyclic (Up t)) {a z : ℕ} (hp : Ascends (Up t) p a z)
    (ha : a ∈ ids t) : p.length ≤ t.length := by
  have hmem : ∀ x ∈ p, x ∈ t.map (·.netblockId) := by
    intro x hx
    obtain ⟨n, hn, hid⟩ : x ∈ ids t := by
      rcases ReflTransGen.cases_tail (hp.reflTransGen_of_mem hx) with rfl | ⟨y, -, hyx⟩
      · exact ha
      · exact h.exist _ _ hyx
    exact List.mem_map.mpr ⟨n, hn, hid⟩
  have hle := (List.subperm_of_subset (hE.nodup hp.chain) hmem).length_le
  rwa [List.length_map] at hle

/-- **`v_netblock_hier`** has all ways up, each once. -/
theorem tidy_vNetblockHier (h : Networks t) : Tidy (vNetblockHier t) where
  nodup := by
    refine List.Nodup.map_on ?_ nodup_union
    intro r hr s hs hrs
    obtain ⟨k, -, hr⟩ := mem_union_iff.mp hr
    obtain ⟨k', -, hs⟩ := mem_union_iff.mp hs
    obtain ⟨har, -, -, hmr⟩ := (mem_viewRounds h).mp hr
    obtain ⟨has, -, -, hms⟩ := (mem_viewRounds h).mp hs
    rw [hrs] at har hmr
    have hid := Option.some_inj.mp (har.head.symm.trans has.head)
    refine HierRow.ext (Option.some_inj.mp (har.last.symm.trans has.last)) ?_ hid hrs
    rw [hmr, hms, hid]
  fits r hr := by
    obtain ⟨k, -, hr⟩ := mem_union_iff.mp hr
    obtain ⟨ha, -⟩ := (mem_viewRounds h).mp hr
    exact ⟨ha.head, ha.last⟩

theorem recorded_vNetblockHier (h : Networks t) (hE : Acyclic (Up t)) :
    Recorded (Up t) (ids t) (fun _ => False) (paths (vNetblockHier t)) := by
  intro p
  constructor
  · rintro ⟨r, hr, rfl⟩
    obtain ⟨k, -, hr⟩ := mem_union_iff.mp hr
    obtain ⟨ha, hmem, -⟩ := (mem_viewRounds h).mp hr
    exact ⟨⟨_, hmem, _, ha⟩, id⟩
  · rintro ⟨⟨a, hmem, z, ha⟩, -⟩
    have hpos := List.length_pos_of_ne_nil ha.ne_nil
    have hle := length_le h hE ha hmem
    refine ⟨⟨z, p.tail.head?.getD a, a, p⟩, mem_union_iff.mpr ⟨p.length - 1, by omega, ?_⟩, rfl⟩
    exact (mem_viewRounds h).mpr ⟨ha, hmem, by dsimp only; omega, rfl⟩

/-! ## Equal columns -/

/-- The columns that are compared. -/
def HierRow.columns (r : HierRow) : ℕ × ℕ × List ℕ := (r.rootNetblockId, r.netblockId, r.path)

/-- The cache has the columns `root_netblock_id`, `netblock_id` and `path` of the rows of the
view. -/
def HierExact (t : List Netblock) (ct : List HierRow) : Prop :=
  (ct.map (·.columns)).Perm ((vNetblockHier t).map (·.columns))
  deriving Decidable

theorem map_columns_path : (ct.map (·.columns)).map (fun c => c.2.2) = ct.map (·.path) := by
  rw [List.map_map]
  rfl

theorem Tidy.of_perm (h : Tidy ct) (hperm : (ct'.map (·.columns)).Perm (ct.map (·.columns))) :
    Tidy ct' where
  nodup := by
    rw [← map_columns_path, (hperm.map _).nodup_iff, map_columns_path]
    exact h.nodup
  fits r hr := by
    obtain ⟨s, hs, hcol⟩ := List.mem_map.mp (hperm.subset (List.mem_map_of_mem hr))
    obtain ⟨hroot, hid, hpath⟩ : s.rootNetblockId = r.rootNetblockId ∧
        s.netblockId = r.netblockId ∧ s.path = r.path := by simpa [HierRow.columns] using hcol
    have hfit := h.fits s hs
    exact ⟨by rw [← hpath, ← hid]; exact hfit.head, by rw [← hpath, ← hroot]; exact hfit.last⟩

theorem Tidy.columns_subset (h : Tidy ct) (h' : Tidy ct') (hp : paths ct ⊆ paths ct') :
    ct.map (·.columns) ⊆ ct'.map (·.columns) := by
  intro c hc
  obtain ⟨r, hr, rfl⟩ := List.mem_map.mp hc
  obtain ⟨s, hs, hpath⟩ := hp (mem_paths hr)
  have hroot := (h'.fits s hs).last
  have hid := (h'.fits s hs).head
  rw [hpath, (h.fits r hr).last] at hroot
  rw [hpath, (h.fits r hr).head] at hid
  refine List.mem_map.mpr ⟨s, hs, ?_⟩
  rw [HierRow.columns, HierRow.columns, hpath, Option.some_inj.mp hroot, Option.some_inj.mp hid]

/-- Two tidy tables have the same columns when they have the same paths. -/
theorem Tidy.perm_iff (h : Tidy ct) (h' : Tidy ct') :
    (ct.map (·.columns)).Perm (ct'.map (·.columns)) ↔ paths ct = paths ct' := by
  constructor
  · intro hperm
    ext p
    have hmem : ∀ {l : List HierRow}, p ∈ paths l ↔ p ∈ (l.map (·.columns)).map (fun c => c.2.2) := by
      intro l
      rw [map_columns_path, List.mem_map]
      rfl
    rw [hmem, hmem]
    exact (hperm.map _).mem_iff
  · intro hp
    have hnodup : ∀ {l : List HierRow}, Tidy l → (l.map (·.columns)).Nodup := fun hl =>
      .of_map (fun c => c.2.2) (by rw [map_columns_path]; exact hl.nodup)
    refine (List.perm_ext_iff_of_nodup (hnodup h) (hnodup h')).mpr fun c => ?_
    exact ⟨fun hc => h.columns_subset h' hp.subset hc, fun hc => h'.columns_subset h hp.superset hc⟩

theorem hierExact_iff (h : Networks t) (hE : Acyclic (Up t)) :
    HierExact t ct ↔ Tidy ct ∧ Recorded (Up t) (ids t) (fun _ => False) (paths ct) := by
  have hview := recorded_vNetblockHier h hE
  constructor
  · intro hex
    have htidy := (tidy_vNetblockHier h).of_perm hex
    refine ⟨htidy, ?_⟩
    rw [(htidy.perm_iff (tidy_vNetblockHier h)).mp hex]
    exact hview
  · rintro ⟨htidy, hrec⟩
    refine (htidy.perm_iff (tidy_vNetblockHier h)).mpr ?_
    ext p
    exact (hrec p).trans (hview p).symm

end JazzHands.NetblockHier

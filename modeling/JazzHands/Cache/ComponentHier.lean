import JazzHands.Cache.Component
import JazzHands.Library.Ascent
import JazzHands.Library.Runs
import Mathlib.Data.List.Perm.Subperm

/-!
# `ct_component_hier` against its view

`Holds` has one row for each path up the tree of components.  A statement is taken apart into
leaving a parent (`Holds.leaveParent`) and entering one; only a deletion goes wrong, as it leaves
the row of the component itself.
-/

namespace JazzHands.Components

open Library Postgres

variable {component component' : List Component} {slot : List Slot} {ids : List ℕ}
  {E E' : ℕ → ℕ → Prop} {ct : List HierRow} {r : HierRow} {db db' : Db} {old new : Component}
  {n p : ℕ}

/-! ## The forest -/

/-- The component `x` sits in a slot of the component `y`. -/
def Up (component : List Component) (slot : List Slot) (x y : ℕ) : Prop :=
  ∃ c ∈ component, ∃ s ∈ slot, c.componentId = x ∧ c.parentSlotId = some s.slotId ∧
    s.componentId = y

def componentIds (component : List Component) : List ℕ := component.map (·.componentId)

/-- The primary and foreign keys hold. -/
structure Valid (component : List Component) (slot : List Slot) : Prop where
  components : (componentIds component).Nodup
  slots : (slot.map (·.slotId)).Nodup
  parents : ∀ c ∈ component, ∀ q ∈ c.parentSlotId, ∃ s ∈ slot, s.slotId = q
  owners : ∀ s ∈ slot, s.componentId ∈ componentIds component

theorem Valid.eq_of_slotId (h : Valid component slot) {s t : Slot} (hs : s ∈ slot) (ht : t ∈ slot)
    (hid : s.slotId = t.slotId) : s = t :=
  List.inj_on_of_nodup_map h.slots hs ht hid

theorem Valid.eq_of_componentId (h : Valid component slot) {c d : Component} (hc : c ∈ component)
    (hd : d ∈ component) (hid : c.componentId = d.componentId) : c = d :=
  List.inj_on_of_nodup_map h.components hc hd hid

theorem Up.mem_left {x y : ℕ} (h : Up component slot x y) : x ∈ componentIds component := by
  obtain ⟨c, hc, -, -, rfl, -⟩ := h
  exact List.mem_map_of_mem hc

theorem Valid.up_mem_right (hv : Valid component slot) {x y : ℕ} (h : Up component slot x y) :
    y ∈ componentIds component := by
  obtain ⟨-, -, s, hs, -, -, rfl⟩ := h
  exact hv.owners s hs

theorem Valid.up_unique (hv : Valid component slot) {x y z : ℕ} (h : Up component slot x y)
    (h' : Up component slot x z) : y = z := by
  obtain ⟨c, hc, s, hs, rfl, hcs, rfl⟩ := h
  obtain ⟨d, hd, t, ht, hdc, hdt, rfl⟩ := h'
  obtain rfl := hv.eq_of_componentId hd hc hdc
  rw [hv.eq_of_slotId hs ht (Option.some_inj.mp (hcs.symm.trans hdt))]

/-! ## Rows and paths -/

/-- The row describes a path from one component up to another. -/
structure IsPath (ids : List ℕ) (E : ℕ → ℕ → Prop) (r : HierRow) : Prop where
  ascends : Ascends E r.componentPath r.childComponentId r.componentId
  mem : r.childComponentId ∈ ids
  level : r.level = r.componentPath.length

/-- The table has exactly one row for each path. -/
structure Holds (ids : List ℕ) (E : ℕ → ℕ → Prop) (ct : List HierRow) : Prop where
  nodup : ct.Nodup
  mem : ∀ r, r ∈ ct ↔ IsPath ids E r

/-- The row of a component under itself. -/
def HierRow.self (componentId : ℕ) : HierRow := ⟨componentId, componentId, [componentId], 1⟩

theorem Holds.perm {ct' : List HierRow} (h : Holds ids E ct) (h' : Holds ids E ct') :
    ct.Perm ct' :=
  (List.perm_ext_iff_of_nodup h.nodup h'.nodup).mpr fun r => (h.mem r).trans (h'.mem r).symm

theorem Holds.of_perm {ct' : List HierRow} (h : Holds ids E ct) (hperm : ct'.Perm ct) :
    Holds ids E ct' where
  nodup := hperm.nodup_iff.mpr h.nodup
  mem r := hperm.mem_iff.trans (h.mem r)

theorem Holds.congr (hE : ∀ x y, E x y ↔ E' x y) : Holds ids E ct ↔ Holds ids E' ct := by
  have hpath : ∀ r, IsPath ids E r ↔ IsPath ids E' r := fun r =>
    ⟨fun hr => ⟨(Ascends.congr hE).mp hr.ascends, hr.mem, hr.level⟩,
      fun hr => ⟨(Ascends.congr hE).mpr hr.ascends, hr.mem, hr.level⟩⟩
  exact ⟨fun h => ⟨h.nodup, fun r => (h.mem r).trans (hpath r)⟩,
    fun h => ⟨h.nodup, fun r => (h.mem r).trans (hpath r).symm⟩⟩

theorem isPath_self (h : n ∈ ids) : IsPath ids E (.self n) := ⟨.singleton n, h, rfl⟩

theorem IsPath.eq_of_path (h : IsPath ids E r) {q : HierRow} (hq : IsPath ids E' q)
    (hpath : q.componentPath = r.componentPath) : q = r := by
  have ha := hq.ascends
  rw [hpath] at ha
  refine HierRow.ext ?_ ?_ hpath ?_
  · exact Option.some_inj.mp (ha.last.symm.trans h.ascends.last)
  · exact Option.some_inj.mp (ha.head.symm.trans h.ascends.head)
  · rw [hq.level, h.level, hpath]

theorem IsPath.eq_self (hr : IsPath ids E r) (halone : ∀ y, ¬ E n y) (hn : r.childComponentId = n) :
    r = .self n := by
  obtain rfl := hn
  have hpath : r.componentPath = [r.childComponentId] := by
    match hp : r.componentPath, hr.ascends with
    | [x], ha => rw [(Ascends.singleton_iff.mp ha).1]
    | x :: y :: l, ha =>
      obtain ⟨rfl, hxy, -⟩ := Ascends.cons_iff.mp ha
      exact absurd hxy (halone y)
    | [], ha => exact absurd rfl ha.ne_nil
  have hroot := hr.ascends
  rw [hpath] at hroot
  refine HierRow.ext (Ascends.singleton_iff.mp hroot).2.symm rfl hpath ?_
  rw [hr.level, hpath]
  rfl

/-! ## The view -/

theorem slotsOf_ne_nil : slotsOf slot n ≠ [] := by
  unfold slotsOf
  dsimp only
  split
  · exact List.cons_ne_nil _ _
  · assumption

theorem some_mem_slotsOf {q : ℕ} : some q ∈ slotsOf slot n ↔
    ∃ s ∈ slot, s.componentId = n ∧ s.slotId = q := by
  have hmap : some q ∈ (slot.filter (·.componentId = n)).map (fun s => some s.slotId) ↔
      ∃ s ∈ slot, s.componentId = n ∧ s.slotId = q := by
    simp only [List.mem_map, List.mem_filter, decide_eq_true_eq, Option.some.injEq, and_assoc]
  rw [← hmap]
  unfold slotsOf
  dsimp only
  split
  · next hnil => simp [hnil]
  · rfl

theorem mem_selfRows {q : QueryRow} : q ∈ selfRows component slot ↔
    ∃ c ∈ component, ∃ s ∈ slotsOf slot c.componentId,
      q = ⟨c.componentId, c.componentId, s, [c.componentId]⟩ := by
  simp only [selfRows, List.mem_flatMap, List.mem_map, eq_comm]

theorem mem_childRows {x q : QueryRow} : q ∈ childRows component slot x ↔
    ∃ c ∈ component, (x.slotId ≠ none ∧ x.slotId = c.parentSlotId) ∧
      ∃ s ∈ slotsOf slot c.componentId,
        q = ⟨x.componentId, c.componentId, s, c.componentId :: x.componentPath⟩ := by
  simp only [childRows, List.mem_flatMap, List.mem_map, List.mem_filter, decide_eq_true_eq]
  constructor
  · rintro ⟨c, ⟨hc, hslot⟩, s, hs, rfl⟩
    exact ⟨c, hc, hslot, s, hs, rfl⟩
  · rintro ⟨c, hc, hslot, s, hs, rfl⟩
    exact ⟨c, ⟨hc, hslot⟩, s, hs, rfl⟩

/-- The rows of a round: a path of its number of edges, with a slot of the component at its lower
end. -/
theorem Valid.mem_rounds (hv : Valid component slot) {k : ℕ} {q : QueryRow} :
    q ∈ rounds (childRows component slot) (selfRows component slot) k ↔
      Ascends (Up component slot) q.componentPath q.childComponentId q.componentId ∧
        q.childComponentId ∈ componentIds component ∧ q.slotId ∈ slotsOf slot q.childComponentId ∧
        q.componentPath.length = k + 1 := by
  induction k generalizing q with
  | zero =>
    refine mem_selfRows.trans ⟨?_, ?_⟩
    · rintro ⟨c, hc, s, hs, rfl⟩
      exact ⟨.singleton _, List.mem_map_of_mem hc, hs, rfl⟩
    · rintro ⟨ha, hmem, hs, hlen⟩
      obtain ⟨root, child, s, path⟩ := q
      obtain ⟨x, rfl⟩ := List.length_eq_one_iff.mp hlen
      obtain ⟨rfl, rfl⟩ := Ascends.singleton_iff.mp ha
      obtain ⟨c, hc, rfl⟩ := List.mem_map.mp hmem
      exact ⟨c, hc, s, hs, rfl⟩
  | succ k ih =>
    rw [mem_rounds_succ]
    constructor
    · rintro ⟨x, hx, hq⟩
      obtain ⟨ha, hmem, hslot, hlen⟩ := ih.mp hx
      obtain ⟨c, hc, ⟨hne, hparent⟩, s, hs, rfl⟩ := mem_childRows.mp hq
      obtain ⟨i, hi⟩ := Option.ne_none_iff_exists'.mp hne
      rw [hi] at hslot
      obtain ⟨t, ht, htc, hti⟩ := some_mem_slotsOf.mp hslot
      have hup : Up component slot c.componentId x.childComponentId :=
        ⟨c, hc, t, ht, rfl, by rw [← hparent, hi, hti], htc⟩
      exact ⟨(Ascends.singleton _).append hup ha, List.mem_map_of_mem hc, hs, by simp [hlen]⟩
    · rintro ⟨ha, hmem, hslot, hlen⟩
      obtain ⟨root, child, s, path⟩ := q
      dsimp only at ha hmem hslot hlen
      obtain ⟨b, t, rfl, hup, ht⟩ := ha.exists_cons (by omega)
      have hb := hv.up_mem_right hup
      obtain ⟨c, hc, u, hu, rfl, hcu, rfl⟩ := hup
      refine ⟨⟨root, u.componentId, some u.slotId, t⟩, ih.mpr ⟨ht, hb, ?_, ?_⟩, ?_⟩
      · exact some_mem_slotsOf.mpr ⟨u, hu, rfl, rfl⟩
      · exact Nat.succ_inj.mp hlen
      · exact mem_childRows.mpr ⟨c, hc, ⟨Option.some_ne_none _, hcu.symm⟩, s, hslot, rfl⟩

theorem Valid.length_le (hv : Valid component slot) (hE : Acyclic (Up component slot))
    (hr : IsPath (componentIds component) (Up component slot) r) :
    r.componentPath.length ≤ component.length := by
  have hmem : ∀ x ∈ r.componentPath, x ∈ componentIds component := by
    intro x hx
    rcases Relation.ReflTransGen.cases_tail (hr.ascends.reflTransGen_of_mem hx) with
      rfl | ⟨y, -, hyx⟩
    · exact hr.mem
    · exact hv.up_mem_right hyx
  have hle := (List.subperm_of_subset (hE.nodup hr.ascends.chain) hmem).length_le
  rwa [componentIds, List.length_map] at hle

/-- **`v_component_hier` has one row for each path.** -/
theorem holds_vComponentHier (hv : Valid component slot) (hE : Acyclic (Up component slot)) :
    Holds (componentIds component) (Up component slot) (vComponentHier component slot) where
  nodup := List.nodup_dedup _
  mem r := by
    rw [vComponentHier, List.mem_dedup, List.mem_map]
    constructor
    · rintro ⟨q, hq, rfl⟩
      obtain ⟨k, -, hq⟩ := mem_union_iff.mp hq
      obtain ⟨ha, hmem, -, -⟩ := hv.mem_rounds.mp hq
      exact ⟨ha, hmem, rfl⟩
    · intro hr
      have hne : slotsOf slot r.childComponentId ≠ [] := slotsOf_ne_nil
      obtain ⟨s, hs⟩ := List.exists_mem_of_ne_nil _ hne
      have hpos := List.length_pos_of_ne_nil hr.ascends.ne_nil
      have hle := hv.length_le hE hr
      refine ⟨⟨r.componentId, r.childComponentId, s, r.componentPath⟩,
        mem_union_iff.mpr ⟨r.componentPath.length - 1, by omega, ?_⟩,
        HierRow.ext rfl rfl rfl hr.level.symm⟩
      exact hv.mem_rounds.mpr ⟨hr.ascends, hr.mem, hs, by dsimp only; omega⟩

/-! ## The handler -/

theorem Holds.insertSelf (h : Holds ids E ct) (hn : n ∉ ids) (halone : ∀ y, ¬ E n y) :
    Holds (ids ++ [n]) E (ct ++ [.self n]) := by
  refine ⟨List.nodup_append.mpr ⟨h.nodup, List.nodup_singleton _, ?_⟩, fun r => ?_⟩
  · rintro r hr _ hr' rfl
    obtain rfl := List.mem_singleton.mp hr'
    exact hn ((h.mem _).mp hr).mem
  · rw [List.mem_append, List.mem_singleton, h.mem]
    constructor
    · rintro (hr | rfl)
      · exact ⟨hr.ascends, List.mem_append_left _ hr.mem, hr.level⟩
      · exact isPath_self (List.mem_append_right _ List.mem_cons_self)
    · intro hr
      rcases List.mem_append.mp hr.mem with hmem | hmem
      · exact Or.inl ⟨hr.ascends, hmem, hr.level⟩
      · exact Or.inr (hr.eq_self halone (List.mem_singleton.mp hmem))

/-- The rows across the component are those over its edge to the parent. -/
theorem Holds.leaveParent (h : Holds ids E ct) (hE : Acyclic E)
    (hroot : Rooted E E' old.componentId) (hnone : old.parentSlotId = none → ∀ y, ¬ E old.componentId y) :
    Holds ids E' (leaveParent ct old) := by
  rw [Components.leaveParent]
  by_cases hp : old.parentSlotId = none
  · rw [if_neg (not_not_intro hp)]
    refine (Holds.congr fun x y => ⟨fun hxy => (hroot x y).mpr ⟨hxy, ?_⟩,
      fun hxy => ((hroot x y).mp hxy).1⟩).mp h
    rintro rfl
    exact hnone hp y hxy
  · rw [if_pos hp]
    refine ⟨h.nodup.filter _, fun r => ?_⟩
    rw [List.mem_filter, decide_eq_true_iff, h.mem]
    constructor
    · rintro ⟨hr, hnot⟩
      refine ⟨(Ascends.rooted_iff hroot hE).mpr ⟨hr.ascends, fun hn => ?_⟩, hr.mem, hr.level⟩
      by_contra hne
      exact hnot ⟨hn, hne⟩
    · intro hr
      obtain ⟨ha, hn⟩ := (Ascends.rooted_iff hroot hE).mp hr.ascends
      exact ⟨⟨ha, hr.mem, hr.level⟩, fun hnot => hnot.2 (hn hnot.1)⟩

theorem mem_upstreamRows (hv : Valid component slot) {s : Slot} (hs : s ∈ slot) :
    r ∈ upstreamRows slot ct s.slotId n ↔ ∃ ch ∈ ct, ∃ ch2 ∈ ct,
      ch.childComponentId = s.componentId ∧ ch2.componentId = n ∧
      r = ⟨ch.componentId, ch2.childComponentId, ch2.componentPath ++ ch.componentPath,
        ch2.componentPath.length + ch.componentPath.length⟩ := by
  simp only [upstreamRows, List.mem_flatMap, List.mem_map, List.mem_filter, decide_eq_true_eq]
  constructor
  · rintro ⟨t, ⟨ht, hid⟩, ch, ⟨hch, hchild⟩, ch2, ⟨hch2, hroot⟩, rfl⟩
    obtain rfl := hv.eq_of_slotId ht hs hid
    exact ⟨ch, hch, ch2, hch2, hchild, hroot, rfl⟩
  · rintro ⟨ch, hch, ch2, hch2, hchild, hroot, rfl⟩
    exact ⟨s, ⟨hs, rfl⟩, ch, ⟨hch, hchild⟩, ch2, ⟨hch2, hroot⟩, rfl⟩

theorem nodup_upstreamRows (hv : Valid component slot) (h : Holds ids E ct) {s : Slot}
    (hs : s ∈ slot) (hnp : ¬ E n s.componentId) : (upstreamRows slot ct s.slotId n).Nodup := by
  have hinj : ∀ {ch ch' ch2 ch2' : HierRow}, ch ∈ ct → ch' ∈ ct → ch2 ∈ ct → ch2' ∈ ct →
      ch.childComponentId = s.componentId → ch'.childComponentId = s.componentId →
      ch2.componentId = n → ch2'.componentId = n →
      ch2.componentPath ++ ch.componentPath = ch2'.componentPath ++ ch'.componentPath →
      ch2 = ch2' ∧ ch = ch' := by
    intro ch ch' ch2 ch2' hch hch' hch2 hch2' hc hc' hn hn' hpath
    have ha := (h.mem ch).mp hch
    have ha' := (h.mem ch').mp hch'
    have ha2 := (h.mem ch2).mp hch2
    have ha2' := (h.mem ch2').mp hch2'
    obtain ⟨h2, h1⟩ := Ascends.append_inj hnp (hn ▸ ha2.ascends) (hc ▸ ha.ascends)
      (hn' ▸ ha2'.ascends) (hc' ▸ ha'.ascends) hpath
    exact ⟨ha2'.eq_of_path ha2 h2, ha'.eq_of_path ha h1⟩
  refine List.nodup_flatMap.mpr ⟨fun t ht => List.nodup_flatMap.mpr ⟨fun ch hch => ?_, ?_⟩, ?_⟩
  · obtain rfl := hv.eq_of_slotId (List.mem_of_mem_filter ht) hs
      (of_decide_eq_true (List.mem_filter.mp ht).2)
    obtain ⟨hch, hc⟩ := List.mem_filter.mp hch
    refine List.Nodup.map_on ?_ (h.nodup.filter _)
    intro ch2 hch2 ch2' hch2' hrow
    obtain ⟨hch2, hn⟩ := List.mem_filter.mp hch2
    obtain ⟨hch2', hn'⟩ := List.mem_filter.mp hch2'
    exact (hinj hch hch hch2 hch2' (of_decide_eq_true hc) (of_decide_eq_true hc)
      (of_decide_eq_true hn) (of_decide_eq_true hn') (congrArg HierRow.componentPath hrow)).1
  · obtain rfl := hv.eq_of_slotId (List.mem_of_mem_filter ht) hs
      (of_decide_eq_true (List.mem_filter.mp ht).2)
    refine (h.nodup.filter _).imp_of_mem fun {ch ch'} hch hch' hne r hr hr' => ?_
    obtain ⟨hch, hc⟩ := List.mem_filter.mp hch
    obtain ⟨hch', hc'⟩ := List.mem_filter.mp hch'
    obtain ⟨ch2, hch2, rfl⟩ := List.mem_map.mp hr
    obtain ⟨ch2', hch2', hrow⟩ := List.mem_map.mp hr'
    obtain ⟨hch2, hn⟩ := List.mem_filter.mp hch2
    obtain ⟨hch2', hn'⟩ := List.mem_filter.mp hch2'
    exact hne (hinj hch hch' hch2 hch2' (of_decide_eq_true hc) (of_decide_eq_true hc')
      (of_decide_eq_true hn) (of_decide_eq_true hn') (congrArg HierRow.componentPath hrow).symm).2
  · refine ((List.Nodup.of_map _ hv.slots).filter _).imp_of_mem fun {t u} ht hu hne => ?_
    obtain ⟨ht, hti⟩ := List.mem_filter.mp ht
    obtain ⟨hu, hui⟩ := List.mem_filter.mp hu
    exact absurd (hv.eq_of_slotId ht hu
      ((of_decide_eq_true hti).trans (of_decide_eq_true hui).symm)) hne

theorem Holds.upstream (h : Holds ids E ct) (hv : Valid component slot) {s : Slot} (hs : s ∈ slot)
    (hlinked : Linked E E' n s.componentId) (hE' : Acyclic E') (hnp : ¬ E n s.componentId)
    (hmem : s.componentId ∈ ids) : Holds ids E' (ct ++ upstreamRows slot ct s.slotId n) := by
  refine ⟨List.nodup_append.mpr ⟨h.nodup, nodup_upstreamRows hv h hs hnp, ?_⟩, fun r => ?_⟩
  · rintro r hr _ hr' rfl
    obtain ⟨ch, hch, ch2, hch2, hc, hn, rfl⟩ := (mem_upstreamRows hv hs).mp hr'
    have ha := (h.mem ch).mp hch
    have ha2 := (h.mem ch2).mp hch2
    exact absurd ((h.mem _).mp hr).ascends.chain
      (Ascends.not_isChain_append hnp (hn ▸ ha2.ascends) (hc ▸ ha.ascends.head))
  · rw [List.mem_append, h.mem, mem_upstreamRows hv hs]
    constructor
    · rintro (hr | ⟨ch, hch, ch2, hch2, hc, hn, rfl⟩)
      · exact ⟨(Ascends.linked_iff hlinked hE').mpr (Or.inl hr.ascends), hr.mem, hr.level⟩
      · have ha := (h.mem ch).mp hch
        have ha2 := (h.mem ch2).mp hch2
        refine ⟨(Ascends.linked_iff hlinked hE').mpr (Or.inr ?_), ha2.mem, ?_⟩
        · exact ⟨_, _, rfl, hn ▸ ha2.ascends, hc ▸ ha.ascends⟩
        · exact (List.length_append ..).symm
    · intro hr
      rcases (Ascends.linked_iff hlinked hE').mp hr.ascends with ha | ⟨u, t, hut, hu, ht⟩
      · exact Or.inl ⟨ha, hr.mem, hr.level⟩
      · have hlow := (h.mem ⟨_, _, u, u.length⟩).mpr ⟨hu, hr.mem, rfl⟩
        have hhigh := (h.mem ⟨_, _, t, t.length⟩).mpr ⟨ht, hmem, rfl⟩
        refine Or.inr ⟨_, hhigh, _, hlow, rfl, rfl, HierRow.ext rfl rfl hut ?_⟩
        rw [hr.level, hut, List.length_append]

/-! ## How the statements change the forest -/

/-- The table with another parent slot for one component. -/
def setParent (component : List Component) (old : Component) (q : Option ℕ) : List Component :=
  component.map fun c =>
    if c.componentId = old.componentId then { old with parentSlotId := q } else c

theorem mem_setParent {q : Option ℕ} {c : Component} (hold : old ∈ component) :
    c ∈ setParent component old q ↔
      c = { old with parentSlotId := q } ∨ (c ∈ component ∧ c.componentId ≠ old.componentId) := by
  rw [setParent, List.mem_map]
  constructor
  · rintro ⟨d, hd, rfl⟩
    by_cases hid : d.componentId = old.componentId
    · exact Or.inl (if_pos hid)
    · rw [if_neg hid]
      exact Or.inr ⟨hd, hid⟩
  · rintro (rfl | ⟨hc, hid⟩)
    · exact ⟨old, hold, if_pos rfl⟩
    · exact ⟨c, hc, if_neg hid⟩

@[simp] theorem componentIds_setParent {q : Option ℕ} :
    componentIds (setParent component old q) = componentIds component := by
  rw [componentIds, setParent, List.map_map]
  refine List.map_congr_left fun c _ => ?_
  rw [Function.comp_apply]
  split
  · next hid => exact hid.symm
  · rfl

theorem up_setParent_none (hold : old ∈ component) :
    Rooted (Up component slot) (Up (setParent component old none) slot) old.componentId := by
  intro x y
  constructor
  · rintro ⟨c, hc, s, hs, rfl, hcs, rfl⟩
    rcases (mem_setParent hold).mp hc with rfl | ⟨hc, hid⟩
    · exact nomatch hcs
    · exact ⟨⟨c, hc, s, hs, rfl, hcs, rfl⟩, hid⟩
  · rintro ⟨⟨c, hc, s, hs, rfl, hcs, rfl⟩, hid⟩
    exact ⟨c, (mem_setParent hold).mpr (Or.inr ⟨hc, hid⟩), s, hs, rfl, hcs, rfl⟩

theorem up_setParent_some (hv : Valid component slot) (hold : old ∈ component) {s : Slot}
    (hs : s ∈ slot) : Linked (Up (setParent component old none) slot)
      (Up (setParent component old (some s.slotId)) slot) old.componentId s.componentId := by
  intro x y
  constructor
  · rintro ⟨c, hc, t, ht, rfl, hct, rfl⟩
    rcases (mem_setParent hold).mp hc with rfl | hc
    · obtain rfl := hv.eq_of_slotId hs ht (Option.some_inj.mp hct)
      exact Or.inr ⟨rfl, rfl⟩
    · exact Or.inl ⟨c, (mem_setParent hold).mpr (Or.inr hc), t, ht, rfl, hct, rfl⟩
  · rintro (⟨c, hc, t, ht, rfl, hct, rfl⟩ | ⟨rfl, rfl⟩)
    · rcases (mem_setParent hold).mp hc with rfl | hc
      · exact nomatch hct
      · exact ⟨c, (mem_setParent hold).mpr (Or.inr hc), t, ht, rfl, hct, rfl⟩
    · exact ⟨_, (mem_setParent hold).mpr (Or.inl rfl), s, hs, rfl, rfl, rfl⟩

theorem Valid.setParent (hv : Valid component slot) (hold : old ∈ component) {q : Option ℕ}
    (hq : ∀ i ∈ q, ∃ s ∈ slot, s.slotId = i) : Valid (setParent component old q) slot where
  components := by rw [componentIds_setParent]; exact hv.components
  slots := hv.slots
  parents c hc := by
    rcases (mem_setParent hold).mp hc with rfl | ⟨hc, -⟩
    · exact hq
    · exact hv.parents c hc
  owners s hs := by rw [componentIds_setParent]; exact hv.owners s hs

theorem up_append_none {x y : ℕ} :
    Up component slot x y ↔ Up (component ++ [⟨n, none⟩]) slot x y := by
  constructor
  · rintro ⟨c, hc, s, hs, h⟩
    exact ⟨c, List.mem_append_left _ hc, s, hs, h⟩
  · rintro ⟨c, hc, s, hs, h⟩
    rcases List.mem_append.mp hc with hc | hc
    · exact ⟨c, hc, s, hs, h⟩
    · obtain rfl := List.mem_singleton.mp hc
      exact nomatch h.2.1

theorem up_append_some (hv : Valid component slot) {s : Slot} (hs : s ∈ slot) :
    Linked (Up component slot) (Up (component ++ [⟨n, some s.slotId⟩]) slot) n s.componentId := by
  intro x y
  constructor
  · rintro ⟨c, hc, t, ht, rfl, hct, rfl⟩
    rcases List.mem_append.mp hc with hc | hc
    · exact Or.inl ⟨c, hc, t, ht, rfl, hct, rfl⟩
    · obtain rfl := List.mem_singleton.mp hc
      obtain rfl := hv.eq_of_slotId hs ht (Option.some_inj.mp hct)
      exact Or.inr ⟨rfl, rfl⟩
  · rintro (⟨c, hc, t, ht, h⟩ | ⟨rfl, rfl⟩)
    · exact ⟨c, List.mem_append_left _ hc, t, ht, h⟩
    · exact ⟨_, List.mem_append_right _ List.mem_cons_self, s, hs, rfl, rfl, rfl⟩

theorem componentIds_append : componentIds (component ++ [new]) =
    componentIds component ++ [new.componentId] := by
  rw [componentIds, List.map_append]
  rfl

section

variable (hv : Valid component slot)
include hv

theorem Valid.append (hnew : new.componentId ∉ componentIds component)
    (hq : ∀ i ∈ new.parentSlotId, ∃ s ∈ slot, s.slotId = i) :
    Valid (component ++ [new]) slot where
  components := by
    rw [componentIds_append]
    refine List.nodup_append.mpr ⟨hv.components, List.nodup_singleton _, ?_⟩
    rintro x hx _ hx' rfl
    obtain rfl := List.mem_singleton.mp hx'
    exact hnew hx
  slots := hv.slots
  parents c hc := by
    rcases List.mem_append.mp hc with hc | hc
    · exact hv.parents c hc
    · obtain rfl := List.mem_singleton.mp hc
      exact hq
  owners s hs := by
    rw [componentIds_append]
    exact List.mem_append_left _ (hv.owners s hs)

theorem Valid.filter (hn : ∀ s ∈ slot, s.componentId ≠ n) :
    Valid (component.filter (·.componentId ≠ n)) slot where
  components := (List.filter_sublist.map _).nodup hv.components
  slots := hv.slots
  parents c hc := hv.parents c (List.mem_of_mem_filter hc)
  owners s hs := by
    obtain ⟨c, hc, hcs⟩ := List.mem_map.mp (hv.owners s hs)
    refine List.mem_map.mpr ⟨c, List.mem_filter.mpr ⟨hc, decide_eq_true ?_⟩, hcs⟩
    rw [hcs]
    exact hn s hs

theorem Valid.insertSlot {s : Slot} (hs : ∀ t ∈ slot, t.slotId ≠ s.slotId)
    (hc : s.componentId ∈ componentIds component) :
    Valid component (slot ++ [s]) where
  components := hv.components
  slots := by
    rw [List.map_append]
    refine List.nodup_append.mpr ⟨hv.slots, List.nodup_singleton _, ?_⟩
    rintro x hx _ hx' rfl
    obtain ⟨t, ht, rfl⟩ := List.mem_map.mp hx
    exact hs t ht (List.mem_singleton.mp hx')
  parents c hc q hq := by
    obtain ⟨t, ht, htq⟩ := hv.parents c hc q hq
    exact ⟨t, List.mem_append_left _ ht, htq⟩
  owners t ht := by
    rcases List.mem_append.mp ht with ht | ht
    · exact hv.owners t ht
    · obtain rfl := List.mem_singleton.mp ht
      exact hc

theorem up_insertSlot {s : Slot} (hs : ∀ t ∈ slot, t.slotId ≠ s.slotId) {x y : ℕ} :
    Up component slot x y ↔ Up component (slot ++ [s]) x y := by
  constructor
  · rintro ⟨c, hc, t, ht, h⟩
    exact ⟨c, hc, t, List.mem_append_left _ ht, h⟩
  · rintro ⟨c, hc, t, ht, h⟩
    rcases List.mem_append.mp ht with ht | ht
    · exact ⟨c, hc, t, ht, h⟩
    · obtain rfl := List.mem_singleton.mp ht
      obtain ⟨u, hu, hut⟩ := hv.parents c hc _ h.2.1
      exact absurd hut (hs u hu)

theorem Valid.deleteSlot {i : ℕ} (hi : ∀ c ∈ component, c.parentSlotId ≠ some i) :
    Valid component (slot.filter (·.slotId ≠ i)) where
  components := hv.components
  slots := (List.filter_sublist.map _).nodup hv.slots
  parents c hc q hq := by
    obtain ⟨t, ht, htq⟩ := hv.parents c hc q hq
    refine ⟨t, List.mem_filter.mpr ⟨ht, decide_eq_true ?_⟩, htq⟩
    rintro rfl
    exact hi c hc (htq ▸ hq)
  owners t ht := hv.owners t (List.mem_of_mem_filter ht)

end

theorem up_deleteSlot {i : ℕ} (hi : ∀ c ∈ component, c.parentSlotId ≠ some i) {x y : ℕ} :
    Up component slot x y ↔ Up component (slot.filter (·.slotId ≠ i)) x y := by
  constructor
  · rintro ⟨c, hc, t, ht, hcx, hct, hty⟩
    refine ⟨c, hc, t, List.mem_filter.mpr ⟨ht, decide_eq_true ?_⟩, hcx, hct, hty⟩
    rintro rfl
    exact hi c hc hct
  · rintro ⟨c, hc, t, ht, h⟩
    exact ⟨c, hc, t, List.mem_of_mem_filter ht, h⟩

/-! ## One statement -/

/-- The keys hold, and no component is inside itself. -/
structure Forest (db : Db) : Prop where
  valid : Valid db.component db.slot
  acyclic : Acyclic (Up db.component db.slot)

/-- The cache has one row for each path. -/
def HierHolds (db : Db) : Prop :=
  Holds (componentIds db.component) (Up db.component db.slot) db.ctComponentHier

/-- The step leaves a forest. -/
def KeepsForest (db : Db) (s : Statement) : Prop :=
  Acyclic (Up (step db s).component (step db s).slot)

theorem slot_of_checkParentSlot {others : List Component} {q : Option ℕ}
    (h : checkParentSlot slot others q = .ok ()) : ∀ i ∈ q, ∃ s ∈ slot, s.slotId = i := by
  obtain ⟨-, h⟩ := bind_unit_eq_ok.mp h
  rintro i rfl
  have h := raiseIf_eq_ok.mp h
  by_contra hnot
  refine h ⟨Option.some_ne_none i, fun s hs hsi => hnot ⟨s, hs, Option.some_inj.mp hsi⟩⟩

theorem Valid.not_up (hv : Valid component slot) (hold : old ∈ component)
    (hnone : old.parentSlotId = none) (y : ℕ) : ¬ Up component slot old.componentId y := by
  rintro ⟨c, hc, s, -, hid, hcs, -⟩
  obtain rfl := hv.eq_of_componentId hc hold hid
  exact nomatch hnone.symm.trans hcs

theorem forest_updateComponent (h : Forest db) (hh : HierHolds db) {q : Option ℕ}
    (hold : old ∈ db.component) (hok : updateComponent db old q = .ok db')
    (hE' : Acyclic (Up db'.component db'.slot)) : HierHolds db' := by
  obtain ⟨hcheck, hok⟩ := bind_unit_eq_ok.mp hok
  obtain rfl := Except.ok.inj hok
  have hslot := slot_of_checkParentSlot hcheck
  have hroot : Rooted (Up db.component db.slot) (Up (setParent db.component old none) db.slot)
      old.componentId := up_setParent_none hold
  have hleave := hh.leaveParent h.acyclic hroot fun hnone => h.valid.not_up hold hnone
  show Holds (componentIds (setParent db.component old q))
    (Up (setParent db.component old q) db.slot)
    (enterParent db.slot (leaveParent db.ctComponentHier old) { old with parentSlotId := q })
  rw [componentIds_setParent]
  cases q with
  | none => exact hleave
  | some i =>
    obtain ⟨s, hs, rfl⟩ := hslot i rfl
    exact hleave.upstream h.valid hs (up_setParent_some h.valid hold hs) hE'
      (fun hup => ((hroot _ _).mp hup).2 rfl) (h.valid.owners s hs)

theorem forest_insertComponent (h : Forest db) (hh : HierHolds db)
    (hok : insertComponent db new = .ok db') (hE' : Acyclic (Up db'.component db'.slot)) :
    HierHolds db' := by
  obtain ⟨hnew, hok⟩ := bind_unit_eq_ok.mp hok
  obtain ⟨hcheck, hok⟩ := bind_unit_eq_ok.mp hok
  obtain rfl := Except.ok.inj hok
  have hslot := slot_of_checkParentSlot hcheck
  have hnew : new.componentId ∉ componentIds db.component := fun hmem =>
    raiseIf_eq_ok.mp hnew (List.mem_map.mp hmem)
  have hself := hh.insertSelf hnew fun y hy => hnew hy.mem_left
  show Holds (componentIds (db.component ++ [new])) (Up (db.component ++ [new]) db.slot)
    (enterParent db.slot (db.ctComponentHier ++ [.self new.componentId]) new)
  rw [componentIds_append]
  obtain ⟨n, q⟩ := new
  cases q with
  | none => exact (Holds.congr fun x y => up_append_none).mp hself
  | some i =>
    obtain ⟨s, hs, rfl⟩ := hslot i rfl
    exact hself.upstream h.valid hs (up_append_some h.valid hs) hE'
      (fun hup => hnew hup.mem_left) (List.mem_append_left _ (h.valid.owners s hs))

theorem deleteComponent_eq_ok : deleteComponent db old = .ok db' ↔
    (∀ s ∈ db.slot, s.componentId ≠ old.componentId) ∧
      (∀ d ∈ db.device, d.componentId ≠ some old.componentId) ∧
      db' = fireComponent
        { db with component := db.component.filter (·.componentId ≠ old.componentId) }
        (.delete old) := by
  rw [deleteComponent, bind_unit_eq_ok, bind_unit_eq_ok, raiseIf_eq_ok, raiseIf_eq_ok,
    Except.ok.injEq, eq_comm (b := db')]
  push Not
  rfl

theorem not_hierHolds_deleteComponent (hh : HierHolds db) (hold : old ∈ db.component)
    (hok : deleteComponent db old = .ok db') : ¬ HierHolds db' := by
  obtain ⟨-, -, rfl⟩ := deleteComponent_eq_ok.mp hok
  intro hh'
  have hself : HierRow.self old.componentId ∈ db.ctComponentHier :=
    (hh.mem _).mpr (isPath_self (List.mem_map_of_mem hold))
  have hstays : HierRow.self old.componentId ∈ leaveParent db.ctComponentHier old := by
    rw [leaveParent]
    split
    · exact List.mem_filter.mpr ⟨hself, decide_eq_true fun hnot => hnot.2 rfl⟩
    · exact hself
  obtain ⟨c, hc, hid⟩ := List.mem_map.mp ((hh'.mem _).mp hstays).mem
  exact of_decide_eq_true (List.mem_filter.mp hc).2 hid

theorem Valid.execute (hv : Valid db.component db.slot) {s : Statement}
    (hok : execute db s = .ok db') : Valid db'.component db'.slot := by
  cases s with
  | insertComponent new =>
    obtain ⟨hnew, hok⟩ := bind_unit_eq_ok.mp hok
    obtain ⟨hcheck, hok⟩ := bind_unit_eq_ok.mp hok
    obtain rfl := Except.ok.inj hok
    exact hv.append (fun hmem => raiseIf_eq_ok.mp hnew (List.mem_map.mp hmem))
      (slot_of_checkParentSlot hcheck)
  | deleteComponent id =>
    rw [Components.execute] at hok
    split at hok
    · obtain rfl := Except.ok.inj hok
      exact hv
    · obtain ⟨hslot, -, rfl⟩ := deleteComponent_eq_ok.mp hok
      exact hv.filter hslot
  | updateComponent id q =>
    rw [Components.execute] at hok
    split at hok
    · obtain rfl := Except.ok.inj hok
      exact hv
    · next old hold =>
      obtain ⟨hcheck, hok⟩ := bind_unit_eq_ok.mp hok
      obtain rfl := Except.ok.inj hok
      exact hv.setParent (List.mem_of_find?_eq_some hold) (slot_of_checkParentSlot hcheck)
  | insertSlot new =>
    obtain ⟨hs, hok⟩ := bind_unit_eq_ok.mp hok
    obtain ⟨hc, hok⟩ := bind_unit_eq_ok.mp hok
    obtain rfl := Except.ok.inj hok
    refine hv.insertSlot (fun t ht hid => raiseIf_eq_ok.mp hs ⟨t, ht, hid⟩) ?_
    by_contra hnot
    exact raiseIf_eq_ok.mp hc fun c hc hid => hnot (hid ▸ List.mem_map_of_mem hc)
  | deleteSlot id =>
    obtain ⟨hc, hok⟩ := bind_unit_eq_ok.mp hok
    obtain rfl := Except.ok.inj hok
    exact hv.deleteSlot fun c hmem hid => raiseIf_eq_ok.mp hc ⟨c, hmem, hid⟩
  | insertDevice new =>
    obtain ⟨-, hok⟩ := bind_unit_eq_ok.mp hok
    obtain ⟨-, hok⟩ := bind_unit_eq_ok.mp hok
    obtain rfl := Except.ok.inj hok
    exact hv
  | deleteDevice id =>
    rw [Components.execute] at hok
    split at hok
    · obtain rfl := Except.ok.inj hok
      exact hv
    · obtain rfl := Except.ok.inj hok
      exact hv
  | updateDevice id c =>
    rw [Components.execute] at hok
    split at hok
    · obtain rfl := Except.ok.inj hok
      exact hv
    · obtain ⟨-, hok⟩ := bind_unit_eq_ok.mp hok
      obtain rfl := Except.ok.inj hok
      exact hv

theorem step_eq {s : Statement} (hok : execute db s = .ok db') : step db s = db' := by
  rw [step, hok]

theorem step_eq_self {s : Statement} {e : PgError} (herr : execute db s = .error e) :
    step db s = db := by
  rw [step, herr]

theorem Forest.step (h : Forest db) {s : Statement} (hs : KeepsForest db s) :
    Forest (step db s) := by
  refine ⟨?_, hs⟩
  cases hok : execute db s with
  | ok db' =>
    rw [step_eq hok]
    exact h.valid.execute hok
  | error e =>
    rw [step_eq_self hok]
    exact h.valid

/-- The statement deletes no component: it is another one, or it finds no row, or a foreign key
refuses it. -/
def DeletesNothing (db : Db) : Statement → Prop
  | .deleteComponent id => id ∈ componentIds db.component →
      (∃ s ∈ db.slot, s.componentId = id) ∨ ∃ d ∈ db.device, d.componentId = some id
  | _ => True

theorem hierHolds_deleteComponent_iff (hh : HierHolds db) {id : ℕ} :
    HierHolds (step db (.deleteComponent id)) ↔ DeletesNothing db (.deleteComponent id) := by
  cases hold : db.component.find? (·.componentId = id) with
  | none =>
    have hnot : id ∉ componentIds db.component := by
      intro hmem
      obtain ⟨c, hc, hid⟩ := List.mem_map.mp hmem
      exact Library.not_of_find?_eq_none hold hc hid
    rw [step_eq (by rw [execute, hold])]
    exact ⟨fun _ hmem => absurd hmem hnot, fun _ => hh⟩
  | some old =>
    obtain ⟨hmem, rfl⟩ := Library.of_find?_eq_some hold
    have hexec : execute db (.deleteComponent old.componentId) = deleteComponent db old := by
      rw [execute, hold]
    cases hok : deleteComponent db old with
    | ok db' =>
      rw [step_eq (hexec.trans hok)]
      obtain ⟨hslot, hdev, -⟩ := deleteComponent_eq_ok.mp hok
      refine ⟨fun h => absurd h (not_hierHolds_deleteComponent hh hmem hok), fun h => ?_⟩
      rcases h (List.mem_map_of_mem hmem) with ⟨s, hs, hid⟩ | ⟨d, hd, hid⟩
      · exact absurd hid (hslot s hs)
      · exact absurd hid (hdev d hd)
    | error e =>
      rw [step_eq_self (hexec.trans hok)]
      refine ⟨fun _ _ => ?_, fun _ => hh⟩
      by_contra hnot
      rw [not_or] at hnot
      have hgood := deleteComponent_eq_ok.mpr ⟨fun s hs hid => hnot.1 ⟨s, hs, hid⟩,
        fun d hd hid => hnot.2 ⟨d, hd, hid⟩, rfl⟩
      exact absurd (hgood.symm.trans hok) nofun

theorem HierHolds.execute (hh : HierHolds db) (h : Forest db) {s : Statement}
    (hok : execute db s = .ok db') (hE' : Acyclic (Up db'.component db'.slot))
    (hs : ∀ id, s ≠ .deleteComponent id) : HierHolds db' := by
  cases s with
  | insertComponent new => exact forest_insertComponent h hh hok hE'
  | deleteComponent id => exact absurd rfl (hs id)
  | updateComponent id q =>
    rw [Components.execute] at hok
    split at hok
    · obtain rfl := Except.ok.inj hok
      exact hh
    · next old hold =>
      exact forest_updateComponent h hh (List.mem_of_find?_eq_some hold) hok hE'
  | insertSlot new =>
    obtain ⟨hnew, hok⟩ := bind_unit_eq_ok.mp hok
    obtain ⟨-, hok⟩ := bind_unit_eq_ok.mp hok
    obtain rfl := Except.ok.inj hok
    exact (Holds.congr fun x y => up_insertSlot h.valid fun t ht hid =>
      raiseIf_eq_ok.mp hnew ⟨t, ht, hid⟩).mp hh
  | deleteSlot id =>
    obtain ⟨hc, hok⟩ := bind_unit_eq_ok.mp hok
    obtain rfl := Except.ok.inj hok
    exact (Holds.congr fun x y => up_deleteSlot fun c hmem hid =>
      raiseIf_eq_ok.mp hc ⟨c, hmem, hid⟩).mp hh
  | insertDevice new =>
    obtain ⟨-, hok⟩ := bind_unit_eq_ok.mp hok
    obtain ⟨-, hok⟩ := bind_unit_eq_ok.mp hok
    obtain rfl := Except.ok.inj hok
    exact hh
  | deleteDevice id =>
    rw [Components.execute] at hok
    split at hok
    · obtain rfl := Except.ok.inj hok
      exact hh
    · obtain rfl := Except.ok.inj hok
      exact hh
  | updateDevice id c =>
    rw [Components.execute] at hok
    split at hok
    · obtain rfl := Except.ok.inj hok
      exact hh
    · obtain ⟨-, hok⟩ := bind_unit_eq_ok.mp hok
      obtain rfl := Except.ok.inj hok
      exact hh

/-- **A statement keeps the cache right** exactly when it deletes no component. -/
theorem hierHolds_step_iff (h : Forest db) (hh : HierHolds db) {s : Statement}
    (hforest : KeepsForest db s) : HierHolds (step db s) ↔ DeletesNothing db s := by
  have hother : (∀ id, s ≠ .deleteComponent id) → HierHolds (step db s) := by
    intro hs
    cases hok : execute db s with
    | ok db' =>
      rw [KeepsForest, step_eq hok] at hforest
      rw [step_eq hok]
      exact hh.execute h hok hforest hs
    | error e => rwa [step_eq_self hok]
  cases s with
  | deleteComponent id => exact hierHolds_deleteComponent_iff hh
  | _ => exact ⟨fun _ => trivial, fun _ => hother fun id => nofun⟩

/-! ## Every run -/

/-- The cache has the rows of its view. -/
def HierExact (db : Db) : Prop := db.ctComponentHier.Perm (vComponentHier db.component db.slot)
  deriving Decidable

theorem hierExact_iff (h : Forest db) : HierExact db ↔ HierHolds db := by
  constructor
  · intro hh
    exact (holds_vComponentHier h.valid h.acyclic).of_perm hh
  · intro hh
    exact hh.perm (holds_vComponentHier h.valid h.acyclic)

theorem Forest.run (h : Forest db) {l : List Statement}
    (hl : AllSteps Components.step KeepsForest db l) :
    Forest (Library.run Components.step db l) :=
  run_invariant (P := KeepsForest) (fun _ _ hdb hs => hdb.step hs) h hl

/-- **The cache is its view all along a run** that keeps the forest exactly when no statement of the
run deletes a component. -/
theorem ctComponentHier_exact_iff (h : Forest db) (hh : HierExact db) {l : List Statement}
    (hl : AllSteps step KeepsForest db l) :
    (∀ l', l' <+: l → HierExact (Library.run step db l')) ↔ AllSteps step DeletesNothing db l := by
  rw [← forall_prefix_iff (I := HierHolds) (Q := KeepsForest) (fun _ _ hdb hs => hdb.step hs)
    (fun _ _ hdb hs hhdb => hierHolds_step_iff hdb hhdb hs) h ((hierExact_iff h).mp hh) hl]
  refine forall₂_congr fun l' hl' => hierExact_iff (h.run ?_)
  obtain ⟨l'', rfl⟩ := hl'
  exact (AllSteps.append.mp hl).1

def Db.empty : Db := ⟨[], [], [], [], []⟩

/-- Where components sit in components with smaller ids there is no cycle. -/
theorem acyclic_of_lt (h : ∀ c ∈ component, ∀ s ∈ slot, c.parentSlotId = some s.slotId →
    s.componentId < c.componentId) : Acyclic (Up component slot) := by
  refine .of_lt id ?_
  rintro _ _ ⟨c, hc, s, hs, rfl, hcs, rfl⟩
  exact h c hc s hs hcs

theorem Db.forest_empty : Forest Db.empty where
  valid := ⟨List.nodup_nil, List.nodup_nil, fun _ hc => absurd hc List.not_mem_nil,
    fun _ hs => absurd hs List.not_mem_nil⟩
  acyclic := acyclic_of_lt fun _ hc => absurd hc List.not_mem_nil

/-- A component in a slot of another one, which moves out of it. -/
def moveOut : List Statement :=
  [.insertComponent ⟨1, none⟩, .insertSlot ⟨10, 1⟩, .insertComponent ⟨2, some 10⟩,
    .updateComponent 2 none]

theorem keepsForest_moveOut : AllSteps step KeepsForest Db.empty moveOut :=
  ⟨acyclic_of_lt (by decide), acyclic_of_lt (by decide), acyclic_of_lt (by decide),
    acyclic_of_lt (by decide), trivial⟩

theorem ctComponentHier_exact_iff_moveOut :
    HierExact (Library.run step Db.empty moveOut) :=
  (ctComponentHier_exact_iff Db.forest_empty (List.Perm.refl _) keepsForest_moveOut).mpr
    ⟨trivial, trivial, trivial, trivial, trivial⟩
    moveOut List.prefix_rfl

/-- One component, which is deleted again: its row stays. -/
theorem ctComponentHier_deleted :
    let l : List Statement := [.insertComponent ⟨1, none⟩, .deleteComponent 1]
    let db := Library.run step Db.empty l
    AllSteps step KeepsForest Db.empty l ∧ db.component = [] ∧
      db.ctComponentHier = [⟨1, 1, [1], 1⟩] ∧ ¬ HierExact db := by
  refine ⟨⟨acyclic_of_lt (by decide), acyclic_of_lt (by decide), trivial⟩, by decide, by decide, ?_⟩
  intro h
  exact absurd h.length_eq (by decide)

end JazzHands.Components

import JazzHands.Library.Ascent

/-!
# The nearest marked node above a node

Some nodes of a graph are marked.  From a node one goes up until the first of them.

* `UpTo.length_le`, `UpTo.unique`: in a forest it is the shortest, and the only one.
-/

namespace JazzHands.Library

variable {α : Type*} {E E' : α → α → Prop} {C C' : α → Prop} {l l' : List α} {x y z z' : α}

/-- A way up has an edge, or it is at its end from the start. -/
theorem Ascends.mem_dropLast_or (hl : Ascends E l x z) :
    x ∈ l.dropLast ∨ (l = [z] ∧ x = z) := by
  obtain ⟨u, rfl⟩ := List.getLast?_eq_some_iff.mp hl.last
  rw [List.dropLast_concat]
  cases u with
  | nil =>
    obtain ⟨hzx, -⟩ := singleton_iff.mp hl
    exact Or.inr ⟨rfl, hzx.symm⟩
  | cons v u =>
    obtain rfl := Option.some_inj.mp hl.head
    exact Or.inl List.mem_cons_self

theorem Acyclic.notMem_dropLast (hE : Acyclic E) (hl : Ascends E l x z) : z ∉ l.dropLast := by
  have hnodup := hE.nodup hl.chain
  obtain ⟨u, rfl⟩ := List.getLast?_eq_some_iff.mp hl.last
  rw [List.dropLast_concat]
  exact fun hz => (List.nodup_append.mp hnodup).2.2 z hz z List.mem_cons_self rfl

/-- A node without edges up comes at the end of a way up only. -/
theorem Acyclic.notMem_dropLast_of_root (hE : Acyclic E) (hroot : ∀ w, ¬ E y w)
    (hl : Ascends E l x z) : y ∉ l.dropLast := by
  intro hy
  obtain ⟨s, t, -, ht⟩ := hl.suffix_of_mem (List.dropLast_subset _ hy)
  cases t with
  | nil =>
    obtain ⟨-, rfl⟩ := Ascends.singleton_iff.mp ht
    exact hE.notMem_dropLast hl hy
  | cons w t => exact hroot w (Ascends.cons_iff.mp ht).2.1

theorem exists_ascends_through (hxy : Relation.ReflTransGen E x y)
    (hyz : Relation.TransGen E y z) : ∃ l, Ascends E l x z ∧ y ∈ l.dropLast := by
  obtain ⟨b, hyb, hbz⟩ := Relation.TransGen.head'_iff.mp hyz
  obtain ⟨l, hl⟩ := exists_ascends_iff.mpr hxy
  obtain ⟨m, hm⟩ := exists_ascends_iff.mpr hbz
  refine ⟨l ++ m, hl.append hyb hm, ?_⟩
  rw [List.dropLast_append_of_ne_nil hm.ne_nil]
  exact List.mem_append_left _ hl.last_mem

/-- The list leads from `x` up to the first marked node, `z`. -/
structure UpTo (E : α → α → Prop) (C : α → Prop) (l : List α) (x z : α) : Prop where
  ascends : Ascends E l x z
  marked : C z
  first : ∀ y ∈ l.dropLast, ¬ C y

theorem UpTo.singleton (hx : C x) : UpTo E C [x] x x :=
  ⟨.singleton x, hx, fun _ hy => absurd hy List.not_mem_nil⟩

/-- A way up to a marked node begins with one to the nearest. -/
theorem exists_upTo (hl : Ascends E l x z) (hz : C z) :
    ∃ m y, m <+: l ∧ UpTo E C m x y := by
  induction l generalizing x with
  | nil => exact absurd rfl hl.ne_nil
  | cons w l ih =>
    obtain rfl := Option.some_inj.mp hl.head
    by_cases hw : C w
    · exact ⟨[w], w, List.prefix_cons_inj w |>.mpr (List.nil_prefix), .singleton hw⟩
    · cases l with
      | nil =>
        obtain ⟨-, rfl⟩ := Ascends.singleton_iff.mp hl
        exact absurd hz hw
      | cons v l =>
        obtain ⟨-, hwv, htail⟩ := Ascends.cons_iff.mp hl
        obtain ⟨m, y, hm, hnear⟩ := ih htail
        have hne := hnear.ascends.ne_nil
        refine ⟨w :: m, y, List.cons_prefix_cons.mpr ⟨rfl, hm⟩,
          (Ascends.singleton w).append hwv hnear.ascends, hnear.marked, ?_⟩
        intro u hu
        rw [List.dropLast_cons_of_ne_nil hne] at hu
        rcases List.mem_cons.mp hu with rfl | hu
        · exact hw
        · exact hnear.first u hu

theorem UpTo.suffix {s t : List α} (hl : UpTo E C l x z) (hst : l = s ++ y :: t)
    (ht : Ascends E (y :: t) y z) : UpTo E C (y :: t) y z := by
  refine ⟨ht, hl.marked, fun w hw => hl.first w ?_⟩
  rw [hst, List.dropLast_append_of_ne_nil (List.cons_ne_nil _ _)]
  exact List.mem_append_right _ hw

/-- Where a node has one parent at most, of two ways up one begins with the other. -/
theorem Ascends.prefix_or (hE : ∀ x y z, E x y → E x z → y = z) (hl : Ascends E l x z)
    (hl' : Ascends E l' x z') : l <+: l' ∨ l' <+: l := by
  induction l generalizing l' x with
  | nil => exact absurd rfl hl.ne_nil
  | cons w l ih =>
    obtain rfl := Option.some_inj.mp hl.head
    cases l' with
    | nil => exact absurd rfl hl'.ne_nil
    | cons w' l' =>
      obtain rfl := Option.some_inj.mp hl'.head
      cases l with
      | nil => exact Or.inl (List.cons_prefix_cons.mpr ⟨rfl, List.nil_prefix⟩)
      | cons v l =>
        cases l' with
        | nil => exact Or.inr (List.cons_prefix_cons.mpr ⟨rfl, List.nil_prefix⟩)
        | cons v' l' =>
          obtain ⟨-, hv, ht⟩ := Ascends.cons_iff.mp hl
          obtain ⟨-, hv', ht'⟩ := Ascends.cons_iff.mp hl'
          obtain rfl := hE _ _ _ hv hv'
          rcases ih ht ht' with h | h
          · exact Or.inl (List.cons_prefix_cons.mpr ⟨rfl, h⟩)
          · exact Or.inr (List.cons_prefix_cons.mpr ⟨rfl, h⟩)

theorem Ascends.exists_shorter (hl : Ascends E l x z) (hy : y ∈ l.dropLast) :
    ∃ m, Ascends E m x y ∧ m.length < l.length := by
  obtain ⟨u, rfl⟩ := List.getLast?_eq_some_iff.mp hl.last
  rw [List.dropLast_concat] at hy
  obtain ⟨s, t, rfl⟩ := List.append_of_mem hy
  refine ⟨s ++ [y], ⟨?_, ?_, List.getLast?_concat⟩, by simp⟩
  · exact List.IsChain.prefix hl.chain ⟨t ++ [z], by simp⟩
  · have hhead := hl.head
    cases s with
    | nil => exact hhead
    | cons w s => exact hhead

/-- The end of a way up that is cut short lies before the end of the whole. -/
theorem Ascends.mem_dropLast (hl' : Ascends E l' x z') (h : l' <+: l) (hne : l' ≠ l) :
    z' ∈ l.dropLast := by
  obtain ⟨t, rfl⟩ := h
  have ht : t ≠ [] := by
    rintro rfl
    exact hne (List.append_nil _).symm
  rw [List.dropLast_append_of_ne_nil ht]
  exact List.mem_append_left _ hl'.last_mem

section

variable (hE : ∀ x y z, E x y → E x z → y = z) (h : UpTo E C l x z)
include hE h

/-- The way up to the nearest marked node is a shortest one to a marked node. -/
theorem UpTo.begins (hl' : Ascends E l' x z') (hz' : C z') : l <+: l' := by
  rcases h.ascends.prefix_or hE hl' with hpre | hpre
  · exact hpre
  · by_cases heq : l' = l
    · exact heq ▸ List.prefix_rfl
    · exact absurd hz' (h.first z' (hl'.mem_dropLast hpre heq))

theorem UpTo.length_le (hl' : Ascends E l' x z') (hz' : C z') : l.length ≤ l'.length :=
  (h.begins hE hl' hz').length_le

theorem UpTo.unique (h' : UpTo E C l' x z') : l = l' ∧ z = z' := by
  have hll' : l = l' := (h.begins hE h'.ascends h'.marked).eq_of_length
    (Nat.le_antisymm (h.length_le hE h'.ascends h'.marked) (h'.length_le hE h.ascends h.marked))
  subst hll'
  exact ⟨rfl, Option.some_inj.mp (h.ascends.last.symm.trans h'.ascends.last)⟩

end

/-! ## When the graph changes at one node -/

/-- Without the edges up from `n` the ways up that remain are those that do not pass it. -/
theorem UpTo.rooted_iff {n : α} (h : Rooted E E' n) (hE : Acyclic E) :
    UpTo E' C l x z ↔ UpTo E C l x z ∧ n ∉ l.dropLast := by
  constructor
  · intro hl
    obtain ⟨ha, hn⟩ := (Ascends.rooted_iff h hE).mp hl.ascends
    refine ⟨⟨ha, hl.marked, hl.first⟩, fun hmem => ?_⟩
    obtain rfl := hn (List.dropLast_subset _ hmem)
    exact hE.notMem_dropLast ha hmem
  · rintro ⟨hl, hn⟩
    refine ⟨(Ascends.rooted_iff h hE).mpr ⟨hl.ascends, fun hmem => ?_⟩, hl.marked, hl.first⟩
    obtain ⟨u, rfl⟩ := List.getLast?_eq_some_iff.mp hl.ascends.last
    rw [List.dropLast_concat] at hn
    rcases List.mem_append.mp hmem with hmem | hmem
    · exact absurd hmem hn
    · exact (List.mem_singleton.mp hmem).symm

/-- With a new edge up from `n` there are also those up to `n`, over nodes without a mark, and on
from the upper end of the edge. -/
theorem UpTo.linked_iff {n p : α} (h : Linked E E' n p) (hE' : Acyclic E') :
    UpTo E' C l x z ↔ UpTo E C l x z ∨
      ∃ s t, l = s ++ t ∧ Ascends E s x n ∧ (∀ y ∈ s, ¬ C y) ∧ UpTo E C t p z := by
  constructor
  · intro hl
    rcases (Ascends.linked_iff h hE').mp hl.ascends with ha | ⟨s, t, rfl, hs, ht⟩
    · exact Or.inl ⟨ha, hl.marked, hl.first⟩
    · have hfirst := hl.first
      rw [List.dropLast_append_of_ne_nil ht.ne_nil] at hfirst
      exact Or.inr ⟨s, t, rfl, hs, fun y hy => hfirst y (List.mem_append_left _ hy), ht, hl.marked,
        fun y hy => hfirst y (List.mem_append_right _ hy)⟩
  · rintro (hl | ⟨s, t, rfl, hs, hfree, ht⟩)
    · exact ⟨(Ascends.linked_iff h hE').mpr (Or.inl hl.ascends), hl.marked, hl.first⟩
    · refine ⟨(Ascends.linked_iff h hE').mpr (Or.inr ⟨s, t, rfl, hs, ht.ascends⟩), ht.marked, ?_⟩
      intro y hy
      rw [List.dropLast_append_of_ne_nil ht.ascends.ne_nil] at hy
      rcases List.mem_append.mp hy with hy | hy
      · exact hfree y hy
      · exact ht.first y hy

end JazzHands.Library

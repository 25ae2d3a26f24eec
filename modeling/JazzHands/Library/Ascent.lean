import Mathlib.Data.List.Chain
import Mathlib.Data.List.Nodup

/-!
# Ways up a graph

A relation `E x y` says that `y` is a parent of `x`.  A way up is a list of nodes, each followed by
one of its parents.

* `exists_ascends_iff`: there is one when `z` is reachable from `a`.
* `Cut`, `Ascends.cut_iff`: without the edge from `c` to `p` the ways up are those on which `c` and
  `p` do not follow each other.
-/

namespace JazzHands.Library

open Relation

variable {α : Type*} {E E' : α → α → Prop} {l s t : List α} {a b c n p x y z : α}

/-- The list is a way up from `a` to `z`. -/
structure Ascends (E : α → α → Prop) (l : List α) (a z : α) : Prop where
  chain : l.IsChain E
  head : l.head? = some a
  last : l.getLast? = some z

/-- No node is above itself. -/
def Acyclic (E : α → α → Prop) : Prop := ∀ a, ¬ TransGen E a a

namespace Ascends

theorem singleton (a : α) : Ascends E [a] a a := ⟨List.isChain_singleton a, rfl, rfl⟩

theorem ne_nil (h : Ascends E l a z) : l ≠ [] := by
  rintro rfl
  exact nomatch h.head

theorem head_mem (h : Ascends E l a z) : a ∈ l := List.mem_of_mem_head? h.head

theorem last_mem (h : Ascends E l a z) : z ∈ l := List.mem_of_mem_getLast? h.last

theorem singleton_iff : Ascends E [x] a z ↔ x = a ∧ x = z := by
  constructor
  · intro h
    exact ⟨Option.some_inj.mp h.head, Option.some_inj.mp h.last⟩
  · rintro ⟨rfl, rfl⟩
    exact singleton x

theorem cons_iff : Ascends E (x :: y :: l) a z ↔ x = a ∧ E x y ∧ Ascends E (y :: l) y z := by
  constructor
  · intro h
    obtain ⟨hxy, hchain⟩ := List.isChain_cons_cons.mp h.chain
    exact ⟨Option.some_inj.mp h.head, hxy, hchain, rfl, h.last⟩
  · rintro ⟨rfl, hxy, h⟩
    exact ⟨List.isChain_cons_cons.mpr ⟨hxy, h.chain⟩, rfl, h.last⟩

theorem append (hs : Ascends E s a c) (hE : E c p) (ht : Ascends E t p z) :
    Ascends E (s ++ t) a z where
  chain := by
    refine hs.chain.append ht.chain fun x hx y hy => ?_
    rw [hs.last] at hx
    rw [ht.head] at hy
    obtain rfl := Option.mem_some_iff.mp hx
    obtain rfl := Option.mem_some_iff.mp hy
    exact hE
  head := by rw [List.head?_append_of_ne_nil _ hs.ne_nil, hs.head]
  last := by rw [List.getLast?_append_of_ne_nil _ ht.ne_nil, ht.last]

/-- A way up that passes from `c` to `p` comes apart there. -/
theorem split (h : Ascends E (s ++ c :: p :: t) a z) :
    Ascends E (s ++ [c]) a c ∧ E c p ∧ Ascends E (p :: t) p z := by
  obtain ⟨hchain, hcp, htail⟩ := List.isChain_append_cons_cons.mp h.chain
  refine ⟨⟨hchain, ?_, List.getLast?_concat⟩, hcp, htail, rfl, ?_⟩
  · have hhead := h.head
    cases s with
    | nil => exact hhead
    | cons x s => exact hhead
  · have hlast := h.last
    rwa [List.getLast?_append_of_ne_nil _ (List.cons_ne_nil _ _), List.getLast?_cons_cons] at hlast

theorem mono (hEE' : ∀ x y, E x y → E' x y) (h : Ascends E l a z) : Ascends E' l a z :=
  ⟨h.chain.imp hEE', h.head, h.last⟩

theorem congr (hEE' : ∀ x y, E x y ↔ E' x y) : Ascends E l a z ↔ Ascends E' l a z :=
  ⟨mono fun x y => (hEE' x y).mp, mono fun x y => (hEE' x y).mpr⟩

section

variable (h : Ascends E l a z)
include h

theorem reflTransGen : ReflTransGen E a z := by
  have hreach := List.relationReflTransGen_of_exists_isChain l h.chain h.ne_nil
  rw [List.head_of_head?_eq_some h.head] at hreach
  rwa [List.getLast_of_getLast?_eq_some h.last] at hreach

theorem reflTransGen_of_mem (hx : x ∈ l) : ReflTransGen E a x := by
  induction l generalizing a with
  | nil => exact absurd hx List.not_mem_nil
  | cons y l ih =>
    obtain rfl := Option.some_inj.mp h.head
    rcases List.mem_cons.mp hx with rfl | hx
    · exact .refl
    · cases l with
      | nil => exact absurd hx List.not_mem_nil
      | cons w l =>
        obtain ⟨-, hyw, htail⟩ := cons_iff.mp h
        exact .head hyw (ih htail hx)

theorem exists_concat (hl : 2 ≤ l.length) :
    ∃ s c, l = s ++ [z] ∧ Ascends E s a c ∧ E c z := by
  obtain ⟨s, rfl⟩ := List.getLast?_eq_some_iff.mp h.last
  rcases List.eq_nil_or_concat s with rfl | ⟨s, c, rfl⟩
  · simp at hl
  · rw [List.concat_eq_append] at h ⊢
    rw [List.append_assoc, List.singleton_append] at h
    obtain ⟨hs, hE, -⟩ := h.split
    exact ⟨s ++ [c], c, rfl, hs, hE⟩

theorem exists_cons (hl : 2 ≤ l.length) :
    ∃ b t, l = a :: t ∧ E a b ∧ Ascends E t b z := by
  match l, hl with
  | x :: y :: l, _ =>
    obtain ⟨rfl, hxy, ht⟩ := cons_iff.mp h
    exact ⟨y, y :: l, rfl, hxy, ht⟩

theorem suffix_of_mem (hx : x ∈ l) :
    ∃ s t, l = s ++ x :: t ∧ Ascends E (x :: t) x z := by
  obtain ⟨s, t, rfl⟩ := List.append_of_mem hx
  refine ⟨s, t, rfl, h.chain.suffix (List.suffix_append _ _), rfl, ?_⟩
  rw [← h.last, List.getLast?_append_of_ne_nil _ (List.cons_ne_nil _ _)]

theorem prefix_of_mem (hx : x ∈ l) :
    ∃ s t, l = s ++ x :: t ∧ Ascends E (s ++ [x]) a x := by
  obtain ⟨s, t, rfl⟩ := List.append_of_mem hx
  refine ⟨s, t, rfl, List.IsChain.prefix h.chain ⟨t, by simp⟩, ?_, List.getLast?_concat⟩
  have hhead := h.head
  cases s with
  | nil => exact hhead
  | cons y s => exact hhead

/-- Of two nodes on a way up one is above the other, and the part between them is a way up. -/
theorem between (hx : x ∈ l) (hy : y ∈ l) :
    ∃ m, m <:+: l ∧ (Ascends E m x y ∨ Ascends E m y x) := by
  obtain ⟨s, t, rfl, ht⟩ := h.suffix_of_mem hx
  rcases List.mem_append.mp hy with hy | hy
  · obtain ⟨s₁, s₂, rfl⟩ := List.append_of_mem hy
    refine ⟨y :: (s₂ ++ [x]), ⟨s₁, t, by simp⟩, Or.inr ⟨?_, rfl, ?_⟩⟩
    · exact List.IsChain.infix h.chain ⟨s₁, t, by simp⟩
    · rw [← List.cons_append, List.getLast?_concat]
  · obtain ⟨u, v, huv, hu⟩ := ht.prefix_of_mem hy
    refine ⟨u ++ [y], ⟨s, v, ?_⟩, Or.inl hu⟩
    rw [huv]
    simp

end

end Ascends

theorem exists_ascends_iff : (∃ l, Ascends E l a z) ↔ ReflTransGen E a z := by
  constructor
  · rintro ⟨l, hl⟩
    exact hl.reflTransGen
  · intro h
    obtain ⟨l, hne, hchain, hhead, hlast⟩ := List.exists_isChain_ne_nil_of_relationReflTransGen h
    refine ⟨l, hchain, ?_, ?_⟩
    · rw [← hhead, List.head?_eq_some_head hne]
    · rw [← hlast, List.getLast?_eq_some_getLast hne]

/-! ## Graphs without cycles -/

theorem Acyclic.mono (hEE' : ∀ x y, E x y → E' x y) (h : Acyclic E') : Acyclic E :=
  fun a ha => h a (TransGen.mono hEE' a a ha)

/-- A number that gets smaller on the way up excludes cycles. -/
theorem Acyclic.of_lt (f : α → ℕ) (h : ∀ x y, E x y → f y < f x) : Acyclic E := by
  have hlt : ∀ x y, TransGen E x y → f y < f x := by
    intro x y hxy
    induction hxy with
    | single hxy => exact h _ _ hxy
    | tail _ hyz ih => exact (h _ _ hyz).trans ih
  exact fun a ha => lt_irrefl _ (hlt a a ha)

theorem Acyclic.irrefl (h : Acyclic E) : ¬ E a a := fun ha => h a (.single ha)

theorem Acyclic.nodup (h : Acyclic E) (hl : l.IsChain E) : l.Nodup := by
  have hchain : l.IsChain (TransGen E) := hl.imp fun _ _ hxy => .single hxy
  have : Trans (TransGen E) (TransGen E) (TransGen E) := ⟨TransGen.trans⟩
  refine hchain.pairwise.imp ?_
  rintro x _ hxx rfl
  exact h x hxx

/-! ## Gluing over a pair that is no edge -/

section Glue

variable {a' z' : α} {s' t' : List α}

theorem Ascends.not_isChain_append (hcp : ¬ E c p) (hs : Ascends E s a c) (ht : t.head? = some p) :
    ¬ (s ++ t).IsChain E := fun hchain =>
  hcp ((List.isChain_append.mp hchain).2.2 _ hs.last _ ht)

/-- Two ways up put together where there is no edge come apart there only. -/
theorem Ascends.append_inj (hcp : ¬ E c p) (hs : Ascends E s a c) (ht : Ascends E t p z)
    (hs' : Ascends E s' a' c) (ht' : Ascends E t' p z') (h : s ++ t = s' ++ t') :
    s = s' ∧ t = t' := by
  -- of two different cuts the later one leaves the pair inside the part before it
  rcases List.append_eq_append_iff.mp h with ⟨u, hu, hu'⟩ | ⟨u, hu, hu'⟩
  · by_cases hnil : u = []
    · subst hnil
      exact ⟨by simpa using hu.symm, by simpa using hu'⟩
    · have hhead : u.head? = some p := by
        rw [← List.head?_append_of_ne_nil _ hnil, ← hu', ht.head]
      exact absurd (hu ▸ hs'.chain) (not_isChain_append hcp hs hhead)
  · by_cases hnil : u = []
    · subst hnil
      exact ⟨by simpa using hu, by simpa using hu'.symm⟩
    · have hhead : u.head? = some p := by
        rw [← List.head?_append_of_ne_nil _ hnil, ← hu', ht'.head]
      exact absurd (hu ▸ hs.chain) (not_isChain_append hcp hs' hhead)

end Glue

/-! ## Removing an edge -/

/-- `E'` is `E` without the edge from `c` to `p`. -/
def Cut (E E' : α → α → Prop) (c p : α) : Prop := ∀ x y, E' x y ↔ E x y ∧ ¬ (x = c ∧ y = p)

theorem Ascends.cut_iff (h : Cut E E' c p) :
    Ascends E' l a z ↔ Ascends E l a z ∧ ¬ [c, p] <:+: l := by
  constructor
  · intro hl
    refine ⟨hl.mono fun x y hxy => ((h x y).mp hxy).1, ?_⟩
    rintro ⟨s, t, rfl⟩
    have hcp := List.isChain_pair.mp ( List.IsChain.infix hl.chain ⟨s, t, rfl⟩)
    exact ((h c p).mp hcp).2 ⟨rfl, rfl⟩
  · rintro ⟨hl, hnot⟩
    refine ⟨List.isChain_iff_forall_rel_of_append_cons_cons.mpr ?_, hl.head, hl.last⟩
    intro x y s t hst
    refine (h x y).mpr ⟨List.isChain_iff_forall_rel_of_append_cons_cons.mp hl.chain hst, ?_⟩
    rintro ⟨rfl, rfl⟩
    exact hnot ⟨s, t, by rw [hst]; simp⟩

/-- Two nodes that follow each other on the way are neighbours in the list of pairs. -/
theorem mem_zip_tail_iff {l : List α} : (x, y) ∈ l.zip l.tail ↔ [x, y] <:+: l := by
  induction l with
  | nil => simp
  | cons w l ih =>
    cases l with
    | nil => simp [List.infix_cons_iff]
    | cons v l =>
      rw [List.tail_cons, List.zip_cons_cons, List.mem_cons, List.infix_cons_iff,
        List.cons_prefix_cons, List.cons_prefix_cons, Prod.mk.injEq]
      rw [List.tail_cons] at ih
      rw [ih]
      simp

theorem Cut.acyclic (h : Cut E E' c p) (hE : Acyclic E) : Acyclic E' :=
  hE.mono fun x y hxy => ((h x y).mp hxy).1

/-- `E'` is `E` without the edges up from `n`. -/
def Rooted (E E' : α → α → Prop) (n : α) : Prop := ∀ x y, E' x y ↔ E x y ∧ x ≠ n

/-- Without the edges up from `n` a way up may only end at `n`. -/
theorem Ascends.rooted_iff (h : Rooted E E' n) (hE : Acyclic E) :
    Ascends E' l a z ↔ Ascends E l a z ∧ (n ∈ l → z = n) := by
  constructor
  · intro hl
    refine ⟨hl.mono fun x y hxy => ((h x y).mp hxy).1, fun hn => ?_⟩
    obtain ⟨-, t, -, ht⟩ := hl.suffix_of_mem hn
    cases t with
    | nil => exact (singleton_iff.mp ht).2.symm
    | cons y t =>
      obtain ⟨-, hny, -⟩ := cons_iff.mp ht
      exact absurd rfl ((h n y).mp hny).2
  · rintro ⟨hl, hn⟩
    refine ⟨List.isChain_iff_forall_rel_of_append_cons_cons.mpr ?_, hl.head, hl.last⟩
    intro x y s t hst
    subst hst
    obtain ⟨-, hxy, ht⟩ := hl.split
    refine (h x y).mpr ⟨hxy, ?_⟩
    rintro rfl
    -- the node after `n` would be below `n`
    obtain rfl := hn (List.mem_append_right _ List.mem_cons_self)
    exact hE _ (.head' hxy ht.reflTransGen)

theorem Rooted.acyclic (h : Rooted E E' n) (hE : Acyclic E) : Acyclic E' :=
  hE.mono fun x y hxy => ((h x y).mp hxy).1

/-! ## Adding an edge -/

/-- `E'` is `E` with the edge from `c` to `p`. -/
def Linked (E E' : α → α → Prop) (c p : α) : Prop := ∀ x y, E' x y ↔ E x y ∨ (x = c ∧ y = p)

/-- Without the pair `c`, `p` a way up in the larger graph is one in the smaller graph. -/
theorem Linked.ascends_of_not_infix (h : Linked E E' c p) (hl : Ascends E' l a z)
    (hnot : ¬ [c, p] <:+: l) : Ascends E l a z := by
  refine ⟨List.isChain_iff_forall_rel_of_append_cons_cons.mpr ?_, hl.head, hl.last⟩
  intro x y s t hst
  rcases (h x y).mp (List.isChain_iff_forall_rel_of_append_cons_cons.mp hl.chain hst) with
    hxy | ⟨rfl, rfl⟩
  · exact hxy
  · exact absurd ⟨s, t, by rw [hst]; simp⟩ hnot

/-- The ways up in the larger graph pass the new edge at most once. -/
theorem Ascends.linked_iff (h : Linked E E' c p) (hE' : Acyclic E') :
    Ascends E' l a z ↔
      Ascends E l a z ∨ ∃ s t, l = s ++ t ∧ Ascends E s a c ∧ Ascends E t p z := by
  constructor
  · intro hl
    by_cases hin : [c, p] <:+: l
    · right
      obtain ⟨s, t, rfl⟩ := hin
      rw [List.append_assoc, List.cons_append, List.cons_append, List.nil_append] at hl ⊢
      have hnodup := hE'.nodup hl.chain
      obtain ⟨hs, -, ht⟩ := hl.split
      obtain ⟨hp, hc⟩ : p ∉ s ++ [c] ∧ c ∉ p :: t := by
        rw [List.append_cons] at hnodup
        have hdis := (List.nodup_append.mp hnodup).2.2
        exact ⟨fun hmem => hdis p hmem p List.mem_cons_self rfl,
          fun hmem => hdis c (List.mem_append_right _ List.mem_cons_self) c hmem rfl⟩
      refine ⟨s ++ [c], p :: t, List.append_cons .., ?_, ?_⟩
      · exact h.ascends_of_not_infix hs fun hin =>
          hp (hin.subset (List.mem_cons_of_mem _ List.mem_cons_self))
      · exact h.ascends_of_not_infix ht fun hin => hc (hin.subset List.mem_cons_self)
    · exact Or.inl (h.ascends_of_not_infix hl hin)
  · have hsub : ∀ x y, E x y → E' x y := fun x y hxy => (h x y).mpr (Or.inl hxy)
    rintro (hl | ⟨s, t, rfl, hs, ht⟩)
    · exact hl.mono hsub
    · exact (hs.mono hsub).append ((h c p).mpr (Or.inr ⟨rfl, rfl⟩)) (ht.mono hsub)

theorem Linked.transGen (h : Linked E E' c p) (hxy : TransGen E' x y) :
    TransGen E x y ∨ (ReflTransGen E x c ∧ ReflTransGen E p y) := by
  induction hxy with
  | single hxy =>
    rcases (h _ _).mp hxy with hxy | ⟨rfl, rfl⟩
    · exact Or.inl (.single hxy)
    · exact Or.inr ⟨.refl, .refl⟩
  | tail _ hyz ih =>
    rcases (h _ _).mp hyz with hyz | ⟨rfl, rfl⟩
    · rcases ih with ih | ⟨hxc, hpy⟩
      · exact Or.inl (ih.tail hyz)
      · exact Or.inr ⟨hxc, hpy.tail hyz⟩
    · rcases ih with ih | ⟨hxc, -⟩
      · exact Or.inr ⟨ih.to_reflTransGen, .refl⟩
      · exact Or.inr ⟨hxc, .refl⟩

/-- **A new edge closes a cycle** exactly when its lower end is above its upper end, or is it. -/
theorem acyclic_linked_iff (h : Linked E E' c p) (hE : Acyclic E) :
    Acyclic E' ↔ ¬ ReflTransGen E p c := by
  constructor
  · intro hE' hpc
    have hup : ReflTransGen E' p c :=
      ReflTransGen.mono (fun x y hxy => (h x y).mpr (Or.inl hxy)) p c hpc
    exact hE' c (.head' ((h c p).mpr (Or.inr ⟨rfl, rfl⟩)) hup)
  · intro hpc a ha
    rcases h.transGen ha with ha | ⟨hac, hpa⟩
    · exact hE a ha
    · exact hpc (hpa.trans hac)

end JazzHands.Library

import JazzHands.Library.Ascent
import Mathlib.Data.Set.Insert

/-!
# A table of the ways up

A table holds the ways up in a graph.  When a node gets new edges up, the ways through it are
dropped, and those from it and those that end at it are put in.  The ways that pass it are lost,
unless they are put together again from their two halves.
-/

namespace JazzHands.Library

open Relation

variable {α : Type*} {E E' E₀ E₁ : α → α → Prop} {D : Set α} {K K' : List α → Prop}
  {C : Set (List α)} {B : Set α} {l s t : List α} {a b c m n p x y z : α} {clear : Prop}

/-! ## Graphs that agree above a node -/

/-- A way up of more than one node leads to a node above its start. -/
theorem Ascends.transGen (h : Ascends E l a z) (hl : 2 ≤ l.length) : TransGen E a z := by
  obtain ⟨b, t, -, hab, ht⟩ := h.exists_cons hl
  exact .head' hab ht.reflTransGen

theorem Ascends.of_edges (h : Ascends E l a z) (hE : ∀ x ∈ l.dropLast, ∀ y, E x y → E' x y) :
    Ascends E' l a z := by
  refine ⟨List.isChain_iff_forall_rel_of_append_cons_cons.mpr ?_, h.head, h.last⟩
  intro x y s t hst
  refine hE x ?_ y (List.isChain_iff_forall_rel_of_append_cons_cons.mp h.chain hst)
  rw [hst, List.dropLast_append_of_ne_nil (List.cons_ne_nil _ _), List.dropLast_cons_cons]
  exact List.mem_append_right _ List.mem_cons_self

/-- The two graphs have the same edges up from `a` and from the nodes above it. -/
def AgreeAbove (E E' : α → α → Prop) (a : α) : Prop :=
  ∀ x, ReflTransGen E a x → ∀ y, E x y ↔ E' x y

namespace AgreeAbove

section

variable (h : AgreeAbove E E' a)
include h

theorem reflTransGen (hx : ReflTransGen E' a x) : ReflTransGen E a x := by
  induction hx with
  | refl => exact .refl
  | tail _ hxy ih => exact ih.tail ((h _ ih _).mpr hxy)

theorem symm : AgreeAbove E' E a :=
  fun x hx y => (h x (h.reflTransGen hx) y).symm

theorem ascends (hl : Ascends E l a z) : Ascends E' l a z :=
  hl.of_edges fun x hx y hxy =>
    (h x (hl.reflTransGen_of_mem (List.dropLast_subset _ hx)) y).mp hxy

theorem ascends_iff : Ascends E l a z ↔ Ascends E' l a z :=
  ⟨h.ascends, h.symm.ascends⟩

theorem transGen (hx : TransGen E' a x) : TransGen E a x := by
  obtain ⟨y, hay, hyx⟩ := TransGen.tail'_iff.mp hx
  exact .tail' (h.reflTransGen hay) ((h y (h.reflTransGen hay) x).mpr hyx)

end

end AgreeAbove

/-- A cycle in a graph that differs from one without cycles passes a node with other edges. -/
theorem Acyclic.of_changed (hE : Acyclic E) (hoff : ∀ x ∉ B, ∀ y, E x y ↔ E' x y)
    (hB : ∀ b ∈ B, ¬ TransGen E' b b) : Acyclic E' := by
  have hpath : ∀ a x, TransGen E' a x →
      TransGen E a x ∨ ∃ b ∈ B, ReflTransGen E' a b ∧ TransGen E' b x := by
    intro a x hax
    induction hax with
    | single hax =>
      by_cases ha : a ∈ B
      · exact Or.inr ⟨a, ha, .refl, .single hax⟩
      · exact Or.inl (.single ((hoff a ha _).mpr hax))
    | @tail x y hax hxy ih =>
      rcases ih with ih | ⟨b, hb, hab, hbx⟩
      · by_cases hx : x ∈ B
        · exact Or.inr ⟨x, hx, hax.to_reflTransGen, .single hxy⟩
        · exact Or.inl (ih.tail ((hoff x hx _).mpr hxy))
      · exact Or.inr ⟨b, hb, hab, hbx.tail hxy⟩
  intro a ha
  rcases hpath a a ha with h | ⟨b, hb, hab, hba⟩
  · exact hE a h
  · exact hB b hb (hba.trans_left hab)

/-! ## The table -/

/-- The table has the ways up from the nodes of `D`, without those that are lost. -/
def Recorded (E : α → α → Prop) (D : Set α) (K : List α → Prop) (C : Set (List α)) : Prop :=
  ∀ l, l ∈ C ↔ (∃ a ∈ D, ∃ z, Ascends E l a z) ∧ ¬ K l

theorem Recorded.congr (h : Recorded E D K C) (hE : ∀ a ∈ D, AgreeAbove E E' a)
    (hK : ∀ l, ∀ a ∈ D, ∀ z, Ascends E' l a z → (K l ↔ K' l)) : Recorded E' D K' C := by
  intro l
  rw [h l]
  constructor
  · rintro ⟨⟨a, ha, z, hl⟩, hk⟩
    have hl' := (hE a ha).ascends hl
    exact ⟨⟨a, ha, z, hl'⟩, fun hk' => hk ((hK l a ha z hl').mpr hk')⟩
  · rintro ⟨⟨a, ha, z, hl⟩, hk⟩
    exact ⟨⟨a, ha, z, (hE a ha).symm.ascends hl⟩, fun hk' => hk ((hK l a ha z hl).mp hk')⟩

theorem recorded_iff_of_forall (h : Recorded E D K C) :
    Recorded E D (fun _ => False) C ↔ ∀ l, ∀ a ∈ D, ∀ z, Ascends E l a z → ¬ K l := by
  constructor
  · intro h' l a ha z hl
    exact ((h l).mp ((h' l).mpr ⟨⟨a, ha, z, hl⟩, id⟩)).2
  · intro hK
    refine h.congr (fun a _ x _ y => Iff.rfl) fun l a ha z hl => ?_
    exact ⟨fun hk => hK l a ha z hl hk, False.elim⟩

/-- The table with the ways up from `n`. -/
def addUp (E : α → α → Prop) (n : α) (C : Set (List α)) : Set (List α) :=
  {l | l ∈ C ∨ ∃ z, Ascends E l n z}

/-- The table with the ways of the table that an edge continues to `n`. -/
def addDown (E : α → α → Prop) (n : α) (C : Set (List α)) : Set (List α) :=
  {l | l ∈ C ∨ ∃ s ∈ C, ∃ z, s.getLast? = some z ∧ E z n ∧ l = s ++ [n]}

/-- The table with the ways from `n` and those to `n`. -/
def mend (E : α → α → Prop) (n : α) (C : Set (List α)) : Set (List α) := addDown E n (addUp E n C)

/-- The table without the ways through `n`, if it is cleared of them. -/
def purge (clear : Prop) (n : α) (C : Set (List α)) : Set (List α) := {l ∈ C | clear → n ∉ l}

/-- The ways that are lost when `n` gets new edges: those that pass it, and those that would end at
it and were lost as far as the node below it. -/
def Lost (clear : Prop) (n : α) (K : List α → Prop) (l : List α) : Prop :=
  (n ∉ l ∧ K l) ∨ (n ∈ l ∧ l.head? ≠ some n ∧
    (l.getLast? ≠ some n ∨ (K l.dropLast ∧ (clear ∨ K l))))

theorem Ascends.of_append (h : Ascends E (s ++ x :: t) a z) : Ascends E (x :: t) x z := by
  refine ⟨h.chain.suffix (List.suffix_append _ _), rfl, ?_⟩
  rw [← h.last, List.getLast?_append_of_ne_nil _ (List.cons_ne_nil _ _)]

/-- A way up that ends at a node off all cycles meets it there only. -/
theorem Ascends.notMem_of_concat (hn : ¬ TransGen E n n) (h : Ascends E (s ++ [n]) a z) :
    n ∉ s := by
  intro hmem
  obtain ⟨u, v, rfl⟩ := List.append_of_mem hmem
  rw [List.append_assoc, List.cons_append] at h
  have hz : z = n := by
    have hlast := h.last
    rw [← List.cons_append, ← List.append_assoc, List.getLast?_concat] at hlast
    exact (Option.some_inj.mp hlast).symm
  exact hn (hz ▸ h.of_append.transGen (by simp))

theorem Ascends.eq_of_mem (hn : ∀ y, ¬ E n y) (h : Ascends E l a z) (hmem : n ∈ l) : z = n := by
  obtain ⟨-, t, -, ht⟩ := h.suffix_of_mem hmem
  cases t with
  | nil => exact (singleton_iff.mp ht).2.symm
  | cons y t => exact absurd (cons_iff.mp ht).2.1 (hn y)

/-- A way up through a node without edges up, in a graph where that node has edges. -/
theorem Ascends.extend (hoff : ∀ x, x ≠ n → ∀ y, E x y ↔ E' x y) (hn : ∀ y, ¬ E n y)
    (h : Ascends E l a z) : Ascends E' l a z := by
  refine ⟨List.isChain_iff_forall_rel_of_append_cons_cons.mpr ?_, h.head, h.last⟩
  intro x y s t hst
  have hxy := List.isChain_iff_forall_rel_of_append_cons_cons.mp h.chain hst
  refine (hoff x ?_ y).mp hxy
  rintro rfl
  exact hn y hxy

section Mend

variable (h : Recorded E D K C) (hoff : ∀ x, x ≠ n → ∀ y, E x y ↔ E' x y)
  (hn : ¬ TransGen E' n n) (hclear : ¬ clear → ∀ y, ¬ E n y)

include hoff

theorem ascends_of_notMem (hnl : n ∉ l.dropLast) : Ascends E l a z ↔ Ascends E' l a z :=
  ⟨fun hl => hl.of_edges fun x hx y => (hoff x (fun hxn => hnl (hxn ▸ hx)) y).mp,
    fun hl => hl.of_edges fun x hx y => (hoff x (fun hxn => hnl (hxn ▸ hx)) y).mpr⟩

include h hn hclear

/-- The mended table has ways up of the new graph that are not lost. -/
theorem Recorded.of_mem_mend (hnD : n ∈ D) (hl : l ∈ Library.mend E' n (purge clear n C)) :
    (∃ a ∈ D, ∃ z, Ascends E' l a z) ∧ ¬ Lost clear n K l := by
  rcases hl with (⟨hl, hcl⟩ | ⟨z, hl⟩) | ⟨s, ⟨hs, hcl⟩ | ⟨w, hs⟩, z, hz, hzn, rfl⟩
  · obtain ⟨⟨a, ha, z, hl⟩, hk⟩ := (h l).mp hl
    by_cases hnl : n ∈ l
    · -- the table was not cleared, so the node was the top of its ways
      have hnot : ¬ clear := fun hc => hcl hc hnl
      have hend := hl.eq_of_mem (hclear hnot) hnl
      refine ⟨⟨a, ha, z, hl.extend hoff (hclear hnot)⟩, ?_⟩
      rintro (⟨hnl', -⟩ | ⟨-, -, hlast | ⟨-, hc | hk'⟩⟩)
      · exact hnl' hnl
      · exact hlast (hend ▸ hl.last)
      · exact hnot hc
      · exact hk hk'
    · have hl' := (ascends_of_notMem hoff fun hm => hnl (List.dropLast_subset _ hm)).mp hl
      refine ⟨⟨a, ha, z, hl'⟩, ?_⟩
      rintro (⟨-, hk'⟩ | ⟨hnl', -⟩)
      · exact hk hk'
      · exact hnl hnl'
  · refine ⟨⟨n, hnD, z, hl⟩, ?_⟩
    rintro (⟨hnl, -⟩ | ⟨-, hhead, -⟩)
    · exact hnl hl.head_mem
    · exact hhead hl.head
  · obtain ⟨⟨a, ha, w, hsw⟩, hk⟩ := (h s).mp hs
    obtain rfl : w = z := Option.some_inj.mp (hsw.last.symm.trans hz)
    have hns : n ∉ s := by
      intro hmem
      by_cases hc : clear
      · exact hcl hc hmem
      · obtain rfl := hsw.eq_of_mem (hclear hc) hmem
        exact hn (.single hzn)
    have hsw' := (ascends_of_notMem hoff fun hm => hns (List.dropLast_subset _ hm)).mp hsw
    refine ⟨⟨a, ha, n, hsw'.append hzn (.singleton n)⟩, ?_⟩
    rintro (⟨hnl, -⟩ | ⟨-, -, hlast | ⟨hk', -⟩⟩)
    · exact hnl (List.mem_append_right _ List.mem_cons_self)
    · exact hlast List.getLast?_concat
    · rw [List.dropLast_concat] at hk'
      exact hk hk'
  · obtain rfl : w = z := Option.some_inj.mp (hs.last.symm.trans hz)
    exact absurd (TransGen.tail' hs.reflTransGen hzn) hn

omit hclear in
/-- The mended table has all ways up of the new graph that are not lost. -/
theorem Recorded.mem_mend (ha : a ∈ D) (hl : Ascends E' l a z) (hk : ¬ Lost clear n K l) :
    l ∈ Library.mend E' n (purge clear n C) := by
  by_cases hnl : n ∈ l
  · by_cases hhead : l.head? = some n
    · obtain rfl : a = n := Option.some_inj.mp (hl.head.symm.trans hhead)
      exact Or.inl (Or.inr ⟨z, hl⟩)
    · have hlast : l.getLast? = some n := by
        by_contra hlast
        exact hk (Or.inr ⟨hnl, hhead, Or.inl hlast⟩)
      obtain rfl : z = n := Option.some_inj.mp (hl.last.symm.trans hlast)
      have hlen : 2 ≤ l.length := by
        match l, hl.ne_nil, hhead, hlast with
        | [x], _, hx, hx' => exact absurd hx' hx
        | x :: y :: l, _, _, _ => simp
      obtain ⟨s, c, rfl, hs, hcz⟩ := hl.exists_concat hlen
      have hns := hl.notMem_of_concat hn
      have hs' := (ascends_of_notMem hoff fun hm => hns (List.dropLast_subset _ hm)).mpr hs
      by_cases hks : K s
      · have hnot : ¬ (clear ∨ K (s ++ [z])) := fun hc =>
          hk (Or.inr ⟨hnl, hhead, Or.inr ⟨by rwa [List.dropLast_concat], hc⟩⟩)
        rw [not_or] at hnot
        have hl' := (ascends_of_notMem hoff (by rwa [List.dropLast_concat])).mpr hl
        exact Or.inl (Or.inl ⟨(h _).mpr ⟨⟨a, ha, z, hl'⟩, hnot.2⟩, fun hc => absurd hc hnot.1⟩)
      · have hmem : s ∈ C := (h s).mpr ⟨⟨a, ha, c, hs'⟩, hks⟩
        exact Or.inr ⟨s, Or.inl ⟨hmem, fun _ => hns⟩, c, hs.last, hcz, rfl⟩
  · have hl' := (ascends_of_notMem hoff fun hm => hnl (List.dropLast_subset _ hm)).mpr hl
    have hmem : l ∈ C := (h l).mpr ⟨⟨a, ha, z, hl'⟩, fun hk' => hk (Or.inl ⟨hnl, hk'⟩)⟩
    exact Or.inl (Or.inl ⟨hmem, fun _ => hnl⟩)

/-- **One node gets new edges.** -/
theorem Recorded.mend (hnD : n ∈ D) :
    Recorded E' D (Lost clear n K) (Library.mend E' n (purge clear n C)) := by
  intro l
  constructor
  · exact h.of_mem_mend hoff hn hclear hnD
  · rintro ⟨⟨a, ha, z, hl⟩, hk⟩
    exact h.mem_mend hoff hn ha hl hk

end Mend

/-! ## Several nodes side by side -/

/-- The way passes a node of `B` between its ends. -/
def Across (B : Set α) (l : List α) : Prop := ∃ b ∈ B, b ∈ l.tail.dropLast

theorem mem_interior : b ∈ (s ++ x :: b :: y :: t).tail.dropLast := by
  cases s with
  | nil => simp
  | cons w s => simp [List.dropLast_append_of_ne_nil]

theorem exists_of_mem_interior (h : b ∈ l.tail.dropLast) :
    ∃ s x y t, l = s ++ x :: b :: y :: t := by
  cases l with
  | nil => exact absurd h List.not_mem_nil
  | cons w l =>
    rw [List.tail_cons] at h
    obtain ⟨u, z, rfl⟩ := (List.eq_nil_or_concat' l).resolve_left fun hnil => by simp [hnil] at h
    rw [List.dropLast_concat] at h
    obtain ⟨u₁, u₂, rfl⟩ := List.append_of_mem h
    obtain ⟨s, x, hsx⟩ := (List.eq_nil_or_concat' (w :: u₁)).resolve_left (List.cons_ne_nil _ _)
    obtain ⟨y, t, hyt⟩ := List.exists_cons_of_ne_nil
      (List.append_ne_nil_of_right_ne_nil u₂ (List.cons_ne_nil z []))
    refine ⟨s, x, y, t, ?_⟩
    calc w :: (u₁ ++ b :: u₂ ++ [z]) = (w :: u₁) ++ b :: (u₂ ++ [z]) := by simp
      _ = s ++ x :: b :: y :: t := by rw [hsx, hyt]; simp

/-- What is lost on the ways across `B` when another node gets new edges, if no node of `B` is above
it or directly below it: the ways across that node too. -/
theorem lost_across_iff (hl : Ascends E l a z) (hc : ¬ TransGen E c c)
    (hB : ∀ b ∈ B, ¬ TransGen E c b ∧ ¬ E b c) :
    Lost clear c (Across B) l ↔ Across (insert c B) l := by
  constructor
  · rintro (⟨-, b, hb, hmem⟩ | ⟨hcl, hhead, hlast | ⟨⟨b, hb, hmem⟩, -⟩⟩)
    · exact ⟨b, Or.inr hb, hmem⟩
    · obtain ⟨s, t, rfl⟩ := List.append_of_mem hcl
      obtain ⟨s, x, rfl⟩ := (List.eq_nil_or_concat' s).resolve_left fun hnil => by
        subst hnil
        exact hhead rfl
      cases t with
      | nil => exact absurd List.getLast?_concat hlast
      | cons y t =>
        refine ⟨c, Or.inl rfl, ?_⟩
        rw [List.append_assoc]
        exact mem_interior
    · refine ⟨b, Or.inr hb, ?_⟩
      obtain ⟨s, x, y, t, hst⟩ := exists_of_mem_interior hmem
      obtain ⟨u, rfl⟩ := List.getLast?_eq_some_iff.mp hl.last
      rw [List.dropLast_concat] at hst
      rw [hst, List.append_assoc]
      exact mem_interior
  · rintro ⟨b, hb, hmem⟩
    obtain ⟨s, x, y, t, rfl⟩ := exists_of_mem_interior hmem
    by_cases hcl : c ∈ s ++ x :: b :: y :: t
    · refine Or.inr ⟨hcl, fun hhead => ?_, ?_⟩
      · -- the node between the ends would be above the start
        obtain rfl : a = c := Option.some_inj.mp (hl.head.symm.trans hhead)
        have hsb : Ascends E (s ++ [x] ++ [b]) a b := by
          have hl' := hl
          rw [List.append_cons] at hl'
          exact hl'.split.1
        have hab := hsb.transGen (by simp)
        rcases hb with rfl | hb
        · exact hc hab
        · exact (hB b hb).1 hab
      · by_cases hlast : (s ++ x :: b :: y :: t).getLast? = some c
        · right
          rcases List.eq_nil_or_concat' t with rfl | ⟨t, w, rfl⟩
          · -- the node that the way ends at would be directly above it
            have hyc : y = c := by
              rw [List.getLast?_append_of_ne_nil _ (List.cons_ne_nil _ _)] at hlast
              exact Option.some_inj.mp hlast
            have hl' := hl
            rw [List.append_cons] at hl'
            obtain ⟨-, hby, -⟩ := hl'.split
            rw [hyc] at hby
            rcases hb with rfl | hb
            · exact absurd (.single hby) hc
            · exact absurd hby (hB b hb).2
          · have hu : s ++ x :: b :: y :: (t ++ [w]) = (s ++ x :: b :: y :: t) ++ [w] := by simp
            rw [hu] at hl hlast ⊢
            obtain rfl : w = c := by
              rw [List.getLast?_concat] at hlast
              exact Option.some_inj.mp hlast
            have hb' : b ∈ B := by
              rcases hb with rfl | hb
              · exact absurd (by simp) (hl.notMem_of_concat hc)
              · exact hb
            rw [List.dropLast_concat]
            exact ⟨⟨b, hb', mem_interior⟩, Or.inr ⟨b, hb', hu ▸ mem_interior⟩⟩
        · exact Or.inl hlast
    · rcases hb with rfl | hb
      · exact absurd (by simp) hcl
      · exact Or.inl ⟨hcl, b, hb, mem_interior⟩

/-- The edges of `E₁` up from `c`, and those of `E₀` up from the other nodes. -/
def Redirect (E₀ E₁ : α → α → Prop) (c x y : α) : Prop := (x = c ∧ E₁ x y) ∨ (x ≠ c ∧ E₀ x y)

theorem redirect_self : Redirect E₀ E₁ c c y ↔ E₁ c y :=
  ⟨fun h => h.elim And.right fun h' => absurd rfl h'.1, fun h => Or.inl ⟨rfl, h⟩⟩

theorem redirect_of_ne (hx : x ≠ c) : Redirect E₀ E₁ c x y ↔ E₀ x y :=
  ⟨fun h => h.elim (fun h' => absurd h'.1 hx) And.right, fun h => Or.inr ⟨hx, h⟩⟩

theorem addUp_congr (h : AgreeAbove E E' n) : addUp E n C = addUp E' n C := by
  ext l
  refine or_congr_right (exists_congr fun z => h.ascends_iff)

theorem addDown_congr (h : ∀ x, E x n ↔ E' x n) : addDown E n C = addDown E' n C := by
  ext l
  refine or_congr_right ?_
  simp only [h]

theorem mend_congr (h : AgreeAbove E E' n) (h' : ∀ x, E x n ↔ E' x n) :
    mend E n C = mend E' n C := by
  rw [mend, mend, addUp_congr h, addDown_congr h']

/-- The nodes of a list are mended one after the other, each in the graph in which all of them have
their new edges. -/
def mendEach (E : α → α → Prop) (clear : Prop) : List α → Set (List α) → Set (List α)
  | [], C => C
  | c :: L, C => mendEach E clear L (mend E c (purge clear c C))

/-- **Several nodes get new edges**, of which none comes to lie above another: what is lost are the
ways across them. -/
theorem Recorded.mendEach {L : List α} (h : Recorded E₀ D (Across B) C) (hL : L.Nodup)
    (hD : ∀ c ∈ L, c ∈ D) (hoff : ∀ x ∉ L, ∀ y, E₀ x y ↔ E₁ x y)
    (h₀ : ∀ c ∈ L, ∀ c' ∈ L, ¬ E₀ c c') (h₁ : ∀ c ∈ L, ∀ c' ∈ L, ¬ TransGen E₁ c c')
    (hB : ∀ b ∈ B, ∀ c ∈ L, ¬ TransGen E₁ c b ∧ ¬ E₁ b c)
    (hclear : ¬ clear → ∀ c ∈ L, ∀ y, ¬ E₀ c y) :
    Recorded E₁ D (Across (B ∪ {c | c ∈ L})) (Library.mendEach E₁ clear L C) := by
  induction L generalizing E₀ B C with
  | nil =>
    rw [Library.mendEach]
    have hBn : B ∪ {c : α | c ∈ ([] : List α)} = B := by simp
    rw [hBn]
    exact h.congr (fun a _ x _ y => hoff x List.not_mem_nil y) fun l a _ z _ => Iff.rfl
  | cons c L ih =>
    obtain ⟨hcL, hL⟩ := List.nodup_cons.mp hL
    -- in the graph where `c` alone has its new edges, nothing above `c` is different
    have hagree : AgreeAbove E₁ (Redirect E₀ E₁ c) c := by
      intro x hx y
      rcases Relation.reflTransGen_iff_eq_or_transGen.mp hx with rfl | hx
      · exact redirect_self.symm
      · have hxL : x ∉ c :: L := fun hmem => h₁ c List.mem_cons_self x hmem hx
        have hxc : x ≠ c := fun hxc => hxL (List.mem_cons.mpr (Or.inl hxc))
        rw [redirect_of_ne hxc]
        exact (hoff x hxL y).symm
    have hchild : ∀ x, E₁ x c ↔ Redirect E₀ E₁ c x c := by
      intro x
      by_cases hxc : x = c
      · rw [hxc, redirect_self]
      · rw [redirect_of_ne hxc]
        by_cases hxL : x ∈ c :: L
        · exact ⟨fun hx => absurd (.single hx) (h₁ x hxL c List.mem_cons_self),
            fun hx => absurd hx (h₀ x hxL c List.mem_cons_self)⟩
        · exact (hoff x hxL c).symm
    have hcyc : ¬ TransGen (Redirect E₀ E₁ c) c c := fun hc =>
      h₁ c List.mem_cons_self c List.mem_cons_self (hagree.transGen hc)
    have hmend : Recorded (Redirect E₀ E₁ c) D (Lost clear c (Across B))
        (Library.mend (Redirect E₀ E₁ c) c (purge clear c C)) :=
      h.mend (fun x hx y => (redirect_of_ne hx).symm) hcyc
        (fun hc => hclear hc c List.mem_cons_self) (hD c List.mem_cons_self)
    rw [← mend_congr hagree hchild] at hmend
    have hstep : Recorded (Redirect E₀ E₁ c) D (Across (insert c B))
        (Library.mend E₁ c (purge clear c C)) := by
      refine hmend.congr (fun a _ x _ y => Iff.rfl) fun l a _ z hl => ?_
      refine lost_across_iff hl hcyc fun b hb => ?_
      obtain ⟨hcb, hbc⟩ := hB b hb c List.mem_cons_self
      exact ⟨fun hc => hcb (hagree.transGen hc), fun hc => hbc ((hchild b).mpr hc)⟩
    have hrest := ih hstep hL (fun x hx => hD x (List.mem_cons_of_mem _ hx)) ?_ ?_
      (fun x hx y hy => h₁ x (List.mem_cons_of_mem _ hx) y (List.mem_cons_of_mem _ hy)) ?_ ?_
    · have hset : insert c B ∪ {x | x ∈ L} = B ∪ {x | x ∈ c :: L} := by
        ext x
        simp only [Set.mem_union, Set.mem_insert_iff, Set.mem_ofPred_eq, List.mem_cons]
        tauto
      rw [Library.mendEach, ← hset]
      exact hrest
    · intro x hx y
      by_cases hxc : x = c
      · rw [hxc, redirect_self]
      · rw [redirect_of_ne hxc]
        exact hoff x (fun hmem => (List.mem_cons.mp hmem).elim hxc hx) y
    · intro x hx y hy hxy
      rw [redirect_of_ne (ne_of_mem_of_not_mem hx hcL)] at hxy
      exact h₀ x (List.mem_cons_of_mem _ hx) y (List.mem_cons_of_mem _ hy) hxy
    · intro b hb x hx
      rcases hb with rfl | hb
      · exact ⟨h₁ x (List.mem_cons_of_mem _ hx) b List.mem_cons_self, fun hbx =>
          h₁ b List.mem_cons_self x (List.mem_cons_of_mem _ hx) (.single hbx)⟩
      · exact hB b hb x (List.mem_cons_of_mem _ hx)
    · intro hc x hx y hxy
      rw [redirect_of_ne (ne_of_mem_of_not_mem hx hcL)] at hxy
      exact hclear hc x (List.mem_cons_of_mem _ hx) y hxy

/-! ## A node goes -/

/-- **A node goes**, with its edges: the ways through it go. -/
theorem Recorded.erase (h : Recorded E D K C) (hE : ∀ x y, E' x y ↔ E x y ∧ x ≠ m ∧ y ≠ m) :
    Recorded E' (D \ {m}) K (purge True m C) := by
  intro l
  constructor
  · rintro ⟨hl, hm⟩
    obtain ⟨⟨a, ha, z, hl⟩, hk⟩ := (h l).mp hl
    have hne : ∀ x ∈ l, x ≠ m := fun x hx => ne_of_mem_of_not_mem hx (hm trivial)
    refine ⟨⟨a, ⟨ha, hne a hl.head_mem⟩, z, ?_, hl.head, hl.last⟩, hk⟩
    refine List.isChain_iff_forall_rel_of_append_cons_cons.mpr fun x y s t hst => ?_
    have hxy := List.isChain_iff_forall_rel_of_append_cons_cons.mp hl.chain hst
    exact (hE x y).mpr ⟨hxy, hne x (hst ▸ by simp), hne y (hst ▸ by simp)⟩
  · rintro ⟨⟨a, ⟨ha, ham⟩, z, hl⟩, hk⟩
    refine ⟨(h l).mpr ⟨⟨a, ha, z, hl.mono fun x y hxy => ((hE x y).mp hxy).1⟩, hk⟩, fun _ hm => ?_⟩
    rcases ReflTransGen.cases_tail (hl.reflTransGen_of_mem hm) with rfl | ⟨y, -, hym⟩
    · exact ham rfl
    · exact ((hE y _).mp hym).2.2 rfl

/-- Where no way up from `c` meets `m`, the ways through `m` may go before or after `c` is
mended. -/
theorem purge_mend (hm : ∀ l z, Ascends E l c z → m ∉ l) :
    purge True m (mend E c (purge clear c C)) = mend E c (purge clear c (purge True m C)) := by
  have hmc : m ≠ c := fun hmc => hm [c] c (.singleton c) (hmc ▸ List.mem_cons_self)
  ext l
  constructor
  · rintro ⟨(⟨hl, hcl⟩ | hl) | ⟨s, ⟨hs, hcl⟩ | hs, z, hz, hzc, rfl⟩, hml⟩
    · exact Or.inl (Or.inl ⟨⟨hl, hml⟩, hcl⟩)
    · exact Or.inl (Or.inr hl)
    · have hms := fun hms => hml trivial (List.mem_append_left _ hms)
      exact Or.inr ⟨s, Or.inl ⟨⟨hs, fun _ => hms⟩, hcl⟩, z, hz, hzc, rfl⟩
    · exact Or.inr ⟨s, Or.inr hs, z, hz, hzc, rfl⟩
  · have hconcat : ∀ s, m ∉ s → m ∉ s ++ [c] := by
      intro s hs hmem
      rcases List.mem_append.mp hmem with hmem | hmem
      · exact hs hmem
      · exact hmc (List.mem_singleton.mp hmem)
    rintro ((⟨⟨hl, hml⟩, hcl⟩ | ⟨z, hl⟩) | ⟨s, ⟨⟨hs, hms⟩, hcl⟩ | ⟨w, hs⟩, z, hz, hzc, rfl⟩)
    · exact ⟨Or.inl (Or.inl ⟨hl, hcl⟩), hml⟩
    · exact ⟨Or.inl (Or.inr ⟨z, hl⟩), fun _ => hm l z hl⟩
    · exact ⟨Or.inr ⟨s, Or.inl ⟨hs, hcl⟩, z, hz, hzc, rfl⟩, fun _ => hconcat s (hms trivial)⟩
    · exact ⟨Or.inr ⟨s, Or.inr ⟨w, hs⟩, z, hz, hzc, rfl⟩, fun _ => hconcat s (hm s w hs)⟩

theorem purge_mendEach {L : List α} (hm : ∀ c ∈ L, ∀ l z, Ascends E l c z → m ∉ l) :
    purge True m (mendEach E clear L C) = mendEach E clear L (purge True m C) := by
  induction L generalizing C with
  | nil => rfl
  | cons c L ih =>
    rw [mendEach, mendEach, ih fun x hx => hm x (List.mem_cons_of_mem _ hx),
      purge_mend (hm c List.mem_cons_self)]

/-! ## A node comes in between -/

/-- The ways to `n` of more than one edge, each put together with the ways from `n`. -/
def combine (n : α) (C : Set (List α)) : Set (List α) :=
  {l | l ∈ C ∨ ∃ s ∈ C, ∃ t ∈ C, s.getLast? = some n ∧ 2 < s.length ∧ t.head? = some n ∧
    1 < t.length ∧ l = s ++ t.tail}

/-- The table without the ways that end at `n`. -/
def purgeRoot (n : α) (C : Set (List α)) : Set (List α) := {l ∈ C | l.getLast? ≠ some n}

/-- A way across a node directly below `n`, when such nodes have no other edge, leads to `n`. -/
theorem Ascends.mem_of_across (hone : ∀ x, E x n → ∀ y, E x y → y = n)
    (hl : Ascends E l a z) (h : Across {x | E x n} l) : n ∈ l := by
  obtain ⟨b, hb, hmem⟩ := h
  obtain ⟨s, x, y, t, rfl⟩ := exists_of_mem_interior hmem
  rw [List.append_cons] at hl ⊢
  obtain rfl := hone b hb y hl.split.2.1
  simp

/-- **A node comes in** between some nodes and those above it: the ways across the nodes below it
are put together again. -/
theorem Recorded.combine (h : Recorded E D (Across {x | E x n}) C)
    (hone : ∀ x, E x n → ∀ y, E x y → y = n) (hn : ¬ TransGen E n n) :
    Recorded E (insert n D) (fun _ => False)
      (Library.combine n (Library.mend E n (purgeRoot n C))) := by
  have hmend : ∀ l ∈ Library.mend E n (purgeRoot n C), ∃ a ∈ insert n D, ∃ z, Ascends E l a z := by
    have hup : ∀ l ∈ addUp E n (purgeRoot n C), ∃ a ∈ insert n D, ∃ z, Ascends E l a z := by
      rintro l (⟨hl, -⟩ | ⟨z, hl⟩)
      · obtain ⟨⟨a, ha, hl⟩, -⟩ := (h l).mp hl
        exact ⟨a, Or.inr ha, hl⟩
      · exact ⟨n, Or.inl rfl, z, hl⟩
    rintro l (hl | ⟨s, hs, z, hz, hzn, rfl⟩)
    · exact hup l hl
    · obtain ⟨a, ha, w, hs⟩ := hup s hs
      obtain rfl : w = z := Option.some_inj.mp (hs.last.symm.trans hz)
      exact ⟨a, ha, n, hs.append hzn (.singleton n)⟩
  intro l
  constructor
  · rintro (hl | ⟨s, hs, t, ht, hlast, -, hhead, hlen, rfl⟩)
    · exact ⟨hmend l hl, id⟩
    · obtain ⟨a, ha, w, hs'⟩ := hmend s hs
      obtain ⟨b, -, z, ht'⟩ := hmend t ht
      obtain rfl : w = n := Option.some_inj.mp (hs'.last.symm.trans hlast)
      obtain rfl : b = w := Option.some_inj.mp (ht'.head.symm.trans hhead)
      obtain ⟨c, t, rfl, hbc, ht⟩ := ht'.exists_cons hlen
      exact ⟨⟨a, ha, z, hs'.append hbc ht⟩, id⟩
  · rintro ⟨⟨a, ha, z, hl⟩, -⟩
    by_cases hnl : n ∈ l
    · obtain ⟨u, v, rfl⟩ := List.append_of_mem hnl
      have hv := hl.of_append
      rcases List.eq_nil_or_concat' u with rfl | ⟨u, c, rfl⟩
      · obtain rfl : n = a := Option.some_inj.mp hl.head
        exact Or.inl (Or.inl (Or.inr ⟨z, hl⟩))
      · have hl' := hl
        rw [List.append_assoc, List.singleton_append] at hl'
        obtain ⟨hu, hcn, -⟩ := hl'.split
        have hac : TransGen E a n := .tail' hu.reflTransGen hcn
        have haD : a ∈ D := ha.resolve_left fun han => hn (han ▸ hac)
        have hcn' : c ≠ n := fun hc => hn (.single (hc ▸ hcn))
        have hnu : n ∉ u ++ [c] := (hu.append hcn (.singleton n)).notMem_of_concat hn
        have hmem : u ++ [c] ∈ purgeRoot n C := by
          refine ⟨(h _).mpr ⟨⟨a, haD, c, hu⟩, fun hk => hnu (hu.mem_of_across hone hk)⟩, ?_⟩
          rw [List.getLast?_concat]
          exact fun hc => hcn' (Option.some_inj.mp hc)
        have hdown : u ++ [c] ++ [n] ∈ Library.mend E n (purgeRoot n C) :=
          Or.inr ⟨u ++ [c], Or.inl hmem, c, List.getLast?_concat, hcn, rfl⟩
        cases v with
        | nil => exact Or.inl hdown
        | cons b v =>
          cases u with
          | nil =>
            -- the way over one edge to `n` and on from there was not touched
            refine Or.inl (Or.inl (Or.inl ⟨(h _).mpr ⟨⟨a, haD, z, hl⟩, ?_⟩, fun hlast => ?_⟩))
            · rintro ⟨x, hx, hmem⟩
              exact hn (.tail' (hv.reflTransGen_of_mem (List.dropLast_subset _ hmem)) hx)
            · obtain rfl : z = n := Option.some_inj.mp (hl.last.symm.trans hlast)
              exact hn (hv.transGen (by simp))
          | cons x u =>
            refine Or.inr ⟨_, hdown, n :: b :: v, Or.inl (Or.inr ⟨z, hv⟩), List.getLast?_concat,
              by simp, rfl, by simp, by simp⟩
    · have haD : a ∈ D := ha.resolve_left fun han => hnl (han ▸ hl.head_mem)
      refine Or.inl (Or.inl (Or.inl ⟨(h l).mpr ⟨⟨a, haD, z, hl⟩, ?_⟩, fun hlast => ?_⟩))
      · exact fun hk => hnl (hl.mem_of_across hone hk)
      · exact hnl (List.mem_of_mem_getLast? hlast)

end JazzHands.Library

import Mathlib.Order.Basic
import Mathlib.Data.Set.Insert
import Mathlib.Order.Lattice
import Mathlib.Order.Preorder.Finite

/-!
# Labelled blocks in a forest order

In a *forest order* the elements above a point form a chain.  A finite or infinite set of labelled
blocks of such an order is a forest: the parent of a block is the label of the least block strictly
above it.
-/

namespace JazzHands.Library

/-- A partial order in which the elements above a point are pairwise comparable. -/
class ForestOrder (α : Type*) [PartialOrder α] : Prop where
  comparable : ∀ {a b c : α}, a ≤ b → a ≤ c → b ≤ c ∨ c ≤ b

variable {ι α : Type*} [PartialOrder α]

/-- The label of the least block of `S` strictly above `a`. -/
def Nearest (S : Set (ι × α)) (a : α) : Option ι → Prop
  | none => ∀ x ∈ S, ¬ a < x.2
  | some i => ∃ b, (i, b) ∈ S ∧ a < b ∧ ∀ x ∈ S, a < x.2 → b ≤ x.2

/-- The blocks of `S` with another label than `i`. -/
def others (S : Set (ι × α)) (i : ι) : Set (ι × α) := {x ∈ S | x.1 ≠ i}

/-- Labels and blocks determine each other. -/
structure Labelled (S : Set (ι × α)) : Prop where
  label : ∀ x ∈ S, ∀ y ∈ S, x.1 = y.1 → x = y
  block : ∀ x ∈ S, ∀ y ∈ S, x.2 = y.2 → x = y

variable {S : Set (ι × α)} {a b : α} {i : ι} {o o' : Option ι}

omit [PartialOrder α] in
theorem Labelled.mono {T : Set (ι × α)} (hS : Labelled S) (h : T ⊆ S) : Labelled T :=
  ⟨fun x hx y hy => hS.label x (h hx) y (h hy), fun x hx y hy => hS.block x (h hx) y (h hy)⟩

/-! ## The nearest block above a point -/

theorem Nearest.unique (h : Nearest S a o) (hS : Labelled S) (h' : Nearest S a o') : o = o' := by
  cases o with
  | none =>
    cases o' with
    | none => rfl
    | some j =>
      obtain ⟨c, hc, hac, -⟩ := h'
      exact absurd hac (h _ hc)
  | some i =>
    obtain ⟨b, hb, hab, hleast⟩ := h
    cases o' with
    | none => exact absurd hab (h' _ hb)
    | some j =>
      obtain ⟨c, hc, hac, hleast'⟩ := h'
      have hbc : b = c := le_antisymm (hleast _ hc hac) (hleast' _ hb hab)
      rw [(Prod.mk.inj (hS.block _ hb _ hc hbc)).1]

/-- Leaving out blocks other than the nearest one of a point changes nothing for the point. -/
theorem Nearest.subset {T : Set (ι × α)} (h : Nearest S a o) (hT : T ⊆ S)
    (ho : ∀ k ∈ o, ∀ b, (k, b) ∈ S → (k, b) ∈ T) : Nearest T a o := by
  cases o with
  | none => exact fun x hx => h x (hT hx)
  | some k =>
    obtain ⟨b, hb, hab, hleast⟩ := h
    exact ⟨b, ho k rfl b hb, hab, fun x hx => hleast x (hT hx)⟩

/-- Above every block of a finite set is one that has nothing of the set above it. -/
theorem exists_root (hfin : S.Finite) {x : ι × α} (hx : x ∈ S) :
    ∃ z ∈ S, x.2 ≤ z.2 ∧ Nearest S z.2 none := by
  obtain ⟨b, hle, hb⟩ := (hfin.image Prod.snd).exists_le_maximal (Set.mem_image_of_mem _ hx)
  obtain ⟨z, hz, rfl⟩ := hb.prop
  exact ⟨z, hz, hle, fun y hy => hb.not_gt (Set.mem_image_of_mem _ hy)⟩

/-- A block put in elsewhere leaves the nearest block of a point as it is. -/
theorem Nearest.insert_keep [ForestOrder α] (hS : Labelled S) (h : Nearest S a o)
    (hb : Nearest S b o') (hne : ¬ (a < b ∧ o = o')) : Nearest (insert (i, b) S) a o := by
  by_cases hab : a < b
  · have hoo : o ≠ o' := fun e => hne ⟨hab, e⟩
    cases o with
    | none =>
      -- nothing lies above `a`, hence nothing above `b`
      have hnone : Nearest S b none := fun x hx hbx => h x hx (hab.trans hbx)
      exact absurd (hnone.unique hS hb) hoo
    | some k =>
      obtain ⟨p, hp, hap, hleast⟩ := h
      refine ⟨p, Set.mem_insert_of_mem _ hp, hap, ?_⟩
      rintro x (rfl | hx) hax
      · rcases ForestOrder.comparable hap.le hab.le with hle | hle
        · exact hle
        · rcases hle.eq_or_lt with heq | hlt
          · exact heq.ge
          · -- `p` is above `b`, so it is the nearest block of `b` as well
            have hsome : Nearest S b (some k) :=
              ⟨p, hp, hlt, fun x hx hbx => hleast x hx (hab.trans hbx)⟩
            exact absurd (hsome.unique hS hb) hoo
      · exact hleast x hx hax
  · cases o with
    | none =>
      rintro x (rfl | hx)
      · exact hab
      · exact h x hx
    | some k =>
      obtain ⟨p, hp, hap, hleast⟩ := h
      refine ⟨p, Set.mem_insert_of_mem _ hp, hap, ?_⟩
      rintro x (rfl | hx) hax
      · exact absurd hax hab
      · exact hleast x hx hax

/-- A block that is moved to where nothing is above it stays the nearest one of a point below it, if
no root comes to lie below it. -/
theorem Nearest.move_root [ForestOrder α] (hS : Labelled S) (hfin : S.Finite)
    (h : Nearest S a (some i)) (hab : a < b) (hb : Nearest (others S i) b none)
    (hroot : ∀ z ∈ others S i, Nearest S z.2 none → ¬ z.2 ≤ b) :
    Nearest (insert (i, b) (others S i)) a (some i) := by
  refine ⟨b, Set.mem_insert _ _, hab, ?_⟩
  rintro x (rfl | hx) hax
  · exact le_rfl
  · by_contra hle
    -- the root above `x` lies below `b`
    obtain ⟨z, hz, hxz, hzroot⟩ := exists_root (hfin.subset fun y hy => hy.1) hx
    have hzb : z.2 ≤ b := by
      rcases ForestOrder.comparable (hax.le.trans hxz) hab.le with hzb | hbz
      · exact hzb
      · rcases hbz.eq_or_lt with heq | hlt
        · exact heq.ge
        · exact absurd hlt (hb z hz)
    refine hroot z hz (fun y hy hzy => ?_) hzb
    by_cases hyi : y.1 = i
    · -- the block is nearest to `a`, hence below `x` before it moved
      obtain ⟨c, hc, -, hleast⟩ := h
      have hyc : y = (i, c) := hS.label y hy _ hc hyi
      rw [hyc] at hzy
      exact lt_irrefl _ ((hzy.trans_le (hleast x hx.1 hax)).trans_le hxz)
    · exact hzroot y ⟨hy, hyi⟩ hzy

end JazzHands.Library

import Mathlib.Data.List.Basic
import Mathlib.Data.Nat.Notation

/-!
# Nested blocks and balanced texts

A text in which a character `l` opens a block and a character `r` closes one.

* `balanced_render_iff`: the text of the pieces is balanced when they are nested.
-/

namespace JazzHands.Library
namespace Nesting

variable {α β : Type*}

/-! ## Pieces -/

/-- A part of a text. -/
inductive Piece (β α : Type*) where
  | opening (b : β) (text : List α)
  | closing (text : List α)
  | inner (text : List α)

def Piece.text : Piece β α → List α
  | .opening _ text => text
  | .closing text => text
  | .inner text => text

def render (ps : List (Piece β α)) : List α := ps.flatMap Piece.text

/-- The open blocks after some pieces, the innermost first. -/
def nest : List (Piece β α) → List β → Option (List β)
  | [], st => some st
  | .opening b _ :: ps, st => nest ps (b :: st)
  | .closing _ :: _, [] => none
  | .closing _ :: ps, _ :: st => nest ps st
  | .inner _ :: ps, st => nest ps st

/-- The blocks that pieces open, each with the blocks around it. -/
def opened : List (Piece β α) → List β → List (β × List β)
  | [], _ => []
  | .opening b _ :: ps, st => (b, st) :: opened ps (b :: st)
  | .closing _ :: ps, st => opened ps st.tail
  | .inner _ :: ps, st => opened ps st

theorem nest_append (ps qs : List (Piece β α)) (st : List β) :
    nest (ps ++ qs) st = (nest ps st).bind (nest qs) := by
  induction ps generalizing st with
  | nil => rfl
  | cons p ps ih =>
    cases p with
    | opening b text => exact ih _
    | closing text =>
      cases st with
      | nil => rfl
      | cons b st => exact ih _
    | inner text => exact ih _

theorem opened_append {ps : List (Piece β α)} {st st' : List β} (h : nest ps st = some st')
    (qs : List (Piece β α)) : opened (ps ++ qs) st = opened ps st ++ opened qs st' := by
  induction ps generalizing st with
  | nil => rw [Option.some_inj.mp h, List.nil_append]; rfl
  | cons p ps ih =>
    cases p with
    | opening b text =>
      exact congrArg _ (ih h)
    | closing text =>
      cases st with
      | nil => exact absurd h (Option.some_ne_none st').symm
      | cons b st => exact ih h
    | inner text => exact ih h

/-- A block with texts in it. -/
def block (b : β) (head : List α) (lines : List (List α)) (foot : List α) : List (Piece β α) :=
  .opening b head :: (lines.map .inner ++ [.closing foot])

variable {b : β} {head foot : List α} {lines : List (List α)} {ps : List (Piece β α)} {st : List β}

@[simp] theorem nest_lines (lines : List (List α)) (ps : List (Piece β α)) (st : List β) :
    nest (lines.map .inner ++ ps) st = nest ps st := by
  induction lines with
  | nil => rfl
  | cons t lines ih => exact ih

@[simp] theorem opened_lines (lines : List (List α)) (ps : List (Piece β α)) (st : List β) :
    opened (lines.map .inner ++ ps) st = opened ps st := by
  induction lines with
  | nil => rfl
  | cons t lines ih => exact ih

theorem nest_block : nest (block b head lines foot) st = some st := by
  rw [block, nest, nest_lines]
  rfl

theorem opened_block : opened (block b head lines foot) st = [(b, st)] := by
  rw [block, opened, opened_lines]
  rfl

theorem nest_flatMap {γ : Type*} {f : γ → List (Piece β α)} (hf : ∀ c st, nest (f c) st = some st)
    (cs : List γ) (st : List β) : nest (cs.flatMap f) st = some st := by
  induction cs with
  | nil => rfl
  | cons c cs ih => rw [List.flatMap_cons, nest_append, hf, Option.bind_some, ih]

theorem opened_flatMap {γ : Type*} {f : γ → List (Piece β α)} {g : γ → β}
    (hf : ∀ c st, nest (f c) st = some st) (hg : ∀ c st, opened (f c) st = [(g c, st)])
    (cs : List γ) (st : List β) : opened (cs.flatMap f) st = cs.map fun c => (g c, st) := by
  induction cs with
  | nil => rfl
  | cons c cs ih =>
    rw [List.flatMap_cons, opened_append (hf c st), hg, ih, List.map_cons, List.singleton_append]

/-! ## The depth of a text -/

section

variable [DecidableEq α] {l r : α} {s t : List α} {n m : ℕ}

/-- The number of open blocks after a character. -/
def step (l r a : α) (n : ℕ) : Option ℕ :=
  if a = l then some (n + 1) else if a = r then (if n = 0 then none else some (n - 1)) else some n

/-- The number of open blocks after a text, from the number before it. -/
def depth (l r : α) : List α → ℕ → Option ℕ
  | [], n => some n
  | a :: s, n => (step l r a n).bind (depth l r s)

@[simp] theorem depth_nil : depth l r [] n = some n := rfl

theorem depth_cons (a : α) : depth l r (a :: s) n = (step l r a n).bind (depth l r s) := rfl

theorem depth_cons_left : depth l r (l :: s) n = depth l r s (n + 1) := by
  rw [depth_cons, step, if_pos rfl, Option.bind_some]

theorem depth_cons_right (hlr : l ≠ r) : depth l r (r :: s) (n + 1) = depth l r s n := by
  rw [depth_cons, step, if_neg hlr.symm, if_pos rfl, if_neg n.succ_ne_zero, Nat.add_sub_cancel,
    Option.bind_some]

theorem depth_cons_right_zero (hlr : l ≠ r) : depth l r (r :: s) 0 = none := by
  rw [depth_cons, step, if_neg hlr.symm, if_pos rfl, if_pos rfl, Option.bind_none]

theorem depth_append (s t : List α) (n : ℕ) :
    depth l r (s ++ t) n = (depth l r s n).bind (depth l r t) := by
  induction s generalizing n with
  | nil => rfl
  | cons a s ih =>
    rw [List.cons_append, depth_cons, depth_cons, Option.bind_assoc]
    exact congrArg _ (funext ih)

theorem depth_of_notMem (hl : l ∉ s) (hr : r ∉ s) : depth l r s n = some n := by
  induction s with
  | nil => rfl
  | cons a s ih =>
    rw [List.mem_cons, not_or] at hl hr
    rw [depth_cons, step, if_neg (Ne.symm hl.1), if_neg (Ne.symm hr.1), Option.bind_some,
      ih hl.2 hr.2]

theorem step_add {a : α} (h : step l r a n = some m) (k : ℕ) :
    step l r a (n + k) = some (m + k) := by
  unfold step at h ⊢
  by_cases hl : a = l
  · rw [if_pos hl, Option.some_inj] at h ⊢
    omega
  · rw [if_neg hl] at h ⊢
    by_cases hr : a = r
    · rw [if_pos hr] at h ⊢
      by_cases hn : n = 0
      · rw [if_pos hn] at h
        exact absurd h (Option.some_ne_none m).symm
      · rw [if_neg hn, Option.some_inj] at h
        rw [if_neg (by omega), Option.some_inj]
        omega
    · rw [if_neg hr, Option.some_inj] at h ⊢
      rw [h]

theorem depth_add (h : depth l r s n = some m) (k : ℕ) : depth l r s (n + k) = some (m + k) := by
  induction s generalizing n with
  | nil => rw [Option.some_inj.mp h, depth_nil]
  | cons a s ih =>
    rw [depth_cons, Option.bind_eq_some_iff] at h
    obtain ⟨i, hi, h⟩ := h
    rw [depth_cons, step_add hi k, Option.bind_some, ih h]

/-! ## Balanced texts -/

/-- Each block is closed that is opened, and no other. -/
def Balanced (l r : α) (s : List α) : Prop := depth l r s 0 = some 0
  deriving Decidable

theorem Balanced.depth_eq (h : Balanced l r s) : depth l r s n = some n := by
  have h' := depth_add h n
  rwa [Nat.zero_add] at h'

theorem balanced_of_notMem (hl : l ∉ s) (hr : r ∉ s) : Balanced l r s := depth_of_notMem hl hr

theorem Balanced.append (hs : Balanced l r s) (ht : Balanced l r t) : Balanced l r (s ++ t) := by
  rw [Balanced, depth_append, hs.depth_eq, Option.bind_some]
  exact ht

theorem Balanced.intercalate {L : List (List α)} (hs : Balanced l r s)
    (h : ∀ t ∈ L, Balanced l r t) : Balanced l r (s.intercalate L) := by
  induction L with
  | nil => rfl
  | cons t L ih =>
    have ht := h t List.mem_cons_self
    have hL := ih fun u hu => h u (List.mem_cons_of_mem _ hu)
    cases L with
    | nil => rwa [List.intercalate_singleton]
    | cons u L =>
      rw [List.intercalate_cons_cons]
      exact (ht.append hs).append hL

/-- Characters are replaced by texts that open and close as much as they do. -/
theorem depth_flatMap {f : α → List α} (hf : ∀ a ∈ s, ∀ k, depth l r (f a) k = depth l r [a] k) :
    depth l r (s.flatMap f) n = depth l r s n := by
  induction s generalizing n with
  | nil => rfl
  | cons a s ih =>
    have ih' : depth l r (s.flatMap f) = depth l r s :=
      funext fun k => ih fun b hb => hf b (List.mem_cons_of_mem _ hb)
    rw [List.flatMap_cons, depth_append, hf a List.mem_cons_self, ih', ← depth_append,
      List.singleton_append]

/-! ## The text of pieces -/

/-- The text opens or closes what the piece says. -/
def Piece.Fits (l r : α) : Piece β α → Prop
  | .opening _ text => ∀ n, depth l r text n = some (n + 1)
  | .closing text => depth l r text 0 = none ∧ ∀ n, depth l r text (n + 1) = some n
  | .inner text => Balanced l r text

theorem depth_text_of_fits {p : Piece β α} (hp : p.Fits l r) (st : List β) :
    depth l r p.text st.length = (nest [p] st).map List.length := by
  cases p with
  | opening b text => exact hp st.length
  | closing text =>
    cases st with
    | nil => exact hp.1
    | cons b st => exact hp.2 st.length
  | inner text => exact Balanced.depth_eq hp

theorem fits_block (hhead : (Piece.opening b head).Fits l r) (hlines : ∀ t ∈ lines, Balanced l r t)
    (hfoot : (Piece.closing foot : Piece β α).Fits l r) :
    ∀ p ∈ block b head lines foot, p.Fits l r := by
  intro p hp
  rw [block, List.mem_cons, List.mem_append, List.mem_map, List.mem_singleton] at hp
  rcases hp with rfl | ⟨t, ht, rfl⟩ | rfl
  · exact hhead
  · exact hlines t ht
  · exact hfoot

/-- The depth of the text is the number of blocks that the pieces leave open. -/
theorem depth_render {ps : List (Piece β α)} (hps : ∀ p ∈ ps, p.Fits l r) (st : List β) :
    depth l r (render ps) st.length = (nest ps st).map List.length := by
  induction ps generalizing st with
  | nil => rfl
  | cons p ps ih =>
    have ih' := ih fun q hq => hps q (List.mem_cons_of_mem _ hq)
    have hnest : nest (p :: ps) st = (nest [p] st).bind (nest ps) := nest_append [p] ps st
    rw [render, List.flatMap_cons, depth_append, depth_text_of_fits (hps p List.mem_cons_self), hnest]
    cases nest [p] st with
    | none => rfl
    | some st' => exact ih' st'

theorem balanced_render_iff {ps : List (Piece β α)} (hps : ∀ p ∈ ps, p.Fits l r) :
    Balanced l r (render ps) ↔ nest ps [] = some [] := by
  have h := depth_render hps []
  rw [List.length_nil] at h
  rw [Balanced, h, Option.map_eq_some_iff]
  constructor
  · rintro ⟨st, hst, hlen⟩
    rw [hst, List.length_eq_zero_iff.mp hlen]
  · intro hst
    exact ⟨[], hst, rfl⟩

end

end Nesting
end JazzHands.Library

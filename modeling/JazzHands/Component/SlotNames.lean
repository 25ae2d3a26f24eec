import JazzHands.Cache.Component
import JazzHands.Component.InterConnection
import JazzHands.Library.Numeral
import JazzHands.Postgres.Regexp

/-!
# The names of slots

`component_manip.set_slot_names` makes the names of slots from the templates of the component type,
and from the slot in which the component sits.
-/

namespace JazzHands.Component

open Library Postgres

/-! ## Types of columns -/

structure Varchar50 where
  chars : List Char
  length_le : chars.length ≤ 50
  deriving DecidableEq

/-- A text of one character. -/
def Varchar50.char (c : Char) : Varchar50 := ⟨[c], by simp⟩

/-- The assignment of a text, of which blanks are cut off at the end. -/
def Varchar50.assign (s : List Char) : Result Varchar50 :=
  if h : s.length ≤ 50 then .ok ⟨s, h⟩
  else if (s.drop 50).all (· = ' ') then .ok ⟨s.take 50, List.length_take_le 50 s⟩
  else raise .stringDataRightTruncation "value too long for type character varying(50)"

theorem Varchar50.assign_of_le {s : List Char} (h : s.length ≤ 50) :
    Varchar50.assign s = .ok ⟨s, h⟩ := dif_pos h

/-- `integer`. -/
structure Int4 where
  val : ℤ
  inRange : -2147483648 ≤ val ∧ val ≤ 2147483647

def Int4.add (a b : Int4) : Result Int4 :=
  if h : -2147483648 ≤ a.val + b.val ∧ a.val + b.val ≤ 2147483647 then .ok ⟨_, h⟩
  else raise .numericValueOutOfRange "integer out of range"

def Int4.text (a : Int4) : List Char := Numeral.signed a.val

theorem Int4.length_text_le (a : Int4) : a.text.length ≤ 11 :=
  Numeral.length_signed_le (w := 10) (by decide) (by have := a.inRange; omega)

/-! ## Tables -/

/-- `component_type_slot_template`. -/
structure SlotTemplate where
  componentTypeSlotTemplateId : ℕ
  componentTypeId : ℕ
  slotNameTemplate : Varchar50
  childSlotNameTemplate : Option Varchar50
  slotIndex : Option Int4

/-- A slot with its name. -/
structure SlotRow extends Slot where
  slotName : Varchar50
  componentTypeSlotTemplateId : Option ℕ

structure ComponentRow extends Components.Component where
  componentTypeId : ℕ

structure NameTables where
  component : List ComponentRow
  slot : List SlotRow
  componentTypeSlotTemplate : List SlotTemplate

namespace NameTables

def template (t : NameTables) (id : Option ℕ) : Option SlotTemplate :=
  t.componentTypeSlotTemplate.find? fun st => some st.componentTypeSlotTemplateId = id

def slotOf (t : NameTables) (id : Option ℕ) : Option SlotRow :=
  t.slot.find? fun s => some s.slotId = id

end NameTables

/-! ## Placeholders -/

/-- `%\x7bword\x7d`. -/
def placeholder (word : String) : List Char := '%' :: '\x7b' :: (word.toList ++ ['\x7d'])

/-- `regexp_replace(s, pattern, replacement, 'g')` of a pattern that is a text of some length; the
first argument counts the characters of a match that are left. -/
def replaceAll (pattern replacement : List Char) : ℕ → List Char → List Char
  | _, [] => []
  | k + 1, _ :: s => replaceAll pattern replacement k s
  | 0, c :: s =>
    if pattern.isPrefixOf (c :: s) then
      expand pattern replacement ++ replaceAll pattern replacement (pattern.length - 1) s
    else c :: replaceAll pattern replacement 0 s

/-- `text ~ '%{'`. -/
def HasPlaceholder (text : Varchar50) : Prop := ['%', '\x7b'] <:+: text.chars
  deriving Decidable

/-! ## `set_slot_names` -/

/-- A row of the query. -/
structure SlotRec where
  slotId : ℕ
  slotNameTemplate : Varchar50
  slotIndex : Option Int4
  parentSlotName : Option Varchar50
  parentSlotIndex : Option Int4

def slotRec (t : NameTables) (s : SlotRow) : Option SlotRec := do
  let st ← t.template s.componentTypeSlotTemplateId
  let c ← t.component.find? (·.componentId = s.componentId)
  let ps := c.parentSlotId.bind fun q => t.slotOf (some q)
  let pst := ps.bind fun ps => ps.componentTypeSlotTemplateId.bind fun q => t.template (some q)
  let childTemplate := pst.bind (·.childSlotNameTemplate)
  if HasPlaceholder st.slotNameTemplate ∨ ∃ child ∈ childTemplate, HasPlaceholder child then
    some ⟨s.slotId, childTemplate.getD st.slotNameTemplate, st.slotIndex, ps.map (·.slotName),
      pst.bind (·.slotIndex)⟩
  else none

/-- `regexp_replace` when there is a value. -/
def fill (word : String) (value : Option (List Char)) (sn : List Char) : List Char :=
  match value with
  | some text => replaceAll (placeholder word) text 0 sn
  | none => sn

/-- `slot_rec.parent_slot_index + slot_rec.slot_index`, when both are there. -/
def relativeIndex (r : SlotRec) : Result (Option Int4) :=
  match r.parentSlotIndex, r.slotIndex with
  | some p, some i => do
    let sum ← p.add i
    .ok (some sum)
  | _, _ => .ok none

/-- The body of the loop up to the update. -/
def generate (r : SlotRec) : Result Varchar50 := do
  let sn := fill "slot_index" (r.slotIndex.map Int4.text) r.slotNameTemplate.chars
  let sn := fill "parent_slot_index" (r.parentSlotIndex.map Int4.text) sn
  let relative ← relativeIndex r
  let sn := fill "relative_slot_index" (relative.map Int4.text) sn
  let sn := fill "parent_slot_name" (r.parentSlotName.map Varchar50.chars) sn
  Varchar50.assign sn

/-- `UPDATE slot SET slot_name = sn WHERE slot_id = slot_rec.slot_id`. -/
def setSlotName (slotId : ℕ) (sn : Varchar50) (slot : List SlotRow) : List SlotRow :=
  slot.map fun s => if s.slotId = slotId then { s with slotName := sn } else s

/-- `component_manip.set_slot_names(slot_id_list)`: the rows are those of the tables at its start. -/
def setSlotNames (t : NameTables) (slotIdList : List ℕ) : Result (List SlotRow) :=
  ((t.slot.filter (·.slotId ∈ slotIdList)).filterMap (slotRec t)).foldlM (fun slot r => do
    let sn ← generate r
    .ok (setSlotName r.slotId sn slot)) t.slot

/-! ## What the function does -/

variable {t : NameTables} {s : SlotRow} {r : SlotRec} {slotIdList : List ℕ} {slot slot' : List SlotRow}

/-- The name that is made, when there is one. -/
def nameOr (name : Varchar50) (r : SlotRec) : Varchar50 := (generate r).toOption.getD name

theorem nameOr_of_generate {name sn : Varchar50} (h : generate r = .ok sn) : nameOr name r = sn := by
  rw [nameOr, h]
  rfl

def renamed (t : NameTables) (slotIdList : List ℕ) (s : SlotRow) : SlotRow :=
  match if s.slotId ∈ slotIdList then slotRec t s else none with
  | some r => { s with slotName := nameOr s.slotName r }
  | none => s

/-- The names that the loop makes of some rows are all short enough. -/
def AllGenerate (t : NameTables) (slotIdList : List ℕ) : Prop :=
  ∀ s ∈ t.slot, s.slotId ∈ slotIdList → ∀ r ∈ slotRec t s, ∃ sn, generate r = .ok sn

theorem slotId_of_slotRec (h : slotRec t s = some r) : r.slotId = s.slotId := by
  simp only [slotRec, Option.bind_eq_bind, Option.bind_eq_some_iff] at h
  obtain ⟨st, -, c, -, h⟩ := h
  split at h
  · rw [← Option.some_inj.mp h]
  · cases h

/-- The updates of a slot, one after the other. -/
def applyRecs (rs : List SlotRec) (s : SlotRow) : SlotRow :=
  rs.foldl (fun s r => if s.slotId = r.slotId then { s with slotName := nameOr s.slotName r } else s) s

theorem applyRecs_cons (rs : List SlotRec) : applyRecs (r :: rs) s =
    applyRecs rs (if s.slotId = r.slotId then { s with slotName := nameOr s.slotName r } else s) := rfl

theorem applyRecs_of_ne {rs : List SlotRec} (h : ∀ r ∈ rs, r.slotId ≠ s.slotId) :
    applyRecs rs s = s := by
  induction rs with
  | nil => rfl
  | cons r rs ih =>
    rw [applyRecs_cons, if_neg (h r List.mem_cons_self).symm]
    exact ih fun q hq => h q (List.mem_cons_of_mem _ hq)

theorem applyRecs_of_eq {rs : List SlotRec} {sn : Varchar50}
    (h : ∀ r ∈ rs, r.slotId = s.slotId → generate r = .ok sn)
    (hex : ∃ r ∈ rs, r.slotId = s.slotId) : applyRecs rs s = { s with slotName := sn } := by
  induction rs generalizing s with
  | nil => simp at hex
  | cons r rs ih =>
    rw [applyRecs_cons]
    have hrest : ∀ q ∈ rs, q.slotId = s.slotId → generate q = .ok sn :=
      fun q hq => h q (List.mem_cons_of_mem _ hq)
    by_cases hr : s.slotId = r.slotId
    · rw [if_pos hr, nameOr_of_generate (h r List.mem_cons_self hr.symm)]
      by_cases hlater : ∃ q ∈ rs, q.slotId = s.slotId
      · exact ih (s := { s with slotName := sn }) hrest hlater
      · exact applyRecs_of_ne fun q hq hid => hlater ⟨q, hq, hid⟩
    · rw [if_neg hr]
      obtain ⟨q, hq, hid⟩ := hex
      rcases List.mem_cons.mp hq with rfl | hq
      · exact absurd hid.symm hr
      · exact ih hrest ⟨q, hq, hid⟩

theorem foldlM_setSlotName {rs : List SlotRec} : rs.foldlM (fun slot r => do
      let sn ← generate r
      .ok (setSlotName r.slotId sn slot)) slot = .ok slot' ↔
    (∀ r ∈ rs, ∃ sn, generate r = .ok sn) ∧ slot' = slot.map (applyRecs rs) := by
  induction rs generalizing slot with
  | nil =>
    have hmap : slot.map (applyRecs []) = slot := List.map_id slot
    rw [hmap]
    exact ⟨fun h => ⟨fun r hr => absurd hr List.not_mem_nil, (Except.ok.inj h).symm⟩,
      fun h => congrArg _ h.2.symm⟩
  | cons r rs ih =>
    have hstep {sn : Varchar50} (hsn : generate r = .ok sn) :
        (setSlotName r.slotId sn slot).map (applyRecs rs) = slot.map (applyRecs (r :: rs)) := by
      rw [setSlotName, List.map_map]
      refine List.map_congr_left fun s _ => ?_
      rw [applyRecs_cons, nameOr_of_generate hsn]
      rfl
    rw [List.foldlM_cons, bind_eq_ok]
    constructor
    · rintro ⟨slot₁, hfirst, hrest⟩
      obtain ⟨sn, hsn, hfirst⟩ := bind_eq_ok.mp hfirst
      obtain rfl := Except.ok.inj hfirst
      obtain ⟨hall, rfl⟩ := ih.mp hrest
      exact ⟨List.forall_mem_cons.mpr ⟨⟨sn, hsn⟩, hall⟩, hstep hsn⟩
    · rintro ⟨hall, rfl⟩
      obtain ⟨⟨sn, hsn⟩, hall⟩ := List.forall_mem_cons.mp hall
      exact ⟨_, bind_eq_ok.mpr ⟨sn, hsn, rfl⟩, ih.mpr ⟨hall, (hstep hsn).symm⟩⟩

/-- **`set_slot_names`** gives every slot of the list that has a placeholder the name made for it. -/
theorem setSlotNames_ok_iff (hslot : (t.slot.map fun s => s.slotId).Nodup) :
    setSlotNames t slotIdList = .ok slot' ↔
      AllGenerate t slotIdList ∧ slot' = t.slot.map (renamed t slotIdList) := by
  set rs := (t.slot.filter (·.slotId ∈ slotIdList)).filterMap (slotRec t) with hrs
  have hmem (r : SlotRec) : r ∈ rs ↔ ∃ s ∈ t.slot, s.slotId ∈ slotIdList ∧ slotRec t s = some r := by
    simp only [hrs, List.mem_filterMap, List.mem_filter, decide_eq_true_eq, and_assoc]
  have hall : (∀ r ∈ rs, ∃ sn, generate r = .ok sn) ↔ AllGenerate t slotIdList := by
    constructor
    · intro h s hs hid r hr
      exact h r ((hmem r).mpr ⟨s, hs, hid, hr⟩)
    · intro h r hr
      obtain ⟨s, hs, hid, hr⟩ := (hmem r).mp hr
      exact h s hs hid r hr
  rw [setSlotNames, foldlM_setSlotName, hall]
  refine and_congr_right fun hgen => ?_
  have hmap : t.slot.map (applyRecs rs) = t.slot.map (renamed t slotIdList) := by
    refine List.map_congr_left fun s hs => ?_
    have hown {q : SlotRec} (hq : q ∈ rs) (hid : q.slotId = s.slotId) :
        s.slotId ∈ slotIdList ∧ slotRec t s = some q := by
      obtain ⟨s', hs', hin, hrec⟩ := (hmem q).mp hq
      obtain rfl := List.inj_on_of_nodup_map hslot hs' hs ((slotId_of_slotRec hrec).symm.trans hid)
      exact ⟨hin, hrec⟩
    rw [renamed]
    cases hcase : (if s.slotId ∈ slotIdList then slotRec t s else none) with
    | none =>
      refine applyRecs_of_ne fun q hq hid => ?_
      obtain ⟨hin, hrec⟩ := hown hq hid
      rw [if_pos hin, hrec] at hcase
      cases hcase
    | some r =>
      by_cases hin : s.slotId ∈ slotIdList
      · rw [if_pos hin] at hcase
        obtain ⟨sn, hsn⟩ := hgen s hs hin r hcase
        show _ = { s with slotName := nameOr s.slotName r }
        rw [nameOr_of_generate hsn]
        refine applyRecs_of_eq (fun q hq hid => ?_)
          ⟨r, (hmem r).mpr ⟨s, hs, hin, hcase⟩, slotId_of_slotRec hcase⟩
        obtain ⟨-, hrec⟩ := hown hq hid
        rw [← Option.some_inj.mp (hcase.symm.trans hrec), hsn]
      · rw [if_neg hin] at hcase
        cases hcase
  rw [hmap]

/-! ## Names without a parent -/

theorem expand_of_notMem {matched rep : List Char} (h : '\\' ∉ rep) : expand matched rep = rep := by
  induction rep with
  | nil => rfl
  | cons c l ih =>
    rw [List.mem_cons, not_or] at h
    cases l with
    | nil => rfl
    | cons d l => rw [expand, if_neg (Ne.symm h.1), ih h.2]

theorem length_replaceAll_le {pattern rep : List Char}
    (h : (expand pattern rep).length ≤ pattern.length) (k : ℕ) (l : List Char) :
    (replaceAll pattern rep k l).length ≤ l.length - k := by
  induction l generalizing k with
  | nil => cases k <;> exact Nat.zero_le _
  | cons c l ih =>
    cases k with
    | succ k =>
      rw [replaceAll, List.length_cons, Nat.add_sub_add_right]
      exact ih k
    | zero =>
      rw [replaceAll]
      split
      next hpre =>
        have hlen := (List.isPrefixOf_iff_prefix.mp hpre).length_le
        have hrest := ih (pattern.length - 1)
        rw [List.length_append]
        rw [List.length_cons] at hlen ⊢
        omega
      next =>
        have hrest := ih 0
        rw [List.length_cons, List.length_cons]
        omega

theorem backslash_notMem_text (a : Int4) : '\\' ∉ a.text := by
  have hdigits : '\\' ∉ Nat.toDigits 10 a.val.natAbs :=
    Numeral.notMem_toDigits (by decide) (by decide)
  rw [Int4.text, Numeral.signed]
  split
  · simpa using hdigits
  · exact hdigits

theorem length_fill_le (i : Option Int4) (l : List Char) :
    (fill "slot_index" (i.map Int4.text) l).length ≤ l.length := by
  cases i with
  | none => exact le_rfl
  | some i =>
    refine (length_replaceAll_le ?_ 0 l).trans (Nat.sub_le _ _)
    rw [expand_of_notMem (backslash_notMem_text i)]
    exact i.length_text_le.trans (by decide)

theorem generate_without_parent (hname : r.parentSlotName = none) (hindex : r.parentSlotIndex = none) :
    ∃ sn, generate r = .ok sn := by
  have hlen := (length_fill_le r.slotIndex r.slotNameTemplate.chars).trans r.slotNameTemplate.length_le
  refine ⟨⟨_, hlen⟩, ?_⟩
  rw [generate, hname, hindex, relativeIndex, hindex]
  exact Varchar50.assign_of_le hlen

/-- The row of the query for a slot of a component that sits nowhere. -/
def aloneRec (t : NameTables) (s : SlotRow) : Option SlotRec := do
  let st ← t.template s.componentTypeSlotTemplateId
  if HasPlaceholder st.slotNameTemplate then
    some ⟨s.slotId, st.slotNameTemplate, st.slotIndex, none, none⟩
  else none

/-- The name of a slot of a component that sits nowhere. -/
def nameAlone (t : NameTables) (s : SlotRow) : Varchar50 :=
  ((aloneRec t s).map (nameOr s.slotName)).getD s.slotName

theorem slotRec_of_root {c : ComponentRow}
    (hfind : t.component.find? (·.componentId = s.componentId) = some c)
    (hc : c.parentSlotId = none) : slotRec t s = aloneRec t s := by
  simp [slotRec, aloneRec, hfind, hc]

theorem generate_aloneRec (h : aloneRec t s = some r) : ∃ sn, generate r = .ok sn := by
  rw [aloneRec, Option.bind_eq_bind, Option.bind_eq_some_iff] at h
  obtain ⟨st, -, h⟩ := h
  split at h
  · obtain rfl := Option.some_inj.mp h
    exact generate_without_parent rfl rfl
  · cases h

/-- The row of the query for a slot of a component that sits in a slot. -/
def recIn (t : NameTables) (s ps : SlotRow) : Option SlotRec := do
  let st ← t.template s.componentTypeSlotTemplateId
  let pst := ps.componentTypeSlotTemplateId.bind fun q => t.template (some q)
  let childTemplate := pst.bind (·.childSlotNameTemplate)
  if HasPlaceholder st.slotNameTemplate ∨ ∃ child ∈ childTemplate, HasPlaceholder child then
    some ⟨s.slotId, childTemplate.getD st.slotNameTemplate, st.slotIndex, some ps.slotName,
      pst.bind (·.slotIndex)⟩
  else none

theorem slotRec_of_parent {c : ComponentRow} {ps : SlotRow} {q : ℕ}
    (hfind : t.component.find? (·.componentId = s.componentId) = some c)
    (hc : c.parentSlotId = some q) (hps : t.slotOf (some q) = some ps) :
    slotRec t s = recIn t s ps := by
  simp [slotRec, recIn, hfind, hc, hps]

/-! ## The slots of one component -/

section OneComponent

variable {x : ℕ} (hslot : (t.slot.map fun s => s.slotId).Nodup)

include hslot

theorem mem_slotIds (hs : s ∈ t.slot) :
    s.slotId ∈ (t.slot.filter (·.componentId = x)).map (fun s => s.slotId) ↔ s.componentId = x := by
  rw [List.mem_map]
  constructor
  · rintro ⟨s', hs', hid⟩
    obtain ⟨hs', hx⟩ := List.mem_filter.mp hs'
    rw [← List.inj_on_of_nodup_map hslot hs' hs hid]
    exact of_decide_eq_true hx
  · intro hx
    exact ⟨s, List.mem_filter.mpr ⟨hs, decide_eq_true hx⟩, rfl⟩

theorem allGenerate_iff : AllGenerate t ((t.slot.filter (·.componentId = x)).map fun s => s.slotId) ↔
    ∀ s ∈ t.slot, s.componentId = x → ∀ r ∈ slotRec t s, ∃ sn, generate r = .ok sn :=
  forall₂_congr fun s hs => by rw [mem_slotIds hslot hs]

theorem renamed_of_ne (hs : s ∈ t.slot) (hx : s.componentId ≠ x) :
    renamed t ((t.slot.filter (·.componentId = x)).map fun s => s.slotId) s = s := by
  rw [renamed, if_neg fun h => hx ((mem_slotIds hslot hs).mp h)]

theorem setSlotNames_of_root {c : ComponentRow}
    (hfind : t.component.find? (·.componentId = x) = some c) (hc : c.parentSlotId = none) :
    setSlotNames t ((t.slot.filter (·.componentId = x)).map fun s => s.slotId) =
      .ok (t.slot.map fun s =>
        if s.componentId = x then { s with slotName := nameAlone t s } else s) := by
  have hrec {s : SlotRow} (hx : s.componentId = x) : slotRec t s = aloneRec t s :=
    slotRec_of_root (hx ▸ hfind) hc
  refine (setSlotNames_ok_iff hslot).mpr ⟨(allGenerate_iff hslot).mpr fun s hs hx r hr => ?_, ?_⟩
  · rw [hrec hx] at hr
    exact generate_aloneRec hr
  · refine List.map_congr_left fun s hs => ?_
    by_cases hx : s.componentId = x
    · rw [renamed, if_pos hx, if_pos ((mem_slotIds hslot hs).mpr hx), hrec hx, nameAlone]
      cases aloneRec t s <;> rfl
    · rw [if_neg hx, renamed_of_ne hslot hs hx]

end OneComponent

@[simp] theorem slotId_renamed : (renamed t slotIdList s).slotId = s.slotId := by
  rw [renamed]
  split <;> rfl

@[simp] theorem componentId_renamed : (renamed t slotIdList s).componentId = s.componentId := by
  rw [renamed]
  split <;> rfl

end JazzHands.Component

import JazzHands.Component.RemoveHier

/-!
# What `remove_component_hier` leaves

The steps of the function are followed in turn, each with the condition under which it goes through;
`removeComponentHier_ok_iff` puts the conditions together.  What is left is compared with `Removed`,
component by component and slot by slot, which gives `removed_iff`.
-/

namespace JazzHands.Component
namespace RemoveHier

open Components (HierRow cacheComponentParentHandler leaveParent IsPath componentIds)
open Library Postgres
open Relation (ReflTransGen)

variable {db db' : Db} {cid x y : ℕ} {reallyDelete : Bool} {s : SlotRow} {c : ComponentRow}
  {E E' : ℕ → ℕ → Prop} {ct : List HierRow} {list : List ℕ}

/-! ## The tree -/

namespace Db

def ids (db : Db) : List ℕ := componentIds db.components

/-- The component `x` sits in a slot of the component `y`. -/
def Up (db : Db) : ℕ → ℕ → Prop := Components.Up db.components db.slots

theorem mem_ids : x ∈ db.ids ↔ ∃ c ∈ db.component, c.componentId = x := by
  simp only [ids, componentIds, components, List.map_map, List.mem_map, Function.comp_apply]

end Db

/-- The component is `cid`, or sits in it, or in what sits in it, and so on. -/
structure InTree (db : Db) (cid x : ℕ) : Prop where
  mem : x ∈ db.ids
  below : ReflTransGen db.Up x cid

/-- The component has an asset with a serial number. -/
def HasSerial (db : Db) (x : ℕ) : Prop :=
  ∃ a ∈ db.asset, a.componentId = some x ∧ a.serialNumber ≠ none

/-- The component is to be removed. -/
def Goes (db : Db) (cid : ℕ) (reallyDelete : Bool) (x : ℕ) : Prop :=
  InTree db cid x ∧ (reallyDelete = false → ¬ HasSerial db x)

/-- There is a row for each path, and besides these there are rows of components that are gone. -/
structure Cached (ids : List ℕ) (E : ℕ → ℕ → Prop) (ct : List HierRow) : Prop where
  complete : ∀ r, IsPath ids E r → r ∈ ct
  only : ∀ r ∈ ct, IsPath ids E r ∨ ∃ n, n ∉ ids ∧ r = .self n

/-- The keys hold, the components are a forest, and the cache has its rows. -/
structure Sound (db : Db) : Prop where
  valid : Components.Valid db.components db.slots
  acyclic : Acyclic db.Up
  assetKey : ∀ a ∈ db.asset, ∀ b ∈ db.asset, ∀ i, a.componentId = some i → b.componentId = some i →
    a = b
  assetOwners : ∀ a ∈ db.asset, ∀ i ∈ a.componentId, i ∈ db.ids
  propertyOwners : ∀ cp ∈ db.componentProperty, ∀ i ∈ cp.componentId, i ∈ db.ids
  cached : Cached db.ids db.Up db.ctComponentHier

/-- A slot of the connection is one of the tree. -/
def TouchesTree (db : Db) (cid : ℕ) (ic : Connection) : Prop :=
  ∃ s ∈ db.slot, InTree db cid s.componentId ∧ (s.slotId = ic.slot1Id ∨ s.slotId = ic.slot2Id)

/-- The property is one of a component that goes, or of a slot of such a component. -/
def PropertyGoes (db : Db) (cid : ℕ) (reallyDelete : Bool) (cp : ComponentProperty) : Prop :=
  (∃ i ∈ cp.componentId, Goes db cid reallyDelete i) ∨
    ∃ s ∈ db.slot, cp.slotId = some s.slotId ∧ Goes db cid reallyDelete s.componentId

/-- The components that are to go are gone with what is theirs, the others of the tree are on their
own, the connections of the tree are gone, and all else is as it was. -/
structure Removed (db : Db) (cid : ℕ) (reallyDelete : Bool) (db' : Db) : Prop where
  component : ∀ c', c' ∈ db'.component ↔ ∃ c ∈ db.component, ¬ Goes db cid reallyDelete c.componentId ∧
    ((InTree db cid c.componentId ∧ c' = alone c) ∨ (¬ InTree db cid c.componentId ∧ c' = c))
  slot : ∀ s, s ∈ db'.slot ↔ s ∈ db.slot ∧ ¬ Goes db cid reallyDelete s.componentId
  asset : ∀ a, a ∈ db'.asset ↔ a ∈ db.asset ∧ ¬ ∃ i ∈ a.componentId, Goes db cid reallyDelete i
  property : ∀ cp, cp ∈ db'.componentProperty ↔
    cp ∈ db.componentProperty ∧ ¬ PropertyGoes db cid reallyDelete cp
  connection : ∀ ic, ic ∈ db'.interComponentConnection ↔
    ic ∈ db.interComponentConnection ∧ ¬ TouchesTree db cid ic
  template : db'.componentTypeSlotTemplate = db.componentTypeSlotTemplate
  componentRefs : db'.componentRefs = db.componentRefs
  slotRefs : db'.slotRefs = db.slotRefs
  sound : Sound db'

/-! ## The lists -/

theorem Sound.owner_mem (h : Sound db) (hs : s ∈ db.slot) : s.componentId ∈ db.ids :=
  h.valid.owners (cachedSlot s) (List.mem_map_of_mem hs)

theorem Sound.mem_children (h : Sound db) (hx : x ∈ db.ids) :
    (∃ r ∈ hierOf db cid, r.childComponentId = x) ↔ InTree db cid x := by
  constructor
  · rintro ⟨r, hr, rfl⟩
    obtain ⟨hr, hroot⟩ := List.mem_filter.mp hr
    rcases h.cached.only r hr with hpath | ⟨n, hn, rfl⟩
    · rw [← of_decide_eq_true hroot]
      exact ⟨hx, hpath.ascends.reflTransGen⟩
    · exact absurd hx hn
  · rintro ⟨-, hbelow⟩
    obtain ⟨l, hl⟩ := exists_ascends_iff.mpr hbelow
    have hmem := h.cached.complete ⟨cid, x, l, l.length⟩ ⟨hl, hx, rfl⟩
    exact ⟨_, List.mem_filter.mpr ⟨hmem, decide_eq_true rfl⟩, rfl⟩

theorem Sound.mem_slotList (h : Sound db) (hs : s ∈ db.slot) :
    s.slotId ∈ slotList db cid ↔ InTree db cid s.componentId := by
  rw [← h.mem_children (h.owner_mem hs), slotList]
  simp only [List.mem_flatMap, List.mem_map, List.mem_filter, decide_eq_true_eq]
  constructor
  · rintro ⟨r, hr, t, ⟨ht, howner⟩, hid⟩
    have hst := h.valid.eq_of_slotId (List.mem_map_of_mem ht) (List.mem_map_of_mem hs) hid
    exact ⟨r, hr, howner.symm.trans (congrArg (·.componentId) hst)⟩
  · rintro ⟨r, hr, hchild⟩
    exact ⟨r, hr, s, ⟨hs, hchild.symm⟩, rfl⟩

theorem exists_of_mem_slotList {q : ℕ} (hq : q ∈ slotList db cid) : ∃ s ∈ db.slot, s.slotId = q := by
  simp only [slotList, List.mem_flatMap, List.mem_map, List.mem_filter] at hq
  obtain ⟨-, -, s, ⟨hs, -⟩, hid⟩ := hq
  exact ⟨s, hs, hid⟩

theorem Sound.mem_serialNumbers (h : Sound db) :
    (none ∈ serialNumbers db x ↔ ¬ HasSerial db x) ∧
      ((∃ n ∈ serialNumbers db x, n ≠ none) ↔ HasSerial db x) := by
  have hmem (a : Asset) : a ∈ db.asset.filter (·.componentId = some x) ↔
      a ∈ db.asset ∧ a.componentId = some x := by
    rw [List.mem_filter, decide_eq_true_eq]
  rw [serialNumbers]
  by_cases hnil : db.asset.filter (·.componentId = some x) = []
  · have hno : ¬ HasSerial db x := by
      rintro ⟨a, ha, hid, -⟩
      have hmem' := (hmem a).mpr ⟨ha, hid⟩
      rw [hnil] at hmem'
      exact List.not_mem_nil hmem'
    rw [if_pos hnil]
    refine ⟨iff_of_true List.mem_cons_self hno, iff_of_false ?_ hno⟩
    rintro ⟨n, hn, hne⟩
    exact hne (List.mem_singleton.mp hn)
  · rw [if_neg hnil]
    obtain ⟨a, ha⟩ := List.exists_mem_of_ne_nil _ hnil
    obtain ⟨haset, haid⟩ := (hmem a).mp ha
    have hone {b : Asset} (hb : b ∈ db.asset) (hid : b.componentId = some x) : b = a :=
      h.assetKey b hb a haset x hid haid
    have hserial : HasSerial db x ↔ a.serialNumber ≠ none := by
      constructor
      · rintro ⟨b, hb, hid, hne⟩
        exact hone hb hid ▸ hne
      · intro hne
        exact ⟨a, haset, haid, hne⟩
    have hlist (n : Option String) :
        n ∈ (db.asset.filter (·.componentId = some x)).map (·.serialNumber) ↔
          n = a.serialNumber := by
      rw [List.mem_map]
      constructor
      · rintro ⟨b, hb, rfl⟩
        rw [hone ((hmem b).mp hb).1 ((hmem b).mp hb).2]
      · rintro rfl
        exact ⟨a, ha, rfl⟩
    rw [hserial, hlist]
    refine ⟨by rw [not_not, eq_comm], ?_⟩
    constructor
    · rintro ⟨n, hn, hne⟩
      exact (hlist n).mp hn ▸ hne
    · intro hne
      exact ⟨_, (hlist _).mpr rfl, hne⟩

theorem Sound.mem_deleteList (h : Sound db) (hx : x ∈ db.ids) :
    x ∈ deleteList db cid reallyDelete ↔ Goes db cid reallyDelete x := by
  rw [Goes, ← h.mem_children hx, deleteList]
  cases reallyDelete with
  | true => simp
  | false =>
    rw [← h.mem_serialNumbers.1]
    simp only [Bool.false_eq_true, if_false, List.mem_flatMap, List.mem_map, List.mem_filter,
      decide_eq_true_eq, true_imp_iff]
    constructor
    · rintro ⟨r, hr, n, ⟨hn, rfl⟩, rfl⟩
      exact ⟨⟨r, hr, rfl⟩, hn⟩
    · rintro ⟨⟨r, hr, rfl⟩, hn⟩
      exact ⟨r, hr, none, ⟨hn, rfl⟩, rfl⟩

theorem Sound.mem_lists (h : Sound db) (hx : x ∈ db.ids) :
    x ∈ deleteList db cid reallyDelete ++ shelfList db cid reallyDelete ↔ InTree db cid x := by
  rw [List.mem_append, h.mem_deleteList hx, shelfList, Goes]
  cases reallyDelete with
  | true => simp
  | false =>
    have hshelf : x ∈ (hierOf db cid).flatMap (fun r =>
        ((serialNumbers db r.childComponentId).filter (· ≠ none)).map fun _ => r.childComponentId) ↔
        InTree db cid x ∧ HasSerial db x := by
      rw [← h.mem_children hx, ← h.mem_serialNumbers.2]
      simp only [List.mem_flatMap, List.mem_map, List.mem_filter, decide_eq_true_eq]
      constructor
      · rintro ⟨r, hr, n, hn, rfl⟩
        exact ⟨⟨r, hr, rfl⟩, n, hn⟩
      · rintro ⟨⟨r, hr, rfl⟩, n, hn⟩
        exact ⟨r, hr, n, hn, rfl⟩
    rw [if_neg Bool.false_ne_true, hshelf]
    tauto

/-! ## The cache -/

variable {ids : List ℕ} {l component : List ComponentRow} {t : NameTables}

theorem Cached.of_holds (h : Components.Holds ids E ct) : Cached ids E ct :=
  ⟨fun r hr => (h.mem r).mpr hr, fun r hr => Or.inl ((h.mem r).mp hr)⟩

theorem Cached.leaveParent {old : Components.Component} (h : Cached ids E ct) (hE : Acyclic E)
    (hroot : Rooted E E' old.componentId) (hold : old.parentSlotId ≠ none) :
    Cached ids E' (Components.leaveParent ct old) := by
  rw [Components.leaveParent, if_pos hold]
  have hpath (r : HierRow) : IsPath ids E' r ↔
      IsPath ids E r ∧ (old.componentId ∈ r.componentPath → r.componentId = old.componentId) := by
    constructor
    · intro hr
      obtain ⟨ha, hn⟩ := (Ascends.rooted_iff hroot hE).mp hr.ascends
      exact ⟨⟨ha, hr.mem, hr.level⟩, hn⟩
    · rintro ⟨hr, hn⟩
      exact ⟨(Ascends.rooted_iff hroot hE).mpr ⟨hr.ascends, hn⟩, hr.mem, hr.level⟩
  constructor
  · intro r hr
    obtain ⟨hr, hn⟩ := (hpath r).mp hr
    exact List.mem_filter.mpr ⟨h.complete r hr, decide_eq_true fun hnot => hnot.2 (hn hnot.1)⟩
  · intro r hr
    obtain ⟨hr, hnot⟩ := List.mem_filter.mp hr
    rcases h.only r hr with hr | hgone
    · refine Or.inl ((hpath r).mpr ⟨hr, fun hn => ?_⟩)
      by_contra hne
      exact of_decide_eq_true hnot ⟨hn, hne⟩
    · exact Or.inr hgone

/-- The cache after the components of a list have left their parents. -/
def leftParents (l : List ComponentRow) (ct : List HierRow) : List HierRow :=
  l.foldl (fun ct old => leaveParent ct old.toComponent) ct

theorem Cached.leftParents (h : Cached ids E ct) (hE : Acyclic E)
    (hl : ∀ c ∈ l, c.parentSlotId ≠ none) :
    Cached ids (fun x y => E x y ∧ ∀ c ∈ l, c.componentId ≠ x) (leftParents l ct) := by
  induction l generalizing E ct with
  | nil =>
    have hsame : (fun x y => E x y ∧ ∀ c ∈ ([] : List ComponentRow), c.componentId ≠ x) = E := by
      funext x y
      simp
    rw [hsame]
    exact h
  | cons c l ih =>
    have hroot : Rooted E (fun x y => E x y ∧ x ≠ c.componentId) c.componentId := fun _ _ => Iff.rfl
    have hstep := ih (h.leaveParent hE hroot (hl c List.mem_cons_self)) (hroot.acyclic hE)
      fun d hd => hl d (List.mem_cons_of_mem _ hd)
    have hsame : (fun x y => E x y ∧ ∀ d ∈ c :: l, d.componentId ≠ x) =
        fun x y => (E x y ∧ x ≠ c.componentId) ∧ ∀ d ∈ l, d.componentId ≠ x := by
      funext x y
      rw [List.forall_mem_cons, and_assoc, ne_comm (a := x)]
    rw [hsame]
    exact hstep

/-! ## The components that leave their parents -/

/-- A slot with the name it has when its component sits nowhere. -/
def renamedAlone (t : NameTables) (s : SlotRow) : SlotRow := { s with slotName := nameAlone t s }

/-- The slots after the components of some ids have left their parents. -/
def renamedSlots (t : NameTables) (ids : List ℕ) : List SlotRow :=
  t.slot.map fun s => if s.componentId ∈ ids then renamedAlone t s else s

theorem renamedSlots_cons (hx : x ∉ ids) :
    renamedSlots { t with slot := renamedSlots t [x] } ids = renamedSlots t (x :: ids) := by
  rw [renamedSlots, renamedSlots, renamedSlots, List.map_map]
  refine List.map_congr_left fun s _ => ?_
  rw [Function.comp_apply]
  by_cases hs : s.componentId = x
  · have hinner : (if s.componentId ∈ [x] then renamedAlone t s else s) = renamedAlone t s :=
      if_pos (List.mem_singleton.mpr hs)
    have houter : s.componentId ∈ x :: ids := hs ▸ List.mem_cons_self
    have hrest : ¬ (renamedAlone t s).componentId ∈ ids := by rwa [renamedAlone, hs]
    rw [hinner, if_pos houter, if_neg hrest]
  · have hinner : (if s.componentId ∈ [x] then renamedAlone t s else s) = s :=
      if_neg fun h => hs (List.mem_singleton.mp h)
    rw [hinner]
    simp only [List.mem_cons, hs, false_or]
    rfl

theorem afterLeaving_ok (hslot : (db.slot.map fun s => s.slotId).Nodup) {old : ComponentRow}
    (hfind : db.component.find? (·.componentId = old.componentId) = some c)
    (hc : c.parentSlotId = none) :
    afterLeaving db old = .ok { db with
      ctComponentHier := leaveParent db.ctComponentHier old.toComponent
      slot := renamedSlots db.toNameTables [old.componentId] } := by
  have hnames := setSlotNames_of_root hslot hfind hc
  rw [afterLeaving, hnames]
  simp only [renamedSlots, List.mem_singleton]
  rfl

theorem foldlM_afterLeaving (hslot : (db.slot.map fun s => s.slotId).Nodup)
    (hl : (l.map fun c => c.componentId).Nodup)
    (hroot : ∀ old ∈ l, ∃ c, db.component.find? (·.componentId = old.componentId) = some c ∧
      c.parentSlotId = none) :
    l.foldlM afterLeaving db = .ok { db with
      ctComponentHier := leftParents l db.ctComponentHier
      slot := renamedSlots db.toNameTables (l.map fun c => c.componentId) } := by
  induction l generalizing db with
  | nil =>
    have hsame : renamedSlots db.toNameTables [] = db.slot := by
      simp [renamedSlots]
    rw [List.map_nil, hsame]
    rfl
  | cons old l ih =>
    obtain ⟨c, hfind, hc⟩ := hroot old List.mem_cons_self
    rw [List.map_cons, List.nodup_cons] at hl
    rw [List.foldlM_cons, afterLeaving_ok hslot hfind hc]
    have hslot' : ((renamedSlots db.toNameTables [old.componentId]).map fun s => s.slotId).Nodup := by
      rw [renamedSlots, List.map_map]
      convert hslot using 1
      refine List.map_congr_left fun s _ => ?_
      rw [Function.comp_apply]
      split <;> rfl
    refine (@ih { db with
      ctComponentHier := leaveParent db.ctComponentHier old.toComponent
      slot := renamedSlots db.toNameTables [old.componentId] } hslot' hl.2
        fun d hd => hroot d (List.mem_cons_of_mem _ hd)).trans ?_
    rw [List.map_cons, ← renamedSlots_cons hl.1]
    rfl

/-- The components with those of a list on their own. -/
def leftComponents (list : List ℕ) (component : List ComponentRow) : List ComponentRow :=
  component.map fun c => if Leaves list c then alone c else c

theorem mem_leftComponents {c' : ComponentRow} :
    c' ∈ leftComponents list component ↔ ∃ c ∈ component,
      (c.componentId ∈ list ∧ c' = alone c) ∨ (c.componentId ∉ list ∧ c' = c) := by
  have halone {c : ComponentRow} (hp : c.parentSlotId = none) : alone c = c := by
    obtain ⟨⟨_, p⟩, _⟩ := c
    obtain rfl : p = none := hp
    rfl
  rw [leftComponents, List.mem_map]
  refine exists_congr fun c => and_congr_right fun _ => ?_
  by_cases hin : c.componentId ∈ list
  · rw [or_iff_left fun h => h.1 hin, and_iff_right hin]
    by_cases hp : c.parentSlotId = none
    · rw [if_neg fun h : Leaves list c => h.2 hp, halone hp, eq_comm]
    · rw [if_pos (show Leaves list c from ⟨hin, hp⟩), eq_comm]
  · rw [or_iff_right fun h => hin h.1, and_iff_right hin, if_neg fun h : Leaves list c => hin h.1,
      eq_comm]

@[simp] theorem ids_leftComponents :
    (leftComponents list component).map (fun c => c.componentId) =
      component.map fun c => c.componentId := by
  rw [leftComponents, List.map_map]
  refine List.map_congr_left fun c _ => ?_
  rw [Function.comp_apply]
  split <;> rfl

@[simp] theorem ids_renamedSlots :
    (renamedSlots t ids).map (fun s => s.slotId) = t.slot.map fun s => s.slotId := by
  rw [renamedSlots, List.map_map]
  refine List.map_congr_left fun s _ => ?_
  rw [Function.comp_apply]
  split <;> rfl

theorem leaveParents_ok (hcomponent : (db.component.map fun c => c.componentId).Nodup)
    (hslot : (db.slot.map fun s => s.slotId).Nodup) :
    leaveParents list db = .ok { db with
      component := leftComponents list db.component
      ctComponentHier := leftParents (db.component.filter (Leaves list ·)) db.ctComponentHier
      slot := renamedSlots db.toNameTables
        ((db.component.filter (Leaves list ·)).map fun c => c.componentId) } := by
  rw [leaveParents]
  refine foldlM_afterLeaving hslot (hcomponent.sublist (List.filter_sublist.map _)) fun old hold => ?_
  obtain ⟨hold, hleaves⟩ := List.mem_filter.mp hold
  have hnew : alone old ∈ leftComponents list db.component :=
    mem_leftComponents.mpr ⟨old, hold, Or.inl ⟨(of_decide_eq_true hleaves).1, rfl⟩⟩
  have hkey : ((leftComponents list db.component).map fun c => c.componentId).Nodup := by
    rwa [ids_leftComponents]
  exact ⟨alone old, Library.find?_key hkey hnew, rfl⟩

/-! ## The whole function -/

def afterRemoval (db : Db) (cid : ℕ) (reallyDelete : Bool) : Db :=
  let slots := slotList db cid
  let deleted := deleteList db cid reallyDelete
  let list := deleted ++ shelfList db cid reallyDelete
  let leaving := db.component.filter (Leaves list ·)
  { db with
    component := (leftComponents list db.component).filter fun c => ¬ c.componentId ∈ deleted
    slot := (renamedSlots db.toNameTables (leaving.map fun c => c.componentId)).filter fun s =>
      ¬ SlotGoes deleted slots s
    asset := db.asset.filter fun a => ¬ ∃ i ∈ a.componentId, i ∈ deleted
    componentProperty := db.componentProperty.filter fun cp => ¬ IsOn deleted slots cp
    interComponentConnection := db.interComponentConnection.filter fun ic => ¬ Touches slots ic
    ctComponentHier := leftParents leaving db.ctComponentHier }

/-- No row that stays refers to one that goes. -/
structure CanGo (db : Db) (cid : ℕ) (reallyDelete : Bool) : Prop where
  connections : ∀ cp ∈ db.componentProperty, ∀ ic ∈ db.interComponentConnection,
    cp.interComponentConnectionId = some ic.interComponentConnectionId → ¬ TouchesTree db cid ic
  slotRefs : ∀ s ∈ db.slot, Goes db cid reallyDelete s.componentId → s.slotId ∉ db.slotRefs
  componentRefs : ∀ x, Goes db cid reallyDelete x → x ∉ db.componentRefs

theorem Sound.touches_iff (h : Sound db) {ic : Connection} :
    Touches (slotList db cid) ic ↔ TouchesTree db cid ic := by
  constructor
  · rintro (hslot | hslot)
    · obtain ⟨s, hs, hid⟩ := exists_of_mem_slotList hslot
      exact ⟨s, hs, (h.mem_slotList hs).mp (hid ▸ hslot), Or.inl hid⟩
    · obtain ⟨s, hs, hid⟩ := exists_of_mem_slotList hslot
      exact ⟨s, hs, (h.mem_slotList hs).mp (hid ▸ hslot), Or.inr hid⟩
  · rintro ⟨s, hs, htree, hid | hid⟩
    · exact Or.inl (hid ▸ (h.mem_slotList hs).mpr htree)
    · exact Or.inr (hid ▸ (h.mem_slotList hs).mpr htree)

theorem mem_renamedSlots (hs : s ∈ renamedSlots t ids) :
    ∃ s₀ ∈ t.slot, s.slotId = s₀.slotId ∧ s.componentId = s₀.componentId := by
  obtain ⟨s₀, hs₀, rfl⟩ := List.mem_map.mp hs
  refine ⟨s₀, hs₀, ?_⟩
  split <;> exact ⟨rfl, rfl⟩

theorem InTree.of_parent (hc : c ∈ db.component) (hs : s ∈ db.slot)
    (hparent : c.parentSlotId = some s.slotId) (htree : InTree db cid s.componentId) :
    InTree db cid c.componentId := by
  refine ⟨Db.mem_ids.mpr ⟨c, hc, rfl⟩, .head ?_ htree.below⟩
  exact ⟨c.toComponent, List.mem_map_of_mem hc, cachedSlot s, List.mem_map_of_mem hs, rfl, hparent, rfl⟩

/-- The tables when the components have left their parents and the properties are deleted. -/
def detached (db : Db) (cid : ℕ) (reallyDelete : Bool) : Db :=
  let list := deleteList db cid reallyDelete ++ shelfList db cid reallyDelete
  let leaving := db.component.filter (Leaves list ·)
  { db with
    component := leftComponents list db.component
    slot := renamedSlots db.toNameTables (leaving.map fun c => c.componentId)
    componentProperty := db.componentProperty.filter fun cp =>
      ¬ IsOn (deleteList db cid reallyDelete) (slotList db cid) cp
    interComponentConnection :=
      db.interComponentConnection.filter fun ic => ¬ Touches (slotList db cid) ic
    ctComponentHier := leftParents leaving db.ctComponentHier }

theorem Sound.nodup_components (h : Sound db) : (db.component.map fun c => c.componentId).Nodup := by
  have hnd := h.valid.components
  rwa [componentIds, Db.components, List.map_map] at hnd

theorem Sound.nodup_slots (h : Sound db) : (db.slot.map fun s => s.slotId).Nodup := by
  have hnd := h.valid.slots
  rwa [Db.slots, List.map_map] at hnd

/-- Of the rows that refer to a slot that goes, only those of other tables are left. -/
theorem Sound.refersToSlot_iff (h : Sound db) (hs : s ∈ (detached db cid reallyDelete).slot)
    (hgoes : SlotGoes (deleteList db cid reallyDelete) (slotList db cid) s) :
    RefersToSlot (detached db cid reallyDelete) s.slotId ↔ s.slotId ∈ db.slotRefs := by
  obtain ⟨s₀, hs₀, hid, -⟩ := mem_renamedSlots hs
  have htree := (h.mem_slotList hs₀).mp (hid ▸ hgoes.1)
  refine ⟨?_, fun href => Or.inr (Or.inr (Or.inr href))⟩
  rintro (⟨c', hc', hparent⟩ | ⟨cp, hcp, hcpid⟩ | ⟨ic, hic, hicid⟩ | href)
  · obtain ⟨c, hc, ⟨hin, rfl⟩ | ⟨hout, rfl⟩⟩ := mem_leftComponents.mp hc'
    · cases hparent
    · have hchild := htree.of_parent hc hs₀ (hid ▸ hparent)
      exact absurd ((h.mem_lists hchild.mem).mpr hchild) hout
  · obtain ⟨-, hnot⟩ := List.mem_filter.mp hcp
    exact absurd (Or.inr ⟨_, hcpid, hgoes.1⟩) (of_decide_eq_true hnot)
  · obtain ⟨-, hnot⟩ := List.mem_filter.mp hic
    rcases hicid with hicid | hicid
    · exact absurd (Or.inl (hicid ▸ hgoes.1)) (of_decide_eq_true hnot)
    · exact absurd (Or.inr (hicid ▸ hgoes.1)) (of_decide_eq_true hnot)
  · exact href

/-- The tables without the slots and the assets. -/
def emptied (db : Db) (cid : ℕ) (reallyDelete : Bool) : Db :=
  deleteAssets (deleteList db cid reallyDelete) { detached db cid reallyDelete with
    slot := (detached db cid reallyDelete).slot.filter fun s =>
      ¬ SlotGoes (deleteList db cid reallyDelete) (slotList db cid) s }

/-- Of the rows that refer to a component that goes, only those of other tables are left. -/
theorem Sound.refersToComponent_iff (h : Sound db) (hgoes : Goes db cid reallyDelete x) :
    RefersToComponent (emptied db cid reallyDelete) x ↔ x ∈ db.componentRefs := by
  have hin := (h.mem_deleteList hgoes.1.mem).mpr hgoes
  refine ⟨?_, fun href => Or.inr (Or.inr (Or.inr href))⟩
  rintro (⟨a, ha, haid⟩ | ⟨cp, hcp, hcpid⟩ | ⟨s, hs, rfl⟩ | href)
  · obtain ⟨-, hnot⟩ := List.mem_filter.mp ha
    exact absurd ⟨_, haid, hin⟩ (of_decide_eq_true hnot)
  · obtain ⟨-, hnot⟩ := List.mem_filter.mp hcp
    exact absurd (Or.inl ⟨_, hcpid, hin⟩) (of_decide_eq_true hnot)
  · obtain ⟨hs, hnot⟩ := List.mem_filter.mp hs
    obtain ⟨s₀, hs₀, hid, howner⟩ := mem_renamedSlots hs
    have hslot : s.slotId ∈ slotList db cid := by
      rw [hid, h.mem_slotList hs₀, ← howner]
      exact hgoes.1
    exact absurd ⟨hslot, hin⟩ (of_decide_eq_true hnot)
  · exact href

/-- A component without a parent leaves the cache as it is. -/
theorem foldl_delete {slots : List Components.Slot} (hl : ∀ c ∈ l, c.parentSlotId = none)
    (ct : List HierRow) :
    l.foldl (fun ct old => cacheComponentParentHandler slots ct (.delete old.toComponent)) ct = ct := by
  induction l generalizing ct with
  | nil => rfl
  | cons c l ih =>
    have hc : cacheComponentParentHandler slots ct (.delete c.toComponent) = ct :=
      if_neg (not_not.mpr (hl c List.mem_cons_self))
    rw [List.foldl_cons, hc]
    exact ih (fun d hd => hl d (List.mem_cons_of_mem _ hd)) ct

theorem exists_renamed (hs : s ∈ t.slot) :
    ∃ s' ∈ renamedSlots t ids, s'.slotId = s.slotId ∧ s'.componentId = s.componentId := by
  refine ⟨_, List.mem_map_of_mem hs, ?_⟩
  split <;> exact ⟨rfl, rfl⟩

theorem exists_left (hx : x ∈ db.ids) :
    ∃ c ∈ leftComponents list db.component, c.componentId = x := by
  obtain ⟨c, hc, rfl⟩ := Db.mem_ids.mp hx
  by_cases hin : c.componentId ∈ list
  · exact ⟨alone c, mem_leftComponents.mpr ⟨c, hc, Or.inl ⟨hin, rfl⟩⟩, rfl⟩
  · exact ⟨c, mem_leftComponents.mpr ⟨c, hc, Or.inr ⟨hin, rfl⟩⟩, rfl⟩

theorem Sound.slotCheck_iff (h : Sound db) :
    (¬ ∃ s ∈ (detached db cid reallyDelete).slot,
      SlotGoes (deleteList db cid reallyDelete) (slotList db cid) s ∧
        RefersToSlot (detached db cid reallyDelete) s.slotId) ↔
    ∀ s ∈ db.slot, Goes db cid reallyDelete s.componentId → s.slotId ∉ db.slotRefs := by
  constructor
  · intro hcheck s hs hgoes href
    obtain ⟨s', hs', hid, howner⟩ := exists_renamed hs
    have hgone : SlotGoes (deleteList db cid reallyDelete) (slotList db cid) s' := by
      rw [SlotGoes, hid, howner, h.mem_slotList hs, h.mem_deleteList hgoes.1.mem]
      exact ⟨hgoes.1, hgoes⟩
    exact hcheck ⟨s', hs', hgone, (h.refersToSlot_iff hs' hgone).mpr (hid ▸ href)⟩
  · rintro hall ⟨s', hs', hgone, href⟩
    obtain ⟨s, hs, hid, howner⟩ := mem_renamedSlots hs'
    have hgoes : Goes db cid reallyDelete s.componentId := by
      rw [← h.mem_deleteList (h.owner_mem hs), ← howner]
      exact hgone.2
    exact hall s hs hgoes (hid ▸ (h.refersToSlot_iff hs' hgone).mp href)

theorem Sound.componentCheck_iff (h : Sound db) :
    (¬ ∃ c ∈ (emptied db cid reallyDelete).component,
      c.componentId ∈ deleteList db cid reallyDelete ∧
        RefersToComponent (emptied db cid reallyDelete) c.componentId) ↔
    ∀ x, Goes db cid reallyDelete x → x ∉ db.componentRefs := by
  constructor
  · intro hcheck x hgoes href
    obtain ⟨c, hc, rfl⟩ := exists_left hgoes.1.mem
    exact hcheck ⟨c, hc, (h.mem_deleteList hgoes.1.mem).mpr hgoes,
      (h.refersToComponent_iff hgoes).mpr href⟩
  · rintro hall ⟨c', hc', hin, href⟩
    have hmem : c'.componentId ∈ db.ids := by
      obtain ⟨c, hc, ⟨-, rfl⟩ | ⟨-, rfl⟩⟩ := mem_leftComponents.mp hc'
      · exact Db.mem_ids.mpr ⟨c, hc, rfl⟩
      · exact Db.mem_ids.mpr ⟨c', hc, rfl⟩
    have hgoes := (h.mem_deleteList hmem).mp hin
    exact hall _ hgoes ((h.refersToComponent_iff hgoes).mp href)

/-- The deleted components have left their parents before. -/
theorem alone_of_deleted (hc : c ∈ (emptied db cid reallyDelete).component)
    (hin : c.componentId ∈ deleteList db cid reallyDelete) : c.parentSlotId = none := by
  obtain ⟨c₀, -, ⟨-, rfl⟩ | ⟨hout, rfl⟩⟩ := mem_leftComponents.mp hc
  · rfl
  · exact absurd (List.mem_append_left _ hin) hout

/-- **`remove_component_hier`** returns when no row that stays refers to one that goes. -/
theorem removeComponentHier_ok_iff (h : Sound db) :
    removeComponentHier db cid reallyDelete = .ok db' ↔
      CanGo db cid reallyDelete ∧ db' = afterRemoval db cid reallyDelete := by
  have hcheck : (¬ ∃ cp ∈ db.componentProperty, ∃ i ∈ cp.interComponentConnectionId,
      ∃ ic ∈ db.interComponentConnection, Touches (slotList db cid) ic ∧
        ic.interComponentConnectionId = i) ↔
      ∀ cp ∈ db.componentProperty, ∀ ic ∈ db.interComponentConnection,
        cp.interComponentConnectionId = some ic.interComponentConnectionId →
          ¬ TouchesTree db cid ic := by
    constructor
    · intro hno cp hcp ic hic hid htouch
      exact hno ⟨cp, hcp, _, hid, ic, hic, h.touches_iff.mpr htouch, rfl⟩
    · rintro hall ⟨cp, hcp, _, hid, ic, hic, htouch, rfl⟩
      exact hall cp hcp ic hic hid (h.touches_iff.mp htouch)
  have hleave := @leaveParents_ok { db with
    interComponentConnection := db.interComponentConnection.filter fun ic =>
      ¬ Touches (slotList db cid) ic }
    (deleteList db cid reallyDelete ++ shelfList db cid reallyDelete) h.nodup_components h.nodup_slots
  have hresult : ({ emptied db cid reallyDelete with
      component := (emptied db cid reallyDelete).component.filter fun c =>
        ¬ c.componentId ∈ deleteList db cid reallyDelete
      ctComponentHier := ((emptied db cid reallyDelete).component.filter fun c =>
        c.componentId ∈ deleteList db cid reallyDelete).foldl (fun ct old =>
          cacheComponentParentHandler (emptied db cid reallyDelete).slots ct
            (.delete old.toComponent)) (emptied db cid reallyDelete).ctComponentHier } : Db) =
      afterRemoval db cid reallyDelete := by
    rw [foldl_delete fun c hc => alone_of_deleted (List.mem_of_mem_filter hc)
      (of_decide_eq_true (List.mem_filter.mp hc).2)]
    rfl
  constructor
  · intro hok
    obtain ⟨db₁, h₁, hok⟩ := bind_eq_ok.mp hok
    obtain ⟨hconnections, h₁⟩ := bind_unit_eq_ok.mp h₁
    obtain rfl := Except.ok.inj h₁
    obtain ⟨db₂, h₂, hok⟩ := bind_eq_ok.mp hok
    obtain rfl := Except.ok.inj (hleave.symm.trans h₂)
    obtain ⟨db₃, h₃, hok⟩ := bind_eq_ok.mp hok
    obtain ⟨hslots, h₃⟩ := bind_unit_eq_ok.mp h₃
    obtain rfl := Except.ok.inj h₃
    obtain ⟨hcomponents, hok⟩ := bind_unit_eq_ok.mp hok
    refine ⟨⟨hcheck.mp (raiseIf_eq_ok.mp hconnections), h.slotCheck_iff.mp (raiseIf_eq_ok.mp hslots),
      h.componentCheck_iff.mp (raiseIf_eq_ok.mp hcomponents)⟩, ?_⟩
    exact (Except.ok.inj hok).symm.trans hresult
  · rintro ⟨hgo, rfl⟩
    refine bind_eq_ok.mpr ⟨_, bind_unit_eq_ok.mpr
      ⟨raiseIf_eq_ok.mpr (hcheck.mpr hgo.connections), rfl⟩, ?_⟩
    refine bind_eq_ok.mpr ⟨_, hleave, ?_⟩
    refine bind_eq_ok.mpr ⟨_, bind_unit_eq_ok.mpr
      ⟨raiseIf_eq_ok.mpr (h.slotCheck_iff.mpr hgo.slotRefs), rfl⟩, ?_⟩
    exact bind_unit_eq_ok.mpr
      ⟨raiseIf_eq_ok.mpr (h.componentCheck_iff.mpr hgo.componentRefs), congrArg _ hresult⟩

/-! ## The tables after it -/

section

variable (h : Sound db)

include h

theorem Sound.mem_component {c' : ComponentRow} :
    c' ∈ (afterRemoval db cid reallyDelete).component ↔ ∃ c ∈ db.component,
      ¬ Goes db cid reallyDelete c.componentId ∧
        ((InTree db cid c.componentId ∧ c' = alone c) ∨ (¬ InTree db cid c.componentId ∧ c' = c)) := by
  have hmem : c' ∈ (afterRemoval db cid reallyDelete).component ↔
      (∃ c ∈ db.component,
        (c.componentId ∈ deleteList db cid reallyDelete ++ shelfList db cid reallyDelete ∧
          c' = alone c) ∨
        (c.componentId ∉ deleteList db cid reallyDelete ++ shelfList db cid reallyDelete ∧
          c' = c)) ∧ c'.componentId ∉ deleteList db cid reallyDelete := by
    rw [← mem_leftComponents]
    exact List.mem_filter.trans (and_congr_right fun _ => decide_eq_true_iff)
  rw [hmem, ← exists_and_right]
  refine exists_congr fun c => ?_
  rw [and_assoc]
  refine and_congr_right fun hc => ?_
  have hid := Db.mem_ids.mpr ⟨c, hc, rfl⟩
  rw [h.mem_lists hid, ← h.mem_deleteList hid, and_comm]
  refine and_congr_left fun hor => ?_
  rcases hor with ⟨-, rfl⟩ | ⟨-, rfl⟩
  · rfl
  · rfl

theorem Sound.slotGoes_iff (hs : s ∈ db.slot) :
    SlotGoes (deleteList db cid reallyDelete) (slotList db cid) s ↔
      Goes db cid reallyDelete s.componentId := by
  rw [SlotGoes, h.mem_slotList hs, h.mem_deleteList (h.owner_mem hs)]
  exact and_iff_right_of_imp fun hgoes => hgoes.1

/-- The ids of the components that leave their parents. -/
def leavingIds (db : Db) (cid : ℕ) (reallyDelete : Bool) : List ℕ :=
  (db.component.filter
    (Leaves (deleteList db cid reallyDelete ++ shelfList db cid reallyDelete) ·)).map
      fun c => c.componentId

omit h in
theorem mem_slot : s ∈ (afterRemoval db cid reallyDelete).slot ↔ ∃ s₀ ∈ db.slot,
    s = (if s₀.componentId ∈ leavingIds db cid reallyDelete then renamedAlone db.toNameTables s₀
      else s₀) ∧ ¬ SlotGoes (deleteList db cid reallyDelete) (slotList db cid) s₀ := by
  have hmem : s ∈ (afterRemoval db cid reallyDelete).slot ↔
      s ∈ renamedSlots db.toNameTables (leavingIds db cid reallyDelete) ∧
        ¬ SlotGoes (deleteList db cid reallyDelete) (slotList db cid) s :=
    List.mem_filter.trans (and_congr_right fun _ => decide_eq_true_iff)
  rw [hmem, renamedSlots, List.mem_map, ← exists_and_right]
  refine exists_congr fun s₀ => ?_
  rw [and_assoc]
  refine and_congr_right fun _ => ?_
  constructor
  · rintro ⟨rfl, hnot⟩
    refine ⟨rfl, ?_⟩
    split at hnot <;> exact hnot
  · rintro ⟨rfl, hnot⟩
    refine ⟨rfl, ?_⟩
    split <;> exact hnot

theorem Sound.mem_leavingIds : x ∈ leavingIds db cid reallyDelete ↔
    ∃ c ∈ db.component, c.componentId = x ∧ c.parentSlotId ≠ none ∧ InTree db cid x := by
  simp only [leavingIds, List.mem_map, List.mem_filter, decide_eq_true_eq]
  constructor
  · rintro ⟨c, ⟨hc, hin, hp⟩, rfl⟩
    exact ⟨c, hc, rfl, hp, (h.mem_lists (Db.mem_ids.mpr ⟨c, hc, rfl⟩)).mp hin⟩
  · rintro ⟨c, hc, rfl, hp, htree⟩
    exact ⟨c, ⟨hc, (h.mem_lists htree.mem).mpr htree, hp⟩, rfl⟩

variable {cp : ComponentProperty}

theorem Sound.isOn_iff (hcp : cp ∈ db.componentProperty) :
    IsOn (deleteList db cid reallyDelete) (slotList db cid) cp ↔
      (∃ i ∈ cp.componentId, Goes db cid reallyDelete i) ∨
        ∃ s ∈ db.slot, cp.slotId = some s.slotId ∧ InTree db cid s.componentId := by
  refine or_congr ?_ ?_
  · refine exists_congr fun i => and_congr_right fun hi => ?_
    exact h.mem_deleteList (h.propertyOwners cp hcp i hi)
  · constructor
    · rintro ⟨q, hq, hin⟩
      obtain ⟨s, hs, rfl⟩ := exists_of_mem_slotList hin
      exact ⟨s, hs, hq, (h.mem_slotList hs).mp hin⟩
    · rintro ⟨s, hs, hq, htree⟩
      exact ⟨_, hq, (h.mem_slotList hs).mpr htree⟩

omit h in
theorem mem_property :
    cp ∈ (afterRemoval db cid reallyDelete).componentProperty ↔
      cp ∈ db.componentProperty ∧
        ¬ IsOn (deleteList db cid reallyDelete) (slotList db cid) cp :=
  List.mem_filter.trans (and_congr_right fun _ => decide_eq_true_iff)

theorem Sound.mem_asset {a : Asset} : a ∈ (afterRemoval db cid reallyDelete).asset ↔
    a ∈ db.asset ∧ ¬ ∃ i ∈ a.componentId, Goes db cid reallyDelete i := by
  refine List.mem_filter.trans (and_congr_right fun ha => ?_)
  rw [decide_eq_true_iff]
  refine not_congr (exists_congr fun i => and_congr_right fun hi => ?_)
  exact h.mem_deleteList (h.assetOwners a ha i hi)

theorem Sound.mem_connection {ic : Connection} :
    ic ∈ (afterRemoval db cid reallyDelete).interComponentConnection ↔
      ic ∈ db.interComponentConnection ∧ ¬ TouchesTree db cid ic := by
  refine List.mem_filter.trans (and_congr_right fun _ => ?_)
  rw [decide_eq_true_iff, h.touches_iff]

/-! ## The forest after it -/

theorem Sound.mem_ids_after : x ∈ (afterRemoval db cid reallyDelete).ids ↔
    x ∈ db.ids ∧ ¬ Goes db cid reallyDelete x := by
  rw [Db.mem_ids, Db.mem_ids]
  constructor
  · rintro ⟨c', hc', rfl⟩
    obtain ⟨c, hc, hgoes, ⟨-, rfl⟩ | ⟨-, rfl⟩⟩ := h.mem_component.mp hc'
    · exact ⟨⟨c, hc, rfl⟩, hgoes⟩
    · exact ⟨⟨c', hc, rfl⟩, hgoes⟩
  · rintro ⟨⟨c, hc, rfl⟩, hgoes⟩
    by_cases htree : InTree db cid c.componentId
    · exact ⟨alone c, h.mem_component.mpr ⟨c, hc, hgoes, Or.inl ⟨htree, rfl⟩⟩, rfl⟩
    · exact ⟨c, h.mem_component.mpr ⟨c, hc, hgoes, Or.inr ⟨htree, rfl⟩⟩, rfl⟩

/-- The components of the tree sit nowhere, and the others where they sat. -/
theorem Sound.up_after : (afterRemoval db cid reallyDelete).Up x y ↔
    db.Up x y ∧ ¬ InTree db cid x := by
  constructor
  · rintro ⟨d, hd, t, ht, rfl, hparent, rfl⟩
    obtain ⟨c', hc', rfl⟩ := List.mem_map.mp hd
    obtain ⟨s', hs', rfl⟩ := List.mem_map.mp ht
    obtain ⟨c, hc, -, ⟨-, rfl⟩ | ⟨htree, rfl⟩⟩ := h.mem_component.mp hc'
    · cases hparent
    · obtain ⟨s, hs, hid, howner⟩ := mem_renamedSlots (List.mem_of_mem_filter hs')
      refine ⟨⟨c'.toComponent, List.mem_map_of_mem hc, cachedSlot s, List.mem_map_of_mem hs, rfl,
        ?_, howner.symm⟩, htree⟩
      rw [hparent]
      exact congrArg some hid
  · rintro ⟨⟨d, hd, t, ht, rfl, hparent, rfl⟩, htree⟩
    obtain ⟨c, hc, rfl⟩ := List.mem_map.mp hd
    obtain ⟨s, hs, rfl⟩ := List.mem_map.mp ht
    have hc' : c ∈ (afterRemoval db cid reallyDelete).component :=
      h.mem_component.mpr ⟨c, hc, fun hgoes => htree hgoes.1, Or.inr ⟨htree, rfl⟩⟩
    have hs' : s ∈ (afterRemoval db cid reallyDelete).slot := by
      have howner : ¬ InTree db cid s.componentId := fun hin => htree (hin.of_parent hc hs hparent)
      refine mem_slot.mpr ⟨s, hs, ?_, ?_⟩
      · rw [if_neg fun hin => ?_]
        obtain ⟨-, -, -, -, hin⟩ := h.mem_leavingIds.mp hin
        exact howner hin
      · rw [h.slotGoes_iff hs]
        exact fun hgoes => howner hgoes.1
    exact ⟨c.toComponent, List.mem_map_of_mem hc', cachedSlot s, List.mem_map_of_mem hs', rfl,
      hparent, rfl⟩

/-- What a path of the forest needs: it does not cross the tree. -/
theorem Sound.acyclic_after : Acyclic (afterRemoval db cid reallyDelete).Up :=
  h.acyclic.mono fun _ _ hup => (h.up_after.mp hup).1

theorem Sound.valid_after : Components.Valid (afterRemoval db cid reallyDelete).components
    (afterRemoval db cid reallyDelete).slots where
  components := by
    have hnd : ((afterRemoval db cid reallyDelete).component.map fun c => c.componentId).Nodup := by
      refine List.Nodup.sublist (List.filter_sublist.map _) ?_
      rw [ids_leftComponents]
      exact h.nodup_components
    rwa [componentIds, Db.components, List.map_map]
  slots := by
    have hnd : ((afterRemoval db cid reallyDelete).slot.map fun s => s.slotId).Nodup := by
      refine List.Nodup.sublist (List.filter_sublist.map _) ?_
      rw [ids_renamedSlots]
      exact h.nodup_slots
    rwa [Db.slots, List.map_map]
  parents := by
    intro d hd q hq
    obtain ⟨c', hc', rfl⟩ := List.mem_map.mp hd
    obtain ⟨c, hc, -, ⟨-, rfl⟩ | ⟨htree, rfl⟩⟩ := h.mem_component.mp hc'
    · cases hq
    · obtain ⟨t, ht, rfl⟩ := h.valid.parents c'.toComponent (List.mem_map_of_mem hc) q hq
      have hup : (afterRemoval db cid reallyDelete).Up c'.componentId t.componentId :=
        h.up_after.mpr ⟨⟨_, List.mem_map_of_mem hc, t, ht, rfl, hq, rfl⟩, htree⟩
      obtain ⟨d, hd, u, hu, hid, hparent, -⟩ := hup
      obtain ⟨e, he, rfl⟩ := List.mem_map.mp hd
      obtain ⟨f, hf, -, ⟨-, rfl⟩ | ⟨-, rfl⟩⟩ := h.mem_component.mp he
      · cases hparent
      · have hsame := h.valid.eq_of_componentId (List.mem_map_of_mem hf) (List.mem_map_of_mem hc) hid
        rw [hsame, show c'.toComponent.parentSlotId = some t.slotId from hq] at hparent
        exact ⟨u, hu, (Option.some_inj.mp hparent).symm⟩
  owners := by
    intro t ht
    obtain ⟨s, hs, rfl⟩ := List.mem_map.mp ht
    obtain ⟨s₀, hs₀, rfl, hnot⟩ := mem_slot.mp hs
    have howner : (cachedSlot (if s₀.componentId ∈ leavingIds db cid reallyDelete then
        renamedAlone db.toNameTables s₀ else s₀)).componentId = s₀.componentId := by
      split <;> rfl
    rw [howner]
    exact h.mem_ids_after.mpr ⟨h.owner_mem hs₀, fun hgoes => hnot ((h.slotGoes_iff hs₀).mpr hgoes)⟩

theorem Sound.cached_after : Cached (afterRemoval db cid reallyDelete).ids
    (afterRemoval db cid reallyDelete).Up (afterRemoval db cid reallyDelete).ctComponentHier := by
  set leaving := db.component.filter
    (Leaves (deleteList db cid reallyDelete ++ shelfList db cid reallyDelete) ·) with hleaving
  have hleft := h.cached.leftParents h.acyclic (l := leaving) fun c hc =>
    (of_decide_eq_true (List.mem_filter.mp hc).2 : Leaves _ c).2
  have hup : (fun x y => db.Up x y ∧ ∀ c ∈ leaving, c.componentId ≠ x) =
      (afterRemoval db cid reallyDelete).Up := by
    funext x y
    rw [eq_iff_iff, h.up_after]
    refine and_congr_right fun hup => ?_
    obtain ⟨d, hd, t, -, rfl, hparent, -⟩ := hup
    obtain ⟨c, hc, rfl⟩ := List.mem_map.mp hd
    constructor
    · intro hall htree
      have hin : c.componentId ∈ deleteList db cid reallyDelete ++ shelfList db cid reallyDelete :=
        (h.mem_lists htree.mem).mpr htree
      have hup : c.parentSlotId ≠ none := fun hnone => nomatch hnone.symm.trans hparent
      exact hall c (List.mem_filter.mpr ⟨hc, decide_eq_true ⟨hin, hup⟩⟩) rfl
    · intro htree e he hid
      obtain ⟨-, -, -, -, hin⟩ := h.mem_leavingIds.mp (List.mem_map.mpr ⟨e, he, hid⟩)
      exact htree hin
  rw [hup] at hleft
  constructor
  · intro r hr
    exact hleft.complete r ⟨hr.ascends, (h.mem_ids_after.mp hr.mem).1, hr.level⟩
  · intro r hr
    rcases hleft.only r hr with hpath | ⟨n, hn, rfl⟩
    · by_cases hchild : Goes db cid reallyDelete r.childComponentId
      · refine Or.inr ⟨r.childComponentId, fun hin => (h.mem_ids_after.mp hin).2 hchild, ?_⟩
        exact hpath.eq_self (fun y hy => (h.up_after.mp hy).2 hchild.1) rfl
      · exact Or.inl ⟨hpath.ascends, h.mem_ids_after.mpr ⟨hpath.mem, hchild⟩, hpath.level⟩
    · exact Or.inr ⟨n, fun hin => hn (h.mem_ids_after.mp hin).1, rfl⟩

theorem Sound.afterRemoval : Sound (afterRemoval db cid reallyDelete) where
  valid := h.valid_after
  acyclic := h.acyclic_after
  assetKey a ha b hb := h.assetKey a (h.mem_asset.mp ha).1 b (h.mem_asset.mp hb).1
  assetOwners a ha i hi := by
    obtain ⟨ha, hnot⟩ := h.mem_asset.mp ha
    exact h.mem_ids_after.mpr ⟨h.assetOwners a ha i hi, fun hgoes => hnot ⟨i, hi, hgoes⟩⟩
  propertyOwners cp hcp i hi := by
    obtain ⟨hcp, hnot⟩ := mem_property.mp hcp
    rw [h.isOn_iff hcp] at hnot
    exact h.mem_ids_after.mpr ⟨h.propertyOwners cp hcp i hi, fun hgoes =>
      hnot (Or.inl ⟨i, hi, hgoes⟩)⟩
  cached := h.cached_after

end

/-! ## When nothing else changes -/

/-- The components can go, no slot of one that stays has a property, and those that leave their
parents have slots with the names that they have on their own. -/
structure Removable (db : Db) (cid : ℕ) (reallyDelete : Bool) : Prop extends
    CanGo db cid reallyDelete where
  slotProperties : ∀ cp ∈ db.componentProperty, ∀ s ∈ db.slot, cp.slotId = some s.slotId →
    InTree db cid s.componentId → ¬ Goes db cid reallyDelete s.componentId →
      ∃ i ∈ cp.componentId, Goes db cid reallyDelete i
  names : ∀ c ∈ db.component, c.parentSlotId ≠ none → InTree db cid c.componentId →
    ¬ Goes db cid reallyDelete c.componentId → ∀ s ∈ db.slot, s.componentId = c.componentId →
      nameAlone db.toNameTables s = s.slotName

theorem Sound.slots_iff (h : Sound db) :
    (∀ s, s ∈ (RemoveHier.afterRemoval db cid reallyDelete).slot ↔
      s ∈ db.slot ∧ ¬ Goes db cid reallyDelete s.componentId) ↔
    ∀ c ∈ db.component, c.parentSlotId ≠ none → InTree db cid c.componentId →
      ¬ Goes db cid reallyDelete c.componentId → ∀ s ∈ db.slot, s.componentId = c.componentId →
        nameAlone db.toNameTables s = s.slotName := by
  constructor
  · intro hall c hc hp htree hgoes s hs howner
    have hin : s.componentId ∈ leavingIds db cid reallyDelete :=
      h.mem_leavingIds.mpr ⟨c, hc, howner.symm, hp, howner ▸ htree⟩
    have hnew : renamedAlone db.toNameTables s ∈ (RemoveHier.afterRemoval db cid reallyDelete).slot := by
      refine mem_slot.mpr ⟨s, hs, (if_pos hin).symm, ?_⟩
      rwa [h.slotGoes_iff hs, howner]
    have hsame := List.inj_on_of_nodup_map h.nodup_slots ((hall _).mp hnew).1 hs rfl
    exact congrArg (·.slotName) hsame
  · intro hnames s
    have hkept {s₀ : SlotRow} (hs₀ : s₀ ∈ db.slot) (hgoes : ¬ Goes db cid reallyDelete s₀.componentId) :
        (if s₀.componentId ∈ leavingIds db cid reallyDelete then renamedAlone db.toNameTables s₀
          else s₀) = s₀ := by
      split
      next hin =>
        obtain ⟨c, hc, hid, hp, htree⟩ := h.mem_leavingIds.mp hin
        rw [renamedAlone, hnames c hc hp (hid ▸ htree) (hid ▸ hgoes) s₀ hs₀ hid.symm]
      next => rfl
    rw [mem_slot]
    constructor
    · rintro ⟨s₀, hs₀, rfl, hnot⟩
      rw [h.slotGoes_iff hs₀] at hnot
      rw [hkept hs₀ hnot]
      exact ⟨hs₀, hnot⟩
    · rintro ⟨hs, hnot⟩
      exact ⟨s, hs, (hkept hs hnot).symm, fun hgone => hnot ((h.slotGoes_iff hs).mp hgone)⟩

theorem Sound.properties_iff (h : Sound db) :
    (∀ cp, cp ∈ (RemoveHier.afterRemoval db cid reallyDelete).componentProperty ↔
      cp ∈ db.componentProperty ∧ ¬ PropertyGoes db cid reallyDelete cp) ↔
    ∀ cp ∈ db.componentProperty, ∀ s ∈ db.slot, cp.slotId = some s.slotId →
      InTree db cid s.componentId → ¬ Goes db cid reallyDelete s.componentId →
        ∃ i ∈ cp.componentId, Goes db cid reallyDelete i := by
  have hslot {s t : SlotRow} (hs : s ∈ db.slot) (ht : t ∈ db.slot) (hid : s.slotId = t.slotId) :
      s = t := List.inj_on_of_nodup_map h.nodup_slots hs ht hid
  constructor
  · intro hall cp hcp s hs hid htree hgoes
    by_contra hno
    have hstays : cp ∈ (RemoveHier.afterRemoval db cid reallyDelete).componentProperty := by
      refine (hall cp).mpr ⟨hcp, ?_⟩
      rintro (hgo | ⟨t, ht, htid, hgo⟩)
      · exact hno hgo
      · obtain rfl := hslot hs ht (Option.some_inj.mp (hid.symm.trans htid))
        exact hgoes hgo
    have hnot := (mem_property.mp hstays).2
    rw [h.isOn_iff hcp] at hnot
    exact hnot (Or.inr ⟨s, hs, hid, htree⟩)
  · intro hall cp
    rw [mem_property]
    refine and_congr_right fun hcp => not_congr ?_
    rw [h.isOn_iff hcp, PropertyGoes]
    constructor
    · rintro (hgo | ⟨s, hs, hid, htree⟩)
      · exact Or.inl hgo
      · by_cases hgoes : Goes db cid reallyDelete s.componentId
        · exact Or.inr ⟨s, hs, hid, hgoes⟩
        · exact Or.inl (hall cp hcp s hs hid htree hgoes)
    · rintro (hgo | ⟨s, hs, hid, hgoes⟩)
      · exact Or.inl hgo
      · exact Or.inr ⟨s, hs, hid, hgoes.1⟩

/-- **The tree is removed and nothing else** exactly when no row that stays refers to one that goes,
the slots of the components that stay have no properties, and their names are kept. -/
theorem removed_iff (h : Sound db) (cid : ℕ) (reallyDelete : Bool) :
    (∃ db', removeComponentHier db cid reallyDelete = .ok db' ∧ Removed db cid reallyDelete db') ↔
      Removable db cid reallyDelete := by
  simp only [removeComponentHier_ok_iff h, and_assoc, exists_and_left, exists_eq_left]
  constructor
  · rintro ⟨hgo, hremoved⟩
    exact ⟨hgo, h.properties_iff.mp hremoved.property, h.slots_iff.mp hremoved.slot⟩
  · rintro ⟨hgo, hproperties, hnames⟩
    refine ⟨hgo, ?_⟩
    exact {
      component := fun _ => h.mem_component
      slot := h.slots_iff.mpr hnames
      asset := fun _ => h.mem_asset
      property := h.properties_iff.mpr hproperties
      connection := fun _ => h.mem_connection
      template := rfl
      componentRefs := rfl
      slotRefs := rfl
      sound := h.afterRemoval }

/-- The components are a chassis and a card in it. -/
def chassisComponents : List ComponentRow := [⟨⟨1, none⟩, 5⟩, ⟨⟨2, some 10⟩, 6⟩]

def chassisSlots : List SlotRow :=
  [⟨⟨10, 1, 7⟩, ⟨['a'], by decide⟩, none⟩, ⟨⟨20, 2, 7⟩, ⟨['b'], by decide⟩, none⟩]

/-- The card has a serial number, and the chassis has none. -/
def chassis (properties : List ComponentProperty) : Db where
  component := chassisComponents
  slot := chassisSlots
  componentTypeSlotTemplate := []
  asset := [⟨1, some 2, some "S1"⟩]
  componentProperty := properties
  interComponentConnection := [⟨1, 10, 30⟩]
  ctComponentHier := Components.vComponentHier (chassisComponents.map (·.toComponent))
    (chassisSlots.map cachedSlot)
  componentRefs := []
  slotRefs := []

theorem sound_chassis {properties : List ComponentProperty}
    (howners : ∀ cp ∈ properties, cp.componentId = none) : Sound (chassis properties) := by
  have hvalid : Components.Valid (chassisComponents.map (·.toComponent))
      (chassisSlots.map cachedSlot) := ⟨by decide, by decide, by decide, by decide⟩
  have hacyclic : Acyclic (Components.Up (chassisComponents.map (·.toComponent))
      (chassisSlots.map cachedSlot)) := Components.acyclic_of_lt (by decide)
  have hcached := Cached.of_holds (Components.holds_vComponentHier hvalid hacyclic)
  exact {
    valid := hvalid
    acyclic := hacyclic
    assetKey := by simp [chassis]
    assetOwners := by
      simp [chassis, Db.ids, Db.components, componentIds, chassisComponents]
    propertyOwners := fun cp hcp i hi => by rw [howners cp hcp] at hi; cases hi
    cached := hcached }

theorem removed_iff_chassis : ∃ db', removeComponentHier (chassis []) 1 false = .ok db' ∧
    Removed (chassis []) 1 false db' := by
  refine (removed_iff (sound_chassis (by simp)) 1 false).mpr ⟨⟨?_, ?_, ?_⟩, ?_, ?_⟩
  · simp [chassis]
  · simp [chassis]
  · simp [chassis]
  · simp [chassis]
  · rintro - - - - - s - -
    rfl

/-- The card stays, and the property on its slot goes. -/
theorem property_not_kept : Sound (chassis [⟨1, none, some 20, none⟩]) ∧
    ¬ Goes (chassis [⟨1, none, some 20, none⟩]) 1 false 2 ∧
    ¬ ∃ db', removeComponentHier (chassis [⟨1, none, some 20, none⟩]) 1 false = .ok db' ∧
      Removed (chassis [⟨1, none, some 20, none⟩]) 1 false db' := by
  have hsound : Sound (chassis [⟨1, none, some 20, none⟩]) := sound_chassis (by simp)
  have hstays : ¬ Goes (chassis [⟨1, none, some 20, none⟩]) 1 false 2 := by
    rintro ⟨-, hno⟩
    exact hno rfl ⟨⟨1, some 2, some "S1"⟩, by simp [chassis], rfl, by simp⟩
  refine ⟨hsound, hstays, ?_⟩
  rintro ⟨db', hok, hremoved⟩
  obtain ⟨-, rfl⟩ := (removeComponentHier_ok_iff hsound).mp hok
  obtain ⟨i, hi, -⟩ := hsound.properties_iff.mp hremoved.property _ List.mem_cons_self
    ⟨⟨20, 2, 7⟩, ⟨['b'], by decide⟩, none⟩ (by simp [chassis, chassisSlots]) rfl
    ⟨by decide, .single ⟨⟨2, some 10⟩, by decide, ⟨10, 1⟩, by decide, rfl, rfl, rfl⟩⟩ hstays
  cases hi

end RemoveHier
end JazzHands.Component

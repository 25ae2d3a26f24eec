import JazzHands.Cache.ComponentHier
import JazzHands.Library.UpTo

/-!
# The rows of `ct_device_components`

A component belongs to the devices of the nearest component above it that has one.  `reassign_iff`
compares what the handler of `device` deletes and inserts with the rows that the others and the
device itself should have.
-/

namespace JazzHands.Components

open Library Postgres

variable {component : List Component} {slot : List Slot} {ids : List ℕ} {E : ℕ → ℕ → Prop}
  {ct : List HierRow} {device others : List Device} {dc : List DeviceRow} {r : DeviceRow}
  {db db' : Db} {n c x : ℕ} {w o : Option ℕ}

/-- Some device is tied to the component. -/
def HasDevice (device : List Device) (c : ℕ) : Prop := ∃ d ∈ device, d.componentId = some c

/-- The row gives a component to a device of the nearest component that has one. -/
def IsOwned (ids : List ℕ) (E : ℕ → ℕ → Prop) (device : List Device) (r : DeviceRow) : Prop :=
  ∃ c, (∃ d ∈ device, d.deviceId = r.deviceId ∧ d.componentId = some c) ∧
    UpTo E (HasDevice device) r.componentPath r.componentId c ∧ r.componentId ∈ ids ∧
    r.level = r.componentPath.length

/-- The table has exactly one row for each component and each device it belongs to. -/
structure OwnerHolds (ids : List ℕ) (E : ℕ → ℕ → Prop) (device : List Device)
    (dc : List DeviceRow) : Prop where
  nodup : dc.Nodup
  mem : ∀ r, r ∈ dc ↔ IsOwned ids E device r

theorem OwnerHolds.perm {dc' : List DeviceRow} (h : OwnerHolds ids E device dc)
    (h' : OwnerHolds ids E device dc') : dc.Perm dc' :=
  (List.perm_ext_iff_of_nodup h.nodup h'.nodup).mpr fun r => (h.mem r).trans (h'.mem r).symm

theorem OwnerHolds.of_perm {dc' : List DeviceRow} (h : OwnerHolds ids E device dc)
    (hperm : dc'.Perm dc) : OwnerHolds ids E device dc' where
  nodup := hperm.nodup_iff.mpr h.nodup
  mem r := hperm.mem_iff.trans (h.mem r)

/-- The part of the path before its end is without devices. -/
theorem IsOwned.not_mem (h : IsOwned ids E device r) {y : ℕ}
    (hy : y ∈ r.componentPath.dropLast) : ¬ HasDevice device y := by
  obtain ⟨c, -, hnear, -⟩ := h
  exact hnear.first y hy

/-! ## The view -/

theorem mem_devicesAbove : r ∈ devicesAbove ct device ↔
    ∃ ch ∈ ct, ∃ d ∈ device, d.componentId = some ch.componentId ∧
      r = ⟨d.deviceId, ch.childComponentId, ch.componentPath, ch.level⟩ := by
  simp only [devicesAbove, List.mem_flatMap, List.mem_map, List.mem_filter, decide_eq_true_eq]
  constructor
  · rintro ⟨ch, hch, d, ⟨hd, hdc⟩, rfl⟩
    exact ⟨ch, hch, d, hd, hdc, rfl⟩
  · rintro ⟨ch, hch, d, hd, hdc, rfl⟩
    exact ⟨ch, hch, d, ⟨hd, hdc⟩, rfl⟩

theorem nodup_devicesAbove (h : Holds ids E ct) (hd : (device.map (·.deviceId)).Nodup) :
    (devicesAbove ct device).Nodup := by
  refine List.nodup_flatMap.mpr ⟨fun ch _ => ?_, ?_⟩
  · refine List.Nodup.map_on ?_ ((List.Nodup.of_map _ hd).filter _)
    intro d hd' e he' hrow
    exact List.inj_on_of_nodup_map hd (List.mem_of_mem_filter hd') (List.mem_of_mem_filter he')
      (congrArg DeviceRow.deviceId hrow)
  · refine h.nodup.imp_of_mem fun {ch ch'} hch hch' hne r hr hr' => ?_
    obtain ⟨d, -, rfl⟩ := List.mem_map.mp hr
    obtain ⟨e, -, hrow⟩ := List.mem_map.mp hr'
    exact hne (((h.mem ch').mp hch').eq_of_path ((h.mem ch).mp hch)
      (congrArg DeviceRow.componentPath hrow).symm)

/-- **`v_device_components` gives each component to the nearest devices.** -/
theorem holds_vDeviceComponents (h : Holds ids E ct)
    (hE : ∀ x y z, E x y → E x z → y = z) (hd : (device.map (·.deviceId)).Nodup) :
    OwnerHolds ids E device (vDeviceComponents ct device) where
  nodup := (nodup_devicesAbove h hd).filter _
  mem r := by
    rw [vDeviceComponents, List.mem_filter, decide_eq_true_iff, mem_devicesAbove]
    constructor
    · rintro ⟨⟨ch, hch, d, hdmem, hdc, rfl⟩, hmin⟩
      have hpath := (h.mem ch).mp hch
      refine ⟨ch.componentId, ⟨d, hdmem, rfl, hdc⟩, ⟨hpath.ascends, ⟨d, hdmem, hdc⟩, ?_⟩, hpath.mem,
        hpath.level⟩
      -- a device before the end of the path would be at a smaller level
      rintro y hy ⟨e, he, hec⟩
      obtain ⟨m, hm, hlt⟩ := hpath.ascends.exists_shorter hy
      have hrow : IsPath ids E ⟨y, ch.childComponentId, m, m.length⟩ := ⟨hm, hpath.mem, rfl⟩
      have hle := hmin _ (mem_devicesAbove.mpr ⟨_, (h.mem _).mpr hrow, e, he, hec, rfl⟩) rfl
      have hlevel := hpath.level
      dsimp only at hle
      omega
    · rintro ⟨c, ⟨d, hdmem, hdid, hdc⟩, hnear, hmem, hlevel⟩
      have hrow : IsPath ids E ⟨c, r.componentId, r.componentPath, r.level⟩ :=
        ⟨hnear.ascends, hmem, hlevel⟩
      refine ⟨⟨_, (h.mem _).mpr hrow, d, hdmem, hdc, by rw [hdid]⟩, ?_⟩
      intro q hq hchild
      obtain ⟨ch, hch, e, he, hec, rfl⟩ := mem_devicesAbove.mp hq
      have hpath := (h.mem ch).mp hch
      dsimp only at hchild ⊢
      rw [hlevel, hpath.level]
      exact hnear.length_le hE (hchild ▸ hpath.ascends) ⟨e, he, hec⟩

/-! ## One device comes, goes or moves -/

/-- The devices are the others and one with the given id and component. -/
def Plus (device others : List Device) (n : ℕ) (w : Option ℕ) : Prop :=
  (∀ d ∈ others, d.deviceId ≠ n) ∧
    ∀ d, d.componentId ≠ none → (d ∈ device ↔ d ∈ others ∨ (d = ⟨n, w⟩))

theorem Plus.hasDevice (h : Plus device others n w) :
    HasDevice device x ↔ HasDevice others x ∨ w = some x := by
  constructor
  · rintro ⟨d, hd, hdc⟩
    rcases (h.2 d (by rw [hdc]; nofun)).mp hd with hd | rfl
    · exact Or.inl ⟨d, hd, hdc⟩
    · exact Or.inr hdc
  · rintro (⟨d, hd, hdc⟩ | hw)
    · exact ⟨d, (h.2 d (by rw [hdc]; nofun)).mpr (Or.inl hd), hdc⟩
    · exact ⟨⟨n, w⟩, (h.2 _ (by rw [hw]; nofun)).mpr (Or.inr rfl), hw⟩

/-- The rows of the other devices are those that they would have alone, as far as the paths do not
pass through the component of the device. -/
theorem isOwned_of_other (h : Plus device others n w) (hr : r.deviceId ≠ n) :
    IsOwned ids E device r ↔
      IsOwned ids E others r ∧ ∀ c ∈ w, c ∉ r.componentPath.dropLast := by
  constructor
  · rintro ⟨c, ⟨d, hd, hdid, hdc⟩, hnear, hmem, hlevel⟩
    have hdo : d ∈ others := by
      rcases (h.2 d (by rw [hdc]; nofun)).mp hd with hd | rfl
      · exact hd
      · exact absurd hdid.symm hr
    refine ⟨⟨c, ⟨d, hdo, hdid, hdc⟩, ⟨hnear.ascends, ⟨d, hdo, hdc⟩, fun y hy hyo => ?_⟩, hmem,
      hlevel⟩, fun y hy hmem => ?_⟩
    · exact hnear.first y hy (h.hasDevice.mpr (Or.inl hyo))
    · exact hnear.first y hmem (h.hasDevice.mpr (Or.inr hy))
  · rintro ⟨⟨c, ⟨d, hd, hdid, hdc⟩, hnear, hmem, hlevel⟩, hw⟩
    have hdd := (h.2 d (by rw [hdc]; nofun)).mpr (Or.inl hd)
    refine ⟨c, ⟨d, hdd, hdid, hdc⟩, ⟨hnear.ascends, ⟨d, hdd, hdc⟩, fun y hy hyd => ?_⟩, hmem,
      hlevel⟩
    rcases h.hasDevice.mp hyd with hyo | hyw
    · exact hnear.first y hy hyo
    · exact hw y hyw hy

/-- The rows of the device itself lead up to its component. -/
theorem isOwned_of_own (h : Plus device others n w) (hr : r.deviceId = n) :
    IsOwned ids E device r ↔ ∃ c ∈ w,
      UpTo E (HasDevice device) r.componentPath r.componentId c ∧ r.componentId ∈ ids ∧
        r.level = r.componentPath.length := by
  constructor
  · rintro ⟨c, ⟨d, hd, hdid, hdc⟩, hnear⟩
    rcases (h.2 d (by rw [hdc]; nofun)).mp hd with hd | rfl
    · exact absurd (hdid.trans hr) (h.1 d hd)
    · exact ⟨c, hdc, hnear⟩
  · rintro ⟨c, hc, hnear⟩
    exact ⟨c, ⟨⟨n, w⟩, (h.2 _ (by rw [Option.mem_def.mp hc]; nofun)).mpr (Or.inr rfl), hr.symm, hc⟩,
      hnear⟩

/-! ## The conditions -/

/-- No device of the list encloses the component, unless one is tied to the component itself. -/
def Outside (E : ℕ → ℕ → Prop) (device : List Device) (c : ℕ) : Prop :=
  HasDevice device c ∨ ∀ y, Relation.TransGen E c y → ¬ HasDevice device y

/-- Under the component every component below one with a device has a device, too. -/
def Bare (E : ℕ → ℕ → Prop) (device : List Device) (c : ℕ) : Prop :=
  ∀ y x, Relation.ReflTransGen E y c → HasDevice device y → Relation.ReflTransGen E x y →
    HasDevice device x

/-- Paths to the nearest device do not pass through the component. -/
theorem Outside.not_mem (h : Outside E device c) {l : List ℕ} {z : ℕ}
    (hl : UpTo E (HasDevice device) l x z) : c ∉ l.dropLast := by
  intro hc
  have hnot := hl.first c hc
  rcases h with h | h
  · exact hnot h
  · obtain ⟨s, t, hst, ht⟩ := hl.ascends.suffix_of_mem (List.dropLast_subset _ hc)
    rcases Relation.reflTransGen_iff_eq_or_transGen.mp ht.reflTransGen with rfl | hup
    · exact hnot hl.marked
    · exact h z hup hl.marked

/-- A component inside the tree of another device lies on a path to the nearest one. -/
theorem exists_nearest_of_not_outside (h : ¬ Outside E device c) :
    ∃ l z, UpTo E (HasDevice device) l c z ∧ c ∈ l.dropLast := by
  unfold Outside at h
  push Not at h
  obtain ⟨hc, y, hcy, hy⟩ := h
  obtain ⟨l, hl⟩ := exists_ascends_iff.mpr hcy.to_reflTransGen
  obtain ⟨m, z, -, hm⟩ := exists_upTo hl hy
  refine ⟨m, z, hm, ?_⟩
  rcases hm.ascends.mem_dropLast_or with hmem | ⟨-, rfl⟩
  · exact hmem
  · exact absurd hm.marked hc

/-- The paths of the others to their nearest devices pass through the old component exactly when
they pass through the new one. -/
def Undisturbed (ids : List ℕ) (E : ℕ → ℕ → Prop) (others : List Device) (o w : Option ℕ) : Prop :=
  ∀ l x z, x ∈ ids → UpTo E (HasDevice others) l x z →
    ((∀ c ∈ o, c ∉ l.dropLast) ↔ ∀ c ∈ w, c ∉ l.dropLast)

theorem Undisturbed.symm (h : Undisturbed ids E others o w) : Undisturbed ids E others w o :=
  fun l x z hx hl => (h l x z hx hl).symm

/-- A component inside the tree of another device cannot be given up for a different one. -/
theorem Undisturbed.outside (hE : Acyclic E) (hids : ∀ x y, E x y → y ∈ ids)
    (h : Undisturbed ids E others o w) (how : o ≠ w) (hc : o = some c) (hmem : c ∈ ids) :
    Outside E others c := by
  by_contra hout
  obtain ⟨l, z, hl, hcl⟩ := exists_nearest_of_not_outside hout
  have hpass : ¬ ∀ c ∈ o, c ∉ l.dropLast := fun hall => hall c hc hcl
  obtain ⟨c', hc', hc'l⟩ : ∃ c' ∈ w, c' ∈ l.dropLast := by
    by_contra hnot
    push Not at hnot
    exact hpass ((h l c z hmem hl).mpr hnot)
  have hne : c ≠ c' := by
    rintro rfl
    exact how (hc.trans (Option.mem_def.mp hc').symm)
  obtain ⟨s, t, hst, ht⟩ := hl.ascends.suffix_of_mem (List.dropLast_subset _ hc'l)
  -- the path from the new component on passes through the old one, which is below it
  have hl' := hl.suffix hst ht
  have hup : Relation.TransGen E c c' :=
    (Relation.reflTransGen_iff_eq_or_transGen.mp
      (hl.ascends.reflTransGen_of_mem (List.dropLast_subset _ hc'l))).resolve_left
      fun heq => hne heq.symm
  have hc'ids : c' ∈ ids := by
    obtain ⟨y, -, hyc⟩ := Relation.TransGen.tail'_iff.mp hup
    exact hids _ _ hyc
  have hc'l' : c' ∈ (c' :: t).dropLast := by
    rcases ht.mem_dropLast_or with hmem | ⟨-, rfl⟩
    · exact hmem
    · exact absurd hl.marked (hl.first c' hc'l)
  have hcl' : c ∈ c' :: t := by
    by_contra hnot
    refine (h _ c' z hc'ids hl').mp ?_ c' hc' hc'l'
    rintro d hd hmem
    obtain rfl : c = d := Option.some_inj.mp (hc.symm.trans (Option.mem_def.mp hd))
    exact hnot (List.dropLast_subset _ hmem)
  exact hE c (hup.trans_left (ht.reflTransGen_of_mem hcl'))

/-- **The others are undisturbed** exactly when the device stays, or neither its old nor its new
component is inside the tree of another one. -/
theorem undisturbed_iff (hE : Acyclic E) (hids : ∀ x y, E x y → y ∈ ids)
    (ho : ∀ c ∈ o, c ∈ ids) (hw : ∀ c ∈ w, c ∈ ids) :
    Undisturbed ids E others o w ↔
      o = w ∨ (∀ c ∈ o, Outside E others c) ∧ ∀ c ∈ w, Outside E others c := by
  constructor
  · intro h
    by_cases how : o = w
    · exact Or.inl how
    · exact Or.inr ⟨fun c hc => h.outside hE hids how (Option.mem_def.mp hc) (ho c hc),
        fun c hc => h.symm.outside hE hids (Ne.symm how) (Option.mem_def.mp hc) (hw c hc)⟩
  · rintro (rfl | ⟨hout, hwut⟩) l x z - hl
    · rfl
    · exact ⟨fun _ c hc => (hwut c hc).not_mem hl, fun _ c hc => (hout c hc).not_mem hl⟩

/-! ## The handler of `device` -/

/-- The rows that the handler inserts are those of the device exactly when no other device is tied to
its component and none below hides a component without a device. -/
theorem deviceRows_iff (h : Holds ids E ct) (hE : Acyclic E) (hids : ∀ x y, E x y → x ∈ ids)
    (hplus : Plus device others n (some c))
    (hc : c ∈ ids) : (∀ r, r.deviceId = n → (r ∈ deviceRows device n (ct.filter (·.componentId = c)) ↔
      IsOwned ids E device r)) ↔ ¬ HasDevice others c ∧ Bare E others c := by
  have hother : ∀ x, IsOtherDevice device n x ↔ HasDevice others x := by
    intro x
    constructor
    · rintro ⟨d, hd, hdc, hid⟩
      rcases (hplus.2 d (by rw [hdc]; nofun)).mp hd with hd | rfl
      · exact ⟨d, hd, hdc⟩
      · exact absurd rfl hid
    · rintro ⟨d, hd, hdc⟩
      exact ⟨d, (hplus.2 d (by rw [hdc]; nofun)).mpr (Or.inl hd), hdc, hplus.1 d hd⟩
  have hrows : ∀ r : DeviceRow, r.deviceId = n →
      (r ∈ deviceRows device n (ct.filter (·.componentId = c)) ↔
        Ascends E r.componentPath r.componentId c ∧ r.componentId ∈ ids ∧
          r.level = r.componentPath.length ∧ ¬ HasDevice others r.componentId) := by
    rintro ⟨_, x, l, k⟩ rfl
    simp only [deviceRows, List.mem_map, List.mem_filter, decide_eq_true_eq, h.mem, hother]
    constructor
    · rintro ⟨ch, ⟨⟨hpath, rfl⟩, hnot⟩, hrow⟩
      obtain ⟨-, rfl, rfl, rfl⟩ := DeviceRow.mk.inj hrow
      exact ⟨hpath.ascends, hpath.mem, hpath.level, hnot⟩
    · rintro ⟨ha, hmem, hlevel, hnot⟩
      exact ⟨⟨c, x, l, k⟩, ⟨⟨⟨ha, hmem, hlevel⟩, rfl⟩, hnot⟩, rfl⟩
  constructor
  · intro hall
    -- the row of the component itself
    have hself := (hall ⟨n, c, [c], 1⟩ rfl).mpr ((isOwned_of_own hplus rfl).mpr
      ⟨c, rfl, .singleton (hplus.hasDevice.mpr (Or.inr rfl)), hc, rfl⟩)
    have hc' : ¬ HasDevice others c := ((hrows _ rfl).mp hself).2.2.2
    refine ⟨hc', fun y x hyc hy hxy => ?_⟩
    by_contra hx
    have hyc : Relation.TransGen E y c := by
      refine (Relation.reflTransGen_iff_eq_or_transGen.mp hyc).resolve_left ?_
      rintro rfl
      exact hc' hy
    have hxmem : x ∈ ids := by
      rcases Relation.ReflTransGen.cases_head hxy with rfl | ⟨b, hxb, -⟩
      · exact absurd hy hx
      · exact hids x b hxb
    obtain ⟨l, hl, hyl⟩ := exists_ascends_through hxy hyc
    have hrow := (hall ⟨n, x, l, l.length⟩ rfl).mp ((hrows _ rfl).mpr ⟨hl, hxmem, rfl, hx⟩)
    exact hrow.not_mem hyl (hplus.hasDevice.mpr (Or.inl hy))
  · rintro ⟨hnot, hbare⟩ r hr
    rw [hrows r hr, isOwned_of_own hplus hr]
    constructor
    · rintro ⟨ha, hmem, hlevel, hx⟩
      refine ⟨c, rfl, ⟨ha, hplus.hasDevice.mpr (Or.inr rfl), fun y hy hyd => ?_⟩, hmem, hlevel⟩
      have hyl := List.dropLast_subset _ hy
      obtain ⟨s, t, hst, ht⟩ := ha.suffix_of_mem hyl
      rcases hplus.hasDevice.mp hyd with hyo | hyw
      · exact hx (hbare y _ ht.reflTransGen hyo (ha.reflTransGen_of_mem hyl))
      · obtain rfl := Option.some_inj.mp hyw
        exact hE.notMem_dropLast ha hy
    · rintro ⟨c', hc', hnear, hmem, hlevel⟩
      obtain rfl := Option.mem_some_iff.mp hc'
      refine ⟨hnear.ascends, hmem, hlevel, fun hx => ?_⟩
      rcases hnear.ascends.mem_dropLast_or with hdrop | ⟨-, hxc⟩
      · exact hnear.first _ hdrop (hplus.hasDevice.mpr (Or.inl hx))
      · exact hnot (hxc ▸ hx)

theorem nodup_deviceRows (h : Holds ids E ct) {q : HierRow → Bool} :
    (deviceRows device n (ct.filter q)).Nodup := by
  refine List.Nodup.map_on ?_ ((h.nodup.filter _).filter _)
  intro ch hch ch' hch' hrow
  have hmem := List.mem_of_mem_filter (List.mem_of_mem_filter hch)
  have hmem' := List.mem_of_mem_filter (List.mem_of_mem_filter hch')
  exact ((h.mem ch').mp hmem').eq_of_path ((h.mem ch).mp hmem)
    (congrArg DeviceRow.componentPath hrow)

/-- What the handler makes of the table. -/
def reassign (device : List Device) (ct : List HierRow) (dc : List DeviceRow) (n : ℕ)
    (w : Option ℕ) : List DeviceRow :=
  enterDevice device ct (dc.filter (·.deviceId ≠ n)) ⟨n, w⟩

theorem mem_reassign_of_other (hr : r.deviceId ≠ n) : r ∈ reassign device ct dc n w ↔ r ∈ dc := by
  have hfilter : r ∈ dc.filter (·.deviceId ≠ n) ↔ r ∈ dc := by
    rw [List.mem_filter, decide_eq_true_iff, and_iff_left hr]
  cases w with
  | none => exact hfilter
  | some c =>
    show r ∈ _ ++ deviceRows device n _ ↔ _
    rw [List.mem_append, hfilter]
    refine or_iff_left fun hmem => hr ?_
    obtain ⟨ch, -, rfl⟩ := List.mem_map.mp hmem
    rfl

theorem mem_reassign_of_own (hr : r.deviceId = n) : r ∈ reassign device ct dc n w ↔
    ∃ c ∈ w, r ∈ deviceRows device n (ct.filter (·.componentId = c)) := by
  have hfilter : r ∉ dc.filter (·.deviceId ≠ n) := fun hmem =>
    of_decide_eq_true (List.mem_filter.mp hmem).2 hr
  cases w with
  | none => exact ⟨fun hmem => absurd hmem hfilter, fun ⟨_, hc, _⟩ => nomatch hc⟩
  | some c =>
    show r ∈ _ ++ deviceRows device n _ ↔ _
    rw [List.mem_append, or_iff_right hfilter]
    exact ⟨fun hmem => ⟨c, rfl, hmem⟩, fun ⟨_, hc, hmem⟩ => Option.mem_some_iff.mp hc ▸ hmem⟩

theorem nodup_reassign (h : Holds ids E ct) (hdc : dc.Nodup) :
    (reassign device ct dc n w).Nodup := by
  cases w with
  | none => exact hdc.filter _
  | some c =>
    refine List.nodup_append.mpr ⟨hdc.filter _, nodup_deviceRows h, ?_⟩
    rintro r hr _ hr' rfl
    obtain ⟨ch, -, rfl⟩ := List.mem_map.mp hr'
    exact of_decide_eq_true (List.mem_filter.mp hr).2 rfl

/-- The rows of the others stay as they should exactly when the others are undisturbed. -/
theorem others_iff {before after : List Device} (hbefore : Plus before others n o)
    (hafter : Plus after others n w) :
    (∀ r, r.deviceId ≠ n → (IsOwned ids E before r ↔ IsOwned ids E after r)) ↔
      Undisturbed ids E others o w := by
  constructor
  · intro h l x z hx hl
    obtain ⟨d, hd, hdz⟩ := hl.marked
    have hid : d.deviceId ≠ n := hbefore.1 d hd
    have hrow : IsOwned ids E others ⟨d.deviceId, x, l, l.length⟩ :=
      ⟨z, ⟨d, hd, rfl, hdz⟩, hl, hx, rfl⟩
    have hiff := h ⟨d.deviceId, x, l, l.length⟩ hid
    rw [isOwned_of_other hbefore hid, isOwned_of_other hafter hid, and_iff_right hrow,
      and_iff_right hrow] at hiff
    exact hiff
  · intro h r hr
    rw [isOwned_of_other hbefore hr, isOwned_of_other hafter hr]
    refine and_congr_right fun hrow => ?_
    obtain ⟨z, -, hnear, hmem, -⟩ := hrow
    exact h _ _ _ hmem hnear

/-- **The handler of `device` keeps the cache right** exactly when the others are undisturbed, no
other device is tied to the new component, and none below it hides components. -/
theorem reassign_iff {before after : List Device} (h : Holds ids E ct) (hE : Acyclic E)
    (hids : ∀ x y, E x y → x ∈ ids ∧ y ∈ ids) (hdc : OwnerHolds ids E before dc)
    (hbefore : Plus before others n o) (hafter : Plus after others n w)
    (ho : ∀ c ∈ o, c ∈ ids) (hw : ∀ c ∈ w, c ∈ ids) :
    OwnerHolds ids E after (reassign after ct dc n w) ↔
      (o = w ∨ (∀ c ∈ o, Outside E others c) ∧ ∀ c ∈ w, Outside E others c) ∧
      ∀ c ∈ w, ¬ HasDevice others c ∧ Bare E others c := by
  rw [← undisturbed_iff hE (fun x y hxy => (hids x y hxy).2) ho hw, ← others_iff hbefore hafter]
  have hown : (∀ c ∈ w, ¬ HasDevice others c ∧ Bare E others c) ↔
      ∀ r, r.deviceId = n → (r ∈ reassign after ct dc n w ↔ IsOwned ids E after r) := by
    cases w with
    | none =>
      refine ⟨fun _ r hr => ?_, fun _ c hc => nomatch hc⟩
      rw [mem_reassign_of_own hr, isOwned_of_own hafter hr]
      exact ⟨fun ⟨_, hc, _⟩ => (nomatch hc), fun ⟨_, hc, _⟩ => (nomatch hc)⟩
    | some c =>
      have hsome : (∀ c' ∈ some c, ¬ HasDevice others c' ∧ Bare E others c') ↔
          ¬ HasDevice others c ∧ Bare E others c :=
        ⟨fun hall => hall c rfl, fun hall c' hc' => Option.mem_some_iff.mp hc' ▸ hall⟩
      rw [hsome, ← deviceRows_iff h hE (fun x y hxy => (hids x y hxy).1) hafter (hw c rfl)]
      refine forall₂_congr fun r hr => ?_
      rw [mem_reassign_of_own hr]
      simp
  rw [hown]
  constructor
  · intro hres
    refine ⟨fun r hr => ?_, fun r _ => hres.mem r⟩
    rw [← hdc.mem, ← hres.mem, mem_reassign_of_other hr]
  · rintro ⟨hothers, hself⟩
    refine ⟨nodup_reassign h hdc.nodup, fun r => ?_⟩
    by_cases hr : r.deviceId = n
    · exact hself r hr
    · rw [mem_reassign_of_other hr, hdc.mem, hothers r hr]

end JazzHands.Components

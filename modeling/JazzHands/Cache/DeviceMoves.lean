import JazzHands.Cache.DeviceComponents

/-!
# `ct_device_components` against its view

`leaveOwner_spec` and `enterOwner_spec` say which rows the triggers on components delete and insert,
for one device only, and `MayMove` and `MayReassign` when that is right.  A run keeps the cache by
one lemma for each kind of statement.
-/

namespace JazzHands.Components

open Library Postgres

variable {component : List Component} {slot : List Slot} {ids : List ℕ} {E E₁ E₂ : ℕ → ℕ → Prop}
  {ct : List HierRow} {device : List Device} {dc dc' : List DeviceRow} {r : DeviceRow}
  {db db' : Db} {old new : Component} {n p : ℕ}

/-- The devices that a component belongs to are one device. -/
def Single (E : ℕ → ℕ → Prop) (device : List Device) (x : ℕ) : Prop :=
  ∀ l z, UpTo E (HasDevice device) l x z → ∀ d ∈ device, ∀ e ∈ device,
    d.componentId = some z → e.componentId = some z → d = e

/-! ## A component leaves its parent -/

theorem isOwned_rooted (h : Rooted E E₁ n) (hE : Acyclic E) :
    IsOwned ids E₁ device r ↔ IsOwned ids E device r ∧ n ∉ r.componentPath.dropLast := by
  constructor
  · rintro ⟨c, hd, hnear, hrest⟩
    obtain ⟨hnear, hn⟩ := (UpTo.rooted_iff h hE).mp hnear
    exact ⟨⟨c, hd, hnear, hrest⟩, hn⟩
  · rintro ⟨⟨c, hd, hnear, hrest⟩, hn⟩
    exact ⟨c, hd, (UpTo.rooted_iff h hE).mpr ⟨hnear, hn⟩, hrest⟩

/-- A row whose path passes through `n` goes on like a row of `n`. -/
theorem IsOwned.suffix (hr : IsOwned ids E device r) (hids : ∀ x y, E x y → x ∈ ids ∧ y ∈ ids)
    (hn : n ∈ r.componentPath.dropLast) :
    ∃ t, IsOwned ids E device ⟨r.deviceId, n, n :: t, (n :: t).length⟩ := by
  obtain ⟨c, hd, hnear, hmem, -⟩ := hr
  have hnl := List.dropLast_subset _ hn
  obtain ⟨s, t, hst, ht⟩ := hnear.ascends.suffix_of_mem hnl
  refine ⟨t, c, hd, hnear.suffix hst ht, ?_, rfl⟩
  rcases Relation.ReflTransGen.cases_tail (hnear.ascends.reflTransGen_of_mem hnl) with rfl | ⟨y, -, hyn⟩
  · exact hmem
  · exact (hids _ _ hyn).2

/-- What the handler keeps are the rows whose paths do not pass through the component. -/
theorem leaveOwner_spec (hdc : OwnerHolds ids E device dc) (hE : Acyclic E)
    (hids : ∀ x y, E x y → x ∈ ids ∧ y ∈ ids) (huniq : ∀ x y z, E x y → E x z → y = z)
    (hroot : Rooted E E₁ old.componentId)
    (hnone : old.parentSlotId = none → ∀ y, ¬ E old.componentId y)
    (hsingle : old.parentSlotId ≠ none → Single E device old.componentId)
    (hleave : leaveOwner device dc old = some dc') : OwnerHolds ids E₁ device dc' := by
  have hkeep : ∀ r, IsOwned ids E₁ device r ↔
      r ∈ dc ∧ old.componentId ∉ r.componentPath.dropLast := fun r => by
    rw [isOwned_rooted hroot hE, hdc.mem]
  rw [leaveOwner] at hleave
  by_cases hp : old.parentSlotId = none
  · rw [if_pos hp] at hleave
    obtain rfl := Option.some_inj.mp hleave
    refine ⟨hdc.nodup, fun r => ?_⟩
    rw [hkeep, and_iff_left_of_imp]
    intro hr hn
    obtain ⟨c, -, hnear, -⟩ := (hdc.mem r).mp hr
    exact hE.notMem_dropLast_of_root (hnone hp) hnear.ascends hn
  · rw [if_neg hp] at hleave
    by_cases hd : ∃ d ∈ device, d.componentId = some old.componentId
    · rw [if_pos hd] at hleave
      exact nomatch hleave
    · rw [if_neg hd] at hleave
      cases hfind : dc.find? (·.componentId = old.componentId) with
      | none =>
        rw [hfind] at hleave
        obtain rfl := Option.some_inj.mp hleave
        refine ⟨hdc.nodup, fun r => ?_⟩
        rw [hkeep, and_iff_left_of_imp]
        intro hr hn
        obtain ⟨t, hrow⟩ := ((hdc.mem r).mp hr).suffix hids hn
        exact (Library.not_of_find?_eq_none hfind ((hdc.mem _).mpr hrow) rfl).elim
      | some dcRec =>
        rw [hfind] at hleave
        obtain rfl := Option.some_inj.mp hleave
        obtain ⟨hrec, hchild⟩ := Library.of_find?_eq_some hfind
        replace hrec := (hdc.mem _).mp hrec
        refine ⟨hdc.nodup.filter _, fun r => ?_⟩
        rw [hkeep, List.mem_filter, decide_eq_true_iff]
        refine and_congr_right fun hr => not_congr ?_
        have hown := (hdc.mem r).mp hr
        constructor
        · rintro ⟨hmem, -⟩
          obtain ⟨c, -, hnear, -⟩ := hown
          obtain ⟨u, hu⟩ := List.getLast?_eq_some_iff.mp hnear.ascends.last
          rw [hu] at hmem ⊢
          rw [List.dropLast_concat]
          rcases List.mem_append.mp hmem with hmem | hmem
          · exact hmem
          · rw [List.mem_singleton.mp hmem] at hd
            exact absurd hnear.marked hd
        · intro hn
          refine ⟨List.dropLast_subset _ hn, ?_⟩
          obtain ⟨t, c, ⟨d, hdm, hdid, hdc'⟩, hnear, -⟩ := hown.suffix hids hn
          obtain ⟨c', ⟨e, hem, heid, hec⟩, hnear', -⟩ := hrec
          rw [hchild] at hnear'
          obtain ⟨-, rfl⟩ := hnear.unique huniq hnear'
          obtain rfl := hsingle hp _ _ hnear d hdm e hem hdc' hec
          exact hdid.symm.trans heid

/-! ## A component gets a parent -/

section Enter

variable (hE₂ : Acyclic E₂) (hlinked : Linked E₁ E₂ n p)

include hE₂ hlinked

theorem isOwned_linked : IsOwned ids E₂ device r ↔ IsOwned ids E₁ device r ∨
    ∃ c s t, (∃ d ∈ device, d.deviceId = r.deviceId ∧ d.componentId = some c) ∧
      r.componentPath = s ++ t ∧ Ascends E₁ s r.componentId n ∧ (∀ y ∈ s, ¬ HasDevice device y) ∧
      UpTo E₁ (HasDevice device) t p c ∧ r.componentId ∈ ids ∧
      r.level = r.componentPath.length := by
  constructor
  · rintro ⟨c, hd, hnear, hrest⟩
    rcases (UpTo.linked_iff hlinked hE₂).mp hnear with hnear | ⟨s, t, hst, hs, hfree, ht⟩
    · exact Or.inl ⟨c, hd, hnear, hrest⟩
    · exact Or.inr ⟨c, s, t, hd, hst, hs, hfree, ht, hrest⟩
  · rintro (⟨c, hd, hnear, hrest⟩ | ⟨c, s, t, hd, hst, hs, hfree, ht, hrest⟩)
    · exact ⟨c, hd, (UpTo.linked_iff hlinked hE₂).mpr (Or.inl hnear), hrest⟩
    · exact ⟨c, hd, (UpTo.linked_iff hlinked hE₂).mpr (Or.inr ⟨s, t, hst, hs, hfree, ht⟩), hrest⟩

theorem not_below : ¬ Relation.ReflTransGen E₁ p n := by
  intro hpn
  have hup : Relation.ReflTransGen E₂ p n :=
    Relation.ReflTransGen.mono (fun x y hxy => (hlinked x y).mpr (Or.inl hxy)) p n hpn
  exact hE₂ n (.head' ((hlinked n p).mpr (Or.inr ⟨rfl, rfl⟩)) hup)

theorem upTo_of_parent {l : List ℕ} {z : ℕ} :
    UpTo E₂ (HasDevice device) l p z ↔ UpTo E₁ (HasDevice device) l p z := by
  rw [UpTo.linked_iff hlinked hE₂]
  refine or_iff_left ?_
  rintro ⟨s, t, -, hs, -⟩
  exact not_below hE₂ hlinked hs.reflTransGen

end Enter

/-- The devices that the handler finds for a slot are those of the nearest component with one. -/
theorem mem_slotDevice (hct : Holds ids E₂ ct) (huniq : ∀ x y z, E₂ x y → E₂ x z → y = z)
    (hdev : (device.map (·.deviceId)).Nodup) (hv : Valid component slot) {s : Slot} (hs : s ∈ slot)
    (hp : s.componentId ∈ ids) {d : Device} :
    d ∈ (slot.filter (·.slotId = s.slotId)).flatMap (fun s =>
      ((vDeviceComponents ct device).filter (·.componentId = s.componentId)).flatMap fun dc =>
        device.filter (·.deviceId = dc.deviceId)) ↔
    d ∈ device ∧ ∃ c ∈ d.componentId, ∃ l, UpTo E₂ (HasDevice device) l s.componentId c := by
  have hview := holds_vDeviceComponents hct huniq hdev
  simp only [List.mem_flatMap, List.mem_filter, decide_eq_true_eq, hview.mem]
  constructor
  · rintro ⟨t, ⟨ht, hid⟩, r, ⟨⟨c, ⟨e, he, heid, hec⟩, hnear, -⟩, hr⟩, hd, hdid⟩
    obtain rfl := hv.eq_of_slotId ht hs hid
    obtain rfl := List.inj_on_of_nodup_map hdev hd he (hdid.trans heid.symm)
    exact ⟨hd, c, hec, r.componentPath, hr ▸ hnear⟩
  · rintro ⟨hd, c, hc, l, hnear⟩
    exact ⟨s, ⟨hs, rfl⟩, ⟨d.deviceId, s.componentId, l, l.length⟩,
      ⟨⟨c, ⟨d, hd, rfl, hc⟩, hnear, hp, rfl⟩, rfl⟩, hd, rfl⟩

/-- The rows that the handler inserts lead from the component and those below it to the device. -/
theorem enterOwner_spec (hdc : OwnerHolds ids E₁ device dc) (hct : Holds ids E₂ ct)
    (hv : Valid component slot) {s : Slot} (hs : s ∈ slot) (hp : s.componentId ∈ ids)
    (hlinked : Linked E₁ E₂ n s.componentId) (hE₂ : Acyclic E₂)
    (huniq : ∀ x y z, E₂ x y → E₂ x z → y = z) (hroot : ∀ y, ¬ E₁ n y)
    (hdev : (device.map (·.deviceId)).Nodup)
    (hcond : (∃ l z, UpTo E₁ (HasDevice device) l s.componentId z) →
      Single E₁ device s.componentId ∧ Bare E₁ device n) :
    OwnerHolds ids E₂ device (enterOwner slot device ct dc ⟨n, some s.slotId⟩) := by
  have hE₁ : Acyclic E₁ := hE₂.mono fun x y hxy => (hlinked x y).mpr (Or.inl hxy)
  have huniq₁ : ∀ x y z, E₁ x y → E₁ x z → y = z := fun x y z hxy hxz =>
    huniq x y z ((hlinked x y).mpr (Or.inl hxy)) ((hlinked x z).mpr (Or.inl hxz))
  have hmem := @mem_slotDevice component slot ids E₂ ct device hct huniq hdev hv s hs hp
  unfold enterOwner
  cases hfound : (Option.bind (some s.slotId) (slotDevice slot device ct)) with
  | none =>
    rw [Option.bind_some, slotDevice, List.head?_eq_none_iff] at hfound
    refine ⟨hdc.nodup, fun r => ?_⟩
    rw [hdc.mem, isOwned_linked hE₂ hlinked]
    refine (or_iff_left ?_).symm
    rintro ⟨c, u, t, ⟨d, hd, -, hdc'⟩, -, -, -, ht, -⟩
    have hin := hmem.mpr ⟨hd, c, hdc', t, (upTo_of_parent hE₂ hlinked).mpr ht⟩
    rw [hfound] at hin
    exact absurd hin List.not_mem_nil
  | some devRec =>
    rw [Option.bind_some, slotDevice] at hfound
    obtain ⟨hrec, c, hc, k, hk₂⟩ := hmem.mp (List.mem_of_mem_head? hfound)
    have hk := (upTo_of_parent hE₂ hlinked).mp hk₂
    obtain ⟨hsingle, hbare⟩ := hcond ⟨k, c, hk⟩
    -- the rows are those whose paths pass over the new edge
    have hnew : ∀ r, r ∈ deviceRows device devRec.deviceId (ct.filter fun ch =>
        devRec.componentId = some ch.componentId ∧ n ∈ ch.componentPath) ↔
        ∃ c s' t, (∃ d ∈ device, d.deviceId = r.deviceId ∧ d.componentId = some c) ∧
          r.componentPath = s' ++ t ∧ Ascends E₁ s' r.componentId n ∧
          (∀ y ∈ s', ¬ HasDevice device y) ∧ UpTo E₁ (HasDevice device) t s.componentId c ∧
          r.componentId ∈ ids ∧ r.level = r.componentPath.length := by
      intro r
      simp only [deviceRows, List.mem_map, List.mem_filter, decide_eq_true_eq, hct.mem]
      constructor
      · rintro ⟨ch, ⟨⟨hpath, hroot', hn⟩, hnot⟩, rfl⟩
        obtain rfl : c = ch.componentId :=
          Option.some_inj.mp ((Option.mem_def.mp hc).symm.trans hroot')
        rcases (Ascends.linked_iff hlinked hE₂).mp hpath.ascends with ha | ⟨u, t, hut, hu, ht⟩
        · -- the device would be at or below the component itself
          obtain ⟨v, w, -, hw⟩ := ha.suffix_of_mem hn
          cases w with
          | nil =>
            obtain ⟨-, rfl⟩ := Ascends.singleton_iff.mp hw
            exact absurd hk.ascends.reflTransGen (not_below hE₂ hlinked)
          | cons y w => exact absurd (Ascends.cons_iff.mp hw).2.1 (hroot y)
        · have hkt : k = t := by
            by_contra hne
            exact hE₁.notMem_dropLast ht (hk.ascends.mem_dropLast (hk.begins huniq₁ ht hk.marked) hne)
          subst hkt
          refine ⟨_, u, k, ⟨devRec, hrec, rfl, hc⟩, hut, hu, fun y hy hyd => ?_, hk, hpath.mem,
            hpath.level⟩
          obtain ⟨v, w, -, hw⟩ := hu.suffix_of_mem hy
          obtain ⟨e, he, hec⟩ := hbare y _ hw.reflTransGen hyd (hu.reflTransGen_of_mem hy)
          by_cases heq : e.deviceId = devRec.deviceId
          · -- the device would be below the component it is above
            obtain rfl := List.inj_on_of_nodup_map hdev he hrec heq
            have hcc := Option.some_inj.mp (hec.symm.trans hroot')
            refine not_below hE₂ hlinked (hk.ascends.reflTransGen.trans ?_)
            rw [← hcc]
            exact hu.reflTransGen
          · exact hnot ⟨e, he, hec, heq⟩
      · rintro ⟨c', u, t, ⟨d, hd, hdid, hdc'⟩, hpath, hu, hfree, ht, hids, hlevel⟩
        obtain ⟨rfl, rfl⟩ := hk.unique huniq₁ ht
        obtain rfl := hsingle _ _ hk d hd devRec hrec hdc' hc
        have ha : Ascends E₂ r.componentPath r.componentId c :=
          (Ascends.linked_iff hlinked hE₂).mpr (Or.inr ⟨u, k, hpath, hu, hk.ascends⟩)
        have hn : n ∈ r.componentPath := by
          rw [hpath]
          exact List.mem_append_left _ hu.last_mem
        refine ⟨⟨c, r.componentId, r.componentPath, r.level⟩, ⟨⟨⟨ha, hids, hlevel⟩, hc, hn⟩, ?_⟩, ?_⟩
        · rintro ⟨e, he, hec, -⟩
          exact hfree _ hu.head_mem ⟨e, he, hec⟩
        · rw [hdid]
    refine ⟨List.nodup_append.mpr ⟨hdc.nodup, nodup_deviceRows hct, ?_⟩, fun r => ?_⟩
    · rintro r hr _ hr' rfl
      obtain ⟨c', u, t, -, hpath, hu, -, ht, -⟩ := (hnew r).mp hr'
      obtain ⟨c'', -, hnear, -⟩ := (hdc.mem r).mp hr
      refine hE₁.notMem_dropLast_of_root hroot hnear.ascends ?_
      rw [hpath, List.dropLast_append_of_ne_nil ht.ascends.ne_nil]
      exact List.mem_append_left _ hu.last_mem
    · rw [List.mem_append, hdc.mem, isOwned_linked hE₂ hlinked, hnew]

theorem isOwned_moved (hE : Acyclic E) (hE₂ : Acyclic E₂) (hroot : Rooted E E₁ n)
    (hlinked : Linked E₁ E₂ n p) (hn : HasDevice device n) :
    IsOwned ids E device r ↔ IsOwned ids E₂ device r := by
  rw [isOwned_linked hE₂ hlinked, isOwned_rooted hroot hE]
  constructor
  · intro hr
    exact Or.inl ⟨hr, fun hmem => hr.not_mem hmem hn⟩
  · rintro (hr | ⟨c, s, t, -, -, hs, hfree, -⟩)
    · exact hr.1
    · exact absurd hn (hfree n hs.last_mem)

/-! ## Statements -/

/-- The keys of the table of devices hold. -/
structure Tied (db : Db) : Prop where
  devices : (db.device.map (·.deviceId)).Nodup
  tied : ∀ d ∈ db.device, ∀ c ∈ d.componentId, c ∈ componentIds db.component

/-- The cache has one row for each component and each device it belongs to. -/
def OwnersHold (db : Db) : Prop :=
  OwnerHolds (componentIds db.component) (Up db.component db.slot) db.device db.ctDeviceComponents

def otherDevices (device : List Device) (deviceId : ℕ) : List Device :=
  device.filter (·.deviceId ≠ deviceId)

/-- The device may give up the component `o` and get the component `w`: it keeps its component, or
neither is inside the tree of another device; no other device is tied to `w`; and no component below
`w` that has none is below one of another device. -/
def MayReassign (db : Db) (deviceId : ℕ) (o w : Option ℕ) : Prop :=
  (o = w ∨
    (∀ c ∈ o, Outside (Up db.component db.slot) (otherDevices db.device deviceId) c) ∧
    ∀ c ∈ w, Outside (Up db.component db.slot) (otherDevices db.device deviceId) c) ∧
  ∀ c ∈ w, ¬ HasDevice (otherDevices db.device deviceId) c ∧
    Bare (Up db.component db.slot) (otherDevices db.device deviceId) c

/-- The component may move: it leaves the tree of one device only, and enters that of one only, with
no component without a device below one with a device. -/
def MayMove (db : Db) (old : Component) (q : Option ℕ) : Prop :=
  (old.parentSlotId ≠ none → Single (Up db.component db.slot) db.device old.componentId) ∧
    ∀ s ∈ db.slot, q = some s.slotId →
      (∃ l z, UpTo (Up db.component db.slot) (HasDevice db.device) l s.componentId z) →
      Single (Up db.component db.slot) db.device s.componentId ∧
        Bare (Up db.component db.slot) db.device old.componentId

/-- The condition on a statement that no key refuses.  A component with a device may move from one
parent to another freely. -/
def KeepsOwners (db : Db) : Statement → Prop
  | .insertDevice new => (∀ d ∈ db.device, d.deviceId ≠ new.deviceId) →
      (∀ c ∈ new.componentId, c ∈ componentIds db.component) →
      MayReassign db new.deviceId none new.componentId
  | .deleteDevice id => ∀ old ∈ db.device, old.deviceId = id →
      MayReassign db id old.componentId none
  | .updateDevice id w => ∀ old ∈ db.device, old.deviceId = id →
      (∀ c ∈ w, c ∈ componentIds db.component) → MayReassign db id old.componentId w
  | .updateComponent id q => ∀ old ∈ db.component, old.componentId = id →
      (∀ i ∈ q, (∃ s ∈ db.slot, s.slotId = i) ∧
        ∀ c ∈ db.component, c.componentId ≠ id → c.parentSlotId ≠ some i) →
      old.parentSlotId = none ∨ ¬ HasDevice db.device id → MayMove db old q
  | _ => True

/-- The statements on devices, and those that move components. -/
def OnDevices : Statement → Prop
  | .insertDevice _ | .deleteDevice _ | .updateDevice _ _ | .updateComponent _ _ => True
  | _ => False

theorem plus_delete (hd : (device.map (·.deviceId)).Nodup) {old : Device} (hold : old ∈ device) :
    Plus device (otherDevices device old.deviceId) old.deviceId old.componentId := by
  refine ⟨fun d hd' => of_decide_eq_true (List.mem_filter.mp hd').2, fun d _ => ?_⟩
  rw [otherDevices, List.mem_filter, decide_eq_true_iff]
  constructor
  · intro hmem
    by_cases hid : d.deviceId = old.deviceId
    · exact Or.inr (List.inj_on_of_nodup_map hd hmem hold hid)
    · exact Or.inl ⟨hmem, hid⟩
  · rintro (hmem | rfl)
    · exact hmem.1
    · exact hold

theorem plus_none (others : List Device) (hothers : ∀ d ∈ others, d.deviceId ≠ n) :
    Plus others others n none := by
  refine ⟨hothers, fun d hd => (or_iff_left ?_).symm⟩
  rintro rfl
  exact hd rfl

theorem leaveDevice_eq {others : List Device} {o : Option ℕ} (hdc : OwnerHolds ids E device dc)
    (hplus : Plus device others n o) : leaveDevice dc ⟨n, o⟩ = dc.filter (·.deviceId ≠ n) := by
  cases o with
  | some c => exact if_pos (Option.some_ne_none c)
  | none =>
    refine (if_neg (not_not_intro rfl)).trans (List.filter_eq_self.mpr fun r hr => ?_).symm
    refine decide_eq_true fun hid => ?_
    obtain ⟨c, hc, -⟩ := (isOwned_of_own hplus hid).mp ((hdc.mem r).mp hr)
    exact nomatch hc

theorem checkDevice_eq_ok {w : Option ℕ} (h : checkDevice component w = .ok ()) :
    ∀ c ∈ w, c ∈ componentIds component := by
  rintro c rfl
  have h := raiseIf_eq_ok.mp h
  by_contra hnot
  refine h ⟨Option.some_ne_none c, fun d hd hdc => hnot ?_⟩
  exact Option.some_inj.mp hdc ▸ List.mem_map_of_mem hd

/-- The handler returns early for a component with a device that has a parent. -/
theorem leaveOwner_eq_none : leaveOwner device dc old = none ↔
    old.parentSlotId ≠ none ∧ HasDevice device old.componentId := by
  unfold leaveOwner HasDevice
  split
  · next hp => exact ⟨fun hleave => (nomatch hleave), fun hand => absurd hp hand.1⟩
  · next hp =>
    rw [and_iff_right hp]
    split
    · next hd => exact iff_of_true rfl hd
    · next hd =>
      refine iff_of_false ?_ hd
      split
      · exact Option.some_ne_none _
      · exact Option.some_ne_none _

section Statements

variable (h : Forest db) (hh : HierHolds db) (hdc : OwnersHold db)

include h hh hdc

theorem ownersHold_reassign {after others : List Device} {o w : Option ℕ}
    (hbefore : Plus db.device others n o) (hafter : Plus after others n w)
    (ho : ∀ c ∈ o, c ∈ componentIds db.component) (hw : ∀ c ∈ w, c ∈ componentIds db.component) :
    OwnerHolds (componentIds db.component) (Up db.component db.slot) after
      (enterDevice after db.ctComponentHier (leaveDevice db.ctDeviceComponents ⟨n, o⟩) ⟨n, w⟩) ↔
      (o = w ∨ (∀ c ∈ o, Outside (Up db.component db.slot) others c) ∧
        ∀ c ∈ w, Outside (Up db.component db.slot) others c) ∧
      ∀ c ∈ w, ¬ HasDevice others c ∧ Bare (Up db.component db.slot) others c := by
  rw [leaveDevice_eq hdc hbefore]
  exact reassign_iff hh h.acyclic (fun x y hxy => ⟨hxy.mem_left, h.valid.up_mem_right hxy⟩) hdc
    hbefore hafter ho hw

theorem insertDevice_iff {new : Device} (hok : insertDevice db new = .ok db') :
    OwnersHold db' ↔ MayReassign db new.deviceId none new.componentId := by
  obtain ⟨hnew, hok⟩ := bind_unit_eq_ok.mp hok
  obtain ⟨hcheck, hok⟩ := bind_unit_eq_ok.mp hok
  obtain rfl := Except.ok.inj hok
  have hfresh : ∀ d ∈ db.device, d.deviceId ≠ new.deviceId := fun d hd hid =>
    raiseIf_eq_ok.mp hnew ⟨d, hd, hid⟩
  have hothers : otherDevices db.device new.deviceId = db.device :=
    List.filter_eq_self.mpr fun d hd => decide_eq_true (hfresh d hd)
  have hafter : Plus (db.device ++ [new]) db.device new.deviceId new.componentId := by
    refine ⟨hfresh, fun d _ => ?_⟩
    rw [List.mem_append, List.mem_singleton]
  rw [MayReassign, hothers]
  exact ownersHold_reassign h hh hdc (plus_none _ hfresh) hafter (fun c hc => nomatch hc)
    (checkDevice_eq_ok hcheck)

variable (htied : Tied db)

include htied

theorem deleteDevice_iff {old : Device} (hold : old ∈ db.device)
    (hok : deleteDevice db old = .ok db') :
    OwnersHold db' ↔ MayReassign db old.deviceId old.componentId none := by
  obtain rfl := Except.ok.inj hok
  have hbefore := plus_delete htied.devices hold
  exact ownersHold_reassign h hh hdc hbefore (plus_none _ hbefore.1) (htied.tied old hold)
    (fun c hc => nomatch hc)

theorem updateDevice_iff {old : Device} {w : Option ℕ} (hold : old ∈ db.device)
    (hok : updateDevice db old w = .ok db') :
    OwnersHold db' ↔ MayReassign db old.deviceId old.componentId w := by
  obtain ⟨hcheck, hok⟩ := bind_unit_eq_ok.mp hok
  obtain rfl := Except.ok.inj hok
  have hbefore := plus_delete htied.devices hold
  refine ownersHold_reassign h hh hdc hbefore ⟨hbefore.1, fun d _ => ?_⟩ (htied.tied old hold)
    (checkDevice_eq_ok hcheck)
  rw [otherDevices, List.mem_filter, decide_eq_true_iff]
  constructor
  · intro hd
    obtain ⟨e, he, rfl⟩ := List.mem_map.mp hd
    by_cases hid : e.deviceId = old.deviceId
    · exact Or.inr (if_pos hid)
    · rw [if_neg hid]
      exact Or.inl ⟨he, hid⟩
  · rintro (⟨hd, hid⟩ | rfl)
    · exact List.mem_map.mpr ⟨d, hd, if_neg hid⟩
    · exact List.mem_map.mpr ⟨old, hold, if_pos rfl⟩

theorem ownersHold_updateComponent {q : Option ℕ} (hold : old ∈ db.component)
    (hok : updateComponent db old q = .ok db') (hE' : Acyclic (Up db'.component db'.slot))
    (hmove : old.parentSlotId = none ∨ ¬ HasDevice db.device old.componentId → MayMove db old q) :
    OwnersHold db' := by
  have hh' := forest_updateComponent h hh hold hok hE'
  obtain ⟨hcheck, hok⟩ := bind_unit_eq_ok.mp hok
  obtain rfl := Except.ok.inj hok
  have hslot := slot_of_checkParentSlot hcheck
  have hv' := h.valid.setParent hold hslot
  have hroot : Rooted (Up db.component db.slot) (Up (setParent db.component old none) db.slot)
      old.componentId := up_setParent_none hold
  have hids : ∀ x y, Up db.component db.slot x y →
      x ∈ componentIds db.component ∧ y ∈ componentIds db.component :=
    fun x y hxy => ⟨hxy.mem_left, h.valid.up_mem_right hxy⟩
  have hct : Holds (componentIds (setParent db.component old q))
      (Up (setParent db.component old q) db.slot) (cacheComponentParentHandler db.slot
        db.ctComponentHier (.update old { old with parentSlotId := q })) := hh'
  show OwnerHolds (componentIds (setParent db.component old q))
    (Up (setParent db.component old q) db.slot) db.device (cacheDeviceComponentComponentHandler
      db.slot db.device (cacheComponentParentHandler db.slot db.ctComponentHier
        (.update old { old with parentSlotId := q })) db.ctDeviceComponents
      (.update old { old with parentSlotId := q }))
  generalize cacheComponentParentHandler db.slot db.ctComponentHier _ = ct at hct ⊢
  rw [cacheDeviceComponentComponentHandler]
  rw [componentIds_setParent] at hct ⊢
  cases hleave : leaveOwner db.device db.ctDeviceComponents old with
  | none =>
    obtain ⟨-, hn⟩ := leaveOwner_eq_none.mp hleave
    refine ⟨hdc.nodup, fun r => (hdc.mem r).trans ?_⟩
    cases q with
    | none =>
      rw [isOwned_rooted hroot h.acyclic]
      exact (and_iff_left_of_imp fun hr hmem => hr.not_mem hmem hn).symm
    | some i =>
      obtain ⟨s, hs, rfl⟩ := hslot i rfl
      exact isOwned_moved h.acyclic hE' hroot (up_setParent_some h.valid hold hs) hn
  | some dc' =>
    have hcond : MayMove db old q := by
      refine hmove (or_iff_not_and_not.mpr fun hnot => ?_)
      rw [not_not] at hnot
      exact absurd ((leaveOwner_eq_none.mpr hnot).symm.trans hleave) nofun
    have hmid := leaveOwner_spec hdc h.acyclic hids (fun x y z => h.valid.up_unique) hroot
      (h.valid.not_up hold) hcond.1 hleave
    cases q with
    | none => exact hmid
    | some i =>
      obtain ⟨s, hs, rfl⟩ := hslot i rfl
      refine enterOwner_spec hmid hct hv' hs (h.valid.owners s hs)
        (up_setParent_some h.valid hold hs) hE' (fun x y z => hv'.up_unique)
        (fun y hy => ((hroot _ _).mp hy).2 rfl) htied.devices ?_
      rintro ⟨l, z, hl⟩
      obtain ⟨hsingle, hbare⟩ := hcond.2 s hs rfl ⟨l, z, ((UpTo.rooted_iff hroot h.acyclic).mp hl).1⟩
      refine ⟨fun l z hl => hsingle l z ((UpTo.rooted_iff hroot h.acyclic).mp hl).1, ?_⟩
      have hmono : ∀ x y, Relation.ReflTransGen (Up (setParent db.component old none) db.slot) x y →
          Relation.ReflTransGen (Up db.component db.slot) x y :=
        Relation.ReflTransGen.mono fun x y hxy => ((hroot x y).mp hxy).1
      exact fun y x hy hyd hx => hbare y x (hmono _ _ hy) hyd (hmono _ _ hx)

end Statements

theorem Tied.execute (htied : Tied db) {s : Statement} (hs : OnDevices s)
    (hok : execute db s = .ok db') : Tied db' := by
  cases s with
  | insertDevice new =>
    obtain ⟨hnew, hok⟩ := bind_unit_eq_ok.mp hok
    obtain ⟨hcheck, hok⟩ := bind_unit_eq_ok.mp hok
    obtain rfl := Except.ok.inj hok
    refine ⟨?_, fun d hd => ?_⟩
    · show ((db.device ++ [new]).map (·.deviceId)).Nodup
      rw [List.map_append]
      refine List.nodup_append.mpr ⟨htied.devices, List.nodup_singleton _, ?_⟩
      rintro x hx _ hx' rfl
      obtain ⟨d, hd, rfl⟩ := List.mem_map.mp hx
      exact raiseIf_eq_ok.mp hnew ⟨d, hd, List.mem_singleton.mp hx'⟩
    · rcases List.mem_append.mp hd with hd | hd
      · exact htied.tied d hd
      · obtain rfl := List.mem_singleton.mp hd
        exact checkDevice_eq_ok hcheck
  | deleteDevice id =>
    rw [Components.execute] at hok
    split at hok
    · obtain rfl := Except.ok.inj hok
      exact htied
    · obtain rfl := Except.ok.inj hok
      exact ⟨(List.filter_sublist.map _).nodup htied.devices,
        fun d hd => htied.tied d (List.mem_of_mem_filter hd)⟩
  | updateDevice id w =>
    rw [Components.execute] at hok
    split at hok
    · obtain rfl := Except.ok.inj hok
      exact htied
    · next old hold =>
      obtain ⟨hcheck, hok⟩ := bind_unit_eq_ok.mp hok
      obtain rfl := Except.ok.inj hok
      have hmap : (db.device.map fun d => if d.deviceId = old.deviceId then
          { old with componentId := w } else d).map (·.deviceId) = db.device.map (·.deviceId) := by
        rw [List.map_map]
        refine List.map_congr_left fun d _ => ?_
        rw [Function.comp_apply]
        split
        · next hid => exact hid.symm
        · rfl
      refine ⟨(congrArg List.Nodup hmap).mpr htied.devices, fun d hd => ?_⟩
      obtain ⟨e, he, rfl⟩ := List.mem_map.mp hd
      split
      · exact checkDevice_eq_ok hcheck
      · exact htied.tied e he
  | updateComponent id q =>
    rw [Components.execute] at hok
    split at hok
    · obtain rfl := Except.ok.inj hok
      exact htied
    · obtain ⟨-, hok⟩ := bind_unit_eq_ok.mp hok
      obtain rfl := Except.ok.inj hok
      refine ⟨htied.devices, fun d hd c hc => ?_⟩
      show c ∈ componentIds (setParent _ _ _)
      rw [componentIds_setParent]
      exact htied.tied d hd c hc
  | insertComponent _ => exact hs.elim
  | deleteComponent _ => exact hs.elim
  | insertSlot _ => exact hs.elim
  | deleteSlot _ => exact hs.elim

theorem ownersHold_step (h : Forest db) (hh : HierHolds db) (hdc : OwnersHold db) (htied : Tied db)
    {s : Statement} (hforest : KeepsForest db s) (hs : OnDevices s) (hcond : KeepsOwners db s) :
    OwnersHold (step db s) := by
  cases hok : execute db s with
  | error e => rwa [step_eq_self hok]
  | ok db' =>
    rw [KeepsForest, step_eq hok] at hforest
    rw [step_eq hok]
    cases s with
    | insertDevice new =>
      obtain ⟨hnew, hrest⟩ := bind_unit_eq_ok.mp hok
      obtain ⟨hcheck, -⟩ := bind_unit_eq_ok.mp hrest
      exact (insertDevice_iff h hh hdc hok).mpr (hcond
        (fun d hd hid => raiseIf_eq_ok.mp hnew ⟨d, hd, hid⟩) (checkDevice_eq_ok hcheck))
    | deleteDevice id =>
      rw [execute] at hok
      split at hok
      · obtain rfl := Except.ok.inj hok
        exact hdc
      · next old hfind =>
        obtain ⟨hold, rfl⟩ := Library.of_find?_eq_some hfind
        exact (deleteDevice_iff h hh hdc htied hold hok).mpr (hcond old hold rfl)
    | updateDevice id w =>
      rw [execute] at hok
      split at hok
      · obtain rfl := Except.ok.inj hok
        exact hdc
      · next old hfind =>
        obtain ⟨hold, rfl⟩ := Library.of_find?_eq_some hfind
        obtain ⟨hcheck, -⟩ := bind_unit_eq_ok.mp hok
        exact (updateDevice_iff h hh hdc htied hold hok).mpr
          (hcond old hold rfl (checkDevice_eq_ok hcheck))
    | updateComponent id q =>
      rw [execute] at hok
      split at hok
      · obtain rfl := Except.ok.inj hok
        exact hdc
      · next old hfind =>
        obtain ⟨hold, rfl⟩ := Library.of_find?_eq_some hfind
        obtain ⟨hcheck, -⟩ := bind_unit_eq_ok.mp hok
        obtain ⟨hunique, -⟩ := bind_unit_eq_ok.mp hcheck
        refine ownersHold_updateComponent h hh hdc htied hold hok hforest (hcond old hold rfl ?_)
        rintro i rfl
        refine ⟨slot_of_checkParentSlot hcheck i rfl, fun c hc hne hp => ?_⟩
        exact raiseIf_eq_ok.mp hunique ⟨Option.some_ne_none i, c,
          List.mem_filter.mpr ⟨hc, decide_eq_true hne⟩, hp⟩
    | insertComponent _ => exact hs.elim
    | deleteComponent _ => exact hs.elim
    | insertSlot _ => exact hs.elim
    | deleteSlot _ => exact hs.elim

/-! ## Every run -/

/-- The cache has the rows of its view. -/
def OwnerExact (db : Db) : Prop :=
  db.ctDeviceComponents.Perm (vDeviceComponents db.ctComponentHier db.device)
  deriving Decidable

theorem ownerExact_iff (h : Forest db) (hh : HierHolds db) (htied : Tied db) :
    OwnerExact db ↔ OwnersHold db := by
  have hview := holds_vDeviceComponents hh (fun x y z => h.valid.up_unique) htied.devices
  exact ⟨hview.of_perm, fun hdc => hdc.perm hview⟩

/-- **The cache is its view in every state of a run** of statements that meet the condition. -/
theorem ctDeviceComponents_exact (h : Forest db) (hh : HierExact db) (htied : Tied db)
    (hdc : OwnerExact db) {l : List Statement}
    (hl : AllSteps step (fun db s => KeepsForest db s ∧ OnDevices s ∧ KeepsOwners db s) db l) :
    ∀ l', l' <+: l → HierExact (Library.run step db l') ∧ OwnerExact (Library.run step db l') := by
  rintro l' ⟨l'', rfl⟩
  have hh := (hierExact_iff h).mp hh
  have hend := run_invariant (I := fun db => Forest db ∧ HierHolds db ∧ Tied db ∧ OwnersHold db)
    (fun db s hdb hs => ?_) ⟨h, hh, htied, (ownerExact_iff h hh htied).mp hdc⟩
    (AllSteps.append.mp hl).1
  · obtain ⟨h, hh, htied, hdc⟩ := hend
    exact ⟨(hierExact_iff h).mpr hh, (ownerExact_iff h hh htied).mpr hdc⟩
  · obtain ⟨h, hh, htied, hdc⟩ := hdb
    obtain ⟨hforest, hdev, hcond⟩ := hs
    refine ⟨h.step hforest, (hierHolds_step_iff h hh hforest).mpr ?_, ?_,
      ownersHold_step h hh hdc htied hforest hdev hcond⟩
    · cases s with
      | deleteComponent _ => exact hdev.elim
      | _ => trivial
    · cases hok : execute db s with
      | ok db' =>
        rw [step_eq hok]
        exact htied.execute hdev hok
      | error e => rwa [step_eq_self hok]

/-- A component in the slot of another one. -/
def chassis : Db where
  component := [⟨1, none⟩, ⟨2, some 10⟩]
  slot := [⟨10, 1⟩]
  device := []
  ctComponentHier := [⟨1, 1, [1], 1⟩, ⟨2, 2, [2], 1⟩, ⟨1, 2, [2, 1], 2⟩]
  ctDeviceComponents := []

theorem forest_chassis : Forest chassis where
  valid := ⟨by decide, by decide, by decide, by decide⟩
  acyclic := acyclic_of_lt (by decide)

theorem Single.singleton {d : Device} {x : ℕ} : Single E [d] x := by
  intro l z _ e he f hf _ _
  exact (List.mem_singleton.mp he).trans (List.mem_singleton.mp hf).symm

/-- The outer component gets a device, and the inner one is taken out and put back. -/
theorem ctDeviceComponents_exact_chassis :
    let l : List Statement := [.insertDevice ⟨100, some 1⟩, .updateComponent 2 none,
      .updateComponent 2 (some 10)]
    HierExact (Library.run step chassis l) ∧ OwnerExact (Library.run step chassis l) := by
  intro l
  refine ctDeviceComponents_exact (l := l) forest_chassis (by decide) ⟨by decide, by decide⟩ (by decide)
    ⟨⟨acyclic_of_lt (by decide), trivial, ?_⟩, ⟨acyclic_of_lt (by decide), trivial, ?_⟩,
      ⟨acyclic_of_lt (by decide), trivial, ?_⟩, trivial⟩ l List.prefix_rfl
  · intro _ _
    have hnone : ∀ c, ¬ HasDevice (otherDevices chassis.device 100) c := by
      rintro c ⟨d, hd, -⟩
      exact nomatch hd
    exact ⟨Or.inr ⟨fun c hc => (nomatch hc), fun c _ => Or.inr fun y _ => hnone y⟩,
      fun c _ => ⟨hnone c, fun y _ _ hy => absurd hy (hnone y)⟩⟩
  · intro old hold _ _ _
    exact ⟨fun _ => .singleton, fun s _ hs => nomatch hs⟩
  · intro old hold hid _ _
    refine ⟨fun _ => .singleton, fun s _ _ _ => ⟨.singleton, fun y x hy hyd _ => ?_⟩⟩
    -- nothing is above the outer component
    obtain ⟨d, hd, hdy⟩ := hyd
    obtain rfl := List.mem_singleton.mp hd
    obtain rfl : 1 = y := Option.some_inj.mp hdy
    exfalso
    rcases Relation.ReflTransGen.cases_head hy with heq | ⟨b, ⟨c, hc, s, -, -, hcs, -⟩, -⟩
    · exact absurd (heq.trans hid) (by decide)
    · have hroots : ∀ c ∈ (Library.run step chassis
          [.insertDevice ⟨100, some 1⟩, .updateComponent 2 none]).component,
          c.parentSlotId = none := by decide
      exact nomatch (hroots c hc).symm.trans hcs

/-- A device on the inner component of another device: the rows of the outer device stay. -/
theorem ctDeviceComponents_nested :
    let l : List Statement := [.insertDevice ⟨100, some 1⟩, .insertDevice ⟨200, some 2⟩]
    let db := Library.run step chassis l
    HierExact chassis ∧ OwnerExact chassis ∧
      AllSteps step (fun db s => KeepsForest db s ∧ OnDevices s) chassis l ∧ HierExact db ∧
      db.ctDeviceComponents = [⟨100, 1, [1], 1⟩, ⟨100, 2, [2, 1], 2⟩, ⟨200, 2, [2], 1⟩] ∧
      vDeviceComponents db.ctComponentHier db.device = [⟨100, 1, [1], 1⟩, ⟨200, 2, [2], 1⟩] ∧
      ¬ OwnerExact db := by
  refine ⟨by decide, by decide, ⟨⟨acyclic_of_lt (by decide), trivial⟩,
    ⟨acyclic_of_lt (by decide), trivial⟩, trivial⟩, by decide, by decide, by decide, ?_⟩
  intro hperm
  exact absurd hperm.length_eq (by decide)

end JazzHands.Components

import JazzHands.Library.Cascade
import JazzHands.LvManip.DeletePv
import Mathlib.Data.List.Nodup

/-!
# What is deleted with a physicalish volume

* `Node`, `Db.Needs`, `Db.PartOf`: a volume group rests on its members; a logical volume is part of
  its group, and a physicalish volume part of the logical volume that it is laid on.
-/

namespace JazzHands.LvManip

open Library

inductive Node
  | pv (physicalishVolumeId : ℕ)
  | vg (volumeGroupId : ℕ)
  | lv (logicalVolumeId : ℕ)

def Db.Needs (db : Db) : Node → Node → Prop
  | .vg g, .pv p => ⟨g, p⟩ ∈ db.member
  | _, _ => False

def Db.PartOf (db : Db) : Node → Node → Prop
  | .lv l, .vg g => ⟨l, g⟩ ∈ db.logicalVolume
  | .pv p, .lv l => ⟨p, some l⟩ ∈ db.physicalishVolume
  | _, _ => False

/-- The listed volumes. -/
def Listed (list : List ℕ) (a : Node) : Prop := ∃ p ∈ list, a = .pv p

/-- **The least set** with the listed volumes, every group that had members and has none left, every
logical volume of such a group, and every physicalish volume that is laid on such a logical
volume. -/
def Db.Condemned (db : Db) (list : List ℕ) : Node → Prop := Falls db.Needs db.PartOf (Listed list)

/-- A volume is in one group at most. -/
def Db.Single (db : Db) : Prop := ∀ g g' p, ⟨g, p⟩ ∈ db.member → ⟨g', p⟩ ∈ db.member → g = g'

variable {db db₁ db₂ : Db} {list list' : List ℕ} {p pvid vgid g l : ℕ} {a : Node}
  {C C₁ C₂ : Node → Prop} {ρ : Type} {T T₁ T₂ : List ρ} {node : ρ → Node} {keep : ρ → Bool}

@[simp] theorem listed_nil : ¬ Listed [] a := by simp [Listed]

theorem listed_append : Listed (list ++ list') a ↔ Listed list a ∨ Listed list' a := by
  simp [Listed, or_and_right, exists_or]

@[simp] theorem listed_pv : Listed list (.pv p) ↔ p ∈ list := by simp [Listed]

theorem condemned_of_mem (h : p ∈ list) : db.Condemned list (.pv p) := .taken ⟨p, h, rfl⟩

/-! ## Tables without some rows -/

/-- The rows of `T'` are those of `T` whose node is not gone. -/
def Drops (gone : Node → Prop) (node : ρ → Node) (T T' : List ρ) : Prop :=
  ∀ r, r ∈ T' ↔ r ∈ T ∧ ¬ gone (node r)

theorem Drops.refl (h : ∀ r ∈ T, ¬ C (node r)) : Drops C node T T :=
  fun r => ⟨fun hr => ⟨hr, h r hr⟩, fun hr => hr.1⟩

theorem Drops.trans (h₁ : Drops C₁ node T T₁) (h₂ : Drops C₂ node T₁ T₂)
    (h : ∀ a, C a ↔ C₁ a ∨ C₂ a) : Drops C node T T₂ := by
  intro r
  rw [h₂ r, h₁ r, h, not_or, and_assoc]

theorem drops_filter (h : ∀ r, keep r = true ↔ ¬ C (node r)) :
    Drops C node T (T.filter keep) := by
  intro r
  rw [List.mem_filter, h]

/-- Everything but the physicalish volumes is there without what is gone. -/
structure Purged (gone : Node → Prop) (db db' : Db) : Prop where
  member : Drops gone (fun m => .pv m.physicalishVolumeId) db.member db'.member
  group : Drops gone .vg db.volumeGroup db'.volumeGroup
  volume : Drops gone (fun v => .lv v.logicalVolumeId) db.logicalVolume db'.logicalVolume
  groupPurpose : Drops gone (fun r => .vg r.volumeGroupId)
    db.volumeGroupPurpose db'.volumeGroupPurpose
  property : Drops gone (fun r => .lv r.logicalVolumeId)
    db.logicalVolumeProperty db'.logicalVolumeProperty
  purpose : Drops gone (fun r => .lv r.logicalVolumeId)
    db.logicalVolumePurpose db'.logicalVolumePurpose
  device : Drops gone (fun r => .lv r.logicalVolumeId)
    db.blockStorageDevice db'.blockStorageDevice

theorem Purged.trans (h₁ : Purged C₁ db db₁) (h₂ : Purged C₂ db₁ db₂)
    (h : ∀ a, C a ↔ C₁ a ∨ C₂ a) : Purged C db db₂ where
  member := h₁.member.trans h₂.member h
  group := h₁.group.trans h₂.group h
  volume := h₁.volume.trans h₂.volume h
  groupPurpose := h₁.groupPurpose.trans h₂.groupPurpose h
  property := h₁.property.trans h₂.property h
  purpose := h₁.purpose.trans h₂.purpose h
  device := h₁.device.trans h₂.device h

/-- All tables are there without what is gone. -/
structure Without (gone : Node → Prop) (db db' : Db) : Prop extends Purged gone db db' where
  physical : Drops gone (fun r => .pv r.physicalishVolumeId)
    db.physicalishVolume db'.physicalishVolume

/-- What is condemned is gone, but a volume of the list may still have its row. -/
structure Swept (db : Db) (list : List ℕ) (db' : Db) : Prop
    extends Purged (db.Condemned list) db db' where
  kept : ∀ r ∈ db.physicalishVolume, ¬ db.Condemned list (.pv r.physicalishVolumeId) →
    r ∈ db'.physicalishVolume
  listed : ∀ r ∈ db'.physicalishVolume, r ∈ db.physicalishVolume ∧
    (db.Condemned list (.pv r.physicalishVolumeId) → r.physicalishVolumeId ∈ list)

theorem Swept.without (h : Swept db list db₁) :
    Without (db.Condemned list) db (db₁.deletePhysicalishVolumes list) := by
  refine ⟨⟨h.member, h.group, h.volume, h.groupPurpose, h.property, h.purpose, h.device⟩, ?_⟩
  intro r
  show r ∈ db₁.physicalishVolume.filter _ ↔ _
  rw [List.mem_filter, decide_eq_true_eq]
  constructor
  · rintro ⟨hr, hnot⟩
    exact ⟨(h.listed r hr).1, fun hc => hnot ((h.listed r hr).2 hc)⟩
  · rintro ⟨hr, hnot⟩
    exact ⟨h.kept r hr hnot, fun hmem => hnot (condemned_of_mem hmem)⟩

theorem Swept.single (h : Swept db list db₁) (hdb : db.Single) : db₁.Single := by
  intro g g' p hg hg'
  exact hdb g g' p ((h.member _).mp hg).1 ((h.member _).mp hg').1

/-! ## Two lists -/

/-- What is condemned with two lists is what is condemned with the first one, and with the second
one afterwards. -/
theorem Swept.condemned_append (h : Swept db list db₁) :
    db.Condemned (list ++ list') a ↔ db.Condemned list a ∨ db₁.Condemned list' a := by
  refine falls_iff_split (fun a ha => ?_) (fun a ha => ?_) (fun a ha => ?_) (fun a b => ?_)
    (fun a b hab => ?_) (fun a b hab => ?_) (fun a b hab hall => .unsupported hab hall)
    fun a b hab hb => .inl (.part hab hb)
  · exact ha.least (fun a ha => .taken (listed_append.mpr (.inl ha)))
      (fun a b hb h => .unsupported hb h) fun a b hb h => .part hb h
  · exact (listed_append.mp ha).imp_left .taken
  · exact .taken (listed_append.mpr (.inr ha))
  · cases a <;> cases b <;> simp [Db.Needs, h.member _]
  · cases a <;> cases b <;> try exact hab.elim
    · exact (h.listed _ hab).1
    · exact ((h.volume _).mp hab).1
  · by_cases hgone : db.Condemned list a
    · exact .inl hgone
    refine .inr ?_
    cases a <;> cases b <;> try exact hab.elim
    · exact h.kept _ hab hgone
    · exact (h.volume _).mpr ⟨hab, hgone⟩

theorem swept_append (h₁ : Swept db list db₁) (h₂ : Swept db₁ list' db₂) :
    Swept db (list ++ list') db₂ := by
  have hiff : ∀ a, db.Condemned (list ++ list') a ↔
      db.Condemned list a ∨ db₁.Condemned list' a := fun a => h₁.condemned_append
  refine ⟨h₁.toPurged.trans h₂.toPurged hiff, fun r hr hnot => ?_, fun r hr => ?_⟩
  · rw [hiff, not_or] at hnot
    exact h₂.kept r (h₁.kept r hr hnot.1) hnot.2
  · obtain ⟨hr₁, hlisted⟩ := h₂.listed r hr
    obtain ⟨hr₀, hlisted₁⟩ := h₁.listed r hr₁
    refine ⟨hr₀, fun hc => List.mem_append.mpr ?_⟩
    exact ((hiff _).mp hc).imp hlisted₁ hlisted

/-! ## One volume -/

/-- The nodes of one volume. -/
def IsPv (pvid : ℕ) (a : Node) : Prop := a = .pv pvid

/-- A volume whose group, if it has one, has another member. -/
theorem condemned_alone (h : ∀ g, ⟨g, pvid⟩ ∈ db.member → ∃ q, q ≠ pvid ∧ ⟨g, q⟩ ∈ db.member) :
    db.Condemned [pvid] a ↔ IsPv pvid a := by
  constructor
  · intro ha
    refine ha.least (fun a ha => ?_) (fun a b hb hall => ?_) fun a b hb heq => ?_
    · obtain ⟨q, hq, rfl⟩ := ha
      rw [List.mem_singleton.mp hq]
      rfl
    · cases a <;> cases b <;> try exact hb.elim
      next g q =>
      obtain rfl := Node.pv.inj (hall (.pv q) hb)
      obtain ⟨q', hne, hq'⟩ := h g hb
      exact absurd (Node.pv.inj (hall (.pv q') hq')) hne
    · obtain rfl := heq
      cases a <;> exact hb.elim
  · rintro rfl
    exact condemned_of_mem List.mem_cons_self

theorem purged_leave : Purged (IsPv pvid) db (db.leave pvid) where
  member := drops_filter fun m => by simp [IsPv]
  group := .refl fun _ _ => nofun
  volume := .refl fun _ _ => nofun
  groupPurpose := .refl fun _ _ => nofun
  property := .refl fun _ _ => nofun
  purpose := .refl fun _ _ => nofun
  device := .refl fun _ _ => nofun

theorem swept_alone (h : ∀ g, ⟨g, pvid⟩ ∈ db.member → ∃ q, q ≠ pvid ∧ ⟨g, q⟩ ∈ db.member) :
    Swept db [pvid] (db.leave pvid) := by
  have hC : db.Condemned [pvid] = IsPv pvid := funext fun a => propext (condemned_alone h)
  refine ⟨hC ▸ purged_leave, fun r hr _ => hr, fun r hr => ⟨hr, fun hc => ?_⟩⟩
  rw [hC] at hc
  rw [Node.pv.inj hc]
  exact List.mem_singleton_self _

/-! ## A group that is left empty -/

/-- The volume, its group and the logical volumes of the group. -/
def Emptied (db : Db) (pvid vgid : ℕ) (a : Node) : Prop :=
  a = .pv pvid ∨ a = .vg vgid ∨ ∃ l ∈ db.lvids [vgid], a = .lv l

theorem mem_lvids : l ∈ db.lvids [vgid] ↔ ⟨l, vgid⟩ ∈ db.logicalVolume := by
  simp only [Db.lvids, List.mem_map, List.mem_filter, List.mem_singleton, decide_eq_true_eq]
  constructor
  · rintro ⟨⟨l, g⟩, ⟨hv, rfl⟩, rfl⟩
    exact hv
  · exact fun hv => ⟨_, ⟨hv, rfl⟩, rfl⟩

theorem mem_laidOn : p ∈ db.laidOn list ↔ ∃ l ∈ list, ⟨p, some l⟩ ∈ db.physicalishVolume := by
  simp only [Db.laidOn, List.mem_map, List.mem_filter, decide_eq_true_eq]
  constructor
  · rintro ⟨⟨p, lv⟩, ⟨hr, l, hl, rfl⟩, rfl⟩
    exact ⟨l, hl, hr⟩
  · rintro ⟨l, hl, hr⟩
    exact ⟨_, ⟨hr, l, hl, rfl⟩, rfl⟩

theorem condemned_emptied (hdb : db.Single) (hmem : ⟨vgid, pvid⟩ ∈ db.member)
    (hempty : ∀ q, ⟨vgid, q⟩ ∈ db.member → q = pvid) :
    db.Condemned [pvid] a ↔ Emptied db pvid vgid a ∨
      (db.leave pvid).Condemned (db.laidOn (db.lvids [vgid])) a := by
  have hpv : db.Condemned [pvid] (.pv pvid) := condemned_of_mem List.mem_cons_self
  have hvg : db.Condemned [pvid] (.vg vgid) := by
    refine .unsupported (b := .pv pvid) hmem fun b hb => ?_
    cases b <;> try exact hb.elim
    next q => rwa [hempty q hb]
  have hlv : ∀ l ∈ db.lvids [vgid], db.Condemned [pvid] (.lv l) :=
    fun l hl => .part (b := .vg vgid) (mem_lvids.mp hl) hvg
  refine falls_iff_split (fun a ha => ?_) (fun a ha => ?_) (fun a ha => ?_) (fun a b => ?_)
    (fun a b hab => hab) (fun a b hab => .inr hab) (fun a b hab hall => ?_) fun a b hab hb => ?_
  · rcases ha with rfl | rfl | ⟨l, hl, rfl⟩
    · exact hpv
    · exact hvg
    · exact hlv l hl
  · obtain ⟨q, hq, rfl⟩ := ha
    rw [List.mem_singleton.mp hq]
    exact .inl (.inl rfl)
  · obtain ⟨q, hq, rfl⟩ := ha
    obtain ⟨l, hl, hr⟩ := mem_laidOn.mp hq
    exact .part (b := .lv l) hr (hlv l hl)
  · cases a <;> cases b <;> simp [Db.Needs, Emptied, Db.leave]
  · cases a <;> cases b <;> try exact hab.elim
    next g q =>
    -- all members of the group are the volume
    rcases hall (.pv q) hab with hq | hq | ⟨l, -, hq⟩
    · obtain rfl := Node.pv.inj hq
      exact .inr (.inl (congrArg _ (hdb _ _ _ hab hmem)))
    · cases hq
    · cases hq
  · rcases hb with rfl | rfl | ⟨l, hl, rfl⟩
    · cases a <;> exact hab.elim
    · cases a <;> try exact hab.elim
      next l => exact .inl (.inr (.inr ⟨l, mem_lvids.mpr hab, rfl⟩))
    · cases a <;> try exact hab.elim
      next q => exact .inr ⟨q, mem_laidOn.mpr ⟨l, hl, hab⟩, rfl⟩

theorem purged_deleteVolumeGroups (hempty : db.hasMember vgid = false) :
    Purged (fun a => a = .vg vgid ∨ ∃ l ∈ list, a = .lv l) db
      (db.deleteVolumeGroups [vgid] list) where
  member := by
    intro m
    show m ∈ db.member.filter _ ↔ _
    rw [List.mem_filter]
    refine and_congr_right fun hm => ?_
    have hne : m.volumeGroupId ≠ vgid := by
      simpa using List.any_eq_false.mp hempty m hm
    simp [hne]
  group := drops_filter fun g => by simp
  volume := drops_filter fun v => by simp
  groupPurpose := drops_filter fun r => by simp
  property := drops_filter fun r => by simp
  purpose := drops_filter fun r => by simp
  device := drops_filter fun r => by simp

theorem swept_emptied (hdb : db.Single) (hmem : ⟨vgid, pvid⟩ ∈ db.member)
    (hempty : (db.leave pvid).hasMember vgid = false)
    (h : Without ((db.leave pvid).Condemned (db.laidOn (db.lvids [vgid]))) (db.leave pvid) db₁) :
    Swept db [pvid] (db₁.deleteVolumeGroups [vgid] (db.lvids [vgid])) := by
  have honly : ∀ q, ⟨vgid, q⟩ ∈ db.member → q = pvid := by
    intro q hq
    by_contra hne
    exact List.any_eq_false.mp hempty ⟨vgid, q⟩
      (List.mem_filter.mpr ⟨hq, decide_eq_true hne⟩) (decide_eq_true rfl)
  have hempty₁ : db₁.hasMember vgid = false := by
    refine List.any_eq_false.mpr fun m hm => ?_
    exact List.any_eq_false.mp hempty m ((h.member m).mp hm).1
  have hiff := fun a => condemned_emptied (a := a) hdb hmem honly
  refine ⟨(purged_leave.trans h.toPurged fun a => Iff.rfl).trans
    (purged_deleteVolumeGroups hempty₁) fun a => (hiff a).trans or_right_comm, fun r hr hnot => ?_,
    fun r hr => ?_⟩
  · rw [hiff, not_or] at hnot
    exact (h.physical r).mpr ⟨hr, hnot.2⟩
  · obtain ⟨hr₀, hnot⟩ := (h.physical r).mp hr
    refine ⟨hr₀, fun hc => ?_⟩
    rcases (hiff _).mp hc with (hp | hp | ⟨l, -, hp⟩) | hc
    · rw [Node.pv.inj hp]
      exact List.mem_singleton_self _
    · cases hp
    · cases hp
    · exact absurd hc hnot

/-! ## The functions -/

theorem mem_of_left (h : db.left pvid = some vgid) : ⟨vgid, pvid⟩ ∈ db.member := by
  obtain ⟨⟨g, q⟩, hm, rfl⟩ := Option.map_eq_some_iff.mp h
  have hid := List.find?_some hm
  obtain rfl := of_decide_eq_true hid
  exact List.mem_of_find?_eq_some hm

theorem notMem_of_left (h : db.left pvid = none) : ⟨g, pvid⟩ ∉ db.member := by
  intro hm
  simpa using List.find?_eq_none.mp (Option.map_eq_none_iff.mp h) _ hm

theorem leave_of_left (h : db.left pvid = none) : db.leave pvid = db := by
  have hall : ∀ m ∈ db.member, m.physicalishVolumeId ≠ pvid := by
    rintro ⟨g, q⟩ hm rfl
    exact notMem_of_left h hm
  unfold Db.leave
  rw [List.filter_eq_self.mpr fun m hm => decide_eq_true (hall m hm)]

theorem removePvMembership_of_none (h : db.left pvid = none) :
    removePvMembership true db (pvid :: list) = removePvMembership true db list := by
  rw [removePvMembership]
  split
  · rfl
  next hsome => rw [h] at hsome; cases hsome

theorem removePvMembership_of_hasMember (h : db.left pvid = some vgid)
    (hmem : (db.leave pvid).hasMember vgid = true) :
    (removePvMembership true db (pvid :: list)).1 =
      (removePvMembership true (db.leave pvid) list).1 := by
  rw [removePvMembership]
  split
  next hnone => rw [h] at hnone; cases hnone
  next vgid' hsome =>
    obtain rfl := Option.some.inj (h.symm.trans hsome)
    simp [hmem]

theorem removePvMembership_of_emptied (h : db.left pvid = some vgid)
    (hempty : (db.leave pvid).hasMember vgid = false) :
    (removePvMembership true db (pvid :: list)).1 =
      (removePvMembership true (deleteVg true (db.leave pvid) [vgid]).1 list).1 := by
  rw [removePvMembership]
  split
  next hnone => rw [h] at hnone; cases hnone
  next vgid' hsome =>
    obtain rfl := Option.some.inj (h.symm.trans hsome)
    simp [hempty]

theorem deletePv_val : (deletePv true db list).1 =
    (removePvMembership true db list).1.deletePhysicalishVolumes list := by
  rw [deletePv]

theorem deleteVg_val : (deleteVg true db [vgid]).1 =
    (deletePv true db (db.laidOn (db.lvids [vgid]))).1.deleteVolumeGroups [vgid]
      (db.lvids [vgid]) := by
  rw [deleteVg]

theorem swept_nil : Swept db [] db := by
  have hnot : ∀ a, ¬ db.Condemned [] a :=
    fun a => not_falls_of_forall_not fun a => listed_nil
  refine ⟨⟨?_, ?_, ?_, ?_, ?_, ?_, ?_⟩, fun r hr _ => hr, fun r hr => ⟨hr, fun hc => ?_⟩⟩
  case refine_8 => exact absurd hc (hnot _)
  all_goals exact .refl fun r _ => hnot _

/-- **`remove_pv_membership` takes away what is condemned**, by induction on the number of members,
and over the list. -/
theorem removePvMembership_swept (hdb : db.Single) (list : List ℕ) :
    Swept db list (removePvMembership true db list).1 := by
  obtain ⟨n, hn⟩ : ∃ n, db.member.length = n := ⟨_, rfl⟩
  induction n using Nat.strongRecOn generalizing db list with
  | _ n ih =>
    induction list with
    | nil =>
      rw [removePvMembership]
      exact swept_nil
    | cons pvid list ihlist =>
      cases hleft : db.left pvid with
      | none =>
        have halone : Swept db [pvid] (db.leave pvid) :=
          swept_alone fun g hg => absurd hg (notMem_of_left hleft)
        rw [leave_of_left hleft] at halone
        rw [removePvMembership_of_none hleft]
        exact swept_append halone ihlist
      | some vgid =>
        have hmem := mem_of_left hleft
        have hlt : (db.leave pvid).member.length < n := hn ▸ length_leave_lt hleft
        cases hempty : (db.leave pvid).hasMember vgid with
        | true =>
          have halone : Swept db [pvid] (db.leave pvid) := by
            refine swept_alone fun g hg => ?_
            obtain rfl := hdb _ _ _ hg hmem
            obtain ⟨⟨g, q⟩, hq, hg⟩ := List.any_eq_true.mp hempty
            obtain ⟨hq, hne⟩ := List.mem_filter.mp hq
            obtain rfl := of_decide_eq_true hg
            exact ⟨q, of_decide_eq_true hne, hq⟩
          rw [removePvMembership_of_hasMember hleft hempty]
          exact swept_append halone (ih _ hlt (halone.single hdb) list rfl)
        | false =>
          have hsingle : (db.leave pvid).Single := fun g g' q hg hg' =>
            hdb g g' q (List.mem_filter.mp hg).1 (List.mem_filter.mp hg').1
          have hwithout := (ih _ hlt hsingle (db.laidOn (db.lvids [vgid])) rfl).without
          rw [← deletePv_val] at hwithout
          have hgroup : Swept db [pvid] (deleteVg true (db.leave pvid) [vgid]).1 := by
            rw [deleteVg_val]
            exact swept_emptied hdb hmem hempty hwithout
          rw [removePvMembership_of_emptied hleft hempty]
          refine swept_append hgroup (ih _ ?_ (hgroup.single hdb) list rfl)
          exact Nat.lt_of_le_of_lt (deleteVg true (db.leave pvid) [vgid]).2 hlt

/-- **`delete_pv` deletes exactly what is condemned.** -/
theorem deletePv_without (hdb : db.Single) (list : List ℕ) :
    Without (db.Condemned list) db (deletePv true db list).1 := by
  rw [deletePv_val]
  exact (removePvMembership_swept hdb list).without

theorem condemned_vg : db.Condemned list (.vg g) ↔
    (∃ p, ⟨g, p⟩ ∈ db.member) ∧ ∀ p, ⟨g, p⟩ ∈ db.member → db.Condemned list (.pv p) := by
  constructor
  · intro h
    cases h with
    | taken h => simp [Listed] at h
    | @unsupported _ b hb h =>
      cases b <;> try exact hb.elim
      next p => exact ⟨⟨p, hb⟩, fun q hq => h (.pv q) hq⟩
    | part hb h => exact hb.elim
  · rintro ⟨⟨p, hp⟩, h⟩
    refine .unsupported (b := .pv p) hp fun b hb => ?_
    cases b <;> try exact hb.elim
    next q => exact h q hb

theorem condemned_lv : db.Condemned list (.lv l) ↔
    ∃ g, ⟨l, g⟩ ∈ db.logicalVolume ∧ db.Condemned list (.vg g) := by
  constructor
  · intro h
    cases h with
    | taken h => simp [Listed] at h
    | unsupported hb h => exact hb.elim
    | @part _ b hb h =>
      cases b <;> try exact hb.elim
      next g => exact ⟨g, hb, h⟩
  · rintro ⟨g, hv, h⟩
    exact .part (b := .vg g) hv h

theorem condemned_pv : db.Condemned list (.pv p) ↔
    p ∈ list ∨ ∃ l, ⟨p, some l⟩ ∈ db.physicalishVolume ∧ db.Condemned list (.lv l) := by
  constructor
  · intro h
    cases h with
    | taken h => exact .inl (listed_pv.mp h)
    | unsupported hb h => exact hb.elim
    | @part _ b hb h =>
      cases b <;> try exact hb.elim
      next l => exact .inr ⟨l, hb, h⟩
  · rintro (h | ⟨l, hr, h⟩)
    · exact condemned_of_mem h
    · exact .part (b := .lv l) hr h

/-- The primary keys, and a volume is in one group at most. -/
structure Db.Constraints (db : Db) : Prop where
  single : db.Single
  physicalKey : (db.physicalishVolume.map (·.physicalishVolumeId)).Nodup
  volumeKey : (db.logicalVolume.map (·.logicalVolumeId)).Nodup

/-- A group is kept with its logical volumes, what is laid on these and is not listed, and the
members that are not condemned. -/
structure Keeps (db : Db) (list : List ℕ) (db' : Db) (g : ℕ) : Prop where
  group : g ∈ db.volumeGroup → g ∈ db'.volumeGroup
  member : ∀ m ∈ db.member, m.volumeGroupId = g →
    ¬ db.Condemned list (.pv m.physicalishVolumeId) → m ∈ db'.member
  volume : ∀ v ∈ db.logicalVolume, v.volumeGroupId = g → v ∈ db'.logicalVolume
  laid : ∀ v ∈ db.logicalVolume, v.volumeGroupId = g → ∀ r ∈ db.physicalishVolume,
    r.logicalVolumeId = some v.logicalVolumeId → r.physicalishVolumeId ∉ list →
      r ∈ db'.physicalishVolume

theorem Without.keeps (hdb : db.Constraints) (h : Without (db.Condemned list) db db₁)
    {m : Member} (hm : m ∈ db₁.member) : Keeps db list db₁ m.volumeGroupId := by
  obtain ⟨hm₀, hnot⟩ := (h.member m).mp hm
  have hvg : ¬ db.Condemned list (.vg m.volumeGroupId) :=
    fun hc => hnot ((condemned_vg.mp hc).2 _ hm₀)
  have hlv : ∀ v ∈ db.logicalVolume, v.volumeGroupId = m.volumeGroupId →
      ¬ db.Condemned list (.lv v.logicalVolumeId) := by
    rintro ⟨l, g⟩ hv rfl hc
    obtain ⟨g', hv', hg⟩ := condemned_lv.mp hc
    obtain rfl := (LogicalVolume.mk.inj (List.inj_on_of_nodup_map hdb.volumeKey hv hv' rfl)).2
    exact hvg hg
  refine ⟨fun hg => (h.group _).mpr ⟨hg, hvg⟩, fun m' hm' _ hkept => (h.member _).mpr ⟨hm', hkept⟩,
    fun v hv heq => (h.volume _).mpr ⟨hv, hlv v hv heq⟩, fun v hv heq r hr hlaid hlist => ?_⟩
  refine (h.physical _).mpr ⟨hr, fun hc => ?_⟩
  obtain ⟨l, hr', hl⟩ := (condemned_pv.mp hc).resolve_left hlist
  have hr_eq := List.inj_on_of_nodup_map hdb.physicalKey hr hr' rfl
  rw [hr_eq] at hlaid
  obtain rfl := Option.some.inj hlaid
  exact hlv v hv heq hl

/-- A volume group on a disk, with a logical volume that is one of two disks of another group. -/
def twoLevels : Db where
  physicalishVolume := [⟨1, none⟩, ⟨2, some 5⟩, ⟨3, none⟩]
  member := [⟨10, 1⟩, ⟨20, 2⟩, ⟨20, 3⟩]
  volumeGroup := [10, 20]
  logicalVolume := [⟨5, 10⟩, ⟨6, 20⟩]
  volumeGroupPurpose := []
  logicalVolumeProperty := []
  logicalVolumePurpose := []
  blockStorageDevice := []

theorem single_twoLevels : twoLevels.Single := by
  intro g g' p hg hg'
  simp [twoLevels] at hg hg'
  omega

end JazzHands.LvManip

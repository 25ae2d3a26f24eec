import Mathlib.Data.List.Basic
import Mathlib.Data.Nat.Notation

/-!
# Physicalish volumes are deleted

`delete_pv`, `remove_pv_membership` and the two functions `delete_vg` of the schema `lv_manip`, which
call each other.

* `Db`: volume groups, their members, their logical volumes and what is laid on these.
* `removePvMembership`, `deletePv`, `deleteVg`: the functions.  Every call of `delete_vg` comes after
  the row of a member has gone, so there are no more calls inside each other than members.

`physicalish_volume` is a view of the block storage devices that are no part of a logical volume, and
its trigger deletes the device and its link to the logical volume that it is laid on.  The foreign
keys of `block_storage_device` and `volume_group_block_storage_device` are checked at once: a member
goes before its device and its group, and a device before its logical volume.  A device that the view
does not show is no member here.
-/

namespace JazzHands.LvManip

structure PhysicalishVolume where
  physicalishVolumeId : ℕ
  logicalVolumeId : Option ℕ

/-- A row of `volume_group_physicalish_volume`. -/
structure Member where
  volumeGroupId : ℕ
  physicalishVolumeId : ℕ
  deriving DecidableEq

structure LogicalVolume where
  logicalVolumeId : ℕ
  volumeGroupId : ℕ

structure VolumeGroupPurpose where
  volumeGroupId : ℕ
  volumeGroupPurpose : String

/-- A row of `logical_volume_property`, of `logical_volume_purpose` or of `block_storage_device`:
its key and its logical volume. -/
structure OfLogicalVolume (κ : Type) where
  key : κ
  logicalVolumeId : ℕ

structure Db where
  physicalishVolume : List PhysicalishVolume
  member : List Member
  volumeGroup : List ℕ
  logicalVolume : List LogicalVolume
  volumeGroupPurpose : List VolumeGroupPurpose
  logicalVolumeProperty : List (OfLogicalVolume ℕ)
  logicalVolumePurpose : List (OfLogicalVolume String)
  blockStorageDevice : List (OfLogicalVolume ℕ)

/-! ## Statements -/

/-- The members that are not this volume. -/
def Db.leave (db : Db) (pvid : ℕ) : Db :=
  { db with member := db.member.filter fun m => m.physicalishVolumeId ≠ pvid }

/-- `volume_group_id` of the first row that `leave` deletes. -/
def Db.left (db : Db) (pvid : ℕ) : Option ℕ :=
  (db.member.find? fun m => m.physicalishVolumeId = pvid).map (·.volumeGroupId)

def Db.hasMember (db : Db) (vgid : ℕ) : Bool :=
  db.member.any fun m => m.volumeGroupId = vgid

def Db.deletePhysicalishVolumes (db : Db) (pvids : List ℕ) : Db :=
  { db with
    physicalishVolume := db.physicalishVolume.filter fun r => r.physicalishVolumeId ∉ pvids }

/-- The logical volumes of these groups. -/
def Db.lvids (db : Db) (vgids : List ℕ) : List ℕ :=
  (db.logicalVolume.filter fun v => v.volumeGroupId ∈ vgids).map (·.logicalVolumeId)

/-- The physicalish volumes that are laid on these logical volumes. -/
def Db.laidOn (db : Db) (lvids : List ℕ) : List ℕ :=
  (db.physicalishVolume.filter fun r => ∃ l ∈ lvids, r.logicalVolumeId = some l).map
    (·.physicalishVolumeId)

/-- The statements of `delete_vg` after the call of `delete_pv`. -/
def Db.deleteVolumeGroups (db : Db) (vgids lvids : List ℕ) : Db :=
  { db with
    member := db.member.filter fun m => m.volumeGroupId ∉ vgids
    volumeGroupPurpose := db.volumeGroupPurpose.filter fun r => r.volumeGroupId ∉ vgids
    logicalVolumeProperty := db.logicalVolumeProperty.filter fun r => r.logicalVolumeId ∉ lvids
    logicalVolumePurpose := db.logicalVolumePurpose.filter fun r => r.logicalVolumeId ∉ lvids
    blockStorageDevice := db.blockStorageDevice.filter fun r => r.logicalVolumeId ∉ lvids
    logicalVolume := db.logicalVolume.filter fun v => v.logicalVolumeId ∉ lvids
    volumeGroup := db.volumeGroup.filter fun g => g ∉ vgids }

theorem length_leave_lt {db : Db} {pvid vgid : ℕ} (h : db.left pvid = some vgid) :
    (db.leave pvid).member.length < db.member.length := by
  obtain ⟨m, hm, -⟩ := Option.map_eq_some_iff.mp h
  have hid := List.find?_some hm
  rw [decide_eq_true_eq] at hid
  refine List.length_filter_lt_length_iff_exists.mpr ⟨m, List.mem_of_find?_eq_some hm, ?_⟩
  simp [hid]

/-! ## Functions -/

/-- What a call leaves has no more members than there were. -/
abbrev Left (db : Db) : Type := {db' : Db // db'.member.length ≤ db.member.length}

mutual

/-- The loop over the list. -/
def removePvMembership (purgeOrphans : Bool) (db : Db) : List ℕ → Left db
  | [] => ⟨db, Nat.le_refl _⟩
  | pvid :: list =>
    match hleft : db.left pvid with
    | none =>
      -- there is no row to delete
      removePvMembership purgeOrphans db list
    | some vgid =>
      have hlt := length_leave_lt hleft
      if purgeOrphans && !(db.leave pvid).hasMember vgid then
        let ⟨deleted, hdeleted⟩ := deleteVg purgeOrphans (db.leave pvid) [vgid]
        let rest := removePvMembership purgeOrphans deleted list
        ⟨rest.1, Nat.le_trans rest.2 (by omega)⟩
      else
        let rest := removePvMembership purgeOrphans (db.leave pvid) list
        ⟨rest.1, Nat.le_trans rest.2 (by omega)⟩
termination_by list => (db.member.length, 0, list.length)

def deletePv (purgeOrphans : Bool) (db : Db) (list : List ℕ) : Left db :=
  let removed := removePvMembership purgeOrphans db list
  ⟨removed.1.deletePhysicalishVolumes list, removed.2⟩
termination_by (db.member.length, 1, 0)

def deleteVg (purgeOrphans : Bool) (db : Db) (vgids : List ℕ) : Left db :=
  let lvids := db.lvids vgids
  let deleted := deletePv purgeOrphans db (db.laidOn lvids)
  ⟨deleted.1.deleteVolumeGroups vgids lvids, Nat.le_trans (List.length_filter_le _ _) deleted.2⟩
termination_by (db.member.length, 2, 0)

end

end JazzHands.LvManip

import JazzHands.LvManip.DeletePv
import JazzHands.Postgres.Plpgsql
import Mathlib.Data.List.Dedup

/-!
# `lv_manip.delete_lv_hier`

The function exists twice, for ids and for lists of ids.

* `LvHier`: a row of the view `v_lv_hier`, which is a parameter: `none` where the search path has no
  such view.

The parameters of the first have the names of columns that its `DELETE` statements compare, so it
needs `plpgsql.variable_conflict` to say what these names mean.
-/

namespace JazzHands.LvManip

open Postgres

structure LvHier where
  physicalishVolumeId : Option ℕ
  volumeGroupId : Option ℕ
  logicalVolumeId : Option ℕ
  childPvId : Option ℕ
  childVgId : Option ℕ
  childLvId : Option ℕ

/-- The three lists that a call returns. -/
@[ext] structure Lists where
  pvList : List ℕ
  vgList : List ℕ
  lvList : List ℕ

/-- `FROM v_lv_hier lh`. -/
def readLvHier (vLvHier : Option (Db → List LvHier)) (db : Db) : Result (List LvHier) :=
  match vLvHier with
  | none => raise .undefinedTable "relation \"v_lv_hier\" does not exist"
  | some view => .ok (view db)

/-- `ARRAY(SELECT DISTINCT child FROM ... WHERE cond AND child IS NOT NULL)`. -/
def children (rows : List LvHier) (cond : LvHier → Prop) [DecidablePred cond]
    (child : LvHier → Option ℕ) : List ℕ :=
  ((rows.filter cond).filterMap child).dedup

/-! ## The function for ids -/

/-- `DELETE FROM ... WHERE logical_volume_id = ANY(lv_list)`. -/
def ofOtherVolumes {κ : Type} (named : OfLogicalVolume κ → Option ℕ) (lvList : List ℕ)
    (rows : List (OfLogicalVolume κ)) : List (OfLogicalVolume κ) :=
  rows.filter fun r => ¬ ∃ l ∈ named r, l ∈ lvList

/-- The condition of all three queries. -/
def LvHier.Named (lh : LvHier) (pvid vgid lvid : Option ℕ) : Prop :=
  (∃ p ∈ pvid, lh.physicalishVolumeId = some p) ∨ (∃ g ∈ vgid, lh.volumeGroupId = some g) ∨
    ∃ l ∈ lvid, lh.logicalVolumeId = some l
  deriving Decidable

def deleteLvHier (conflict : VariableConflict) (vLvHier : Option (Db → List LvHier)) (db : Db)
    (pvid vgid lvid : Option ℕ) : Result (Db × Lists) := do
  let rows ← readLvHier vLvHier db
  let pvList := children rows (·.Named pvid vgid lvid) (·.childPvId)
  let vgList := children rows (·.Named pvid vgid lvid) (·.childVgId)
  let lvList := children rows (·.Named pvid vgid lvid) (·.childLvId)
  let device ← bareName conflict lvid fun r : OfLogicalVolume ℕ => some r.logicalVolumeId
  let property ← bareName conflict lvid fun r : OfLogicalVolume ℕ => some r.logicalVolumeId
  let purpose ← bareName conflict lvid fun r : OfLogicalVolume String => some r.logicalVolumeId
  let volume ← bareName conflict lvid fun r : LogicalVolume => some r.logicalVolumeId
  let groupPurpose ← bareName conflict vgid fun r : VolumeGroupPurpose => some r.volumeGroupId
  let group ← bareName conflict vgid fun g : ℕ => some g
  let physicalish ← bareName conflict pvid fun r : PhysicalishVolume => some r.physicalishVolumeId
  .ok ({ db with
      blockStorageDevice := ofOtherVolumes device lvList db.blockStorageDevice
      logicalVolumeProperty := ofOtherVolumes property lvList db.logicalVolumeProperty
      logicalVolumePurpose := ofOtherVolumes purpose lvList db.logicalVolumePurpose
      logicalVolume := db.logicalVolume.filter fun r => ¬ ∃ l ∈ volume r, l ∈ lvList
      volumeGroupPurpose :=
        db.volumeGroupPurpose.filter fun r => ¬ ∃ g ∈ groupPurpose r, g ∈ vgList
      volumeGroup := db.volumeGroup.filter fun r => ¬ ∃ g ∈ group r, g ∈ vgList
      physicalishVolume :=
        db.physicalishVolume.filter fun r => ¬ ∃ p ∈ physicalish r, p ∈ pvList },
    ⟨pvList, vgList, lvList⟩)

/-! ## The function for lists -/

/-- `CASE WHEN tested IS NULL THEN false ELSE value = ANY (list) END`. -/
def InList {α : Type} (tested : Option α) (value : Option ℕ) (list : Option (List ℕ)) : Prop :=
  tested ≠ none ∧ ∃ l ∈ list, ∃ v ∈ value, v ∈ l

instance {α : Type} {tested : Option α} {value : Option ℕ} {list : Option (List ℕ)} :
    Decidable (InList tested value list) :=
  match tested with
  | none => .isFalse fun h => h.1 rfl
  | some _ => decidable_of_iff (∃ l ∈ list, ∃ v ∈ value, v ∈ l)
    ⟨fun h => ⟨Option.some_ne_none _, h⟩, And.right⟩

/-- `lv_manip.delete_lv_hier(physicalish_volume_list, volume_group_list, logical_volume_list)`.  The
second and the third query test the variables `pv_list`, `vg_list` and `lv_list`, of which only
those of the queries before them have a value. -/
def deleteLvHierLists (vLvHier : Option (Db → List LvHier)) (db : Db)
    (pvs vgs lvs : Option (List ℕ)) : Result (Db × Lists) := do
  let rows ← readLvHier vLvHier db
  let pvList := children rows (fun lh => InList pvs lh.physicalishVolumeId pvs ∨
    InList vgs lh.volumeGroupId vgs ∨ InList lvs lh.logicalVolumeId lvs) (·.childPvId)
  let vgList := children rows (fun lh => InList (some pvList) lh.physicalishVolumeId pvs ∨
    InList (none : Option (List ℕ)) lh.volumeGroupId vgs ∨
    InList (none : Option (List ℕ)) lh.logicalVolumeId lvs) (·.childVgId)
  let lvList := children rows (fun lh => InList (some pvList) lh.physicalishVolumeId pvs ∨
    InList (some vgList) lh.volumeGroupId vgs ∨
    InList (none : Option (List ℕ)) lh.logicalVolumeId lvs) (·.childLvId)
  .ok ({ db with
      logicalVolumeProperty :=
        ofOtherVolumes (some ·.logicalVolumeId) lvList db.logicalVolumeProperty
      logicalVolumePurpose :=
        ofOtherVolumes (some ·.logicalVolumeId) lvList db.logicalVolumePurpose
      logicalVolume := db.logicalVolume.filter fun r => r.logicalVolumeId ∉ lvList
      member := db.member.filter fun m =>
        m.physicalishVolumeId ∉ pvList ∧ m.volumeGroupId ∉ vgList
      volumeGroup := db.volumeGroup.filter fun g => g ∉ vgList
      physicalishVolume := db.physicalishVolume.filter fun r => r.physicalishVolumeId ∉ pvList },
    ⟨pvList, vgList, lvList⟩)

/-! ## What they are to have in common -/

/-- A row of the database refers to one of these volumes. -/
def Db.RefersTo (db : Db) (l : Lists) : Prop :=
  (∃ m ∈ db.member, m.physicalishVolumeId ∈ l.pvList ∨ m.volumeGroupId ∈ l.vgList) ∨
    (∃ r ∈ db.volumeGroupPurpose, r.volumeGroupId ∈ l.vgList) ∨
    (∃ r ∈ db.logicalVolume, r.volumeGroupId ∈ l.vgList) ∨
    (∃ r ∈ db.logicalVolumeProperty, r.logicalVolumeId ∈ l.lvList) ∨
    (∃ r ∈ db.logicalVolumePurpose, r.logicalVolumeId ∈ l.lvList) ∨
    (∃ r ∈ db.blockStorageDevice, r.logicalVolumeId ∈ l.lvList) ∨
    ∃ r ∈ db.physicalishVolume, ∃ i ∈ r.logicalVolumeId, i ∈ l.lvList

/-- Called with ids, and with the lists of one id each, the two functions return the same lists and
leave the same database, in which no row refers to what is in the lists. -/
def Agree (conflict : VariableConflict) (vLvHier : Option (Db → List LvHier)) (db : Db)
    (pvid vgid lvid : Option ℕ) : Prop :=
  ∃ db' l, deleteLvHier conflict vLvHier db pvid vgid lvid = .ok (db', l) ∧
    deleteLvHierLists vLvHier db (pvid.map ([·])) (vgid.map ([·])) (lvid.map ([·])) =
      .ok (db', l) ∧ ¬ db'.RefersTo l

/-- **The two functions never agree.** -/
theorem not_agree (vLvHier : Option (Db → List LvHier)) (db : Db) (pvid vgid lvid : Option ℕ) :
    ¬ Agree .default vLvHier db pvid vgid lvid := by
  rintro ⟨db', l, h, -⟩
  obtain ⟨rows, -, h⟩ := bind_eq_ok.mp h
  exact bareName_default_bind_ne_ok h

/-- One physicalish volume in a volume group with one logical volume. -/
def oneVolume : Db where
  physicalishVolume := [⟨1, none⟩]
  member := [⟨2, 1⟩]
  volumeGroup := [2]
  logicalVolume := [⟨3, 2⟩]
  volumeGroupPurpose := []
  logicalVolumeProperty := []
  logicalVolumePurpose := []
  blockStorageDevice := []

/-- The rows of the view for a volume group whose volumes are not nested. -/
def flatHier (db : Db) : List LvHier :=
  db.logicalVolume.flatMap fun v =>
    (db.member.filter fun m => m.volumeGroupId = v.volumeGroupId).map fun m =>
      ⟨some m.physicalishVolumeId, some v.volumeGroupId, some v.logicalVolumeId,
        some m.physicalishVolumeId, some v.volumeGroupId, some v.logicalVolumeId⟩

/-- The function for ids does not run to its end, and that for lists, asked for the logical volume,
leaves it there. -/
theorem not_agree_oneVolume :
    deleteLvHier .default (some flatHier) oneVolume none none (some 3) =
        raise .ambiguousColumn "column reference \"%\" is ambiguous" ∧
      deleteLvHierLists (some flatHier) oneVolume none none (some [3]) =
        .ok ({ oneVolume with physicalishVolume := [], member := [] }, ⟨[1], [], []⟩) ∧
      ¬ Agree .default (some flatHier) oneVolume none none (some 3) := by
  refine ⟨rfl, rfl, ?_⟩
  rintro ⟨db', l, h, -⟩
  exact raise_ne_ok h

end JazzHands.LvManip

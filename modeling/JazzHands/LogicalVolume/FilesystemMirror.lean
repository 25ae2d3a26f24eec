import JazzHands.Library.Runs
import JazzHands.LogicalVolume.FilesystemFollows
import Mathlib.Tactic.MkIffOfInductiveProp

/-!
# File systems and properties that mirror each other

Neither side makes what the other one lacks when only a value changes: a column that was NULL has
no property that could be updated, and a property that is renamed sets a column twice.
-/

namespace JazzHands.FilesystemCompat

open Postgres RowStatement Library

/-! ## What holds -/

/-- The file system is on the block storage device of the logical volume. -/
def Db.Has (db : Db) (i : ℕ) (fs : Filesystem) : Prop :=
  fs ∈ db.filesystem ∧ ∃ b ∈ db.blockStorageDevice,
    b.blockStorageDeviceId = fs.blockStorageDeviceId ∧ b.logicalVolumeId = some i
  deriving Decidable

def AllMirror (db : Db) : Prop := ∀ i fs, db.Has i fs → Mirrors db.logicalVolumeProperty i fs

instance (db : Db) : Decidable (AllMirror db) :=
  decidable_of_iff (∀ fs ∈ db.filesystem, ∀ b ∈ db.blockStorageDevice,
      ∀ i ∈ b.logicalVolumeId, b.blockStorageDeviceId = fs.blockStorageDeviceId →
        Mirrors db.logicalVolumeProperty i fs)
    ⟨fun h i fs hhas => by
      obtain ⟨hfs, b, hb, hid, hlv⟩ := hhas
      exact h fs hfs b hb i hlv hid,
    fun h fs hfs b hb i hlv hid => h i fs ⟨hfs, b, hb, hid, hlv⟩⟩

/-- The keys of the tables; a logical volume has at most one block storage device. -/
structure Keyed (cat : Catalog) (db : Db) : Prop where
  device : (db.blockStorageDevice.map (·.blockStorageDeviceId)).Nodup
  one : ∀ a ∈ db.blockStorageDevice, ∀ b ∈ db.blockStorageDevice, a.logicalVolumeId ≠ none →
    a.logicalVolumeId = b.logicalVolumeId → a = b
  volume : ∀ b ∈ db.blockStorageDevice, ∀ i ∈ b.logicalVolumeId, i ∈ db.volumeIds
  filesystem : (db.filesystem.map (·.blockStorageDeviceId)).Nodup
  device_of : ∀ fs ∈ db.filesystem, ∃ b ∈ db.blockStorageDevice,
    b.blockStorageDeviceId = fs.blockStorageDeviceId ∧ b.deviceId = fs.deviceId
  type : ∀ fs ∈ db.filesystem, cat.HasType fs.filesystemType
  valid : ∀ fs ∈ db.filesystem, validateFilesystem cat fs = .ok ()
  volumeType : ∀ t ∈ db.volumeTypes, t ∈ cat.valLogicalVolumeType
  rows : Rows cat db.volumeIds db.logicalVolumeProperty

/-! ## What a statement has to meet -/

/-- A statement without what the triggers synchronize. -/
def alone (cat : Catalog) (db : Db) : Statement → Result Unit
  | .filesystem s => do
    let _ ← s.execute (filesystemKeys cat db) db.filesystem
    (s.events db.filesystem).forM fun
      | .insert new => validateFilesystem cat new
      | .update old new => validateUpdated cat old new
      | .delete _ => .ok ()
  | .logicalVolumeProperty s => do
    let _ ← s.execute (propertyKeys cat db) db.logicalVolumeProperty
    .ok ()

/-- A property makes a file system: it has a type and a value, and is the only one. -/
def MakesFilesystem (cat : Catalog) (db : Db) (b : BlockStorageDevice)
    (new : LogicalVolumeProperty) : Prop :=
  (∃ t ∈ new.filesystemType, validateFilesystem cat (new.filesystem b t) = .ok ()) ∧
  ∀ r ∈ db.logicalVolumeProperty, ∀ n, r.Is new.logicalVolumeId n →
    r = new ∧ r.logicalVolumePropertyValue ≠ none
  deriving Decidable

/-- The file system with what a property gives. -/
def Filesystem.given (fs : Filesystem) (new : LogicalVolumeProperty) : Filesystem :=
  let fs := { fs with filesystemType := new.filesystemType.getD fs.filesystemType }
  match new.mirrored? with
  | some n => fs.set new.logicalVolumePropertyValue n
  | none => fs

/-- A property is written, with the file system that is there. -/
@[mk_iff]
structure GivesFilesystem (cat : Catalog) (db : Db) (fs : Filesystem)
    (e : RowEvent LogicalVolumeProperty) (new : LogicalVolumeProperty) : Prop where
  name : ∀ old ∈ e.old?, new.mirrored? ≠ none →
    old.logicalVolumePropertyName = new.logicalVolumePropertyName
  valid : validateFilesystem cat (fs.given new) = .ok ()
  follows : ∀ lv ∈ db.volumeOf fs.blockStorageDeviceId,
    Follows lv fs (fs.given new) cat db.logicalVolumeProperty

instance (cat : Catalog) (db : Db) (fs : Filesystem) (e : RowEvent LogicalVolumeProperty)
    (new : LogicalVolumeProperty) : Decidable (GivesFilesystem cat db fs e new) :=
  decidable_of_iff _ (givesFilesystem_iff cat db fs e new).symm

/-- A property is written; `db` has it already. -/
def WriteMeets (cat : Catalog) (db : Db) (e : RowEvent LogicalVolumeProperty)
    (new : LogicalVolumeProperty) : Prop :=
  match db.deviceOf new.logicalVolumeId with
  | none => ∀ lv ∈ db.logicalVolume.find? (·.logicalVolumeId = new.logicalVolumeId),
    checkBlockStorageDevice cat db.blockStorageDevice (newDevice cat db lv new) = .ok () ∧
      MakesFilesystem cat db (newDevice cat db lv new) new
  | some b =>
    match db.filesystemOn b.blockStorageDeviceId with
    | none => MakesFilesystem cat db b new
    | some fs => GivesFilesystem cat db fs e new

instance (cat : Catalog) (db : Db) (e : RowEvent LogicalVolumeProperty)
    (new : LogicalVolumeProperty) : Decidable (WriteMeets cat db e new) := by
  unfold WriteMeets
  split
  · infer_instance
  · split <;> infer_instance

/-- The properties are new to the logical volume and may have the type. -/
def InsertMeets (cat : Catalog) (db : Db) (new : Filesystem) : Prop :=
  ∀ lv ∈ db.volumeOf new.blockStorageDeviceId, ∀ n : Mirrored,
    (∀ r ∈ db.logicalVolumeProperty, ¬ r.Is lv.logicalVolumeId n) ∧
    (new.get n ≠ none → cat.Permits (some n.text) (some new.filesystemType))
  deriving Decidable

/-- The last property takes the file system and its block storage device with it. -/
def DeleteMeets (cat : Catalog) (db : Db) (i : ℕ) : Prop :=
  ∀ b ∈ db.deviceOf i, ∀ fs ∈ db.filesystemOn b.blockStorageDeviceId, fs.tally = 1 →
    b.blockStorageDeviceId ∉ cat.referenced
  deriving Decidable

def Meets (cat : Catalog) (db : Db) : SingleRow → Prop
  | .insertFilesystem new => InsertMeets cat db new
  | .updateFilesystem b new => ∀ old ∈ db.filesystem, old.blockStorageDeviceId = b →
    ∀ lv ∈ db.volumeOf new.blockStorageDeviceId,
      Follows lv old new cat db.logicalVolumeProperty
  | .deleteFilesystem _ => True
  | .insertProperty i n lvt fst value =>
    let new : LogicalVolumeProperty := ⟨i, lvt, fst, some n.text, value⟩
    WriteMeets cat { db with logicalVolumeProperty := db.logicalVolumeProperty ++ [new] }
      (.insert new) new
  | .updateProperty i n new => ∀ old ∈ db.logicalVolumeProperty, old.Is i n →
    (new.Is i n ∨ ∀ fs ∈ db.filesystem, ¬ db.Has i fs) ∧
    (¬ new.IsOther → WriteMeets cat { db with
        logicalVolumeProperty := db.logicalVolumeProperty.map fun r =>
          if r.Is i n then new else r } (.update old new) new)
  | .deleteProperty i n => (∃ r ∈ db.logicalVolumeProperty, r.Is i n) → DeleteMeets cat db i

instance (cat : Catalog) (db : Db) (s : SingleRow) : Decidable (Meets cat db s) := by
  cases s <;> unfold Meets <;> infer_instance

variable {cat : Catalog} {db db' : Db} {rows : List LogicalVolumeProperty} {fs fs' : Filesystem}
  {old new : Filesystem} {i j k more depth : ℕ} {lv : LogicalVolume} {b : BlockStorageDevice}
  {n : Mirrored}

/-! ## The joins -/

theorem Keyed.find_device (hkeyed : Keyed cat db) (hb : b ∈ db.blockStorageDevice) :
    db.blockStorageDevice.find? (·.blockStorageDeviceId = b.blockStorageDeviceId) = some b :=
  Library.find?_key hkeyed.device hb

theorem exists_volume (hi : i ∈ db.volumeIds) :
    ∃ lv, db.logicalVolume.find? (·.logicalVolumeId = i) = some lv ∧ lv.logicalVolumeId = i := by
  obtain ⟨lv, hlv, rfl⟩ := List.mem_map.mp hi
  cases hfind : db.logicalVolume.find? (·.logicalVolumeId = lv.logicalVolumeId) with
  | none => exact (Library.not_of_find?_eq_none hfind hlv rfl).elim
  | some lv' => exact ⟨lv', rfl, (Library.of_find?_eq_some hfind).2⟩

theorem Keyed.volumeOf_eq (hkeyed : Keyed cat db) (hb : b ∈ db.blockStorageDevice)
    (hi : b.logicalVolumeId = some i) :
    ∃ lv, db.volumeOf b.blockStorageDeviceId = some lv ∧ lv.logicalVolumeId = i := by
  obtain ⟨lv, hfind, hid⟩ := exists_volume (hkeyed.volume b hb i hi)
  refine ⟨lv, ?_, hid⟩
  rw [Db.volumeOf, hkeyed.find_device hb, Option.bind_some, hi, Option.bind_some, hfind]

theorem mem_of_volumeOf (h : db.volumeOf k = some lv) : ∃ b ∈ db.blockStorageDevice,
    b.blockStorageDeviceId = k ∧ b.logicalVolumeId = some lv.logicalVolumeId := by
  obtain ⟨b, hb, h⟩ := Option.bind_eq_some_iff.mp h
  obtain ⟨i, hi, h⟩ := Option.bind_eq_some_iff.mp h
  obtain ⟨hb, hk⟩ := Library.of_find?_eq_some hb
  exact ⟨b, hb, hk, (Library.of_find?_eq_some h).2 ▸ hi⟩

theorem volume_mem_of_volumeOf (h : db.volumeOf k = some lv) : lv ∈ db.logicalVolume := by
  obtain ⟨b, -, h⟩ := Option.bind_eq_some_iff.mp h
  obtain ⟨i, -, h⟩ := Option.bind_eq_some_iff.mp h
  exact List.mem_of_find?_eq_some h

theorem Keyed.deviceOf_eq (hkeyed : Keyed cat db) (hb : b ∈ db.blockStorageDevice)
    (hi : b.logicalVolumeId = some i) : db.deviceOf i = some b :=
  Library.find?_eq_some_of_unique hb hi fun c hc hci =>
    hkeyed.one c hc b hb (by rw [hci]; simp) (hci.trans hi.symm)

theorem mem_of_deviceOf (h : db.deviceOf i = some b) :
    b ∈ db.blockStorageDevice ∧ b.logicalVolumeId = some i :=
  Library.of_find?_eq_some h

theorem mem_of_filesystemOn (h : db.filesystemOn k = some fs) :
    fs ∈ db.filesystem ∧ fs.blockStorageDeviceId = k :=
  Library.of_find?_eq_some h

theorem not_mem_of_filesystemOn (h : db.filesystemOn k = none) (hfs : fs ∈ db.filesystem) :
    fs.blockStorageDeviceId ≠ k :=
  fun heq => Library.not_of_find?_eq_none h hfs heq

theorem has_of_volumeOf (hfs : fs ∈ db.filesystem)
    (h : db.volumeOf fs.blockStorageDeviceId = some lv) : db.Has lv.logicalVolumeId fs :=
  ⟨hfs, mem_of_volumeOf h⟩

section

variable (hkeyed : Keyed cat db) (h : db.Has i fs)
include hkeyed h

theorem Keyed.volumeOf_of_has :
    ∃ lv, db.volumeOf fs.blockStorageDeviceId = some lv ∧ lv.logicalVolumeId = i := by
  obtain ⟨-, b, hb, hid, hi⟩ := h
  exact hid ▸ hkeyed.volumeOf_eq hb hi

theorem Keyed.has_inj (h' : db.Has i fs') :
    fs = fs' := by
  obtain ⟨hfs, b, hb, hid, hi⟩ := h
  obtain ⟨hfs', b', hb', hid', hi'⟩ := h'
  obtain rfl := hkeyed.one b hb b' hb' (by rw [hi]; simp) (hi.trans hi'.symm)
  exact List.inj_on_of_nodup_map hkeyed.filesystem hfs hfs' (hid.symm.trans hid')

theorem Keyed.has_volume_inj (h' : db.Has j fs) :
    i = j := by
  obtain ⟨lv, hlv, rfl⟩ := hkeyed.volumeOf_of_has h
  obtain ⟨lv', hlv', rfl⟩ := hkeyed.volumeOf_of_has h'
  rw [Option.some.inj (hlv.symm.trans hlv')]

end

theorem Mirrors.congr (h : Mirrors db.logicalVolumeProperty i fs)
    (hrows : ∀ n, rows.filter (fun r => r.Is i n) =
      db.logicalVolumeProperty.filter fun r => r.Is i n) : Mirrors rows i fs := by
  intro n
  rw [valuesOf, hrows n]
  exact h n

theorem Keyed.congr (hkeyed : Keyed cat db)
    (hdevice : db'.blockStorageDevice = db.blockStorageDevice)
    (hfilesystem : db'.filesystem = db.filesystem) (hids : db'.volumeIds = db.volumeIds)
    (htypes : db'.volumeTypes = db.volumeTypes)
    (hrows : Rows cat db.volumeIds db'.logicalVolumeProperty) : Keyed cat db' := by
  refine ⟨?_, ?_, ?_, ?_, ?_, ?_, ?_, ?_, ?_⟩
  · exact hdevice ▸ hkeyed.device
  · exact hdevice ▸ hkeyed.one
  · rw [hdevice, hids]
    exact hkeyed.volume
  · exact hfilesystem ▸ hkeyed.filesystem
  · rw [hfilesystem, hdevice]
    exact hkeyed.device_of
  · exact hfilesystem ▸ hkeyed.type
  · exact hfilesystem ▸ hkeyed.valid
  · rw [htypes]
    exact hkeyed.volumeType
  · rw [hids]
    exact hrows

theorem Keyed.addDevice (hkeyed : Keyed cat db)
    (hnew : ∀ c ∈ db.blockStorageDevice, c.blockStorageDeviceId ≠ b.blockStorageDeviceId)
    (hi : b.logicalVolumeId = some i) (hid : i ∈ db.volumeIds)
    (hone : ∀ c ∈ db.blockStorageDevice, c.logicalVolumeId ≠ some i) :
    Keyed cat { db with
      blockStorageDevice := db.blockStorageDevice ++ [b], blockStorageDeviceSeq := k } where
  device := nodup_concat hkeyed.device hnew
  one a ha c hc hne heq := by
    rcases List.mem_append.mp ha with ha' | ha <;> rcases List.mem_append.mp hc with hc' | hc
    · exact hkeyed.one a ha' c hc' hne heq
    · obtain rfl := List.mem_singleton.mp hc
      exact absurd (heq.trans hi) (hone a ha')
    · obtain rfl := List.mem_singleton.mp ha
      exact absurd (heq.symm.trans hi) (hone c hc')
    · exact (List.mem_singleton.mp ha).trans (List.mem_singleton.mp hc).symm
  volume c hc j hj := by
    rcases List.mem_append.mp hc with hc | hc
    · exact hkeyed.volume c hc j hj
    · obtain rfl := List.mem_singleton.mp hc
      obtain rfl := Option.some.inj (hi.symm.trans hj)
      exact hid
  filesystem := hkeyed.filesystem
  device_of fs hfs := by
    obtain ⟨c, hc, h⟩ := hkeyed.device_of fs hfs
    exact ⟨c, List.mem_append_left _ hc, h⟩
  type := hkeyed.type
  valid := hkeyed.valid
  volumeType := hkeyed.volumeType
  rows := hkeyed.rows

theorem Keyed.deleteDevice (hkeyed : Keyed cat db)
    (hfree : ∀ fs ∈ db.filesystem, fs.blockStorageDeviceId ≠ k) :
    Keyed cat { db with
      blockStorageDevice := db.blockStorageDevice.filter fun b => b.blockStorageDeviceId ≠ k } where
  device := hkeyed.device.sublist (List.filter_sublist.map _)
  one a ha c hc := hkeyed.one a (List.mem_filter.mp ha).1 c (List.mem_filter.mp hc).1
  volume c hc := hkeyed.volume c (List.mem_filter.mp hc).1
  filesystem := hkeyed.filesystem
  device_of fs hfs := by
    obtain ⟨c, hc, hid, hdevice⟩ := hkeyed.device_of fs hfs
    exact ⟨c, List.mem_filter.mpr ⟨hc, by simpa [hid] using hfree fs hfs⟩, hid, hdevice⟩
  type := hkeyed.type
  valid := hkeyed.valid
  volumeType := hkeyed.volumeType
  rows := hkeyed.rows

/-! ## Statements on a file system -/

theorem filesystemKeys_ok {others : List Filesystem} (h : filesystemKeys cat db others new = .ok ()) :
    (∀ c ∈ others, c.blockStorageDeviceId ≠ new.blockStorageDeviceId) ∧
      (∃ b ∈ db.blockStorageDevice, b.blockStorageDeviceId = new.blockStorageDeviceId ∧
        b.deviceId = new.deviceId) ∧ cat.HasType new.filesystemType := by
  obtain ⟨hunique, h⟩ := bind_unit_eq_ok.mp h
  refine ⟨checkUnique_ok hunique, ?_⟩
  simpa only [bind_unit_eq_ok, raiseIf_eq_ok, not_forall, not_not, exists_prop] using h

theorem filesystemKeys_of {others : List Filesystem}
    (hunique : ∀ c ∈ others, c.blockStorageDeviceId ≠ new.blockStorageDeviceId)
    (hb : b ∈ db.blockStorageDevice) (hid : b.blockStorageDeviceId = new.blockStorageDeviceId)
    (hdevice : b.deviceId = new.deviceId) (htype : cat.HasType new.filesystemType) :
    filesystemKeys cat db others new = .ok () := by
  refine bind_unit_eq_ok.mpr ⟨raiseIf_eq_ok.mpr ?_, bind_unit_eq_ok.mpr
    ⟨raiseIf_eq_ok.mpr fun h => h b hb hid hdevice, raiseIf_eq_ok.mpr (not_not.mpr htype)⟩⟩
  rintro ⟨c, hc, heq⟩
  exact hunique c hc heq

theorem validateUpdated_ok (hold : validateFilesystem cat old = .ok ())
    (h : validateUpdated cat old new = .ok ()) : validateFilesystem cat new = .ok () := by
  rw [validateUpdated] at h
  split at h
  · rename_i heq
    simp only [Prod.mk.injEq] at heq
    obtain ⟨htype, hmountpoint, hlabel, hserial⟩ := heq
    rwa [validateFilesystem, ← htype, ← hmountpoint, ← hlabel, ← hserial]
  · exact h

theorem Keyed.write {s : RowStatement Filesystem} {l : List Filesystem} (hkeyed : Keyed cat db)
    (hok : s.execute (filesystemKeys cat db) db.filesystem = .ok l)
    (hvalid : ∀ e ∈ s.events db.filesystem, ∀ new, e.new? = some new →
      validateFilesystem cat new = .ok ()) : Keyed cat { db with filesystem := l } := by
  have hchecked := execute_checked (P := fun fs => (∃ b ∈ db.blockStorageDevice,
      b.blockStorageDeviceId = fs.blockStorageDeviceId ∧ b.deviceId = fs.deviceId) ∧
      cat.HasType fs.filesystemType)
    (fun _ _ h => (filesystemKeys_ok h).2) hok
  have hnodup := nodup_execute (fun _ _ h => (filesystemKeys_ok h).1) hkeyed.filesystem hok
  obtain rfl := execute_ok hok
  refine ⟨hkeyed.device, hkeyed.one, hkeyed.volume, hnodup, fun fs hfs => ?_, fun fs hfs => ?_,
    fun fs hfs => ?_, hkeyed.volumeType, hkeyed.rows⟩
  · rcases mem_after hfs with hfs | ⟨e, he, hnew⟩
    · exact hkeyed.device_of fs hfs
    · exact (hchecked e he fs hnew).1
  · rcases mem_after hfs with hfs | ⟨e, he, hnew⟩
    · exact hkeyed.type fs hfs
    · exact (hchecked e he fs hnew).2
  · rcases mem_after hfs with hfs | ⟨e, he, hnew⟩
    · exact hkeyed.valid fs hfs
    · exact hvalid e he fs hnew

/-- **A file system is updated**, by itself or by a trigger on properties; its own columns need not
be properties before. -/
theorem execute_updateFilesystem {f : Filesystem → Filesystem} {l : List Filesystem}
    (hkeyed : Keyed cat db) (hold : old ∈ db.filesystem) (hf : f old = new)
    (hok : (update fun fs => if fs.blockStorageDeviceId = old.blockStorageDeviceId then some (f fs)
      else none).execute (filesystemKeys cat db) db.filesystem = .ok l)
    (hvalid : validateUpdated cat old new = .ok ())
    (hfollows : ∀ lv ∈ db.volumeOf new.blockStorageDeviceId,
      Follows lv old new cat db.logicalVolumeProperty)
    (hbut : ∀ i fs, db.Has i fs → fs ≠ old → Mirrors db.logicalVolumeProperty i fs) :
    ∃ db', execute cat (more + 2) depth db (.filesystem (.update fun fs =>
        if fs.blockStorageDeviceId = old.blockStorageDeviceId then some (f fs) else none)) =
        .ok db' ∧ Keyed cat db' ∧ AllMirror db' := by
  have hevents : (update fun fs : Filesystem =>
      if fs.blockStorageDeviceId = old.blockStorageDeviceId then some (f fs) else none).events
        db.filesystem = [.update old new] := by
    rw [events_update_if, filter_key hkeyed.filesystem hold, List.map_singleton, hf]
  have hkeyed₁ : Keyed cat { db with filesystem := l } := by
    refine hkeyed.write hok fun e he fs hfs => ?_
    rw [hevents, List.mem_singleton] at he
    subst he
    obtain rfl := Option.some.inj hfs
    exact validateUpdated_ok (hkeyed.valid old hold) hvalid
  have hmem : ∀ fs ∈ l, fs = new ∨ fs ∈ db.filesystem ∧ fs ≠ old := by
    intro fs hfs
    rw [execute_ok hok, after_update_if] at hfs
    obtain ⟨c, hc, rfl⟩ := List.mem_map.mp hfs
    split
    · rename_i hid
      rw [List.inj_on_of_nodup_map hkeyed.filesystem hc hold hid]
      exact .inl hf
    · rename_i hid
      exact .inr ⟨hc, fun heq => hid (heq ▸ rfl)⟩
  have hexecute : execute cat (more + 2) depth db (.filesystem (.update fun fs =>
        if fs.blockStorageDeviceId = old.blockStorageDeviceId then some (f fs) else none)) =
      afterFilesystem cat (depth + 1) (execute cat (more + 1) (depth + 1))
        { db with filesystem := l } (.update old new) := by
    rw [execute, hevents, foldlM_singleton]
    show RowStatement.execute (filesystemKeys cat db) db.filesystem _ >>= _ = _
    rw [hok]
    exact foldlM_singleton
  rw [hexecute, afterFilesystem]
  cases hlv : db.volumeOf new.blockStorageDeviceId with
  | none =>
    have hnone : Db.volumeOf { db with filesystem := l } new.blockStorageDeviceId = none := hlv
    refine ⟨_, ?_, hkeyed₁, fun i fs hhas => ?_⟩
    · rw [filesystemToLogicalVolumePropertyUpd, hnone]
      dsimp only [bind, Except.bind]
      rw [hvalid]
    · rcases hmem fs hhas.1 with rfl | ⟨hfs, hne⟩
      · obtain ⟨lv, hsome, -⟩ := hkeyed₁.volumeOf_of_has hhas
        rw [hnone] at hsome
        cases hsome
      · exact hbut i fs ⟨hfs, hhas.2⟩ hne
  | some lv =>
    have hnew : new ∈ l := by
      rw [execute_ok hok, after_update_if]
      exact List.mem_map.mpr ⟨old, hold, (if_pos rfl).trans hf⟩
    have hdepth : 1 ≤ depth + 1 := by omega
    obtain ⟨hupd, hrows⟩ := filesystemToLogicalVolumePropertyUpd_ok more hdepth hkeyed₁.rows
      (hkeyed₁.type new hnew) hlv (hfollows lv hlv)
    refine ⟨{ Db.setFilesystemType { db with filesystem := l } lv.logicalVolumeId
          new.filesystemType with
        logicalVolumeProperty := followRows lv old new db.logicalVolumeProperty }, ?_, ?_, ?_⟩
    · rw [hupd]
      dsimp only [bind, Except.bind]
      rw [hvalid]
    · exact hkeyed₁.congr rfl rfl (Db.volumeIds_setFilesystemType _ _ _)
        (Db.volumeTypes_setFilesystemType _ _ _) hrows
    · intro i fs hhas
      have hhas : Db.Has { db with filesystem := l } i fs := hhas
      have hvolume : Db.Has { db with filesystem := l } lv.logicalVolumeId new :=
        has_of_volumeOf hnew hlv
      by_cases heq : fs = new
      · subst heq
        obtain rfl := hkeyed₁.has_volume_inj hvolume hhas
        exact mirrors_followRows hkeyed.rows (hfollows lv hlv)
      · obtain ⟨hfs, hne⟩ := (hmem fs hhas.1).resolve_left heq
        refine (hbut i fs ⟨hfs, hhas.2⟩ hne).congr fun n => filter_followRows_of_ne ?_
        rintro rfl
        exact heq (hkeyed₁.has_inj hhas hvolume)

variable (cat db more) in
/-- The trigger before a file system is deleted leaves the properties of other logical volumes. -/
theorem filesystemToLogicalVolumePropertyDel_ok (hdepth : 1 ≤ depth) (old : Filesystem) :
    ∃ p : LogicalVolumeProperty → Bool,
      filesystemToLogicalVolumePropertyDel (execute cat (more + 1) depth) db old =
        .ok { db with logicalVolumeProperty := db.logicalVolumeProperty.filter p } ∧
      ∀ r, (∀ lv ∈ db.volumeOf old.blockStorageDeviceId,
        r.logicalVolumeId ≠ lv.logicalVolumeId) → p r := by
  rw [filesystemToLogicalVolumePropertyDel]
  cases db.volumeOf old.blockStorageDeviceId with
  | none => exact ⟨fun _ => true, by rw [List.filter_true], fun _ _ => rfl⟩
  | some lv =>
    refine ⟨_, execute_property hdepth rfl, fun r hr => ?_⟩
    rw [Bool.not_eq_true', decide_eq_false_iff_not]
    exact fun h => hr lv rfl h.1.1

variable (more depth) in
theorem execute_deleteFilesystem (hkeyed : Keyed cat db)
    (hbut : ∀ i fs, db.Has i fs → fs.blockStorageDeviceId ≠ k →
      Mirrors db.logicalVolumeProperty i fs) :
    ∃ db', execute cat (more + 2) depth db (.filesystem (.delete fun fs =>
        fs.blockStorageDeviceId = k)) = .ok db' ∧ Keyed cat db' ∧ AllMirror db' ∧
      db'.blockStorageDevice = db.blockStorageDevice ∧
      ∀ fs ∈ db'.filesystem, fs.blockStorageDeviceId ≠ k := by
  -- the trigger before the deletion takes only properties of this logical volume
  obtain ⟨p, hbefore, hp⟩ : ∃ p : LogicalVolumeProperty → Bool,
      ((delete fun fs : Filesystem => fs.blockStorageDeviceId = k).events db.filesystem).foldlM
          (beforeFilesystem (execute cat (more + 1) (depth + 1))) db =
        .ok { db with logicalVolumeProperty := db.logicalVolumeProperty.filter p } ∧
      ∀ i fs, db.Has i fs → fs.blockStorageDeviceId ≠ k → ∀ r, r.logicalVolumeId = i → p r := by
    rw [events]
    by_cases hfs : ∃ fs ∈ db.filesystem, fs.blockStorageDeviceId = k
    · obtain ⟨old, hold, rfl⟩ := hfs
      have hdepth : 1 ≤ depth + 1 := by omega
      obtain ⟨p, hdel, hp⟩ := filesystemToLogicalVolumePropertyDel_ok cat db more hdepth old
      refine ⟨p, ?_, fun i fs hhas hne r hr => hp r fun lv hlv hid => hne ?_⟩
      · rw [filter_key hkeyed.filesystem hold, List.map_singleton, foldlM_singleton]
        exact hdel
      · have hold' := has_of_volumeOf hold hlv
        rw [← hid, hr] at hold'
        rw [hkeyed.has_inj hhas hold']
    · have hnone : db.filesystem.filter (fun fs => fs.blockStorageDeviceId = k) = [] :=
        List.filter_eq_nil_iff.mpr fun fs hfs' => by simpa using fun h => hfs ⟨fs, hfs', h⟩
      refine ⟨fun _ => true, ?_, fun _ _ _ _ _ _ => rfl⟩
      rw [hnone, List.filter_true]
      rfl
  have hkeyed₁ : Keyed cat { db with
      filesystem := db.filesystem.filter fun fs => !decide (fs.blockStorageDeviceId = k) } :=
    hkeyed.write (s := .delete fun fs => fs.blockStorageDeviceId = k) rfl fun e he new hnew => by
      obtain ⟨fs, -, rfl⟩ := List.mem_map.mp he
      cases hnew
  have hgone : ∀ fs ∈ db.filesystem.filter (fun fs => !decide (fs.blockStorageDeviceId = k)),
      fs ∈ db.filesystem ∧ fs.blockStorageDeviceId ≠ k := by
    intro fs hfs
    simpa using List.mem_filter.mp hfs
  refine ⟨{ db with
    filesystem := db.filesystem.filter fun fs => !decide (fs.blockStorageDeviceId = k)
    logicalVolumeProperty := db.logicalVolumeProperty.filter p }, ?_, ?_, ?_, rfl,
    fun fs hfs => (hgone fs hfs).2⟩
  · rw [execute, hbefore]
    refine foldlM_stays fun e he => ?_
    obtain ⟨fs, -, rfl⟩ := List.mem_map.mp he
    rfl
  · exact hkeyed₁.congr rfl rfl rfl rfl (hkeyed.rows.filter p)
  · intro i fs hhas
    obtain ⟨hfs, hne⟩ := hgone fs hhas.1
    refine (hbut i fs ⟨hfs, hhas.2⟩ hne).congr fun n => ?_
    rw [List.filter_filter]
    refine List.filter_congr fun r _ => ?_
    by_cases his : r.Is i n
    · rw [hp i fs ⟨hfs, hhas.2⟩ hne r his.1, Bool.and_true]
    · rw [decide_eq_false his, Bool.false_and]

theorem execute_filesystem_insert (hkeys : filesystemKeys cat db db.filesystem new = .ok ()) :
    execute cat (more + 1) depth db (.filesystem (.insert [new])) =
      afterFilesystem cat (depth + 1) (execute cat more (depth + 1))
        { db with filesystem := db.filesystem ++ [new] } (.insert new) := by
  have hrows : (insert [new]).execute (filesystemKeys cat db) db.filesystem =
      .ok (db.filesystem ++ [new]) := by
    show (filesystemKeys cat db db.filesystem new >>= fun _ => _) = _
    rw [hkeys]
    rfl
  rw [execute]
  show (insert [new]).execute (filesystemKeys cat db) db.filesystem >>= _ = _
  rw [hrows]
  exact foldlM_singleton

/-- A trigger on properties inserts a file system; nothing comes back. -/
theorem execute_insertFilesystem_nested (hdepth : 1 ≤ depth)
    (hkeys : filesystemKeys cat db db.filesystem new = .ok ())
    (hvalid : validateFilesystem cat new = .ok ()) :
    execute cat (more + 1) depth db (.filesystem (.insert [new])) =
      .ok { db with filesystem := db.filesystem ++ [new] } := by
  rw [execute_filesystem_insert hkeys, afterFilesystem, filesystemToLogicalVolumePropertyIns, if_pos (by omega)]
  dsimp only [bind, Except.bind]
  rw [hvalid]

theorem Keyed.concat (hkeyed : Keyed cat db)
    (hkeys : filesystemKeys cat db db.filesystem new = .ok ())
    (hvalid : validateFilesystem cat new = .ok ()) :
    Keyed cat { db with filesystem := db.filesystem ++ [new] } := by
  refine hkeyed.write (s := .insert [new]) ?_ fun e he fs hfs => ?_
  · show (filesystemKeys cat db db.filesystem new >>= fun _ => _) = _
    rw [hkeys]
    rfl
  · obtain rfl := List.mem_singleton.mp he
    exact Option.some.inj hfs ▸ hvalid

/-- What holds when the columns `l` of a new file system are still to come. -/
structure Inserted (cat : Catalog) (lv : LogicalVolume) (new : Filesystem) (db : Db)
    (l : List Mirrored) (rows : List LogicalVolumeProperty) : Prop where
  keyed : Rows cat db.volumeIds rows
  nodup : l.Nodup
  todo : ∀ n ∈ l, ∀ r ∈ rows, ¬ r.Is lv.logicalVolumeId n
  done : ∀ n, n ∉ l → valuesOf rows lv.logicalVolumeId n = (new.get n).toList.map some
  others : ∀ i ≠ lv.logicalVolumeId, ∀ n,
    rows.filter (fun r => r.Is i n) = db.logicalVolumeProperty.filter fun r => r.Is i n

theorem Inserted.skip {l : List Mirrored} (hget : new.get n = none)
    (h : Inserted cat lv new db (n :: l) rows) : Inserted cat lv new db l rows where
  keyed := h.keyed
  nodup := h.nodup.of_cons
  todo m hm := h.todo m (List.mem_cons_of_mem n hm)
  done m hm := by
    by_cases heq : m = n
    · subst heq
      have hnil : rows.filter (fun r => r.Is lv.logicalVolumeId m) = [] :=
        List.filter_eq_nil_iff.mpr fun r hr => by simpa using h.todo m List.mem_cons_self r hr
      rw [valuesOf, hnil, hget]
      rfl
    · exact h.done m fun hmem => hm ((List.mem_cons.mp hmem).resolve_left heq)
  others := h.others

theorem Inserted.insert {l : List Mirrored} {value : String} (hget : new.get n = some value)
    (hvolume : lv.logicalVolumeId ∈ db.volumeIds)
    (hrefers : cat.Refers (lv.property new.filesystemType n value))
    (h : Inserted cat lv new db (n :: l) rows) :
    propertyKeys cat db rows (lv.property new.filesystemType n value) = .ok () ∧
      Inserted cat lv new db l (rows ++ [lv.property new.filesystemType n value]) := by
  have his : (lv.property new.filesystemType n value).Is lv.logicalVolumeId n := ⟨rfl, rfl⟩
  have htodo := h.todo n List.mem_cons_self
  have hkeys : propertyKeys cat db rows (lv.property new.filesystemType n value) = .ok () := by
    refine propertyKeys_eq_ok.mpr ⟨fun c hc hconflicts => htodo c hc ?_, hvolume, hrefers⟩
    exact ⟨hconflicts.2.1, hconflicts.2.2⟩
  have hfilter : ∀ i m, (i ≠ lv.logicalVolumeId ∨ m ≠ n) →
      (rows ++ [lv.property new.filesystemType n value]).filter (fun r => r.Is i m) =
        rows.filter fun r => r.Is i m := by
    intro i m hne
    have hnot : ¬ (lv.property new.filesystemType n value).Is i m := by
      rintro ⟨hi, hm⟩
      rcases hne with hne | hne
      · exact hne hi.symm
      · exact hne (Mirrored.text_inj (Option.some.inj hm)).symm
    rw [List.filter_append, List.filter_singleton, decide_eq_false hnot]
    exact List.append_nil _
  refine ⟨hkeys, h.keyed.concat hkeys, h.nodup.of_cons, fun m hm r hr hrm => ?_, fun m hm => ?_,
    fun i hi m => ?_⟩
  · have hne : m ≠ n := fun heq => (List.nodup_cons.mp h.nodup).1 (heq ▸ hm)
    have hmem : r ∈ (rows ++ [lv.property new.filesystemType n value]).filter
        fun r => r.Is lv.logicalVolumeId m := List.mem_filter.mpr ⟨hr, by simpa using hrm⟩
    rw [hfilter _ m (.inr hne)] at hmem
    exact h.todo m (List.mem_cons_of_mem n hm) r (List.mem_filter.mp hmem).1 hrm
  · by_cases heq : m = n
    · subst heq
      have hnil : rows.filter (fun r => r.Is lv.logicalVolumeId m) = [] :=
        List.filter_eq_nil_iff.mpr fun r hr => by simpa using htodo r hr
      rw [valuesOf, List.filter_append, hnil, List.filter_singleton, decide_eq_true his, hget]
      rfl
    · rw [valuesOf, hfilter _ m (.inr heq)]
      exact h.done m fun hmem => hm ((List.mem_cons.mp hmem).resolve_left heq)
  · rw [hfilter i m (.inl hi)]
    exact h.others i hi m

variable (more) in
theorem filesystemToLogicalVolumePropertyIns_ok (hkeyed : Keyed cat db)
    (hfs : new ∈ db.filesystem) (hlv : db.volumeOf new.blockStorageDeviceId = some lv)
    (hmeets : InsertMeets cat db new) :
    ∃ db', filesystemToLogicalVolumePropertyIns 1 (execute cat (more + 1) 1) db new = .ok db' ∧
      ∃ rows, db' = { db.setFilesystemType lv.logicalVolumeId new.filesystemType with
          logicalVolumeProperty := rows } ∧ Inserted cat lv new db [] rows := by
  have hnew := hmeets lv hlv
  have hmem := volume_mem_of_volumeOf hlv
  rw [filesystemToLogicalVolumePropertyIns, if_neg (by omega), hlv]
  refine foldlM_rest (l := [.mountPoint, .serial, .label]) (P := fun l db' => ∃ rows, db' =
      { db.setFilesystemType lv.logicalVolumeId new.filesystemType with
        logicalVolumeProperty := rows } ∧ Inserted cat lv new db l rows) (fun n l db' h => ?_)
    ⟨db.logicalVolumeProperty, rfl, hkeyed.rows, by decide, fun n _ => (hnew n).1,
      fun n hn => by cases n <;> exact absurd (by decide) hn, fun _ _ _ => rfl⟩
  obtain ⟨rows, rfl, hinserted⟩ := h
  cases hget : new.get n with
  | none => exact ⟨_, rfl, rows, rfl, hinserted.skip hget⟩
  | some value =>
    have hrefers : cat.Refers (lv.property new.filesystemType n value) := by
      refine ⟨(hnew n).2 (by rw [hget]; simp), fun t ht => ?_, fun t ht => ?_⟩
      · exact Option.some.inj ht ▸ hkeyed.volumeType _ (List.mem_map_of_mem hmem)
      · exact Option.some.inj ht ▸ hkeyed.type new hfs
    obtain ⟨hkeys, hinserted⟩ := hinserted.insert hget (List.mem_map_of_mem hmem) hrefers
    refine ⟨_, execute_property (Nat.le_refl 1) ?_, _, rfl, hinserted⟩
    have hkeys' : propertyKeys cat { db.setFilesystemType lv.logicalVolumeId new.filesystemType with
        logicalVolumeProperty := rows } rows (lv.property new.filesystemType n value) = .ok () := by
      rw [propertyKeys_eq_ok] at hkeys ⊢
      exact (Db.volumeIds_setFilesystemType db lv.logicalVolumeId new.filesystemType).symm ▸ hkeys
    show propertyKeys cat _ rows _ >>= _ = _
    rw [hkeys']
    rfl

/-- **A file system is inserted.** -/
theorem execute_insertFilesystem (hkeyed : Keyed cat db) (hall : AllMirror db)
    (hkeys : filesystemKeys cat db db.filesystem new = .ok ())
    (hvalid : validateFilesystem cat new = .ok ()) (hmeets : InsertMeets cat db new) :
    ∃ db', execute cat (more + 2) 0 db (.filesystem (.insert [new])) = .ok db' ∧
      Keyed cat db' ∧ AllMirror db' := by
  have hkeyed₁ := hkeyed.concat hkeys hvalid
  have hmem : ∀ fs ∈ db.filesystem ++ [new], fs ∈ db.filesystem ∨ fs = new := by simp
  rw [execute_filesystem_insert hkeys, afterFilesystem]
  cases hlv : db.volumeOf new.blockStorageDeviceId with
  | none =>
    have hnone : Db.volumeOf { db with filesystem := db.filesystem ++ [new] }
        new.blockStorageDeviceId = none := hlv
    refine ⟨_, ?_, hkeyed₁, fun i fs hhas => ?_⟩
    · rw [filesystemToLogicalVolumePropertyIns, if_neg (by omega), hnone]
      dsimp only [bind, Except.bind]
      rw [hvalid]
    · rcases hmem fs hhas.1 with hfs | rfl
      · exact hall i fs ⟨hfs, hhas.2⟩
      · obtain ⟨lv, hsome, -⟩ := hkeyed₁.volumeOf_of_has hhas
        rw [hnone] at hsome
        cases hsome
  | some lv =>
    have hsome : Db.volumeOf { db with filesystem := db.filesystem ++ [new] }
        new.blockStorageDeviceId = some lv := hlv
    have hvolume : Db.Has { db with filesystem := db.filesystem ++ [new] }
        lv.logicalVolumeId new := has_of_volumeOf (by simp) hsome
    obtain ⟨db₁, hins, rows, rfl, hinserted⟩ := filesystemToLogicalVolumePropertyIns_ok
      more hkeyed₁ (by simp) hsome hmeets
    refine ⟨{ Db.setFilesystemType { db with filesystem := db.filesystem ++ [new] }
        lv.logicalVolumeId new.filesystemType with logicalVolumeProperty := rows }, ?_, ?_, ?_⟩
    · rw [hins]
      dsimp only [bind, Except.bind]
      rw [hvalid]
    · exact hkeyed₁.congr rfl rfl (Db.volumeIds_setFilesystemType _ _ _)
        (Db.volumeTypes_setFilesystemType _ _ _) hinserted.keyed
    · intro i fs hhas
      have hhas : Db.Has { db with filesystem := db.filesystem ++ [new] } i fs := hhas
      by_cases heq : fs = new
      · subst heq
        obtain rfl := hkeyed₁.has_volume_inj hvolume hhas
        exact fun n => hinserted.done n List.not_mem_nil
      · refine (hall i fs ⟨(hmem fs hhas.1).resolve_right heq, hhas.2⟩).congr
          (hinserted.others i ?_)
        rintro rfl
        exact heq (hkeyed₁.has_inj hhas hvolume)

/-! ## The triggers on properties -/

section Property

variable {l : List Assignment} {e : RowEvent LogicalVolumeProperty}
  {r p : LogicalVolumeProperty}

theorem mirrored?_eq_some : p.mirrored? = some n ↔ p.logicalVolumePropertyName = some n.text := by
  rw [LogicalVolumeProperty.mirrored?, Option.bind_eq_some_iff]
  constructor
  · rintro ⟨name, hname, hn⟩
    rw [hname, Mirrored.eq_text hn]
  · exact fun h => ⟨n.text, h, Mirrored.ofText?_text n⟩

theorem apply_keys (fs : Filesystem) (a : Assignment) :
    (a.apply fs).blockStorageDeviceId = fs.blockStorageDeviceId ∧
      (a.apply fs).deviceId = fs.deviceId := by
  cases a with
  | filesystemType t => exact ⟨rfl, rfl⟩
  | column n value => exact ⟨fs.set_blockStorageDeviceId value, fs.set_deviceId value⟩

theorem foldl_apply_keys (l : List Assignment) (fs : Filesystem) :
    (l.foldl Assignment.apply fs).blockStorageDeviceId = fs.blockStorageDeviceId ∧
      (l.foldl Assignment.apply fs).deviceId = fs.deviceId := by
  induction l generalizing fs with
  | nil => exact ⟨rfl, rfl⟩
  | cons a l ih =>
    obtain ⟨hid, hdevice⟩ := apply_keys fs a
    rw [List.foldl_cons, (ih _).1, (ih _).2]
    exact ⟨hid, hdevice⟩

theorem validateUpdated_of (h : validateFilesystem cat new = .ok ()) :
    validateUpdated cat old new = .ok () := by
  rw [validateUpdated]
  split
  · rfl
  · exact h

theorem columnFollows_of_values
    (h : valuesOf rows lv.logicalVolumeId n = (new.get n).toList.map some) :
    ColumnFollows lv old new rows n := by
  rw [ColumnFollows]
  cases hget : new.get n with
  | none =>
    rw [hget, valuesOf, Option.toList_none, List.map_nil, List.map_eq_nil_iff,
      List.filter_eq_nil_iff] at h
    exact fun r hr his => absurd (decide_eq_true his) (h r hr)
  | some value =>
    have hmem : some value ∈ valuesOf rows lv.logicalVolumeId n := by
      rw [h, hget]
      exact List.mem_singleton.mpr rfl
    obtain ⟨r, hr, hvalue⟩ := List.mem_map.mp hmem
    obtain ⟨hr, his⟩ := List.mem_filter.mp hr
    exact ⟨r, hr, of_decide_eq_true his, .inl hvalue⟩

theorem updateFilesystem_ok (hkeyed : Keyed cat db) (hfs : fs ∈ db.filesystem)
    (htargets : (l.map (·.target)).Nodup)
    (htype : cat.HasType (l.foldl Assignment.apply fs).filesystemType)
    (hvalid : validateFilesystem cat (l.foldl Assignment.apply fs) = .ok ())
    (hfollows : ∀ lv ∈ db.volumeOf fs.blockStorageDeviceId,
      Follows lv fs (l.foldl Assignment.apply fs) cat db.logicalVolumeProperty)
    (hbut : ∀ i fs', db.Has i fs' → fs' ≠ fs → Mirrors db.logicalVolumeProperty i fs') :
    ∃ db', updateFilesystem (execute cat (more + 2) 1) db fs.blockStorageDeviceId l = .ok db' ∧
      Keyed cat db' ∧ AllMirror db' := by
  rw [updateFilesystem]
  by_cases hl : l = []
  · subst hl
    refine ⟨db, if_pos rfl, hkeyed, fun i fs' hhas => ?_⟩
    by_cases heq : fs' = fs
    · subst heq
      obtain ⟨lv, hlv, rfl⟩ := hkeyed.volumeOf_of_has hhas
      have hmirrors := mirrors_followRows hkeyed.rows (hfollows lv hlv)
      rwa [List.foldl_nil, followRows_self] at hmirrors
    · exact hbut i fs' hhas heq
  · obtain ⟨hid, hdevice⟩ := foldl_apply_keys l fs
    obtain ⟨b, hb, hbid, hbdevice⟩ := hkeyed.device_of fs hfs
    have hothers : ∀ fs' ∈ db.filesystem, fs' ≠ fs →
        fs'.blockStorageDeviceId ≠ fs.blockStorageDeviceId := fun fs' hfs' hne heq =>
      hne (List.inj_on_of_nodup_map hkeyed.filesystem hfs' hfs heq)
    obtain ⟨t, ht⟩ : ∃ t, (update fun fs' : Filesystem =>
        if fs'.blockStorageDeviceId = fs.blockStorageDeviceId then
          some (l.foldl Assignment.apply fs')
        else none).execute (filesystemKeys cat db) db.filesystem = .ok t := by
      refine exists_execute_of_one (List.Nodup.of_map _ hkeyed.filesystem) hfs (if_pos rfl)
        (fun fs' hfs' hne => if_neg (hothers fs' hfs' hne)) fun t ht => ?_
      refine filesystemKeys_of (fun c hc => ?_) hb (hbid.trans hid.symm)
        (hbdevice.trans hdevice.symm) htype
      rw [hid]
      exact hothers c (ht c hc).1 (ht c hc).2
    rw [if_neg hl]
    simp only [raiseIf, htargets, not_true_eq_false, if_false]
    exact execute_updateFilesystem hkeyed hfs rfl ht (validateUpdated_of hvalid) (by rwa [hid])
      hbut

theorem filesystem_get (b : BlockStorageDevice) (t : String) :
    (p.filesystem b t).get n = p.valueFor n := by
  cases n <;> rfl

variable (more) in
theorem insertFilesystem_ok (hkeyed : Keyed cat db) (hb : b ∈ db.blockStorageDevice)
    (hi : b.logicalVolumeId = some p.logicalVolumeId)
    (hnone : db.filesystemOn b.blockStorageDeviceId = none) (hp : p ∈ db.logicalVolumeProperty)
    (hmakes : MakesFilesystem cat db b p)
    (hbut : ∀ i fs, db.Has i fs → i ≠ p.logicalVolumeId → Mirrors db.logicalVolumeProperty i fs) :
    ∃ t, p.filesystemType = some t ∧ ∃ db',
      execute cat (more + 1) 1 db (.filesystem (.insert [p.filesystem b t])) = .ok db' ∧
        Keyed cat db' ∧ AllMirror db' := by
  obtain ⟨⟨t, ht, hvalid⟩, honly⟩ := hmakes
  have hkeys : filesystemKeys cat db db.filesystem (p.filesystem b t) = .ok () :=
    filesystemKeys_of (fun c hc => not_mem_of_filesystemOn hnone hc) hb rfl rfl
      ((hkeyed.rows.refers p hp).2.2 t ht)
  have hkeyed₁ := hkeyed.concat hkeys hvalid
  refine ⟨t, ht, _, execute_insertFilesystem_nested (Nat.le_refl 1) hkeys hvalid, hkeyed₁,
    fun i fs hhas => ?_⟩
  have hvolume : Db.Has { db with filesystem := db.filesystem ++ [p.filesystem b t] }
      p.logicalVolumeId (p.filesystem b t) := ⟨by simp, b, hb, rfl, hi⟩
  by_cases heq : fs = p.filesystem b t
  · subst heq
    obtain rfl := hkeyed₁.has_volume_inj hvolume hhas
    intro n
    rw [filesystem_get, LogicalVolumeProperty.valueFor]
    by_cases hn : p.mirrored? = some n
    · have his : p.Is p.logicalVolumeId n := ⟨rfl, mirrored?_eq_some.mp hn⟩
      obtain ⟨value, hvalue⟩ := Option.ne_none_iff_exists'.mp (honly p hp n his).2
      rw [valuesOf, hkeyed.rows.filter_of_mem hp his, if_pos hn, hvalue, List.map_singleton,
        hvalue]
      rfl
    · have hnil : db.logicalVolumeProperty.filter (fun r => r.Is p.logicalVolumeId n) = [] := by
        refine List.filter_eq_nil_iff.mpr fun r hr his => hn ?_
        have his := of_decide_eq_true his
        obtain rfl := (honly r hr n his).1
        exact mirrored?_eq_some.mpr his.2
      rw [valuesOf, hnil, if_neg hn]
      rfl
  · refine hbut i fs ⟨(List.mem_append.mp hhas.1).resolve_right fun h =>
      heq (List.mem_singleton.mp h), hhas.2⟩ ?_
    rintro rfl
    exact heq (hkeyed₁.has_inj hhas hvolume)

/-- A name that does not change sets no column a second time. -/
theorem assignments_eq (hname : ∀ r ∈ e.old?, p.mirrored? ≠ none →
    r.logicalVolumePropertyName = p.logicalVolumePropertyName) :
    assignments fs e p = assignments fs (.insert p) p := by
  rw [assignments, assignments]
  congr 1
  cases hold : e.old? with
  | none => rfl
  | some r =>
    cases hn : p.mirrored? with
    | none => rfl
    | some n => exact if_neg (not_not.mpr (hname r hold (by rw [hn]; simp)))

theorem Filesystem.given_filesystemType :
    (fs.given p).filesystemType = p.filesystemType.getD fs.filesystemType := by
  rw [Filesystem.given]
  cases p.mirrored? with
  | none => rfl
  | some n => exact Filesystem.set_filesystemType _ _

/-- What `given` sets, one column after the other. -/
theorem assignments_insert (fs : Filesystem) (p : LogicalVolumeProperty) :
    (assignments fs (.insert p) p).foldl Assignment.apply fs = fs.given p ∧
      ((assignments fs (.insert p) p).map (·.target)).Nodup := by
  have hcolumn : ∀ fs : Filesystem, ∀ n value, fs.get n = value → fs.set value n = fs := by
    rintro fs n value rfl
    exact fs.set_get_self
  have htype : ∀ fs : Filesystem, ∀ t n, fs.get n = { fs with filesystemType := t }.get n := by
    intro fs t n
    cases n <;> rfl
  rw [assignments, Filesystem.given]
  cases p.filesystemType with
  | none =>
    cases p.mirrored? with
    | none => exact ⟨rfl, List.nodup_nil⟩
    | some n =>
      by_cases hget : fs.get n = p.logicalVolumePropertyValue
      · simp [hget, hcolumn, RowEvent.old?]
      · simp [hget, Assignment.apply, RowEvent.old?]
  | some t =>
    by_cases ht : fs.filesystemType = t
    · subst ht
      cases p.mirrored? with
      | none => simp [RowEvent.old?]
      | some n =>
        by_cases hget : fs.get n = p.logicalVolumePropertyValue
        · simp [hget, hcolumn, RowEvent.old?]
        · simp [hget, Assignment.apply, RowEvent.old?]
    · cases p.mirrored? with
      | none => simp [ht, Assignment.apply, RowEvent.old?]
      | some n =>
        by_cases hget : fs.get n = p.logicalVolumePropertyValue
        · simp [ht, hget, Assignment.apply, RowEvent.old?, hcolumn _ _ _ ((htype fs t n).symm.trans hget)]
        · simp [ht, hget, Assignment.apply, Assignment.target, RowEvent.old?]

theorem insupd_ok (hkeyed : Keyed cat db) (hp : p ∈ db.logicalVolumeProperty)
    (hother : ¬ p.IsOther) (hmeets : WriteMeets cat db e p)
    (hbut : ∀ i fs, db.Has i fs → i ≠ p.logicalVolumeId → Mirrors db.logicalVolumeProperty i fs) :
    ∃ db', logicalVolumePropertyToFilesystemInsupd cat 1 (execute cat (more + 2) 1) db e p =
        .ok db' ∧ Keyed cat db' ∧ AllMirror db' := by
  rw [logicalVolumePropertyToFilesystemInsupd, if_neg (by simpa using hother), findOrCreateDevice]
  rw [WriteMeets] at hmeets
  cases hdevice : db.deviceOf p.logicalVolumeId with
  | none =>
    obtain ⟨lv, hlv, hid⟩ := exists_volume (hkeyed.rows.volume p hp)
    rw [hdevice] at hmeets
    obtain ⟨hcheck, hmakes⟩ := hmeets lv hlv
    have hnew := checkUnique_ok (bind_unit_eq_ok.mp hcheck).1
    have hnone : ∀ c ∈ db.blockStorageDevice, c.logicalVolumeId ≠ some p.logicalVolumeId := by
      simpa using List.find?_eq_none.mp hdevice
    have hfree : ∀ fs ∈ db.filesystem,
        fs.blockStorageDeviceId ≠ (newDevice cat db lv p).blockStorageDeviceId := by
      intro fs hfs heq
      obtain ⟨c, hc, hcid, -⟩ := hkeyed.device_of fs hfs
      exact hnew c hc (hcid.trans heq)
    have hkeyed₁ := hkeyed.addDevice (k := db.blockStorageDeviceSeq + 1) hnew rfl
      (hkeyed.rows.volume p hp) hnone
    have hfs₁ : Db.filesystemOn { db with
        blockStorageDevice := db.blockStorageDevice ++ [newDevice cat db lv p]
        blockStorageDeviceSeq := db.blockStorageDeviceSeq + 1 }
        (newDevice cat db lv p).blockStorageDeviceId = none :=
      List.find?_eq_none.mpr (by simpa using hfree)
    obtain ⟨t, ht, hinsert⟩ := insertFilesystem_ok (more + 1) hkeyed₁
      (List.mem_append_right _ (List.mem_singleton.mpr rfl)) rfl hfs₁ hp hmakes
      fun i fs hhas hne => by
        obtain ⟨hfs, c, hc, hcid, hi⟩ := hhas
        rcases List.mem_append.mp hc with hc | hc
        · exact hbut i fs ⟨hfs, c, hc, hcid, hi⟩ hne
        · exact absurd (List.mem_singleton.mp hc ▸ hcid.symm) (hfree fs hfs)
    rw [hlv]
    dsimp only [bind, Except.bind]
    rw [hcheck]
    dsimp only
    rw [hfs₁, ht]
    exact hinsert
  | some b =>
    obtain ⟨hb, hi⟩ := mem_of_deviceOf hdevice
    rw [hdevice] at hmeets
    dsimp only [bind, Except.bind] at hmeets ⊢
    cases hfs : db.filesystemOn b.blockStorageDeviceId with
    | none =>
      rw [hfs] at hmeets
      obtain ⟨t, ht, hinsert⟩ := insertFilesystem_ok (more + 1) hkeyed hb hi hfs hp hmeets
        hbut
      rw [ht]
      exact hinsert
    | some fs =>
      rw [hfs] at hmeets
      obtain ⟨hmem, hid⟩ := mem_of_filesystemOn hfs
      obtain ⟨hgiven, htargets⟩ := assignments_insert fs p
      dsimp only
      rw [assignments_eq hmeets.name, ← hid]
      have hhas : db.Has p.logicalVolumeId fs := ⟨hmem, b, hb, hid.symm, hi⟩
      refine updateFilesystem_ok hkeyed hmem htargets ?_ (by rw [hgiven]; exact hmeets.valid)
        (by rw [hgiven]; exact hmeets.follows) fun i fs' hhas' hne => hbut i fs' hhas' ?_
      · rw [hgiven, Filesystem.given_filesystemType]
        cases ht : p.filesystemType with
        | none => exact hkeyed.type fs hmem
        | some t => exact (hkeyed.rows.refers p hp).2.2 t ht
      · rintro rfl
        exact hne (hkeyed.has_inj hhas' hhas)

theorem validateFilesystem_set_none (h : validateFilesystem cat fs = .ok ()) :
    validateFilesystem cat (fs.set none n) = .ok () := by
  rw [validateFilesystem, Filesystem.set_filesystemType]
  rw [validateFilesystem] at h
  split
  · rfl
  · rename_i vft hvft
    rw [hvft] at h
    simp only [bind_unit_eq_ok, raiseIf_eq_ok] at h ⊢
    cases n with
    | mountPoint => exact ⟨fun hnone => hnone.1 rfl, h.2⟩
    | serial => exact ⟨h.1, h.2.1, fun hnone => hnone.1 rfl⟩
    | label => exact ⟨h.1, fun hnone => hnone.1 rfl, h.2.2⟩

theorem del_ok (hkeyed : Keyed cat db) (hp : p.Is i n)
    (hgone : ∀ r ∈ db.logicalVolumeProperty, ¬ r.Is i n) (hmeets : DeleteMeets cat db i)
    (hbut : ∀ j fs, db.Has j fs → j ≠ i → Mirrors db.logicalVolumeProperty j fs)
    (hrest : ∀ fs, db.Has i fs → ∀ m ≠ n,
      valuesOf db.logicalVolumeProperty i m = (fs.get m).toList.map some) :
    ∃ db', logicalVolumePropertyToFilesystemDel cat 1 (execute cat (more + 2) 1) db p = .ok db' ∧
      Keyed cat db' ∧ AllMirror db' := by
  have hother : ¬ p.IsOther := by
    rintro ⟨name, hname, hnone⟩
    obtain rfl := Option.some.inj (hp.2.symm.trans hname)
    rw [Mirrored.ofText?_text] at hnone
    cases hnone
  rw [logicalVolumePropertyToFilesystemDel, if_neg (by simpa using hother), hp.1]
  cases hdevice : db.deviceOf i with
  | none =>
    refine ⟨db, rfl, hkeyed, fun j fs hhas => hbut j fs hhas ?_⟩
    rintro rfl
    obtain ⟨-, b, hb, -, hi⟩ := hhas
    rw [hkeyed.deviceOf_eq hb hi] at hdevice
    cases hdevice
  | some b =>
    obtain ⟨hb, hi⟩ := mem_of_deviceOf hdevice
    dsimp only
    cases hfs : db.filesystemOn b.blockStorageDeviceId with
    | none =>
      refine ⟨db, rfl, hkeyed, fun j fs hhas => hbut j fs hhas ?_⟩
      rintro rfl
      obtain ⟨hmem, b', hb', hid, hi'⟩ := hhas
      obtain rfl := Option.some.inj (hdevice.symm.trans (hkeyed.deviceOf_eq hb' hi'))
      exact not_mem_of_filesystemOn hfs hmem hid.symm
    | some fs =>
      obtain ⟨hmem, hid⟩ := mem_of_filesystemOn hfs
      have hhas : db.Has i fs := ⟨hmem, b, hb, hid.symm, hi⟩
      have hbut' : ∀ j fs', db.Has j fs' → fs' ≠ fs → Mirrors db.logicalVolumeProperty j fs' := by
        intro j fs' hhas' hne
        refine hbut j fs' hhas' ?_
        rintro rfl
        exact hne (hkeyed.has_inj hhas' hhas)
      dsimp only
      by_cases htally : fs.tally = 1
      · rw [if_pos htally]
        obtain ⟨db₁, hdelete, hkeyed₁, hall₁, hdevices, hfree⟩ := execute_deleteFilesystem more 1
          (k := b.blockStorageDeviceId) hkeyed fun j fs' hhas' hne =>
            hbut' j fs' hhas' fun heq => hne (heq ▸ hid)
        refine ⟨_, ?_, hkeyed₁.deleteDevice hfree, fun j fs' hhas' => ?_⟩
        · rw [hdelete]
          dsimp only [bind, Except.bind]
          rw [deleteDevice, raiseIf, if_neg]
          · rfl
          · rintro (href | ⟨fs', hfs', heq⟩)
            · exact hmeets b hdevice fs hfs htally href
            · exact hfree fs' hfs' heq
        · obtain ⟨hfs', c, hc, h⟩ := hhas'
          exact hall₁ j fs' ⟨hfs', c, (List.mem_filter.mp hc).1, h⟩
      · rw [if_neg htally, mirrored?_eq_some.mpr hp.2, ← hid]
        refine updateFilesystem_ok hkeyed hmem (by simp)
          ((fs.set_filesystemType none).symm ▸ hkeyed.type fs hmem) (validateFilesystem_set_none (hkeyed.valid fs hmem)) (fun lv hlv => ?_) hbut'
        obtain rfl := hkeyed.has_volume_inj (has_of_volumeOf hmem hlv) hhas
        refine ⟨fun hne => absurd (fs.set_filesystemType none).symm hne, fun m => ?_⟩
        by_cases hm : m = n
        · subst hm
          show ColumnFollows lv fs (fs.set none m) db.logicalVolumeProperty m
          rw [ColumnFollows, Filesystem.get_set_self]
          exact fun r hr his => absurd his (hgone r hr)
        · refine columnFollows_of_values ?_
          show valuesOf _ _ m = ((fs.set none n).get m).toList.map some
          rw [fs.get_set_of_ne none hm]
          exact hrest fs hhas m hm

/-! ## Single rows -/

theorem not_isOther (h : p.Is i n) : ¬ p.IsOther := by
  rintro ⟨name, hname, hnone⟩
  obtain rfl := Option.some.inj (h.2.symm.trans hname)
  rw [Mirrored.ofText?_text] at hnone
  cases hnone

theorem execute_one {s : RowStatement LogicalVolumeProperty}
    (hok : s.execute (propertyKeys cat db) db.logicalVolumeProperty = .ok rows)
    (hevents : s.events db.logicalVolumeProperty = [e]) :
    execute cat (more + 3) 0 db (.logicalVolumeProperty s) =
      afterProperty cat 1 (execute cat (more + 2) 1) { db with logicalVolumeProperty := rows } e := by
  rw [execute, hok, hevents]
  exact foldlM_singleton

theorem execute_none {s : RowStatement LogicalVolumeProperty}
    (hok : s.execute (propertyKeys cat db) db.logicalVolumeProperty =
      .ok db.logicalVolumeProperty)
    (hevents : s.events db.logicalVolumeProperty = []) :
    execute cat (more + 3) 0 db (.logicalVolumeProperty s) = .ok db := by
  rw [execute, hok, hevents]
  rfl

/-- A row takes the place of the row of a property; other properties stay. -/
theorem filter_replace {m : Mirrored} (hj : j ≠ i) (hp : ¬ p.Is j m) :
    (rows.map fun r => if r.Is i n then p else r).filter (fun r => r.Is j m) =
      rows.filter fun r => r.Is j m := by
  induction rows with
  | nil => rfl
  | cons r rows ih =>
    rw [List.map_cons, List.filter_cons, List.filter_cons, ih]
    by_cases hr : r.Is i n
    · have hnot : ¬ r.Is j m := fun h => hj (h.1.symm.trans hr.1)
      rw [if_pos hr, if_neg (by simpa using hp), if_neg (by simpa using hnot)]
    · rw [if_neg hr]

section

variable (hkeyed : Keyed cat db) (hall : AllMirror db)
include hkeyed hall

theorem sound_insertProperty (hp : p.Is i n)
    (hkeys : propertyKeys cat db db.logicalVolumeProperty p = .ok ())
    (hmeets : WriteMeets cat { db with
      logicalVolumeProperty := db.logicalVolumeProperty ++ [p] } (.insert p) p) :
    ∃ db', execute cat (more + 3) 0 db (.logicalVolumeProperty (.insert [p])) = .ok db' ∧
      Keyed cat db' ∧ AllMirror db' := by
  have hok : (insert [p]).execute (propertyKeys cat db) db.logicalVolumeProperty =
      .ok (db.logicalVolumeProperty ++ [p]) := by
    show (propertyKeys cat db db.logicalVolumeProperty p >>= fun _ => _) = _
    rw [hkeys]
    rfl
  rw [execute_one hok rfl]
  refine insupd_ok (hkeyed.congr rfl rfl rfl rfl (hkeyed.rows.concat hkeys)) (by simp)
    (not_isOther hp) hmeets fun j fs hhas hne => (hall j fs hhas).congr fun m => ?_
  rw [List.filter_append, List.filter_singleton, decide_eq_false fun h => hne h.1.symm]
  exact List.append_nil _

theorem sound_updateProperty
    (hok : (update fun r => if LogicalVolumeProperty.Is i n r then some p else none).execute
      (propertyKeys cat db) db.logicalVolumeProperty = .ok rows)
    (hmeets : Meets cat db (.updateProperty i n p)) :
    ∃ db', execute cat (more + 3) 0 db (.logicalVolumeProperty (.update fun r =>
        if r.Is i n then some p else none)) = .ok db' ∧ Keyed cat db' ∧ AllMirror db' := by
  by_cases hrow : ∃ r ∈ db.logicalVolumeProperty, r.Is i n
  · obtain ⟨old, hold, his⟩ := hrow
    obtain ⟨hmoves, hwrite⟩ := hmeets old hold his
    have hevents : (update fun r => if LogicalVolumeProperty.Is i n r then some p else none).events
        db.logicalVolumeProperty = [.update old p] := by
      rw [events_update_if, hkeyed.rows.filter_of_mem hold his]
      rfl
    have hrows : rows = db.logicalVolumeProperty.map fun r => if r.Is i n then p else r := by
      rw [execute_ok hok, after_update_if]
    have hp : p ∈ rows := by
      rw [hrows]
      exact List.mem_map.mpr ⟨old, hold, if_pos his⟩
    have hkeyed' : Rows cat db.volumeIds rows := hkeyed.rows.execute hok
    -- a logical volume that loses the property has no file system
    have hstays : ∀ j fs, db.Has j fs → (∀ m, ¬ p.Is j m) → Mirrors rows j fs := by
      intro j fs hhas hp
      refine (hall j fs hhas).congr fun m => ?_
      rw [hrows]
      refine filter_replace (fun hj => ?_) (hp m)
      subst hj
      rcases hmoves with his | hnone
      · exact hp n his
      · exact hnone fs hhas.1 hhas
    rw [execute_one hok hevents, afterProperty]
    by_cases hother : p.IsOther
    · refine ⟨_, if_pos (.inr hother), hkeyed.congr rfl rfl rfl rfl hkeyed', fun j fs hhas => ?_⟩
      exact hstays j fs hhas fun m his => not_isOther his hother
    · refine insupd_ok (hkeyed.congr rfl rfl rfl rfl hkeyed') hp hother (hrows ▸ hwrite hother)
        fun j fs hhas hne => hstays j fs hhas fun m his => hne his.1.symm
  · have hnone : ∀ r ∈ db.logicalVolumeProperty, (if r.Is i n then some p else none) = none :=
      fun r hr => if_neg fun his => hrow ⟨r, hr, his⟩
    exact ⟨db, execute_none (execute_update_none hnone) (events_update_none hnone), hkeyed, hall⟩

theorem sound_deleteProperty (hmeets : Meets cat db (.deleteProperty i n)) :
    ∃ db', execute cat (more + 3) 0 db (.logicalVolumeProperty (.delete fun r => r.Is i n)) =
      .ok db' ∧ Keyed cat db' ∧ AllMirror db' := by
  by_cases hrow : ∃ r ∈ db.logicalVolumeProperty, r.Is i n
  · obtain ⟨old, hold, his⟩ := hrow
    have hevents : (delete fun r => decide (LogicalVolumeProperty.Is i n r)).events
        db.logicalVolumeProperty = [.delete old] := by
      rw [events, hkeyed.rows.filter_of_mem hold his]
      rfl
    have hstays : ∀ j m, (j ≠ i ∨ m ≠ n) →
        (db.logicalVolumeProperty.filter fun r => !decide (r.Is i n)).filter
            (fun r => r.Is j m) = db.logicalVolumeProperty.filter fun r => r.Is j m := by
      intro j m hne
      rw [List.filter_filter]
      refine List.filter_congr fun r _ => ?_
      by_cases hr : r.Is j m
      · have hnot : ¬ r.Is i n := by
          rintro ⟨hi, hn⟩
          rcases hne with hne | hne
          · exact hne (hr.1.symm.trans hi)
          · exact hne (Mirrored.text_inj (Option.some.inj (hr.2.symm.trans hn)))
        rw [decide_eq_false hnot, Bool.not_false, Bool.and_true]
      · rw [decide_eq_false hr, Bool.false_and]
    rw [execute_one rfl hevents]
    refine del_ok (hkeyed.congr rfl rfl rfl rfl (hkeyed.rows.filter _)) his (fun r hr => ?_)
      (hmeets ⟨old, hold, his⟩) (fun j fs hhas hne => ?_) fun fs hhas m hm => ?_
    · simpa using (List.mem_filter.mp hr).2
    · exact (hall j fs hhas).congr fun m => hstays j m (.inl hne)
    · show ((db.logicalVolumeProperty.filter fun r => !decide (r.Is i n)).filter
        fun r => r.Is i m).map _ = _
      rw [hstays i m (.inr hm)]
      exact hall i fs hhas m
  · have hnone : db.logicalVolumeProperty.filter (fun r => decide (r.Is i n)) = [] :=
      List.filter_eq_nil_iff.mpr fun r hr his => hrow ⟨r, hr, of_decide_eq_true his⟩
    refine ⟨db, execute_none ?_ ?_, hkeyed, hall⟩
    · rw [RowStatement.execute, List.filter_eq_self.mpr]
      exact fun r hr => by simpa using fun his => hrow ⟨r, hr, his⟩
    · rw [events, hnone]
      rfl

/-- **One statement.**  What goes through alone goes through, and all file systems are mirrored
again. -/
theorem sound {s : SingleRow} (halone : alone cat db s.statement = .ok ()) (hmeets : Meets cat db s) :
    ∃ db', s.execute cat db = .ok db' ∧ Keyed cat db' ∧ AllMirror db' := by
  cases s with
  | insertFilesystem new =>
    obtain ⟨l, hok, hvalid⟩ := bind_eq_ok.mp halone
    refine execute_insertFilesystem hkeyed hall (bind_unit_eq_ok.mp hok).1 ?_ hmeets
    exact forM_eq_ok.mp hvalid _ (List.mem_singleton.mpr rfl)
  | updateFilesystem b new =>
    obtain ⟨l, hok, hvalid⟩ := bind_eq_ok.mp halone
    by_cases hfs : ∃ old ∈ db.filesystem, old.blockStorageDeviceId = b
    · obtain ⟨old, hold, rfl⟩ := hfs
      refine execute_updateFilesystem hkeyed hold rfl hok ?_ (hmeets old hold rfl)
        fun i fs hhas _ => hall i fs hhas
      refine forM_eq_ok.mp hvalid (.update old new) ?_
      show RowEvent.update old new ∈ (update fun fs =>
        if fs.blockStorageDeviceId = old.blockStorageDeviceId then some new else none).events
          db.filesystem
      rw [events_update_if, filter_key hkeyed.filesystem hold]
      exact List.mem_singleton.mpr rfl
    · have hnone : ∀ fs ∈ db.filesystem,
          (if fs.blockStorageDeviceId = b then some new else none) = none :=
        fun fs hmem => if_neg fun heq => hfs ⟨fs, hmem, heq⟩
      refine ⟨db, ?_, hkeyed, hall⟩
      show execute cat (99 + 1) 0 db (.filesystem (.update fun fs =>
        if fs.blockStorageDeviceId = b then some new else none)) = .ok db
      rw [execute, events_update_none hnone]
      show RowStatement.execute (filesystemKeys cat db) db.filesystem _ >>= _ = _
      rw [execute_update_none hnone]
      rfl
  | deleteFilesystem b =>
    obtain ⟨db', hdelete, hkeyed', hall', -⟩ := execute_deleteFilesystem 98 0 hkeyed
      fun i fs hhas _ => hall i fs hhas
    exact ⟨db', hdelete, hkeyed', hall'⟩
  | insertProperty i n lvt fst value =>
    obtain ⟨rows, hok, -⟩ := bind_eq_ok.mp halone
    exact sound_insertProperty hkeyed hall ⟨rfl, rfl⟩ (bind_unit_eq_ok.mp hok).1 hmeets
  | updateProperty i n p =>
    obtain ⟨rows, hok, -⟩ := bind_eq_ok.mp halone
    exact sound_updateProperty hkeyed hall hok hmeets
  | deleteProperty i n => exact sound_deleteProperty hkeyed hall hmeets

end

end Property

/-! ## Runs -/

theorem alone_of_execute_filesystem {s : RowStatement Filesystem}
    (hbefore : ∀ ex, ∀ e ∈ s.events db.filesystem, beforeFilesystem ex db e = .ok db)
    (hok : execute cat (more + 1) depth db (.filesystem s) = .ok db') :
    alone cat db (.filesystem s) = .ok () := by
  rw [execute, foldlM_stays (hbefore _)] at hok
  obtain ⟨db₀, hdb, hok⟩ := bind_eq_ok.mp hok
  obtain rfl := Except.ok.inj hdb
  obtain ⟨rows, hrows, hok⟩ := bind_eq_ok.mp hok
  refine bind_eq_ok.mpr ⟨rows, hrows, forM_eq_ok.mpr fun e he => ?_⟩
  obtain ⟨db₁, db₂, hafter⟩ := exists_of_foldlM hok e he
  cases e with
  | insert new =>
    obtain ⟨db₃, -, hafter⟩ := bind_eq_ok.mp hafter
    exact (bind_unit_eq_ok.mp hafter).1
  | update old new =>
    obtain ⟨db₃, -, hafter⟩ := bind_eq_ok.mp hafter
    exact (bind_unit_eq_ok.mp hafter).1
  | delete old => rfl

theorem alone_of_execute {s : SingleRow} (hok : s.execute cat db = .ok db') :
    alone cat db s.statement = .ok () := by
  cases s with
  | insertFilesystem new =>
    refine alone_of_execute_filesystem (fun _ e he => ?_) hok
    obtain rfl := List.mem_singleton.mp he
    rfl
  | updateFilesystem b new =>
    refine alone_of_execute_filesystem (fun _ e he => ?_) hok
    obtain ⟨fs, -, new', -, rfl⟩ := exists_of_update he
    rfl
  | deleteFilesystem b =>
    refine bind_eq_ok.mpr ⟨_, rfl, forM_eq_ok.mpr fun e he => ?_⟩
    obtain ⟨fs, -, rfl⟩ := List.mem_map.mp he
    rfl
  | insertProperty i n lvt fst value =>
    obtain ⟨rows, hrows, -⟩ := bind_eq_ok.mp hok
    exact bind_eq_ok.mpr ⟨rows, hrows, rfl⟩
  | updateProperty i n p =>
    obtain ⟨rows, hrows, -⟩ := bind_eq_ok.mp hok
    exact bind_eq_ok.mpr ⟨rows, hrows, rfl⟩
  | deleteProperty i n => rfl

theorem step_of_ok {s : SingleRow} (hok : s.execute cat db = .ok db') : step cat db s = db' := by
  rw [step, hok]
  rfl

theorem step_of_error {s : SingleRow} {err : PgError} (herror : s.execute cat db = .error err) :
    step cat db s = db := by
  rw [step, herror]
  rfl

/-- **Both sides mirror each other.**  In a run whose statements meet the condition, where they go
through alone, all of those go through, and every state is mirrored. -/
theorem mirrored_run {l : List SingleRow} (hkeyed : Keyed cat db) (hall : AllMirror db)
    (hl : AllSteps (step cat) (fun db s =>
      alone cat db s.statement = .ok () → Meets cat db s) db l) :
    (∀ l', l' <+: l → AllMirror (run (step cat) db l')) ∧
      AllSteps (step cat) (fun db s =>
        alone cat db s.statement = .ok () → (s.execute cat db).isOk) db l := by
  have hstep : ∀ db s, Keyed cat db ∧ AllMirror db →
      (alone cat db s.statement = .ok () → Meets cat db s) →
      (Keyed cat (step cat db s) ∧ AllMirror (step cat db s)) ∧
        (alone cat db s.statement = .ok () → (s.execute cat db).isOk) := by
    intro db s h hmeets
    cases hok : s.execute cat db with
    | error err =>
      rw [step_of_error hok]
      refine ⟨h, fun halone => ?_⟩
      obtain ⟨db', hok', -⟩ := sound h.1 h.2 halone (hmeets halone)
      rw [hok] at hok'
      cases hok'
    | ok db' =>
      rw [step_of_ok hok]
      have halone := alone_of_execute hok
      obtain ⟨db'', hok', hsound⟩ := sound h.1 h.2 halone (hmeets halone)
      obtain rfl := Except.ok.inj (hok.symm.trans hok')
      exact ⟨hsound, fun _ => rfl⟩
  refine ⟨?_, AllSteps.of_invariant hstep ⟨hkeyed, hall⟩ hl⟩
  rintro l' ⟨l'', rfl⟩
  exact (run_invariant (I := fun db => Keyed cat db ∧ AllMirror db)
    (fun db s h hmeets => (hstep db s h hmeets).1) ⟨hkeyed, hall⟩ (AllSteps.append.mp hl).1).2

/-! ## A mount point -/

/-- A file system `ext4` may have all properties. -/
def ext4Catalog : Catalog where
  volumeGroup := [⟨1, "vg", "Linux LVM"⟩]
  valLogicalVolumeType := ["generic"]
  valLogicalVolumeProperty := [("MountPoint", "ext4"), ("Serial", "ext4"), ("Label", "ext4")]
  valFilesystemType := [⟨"ext4", .allowed, .allowed, .allowed⟩]
  valBlockStorageDeviceType := [⟨"LVM volume", .required, .prohibited, .prohibited, some false⟩]
  referenced := []

/-- A logical volume without a block storage device. -/
def bareVolume : Db := ⟨[⟨7, "root", "generic", 1, 3, some "ext4"⟩], [], 1, [], []⟩

theorem keyed_bareVolume : Keyed ext4Catalog bareVolume where
  device := List.nodup_nil
  one _ ha := absurd ha List.not_mem_nil
  volume _ hb := absurd hb List.not_mem_nil
  filesystem := List.nodup_nil
  device_of _ hfs := absurd hfs List.not_mem_nil
  type _ hfs := absurd hfs List.not_mem_nil
  valid _ hfs := absurd hfs List.not_mem_nil
  volumeType := by decide
  rows := by decide

def insertMountPoint : SingleRow :=
  .insertProperty 7 .mountPoint (some "generic") (some "ext4") (some "/")

def insertLabel : SingleRow :=
  .insertProperty 7 .label (some "generic") (some "ext4") (some "root")

def updateLabel : SingleRow :=
  .updateFilesystem 1 ⟨1, 3, "ext4", some "/", some "slash", none⟩

def deleteLabel : SingleRow := .deleteProperty 7 .label

/-- A mount point and a label, which changes and goes. -/
theorem mirrored_run_label :
    (∀ l', l' <+: [insertMountPoint, insertLabel, updateLabel, deleteLabel] →
      AllMirror (run (step ext4Catalog) bareVolume l')) ∧
    AllSteps (step ext4Catalog) (fun db s =>
      alone ext4Catalog db s.statement = .ok () → (s.execute ext4Catalog db).isOk) bareVolume
      [insertMountPoint, insertLabel, updateLabel, deleteLabel] :=
  mirrored_run keyed_bareVolume (by decide)
    ⟨fun _ => by decide, fun _ => by decide, fun _ => by decide, fun _ => by decide, trivial⟩

/-- A serial number for a file system that has none. -/
def updateSerial : SingleRow :=
  .updateFilesystem 1 ⟨1, 3, "ext4", some "/", none, some "0001"⟩

/-- The mount point becomes the label. -/
def renameMountPoint : SingleRow :=
  .updateProperty 7 .mountPoint ⟨7, some "generic", some "ext4", some "Label", some "/"⟩

/-- A serial number comes without its property; and a property cannot be renamed, as its column
would be set twice. -/
theorem not_mirrors_serial :
    AllMirror (run (step ext4Catalog) bareVolume [insertMountPoint]) ∧
      (updateSerial.execute ext4Catalog
        (run (step ext4Catalog) bareVolume [insertMountPoint])).isOk ∧
      ¬ AllMirror (run (step ext4Catalog) bareVolume [insertMountPoint, updateSerial]) ∧
      alone ext4Catalog (run (step ext4Catalog) bareVolume [insertMountPoint])
        renameMountPoint.statement = .ok () ∧
      renameMountPoint.execute ext4Catalog
          (run (step ext4Catalog) bareVolume [insertMountPoint]) =
        .error ⟨.syntaxError, "multiple assignments to same column"⟩ := by
  decide

end JazzHands.FilesystemCompat

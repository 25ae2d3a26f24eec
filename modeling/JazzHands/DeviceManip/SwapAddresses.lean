import JazzHands.Postgres.Error
import Mathlib.Logic.Equiv.Basic
import Mathlib.Logic.Function.Basic

/-!
# `device_manip.swap_device_ip_adresses`

Two devices exchange their interfaces, the addresses on these, and the service instances that are
bound to addresses, when the call leaves the MAC addresses alone.

All tables keep their other columns, and both devices are there.
-/

namespace JazzHands.DeviceManip

open Postgres

@[ext] structure Layer3Interface where
  layer3InterfaceId : ℕ
  deviceId : ℕ
  layer3InterfaceName : Option String
  logicalPortId : Option ℕ
  deriving DecidableEq

@[ext] structure Layer3InterfaceNetblock where
  netblockId : ℕ
  layer3InterfaceId : ℕ
  deviceId : ℕ

@[ext] structure ServiceInstance where
  serviceInstanceId : ℕ
  deviceId : ℕ
  serviceVersionId : ℕ
  isPrimary : Bool
  netblockId : Option ℕ
  deriving DecidableEq

structure LogicalPort where
  logicalPortId : ℕ
  deviceId : ℕ
  deriving DecidableEq

structure Layer3InterfacePurpose where
  layer3InterfaceId : ℕ
  deviceId : ℕ

@[ext] structure Db where
  layer3Interface : List Layer3Interface
  layer3InterfaceNetblock : List Layer3InterfaceNetblock
  serviceInstance : List ServiceInstance
  logicalPort : List LogicalPort
  layer3InterfacePurpose : List Layer3InterfacePurpose

/-! ## Constraints -/

/-- `fk_netint_nb_nblk_id`: an address is on the device of its interface. -/
def AddressesOnDevices (db : Db) : Prop :=
  ∀ n ∈ db.layer3InterfaceNetblock, ∃ i ∈ db.layer3Interface,
    i.layer3InterfaceId = n.layer3InterfaceId ∧ i.deviceId = n.deviceId
  deriving Decidable

/-- `fk_service_instance_dev_nblk`. -/
def BoundToAddresses (db : Db) : Prop :=
  ∀ s ∈ db.serviceInstance, ∀ nb ∈ s.netblockId, ∃ n ∈ db.layer3InterfaceNetblock,
    n.netblockId = nb ∧ n.deviceId = s.deviceId
  deriving Decidable

/-- `fk_net_int_lgl_port_id`. -/
def PortsOnDevices (db : Db) : Prop :=
  ∀ i ∈ db.layer3Interface, ∀ p ∈ i.logicalPortId, ∃ l ∈ db.logicalPort,
    l.logicalPortId = p ∧ l.deviceId = i.deviceId
  deriving Decidable

/-- `fk_netint_purp_dev_ni_id`. -/
def PurposesOnDevices (db : Db) : Prop :=
  ∀ p ∈ db.layer3InterfacePurpose, ∃ i ∈ db.layer3Interface,
    i.layer3InterfaceId = p.layer3InterfaceId ∧ i.deviceId = p.deviceId
  deriving Decidable

/-- `uq_l3int_devid_name`, for which names that are NULL are different. -/
def NamesUnique (db : Db) : Prop :=
  ∀ i ∈ db.layer3Interface, ∀ j ∈ db.layer3Interface, i.deviceId = j.deviceId →
    i.layer3InterfaceName = j.layer3InterfaceName → i.layer3InterfaceName ≠ none → i = j
  deriving Decidable

/-- `ak_service_instance_device_is_primary`. -/
def PrimaryUnique (db : Db) : Prop :=
  ∀ s ∈ db.serviceInstance, ∀ r ∈ db.serviceInstance, s.isPrimary = true → r.isPrimary = true →
    s.deviceId = r.deviceId → s = r
  deriving Decidable

/-- `ak_svc_instance_device_id_version`. -/
def VersionsUnique (db : Db) : Prop :=
  ∀ s ∈ db.serviceInstance, ∀ r ∈ db.serviceInstance, s.deviceId = r.deviceId →
    s.serviceVersionId = r.serviceVersionId → s = r
  deriving Decidable

/-- The constraints of the tables. -/
structure Db.Valid (db : Db) : Prop where
  interface : ∀ i ∈ db.layer3Interface, ∀ j ∈ db.layer3Interface,
    i.layer3InterfaceId = j.layer3InterfaceId → i = j
  port : ∀ l ∈ db.logicalPort, ∀ m ∈ db.logicalPort, l.logicalPortId = m.logicalPortId → l = m
  addresses : AddressesOnDevices db
  bound : BoundToAddresses db
  ports : PortsOnDevices db
  purposes : PurposesOnDevices db
  names : NamesUnique db
  primary : PrimaryUnique db
  versions : VersionsUnique db

section

variable {db : Db}

end

/-- What is checked when all rows have been written: the foreign keys, and the constraints that the
function sets `DEFERRED` and then `IMMEDIATE`. -/
def checkConstraints (db : Db) : Result Unit := do
  raiseIf (¬ BoundToAddresses db) .foreignKeyViolation
    "violates foreign key constraint fk_service_instance_dev_nblk"
  raiseIf (¬ AddressesOnDevices db) .foreignKeyViolation
    "violates foreign key constraint fk_netint_nb_nblk_id"
  raiseIf (¬ PortsOnDevices db) .foreignKeyViolation
    "violates foreign key constraint fk_net_int_lgl_port_id"
  raiseIf (¬ PurposesOnDevices db) .foreignKeyViolation
    "violates foreign key constraint fk_netint_purp_dev_ni_id"
  raiseIf (¬ PrimaryUnique db) .exclusionViolation
    "conflicting key value violates exclusion constraint ak_service_instance_device_is_primary"
  raiseIf (¬ NamesUnique db) .uniqueViolation
    "duplicate key value violates unique constraint uq_l3int_devid_name"

/-! ## The function -/

/-- `WITH swp`: the device is one of the two, and its `new_device_id` is `Equiv.swap d₁ d₂`. -/
def InPair (d₁ d₂ d : ℕ) : Prop := d = d₁ ∨ d = d₂
  deriving Decidable

variable (d₁ d₂ : ℕ)

/-- The rows that `upd_svc_instance` updates. -/
def BoundHere (s : ServiceInstance) : Prop := InPair d₁ d₂ s.deviceId ∧ s.netblockId ≠ none
  deriving Decidable

def ServiceInstance.moved (s : ServiceInstance) : ServiceInstance :=
  if BoundHere d₁ d₂ s then { s with deviceId := Equiv.swap d₁ d₂ s.deviceId } else s

/-- The key `ak_svc_instance_device_id_version` is checked with every row that is written: of two
rows that would change places, the one that is written first finds the other still there. -/
def VersionTaken (db : Db) : Prop :=
  ∃ s ∈ db.serviceInstance, BoundHere d₁ d₂ s ∧ ∃ r ∈ db.serviceInstance,
    r.deviceId = Equiv.swap d₁ d₂ s.deviceId ∧ r.serviceVersionId = s.serviceVersionId
  deriving Decidable

/-- `SELECT device_id FROM upd_svc_instance`. -/
def updSvcInstance (db : Db) : List ℕ :=
  (db.serviceInstance.filter (BoundHere d₁ d₂)).map (·.deviceId)

def Layer3InterfaceNetblock.moved (n : Layer3InterfaceNetblock) : Layer3InterfaceNetblock :=
  if InPair d₁ d₂ n.deviceId then { n with deviceId := Equiv.swap d₁ d₂ n.deviceId } else n

/-- `SELECT device_id FROM upd_l3i_net`. -/
def updL3iNet (db : Db) : List ℕ :=
  (db.layer3InterfaceNetblock.filter fun n => InPair d₁ d₂ n.deviceId).map (·.deviceId)

/-- The `WHERE` clause of the last `UPDATE`. -/
def Updated (db : Db) (i : Layer3Interface) : Prop :=
  InPair d₁ d₂ i.deviceId ∧ i.deviceId ∈ updSvcInstance d₁ d₂ db ∧ i.deviceId ∈ updL3iNet d₁ d₂ db
  deriving Decidable

def Layer3Interface.swapped (i : Layer3Interface) : Layer3Interface :=
  { i with deviceId := Equiv.swap d₁ d₂ i.deviceId }

/-- `net_int_device_id_upd`, with the new row of an interface. -/
def netIntDeviceIdUpd (l : List Layer3InterfaceNetblock) (new : Layer3Interface) :
    List Layer3InterfaceNetblock :=
  l.map fun n =>
    if n.layer3InterfaceId = new.layer3InterfaceId then { n with deviceId := new.deviceId } else n

/-- The tables when the statement and its triggers are done. -/
def updateDevices (db : Db) : Db :=
  { db with
    serviceInstance := db.serviceInstance.map (·.moved d₁ d₂)
    layer3InterfaceNetblock :=
      ((db.layer3Interface.filter (Updated d₁ d₂ db)).map (·.swapped d₁ d₂)).foldl
        netIntDeviceIdUpd (db.layer3InterfaceNetblock.map (·.moved d₁ d₂))
    layer3Interface := db.layer3Interface.map fun i =>
      if Updated d₁ d₂ db i then i.swapped d₁ d₂ else i }

def swapDeviceIpAdresses (db : Db) : Result Db := do
  raiseIf (VersionTaken d₁ d₂ db) .uniqueViolation
    "duplicate key value violates unique constraint ak_svc_instance_device_id_version"
  checkConstraints (updateDevices d₁ d₂ db)
  .ok (updateDevices d₁ d₂ db)

/-- Every interface, every address and every service instance with an address has gone to the other
device, and nothing else has. -/
structure Exchanged (db db' : Db) : Prop where
  interfaces : ∀ i, i ∈ db'.layer3Interface ↔ i.swapped d₁ d₂ ∈ db.layer3Interface
  addresses : ∀ n, n ∈ db'.layer3InterfaceNetblock ↔ n.moved d₁ d₂ ∈ db.layer3InterfaceNetblock
  services : ∀ s, s ∈ db'.serviceInstance ↔ s.moved d₁ d₂ ∈ db.serviceInstance

/-! ## Going there and back -/

variable {d₁ d₂ : ℕ} {d : ℕ} {db db' : Db} {i : Layer3Interface} {n : Layer3InterfaceNetblock}
variable {s : ServiceInstance}

theorem swap_of_not_inPair (h : ¬ InPair d₁ d₂ d) : Equiv.swap d₁ d₂ d = d := by
  rw [InPair, not_or] at h
  exact Equiv.swap_apply_of_ne_of_ne h.1 h.2

theorem swap_ne (hne : d₁ ≠ d₂) (h : InPair d₁ d₂ d) : Equiv.swap d₁ d₂ d ≠ d :=
  Equiv.swap_apply_ne_self_iff.mpr ⟨hne, h⟩

@[simp] theorem inPair_swap : InPair d₁ d₂ (Equiv.swap d₁ d₂ d) ↔ InPair d₁ d₂ d := by
  by_cases h : InPair d₁ d₂ d
  · rcases h with rfl | rfl <;> simp [InPair]
  · rw [swap_of_not_inPair h]

@[simp] theorem swapped_layer3InterfaceId :
    (i.swapped d₁ d₂).layer3InterfaceId = i.layer3InterfaceId := rfl

@[simp] theorem swapped_deviceId : (i.swapped d₁ d₂).deviceId = Equiv.swap d₁ d₂ i.deviceId := rfl

@[simp] theorem swapped_swapped : (i.swapped d₁ d₂).swapped d₁ d₂ = i := by
  ext <;> simp [Layer3Interface.swapped]

theorem swapped_of_not_inPair (h : ¬ InPair d₁ d₂ i.deviceId) : i.swapped d₁ d₂ = i := by
  rw [Layer3Interface.swapped, swap_of_not_inPair h]

/-- An address goes to the other device; the swap leaves all but two where they are. -/
theorem address_moved : n.moved d₁ d₂ = { n with deviceId := Equiv.swap d₁ d₂ n.deviceId } := by
  unfold Layer3InterfaceNetblock.moved
  split_ifs with h
  · rfl
  · rw [swap_of_not_inPair h]

@[simp] theorem address_moved_moved : (n.moved d₁ d₂).moved d₁ d₂ = n := by
  simp [address_moved]

theorem moved_of_bound (h : BoundHere d₁ d₂ s) :
    s.moved d₁ d₂ = { s with deviceId := Equiv.swap d₁ d₂ s.deviceId } := if_pos h

theorem moved_of_not_bound (h : ¬ BoundHere d₁ d₂ s) : s.moved d₁ d₂ = s := if_neg h

@[simp] theorem boundHere_moved : BoundHere d₁ d₂ (s.moved d₁ d₂) ↔ BoundHere d₁ d₂ s := by
  by_cases h : BoundHere d₁ d₂ s
  · rw [moved_of_bound h]
    simp [BoundHere]
  · rw [moved_of_not_bound h]

@[simp] theorem service_moved_moved : (s.moved d₁ d₂).moved d₁ d₂ = s := by
  by_cases h : BoundHere d₁ d₂ s
  · rw [moved_of_bound (boundHere_moved.mpr h), moved_of_bound h]
    simp
  · rw [moved_of_not_bound h, moved_of_not_bound h]

theorem mem_map_iff {α : Type} {f : α → α} (hf : Function.Involutive f) {l : List α} {a : α} :
    a ∈ l.map f ↔ f a ∈ l := by
  rw [List.mem_map]
  constructor
  · rintro ⟨b, hb, rfl⟩
    rwa [hf]
  · exact fun h => ⟨f a, h, hf a⟩

variable (d₁ d₂)

/-- The tables with everything exchanged. -/
def exchange (db : Db) : Db :=
  { db with
    serviceInstance := db.serviceInstance.map (·.moved d₁ d₂)
    layer3InterfaceNetblock := db.layer3InterfaceNetblock.map (·.moved d₁ d₂)
    layer3Interface := db.layer3Interface.map (·.swapped d₁ d₂) }

variable {d₁ d₂}

theorem exchange_exchange : exchange d₁ d₂ (exchange d₁ d₂ db) = db := by
  ext1 <;> simp [exchange, Function.comp_def]

theorem exchanged_exchange : Exchanged d₁ d₂ db (exchange d₁ d₂ db) where
  interfaces _ := mem_map_iff fun _ => swapped_swapped
  addresses _ := mem_map_iff fun _ => address_moved_moved
  services _ := mem_map_iff fun _ => service_moved_moved

/-! ## One call -/

theorem checkConstraints_eq_ok : checkConstraints db = .ok () ↔
    BoundToAddresses db ∧ AddressesOnDevices db ∧ PortsOnDevices db ∧ PurposesOnDevices db ∧
      PrimaryUnique db ∧ NamesUnique db := by
  simp only [checkConstraints, bind_unit_eq_ok, raiseIf_eq_ok, not_not]

theorem Db.Valid.checkConstraints (hv : db.Valid) : checkConstraints db = .ok () :=
  checkConstraints_eq_ok.mpr
    ⟨hv.bound, hv.addresses, hv.ports, hv.purposes, hv.primary, hv.names⟩

theorem swapDeviceIpAdresses_eq_ok : swapDeviceIpAdresses d₁ d₂ db = .ok db' ↔
    ¬ VersionTaken d₁ d₂ db ∧ checkConstraints db' = .ok () ∧ updateDevices d₁ d₂ db = db' := by
  simp only [swapDeviceIpAdresses, bind_unit_eq_ok, raiseIf_eq_ok, Except.ok.injEq]
  constructor
  · rintro ⟨hv, hc, rfl⟩
    exact ⟨hv, hc, rfl⟩
  · rintro ⟨hv, hc, rfl⟩
    exact ⟨hv, hc, rfl⟩

theorem mem_updSvcInstance : d ∈ updSvcInstance d₁ d₂ db ↔
    ∃ s ∈ db.serviceInstance, BoundHere d₁ d₂ s ∧ s.deviceId = d := by
  simp [updSvcInstance, and_assoc]

theorem mem_updL3iNet : d ∈ updL3iNet d₁ d₂ db ↔
    InPair d₁ d₂ d ∧ ∃ n ∈ db.layer3InterfaceNetblock, n.deviceId = d := by
  simp only [updL3iNet, List.mem_map, List.mem_filter, decide_eq_true_eq]
  constructor
  · rintro ⟨n, ⟨hn, hp⟩, rfl⟩
    exact ⟨hp, n, hn, rfl⟩
  · rintro ⟨hp, n, hn, rfl⟩
    exact ⟨n, ⟨hn, hp⟩, rfl⟩

theorem updateDevices_addresses
    (hpk : ∀ i ∈ db.layer3Interface, ∀ j ∈ db.layer3Interface,
      i.layer3InterfaceId = j.layer3InterfaceId → i = j)
    (haddr : AddressesOnDevices db) :
    (updateDevices d₁ d₂ db).layer3InterfaceNetblock =
      db.layer3InterfaceNetblock.map (·.moved d₁ d₂) := by
  have hstep : ∀ new ∈ (db.layer3Interface.filter (Updated d₁ d₂ db)).map (·.swapped d₁ d₂),
      netIntDeviceIdUpd (db.layer3InterfaceNetblock.map (·.moved d₁ d₂)) new =
        db.layer3InterfaceNetblock.map (·.moved d₁ d₂) := by
    intro new hnew
    obtain ⟨i, hi, rfl⟩ := List.mem_map.mp hnew
    rw [netIntDeviceIdUpd, List.map_map]
    refine List.map_congr_left fun n hn => ?_
    obtain ⟨j, hj, hid, hdev⟩ := haddr n hn
    simp only [Function.comp, address_moved, swapped_layer3InterfaceId, swapped_deviceId]
    split_ifs with hsame
    · obtain rfl := hpk j hj i (List.mem_filter.mp hi).1 (hid.trans hsame)
      rw [hdev]
    · rfl
  show List.foldl netIntDeviceIdUpd _ _ = _
  generalize (db.layer3Interface.filter (Updated d₁ d₂ db)).map (·.swapped d₁ d₂) = news at hstep
  induction news with
  | nil => rfl
  | cons new news ih =>
    rw [List.foldl_cons, hstep new List.mem_cons_self]
    exact ih fun m hm => hstep m (List.mem_cons_of_mem _ hm)

section

variable (hv : db.Valid) (hne : d₁ ≠ d₂) (haddr : AddressesOnDevices (updateDevices d₁ d₂ db))
include hv hne haddr

/-- On a device with addresses, a call that succeeds has found a service instance that is bound to
one: the addresses are exchanged, and can only be where their interfaces are. -/
theorem mem_updSvcInstance_of_address (hn : n ∈ db.layer3InterfaceNetblock)
    (hp : InPair d₁ d₂ n.deviceId) : n.deviceId ∈ updSvcInstance d₁ d₂ db := by
  by_contra hno
  have hmem : n.moved d₁ d₂ ∈ (updateDevices d₁ d₂ db).layer3InterfaceNetblock := by
    rw [updateDevices_addresses hv.interface hv.addresses]
    exact List.mem_map_of_mem hn
  obtain ⟨j, hj, hid, hdev⟩ := haddr _ hmem
  rw [address_moved] at hid hdev
  obtain ⟨i, hi, rfl⟩ := List.mem_map.mp hj
  obtain ⟨k, hk, hkid, hkdev⟩ := hv.addresses n hn
  have hstay : ¬ Updated d₁ d₂ db k := fun h => hno (hkdev ▸ h.2.1)
  have hik : i = k := by
    refine hv.interface i hi k hk (Eq.trans ?_ hkid.symm)
    rw [← hid]
    split_ifs <;> rfl
  rw [hik, if_neg hstay, hkdev] at hdev
  exact swap_ne hne hp hdev.symm

theorem updated_iff : Updated d₁ d₂ db i ↔
      InPair d₁ d₂ i.deviceId ∧ ∃ n ∈ db.layer3InterfaceNetblock, n.deviceId = i.deviceId := by
  constructor
  · rintro ⟨-, -, h⟩
    exact mem_updL3iNet.mp h
  · rintro ⟨hp, n, hn, hdev⟩
    have hsvc := mem_updSvcInstance_of_address hv hne haddr hn (hdev ▸ hp)
    exact ⟨hp, hdev ▸ hsvc, mem_updL3iNet.mpr ⟨hp, n, hn, hdev⟩⟩

end

/-- Every interface of the two devices is updated. -/
def AllUpdated (d₁ d₂ : ℕ) (db : Db) : Prop :=
  ∀ i ∈ db.layer3Interface, InPair d₁ d₂ i.deviceId → Updated d₁ d₂ db i

theorem updateDevices_eq (hpk : ∀ i ∈ db.layer3Interface, ∀ j ∈ db.layer3Interface,
      i.layer3InterfaceId = j.layer3InterfaceId → i = j)
    (haddr : AddressesOnDevices db) (hall : AllUpdated d₁ d₂ db) :
    updateDevices d₁ d₂ db = exchange d₁ d₂ db := by
  refine Db.ext (List.map_congr_left fun i hi => ?_) (updateDevices_addresses hpk haddr) rfl rfl rfl
  by_cases hp : InPair d₁ d₂ i.deviceId
  · rw [if_pos (hall i hi hp)]
  · rw [if_neg fun h => hp h.1, swapped_of_not_inPair hp]

/-! ## The call back -/

theorem AllUpdated.exchange (hall : AllUpdated d₁ d₂ db) :
    AllUpdated d₁ d₂ (exchange d₁ d₂ db) := by
  intro j hj hp
  obtain ⟨i, hi, rfl⟩ := List.mem_map.mp hj
  rw [swapped_deviceId, inPair_swap] at hp
  obtain ⟨-, hsvc, hnet⟩ := hall i hi hp
  obtain ⟨s, hs, hbound, hsdev⟩ := mem_updSvcInstance.mp hsvc
  obtain ⟨-, n, hn, hndev⟩ := mem_updL3iNet.mp hnet
  refine ⟨inPair_swap.mpr hp, mem_updSvcInstance.mpr ⟨s.moved d₁ d₂, List.mem_map_of_mem hs,
    boundHere_moved.mpr hbound, ?_⟩, mem_updL3iNet.mpr ⟨inPair_swap.mpr hp, n.moved d₁ d₂,
    List.mem_map_of_mem hn, ?_⟩⟩
  · rw [moved_of_bound hbound, swapped_deviceId, ← hsdev]
  · rw [address_moved, swapped_deviceId, ← hndev]

theorem not_versionTaken_exchange (hv : VersionsUnique db) (h : ¬ VersionTaken d₁ d₂ db) :
    ¬ VersionTaken d₁ d₂ (exchange d₁ d₂ db) := by
  rintro ⟨s', hs', hbound, r', hr', hdev, hversion⟩
  obtain ⟨s, hs, rfl⟩ := List.mem_map.mp hs'
  obtain ⟨r, hr, rfl⟩ := List.mem_map.mp hr'
  rw [boundHere_moved] at hbound
  rw [moved_of_bound hbound] at hdev hversion
  dsimp only at hdev hversion
  rw [Equiv.swap_apply_self] at hdev
  by_cases hr₂ : BoundHere d₁ d₂ r
  · -- both have moved, and were in each other's way before
    rw [moved_of_bound hr₂] at hdev hversion
    dsimp only at hdev hversion
    refine h ⟨s, hs, hbound, r, hr, ?_, hversion⟩
    rw [← hdev, Equiv.swap_apply_self]
  · rw [moved_of_not_bound hr₂] at hdev hversion
    obtain rfl := hv r hr s hs hdev hversion
    exact hr₂ hbound

/-- **When a call that succeeds has exchanged everything.** -/
theorem swapped_iff (hv : db.Valid) (hne : d₁ ≠ d₂)
    (h : swapDeviceIpAdresses d₁ d₂ db = .ok db') :
    (Exchanged d₁ d₂ db db' ∧ AddressesOnDevices db' ∧
        swapDeviceIpAdresses d₁ d₂ db' = .ok db) ↔
      ∀ i ∈ db.layer3Interface, InPair d₁ d₂ i.deviceId →
        ∃ n ∈ db.layer3InterfaceNetblock, n.deviceId = i.deviceId := by
  obtain ⟨hversion, hcheck, rfl⟩ := swapDeviceIpAdresses_eq_ok.mp h
  have haddr := (checkConstraints_eq_ok.mp hcheck).2.1
  constructor
  · rintro ⟨hex, -, -⟩ i hi hp
    by_contra hno
    have hstay : ¬ Updated d₁ d₂ db i := fun hu => hno ((updated_iff hv hne haddr).mp hu).2
    have hmem : i ∈ (updateDevices d₁ d₂ db).layer3Interface :=
      List.mem_map.mpr ⟨i, hi, if_neg hstay⟩
    have hsame := hv.interface _ ((hex.interfaces i).mp hmem) i hi rfl
    exact swap_ne hne hp (congrArg Layer3Interface.deviceId hsame)
  · intro hcond
    have hall : AllUpdated d₁ d₂ db := fun i hi hp =>
      (updated_iff hv hne haddr).mpr ⟨hp, hcond i hi hp⟩
    have hpk : ∀ i ∈ (exchange d₁ d₂ db).layer3Interface,
        ∀ j ∈ (exchange d₁ d₂ db).layer3Interface,
        i.layer3InterfaceId = j.layer3InterfaceId → i = j := by
      intro i' hi' j' hj' hid
      obtain ⟨i, hi, rfl⟩ := List.mem_map.mp hi'
      obtain ⟨j, hj, rfl⟩ := List.mem_map.mp hj'
      rw [hv.interface i hi j hj hid]
    rw [updateDevices_eq hv.interface hv.addresses hall] at haddr ⊢
    refine ⟨exchanged_exchange, haddr, swapDeviceIpAdresses_eq_ok.mpr
      ⟨not_versionTaken_exchange hv.versions hversion, hv.checkConstraints, ?_⟩⟩
    rw [updateDevices_eq hpk haddr hall.exchange, exchange_exchange]

/-- Two devices with an interface, an address and a service instance each. -/
def alike : Db where
  layer3Interface := [⟨10, 1, some "eth0", none⟩, ⟨20, 2, some "eth0", none⟩]
  layer3InterfaceNetblock := [⟨100, 10, 1⟩, ⟨200, 20, 2⟩]
  serviceInstance := [⟨1000, 1, 7, true, some 100⟩, ⟨2000, 2, 8, true, some 200⟩]
  logicalPort := []
  layer3InterfacePurpose := []

theorem swapped_iff_alike : ∃ db', swapDeviceIpAdresses 1 2 alike = .ok db' ∧
    Exchanged 1 2 alike db' ∧ AddressesOnDevices db' ∧
      swapDeviceIpAdresses 1 2 db' = .ok alike := by
  have hv : alike.Valid := by
    refine ⟨?_, ?_, ?_, ?_, ?_, ?_, ?_, ?_, ?_⟩ <;> decide
  exact ⟨_, rfl, (swapped_iff hv (by decide) rfl).mpr (by decide)⟩

/-- The second device has an interface without an address. -/
def bare : Db where
  layer3Interface := [⟨10, 1, some "eth0", none⟩, ⟨20, 2, some "eth1", none⟩]
  layer3InterfaceNetblock := [⟨100, 10, 1⟩]
  serviceInstance := [⟨1000, 1, 7, true, some 100⟩]
  logicalPort := []
  layer3InterfacePurpose := []

/-- The interface stays, and the second device has both. -/
theorem not_swapped_bare : bare.Valid ∧ ∃ db', swapDeviceIpAdresses 1 2 bare = .ok db' ∧
    (∀ i ∈ db'.layer3Interface, i.deviceId = 2) ∧
    ¬ (Exchanged 1 2 bare db' ∧ AddressesOnDevices db' ∧
      swapDeviceIpAdresses 1 2 db' = .ok bare) := by
  refine ⟨by refine ⟨?_, ?_, ?_, ?_, ?_, ?_, ?_, ?_, ?_⟩ <;> decide, _, rfl, by decide, ?_⟩
  rintro ⟨hex, -, -⟩
  have h := (hex.interfaces ⟨20, 2, some "eth1", none⟩).mp (by decide)
  exact absurd h (by decide)

end JazzHands.DeviceManip

import JazzHands.LogicalPort.MlagPeering
import JazzHands.Postgres.Query

/-!
# `logical_port_manip.remove_mlag_peer`

* `removeMlagPeer`: the function.  Its search path is the schema `jazzhands`, where the table of the
  layer 2 connections' networks is called `layer2_connection_layer2_network`; it uses the name that
  the table has in `jazzhands_legacy`.  `oldName` says whether that name is found.

The record of the peering is filled from a query for one column, so its devices are always NULL.
The trigger on changed logical ports looks at columns that the function does not change.
-/

namespace JazzHands.LogicalPort

open Postgres

structure Layer2Connection where
  layer2ConnectionId : ℕ
  logicalPort1Id : Option ℕ
  logicalPort2Id : Option ℕ

structure Layer2ConnectionLayer2Network where
  layer2ConnectionId : ℕ
  layer2NetworkId : ℕ

/-- The columns of `layer3_interface` that refer to a logical port of the same device. -/
structure Layer3Interface where
  logicalPortId : Option ℕ
  deviceId : ℕ

/-- Of `logical_port_slot` only the ports are read. -/
structure PortDb extends Db where
  layer2Connection : List Layer2Connection
  layer2ConnectionLayer2Network : List Layer2ConnectionLayer2Network
  layer3Interface : List Layer3Interface
  logicalPortSlot : List ℕ

/-- `SELECT logical_port_id FROM logical_port lp WHERE lp.mlag_peering_id = peering`. -/
def PortDb.portsOf (db : PortDb) (peering : ℕ) : List ℕ :=
  (db.logicalPort.filter (·.mlagPeeringId = some peering)).map (·.logicalPortId)

/-- A connection has one of the logical ports on one of its sides. -/
def Layer2Connection.On (c : Layer2Connection) (ports : List ℕ) : Prop :=
  (∃ i ∈ c.logicalPort1Id, i ∈ ports) ∨ ∃ i ∈ c.logicalPort2Id, i ∈ ports
  deriving Decidable

/-- The subquery `x`. -/
def PortDb.connectionsOf (db : PortDb) (peering : ℕ) : List ℕ :=
  (db.layer2Connection.filter (·.On (db.portsOf peering))).map (·.layer2ConnectionId)

/-! ## The function -/

/-- `SET parent_logical_port_id = NULL` where the port is the device's and its parent one of
`ports`. -/
def detach (devid : ℕ) (ports : List ℕ) (lp : Port) : Port :=
  if lp.deviceId = some devid ∧ ∃ i ∈ lp.parentLogicalPortId, i ∈ ports then
    { lp with parentLogicalPortId := none }
  else lp

def PortDb.detachPorts (db : PortDb) (devid peering : ℕ) : PortDb :=
  { db with logicalPort := db.logicalPort.map (detach devid (db.portsOf peering)) }

/-- Both tables are written by one statement, so no row that refers to a deleted one is left. -/
def deleteConnections (oldName : Bool) (db : PortDb) (peering : ℕ) : Result PortDb := do
  raiseIf (oldName = false) .undefinedTable
    "relation \"layer2_connection_l2_network\" does not exist"
  let x := db.connectionsOf peering
  .ok { db with
    layer2ConnectionLayer2Network :=
      db.layer2ConnectionLayer2Network.filter (·.layer2ConnectionId ∉ x)
    layer2Connection := db.layer2Connection.filter (·.layer2ConnectionId ∉ x) }

def deletePorts (db : PortDb) (peering : ℕ) : Result PortDb := do
  let ports := db.portsOf peering
  let logicalPort := db.logicalPort.filter (·.mlagPeeringId ≠ some peering)
  raiseIf (∃ lp ∈ logicalPort, ∃ i ∈ lp.parentLogicalPortId, i ∈ ports) .foreignKeyViolation
    "fk_logical_port_parent_id"
  raiseIf (∃ c ∈ db.layer2Connection, c.On ports) .foreignKeyViolation "fk_l2_conn_l1port"
  raiseIf (∃ i ∈ db.logicalPortSlot, i ∈ ports) .foreignKeyViolation "fk_lgl_port_slot_lgl_port_id"
  raiseIf (∃ i ∈ db.layer3Interface, ∃ lp ∈ db.logicalPort, lp.mlagPeeringId = some peering ∧
      i.logicalPortId = some lp.logicalPortId ∧ lp.deviceId = some i.deviceId)
    .foreignKeyViolation "fk_net_int_lgl_port_id"
  .ok { db with logicalPort }

def deletePeering (db : PortDb) (peering : ℕ) : Result PortDb := do
  raiseIf (∃ lp ∈ db.logicalPort, lp.mlagPeeringId = some peering) .foreignKeyViolation
    "fk_logcal_port_mlag_peering_id"
  .ok { db with mlagPeering := db.mlagPeering.filter (·.mlagPeeringId ≠ peering) }

def removeMlagPeer (oldName : Bool) (first : FirstRow MlagPeering) (db : PortDb) (devid : ℕ)
    (mpid : Option ℕ) : Result (Bool × PortDb) :=
  match first.pick (db.mlagPeering.filter (·.Has devid)) with
  | none => .ok (false, db)
  | some mp =>
    -- `SELECT mp.mlag_peering_id INTO mprec` leaves the other columns of the record NULL
    let mprec : MlagPeering := ⟨mp.mlagPeeringId, none, none⟩
    if ∃ i ∈ mpid, i ≠ mprec.mlagPeeringId then .ok (false, db)
    else
      let mpid := mprec.mlagPeeringId
      let db := db.detachPorts devid mprec.mlagPeeringId
      if mprec.device1Id = none ∨ mprec.device2Id = none then do
        let db ← deleteConnections oldName db mpid
        let db ← deletePorts db mpid
        let db ← deletePeering db mpid
        .ok (true, db)
      else .ok (true, db)

/-! ## What is to be left -/

/-- A device other than `d` is in the peering. -/
def MlagPeering.HasOther (p : MlagPeering) (d : ℕ) : Prop :=
  (∃ e ∈ p.device1Id, e ≠ d) ∨ ∃ e ∈ p.device2Id, e ≠ d
  deriving Decidable

def MlagPeering.without (p : MlagPeering) (d : ℕ) : MlagPeering :=
  { p with
    device1Id := p.device1Id.filter (· ≠ d)
    device2Id := p.device2Id.filter (· ≠ d) }

/-- The device is out of the peering and its ports are detached; with the last device the peering
goes, its ports and the connections on them. -/
def removed (db : PortDb) (p : MlagPeering) (d : ℕ) : PortDb :=
  if p.HasOther d then
    { db with
      mlagPeering := db.mlagPeering.map fun q =>
        if q.mlagPeeringId = p.mlagPeeringId then q.without d else q
      logicalPort := db.logicalPort.map (detach d (db.portsOf p.mlagPeeringId)) }
  else
    { db with
      mlagPeering := db.mlagPeering.filter (·.mlagPeeringId ≠ p.mlagPeeringId)
      logicalPort := (db.logicalPort.filter (·.mlagPeeringId ≠ some p.mlagPeeringId)).map
        (detach d (db.portsOf p.mlagPeeringId))
      layer2Connection := db.layer2Connection.filter
        (·.layer2ConnectionId ∉ db.connectionsOf p.mlagPeeringId)
      layer2ConnectionLayer2Network := db.layer2ConnectionLayer2Network.filter
        (·.layer2ConnectionId ∉ db.connectionsOf p.mlagPeeringId) }

/-- Nothing refers to the ports of a peering but its own ports, those of the device and layer 2
connections. -/
structure Unreferenced (db : PortDb) (peering d : ℕ) : Prop where
  parents : ∀ lp ∈ db.logicalPort, lp.mlagPeeringId ≠ some peering → lp.deviceId ≠ some d →
    ∀ i ∈ lp.parentLogicalPortId, i ∉ db.portsOf peering
  slots : ∀ i ∈ db.logicalPortSlot, i ∉ db.portsOf peering
  interfaces : ∀ i ∈ db.layer3Interface, ∀ lp ∈ db.logicalPort, lp.mlagPeeringId = some peering →
    i.logicalPortId = some lp.logicalPortId → lp.deviceId ≠ some i.deviceId

variable {oldName : Bool} {first : FirstRow MlagPeering} {db db' : PortDb} {p : MlagPeering}
  {d peering : ℕ} {mpid : Option ℕ} {ports : List ℕ} {lp : Port}

/-! ## Detaching -/

@[simp] theorem detach_logicalPortId : (detach d ports lp).logicalPortId = lp.logicalPortId := by
  unfold detach
  split <;> rfl

@[simp] theorem detach_deviceId : (detach d ports lp).deviceId = lp.deviceId := by
  unfold detach
  split <;> rfl

@[simp] theorem detach_mlagPeeringId : (detach d ports lp).mlagPeeringId = lp.mlagPeeringId := by
  unfold detach
  split <;> rfl

theorem parent_detach {i : ℕ} (hi : i ∈ ports) :
    (detach d ports lp).parentLogicalPortId = some i ↔
      lp.deviceId ≠ some d ∧ lp.parentLogicalPortId = some i := by
  unfold detach
  split
  next h => simp [h.1]
  next h =>
    constructor
    · intro hparent
      exact ⟨fun hd => h ⟨hd, i, hparent, hi⟩, hparent⟩
    · exact And.right

@[simp] theorem portsOf_detachPorts :
    (db.detachPorts d peering).portsOf peering = db.portsOf peering := by
  simp [PortDb.portsOf, PortDb.detachPorts, List.filter_map, Function.comp_def]

@[simp] theorem connectionsOf_detachPorts :
    (db.detachPorts d peering).connectionsOf peering = db.connectionsOf peering := by
  rw [PortDb.connectionsOf, PortDb.connectionsOf, portsOf_detachPorts]
  rfl

/-! ## Deleting -/

/-- The rows of a peering and what hangs on them are gone. -/
def withoutPeering (db : PortDb) (peering : ℕ) : PortDb :=
  { db with
    mlagPeering := db.mlagPeering.filter (·.mlagPeeringId ≠ peering)
    logicalPort := db.logicalPort.filter (·.mlagPeeringId ≠ some peering)
    layer2Connection := db.layer2Connection.filter
      (·.layer2ConnectionId ∉ db.connectionsOf peering)
    layer2ConnectionLayer2Network := db.layer2ConnectionLayer2Network.filter
      (·.layer2ConnectionId ∉ db.connectionsOf peering) }

/-- No foreign key refers to the ports of a peering, layer 2 connections apart. -/
def NoReferences (db : PortDb) (peering : ℕ) : Prop :=
  (¬ ∃ lp ∈ db.logicalPort.filter (·.mlagPeeringId ≠ some peering),
    ∃ i ∈ lp.parentLogicalPortId, i ∈ db.portsOf peering) ∧
  (¬ ∃ i ∈ db.logicalPortSlot, i ∈ db.portsOf peering) ∧
  ¬ ∃ i ∈ db.layer3Interface, ∃ lp ∈ db.logicalPort, lp.mlagPeeringId = some peering ∧
    i.logicalPortId = some lp.logicalPortId ∧ lp.deviceId = some i.deviceId

/-- The three statements at the end of the function. -/
def deleteAll (oldName : Bool) (db : PortDb) (peering : ℕ) : Result PortDb := do
  let db ← deleteConnections oldName db peering
  let db ← deletePorts db peering
  deletePeering db peering

theorem deleteConnections_eq_ok :
    deleteConnections oldName db peering = .ok db' ↔ oldName = true ∧ db' = { db with
      layer2ConnectionLayer2Network := db.layer2ConnectionLayer2Network.filter
        (·.layer2ConnectionId ∉ db.connectionsOf peering)
      layer2Connection := db.layer2Connection.filter
        (·.layer2ConnectionId ∉ db.connectionsOf peering) } := by
  simp only [deleteConnections, bind_unit_eq_ok, raiseIf_eq_ok, Except.ok.injEq,
    Bool.not_eq_false, @eq_comm _ db']

theorem deletePorts_eq_ok :
    deletePorts db peering = .ok db' ↔
      NoReferences db peering ∧ (¬ ∃ c ∈ db.layer2Connection, c.On (db.portsOf peering)) ∧
        db' = { db with
          logicalPort := db.logicalPort.filter (·.mlagPeeringId ≠ some peering) } := by
  simp only [deletePorts, NoReferences, bind_unit_eq_ok, raiseIf_eq_ok, Except.ok.injEq,
    @eq_comm _ db']
  tauto

theorem deletePeering_eq_ok :
    deletePeering db peering = .ok db' ↔
      (¬ ∃ lp ∈ db.logicalPort, lp.mlagPeeringId = some peering) ∧
      db' = { db with mlagPeering := db.mlagPeering.filter (·.mlagPeeringId ≠ peering) } := by
  simp only [deletePeering, bind_unit_eq_ok, raiseIf_eq_ok, Except.ok.injEq, @eq_comm _ db']

theorem deleteAll_eq_ok :
    deleteAll oldName db peering = .ok db' ↔
      oldName = true ∧ NoReferences db peering ∧ db' = withoutPeering db peering := by
  constructor
  · intro h
    obtain ⟨db₁, h₁, h⟩ := bind_eq_ok.mp h
    obtain ⟨hname, rfl⟩ := deleteConnections_eq_ok.mp h₁
    obtain ⟨db₂, h₂, h⟩ := bind_eq_ok.mp h
    obtain ⟨hno, -, rfl⟩ := deletePorts_eq_ok.mp h₂
    obtain ⟨-, rfl⟩ := deletePeering_eq_ok.mp h
    exact ⟨hname, hno, rfl⟩
  · rintro ⟨hname, hno, rfl⟩
    refine bind_eq_ok.mpr ⟨_, deleteConnections_eq_ok.mpr ⟨hname, rfl⟩, ?_⟩
    refine bind_eq_ok.mpr ⟨_, deletePorts_eq_ok.mpr ⟨hno, ?_, rfl⟩, ?_⟩
    · -- no connection on the ports is left
      rintro ⟨c, hc, hon⟩
      obtain ⟨hmem, hnot⟩ := List.mem_filter.mp hc
      refine of_decide_eq_true hnot (List.mem_map.mpr ⟨c, ?_, rfl⟩)
      exact List.mem_filter.mpr ⟨hmem, decide_eq_true hon⟩
    · refine deletePeering_eq_ok.mpr ⟨?_, rfl⟩
      rintro ⟨lp, hlp, hpeering⟩
      exact of_decide_eq_true (List.mem_filter.mp hlp).2 hpeering

/-- What the foreign keys see once the device's ports are detached. -/
theorem noReferences_detachPorts :
    NoReferences (db.detachPorts d peering) peering ↔ Unreferenced db peering d := by
  unfold NoReferences
  rw [portsOf_detachPorts]
  constructor
  · rintro ⟨hparents, hslots, hinterfaces⟩
    refine ⟨fun lp hlp hpeering hd i hi hmem => hparents ?_, ?_, ?_⟩
    · refine ⟨_, List.mem_filter.mpr ⟨List.mem_map_of_mem hlp, ?_⟩, i, ?_, hmem⟩
      · rw [detach_mlagPeeringId]
        exact decide_eq_true hpeering
      · exact (parent_detach hmem).mpr ⟨hd, hi⟩
    · exact fun i hi hmem => hslots ⟨i, hi, hmem⟩
    · intro i hi lp hlp hpeering hport hd
      refine hinterfaces ⟨i, hi, _, List.mem_map_of_mem hlp, ?_⟩
      rw [detach_mlagPeeringId, detach_logicalPortId, detach_deviceId]
      exact ⟨hpeering, hport, hd⟩
  · rintro ⟨hparents, hslots, hinterfaces⟩
    refine ⟨?_, fun ⟨i, hi, hmem⟩ => hslots i hi hmem, ?_⟩
    · rintro ⟨lp', hlp', i, hi, hmem⟩
      obtain ⟨hlp', hpeering⟩ := List.mem_filter.mp hlp'
      obtain ⟨lp, hlp, rfl⟩ := List.mem_map.mp hlp'
      obtain ⟨hd, hi⟩ := (parent_detach hmem).mp hi
      refine hparents lp hlp ?_ hd i hi hmem
      rw [detach_mlagPeeringId] at hpeering
      exact of_decide_eq_true hpeering
    · rintro ⟨i, hi, lp', hlp', hpeering, hport, hd⟩
      obtain ⟨lp, hlp, rfl⟩ := List.mem_map.mp hlp'
      rw [detach_mlagPeeringId] at hpeering
      rw [detach_logicalPortId] at hport
      rw [detach_deviceId] at hd
      exact hinterfaces i hi lp hlp hpeering hport hd

/-! ## The function -/

section

variable (hids : (db.mlagPeering.map (·.mlagPeeringId)).Nodup) (hone : OneEach db.mlagPeering)
  (hp : p ∈ db.mlagPeering) (hhas : p.Has d)
include hids hone hp hhas

theorem pick_peering :
    first.pick (db.mlagPeering.filter (·.Has d)) = some p := by
  refine first.pick_eq (List.mem_filter.mpr ⟨hp, decide_eq_true hhas⟩) fun q hq => ?_
  obtain ⟨hq, hqhas⟩ := List.mem_filter.mp hq
  exact List.inj_on_of_nodup_map hids hq hp
    (hone.peering q hq p hp d (of_decide_eq_true hqhas) hhas)

/-- **The function** with a device of a peering always comes to its last part. -/
theorem removeMlagPeer_eq (hmpid : mpid = none ∨ mpid = some p.mlagPeeringId) :
    removeMlagPeer oldName first db d mpid =
      (deleteAll oldName (db.detachPorts d p.mlagPeeringId) p.mlagPeeringId >>=
        fun db' => .ok (true, db')) := by
  have hsame : ¬ ∃ i ∈ mpid, i ≠ p.mlagPeeringId := by
    rintro ⟨i, hi, hne⟩
    rcases hmpid with rfl | rfl
    · exact nomatch hi
    · exact hne (Option.some.inj hi).symm
  rw [removeMlagPeer, pick_peering hids hone hp hhas]
  dsimp only
  rw [if_neg hsame, if_pos (Or.inl rfl)]
  simp only [deleteAll, bind_assoc]

end

/-- While another device is in it, the peering is to stay. -/
theorem mem_removed_of_hasOther (h : p.HasOther d) (hp : p ∈ db.mlagPeering) :
    p.without d ∈ (removed db p d).mlagPeering := by
  rw [removed, if_pos h]
  exact List.mem_map.mpr ⟨p, hp, if_pos rfl⟩

/-- With the last device, what is to be left is what the deletions leave. -/
theorem removed_of_not_hasOther (h : ¬ p.HasOther d) :
    removed db p d = withoutPeering (db.detachPorts d p.mlagPeeringId) p.mlagPeeringId := by
  have hports : (db.logicalPort.map (detach d (db.portsOf p.mlagPeeringId))).filter
      (·.mlagPeeringId ≠ some p.mlagPeeringId) =
        (db.logicalPort.filter (·.mlagPeeringId ≠ some p.mlagPeeringId)).map
          (detach d (db.portsOf p.mlagPeeringId)) := by
    rw [List.filter_map]
    simp only [Function.comp_def, detach_mlagPeeringId]
  rw [removed, if_neg h, withoutPeering, connectionsOf_detachPorts]
  simp only [PortDb.detachPorts]
  rw [hports]

/-- **When a device is removed as it should be.**  `oldName`: the search path has a relation
`layer2_connection_l2_network`. -/
theorem removeMlagPeer_eq_removed_iff (oldName : Bool) (first : FirstRow MlagPeering)
    (db : PortDb) (p : MlagPeering) (d : ℕ) (mpid : Option ℕ)
    (hids : (db.mlagPeering.map (·.mlagPeeringId)).Nodup) (hone : OneEach db.mlagPeering)
    (hp : p ∈ db.mlagPeering) (hhas : p.Has d)
    (hmpid : mpid = none ∨ mpid = some p.mlagPeeringId) :
    (∃ b, removeMlagPeer oldName first db d mpid = .ok (b, removed db p d)) ↔
      oldName = true ∧ ¬ p.HasOther d ∧ Unreferenced db p.mlagPeeringId d := by
  rw [removeMlagPeer_eq hids hone hp hhas hmpid]
  constructor
  · rintro ⟨b, h⟩
    obtain ⟨db', hdelete, h⟩ := bind_eq_ok.mp h
    obtain ⟨-, rfl⟩ := Prod.mk.inj (Except.ok.inj h)
    obtain ⟨hname, hno, heq⟩ := deleteAll_eq_ok.mp hdelete
    refine ⟨hname, fun hother => ?_, noReferences_detachPorts.mp hno⟩
    have hmem := mem_removed_of_hasOther hother hp
    rw [heq] at hmem
    exact of_decide_eq_true (List.mem_filter.mp hmem).2 rfl
  · rintro ⟨hname, hother, hno⟩
    refine ⟨true, bind_eq_ok.mpr ⟨_, deleteAll_eq_ok.mpr ⟨hname, ?_, ?_⟩, rfl⟩⟩
    · exact noReferences_detachPorts.mpr hno
    · exact removed_of_not_hasOther hother

/-- A peering with one device, a port under its port, and a connection. -/
def lastPeer : PortDb where
  mlagPeering := [⟨1, some 10, none⟩]
  logicalPort := [⟨100, none, some 1, none⟩, ⟨101, some 10, none, some 100⟩]
  layer2Connection := [⟨5, some 100, none⟩]
  layer2ConnectionLayer2Network := [⟨5, 7⟩]
  layer3Interface := [⟨some 101, 10⟩]
  logicalPortSlot := [101]

theorem removeMlagPeer_lastPeer :
    ∃ b, removeMlagPeer true (.listed _) lastPeer 10 none =
      .ok (b, removed lastPeer ⟨1, some 10, none⟩ 10) := by
  refine (removeMlagPeer_eq_removed_iff true (.listed _) lastPeer ⟨1, some 10, none⟩ 10 none
    (by decide) ?_ (by decide) (by decide) (Or.inl rfl)).mpr ⟨rfl, by decide, ?_, ?_, ?_⟩
  · refine ⟨by decide, fun p hp q hq _ _ _ => ?_⟩
    rw [List.mem_singleton.mp hp, List.mem_singleton.mp hq]
  · decide
  · decide
  · decide

/-- The same peering with both of its devices. -/
def bothPeers : PortDb :=
  { lastPeer with mlagPeering := [⟨1, some 10, some 20⟩] }

/-- Whatever the names mean, the peering does not survive the first of its devices. -/
theorem removeMlagPeer_bothPeers :
    ¬ ∃ oldName b, removeMlagPeer oldName (.listed _) bothPeers 10 none =
      .ok (b, removed bothPeers ⟨1, some 10, some 20⟩ 10) := by
  rintro ⟨oldName, b, h⟩
  have hpeerings : (removeMlagPeer oldName (.listed _) bothPeers 10 none).toOption.map
      (·.2.mlagPeering) = some (removed bothPeers ⟨1, some 10, some 20⟩ 10).mlagPeering :=
    congrArg (fun r => r.toOption.map (·.2.mlagPeering)) h
  cases oldName with
  | false => exact absurd hpeerings (by decide)
  | true => exact absurd hpeerings (by decide)

end JazzHands.LogicalPort

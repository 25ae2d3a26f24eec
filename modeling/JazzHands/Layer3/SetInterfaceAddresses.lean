import JazzHands.Netblock.Statement
import JazzHands.Postgres.Query

/-!
# `netblock_manip.set_layer3_interface_addresses`

The function makes a list of addresses the addresses of a layer 3 interface: the `ip_addresses` of
its argument `ip_address_hash`.  A hash without `shared_ip_addresses` leaves out the second half of
the function, which is not part of this model.

`CONTINUE` is `none`.  Constraint triggers that other files put on `netblock` and `layer3_network`
can only raise, and are left out where their error ends the call.
-/

namespace JazzHands.Layer3

open Postgres

structure Layer3Interface where
  layer3InterfaceId : ℕ
  layer3InterfaceName : Option String
  layer3InterfaceType : String
  deviceId : ℕ

structure Layer3InterfaceNetblock where
  netblockId : ℕ
  layer3InterfaceId : ℕ
  deviceId : ℕ
  layer3InterfaceRank : ℕ
  deriving DecidableEq

structure Layer3Network where
  layer3NetworkId : ℕ
  netblockId : ℕ
  layer2NetworkId : Option ℕ
  defaultGatewayNetblockId : Option ℕ
  rendezvousNetblockId : Option ℕ

structure SharedNetblock where
  sharedNetblockId : ℕ
  netblockId : ℕ
  deriving DecidableEq

structure SharedNetblockLayer3Interface where
  sharedNetblockId : ℕ
  layer3InterfaceId : ℕ

structure DnsRecord where
  dnsRecordId : ℕ
  netblockId : Option ℕ
  dnsValueRecordId : Option ℕ

structure NetblockCollectionNetblock where
  netblockCollectionId : ℕ
  netblockId : ℕ

/-- A row of the view `v_netblock_collection_expanded`. -/
structure CollectionExpanded where
  rootNetblockCollectionId : ℕ
  netblockCollectionId : ℕ

structure Property where
  propertyName : String
  propertyType : String
  propertyValueNetblockCollectionId : Option ℕ

structure Db where
  schema : Schema
  netblock : List Netblock
  layer3Network : List Layer3Network
  layer3Interface : List Layer3Interface
  layer3InterfaceNetblock : List Layer3InterfaceNetblock
  sharedNetblock : List SharedNetblock
  sharedNetblockLayer3Interface : List SharedNetblockLayer3Interface
  dnsRecord : List DnsRecord
  netblockCollectionNetblock : List NetblockCollectionNetblock
  -- what the function only reads
  device : List ℕ
  vNetblockCollectionExpanded : List CollectionExpanded
  property : List Property
  -- the keys that other tables refer to
  serviceInstance : List (ℕ × ℕ)
  providerSharedNetblock : List ℕ
  providerSharedInterface : List (ℕ × ℕ)
  netblockReferences : List ℕ
  dnsRecordReferences : List ℕ
  -- the next values of the identity columns
  nextNetblockId : ℕ
  nextLayer3NetworkId : ℕ
  nextLayer3InterfaceId : ℕ

/-- A member of the array `ip_addresses`, its texts converted. -/
inductive Element where
  | string (ipaddr : Inet)
  | object (ipAddress : Option Inet) (ipUniverseId : Option ℕ) (netblockType : Option String)
  | other

/-- What a member of the array asks for: `ipaddr`, `universe` and `nb_type`. -/
structure Address where
  ipaddr : Inet
  universe' : ℕ
  nbType : String

structure Arguments where
  layer3InterfaceId : Option ℕ := none
  deviceId : Option ℕ := none
  layer3InterfaceName : Option String := none
  layer3InterfaceType : String := "broadcast"
  ipAddresses : List Element
  createLayer3Networks : Bool := false
  layer2NetworkId : Option ℕ := none
  moveAddresses : Option String := some "if_same_device"
  addressErrors : Option String := some "error"

/-- The variables of the loop. -/
structure Loop where
  db : Db
  nbIdAry : List ℕ

/-! ## The interface and the elements of the list -/

/-- The given interface, which is made when there is none of the name. -/
def givenInterface (db : Db) (args : Arguments) : Result (Db × ℕ) :=
  match args.layer3InterfaceId, args.deviceId, args.layer3InterfaceName with
  | some layer3InterfaceId, _, _ => .ok (db, layer3InterfaceId)
  | none, some deviceId, some name =>
    match db.layer3Interface.find? fun l3i =>
        l3i.deviceId = deviceId ∧ l3i.layer3InterfaceName = some name with
    | some l3i => .ok (db, l3i.layer3InterfaceId)
    | none => do
      raiseIf (∃ l3i ∈ db.layer3Interface, l3i.layer3InterfaceId = db.nextLayer3InterfaceId)
        .uniqueViolation "duplicate key value violates unique constraint pk_layer3_interface_id"
      raiseIf (deviceId ∉ db.device) .foreignKeyViolation
        "violates foreign key constraint fk_netint_device_id"
      .ok ({ db with
        layer3Interface := db.layer3Interface ++
          [⟨db.nextLayer3InterfaceId, some name, args.layer3InterfaceType, deviceId⟩]
        nextLayer3InterfaceId := db.nextLayer3InterfaceId + 1 }, db.nextLayer3InterfaceId)
  | none, _, _ => raise .invalidParameterValue
    "netblock_manip.assign_shared_netblock: must pass either layer3_interface_id or device_id and layer3_interface_name"

def readElement (db : Db) : Element → Result Address
  | .string ipaddr => .ok ⟨ipaddr, findBestIpUniverse db.schema db.netblock ipaddr, "default"⟩
  | .object none _ _ => raise .raiseException
    "Object in array element % of ip_addresses in ip_address_hash in netblock_manip.set_interface_addresses does not contain ip_address key:\n%"
  | .object (some ipaddr) ipUniverseId netblockType =>
    .ok ⟨ipaddr, ipUniverseId.getD (findBestIpUniverse db.schema db.netblock ipaddr),
      netblockType.getD "default"⟩
  | .other => raise .raiseException
    "Invalid type in array element % of ip_addresses in ip_address_hash in netblock_manip.set_interface_addresses (%)"

/-- `n` is in a collection that the property `IgnoreProbedNetblocks` names. -/
def Db.IsIgnoring (db : Db) (n : Netblock) : Prop :=
  ∃ ncn ∈ db.netblockCollectionNetblock, ncn.netblockId = n.netblockId ∧
    ∃ nce ∈ db.vNetblockCollectionExpanded, nce.netblockCollectionId = ncn.netblockCollectionId ∧
      ∃ p ∈ db.property, p.propertyName = "IgnoreProbedNetblocks" ∧
        p.propertyType = "DeviceInventory" ∧
        p.propertyValueNetblockCollectionId = some nce.rootNetblockCollectionId
  deriving Decidable

/-- The two ways in which the loop passes an address over without looking at the tables. -/
def Db.Ignores (db : Db) (a : Address) : Prop :=
  a.ipaddr.masklen < 8 ∨ ∃ n ∈ db.netblock, db.IsIgnoring n ∧ a.ipaddr.subnetEq n.ipAddress ∧
    n.ipUniverseId = a.universe'
  deriving Decidable

/-! ## The row of an address -/

/-- `n` is the row of the address, as a single address. -/
def Address.IsSingle (a : Address) (n : Netblock) : Prop :=
  n.isSingleAddress = true ∧ n.canSubnet = false ∧ n.netblockType = a.nbType ∧
    n.ipUniverseId = a.universe' ∧ n.ipAddress.host = a.ipaddr.host
  deriving Decidable

/-- `n` is a network around the address that can hold single addresses. -/
def Address.IsAround (a : Address) (n : Netblock) : Prop :=
  n.ipUniverseId = a.universe' ∧ n.netblockType = a.nbType ∧ n.isSingleAddress = false ∧
    n.canSubnet = false ∧ a.ipaddr.subnetEq n.ipAddress
  deriving Decidable

/-- `n` is the network of the address, marked as one that has subnets. -/
def Address.IsSubnetted (a : Address) (n : Netblock) : Prop :=
  n.ipUniverseId = a.universe' ∧ n.netblockType = a.nbType ∧ n.isSingleAddress = false ∧
    n.canSubnet = true ∧ n.ipAddress = a.ipaddr.network
  deriving Decidable

/-- The layer 3 network of a netblock, of which there is at most one. -/
def Db.layer3NetworkOf (db : Db) (netblockId : ℕ) : Option Layer3Network :=
  db.layer3Network.find? (·.netblockId = netblockId)

variable (first : FirstRow Netblock) (order : ScanOrder)
variable (setDnsForInterface : Db → ℕ → Option String → ℕ → Result (List DnsRecord))

/-- `INSERT INTO netblock ... RETURNING *`; only the key of the new row is used. -/
def insertNetblock (db : Db) (a : Address) (ipAddress : Inet) (isSingleAddress : Bool) :
    Result (Db × ℕ) := do
  let x ← executeInsert db.schema order db.netblock
    ⟨db.nextNetblockId, some ipAddress, a.nbType, some isSingleAddress, some false, none,
      some a.universe'⟩
  .ok ({ db with netblock := x.netblock, nextNetblockId := db.nextNetblockId + 1 },
    db.nextNetblockId)

/-- `INSERT INTO layer3_network`, with the trigger `layer3_network_validate_netblock`. -/
def insertLayer3Network (db : Db) (args : Arguments) (netblockId : ℕ) : Result Db := do
  raiseIf (db.layer3NetworkOf netblockId ≠ none) .uniqueViolation
    "duplicate key value violates unique constraint ak_layer3_network_netblock_id"
  raiseIf (∃ l ∈ db.layer3Network, l.layer3NetworkId = db.nextLayer3NetworkId) .uniqueViolation
    "duplicate key value violates unique constraint pk_layer3_network"
  raiseIf (∃ nb ∈ db.netblock, nb.netblockId = netblockId ∧
      (nb.canSubnet = true ∨ nb.isSingleAddress = true)) .raiseException
    "Netblock % (%) assigned to layer3_network % must not be subnettable or a single address"
  .ok { db with
    layer3Network := db.layer3Network ++
      [⟨db.nextLayer3NetworkId, netblockId, args.layer2NetworkId, none, none⟩]
    nextLayer3NetworkId := db.nextLayer3NetworkId + 1 }

/-- The row was found: `layer3_rec` is that of its parent.  Without a parent, the INSERT gives the
layer 3 network a NULL for its netblock. -/
def checkParent (db : Db) (args : Arguments) (nbRec : Netblock) : Result (Option ℕ) :=
  match nbRec.parentNetblockId.bind (JazzHands.findNetblock db.netblock) with
  | some _ => .ok (some nbRec.netblockId)
  | none =>
    if args.createLayer3Networks = false then .ok none
    else raise .notNullViolation "null value in column netblock_id of relation layer3_network"

/-- There is no network around the address: it is the subnetted one, or made. -/
def makeNetwork (db : Db) (a : Address) : Result (Db × ℕ) :=
  match first.pick (db.netblock.filter a.IsSubnetted) with
  | some pnbRec => do
    let x ← executeUpdate db.schema order db.netblock pnbRec { canSubnet := some (some false) }
    .ok ({ db with netblock := x.netblock }, pnbRec.netblockId)
  | none => insertNetblock order db a a.ipaddr.network false

/-- The parents of a row that is to be made. -/
def makeParents (db : Db) (args : Arguments) (a : Address) : Result (Option Db) :=
  match first.pick (db.netblock.filter a.IsAround) with
  | none =>
    if args.createLayer3Networks = false then .ok none
    else do
      let (db, netblockId) ← makeNetwork first order db a
      some <$> insertLayer3Network db args netblockId
  | some layer3Rec =>
    match db.layer3NetworkOf layer3Rec.netblockId with
    | some _ => .ok (some db)
    | none =>
      if args.createLayer3Networks = false then .ok none
      else some <$> insertLayer3Network db args layer3Rec.netblockId

/-- The row was not found. -/
def makeNetblock (r : Loop) (args : Arguments) (a : Address) : Result (Loop × Option ℕ) := do
  match ← makeParents first order r.db args a with
  | none => .ok (r, none)
  | some db => do
    let (db, netblockId) ← insertNetblock order db a a.ipaddr true
    .ok (⟨db, r.nbIdAry ++ [netblockId]⟩, some netblockId)

/-- The row of the address, and `nb_id_ary` with its key. -/
def findOrMakeNetblock (r : Loop) (args : Arguments) (a : Address) : Result (Loop × Option ℕ) :=
  match first.pick (r.db.netblock.filter a.IsSingle) with
  | some nbRec => do
    let found ← checkParent r.db args nbRec
    .ok (⟨r.db, r.nbIdAry ++ [nbRec.netblockId]⟩, found)
  | none => makeNetblock first order r args a

/-! ## The address comes to the interface -/

/-- `address_errors` decides whether the address is passed over. -/
def refuse (args : Arguments) (message : String) : Result (Option Db) :=
  if args.addressErrors = some "ignore" then .ok none
  else if args.addressErrors = some "warn" then .ok none
  else raise .raiseException message

/-- `DELETE FROM layer3_interface_netblock`. -/
def deleteFromInterfaces (db : Db) (cond : Layer3InterfaceNetblock → Prop) [DecidablePred cond] :
    Result Db := do
  raiseIf (∃ l ∈ db.layer3InterfaceNetblock, cond l ∧
      ∃ s ∈ db.serviceInstance, s.1 = l.deviceId ∧ s.2 = l.netblockId) .foreignKeyViolation
    "violates foreign key constraint fk_service_instance_dev_nblk"
  .ok { db with
    layer3InterfaceNetblock := db.layer3InterfaceNetblock.filter fun l => ¬ cond l }

/-- The row is on another interface. -/
def takeFromInterface (pick : FirstRow Layer3InterfaceNetblock) (db : Db) (args : Arguments)
    (l3i nbId : ℕ) : Result (Option Db) :=
  match pick.pick (db.layer3InterfaceNetblock.filter fun l3in =>
      (∃ i ∈ db.layer3Interface, i.layer3InterfaceId = l3in.layer3InterfaceId) ∧
        l3in.deviceId ∈ db.device ∧ l3in.netblockId = nbId ∧ l3in.layer3InterfaceId ≠ l3i) with
  | none => .ok (some db)
  | some l3inRec =>
    if args.moveAddresses = some "always" ∨ (args.moveAddresses = some "if_same_device" ∧
        ∃ l3iRec ∈ db.layer3Interface, l3iRec.layer3InterfaceId = l3i ∧
          l3inRec.deviceId = l3iRec.deviceId) then
      some <$> deleteFromInterfaces db (·.netblockId = nbId)
    else refuse args "Netblock % (%) is assigned to layer3_interface %(%) on device % (%)"

/-- The two DELETEs when the row is shared.  The second compares the netblock of a row with the key
of another table. -/
def deleteShared (db : Db) (snRec : SharedNetblock) : Result Db := do
  raiseIf (∃ p ∈ db.providerSharedInterface, p.1 = snRec.sharedNetblockId) .foreignKeyViolation
    "violates foreign key constraint fk_sep_snl3int_snb_snb_int"
  let interfaces := db.sharedNetblockLayer3Interface.filter
    (·.sharedNetblockId ≠ snRec.sharedNetblockId)
  raiseIf (∃ sn ∈ db.sharedNetblock, sn.netblockId = snRec.sharedNetblockId ∧
      ((∃ i ∈ interfaces, i.sharedNetblockId = sn.sharedNetblockId) ∨
        sn.sharedNetblockId ∈ db.providerSharedNetblock)) .foreignKeyViolation
    "violates foreign key constraint fk_shrdnet_netint_shrdnet_id"
  .ok { db with
    sharedNetblockLayer3Interface := interfaces
    sharedNetblock := db.sharedNetblock.filter (·.netblockId ≠ snRec.sharedNetblockId) }

/-- The row is a shared address. -/
def takeFromShared (db : Db) (args : Arguments) (nbId : ℕ) : Result (Option Db) :=
  match db.sharedNetblock.find? (·.netblockId = nbId) with
  | none => .ok (some db)
  | some snRec =>
    if args.moveAddresses ≠ some "always" then
      refuse args "Netblock % (%) is assigned to a shared_netblock %, but not forcing, so skipping"
    else some <$> deleteShared db snRec

/-- `COALESCE(MAX(layer3_interface_rank) + 1, 0)`. -/
def nextRank (db : Db) (l3i : ℕ) : ℕ :=
  (((db.layer3InterfaceNetblock.filter (·.layer3InterfaceId = l3i)).map
    (·.layer3InterfaceRank)).max?.map (· + 1)).getD 0

/-- `INSERT INTO layer3_interface_netblock`, with its triggers and constraints. -/
def insertOnInterface (db : Db) (l3i nbId : ℕ) : Result (Db × Layer3InterfaceNetblock) :=
  -- `net_int_nb_device_id_ins`
  match db.layer3Interface.find? (·.layer3InterfaceId = l3i) with
  | none => raise .notNullViolation "null value in column device_id"
  | some i => do
    let new : Layer3InterfaceNetblock := ⟨nbId, l3i, i.deviceId, nextRank db l3i⟩
    -- `net_int_nb_single_address`
    raiseIf (¬ ∃ n ∈ db.netblock, n.netblockId = nbId ∧ n.isSingleAddress = true ∧
        n.netblockType = "default") .foreignKeyViolation
      "network interfaces must refer to single ip addresses of type default (%,%)"
    raiseIf (∃ l ∈ db.layer3InterfaceNetblock, l.netblockId = nbId) .uniqueViolation
      "duplicate key value violates unique constraint ak_netint_nblk_nblk_id"
    raiseIf (∃ l ∈ db.layer3InterfaceNetblock, l.layer3InterfaceId = l3i ∧
        l.layer3InterfaceRank = new.layer3InterfaceRank) .uniqueViolation
      "duplicate key value violates unique constraint ak_network_interface_nblk_ni_rank"
    .ok ({ db with layer3InterfaceNetblock := db.layer3InterfaceNetblock ++ [new] }, new)

def putOnInterface (db : Db) (args : Arguments) (l3i nbId : ℕ) : Result Db := do
  let (db, l3inRec) ← insertOnInterface db l3i nbId
  let dnsRecord ← setDnsForInterface db nbId args.layer3InterfaceName l3inRec.deviceId
  .ok { db with dnsRecord := dnsRecord }

/-- The row comes to the interface, or is passed over. -/
def moveToInterface (pick : FirstRow Layer3InterfaceNetblock) (db : Db) (args : Arguments)
    (l3i nbId : ℕ) : Result Db := do
  match ← takeFromInterface pick db args l3i nbId with
  | none => .ok db
  | some db' =>
    match ← takeFromShared db' args nbId with
    | none => .ok db'
    | some db' => putOnInterface setDnsForInterface db' args l3i nbId

/-- The rest of the body of the loop, for an address that has a row. -/
def place (pick : FirstRow Layer3InterfaceNetblock) (args : Arguments) (l3i : ℕ) (r : Loop) :
    Option ℕ → Result Loop
  | none => .ok r
  | some nbId =>
    if ∃ l3in ∈ r.db.layer3InterfaceNetblock, l3in.netblockId = nbId ∧ l3in.layer3InterfaceId = l3i
    then .ok r
    else do
      let db ← moveToInterface setDnsForInterface pick r.db args l3i nbId
      .ok ⟨db, r.nbIdAry⟩

/-- The body of the loop. -/
def assign (pick : FirstRow Layer3InterfaceNetblock) (args : Arguments) (l3i : ℕ) (r : Loop)
    (e : Element) : Result Loop := do
  let a ← readElement r.db e
  if r.db.Ignores a then .ok r
  else do
    let (r, found) ← findOrMakeNetblock first order r args a
    place setDnsForInterface pick args l3i r found

/-! ## What goes when the loop is done -/

/-- An address of the interface that is not of the list, and that nothing says to ignore. -/
def IsLeftover (db : Db) (l3i : ℕ) (nbIdAry : List ℕ) (l : Layer3InterfaceNetblock) : Prop :=
  l.layer3InterfaceId = l3i ∧ ∃ n ∈ db.netblock, n.netblockId = l.netblockId ∧
    ¬ (l.netblockId ∈ nbIdAry ∨
      ∃ n2 ∈ db.netblock, db.IsIgnoring n2 ∧ n.ipAddress.subnetEq n2.ipAddress)
  deriving Decidable

/-- A row that refers to the netblock keeps it. -/
def Db.RefersTo (db : Db) (netblockId : ℕ) : Prop :=
  (∃ l ∈ db.layer3InterfaceNetblock, l.netblockId = netblockId) ∨
    (∃ l ∈ db.layer3Network, l.netblockId = netblockId ∨
      l.defaultGatewayNetblockId = some netblockId ∨ l.rendezvousNetblockId = some netblockId) ∨
    (∃ sn ∈ db.sharedNetblock, sn.netblockId = netblockId) ∨ netblockId ∈ db.netblockReferences
  deriving Decidable

/-- `DELETE FROM dns_record WHERE netblock_id = ...`. -/
def deleteDnsRecords (db : Db) (netblockId : ℕ) : Result Db := do
  let kept := db.dnsRecord.filter (·.netblockId ≠ some netblockId)
  raiseIf (∃ d ∈ db.dnsRecord, d.netblockId = some netblockId ∧
      ((∃ k ∈ kept, k.dnsValueRecordId = some d.dnsRecordId) ∨
        d.dnsRecordId ∈ db.dnsRecordReferences)) .foreignKeyViolation
    "violates foreign key constraint fk_dnsvalref_dns_recid"
  .ok { db with dnsRecord := kept }

/-- `DELETE FROM netblock WHERE netblock_id = ...`. -/
def deleteNetblock (db : Db) (netblockId : ℕ) : Result Db := do
  let x ← execute db.schema order db.netblock (.delete netblockId)
  raiseIf (db.RefersTo netblockId) .foreignKeyViolation
    "update or delete on table netblock violates a foreign key constraint"
  .ok { db with netblock := x.netblock }

/-- The three DELETEs inside the block. -/
def deleteUnused (db : Db) (netblockId : ℕ) : Result Db := do
  let db ← deleteDnsRecords db netblockId
  let db := { db with
    netblockCollectionNetblock :=
      db.netblockCollectionNetblock.filter (·.netblockId ≠ netblockId) }
  deleteNetblock order db netblockId

/-- The block, whose handler gives up what the DELETEs have done. -/
def cleanUp (db : Db) (netblockId : ℕ) : Result Db :=
  match deleteUnused order db netblockId with
  | .ok db' => .ok db'
  | .error err => if err.errcode = .foreignKeyViolation then .ok db else .error err

/-- What is left on the interface goes, and its netblocks with it where nothing else has them. -/
def prune (db : Db) (l3i : ℕ) (nbIdAry : List ℕ) : Result Db := do
  let l3inRecs := db.layer3InterfaceNetblock.filter (IsLeftover db l3i nbIdAry)
  let db ← deleteFromInterfaces db (IsLeftover db l3i nbIdAry)
  (l3inRecs.map (·.netblockId)).foldlM (cleanUp order) db

def setLayer3InterfaceAddresses (pick : FirstRow Layer3InterfaceNetblock) (db : Db)
    (args : Arguments) : Result Db := do
  let (db, l3i) ← givenInterface db args
  let r ← args.ipAddresses.foldlM (assign first order setDnsForInterface pick args l3i) ⟨db, []⟩
  prune order r.db l3i r.nbIdAry

end JazzHands.Layer3

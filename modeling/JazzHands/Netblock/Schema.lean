import JazzHands.Postgres.Inet
import Mathlib.Data.List.MinMax

/-!
# The table `netblock` and the tables it refers to

The hierarchy is given by `parent_netblock_id`; what the triggers ask of the table are queries, each
a function of its rows.
-/

namespace JazzHands

open Postgres

@[ext] structure Netblock where
  netblockId : ℕ
  ipAddress : Inet
  netblockType : String
  isSingleAddress : Bool
  canSubnet : Bool
  parentNetblockId : Option ℕ
  ipUniverseId : ℕ
  deriving DecidableEq

structure NetblockType where
  netblockType : String
  dbForcedHierarchy : Bool
  isValidatedHierarchy : Bool

structure IpUniverse where
  ipUniverseId : ℕ
  ipNamespace : String

structure IpUniverseVisibility where
  ipUniverseId : ℕ
  visibleIpUniverseId : ℕ

/-- The tables that statements on `netblock` read and do not change. -/
structure Schema where
  valNetblockType : List NetblockType
  ipUniverse : List IpUniverse
  ipUniverseVisibility : List IpUniverseVisibility

namespace Schema

/-- The rows that `initialize_jazzhands.sql` puts in. -/
def initial : Schema where
  valNetblockType := [⟨"default", true, true⟩, ⟨"adhoc", false, true⟩, ⟨"dns", false, false⟩,
    ⟨"network_range", false, false⟩]
  ipUniverse := [⟨0, "default"⟩, ⟨1, "default"⟩]
  ipUniverseVisibility := []

/-- `SELECT * INTO nbtype FROM val_netblock_type WHERE netblock_type = ...`. -/
def nbtype (db : Schema) (netblockType : String) : Option NetblockType :=
  db.valNetblockType.find? (·.netblockType = netblockType)

/-- `nbtype.db_forced_hierarchy = true`, which is not so when there is no such type. -/
def dbForcedHierarchy (db : Schema) (netblockType : String) : Bool :=
  (db.nbtype netblockType).any (·.dbForcedHierarchy)

/-- The negation of `nbtype.is_validated_hierarchy = false`: a type that is not there counts as
validated. -/
def isValidatedHierarchy (db : Schema) (netblockType : String) : Bool :=
  (db.nbtype netblockType).all (·.isValidatedHierarchy)

end Schema

/-- `ORDER BY masklen(ip_address) DESC LIMIT 1`. -/
def longestPrefix (t : List Netblock) : Option Netblock :=
  t.argmax (·.ipAddress.masklen)

def findNetblock (t : List Netblock) (netblockId : ℕ) : Option Netblock :=
  t.find? (·.netblockId = netblockId)

/-- The `WHERE` clause of `netblock_utils.find_best_parent_netblock_id`: `n` may be the parent of
a row with the given columns. -/
def IsCandidateParent (ipAddress : Inet) (netmaskBits : Option ℕ) (netblockType : String)
    (ipUniverseId : ℕ) (isSingleAddress : Bool) (netblockId : ℕ) (n : Netblock) : Prop :=
  ipAddress.subnetEq n.ipAddress ∧ n.isSingleAddress = false ∧
    n.netblockType = netblockType ∧ n.ipUniverseId = ipUniverseId ∧
    ((isSingleAddress = false ∧ n.ipAddress.masklen < ipAddress.masklen) ∨
      (isSingleAddress = true ∧ n.canSubnet = false ∧
        (netmaskBits = none ∨ netmaskBits = some n.ipAddress.masklen))) ∧
    n.netblockId ≠ netblockId
  deriving Decidable

/-- `netblock_utils.find_best_parent_netblock_id`, as the triggers call it: with the id of the row,
and with `fuzzy_can_subnet` left at `false`, which makes its second query dead. -/
def findBestParentNetblockId (t : List Netblock) (ipAddress : Inet) (netmaskBits : Option ℕ)
    (netblockType : String) (ipUniverseId : ℕ) (isSingleAddress : Bool) (netblockId : ℕ) :
    Option ℕ :=
  (longestPrefix (t.filter (IsCandidateParent ipAddress netmaskBits netblockType ipUniverseId
    isSingleAddress netblockId))).map (·.netblockId)

/-- The best parent of the columns of a row. -/
def Netblock.bestParent (t : List Netblock) (n : Netblock) : Option ℕ :=
  findBestParentNetblockId t n.ipAddress none n.netblockType n.ipUniverseId n.isSingleAddress
    n.netblockId

/-- `netblock_utils.find_best_parent_netblock_id(netblock_id)`: the best parent of a stored row,
among the rows of its own mask length when it is a single address. -/
def findBestParentOf (t : List Netblock) (netblockId : ℕ) : Option ℕ :=
  (findNetblock t netblockId).bind fun nbrec =>
    findBestParentNetblockId t nbrec.ipAddress (some nbrec.ipAddress.masklen) nbrec.netblockType
      nbrec.ipUniverseId nbrec.isSingleAddress nbrec.netblockId

/-- `netblock_utils.find_best_ip_universe(ip_address)`: the universe, in the namespace `default`,
of the longest prefix of type `default` around the address, and `0` when there is none. -/
def findBestIpUniverse (db : Schema) (t : List Netblock) (ipAddress : Inet) : ℕ :=
  let nb := t.filter fun nb => nb.isSingleAddress = false ∧ ipAddress.subnetEq nb.ipAddress ∧
    nb.netblockType = "default" ∧
    ∃ u ∈ db.ipUniverse, u.ipUniverseId = nb.ipUniverseId ∧ u.ipNamespace = "default"
  ((longestPrefix nb).map (·.ipUniverseId)).getD 0

end JazzHands

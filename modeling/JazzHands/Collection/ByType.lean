import JazzHands.Library.Runs
import JazzHands.Postgres.RowStatement

/-!
# The collections of each type

`create_collection_bytype_triggers.sql`, for the collections of devices and of DNS domains, whose
functions differ in the names of tables and columns and in one type.

Triggers of other files on these tables can only raise, and but for the one that asks whether the
parent may have a hierarchy they are left out.
-/

namespace JazzHands.Collection

open Postgres RowStatement

/-- The objects that are collected. -/
inductive Objects where
  | device
  | dnsDomain

/-- The type of the collections of one object. -/
def Objects.perObject : Objects → String
  | .device => "per-device"
  | .dnsDomain => "per-dns_domain"

/-- A row of `val_device_collection_type`. -/
structure CollectionType where
  collectionType : String
  canHaveHierarchy : Bool

/-- A row of `device_collection`. -/
structure Coll where
  collectionId : ℕ
  collectionName : String
  collectionType : String
  deriving DecidableEq

/-- A row of `device_collection_hier`. -/
structure Hier where
  collectionId : ℕ
  childCollectionId : ℕ
  deriving DecidableEq

structure Db where
  valCollectionType : List CollectionType
  collection : List Coll
  collectionHier : List Hier
  collectionSeq : ℕ

def Db.empty : Db := ⟨[], [], [], 1⟩

/-- `device_collection_type IN ('by-coll-type', 'per-device')`. -/
def Objects.Special (o : Objects) (type : String) : Prop :=
  type = "by-coll-type" ∨ type = o.perObject
  deriving Decidable

/-- `device_collection_type = 'by-coll-type' AND device_collection_name = type`. -/
def Coll.IsOf (c : Coll) (type : String) : Prop :=
  c.collectionType = "by-coll-type" ∧ c.collectionName = type
  deriving Decidable

/-- The subquery for the collection of a type. -/
def Db.byType (db : Db) (type : String) : Option Coll := db.collection.find? (·.IsOf type)

/-! ## Collections -/

def hierEnforce (db : Db) (parent : ℕ) : Result Unit :=
  raiseIf (∃ c ∈ db.collection, c.collectionId = parent ∧
      ∃ t ∈ db.valCollectionType, t.collectionType = c.collectionType ∧
        t.canHaveHierarchy = false) .uniqueViolation
    "Device Collections of type % may not be hierarcical"

/-- The `DELETE` of the collection from the one of its old type. -/
def leaveType (db : Db) (old : Coll) : Db :=
  { db with
    collectionHier := db.collectionHier.filter fun h => ¬ (h.childCollectionId = old.collectionId ∧
      ∃ c ∈ db.collection, c.IsOf old.collectionType ∧ c.collectionId = h.collectionId) }

/-- A key of the hierarchy, with a row that comes to the others. -/
def checkHier : List Hier → Hier → Result Unit := checkUnique id "pk_device_collection_hier"

/-- The `UPDATE` of the row for the old type. -/
def moveType (db : Db) (old new : Coll) : Result Db :=
  match db.byType old.collectionType with
  | none => .ok db
  | some source =>
    match db.byType new.collectionType with
    | none => do
      raiseIf (∃ h ∈ db.collectionHier, h = ⟨source.collectionId, old.collectionId⟩)
        .notNullViolation "null value in column device_collection_id"
      .ok db
    | some target => do
      let t ← (RowStatement.update fun h => if h = ⟨source.collectionId, old.collectionId⟩ then
        some ⟨target.collectionId, new.collectionId⟩ else none).execute checkHier db.collectionHier
      hierEnforce db target.collectionId
      .ok { db with collectionHier := t }

/-- The `INSERT` into the collection of the type. -/
def joinType (db : Db) (new : Coll) : Result Db :=
  match db.byType new.collectionType with
  | none => .ok db
  | some parent => do
    let row : Hier := ⟨parent.collectionId, new.collectionId⟩
    checkHier db.collectionHier row
    hierEnforce db parent.collectionId
    .ok { db with collectionHier := db.collectionHier ++ [row] }

variable (o : Objects)

def manipCollectionBytype (db : Db) : RowEvent Coll → Result Db
  | .delete old => .ok (leaveType db old)
  | .update old new =>
    if old.collectionType = o.perObject then .ok (leaveType db old)
    else if o.Special new.collectionType then .ok db
    else moveType db old new
  | .insert new =>
    if o.Special new.collectionType then .ok db
    else joinType db new

def collectionKeys (others : List Coll) (new : Coll) : Result Unit := do
  checkUnique (·.collectionId) "pk_device_collection" others new
  checkUnique (fun c => (c.collectionName, c.collectionType)) "ak_uq_devicecoll_name_type" others
    new

/-- The foreign key of a written collection, and then its trigger. -/
def afterCollection (db : Db) (e : RowEvent Coll) : Result Db := do
  raiseIf (∃ c ∈ e.new?, ∀ t ∈ db.valCollectionType, t.collectionType ≠ c.collectionType)
    .foreignKeyViolation "violates foreign key constraint fk_devc_devctyp_id"
  manipCollectionBytype o db e

/-- `INSERT`, or `UPDATE OF device_collection_type`. -/
def writeCollections (db : Db) (s : RowStatement Coll) : Result Db := do
  let t ← s.execute collectionKeys db.collection
  (s.events db.collection).foldlM (afterCollection o) { db with collection := t }

/-- One row of a `DELETE`, with the trigger before it. -/
def deleteCollection (db : Db) (old : Coll) : Result Db := do
  let db ← manipCollectionBytype o db (.delete old)
  .ok { db with collection := db.collection.filter (·.collectionId ≠ old.collectionId) }

/-- A `DELETE` of these rows; the foreign keys are checked at its end. -/
def deleteCollections (db : Db) (rows : List Coll) : Result Db := do
  let db ← rows.foldlM (deleteCollection o) db
  raiseIf (∃ c ∈ rows, ∃ h ∈ db.collectionHier,
      h.collectionId = c.collectionId ∨ h.childCollectionId = c.collectionId) .foreignKeyViolation
    "violates foreign key constraint fk_devcollhier_pdevcol_id"
  .ok db

/-! ## Types -/

/-- The rows of `val_device_collection_type` have no column for a name or a key of a collection, so
that an `UPDATE` raises in either of its branches. -/
def manipCollectionTypeBytype (db : Db) : RowEvent CollectionType → Result Db
  | .delete old =>
    if o.Special old.collectionType then .ok db
    else deleteCollections o db (db.collection.filter (·.IsOf old.collectionType))
  | .update old new =>
    if o.Special new.collectionType ∧ ¬ o.Special old.collectionType then
      raise .undefinedColumn "record \"old\" has no field \"device_collection_id\""
    else raise .undefinedColumn "record \"new\" has no field \"device_collection_name\""
  | .insert new =>
    if o.Special new.collectionType then .ok db
    else writeCollections o { db with collectionSeq := db.collectionSeq + 1 }
      (.insert [⟨db.collectionSeq, new.collectionType, "by-coll-type"⟩])

def typeKeys : List CollectionType → CollectionType → Result Unit :=
  checkUnique (·.collectionType) "pk_val_device_collection_type"

/-- `INSERT`, or `UPDATE OF device_collection_type`. -/
def writeTypes (db : Db) (s : RowStatement CollectionType) : Result Db := do
  let t ← s.execute typeKeys db.valCollectionType
  (s.events db.valCollectionType).foldlM (manipCollectionTypeBytype o)
    { db with valCollectionType := t }

/-- One row of a `DELETE`, with the trigger before it. -/
def deleteType (db : Db) (old : CollectionType) : Result Db := do
  let db ← manipCollectionTypeBytype o db (.delete old)
  .ok { db with
    valCollectionType := db.valCollectionType.filter (·.collectionType ≠ old.collectionType) }

def deleteTypes (db : Db) (rows : List CollectionType) : Result Db := do
  let db ← rows.foldlM (deleteType o) db
  raiseIf (∃ t ∈ rows, ∃ c ∈ db.collection, c.collectionType = t.collectionType)
    .foreignKeyViolation "violates foreign key constraint fk_devc_devctyp_id"
  .ok db

/-! ## The functions of the file -/

def manipDeviceCollectionTypeBytype : Db → RowEvent CollectionType → Result Db :=
  manipCollectionTypeBytype .device

def manipDeviceCollectionBytype : Db → RowEvent Coll → Result Db :=
  manipCollectionBytype .device

def manipDnsDomainCollectionTypeBytype : Db → RowEvent CollectionType → Result Db :=
  manipCollectionTypeBytype .dnsDomain

def manipDnsDomainCollectionBytype : Db → RowEvent Coll → Result Db :=
  manipCollectionBytype .dnsDomain

/-! ## Statements -/

/-- For an `UPDATE`, the new value of the type where the condition of the statement holds. -/
inductive Statement where
  | insertTypes (rows : List CollectionType)
  | updateTypes (set : CollectionType → Option String)
  | deleteTypes (cond : CollectionType → Bool)
  | insertCollections (rows : List Coll)
  | updateCollections (set : Coll → Option String)
  | deleteCollections (cond : Coll → Bool)

def typesUpdate (set : CollectionType → Option String) : RowStatement CollectionType :=
  .update fun t => (set t).map fun type => { t with collectionType := type }

def collectionsUpdate (set : Coll → Option String) : RowStatement Coll :=
  .update fun c => (set c).map fun type => { c with collectionType := type }

def execute (db : Db) : Statement → Result Db
  | .insertTypes rows => writeTypes o db (.insert rows)
  | .updateTypes set => writeTypes o db (typesUpdate set)
  | .deleteTypes cond => deleteTypes o db (db.valCollectionType.filter cond)
  | .insertCollections rows => writeCollections o db (.insert rows)
  | .updateCollections set => writeCollections o db (collectionsUpdate set)
  | .deleteCollections cond => deleteCollections o db (db.collection.filter cond)

def step (db : Db) (s : Statement) : Db := (execute o db s).toOption.getD db

end JazzHands.Collection

import JazzHands.Library.Runs
import JazzHands.Postgres.RowStatement

/-!
# The automatic collections of service versions

`create_service_automated_collection_triggers.sql` and
`create_service_version_automated_membership_triggers.sql`.

Other tables that refer to services and versions, and the uniqueness of names in a namespace, which
only refuse statements, are left out.
-/

namespace JazzHands.ServiceVersion

open Postgres RowStatement

structure Service where
  serviceId : ℕ
  serviceName : String
  serviceType : String
  deriving DecidableEq

structure Version where
  serviceVersionId : ℕ
  serviceId : ℕ
  serviceVersionName : String
  deriving DecidableEq

/-- A row of `service_version_collection`. -/
structure Collection where
  id : ℕ
  name : String
  type : String
  deriving DecidableEq

/-- A row of `service_version_collection_purpose`. -/
structure Purpose where
  collectionId : ℕ
  purpose : String
  serviceId : Option ℕ
  deriving DecidableEq

/-- A row of `service_version_collection_service_version`. -/
structure Member where
  collectionId : ℕ
  serviceVersionId : ℕ
  deriving DecidableEq

structure Db where
  service : List Service
  serviceVersion : List Version
  collection : List Collection
  purpose : List Purpose
  member : List Member
  collectionSeq : ℕ

def Db.empty : Db := ⟨[], [], [], [], [], 1⟩

/-! ## The checks -/

/-- `sv.service_id != svcp.service_id`. -/
def Purpose.Mismatches (p : Purpose) (v : Version) : Prop := ∃ sid ∈ p.serviceId, sid ≠ v.serviceId
  deriving Decidable

/-- `service_version_collection_purpose_service_version_enforce`, with `NEW` in this collection. -/
def collectionEnforce (db : Db) (collectionId : ℕ) : Result Unit :=
  raiseIf (∃ m ∈ db.member, m.collectionId = collectionId ∧
      ∃ v ∈ db.serviceVersion, v.serviceVersionId = m.serviceVersionId ∧
        ∃ p ∈ db.purpose, p.collectionId = collectionId ∧ p.Mismatches v)
    .foreignKeyViolation "service mismatch"

/-- `service_version_collection_purpose_enforce`, with `NEW` of this purpose. -/
def purposeEnforce (db : Db) (purpose : String) : Result Unit :=
  raiseIf (∃ m ∈ db.member, ∃ v ∈ db.serviceVersion, v.serviceVersionId = m.serviceVersionId ∧
      ∃ p ∈ db.purpose, p.collectionId = m.collectionId ∧ p.purpose = purpose ∧ p.Mismatches v)
    .foreignKeyViolation
    "Collections exist with a purpose associated with a difference service_id"

/-- `service_version_service_version_purpose_enforce`. -/
def versionEnforce (db : Db) (new : Version) : Result Unit :=
  raiseIf (∃ m ∈ db.member, m.serviceVersionId = new.serviceVersionId ∧
      ∃ p ∈ db.purpose, p.collectionId = m.collectionId ∧ p.Mismatches new)
    .foreignKeyViolation
    "A service_version_collection_purpose for this service does not allow changing the service_id"

/-! ## Services -/

/-- `concat_ws(':', service_type, service_name)`. -/
def Service.collectionName (s : Service) : String := s.serviceType ++ ":" ++ s.serviceName

/-- `service_version_collection_purpose IN ('all', 'current')`. -/
def Purpose.IsAutomatic (p : Purpose) : Prop := p.purpose = "all" ∨ p.purpose = "current"
  deriving Decidable

/-- `INSERT` of a collection, and of its purpose. -/
def insertCollection (db : Db) (name type purpose : String) (serviceId : ℕ) : Result Db := do
  checkUnique (·.id) "pk_service_version_collection" db.collection ⟨db.collectionSeq, name, type⟩
  checkUnique (fun p => (p.collectionId, p.purpose)) "pk_service_version_collection_purpose"
    db.purpose ⟨db.collectionSeq, purpose, some serviceId⟩
  let db' := { db with
    collection := db.collection ++ [⟨db.collectionSeq, name, type⟩]
    purpose := db.purpose ++ [⟨db.collectionSeq, purpose, some serviceId⟩]
    collectionSeq := db.collectionSeq + 1 }
  purposeEnforce db' purpose
  .ok db'

/-- The `UPDATE` joins with the purposes of all services. -/
def renameCollections (db : Db) (new : Service) : Db :=
  { db with
    collection := db.collection.map fun svc =>
      if ∃ svcp ∈ db.purpose, svc.id = svcp.collectionId ∧ svcp.IsAutomatic then
        { svc with name := new.collectionName }
      else svc }

def createAllServicesCollection (db : Db) : RowEvent Service → Result Db
  | .insert new => do
    let db ← insertCollection db new.collectionName "all-services" "all" new.serviceId
    insertCollection db new.collectionName "current-services" "current" new.serviceId
  | .update _ new => .ok (renameCollections db new)
  | .delete old =>
    .ok { db with
      purpose := db.purpose.filter fun p =>
        ¬ (p.IsAutomatic ∧ p.serviceId = some old.serviceId) }

/-! ## Versions -/

/-- A subquery for the collection of a service. -/
def collectionOf (db : Db) (serviceId : ℕ) (purpose : String) : Result (Option ℕ) :=
  match db.purpose.filter fun p => p.serviceId = some serviceId ∧ p.purpose = purpose with
  | [] => .ok none
  | [p] => .ok (some p.collectionId)
  | _ => raise .cardinalityViolation "more than one row returned by a subquery used as an expression"

/-- The key of a member, with a row that comes to the others. -/
def checkMember : List Member → Member → Result Unit :=
  checkUnique id "pk_service_version_collection_service_version"

/-- All members of one collection go to another. -/
def moving (a b : ℕ) : RowStatement Member :=
  .update fun m => if m.collectionId = a then some ⟨b, m.serviceVersionId⟩ else none

/-- `UPDATE` of the members, with the subqueries for the two collections. -/
def moveMembers (db : Db) (source target : Option ℕ) : Result Db :=
  match source with
  | none => .ok db
  | some a =>
    match target with
    | none => do
      raiseIf (∃ m ∈ db.member, m.collectionId = a) .notNullViolation
        "null value in column service_version_collection_id"
      .ok db
    | some b => do
      let t ← (moving a b).execute checkMember db.member
      let db' := { db with member := t }
      ((moving a b).events db.member).forM fun _ => collectionEnforce db' b
      .ok db'

/-- The collections that a version belongs into. -/
def automaticCollections (db : Db) (serviceId : ℕ) : List ℕ :=
  db.collection.flatMap fun c => (db.purpose.filter fun p => p.collectionId = c.id ∧
    p.IsAutomatic ∧ p.serviceId = some serviceId).map (·.collectionId)

def manipAllSvcCollectionMembers (db : Db) : RowEvent Version → Result Db
  | .insert new => do
    let rows := (automaticCollections db new.serviceId).map fun c => ⟨c, new.serviceVersionId⟩
    let t ← (RowStatement.insert rows).execute checkMember db.member
    let db' := { db with member := t }
    rows.forM fun m => collectionEnforce db' m.collectionId
    .ok db'
  | .update old new => do
    let source ← collectionOf db old.serviceId "current"
    let target ← collectionOf db new.serviceId "current"
    let db ← moveMembers db source target
    let source ← collectionOf db old.serviceId "all"
    let target ← collectionOf db new.serviceId "all"
    moveMembers db source target
  | .delete old =>
    .ok { db with
      member := db.member.filter fun m => ¬ (m.serviceVersionId = old.serviceVersionId ∧
        m.collectionId ∈ automaticCollections db old.serviceId) }

/-! ## Statements -/

/-- An `UPDATE` of a service names `service_name` and `service_type`, one of a version `service_id`. -/
inductive Statement where
  | service (s : RowStatement Service)
  | version (s : RowStatement Version)

def serviceStatement (s : RowStatement Service) : RowStatement Service :=
  s.naming fun old v => { old with serviceName := v.serviceName, serviceType := v.serviceType }

def versionStatement (s : RowStatement Version) : RowStatement Version :=
  s.naming fun old v => { old with serviceId := v.serviceId }

def versionKeys (others : List Version) (new : Version) : Result Unit := do
  checkUnique (·.serviceVersionId) "pk_service_version" others new
  checkUnique (fun v => (v.serviceId, v.serviceVersionName))
    "ak_service_version_service_id_version_name" others new

/-- What is referred to may not be deleted. -/
def serviceReferences (db : Db) (old : Service) : Result Unit := do
  raiseIf (∃ v ∈ db.serviceVersion, v.serviceId = old.serviceId) .foreignKeyViolation
    "violates foreign key constraint fk_service_version_service_id"
  raiseIf (∃ p ∈ db.purpose, p.serviceId = some old.serviceId) .foreignKeyViolation
    "violates foreign key constraint fk_service_version_collection_purpose_service"

def versionReferences (db : Db) (old : Version) : Result Unit :=
  raiseIf (∃ m ∈ db.member, m.serviceVersionId = old.serviceVersionId) .foreignKeyViolation
    "violates foreign key constraint fk_service_version_collection_service_version_version"

/-- `AFTER INSERT OR UPDATE` of a service. -/
def afterService (db : Db) (e : RowEvent Service) : Result Db :=
  match e with
  | .delete old => do
    serviceReferences db old
    .ok db
  | e => createAllServicesCollection db e

/-- `BEFORE DELETE`. -/
def beforeService (db : Db) (e : RowEvent Service) : Result Db :=
  match e with
  | .delete old => createAllServicesCollection db (.delete old)
  | _ => .ok db

def checkServiceId (db : Db) (new : Version) : Result Unit :=
  raiseIf (∀ s ∈ db.service, s.serviceId ≠ new.serviceId) .foreignKeyViolation
    "violates foreign key constraint fk_service_version_service_id"

def afterVersion (db : Db) (e : RowEvent Version) : Result Db :=
  match e with
  | .insert new => do
    checkServiceId db new
    manipAllSvcCollectionMembers db (.insert new)
  | .update old new => do
    checkServiceId db new
    let db ← manipAllSvcCollectionMembers db (.update old new)
    versionEnforce db new
    .ok db
  | .delete old => do
    versionReferences db old
    .ok db

def beforeVersion (db : Db) (e : RowEvent Version) : Result Db :=
  match e with
  | .delete old => manipAllSvcCollectionMembers db (.delete old)
  | _ => .ok db

def execute (db : Db) : Statement → Result Db
  | .service s => do
    let s' := serviceStatement s
    let events := s'.events db.service
    let db ← events.foldlM beforeService db
    let t ← s'.execute (checkUnique (·.serviceId) "pk_service") db.service
    events.foldlM afterService { db with service := t }
  | .version s => do
    let s' := versionStatement s
    let events := s'.events db.serviceVersion
    let db ← events.foldlM beforeVersion db
    let t ← s'.execute versionKeys db.serviceVersion
    events.foldlM afterVersion { db with serviceVersion := t }

def step (db : Db) (s : Statement) : Db := (execute db s).toOption.getD db

end JazzHands.ServiceVersion

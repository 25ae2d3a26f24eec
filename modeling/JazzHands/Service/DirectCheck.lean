import JazzHands.Postgres.Query
import JazzHands.Postgres.RowStatement

/-!
# Endpoints that are direct to a host

`create_service_direct_triggers.sql`: a service endpoint is linked to a collection of providers, and
the collection to its providers; a provider of the type `direct` has the name of the endpoint.

Columns that no trigger reads are left out, with their foreign keys.
-/

namespace JazzHands.ServiceDirect

open Postgres RowStatement

structure ServiceEndpoint where
  serviceEndpointId : ℕ
  dnsRecordId : Option ℕ
  portRangeId : Option ℕ

structure ServiceEndpointProvider where
  serviceEndpointProviderId : ℕ
  serviceEndpointProviderName : String
  serviceEndpointProviderType : String
  dnsRecordId : Option ℕ
  netblockId : Option ℕ

structure ServiceEndpointProviderCollection where
  serviceEndpointProviderCollectionId : ℕ
  serviceEndpointProviderCollectionType : String

/-- A row of `service_endpoint_service_endpoint_provider_collection`. -/
structure EndpointLink where
  serviceEndpointId : ℕ
  serviceEndpointProviderCollectionId : ℕ
  serviceEndpointRelationType : String
  serviceEndpointRelationKey : String
  deriving DecidableEq

/-- A row of `service_endpoint_provider_collection_service_endpoint_provider`. -/
structure ProviderLink where
  serviceEndpointProviderCollectionId : ℕ
  serviceEndpointProviderId : ℕ
  deriving DecidableEq

/-- The collections stay as they are. -/
structure Catalog where
  collection : List ServiceEndpointProviderCollection
  collectionKey : (collection.map (·.serviceEndpointProviderCollectionId)).Nodup

structure Db where
  serviceEndpoint : List ServiceEndpoint
  serviceEndpointProvider : List ServiceEndpointProvider
  endpointLink : List EndpointLink
  providerLink : List ProviderLink

/-- Which rows the queries of the triggers take. -/
structure Picks where
  provider : FirstRow ServiceEndpointProvider
  endpoint : FirstRow ServiceEndpoint

/-! ## The joins -/

section Joins

variable (cat : Catalog) (db : Db)

/-- The three tables in the middle. -/
def joined : List (EndpointLink × ServiceEndpointProviderCollection × ProviderLink) :=
  db.endpointLink.flatMap fun k =>
    (cat.collection.filter fun c =>
      c.serviceEndpointProviderCollectionId = k.serviceEndpointProviderCollectionId).flatMap fun c =>
    (db.providerLink.filter fun m =>
      m.serviceEndpointProviderCollectionId = c.serviceEndpointProviderCollectionId).map fun m =>
    (k, c, m)

/-- The providers that an endpoint is linked to. -/
def providersOf (serviceEndpointId : ℕ) : List ServiceEndpointProvider :=
  ((joined cat db).filter fun j => j.1.serviceEndpointId = serviceEndpointId).flatMap fun j =>
    db.serviceEndpointProvider.filter fun p =>
      p.serviceEndpointProviderId = j.2.2.serviceEndpointProviderId

/-- The endpoints that a provider is linked to. -/
def endpointsOf (serviceEndpointProviderId : ℕ) : List ServiceEndpoint :=
  ((joined cat db).filter fun j =>
      j.2.2.serviceEndpointProviderId = serviceEndpointProviderId).flatMap fun j =>
    db.serviceEndpoint.filter fun e => e.serviceEndpointId = j.1.serviceEndpointId

end Joins

/-! ## The triggers -/

section Triggers

variable (cat : Catalog) (picks : Picks) (db : Db)

/-- `NEW.dns_record_id IS NOT NULL OR NEW.port_range_id IS NOT NULL`. -/
def ServiceEndpoint.IsSet (new : ServiceEndpoint) : Prop :=
  new.dnsRecordId ≠ none ∨ new.portRangeId ≠ none
  deriving Decidable

/-- `AFTER INSERT OR UPDATE OF dns_record_id, port_range_id ON service_endpoint`. -/
def serviceEndpointDirectCheck (new : ServiceEndpoint) : Result Unit :=
  if new.IsSet then
    match picks.provider.pick (providersOf cat db new.serviceEndpointId) with
    | none => .ok ()
    | some r =>
      raiseIf (r.serviceEndpointProviderType = "direct" ∧ r.dnsRecordId ≠ new.dnsRecordId)
        .foreignKeyViolation
        "dns_record_id of service_endpoint_provider and service_endpoint must match"
  else .ok ()

/-- `AFTER INSERT OR UPDATE OF dns_record_id, port_range_id ON service_endpoint`. -/
def validateServiceEndpointFksets (new : ServiceEndpoint) : Result Unit :=
  raiseIf (new.IsSet ∧ (new.dnsRecordId = none ∨ new.portRangeId = none)) .notNullViolation
    "both dns_record_id and port_range_id must be set"

/-- `AFTER INSERT OR UPDATE OF service_endpoint_provider_collection_id,
service_endpoint_relation_type, service_endpoint_relation_key` on the links of endpoints. -/
def svcEndProvSvcEndColDirectCheck (new : EndpointLink) : Result Unit :=
  if new.serviceEndpointRelationType = "direct" then do
    raiseIf (new.serviceEndpointRelationKey ≠ "none") .invalidParameterValue
      "direct must have a key of none"
    raiseIf (∀ c ∈ cat.collection,
        c.serviceEndpointProviderCollectionType = "per-service-endpoint-provider" →
        c.serviceEndpointProviderCollectionId ≠ new.serviceEndpointProviderCollectionId)
      .foreignKeyViolation
      "direct must point to a service_collection_type of per-service-endpoint-provider"
  else .ok ()

/-- `AFTER INSERT OR UPDATE OF service_endpoint_relation_type, service_endpoint_relation_key` on the
links of endpoints. -/
def svcEpSvcEppCollDirect (new : EndpointLink) : Result Unit :=
  raiseIf (new.serviceEndpointRelationType = "per-service-endpoint-provider" ∧
      new.serviceEndpointRelationKey ≠ "none") .invalidParameterValue
    "per-service-endpoint-provider is immutable because of direct connection"

/-- `AFTER INSERT OR UPDATE OF service_endpoint_provider_collection_id,
service_endpoint_provider_id` on the links of providers. -/
def svcEpCollSepDirectCheck (new : ProviderLink) : Result Unit :=
  let coltype := (cat.collection.find? fun c => c.serviceEndpointProviderCollectionId =
    new.serviceEndpointProviderCollectionId).map (·.serviceEndpointProviderCollectionType)
  let septype := (db.serviceEndpointProvider.find? fun p => p.serviceEndpointProviderId =
    new.serviceEndpointProviderId).map (·.serviceEndpointProviderType)
  raiseIf (septype = some "direct" ∧ ∃ t ∈ coltype, t ≠ "per-service-endpoint-provider")
    .invalidParameterValue
    "direct providers must have an upstream collection of per-service-endpoint-provider type"

/-- `AFTER INSERT OR UPDATE OF service_endpoint_provider_type, dns_record_id ON
service_endpoint_provider`. -/
def serviceEndpointProviderDirectCheck (new : ServiceEndpointProvider) : Result Unit :=
  if new.serviceEndpointProviderType = "direct" ∧ new.dnsRecordId ≠ none then
    match picks.endpoint.pick (endpointsOf cat db new.serviceEndpointProviderId) with
    | none => .ok ()
    | some r =>
      raiseIf (r.dnsRecordId ≠ new.dnsRecordId) .foreignKeyViolation
        "dns_record_id of service_endpoint_provider and service_endpoint must match (% %"
  else .ok ()

/-- `AFTER INSERT OR UPDATE OF dns_record_id, netblock_id ON service_endpoint_provider`. -/
def serviceEndpointProviderDnsNetblockCheck (new : ServiceEndpointProvider) : Result Unit :=
  if new.dnsRecordId = none ∧ new.netblockId = none ∧
      new.serviceEndpointProviderType ≠ "direct" then
    raise .notNullViolation "One of dns_record_id OR netblock_id must be set for types other than direct"
  else
    raiseIf (new.dnsRecordId ≠ none ∧ new.netblockId ≠ none) .notNullViolation
      "Only One of dns_record_id OR netblock_id must be set"

end Triggers

/-! ## Keys -/

def providerKeys (others : List ServiceEndpointProvider) (new : ServiceEndpointProvider) :
    Result Unit := do
  checkUnique (·.serviceEndpointProviderId) "pk_service_endpoint_provider" others new
  checkUnique (fun p => (p.serviceEndpointProviderName, p.serviceEndpointProviderType))
    "ak_svc_ep_name_type" others new

/-- `NO ACTION`: links of the old row have to find another one. -/
def endpointReferences (db : Db) (e : RowEvent ServiceEndpoint) : Result Unit :=
  match e.old? with
  | none => .ok ()
  | some old =>
    raiseIf ((∀ r ∈ db.serviceEndpoint, r.serviceEndpointId ≠ old.serviceEndpointId) ∧
        ∃ k ∈ db.endpointLink, k.serviceEndpointId = old.serviceEndpointId)
      .foreignKeyViolation
      "violates foreign key constraint fk_svc_endpoint_svc_endpoint_prov_collection_endpoint_id"

def providerReferences (db : Db) (e : RowEvent ServiceEndpointProvider) : Result Unit :=
  match e.old? with
  | none => .ok ()
  | some old =>
    raiseIf ((∀ r ∈ db.serviceEndpointProvider,
          r.serviceEndpointProviderId ≠ old.serviceEndpointProviderId) ∧
        ∃ m ∈ db.providerLink, m.serviceEndpointProviderId = old.serviceEndpointProviderId)
      .foreignKeyViolation "violates foreign key constraint fk_sepc_sep_epid"

def endpointLinkKeys (cat : Catalog) (db : Db) (new : EndpointLink) : Result Unit := do
  raiseIf (∀ c ∈ cat.collection,
      c.serviceEndpointProviderCollectionId ≠ new.serviceEndpointProviderCollectionId)
    .foreignKeyViolation
    "violates foreign key constraint fk_svc_endpoint_svc_endpoint_prov_coll_coll_id"
  raiseIf (∀ r ∈ db.serviceEndpoint, r.serviceEndpointId ≠ new.serviceEndpointId)
    .foreignKeyViolation
    "violates foreign key constraint fk_svc_endpoint_svc_endpoint_prov_collection_endpoint_id"

def providerLinkKeys (cat : Catalog) (db : Db) (new : ProviderLink) : Result Unit := do
  raiseIf (∀ c ∈ cat.collection,
      c.serviceEndpointProviderCollectionId ≠ new.serviceEndpointProviderCollectionId)
    .foreignKeyViolation "violates foreign key constraint fk_sepc_sep_coll_id"
  raiseIf (∀ r ∈ db.serviceEndpointProvider,
      r.serviceEndpointProviderId ≠ new.serviceEndpointProviderId)
    .foreignKeyViolation "violates foreign key constraint fk_sepc_sep_epid"

/-! ## Statements -/

inductive Column where
  | serviceEndpointId
  | dnsRecordId
  | portRangeId
  | serviceEndpointProviderId
  | serviceEndpointProviderName
  | serviceEndpointProviderType
  | netblockId
  | serviceEndpointProviderCollectionId
  | serviceEndpointRelationType
  | serviceEndpointRelationKey
  deriving DecidableEq

def ServiceEndpoint.set (columns : List Column) (old values : ServiceEndpoint) :
    ServiceEndpoint where
  serviceEndpointId := if .serviceEndpointId ∈ columns then values.serviceEndpointId
    else old.serviceEndpointId
  dnsRecordId := if .dnsRecordId ∈ columns then values.dnsRecordId else old.dnsRecordId
  portRangeId := if .portRangeId ∈ columns then values.portRangeId else old.portRangeId

def ServiceEndpointProvider.set (columns : List Column) (old values : ServiceEndpointProvider) :
    ServiceEndpointProvider where
  serviceEndpointProviderId := if .serviceEndpointProviderId ∈ columns then
    values.serviceEndpointProviderId else old.serviceEndpointProviderId
  serviceEndpointProviderName := if .serviceEndpointProviderName ∈ columns then
    values.serviceEndpointProviderName else old.serviceEndpointProviderName
  serviceEndpointProviderType := if .serviceEndpointProviderType ∈ columns then
    values.serviceEndpointProviderType else old.serviceEndpointProviderType
  dnsRecordId := if .dnsRecordId ∈ columns then values.dnsRecordId else old.dnsRecordId
  netblockId := if .netblockId ∈ columns then values.netblockId else old.netblockId

def EndpointLink.set (columns : List Column) (old values : EndpointLink) : EndpointLink where
  serviceEndpointId := if .serviceEndpointId ∈ columns then values.serviceEndpointId
    else old.serviceEndpointId
  serviceEndpointProviderCollectionId := if .serviceEndpointProviderCollectionId ∈ columns then
    values.serviceEndpointProviderCollectionId else old.serviceEndpointProviderCollectionId
  serviceEndpointRelationType := if .serviceEndpointRelationType ∈ columns then
    values.serviceEndpointRelationType else old.serviceEndpointRelationType
  serviceEndpointRelationKey := if .serviceEndpointRelationKey ∈ columns then
    values.serviceEndpointRelationKey else old.serviceEndpointRelationKey

def ProviderLink.set (columns : List Column) (old values : ProviderLink) : ProviderLink where
  serviceEndpointProviderCollectionId := if .serviceEndpointProviderCollectionId ∈ columns then
    values.serviceEndpointProviderCollectionId else old.serviceEndpointProviderCollectionId
  serviceEndpointProviderId := if .serviceEndpointProviderId ∈ columns then
    values.serviceEndpointProviderId else old.serviceEndpointProviderId

/-- A statement on one of the tables; an `UPDATE` names columns. -/
inductive Statement where
  | endpoint (columns : List Column) (s : RowStatement ServiceEndpoint)
  | provider (columns : List Column) (s : RowStatement ServiceEndpointProvider)
  | endpointLink (columns : List Column) (s : RowStatement EndpointLink)
  | providerLink (columns : List Column) (s : RowStatement ProviderLink)

def endpointTriggers (cat : Catalog) (picks : Picks) (columns : List Column) (db : Db)
    (e : RowEvent ServiceEndpoint) : Result Unit := do
  endpointReferences db e
  afterColumns [.dnsRecordId, .portRangeId] columns (serviceEndpointDirectCheck cat picks db) e
  afterColumns [.dnsRecordId, .portRangeId] columns validateServiceEndpointFksets e

def providerTriggers (cat : Catalog) (picks : Picks) (columns : List Column) (db : Db)
    (e : RowEvent ServiceEndpointProvider) : Result Unit := do
  providerReferences db e
  afterColumns [.serviceEndpointProviderType, .dnsRecordId] columns
    (serviceEndpointProviderDirectCheck cat picks db) e
  afterColumns [.dnsRecordId, .netblockId] columns serviceEndpointProviderDnsNetblockCheck e

def endpointLinkTriggers (cat : Catalog) (columns : List Column) (db : Db)
    (e : RowEvent EndpointLink) : Result Unit := do
  onNew (endpointLinkKeys cat db) e
  afterColumns [.serviceEndpointProviderCollectionId, .serviceEndpointRelationType,
    .serviceEndpointRelationKey] columns (svcEndProvSvcEndColDirectCheck cat) e
  afterColumns [.serviceEndpointRelationType, .serviceEndpointRelationKey] columns
    svcEpSvcEppCollDirect e

def providerLinkTriggers (cat : Catalog) (columns : List Column) (db : Db)
    (e : RowEvent ProviderLink) : Result Unit := do
  onNew (providerLinkKeys cat db) e
  afterColumns [.serviceEndpointProviderCollectionId, .serviceEndpointProviderId] columns
    (svcEpCollSepDirectCheck cat db) e

def execute (cat : Catalog) (picks : Picks) (db : Db) : Statement → Result Db
  | .endpoint columns s => do
    let s' := s.naming (ServiceEndpoint.set columns)
    let t ← s'.execute (checkUnique (·.serviceEndpointId) "pk_service_endpoint") db.serviceEndpoint
    let db' := { db with serviceEndpoint := t }
    (s'.events db.serviceEndpoint).forM (endpointTriggers cat picks columns db')
    .ok db'
  | .provider columns s => do
    let s' := s.naming (ServiceEndpointProvider.set columns)
    let t ← s'.execute providerKeys db.serviceEndpointProvider
    let db' := { db with serviceEndpointProvider := t }
    (s'.events db.serviceEndpointProvider).forM (providerTriggers cat picks columns db')
    .ok db'
  | .endpointLink columns s => do
    let s' := s.naming (EndpointLink.set columns)
    let t ← s'.execute (checkUnique id "pk_service_endpoint_service_endpoint_provider_collection")
      db.endpointLink
    let db' := { db with endpointLink := t }
    (s'.events db.endpointLink).forM (endpointLinkTriggers cat columns db')
    .ok db'
  | .providerLink columns s => do
    let s' := s.naming (ProviderLink.set columns)
    let t ← s'.execute
      (checkUnique id "pk_svc_endpoint_provider_collection_service_endpoint_provider")
      db.providerLink
    let db' := { db with providerLink := t }
    (s'.events db.providerLink).forM (providerLinkTriggers cat columns db')
    .ok db'

/-- The tables after a statement: an error leaves them as they were. -/
def step (cat : Catalog) (db : Db) (s : Statement × Picks) : Db :=
  (execute cat s.2 db s.1).toOption.getD db

end JazzHands.ServiceDirect

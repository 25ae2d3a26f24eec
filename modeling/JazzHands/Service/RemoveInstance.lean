import JazzHands.Postgres.Error
import Mathlib.Data.List.Nodup

/-!
# `service_manip.remove_service_instance`

Of the tables that refer to these only the keys are kept that they refer to.
-/

namespace JazzHands.Service

open Postgres

structure Provider where
  serviceEndpointProviderId : ℕ
  serviceEndpointProviderType : String
  deriving DecidableEq

/-- A row of `service_endpoint_provider_service_instance`. -/
structure ProviderInstance where
  id : ℕ
  serviceEndpointProviderId : ℕ
  serviceInstanceId : ℕ
  deriving DecidableEq

/-- A row of `service_endpoint_provider_collection_service_endpoint_provider`. -/
structure CollectionProvider where
  serviceEndpointProviderCollectionId : ℕ
  serviceEndpointProviderId : ℕ
  deriving DecidableEq

/-- A row of `service_endpoint_service_endpoint_provider_collection`. -/
structure EndpointCollection where
  serviceEndpointId : ℕ
  serviceEndpointProviderCollectionId : ℕ
  serviceEndpointRelationType : String
  serviceEndpointRelationKey : String
  deriving DecidableEq

structure EndpointSla where
  serviceEndpointServiceSlaId : ℕ
  serviceEndpointId : ℕ

/-- A key that a row of another table refers to. -/
inductive Reference where
  | endpoint (serviceEndpointId : ℕ)
  | provider (serviceEndpointProviderId : ℕ)
  | sla (serviceEndpointServiceSlaId : ℕ)
  | serviceInstance (serviceInstanceId : ℕ)
  deriving DecidableEq

/-- The tables.  Of endpoints, provider collections and instances there are the keys. -/
structure Db where
  serviceEndpoint : List ℕ
  providerCollection : List ℕ
  provider : List Provider
  serviceInstance : List ℕ
  providerInstance : List ProviderInstance
  collectionProvider : List CollectionProvider
  endpointCollection : List EndpointCollection
  endpointSla : List EndpointSla
  references : List Reference

/-- `RETURNING * INTO` takes no more than one row. -/
def returning {α : Type} : List α → Result (Option α)
  | [] => .ok none
  | [a] => .ok (some a)
  | _ => raise .tooManyRows "query returned more than one row"

/-- What is deleted with a direct provider, `coll` being the collection that it was taken from. -/
def removeDirect (db : Db) (providerId : ℕ) (coll : Option ℕ) : Result Db := do
  let sesepc ← returning (db.endpointCollection.filter fun z =>
    some z.serviceEndpointProviderCollectionId = coll)
  let db := { db with
    endpointCollection := db.endpointCollection.filter fun z =>
      some z.serviceEndpointProviderCollectionId ≠ coll }
  raiseIf (∃ y ∈ db.collectionProvider, some y.serviceEndpointProviderCollectionId = coll)
    .foreignKeyViolation "violates foreign key constraint fk_sepc_sep_coll_id"
  let db := { db with providerCollection := db.providerCollection.filter fun c => some c ≠ coll }
  raiseIf ((∃ x ∈ db.providerInstance, x.serviceEndpointProviderId = providerId) ∨
      (∃ y ∈ db.collectionProvider, y.serviceEndpointProviderId = providerId) ∨
      .provider providerId ∈ db.references)
    .foreignKeyViolation "is still referenced from table service_endpoint_provider_service_instance"
  let db := { db with
    provider := db.provider.filter fun p => p.serviceEndpointProviderId ≠ providerId }
  let endpoint := sesepc.map EndpointCollection.serviceEndpointId
  raiseIf (∃ s ∈ db.endpointSla, some s.serviceEndpointId = endpoint ∧
      .sla s.serviceEndpointServiceSlaId ∈ db.references)
    .foreignKeyViolation "violates foreign key constraint fk_svc_endpoint_svc_sla_service_feature_id"
  let db := { db with
    endpointSla := db.endpointSla.filter fun s => some s.serviceEndpointId ≠ endpoint }
  raiseIf ((∃ z ∈ db.endpointCollection, some z.serviceEndpointId = endpoint) ∨
      ∃ e ∈ endpoint, .endpoint e ∈ db.references)
    .foreignKeyViolation
    "violates foreign key constraint fk_svc_endpoint_svc_endpoint_prov_collection_endpoint_id"
  .ok { db with serviceEndpoint := db.serviceEndpoint.filter fun e => some e ≠ endpoint }

/-- The rows that are deleted while no more than one row of the provider is left. -/
def unlinked (db : Db) (providerId : ℕ) : List CollectionProvider :=
  if 1 < (db.providerInstance.filter (·.serviceEndpointProviderId = providerId)).length then []
  else db.collectionProvider.filter (·.serviceEndpointProviderId = providerId)

def removeRow (serviceInstanceId : ℕ) (db : Db) (r : ProviderInstance) : Result Db := do
  let sep := db.provider.find? (·.serviceEndpointProviderId = r.serviceEndpointProviderId)
  let db := { db with providerInstance := db.providerInstance.filter (·.id ≠ r.id) }
  let rows := unlinked db r.serviceEndpointProviderId
  let sepcsep ← returning rows
  let db := { db with collectionProvider := db.collectionProvider.filter (· ∉ rows) }
  match sep with
  | none => .ok db
  | some sep =>
    if sep.serviceEndpointProviderType = "direct" then
      removeDirect db sep.serviceEndpointProviderId
        (sepcsep.map (·.serviceEndpointProviderCollectionId))
    else
      .ok { db with
        providerInstance := db.providerInstance.filter fun x =>
          ¬ (x.serviceEndpointProviderId = sep.serviceEndpointProviderId ∧
            x.serviceInstanceId = serviceInstanceId) }

/-- The rows of the query at the head of the loop. -/
def rowsOf (db : Db) (serviceInstanceId : ℕ) : List ProviderInstance :=
  db.providerInstance.filter (·.serviceInstanceId = serviceInstanceId)

/-- The function, with the rows of the query in the order in which they come. -/
def removeServiceInstance (rows : List ProviderInstance) (db : Db) (serviceInstanceId : ℕ) :
    Result Db := do
  let db ← rows.foldlM (removeRow serviceInstanceId) db
  raiseIf (serviceInstanceId ∈ db.serviceInstance ∧
      ((∃ x ∈ db.providerInstance, x.serviceInstanceId = serviceInstanceId) ∨
        .serviceInstance serviceInstanceId ∈ db.references))
    .foreignKeyViolation
    "violates foreign key constraint fk_service_endpoint_provider_service_instance_siid"
  .ok { db with serviceInstance := db.serviceInstance.filter (· ≠ serviceInstanceId) }

end JazzHands.Service

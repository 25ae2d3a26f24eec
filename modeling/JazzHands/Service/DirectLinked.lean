import JazzHands.Library.Runs
import JazzHands.Service.DirectCheck

/-!
# Which statements keep the names of direct endpoints

An endpoint and a provider of the type `direct` that are linked have the same name.  The triggers of
the links compare no names; those of the endpoints and of the providers compare one linked row, and
none for a name that is cleared.
-/

namespace JazzHands.ServiceDirect

open Postgres RowStatement Library

variable {cat : Catalog} {picks : Picks} {db db' : Db} {columns : List Column}
  {i : ℕ} {j : EndpointLink × ServiceEndpointProviderCollection × ProviderLink}

/-! ## What holds -/

/-- A direct provider has the name of the endpoint, and a collection of its own. -/
def Matches (e : ServiceEndpoint) (c : ServiceEndpointProviderCollection)
    (p : ServiceEndpointProvider) : Prop :=
  p.serviceEndpointProviderType = "direct" → e.dnsRecordId = p.dnsRecordId ∧
    c.serviceEndpointProviderCollectionType = "per-service-endpoint-provider"
  deriving Decidable

def Direct (cat : Catalog) (db : Db) : Prop :=
  ∀ e ∈ db.serviceEndpoint, ∀ j ∈ joined cat db, ∀ p ∈ db.serviceEndpointProvider,
    j.1.serviceEndpointId = e.serviceEndpointId →
    j.2.2.serviceEndpointProviderId = p.serviceEndpointProviderId → Matches e j.2.1 p
  deriving Decidable

structure Keyed (db : Db) : Prop where
  provider : (db.serviceEndpointProvider.map (·.serviceEndpointProviderId)).Nodup
  endpointLink : ∀ k ∈ db.endpointLink, ∃ e ∈ db.serviceEndpoint,
    e.serviceEndpointId = k.serviceEndpointId

/-! ## What a statement has to meet -/

section Condition

variable (cat : Catalog) (picks : Picks) (columns : List Column) (db : Db)

/-- The direct providers of the endpoint have its name, or the trigger compares them. -/
def EndpointAgrees (e : RowEvent ServiceEndpoint) (new : ServiceEndpoint) : Prop :=
  ∀ p ∈ providersOf cat db new.serviceEndpointId, p.serviceEndpointProviderType = "direct" →
    p.dnsRecordId = new.dnsRecordId ∨
    (Fires [.dnsRecordId, .portRangeId] columns e ∧ new.IsSet ∧
      picks.provider.pick (providersOf cat db new.serviceEndpointId) = some p)

/-- The endpoints of a direct provider have its name, or the trigger compares them.  It never looks
at the collection. -/
def ProviderAgrees (e : RowEvent ServiceEndpointProvider) (new : ServiceEndpointProvider) : Prop :=
  new.serviceEndpointProviderType = "direct" →
    (∀ r ∈ endpointsOf cat db new.serviceEndpointProviderId,
      r.dnsRecordId = new.dnsRecordId ∨
      (Fires [.serviceEndpointProviderType, .dnsRecordId] columns e ∧ new.dnsRecordId ≠ none ∧
        picks.endpoint.pick (endpointsOf cat db new.serviceEndpointProviderId) = some r)) ∧
    ∀ j ∈ joined cat db, j.2.2.serviceEndpointProviderId = new.serviceEndpointProviderId →
      j.2.1.serviceEndpointProviderCollectionType = "per-service-endpoint-provider"

/-- The endpoint has the name of the direct providers of the collection.  The trigger looks at the
collection only for links of the type `direct`. -/
def EndpointLinkAgrees (e : RowEvent EndpointLink) (new : EndpointLink) : Prop :=
  ∀ c ∈ cat.collection,
    c.serviceEndpointProviderCollectionId = new.serviceEndpointProviderCollectionId →
  ∀ m ∈ db.providerLink,
    m.serviceEndpointProviderCollectionId = c.serviceEndpointProviderCollectionId →
  ∀ p ∈ db.serviceEndpointProvider,
    p.serviceEndpointProviderId = m.serviceEndpointProviderId →
    p.serviceEndpointProviderType = "direct" →
    (∀ r ∈ db.serviceEndpoint, r.serviceEndpointId = new.serviceEndpointId →
      r.dnsRecordId = p.dnsRecordId) ∧
    (c.serviceEndpointProviderCollectionType = "per-service-endpoint-provider" ∨
      (Fires [.serviceEndpointProviderCollectionId, .serviceEndpointRelationType,
        .serviceEndpointRelationKey] columns e ∧ new.serviceEndpointRelationType = "direct"))

/-- The endpoints of the collection have the name of the direct provider. -/
def ProviderLinkAgrees (new : ProviderLink) : Prop :=
  ∀ p ∈ db.serviceEndpointProvider,
    p.serviceEndpointProviderId = new.serviceEndpointProviderId →
    p.serviceEndpointProviderType = "direct" →
  ∀ k ∈ db.endpointLink,
    k.serviceEndpointProviderCollectionId = new.serviceEndpointProviderCollectionId →
  ∀ r ∈ db.serviceEndpoint, r.serviceEndpointId = k.serviceEndpointId →
    r.dnsRecordId = p.dnsRecordId

/-- The rows that the statement writes agree with those that they are linked to. -/
def Compared : Statement → Prop
  | .endpoint columns s =>
    ∀ e ∈ (s.naming (ServiceEndpoint.set columns)).events db.serviceEndpoint, ∀ new ∈ e.new?,
      EndpointAgrees cat picks columns db e new
  | .provider columns s =>
    ∀ e ∈ (s.naming (ServiceEndpointProvider.set columns)).events db.serviceEndpointProvider,
      ∀ new ∈ e.new?, ProviderAgrees cat picks columns db e new
  | .endpointLink columns s =>
    ∀ e ∈ (s.naming (EndpointLink.set columns)).events db.endpointLink, ∀ new ∈ e.new?,
      EndpointLinkAgrees cat columns db e new
  | .providerLink columns s =>
    ∀ e ∈ (s.naming (ProviderLink.set columns)).events db.providerLink, ∀ new ∈ e.new?,
      ProviderLinkAgrees db new

end Condition

/-! ## The joins -/

theorem mem_joined : j ∈ joined cat db ↔ j.1 ∈ db.endpointLink ∧ j.2.1 ∈ cat.collection ∧
    j.2.2 ∈ db.providerLink ∧
    j.2.1.serviceEndpointProviderCollectionId = j.1.serviceEndpointProviderCollectionId ∧
    j.2.2.serviceEndpointProviderCollectionId = j.2.1.serviceEndpointProviderCollectionId := by
  obtain ⟨k, c, m⟩ := j
  simp only [joined, List.mem_flatMap, List.mem_filter, List.mem_map, decide_eq_true_eq,
    Prod.mk.injEq]
  constructor
  · rintro ⟨k', hk, c', ⟨hc, hck⟩, m', ⟨hm, hmc⟩, rfl, rfl, rfl⟩
    exact ⟨hk, hc, hm, hck, hmc⟩
  · rintro ⟨hk, hc, hm, hck, hmc⟩
    exact ⟨k, hk, c, ⟨hc, hck⟩, m, ⟨hm, hmc⟩, rfl, rfl, rfl⟩

theorem mem_providersOf {p : ServiceEndpointProvider} : p ∈ providersOf cat db i ↔
    p ∈ db.serviceEndpointProvider ∧ ∃ j ∈ joined cat db, j.1.serviceEndpointId = i ∧
      j.2.2.serviceEndpointProviderId = p.serviceEndpointProviderId := by
  simp only [providersOf, List.mem_flatMap, List.mem_filter, decide_eq_true_eq]
  constructor
  · rintro ⟨j, ⟨hj, hi⟩, hp, heq⟩
    exact ⟨hp, j, hj, hi, heq.symm⟩
  · rintro ⟨hp, j, hj, hi, heq⟩
    exact ⟨j, ⟨hj, hi⟩, hp, heq.symm⟩

theorem mem_endpointsOf {r : ServiceEndpoint} : r ∈ endpointsOf cat db i ↔
    r ∈ db.serviceEndpoint ∧ ∃ j ∈ joined cat db, j.2.2.serviceEndpointProviderId = i ∧
      j.1.serviceEndpointId = r.serviceEndpointId := by
  simp only [endpointsOf, List.mem_flatMap, List.mem_filter, decide_eq_true_eq]
  constructor
  · rintro ⟨j, ⟨hj, hi⟩, hr, heq⟩
    exact ⟨hr, j, hj, hi, heq.symm⟩
  · rintro ⟨hr, j, hj, hi, heq⟩
    exact ⟨j, ⟨hj, hi⟩, hr, heq.symm⟩

theorem Catalog.collection_eq {c c' : ServiceEndpointProviderCollection} (hc : c ∈ cat.collection)
    (hc' : c' ∈ cat.collection) (h : c.serviceEndpointProviderCollectionId =
      c'.serviceEndpointProviderCollectionId) : c = c' :=
  List.inj_on_of_nodup_map cat.collectionKey hc hc' h

/-! ## What the triggers let pass -/

section Triggers

variable {p : ServiceEndpointProvider} {c : ServiceEndpointProviderCollection}

theorem serviceEndpointDirectCheck_ok {new : ServiceEndpoint}
    (h : serviceEndpointDirectCheck cat picks db new = .ok ()) (hset : new.IsSet)
    (hpick : picks.provider.pick (providersOf cat db new.serviceEndpointId) = some p)
    (hdirect : p.serviceEndpointProviderType = "direct") : p.dnsRecordId = new.dnsRecordId := by
  rw [serviceEndpointDirectCheck, if_pos hset, hpick] at h
  by_contra hne
  exact raiseIf_eq_ok.mp h ⟨hdirect, hne⟩

theorem serviceEndpointProviderDirectCheck_ok {new : ServiceEndpointProvider} {r : ServiceEndpoint}
    (h : serviceEndpointProviderDirectCheck cat picks db new = .ok ())
    (hdirect : new.serviceEndpointProviderType = "direct") (hset : new.dnsRecordId ≠ none)
    (hpick : picks.endpoint.pick (endpointsOf cat db new.serviceEndpointProviderId) = some r) :
    r.dnsRecordId = new.dnsRecordId := by
  rw [serviceEndpointProviderDirectCheck, if_pos ⟨hdirect, hset⟩, hpick] at h
  exact not_not.mp (raiseIf_eq_ok.mp h)

theorem svcEndProvSvcEndColDirectCheck_ok {new : EndpointLink}
    (h : svcEndProvSvcEndColDirectCheck cat new = .ok ())
    (hdirect : new.serviceEndpointRelationType = "direct") (hc : c ∈ cat.collection)
    (hkey : c.serviceEndpointProviderCollectionId = new.serviceEndpointProviderCollectionId) :
    c.serviceEndpointProviderCollectionType = "per-service-endpoint-provider" := by
  rw [svcEndProvSvcEndColDirectCheck, if_pos hdirect, bind_unit_eq_ok] at h
  have hfound := raiseIf_eq_ok.mp h.2
  push Not at hfound
  obtain ⟨c', hc', htype, hkey'⟩ := hfound
  rwa [Catalog.collection_eq hc hc' (hkey.trans hkey'.symm)]

theorem svcEpCollSepDirectCheck_ok {new : ProviderLink}
    (h : svcEpCollSepDirectCheck cat db new = .ok ()) (hkeyed : Keyed db)
    (hp : p ∈ db.serviceEndpointProvider)
    (hpkey : p.serviceEndpointProviderId = new.serviceEndpointProviderId)
    (hdirect : p.serviceEndpointProviderType = "direct") (hc : c ∈ cat.collection)
    (hkey : c.serviceEndpointProviderCollectionId = new.serviceEndpointProviderCollectionId) :
    c.serviceEndpointProviderCollectionType = "per-service-endpoint-provider" := by
  rw [svcEpCollSepDirectCheck, ← hkey, ← hpkey, Library.find?_key cat.collectionKey hc,
    Library.find?_key hkeyed.provider hp, raiseIf_eq_ok] at h
  by_contra hne
  exact h ⟨congrArg some hdirect, _, rfl, hne⟩

end Triggers

/-! ## What a statement that succeeds has done -/

theorem execute_endpoint_ok {s : RowStatement ServiceEndpoint}
    (h : execute cat picks db (.endpoint columns s) = .ok db') :
    db' = { db with
      serviceEndpoint := (s.naming (ServiceEndpoint.set columns)).after db.serviceEndpoint } ∧
    ∀ e ∈ (s.naming (ServiceEndpoint.set columns)).events db.serviceEndpoint,
      endpointTriggers cat picks columns db' e = .ok () :=
  execute_triggers_ok h

theorem execute_provider_ok {s : RowStatement ServiceEndpointProvider}
    (h : execute cat picks db (.provider columns s) = .ok db') :
    db' = { db with
      serviceEndpointProvider :=
        (s.naming (ServiceEndpointProvider.set columns)).after db.serviceEndpointProvider } ∧
    ∀ e ∈ (s.naming (ServiceEndpointProvider.set columns)).events db.serviceEndpointProvider,
      providerTriggers cat picks columns db' e = .ok () :=
  execute_triggers_ok h

theorem execute_endpointLink_ok {s : RowStatement EndpointLink}
    (h : execute cat picks db (.endpointLink columns s) = .ok db') :
    db' = { db with
      endpointLink := (s.naming (EndpointLink.set columns)).after db.endpointLink } ∧
    ∀ e ∈ (s.naming (EndpointLink.set columns)).events db.endpointLink,
      endpointLinkTriggers cat columns db' e = .ok () :=
  execute_triggers_ok h

theorem execute_providerLink_ok {s : RowStatement ProviderLink}
    (h : execute cat picks db (.providerLink columns s) = .ok db') :
    db' = { db with
      providerLink := (s.naming (ProviderLink.set columns)).after db.providerLink } ∧
    ∀ e ∈ (s.naming (ProviderLink.set columns)).events db.providerLink,
      providerLinkTriggers cat columns db' e = .ok () :=
  execute_triggers_ok h

/-! ## Keys -/

theorem Keyed.execute {s : Statement} (hkeyed : Keyed db)
    (h : execute cat picks db s = .ok db') : Keyed db' := by
  cases s with
  | endpoint columns s =>
    obtain ⟨rfl, htriggers⟩ := execute_endpoint_ok h
    refine ⟨hkeyed.provider, fun k hk => ?_⟩
    obtain ⟨r, hr, heq⟩ := hkeyed.endpointLink k hk
    rcases mem_or_old_of_mem hr with hr | ⟨e, he, hold⟩
    · exact ⟨r, hr, heq⟩
    · have hreferences := (bind_unit_eq_ok.mp (htriggers e he)).1
      rw [endpointReferences, hold] at hreferences
      by_contra hnone
      push Not at hnone
      refine raiseIf_eq_ok.mp hreferences ⟨fun r' hr' heq' => ?_, k, hk, heq.symm⟩
      exact hnone r' hr' (heq'.trans heq)
  | provider columns s =>
    obtain ⟨t, ht, hrest⟩ := bind_eq_ok.mp h
    obtain ⟨rfl, -⟩ := execute_provider_ok h
    refine ⟨?_, hkeyed.endpointLink⟩
    refine nodup_execute (fun l new hcheck => ?_) hkeyed.provider (execute_ok ht ▸ ht)
    exact checkUnique_ok (bind_unit_eq_ok.mp hcheck).1
  | endpointLink columns s =>
    obtain ⟨rfl, htriggers⟩ := execute_endpointLink_ok h
    refine ⟨hkeyed.provider, fun k hk => ?_⟩
    rcases mem_after hk with hk | ⟨e, he, hnew⟩
    · exact hkeyed.endpointLink k hk
    · have hkeys := onNew_ok (bind_unit_eq_ok.mp (htriggers e he)).1 hnew
      have hfound := raiseIf_eq_ok.mp (bind_unit_eq_ok.mp hkeys).2
      push Not at hfound
      exact hfound
  | providerLink columns s =>
    obtain ⟨rfl, -⟩ := execute_providerLink_ok h
    exact ⟨hkeyed.provider, hkeyed.endpointLink⟩

/-! ## One statement -/

variable {s : Statement}

theorem direct_iff_of_endpoint {s : RowStatement ServiceEndpoint} (hkeyed : Keyed db)
    (hdirect : Direct cat db) (h : execute cat picks db (.endpoint columns s) = .ok db') :
    Direct cat db' ↔ Compared cat picks db (.endpoint columns s) := by
  obtain ⟨rfl, htriggers⟩ := execute_endpoint_ok h
  constructor
  · intro hdirect' e he new hnew p hp htype
    obtain ⟨hp, j, hj, hi, heq⟩ := mem_providersOf.mp hp
    exact .inl (hdirect' new (mem_after_of_new he hnew) j hj p hp hi heq htype).1.symm
  · intro hcompared r hr j hj p hp hrj hjp
    rcases mem_after hr with hr | ⟨e, he, hnew⟩
    · exact hdirect r hr j hj p hp hrj hjp
    · intro htype
      -- the link was one of another row with this key
      obtain ⟨r', hr', hr'j⟩ := hkeyed.endpointLink j.1 (mem_joined.mp hj).1
      refine ⟨?_, (hdirect r' hr' j hj p hp hr'j.symm hjp htype).2⟩
      have hof : p ∈ providersOf cat db r.serviceEndpointId :=
        mem_providersOf.mpr ⟨hp, j, hj, hrj, hjp⟩
      rcases hcompared e he r hnew p hof htype with heq | ⟨hfires, hset, hpick⟩
      · exact heq.symm
      · have htrigger := (bind_unit_eq_ok.mp (bind_unit_eq_ok.mp (htriggers e he)).2).1
        exact (serviceEndpointDirectCheck_ok (afterColumns_ok htrigger hnew hfires) hset hpick
          htype).symm

theorem direct_iff_of_provider {s : RowStatement ServiceEndpointProvider} (hkeyed : Keyed db)
    (hdirect : Direct cat db) (h : execute cat picks db (.provider columns s) = .ok db') :
    Direct cat db' ↔ Compared cat picks db (.provider columns s) := by
  obtain ⟨rfl, htriggers⟩ := execute_provider_ok h
  constructor
  · intro hdirect' e he new hnew htype
    have hmem := mem_after_of_new he hnew
    constructor
    · intro r hr
      obtain ⟨hr, j, hj, hi, heq⟩ := mem_endpointsOf.mp hr
      exact .inl (hdirect' r hr j hj new hmem heq hi htype).1
    · intro j hj hi
      obtain ⟨r, hr, hrj⟩ := hkeyed.endpointLink j.1 (mem_joined.mp hj).1
      exact (hdirect' r hr j hj new hmem hrj.symm hi htype).2
  · intro hcompared r hr j hj p hp hrj hjp
    rcases mem_after hp with hp | ⟨e, he, hnew⟩
    · exact hdirect r hr j hj p hp hrj hjp
    · intro htype
      obtain ⟨hagrees, hown⟩ := hcompared e he p hnew htype
      refine ⟨?_, hown j hj hjp⟩
      have hof : r ∈ endpointsOf cat db p.serviceEndpointProviderId :=
        mem_endpointsOf.mpr ⟨hr, j, hj, hjp, hrj⟩
      rcases hagrees r hof with heq | ⟨hfires, hset, hpick⟩
      · exact heq
      · have htrigger := (bind_unit_eq_ok.mp (bind_unit_eq_ok.mp (htriggers e he)).2).1
        exact serviceEndpointProviderDirectCheck_ok (afterColumns_ok htrigger hnew hfires) htype hset
          hpick

theorem direct_iff_of_endpointLink {s : RowStatement EndpointLink} (hdirect : Direct cat db)
    (h : execute cat picks db (.endpointLink columns s) = .ok db') :
    Direct cat db' ↔ Compared cat picks db (.endpointLink columns s) := by
  obtain ⟨rfl, htriggers⟩ := execute_endpointLink_ok h
  constructor
  · intro hdirect' e he new hnew c hc hck m hm hmc p hp hpm htype
    have hj : (new, c, m) ∈ joined cat { db with
        endpointLink := (s.naming (EndpointLink.set columns)).after db.endpointLink } :=
      mem_joined.mpr ⟨mem_after_of_new he hnew, hc, hm, hck, hmc⟩
    constructor
    · intro r hr heq
      exact (hdirect' r hr _ hj p hp heq.symm hpm.symm htype).1
    · have hkeys := onNew_ok (bind_unit_eq_ok.mp (htriggers e he)).1 hnew
      have hfound := raiseIf_eq_ok.mp (bind_unit_eq_ok.mp hkeys).2
      push Not at hfound
      obtain ⟨r, hr, heq⟩ := hfound
      exact .inl (hdirect' r hr _ hj p hp heq.symm hpm.symm htype).2
  · intro hcompared r hr j hj p hp hrj hjp
    obtain ⟨hk, hc, hm, hck, hmc⟩ := mem_joined.mp hj
    rcases mem_after hk with hk | ⟨e, he, hnew⟩
    · exact hdirect r hr j (mem_joined.mpr ⟨hk, hc, hm, hck, hmc⟩) p hp hrj hjp
    · intro htype
      obtain ⟨hnames, hown⟩ := hcompared e he j.1 hnew j.2.1 hc hck j.2.2 hm hmc p hp hjp.symm htype
      refine ⟨hnames r hr hrj.symm, ?_⟩
      rcases hown with hown | ⟨hfires, hrelation⟩
      · exact hown
      · have htrigger := (bind_unit_eq_ok.mp (bind_unit_eq_ok.mp (htriggers e he)).2).1
        exact svcEndProvSvcEndColDirectCheck_ok (afterColumns_ok htrigger hnew hfires) hrelation hc hck

/-- An `UPDATE` that names no column of the trigger leaves the row. -/
theorem ProviderLink.set_eq_self {old values : ProviderLink}
    (h : ¬ ∃ c ∈ [Column.serviceEndpointProviderCollectionId, .serviceEndpointProviderId],
      c ∈ columns) : ProviderLink.set columns old values = old := by
  simp only [List.mem_cons, List.not_mem_nil, or_false, exists_eq_or_imp, exists_eq_left,
    not_or] at h
  rw [ProviderLink.set, if_neg h.1, if_neg h.2]

theorem direct_iff_of_providerLink {s : RowStatement ProviderLink} (hkeyed : Keyed db)
    (hdirect : Direct cat db) (h : execute cat picks db (.providerLink columns s) = .ok db') :
    Direct cat db' ↔ Compared cat picks db (.providerLink columns s) := by
  have hkeyed' := hkeyed.execute h
  obtain ⟨rfl, htriggers⟩ := execute_providerLink_ok h
  constructor
  · intro hdirect' e he new hnew p hp hpkey htype k hk hkc r hr hrk
    have hkeys := onNew_ok (bind_unit_eq_ok.mp (htriggers e he)).1 hnew
    have hfound := raiseIf_eq_ok.mp (bind_unit_eq_ok.mp hkeys).1
    push Not at hfound
    obtain ⟨c, hc, hcnew⟩ := hfound
    have hj : (k, c, new) ∈ joined cat { db with
        providerLink := (s.naming (ProviderLink.set columns)).after db.providerLink } :=
      mem_joined.mpr ⟨hk, hc, mem_after_of_new he hnew, hcnew.trans hkc.symm, hcnew.symm⟩
    exact (hdirect' r hr _ hj p hp hrk.symm hpkey.symm htype).1
  · intro hcompared r hr j hj p hp hrj hjp
    obtain ⟨hk, hc, hm, hck, hmc⟩ := mem_joined.mp hj
    rcases mem_after hm with hm | ⟨e, he, hnew⟩
    · exact hdirect r hr j (mem_joined.mpr ⟨hk, hc, hm, hck, hmc⟩) p hp hrj hjp
    · intro htype
      refine ⟨hcompared e he j.2.2 hnew p hp hjp.symm htype j.1 hk (hck.symm.trans hmc.symm) r hr
        hrj.symm, ?_⟩
      by_cases hfires : Fires [.serviceEndpointProviderCollectionId, .serviceEndpointProviderId]
          columns e
      · have htrigger := (bind_unit_eq_ok.mp (htriggers e he)).2
        exact svcEpCollSepDirectCheck_ok (afterColumns_ok htrigger hnew hfires) hkeyed' hp hjp.symm
          htype hc hmc.symm
      · cases e with
        | insert new => exact absurd trivial hfires
        | delete old => cases hnew
        | update old new =>
          obtain ⟨values, heq⟩ := exists_of_naming he
          rw [ProviderLink.set_eq_self hfires] at heq
          obtain rfl := Option.some.inj hnew
          have hm : j.2.2 ∈ db.providerLink := heq ▸ old_mem he rfl
          exact (hdirect r hr j (mem_joined.mpr ⟨hk, hc, hm, hck, hmc⟩) p hp hrj hjp htype).2

/-- A statement that succeeds keeps the names exactly if the rows that it writes agree. -/
theorem direct_iff_of_execute (hkeyed : Keyed db) (hdirect : Direct cat db)
    (h : execute cat picks db s = .ok db') : Direct cat db' ↔ Compared cat picks db s := by
  cases s with
  | endpoint columns s => exact direct_iff_of_endpoint hkeyed hdirect h
  | provider columns s => exact direct_iff_of_provider hkeyed hdirect h
  | endpointLink columns s => exact direct_iff_of_endpointLink hdirect h
  | providerLink columns s => exact direct_iff_of_providerLink hkeyed hdirect h

/-! ## Runs -/

variable {a : Statement × Picks}

theorem step_of_ok (h : execute cat a.2 db a.1 = .ok db') :
    step cat db a = db' := by
  rw [step, h]
  rfl

theorem step_of_error {err : PgError} (h : execute cat a.2 db a.1 = .error err)
    : step cat db a = db := by
  rw [step, h]
  rfl

theorem Keyed.step (hkeyed : Keyed db) (a : Statement × Picks) :
    Keyed (ServiceDirect.step cat db a) := by
  cases h : ServiceDirect.execute cat a.2 db a.1 with
  | error err => rwa [step_of_error h]
  | ok db' =>
    rw [step_of_ok h]
    exact hkeyed.execute h

/-- **The names of direct endpoints.**  They agree in all states of a run exactly if every statement
that succeeds writes rows that agree with those that they are linked to, or that a trigger
compares. -/
theorem direct_run_iff {l : List (Statement × Picks)} (hkeyed : Keyed db)
    (hdirect : Direct cat db) :
    (∀ l', l' <+: l → Direct cat (run (step cat) db l')) ↔
      AllSteps (step cat) (fun db a =>
        (execute cat a.2 db a.1).isOk → Compared cat a.2 db a.1) db l := by
  refine forall_prefix_iff (Q := fun _ _ => True) (fun _ a h _ => h.step a) ?_ hkeyed hdirect
    (allSteps_of_forall fun _ _ => trivial)
  intro db a hkeyed _ hdirect
  cases h : execute cat a.2 db a.1 with
  | error err =>
    rw [step_of_error h]
    exact iff_of_true hdirect fun hok => by cases hok
  | ok db' =>
    rw [step_of_ok h, direct_iff_of_execute hkeyed hdirect h]
    exact ⟨fun hc _ => hc, fun hc => hc rfl⟩

/-! ## A direct endpoint -/

/-- A collection for one provider. -/
def ownCollection : Catalog := ⟨[⟨5, "per-service-endpoint-provider"⟩], List.nodup_singleton 5⟩

/-- The rows come as they are listed. -/
def listedRows : Picks := ⟨.listed _, .listed _⟩

/-- The endpoint, its provider, and the links between them. -/
def buildDirect : List (Statement × Picks) :=
  [(.endpoint [] (.insert [⟨1, some 10, some 20⟩]), listedRows),
    (.provider [] (.insert [⟨3, "host", "direct", some 10, none⟩]), listedRows),
    (.providerLink [] (.insert [⟨5, 3⟩]), listedRows),
    (.endpointLink [] (.insert [⟨1, 5, "direct", "none"⟩]), listedRows)]

/-- `UPDATE service_endpoint SET dns_record_id = NULL, port_range_id = NULL`. -/
def clearName : Statement × Picks :=
  (.endpoint [.dnsRecordId, .portRangeId] (.update fun _ => some ⟨1, none, none⟩), listedRows)

def emptyTables : Db := ⟨[], [], [], []⟩

theorem direct_run_iff_buildDirect :
    (∀ l', l' <+: buildDirect → Direct ownCollection (run (step ownCollection) emptyTables l')) ↔
      AllSteps (step ownCollection) (fun db a => (execute ownCollection a.2 db a.1).isOk →
        Compared ownCollection a.2 db a.1) emptyTables buildDirect :=
  direct_run_iff ⟨List.nodup_nil, by decide⟩ (by decide)

/-- The name of the endpoint is cleared without an error; its provider keeps it. -/
theorem not_direct_cleared :
    Direct ownCollection (run (step ownCollection) emptyTables buildDirect) ∧
      (execute ownCollection clearName.2 (run (step ownCollection) emptyTables buildDirect)
        clearName.1).isOk ∧
      ¬ Direct ownCollection
        (run (step ownCollection) emptyTables (buildDirect ++ [clearName])) := by
  decide

end JazzHands.ServiceDirect

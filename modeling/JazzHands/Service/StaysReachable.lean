import JazzHands.Service.RemoveInstance

/-!
# What `remove_service_instance` leaves

The rows of an instance are removed one by one, in any order.  `Progress` is the invariant of the
loop when the condition holds.  Conversely `alone_of_removeRow` and `not_linked_of_loop` find the
condition in a loop that came to its end.
-/

namespace JazzHands.Service

open Postgres

/-- The provider is in a collection of the endpoint. -/
def Through (db : Db) (providerId endpointId : ℕ) : Prop :=
  ∃ y ∈ db.collectionProvider, y.serviceEndpointProviderId = providerId ∧
    ∃ z ∈ db.endpointCollection,
      z.serviceEndpointProviderCollectionId = y.serviceEndpointProviderCollectionId ∧
        z.serviceEndpointId = endpointId

/-- Endpoint, provider collection, provider and instance. -/
def Reaches (db : Db) (instanceId endpointId : ℕ) : Prop :=
  ∃ x ∈ db.providerInstance, x.serviceInstanceId = instanceId ∧
    Through db x.serviceEndpointProviderId endpointId

def IsDirect (db : Db) (providerId : ℕ) : Prop :=
  ∃ p ∈ db.provider, p.serviceEndpointProviderId = providerId ∧
    p.serviceEndpointProviderType = "direct"

/-- An instance other than `i` uses the provider. -/
def UsedByOther (db : Db) (i providerId : ℕ) : Prop :=
  ∃ x ∈ db.providerInstance, x.serviceEndpointProviderId = providerId ∧ x.serviceInstanceId ≠ i

/-- What is deleted belonged to a direct provider that no other instance uses. -/
structure OnlyUnused (db db' : Db) (i : ℕ) : Prop where
  provider : ∀ p ∈ db.provider, p ∉ db'.provider →
    p.serviceEndpointProviderType = "direct" ∧ ¬ UsedByOther db i p.serviceEndpointProviderId
  collection : ∀ c ∈ db.providerCollection, c ∉ db'.providerCollection →
    ∃ p, IsDirect db p ∧ ¬ UsedByOther db i p ∧ ⟨c, p⟩ ∈ db.collectionProvider
  endpoint : ∀ e ∈ db.serviceEndpoint, e ∉ db'.serviceEndpoint →
    ∃ p, IsDirect db p ∧ ¬ UsedByOther db i p ∧ Through db p e

/-- The call goes through, the instance is gone, and the others are reached as before. -/
def Removes (rows : List ProviderInstance) (db : Db) (i : ℕ) : Prop :=
  ∃ db', removeServiceInstance rows db i = .ok db' ∧ i ∉ db'.serviceInstance ∧
    (∀ j ≠ i, ∀ e, Reaches db j e → Reaches db' j e) ∧ OnlyUnused db db' i

/-! ## The condition -/

structure Keys (db : Db) : Prop where
  providerInstance : (db.providerInstance.map (·.id)).Nodup
  provider : (db.provider.map (·.serviceEndpointProviderId)).Nodup
  collectionProvider : db.collectionProvider.Nodup
  endpointCollection : db.endpointCollection.Nodup
  providerRef : ∀ x ∈ db.providerInstance, ∃ p ∈ db.provider,
    p.serviceEndpointProviderId = x.serviceEndpointProviderId

/-- The rows of the provider for other instances. -/
def others (db : Db) (i providerId : ℕ) : List ProviderInstance :=
  db.providerInstance.filter fun x =>
    x.serviceEndpointProviderId = providerId ∧ x.serviceInstanceId ≠ i

/-- A provider of the instance with no more than one row for others. -/
def GoesUnlinked (db : Db) (i providerId : ℕ) : Prop :=
  (∃ r ∈ rowsOf db i, r.serviceEndpointProviderId = providerId) ∧
    (others db i providerId).length ≤ 1

/-- The provider of the row serves nothing else, and neither do its collection and endpoint. -/
structure Alone (db : Db) (r : ProviderInstance) : Prop where
  row : ∀ x ∈ db.providerInstance,
    x.serviceEndpointProviderId = r.serviceEndpointProviderId → x = r
  collection : ∀ y ∈ db.collectionProvider,
    y.serviceEndpointProviderId = r.serviceEndpointProviderId → ∀ y' ∈ db.collectionProvider,
      y'.serviceEndpointProviderCollectionId = y.serviceEndpointProviderCollectionId → y' = y
  endpoint : ∀ y ∈ db.collectionProvider,
    y.serviceEndpointProviderId = r.serviceEndpointProviderId → ∀ z ∈ db.endpointCollection,
      z.serviceEndpointProviderCollectionId = y.serviceEndpointProviderCollectionId →
        ∀ z' ∈ db.endpointCollection,
          z'.serviceEndpointProviderCollectionId = y.serviceEndpointProviderCollectionId ∨
            z'.serviceEndpointId = z.serviceEndpointId → z' = z
  providerRef : .provider r.serviceEndpointProviderId ∉ db.references
  endpointRef : ∀ e, Through db r.serviceEndpointProviderId e → .endpoint e ∉ db.references ∧
    ∀ s ∈ db.endpointSla, s.serviceEndpointId = e →
      .sla s.serviceEndpointServiceSlaId ∉ db.references

/-- Direct providers of the instance serve nothing else; a provider that loses its collection is in
no more than one; and what it was the way to for another instance can be reached in another way. -/
structure Removable (db : Db) (i : ℕ) : Prop where
  instanceRef : i ∈ db.serviceInstance → .serviceInstance i ∉ db.references
  direct : ∀ r ∈ rowsOf db i, IsDirect db r.serviceEndpointProviderId → Alone db r
  single : ∀ p, GoesUnlinked db i p → ∀ y ∈ db.collectionProvider,
    y.serviceEndpointProviderId = p → ∀ y' ∈ db.collectionProvider,
      y'.serviceEndpointProviderId = p → y' = y
  other : ∀ x ∈ db.providerInstance, x.serviceInstanceId ≠ i →
    GoesUnlinked db i x.serviceEndpointProviderId → ∀ e, Through db x.serviceEndpointProviderId e →
      ∃ x' ∈ db.providerInstance, x'.serviceInstanceId = x.serviceInstanceId ∧
        ¬ GoesUnlinked db i x'.serviceEndpointProviderId ∧
          Through db x'.serviceEndpointProviderId e

variable {db db' db₀ : Db} {i p : ℕ} {r : ProviderInstance} {rows l : List ProviderInstance}
  {coll : Option ℕ}

/-! ## One turn of the loop -/

theorem returning_eq_ok {α : Type} {l : List α} {o : Option α} :
    returning l = .ok o ↔ l.length ≤ 1 ∧ o = l.head? := by
  cases l with
  | nil => simp [returning, eq_comm]
  | cons a l =>
    cases l with
    | nil => simp [returning, eq_comm]
    | cons b l => simp [returning]

theorem length_le_one_iff {α : Type} {l : List α} (hl : l.Nodup) :
    l.length ≤ 1 ↔ ∀ a ∈ l, ∀ b ∈ l, b = a := by
  cases l with
  | nil => simp
  | cons a l =>
    cases l with
    | nil => simp
    | cons b l =>
      have hne : b ≠ a := by
        rintro rfl
        exact (List.nodup_cons.mp hl).1 List.mem_cons_self
      refine iff_of_false (by simp) fun h => hne (h a List.mem_cons_self b ?_)
      exact List.mem_cons_of_mem a List.mem_cons_self

theorem eq_singleton {α : Type} {l : List α} {a : α} (hlen : l.length ≤ 1) (ha : a ∈ l) :
    l = [a] := by
  cases l with
  | nil => exact absurd ha List.not_mem_nil
  | cons b l =>
    obtain rfl : l = [] := List.eq_nil_of_length_eq_zero (by simpa using hlen)
    rw [List.mem_singleton.mp ha]

/-- The links of a collection. -/
def linksOf (db : Db) (coll : Option ℕ) : List EndpointCollection :=
  db.endpointCollection.filter fun z => some z.serviceEndpointProviderCollectionId = coll

/-- The endpoint of the first of them. -/
def endpointOf (db : Db) (coll : Option ℕ) : Option ℕ :=
  (linksOf db coll).head?.map EndpointCollection.serviceEndpointId

/-- What `removeDirect` asks for. -/
structure Fits (db : Db) (p : ℕ) (coll : Option ℕ) : Prop where
  links : (linksOf db coll).length ≤ 1
  collection : ∀ y ∈ db.collectionProvider, some y.serviceEndpointProviderCollectionId ≠ coll
  row : ∀ x ∈ db.providerInstance, x.serviceEndpointProviderId ≠ p
  provider : ∀ y ∈ db.collectionProvider, y.serviceEndpointProviderId ≠ p
  providerRef : .provider p ∉ db.references
  sla : ∀ s ∈ db.endpointSla, some s.serviceEndpointId = endpointOf db coll →
    .sla s.serviceEndpointServiceSlaId ∉ db.references
  endpoint : ∀ z ∈ db.endpointCollection, some z.serviceEndpointProviderCollectionId ≠ coll →
    some z.serviceEndpointId ≠ endpointOf db coll
  endpointRef : ∀ e ∈ endpointOf db coll, .endpoint e ∉ db.references

/-- The tables without the provider, its collection and its endpoint. -/
def withoutDirect (db : Db) (p : ℕ) (coll : Option ℕ) : Db :=
  { db with
    endpointCollection := db.endpointCollection.filter fun z =>
      some z.serviceEndpointProviderCollectionId ≠ coll
    providerCollection := db.providerCollection.filter fun c => some c ≠ coll
    provider := db.provider.filter fun q => q.serviceEndpointProviderId ≠ p
    endpointSla := db.endpointSla.filter fun s => some s.serviceEndpointId ≠ endpointOf db coll
    serviceEndpoint := db.serviceEndpoint.filter fun e => some e ≠ endpointOf db coll }

theorem removeDirect_eq_ok :
    removeDirect db p coll = .ok db' ↔ Fits db p coll ∧ db' = withoutDirect db p coll := by
  constructor
  · intro h
    obtain ⟨o, ho, h⟩ := bind_eq_ok.mp h
    obtain ⟨hlinks, rfl⟩ := returning_eq_ok.mp ho
    obtain ⟨hcoll, h⟩ := bind_unit_eq_ok.mp h
    obtain ⟨hprov, h⟩ := bind_unit_eq_ok.mp h
    obtain ⟨hsla, h⟩ := bind_unit_eq_ok.mp h
    obtain ⟨hend, h⟩ := bind_unit_eq_ok.mp h
    obtain rfl := Except.ok.inj h
    rw [raiseIf_eq_ok] at hcoll hprov hsla hend
    obtain ⟨hrow, hprov⟩ := not_or.mp hprov
    obtain ⟨hprov, href⟩ := not_or.mp hprov
    obtain ⟨hend, hendRef⟩ := not_or.mp hend
    refine ⟨⟨hlinks, fun y hy heq => hcoll ⟨y, hy, heq⟩, fun x hx heq => hrow ⟨x, hx, heq⟩,
      fun y hy heq => hprov ⟨y, hy, heq⟩, href, fun s hs heq hin => hsla ⟨s, hs, heq, hin⟩,
      fun z hz hne heq => hend ⟨z, ?_, heq⟩, fun e he hin => hendRef ⟨e, he, hin⟩⟩, rfl⟩
    exact List.mem_filter.mpr ⟨hz, decide_eq_true hne⟩
  · rintro ⟨h, rfl⟩
    refine bind_eq_ok.mpr ⟨_, returning_eq_ok.mpr ⟨h.links, rfl⟩, ?_⟩
    refine bind_unit_eq_ok.mpr ⟨raiseIf_eq_ok.mpr ?_, ?_⟩
    · rintro ⟨y, hy, heq⟩
      exact h.collection y hy heq
    refine bind_unit_eq_ok.mpr ⟨raiseIf_eq_ok.mpr ?_, ?_⟩
    · rintro (⟨x, hx, heq⟩ | ⟨y, hy, heq⟩ | hin)
      · exact h.row x hx heq
      · exact h.provider y hy heq
      · exact h.providerRef hin
    refine bind_unit_eq_ok.mpr ⟨raiseIf_eq_ok.mpr ?_, ?_⟩
    · rintro ⟨s, hs, heq, hin⟩
      exact h.sla s hs heq hin
    refine bind_unit_eq_ok.mpr ⟨raiseIf_eq_ok.mpr ?_, rfl⟩
    rintro (⟨z, hz, heq⟩ | ⟨e, he, hin⟩)
    · obtain ⟨hz, hne⟩ := List.mem_filter.mp hz
      exact h.endpoint z hz (of_decide_eq_true hne) heq
    · exact h.endpointRef e he hin

/-- Without the row. -/
def withoutRow (db : Db) (r : ProviderInstance) : Db :=
  { db with providerInstance := db.providerInstance.filter (·.id ≠ r.id) }

/-- The links of the provider that go with the row. -/
def unlinks (db : Db) (r : ProviderInstance) : List CollectionProvider :=
  unlinked (withoutRow db r) r.serviceEndpointProviderId

/-- Without the row, and without these links. -/
def afterUnlink (db : Db) (r : ProviderInstance) : Db :=
  { withoutRow db r with
    collectionProvider := db.collectionProvider.filter (· ∉ unlinks db r) }

/-- Without the rows of the instance for the provider. -/
def withoutMember (db : Db) (i p : ℕ) : Db :=
  { db with
    providerInstance := db.providerInstance.filter fun x =>
      ¬ (x.serviceEndpointProviderId = p ∧ x.serviceInstanceId = i) }

/-- The row of `service_endpoint_provider`. -/
def findProvider (db : Db) (p : ℕ) : Option Provider :=
  db.provider.find? (·.serviceEndpointProviderId = p)

/-- The collection of the first link that goes. -/
def collOf (db : Db) (r : ProviderInstance) : Option ℕ :=
  (unlinks db r).head?.map CollectionProvider.serviceEndpointProviderCollectionId

variable {sep : Provider} {y y' : CollectionProvider} {x : ProviderInstance}

theorem serviceEndpointProviderId_of_find (h : findProvider db p = some sep) :
    sep ∈ db.provider ∧ sep.serviceEndpointProviderId = p :=
  Library.of_find?_eq_some h

theorem removeRow_none (h : findProvider db r.serviceEndpointProviderId = none) :
    removeRow i db r = .ok db' ↔ (unlinks db r).length ≤ 1 ∧ db' = afterUnlink db r := by
  unfold removeRow
  rw [show db.provider.find? (·.serviceEndpointProviderId = r.serviceEndpointProviderId) = none
    from h, bind_eq_ok]
  constructor
  · rintro ⟨o, ho, hok⟩
    exact ⟨(returning_eq_ok.mp ho).1, (Except.ok.inj hok).symm⟩
  · rintro ⟨hlen, rfl⟩
    exact ⟨_, returning_eq_ok.mpr ⟨hlen, rfl⟩, rfl⟩

theorem removeRow_muxed (h : findProvider db r.serviceEndpointProviderId = some sep)
    (hsep : sep.serviceEndpointProviderType ≠ "direct") :
    removeRow i db r = .ok db' ↔ (unlinks db r).length ≤ 1 ∧
      db' = withoutMember (afterUnlink db r) i r.serviceEndpointProviderId := by
  obtain ⟨-, hid⟩ := serviceEndpointProviderId_of_find h
  unfold removeRow
  rw [show db.provider.find? (·.serviceEndpointProviderId = r.serviceEndpointProviderId) = some sep
    from h, bind_eq_ok]
  dsimp only
  simp only [if_neg hsep, hid]
  constructor
  · rintro ⟨o, ho, hok⟩
    exact ⟨(returning_eq_ok.mp ho).1, (Except.ok.inj hok).symm⟩
  · rintro ⟨hlen, rfl⟩
    exact ⟨_, returning_eq_ok.mpr ⟨hlen, rfl⟩, rfl⟩

theorem removeRow_direct (h : findProvider db r.serviceEndpointProviderId = some sep)
    (hsep : sep.serviceEndpointProviderType = "direct") :
    removeRow i db r = .ok db' ↔ (unlinks db r).length ≤ 1 ∧
      Fits (afterUnlink db r) r.serviceEndpointProviderId (collOf db r) ∧
        db' = withoutDirect (afterUnlink db r) r.serviceEndpointProviderId (collOf db r) := by
  obtain ⟨-, hid⟩ := serviceEndpointProviderId_of_find h
  unfold removeRow
  rw [show db.provider.find? (·.serviceEndpointProviderId = r.serviceEndpointProviderId) = some sep
    from h, bind_eq_ok]
  dsimp only
  simp only [if_pos hsep, hid]
  constructor
  · rintro ⟨o, ho, hok⟩
    obtain ⟨hlen, rfl⟩ := returning_eq_ok.mp ho
    exact ⟨hlen, removeDirect_eq_ok.mp hok⟩
  · rintro ⟨hlen, hok⟩
    exact ⟨_, returning_eq_ok.mpr ⟨hlen, rfl⟩, removeDirect_eq_ok.mpr hok⟩

/-! ## What goes -/

/-- The rows of the provider that are left. -/
def leftOf (db : Db) (r : ProviderInstance) : List ProviderInstance :=
  (withoutRow db r).providerInstance.filter
    (·.serviceEndpointProviderId = r.serviceEndpointProviderId)

theorem mem_unlinks : y ∈ unlinks db r ↔ (leftOf db r).length ≤ 1 ∧
    y ∈ db.collectionProvider ∧ y.serviceEndpointProviderId = r.serviceEndpointProviderId := by
  show y ∈ ite (1 < (leftOf db r).length) _ _ ↔ _
  split
  · next h => exact iff_of_false List.not_mem_nil fun h' => absurd h'.1 (Nat.not_le.mpr h)
  · next h =>
    rw [List.mem_filter, decide_eq_true_iff]
    exact ⟨fun hy => ⟨Nat.not_lt.mp h, hy⟩, And.right⟩

theorem unlinks_sublist : (unlinks db r).Sublist db.collectionProvider := by
  show List.Sublist (ite (1 < (leftOf db r).length) _ _) _
  split
  · exact List.nil_sublist _
  · exact List.filter_sublist

theorem mem_afterUnlink :
    y ∈ (afterUnlink db r).collectionProvider ↔ y ∈ db.collectionProvider ∧ y ∉ unlinks db r := by
  show y ∈ db.collectionProvider.filter _ ↔ _
  rw [List.mem_filter, decide_eq_true_iff]

theorem exists_of_collOf {c : ℕ} (h : collOf db r = some c) :
    ∃ y ∈ unlinks db r, y.serviceEndpointProviderCollectionId = c := by
  obtain ⟨y, hy, hc⟩ := Option.map_eq_some_iff.mp h
  exact ⟨y, List.mem_of_mem_head? hy, hc⟩

theorem exists_of_endpointOf {e : ℕ} (h : endpointOf db coll = some e) :
    ∃ z ∈ db.endpointCollection, some z.serviceEndpointProviderCollectionId = coll ∧
      z.serviceEndpointId = e := by
  obtain ⟨z, hz, he⟩ := Option.map_eq_some_iff.mp h
  obtain ⟨hz, hcoll⟩ := List.mem_filter.mp (List.mem_of_mem_head? hz)
  exact ⟨z, hz, of_decide_eq_true hcoll, he⟩

/-! ## The loop -/

/-- Between the turns of the loop, with the rows that are still to come. -/
structure Progress (db₀ : Db) (i : ℕ) (l : List ProviderInstance) (db : Db) : Prop where
  mem : ∀ r ∈ l, r ∈ rowsOf db₀ i
  others : db.providerInstance.filter (·.serviceInstanceId ≠ i) =
    db₀.providerInstance.filter (·.serviceInstanceId ≠ i)
  rest : ∀ x ∈ db.providerInstance, x.serviceInstanceId = i → x ∈ l
  rows : ∀ x ∈ db.providerInstance, x ∈ db₀.providerInstance
  collectionProvider : db.collectionProvider.Sublist db₀.collectionProvider
  endpointCollection : db.endpointCollection.Sublist db₀.endpointCollection
  provider : ∀ p ∈ db.provider, p ∈ db₀.provider
  endpointSla : ∀ s ∈ db.endpointSla, s ∈ db₀.endpointSla
  references : db.references = db₀.references
  instances : db.serviceInstance = db₀.serviceInstance
  linked : ∀ y ∈ db₀.collectionProvider, ¬ GoesUnlinked db₀ i y.serviceEndpointProviderId →
    y ∈ db.collectionProvider
  ends : ∀ z ∈ db₀.endpointCollection,
    (∀ r ∈ rowsOf db₀ i, IsDirect db₀ r.serviceEndpointProviderId → ∀ y ∈ db₀.collectionProvider,
      y.serviceEndpointProviderId = r.serviceEndpointProviderId →
        z.serviceEndpointProviderCollectionId ≠ y.serviceEndpointProviderCollectionId) →
    z ∈ db.endpointCollection
  lostProvider : ∀ p ∈ db₀.provider, p ∉ db.provider → ∃ r ∈ rowsOf db₀ i,
    IsDirect db₀ r.serviceEndpointProviderId ∧
      p.serviceEndpointProviderId = r.serviceEndpointProviderId
  lostCollection : ∀ c ∈ db₀.providerCollection, c ∉ db.providerCollection → ∃ r ∈ rowsOf db₀ i,
    IsDirect db₀ r.serviceEndpointProviderId ∧
      ⟨c, r.serviceEndpointProviderId⟩ ∈ db₀.collectionProvider
  lostEndpoint : ∀ e ∈ db₀.serviceEndpoint, e ∉ db.serviceEndpoint → ∃ r ∈ rowsOf db₀ i,
    IsDirect db₀ r.serviceEndpointProviderId ∧ Through db₀ r.serviceEndpointProviderId e

theorem mem_rowsOf : r ∈ rowsOf db i ↔ r ∈ db.providerInstance ∧ r.serviceInstanceId = i := by
  rw [rowsOf, List.mem_filter, decide_eq_true_iff]

theorem others_eq (db : Db) (i p : ℕ) : others db i p =
    (db.providerInstance.filter (·.serviceInstanceId ≠ i)).filter
      (·.serviceEndpointProviderId = p) := by
  rw [others, List.filter_filter]
  refine List.filter_congr fun x _ => ?_
  rw [Bool.decide_and]

theorem Progress.length_others (h : Progress db₀ i l db) (p : ℕ) :
    (Service.others db i p).length = (Service.others db₀ i p).length := by
  rw [others_eq, h.others, ← others_eq]

section

variable (hk : Keys db₀) (h : Progress db₀ i (r :: l) db)
include hk h

theorem Progress.id_ne (hx : x ∈ db.providerInstance) (hxi : x.serviceInstanceId ≠ i) :
    x.id ≠ r.id := by
  obtain ⟨hr, hri⟩ := mem_rowsOf.mp (h.mem r List.mem_cons_self)
  intro hid
  have heq := List.inj_on_of_nodup_map hk.providerInstance (h.rows x hx) hr hid
  exact hxi (heq ▸ hri)

theorem Progress.goesUnlinked (hleft : (leftOf db r).length ≤ 1) :
    GoesUnlinked db₀ i r.serviceEndpointProviderId := by
  refine ⟨⟨r, h.mem r List.mem_cons_self, rfl⟩, ?_⟩
  rw [← h.length_others, Service.others, ← List.countP_eq_length_filter]
  rw [leftOf, withoutRow, List.filter_filter, ← List.countP_eq_length_filter] at hleft
  refine Nat.le_trans (List.countP_mono_left fun x hx hxo => ?_) hleft
  obtain ⟨hp, hxi⟩ := of_decide_eq_true hxo
  simpa [hp] using h.id_ne hk hx hxi

theorem progress_afterUnlink :
    Progress db₀ i l (afterUnlink db r) := by
  have hrow : ∀ x ∈ (afterUnlink db r).providerInstance, x ∈ db.providerInstance ∧ x.id ≠ r.id :=
    fun x hx => by simpa [afterUnlink, withoutRow] using hx
  refine { h with
    mem := fun x hx => h.mem x (List.mem_cons_of_mem r hx)
    others := ?_
    rest := fun x hx hxi => ?_
    rows := fun x hx => h.rows x (hrow x hx).1
    collectionProvider := List.filter_sublist.trans h.collectionProvider
    linked := fun y hy hgoes => ?_ }
  · rw [← h.others]
    show (db.providerInstance.filter _).filter _ = _
    rw [List.filter_filter]
    refine List.filter_congr fun x hx => ?_
    by_cases hxi : x.serviceInstanceId = i
    · simp [hxi]
    · simp [hxi, h.id_ne hk hx hxi]
  · obtain ⟨hx, hid⟩ := hrow x hx
    refine (List.mem_cons.mp (h.rest x hx hxi)).resolve_left fun heq => hid ?_
    rw [heq]
  · refine mem_afterUnlink.mpr ⟨h.linked y hy hgoes, fun hmem => hgoes ?_⟩
    obtain ⟨hleft, -, hp⟩ := mem_unlinks.mp hmem
    rw [hp]
    exact h.goesUnlinked hk hleft

end

theorem progress_withoutMember (h : Progress db₀ i l db) (p : ℕ) :
    Progress db₀ i l (withoutMember db i p) := by
  have hrow : ∀ x ∈ (withoutMember db i p).providerInstance, x ∈ db.providerInstance :=
    fun x hx => (List.mem_filter.mp hx).1
  refine { h with
    others := ?_
    rest := fun x hx => h.rest x (hrow x hx)
    rows := fun x hx => h.rows x (hrow x hx) }
  rw [← h.others]
  show (db.providerInstance.filter _).filter _ = _
  rw [List.filter_filter]
  refine List.filter_congr fun x hx => ?_
  by_cases hxi : x.serviceInstanceId = i
  · simp [hxi]
  · simp [hxi]

theorem progress_withoutDirect (h : Progress db₀ i l db) (hr : r ∈ rowsOf db₀ i)
    (hdirect : IsDirect db₀ r.serviceEndpointProviderId)
    (hcoll : ∀ c ∈ coll, ⟨c, r.serviceEndpointProviderId⟩ ∈ db₀.collectionProvider) :
    Progress db₀ i l (withoutDirect db r.serviceEndpointProviderId coll) := by
  refine { h with
    endpointCollection := List.filter_sublist.trans h.endpointCollection
    provider := fun q hq => h.provider q (List.mem_filter.mp hq).1
    endpointSla := fun s hs => h.endpointSla s (List.mem_filter.mp hs).1
    ends := fun z hz hfar => ?_
    lostProvider := fun q hq hlost => ?_
    lostCollection := fun c hc hlost => ?_
    lostEndpoint := fun e he hlost => ?_ }
  · refine List.mem_filter.mpr ⟨h.ends z hz hfar, decide_eq_true fun heq => ?_⟩
    exact hfar r hr hdirect _ (hcoll _ heq.symm) rfl rfl
  · by_cases hin : q ∈ db.provider
    · refine ⟨r, hr, hdirect, ?_⟩
      by_contra hne
      exact hlost (List.mem_filter.mpr ⟨hin, decide_eq_true hne⟩)
    · exact h.lostProvider q hq hin
  · by_cases hin : c ∈ db.providerCollection
    · refine ⟨r, hr, hdirect, hcoll c ?_⟩
      by_contra hne
      exact hlost (List.mem_filter.mpr ⟨hin, decide_eq_true (Ne.symm hne)⟩)
    · exact h.lostCollection c hc hin
  · by_cases hin : e ∈ db.serviceEndpoint
    · have hend : endpointOf db coll = some e := by
        by_contra hne
        exact hlost (List.mem_filter.mpr ⟨hin, decide_eq_true (Ne.symm hne)⟩)
      obtain ⟨z, hz, hzcoll, hze⟩ := exists_of_endpointOf hend
      exact ⟨r, hr, hdirect, _, hcoll _ hzcoll.symm, rfl, z, h.endpointCollection.subset hz, rfl, hze⟩
    · exact h.lostEndpoint e he hin

theorem Progress.length_unlinks (hk : Keys db₀) (hrem : Removable db₀ i)
    (h : Progress db₀ i (r :: l) db) : (unlinks db r).length ≤ 1 := by
  have hsub : (unlinks db r).Sublist db₀.collectionProvider :=
    unlinks_sublist.trans h.collectionProvider
  rw [length_le_one_iff (hk.collectionProvider.sublist hsub)]
  intro y hy y' hy'
  obtain ⟨hleft, -, hp⟩ := mem_unlinks.mp hy
  exact hrem.single _ (h.goesUnlinked hk hleft) y (hsub.subset hy) hp y' (hsub.subset hy')
    (mem_unlinks.mp hy').2.2

/-- A direct provider that serves nothing else can be deleted. -/
theorem Progress.fits (hk : Keys db₀) (h : Progress db₀ i (r :: l) db) (ha : Alone db₀ r) :
    Fits (afterUnlink db r) r.serviceEndpointProviderId (collOf db r) := by
  have hrows : ∀ x ∈ (afterUnlink db r).providerInstance,
      x.serviceEndpointProviderId ≠ r.serviceEndpointProviderId := by
    intro x hx hp
    obtain ⟨hx, hid⟩ : x ∈ db.providerInstance ∧ x.id ≠ r.id := by
      simpa [afterUnlink, withoutRow] using hx
    exact hid (by rw [ha.row x (h.rows x hx) hp])
  have hleft : (leftOf db r).length ≤ 1 := by
    have hnil : leftOf db r = [] := by
      refine List.filter_eq_nil_iff.mpr fun x hx hp => hrows x hx (of_decide_eq_true hp)
    rw [hnil]
    exact Nat.zero_le 1
  -- the link that goes, and the links of its collection
  have hcoll : ∀ c, collOf db r = some c → ∃ y ∈ db₀.collectionProvider, y ∈ unlinks db r ∧
      y.serviceEndpointProviderId = r.serviceEndpointProviderId ∧
        y.serviceEndpointProviderCollectionId = c := by
    intro c hc
    obtain ⟨y, hy, hyc⟩ := exists_of_collOf hc
    obtain ⟨-, hmem, hp⟩ := mem_unlinks.mp hy
    exact ⟨y, h.collectionProvider.subset hmem, hy, hp, hyc⟩
  have hthrough : ∀ e, endpointOf (afterUnlink db r) (collOf db r) = some e →
      ∃ y ∈ db₀.collectionProvider, y.serviceEndpointProviderId = r.serviceEndpointProviderId ∧
        collOf db r = some y.serviceEndpointProviderCollectionId ∧
          ∃ z ∈ db₀.endpointCollection, z.serviceEndpointProviderCollectionId =
            y.serviceEndpointProviderCollectionId ∧ z.serviceEndpointId = e := by
    intro e he
    obtain ⟨z, hz, hzc, hze⟩ := exists_of_endpointOf he
    obtain ⟨y, hy, -, hp, hyc⟩ := hcoll _ hzc.symm
    exact ⟨y, hy, hp, by rw [hyc, hzc], z, h.endpointCollection.subset hz, hyc.symm, hze⟩
  constructor
  · have hsub : (linksOf (afterUnlink db r) (collOf db r)).Sublist db₀.endpointCollection :=
      List.filter_sublist.trans h.endpointCollection
    rw [length_le_one_iff (hk.endpointCollection.sublist hsub)]
    intro z hz z' hz'
    have hzc := of_decide_eq_true (List.mem_filter.mp hz).2
    have hzc' := of_decide_eq_true (List.mem_filter.mp hz').2
    obtain ⟨y, hy, -, hp, hyc⟩ := hcoll _ hzc.symm
    refine ha.endpoint y hy hp z (hsub.subset hz) hyc.symm z' (hsub.subset hz') (.inl ?_)
    exact (Option.some.inj (hzc'.trans hzc.symm)).trans hyc.symm
  · intro y' hy' heq
    obtain ⟨hy', hnot⟩ := mem_afterUnlink.mp hy'
    obtain ⟨y, hy, hgoes, hp, hyc⟩ := hcoll _ heq.symm
    have hsame := ha.collection y hy hp y' (h.collectionProvider.subset hy') hyc.symm
    exact hnot (hsame ▸ hgoes)
  · exact hrows
  · intro y hy hp
    obtain ⟨hy, hnot⟩ := mem_afterUnlink.mp hy
    exact hnot (mem_unlinks.mpr ⟨hleft, hy, hp⟩)
  · rw [show (afterUnlink db r).references = db₀.references from h.references]
    exact ha.providerRef
  · intro s hs he
    obtain ⟨y, hy, hp, -, z, hz⟩ := hthrough _ he.symm
    rw [show (afterUnlink db r).references = db₀.references from h.references]
    exact (ha.endpointRef _ ⟨y, hy, hp, z, hz⟩).2 s (h.endpointSla s hs) rfl
  · intro z' hz' hne he
    obtain ⟨y, hy, hp, hyc, z, hz, hzc, hze⟩ := hthrough _ he.symm
    have hsame := ha.endpoint y hy hp z hz hzc z' (h.endpointCollection.subset hz') (.inr hze.symm)
    exact hne (by rw [hsame, hzc, hyc])
  · intro e he
    obtain ⟨y, hy, hp, -, z, hz⟩ := hthrough _ he
    rw [show (afterUnlink db r).references = db₀.references from h.references]
    exact (ha.endpointRef e ⟨y, hy, hp, z, hz⟩).1

theorem progress_removeRow (hk : Keys db₀) (hrem : Removable db₀ i)
    (h : Progress db₀ i (r :: l) db) :
    ∃ db', removeRow i db r = .ok db' ∧ Progress db₀ i l db' := by
  have hlen := h.length_unlinks hk hrem
  have hafter := progress_afterUnlink hk h
  have hr := h.mem r List.mem_cons_self
  cases hfind : findProvider db r.serviceEndpointProviderId with
  | none => exact ⟨_, (removeRow_none hfind).mpr ⟨hlen, rfl⟩, hafter⟩
  | some sep =>
    obtain ⟨hsep, hid⟩ := serviceEndpointProviderId_of_find hfind
    by_cases htype : sep.serviceEndpointProviderType = "direct"
    · have hdirect : IsDirect db₀ r.serviceEndpointProviderId :=
        ⟨sep, h.provider sep hsep, hid, htype⟩
      have hfits := h.fits hk (hrem.direct r hr hdirect)
      refine ⟨_, (removeRow_direct hfind htype).mpr ⟨hlen, hfits, rfl⟩,
        progress_withoutDirect hafter hr hdirect fun c hc => ?_⟩
      obtain ⟨y, hy, hyc⟩ := exists_of_collOf hc
      obtain ⟨-, hmem, hp⟩ := mem_unlinks.mp hy
      rw [← hyc, ← hp]
      exact h.collectionProvider.subset hmem
    · exact ⟨_, (removeRow_muxed hfind htype).mpr ⟨hlen, rfl⟩, progress_withoutMember hafter _⟩

theorem progress_start (hrows : rows.Perm (rowsOf db i)) : Progress db i rows db where
  mem := fun _ hr => hrows.mem_iff.mp hr
  others := rfl
  rest := fun _ hx hxi => hrows.mem_iff.mpr (mem_rowsOf.mpr ⟨hx, hxi⟩)
  rows := fun _ hx => hx
  collectionProvider := .refl _
  endpointCollection := .refl _
  provider := fun _ hp => hp
  endpointSla := fun _ hs => hs
  references := rfl
  instances := rfl
  linked := fun _ hy _ => hy
  ends := fun _ hz _ => hz
  lostProvider := fun _ hp hlost => absurd hp hlost
  lostCollection := fun _ hc hlost => absurd hc hlost
  lostEndpoint := fun _ he hlost => absurd he hlost

/-- A provider that serves nothing else is used by no other instance. -/
theorem Alone.not_usedByOther (ha : Alone db r) (hr : r ∈ rowsOf db i) :
    ¬ UsedByOther db i r.serviceEndpointProviderId := by
  rintro ⟨x, hx, hp, hxi⟩
  rw [ha.row x hx hp] at hxi
  exact hxi (mem_rowsOf.mp hr).2

/-- The way over a provider that keeps its links is still there. -/
theorem Progress.reaches (hrem : Removable db₀ i) (h : Progress db₀ i [] db) {e : ℕ}
    (hx : x ∈ db₀.providerInstance) (hxi : x.serviceInstanceId ≠ i)
    (hstays : ¬ GoesUnlinked db₀ i x.serviceEndpointProviderId)
    (he : Through db₀ x.serviceEndpointProviderId e) : Reaches db x.serviceInstanceId e := by
  obtain ⟨y, hy, hyp, z, hz, hzc, hze⟩ := he
  have hmem : x ∈ db.providerInstance.filter (·.serviceInstanceId ≠ i) := by
    rw [h.others]
    exact List.mem_filter.mpr ⟨hx, decide_eq_true hxi⟩
  refine ⟨x, (List.mem_filter.mp hmem).1, rfl, y, h.linked y hy (hyp ▸ hstays), hyp, z,
    h.ends z hz fun r hr hdirect y' hy' hyp' hcoll => ?_, hzc, hze⟩
  have ha := hrem.direct r hr hdirect
  have hsame := ha.collection y' hy' hyp' y hy (hzc.symm.trans hcoll)
  exact ha.not_usedByOther hr ⟨x, hx, by rw [← hyp, hsame, hyp'], hxi⟩

theorem removes_of_removable (hk : Keys db) (hrem : Removable db i)
    (hrows : rows.Perm (rowsOf db i)) : Removes rows db i := by
  obtain ⟨db', hloop, h⟩ := foldlM_rest
    (fun r l db' (h : Progress db i (r :: l) db') => progress_removeRow hk hrem h)
    (progress_start hrows)
  refine ⟨{ db' with serviceInstance := db'.serviceInstance.filter (· ≠ i) }, ?_, ?_, ?_, ?_⟩
  · refine bind_eq_ok.mpr ⟨db', hloop, bind_unit_eq_ok.mpr ⟨raiseIf_eq_ok.mpr ?_, rfl⟩⟩
    rintro ⟨hi, ⟨x, hx, hxi⟩ | href⟩
    · exact absurd (h.rest x hx hxi) List.not_mem_nil
    · rw [h.references] at href
      exact hrem.instanceRef (h.instances ▸ hi) href
  · simp
  · rintro j hj e ⟨x, hx, rfl, he⟩
    by_cases hgoes : GoesUnlinked db i x.serviceEndpointProviderId
    · obtain ⟨x', hx', hsame, hstays, he'⟩ := hrem.other x hx hj hgoes e he
      exact hsame ▸ h.reaches hrem hx' (hsame ▸ hj) hstays he'
    · exact h.reaches hrem hx hj hgoes he
  · constructor
    · intro p hp hlost
      obtain ⟨r, hr, hdirect, hid⟩ := h.lostProvider p hp hlost
      refine ⟨?_, hid ▸ (hrem.direct r hr hdirect).not_usedByOther hr⟩
      obtain ⟨q, hq, hqid, htype⟩ := hdirect
      rwa [List.inj_on_of_nodup_map hk.provider hp hq (hid.trans hqid.symm)]
    · intro c hc hlost
      obtain ⟨r, hr, hdirect, hmem⟩ := h.lostCollection c hc hlost
      exact ⟨_, hdirect, (hrem.direct r hr hdirect).not_usedByOther hr, hmem⟩
    · intro e he hlost
      obtain ⟨r, hr, hdirect, hthrough⟩ := h.lostEndpoint e he hlost
      exact ⟨_, hdirect, (hrem.direct r hr hdirect).not_usedByOther hr, hthrough⟩

/-! ## The other direction -/

structure Shrinks (db db' : Db) : Prop where
  providerInstance : db'.providerInstance.Sublist db.providerInstance
  collectionProvider : db'.collectionProvider.Sublist db.collectionProvider
  endpointCollection : db'.endpointCollection.Sublist db.endpointCollection
  provider : db'.provider.Sublist db.provider
  references : db'.references = db.references
  instances : db'.serviceInstance = db.serviceInstance

theorem Shrinks.refl (db : Db) : Shrinks db db := ⟨.refl _, .refl _, .refl _, .refl _, rfl, rfl⟩

theorem Shrinks.trans (h : Shrinks db₀ db) (h' : Shrinks db db') : Shrinks db₀ db' where
  providerInstance := h'.providerInstance.trans h.providerInstance
  collectionProvider := h'.collectionProvider.trans h.collectionProvider
  endpointCollection := h'.endpointCollection.trans h.endpointCollection
  provider := h'.provider.trans h.provider
  references := h'.references.trans h.references
  instances := h'.instances.trans h.instances

theorem shrinks_afterUnlink : Shrinks db (afterUnlink db r) :=
  ⟨List.filter_sublist, List.filter_sublist, .refl _, .refl _, rfl, rfl⟩

theorem removeRow_cases (h : removeRow i db r = .ok db') : (unlinks db r).length ≤ 1 ∧
    ((findProvider db r.serviceEndpointProviderId = none ∧ db' = afterUnlink db r) ∨
      ∃ sep, findProvider db r.serviceEndpointProviderId = some sep ∧
        ((sep.serviceEndpointProviderType = "direct" ∧
            Fits (afterUnlink db r) r.serviceEndpointProviderId (collOf db r) ∧
            db' = withoutDirect (afterUnlink db r) r.serviceEndpointProviderId (collOf db r)) ∨
          (sep.serviceEndpointProviderType ≠ "direct" ∧
            db' = withoutMember (afterUnlink db r) i r.serviceEndpointProviderId))) := by
  cases hfind : findProvider db r.serviceEndpointProviderId with
  | none =>
    obtain ⟨hlen, heq⟩ := (removeRow_none hfind).mp h
    exact ⟨hlen, .inl ⟨rfl, heq⟩⟩
  | some sep =>
    by_cases htype : sep.serviceEndpointProviderType = "direct"
    · obtain ⟨hlen, hfits, heq⟩ := (removeRow_direct hfind htype).mp h
      exact ⟨hlen, .inr ⟨sep, rfl, .inl ⟨htype, hfits, heq⟩⟩⟩
    · obtain ⟨hlen, heq⟩ := (removeRow_muxed hfind htype).mp h
      exact ⟨hlen, .inr ⟨sep, rfl, .inr ⟨htype, heq⟩⟩⟩

theorem shrinks_removeRow (h : removeRow i db r = .ok db') : Shrinks db db' := by
  obtain ⟨-, ⟨-, rfl⟩ | ⟨sep, -, ⟨-, -, rfl⟩ | ⟨-, rfl⟩⟩⟩ := removeRow_cases h
  · exact shrinks_afterUnlink
  · exact shrinks_afterUnlink.trans
      ⟨.refl _, .refl _, List.filter_sublist, List.filter_sublist, rfl, rfl⟩
  · exact shrinks_afterUnlink.trans ⟨List.filter_sublist, .refl _, .refl _, .refl _, rfl, rfl⟩

theorem findProvider_of_mem (hk : (db.provider.map
    (·.serviceEndpointProviderId)).Nodup) (hsep : sep ∈ db.provider) :
    findProvider db sep.serviceEndpointProviderId = some sep :=
  Library.find?_key hk hsep

/-- When two rows of a provider are left, one of them is of the instance itself, if there is no more
than one of others. -/
theorem exists_left (hpi : db.providerInstance.Sublist db₀.providerInstance)
    (hothers : (others db₀ i r.serviceEndpointProviderId).length ≤ 1)
    (hleft : ¬ (leftOf db r).length ≤ 1) : ∃ x ∈ db.providerInstance, x.id ≠ r.id ∧
      x.serviceEndpointProviderId = r.serviceEndpointProviderId ∧ x.serviceInstanceId = i := by
  by_contra hnone
  refine hleft (Nat.le_trans (List.Sublist.length_le ?_) hothers)
  have hall : leftOf db r = (withoutRow db r).providerInstance.filter fun x =>
      x.serviceEndpointProviderId = r.serviceEndpointProviderId ∧ x.serviceInstanceId ≠ i := by
    refine List.filter_congr fun x hx => decide_eq_decide.mpr ⟨fun hp => ⟨hp, fun hxi => ?_⟩, And.left⟩
    obtain ⟨hx, hid⟩ := List.mem_filter.mp hx
    exact hnone ⟨x, hx, of_decide_eq_true hid, hp, hxi⟩
  rw [hall]
  exact (List.filter_sublist.trans hpi).filter _

/-- All links of the provider go, and there is no more than one. -/
theorem eq_of_unlinks (hk : db.collectionProvider.Nodup) (hlen : (unlinks db r).length ≤ 1)
    (hleft : (leftOf db r).length ≤ 1) (hy : y ∈ db.collectionProvider)
    (hp : y.serviceEndpointProviderId = r.serviceEndpointProviderId)
    (hy' : y' ∈ db.collectionProvider)
    (hp' : y'.serviceEndpointProviderId = r.serviceEndpointProviderId) : y' = y :=
  (length_le_one_iff (hk.sublist unlinks_sublist)).mp hlen y (mem_unlinks.mpr ⟨hleft, hy, hp⟩) y'
    (mem_unlinks.mpr ⟨hleft, hy', hp'⟩)

/-- A direct provider that can be deleted serves nothing else. -/
theorem alone_of_removeRow (hk : Keys db) (hr : r ∈ rowsOf db i)
    (hdirect : IsDirect db r.serviceEndpointProviderId) (h : removeRow i db r = .ok db') :
    Alone db r := by
  obtain ⟨sep, hsep, hid, htype⟩ := hdirect
  have hfind := findProvider_of_mem hk.provider hsep
  rw [hid] at hfind
  obtain ⟨hlen, hfits, -⟩ := (removeRow_direct hfind htype).mp h
  obtain ⟨hr, -⟩ := mem_rowsOf.mp hr
  have hrow : ∀ x ∈ db.providerInstance,
      x.serviceEndpointProviderId = r.serviceEndpointProviderId → x = r := by
    intro x hx hp
    by_contra hne
    refine hfits.row x (List.mem_filter.mpr ⟨hx, decide_eq_true fun hxid => hne ?_⟩) hp
    exact List.inj_on_of_nodup_map hk.providerInstance hx hr hxid
  have hleft : (leftOf db r).length ≤ 1 := by
    have hnil : leftOf db r = [] := by
      refine List.filter_eq_nil_iff.mpr fun x hx hp => ?_
      obtain ⟨hx, hxid⟩ := List.mem_filter.mp hx
      exact of_decide_eq_true hxid (by rw [hrow x hx (of_decide_eq_true hp)])
    rw [hnil]
    exact Nat.zero_le 1
  have hcoll : ∀ y ∈ db.collectionProvider,
      y.serviceEndpointProviderId = r.serviceEndpointProviderId →
        unlinks db r = [y] ∧ collOf db r = some y.serviceEndpointProviderCollectionId := by
    intro y hy hp
    have hmem := mem_unlinks.mpr ⟨hleft, hy, hp⟩
    have hone := eq_singleton hlen hmem
    exact ⟨hone, by rw [collOf, hone]; rfl⟩
  have hlinks : ∀ y ∈ db.collectionProvider,
      y.serviceEndpointProviderId = r.serviceEndpointProviderId → ∀ z ∈ db.endpointCollection,
        z.serviceEndpointProviderCollectionId = y.serviceEndpointProviderCollectionId →
          z ∈ linksOf (afterUnlink db r) (collOf db r) := by
    intro y hy hp z hz hzc
    rw [(hcoll y hy hp).2]
    exact List.mem_filter.mpr ⟨hz, decide_eq_true (congrArg some hzc)⟩
  have hsame : ∀ z ∈ linksOf (afterUnlink db r) (collOf db r),
      ∀ z' ∈ linksOf (afterUnlink db r) (collOf db r), z' = z :=
    (length_le_one_iff (hk.endpointCollection.sublist List.filter_sublist)).mp hfits.links
  have hend : ∀ z ∈ linksOf (afterUnlink db r) (collOf db r),
      endpointOf (afterUnlink db r) (collOf db r) = some z.serviceEndpointId := by
    intro z hz
    rw [endpointOf, eq_singleton hfits.links hz]
    rfl
  constructor
  · exact hrow
  · intro y hy hp y' hy' hc
    by_contra hne
    refine hfits.collection y' (mem_afterUnlink.mpr ⟨hy', fun hmem => hne ?_⟩) ?_
    · rw [(hcoll y hy hp).1] at hmem
      exact List.mem_singleton.mp hmem
    · rw [(hcoll y hy hp).2, hc]
  · intro y hy hp z hz hzc z' hz' hor
    have hzlink := hlinks y hy hp z hz hzc
    by_cases hzc' : z'.serviceEndpointProviderCollectionId = y.serviceEndpointProviderCollectionId
    · exact hsame z hzlink z' (hlinks y hy hp z' hz' hzc')
    · refine absurd ?_ (hfits.endpoint z' hz' ?_)
      · rw [hor.resolve_left hzc', hend z hzlink]
      · rw [(hcoll y hy hp).2]
        exact fun heq => hzc' (Option.some.inj heq)
  · exact hfits.providerRef
  · rintro e ⟨y, hy, hp, z, hz, hzc, rfl⟩
    have hzend := hend z (hlinks y hy hp z hz hzc)
    refine ⟨hfits.endpointRef _ hzend, fun s hs hse => hfits.sla s hs ?_⟩
    rw [hse, hzend]

/-- A provider that is not direct, while its links are still to go: they are gone, or none of the
rows of the instance has come, or none of them is left but one is still to come. -/
def Pending (db₀ : Db) (i p : ℕ) (l : List ProviderInstance) (db : Db) : Prop :=
  (∀ y ∈ db.collectionProvider, y.serviceEndpointProviderId ≠ p) ∨
    (∀ r ∈ rowsOf db₀ i, r.serviceEndpointProviderId = p → r ∈ l) ∨
      (∀ x ∈ db.providerInstance, x.serviceEndpointProviderId = p → x.serviceInstanceId ≠ i) ∧
        ∃ r ∈ l, r.serviceEndpointProviderId = p

theorem mem_provider_removeRow (hk : (db.provider.map
    (·.serviceEndpointProviderId)).Nodup) (hsep : sep ∈ db.provider)
    (htype : sep.serviceEndpointProviderType ≠ "direct") (h : removeRow i db r = .ok db') :
    sep ∈ db'.provider := by
  obtain ⟨-, ⟨-, rfl⟩ | ⟨sep', hfind, ⟨htype', -, rfl⟩ | ⟨-, rfl⟩⟩⟩ := removeRow_cases h
  · exact hsep
  · refine List.mem_filter.mpr ⟨hsep, decide_eq_true fun hid => htype ?_⟩
    obtain ⟨hsep', hid'⟩ := serviceEndpointProviderId_of_find hfind
    rwa [List.inj_on_of_nodup_map hk hsep hsep' (hid.trans hid'.symm)]
  · exact hsep

theorem pending_removeRow (hk : (db.provider.map
    (·.serviceEndpointProviderId)).Nodup) (hshrinks : Shrinks db₀ db) (hsep : sep ∈ db.provider)
    (htype : sep.serviceEndpointProviderType ≠ "direct")
    (hothers : (others db₀ i sep.serviceEndpointProviderId).length ≤ 1)
    (hpending : Pending db₀ i sep.serviceEndpointProviderId (r :: l) db)
    (h : removeRow i db r = .ok db') : Pending db₀ i sep.serviceEndpointProviderId l db' := by
  have hshrinks' := shrinks_removeRow h
  rcases hpending with hgone | hrest
  · exact .inl fun y hy => hgone y (hshrinks'.collectionProvider.subset hy)
  by_cases hp : r.serviceEndpointProviderId = sep.serviceEndpointProviderId
  · -- a turn of the provider
    have hfind := findProvider_of_mem hk hsep
    rw [← hp] at hfind hothers ⊢
    obtain ⟨-, rfl⟩ := (removeRow_muxed hfind htype).mp h
    by_cases hleft : (leftOf db r).length ≤ 1
    · refine .inl fun y hy hyp => ?_
      obtain ⟨hy, hnot⟩ := mem_afterUnlink.mp hy
      exact hnot (mem_unlinks.mpr ⟨hleft, hy, hyp⟩)
    · obtain ⟨x, hx, hxid, hxp, hxi⟩ := exists_left hshrinks.providerInstance hothers hleft
      rcases hrest with hall | ⟨hnone, -⟩
      · have hxr := hall x (mem_rowsOf.mpr ⟨hshrinks.providerInstance.subset hx, hxi⟩)
          (hxp.trans hp)
        have hxl := (List.mem_cons.mp hxr).resolve_left fun heq => hxid (by rw [heq])
        refine .inr (.inr ⟨fun x' hx' hp' hi' => ?_, x, hxl, hxp⟩)
        exact of_decide_eq_true (List.mem_filter.mp hx').2 ⟨hp', hi'⟩
      · exact absurd hxi (hnone x hx (hxp.trans hp))
  · have htail : ∀ r' ∈ r :: l, r'.serviceEndpointProviderId = sep.serviceEndpointProviderId →
        r' ∈ l := by
      intro r' hr' hp'
      refine (List.mem_cons.mp hr').resolve_left fun heq => hp ?_
      rw [← heq, hp']
    rcases hrest with hall | ⟨hnone, r', hr', hp'⟩
    · exact .inr (.inl fun r' hr' hp' => htail r' (hall r' hr' hp') hp')
    · refine .inr (.inr ⟨fun x hx => hnone x (hshrinks'.providerInstance.subset hx), r', ?_, hp'⟩)
      exact htail r' hr' hp'

/-- A provider that is not direct has lost its links after the loop. -/
theorem not_linked_of_loop (hk : Keys db) (hsep : sep ∈ db.provider)
    (htype : sep.serviceEndpointProviderType ≠ "direct")
    (hgoes : GoesUnlinked db i sep.serviceEndpointProviderId) (hrows : rows.Perm (rowsOf db i))
    (h : rows.foldlM (removeRow i) db = .ok db') :
    ∀ y ∈ db'.collectionProvider, y.serviceEndpointProviderId ≠ sep.serviceEndpointProviderId := by
  obtain ⟨⟨r, hr, hp⟩, hothers⟩ := hgoes
  let P : List ProviderInstance → Db → Prop := fun l d => Shrinks db d ∧ sep ∈ d.provider ∧
    Pending db i sep.serviceEndpointProviderId l d
  have hstart : P rows db :=
    ⟨.refl db, hsep, .inr (.inl fun r' hr' _ => hrows.mem_iff.mpr hr')⟩
  obtain ⟨-, -, hpending⟩ : P [] db' := by
    refine foldlM_rest_keeps (P := P) (fun a l d d' hd hstep => ?_) hstart h
    obtain ⟨hshrinks, hmem, hpending⟩ := hd
    have hkeys := hk.provider.sublist (hshrinks.provider.map _)
    exact ⟨hshrinks.trans (shrinks_removeRow hstep), mem_provider_removeRow hkeys hmem htype hstep,
      pending_removeRow hkeys hshrinks hmem htype hothers hpending hstep⟩
  rcases hpending with hgone | hall | ⟨-, r', hr', -⟩
  · exact hgone
  · exact absurd (hall r hr hp) List.not_mem_nil
  · exact absurd hr' List.not_mem_nil

theorem shrinks_of_loop (h : rows.foldlM (removeRow i) db = .ok db') : Shrinks db db' :=
  foldlM_keeps (fun _ _ _ _ hd hstep => hd.trans (shrinks_removeRow hstep)) (.refl db) h

theorem Removes.head (h : Removes (r :: l) db i) :
    ∃ d, removeRow i db r = .ok d ∧ ∃ d', l.foldlM (removeRow i) d = .ok d' := by
  obtain ⟨db', hok, -⟩ := h
  obtain ⟨d', hloop, -⟩ := bind_eq_ok.mp hok
  rw [List.foldlM_cons] at hloop
  obtain ⟨d, hd, hloop⟩ := bind_eq_ok.mp hloop
  exact ⟨d, hd, d', hloop⟩

section

variable (hk : Keys db) (h : ∀ rows, rows.Perm (rowsOf db i) → Removes rows db i)
include hk h

theorem alone_of_removes (hr : r ∈ rowsOf db i)
    (hdirect : IsDirect db r.serviceEndpointProviderId) : Alone db r := by
  obtain ⟨d, hd, -⟩ := (h _ (List.perm_cons_erase hr).symm).head
  exact alone_of_removeRow hk hr hdirect hd

theorem single_of_removes (hgoes : GoesUnlinked db i p) (hy : y ∈ db.collectionProvider)
    (hp : y.serviceEndpointProviderId = p) (hy' : y' ∈ db.collectionProvider)
    (hp' : y'.serviceEndpointProviderId = p) : y' = y := by
  obtain ⟨⟨r, hr, rfl⟩, hothers⟩ := hgoes
  have hperm := (List.perm_cons_erase hr).symm
  obtain ⟨d, hd, -⟩ := (h _ hperm).head
  by_cases hleft : (leftOf db r).length ≤ 1
  · exact eq_of_unlinks hk.collectionProvider (removeRow_cases hd).1 hleft hy hp hy' hp'
  · -- another row of the instance comes next
    obtain ⟨x, hx, hxid, hxp, hxi⟩ := exists_left (.refl _) hothers hleft
    have hxr : x ∈ (rowsOf db i).erase r := by
      refine (List.mem_erase_of_ne fun heq => hxid ?_).mpr (mem_rowsOf.mpr ⟨hx, hxi⟩)
      rw [heq]
    obtain ⟨d, hd, d', hloop⟩ :=
      (h (r :: x :: ((rowsOf db i).erase r).erase x) ((List.perm_cons_erase hxr).symm.cons r |>.trans
        hperm)).head
    rw [List.foldlM_cons] at hloop
    obtain ⟨d₂, hd₂, -⟩ := bind_eq_ok.mp hloop
    obtain ⟨-, ⟨hnone, -⟩ | ⟨sep, hfind, ⟨htype, -, -⟩ | ⟨-, rfl⟩⟩⟩ := removeRow_cases hd
    · obtain ⟨q, hq, hqid⟩ := hk.providerRef r (mem_rowsOf.mp hr).1
      exact (Library.not_of_find?_eq_none hnone hq hqid).elim
    · obtain ⟨hsep, hid⟩ := serviceEndpointProviderId_of_find hfind
      have ha := alone_of_removes hk h hr ⟨sep, hsep, hid, htype⟩
      exact absurd (by rw [ha.row x hx hxp]) hxid
    · have hkept : ∀ y ∈ db.collectionProvider, y ∈ (withoutMember (afterUnlink db r) i
          r.serviceEndpointProviderId).collectionProvider := fun y hy =>
        mem_afterUnlink.mpr ⟨hy, fun hmem => hleft (mem_unlinks.mp hmem).1⟩
      have hleft' : (leftOf (withoutMember (afterUnlink db r) i r.serviceEndpointProviderId)
          x).length ≤ 1 := by
        by_contra hmany
        rw [← hxp] at hothers
        obtain ⟨x', hx', -, hxp', hxi'⟩ := exists_left (i := i)
          (List.filter_sublist.trans List.filter_sublist) hothers hmany
        exact of_decide_eq_true (List.mem_filter.mp hx').2 ⟨hxp'.trans hxp, hxi'⟩
      exact eq_of_unlinks (hk.collectionProvider.sublist List.filter_sublist)
        (removeRow_cases hd₂).1 hleft' (hkept y hy) (hp.trans hxp.symm) (hkept y' hy')
        (hp'.trans hxp.symm)

theorem removable_of_removes : Removable db i where
  instanceRef := by
    obtain ⟨db', hok, -⟩ := h _ (.refl _)
    obtain ⟨d, hloop, hok⟩ := bind_eq_ok.mp hok
    have hshrinks := shrinks_of_loop hloop
    have hfinal := raiseIf_eq_ok.mp (bind_unit_eq_ok.mp hok).1
    intro hi href
    refine hfinal ⟨hshrinks.instances ▸ hi, .inr ?_⟩
    rwa [hshrinks.references]
  direct := fun r hr => alone_of_removes hk h hr
  single := fun p hgoes y hy hp y' hy' hp' => single_of_removes hk h hgoes hy hp hy' hp'
  other := by
    intro x hx hxi hgoes e he
    obtain ⟨db', hok, -, hreach, -⟩ := h _ (.refl _)
    obtain ⟨d, hloop, hok⟩ := bind_eq_ok.mp hok
    obtain ⟨-, hok⟩ := bind_unit_eq_ok.mp hok
    obtain rfl := Except.ok.inj hok
    have hshrinks := shrinks_of_loop hloop
    obtain ⟨x', hx', hsame, y, hy, hyp, z, hz, hze⟩ := hreach _ hxi e ⟨x, hx, rfl, he⟩
    have hx'db := hshrinks.providerInstance.subset hx'
    refine ⟨x', hx'db, hsame, fun hgoes' => ?_, y, hshrinks.collectionProvider.subset hy, hyp, z,
      hshrinks.endpointCollection.subset hz, hze⟩
    obtain ⟨sep, hsep, hid⟩ := hk.providerRef x' hx'db
    by_cases htype : sep.serviceEndpointProviderType = "direct"
    · obtain ⟨r, hr, hrp⟩ := hgoes'.1
      have ha := alone_of_removes hk h hr ⟨sep, hsep, hid.trans hrp.symm, htype⟩
      exact ha.not_usedByOther hr ⟨x', hx'db, hrp.symm, hsame ▸ hxi⟩
    · rw [← hid] at hgoes' hyp
      exact not_linked_of_loop hk hsep htype hgoes' (.refl _) hloop y hy hyp

end

/-- The function removes an instance, whatever the order of its rows, exactly under the condition. -/
theorem removes_iff (hk : Keys db) :
    (∀ rows, rows.Perm (rowsOf db i) → Removes rows db i) ↔ Removable db i :=
  ⟨removable_of_removes hk, fun hrem _ hrows => removes_of_removable hk hrem hrows⟩

/-- One endpoint, with a collection of one provider of this type, for these instances. -/
def Db.oneProvider (type : String) (instances : List ℕ) : Db where
  serviceEndpoint := [1]
  providerCollection := [1]
  provider := [⟨1, type⟩]
  serviceInstance := instances
  providerInstance := instances.map fun i => ⟨i, 1, i⟩
  collectionProvider := [⟨1, 1⟩]
  endpointCollection := [⟨1, 1, type, "none"⟩]
  endpointSla := []
  references := []

theorem keys_oneProvider {type : String} {instances : List ℕ} (h : instances.Nodup) :
    Keys (.oneProvider type instances) where
  providerInstance := by
    rw [Db.oneProvider, List.map_map]
    show (instances.map id).Nodup
    rwa [List.map_id]
  provider := List.nodup_singleton _
  collectionProvider := List.nodup_singleton _
  endpointCollection := List.nodup_singleton _
  providerRef := fun x hx => by
    obtain ⟨i, -, rfl⟩ := List.mem_map.mp hx
    exact ⟨_, List.mem_singleton_self _, rfl⟩

/-- A load balancer with three instances. -/
theorem removes_oneProvider : Removable (.oneProvider "loadbalancer" [1, 2, 3]) 1 ∧
    ∀ rows, rows.Perm (rowsOf (.oneProvider "loadbalancer" [1, 2, 3]) 1) →
      Removes rows (.oneProvider "loadbalancer" [1, 2, 3]) 1 := by
  have hnot : ∀ p, ¬ GoesUnlinked (.oneProvider "loadbalancer" [1, 2, 3]) 1 p := by
    rintro p ⟨⟨r, hr, rfl⟩, hlen⟩
    rw [List.mem_singleton.mp (show r ∈ [⟨1, 1, 1⟩] from hr)] at hlen
    exact absurd hlen (by decide)
  have hremovable : Removable (.oneProvider "loadbalancer" [1, 2, 3]) 1 := by
    refine ⟨fun _ => List.not_mem_nil, fun r hr hdirect => ?_, fun p hgoes => absurd hgoes (hnot p),
      fun x hx hxi hgoes => absurd hgoes (hnot _)⟩
    obtain ⟨q, hq, -, htype⟩ := hdirect
    rw [List.mem_singleton.mp hq] at htype
    exact absurd htype (by decide)
  exact ⟨hremovable, (removes_iff (keys_oneProvider (by decide))).mpr hremovable⟩

/-- A load balancer with two instances loses its collection with the first of them. -/
theorem shared_breaks : Keys (.oneProvider "loadbalancer" [1, 2]) ∧
    ¬ Removes (rowsOf (.oneProvider "loadbalancer" [1, 2]) 1) (.oneProvider "loadbalancer" [1, 2]) 1 := by
  refine ⟨keys_oneProvider (by decide), fun ⟨db', hok, _, hreach, _⟩ => ?_⟩
  have hbefore : Reaches (.oneProvider "loadbalancer" [1, 2]) 2 1 :=
    ⟨⟨2, 1, 2⟩, by decide, rfl, ⟨1, 1⟩, by decide, rfl, ⟨1, 1, "loadbalancer", "none"⟩, by decide,
      rfl, rfl⟩
  have hlinks : (removeServiceInstance (rowsOf (.oneProvider "loadbalancer" [1, 2]) 1)
      (.oneProvider "loadbalancer" [1, 2]) 1).toOption.map (·.collectionProvider) = some [] := by
    decide
  rw [hok] at hlinks
  obtain ⟨x, -, -, y, hy, -⟩ := hreach 2 (by decide) 1 hbefore
  rw [show db'.collectionProvider = [] from Option.some.inj hlinks] at hy
  exact absurd hy List.not_mem_nil

end JazzHands.Service

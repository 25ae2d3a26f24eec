import JazzHands.Layer3.SetInterfaceAddresses
import JazzHands.Netblock.Outcome

/-!
# The addresses that the interface has afterwards

Addresses are moved always, so that none is refused.

Three parts, each with an invariant of its own: the loop over the list (`Progress`, `loop_ok`), the
pruning of what is not in the list (`prune_ok`), and the clean-up of what that leaves (`Cleaned`).
-/

namespace JazzHands.Layer3

open Postgres

variable {first : FirstRow Netblock} {pick : FirstRow Layer3InterfaceNetblock} {order : ScanOrder}
  {setDnsForInterface : Db → ℕ → Option String → ℕ → Result (List DnsRecord)}
variable {schema : Schema} {db db' db₁ : Db} {args : Arguments} {a : Address} {e : Element}
  {l3i nbId : ℕ} {r r' : Loop} {t t' : List Netblock} {n n' m : Netblock}

/-- Every parent is a network: the deferred foreign key, and the deferred trigger. -/
def ParentsAreNetworks (t : List Netblock) : Prop :=
  ∀ n ∈ t, ∀ p ∈ n.parentNetblockId, ∃ m ∈ t, m.netblockId = p ∧ m.isSingleAddress = false

structure Constraints (db : Db) : Prop where
  wellFormed : WellFormed db.netblock
  parents : ParentsAreNetworks db.netblock
  onOne : ∀ l ∈ db.layer3InterfaceNetblock, ∀ l' ∈ db.layer3InterfaceNetblock,
    l.netblockId = l'.netblockId → l = l'
  single : ∀ l ∈ db.layer3InterfaceNetblock, ∃ n ∈ db.netblock, n.netblockId = l.netblockId ∧
    n.isSingleAddress = true

/-! ## What statements on `netblock` keep -/

/-- The row `n` became `n'`: perhaps with another mask and another parent. -/
structure SameAddress (n n' : Netblock) : Prop where
  netblockId : n'.netblockId = n.netblockId
  netblockType : n'.netblockType = n.netblockType
  ipUniverseId : n'.ipUniverseId = n.ipUniverseId
  isSingleAddress : n'.isSingleAddress = n.isSingleAddress
  canSubnet : n.canSubnet = false → n'.canSubnet = false
  host : n'.ipAddress.host = n.ipAddress.host

theorem SameAddress.refl (n : Netblock) : SameAddress n n := ⟨rfl, rfl, rfl, rfl, id, rfl⟩

theorem SameAddress.trans (h : SameAddress n n') (h' : SameAddress n' m) : SameAddress n m where
  netblockId := h'.netblockId.trans h.netblockId
  netblockType := h'.netblockType.trans h.netblockType
  ipUniverseId := h'.ipUniverseId.trans h.ipUniverseId
  isSingleAddress := h'.isSingleAddress.trans h.isSingleAddress
  canSubnet hn := h'.canSubnet (h.canSubnet hn)
  host := h'.host.trans h.host

theorem SameAddress.isSingle (h : SameAddress n n') (hn : a.IsSingle n) : a.IsSingle n' := by
  obtain ⟨hsingle, hsubnet, htype, huniverse, hhost⟩ := hn
  exact ⟨h.isSingleAddress.trans hsingle, h.canSubnet hsubnet, h.netblockType.trans htype,
    h.ipUniverseId.trans huniverse, h.host.trans hhost⟩

/-- Every row is there still. -/
def Kept (t t' : List Netblock) : Prop := ∀ n ∈ t, ∃ n' ∈ t', SameAddress n n'

theorem Kept.refl (t : List Netblock) : Kept t t := fun n hn => ⟨n, hn, .refl n⟩

theorem Kept.trans {t'' : List Netblock} (h : Kept t t') (h' : Kept t' t'') : Kept t t'' := by
  intro n hn
  obtain ⟨n', hn', hsame⟩ := h n hn
  obtain ⟨n'', hn'', hsame'⟩ := h' n' hn'
  exact ⟨n'', hn'', hsame.trans hsame'⟩

theorem sameAddress_of_touched {p : Option ℕ} (h : n' = n ∨ Touched p n n') : SameAddress n n' := by
  rcases h with rfl | h
  · exact .refl n'
  · exact ⟨h.netblockId, h.netblockType, h.ipUniverseId, h.isSingleAddress,
      fun hn => h.canSubnet.trans hn, h.host⟩

variable {p : ℕ} {x : Txn} {o : Option Db} {found : Option ℕ} {gone : List ℕ}

theorem Kept.network (h : Kept t t') (hp : ∃ m ∈ t, m.netblockId = p ∧ m.isSingleAddress = false) :
    ∃ m ∈ t', m.netblockId = p ∧ m.isSingleAddress = false := by
  obtain ⟨m, hm, rfl, hnet⟩ := hp
  obtain ⟨m', hm', hsame⟩ := h m hm
  exact ⟨m', hm', hsame.netblockId, hsame.isSingleAddress.trans hnet⟩

theorem exists_of_bestParent (h : n.bestParent t = some p) :
    ∃ m ∈ t, m.netblockId = p ∧ m.isSingleAddress = false := by
  unfold Netblock.bestParent findBestParentNetblockId at h
  obtain ⟨m, hm, rfl⟩ := Option.map_eq_some_iff.mp h
  have hmem : m ∈ t.filter _ := List.argmax_mem hm
  rw [List.mem_filter, decide_eq_true_eq] at hmem
  exact ⟨m, hmem.1, rfl, hmem.2.2.1⟩

/-- The parent that the triggers give to a row of a statement. -/
theorem exists_of_writtenRow {old : Option Netblock} {fires : Bool}
    (hw : WrittenRow schema t old fires n n') (hp : n'.parentNetblockId = some p)
    (hgiven : n.parentNetblockId = some p → ∃ m ∈ t, m.netblockId = p ∧ m.isSingleAddress = false) :
    ∃ m ∈ t, m.netblockId = p ∧ m.isSingleAddress = false := by
  by_cases hforced : fires = true ∧ schema.dbForcedHierarchy n'.netblockType = true
  · rw [hw.forced hforced.1 hforced.2] at hp
    exact exists_of_bestParent hp
  · rw [not_and_or, Bool.not_eq_true, Bool.not_eq_true] at hforced
    exact hgiven ((hw.given hforced).symm.trans hp)

/-- What the loop needs of a statement on `netblock`. -/
structure NetblockStep (t t' : List Netblock) : Prop where
  wellFormed : WellFormed t'
  parents : ParentsAreNetworks t'
  kept : Kept t t'

section

variable (ht : WellFormed t) (hparents : ParentsAreNetworks t)
include ht hparents

theorem executeInsert_step {rec : NetblockRecord} (hrec : rec.parentNetblockId = none)
    (h : executeInsert schema order t rec = .ok x) :
    NetblockStep t x.netblock ∧ ∃ n new, rec.complete schema t = .ok n ∧
      WrittenRow schema t none true n new ∧ ∃ n' ∈ x.netblock, SameAddress new n' := by
  obtain ⟨n, new, g, hn, hw, -, hg⟩ := executeInsert_ok ht h
  have hmem : ∀ r ∈ t ++ [new], g r ∈ x.netblock := fun r hr =>
    hg.netblock ▸ List.mem_map_of_mem hr
  have hsame : ∀ r ∈ t ++ [new], SameAddress r (g r) := fun r hr =>
    sameAddress_of_touched (hg.touched_or_eq hr)
  have hnew : new ∈ t ++ [new] := mem_append_new.mpr (.inr rfl)
  have hkept : Kept t x.netblock := fun r hr =>
    ⟨g r, hmem r (List.mem_append_left _ hr), hsame r (List.mem_append_left _ hr)⟩
  refine ⟨⟨hg.wellFormed, ?_, hkept⟩, n, new, hn, hw, g new, hmem new hnew, hsame new hnew⟩
  intro r' hr' p hp
  rw [hg.netblock, List.mem_map] at hr'
  obtain ⟨r, hr, rfl⟩ := hr'
  by_cases hadopted : AdoptedByInsert schema new r
  · rw [(hg.touched r hr hadopted).parentNetblockId, Option.mem_some_iff] at hp
    exact ⟨g new, hmem new hnew, (hsame new hnew).netblockId.trans hp,
      (hsame new hnew).isSingleAddress.trans hadopted.2.1⟩
  rw [hg.kept r hr hadopted] at hp
  refine hkept.network ?_
  rcases mem_append_new.mp hr with hr | rfl
  · exact hparents r hr p hp
  · refine exists_of_writtenRow hw hp fun hgiven => ?_
    rw [(complete_ok hn).2.2.2.2.2.1, hrec] at hgiven
    cases hgiven

theorem executeUpdate_step {old : Netblock} (hold : old ∈ t) (hnet : old.isSingleAddress = false)
    (h : executeUpdate schema order t old { canSubnet := some (some false) } = .ok x) :
    NetblockStep t x.netblock := by
  rcases executeUpdate_ok ht hold h with
    ⟨hfires, -⟩ | ⟨n, new, x₁, x₂, g, g', -, hn, hw, hg, hg', hadopted, hreleased, hcons, rfl⟩
  · cases hfires
  obtain ⟨hid, hip, htype, hsingle, hsubnet, hparent, huniverse⟩ := complete_ok hn
  have hmem : ∀ r ∈ t, g' (g r) ∈ x₂.netblock := fun r hr => by
    rw [hg'.netblock, hg.netblock]
    exact List.mem_map_of_mem (List.mem_map_of_mem hr)
  have hsame : ∀ r ∈ t, SameAddress r (g' (g r)) := fun r hr =>
    (sameAddress_of_touched (hg.touched_or_eq hr)).trans
      (sameAddress_of_touched (hg'.touched_or_eq (hg.netblock ▸ List.mem_map_of_mem hr)))
  have hold' : old ∈ x₂.netblock := by
    have hgold := hg.kept old hold hadopted
    have hold₁ : old ∈ x₁.netblock := hgold ▸ hg.netblock ▸ List.mem_map_of_mem hold
    have := hmem old hold
    rwa [hgold, hg'.kept old hold₁ hreleased] at this
  -- the row itself
  have hnew : SameAddress old new := by
    refine ⟨hw.netblockId.trans hid, hw.netblockType.trans htype, hw.ipUniverseId.trans
      (huniverse _ rfl), hw.isSingleAddress.trans (hsingle _ rfl), fun _ => hw.canSubnet.trans
      (hsubnet _ rfl), hw.host.trans ?_⟩
    rw [← Option.some.inj hip]
  have hnewnet : new.isSingleAddress = false := hnew.isSingleAddress.trans hnet
  have hnewmem : new ∈ replace x₂.netblock old new := (mem_replace hold').mpr (.inl rfl)
  have hkept : Kept t (replace x₂.netblock old new) := by
    intro r hr
    by_cases hrid : r.netblockId = old.netblockId
    · obtain rfl := ht.pk r hr old hold hrid
      exact ⟨new, hnewmem, hnew⟩
    · exact ⟨g' (g r), (mem_replace hold').mpr
        (.inr ⟨hmem r hr, (hsame r hr).netblockId ▸ hrid⟩), hsame r hr⟩
  refine ⟨hg'.wellFormed.replace hold' hcons hw.network, ?_, hkept⟩
  intro r' hr' p hp
  rcases (mem_replace hold').mp hr' with rfl | ⟨hr₂, -⟩
  · refine hkept.network (exists_of_writtenRow hw hp fun hgiven => ?_)
    rw [hparent] at hgiven
    exact hparents old hold p hgiven
  rw [hg'.netblock, List.mem_map] at hr₂
  obtain ⟨r₁, hr₁, rfl⟩ := hr₂
  by_cases hrel : ReleasedByUpdate schema true new r₁
  · rw [(hg'.touched r₁ hr₁ hrel).parentNetblockId] at hp
    exact hkept.network (hparents old hold p hp)
  rw [hg'.kept r₁ hr₁ hrel] at hp
  rw [hg.netblock, List.mem_map] at hr₁
  obtain ⟨r, hr, rfl⟩ := hr₁
  by_cases hadopt : AdoptedByUpdate schema true new r
  · rw [(hg.touched r hr hadopt).parentNetblockId, Option.mem_some_iff] at hp
    exact ⟨new, hnewmem, hp, hnewnet⟩
  · rw [hg.kept r hr hadopt] at hp
    exact hkept.network (hparents r hr p hp)

/-- A single address is the parent of no row, so that only its row goes. -/
theorem executeDelete_single (hn : n ∈ t) (hsingle : n.isSingleAddress = true)
    (h : executeDelete schema order t n = .ok x) : x.netblock = without t n.netblockId := by
  obtain ⟨g, hg⟩ := executeDelete_ok ht h
  rw [hg.netblock]
  have hid : ∀ r ∈ without t n.netblockId, g r = id r := by
    intro r hr
    refine hg.kept r hr fun hreleased => ?_
    obtain ⟨m, hm, hmid, hnet⟩ := hparents r (mem_without.mp hr).1 _ hreleased.2
    rw [ht.pk m hm n hn hmid, hsingle] at hnet
    cases hnet
  rw [List.map_congr_left hid, List.map_id]

end

/-! ## The row of an address -/

/-- The tables after a part of the loop that only touches `netblock` and `layer3_network`. -/
structure OnlyNetblocks (db db' : Db) : Prop where
  step : NetblockStep db.netblock db'.netblock
  layer3InterfaceNetblock : db'.layer3InterfaceNetblock = db.layer3InterfaceNetblock
  layer3Interface : db'.layer3Interface = db.layer3Interface

theorem OnlyNetblocks.trans {db'' : Db} (h : OnlyNetblocks db db') (h' : OnlyNetblocks db' db'') :
    OnlyNetblocks db db'' where
  step := ⟨h'.step.wellFormed, h'.step.parents, h.step.kept.trans h'.step.kept⟩
  layer3InterfaceNetblock := h'.layer3InterfaceNetblock.trans h.layer3InterfaceNetblock
  layer3Interface := h'.layer3Interface.trans h.layer3Interface

theorem OnlyNetblocks.refl (hdb : Constraints db) : OnlyNetblocks db db :=
  ⟨⟨hdb.wellFormed, hdb.parents, .refl _⟩, rfl, rfl⟩

theorem OnlyNetblocks.constraints (h : OnlyNetblocks db db') (hdb : Constraints db) :
    Constraints db' where
  wellFormed := h.step.wellFormed
  parents := h.step.parents
  onOne := h.layer3InterfaceNetblock ▸ hdb.onOne
  single l hl := by
    obtain ⟨n, hn, hid, hsingle⟩ := hdb.single l (h.layer3InterfaceNetblock ▸ hl)
    obtain ⟨n', hn', hsame⟩ := h.step.kept n hn
    exact ⟨n', hn', hsame.netblockId.trans hid, hsame.isSingleAddress.trans hsingle⟩

theorem insertNetblock_ok {ipAddress : Inet} {isSingle : Bool} (hdb : Constraints db)
    (h : insertNetblock order db a ipAddress isSingle = .ok (db', nbId)) :
    OnlyNetblocks db db' ∧ ∃ n ∈ db'.netblock, n.netblockId = nbId ∧
      n.isSingleAddress = isSingle ∧ n.canSubnet = false ∧ n.netblockType = a.nbType ∧
        n.ipUniverseId = a.universe' ∧ n.ipAddress.host = ipAddress.host := by
  obtain ⟨x, hx, h⟩ := bind_eq_ok.mp h
  cases h
  obtain ⟨hstep, n, new, hn, hw, n', hn', hsame⟩ :=
    executeInsert_step hdb.wellFormed hdb.parents rfl hx
  obtain ⟨hid, hip, htype, hsingle, hsubnet, -, huniverse⟩ := complete_ok hn
  refine ⟨⟨hstep, rfl, rfl⟩, n', hn', hsame.netblockId.trans (hw.netblockId.trans hid),
    hsame.isSingleAddress.trans (hw.isSingleAddress.trans (hsingle _ rfl)),
    hsame.canSubnet (hw.canSubnet.trans (hsubnet _ rfl)),
    hsame.netblockType.trans (hw.netblockType.trans htype),
    hsame.ipUniverseId.trans (hw.ipUniverseId.trans (huniverse _ rfl)), ?_⟩
  rw [hsame.host, hw.host, ← Option.some.inj hip]

theorem insertLayer3Network_ok (hdb : Constraints db)
    (h : insertLayer3Network db args nbId = .ok db') : OnlyNetblocks db db' := by
  simp only [insertLayer3Network, bind_unit_eq_ok, Except.ok.injEq] at h
  obtain ⟨-, -, -, rfl⟩ := h
  exact ⟨⟨hdb.wellFormed, hdb.parents, .refl _⟩, rfl, rfl⟩

theorem makeNetwork_ok (hdb : Constraints db)
    (h : makeNetwork first order db a = .ok (db', nbId)) : OnlyNetblocks db db' := by
  unfold makeNetwork at h
  cases hpick : first.pick (db.netblock.filter a.IsSubnetted) with
  | none =>
    rw [hpick] at h
    exact (insertNetblock_ok hdb h).1
  | some pnbRec =>
    rw [hpick] at h
    obtain ⟨x, hx, h⟩ := bind_eq_ok.mp h
    cases h
    obtain ⟨hmem, hsub⟩ := FirstRow.of_pick_filter hpick
    exact ⟨executeUpdate_step hdb.wellFormed hdb.parents hmem hsub.2.2.1 hx, rfl, rfl⟩

/-- Why the loop passes the address over when it may not create layer 3 networks: its row has no
parent, or it has no row and there is no network around it, or one without a layer 3 network. -/
def Skips (args : Arguments) (db : Db) (a : Address) : Prop :=
  args.createLayer3Networks = false ∧
    ((∃ n ∈ db.netblock, a.IsSingle n ∧ n.parentNetblockId = none) ∨
      ((∀ n ∈ db.netblock, ¬ a.IsSingle n) ∧
        ((∀ n ∈ db.netblock, ¬ a.IsAround n) ∨
          ∃ n ∈ db.netblock, a.IsAround n ∧ db.layer3NetworkOf n.netblockId = none)))

theorem map_some_eq_ok {x : Result Db} (h : some <$> x = .ok o) :
    ∃ db', x = .ok db' ∧ o = some db' := by
  cases x with
  | error err => cases h
  | ok db' => exact ⟨db', rfl, (Except.ok.inj h).symm⟩

theorem makeParents_ok (hdb : Constraints db) (hnone : ∀ n ∈ db.netblock, ¬ a.IsSingle n)
    (h : makeParents first order db args a = .ok o) :
    (o = none ∧ Skips args db a) ∨ ∃ db', o = some db' ∧ OnlyNetblocks db db' := by
  unfold makeParents at h
  cases hpick : first.pick (db.netblock.filter a.IsAround) with
  | none =>
    rw [hpick] at h
    dsimp only at h
    split_ifs at h with hcreate
    · obtain rfl := Except.ok.inj h
      exact .inl ⟨rfl, hcreate, .inr ⟨hnone, .inl (FirstRow.not_of_pick_filter hpick)⟩⟩
    · obtain ⟨⟨db₁, netblockId⟩, hmake, h⟩ := bind_eq_ok.mp h
      obtain ⟨db₂, hinsert, rfl⟩ := map_some_eq_ok h
      have h₁ := makeNetwork_ok hdb hmake
      exact .inr ⟨db₂, rfl, h₁.trans (insertLayer3Network_ok (h₁.constraints hdb) hinsert)⟩
  | some layer3Rec =>
    obtain ⟨hmem, haround⟩ := FirstRow.of_pick_filter hpick
    rw [hpick] at h
    dsimp only at h
    cases hnetwork : db.layer3NetworkOf layer3Rec.netblockId with
    | some l =>
      rw [hnetwork] at h
      exact .inr ⟨db, (Except.ok.inj h).symm, .refl hdb⟩
    | none =>
      rw [hnetwork] at h
      dsimp only at h
      split_ifs at h with hcreate
      · obtain rfl := Except.ok.inj h
        exact .inl ⟨rfl, hcreate, .inr ⟨hnone, .inr ⟨layer3Rec, hmem, haround, hnetwork⟩⟩⟩
      · obtain ⟨db₂, hinsert, rfl⟩ := map_some_eq_ok h
        exact .inr ⟨db₂, rfl, insertLayer3Network_ok hdb hinsert⟩

/-- What the loop knows once it has looked for the row of the address. -/
structure Located (args : Arguments) (a : Address) (r r' : Loop) (found : Option ℕ) : Prop where
  only : OnlyNetblocks r.db r'.db
  hasRow : ∀ nbId ∈ found, ∃ n ∈ r'.db.netblock, n.netblockId = nbId ∧ a.IsSingle n
  skips : found = none → Skips args r.db a
  subset : r.nbIdAry ⊆ r'.nbIdAry
  asked : ∀ id ∈ r'.nbIdAry, id ∈ r.nbIdAry ∨ ∃ n ∈ r'.db.netblock, n.netblockId = id ∧ a.IsSingle n
  ary : ∀ nbId ∈ found, nbId ∈ r'.nbIdAry

theorem findOrMakeNetblock_ok (hdb : Constraints r.db)
    (h : findOrMakeNetblock first order r args a = .ok (r', found)) :
    Located args a r r' found := by
  unfold findOrMakeNetblock at h
  cases hpick : first.pick (r.db.netblock.filter a.IsSingle) with
  | some nbRec =>
    obtain ⟨hmem, hsingle⟩ := FirstRow.of_pick_filter hpick
    rw [hpick] at h
    obtain ⟨found', hparent, h⟩ := bind_eq_ok.mp h
    cases h
    have hfound : found = some nbRec.netblockId ∨ found = none ∧ Skips args r.db a := by
      unfold checkParent at hparent
      cases hfind : nbRec.parentNetblockId.bind (JazzHands.findNetblock r.db.netblock) with
      | some p =>
        rw [hfind] at hparent
        exact .inl (Except.ok.inj hparent).symm
      | none =>
        rw [hfind] at hparent
        dsimp only at hparent
        split_ifs at hparent with hcreate
        · refine .inr ⟨(Except.ok.inj hparent).symm, hcreate, .inl ⟨nbRec, hmem, hsingle, ?_⟩⟩
          cases hp : nbRec.parentNetblockId with
          | none => rfl
          | some p =>
            obtain ⟨m, hm, hid, -⟩ := hdb.parents nbRec hmem p hp
            rw [hp, Option.bind_some] at hfind
            exact absurd hid (findNetblock_eq_none.mp hfind m hm)
        · exact absurd hparent raise_ne_ok
    refine ⟨.refl hdb, fun nbId hnbId => ?_, fun hnone => ?_, List.subset_append_left _ _,
      fun id hid => ?_, fun nbId hnbId => ?_⟩
    · rcases hfound with rfl | ⟨rfl, -⟩
      · exact ⟨nbRec, hmem, Option.mem_some_iff.mp hnbId, hsingle⟩
      · cases hnbId
    · rcases hfound with rfl | ⟨-, hskips⟩
      · cases hnone
      · exact hskips
    · rcases List.mem_append.mp hid with hid | hid
      · exact .inl hid
      · exact .inr ⟨nbRec, hmem, (List.mem_singleton.mp hid).symm, hsingle⟩
    · rcases hfound with rfl | ⟨rfl, -⟩
      · rw [← Option.mem_some_iff.mp hnbId]
        exact List.mem_append_right _ (List.mem_singleton_self _)
      · cases hnbId
  | none =>
    rw [hpick] at h
    have hnone : ∀ n ∈ r.db.netblock, ¬ a.IsSingle n := FirstRow.not_of_pick_filter hpick
    obtain ⟨o, hparents, h⟩ := bind_eq_ok.mp h
    rcases makeParents_ok hdb hnone hparents with ⟨rfl, hskips⟩ | ⟨db₁, rfl, honly⟩
    · cases h
      exact ⟨.refl hdb, by simp, fun _ => hskips, List.Subset.refl _, fun id hid => .inl hid,
        by simp⟩
    · obtain ⟨⟨db₂, netblockId⟩, hinsert, h⟩ := bind_eq_ok.mp h
      cases h
      obtain ⟨honly', n, hn, hid, hsingle⟩ := insertNetblock_ok (honly.constraints hdb) hinsert
      refine ⟨honly.trans honly', fun nbId hnbId => ?_, fun hnone => ?_,
        List.subset_append_left _ _, fun id hid' => ?_, fun nbId hnbId => ?_⟩
      · exact ⟨n, hn, hid.trans (Option.mem_some_iff.mp hnbId), hsingle⟩
      · cases hnone
      · rcases List.mem_append.mp hid' with hid' | hid'
        · exact .inl hid'
        · exact .inr ⟨n, hn, hid.trans (List.mem_singleton.mp hid').symm, hsingle⟩
      · rw [← Option.mem_some_iff.mp hnbId]
        exact List.mem_append_right _ (List.mem_singleton_self _)

/-! ## The address comes to the interface -/

theorem deleteFromInterfaces_ok {cond : Layer3InterfaceNetblock → Prop} [DecidablePred cond]
    (h : deleteFromInterfaces db cond = .ok db') :
    db' = { db with
      layer3InterfaceNetblock := db.layer3InterfaceNetblock.filter fun l => ¬ cond l } := by
  simp only [deleteFromInterfaces, bind_unit_eq_ok, Except.ok.injEq] at h
  exact h.2.symm

/-- The tables but for those of interfaces and shared addresses. -/
structure OnlyInterfaces (db db' : Db) : Prop where
  netblock : db'.netblock = db.netblock
  layer3Interface : db'.layer3Interface = db.layer3Interface

theorem takeFromInterface_ok (halways : args.moveAddresses = some "always")
    (h : takeFromInterface pick db args l3i nbId = .ok o) :
    ∃ db', o = some db' ∧ OnlyInterfaces db db' ∧
      ∀ l ∈ db.layer3InterfaceNetblock, l.netblockId ≠ nbId → l ∈ db'.layer3InterfaceNetblock := by
  unfold takeFromInterface at h
  split at h
  · exact ⟨db, (Except.ok.inj h).symm, ⟨rfl, rfl⟩, fun l hl _ => hl⟩
  · rw [if_pos (.inl halways)] at h
    obtain ⟨db', hdelete, rfl⟩ := map_some_eq_ok h
    obtain rfl := deleteFromInterfaces_ok hdelete
    refine ⟨_, rfl, ⟨rfl, rfl⟩, fun l hl hne => List.mem_filter.mpr ⟨hl, ?_⟩⟩
    simpa using hne

theorem takeFromShared_ok (halways : args.moveAddresses = some "always")
    (h : takeFromShared db args nbId = .ok o) :
    ∃ db', o = some db' ∧ OnlyInterfaces db db' ∧
      db'.layer3InterfaceNetblock = db.layer3InterfaceNetblock := by
  unfold takeFromShared at h
  split at h
  · exact ⟨db, (Except.ok.inj h).symm, ⟨rfl, rfl⟩, rfl⟩
  · rw [if_neg (not_not.mpr halways)] at h
    obtain ⟨db', hdelete, rfl⟩ := map_some_eq_ok h
    simp only [deleteShared, bind_unit_eq_ok, Except.ok.injEq] at hdelete
    obtain ⟨-, -, rfl⟩ := hdelete
    exact ⟨_, rfl, ⟨rfl, rfl⟩, rfl⟩

theorem putOnInterface_ok (h : putOnInterface setDnsForInterface db args l3i nbId = .ok db') :
    OnlyInterfaces db db' ∧ (∀ l ∈ db.layer3InterfaceNetblock, l.netblockId ≠ nbId) ∧
      ∃ new : Layer3InterfaceNetblock, new.netblockId = nbId ∧ new.layer3InterfaceId = l3i ∧
        db'.layer3InterfaceNetblock = db.layer3InterfaceNetblock ++ [new] := by
  obtain ⟨⟨db₁, l3inRec⟩, hinsert, h⟩ := bind_eq_ok.mp h
  obtain ⟨dns, -, h⟩ := bind_eq_ok.mp h
  cases h
  unfold insertOnInterface at hinsert
  split at hinsert
  · exact absurd hinsert raise_ne_ok
  · simp only [bind_unit_eq_ok, raiseIf_eq_ok, Except.ok.injEq, Prod.mk.injEq] at hinsert
    obtain ⟨-, hunique, -, rfl, rfl⟩ := hinsert
    exact ⟨⟨rfl, rfl⟩, fun l hl hid => hunique ⟨l, hl, hid⟩, _, rfl, rfl, rfl⟩

/-- The row `nbId` is on the interface, and other rows of the interface are there still. -/
structure Brought (db db' : Db) (l3i nbId : ℕ) : Prop where
  only : OnlyInterfaces db db'
  constraints : Constraints db'
  others : ∀ l ∈ db.layer3InterfaceNetblock, l.netblockId ≠ nbId → l ∈ db'.layer3InterfaceNetblock
  new : ∃ l ∈ db'.layer3InterfaceNetblock, l.netblockId = nbId ∧ l.layer3InterfaceId = l3i

/-- What is left of the rows of interfaces, and a new row. -/
theorem constraints_brought {new : Layer3InterfaceNetblock} (hdb : Constraints db)
    (hnetblock : db'.netblock = db.netblock)
    (hfree : ∀ l ∈ db₁.layer3InterfaceNetblock, l.netblockId ≠ new.netblockId)
    (hsub : db₁.layer3InterfaceNetblock ⊆ db.layer3InterfaceNetblock)
    (hnew : ∃ n ∈ db.netblock, n.netblockId = new.netblockId ∧ n.isSingleAddress = true)
    (h : db'.layer3InterfaceNetblock = db₁.layer3InterfaceNetblock ++ [new]) : Constraints db' where
  wellFormed := hnetblock ▸ hdb.wellFormed
  parents := hnetblock ▸ hdb.parents
  onOne l hl l' hl' hid := by
    rw [h, List.mem_append, List.mem_singleton] at hl hl'
    rcases hl with hl | rfl <;> rcases hl' with hl' | rfl
    · exact hdb.onOne l (hsub hl) l' (hsub hl') hid
    · exact absurd hid (hfree l hl)
    · exact absurd hid.symm (hfree l' hl')
    · rfl
  single l hl := by
    rw [h, List.mem_append, List.mem_singleton] at hl
    rw [hnetblock]
    rcases hl with hl | rfl
    · exact hdb.single l (hsub hl)
    · exact hnew

theorem takeFromInterface_subset (h : takeFromInterface pick db args l3i nbId = .ok o) :
    ∀ db' ∈ o, db'.layer3InterfaceNetblock ⊆ db.layer3InterfaceNetblock := by
  intro db' hdb'
  unfold takeFromInterface at h
  split at h
  · cases h
    obtain rfl := Option.mem_some_iff.mp hdb'
    exact List.Subset.refl _
  · split_ifs at h
    · obtain ⟨db₁, hdelete, rfl⟩ := map_some_eq_ok h
      obtain rfl := Option.mem_some_iff.mp hdb'
      obtain rfl := deleteFromInterfaces_ok hdelete
      exact List.filter_subset_self _
    · unfold refuse at h
      split_ifs at h <;> cases h <;> cases hdb'

theorem moveToInterface_ok (hdb : Constraints db) (halways : args.moveAddresses = some "always")
    (hrow : ∃ n ∈ db.netblock, n.netblockId = nbId ∧ n.isSingleAddress = true)
    (h : moveToInterface setDnsForInterface pick db args l3i nbId = .ok db') :
    Brought db db' l3i nbId := by
  obtain ⟨o, htake, h⟩ := bind_eq_ok.mp h
  obtain ⟨db₁, rfl, honly₁, hothers⟩ := takeFromInterface_ok halways htake
  have hsub := takeFromInterface_subset htake db₁ rfl
  obtain ⟨o, hshared, h⟩ := bind_eq_ok.mp h
  obtain ⟨db₂, rfl, honly₂, hlin⟩ := takeFromShared_ok halways hshared
  obtain ⟨honly₃, hfree, new, rfl, rfl, hnew⟩ := putOnInterface_ok h
  have hnetblock : db'.netblock = db.netblock :=
    honly₃.netblock.trans (honly₂.netblock.trans honly₁.netblock)
  refine ⟨⟨hnetblock, honly₃.layer3Interface.trans
    (honly₂.layer3Interface.trans honly₁.layer3Interface)⟩,
    constraints_brought hdb hnetblock hfree (hlin ▸ hsub) hrow hnew, fun l hl hne => ?_, new, ?_,
    rfl, rfl⟩
  · rw [hnew, hlin]
    exact List.mem_append_left _ (hothers l hl hne)
  · rw [hnew]
    exact List.mem_append_right _ (List.mem_singleton_self new)

/-! ## One turn of the loop -/

/-- The address has a row, which is on the interface and in `nb_id_ary`. -/
def Placed (r : Loop) (l3i : ℕ) (a : Address) : Prop :=
  ∃ n ∈ r.db.netblock, a.IsSingle n ∧ n.netblockId ∈ r.nbIdAry ∧
    ∃ l ∈ r.db.layer3InterfaceNetblock, l.netblockId = n.netblockId ∧ l.layer3InterfaceId = l3i

/-- What turns of the loop keep. -/
structure Progress (l3i : ℕ) (r r' : Loop) : Prop where
  constraints : Constraints r'.db
  kept : Kept r.db.netblock r'.db.netblock
  onInterface : ∀ l ∈ r.db.layer3InterfaceNetblock, l.layer3InterfaceId = l3i →
    l ∈ r'.db.layer3InterfaceNetblock
  subset : r.nbIdAry ⊆ r'.nbIdAry
  layer3Interface : r'.db.layer3Interface = r.db.layer3Interface

theorem Progress.refl (hdb : Constraints r.db) : Progress l3i r r :=
  ⟨hdb, .refl _, fun _ hl _ => hl, List.Subset.refl _, rfl⟩

theorem Progress.trans {r'' : Loop} (h : Progress l3i r r') (h' : Progress l3i r' r'') :
    Progress l3i r r'' :=
  ⟨h'.constraints, h.kept.trans h'.kept, fun l hl hi => h'.onInterface l (h.onInterface l hl hi) hi,
    List.Subset.trans h.subset h'.subset, h'.layer3Interface.trans h.layer3Interface⟩

theorem Placed.progress (h : Placed r l3i a) (hprogress : Progress l3i r r') : Placed r' l3i a := by
  obtain ⟨n, hn, hsingle, hary, l, hl, hid, hi⟩ := h
  obtain ⟨n', hn', hsame⟩ := hprogress.kept n hn
  refine ⟨n', hn', hsame.isSingle hsingle, ?_, l, hprogress.onInterface l hl hi,
    hid.trans hsame.netblockId.symm, hi⟩
  rw [hsame.netblockId]
  exact hprogress.subset hary

theorem Located.progress (h : Located args a r r' found) (hdb : Constraints r.db)
    : Progress l3i r r' :=
  ⟨h.only.constraints hdb, h.only.step.kept, fun _ hl _ => h.only.layer3InterfaceNetblock ▸ hl,
    h.subset, h.only.layer3Interface⟩

theorem place_ok (hdb : Constraints r.db) (halways : args.moveAddresses = some "always")
    (hrow : ∀ nbId ∈ found, ∃ n ∈ r.db.netblock, n.netblockId = nbId ∧ a.IsSingle n)
    (hary : ∀ nbId ∈ found, nbId ∈ r.nbIdAry)
    (h : place setDnsForInterface pick args l3i r found = .ok r') :
    Progress l3i r r' ∧ r'.nbIdAry = r.nbIdAry ∧ r'.db.netblock = r.db.netblock ∧
      (found ≠ none → Placed r' l3i a) := by
  cases found with
  | none =>
    obtain rfl := Except.ok.inj h
    exact ⟨.refl hdb, rfl, rfl, fun hne => absurd rfl hne⟩
  | some nbId =>
    obtain ⟨n, hn, rfl, hsingle⟩ := hrow nbId rfl
    unfold place at h
    dsimp only at h
    split_ifs at h with hthere
    · obtain rfl := Except.ok.inj h
      obtain ⟨l, hl, hid, hi⟩ := hthere
      exact ⟨.refl hdb, rfl, rfl, fun _ => ⟨n, hn, hsingle, hary _ rfl, l, hl, hid, hi⟩⟩
    · obtain ⟨db', hmove, h⟩ := bind_eq_ok.mp h
      cases h
      have hb := moveToInterface_ok hdb halways ⟨n, hn, rfl, hsingle.1⟩ hmove
      refine ⟨⟨hb.constraints, ?_, fun l hl hi => hb.others l hl fun hid => hthere ⟨l, hl, hid, hi⟩,
        List.Subset.refl _, hb.only.layer3Interface⟩, rfl, hb.only.netblock, fun _ => ?_⟩
      · rw [hb.only.netblock]
        exact .refl _
      · obtain ⟨l, hl, hid, hi⟩ := hb.new
        exact ⟨n, hb.only.netblock ▸ hn, hsingle, hary _ rfl, l, hl, hid, hi⟩

theorem assign_ok (hdb : Constraints r.db) (halways : args.moveAddresses = some "always")
    (h : assign first order setDnsForInterface pick args l3i r e = .ok r') :
    Progress l3i r r' ∧ ∃ a, readElement r.db e = .ok a ∧
      (r.db.Ignores a ∨ Skips args r.db a ∨ Placed r' l3i a) ∧
      ∀ id ∈ r'.nbIdAry, id ∈ r.nbIdAry ∨
        (¬ r.db.Ignores a ∧ ∃ n ∈ r'.db.netblock, n.netblockId = id ∧ a.IsSingle n) := by
  obtain ⟨a, ha, h⟩ := bind_eq_ok.mp h
  split_ifs at h with hignores
  · obtain rfl := Except.ok.inj h
    exact ⟨.refl hdb, a, ha, .inl hignores, fun id hid => .inl hid⟩
  obtain ⟨⟨r₁, found⟩, hfind, h⟩ := bind_eq_ok.mp h
  have hlocated := findOrMakeNetblock_ok hdb hfind
  have hprogress : Progress l3i r r₁ := hlocated.progress hdb
  obtain ⟨hplace, hary, hnetblock, hon⟩ :=
    place_ok hprogress.constraints halways hlocated.hasRow hlocated.ary h
  refine ⟨hprogress.trans hplace, a, ha, .inr ?_, fun id hid => ?_⟩
  · by_cases hnone : found = none
    · exact .inl (hlocated.skips hnone)
    · exact .inr (hon hnone)
  · rw [hary] at hid
    rw [hnetblock]
    exact (hlocated.asked id hid).imp_right fun hrow => ⟨hignores, hrow⟩

/-! ## The loop -/

/-- What the element `e` asked for, and what became of it. -/
def Done (args : Arguments) (l3i : ℕ) (r₁ r' : Loop) (e : Element) : Prop :=
  ∃ a, readElement r₁.db e = .ok a ∧
    (r₁.db.Ignores a ∨ Skips args r₁.db a ∨ Placed r' l3i a)

/-- The element `e` asked for the row `id`. -/
def AskedFor (r₁ : Loop) (db' : Db) (e : Element) (id : ℕ) : Prop :=
  ∃ a, readElement r₁.db e = .ok a ∧ ¬ r₁.db.Ignores a ∧
    ∃ n ∈ db'.netblock, n.netblockId = id ∧ a.IsSingle n

theorem AskedFor.progress {r₁ : Loop} {id : ℕ} (h : AskedFor r₁ r.db e id)
    (hprogress : Progress l3i r r') : AskedFor r₁ r'.db e id := by
  obtain ⟨a, ha, hignores, n, hn, hid, hsingle⟩ := h
  obtain ⟨n', hn', hsame⟩ := hprogress.kept n hn
  exact ⟨a, ha, hignores, n', hn', hsame.netblockId.trans hid, hsame.isSingle hsingle⟩

/-- **The loop.**  Every element has a turn, and only elements put keys in `nb_id_ary`. -/
theorem loop_ok {l : List Element} (hdb : Constraints r.db)
    (halways : args.moveAddresses = some "always")
    (h : l.foldlM (assign first order setDnsForInterface pick args l3i) r = .ok r') :
    Progress l3i r r' ∧
      (∀ l₁ e l₂, l = l₁ ++ e :: l₂ → ∃ r₁,
        l₁.foldlM (assign first order setDnsForInterface pick args l3i) r = .ok r₁ ∧
          Done args l3i r₁ r' e) ∧
      ∀ id ∈ r'.nbIdAry, id ∈ r.nbIdAry ∨ ∃ l₁ e l₂ r₁, l = l₁ ++ e :: l₂ ∧
        l₁.foldlM (assign first order setDnsForInterface pick args l3i) r = .ok r₁ ∧
          AskedFor r₁ r'.db e id := by
  induction l using List.reverseRecOn generalizing r' with
  | nil =>
    rw [List.foldlM_nil, pure_eq_ok] at h
    subst h
    exact ⟨.refl hdb, by simp, fun id hid => .inl hid⟩
  | append_singleton l e ih =>
    obtain ⟨r₂, hl, he⟩ := foldlM_concat_eq_ok.mp h
    obtain ⟨hprogress, hdone, hasked⟩ := ih hl
    obtain ⟨hturn, a, ha, hout, hary⟩ := assign_ok hprogress.constraints halways he
    refine ⟨hprogress.trans hturn, fun l₁ e' l₂ hsplit => ?_, fun id hid => ?_⟩
    · rcases List.eq_nil_or_concat l₂ with rfl | ⟨l₂, e₂, rfl⟩
      · -- the last element
        obtain ⟨rfl, hlast⟩ := List.append_inj' hsplit rfl
        obtain rfl := List.singleton_inj.mp hlast
        exact ⟨r₂, hl, a, ha, hout⟩
      · rw [List.concat_eq_append, ← List.cons_append, ← List.append_assoc] at hsplit
        obtain ⟨hsplit, -⟩ := List.append_inj' hsplit rfl
        obtain ⟨r₁, hr₁, a₁, ha₁, hout₁⟩ := hdone l₁ e' l₂ hsplit
        exact ⟨r₁, hr₁, a₁, ha₁, hout₁.imp_right (.imp_right (·.progress hturn))⟩
    · rcases hary id hid with hid | ⟨hignores, hrow⟩
      · refine (hasked id hid).imp_right fun ⟨l₁, e', l₂, r₁, hsplit, hr₁, hfor⟩ => ?_
        exact ⟨l₁, e', l₂ ++ [e], r₁, by rw [hsplit]; simp, hr₁, hfor.progress hturn⟩
      · exact .inr ⟨l, e, [], r₂, rfl, hl, a, ha, hignores, hrow⟩

/-! ## What goes -/

/-- The tables while the netblocks with keys in `gone` are cleaned up. -/
structure Cleaned (gone : List ℕ) (db db' : Db) : Prop where
  layer3InterfaceNetblock : db'.layer3InterfaceNetblock = db.layer3InterfaceNetblock
  layer3Interface : db'.layer3Interface = db.layer3Interface
  vNetblockCollectionExpanded : db'.vNetblockCollectionExpanded = db.vNetblockCollectionExpanded
  property : db'.property = db.property
  subset : db'.netblock ⊆ db.netblock
  networks : ∀ n ∈ db.netblock, n.isSingleAddress = false → n ∈ db'.netblock
  used : ∀ n ∈ db.netblock, (∃ l ∈ db.layer3InterfaceNetblock, l.netblockId = n.netblockId) →
    n ∈ db'.netblock
  others : ∀ n ∈ db.netblock, n.netblockId ∉ gone → n ∈ db'.netblock
  members : ∀ c ∈ db.netblockCollectionNetblock, c.netblockId ∉ gone →
    c ∈ db'.netblockCollectionNetblock

theorem Cleaned.refl (gone : List ℕ) (db : Db) : Cleaned gone db db :=
  ⟨rfl, rfl, rfl, rfl, List.Subset.refl _, fun _ hn _ => hn, fun _ hn _ => hn, fun _ hn _ => hn,
    fun _ hc _ => hc⟩

theorem Cleaned.trans (h : Cleaned gone db db₁) (h' : Cleaned gone db₁ db') :
    Cleaned gone db db' where
  layer3InterfaceNetblock := h'.layer3InterfaceNetblock.trans h.layer3InterfaceNetblock
  layer3Interface := h'.layer3Interface.trans h.layer3Interface
  vNetblockCollectionExpanded := h'.vNetblockCollectionExpanded.trans h.vNetblockCollectionExpanded
  property := h'.property.trans h.property
  subset := List.Subset.trans h'.subset h.subset
  networks n hn hnet := h'.networks n (h.networks n hn hnet) hnet
  used n hn hl := h'.used n (h.used n hn hl) (h.layer3InterfaceNetblock.symm ▸ hl)
  others n hn hgone := h'.others n (h.others n hn hgone) hgone
  members c hc hgone := h'.members c (h.members c hc hgone) hgone

theorem deleteDnsRecords_ok (h : deleteDnsRecords db nbId = .ok db') :
    ∃ kept, db' = { db with dnsRecord := kept } := by
  simp only [deleteDnsRecords, bind_unit_eq_ok, Except.ok.injEq] at h
  exact ⟨_, h.2.symm⟩

section

variable (hgone : nbId ∈ gone) (ht : WellFormed db.netblock)
  (hparents : ParentsAreNetworks db.netblock)
  (hsingle : ∀ n ∈ db.netblock, n.netblockId = nbId → n.isSingleAddress = true)
include hgone ht hparents hsingle

theorem deleteUnused_ok (h : deleteUnused order db nbId = .ok db') : Cleaned gone db db' := by
  obtain ⟨db₁, hdns, h⟩ := bind_eq_ok.mp h
  obtain ⟨kept, rfl⟩ := deleteDnsRecords_ok hdns
  obtain ⟨x, hx, h⟩ := bind_eq_ok.mp h
  obtain ⟨hrefers, h⟩ := bind_unit_eq_ok.mp h
  rw [raiseIf_eq_ok] at hrefers
  cases h
  have hx' : x.netblock = without db.netblock nbId := by
    dsimp only [execute] at hx
    cases hfind : JazzHands.findNetblock db.netblock nbId with
    | none =>
      rw [hfind] at hx
      cases hx
      refine (List.filter_eq_self.mpr fun n hn => ?_).symm
      simpa using findNetblock_eq_none.mp hfind n hn
    | some n =>
      rw [hfind] at hx
      obtain ⟨hn, rfl⟩ := findNetblock_eq_some hfind
      exact executeDelete_single ht hparents hn (hsingle n hn rfl) hx
  refine ⟨rfl, rfl, rfl, rfl, fun n hn => ?_, fun n hn hnet => ?_, fun n hn hl => ?_,
    fun n hn hne => ?_, fun c hc hne => ?_⟩
  · exact without_subset _ _ (hx' ▸ hn)
  · refine hx' ▸ mem_without.mpr ⟨hn, fun hid => ?_⟩
    rw [hsingle n hn hid] at hnet
    cases hnet
  · refine hx' ▸ mem_without.mpr ⟨hn, fun hid => hrefers (.inl ?_)⟩
    rw [← hid]
    exact hl
  · exact hx' ▸ mem_without.mpr ⟨hn, fun hid => hne (hid ▸ hgone)⟩
  · refine List.mem_filter.mpr ⟨hc, ?_⟩
    rw [decide_eq_true_eq]
    exact fun hid => hne (hid ▸ hgone)

theorem cleanUp_ok (h : cleanUp order db nbId = .ok db') : Cleaned gone db db' := by
  unfold cleanUp at h
  cases hdelete : deleteUnused order db nbId with
  | ok db₁ =>
    rw [hdelete] at h
    obtain rfl := Except.ok.inj h
    exact deleteUnused_ok hgone ht hparents hsingle hdelete
  | error err =>
    rw [hdelete] at h
    dsimp only at h
    split_ifs at h
    · obtain rfl := Except.ok.inj h
      exact .refl gone db

end

theorem cleanUps_ok (ht : WellFormed db.netblock) (hparents : ParentsAreNetworks db.netblock)
    (hsingle : ∀ n ∈ db.netblock, n.netblockId ∈ gone → n.isSingleAddress = true)
    (h : gone.foldlM (cleanUp order) db = .ok db') : Cleaned gone db db' := by
  refine foldlM_keeps (P := Cleaned gone db) (fun id hid db₁ db₂ h₁ h₂ => ?_) (.refl gone db) h
  refine h₁.trans (cleanUp_ok hid (ht.mono h₁.subset) (fun n hn p hp => ?_) (fun n hn hnid => ?_) h₂)
  · obtain ⟨m, hm, hmid, hnet⟩ := hparents n (h₁.subset hn) p hp
    exact ⟨m, h₁.networks m hm hnet, hmid, hnet⟩
  · exact hsingle n (h₁.subset hn) (hnid ▸ hid)

/-- The row is in a netblock of a collection that says to ignore it. -/
def WithinIgnored (db : Db) (n : Netblock) : Prop :=
  ∃ n2 ∈ db.netblock, db.IsIgnoring n2 ∧ n.ipAddress.subnetEq n2.ipAddress

/-- **Pruning**: what stays on the interface. -/
theorem prune_ok {ary : List ℕ} (hdb : Constraints db) (h : prune order db l3i ary = .ok db') :
    db'.layer3Interface = db.layer3Interface ∧
      db'.layer3InterfaceNetblock ⊆ db.layer3InterfaceNetblock ∧
      (∀ n ∈ db.netblock, n.netblockId ∈ ary → ∀ l ∈ db.layer3InterfaceNetblock,
        l.netblockId = n.netblockId → n ∈ db'.netblock ∧ l ∈ db'.layer3InterfaceNetblock) ∧
      ∀ l ∈ db'.layer3InterfaceNetblock, l.layer3InterfaceId = l3i →
        ∃ n ∈ db.netblock, n ∈ db'.netblock ∧ n.netblockId = l.netblockId ∧
          (n.netblockId ∈ ary ∨ WithinIgnored db' n) := by
  obtain ⟨db₁, hdelete, h⟩ := bind_eq_ok.mp h
  obtain rfl := deleteFromInterfaces_ok hdelete
  set gone := (db.layer3InterfaceNetblock.filter (IsLeftover db l3i ary)).map (·.netblockId)
    with hgone
  have hmem : ∀ id ∈ gone, ∃ l ∈ db.layer3InterfaceNetblock, l.netblockId = id ∧
      IsLeftover db l3i ary l := by
    intro id hid
    obtain ⟨l, hl, rfl⟩ := List.mem_map.mp hid
    obtain ⟨hl, hleft⟩ := List.mem_filter.mp hl
    exact ⟨l, hl, rfl, of_decide_eq_true hleft⟩
  have hsingle : ∀ n ∈ db.netblock, n.netblockId ∈ gone → n.isSingleAddress = true := by
    intro n hn hid
    obtain ⟨l, hl, hlid, -⟩ := hmem _ hid
    obtain ⟨n', hn', hid', hsingle⟩ := hdb.single l hl
    rwa [hdb.wellFormed.pk n' hn' n hn (hid'.trans hlid)] at hsingle
  have hcleaned : Cleaned gone { db with
      layer3InterfaceNetblock := db.layer3InterfaceNetblock.filter fun l =>
        ¬ IsLeftover db l3i ary l } db' := cleanUps_ok hdb.wellFormed hdb.parents hsingle h
  have hlin : ∀ l, l ∈ db'.layer3InterfaceNetblock ↔
      l ∈ db.layer3InterfaceNetblock ∧ ¬ IsLeftover db l3i ary l := fun l => by
    rw [hcleaned.layer3InterfaceNetblock]
    simp
  refine ⟨hcleaned.layer3Interface, fun l hl => ((hlin l).mp hl).1, ?_, fun l hl hi => ?_⟩
  · intro n hn hary l hl hid
    have hl' : l ∈ db'.layer3InterfaceNetblock := by
      refine (hlin l).mpr ⟨hl, fun hleft => ?_⟩
      obtain ⟨-, n', -, -, hnot⟩ := hleft
      exact hnot (.inl (hid ▸ hary))
    exact ⟨hcleaned.used n hn ⟨l, hcleaned.layer3InterfaceNetblock ▸ hl', hid⟩, hl'⟩
  · obtain ⟨hl₀, hnot⟩ := (hlin l).mp hl
    obtain ⟨n, hn, hid, -⟩ := hdb.single l hl₀
    have hn' : n ∈ db'.netblock :=
      hcleaned.used n hn ⟨l, hcleaned.layer3InterfaceNetblock ▸ hl, hid.symm⟩
    refine ⟨n, hn, hn', hid, ?_⟩
    by_contra hneither
    rw [not_or] at hneither
    refine hnot ⟨hi, n, hn, hid, ?_⟩
    rintro (hary | ⟨n2, hn2, hignoring, hsub⟩)
    · exact hneither.1 (hid ▸ hary)
    -- a netblock that says to ignore what is in it is not itself left over
    have hn2gone : n2.netblockId ∉ gone := by
      intro hid2
      obtain ⟨l', -, hl'id, -, n3, hn3, hn3id, hn3not⟩ := hmem _ hid2
      obtain rfl := hdb.wellFormed.pk n3 hn3 n2 hn2 (hn3id.trans hl'id)
      exact hn3not (.inr ⟨n3, hn2, hignoring, Inet.subnetEq_iff.mpr le_rfl⟩)
    obtain ⟨ncn, hncn, hncnid, hrest⟩ := hignoring
    refine hneither.2 ⟨n2, hcleaned.others n2 hn2 hn2gone, ⟨ncn, hcleaned.members ncn hncn
      (hncnid ▸ hn2gone), hncnid, ?_⟩, hsub⟩
    rw [hcleaned.vNetblockCollectionExpanded, hcleaned.property]
    exact hrest

/-! ## The call -/

def IsGiven (db : Db) (args : Arguments) (l3i : ℕ) : Prop :=
  args.layer3InterfaceId = some l3i ∨ (args.layer3InterfaceId = none ∧
    ∃ i ∈ db.layer3Interface, i.layer3InterfaceId = l3i ∧ args.deviceId = some i.deviceId ∧
      args.layer3InterfaceName = i.layer3InterfaceName)

theorem givenInterface_ok (hdb : Constraints db) (h : givenInterface db args = .ok (db', l3i)) :
    Constraints db' ∧ IsGiven db' args l3i := by
  unfold givenInterface at h
  split at h
  · next hid =>
    cases h
    exact ⟨hdb, .inl hid⟩
  · next hid hdevice hname =>
    split at h
    · next i hfind =>
      cases h
      have hi := List.find?_some hfind
      simp only [decide_eq_true_eq] at hi
      exact ⟨hdb, .inr ⟨hid, i, List.mem_of_find?_eq_some hfind, rfl, by rw [hdevice, hi.1],
        by rw [hname, hi.2]⟩⟩
    · simp only [bind_unit_eq_ok, Except.ok.injEq, Prod.mk.injEq] at h
      obtain ⟨-, -, rfl, rfl⟩ := h
      exact ⟨⟨hdb.wellFormed, hdb.parents, hdb.onOne, hdb.single⟩, .inr ⟨hid, _,
        List.mem_append_right _ (List.mem_singleton_self _), rfl, hdevice, hname⟩⟩
  · exact absurd h raise_ne_ok

/-- The row of the address is on the interface, and on no other. -/
def OnlyOn (db : Db) (l3i : ℕ) (a : Address) : Prop :=
  ∃ n ∈ db.netblock, a.IsSingle n ∧
    (∃ l ∈ db.layer3InterfaceNetblock, l.netblockId = n.netblockId ∧ l.layer3InterfaceId = l3i) ∧
    ∀ l ∈ db.layer3InterfaceNetblock, l.netblockId = n.netblockId → l.layer3InterfaceId = l3i

section Call

variable (first pick order setDnsForInterface)

/-- The variables of the loop when the elements `l` of the list have had their turn. -/
def AtTurn (db : Db) (args : Arguments) (l3i : ℕ) (l : List Element) (r : Loop) : Prop :=
  ∃ db₀, givenInterface db args = .ok (db₀, l3i) ∧
    l.foldlM (assign first order setDnsForInterface pick args l3i) ⟨db₀, []⟩ = .ok r

/-- What the call is for. -/
structure AddressesSet (db : Db) (args : Arguments) (db' : Db) (l3i : ℕ) : Prop where
  given : IsGiven db' args l3i
  requested : ∀ l₁ e l₂, args.ipAddresses = l₁ ++ e :: l₂ → ∃ r a,
    AtTurn first pick order setDnsForInterface db args l3i l₁ r ∧ readElement r.db e = .ok a ∧
      (r.db.Ignores a ∨ Skips args r.db a ∨ OnlyOn db' l3i a)
  noOther : ∀ l ∈ db'.layer3InterfaceNetblock, l.layer3InterfaceId = l3i →
    ∃ n ∈ db'.netblock, n.netblockId = l.netblockId ∧ (WithinIgnored db' n ∨
      ∃ l₁ e l₂ r a, args.ipAddresses = l₁ ++ e :: l₂ ∧
        AtTurn first pick order setDnsForInterface db args l3i l₁ r ∧
          readElement r.db e = .ok a ∧ ¬ r.db.Ignores a ∧ a.IsSingle n)

end Call

/-- **The addresses of the interface.**  When addresses are always moved, every address of the list
that is not ignored is on the interface and no other afterwards, unless layer 3 networks may not
be created and it needs one; and the interface has no other addresses than these and ignored
ones. -/
theorem setLayer3InterfaceAddresses_ok (hdb : Constraints db)
    (halways : args.moveAddresses = some "always")
    (h : setLayer3InterfaceAddresses first order setDnsForInterface pick db args = .ok db') :
    ∃ l3i, AddressesSet first pick order setDnsForInterface db args db' l3i := by
  obtain ⟨⟨db₀, l3i⟩, hgiven, h⟩ := bind_eq_ok.mp h
  obtain ⟨r, hloop, h⟩ := bind_eq_ok.mp h
  obtain ⟨hdb₀, hisGiven⟩ := givenInterface_ok hdb hgiven
  obtain ⟨hprogress, hdone, hasked⟩ := loop_ok hdb₀ halways hloop
  obtain ⟨hinterfaces, hsub, hstays, hleft⟩ := prune_ok hprogress.constraints h
  refine ⟨l3i, ?_, fun l₁ e l₂ hsplit => ?_, fun l hl hi => ?_⟩
  · unfold IsGiven
    rw [hinterfaces, hprogress.layer3Interface]
    exact hisGiven
  · obtain ⟨r₁, hr₁, a, ha, hout⟩ := hdone l₁ e l₂ hsplit
    refine ⟨r₁, a, ⟨db₀, hgiven, hr₁⟩, ha, hout.imp_right (.imp_right ?_)⟩
    rintro ⟨n, hn, hsingle, hary, l, hl, hid, hi⟩
    obtain ⟨hn', hl'⟩ := hstays n hn hary l hl hid
    refine ⟨n, hn', hsingle, ⟨l, hl', hid, hi⟩, fun l₀ hl₀ hid₀ => ?_⟩
    rw [hprogress.constraints.onOne l₀ (hsub hl₀) l hl (hid₀.trans hid.symm)]
    exact hi
  · obtain ⟨n, hn, hn', hid, hary | hwithin⟩ := hleft l hl hi
    · refine ⟨n, hn', hid, .inr ?_⟩
      obtain hnil | ⟨l₁, e, l₂, r₁, hsplit, hr₁, a, ha, hignores, m, hm, hmid, hsingle⟩ :=
        hasked _ hary
      · exact absurd hnil List.not_mem_nil
      · rw [hprogress.constraints.wellFormed.pk m hm n hn hmid] at hsingle
        exact ⟨l₁, e, l₂, r₁, a, hsplit, ⟨db₀, hgiven, hr₁⟩, ha, hignores, hsingle⟩
    · exact ⟨n, hn', hid, .inl hwithin⟩

/-- Two shared addresses of a network, none of them on an interface. -/
def twoShared : Db where
  schema := .initial
  netblock := [⟨1, .v4 10 0 0 0 24, "default", false, false, none, 0⟩,
    ⟨2, .v4 10 0 0 5 24, "default", true, false, some 1, 0⟩,
    ⟨3, .v4 10 0 0 6 24, "default", true, false, some 1, 0⟩]
  layer3Network := [⟨1, 1, none, none, none⟩]
  layer3Interface := [⟨1, some "eth0", "broadcast", 1⟩]
  layer3InterfaceNetblock := []
  sharedNetblock := [⟨3, 2⟩, ⟨7, 3⟩]
  sharedNetblockLayer3Interface := []
  dnsRecord := []
  netblockCollectionNetblock := []
  device := [1]
  vNetblockCollectionExpanded := []
  property := []
  serviceInstance := []
  providerSharedNetblock := []
  providerSharedInterface := []
  netblockReferences := []
  dnsRecordReferences := []
  nextNetblockId := 4
  nextLayer3NetworkId := 2
  nextLayer3InterfaceId := 2

/-- One of them, and an address without a network. -/
def oneAndAnother : Arguments where
  layer3InterfaceId := some 1
  ipAddresses := [.string (.v4 10 0 0 5 24), .string (.v4 172 16 0 1 24)]
  moveAddresses := some "always"

/-- The device has no name in a DNS domain. -/
def noDns (db : Db) (_ : ℕ) (_ : Option String) (_ : ℕ) : Result (List DnsRecord) :=
  .ok db.dnsRecord

theorem constraints_twoShared : Constraints twoShared := by
  refine ⟨by decide, fun n hn p hp => ?_, by decide, by decide⟩
  simp only [twoShared, List.mem_cons, List.not_mem_nil, or_false] at hn
  rcases hn with rfl | rfl | rfl <;> cases hp <;> exact ⟨_, List.mem_cons_self, rfl, rfl⟩

/-- The address of the list is on the interface; the other one has no network, and is passed over. -/
def afterOne : Db :=
  { twoShared with
    layer3InterfaceNetblock := [⟨2, 1, 1, 0⟩]
    sharedNetblock := [⟨3, 2⟩] }

theorem addressesSet_twoShared : setLayer3InterfaceAddresses (.listed _) .asIs noDns (.listed _)
      twoShared oneAndAnother = .ok afterOne ∧
    ∃ l3i, AddressesSet (.listed _) (.listed _) .asIs noDns twoShared oneAndAnother afterOne l3i :=
  have hcall : setLayer3InterfaceAddresses (.listed _) .asIs noDns (.listed _) twoShared
      oneAndAnother = .ok afterOne := rfl
  ⟨hcall, setLayer3InterfaceAddresses_ok constraints_twoShared rfl hcall⟩

/-- The call succeeds.  The second address is not on the interface; the first one is, and it is
still shared, but the other address of the network, which is not of the list, no longer is. -/
theorem sharedStays : ∃ db', setLayer3InterfaceAddresses (.listed _) .asIs noDns (.listed _)
      twoShared oneAndAnother = .ok db' ∧
    (¬ ∃ n ∈ db'.netblock, n.ipAddress.host = (Inet.v4 172 16 0 1 24).host) ∧
    (∃ n ∈ db'.netblock, n.ipAddress = .v4 10 0 0 5 24 ∧
      ∃ sn ∈ db'.sharedNetblock, sn.netblockId = n.netblockId) ∧
    ∃ sn ∈ twoShared.sharedNetblock, sn ∉ db'.sharedNetblock ∧
      ∃ n ∈ twoShared.netblock, n.netblockId = sn.netblockId ∧ n.ipAddress = .v4 10 0 0 6 24 :=
  ⟨afterOne, rfl, by decide, by decide, by decide⟩

end JazzHands.Layer3

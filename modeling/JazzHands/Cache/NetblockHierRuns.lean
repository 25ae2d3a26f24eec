import JazzHands.Cache.NetblockUpdate

/-!
# `ct_netblock_hier` over whole runs

The results for the three kinds of statements are one iff on a transaction, and an induction over
runs makes the invariant of them.
-/

namespace JazzHands.NetblockHier

open Library Postgres

variable {db : Schema} {order : ScanOrder} {t : List Netblock} {d d' : HierDb} {s : Statement}

/-- An INSERT keeps the cache, a DELETE of a netblock that is at the top or has no grandchild, and an
UPDATE after which the netblock is at the top or has no child, if the children that it loses to a
parent have none either. -/
def KeepsHier (db : Schema) (t : List Netblock) : Statement → Prop
  | .insert _ => True
  | .update netblockId set => ∀ old ∈ findNetblock t netblockId,
      ∀ n ∈ ((set.apply old).complete db t).toOption,
        MayMove db t set.firesManipulate old
          { n with parentNetblockId := writtenParent db t set.firesManipulate n }
  | .delete netblockId => ∀ old ∈ findNetblock t netblockId, MayDelete t old

instance : Decidable (KeepsHier db t s) := by
  cases s <;> unfold KeepsHier <;> infer_instance

theorem settled_of_transaction (ht : Settled d.netblock) (hs : OnNetworks s)
    (h : transaction db order d s = .ok d') (hkeys : (keys d'.netblock).Nodup)
    (hE : Acyclic (Up d'.netblock)) : Settled d'.netblock := by
  rcases transaction_ok ht.wellFormed (transaction_netblock h) with he | ⟨gone, written, hc⟩
  · rw [he]
    exact ht
  · refine ⟨hc.wellFormed, hkeys, network_change ht hc hs, fun n hn p hp => ?_,
      SameKind.change ht hc hs, hE⟩
    obtain ⟨m, hm⟩ := hc.parent n hn p hp
    exact ⟨m, findNetblock_eq_some hm⟩

theorem transaction_holds_iff (ht : Settled d.netblock) (hd : Holds d) (hs : OnNetworks s)
    (h : transaction db order d s = .ok d') :
    (keys d'.netblock).Nodup ∧ Library.Acyclic (Up d'.netblock) ∧
      (Holds d' ↔ KeepsHier db d.netblock s) := by
  obtain ⟨x, hx, h⟩ := bind_eq_ok.mp h
  obtain ⟨t', hc, h⟩ := bind_eq_ok.mp h
  obtain rfl := Except.ok.inj h
  have hsame : x = ⟨⟨d.netblock, []⟩, d.ctNetblockHier⟩ →
      (keys t').Nodup ∧ Library.Acyclic (Up t') ∧ Holds ⟨t', x.ctNetblockHier⟩ := by
    rintro rfl
    obtain rfl := (commit_ok hc).1
    exact ⟨ht.keys, ht.acyclic, hd⟩
  cases s with
  | insert rec =>
    obtain ⟨hkeys, hE, hholds⟩ := holds_insert ht hd hs hx hc
    exact ⟨hkeys, hE, iff_of_true hholds trivial⟩
  | update i set =>
    rw [execute] at hx
    cases hf : findNetblock d.netblock i with
    | none =>
      rw [hf] at hx
      obtain ⟨hkeys, hE, hholds⟩ := hsame (Except.ok.inj hx).symm
      refine ⟨hkeys, hE, iff_of_true hholds fun old hold => ?_⟩
      rw [hf] at hold
      cases hold
    | some old =>
      rw [hf] at hx
      obtain ⟨hkeys, hE, n, hn, hiff⟩ := holds_update_iff ht hd (findNetblock_eq_some hf).1 hs hx hc
      refine ⟨hkeys, hE, hiff.trans ⟨fun hmay o ho m hm => ?_, fun hall => ?_⟩⟩
      · rw [hf, Option.mem_some_iff] at ho
        subst ho
        rw [hn, Except.toOption, Option.mem_some_iff] at hm
        subst hm
        exact hmay
      · exact hall old hf n (by rw [hn]; rfl)
  | delete i =>
    rw [execute] at hx
    cases hf : findNetblock d.netblock i with
    | none =>
      rw [hf] at hx
      obtain ⟨hkeys, hE, hholds⟩ := hsame (Except.ok.inj hx).symm
      refine ⟨hkeys, hE, iff_of_true hholds fun old hold => ?_⟩
      rw [hf] at hold
      cases hold
    | some old =>
      rw [hf] at hx
      obtain ⟨hkeys, hE, hiff⟩ := holds_delete_iff ht hd (findNetblock_eq_some hf).1 hx hc
      refine ⟨hkeys, hE, hiff.trans ⟨fun hmay o ho => ?_, fun hall => hall old hf⟩⟩
      rw [hf, Option.mem_some_iff] at ho
      exact ho ▸ hmay

/-- **A committed statement** keeps the cache exactly when it is one of those. -/
theorem hierExact_transaction_iff (ht : Settled d.netblock)
    (hd : HierExact d.netblock d.ctNetblockHier) (hs : OnNetworks s)
    (h : transaction db order d s = .ok d') :
    Settled d'.netblock ∧
      (HierExact d'.netblock d'.ctNetblockHier ↔ KeepsHier db d.netblock s) := by
  have hholds := (hierExact_iff ht.networks ht.acyclic).mp hd
  obtain ⟨hkeys, hE, hiff⟩ := transaction_holds_iff ht hholds hs h
  have ht' := settled_of_transaction ht hs h hkeys hE
  exact ⟨ht', (hierExact_iff ht'.networks ht'.acyclic).trans hiff⟩

/-! ## Runs -/

/-- The table is one of networks, and the cache is its view. -/
structure Right (d : HierDb) : Prop where
  settled : Settled d.netblock
  exact : HierExact d.netblock d.ctNetblockHier

theorem Right.step {sa : Statement × ScanOrder} (h : Right d) (hs : OnNetworks sa.1)
    (hkeeps : KeepsHier db d.netblock sa.1) : Right (step db d sa) := by
  rw [NetblockHier.step]
  cases hx : transaction db sa.2 d sa.1 with
  | error e => exact h
  | ok d' =>
    obtain ⟨ht', hiff⟩ := hierExact_transaction_iff h.settled h.exact hs hx
    exact ⟨ht', hiff.mpr hkeeps⟩

/-- **The cache is its view** after every statement of every run of statements on networks that all
keep it. -/
theorem hierExact_run (h : Right d) {l : List (Statement × ScanOrder)}
    (hl : AllSteps (step db) (fun d sa => OnNetworks sa.1 ∧ KeepsHier db d.netblock sa.1) d l) :
    ∀ l', l' <+: l → HierExact (run (step db) d l').netblock (run (step db) d l').ctNetblockHier := by
  rintro l' ⟨l'', rfl⟩
  exact (run_invariant (fun _ _ hr hs => hr.step hs.1 hs.2) h (AllSteps.append.mp hl).1).exact

theorem right_nil : Right ⟨[], []⟩ := ⟨settled_nil, .refl _⟩

/-- A block is put between two others, one is widened, and one at the top is deleted. -/
def growing : List (Statement × ScanOrder) :=
  [(.insertNetwork 1 (.v4 10 0 0 0 8) true, .asIs),
    (.insertNetwork 2 (.v4 10 1 1 0 24) true, .asIs),
    (.insertNetwork 3 (.v4 10 1 1 0 25) true, .asIs),
    (.insertNetwork 4 (.v4 10 1 0 0 16) true, .asIs),
    (.setIpAddress 3 (.v4 10 1 1 0 26), .asIs),
    (.delete 1, .asIs)]

theorem hierExact_run_growing :
    HierExact (run (step .initial) ⟨[], []⟩ growing).netblock
      (run (step .initial) ⟨[], []⟩ growing).ctNetblockHier :=
  hierExact_run (l := growing) right_nil
    ⟨⟨nofun, trivial⟩, ⟨nofun, trivial⟩, ⟨nofun, trivial⟩, ⟨nofun, trivial⟩,
    ⟨⟨rfl, rfl⟩, by decide⟩, ⟨trivial, by decide⟩, trivial⟩
    growing List.prefix_rfl

/-- Four blocks inside each other, of which the second is deleted. -/
def deleteMiddle : List (Statement × ScanOrder) :=
  [(.insertNetwork 1 (.v4 10 0 0 0 8) true, .asIs),
    (.insertNetwork 2 (.v4 10 1 0 0 16) true, .asIs),
    (.insertNetwork 3 (.v4 10 1 1 0 24) true, .asIs),
    (.insertNetwork 4 (.v4 10 1 1 0 25) true, .asIs),
    (.delete 2, .asIs)]

/-- The third block hangs off the first one then, and the way from the fourth over it is lost. -/
theorem deleteMiddle_loses :
    (∀ sa ∈ deleteMiddle, OnNetworks sa.1) ∧
      (run (step .initial) ⟨[], []⟩ deleteMiddle).netblock.map
        (fun n => (n.netblockId, n.parentNetblockId)) = [(1, none), (3, some 1), (4, some 3)] ∧
      HasPath (vNetblockHier (run (step .initial) ⟨[], []⟩ deleteMiddle).netblock) [4, 3, 1] ∧
      ¬ HasPath (run (step .initial) ⟨[], []⟩ deleteMiddle).ctNetblockHier [4, 3, 1] ∧
      ¬ HierExact (run (step .initial) ⟨[], []⟩ deleteMiddle).netblock
        (run (step .initial) ⟨[], []⟩ deleteMiddle).ctNetblockHier := by
  refine ⟨?_, by decide, by decide, by decide, by decide⟩
  simp [deleteMiddle, Statement.insertNetwork, OnNetworks]

end JazzHands.NetblockHier

import JazzHands.Library.Ascent
import JazzHands.Cache.AccountCollection
import Mathlib.Data.List.Perm.Subperm

/-!
# The rows of the caches of account collections

Views and caches are tables of ways up, each way once (`Holds`).  A view has them by induction on
its rounds.  With a new edge come the pairs of a way up to its lower end and one from its upper end
(`glue`), which is what the handlers of both caches insert.
-/

namespace JazzHands.AccountCollection

open Library Postgres

variable {coll : List ℕ} {hier hier' : List Hier} {ct ct' : List HierRow} {r : HierRow}
  {new old : Hier} {db : Db}

/-! ## The hierarchy -/

/-- `y` is a parent of `x`. -/
def Up (hier : List Hier) (x y : ℕ) : Prop := ⟨y, x⟩ ∈ hier

/-- The keys hold, and the hierarchy has no cycle. -/
structure Valid (coll : List ℕ) (hier : List Hier) : Prop where
  collections : coll.Nodup
  edges : hier.Nodup
  parents : ∀ h ∈ hier, h.accountCollectionId ∈ coll
  children : ∀ h ∈ hier, h.childAccountCollectionId ∈ coll
  acyclic : Acyclic (Up hier)

theorem up_erase (old : Hier) (h : hier.Nodup) :
    Cut (Up hier) (Up (hier.erase old)) old.childAccountCollectionId old.accountCollectionId := by
  intro x y
  show _ ∈ hier.erase old ↔ _ ∈ hier ∧ _
  rw [h.mem_erase_iff, and_comm, and_congr_right_iff]
  intro _
  obtain ⟨p, c⟩ := old
  simp only [ne_eq, Hier.mk.injEq]
  tauto

theorem up_append : Linked (Up hier) (Up (hier ++ [new]))
    new.childAccountCollectionId new.accountCollectionId := by
  intro x y
  show _ ∈ hier ++ [new] ↔ _ ∈ hier ∨ _
  rw [List.mem_append, List.mem_singleton]
  obtain ⟨p, c⟩ := new
  simp only [Hier.mk.injEq]
  tauto

theorem Valid.erase (h : Valid coll hier) : Valid coll (hier.erase old) where
  collections := h.collections
  edges := h.edges.erase old
  parents e he := h.parents e (List.mem_of_mem_erase he)
  children e he := h.children e (List.mem_of_mem_erase he)
  acyclic := (up_erase old h.edges).acyclic h.acyclic

theorem Valid.append (h : Valid coll hier) (hnew : new ∉ hier)
    (hp : new.accountCollectionId ∈ coll) (hc : new.childAccountCollectionId ∈ coll)
    (hacyclic : Acyclic (Up (hier ++ [new]))) : Valid coll (hier ++ [new]) where
  collections := h.collections
  edges := by
    refine List.nodup_append.mpr ⟨h.edges, List.nodup_singleton _, ?_⟩
    rintro e he _ he' rfl
    obtain rfl := List.mem_singleton.mp he'
    exact hnew he
  parents e he := by
    rcases List.mem_append.mp he with he | he
    · exact h.parents e he
    · obtain rfl := List.mem_singleton.mp he
      exact hp
  children e he := by
    rcases List.mem_append.mp he with he | he
    · exact h.children e he
    · obtain rfl := List.mem_singleton.mp he
      exact hc
  acyclic := hacyclic

/-! ## Rows and ways up -/

/-- The row describes a way up from one collection to another. -/
structure IsWayUp (coll : List ℕ) (hier : List Hier) (r : HierRow) : Prop where
  ascends : Ascends (Up hier) r.path r.accountCollectionId r.rootAccountCollectionId
  mem : r.accountCollectionId ∈ coll
  noCycle : r.cycle = false

/-- The table has exactly one row for each way up. -/
structure Holds (coll : List ℕ) (hier : List Hier) (ct : List HierRow) : Prop where
  nodup : ct.Nodup
  mem : ∀ r, r ∈ ct ↔ IsWayUp coll hier r

/-- The table has rows for ways up only, and none twice. -/
structure Within (coll : List ℕ) (hier : List Hier) (ct : List HierRow) : Prop where
  nodup : ct.Nodup
  isWayUp : ∀ r ∈ ct, IsWayUp coll hier r

theorem Holds.within (h : Holds coll hier ct) : Within coll hier ct :=
  ⟨h.nodup, fun r => (h.mem r).mp⟩

theorem Holds.perm (h : Holds coll hier ct) (h' : Holds coll hier ct') : ct.Perm ct' :=
  (List.perm_ext_iff_of_nodup h.nodup h'.nodup).mpr fun r => (h.mem r).trans (h'.mem r).symm

theorem Holds.of_perm (h : Holds coll hier ct) (hperm : ct'.Perm ct) : Holds coll hier ct' where
  nodup := hperm.nodup_iff.mpr h.nodup
  mem r := hperm.mem_iff.trans (h.mem r)

theorem isWayUp_self {id : ℕ} (h : id ∈ coll) : IsWayUp coll hier (.self id) :=
  ⟨.singleton id, h, rfl⟩

theorem IsWayUp.eq_of_path (h : IsWayUp coll hier r) {q : HierRow} (hq : IsWayUp coll hier' q)
    (hpath : q.path = r.path) : q = r := by
  have ha := hq.ascends
  rw [hpath] at ha
  refine HierRow.ext ?_ ?_ hpath (hq.noCycle.trans h.noCycle.symm)
  · exact Option.some_inj.mp (ha.last.symm.trans h.ascends.last)
  · exact Option.some_inj.mp (ha.head.symm.trans h.ascends.head)

theorem Valid.mem_of_mem_path (h : Valid coll hier) (hr : IsWayUp coll hier r) {x : ℕ}
    (hx : x ∈ r.path) : x ∈ coll := by
  have hreach := hr.ascends.reflTransGen_of_mem hx
  rcases Relation.ReflTransGen.cases_tail hreach with rfl | ⟨y, -, hyx⟩
  · exact hr.mem
  · exact h.parents _ hyx

theorem Valid.length_le (h : Valid coll hier) (hr : IsWayUp coll hier r) :
    r.path.length ≤ coll.length :=
  (List.subperm_of_subset (h.acyclic.nodup hr.ascends.chain)
    fun _ hx => h.mem_of_mem_path hr hx).length_le

/-! ## The views -/

theorem mem_base_iff : r ∈ coll.map HierRow.self ↔ IsWayUp coll hier r ∧ r.path.length = 1 := by
  constructor
  · intro hr
    obtain ⟨id, hid, rfl⟩ := List.mem_map.mp hr
    exact ⟨isWayUp_self hid, rfl⟩
  · rintro ⟨hr, hlen⟩
    obtain ⟨x, hx⟩ := List.length_eq_one_iff.mp hlen
    have ha := hr.ascends
    rw [hx] at ha
    obtain ⟨h₁, h₂⟩ := Ascends.singleton_iff.mp ha
    refine List.mem_map.mpr ⟨x, h₁ ▸ hr.mem, HierRow.ext h₂ h₁ hx.symm hr.noCycle.symm⟩

theorem nodup_base (h : coll.Nodup) : (coll.map HierRow.self).Nodup :=
  h.map fun _ _ hab => congrArg HierRow.accountCollectionId hab

theorem mem_ascend_iff {x : HierRow} : r ∈ ascend hier x ↔ x.cycle = false ∧
    ∃ y, Up hier x.rootAccountCollectionId y ∧
      r = ⟨y, x.accountCollectionId, x.path ++ [y], decide (y ∈ x.path)⟩ := by
  rw [ascend]
  by_cases hc : x.cycle = true
  · simp [hc]
  · rw [if_neg hc]
    simp only [Bool.not_eq_true] at hc
    simp only [List.mem_map, List.mem_filter, decide_eq_true_eq, hc, true_and]
    constructor
    · rintro ⟨⟨y, c⟩, ⟨he, rfl⟩, rfl⟩
      exact ⟨y, he, rfl⟩
    · rintro ⟨y, hy, rfl⟩
      exact ⟨⟨y, x.rootAccountCollectionId⟩, ⟨hy, rfl⟩, rfl⟩

theorem mem_descend_iff {x : HierRow} : r ∈ descend hier x ↔ x.cycle = false ∧
    ∃ y, Up hier y x.accountCollectionId ∧
      r = ⟨x.rootAccountCollectionId, y, y :: x.path, decide (y ∈ x.path)⟩ := by
  rw [descend]
  by_cases hc : x.cycle = true
  · simp [hc]
  · rw [if_neg hc]
    simp only [Bool.not_eq_true] at hc
    simp only [List.mem_map, List.mem_filter, decide_eq_true_eq, hc, true_and]
    constructor
    · rintro ⟨⟨p, y⟩, ⟨he, rfl⟩, rfl⟩
      exact ⟨y, he, rfl⟩
    · rintro ⟨y, hy, rfl⟩
      exact ⟨⟨x.accountCollectionId, y⟩, ⟨hy, rfl⟩, rfl⟩

/-- The rows of a round of the first view: a way up grows at its root. -/
theorem mem_rounds_ascend (h : Valid coll hier) {n : ℕ} :
    r ∈ rounds (ascend hier) (coll.map .self) n ↔
      IsWayUp coll hier r ∧ r.path.length = n + 1 := by
  induction n generalizing r with
  | zero => exact mem_base_iff
  | succ n ih =>
    rw [mem_rounds_succ]
    constructor
    · rintro ⟨x, hx, hr⟩
      obtain ⟨hway, hlen⟩ := ih.mp hx
      obtain ⟨-, y, hy, rfl⟩ := mem_ascend_iff.mp hr
      have ha := hway.ascends.append hy (.singleton y)
      refine ⟨⟨ha, hway.mem, ?_⟩, by simp [hlen]⟩
      have hnodup := h.acyclic.nodup ha.chain
      exact decide_eq_false fun hmem =>
        (List.nodup_append.mp hnodup).2.2 y hmem y List.mem_cons_self rfl
    · rintro ⟨hway, hlen⟩
      obtain ⟨s, c, hs, ha, hup⟩ := hway.ascends.exists_concat (by omega)
      have hx : IsWayUp coll hier ⟨c, r.accountCollectionId, s, false⟩ := ⟨ha, hway.mem, rfl⟩
      refine ⟨_, ih.mpr ⟨hx, ?_⟩, mem_ascend_iff.mpr ⟨rfl, _, hup, ?_⟩⟩
      · rw [hs, List.length_append, List.length_singleton] at hlen
        exact Nat.succ_inj.mp hlen
      · have hnodup := h.acyclic.nodup hway.ascends.chain
        rw [hs] at hnodup
        refine HierRow.ext rfl rfl hs ?_
        rw [hway.noCycle]
        exact (decide_eq_false fun hmem =>
          (List.nodup_append.mp hnodup).2.2 _ hmem _ List.mem_cons_self rfl).symm

/-- The rows of a round of the second view: a way up grows at its leaf. -/
theorem mem_rounds_descend (h : Valid coll hier) {n : ℕ} :
    r ∈ rounds (descend hier) (coll.map .self) n ↔
      IsWayUp coll hier r ∧ r.path.length = n + 1 := by
  induction n generalizing r with
  | zero => exact mem_base_iff
  | succ n ih =>
    rw [mem_rounds_succ]
    constructor
    · rintro ⟨x, hx, hr⟩
      obtain ⟨hway, hlen⟩ := ih.mp hx
      obtain ⟨-, y, hy, rfl⟩ := mem_descend_iff.mp hr
      have ha := (Ascends.singleton y).append hy hway.ascends
      refine ⟨⟨ha, h.children _ hy, ?_⟩, by simp [hlen]⟩
      have hnodup := h.acyclic.nodup ha.chain
      exact decide_eq_false fun hmem => (List.nodup_cons.mp hnodup).1 hmem
    · rintro ⟨hway, hlen⟩
      obtain ⟨b, t, ht, hup, ha⟩ := hway.ascends.exists_cons (by omega)
      have hx : IsWayUp coll hier ⟨r.rootAccountCollectionId, b, t, false⟩ :=
        ⟨ha, h.parents _ hup, rfl⟩
      refine ⟨_, ih.mpr ⟨hx, ?_⟩, mem_descend_iff.mpr ⟨rfl, _, hup, ?_⟩⟩
      · rw [ht, List.length_cons] at hlen
        exact Nat.succ_inj.mp hlen
      · have hnodup := h.acyclic.nodup hway.ascends.chain
        rw [ht] at hnodup
        refine HierRow.ext rfl rfl ht ?_
        rw [hway.noCycle]
        exact (decide_eq_false fun hmem => (List.nodup_cons.mp hnodup).1 hmem).symm

section Views

variable {next : HierRow → List HierRow}

/-- The rows of the rounds of a view are the ways up, when those of a round are the ways up of its
number of edges. -/
theorem holds_unionAll (h : Valid coll hier)
    (hrounds : ∀ n, ∀ r, r ∈ rounds next (coll.map .self) n ↔
      IsWayUp coll hier r ∧ r.path.length = n + 1)
    (hnext : ∀ x, (next x).Nodup)
    (hpath : ∀ x y, ∀ r ∈ next x, r ∈ next y → x.path = y.path) :
    Holds coll hier (unionAll next (coll.map .self) (coll.length + 1)) where
  nodup := by
    refine nodup_unionAll (fun r => r.path.length - 1) (nodup_base h.collections) hnext ?_ ?_
    · intro n x hx y hy r hrx hry
      exact ((hrounds n x).mp hx).1.eq_of_path ((hrounds n y).mp hy).1 (hpath x y r hrx hry).symm
        |>.symm
    · intro n r hr
      rw [((hrounds n r).mp hr).2, Nat.add_sub_cancel]
  mem r := by
    rw [mem_unionAll]
    constructor
    · rintro ⟨n, -, hr⟩
      exact ((hrounds n r).mp hr).1
    · intro hr
      have hpos := List.length_pos_of_ne_nil hr.ascends.ne_nil
      have hle := h.length_le hr
      exact ⟨r.path.length - 1, by omega, (hrounds _ r).mpr ⟨hr, by omega⟩⟩

/-- **`v_account_collection_hier_recurse` has one row for each way up.** -/
theorem holds_vRecurse (h : Valid db.accountCollection db.accountCollectionHier) :
    Holds db.accountCollection db.accountCollectionHier (vAccountCollectionHierRecurse db) := by
  refine holds_unionAll h (fun n r => mem_rounds_ascend h) ?_ ?_
  · intro x
    rw [ascend]
    split
    · exact List.nodup_nil
    · refine List.Nodup.map_on ?_ (h.edges.filter _)
      rintro ⟨p, c⟩ hp ⟨p', c'⟩ hp' hrow
      have hc := of_decide_eq_true (List.mem_filter.mp hp).2
      have hc' := of_decide_eq_true (List.mem_filter.mp hp').2
      exact congrArg₂ Hier.mk (congrArg HierRow.rootAccountCollectionId hrow) (hc.trans hc'.symm)
  · intro x y r hx hy
    obtain ⟨-, p, -, rfl⟩ := mem_ascend_iff.mp hx
    obtain ⟨-, q, -, hrow⟩ := mem_ascend_iff.mp hy
    exact (List.append_inj' (congrArg HierRow.path hrow) rfl).1

/-- **`v_account_collection_hier_from_ancestor` has one row for each way up.** -/
theorem holds_vFromAncestor (h : Valid db.accountCollection db.accountCollectionHier) :
    Holds db.accountCollection db.accountCollectionHier
      (vAccountCollectionHierFromAncestor db) := by
  refine holds_unionAll h (fun n r => mem_rounds_descend h) ?_ ?_
  · intro x
    rw [descend]
    split
    · exact List.nodup_nil
    · refine List.Nodup.map_on ?_ (h.edges.filter _)
      rintro ⟨p, c⟩ hp ⟨p', c'⟩ hp' hrow
      have hc := of_decide_eq_true (List.mem_filter.mp hp).2
      have hc' := of_decide_eq_true (List.mem_filter.mp hp').2
      exact congrArg₂ Hier.mk (hc.trans hc'.symm) (congrArg HierRow.accountCollectionId hrow)
  · intro x y r hx hy
    obtain ⟨-, p, -, rfl⟩ := mem_descend_iff.mp hx
    obtain ⟨-, q, -, hrow⟩ := mem_descend_iff.mp hy
    exact (List.cons.inj (congrArg HierRow.path hrow)).2

end Views

/-! ## Collections come and go -/

theorem IsWayUp.eq_self {id : ℕ} (hr : IsWayUp coll hier r) (halone : ∀ y, ¬ Up hier id y)
    (hid : r.accountCollectionId = id) : r = .self id := by
  obtain rfl := hid
  have hlen : ¬ 2 ≤ r.path.length := by
    intro hlen
    obtain ⟨b, -, -, hup, -⟩ := hr.ascends.exists_cons hlen
    exact halone b hup
  have hpos := List.length_pos_of_ne_nil hr.ascends.ne_nil
  obtain ⟨id, -, rfl⟩ := List.mem_map.mp (mem_base_iff.mpr ⟨hr, by omega⟩)
  rfl

theorem holds_insertCollection {id : ℕ} (hv : Valid coll hier) (h : Holds coll hier ct)
    (hid : id ∉ coll) (hct : baseHandler ct (.insert id) = .ok ct') :
    Holds (coll ++ [id]) hier ct' := by
  obtain ⟨-, hct⟩ := bind_unit_eq_ok.mp hct
  obtain rfl := Except.ok.inj hct
  have hself : ∀ r, IsWayUp (coll ++ [id]) hier r ↔ IsWayUp coll hier r ∨ r = .self id := by
    intro r
    constructor
    · intro hr
      rcases List.mem_append.mp hr.mem with hmem | hmem
      · exact Or.inl ⟨hr.ascends, hmem, hr.noCycle⟩
      · exact Or.inr (hr.eq_self (fun y hy => hid (hv.children _ hy)) (List.mem_singleton.mp hmem))
    · rintro (hr | rfl)
      · exact ⟨hr.ascends, List.mem_append_left _ hr.mem, hr.noCycle⟩
      · exact isWayUp_self (List.mem_append_right _ List.mem_cons_self)
  refine ⟨List.nodup_append.mpr ⟨h.nodup, List.nodup_singleton _, ?_⟩, fun r => ?_⟩
  · rintro r hr _ hr' rfl
    obtain rfl := List.mem_singleton.mp hr'
    exact hid ((h.mem _).mp hr).mem
  · rw [List.mem_append, List.mem_singleton, h.mem, hself]

/-- A collection without edges has no other row than its own. -/
theorem holds_deleteCollection {id : ℕ} (hv : Valid coll hier) (h : Holds coll hier ct)
    (hid : ∀ e ∈ hier, e.accountCollectionId ≠ id ∧ e.childAccountCollectionId ≠ id)
    (hct : baseHandler ct (.delete id) = .ok ct') : Holds (coll.erase id) hier ct' := by
  obtain rfl := Except.ok.inj hct
  refine ⟨h.nodup.filter _, fun r => ?_⟩
  rw [List.mem_filter, decide_eq_true_iff, h.mem]
  constructor
  · rintro ⟨hr, hnot⟩
    refine ⟨hr.ascends, (hv.collections.mem_erase_iff).mpr ⟨fun heq => hnot ?_, hr.mem⟩,
      hr.noCycle⟩
    rw [hr.eq_self (fun y hy => (hid _ hy).2 rfl) heq]
    exact ⟨rfl, rfl⟩
  · intro hr
    obtain ⟨hne, hmem⟩ := hv.collections.mem_erase_iff.mp hr.mem
    exact ⟨⟨hr.ascends, hmem, hr.noCycle⟩, fun heq => hne heq.2⟩

theorem Valid.insertCollection {id : ℕ} (h : Valid coll hier) (hid : id ∉ coll) :
    Valid (coll ++ [id]) hier where
  collections := by
    refine List.nodup_append.mpr ⟨h.collections, List.nodup_singleton _, ?_⟩
    rintro x hx _ hx' rfl
    obtain rfl := List.mem_singleton.mp hx'
    exact hid hx
  edges := h.edges
  parents e he := List.mem_append_left _ (h.parents e he)
  children e he := List.mem_append_left _ (h.children e he)
  acyclic := h.acyclic

theorem Valid.deleteCollection {id : ℕ} (h : Valid coll hier)
    (hid : ∀ e ∈ hier, e.accountCollectionId ≠ id ∧ e.childAccountCollectionId ≠ id) :
    Valid (coll.erase id) hier where
  collections := h.collections.erase id
  edges := h.edges
  parents e he := h.collections.mem_erase_iff.mpr ⟨(hid e he).1, h.parents e he⟩
  children e he := h.collections.mem_erase_iff.mpr ⟨(hid e he).2, h.children e he⟩
  acyclic := h.acyclic

/-! ## The loop over the new pairs -/

section Loop

variable {errcode : SqlState} {message : String} {l : List Smash}

theorem insertSmashes_eq_ok (hcycle : ∀ s ∈ l, s.cycle = false)
    (hnodup : (l.map (·.path)).Nodup) (hfresh : ∀ s ∈ l, ∀ q ∈ ct, q.path ≠ s.path) :
    insertSmashes errcode message ct l = .ok (ct ++ l.map Smash.row) := by
  induction l generalizing ct with
  | nil => rw [insertSmashes, List.map_nil, List.append_nil]
  | cons s l ih =>
    have hs := hfresh s List.mem_cons_self
    have hnot : ¬ ∃ q ∈ ct, q.path = s.row.path := fun ⟨q, hq, hpath⟩ => hs q hq hpath
    obtain ⟨hsl, hnodup⟩ := List.nodup_cons.mp hnodup
    rw [insertSmashes]
    refine bind_unit_eq_ok.mpr ⟨raiseIf_eq_ok.mpr (by simp [hcycle s List.mem_cons_self]), ?_⟩
    refine bind_eq_ok.mpr ⟨ct ++ [s.row], ?_, ?_⟩
    · exact bind_unit_eq_ok.mpr ⟨raiseIf_eq_ok.mpr hnot, rfl⟩
    · have hrest : ∀ s' ∈ l, ∀ q ∈ ct ++ [s.row], q.path ≠ s'.path := by
        intro s' hs' q hq
        rcases List.mem_append.mp hq with hq | hq
        · exact hfresh s' (List.mem_cons_of_mem _ hs') q hq
        · obtain rfl := List.mem_singleton.mp hq
          intro hpath
          exact hsl (List.mem_map.mpr ⟨s', hs', hpath.symm⟩)
      rw [ih (fun s' hs' => hcycle s' (List.mem_cons_of_mem _ hs')) hnodup hrest, List.map_cons,
        List.append_assoc, List.singleton_append]

/-- Among new paths one with a cycle raises the error of the loop. -/
theorem insertSmashes_eq_error (hcycle : ∃ s ∈ l, s.cycle = true)
    (hnodup : (l.map (·.path)).Nodup) (hfresh : ∀ s ∈ l, ∀ q ∈ ct, q.path ≠ s.path) :
    insertSmashes errcode message ct l = .error ⟨errcode, message⟩ := by
  induction l generalizing ct with
  | nil =>
    obtain ⟨s, hs, -⟩ := hcycle
    exact absurd hs List.not_mem_nil
  | cons s l ih =>
    rw [insertSmashes]
    by_cases hs : s.cycle = true
    · rw [raiseIf, if_pos hs]
      rfl
    · have hnot : ¬ ∃ q ∈ ct, q.path = s.row.path := by
        rintro ⟨q, hq, hpath⟩
        exact hfresh s List.mem_cons_self q hq hpath
      obtain ⟨hsl, hnodup⟩ := List.nodup_cons.mp hnodup
      have hrest : ∃ s' ∈ l, s'.cycle = true := by
        obtain ⟨s', hs', hc⟩ := hcycle
        rcases List.mem_cons.mp hs' with rfl | hs'
        · exact absurd hc hs
        · exact ⟨s', hs', hc⟩
      rw [raiseIf, if_neg hs, insertRow, raiseIf, if_neg hnot]
      show insertSmashes errcode message (ct ++ [s.row]) l = _
      refine ih hrest hnodup ?_
      intro s' hs' q hq
      rcases List.mem_append.mp hq with hq | hq
      · exact hfresh s' (List.mem_cons_of_mem _ hs') q hq
      · obtain rfl := List.mem_singleton.mp hq
        intro hpath
        exact hsl (List.mem_map.mpr ⟨s', hs', hpath.symm⟩)

/-- The loop fails with its own error or with that of the primary key. -/
theorem insertSmashes_error {err : PgError} (h : insertSmashes errcode message ct l = .error err) :
    err.errcode = errcode ∨ err.errcode = .uniqueViolation := by
  induction l generalizing ct with
  | nil => exact nomatch h
  | cons s l ih =>
    rcases bind_eq_error.mp h with h | ⟨-, -, h⟩
    · obtain ⟨-, rfl⟩ := raiseIf_eq_error.mp h
      exact Or.inl rfl
    · rcases bind_eq_error.mp h with h | ⟨ct', -, h⟩
      · rcases bind_eq_error.mp h with h | ⟨-, -, h⟩
        · obtain ⟨-, rfl⟩ := raiseIf_eq_error.mp h
          exact Or.inr rfl
        · exact nomatch h
      · exact ih h

end Loop

/-! ## The pairs over a new edge -/

section Glue

variable {f : HierRow → HierRow → Bool} {s : Smash} {l : List Smash} {errcode : SqlState}
  {message : String}

theorem mem_smashes_iff : s ∈ smashes ct new f ↔ ∃ p ∈ ct, ∃ c ∈ ct,
    p.accountCollectionId = new.accountCollectionId ∧
    c.rootAccountCollectionId = new.childAccountCollectionId ∧
    s = ⟨p.path, c.path, p.rootAccountCollectionId, c.accountCollectionId, c.path ++ p.path,
      f p c⟩ := by
  simp only [smashes, List.mem_flatMap, List.mem_map, List.mem_filter, decide_eq_true_eq]
  constructor
  · rintro ⟨p, ⟨hp, hpa⟩, c, ⟨hc, hcr⟩, rfl⟩
    exact ⟨p, hp, c, hc, hpa, hcr, rfl⟩
  · rintro ⟨p, hp, c, hc, hpa, hcr, rfl⟩
    exact ⟨p, ⟨hp, hpa⟩, c, ⟨hc, hcr⟩, rfl⟩

theorem nodup_smashes (h : Within coll hier ct) : (smashes ct new f).Nodup := by
  have hpaths : ∀ q ∈ ct, ∀ r ∈ ct, q.path = r.path → q = r := fun q hq r hr hpath =>
    (h.isWayUp r hr).eq_of_path (h.isWayUp q hq) hpath
  refine List.nodup_flatMap.mpr ⟨fun p _ => ?_, ?_⟩
  · refine List.Nodup.map_on ?_ (h.nodup.filter _)
    intro c hc c' hc' hrow
    exact hpaths c (List.mem_of_mem_filter hc) c' (List.mem_of_mem_filter hc')
      (congrArg Smash.childPath hrow)
  · refine (h.nodup.filter _).imp_of_mem fun {p q} hp hq hpq s hs hs' => ?_
    obtain ⟨c, -, rfl⟩ := List.mem_map.mp hs
    obtain ⟨d, -, hrow⟩ := List.mem_map.mp hs'
    exact hpq (hpaths p (List.mem_of_mem_filter hp) q (List.mem_of_mem_filter hq)
      (congrArg Smash.parentPath hrow).symm)

theorem smash_paths_nodup (h : Within coll hier ct) (hnew : new ∉ hier)
    (hl : l.Perm (smashes ct new f)) : (l.map (·.path)).Nodup := by
  refine List.Nodup.map_on ?_ (hl.nodup_iff.mpr (nodup_smashes h))
  intro s hs s' hs' hpath
  obtain ⟨p, hp, c, hc, hpa, hcr, rfl⟩ := mem_smashes_iff.mp (hl.mem_iff.mp hs)
  obtain ⟨p', hp', c', hc', hpa', hcr', rfl⟩ := mem_smashes_iff.mp (hl.mem_iff.mp hs')
  have hp := h.isWayUp p hp
  have hc := h.isWayUp c hc
  have hp' := h.isWayUp p' hp'
  have hc' := h.isWayUp c' hc'
  obtain ⟨hcc, hpp⟩ := Ascends.append_inj hnew (hcr ▸ hc.ascends) (hpa ▸ hp.ascends)
    (hcr' ▸ hc'.ascends) (hpa' ▸ hp'.ascends) hpath
  obtain rfl := hc'.eq_of_path hc hcc
  obtain rfl := hp'.eq_of_path hp hpp
  rfl

theorem smash_fresh (h : Within coll hier ct) (hnew : new ∉ hier)
    (hl : l.Perm (smashes ct new f)) : ∀ s ∈ l, ∀ q ∈ ct, q.path ≠ s.path := by
  intro s hs q hq hpath
  obtain ⟨p, hp, c, hc, hpa, hcr, rfl⟩ := mem_smashes_iff.mp (hl.mem_iff.mp hs)
  have hchain := (h.isWayUp q hq).ascends.chain
  rw [hpath] at hchain
  exact Ascends.not_isChain_append hnew (hcr ▸ (h.isWayUp c hc).ascends)
    (hpa ▸ (h.isWayUp p hp).ascends.head) hchain

/-- **The pairs are the ways up over the new edge.** -/
theorem glue (h : Holds coll hier ct) (hnew : new ∉ hier)
    (hparent : new.accountCollectionId ∈ coll)
    (hacyclic : Acyclic (Up (hier ++ [new]))) (hl : l.Perm (smashes ct new f))
    (hcycle : ∀ s ∈ l, s.cycle = false) :
    ∃ ct', insertSmashes errcode message ct l = .ok ct' ∧ Holds coll (hier ++ [new]) ct' := by
  have hnodup := smash_paths_nodup h.within hnew hl
  have hfresh := smash_fresh h.within hnew hl
  refine ⟨_, insertSmashes_eq_ok hcycle hnodup hfresh, ?_, fun r => ?_⟩
  · refine List.nodup_append.mpr ⟨h.nodup, ?_, ?_⟩
    · refine List.Nodup.map_on (fun s hs s' hs' hrow => ?_) (List.Nodup.of_map _ hnodup)
      exact List.inj_on_of_nodup_map hnodup hs hs' (congrArg HierRow.path hrow)
    · rintro q hq _ hq' rfl
      obtain ⟨s, hs, hrow⟩ := List.mem_map.mp hq'
      exact hfresh s hs q hq (congrArg HierRow.path hrow).symm
  · rw [List.mem_append, h.mem]
    constructor
    · rintro (hr | hr)
      · exact ⟨(Ascends.linked_iff up_append hacyclic).mpr (Or.inl hr.ascends), hr.mem, hr.noCycle⟩
      · obtain ⟨s, hs, rfl⟩ := List.mem_map.mp hr
        have hs' := hcycle s hs
        obtain ⟨p, hp, c, hc, hpa, hcr, rfl⟩ := mem_smashes_iff.mp (hl.mem_iff.mp hs)
        have hp := (h.mem p).mp hp
        have hc := (h.mem c).mp hc
        refine ⟨(Ascends.linked_iff up_append hacyclic).mpr (Or.inr ?_), hc.mem, hs'⟩
        exact ⟨c.path, p.path, rfl, hcr ▸ hc.ascends, hpa ▸ hp.ascends⟩
    · intro hr
      rcases (Ascends.linked_iff up_append hacyclic).mp hr.ascends with ha | ⟨s, t, hst, hs, ht⟩
      · exact Or.inl ⟨ha, hr.mem, hr.noCycle⟩
      · have hc : IsWayUp coll hier ⟨_, _, s, false⟩ := ⟨hs, hr.mem, rfl⟩
        have hp : IsWayUp coll hier ⟨_, _, t, false⟩ := ⟨ht, hparent, rfl⟩
        have hmem := hl.mem_iff.mpr (mem_smashes_iff.mpr
          ⟨_, (h.mem _).mpr hp, _, (h.mem _).mpr hc, rfl, rfl, rfl⟩)
        refine Or.inr (List.mem_map.mpr ⟨_, hmem, HierRow.ext rfl rfl hst.symm ?_⟩)
        exact (hcycle _ hmem).trans hr.noCycle.symm

end Glue

end JazzHands.AccountCollection

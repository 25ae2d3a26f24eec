import JazzHands.Library.Fallible
import JazzHands.TableSync.CopyTable
import Mathlib.Data.List.Perm.Subperm

/-!
# What a copy leaves

The rows of both tables are matched by the joined texts of their key columns, and a row that is to
be updated or deleted is found again by what the joined text splits into.

Each turn of a loop stores the rows that `halfway` has one key further (`copyRow_step`), and the
rule for lists of steps carries this through both loops (`copyRows_loops`).  What no step undoes,
whatever the keys are, is `copyRows_stays` and `copyRows_count`.
-/

namespace JazzHands.TableSync

open Library

variable {pk : List String} {up down t : Relation} {rows : List Row} {r u d : Row} {k : String}
  {order uporder dnorder : Order} {fromt downt : Fetched} {s s' : Relation × ℕ}

/-! ## The hash of a table -/

theorem hashRows_concat : hashRows pk (rows ++ [r]) =
    Function.update (hashRows pk rows) (joinKey pk r) (some r) :=
  List.foldl_concat ..

theorem mem_of_hashRows (h : hashRows pk rows k = some r) : r ∈ rows ∧ joinKey pk r = k := by
  induction rows using List.reverseRecOn with
  | nil => exact nomatch h
  | append_singleton rows u ih =>
    rw [hashRows_concat] at h
    by_cases hk : k = joinKey pk u
    · rw [hk, Function.update_self, Option.some_inj] at h
      rw [← h]
      exact ⟨by simp, hk.symm⟩
    · rw [Function.update_of_ne hk] at h
      exact ⟨List.mem_append_left _ (ih h).1, (ih h).2⟩

theorem hashRows_eq_none : hashRows pk rows k = none ↔ ∀ r ∈ rows, joinKey pk r ≠ k := by
  induction rows using List.reverseRecOn with
  | nil => simp [hashRows]
  | append_singleton rows u ih =>
    rw [hashRows_concat]
    by_cases hk : k = joinKey pk u
    · rw [hk, Function.update_self]
      simp
    · rw [Function.update_of_ne hk, ih]
      simp [or_imp, forall_and, Ne.symm hk]

/-- The hash has a row for every joined text of the table. -/
structure FetchedFrom (pk : List String) (t : Relation) (f : Fetched) : Prop where
  columns : f.columns = t.columns
  mem : ∀ {k r}, f.row k = some r → r ∈ t.rows ∧ joinKey pk r = k
  none : ∀ {k}, f.row k = none → ∀ r ∈ t.rows, joinKey pk r ≠ k
  nodup : f.keys.Nodup
  keys : ∀ {k}, k ∈ f.keys ↔ ∃ r ∈ t.rows, joinKey pk r = k

theorem fetchedFrom_of_eq_ok (h : fetchTable order t pk = .ok fromt) : FetchedFrom pk t fromt := by
  rw [fetchTable] at h
  split at h
  · exact nomatch h
  · rw [← Except.ok.inj h]
    refine ⟨rfl, fun h => ?_, fun h r hr => ?_, ?_, fun {k} => ?_⟩
    · obtain ⟨hr, hk⟩ := mem_of_hashRows h
      exact ⟨(order.orderBy_perm pk t.rows).mem_iff.mp hr, hk⟩
    · exact hashRows_eq_none.mp h r ((order.orderBy_perm pk t.rows).mem_iff.mpr hr)
    · exact (order.keys_perm _).nodup_iff.mpr (List.nodup_dedup _)
    · rw [(order.keys_perm _).mem_iff, List.mem_dedup, List.mem_map]
      simp only [(order.orderBy_perm pk t.rows).mem_iff]

theorem fetchTable_eq_ok (hpk : pk ≠ []) (hcols : ∀ c ∈ pk, c ∈ colnames t.columns) :
    ∃ f, fetchTable order t pk = .ok f :=
  ⟨_, if_neg fun h => h.elim hpk fun h => h hcols⟩

theorem keys_of_fetchTable (h : fetchTable order t pk = .ok fromt) :
    fromt.keys = order.keys ((order.orderBy pk t.rows).map (joinKey pk)).dedup := by
  rw [fetchTable] at h
  split at h
  · exact nomatch h
  · rw [← Except.ok.inj h]

/-- The key columns of the rows are told apart by the joined texts. -/
def ToldApart (pk : List String) (rows : List Row) : Prop :=
  ∀ r ∈ rows, ∀ r' ∈ rows, joinKey pk r = joinKey pk r' → keyOf pk r = keyOf pk r'

theorem joinKey_congr {r r' : Row} (h : keyOf pk r = keyOf pk r') : joinKey pk r = joinKey pk r' := by
  rw [joinKey, h, joinKey]

theorem FetchedFrom.filter_eq (hf : FetchedFrom pk t fromt) (htold : ToldApart pk t.rows)
    (h : fromt.row k = some u) (hone : (t.rows.map (keyOf pk)).count (keyOf pk u) ≤ 1) :
    (t.rows.filter fun r => joinKey pk r = k) = [u] := by
  obtain ⟨hu, huk⟩ := hf.mem h
  have hmem : u ∈ t.rows.filter fun r => joinKey pk r = k :=
    List.mem_filter.mpr ⟨hu, decide_eq_true huk⟩
  have hlength : (t.rows.filter fun r => joinKey pk r = k).length ≤ 1 := by
    rw [← List.countP_eq_length_filter]
    rw [List.count, List.countP_map] at hone
    refine (List.countP_mono_left fun r hr heq => ?_).trans hone
    have htext : joinKey pk r = joinKey pk u := (of_decide_eq_true heq).trans huk.symm
    exact beq_iff_eq.mpr (htold r hr u hu htext)
  obtain ⟨v, hv⟩ := List.length_eq_one_iff.mp (le_antisymm hlength (List.length_pos_of_mem hmem))
  rw [hv, List.mem_singleton] at hmem
  rw [hv, hmem]

theorem FetchedFrom.filter_eq_nil (hf : FetchedFrom pk t fromt) (h : fromt.row k = .none) :
    (t.rows.filter fun r => joinKey pk r = k) = [] :=
  List.filter_eq_nil_iff.mpr fun r hr heq => hf.none h r hr (of_decide_eq_true heq)

/-! ## A key that is split again -/

/-- From some column on the key is NULL.  The values before have no comma, and the last of them is
not the empty text. -/
def Plain (pk : List String) (r : Row) : Prop :=
  ∃ (vs : List String) (n : ℕ), keyOf pk r = vs.map some ++ List.replicate n none ∧
    (∀ v ∈ vs, ',' ∉ v.toList) ∧ vs.getLast? ≠ some ""

theorem Plain.last_ne (h : Plain pk r) {v : String} (hlast : (keyOf pk r).getLast? = some (some v)) :
    v ≠ "" := by
  obtain ⟨vs, n, hkey, -, hne⟩ := h
  rw [hkey] at hlast
  cases n with
  | zero =>
    rw [List.replicate_zero, List.append_nil, List.getLast?_map] at hlast
    obtain ⟨x, hx, hxv⟩ := Option.map_eq_some_iff.mp hlast
    rintro rfl
    exact hne (hx.trans hxv)
  | succ n => simp [List.replicate_succ', ← List.append_assoc] at hlast

theorem toList_joinKey :
    (joinKey pk r).toList = joined ',' ((keyOf pk r).map fun v => (v.getD "").toList) := by
  rw [joinKey, String.toList_intercalate, List.map_map]
  rfl

theorem dbKey_joinKey (hpk : pk ≠ []) (h : Plain pk r) : dbKey pk (joinKey pk r) = keyOf pk r := by
  obtain ⟨vs, n, hkey, hcomma, hlast⟩ := h
  have htexts : ((keyOf pk r).map fun v => (v.getD "").toList) =
      vs.map String.toList ++ List.replicate n [] := by
    rw [hkey, List.map_append, List.map_map, List.map_replicate]
    rfl
  have hlength : vs.length + n = pk.length := by
    simpa using (congrArg List.length hkey).symm
  have hsplit : splitKey (joinKey pk r) = vs := by
    rw [splitKey, toList_joinKey, htexts, fields_joined_replicate ?_ ?_ ?_, List.map_map]
    · exact (List.map_congr_left fun v _ => String.ofList_toList).trans (List.map_id _)
    · rw [← htexts]
      simpa using hpk
    · simpa using hcomma
    · rw [List.getLast?_map]
      intro hempty
      obtain ⟨v, hv, hnil⟩ := Option.map_eq_some_iff.mp hempty
      rw [String.toList_eq_nil_iff.mp hnil] at hv
      exact hlast hv
  rw [dbKey, hsplit, hkey, ← hlength, Nat.add_sub_cancel_left]

theorem plain_of_dbKey_eq (h : dbKey pk k = keyOf pk r) : Plain pk r := by
  refine ⟨splitKey k, _, h.symm, fun v hv => ?_, fun hlast => ?_⟩
  · obtain ⟨x, hx, rfl⟩ := List.mem_map.mp hv
    rw [String.toList_ofList]
    exact sep_notMem_of_mem_fields hx
  · rw [splitKey, List.getLast?_map] at hlast
    obtain ⟨x, hx, hempty⟩ := Option.map_eq_some_iff.mp hlast
    have hne : fields ',' k.toList ≠ [] := fun hnil => by simp [hnil] at hx
    rw [List.getLast?_eq_some_getLast hne, Option.some_inj] at hx
    exact getLast_fields hne (hx.trans (by simpa using hempty))

/-! ## The differences of two rows -/

theorem lookup_map_filter {l : List String} {p : String → Bool} {g : String → Option String}
    {c : String} : (((l.filter p).map fun c => (c, g c)).lookup c) =
      if c ∈ l ∧ p c then some (g c) else none := by
  induction l with
  | nil => simp
  | cons a l ih =>
    rw [List.filter_cons]
    by_cases ha : p a = true
    · rw [if_pos ha, List.map_cons, List.lookup_cons]
      by_cases hc : c = a
      · simp [hc, ha]
      · rw [beq_eq_false_iff_ne.mpr hc, ih]
        simp [hc]
    · rw [if_neg ha, ih]
      by_cases hc : c = a
      · simp [hc, ha]
      · simp [hc]

section Diff

variable {columns : List Column} (hd : ∀ c, c ∉ colnames columns → d c = none)
  (hu : ∀ c, c ∉ colnames columns → u c = none)

include hd hu

theorem overlay_hashTableDiff : overlay (hashTableDiff columns columns d u) d = u := by
  funext c
  rw [overlay, hashTableDiff, lookup_map_filter]
  by_cases hc : c ∈ colnames columns
  · by_cases heq : d c = u c
    · simp [heq]
    · simp [hc, heq]
  · simp [hc, hd c hc, hu c hc]

theorem hashTableDiff_eq_nil : hashTableDiff columns columns d u = [] ↔ d = u := by
  constructor
  · intro h
    have hover := overlay_hashTableDiff hd hu
    rw [h] at hover
    exact hover
  · rintro rfl
    simp [hashTableDiff]

omit hd in
theorem inserted_eq_self : inserted columns u = u := by
  funext c
  by_cases hc : c ∈ colnames columns
  · exact if_pos hc
  · rw [inserted, if_neg hc, hu c hc]

end Diff

theorem mem_hashTableDiff {columns columns' : List Column} {x : String × Option String}
    (h : x ∈ hashTableDiff columns columns' d u) : x.1 ∈ colnames columns := by
  obtain ⟨c, hc, rfl⟩ := List.mem_map.mp h
  exact (List.mem_filter.mp hc).1

/-! ## Statements that the database accepts, and what they leave -/

variable {hfits : Fits t.columns rows} {t' : Relation}

theorem store_eq_ok (h : Keyed t.primaryKey rows) :
    t.store rows hfits = .ok { t with rows := rows, keyed := h, fits := hfits } :=
  dif_pos h

/-- A table that was stored has these rows, and is otherwise as it was. -/
theorem of_store (h : t.store rows hfits = .ok t') :
    t'.rows = rows ∧ t'.columns = t.columns := by
  rw [Relation.store] at h
  by_cases hkeyed : Keyed t.primaryKey rows
  · rw [dif_pos hkeyed] at h
    rw [← Except.ok.inj h]
    exact ⟨rfl, rfl⟩
  · rw [dif_neg hkeyed] at h
    exact nomatch h

theorem store_self : t.store t.rows t.fits = .ok t := store_eq_ok t.keyed

theorem Keyed.subperm {rows' : List Row} (h : Keyed pk rows) (hsub : rows'.Subperm rows) :
    Keyed pk rows' := by
  refine fun hpk => ⟨fun r hr => (h hpk).1 r (hsub.subset hr), ?_⟩
  obtain ⟨l, hperm, hsub⟩ := hsub
  exact ((hperm.map _).nodup_iff).mp ((h hpk).2.sublist (hsub.map _))

/-! ## The loops -/

/-- The table downstream while it has these rows, in some order. -/
structure Copying (down : Relation) (rows : List Row) (t : Relation) : Prop where
  columns : t.columns = down.columns
  primaryKey : t.primaryKey = down.primaryKey
  rows : t.rows.Perm rows

/-- What a step does is to store these rows, in some order. -/
def Stores (rows : List Row) (t : Relation) (x : Except Failure (Relation × ℕ)) : Prop :=
  ∃ rows' hfits n, rows'.Perm rows ∧ x = (t.store rows' hfits).map fun t => (t, n)

section

variable {x : Except Failure (Relation × ℕ)}

theorem Stores.copying (h : Stores rows t x) (ht : t.columns = down.columns ∧
    t.primaryKey = down.primaryKey) (hx : x = .ok s) : Copying down rows s.1 := by
  obtain ⟨rows', hfits, n, hperm, rfl⟩ := h
  unfold Relation.store at hx
  split at hx
  · rw [← Except.ok.inj hx]
    exact ⟨ht.1, ht.2, hperm⟩
  · exact nomatch hx

theorem Stores.eq_ok (h : Stores rows t x) (hroom : Keyed t.primaryKey rows) : ∃ s, x = .ok s := by
  obtain ⟨rows', hfits, n, hperm, rfl⟩ := h
  rw [store_eq_ok (hroom.subperm hperm.subperm)]
  exact ⟨_, rfl⟩

theorem Stores.same (n : ℕ) (h : t.rows.Perm rows) : Stores rows t (.ok (t, n)) :=
  ⟨t.rows, t.fits, n, h, by rw [store_self]; rfl⟩

end

section Loop

variable {f : Relation × ℕ → String → Except Failure (Relation × ℕ)} (rowsAt : List String → List Row)
  {ks : List String} (hstep : ∀ done k s, done ++ [k] <+: ks → Copying down (rowsAt done) s.1 →
    Stores (rowsAt (done ++ [k])) s.1 (f s k))
  (h : Copying down (rowsAt []) s.1)

include hstep h

/-- A loop of such steps ends with an error unless there is room for the rows at every turn. -/
theorem Copying.of_foldlM (hs : ks.foldlM f s = .ok s') : Copying down (rowsAt ks) s'.1 ∧
    ∀ done, done <+: ks → Keyed down.primaryKey (rowsAt done) :=
  foldlM_reaches (P := fun done s => Copying down (rowsAt done) s.1)
    (fun done k s _ hk h hs => (hstep done k s hk h).copying ⟨h.columns, h.primaryKey⟩ hs) h
    (fun _ s h => (h.primaryKey ▸ s.1.keyed : Keyed down.primaryKey s.1.rows).subperm
      h.rows.symm.subperm) hs

theorem Copying.foldlM (hroom : ∀ done, done <+: ks → Keyed down.primaryKey (rowsAt done)) :
    ∃ s', ks.foldlM f s = .ok s' ∧ Copying down (rowsAt ks) s'.1 :=
  foldlM_eq_ok (P := fun done s => Copying down (rowsAt done) s.1)
    (fun done k s _ hk h hs => (hstep done k s hk h).copying ⟨h.columns, h.primaryKey⟩ hs) h
    (fun done k s hk h hroom => (hstep done k s hk h).eq_ok (h.primaryKey ▸ hroom)) hroom

end Loop

/-- Two tables with the same columns, and the hashes of their rows. -/
structure Compared (pk : List String) (up down : Relation) (fromt downt : Fetched) : Prop where
  key : pk ≠ []
  columns : down.columns = up.columns
  keyed : Keyed pk up.rows
  told : ToldApart pk (up.rows ++ down.rows)
  plain : ∀ r ∈ down.rows, r ∉ up.rows → Plain pk r
  once : ∀ u ∈ up.rows, (down.rows.map (keyOf pk)).count (keyOf pk u) ≤ 1
  fromt : FetchedFrom pk up fromt
  downt : FetchedFrom pk down downt

section Steps

variable {done : List String} (hc : Compared pk up down fromt downt)

include hc

theorem Compared.filter_up (hu : fromt.row k = some u) :
    (up.rows.filter fun r => joinKey pk r = k) = [u] := by
  refine hc.fromt.filter_eq (fun r hr r' hr' => ?_) hu ?_
  · exact hc.told r (List.mem_append_left _ hr) r' (List.mem_append_left _ hr')
  · exact List.nodup_iff_count_le_one.mp (hc.keyed hc.key).2 _

theorem Compared.filter_down (hu : fromt.row k = some u) (hd : downt.row k = some d) :
    (down.rows.filter fun r => joinKey pk r = k) = [d] := by
  obtain ⟨humem, huk⟩ := hc.fromt.mem hu
  obtain ⟨hdmem, hdk⟩ := hc.downt.mem hd
  have hkey : keyOf pk d = keyOf pk u := hc.told d (List.mem_append_right _ hdmem) u
    (List.mem_append_left _ humem) (hdk.trans huk.symm)
  refine hc.downt.filter_eq (fun r hr r' hr' => ?_) hd (hkey ▸ hc.once u humem)
  exact hc.told r (List.mem_append_right _ hr) r' (List.mem_append_right _ hr')

theorem copyRow_step (h : Copying down (halfway (joinKey pk) down.rows up.rows done) s.1)
    (hkey : k ∈ fromt.keys) (hk : k ∉ done) :
    Stores (halfway (joinKey pk) down.rows up.rows (done ++ [k])) s.1
      (copyRow pk fromt downt s k) := by
  obtain ⟨r, hr, hrk⟩ := hc.fromt.keys.mp hkey
  cases hu : fromt.row k with
  | none => exact absurd hrk (hc.fromt.none hu r hr)
  | some u =>
    obtain ⟨humem, huk⟩ := hc.fromt.mem hu
    have htarget := hc.filter_up hu
    cases hd : downt.row k with
    | none =>
      have hcols : ∀ c ∈ colnames fromt.columns, c ∈ colnames s.1.columns := by
        rw [hc.fromt.columns, h.columns, hc.columns]
        exact fun c hc => hc
      simp only [copyRow, hu, hd, dbInsert, dif_pos hcols]
      refine ⟨_, _, _, ?_, rfl⟩
      rw [hc.fromt.columns, inserted_eq_self (up.fits u humem)]
      exact perm_halfway_append h.rows hk (hc.downt.filter_eq_nil hd) htarget
    | some d =>
      obtain ⟨hdmem, hdk⟩ := hc.downt.mem hd
      have hsource := hc.filter_down hu hd
      have hdfits : ∀ c, c ∉ colnames up.columns → d c = none := hc.columns ▸ down.fits d hdmem
      have hnil : hashTableDiff downt.columns fromt.columns d u = [] ↔ d = u := by
        rw [hc.downt.columns, hc.fromt.columns, hc.columns]
        exact hashTableDiff_eq_nil hdfits (up.fits u humem)
      by_cases heq : d = u
      · simp only [copyRow, hu, hd, if_pos (hnil.mpr heq)]
        exact .same s.2 (perm_halfway_keep h.rows hk (by rw [hsource, htarget, heq]))
      · have hdnot : d ∉ up.rows := fun hmem => by
          have hmem : d ∈ up.rows.filter fun r => joinKey pk r = k :=
            List.mem_filter.mpr ⟨hmem, decide_eq_true hdk⟩
          exact heq (List.mem_singleton.mp (htarget ▸ hmem))
        have hdb : dbKey pk k = keyOf pk d := hdk ▸ dbKey_joinKey hc.key (hc.plain d hdmem hdnot)
        have hcols : ∀ x ∈ hashTableDiff downt.columns fromt.columns d u,
            x.1 ∈ colnames s.1.columns := by
          rw [h.columns, hc.downt.columns]
          exact fun x => mem_hashTableDiff
        have hlength : ¬ pk.length ≠ (dbKey pk k).length := by simp [hdb]
        simp only [copyRow, hu, hd, if_neg (mt hnil.mp heq), dbUpdate, if_neg hlength,
          dif_pos hcols]
        refine ⟨_, _, _, perm_halfway_map h.rows hk hsource htarget ?_ fun r hr hrk => ?_, rfl⟩
        · rw [if_pos hdb.symm, hc.downt.columns, hc.fromt.columns, hc.columns]
          exact overlay_hashTableDiff hdfits (up.fits u humem)
        · exact if_neg fun heq => hrk ((joinKey_congr (heq.trans hdb)).trans hdk)

theorem purgeRow_step
    (h : Copying down (halfway (joinKey pk) down.rows up.rows (fromt.keys ++ done)) s.1)
    (hkey : k ∈ downt.keys) :
    Stores (halfway (joinKey pk) down.rows up.rows (fromt.keys ++ (done ++ [k]))) s.1
      (purgeRow pk fromt s k) := by
  obtain ⟨d, hd, hdk⟩ := hc.downt.keys.mp hkey
  cases hu : fromt.row k with
  | some u =>
    obtain ⟨humem, huk⟩ := hc.fromt.mem hu
    have hthere : k ∈ fromt.keys := hc.fromt.keys.mpr ⟨u, humem, huk⟩
    simp only [purgeRow, hu]
    refine .same s.2 (h.rows.trans (.of_eq (halfway_congr fun j => ?_)))
    simp only [List.mem_append, List.mem_singleton, ← or_assoc]
    exact (or_iff_left_of_imp fun hj => .inl (hj ▸ hthere)).symm
  | none =>
    have hdnot : d ∉ up.rows := fun hmem => hc.fromt.none hu d hmem hdk
    have hdb : dbKey pk k = keyOf pk d := hdk ▸ dbKey_joinKey hc.key (hc.plain d hd hdnot)
    have hlength : ¬ pk.length ≠ (dbKey pk k).length := by simp [hdb]
    simp only [purgeRow, hu, dbDelete, if_neg hlength]
    refine ⟨_, _, _, ?_, rfl⟩
    rw [← List.append_assoc]
    refine perm_halfway_filter h.rows (hc.fromt.filter_eq_nil hu) fun r hr => ?_
    have hmem := mem_of_mem_halfway (h.rows.mem_iff.mp hr)
    rw [decide_eq_decide, hdb, not_iff_not]
    constructor
    · exact fun heq => (joinKey_congr heq).trans hdk
    · exact fun hrk => hc.told r hmem d (List.mem_append_right _ hd) (hrk.trans hdk.symm)

theorem copyRow_stores (hdone : done ++ [k] <+: fromt.keys)
    (h : Copying down (halfway (joinKey pk) down.rows up.rows done) s.1) :
    Stores (halfway (joinKey pk) down.rows up.rows (done ++ [k])) s.1
      (copyRow pk fromt downt s k) :=
  copyRow_step hc h (hdone.subset (by simp)) (notMem_of_concat hc.fromt.nodup hdone)

/-- A loop over the keys upstream that has ended had room at every turn. -/
theorem room_of_foldlM (hs : fromt.keys.foldlM (copyRow pk fromt downt) (down, 0) = .ok s) :
    ∀ done, done <+: fromt.keys →
      Keyed down.primaryKey (halfway (joinKey pk) down.rows up.rows done) :=
  (Copying.of_foldlM (halfway (joinKey pk) down.rows up.rows)
    (fun _ _ _ hdone h => copyRow_stores hc hdone h)
    ⟨rfl, rfl, .of_eq halfway_nil.symm⟩ hs).2

/-- **The rows are copied.** -/
theorem copyRows_loops (hroom : ∀ done, done <+: fromt.keys →
      Keyed down.primaryKey (halfway (joinKey pk) down.rows up.rows done)) :
    ∃ s, fromt.keys.foldlM (copyRow pk fromt downt) (down, 0) = .ok s ∧
      ∃ s', downt.keys.foldlM (purgeRow pk fromt) s = .ok s' ∧ s'.1.columns = up.columns ∧
        s'.1.rows.Perm up.rows := by
  have hup : ∀ r ∈ up.rows, joinKey pk r ∈ fromt.keys := fun r hr => hc.fromt.keys.mpr ⟨r, hr, rfl⟩
  obtain ⟨s, hs, hcopied⟩ := Copying.foldlM (halfway (joinKey pk) down.rows up.rows)
    (fun _ _ _ hdone h => copyRow_stores hc hdone h) (s := (down, 0))
    ⟨rfl, rfl, .of_eq halfway_nil.symm⟩ hroom
  have hstart : Copying down (halfway (joinKey pk) down.rows up.rows (fromt.keys ++ [])) s.1 := by
    rwa [List.append_nil]
  obtain ⟨s', hs', hpurged⟩ := Copying.foldlM
    (fun done => halfway (joinKey pk) down.rows up.rows (fromt.keys ++ done))
    (fun _ _ _ hdone h => purgeRow_step hc h (hdone.subset (by simp))) hstart
    fun done _ => (hroom _ (List.prefix_refl _)).subperm (halfway_append_sublist hup).subperm
  refine ⟨s, hs, s', hs', hpurged.columns.trans hc.columns, ?_⟩
  rw [halfway_eq_target (fun r hr => ?_) fun r hr => List.mem_append_left _ (hup r hr)] at hpurged
  · exact hpurged.rows
  · exact List.mem_append_right _ (hc.downt.keys.mpr ⟨r, hr, rfl⟩)

end Steps

/-! ## What a step does -/

theorem of_counted {x : Except Failure Relation} {n : ℕ}
    (h : x.map (fun t => (t, n)) = .ok s') : x = .ok s'.1 := by
  cases x with
  | error e => exact nomatch h
  | ok t => rw [← Except.ok.inj h]

theorem copyRow_cases (hs : copyRow pk fromt downt s k = .ok s') : s'.1 = s.1 ∨
    s'.1.columns = s.1.columns ∧ ∃ u, fromt.row k = some u ∧
      (downt.row k = none ∧ s'.1.rows = s.1.rows ++ [inserted fromt.columns u] ∨
        ∃ d, downt.row k = some d ∧ s'.1.rows = s.1.rows.map fun r =>
          if keyOf pk r = dbKey pk k then overlay (hashTableDiff downt.columns fromt.columns d u) r
          else r) := by
  unfold copyRow at hs
  split at hs
  · exact .inl (by rw [← Except.ok.inj hs])
  · rename_i u hu hd
    have hstore := of_counted hs
    unfold dbInsert at hstore
    split at hstore
    · obtain ⟨hrows, hcolumns⟩ := of_store hstore
      exact .inr ⟨hcolumns, u, hu, .inl ⟨hd, hrows⟩⟩
    · exact nomatch hstore
  · rename_i u d hu hd
    dsimp only at hs
    split at hs
    · exact .inl (by rw [← Except.ok.inj hs])
    · have hstore := of_counted hs
      unfold dbUpdate at hstore
      split_ifs at hstore
      obtain ⟨hrows, hcolumns⟩ := of_store hstore
      exact .inr ⟨hcolumns, u, hu, .inr ⟨d, hd, hrows⟩⟩

theorem purgeRow_cases (hs : purgeRow pk fromt s k = .ok s') : s'.1 = s.1 ∨
    s'.1.columns = s.1.columns ∧ fromt.row k = none ∧
      s'.1.rows = s.1.rows.filter fun r => keyOf pk r ≠ dbKey pk k := by
  unfold purgeRow at hs
  split at hs
  · rename_i hu
    have hstore := of_counted hs
    unfold dbDelete at hstore
    split_ifs at hstore
    obtain ⟨hrows, hcolumns⟩ := of_store hstore
    exact .inr ⟨hcolumns, hu, hrows⟩
  · exact .inl (by rw [← Except.ok.inj hs])

/-- What every step of the loops keeps. -/
theorem copyRows_preserves {I : Relation → Prop} (h : I down)
    (hcopy : ∀ fromt downt k s s', FetchedFrom pk up fromt → FetchedFrom pk down downt → I s.1 →
      copyRow pk fromt downt s k = .ok s' → I s'.1)
    (hpurge : ∀ fromt k s s', FetchedFrom pk up fromt → (∃ r ∈ down.rows, joinKey pk r = k) →
      I s.1 → purgeRow pk fromt s k = .ok s' → I s'.1)
    (hs : copyRows uporder dnorder pk up down = .ok s) : I s.1 := by
  simp only [copyRows, bind_ok_iff] at hs
  obtain ⟨fromt, hfrom, downt, hdown, s₁, hs₁, hs⟩ := hs
  have hfrom := fetchedFrom_of_eq_ok hfrom
  have hdown := fetchedFrom_of_eq_ok hdown
  have hmiddle : I s₁.1 := foldlM_preserves (I := fun s : Relation × ℕ => I s.1)
    (fun k _ s s' h hs => hcopy fromt downt k s s' hfrom hdown h hs) h hs₁
  exact foldlM_preserves (I := fun s : Relation × ℕ => I s.1)
    (fun k hk s s' h hs => hpurge fromt k s s' hfrom (hdown.keys.mp hk) h hs) hmiddle hs

/-! ## Rows that are never found -/

/-- The columns are as they were, and the rows that no text finds are there. -/
structure Stays (pk : List String) (down t : Relation) : Prop where
  columns : t.columns = down.columns
  rows : ∀ r ∈ down.rows, (∀ k, dbKey pk k ≠ keyOf pk r) → r ∈ t.rows

theorem copyRows_stays (h : copyRows uporder dnorder pk up down = .ok s) : Stays pk down s.1 := by
  refine copyRows_preserves ⟨rfl, fun r hr _ => hr⟩ (fun fromt downt k s s' _ _ h hs => ?_)
    (fun fromt k s s' _ _ h hs => ?_) h
  · rcases copyRow_cases hs with heq | ⟨hcolumns, u, -, ⟨-, hrows⟩ | ⟨d, -, hrows⟩⟩
    · rwa [heq]
    · refine ⟨hcolumns.trans h.columns, fun r hr hnot => ?_⟩
      rw [hrows]
      exact List.mem_append_left _ (h.rows r hr hnot)
    · refine ⟨hcolumns.trans h.columns, fun r hr hnot => ?_⟩
      rw [hrows]
      exact List.mem_map.mpr ⟨r, h.rows r hr hnot, if_neg fun heq => hnot k heq.symm⟩
  · rcases purgeRow_cases hs with heq | ⟨hcolumns, -, hrows⟩
    · rwa [heq]
    · refine ⟨hcolumns.trans h.columns, fun r hr hnot => ?_⟩
      rw [hrows]
      exact List.mem_filter.mpr ⟨h.rows r hr hnot, decide_eq_true fun heq => hnot k heq.symm⟩

/-! ## Keys that stay -/

/-- A row that is changed keeps its key. -/
theorem keyOf_overlay {columns columns' : List Column} (h : keyOf pk d = keyOf pk u) :
    keyOf pk (overlay (hashTableDiff columns columns' d u) r) = keyOf pk r := by
  refine List.map_congr_left fun c hc => ?_
  have hsame : d c = u c := List.map_inj_left.mp h c hc
  rw [overlay, hashTableDiff, lookup_map_filter, if_neg (by simp [hsame]), Option.getD_none]

/-- No row with a key of upstream goes, or comes into another key. -/
theorem copyRows_count (htold : ToldApart pk (up.rows ++ down.rows)) (hpk : pk ≠ [])
    (hplain : ∀ r ∈ down.rows, r ∉ up.rows → Plain pk r) (hu : u ∈ up.rows)
    (h : copyRows uporder dnorder pk up down = .ok s) :
    (down.rows.map (keyOf pk)).count (keyOf pk u) ≤ (s.1.rows.map (keyOf pk)).count (keyOf pk u) := by
  refine copyRows_preserves (I := fun t => _ ≤ (t.rows.map (keyOf pk)).count (keyOf pk u))
    le_rfl (fun fromt downt k s s' hfrom hdown h hs => h.trans ?_)
    (fun fromt k s s' hfrom hkey h hs => h.trans ?_) h
  · rcases copyRow_cases hs with heq | ⟨-, v, hv, ⟨-, hrows⟩ | ⟨d, hd, hrows⟩⟩
    · rw [heq]
    · rw [hrows, List.map_append, List.count_append]
      exact Nat.le_add_right _ _
    · obtain ⟨hvmem, hvk⟩ := hfrom.mem hv
      obtain ⟨hdmem, hdk⟩ := hdown.mem hd
      have hsame : keyOf pk d = keyOf pk v := htold d (List.mem_append_right _ hdmem) v
        (List.mem_append_left _ hvmem) (hdk.trans hvk.symm)
      rw [hrows, List.map_map]
      refine le_of_eq (congrArg _ (List.map_congr_left fun r _ => ?_))
      rw [Function.comp_apply]
      split_ifs
      · exact (keyOf_overlay hsame).symm
      · rfl
  · rcases purgeRow_cases hs with heq | ⟨-, hnone, hrows⟩
    · rw [heq]
    · -- what is deleted has a key that is not upstream
      obtain ⟨d, hd, hdk⟩ := hkey
      have hdnot : d ∉ up.rows := fun hmem => hfrom.none hnone d hmem hdk
      have hdb : dbKey pk k = keyOf pk d := hdk ▸ dbKey_joinKey hpk (hplain d hd hdnot)
      have hother : keyOf pk u ≠ keyOf pk d := fun heq =>
        hfrom.none hnone u hu ((joinKey_congr heq).trans hdk)
      simp only [hrows, List.count, List.countP_map, List.countP_filter]
      refine List.countP_mono_left fun r _ heq => ?_
      have heq : keyOf pk r = keyOf pk u := by simpa using heq
      simp [heq, hdb, hother]

end JazzHands.TableSync

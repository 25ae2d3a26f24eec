import JazzHands.Postgres.RowStatement
import Mathlib.Data.List.Dedup

/-!
# The hashes of public keys

A public key has a row of `public_key_hash`, found by any of the hashes of the key.

`Created` is what `get_or_create_public_key_hash_id` leaves: the hashes of the key are rows of one
id, which has no others for their algorithms.
-/

namespace JazzHands.X509

open Postgres RowStatement

structure Hash where
  algorithm : String
  hash : String
  deriving DecidableEq

structure PublicKeyHashHash where
  publicKeyHashId : ℕ
  cryptographicHashAlgorithm : String
  calculatedHash : String
  deriving DecidableEq

/-- The rows of `public_key_hash` are their ids, which come from a sequence. -/
structure Hashes where
  publicKeyHash : List ℕ
  publicKeyHashHash : List PublicKeyHashHash
  publicKeyHashSeq : ℕ

/-- The row of a hash. -/
def Hash.row (i : ℕ) (x : Hash) : PublicKeyHashHash := ⟨i, x.algorithm, x.hash⟩

/-- The row is a row of the hash. -/
def Hash.IsOf (x : Hash) (r : PublicKeyHashHash) : Prop :=
  x.algorithm = r.cryptographicHashAlgorithm ∧ x.hash = r.calculatedHash
  deriving Decidable

/-- `INSERT ... ON CONFLICT ON CONSTRAINT pk_public_key_hash_hash DO UPDATE`, of one row.  The rows
that the command has written may not be written again. -/
def upsertHash (i : ℕ) (s : List PublicKeyHashHash × List String) (x : Hash) :
    Result (List PublicKeyHashHash × List String) :=
  match s.1.find? fun r => r.publicKeyHashId = i ∧ r.cryptographicHashAlgorithm = x.algorithm with
  | none => do
    checkUnique (·.calculatedHash) "ak_public_key_hash_method_hash" s.1 (x.row i)
    .ok (s.1 ++ [x.row i], x.algorithm :: s.2)
  | some r => do
    raiseIf (x.algorithm ∈ s.2) .cardinalityViolation
      "ON CONFLICT DO UPDATE command cannot affect row a second time"
    if r.calculatedHash = x.hash then .ok s
    else do
      checkUnique (·.calculatedHash) "ak_public_key_hash_method_hash" (s.1.erase r) (x.row i)
      .ok (s.1.map fun r' => if r' = r then x.row i else r', x.algorithm :: s.2)

def upsert (rows : List PublicKeyHashHash) (i : ℕ) (hashes : List Hash) :
    Result (List PublicKeyHashHash) := do
  let s ← hashes.foldlM (upsertHash i) (rows, [])
  .ok s.1

/-- The ids that have one of the hashes. -/
def Hashes.found (h : Hashes) (hashes : List Hash) : List ℕ :=
  ((h.publicKeyHashHash.filter fun r => ∃ x ∈ hashes, x.IsOf r).map (·.publicKeyHashId)).dedup

def getOrCreatePublicKeyHashId (h : Hashes) (hashes : List Hash) : Result (Hashes × ℕ) :=
  match h.found hashes with
  | [] => do
    checkUnique id "pk_public_key_hash" h.publicKeyHash h.publicKeyHashSeq
    let rows ← upsert h.publicKeyHashHash h.publicKeyHashSeq hashes
    .ok (⟨h.publicKeyHash ++ [h.publicKeyHashSeq], rows, h.publicKeyHashSeq + 1⟩,
      h.publicKeyHashSeq)
  | [pkhid] => do
    let rows ← upsert h.publicKeyHashHash pkhid hashes
    .ok ({ h with publicKeyHashHash := rows }, pkhid)
  | _ => raise .dataException "multiple public_key_hash_id values found"

/-! ## Keys -/

namespace PublicKeyHashHash

/-- `pk_public_key_hash_hash`. -/
def key (r : PublicKeyHashHash) : ℕ × String := (r.publicKeyHashId, r.cryptographicHashAlgorithm)

end PublicKeyHashHash

structure Hashes.Keyed (h : Hashes) : Prop where
  key : (h.publicKeyHashHash.map (·.key)).Nodup
  hash : (h.publicKeyHashHash.map (·.calculatedHash)).Nodup
  parent : ∀ r ∈ h.publicKeyHashHash, r.publicKeyHashId ∈ h.publicKeyHash

/-- The rows of an id have, for the algorithms of the list, the hashes of the list. -/
def AgreesAt (rows : List PublicKeyHashHash) (i : ℕ) (hashes : List Hash) : Prop :=
  ∀ r ∈ rows, r.publicKeyHashId = i → ∀ x ∈ hashes, x.algorithm = r.cryptographicHashAlgorithm →
    x.hash = r.calculatedHash
  deriving Decidable

/-- No hash of the list is stored with other hashes than those of the list. -/
def Hashes.Agrees (h : Hashes) (hashes : List Hash) : Prop :=
  ∀ r ∈ h.publicKeyHashHash, (∃ x ∈ hashes, x.IsOf r) →
    AgreesAt h.publicKeyHashHash r.publicKeyHashId hashes
  deriving Decidable

variable {h h' : Hashes} {hashes : List Hash} {i : ℕ} {rows rows' : List PublicKeyHashHash}
  {written written' : List String} {x : Hash} {r : PublicKeyHashHash}

theorem mem_found : i ∈ h.found hashes ↔
    ∃ r ∈ h.publicKeyHashHash, (∃ x ∈ hashes, x.IsOf r) ∧ r.publicKeyHashId = i := by
  simp only [Hashes.found, List.mem_dedup, List.mem_map, List.mem_filter, decide_eq_true_eq,
    and_assoc]

/-! ## The hashes of one row -/

theorem upsertHash_ok (hagrees : ∀ r ∈ rows, r.publicKeyHashId = i →
      r.cryptographicHashAlgorithm ∉ written → x.algorithm = r.cryptographicHashAlgorithm →
      x.hash = r.calculatedHash)
    (hok : upsertHash i (rows, written) x = .ok (rows', written')) :
    (rows' = rows ∧ written' = written ∧ x.row i ∈ rows) ∨
    (rows' = rows ++ [x.row i] ∧ written' = x.algorithm :: written ∧
      (∀ r ∈ rows, r.key ≠ (x.row i).key) ∧ ∀ r ∈ rows, r.calculatedHash ≠ x.hash) := by
  rw [upsertHash] at hok
  cases hfind : rows.find? fun r =>
      r.publicKeyHashId = i ∧ r.cryptographicHashAlgorithm = x.algorithm with
  | none =>
    rw [hfind] at hok
    obtain ⟨hunique, hok⟩ := bind_unit_eq_ok.mp hok
    obtain ⟨rfl, rfl⟩ := Prod.mk.inj (Except.ok.inj hok)
    refine .inr ⟨rfl, rfl, fun r hr heq => ?_, checkUnique_ok hunique⟩
    exact Library.not_of_find?_eq_none hfind hr (Prod.mk.inj heq)
  | some r =>
    obtain ⟨hr, hi, halg⟩ := Library.of_find?_eq_some hfind
    rw [hfind] at hok
    obtain ⟨hnew, hok⟩ := bind_unit_eq_ok.mp hok
    rw [raiseIf_eq_ok, ← halg] at hnew
    have hhash := hagrees r hr hi hnew halg.symm
    rw [if_pos hhash.symm] at hok
    obtain ⟨rfl, rfl⟩ := Prod.mk.inj (Except.ok.inj hok)
    have hrow : x.row i = r := by rw [Hash.row, hhash, ← halg, ← hi]
    exact .inl ⟨rfl, rfl, hrow ▸ hr⟩

/-! ## The hashes of a list -/

/-- The hashes of the list are added to the rows of the id. -/
structure Extended (rows rows' : List PublicKeyHashHash) (i : ℕ) (hashes : List Hash) : Prop where
  old : ∀ r ∈ rows, r ∈ rows'
  new : ∀ r ∈ rows', r ∈ rows ∨ ∃ x ∈ hashes, r = x.row i
  all : ∀ x ∈ hashes, x.row i ∈ rows'
  key : (rows.map (·.key)).Nodup → (rows'.map (·.key)).Nodup
  hash : (rows.map (·.calculatedHash)).Nodup → (rows'.map (·.calculatedHash)).Nodup

theorem Extended.cons {rows₁ : List PublicKeyHashHash} {l : List Hash}
    (hstep : Extended rows rows₁ i [x]) (hrest : Extended rows₁ rows' i l) :
    Extended rows rows' i (x :: l) where
  old r hr := hrest.old r (hstep.old r hr)
  new r hr := by
    rcases hrest.new r hr with hr | ⟨y, hy, rfl⟩
    · rcases hstep.new r hr with hr | ⟨y, hy, rfl⟩
      · exact .inl hr
      · exact .inr ⟨y, List.mem_cons.mpr (.inl (List.mem_singleton.mp hy)), rfl⟩
    · exact .inr ⟨y, List.mem_cons_of_mem x hy, rfl⟩
  all := List.forall_mem_cons.mpr
    ⟨hrest.old _ (hstep.all x (List.mem_singleton.mpr rfl)), hrest.all⟩
  key hkey := hrest.key (hstep.key hkey)
  hash hhash := hrest.hash (hstep.hash hhash)

theorem extended_upsertHash (hagrees : ∀ r ∈ rows, r.publicKeyHashId = i →
      r.cryptographicHashAlgorithm ∉ written → x.algorithm = r.cryptographicHashAlgorithm →
      x.hash = r.calculatedHash)
    (hok : upsertHash i (rows, written) x = .ok (rows', written')) :
    Extended rows rows' i [x] := by
  rcases upsertHash_ok hagrees hok with ⟨rfl, -, hmem⟩ | ⟨rfl, -, hkey, hhash⟩
  · refine ⟨fun _ hr => hr, fun _ hr => .inl hr, fun y hy => ?_, id, id⟩
    rwa [List.mem_singleton.mp hy]
  · refine ⟨fun r hr => List.mem_append_left _ hr, fun r hr => ?_, fun y hy => ?_,
      fun h => nodup_concat h hkey, fun h => nodup_concat h hhash⟩
    · exact (List.mem_append.mp hr).imp_right fun hr =>
        ⟨x, List.mem_singleton.mpr rfl, List.mem_singleton.mp hr⟩
    · rw [List.mem_singleton.mp hy]
      exact List.mem_append_right _ (List.mem_singleton.mpr rfl)

/-- The stored rows that the command has not written agree with what is still to come. -/
theorem extended_foldlM {l : List Hash} (hagrees : ∀ r ∈ rows, r.publicKeyHashId = i →
      r.cryptographicHashAlgorithm ∉ written → ∀ x ∈ l,
      x.algorithm = r.cryptographicHashAlgorithm → x.hash = r.calculatedHash)
    (hok : l.foldlM (upsertHash i) (rows, written) = .ok (rows', written')) :
    Extended rows rows' i l := by
  induction l generalizing rows written with
  | nil =>
    obtain ⟨rfl, -⟩ := Prod.mk.inj (Except.ok.inj hok)
    exact ⟨fun _ hr => hr, fun _ hr => .inl hr, by simp, id, id⟩
  | cons x l ih =>
    rw [List.foldlM_cons, bind_eq_ok] at hok
    obtain ⟨⟨rows₁, written₁⟩, h₁, hok⟩ := hok
    have hx := fun r hr hi hwritten => hagrees r hr hi hwritten x List.mem_cons_self
    refine (extended_upsertHash hx h₁).cons (ih (fun r hr hi hwritten y hy => ?_) hok)
    rcases upsertHash_ok hx h₁ with ⟨rfl, rfl, -⟩ | ⟨rfl, rfl, -⟩
    · exact hagrees r hr hi hwritten y (List.mem_cons_of_mem x hy)
    · rw [List.mem_cons, not_or] at hwritten
      rcases List.mem_append.mp hr with hr | hr
      · exact hagrees r hr hi hwritten.2 y (List.mem_cons_of_mem x hy)
      · rw [List.mem_singleton.mp hr] at hwritten
        exact absurd rfl hwritten.1

theorem extended_upsert (hagrees : AgreesAt rows i hashes) (hok : upsert rows i hashes = .ok rows') :
    Extended rows rows' i hashes := by
  obtain ⟨⟨rows₁, written⟩, h₁, hok⟩ := bind_eq_ok.mp hok
  obtain rfl := Except.ok.inj hok
  exact extended_foldlM (fun r hr hi _ => hagrees r hr hi) h₁

/-! ## The row of a list -/

/-- What `get_or_create_public_key_hash_id` leaves. -/
structure Created (h h' : Hashes) (i : ℕ) (hashes : List Hash) : Prop where
  extended : Extended h.publicKeyHashHash h'.publicKeyHashHash i hashes
  keyed : h'.Keyed
  ids : ∀ j, j ∈ h'.publicKeyHash ↔ j ∈ h.publicKeyHash ∨ j = i
  /-- The rows of the id have the hashes of the list and no others for its algorithms. -/
  agrees : AgreesAt h'.publicKeyHashHash i hashes

theorem Extended.agreesAt (hext : Extended rows rows' i hashes)
    (hkey : (rows.map (·.key)).Nodup) : AgreesAt rows' i hashes := by
  intro r hr hi x hx halg
  have hrow : x.row i = r := by
    refine List.inj_on_of_nodup_map (hext.key hkey) (hext.all x hx) hr ?_
    rw [PublicKeyHashHash.key, PublicKeyHashHash.key, Hash.row, hi, halg]
  rw [← hrow, Hash.row]

theorem created_getOrCreate (hkeyed : h.Keyed) (hagrees : h.Agrees hashes)
    (hok : getOrCreatePublicKeyHashId h hashes = .ok (h', i)) : Created h h' i hashes := by
  rw [getOrCreatePublicKeyHashId] at hok
  split at hok
  · rename_i hfound
    obtain ⟨hfresh, hok⟩ := bind_unit_eq_ok.mp hok
    obtain ⟨rows, hrows, hok⟩ := bind_eq_ok.mp hok
    obtain ⟨rfl, rfl⟩ := Prod.mk.inj (Except.ok.inj hok)
    -- the new id has no hashes yet
    have hnone : AgreesAt h.publicKeyHashHash h.publicKeyHashSeq hashes := fun r hr hi =>
      absurd hi (checkUnique_ok hfresh _ (hkeyed.parent r hr))
    have hext := extended_upsert hnone hrows
    refine ⟨hext, ⟨hext.key hkeyed.key, hext.hash hkeyed.hash, fun r hr => ?_⟩, fun j => ?_,
      hext.agreesAt hkeyed.key⟩
    · rcases hext.new r hr with hr | ⟨x, -, rfl⟩
      · exact List.mem_append_left _ (hkeyed.parent r hr)
      · exact List.mem_append_right _ (List.mem_singleton.mpr rfl)
    · rw [List.mem_append, List.mem_singleton]
  · rename_i pkhid hfound
    obtain ⟨rows, hrows, hok⟩ := bind_eq_ok.mp hok
    obtain ⟨rfl, rfl⟩ := Prod.mk.inj (Except.ok.inj hok)
    have hmem : pkhid ∈ h.found hashes := hfound ▸ List.mem_singleton.mpr rfl
    obtain ⟨r₀, hr₀, hof, rfl⟩ := mem_found.mp hmem
    have hext := extended_upsert (hagrees r₀ hr₀ hof) hrows
    refine ⟨hext, ⟨hext.key hkeyed.key, hext.hash hkeyed.hash, fun r hr => ?_⟩, fun j => ?_,
      hext.agreesAt hkeyed.key⟩
    · rcases hext.new r hr with hr | ⟨x, -, rfl⟩
      · exact hkeyed.parent r hr
      · exact hkeyed.parent r₀ hr₀
    · refine ⟨.inl, fun hj => hj.elim id ?_⟩
      rintro rfl
      exact hkeyed.parent r₀ hr₀
  · cases hok

theorem Hashes.Agrees.of_subset (hagrees : h.Agrees hashes)
    (hsub : ∀ r ∈ h'.publicKeyHashHash, r ∈ h.publicKeyHashHash) : h'.Agrees hashes :=
  fun r hr hof r' hr' => hagrees r (hsub r hr) hof r' (hsub r' hr')

/-- Another list, for the same algorithms, agrees still unless it shares a hash. -/
theorem Hashes.Agrees.created {other : List Hash} (hagrees : h.Agrees other)
    (hcreated : Created h h' i hashes) (hshare : ∀ x ∈ hashes, x ∈ other → other = hashes)
    (halgorithms : ∀ x ∈ other, ∃ y ∈ hashes, y.algorithm = x.algorithm) : h'.Agrees other := by
  rintro r hr ⟨x, hx, hxr⟩ r' hr' hid
  -- a row of the id has a hash of the list, so the lists are the same
  have hsame : r.publicKeyHashId = i →
      AgreesAt h'.publicKeyHashHash r.publicKeyHashId other := by
    intro hi
    obtain ⟨y, hy, halg⟩ := halgorithms x hx
    have hhash := hcreated.agrees r hr hi y hy (halg.trans hxr.1)
    have hyx : y = x := by
      cases y
      cases x
      exact Hash.mk.injEq .. ▸ ⟨halg, hhash.trans hxr.2.symm⟩
    rw [hshare y hy (hyx ▸ hx), hi]
    exact hcreated.agrees
  rcases hcreated.extended.new r hr with hold | ⟨y, -, rfl⟩
  · rcases hcreated.extended.new r' hr' with hold' | ⟨y, -, rfl⟩
    · exact hagrees r hold ⟨x, hx, hxr⟩ r' hold' hid
    · exact hsame hid.symm _ hr' hid
  · exact hsame rfl r' hr' hid

end JazzHands.X509

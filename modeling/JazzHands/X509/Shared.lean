import JazzHands.Library.Runs
import JazzHands.X509.Statements
import Mathlib.Tactic.MkIffOfInductiveProp

/-!
# Hashes are shared and do not dangle

Two certificates or requests have the same hashes exactly when they have the same public key, and
all hashes are in use.  Requests have no trigger that removes hashes, and hashes of different keys
may be mixed when one of them is the same.
-/

namespace JazzHands.X509

open Postgres RowStatement Library

/-! ## What holds -/

/-- What the tables of certificates and of requests have in common: a hash id, and a key that is
read in a text. -/
structure View (ρ : Type) where
  hashId : ρ → Option ℕ
  key : ρ → Option (Option String)

def certificateView (utils : CertUtils) : View Certificate where
  hashId := (·.publicKeyHashId)
  key x := x.publicKey.map utils.publicKey

def requestView (utils : CertUtils) : View Request where
  hashId := (·.publicKeyHashId)
  key r := some (utils.requestKey r.certificateSigningRequest)

/-- The rows with a key. -/
def View.keyRows {ρ : Type} (v : View ρ) (rows : List ρ) : List (Option ℕ × Option String) :=
  rows.filterMap fun c => (v.key c).map fun k => (v.hashId c, k)

def keyRows (utils : CertUtils) (db : Db) : List (Option ℕ × Option String) :=
  (certificateView utils).keyRows db.x509SignedCertificate ++
    (requestView utils).keyRows db.certificateSigningRequest

def SameHashIds (utils : CertUtils) (db : Db) : Prop :=
  ∀ p ∈ keyRows utils db, ∀ q ∈ keyRows utils db, p.1 = q.1 ↔ p.2 = q.2
  deriving Decidable

def AllReferenced (db : Db) : Prop := ∀ i ∈ db.hashes.publicKeyHash, db.Refers i
  deriving Decidable

/-- The hashes of the key are stored under the id. -/
def Recorded (utils : CertUtils) (h : Hashes) (p : Option ℕ × Option String) : Prop :=
  ∃ i key, p = (some i, some key) ∧ ∀ x ∈ utils.hashes key, x.row i ∈ h.publicKeyHashHash

structure Stored (utils : CertUtils) (db : Db) : Prop where
  keyed : db.hashes.Keyed
  recorded : ∀ p ∈ keyRows utils db, Recorded utils db.hashes p

/-! ## What a statement has to meet -/

/-- No hash of a key is stored for another one, and the keys share none. -/
@[mk_iff]
structure Apart (utils : CertUtils) (h : Hashes) (keys : List String) : Prop where
  agrees : ∀ k ∈ keys, h.Agrees (utils.hashes k)
  share : ∀ k ∈ keys, ∀ k' ∈ keys, (∃ x ∈ utils.hashes k, x ∈ utils.hashes k') →
    utils.hashes k' = utils.hashes k

instance (utils : CertUtils) (h : Hashes) (keys : List String) : Decidable (Apart utils h keys) :=
  decidable_of_iff _ (apart_iff utils h keys).symm

/-- The keys of the new rows. -/
def View.newKeys {ρ : Type} (v : View ρ) (events : List (RowEvent ρ)) : List String :=
  events.filterMap fun e => (e.new?.bind v.key).join

/-- The hashes of a request that goes are those of another row. -/
def LeavesReferred (utils : CertUtils) (db : Db) (events : List (RowEvent Request)) : Prop :=
  ∀ e ∈ events, ∀ old ∈ e.old?, ∀ i ∈ old.publicKeyHashId,
    (∃ x ∈ db.x509SignedCertificate, x.publicKeyHashId = some i) ∨
    (∃ pk ∈ db.privateKey, pk.publicKeyHashId = i) ∨
    (∃ r ∈ db.certificateSigningRequest, r.publicKeyHashId = some i ∧
      ∀ e' ∈ events, e'.old? ≠ some r) ∨
    ∃ e' ∈ events, ∃ new ∈ e'.new?,
      utils.requestKey new.certificateSigningRequest =
        utils.requestKey old.certificateSigningRequest
  deriving Decidable

/-- What a statement brings and takes. -/
def Keeps (utils : CertUtils) (db : Db) : Statement → Prop
  | .certificate columns s =>
    Apart utils db.hashes ((certificateView utils).newKeys
      ((s.naming (Certificate.set columns)).events db.x509SignedCertificate))
  | .privateKey _ _ => True
  | .request columns s =>
    Apart utils db.hashes ((requestView utils).newKeys
      ((s.naming (Request.set columns)).events db.certificateSigningRequest)) ∧
    LeavesReferred utils db ((s.naming (Request.set columns)).events db.certificateSigningRequest)
  | .setPrivateKeyHashes _ hashes => db.hashes.Agrees hashes
  | .setX509SignedCertificateHashes _ hashes _ => db.hashes.Agrees hashes

instance (utils : CertUtils) (db : Db) (s : Statement) : Decidable (Keeps utils db s) :=
  match s with
  | .certificate _ _ => inferInstanceAs (Decidable (Apart utils db.hashes _))
  | .privateKey _ _ => inferInstanceAs (Decidable True)
  | .request _ _ => inferInstanceAs (Decidable (Apart utils db.hashes _ ∧ _))
  | .setPrivateKeyHashes _ hashes => inferInstanceAs (Decidable (db.hashes.Agrees hashes))
  | .setX509SignedCertificateHashes _ hashes _ =>
    inferInstanceAs (Decidable (db.hashes.Agrees hashes))

variable {utils : CertUtils} {first : FirstRow PrivateKey} {db db' : Db} {h h' : Hashes}
  {hashes : List Hash} {i j : ℕ} {columns : List Column} {k : String}

/-! ## Stored hashes -/

variable {x : Hash} {p : Option ℕ × Option String} {key : Option String}
  {a : Statement × FirstRow PrivateKey}

theorem Hashes.Keyed.row_inj (hkeyed : h.Keyed) (hi : x.row i ∈ h.publicKeyHashHash)
    (hj : x.row j ∈ h.publicKeyHashHash) : i = j :=
  congrArg PublicKeyHashHash.publicKeyHashId (List.inj_on_of_nodup_map hkeyed.hash hi hj rfl)

theorem Hashes.Keyed.hash_inj (hkeyed : h.Keyed) {y : Hash} (hx : x.row i ∈ h.publicKeyHashHash)
    (hy : y.row i ∈ h.publicKeyHashHash) (halg : x.algorithm = y.algorithm) : x.hash = y.hash := by
  refine congrArg PublicKeyHashHash.calculatedHash (List.inj_on_of_nodup_map hkeyed.key hx hy ?_)
  exact congrArg (Prod.mk i) halg

/-- A list that is stored under one id agrees with what is stored. -/
theorem Hashes.Keyed.agrees_of_all (hkeyed : h.Keyed)
    (hall : ∀ x ∈ hashes, x.row i ∈ h.publicKeyHashHash) : h.Agrees hashes := by
  rintro r hr ⟨x, hx, -, hhash⟩ r' hr' hid y hy halg
  have hrow : x.row i = r := List.inj_on_of_nodup_map hkeyed.hash (hall x hx) hr hhash
  have hrow' : y.row i = r' := by
    refine List.inj_on_of_nodup_map hkeyed.key (hall y hy) hr' ?_
    rw [PublicKeyHashHash.key, PublicKeyHashHash.key, hid, ← hrow, Hash.row, Hash.row, halg]
  rw [← hrow', Hash.row]

theorem Hashes.Keyed.hashes_eq (hkeyed : h.Keyed) {k' : String}
    (hk : ∀ x ∈ utils.hashes k, x.row i ∈ h.publicKeyHashHash)
    (hk' : ∀ x ∈ utils.hashes k', x.row i ∈ h.publicKeyHashHash) :
    utils.hashes k = utils.hashes k' := by
  have hsha1 := hkeyed.hash_inj (hk _ List.mem_cons_self) (hk' _ List.mem_cons_self) rfl
  have hsha256 := hkeyed.hash_inj (hk _ (List.mem_cons_of_mem _ List.mem_cons_self))
    (hk' _ (List.mem_cons_of_mem _ List.mem_cons_self)) rfl
  exact congrArg₂ (fun a b => [(⟨"sha1", a⟩ : Hash), ⟨"sha256", b⟩]) hsha1 hsha256

theorem mem_hashes_algorithm {k' : String} (hx : x ∈ utils.hashes k) :
    ∃ y ∈ utils.hashes k', y.algorithm = x.algorithm := by
  rcases List.mem_cons.mp hx with rfl | hx
  · exact ⟨_, List.mem_cons_self, rfl⟩
  · obtain rfl := List.mem_singleton.mp hx
    exact ⟨_, List.mem_cons_of_mem _ (List.mem_singleton.mpr rfl), rfl⟩

theorem Recorded.mono (hp : Recorded utils h p)
    (hsub : ∀ r ∈ h.publicKeyHashHash, r ∈ h'.publicKeyHashHash) : Recorded utils h' p := by
  obtain ⟨i, key, rfl, hall⟩ := hp
  exact ⟨i, key, rfl, fun x hx => hsub _ (hall x hx)⟩

/-- Ids and keys go together, as the hashes of a key determine it. -/
theorem Recorded.iff (hutils : ∀ k k', utils.hashes k = utils.hashes k' → k = k') (hkeyed : h.Keyed)
    {q : Option ℕ × Option String} (hp : Recorded utils h p) (hq : Recorded utils h q)
    : p.1 = q.1 ↔ p.2 = q.2 := by
  obtain ⟨i, k, rfl, hk⟩ := hp
  obtain ⟨j, k', rfl, hk'⟩ := hq
  rw [Option.some.injEq, Option.some.injEq]
  constructor
  · rintro rfl
    exact hutils k k' (hkeyed.hashes_eq hk hk')
  · rintro rfl
    exact hkeyed.row_inj (hk _ List.mem_cons_self) (hk' _ List.mem_cons_self)

theorem Stored.sameHashIds (hutils : ∀ k k', utils.hashes k = utils.hashes k' → k = k')
    (hstored : Stored utils db) : SameHashIds utils db :=
  fun p hp q hq => (hstored.recorded p hp).iff hutils hstored.keyed (hstored.recorded q hq)

/-! ## The triggers before a row is written -/

section Rows

variable {ρ : Type} {v : View ρ} {t : List ρ} {s : RowStatement ρ} {e : RowEvent ρ}
  {new new' r c : ρ} {before : Hashes → RowEvent ρ → ρ → Result (Hashes × ρ)}
  {check : List ρ → ρ → Result Unit} {l : List (Slot ρ)} {w w' : Written Hashes ρ}

/-- What a trigger makes of a new row: it has no key, or the key and the hashes of a row that was
there, or the hashes of its key are found. -/
structure Handles (utils : CertUtils) (v : View ρ) (t : List ρ) (h : Hashes) (new : ρ)
    (h' : Hashes) (new' : ρ) : Prop where
  key : v.key new' = v.key new
  given : ∀ i, v.hashId new = some i → v.hashId new' = some i
  how : (h' = h ∧ v.key new = none) ∨
    (h' = h ∧ ∃ old ∈ t, v.key new = v.key old ∧ v.hashId new' = v.hashId old) ∨
    ∃ k i, v.key new = some (some k) ∧ v.hashId new' = some i ∧
      getOrCreatePublicKeyHashId h (utils.hashes k) = .ok (h', i)

/-- What holds when some rows of a statement are done: `l` is still to come. -/
structure Progress (utils : CertUtils) (v : View ρ) (t : List ρ) (s : RowStatement ρ) (h : Hashes)
    (l : List (Slot ρ)) (w : Written Hashes ρ) : Prop where
  keyed : w.state.Keyed
  grows : ∀ r ∈ h.publicKeyHashHash, r ∈ w.state.publicKeyHashHash
  ids : ∀ i ∈ w.state.publicKeyHash, i ∈ h.publicKeyHash ∨ ∃ c ∈ w.rows, v.hashId c = some i
  recorded : ∀ c ∈ w.rows, ∀ k ∈ v.key c, Recorded utils w.state (v.hashId c, k)
  rest : ∀ slot ∈ l, slot ∈ s.slots t
  agrees : ∀ e new k, .write e ∈ l → e.new? = some new → v.key new = some (some k) →
    w.state.Agrees (utils.hashes k)
  kept : ∀ r, .keep r ∈ s.slots t → .keep r ∈ l ∨ r ∈ w.rows
  done : ∀ e new, .write e ∈ s.slots t → e.new? = some new → .write e ∈ l ∨
    ∃ c ∈ w.rows, v.key c = v.key new ∧ ∀ i, v.hashId new = some i → v.hashId c = some i

theorem mem_newKeys {events : List (RowEvent ρ)} (he : e ∈ events) (hnew : e.new? = some new)
    (hk : v.key new = some (some k)) : k ∈ v.newKeys events :=
  List.mem_filterMap.mpr ⟨e, he, by rw [hnew, Option.bind_some, hk]; rfl⟩

theorem Progress.start (hkeyed : h.Keyed) (hapart : Apart utils h (v.newKeys (s.events t))) :
    Progress utils v t s h (s.slots t) ⟨h, [], []⟩ where
  keyed := hkeyed
  grows _ hr := hr
  ids _ hi := .inl hi
  recorded _ hc := absurd hc List.not_mem_nil
  rest _ hslot := hslot
  agrees _ _ _ he hnew hk := hapart.agrees _ (mem_newKeys (mem_slots_write.mp he) hnew hk)
  kept _ hr := .inl hr
  done _ _ he _ := .inl he

theorem Progress.keep (hrecorded : ∀ c ∈ t, ∀ k ∈ v.key c, Recorded utils h (v.hashId c, k))
    (hp : Progress utils v t s h (.keep r :: l) w) : Progress utils v t s h l (w.keep r) where
  keyed := hp.keyed
  grows := hp.grows
  ids i hi := (hp.ids i hi).imp_right fun hc => by
    obtain ⟨c, hc, hci⟩ := hc
    exact ⟨c, Written.mem_rows_keep.mpr (.inl hc), hci⟩
  recorded c hc k hk := by
    rcases Written.mem_rows_keep.mp hc with hc | rfl
    · exact hp.recorded c hc k hk
    · have hct := mem_of_mem_slots_keep (hp.rest _ List.mem_cons_self)
      exact (hrecorded c hct k hk).mono hp.grows
  rest slot hslot := hp.rest slot (List.mem_cons_of_mem _ hslot)
  agrees e new k he := hp.agrees e new k (List.mem_cons_of_mem _ he)
  kept r' hr' := by
    rcases hp.kept r' hr' with hl | hr'
    · rcases List.mem_cons.mp hl with heq | hl
      · exact .inr (Written.mem_rows_keep.mpr (.inr (Slot.keep.inj heq)))
      · exact .inl hl
    · exact .inr (Written.mem_rows_keep.mpr (.inl hr'))
  done e new he hnew := by
    rcases hp.done e new he hnew with hl | ⟨c, hc, hkey⟩
    · exact .inl ((List.mem_cons.mp hl).resolve_left fun heq => by cases heq)
    · exact .inr ⟨c, Written.mem_rows_keep.mpr (.inl hc), hkey⟩

theorem Progress.delete (hnone : e.new? = none) (hp : Progress utils v t s h (.write e :: l) w) :
    Progress utils v t s h l w where
  keyed := hp.keyed
  grows := hp.grows
  ids := hp.ids
  recorded := hp.recorded
  rest slot hslot := hp.rest slot (List.mem_cons_of_mem _ hslot)
  agrees e new k he := hp.agrees e new k (List.mem_cons_of_mem _ he)
  kept r hr := by
    rcases hp.kept r hr with hl | hr
    · exact .inl ((List.mem_cons.mp hl).resolve_left fun heq => by cases heq)
    · exact .inr hr
  done e' new he' hnew := (hp.done e' new he' hnew).imp_left fun hl =>
    (List.mem_cons.mp hl).resolve_left fun heq => by
      obtain rfl := Slot.write.inj heq
      rw [hnew] at hnone
      cases hnone

/-- The hash tables after a row: nothing is stored for another key. -/
structure Advanced (utils : CertUtils) (v : View ρ) (h h' : Hashes) (new' : ρ)
    (keys : List String) : Prop where
  keyed : h'.Keyed
  grows : ∀ r ∈ h.publicKeyHashHash, r ∈ h'.publicKeyHashHash
  ids : ∀ i ∈ h'.publicKeyHash, i ∈ h.publicKeyHash ∨ v.hashId new' = some i
  recorded : ∀ k ∈ v.key new', Recorded utils h' (v.hashId new', k)
  agrees : ∀ k ∈ keys, h.Agrees (utils.hashes k) → h'.Agrees (utils.hashes k)

theorem Handles.advanced {keys : List String} (hhandles : Handles utils v t h new h' new')
    (hkeyed : h.Keyed) (hrecorded : ∀ c ∈ t, ∀ k ∈ v.key c, Recorded utils h (v.hashId c, k))
    (hagrees : ∀ k, v.key new = some (some k) → k ∈ keys ∧ h.Agrees (utils.hashes k))
    (hshare : ∀ k ∈ keys, ∀ k' ∈ keys, (∃ x ∈ utils.hashes k, x ∈ utils.hashes k') →
      utils.hashes k' = utils.hashes k) : Advanced utils v h h' new' keys := by
  rcases hhandles.how with ⟨rfl, hnone⟩ | ⟨rfl, old, hold, hkey, hid⟩ | ⟨k, i, hkey, hid, hcreate⟩
  · refine ⟨hkeyed, fun _ hr => hr, fun _ hi => .inl hi, fun k hk => ?_, fun _ _ ha => ha⟩
    rw [hhandles.key, hnone] at hk
    cases hk
  · refine ⟨hkeyed, fun _ hr => hr, fun _ hi => .inl hi, fun k hk => ?_, fun _ _ ha => ha⟩
    rw [hhandles.key, hkey] at hk
    exact hid ▸ hrecorded old hold k hk
  · obtain ⟨hmem, ha⟩ := hagrees k hkey
    have hcreated := created_getOrCreate hkeyed ha hcreate
    refine ⟨hcreated.keyed, hcreated.extended.old, fun j hj => ?_, fun k' hk' => ?_,
      fun k' hk' ha' => ?_⟩
    · refine ((hcreated.ids j).mp hj).imp_right ?_
      rintro rfl
      exact hid
    · rw [hhandles.key, hkey] at hk'
      obtain rfl := Option.some.inj hk'
      exact ⟨i, k, by rw [hid], hcreated.extended.all⟩
    · exact ha'.created hcreated (fun x hx hx' => hshare k hmem k' hk' ⟨x, hx, hx'⟩)
        fun x hx => mem_hashes_algorithm hx

theorem Progress.write {state : Hashes}
    (hrecorded : ∀ c ∈ t, ∀ k ∈ v.key c, Recorded utils h (v.hashId c, k))
    (hapart : Apart utils h (v.newKeys (s.events t))) (hnew : e.new? = some new)
    (hhandles : Handles utils v t w.state new state new')
    (hp : Progress utils v t s h (.write e :: l) w) :
    Progress utils v t s h l (w.write state new') := by
  have he := mem_slots_write.mp (hp.rest _ List.mem_cons_self)
  have hadvanced := hhandles.advanced hp.keyed
    (fun c hc k hk => (hrecorded c hc k hk).mono hp.grows)
    (fun k hk => ⟨mem_newKeys he hnew hk, hp.agrees e new k List.mem_cons_self hnew hk⟩)
    hapart.share
  refine ⟨hadvanced.keyed, fun r hr => hadvanced.grows r (hp.grows r hr), fun i hi => ?_,
    fun c hc k hk => ?_, fun slot hslot => hp.rest slot (List.mem_cons_of_mem _ hslot),
    fun e' new₁ k he' hnew₁ hk => ?_, fun r hr => ?_, fun e' new₁ he' hnew₁ => ?_⟩
  · rcases hadvanced.ids i hi with hi | hi
    · refine (hp.ids i hi).imp_right fun hc => ?_
      obtain ⟨c, hc, hci⟩ := hc
      exact ⟨c, Written.mem_rows_write.mpr (.inl hc), hci⟩
    · exact .inr ⟨new', Written.mem_rows_write.mpr (.inr rfl), hi⟩
  · rcases Written.mem_rows_write.mp hc with hc | rfl
    · exact (hp.recorded c hc k hk).mono hadvanced.grows
    · exact hadvanced.recorded k hk
  · have hmem := mem_slots_write.mp (hp.rest _ (List.mem_cons_of_mem _ he'))
    exact hadvanced.agrees k (mem_newKeys hmem hnew₁ hk)
      (hp.agrees e' new₁ k (List.mem_cons_of_mem _ he') hnew₁ hk)
  · rcases hp.kept r hr with hl | hr
    · exact .inl ((List.mem_cons.mp hl).resolve_left fun heq => by cases heq)
    · exact .inr (Written.mem_rows_write.mpr (.inl hr))
  · rcases hp.done e' new₁ he' hnew₁ with hl | ⟨c, hc, hkey⟩
    · rcases List.mem_cons.mp hl with heq | hl
      · obtain rfl := Slot.write.inj heq
        obtain rfl := Option.some.inj (hnew.symm.trans hnew₁)
        exact .inr ⟨new', Written.mem_rows_write.mpr (.inr rfl), hhandles.key, hhandles.given⟩
      · exact .inl hl
    · exact .inr ⟨c, Written.mem_rows_write.mpr (.inl hc), hkey⟩

theorem progress_executeBefore (hkeyed : h.Keyed)
    (hrecorded : ∀ c ∈ t, ∀ k ∈ v.key c, Recorded utils h (v.hashId c, k))
    (hapart : Apart utils h (v.newKeys (s.events t)))
    (hbefore : ∀ e ∈ s.events t, ∀ new h₁ h₂ new', e.new? = some new →
      before h₁ e new = .ok (h₂, new') → Handles utils v t h₁ new h₂ new')
    (hok : s.executeBefore before check h t = .ok w) : Progress utils v t s h [] w := by
  refine writeSlots_keeps (fun r l w hp => hp.keep hrecorded) (fun e l w hnone hp =>
    hp.delete hnone) (fun e new l w state new' hnew hp hstep => ?_)
    (Progress.start hkeyed hapart) hok
  have he := mem_slots_write.mp (hp.rest _ List.mem_cons_self)
  exact hp.write hrecorded hapart hnew (hbefore e he new _ _ _ hnew hstep)

end Rows

/-! ## The triggers of certificates and of requests -/

theorem mem_keyRows {ρ : Type} {v : View ρ} {rows : List ρ} :
    p ∈ v.keyRows rows ↔ ∃ c ∈ rows, ∃ k ∈ v.key c, (v.hashId c, k) = p := by
  simp only [View.keyRows, List.mem_filterMap, Option.map_eq_some_iff, Option.mem_def]

theorem hashesOf_ok (hok : utils.hashesOf key = .ok hashes) :
    ∃ k, key = some k ∧ hashes = utils.hashes k := by
  cases key with
  | none => cases hok
  | some k => exact ⟨k, rfl, (Except.ok.inj hok).symm⟩

theorem matchHashId_ok {given : Option ℕ} {message : String}
    (hok : matchHashId given i message = .ok ()) : ∀ j, given = some j → j = i := by
  rintro j rfl
  have hnone := raiseIf_eq_ok.mp hok
  by_contra hne
  exact hnone ⟨j, rfl, hne⟩

theorem beforeCertificate_handles {t : List Certificate} {s : RowStatement Certificate}
    {e : RowEvent Certificate} {new new' : Certificate}
    (he : e ∈ (s.naming (Certificate.set columns)).events t) (hnew : e.new? = some new)
    (hok : beforeCertificate utils columns h e new = .ok (h', new')) :
    Handles utils (certificateView utils) t h new h' new' := by
  rw [beforeCertificate] at hok
  split at hok
  · rw [setX509CertificateSkiAndHashes] at hok
    split at hok
    · rename_i hnone
      obtain ⟨rfl, rfl⟩ := Prod.mk.inj (Except.ok.inj hok)
      exact ⟨rfl, fun _ hi => hi, .inl ⟨rfl, by simp [certificateView, hnone]⟩⟩
    · rename_i publicKey hkey
      obtain ⟨hashes, hhashes, hok⟩ := bind_eq_ok.mp hok
      obtain ⟨⟨h₁, pkhid⟩, hcreate, hok⟩ := bind_eq_ok.mp hok
      obtain ⟨hgiven, hok⟩ := bind_unit_eq_ok.mp hok
      obtain ⟨-, hok⟩ := bind_unit_eq_ok.mp hok
      obtain ⟨rfl, rfl⟩ := Prod.mk.inj (Except.ok.inj hok)
      obtain ⟨k, hk, rfl⟩ := hashesOf_ok hhashes
      refine ⟨rfl, fun i hi => congrArg some (matchHashId_ok hgiven i hi).symm, .inr (.inr ?_)⟩
      exact ⟨k, pkhid, by simp [certificateView, hkey, hk], rfl, hcreate⟩
  · rename_i hfires
    obtain ⟨rfl, rfl⟩ := Prod.mk.inj (Except.ok.inj hok)
    refine ⟨rfl, fun _ hi => hi, .inr (.inl ⟨rfl, ?_⟩)⟩
    obtain ⟨old, hold, ⟨values, heq⟩, hunnamed⟩ := exists_of_not_fires he hnew hfires
    refine ⟨old, hold, ?_, ?_⟩
    · simp [heq, certificateView, Certificate.set, hunnamed]
    · simp [heq, certificateView, Certificate.set, hunnamed]

theorem beforeRequest_handles {t : List Request} {s : RowStatement Request}
    {e : RowEvent Request} {new new' : Request}
    (he : e ∈ (s.naming (Request.set columns)).events t) (hnew : e.new? = some new)
    (hok : beforeRequest utils columns h e new = .ok (h', new')) :
    Handles utils (requestView utils) t h new h' new' := by
  rw [beforeRequest] at hok
  split at hok
  · obtain ⟨hashes, hhashes, hok⟩ := bind_eq_ok.mp hok
    obtain ⟨⟨h₁, pkhid⟩, hcreate, hok⟩ := bind_eq_ok.mp hok
    obtain ⟨hgiven, hok⟩ := bind_unit_eq_ok.mp hok
    obtain ⟨rfl, rfl⟩ := Prod.mk.inj (Except.ok.inj hok)
    obtain ⟨k, hk, rfl⟩ := hashesOf_ok hhashes
    refine ⟨rfl, fun i hi => congrArg some (matchHashId_ok hgiven i hi).symm, .inr (.inr ?_)⟩
    exact ⟨k, pkhid, by simp [requestView, hk], rfl, hcreate⟩
  · rename_i hfires
    obtain ⟨rfl, rfl⟩ := Prod.mk.inj (Except.ok.inj hok)
    refine ⟨rfl, fun _ hi => hi, .inr (.inl ⟨rfl, ?_⟩)⟩
    obtain ⟨old, hold, ⟨values, heq⟩, hunnamed⟩ := exists_of_not_fires he hnew hfires
    refine ⟨old, hold, ?_, ?_⟩
    · simp [heq, requestView, Request.set, hunnamed]
    · simp [heq, requestView, Request.set, hunnamed]

/-! ## The clean-up -/

theorem refers_of_mem_keyRows (hp : (some i, key) ∈ keyRows utils db) :
    db.Refers i := by
  rcases List.mem_append.mp hp with hp | hp
  · obtain ⟨x, hx, k, -, heq⟩ := mem_keyRows.mp hp
    exact .inl ⟨x, hx, (Prod.mk.inj heq).1⟩
  · obtain ⟨r, hr, k, -, heq⟩ := mem_keyRows.mp hp
    exact .inr (.inr ⟨r, hr, (Prod.mk.inj heq).1⟩)

theorem allReferenced_deleteDangling (db : Db) :
    AllReferenced (deleteDanglingPublicKeyHashes db) :=
  fun _ hi => of_decide_eq_true (List.mem_filter.mp hi).2

theorem Stored.deleteDangling (hstored : Stored utils db) :
    Stored utils (deleteDanglingPublicKeyHashes db) where
  keyed :=
    { key := hstored.keyed.key.sublist (List.filter_sublist.map _)
      hash := hstored.keyed.hash.sublist (List.filter_sublist.map _)
      parent := fun r hr => by
        obtain ⟨hr, hrefers⟩ := List.mem_filter.mp hr
        exact List.mem_filter.mpr ⟨hstored.keyed.parent r hr, hrefers⟩ }
  recorded p hp := by
    obtain ⟨i, key, rfl, hall⟩ := hstored.recorded p hp
    refine ⟨i, key, rfl, fun x hx => List.mem_filter.mpr ⟨hall x hx, ?_⟩⟩
    exact decide_eq_true (refers_of_mem_keyRows hp)

/-- Only the private keys of certificates differ. -/
structure SameKeys (db db' : Db) : Prop where
  hashes : db'.hashes = db.hashes
  privateKey : db'.privateKey = db.privateKey
  request : db'.certificateSigningRequest = db.certificateSigningRequest
  certificate : db'.x509SignedCertificate.map (fun x => (x.publicKeyHashId, x.publicKey)) =
    db.x509SignedCertificate.map fun x => (x.publicKeyHashId, x.publicKey)

section

variable (hsame : SameKeys db db')
include hsame

theorem SameKeys.keyRows_eq : keyRows utils db' = keyRows utils db := by
  have hview : ∀ rows : List Certificate, (certificateView utils).keyRows rows =
      (rows.map fun x => (x.publicKeyHashId, x.publicKey)).filterMap fun p =>
        (p.2.map utils.publicKey).map fun k => (p.1, k) := fun rows => by
    rw [List.filterMap_map]
    rfl
  rw [keyRows, keyRows, hview, hview, hsame.certificate, hsame.request]

theorem SameKeys.refers_iff : db'.Refers i ↔ db.Refers i := by
  have hcertificate : ∀ rows : List Certificate, (∃ x ∈ rows, x.publicKeyHashId = some i) ↔
      some i ∈ (rows.map fun x => (x.publicKeyHashId, x.publicKey)).map Prod.fst := fun rows => by
    simp [List.mem_map]
  rw [Db.Refers, Db.Refers, hcertificate, hcertificate, hsame.certificate, hsame.privateKey,
    hsame.request]

theorem SameKeys.stored (hstored : Stored utils db) :
    Stored utils db' where
  keyed := hsame.hashes ▸ hstored.keyed
  recorded p hp := hsame.hashes ▸ hstored.recorded p (hsame.keyRows_eq ▸ hp)

theorem SameKeys.allReferenced (hall : AllReferenced db) :
    AllReferenced db' :=
  fun i hi => hsame.refers_iff.mpr (hall i (hsame.hashes ▸ hi))

end

theorem sameKeys_setX509CertificatePrivateKeyId (new : Certificate) :
    SameKeys db (setX509CertificatePrivateKeyId first db new) := by
  refine ⟨rfl, rfl, rfl, ?_⟩
  rw [setX509CertificatePrivateKeyId, List.map_map]
  refine List.map_congr_left fun x _ => ?_
  dsimp only [Function.comp]
  split <;> rfl

theorem SameKeys.trans {db'' : Db} (h₁ : SameKeys db db') (h₂ : SameKeys db' db'') :
    SameKeys db db'' :=
  ⟨h₂.hashes.trans h₁.hashes, h₂.privateKey.trans h₁.privateKey, h₂.request.trans h₁.request,
    h₂.certificate.trans h₁.certificate⟩

theorem sameKeys_foldl (news : List Certificate) :
    SameKeys db (news.foldl (setX509CertificatePrivateKeyId first) db) := by
  induction news generalizing db with
  | nil => exact ⟨rfl, rfl, rfl, rfl⟩
  | cons new news ih => exact (sameKeys_setX509CertificatePrivateKeyId new).trans ih

theorem sameKeys_setPrivateKeyIds (s : RowStatement Certificate) (news : List Certificate) :
    SameKeys db (setPrivateKeyIds first columns db s news) := by
  cases s with
  | insert rows => exact sameKeys_foldl news
  | update set =>
    rw [setPrivateKeyIds]
    split
    · exact sameKeys_foldl news
    · exact ⟨rfl, rfl, rfl, rfl⟩
  | delete cond => exact ⟨rfl, rfl, rfl, rfl⟩

section CleanUp

variable {ρ : Type} {s : RowStatement ρ}

theorem Stored.cleanUp (hstored : Stored utils db) : Stored utils (X509.cleanUp columns s db) := by
  rw [X509.cleanUp]
  split
  · exact hstored.deleteDangling
  · exact hstored

theorem allReferenced_cleanUp (hall : cleansUp columns s = false → AllReferenced db) :
    AllReferenced (cleanUp columns s db) := by
  rw [cleanUp]
  split
  · exact allReferenced_deleteDangling db
  · exact hall (by simpa using ‹¬ cleansUp columns s›)

end CleanUp

/-! ## One table -/

theorem Stored.certificates (hstored : Stored utils db) :
    ∀ x ∈ db.x509SignedCertificate, ∀ k ∈ (certificateView utils).key x,
      Recorded utils db.hashes (x.publicKeyHashId, k) :=
  fun x hx k hk => hstored.recorded _ (List.mem_append_left _ (mem_keyRows.mpr ⟨x, hx, k, hk, rfl⟩))

theorem Stored.requests (hstored : Stored utils db) :
    ∀ r ∈ db.certificateSigningRequest, ∀ k ∈ (requestView utils).key r,
      Recorded utils db.hashes (r.publicKeyHashId, k) :=
  fun r hr k hk =>
    hstored.recorded _ (List.mem_append_right _ (mem_keyRows.mpr ⟨r, hr, k, hk, rfl⟩))

theorem stored_of_recorded (hkeyed : db.hashes.Keyed)
    (hcertificates : ∀ x ∈ db.x509SignedCertificate, ∀ k ∈ (certificateView utils).key x,
      Recorded utils db.hashes (x.publicKeyHashId, k))
    (hrequests : ∀ r ∈ db.certificateSigningRequest, ∀ k ∈ (requestView utils).key r,
      Recorded utils db.hashes (r.publicKeyHashId, k)) : Stored utils db := by
  refine ⟨hkeyed, fun p hp => ?_⟩
  rcases List.mem_append.mp hp with hp | hp
  · obtain ⟨x, hx, k, hk, rfl⟩ := mem_keyRows.mp hp
    exact hcertificates x hx k hk
  · obtain ⟨r, hr, k, hk, rfl⟩ := mem_keyRows.mp hp
    exact hrequests r hr k hk

section Certificates

variable {s : RowStatement Certificate} {news : List Certificate} (hstored : Stored utils db)
  (hapart : Apart utils db.hashes ((certificateView utils).newKeys
    ((s.naming (Certificate.set columns)).events db.x509SignedCertificate)))

include hstored hapart in
/-- What a statement on certificates has done before its triggers `AFTER`. -/
theorem executeCertificate_ok
    (hok : executeCertificate utils first db columns s = .ok (db', news)) :
    ∃ w, Progress utils (certificateView utils) db.x509SignedCertificate
        (s.naming (Certificate.set columns)) db.hashes [] w ∧
      db' = cleanUp columns s (setPrivateKeyIds first columns
        { db with hashes := w.state, x509SignedCertificate := w.rows } s w.news) := by
  obtain ⟨w, hw, hok⟩ := bind_eq_ok.mp hok
  obtain ⟨rfl, -⟩ := Prod.mk.inj (Except.ok.inj (bind_unit_eq_ok.mp hok).2)
  refine ⟨w, progress_executeBefore hstored.keyed hstored.certificates hapart ?_ hw, rfl⟩
  exact fun e he new h₁ h₂ new' hnew hstep => beforeCertificate_handles he hnew hstep

include hstored hapart in
theorem Stored.executeCertificate
    (hok : X509.executeCertificate utils first db columns s = .ok (db', news)) :
    Stored utils db' := by
  obtain ⟨w, hp, rfl⟩ := executeCertificate_ok hstored hapart hok
  refine ((sameKeys_setPrivateKeyIds s w.news).stored ?_).cleanUp
  exact stored_of_recorded hp.keyed hp.recorded
    fun r hr k hk => (hstored.requests r hr k hk).mono hp.grows

/-- A certificate whose hash id is not named is left with it. -/
theorem exists_certificate_of_old (hcleans : cleansUp columns s = false)
    {t : List Certificate} {e : RowEvent Certificate} {old : Certificate}
    (he : e ∈ (s.naming (Certificate.set columns)).events t) (hold : e.old? = some old) :
    ∃ new, e.new? = some new ∧ new.publicKeyHashId = old.publicKeyHashId := by
  cases s with
  | insert rows =>
    obtain ⟨r, -, rfl⟩ := List.mem_map.mp he
    cases hold
  | update set =>
    obtain ⟨r, -, new, hset, rfl⟩ := exists_of_update he
    obtain ⟨values, -, rfl⟩ := Option.map_eq_some_iff.mp hset
    obtain rfl := Option.some.inj hold
    exact ⟨_, rfl, if_neg (of_decide_eq_false hcleans)⟩
  | delete cond => cases hcleans

include hstored hapart in
theorem allReferenced_executeCertificate
    (hall : cleansUp columns s = false → AllReferenced db)
    (hok : executeCertificate utils first db columns s = .ok (db', news)) :
    AllReferenced db' := by
  obtain ⟨w, hp, rfl⟩ := executeCertificate_ok hstored hapart hok
  refine allReferenced_cleanUp fun hcleans => (sameKeys_setPrivateKeyIds s w.news).allReferenced ?_
  intro i hi
  rcases hp.ids i hi with hi | ⟨c, hc, hci⟩
  · rcases hall hcleans i hi with ⟨x, hx, hxi⟩ | hrest
    · refine .inl ?_
      rcases mem_slots_keep_or_old hx with hkeep | ⟨e, he, hold⟩
      · exact ⟨x, (hp.kept x hkeep).resolve_left List.not_mem_nil, hxi⟩
      · obtain ⟨new, hnew, hid⟩ := exists_certificate_of_old hcleans he hold
        obtain ⟨c, hc, -, hgiven⟩ :=
          (hp.done e new (mem_slots_write.mpr he) hnew).resolve_left List.not_mem_nil
        exact ⟨c, hc, hgiven i (hid.trans hxi)⟩
    · exact .inr hrest
  · exact .inl ⟨c, hc, hci⟩

end Certificates

section PrivateKeys

variable {s : RowStatement PrivateKey}

theorem executePrivateKey_ok (hok : executePrivateKey db columns s = .ok db') :
    db' = cleanUp columns s { db with
      privateKey := (s.naming (PrivateKey.set columns)).after db.privateKey } := by
  obtain ⟨rows, hrows, hok⟩ := bind_eq_ok.mp hok
  obtain rfl := execute_ok hrows
  exact (Except.ok.inj (bind_unit_eq_ok.mp hok).2).symm

theorem Stored.executePrivateKey (hstored : Stored utils db)
    (hok : X509.executePrivateKey db columns s = .ok db') : Stored utils db' := by
  rw [executePrivateKey_ok hok]
  refine Stored.cleanUp ?_
  exact ⟨hstored.keyed, hstored.recorded⟩

theorem allReferenced_executePrivateKey (hall : cleansUp columns s = false → AllReferenced db)
    (hok : executePrivateKey db columns s = .ok db') : AllReferenced db' := by
  rw [executePrivateKey_ok hok]
  refine allReferenced_cleanUp fun hcleans i hi => ?_
  rcases hall hcleans i hi with hx | ⟨pk, hpk, hpki⟩ | hr
  · exact .inl hx
  · refine .inr (.inl ?_)
    rcases mem_or_old_of_mem (s := s.naming (PrivateKey.set columns)) hpk with hpk | ⟨e, he, hold⟩
    · exact ⟨pk, hpk, hpki⟩
    · cases s with
      | insert rows =>
        obtain ⟨r, -, rfl⟩ := List.mem_map.mp he
        cases hold
      | update set =>
        obtain ⟨r, -, new, hset, rfl⟩ := exists_of_update he
        obtain ⟨values, -, rfl⟩ := Option.map_eq_some_iff.mp hset
        obtain rfl := Option.some.inj hold
        refine ⟨_, mem_after_of_new he rfl, Eq.trans ?_ hpki⟩
        exact if_neg (of_decide_eq_false hcleans)
      | delete cond => cases hcleans
  · exact .inr (.inr hr)

end PrivateKeys

section Requests

variable {s : RowStatement Request} (hstored : Stored utils db)
  (hapart : Apart utils db.hashes ((requestView utils).newKeys
    ((s.naming (Request.set columns)).events db.certificateSigningRequest)))

include hstored hapart in
theorem executeRequest_ok
    (hok : executeRequest utils db columns s = .ok db') :
    ∃ w, Progress utils (requestView utils) db.certificateSigningRequest
        (s.naming (Request.set columns)) db.hashes [] w ∧
      db' = { db with hashes := w.state, certificateSigningRequest := w.rows } := by
  obtain ⟨w, hw, hok⟩ := bind_eq_ok.mp hok
  obtain rfl := Except.ok.inj (bind_unit_eq_ok.mp hok).2
  refine ⟨w, progress_executeBefore hstored.keyed hstored.requests hapart ?_ hw, rfl⟩
  exact fun e he new h₁ h₂ new' hnew hstep => beforeRequest_handles he hnew hstep

include hstored hapart in
theorem Stored.executeRequest
    (hok : X509.executeRequest utils db columns s = .ok db') : Stored utils db' := by
  obtain ⟨w, hp, rfl⟩ := executeRequest_ok hstored hapart hok
  exact stored_of_recorded hp.keyed
    (fun x hx k hk => (hstored.certificates x hx k hk).mono hp.grows) hp.recorded

/-- A request with the key of one that goes has its hashes. -/
theorem refers_of_requestKey_eq {h h' : Hashes} {old new c : Request} (hkeyed : h'.Keyed)
    (hsub : ∀ r ∈ h.publicKeyHashHash, r ∈ h'.publicKeyHashHash)
    (hold : Recorded utils h (old.publicKeyHashId,
      utils.requestKey old.certificateSigningRequest))
    (hc : ∀ k ∈ (requestView utils).key c, Recorded utils h' (c.publicKeyHashId, k))
    (hkey : (requestView utils).key c = (requestView utils).key new)
    (heq : utils.requestKey new.certificateSigningRequest =
      utils.requestKey old.certificateSigningRequest) :
    c.publicKeyHashId = old.publicKeyHashId := by
  obtain ⟨i, k, hik, hall⟩ := hold.mono hsub
  obtain ⟨hi, hk⟩ := Prod.mk.inj hik
  obtain ⟨j, k', hjk, hall'⟩ := hc (utils.requestKey new.certificateSigningRequest) hkey
  obtain ⟨hj, hk'⟩ := Prod.mk.inj hjk
  obtain rfl : k = k' := Option.some.inj (hk.symm.trans (heq.symm.trans hk'))
  rw [hi, hj, hkeyed.row_inj (hall _ List.mem_cons_self) (hall' _ List.mem_cons_self)]

include hstored hapart in
theorem allReferenced_executeRequest (hall : AllReferenced db)
    (hleaves : LeavesReferred utils db
      ((s.naming (Request.set columns)).events db.certificateSigningRequest))
    (hok : executeRequest utils db columns s = .ok db') : AllReferenced db' := by
  obtain ⟨w, hp, rfl⟩ := executeRequest_ok hstored hapart hok
  intro i hi
  rcases hp.ids i hi with hi | ⟨c, hc, hci⟩
  · rcases hall i hi with hx | hpk | ⟨r, hr, hri⟩
    · exact .inl hx
    · exact .inr (.inl hpk)
    · rcases mem_slots_keep_or_old hr with hkeep | ⟨e, he, hold⟩
      · exact .inr (.inr ⟨r, (hp.kept r hkeep).resolve_left List.not_mem_nil, hri⟩)
      · rcases hleaves e he r hold i hri with hx | hpk | ⟨r', hr', hri', hnot⟩ | ⟨e', he', new, hnew, heq⟩
        · exact .inl hx
        · exact .inr (.inl hpk)
        · rcases mem_slots_keep_or_old hr' with hkeep | ⟨e', he', hold'⟩
          · exact .inr (.inr ⟨r', (hp.kept r' hkeep).resolve_left List.not_mem_nil, hri'⟩)
          · exact absurd hold' (hnot e' he')
        · obtain ⟨c, hc, hkey, -⟩ :=
            (hp.done e' new (mem_slots_write.mpr he') hnew).resolve_left List.not_mem_nil
          have hid := refers_of_requestKey_eq hp.keyed hp.grows (hstored.requests r hr _ rfl)
            (hp.recorded c hc) hkey heq
          exact .inr (.inr ⟨c, hc, hid.trans hri⟩)
  · exact .inr (.inr ⟨c, hc, hci⟩)

end Requests

/-! ## The calls -/

section

variable (hstored : Stored utils db)
include hstored

/-- The hashes of a call are stored before the row is written. -/
theorem Stored.created (hcreated : Created db.hashes h i hashes) :
    Stored utils { db with hashes := h } :=
  ⟨hcreated.keyed, fun p hp => (hstored.recorded p hp).mono hcreated.extended.old⟩

theorem setPrivateKeyHashes_keeps {privateKeyId : Option ℕ} (hagrees : db.hashes.Agrees hashes)
    (hok : setPrivateKeyHashes db privateKeyId hashes = .ok db') :
    Stored utils db' ∧ AllReferenced db' := by
  obtain ⟨⟨h, pkhid⟩, hcreate, hok⟩ := bind_eq_ok.mp hok
  have hcreated := created_getOrCreate hstored.keyed hagrees hcreate
  refine ⟨(hstored.created hcreated).executePrivateKey hok, ?_⟩
  exact allReferenced_executePrivateKey (fun hcleans => absurd hcleans (by simp [cleansUp])) hok

theorem Stored.apart {keys : List String}
    (hkeys : ∀ k ∈ keys, ∃ i, (some i, some k) ∈ keyRows utils db) :
    Apart utils db.hashes keys := by
  have hall : ∀ k ∈ keys, ∃ i, ∀ x ∈ utils.hashes k, x.row i ∈ db.hashes.publicKeyHashHash := by
    intro k hk
    obtain ⟨i, hi⟩ := hkeys k hk
    obtain ⟨i', k', heq, hall⟩ := hstored.recorded _ hi
    obtain rfl : k = k' := Option.some.inj (Prod.mk.inj heq).2
    exact ⟨i', hall⟩
  refine ⟨fun k hk => ?_, fun k hk k' hk' hx => ?_⟩
  · obtain ⟨i, hi⟩ := hall k hk
    exact hstored.keyed.agrees_of_all hi
  · obtain ⟨x, hx, hx'⟩ := hx
    obtain ⟨i, hi⟩ := hall k hk
    obtain ⟨j, hj⟩ := hall k' hk'
    obtain rfl := hstored.keyed.row_inj (hi x hx) (hj x hx')
    exact hstored.keyed.hashes_eq hj hi

/-- The new rows of an `UPDATE` of the hash id have the keys of rows that are there. -/
theorem Stored.apart_of_hashId {set : Certificate → Option Certificate} :
    Apart utils db.hashes ((certificateView utils).newKeys
      (((update set).naming (Certificate.set [.publicKeyHashId])).events
        db.x509SignedCertificate)) := by
  refine hstored.apart fun k hk => ?_
  obtain ⟨e, he, heq⟩ := List.mem_filterMap.mp hk
  obtain ⟨x, hx, new, hset, rfl⟩ := exists_of_update he
  obtain ⟨values, -, rfl⟩ := Option.map_eq_some_iff.mp hset
  have hkey : (certificateView utils).key x = some (some k) := Option.join_eq_some_iff.mp heq
  obtain ⟨i, k', heq, -⟩ := hstored.certificates x hx _ hkey
  refine ⟨i, List.mem_append_left _ (mem_keyRows.mpr ⟨x, hx, _, hkey, ?_⟩)⟩
  rw [← (Prod.mk.inj heq).1]
  rfl

end

theorem mem_of_mem_cleanUp {ρ : Type} {s : RowStatement ρ} {r : PublicKeyHashHash}
    (hr : r ∈ (cleanUp columns s db).hashes.publicKeyHashHash) :
    r ∈ db.hashes.publicKeyHashHash := by
  rw [cleanUp] at hr
  split at hr
  · exact (List.mem_filter.mp hr).1
  · exact hr

theorem setX509SignedCertificateHashes_keeps {x : ℕ} {updatePrivateKeyHashes : Bool}
    (hstored : Stored utils db) (hagrees : db.hashes.Agrees hashes)
    (hok : setX509SignedCertificateHashes utils first db x hashes updatePrivateKeyHashes =
      .ok db') : Stored utils db' ∧ AllReferenced db' := by
  obtain ⟨⟨h, pkhid⟩, hcreate, hok⟩ := bind_eq_ok.mp hok
  have hcreated := created_getOrCreate hstored.keyed hagrees hcreate
  have hstored₁ := hstored.created hcreated
  obtain ⟨⟨db₂, news⟩, hupdate, hok⟩ := bind_eq_ok.mp hok
  have hapart : Apart utils h ((certificateView utils).newKeys
      (((update fun x' =>
        if x'.x509SignedCertificateId = x ∧ x'.publicKeyHashId ≠ some pkhid then
          some { x' with publicKeyHashId := some pkhid }
        else none).naming (Certificate.set [.publicKeyHashId])).events db.x509SignedCertificate)) :=
    hstored₁.apart_of_hashId
  have hstored₂ := hstored₁.executeCertificate hapart hupdate
  have hall₂ := allReferenced_executeCertificate hstored₁ hapart
    (fun hcleans => absurd hcleans (by simp [cleansUp])) hupdate
  dsimp only at hok
  split at hok
  · refine setPrivateKeyHashes_keeps hstored₂ ?_ hok
    -- the list is still stored under one id, or what is left of it
    obtain ⟨w, hp, rfl⟩ := executeCertificate_ok hstored₁ hapart hupdate
    refine (hp.keyed.agrees_of_all fun y hy =>
      hp.grows _ (hcreated.extended.all y hy)).of_subset fun r hr => ?_
    have hr := mem_of_mem_cleanUp hr
    rwa [(sameKeys_setPrivateKeyIds _ _).hashes] at hr
  · obtain rfl := Except.ok.inj hok
    exact ⟨hstored₂, hall₂⟩

/-! ## Runs -/

theorem step_of_ok (hok : execute utils a.2 db a.1 = .ok db') : step utils db a = db' := by
  rw [step, hok]
  rfl

theorem step_of_error {err : PgError} (herror : execute utils a.2 db a.1 = .error err)
    : step utils db a = db := by
  rw [step, herror]
  rfl

theorem execute_keeps {s : Statement} (hstored : Stored utils db) (hall : AllReferenced db)
    (hkeeps : Keeps utils db s) (hok : execute utils first db s = .ok db') :
    Stored utils db' ∧ AllReferenced db' := by
  cases s with
  | certificate columns s =>
    obtain ⟨⟨db₁, news⟩, h₁, hok⟩ := bind_eq_ok.mp hok
    obtain rfl := Except.ok.inj hok
    exact ⟨hstored.executeCertificate hkeeps h₁,
      allReferenced_executeCertificate hstored hkeeps (fun _ => hall) h₁⟩
  | privateKey columns s =>
    exact ⟨hstored.executePrivateKey hok, allReferenced_executePrivateKey (fun _ => hall) hok⟩
  | request columns s =>
    exact ⟨hstored.executeRequest hkeeps.1 hok,
      allReferenced_executeRequest hstored hkeeps.1 hall hkeeps.2 hok⟩
  | setPrivateKeyHashes k hashes => exact setPrivateKeyHashes_keeps hstored hkeeps hok
  | setX509SignedCertificateHashes x hashes updatePrivateKeyHashes =>
    exact setX509SignedCertificateHashes_keeps hstored hkeeps hok

/-- **The hashes of public keys.**  In every state of a run whose statements bring no hash of
another key, and leave no hashes of a request that goes, certificates and requests have the same
hashes exactly when they have the same key, and all hashes are in use. -/
theorem shared_run {l : List (Statement × FirstRow PrivateKey)}
    (hutils : ∀ k k', utils.hashes k = utils.hashes k' → k = k') (hstored : Stored utils db)
    (hall : AllReferenced db)
    (hl : AllSteps (step utils) (fun db a =>
      (execute utils a.2 db a.1).isOk → Keeps utils db a.1) db l) :
    ∀ l', l' <+: l → SameHashIds utils (run (step utils) db l') ∧
      AllReferenced (run (step utils) db l') := by
  rintro l' ⟨l'', rfl⟩
  have hrun := run_invariant (I := fun db => Stored utils db ∧ AllReferenced db)
    (fun db a h hkeeps => ?_) ⟨hstored, hall⟩ (AllSteps.append.mp hl).1
  · exact ⟨hrun.1.sameHashIds hutils, hrun.2⟩
  · cases hok : execute utils a.2 db a.1 with
    | error err => rwa [step_of_error hok]
    | ok db' =>
      rw [step_of_ok hok]
      exact execute_keeps h.1 h.2 (hkeeps (by rw [hok]; rfl)) hok

/-! ## A request -/

/-- A certificate and a request with the key `abc`. -/
def abcUtils : CertUtils where
  publicKey t := if t = "certificate" then some "abc" else none
  requestKey t := if t = "request" then some "abc" else none
  subjectKeyIdentifier _ := none
  sha1 k := if k = "abc" then "a9993e364706816aba3e25717850c26c9cd0d89d" else k
  sha256 k :=
    if k = "abc" then "ba7816bf8f01cfea414140de5dae2223b00361a396177a9cb410ff61f20015ad" else k

theorem abcUtils_hashes_inj (k k' : String) (h : abcUtils.hashes k = abcUtils.hashes k') :
    k = k' := by
  simp only [CertUtils.hashes, abcUtils, List.cons.injEq, Hash.mk.injEq, true_and, and_true] at h
  obtain ⟨hsha1, hsha256⟩ := h
  by_cases hk : k = "abc" <;> by_cases hk' : k' = "abc"
  · rw [hk, hk']
  · rw [if_pos hk, if_neg hk'] at hsha1 hsha256
    exact absurd (hsha1.trans hsha256.symm) (by decide)
  · rw [if_neg hk, if_pos hk'] at hsha1 hsha256
    exact absurd (hsha1.symm.trans hsha256) (by decide)
  · rwa [if_neg hk, if_neg hk'] at hsha1

def emptyTables : Db := ⟨[], [], [], ⟨[], [], 1⟩⟩

theorem stored_emptyTables : Stored abcUtils emptyTables :=
  ⟨⟨List.nodup_nil, List.nodup_nil, by decide⟩, fun _ hp => absurd hp List.not_mem_nil⟩

def insertRequest : Statement × FirstRow PrivateKey :=
  (.request [] (.insert [⟨7, "request", none, none⟩]), .listed _)

def insertCertificate : Statement × FirstRow PrivateKey :=
  (.certificate [] (.insert [⟨5, none, none, some "certificate", none, none⟩]), .listed _)

def deleteRequest : Statement × FirstRow PrivateKey :=
  (.request [] (.delete fun r => r.certificateSigningRequestId = 7), .listed _)

/-- A certificate has the hashes of the request that goes. -/
theorem shared_run_certificate :
    SameHashIds abcUtils
        (run (step abcUtils) emptyTables [insertRequest, insertCertificate, deleteRequest]) ∧
      AllReferenced
        (run (step abcUtils) emptyTables [insertRequest, insertCertificate, deleteRequest]) :=
  shared_run (l := [insertRequest, insertCertificate, deleteRequest]) abcUtils_hashes_inj
    stored_emptyTables (by decide)
    ⟨fun _ => by decide, fun _ => by decide, fun _ => by decide, trivial⟩ _ (List.prefix_refl _)

/-- The hashes of a request that is deleted stay without any reference. -/
theorem not_allReferenced_deleted :
    AllReferenced (run (step abcUtils) emptyTables [insertRequest]) ∧
      (execute abcUtils deleteRequest.2 (run (step abcUtils) emptyTables [insertRequest])
        deleteRequest.1).isOk ∧
      ¬ AllReferenced (run (step abcUtils) emptyTables [insertRequest, deleteRequest]) := by
  decide

end JazzHands.X509

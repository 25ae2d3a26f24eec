import JazzHands.Hotpants.Token

/-!
# What the writes of a call keep

Everything a call does to the tables goes through the trigger of `v_hotpants_token`.  The rules
below say what `put_token` keeps while other calls are about.
-/

namespace JazzHands.Hotpants

open Library
open Library.Program (read modify Always)

variable {hp : Server} {db db' : Db} {I : Db → Prop} {token old new : Token} {t : TokenRow}
  {ts : TokenSequenceRow} {tokenId i : ℕ} {now seq upd : ℤ} {lockStatus : Bool}
  {unlockTime badLogins : Option ℤ}

/-! ## The two tables -/

/-- The columns of `token` that no call writes. -/
def TokenRow.fixed (t : TokenRow) : TokenRow :=
  { t with isTokenLocked := false, tokenUnlockTime := none, badLogins := none, lastUpdated := 0 }

theorem eq_of_fixed {t' : TokenRow} (h : t'.fixed = t.fixed) : ∃ b u n d, t' =
    { t with isTokenLocked := b, tokenUnlockTime := u, badLogins := n, lastUpdated := d } := by
  unfold TokenRow.fixed at h
  obtain ⟨h₁, h₂, h₃, h₄, h₅, h₆, -⟩ := TokenRow.mk.inj h
  refine ⟨t'.isTokenLocked, t'.tokenUnlockTime, t'.badLogins, t'.lastUpdated, ?_⟩
  cases t'
  simp_all

theorem key_of_fixed {t' : TokenRow} (h : t'.fixed = t.fixed) :
    hp.decryptKey t'.tokenKey t'.encryptionKeyId = hp.decryptKey t.tokenKey t.encryptionKeyId := by
  obtain ⟨b, u, n, d, rfl⟩ := eq_of_fixed h
  rfl

/-- The table `token` up to the columns that calls write. -/
def Db.fixedTokens (db : Db) (tokenId : ℕ) : Option TokenRow :=
  (db.token tokenId).map TokenRow.fixed

variable {row : TokenSequenceRow} {dbtok : Token} {B : Bool → Prop} {Q : Put → Prop}

@[simp] theorem putSequence_token :
    (db.putSequence i row).token = db.token := rfl

@[simp] theorem putSequence_tokenSequence :
    (db.putSequence i row).tokenSequence = Function.update db.tokenSequence i (some row) := rfl

@[simp] theorem putToken_tokenSequence : (db.putToken i t).tokenSequence = db.tokenSequence := rfl

@[simp] theorem putToken_token :
    (db.putToken i t).token = Function.update db.token i (some t) := rfl

@[simp] theorem resetSequence_token : (db.resetSequence i seq upd).token = db.token := by
  unfold Db.resetSequence
  split
  · rfl
  · split <;> rfl

theorem resetSequence_of_le (h : db.tokenSequence i = some ts) (hle : ts.lastUpdated ≤ upd) :
    db.resetSequence i seq upd = db.putSequence i ⟨seq, upd⟩ := by
  simp [Db.resetSequence, h, hle]

theorem resetSequence_of_some (h : db.tokenSequence i = some ts) :
    (db.resetSequence i seq upd).tokenSequence i =
      some (if ts.lastUpdated ≤ upd then ⟨seq, upd⟩ else ts) := by
  by_cases hle : ts.lastUpdated ≤ upd
  · simp [resetSequence_of_le h hle, hle]
  · simp [Db.resetSequence, h, hle]

theorem resetSequence_of_ne (h : i ≠ tokenId) :
    (db.resetSequence tokenId seq upd).tokenSequence i = db.tokenSequence i := by
  unfold Db.resetSequence
  split
  · rfl
  · split
    · exact Function.update_of_ne h _ _
    · rfl

@[simp] theorem lock_tokenSequence :
    (db.lock i lockStatus unlockTime badLogins upd).tokenSequence = db.tokenSequence := by
  unfold Db.lock
  split <;> rfl

theorem lock_of_some (h : db.token i = some t) :
    db.lock i lockStatus unlockTime badLogins upd = db.putToken i
      { t with isTokenLocked := lockStatus, tokenUnlockTime := unlockTime, badLogins := badLogins
               lastUpdated := upd } := by
  simp [Db.lock, h]

theorem fixedTokens_of_token (h : db'.token = db.token) : db'.fixedTokens = db.fixedTokens := by
  funext j
  simp [Db.fixedTokens, h]

@[simp] theorem lock_fixedTokens :
    (db.lock i lockStatus unlockTime badLogins upd).fixedTokens = db.fixedTokens := by
  funext j
  unfold Db.lock
  split
  · rfl
  next t ht =>
    by_cases hj : j = i
    · subst hj
      simp [Db.fixedTokens, ht, TokenRow.fixed]
    · simp [Db.fixedTokens, Function.update_of_ne hj]

theorem vHotpantsToken_eq_some {hr : Token} :
    db.vHotpantsToken i = some hr ↔ ∃ t ts, db.token i = some t ∧
      db.tokenSequence i = some ts ∧ hr = viewRow i t ts := by
  unfold Db.vHotpantsToken
  cases ht : db.token i with
  | none => simp
  | some t =>
    cases hs : db.tokenSequence i with
    | none => simp
    | some ts => simp [eq_comm]

/-! ## The trigger -/

theorem setSequence_always (h : ∀ db, I db → db.tokenSequence i ≠ none)
    (hreset : ∀ db, I db → I (db.resetSequence i seq upd)) :
    (setSequence i seq upd).Always I fun _ => True := by
  refine Always.read_bind fun db hdb => ?_
  cases hs : db.tokenSequence i with
  | none => exact absurd hs (h db hdb)
  | some cur => exact Always.modify hreset trivial

theorem setLockStatus_always
    (hlock : ∀ db, I db → I (db.lock i lockStatus unlockTime badLogins upd)) :
    (setLockStatus i lockStatus unlockTime badLogins upd).Always I fun _ => True := by
  refine Always.read_bind fun db hdb => ?_
  cases ht : db.token i with
  | none => exact Always.pure trivial
  | some cur =>
    show Program.Always I _ (if _ then _ else _)
    split
    · exact Always.modify hlock trivial
    · exact Always.pure trivial

theorem vHotpantsTokenUpd_always
    (hseq : old.tokenSequence ≠ new.tokenSequence →
      (setSequence new.tokenId new.tokenSequence new.lastUpdated.time).Always I fun _ => True)
    (hlock : old.badLogins ≠ new.badLogins → ∀ db u d, I db →
      I (db.lock new.tokenId (new.isTokenLocked = .Y) u new.badLogins d)) :
    (vHotpantsTokenUpd old new).Always I fun _ => True := by
  unfold vHotpantsTokenUpd
  refine Always.bind (Always.mono (R := fun _ => _) (fun _ _ => ?_) (Q := fun _ => True) ?_)
  · split
    · exact setLockStatus_always fun db hdb => hlock ‹_› db _ _ hdb
    · exact Always.pure trivial
  · split
    · exact hseq ‹_›
    · exact Always.pure trivial

theorem updateView_always {cond : Token → Bool} {set : Token → Token}
    (h : ∀ db old, I db → db.vHotpantsToken i = some old → cond old = true →
      (vHotpantsTokenUpd old (set old)).Always I fun _ => True) :
    (updateView i cond set).Always I fun _ => True := by
  refine Always.read_bind fun db hdb => ?_
  cases hv : db.vHotpantsToken i with
  | none => exact Always.pure trivial
  | some old =>
    show Program.Always I _ (if _ then _ else _)
    split
    · exact h db old hdb hv ‹_›
    · exact Always.pure trivial

/-! ## `fetch_token` and `put_token` -/

/-- The hash that `fetch_token` gives in a state. -/
def Server.fetched (hp : Server) (db : Db) (tokenId : ℕ) : Option Token :=
  if tokenId = 0 then none else (db.vHotpantsToken tokenId).bind hp.decrypted

/-- A hash that a server has of a token: its id is not 0, and it has no time skew. -/
def Token.InHand (token : Token) : Prop := token.tokenId ≠ 0 ∧ nonzero token.timeSkew = false

/-- A fetched hash is the row of the view with its key decrypted. -/
theorem fetched_eq_some (h : hp.fetched db i = some token) :
    i ≠ 0 ∧ ∃ t ts key, db.token i = some t ∧ db.tokenSequence i = some ts ∧
      hp.decryptKey t.tokenKey t.encryptionKeyId = some key ∧
      token = { viewRow i t ts with tokenKey := key } := by
  unfold Server.fetched at h
  split at h
  · cases h
  next hi =>
    obtain ⟨hr, hv, hd⟩ := Option.bind_eq_some_iff.mp h
    obtain ⟨t, ts, ht, hts, rfl⟩ := vHotpantsToken_eq_some.mp hv
    obtain ⟨key, hkey, rfl⟩ := Option.map_eq_some_iff.mp hd
    exact ⟨hi, t, ts, key, ht, hts, hkey, rfl⟩

theorem fetched_of_rows {key : Option String} (hi : i ≠ 0) (ht : db.token i = some t)
    (hts : db.tokenSequence i = some ts)
    (hkey : hp.decryptKey t.tokenKey t.encryptionKeyId = some key) :
    hp.fetched db i = some { viewRow i t ts with tokenKey := key } := by
  have hv : db.vHotpantsToken i = some (viewRow i t ts) :=
    vHotpantsToken_eq_some.mpr ⟨t, ts, ht, hts, rfl⟩
  simp only [Server.fetched, hi, if_false, hv, Option.bind_some, Server.decrypted]
  simp [viewRow, hkey]

/-- The key that `fetch_token` finds for a token. -/
def Server.HasKey (hp : Server) (db : Db) (tokenId : ℕ) (key : Option String) : Prop :=
  ∃ t, db.fixedTokens tokenId = some t ∧ hp.decryptKey t.tokenKey t.encryptionKeyId = some key

theorem fetched_ne_none : hp.fetched db i ≠ none ↔
    i ≠ 0 ∧ (∃ key, hp.HasKey db i key) ∧ ∃ ts, db.tokenSequence i = some ts := by
  constructor
  · intro h
    obtain ⟨token, hf⟩ := Option.ne_none_iff_exists'.mp h
    obtain ⟨hi, t, ts, key, ht, hts, hkey, -⟩ := fetched_eq_some hf
    exact ⟨hi, ⟨key, t.fixed, by simp [Db.fixedTokens, ht], hkey⟩, ts, hts⟩
  · rintro ⟨hi, ⟨key, t₀, ht₀, hkey⟩, ts, hts⟩
    obtain ⟨t, ht, rfl⟩ := Option.map_eq_some_iff.mp ht₀
    rw [fetched_of_rows hi ht hts hkey]
    exact nofun

theorem fetched_inHand (h : hp.fetched db i = some token) :
    token.InHand ∧ token.tokenId = i := by
  obtain ⟨hi, t, ts, key, -, -, -, rfl⟩ := fetched_eq_some h
  exact ⟨⟨hi, rfl⟩, rfl⟩

theorem fetchToken_always {Q : Option Token → Prop} (h0 : i = 0 → Q none)
    (h : ∀ db, I db → Q (hp.fetched db i)) : (fetchToken hp i).Always I Q := by
  unfold fetchToken
  split
  · exact Always.pure (h0 ‹_›)
  next hi =>
    refine Always.read_bind fun db hdb => Always.pure ?_
    have := h db hdb
    rwa [Server.fetched, if_neg hi] at this

@[simp] theorem fetchToken_run : (fetchToken hp i).run db = (hp.fetched db i, db) := by
  unfold fetchToken Server.fetched
  split
  · rfl
  · simp

/-- The text that the database shows is never the one that `strftime` writes. -/
theorem diff_lastUpdated (h : hp.fetched db i = some dbtok) (hnew : new.lastUpdated.zone = false) :
    (hashTableDiff dbtok new).lastUpdated = some new.lastUpdated := by
  obtain ⟨-, t, ts, key, -, -, -, rfl⟩ := fetched_eq_some h
  refine if_neg fun heq => ?_
  rw [← heq] at hnew
  cases hnew

/-- `B` holds for the lock flags of the rows in states with `I`. -/
def KeepsFlags (I : Db → Prop) (B : Bool → Prop) (tokenId : ℕ) : Prop :=
  ∀ db old, I db → db.vHotpantsToken tokenId = some old → B (old.isTokenLocked = .Y)

/-- `I` is kept when the bad logins of the hash are written, which differ from the stored ones, with
a lock flag in `B`. -/
def KeptByLock (I : Db → Prop) (B : Bool → Prop) (token : Token) : Prop :=
  ∀ db₁ old, I db₁ → db₁.vHotpantsToken token.tokenId = some old →
    old.badLogins ≠ token.badLogins →
    ∀ db b u d, B b → I db → I (db.lock token.tokenId b u token.badLogins d)

/-- `I` is kept when a counter above the stored one is written. -/
def KeptBySequence (I : Db → Prop) (now : ℤ) (token : Token) : Prop :=
  token.tokenSequence ≠ 0 → ∀ db old, I db → db.vHotpantsToken token.tokenId = some old →
    old.tokenSequence < token.tokenSequence →
    (setSequence token.tokenId token.tokenSequence (1000000 * now)).Always I fun _ => True

theorem putTokenSequence_always (hseq : KeptBySequence I now token)
    (hflags : KeepsFlags I B token.tokenId) (hlock : KeptByLock I B token) :
    (putTokenSequence now token).Always I fun _ => True := by
  unfold putTokenSequence
  split
  · refine updateView_always fun db old hdb hv hcond => ?_
    have hflag := hflags db old hdb hv
    obtain ⟨t, ts, -, -, rfl⟩ := vHotpantsToken_eq_some.mp hv
    exact vHotpantsTokenUpd_always (fun _ => hseq ‹_› db _ hdb hv (of_decide_eq_true hcond))
      fun hbad db' u d hdb' => hlock db _ hdb hv hbad db' _ u d hflag hdb'
  · exact Always.pure trivial

/-- The flag that `put_token` writes is that of the row, or the one it wants to write. -/
theorem set_isTokenLocked (hold : B (old.isTokenLocked = .Y)) (hnew : B (new.isTokenLocked = .Y)) :
    B (((hashTableDiff dbtok new).set old).isTokenLocked = .Y) := by
  unfold Diff.set hashTableDiff diffKey
  dsimp only
  split
  · exact hold
  · exact hnew

theorem set_badLogins (h : old.badLogins ≠ ((hashTableDiff dbtok new).set old).badLogins) :
    old.badLogins ≠ new.badLogins ∧
      ((hashTableDiff dbtok new).set old).badLogins = new.badLogins := by
  unfold Diff.set hashTableDiff diffKey at h ⊢
  dsimp only at h ⊢
  split at h
  · exact absurd rfl h
  next hne =>
    rw [if_neg hne]
    exact ⟨h, rfl⟩

theorem putTokenLock_always (hone : Q .one)
    (hundef : ∀ db, I db → hp.fetched db token.tokenId = none → Q .undef) (hid : token.tokenId ≠ 0)
    (hflags : KeepsFlags I B token.tokenId) (hflag : B (token.isTokenLocked ≠ .N))
    (hlock : KeptByLock I B token) :
    (putTokenLock hp now token).Always I Q := by
  refine Always.bind (fetchToken_always (fun h => absurd h hid) fun db hdb => ?_)
  cases hf : hp.fetched db token.tokenId with
  | none => exact Always.pure (hundef db hdb hf)
  | some dbtok =>
    dsimp only
    rw [diff_lastUpdated hf (by rfl)]
    refine Always.bind ((updateView_always fun db old hdb hv _ => ?_).mono
      fun _ _ => Always.pure hone)
    have hold := hflags db old hdb hv
    obtain ⟨t, ts, -, -, rfl⟩ := vHotpantsToken_eq_some.mp hv
    refine vHotpantsTokenUpd_always (fun h => absurd rfl h) fun hbad db' u d hdb' => ?_
    obtain ⟨hne, heq⟩ := set_badLogins hbad
    rw [heq]
    refine hlock db _ hdb hv hne db' _ u d (set_isTokenLocked hold ?_) hdb'
    dsimp only
    split
    next h => simpa [h] using hflag
    next h => simpa [h] using hflag

section

variable (htok : token.InHand) (hone : Q .one)
  (hundef : ∀ db, I db → hp.fetched db token.tokenId = none → Q .undef)
  (hseq : KeptBySequence I now token)
include htok hone hundef hseq

/-- **What `put_token` keeps and returns**, with the flags that it may write. -/
theorem putToken_always_flags (hflags : KeepsFlags I B token.tokenId)
    (hflag : B (token.isTokenLocked ≠ .N)) (hlock : KeptByLock I B token) :
    (putToken hp now token).Always I Q := by
  unfold putToken
  rw [if_neg htok.1, htok.2, if_neg Bool.false_ne_true]
  exact Always.bind ((putTokenSequence_always hseq hflags hlock).mono
    fun _ _ => putTokenLock_always hone hundef htok.1 hflags hflag hlock)

/-- **What `put_token` keeps and returns**, whatever it does to the lock. -/
theorem putToken_always (hlock : ∀ db b u n d, I db → I (db.lock token.tokenId b u n d)) :
    (putToken hp now token).Always I Q :=
  putToken_always_flags (B := fun _ => True) htok hone hundef hseq (fun _ _ _ _ => trivial)
    trivial fun _ _ _ _ _ db b u d _ hdb => hlock db b u _ d hdb

end

end JazzHands.Hotpants

import JazzHands.Hotpants.Single

/-!
# Accepted counters

Calls one after the other, of any users and in any order.

`Advances` is what every call keeps: stored counters do not fall.  With it `history_above` bounds
all that a run accepts, and `history_inOrder` compares any two calls.
-/

namespace JazzHands.Hotpants

open Library
open Library.Program (read modify Always)

variable {hp : Server} {db db₀ db' : Db} {token : Token} {call : Call} {calls : List Call}
  {t : TokenRow} {ts : TokenSequenceRow} {sequence now seq upd : ℤ} {tokenId i : ℕ}

/-! ## One call -/

theorem outcome_eq_one (h : hp.outcome db call = .one tokenId sequence) :
    ∃ (token : Token) (db₁ : Db), token.tokenId = tokenId ∧ tokenId ∈ call.tokens ∧
      Unchanged db db₁ ∧ token.Of hp db ∧ hp.verdict call token = .ok sequence ∧
      hp.after db call = ((putToken hp call.now (token.accepted sequence)).run db₁).2 := by
  unfold Server.after
  unfold Server.outcome at h
  unfold hotpAuthenticate authDone at h ⊢
  split at h
  case isFalse => cases h
  next htruthy =>
    rw [if_pos htruthy]
    obtain ⟨hI, hof⟩ := tryTokens_run hp db call
    rw [Program.run_bind] at h ⊢
    generalize (tryTokens hp call call.tokens []).run db = r at h hI hof ⊢
    obtain ⟨found, db₁⟩ := r
    cases found with
    | undef => cases h
    | die => cases h
    | failed badtokens => exact absurd h (((putBad_always hof).run hI).2 tokenId sequence)
    | ok token s =>
      dsimp only at h hof hI ⊢
      rw [Program.run_bind] at h ⊢
      generalize hput : (putToken hp call.now (token.accepted s)).run db₁ = r at h ⊢
      obtain ⟨put, db₂⟩ := r
      cases put with
      | undef => cases h
      | die => cases h
      | one =>
        obtain ⟨rfl, rfl⟩ := Outcome.one.inj h
        exact ⟨token, db₁, rfl, hof.1, hI, hof.2.1, hof.2.2, (congrArg Prod.snd hput).symm⟩

/-- **An accepted counter** is above the stored one, and the password is its own. -/
theorem accepted (h : hp.outcome db call = .one tokenId sequence) :
    tokenId ∈ call.tokens ∧ ∃ ts key, db.tokenSequence tokenId = some ts ∧
      hp.HasKey db tokenId key ∧ ts.tokenSequence < sequence ∧
      hp.generateHOTP key sequence = some call.prn := by
  obtain ⟨token, db₁, rfl, hmem, -, ⟨hhand, t, ts, ht, hts, hkey, hseq⟩, hok, -⟩ :=
    outcome_eq_one h
  obtain ⟨hlt, hgen⟩ := verdict_ok hhand.2 hok
  exact ⟨hmem, ts, token.tokenKey, hts, ⟨t, ht, hkey⟩, hseq ▸ hlt, hgen⟩

/-! ## The stored counters never go back -/

/-- The rows of `token_sequence` are still there, with counters at least as high, and `token` is the
same up to the columns that calls write. -/
def Advances (db db' : Db) : Prop :=
  db'.fixedTokens = db.fixedTokens ∧ ∀ i ts, db.tokenSequence i = some ts →
    ∃ ts', db'.tokenSequence i = some ts' ∧ ts.tokenSequence ≤ ts'.tokenSequence

theorem Unchanged.advances (h : Unchanged db db') : Advances db db' :=
  ⟨h.2, fun _ ts hts => ⟨ts, h.1 ▸ hts, Int.le_refl _⟩⟩

theorem Advances.lock {b : Bool} {u n : Option ℤ} {d : ℤ} (h : Advances db₀ db) :
    Advances db₀ (db.lock i b u n d) := by
  refine ⟨by simp [h.1], fun j ts hts => ?_⟩
  simpa using h.2 j ts hts

theorem Advances.reset (h : Advances db₀ db)
    (hle : ∀ ts, db₀.tokenSequence i = some ts → ts.tokenSequence ≤ seq) :
    Advances db₀ (db.resetSequence i seq upd) := by
  refine ⟨(fixedTokens_of_token resetSequence_token).trans h.1, fun j ts hts => ?_⟩
  unfold Db.resetSequence
  split
  · exact h.2 j ts hts
  split
  · by_cases hj : j = i
    · subst hj
      exact ⟨⟨seq, upd⟩, by simp, hle ts hts⟩
    · simpa [Function.update_of_ne hj] using h.2 j ts hts
  · exact h.2 j ts hts

theorem putToken_advances (htok : token.Of hp db₀) (hlt : token.tokenSequence < sequence) :
    (putToken hp now (token.accepted sequence)).Always (Advances db₀) fun _ => True := by
  obtain ⟨hhand, t, ts, -, hts, -, hseq⟩ := htok
  refine putToken_always ⟨hhand.1, rfl⟩ trivial (fun _ _ _ => trivial) (fun _ _ _ _ _ _ => ?_)
    (fun _ _ _ _ _ h => h.lock)
  refine setSequence_always (fun db hdb => ?_) fun db hdb => hdb.reset fun ts' hts' => ?_
  · obtain ⟨ts', hts', -⟩ := hdb.2 _ ts hts
    simp [Token.accepted, hts']
  · obtain rfl := Option.some.inj (hts.symm.trans hts')
    exact Int.le_of_lt (hseq ▸ hlt)

theorem after_advances (hp : Server) (db : Db) (call : Call) : Advances db (hp.after db call) := by
  unfold Server.after hotpAuthenticate authDone
  split
  case isFalse => exact ⟨rfl, fun i ts hts => ⟨ts, hts, Int.le_refl _⟩⟩
  obtain ⟨hI, hof⟩ := tryTokens_run hp db call
  rw [Program.run_bind]
  generalize (tryTokens hp call call.tokens []).run db = r at hI hof ⊢
  obtain ⟨found, db₁⟩ := r
  cases found with
  | undef => exact hI.advances
  | die => exact hI.advances
  | failed badtokens => exact ((putBad_always hof).run hI).1.advances
  | ok token s =>
    dsimp only at hof hI ⊢
    have halways : (putToken hp call.now (token.accepted s)).Always (Advances db) fun _ => True :=
      putToken_advances hof.2.1 (verdict_ok hof.2.1.1.2 hof.2.2).1
    have hput := (halways.run hI.advances).1
    rw [Program.run_bind]
    generalize (putToken hp call.now (token.accepted s)).run db₁ = r at hput ⊢
    obtain ⟨put, db₂⟩ := r
    cases put <;> exact hput

/-! ## When the counter is stored -/

/-- The trigger writes the row of `token_sequence` unless its last update lies ahead. -/
theorem vHotpantsTokenUpd_run {old new : Token} (hts : db.tokenSequence new.tokenId = some ts)
    (hne : old.tokenSequence ≠ new.tokenSequence) (hle : ts.lastUpdated ≤ new.lastUpdated.time) :
    ((vHotpantsTokenUpd old new).run db).2.tokenSequence new.tokenId =
      some ⟨new.tokenSequence, new.lastUpdated.time⟩ := by
  have hset : (setSequence new.tokenId new.tokenSequence new.lastUpdated.time).run db =
      ((), db.putSequence new.tokenId ⟨new.tokenSequence, new.lastUpdated.time⟩) := by
    simp [setSequence, hts, resetSequence_of_le hts hle]
  rw [vHotpantsTokenUpd, Program.run_bind, if_pos hne, hset]
  let I : Db → Prop := fun db =>
    db.tokenSequence new.tokenId = some ⟨new.tokenSequence, new.lastUpdated.time⟩
  refine (Always.run (I := I) (Q := fun _ => True) ?_ (by simp [I])).1
  split
  · exact setLockStatus_always fun db hdb => by simpa [I] using hdb
  · exact Always.pure trivial

theorem putTokenSequence_run (token : Token) (now : ℤ) (ht : db.token token.tokenId = some t)
    (hts : db.tokenSequence token.tokenId = some ts) (hne : token.tokenSequence ≠ 0)
    (hlt : ts.tokenSequence < token.tokenSequence) (hle : ts.lastUpdated ≤ 1000000 * now) :
    ((putTokenSequence now token).run db).2.tokenSequence token.tokenId =
      some ⟨token.tokenSequence, 1000000 * now⟩ := by
  have hv : db.vHotpantsToken token.tokenId = some (viewRow token.tokenId t ts) :=
    vHotpantsToken_eq_some.mpr ⟨t, ts, ht, hts, rfl⟩
  have hcond : (viewRow token.tokenId t ts).tokenSequence < token.tokenSequence := hlt
  rw [putTokenSequence, if_pos hne, updateView, Program.run_bind, Program.run_read, hv]
  dsimp only
  rw [if_pos (decide_eq_true hcond)]
  exact vHotpantsTokenUpd_run hts (Int.ne_of_lt hcond) hle

/-- Writing back an accepted hash stores its counter, unless the last update of the stored one lies
ahead. -/
theorem putToken_stored (hid : token.tokenId ≠ 0) (ht : db.token token.tokenId = some t)
    (hts : db.tokenSequence token.tokenId = some ts) (hne : sequence ≠ 0)
    (hlt : ts.tokenSequence < sequence) (hle : ts.lastUpdated ≤ 1000000 * now) :
    ((putToken hp now (token.accepted sequence)).run db).2.tokenSequence token.tokenId =
      some ⟨sequence, 1000000 * now⟩ := by
  have hrun := putTokenSequence_run (token.accepted sequence) now ht hts hne hlt hle
  have hlock : (putTokenLock hp now (token.accepted sequence)).Always
      (fun db => db.tokenSequence token.tokenId = some ⟨sequence, 1000000 * now⟩)
      fun _ => True :=
    putTokenLock_always (B := fun _ => True) trivial (fun _ _ _ => trivial) hid
      (fun _ _ _ _ => trivial) trivial fun _ _ _ _ _ db b u d _ hdb => by simpa using hdb
  rw [putToken, if_neg (show (token.accepted sequence).tokenId ≠ 0 from hid),
    show nonzero (token.accepted sequence).timeSkew = false from rfl, if_neg Bool.false_ne_true,
    Program.run_bind]
  exact (hlock.run hrun).1

/-- Where the password is that of a counter above the stored one, the last update of the stored one
does not lie ahead of the call, and the counter is not 0. -/
def Storable (hp : Server) (db : Db) (call : Call) : Prop :=
  ∀ tokenId ∈ call.tokens, ∀ ts key sequence, db.tokenSequence tokenId = some ts →
    hp.HasKey db tokenId key → hp.generateHOTP key sequence = some call.prn →
    ts.tokenSequence < sequence → ts.lastUpdated ≤ 1000000 * call.now ∧ sequence ≠ 0

theorem accepted_stored (hw : Storable hp db call)
    (h : hp.outcome db call = .one tokenId sequence) :
    (hp.after db call).tokenSequence tokenId = some ⟨sequence, 1000000 * call.now⟩ := by
  obtain ⟨token, db₁, rfl, hmem, hI, ⟨hhand, t, ts, ht, hts, hkey, hseq⟩, hok, hafter⟩ :=
    outcome_eq_one h
  obtain ⟨hlt, hgen⟩ := verdict_ok hhand.2 hok
  obtain ⟨hle, hne⟩ := hw _ hmem ts token.tokenKey sequence hts ⟨t, ht, hkey⟩ hgen (hseq ▸ hlt)
  -- the row of `token` is still there after the loop
  obtain ⟨t₁, ht₁, -⟩ := Option.map_eq_some_iff.mp ((congrFun hI.2 token.tokenId).trans ht)
  rw [hafter]
  exact putToken_stored hhand.1 ht₁ ((congrFun hI.1 token.tokenId).trans hts) hne
    (show ts.tokenSequence < sequence by omega) hle

/-! ## Runs -/

/-- The calls of a run with what they return. -/
def Server.history (hp : Server) : Db → List Call → List (Call × Outcome)
  | _, [] => []
  | db, call :: calls => (call, hp.outcome db call) :: hp.history (hp.after db call) calls

/-- `GenerateHOTP` gives different counters different passwords. -/
def Server.Injective (hp : Server) : Prop :=
  ∀ key s s' prn, hp.generateHOTP key s = some prn → hp.generateHOTP key s' = some prn → s = s'

/-- Of two calls that succeed with one token, the later one accepts a higher counter and another
password. -/
def InOrder (x y : Call × Outcome) : Prop :=
  ∀ tokenId s s', x.2 = .one tokenId s → y.2 = .one tokenId s' → s < s' ∧ x.1.prn ≠ y.1.prn

/-- Whatever the run accepts for a token is above the counter that was stored at its start. -/
theorem history_above {x : Call × Outcome} (hx : x ∈ hp.history db calls)
    (hone : x.2 = .one tokenId sequence) (hts : db.tokenSequence tokenId = some ts) :
    ts.tokenSequence < sequence ∧
      ∃ key, hp.HasKey db tokenId key ∧ hp.generateHOTP key sequence = some x.1.prn := by
  induction calls generalizing db ts with
  | nil => cases hx
  | cons call calls ih =>
    rcases List.mem_cons.mp hx with rfl | hx
    · obtain ⟨-, ts', key, hts', hkey, hlt, hgen⟩ := accepted hone
      obtain rfl := Option.some.inj (hts.symm.trans hts')
      exact ⟨hlt, key, hkey, hgen⟩
    · have hadv := after_advances hp db call
      obtain ⟨ts', hts', hle⟩ := hadv.2 tokenId ts hts
      obtain ⟨hlt, key, ⟨t, ht, hkey⟩, hgen⟩ := ih hx hts'
      exact ⟨by omega, key, ⟨t, hadv.1 ▸ ht, hkey⟩, hgen⟩

/-- **Accepted counters rise.**  In a run whose calls can store what they accept, of two calls that
succeed with one token the later one accepts a higher counter, and no password is accepted
twice. -/
theorem history_inOrder (hinj : hp.Injective)
    (hw : AllSteps hp.after (Storable hp) db calls) : (hp.history db calls).Pairwise InOrder := by
  induction calls generalizing db with
  | nil => exact List.Pairwise.nil
  | cons call calls ih =>
    refine List.Pairwise.cons (fun y hy tokenId s s' hx hy' => ?_) (ih hw.2)
    have hstored := accepted_stored hw.1 hx
    obtain ⟨hlt, key', ⟨t', ht', hkey'⟩, hgen'⟩ := history_above hy hy' hstored
    obtain ⟨-, ts, key, -, ⟨t, ht, hkey⟩, -, hgen⟩ := accepted hx
    -- both calls used the same key, since nobody writes it
    rw [(after_advances hp db call).1, ht] at ht'
    obtain rfl := Option.some.inj ht'
    obtain rfl := Option.some.inj (hkey.symm.trans hkey')
    refine ⟨hlt, fun hprn => ?_⟩
    exact Int.ne_of_lt hlt (hinj key s s' call.prn hgen (hprn ▸ hgen'))

/-! ## A server whose passwords are numbers -/

/-- Six digits for the counters that matter here. -/
def counterDigits (s : ℤ) : String :=
  ((2 * s).natAbs + if s < 0 then 100001 else 100000).repr

/-- A server that encrypts nothing, and writes counters down as passwords. -/
def digitServer : Server where
  config := {}
  decryptKey key _ := some key
  bcrypt pin _ := pin
  generateHOTP _ s := some (counterDigits s)

theorem digitServer_injective : digitServer.Injective := by
  intro key s s' prn h h'
  have hrepr := congrArg String.toList (Option.some.inj (h.trans h'.symm))
  simp only [counterDigits, Nat.toList_repr] at hrepr
  have := congrArg (Nat.ofDigitChars 10 · 0) hrepr
  simp only [Nat.ofDigitChars_toDigits (b := 10) (by decide) (by decide)] at this
  split at this <;> split at this <;> omega

/-- Token 7, with the PIN 1234 and the counter 0. -/
def oneToken (lastUpdated : ℤ) : Db where
  token i := if i = 7 then some
    { tokenType := "sequence", timeModulo := none, timeSkew := none, tokenKey := some "key"
      encryptionKeyId := none, tokenPassword := some "1234", isTokenLocked := false
      tokenUnlockTime := none, badLogins := some 0, lastUpdated := 0 } else none
  tokenSequence i := if i = 7 then some ⟨0, lastUpdated⟩ else none

def login (now : ℤ) (otp : String) : Call where
  now := now
  method := none
  otp := otp
  tokens := [7]
  tokenId := none

set_option maxRecDepth 4000 in
/-- Two logins with the passwords of counters 1 and 2. -/
theorem history_inOrder_two :
    (digitServer.history (oneToken 0) [login 1000 "1234100002", login 1001 "1234100004"]).Pairwise
      InOrder := by
  refine history_inOrder digitServer_injective ⟨?_, ?_, trivial⟩
  · intro i hi ts key s hts hkey hgen hlt
    obtain rfl := List.mem_singleton.mp hi
    obtain rfl := Option.some.inj hts
    exact ⟨by decide, Int.ne_of_gt hlt⟩
  · intro i hi ts key s hts hkey hgen hlt
    obtain rfl := List.mem_singleton.mp hi
    have hts' : (digitServer.after (oneToken 0) (login 1000 "1234100002")).tokenSequence 7 =
      some ⟨1, 1000000000⟩ := by decide
    obtain rfl := Option.some.inj (hts'.symm.trans hts)
    exact ⟨by decide, by have : (1 : ℤ) < s := hlt; omega⟩

set_option maxRecDepth 4000 in
/-- The counter was set half a second after the second in which both logins are made. -/
theorem replayed : digitServer.Injective ∧ ¬ (digitServer.history (oneToken 1000500000)
    [login 1000 "1234100002", login 1000 "1234100002"]).Pairwise InOrder := by
  refine ⟨digitServer_injective, fun h => ?_⟩
  have hlt := (List.pairwise_cons.mp h).1 _ List.mem_cons_self 7 1 1
    (by decide) (by decide)
  exact absurd hlt.1 (by decide)

end JazzHands.Hotpants

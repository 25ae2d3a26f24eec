import JazzHands.Hotpants.Replay

/-!
# Locking a token

Calls for one token, one after the other.

`call_cases` says what one call may do to the stored bad logins, with `tally_step` and `locked_step`
before and after the lock.  `locksOut` is the induction over the run: `Tallied` compares the
failures that count with the bad logins that are stored.
-/

namespace JazzHands.Hotpants

open Library
open Library.Program (read modify Always)

variable {hp : Server} {db db' : Db} {token dbtok old new : Token} {call : Call}
  {calls : List Call} {t : TokenRow} {ts : TokenSequenceRow} {sequence now upd : ℤ}
  {tokenId i : ℕ} {b : Bool} {u n : Option ℤ} {key : Option String}

/-! ## Writing the lock -/

theorem diffKey_getD {α : Type} [DecidableEq α] (a b : α) : (diffKey a b).getD a = b := by
  unfold diffKey
  split
  · exact ‹_›
  · rfl

/-- Right after the fetch, the `SET` list gives the row the values of the hash. -/
theorem set_fetched (hf : hp.fetched db i = some dbtok) (hv : db.vHotpantsToken i = some old) :
    (hashTableDiff dbtok new).set old =
      { old with
        tokenUnlockTime := new.tokenUnlockTime
        badLogins := new.badLogins
        lastUpdated := new.lastUpdated
        isTokenLocked := new.isTokenLocked } := by
  obtain ⟨-, t, ts, key, ht, hts, -, rfl⟩ := fetched_eq_some hf
  obtain ⟨t', ts', ht', hts', rfl⟩ := vHotpantsToken_eq_some.mp hv
  obtain rfl := Option.some.inj (ht.symm.trans ht')
  obtain rfl := Option.some.inj (hts.symm.trans hts')
  simp only [Diff.set, hashTableDiff, diffKey_getD]

theorem setLockStatus_run (ht : db.token i = some t) (hlt : t.lastUpdated < upd) :
    (setLockStatus i b u n upd).run db = ((), db.putToken i
      { t with isTokenLocked := b, tokenUnlockTime := u, badLogins := n, lastUpdated := upd }) := by
  simp [setLockStatus, ht, hlt, lock_of_some ht]

theorem vHotpantsTokenUpd_run_lock (hseq : old.tokenSequence = new.tokenSequence)
    (hbad : old.badLogins ≠ new.badLogins) : (vHotpantsTokenUpd old new).run db =
      (setLockStatus new.tokenId (new.isTokenLocked = .Y) (new.tokenUnlockTime.map (·.time))
        new.badLogins new.lastUpdated.time).run db := by
  simp [vHotpantsTokenUpd, hseq, hbad]

theorem putToken_run (htok : token.InHand) (ht : db.token token.tokenId = some t)
    (hts : db.tokenSequence token.tokenId = some ts)
    (hkey : hp.decryptKey t.tokenKey t.encryptionKeyId = some key)
    (hseq : token.tokenSequence = ts.tokenSequence) (hbad : t.badLogins ≠ token.badLogins)
    (hlast : ts.lastUpdated ≤ 1000000 * now) (hlt : t.lastUpdated < 1000000 * now) :
    (putToken hp now token).run db = (.one, db.putToken token.tokenId
      { t with
        isTokenLocked := token.isTokenLocked ≠ .N
        tokenUnlockTime := token.tokenUnlockTime.map (·.time)
        badLogins := token.badLogins
        lastUpdated := 1000000 * now }) := by
  have hv : db.vHotpantsToken token.tokenId = some (viewRow token.tokenId t ts) :=
    vHotpantsToken_eq_some.mpr ⟨t, ts, ht, hts, rfl⟩
  have hf := fetched_of_rows htok.1 ht hts hkey
  have hsame : (putTokenSequence now token).run db = ((), db) := by
    have hcond : ¬ (viewRow token.tokenId t ts).tokenSequence < token.tokenSequence := by
      simp [viewRow, hseq]
    unfold putTokenSequence updateView
    split
    · simp [hv, hcond]
    · rfl
  rw [putToken, if_neg htok.1, htok.2, if_neg Bool.false_ne_true, Program.run_bind, hsame,
    putTokenLock, Program.run_bind, fetchToken_run, hf]
  dsimp only
  rw [diff_lastUpdated hf (by rfl)]
  dsimp only
  have hcond : (viewRow token.tokenId t ts).lastUpdated.time ≤ (strftime now).time := hlast
  rw [Program.run_bind, updateView, Program.run_bind, Program.run_read, hv]
  dsimp only
  rw [if_pos (decide_eq_true hcond), set_fetched hf hv,
    vHotpantsTokenUpd_run_lock (by rfl) (by exact hbad)]
  dsimp only
  rw [show (viewRow token.tokenId t ts).tokenId = token.tokenId from rfl,
    setLockStatus_run ht (show t.lastUpdated < (strftime now).time from hlt)]
  cases token.isTokenLocked <;> rfl

/-! ## A password that is right -/

/-- The bad logins that are stored; NULL counts as none. -/
def Db.badAt (db : Db) (tokenId : ℕ) : ℤ := ((db.token tokenId).bind (·.badLogins)).getD 0

/-- The token can be fetched, and its bad logins are not negative. -/
def Sane (hp : Server) (tokenId : ℕ) (db : Db) : Prop :=
  hp.fetched db tokenId ≠ none ∧ 0 ≤ db.badAt tokenId

theorem Sane.lock (h : Sane hp i db) (hn : 0 ≤ n.getD 0) : Sane hp i (db.lock i b u n upd) := by
  obtain ⟨hi, ⟨key, t, ht, hkey⟩, ts, hts⟩ := fetched_ne_none.mp h.1
  refine ⟨fetched_ne_none.mpr ⟨hi, ⟨key, t, by rw [lock_fixedTokens, ht], hkey⟩, ts, ?_⟩, ?_⟩
  · rw [lock_tokenSequence, hts]
  · obtain ⟨t', ht', -⟩ := Option.map_eq_some_iff.mp ht
    simpa [Db.badAt, lock_of_some ht'] using hn

theorem Sane.reset (h : Sane hp i db) : Sane hp i (db.resetSequence i sequence upd) := by
  obtain ⟨hi, ⟨key, t, ht, hkey⟩, ts, hts⟩ := fetched_ne_none.mp h.1
  refine ⟨fetched_ne_none.mpr ⟨hi, ⟨key, t, ?_, hkey⟩, ?_⟩, ?_⟩
  · rw [fixedTokens_of_token resetSequence_token, ht]
  · unfold Db.resetSequence
    rw [hts]
    dsimp only
    split
    · exact ⟨_, Function.update_self ..⟩
    · exact ⟨ts, hts⟩
  · simpa [Db.badAt] using h.2

theorem putToken_sane (htok : token.InHand) (hi : token.tokenId = i)
    (hbad : 0 ≤ token.badLogins.getD 0) :
    (putToken hp now token).Always (Sane hp i) fun r => r = .one := by
  subst hi
  refine putToken_always_flags (B := fun _ => True) htok rfl
    (fun db hdb hnone => absurd hnone hdb.1) (fun _ _ _ _ _ _ => ?_) (fun _ _ _ _ => trivial)
    trivial fun _ _ _ _ _ db b u d _ hdb => hdb.lock hbad
  refine setSequence_always (fun db hdb => ?_) fun db hdb => hdb.reset
  obtain ⟨-, -, ts, hts⟩ := fetched_ne_none.mp hdb.1
  simp [hts]

theorem settle_ok (hid : token.tokenId ≠ 0) (hi : token.tokenId = i)
    (hok : hp.verdict call token = .ok sequence) :
    (hp.settle call (hp.judge call token)).Always (Sane hp i) fun o => ∃ i s, o = .one i s := by
  unfold Server.judge
  rw [hok]
  have hput : (putToken hp call.now (token.accepted sequence)).Always (Sane hp i) fun r => r = .one :=
    putToken_sane ⟨hid, rfl⟩ hi (Int.le_refl 0)
  refine Always.bind (hput.mono fun r hr => ?_)
  subst hr
  exact Always.pure ⟨_, _, rfl⟩

/-- **A right password** leads to success, from a token whose lock is open. -/
theorem handle_ok (htok : token.InHand) (hi : token.tokenId = i)
    (hpass : hp.passes call token = true)
    (hcheck : lockCheck call.now token = .unlocked ∨ lockCheck call.now token = .expired)
    (hok : hp.verdict call token = .ok sequence) :
    (hp.handle call (some token)).Always (Sane hp i) fun o => ∃ i s, o = .one i s := by
  unfold Server.handle
  dsimp only
  rw [if_pos hpass]
  rcases hcheck with hcheck | hcheck <;> rw [hcheck]
  · exact settle_ok htok.1 hi hok
  · have hun : token.unlocked.InHand := htok
    have hput : (putToken hp call.now token.unlocked).Always (Sane hp i) fun r => r = .one :=
      putToken_sane hun hi (Int.le_refl 0)
    refine Always.bind (hput.mono fun r hr => ?_)
    subst hr
    exact settle_ok hun.1 hi hok

/-! ## The bad logins are never negative -/

theorem settle_sane (htok : token.InHand) (hi : token.tokenId = i)
    (hbad : 0 ≤ token.badLogins.getD 0) :
    (hp.settle call (hp.judge call token)).Always (Sane hp i) fun _ => True := by
  unfold Server.judge
  split
  · exact Always.pure trivial
  · have hpun : (hp.punished call.now token).InHand ∧
        (hp.punished call.now token).tokenId = i ∧
        0 ≤ (hp.punished call.now token).badLogins.getD 0 := by
      unfold Server.punished
      dsimp only
      split
      · exact ⟨htok, hi, by simpa using by omega⟩
      · exact ⟨htok, hi, by simpa using by omega⟩
    refine Always.bind ((putToken_sane hpun.1 hpun.2.1 hpun.2.2).mono fun r hr => ?_)
    subst hr
    exact Always.pure trivial
  · exact Always.pure trivial
  next s hs =>
    have hone := settle_ok htok.1 hi hs
    rw [Server.judge, hs] at hone
    exact hone.mono fun _ _ => trivial

theorem handle_sane (htok : token.InHand) (hi : token.tokenId = i)
    (hbad : 0 ≤ token.badLogins.getD 0) :
    (hp.handle call (some token)).Always (Sane hp i) fun _ => True := by
  unfold Server.handle
  dsimp only
  split
  · split
    · exact settle_sane htok hi hbad
    · exact Always.pure trivial
    · exact Always.pure trivial
    · have hun : token.unlocked.InHand := htok
      refine Always.bind ((putToken_sane hun hi (Int.le_refl 0)).mono fun r hr => ?_)
      subst hr
      exact settle_sane hun hi (Int.le_refl 0)
  · exact Always.pure trivial

theorem after_nonneg (htries : call.Tries tokenId) (h : 0 ≤ db.badAt tokenId) :
    0 ≤ (hp.after db call).badAt tokenId := by
  by_cases hidle : truthy (some call.otp) = true ∧ tokenId ≠ 0
  case neg =>
    unfold Server.after
    rcases hotpAuthenticate_idle hp htries hidle with hret | hret <;> rw [hret] <;> exact h
  rw [after_eq htries hidle.1 hidle.2]
  cases hf : hp.fetched db tokenId with
  | none => exact h
  | some token =>
    obtain ⟨htok, hi⟩ := fetched_inHand hf
    have hbad : 0 ≤ token.badLogins.getD 0 := by
      obtain ⟨-, t, ts, key, ht, -, -, rfl⟩ := fetched_eq_some hf
      simpa [Db.badAt, ht, viewRow] using h
    exact ((handle_sane htok hi hbad).run ⟨hf ▸ Option.some_ne_none _, h⟩).1.2

/-! ## A password that is wrong -/

/-- The unlock time that a lockout at `now` writes. -/
def Server.unlockTime (hp : Server) (now : ℤ) : Option ℤ :=
  if hp.config.badAuthLockoutTime ≠ 0 then
    some (1000000 * (now + hp.config.badAuthLockoutTime)) else none

/-- The token is locked in the database, since `now`. -/
def LockedSince (hp : Server) (db : Db) (tokenId : ℕ) (now : ℤ) : Prop :=
  ∃ t, db.token tokenId = some t ∧ t.isTokenLocked = true ∧ t.tokenUnlockTime = hp.unlockTime now

/-- What a call makes of a fetched hash whose password is wrong: one more bad login, and the lock
with the last one. -/
theorem punished_run (htok : token.InHand) (ht : db.token token.tokenId = some t)
    (hts : db.tokenSequence token.tokenId = some ts)
    (hkey : hp.decryptKey t.tokenKey t.encryptionKeyId = some key)
    (hseq : token.tokenSequence = ts.tokenSequence) (hbad : t.badLogins = token.badLogins)
    (hlast : ts.lastUpdated ≤ 1000000 * call.now) (hlt : t.lastUpdated < 1000000 * call.now)
    (hverdict : hp.verdict call token = .bad) :
    ∃ db', (hp.settle call (hp.judge call token)).run db = (.zero, db') ∧
      db'.badAt token.tokenId = db.badAt token.tokenId + 1 ∧
      (hp.config.badAuthsBeforeLockout ≤ db.badAt token.tokenId + 1 →
        LockedSince hp db' token.tokenId call.now) := by
  have hat : db.badAt token.tokenId = token.badLogins.getD 0 := by simp [Db.badAt, ht, hbad]
  have hpun : (hp.punished call.now token).InHand ∧
      (hp.punished call.now token).tokenId = token.tokenId ∧
      (hp.punished call.now token).tokenSequence = token.tokenSequence ∧
      (hp.punished call.now token).badLogins = some (token.badLogins.getD 0 + 1) := by
    unfold Server.punished
    dsimp only
    split <;> exact ⟨htok, rfl, rfl, rfl⟩
  have hne : t.badLogins ≠ (hp.punished call.now token).badLogins := by
    rw [hpun.2.2.2, hbad]
    cases token.badLogins with
    | none => exact nofun
    | some b =>
      intro h
      have : b = b + 1 := Option.some.inj h
      omega
  have hrun := putToken_run hpun.1 (hpun.2.1 ▸ ht) (hpun.2.1 ▸ hts) hkey
    (hpun.2.2.1.trans hseq) hne hlast hlt
  unfold Server.judge
  rw [hverdict]
  have hsettle : (hp.settle call (.bad token)).run db = (.zero, (db.putToken
      (hp.punished call.now token).tokenId
      { t with
        isTokenLocked := (hp.punished call.now token).isTokenLocked ≠ .N
        tokenUnlockTime := (hp.punished call.now token).tokenUnlockTime.map (·.time)
        badLogins := (hp.punished call.now token).badLogins
        lastUpdated := 1000000 * call.now })) := by
    show (putBad hp call.now [token]).run db = _
    rw [putBad, Program.run_bind, hrun]
    rfl
  refine ⟨_, hsettle, ?_, fun hn => ?_⟩
  · rw [hpun.2.1, hat]
    simp [Db.badAt, hpun.2.2.2]
  · rw [hat] at hn
    rw [hpun.2.1]
    refine ⟨_, Function.update_self .., ?_, ?_⟩
    · simp [Server.punished, hn]
    · simp only [Server.punished, hn, if_true, Server.unlockTime]
      split <;> rfl

/-! ## One call -/

/-- The call gets as far as the search for the counter: its PIN is that of the token, its password is
long enough, and the lock is open or has run out. -/
def Reached (hp : Server) (call : Call) (token : Token) : Prop :=
  hp.passes call token = true ∧
    (lockCheck call.now token = .unlocked ∨ lockCheck call.now token = .expired)
  deriving Decidable

instance (hp : Server) (call : Call) (token : Token) : Decidable (hp.NoMatch call token) :=
  decidable_of_iff (∀ i < hp.config.resyncSequenceSkew + 1,
      hp.generateHOTP token.tokenKey ((hp.window call.now token).1 + (i : ℕ)) ≠ some call.prn) <| by
    constructor
    · intro h s hs
      obtain ⟨i, hi⟩ := Int.le.dest hs.2.1
      have := hs.2.2
      exact h i (by omega) (hi ▸ hs.1)
    · exact fun h i hi hgen => h _ ⟨hgen, by omega, by omega⟩

/-- The call gets to the search, and its password is that of no counter in reach: if it fails, it
does so because of the one-time password. -/
def Server.wrongPassword (hp : Server) (tokenId : ℕ) (db : Db) (call : Call) : Bool :=
  match hp.fetched db tokenId with
  | none => false
  | some token => truthy (some call.otp) ∧ Reached hp call token ∧ hp.NoMatch call token

/-- A call that gets to the search succeeds; or it meets no lock that has run out with bad logins,
and if its password is that of no counter in reach, then it is made in a later second than the last
change of the lock, and not before that of the counter. -/
def Counts (hp : Server) (tokenId : ℕ) (db : Db) (call : Call) : Prop :=
  ∀ token, hp.fetched db tokenId = some token → Reached hp call token →
    ((∃ s, hp.Expected call token s) ∧ (∀ s, hp.generateHOTP token.tokenKey s ≠ none) ∨
      (token.isTokenLocked = .Y → token.badLogins = some 0) ∧
        (hp.NoMatch call token →
          (∀ t, db.token tokenId = some t → t.lastUpdated < 1000000 * call.now) ∧
            ∀ ts, db.tokenSequence tokenId = some ts → ts.lastUpdated ≤ 1000000 * call.now))

theorem handle_of_not_reached (h : ¬ Reached hp call token) :
    hp.handle call (some token) = pure .zero ∨ hp.handle call (some token) = pure .undef := by
  unfold Server.handle
  dsimp only
  split
  case isFalse => exact .inl rfl
  next hpass =>
    have hclosed : ¬ (lockCheck call.now token = .unlocked ∨
        lockCheck call.now token = .expired) := fun hopen => h ⟨hpass, hopen⟩
    cases hcheck : lockCheck call.now token with
    | unlocked => exact absurd (.inl hcheck) hclosed
    | expired => exact absurd (.inr hcheck) hclosed
    | locked => exact .inl rfl
    | unreadable => exact .inr rfl

theorem unlocked_run (htok : token.InHand) (ht : db.token token.tokenId = some t)
    (hts : db.tokenSequence token.tokenId = some ts)
    (hkey : hp.decryptKey t.tokenKey t.encryptionKeyId = some key)
    (hseq : token.tokenSequence = ts.tokenSequence) (hbad : t.badLogins = some 0) :
    (putToken hp now token.unlocked).run db = (.one, db) := by
  have halways : (putToken hp now token.unlocked).Always (fun db' => db' = db) fun r => r = .one := by
    refine putToken_always_flags (B := fun _ => True) htok rfl (fun db' hdb hnone => ?_)
      (fun _ db' old hdb hv hlt => ?_) (fun _ _ _ _ => trivial) trivial
      fun db' old hdb hv hne => ?_
    · subst hdb
      exact absurd (hnone.symm.trans (fetched_of_rows htok.1 ht hts hkey)) nofun
    · subst hdb
      obtain ⟨t', ts', -, hts', rfl⟩ := vHotpantsToken_eq_some.mp hv
      obtain rfl := Option.some.inj (hts.symm.trans hts')
      exact absurd hlt (by simp [viewRow, Token.unlocked, hseq])
    · subst hdb
      obtain ⟨t', ts', ht', -, rfl⟩ := vHotpantsToken_eq_some.mp hv
      obtain rfl := Option.some.inj (ht.symm.trans ht')
      exact absurd hbad hne
  obtain ⟨hdb, hr⟩ := halways.run rfl
  exact Prod.ext hr hdb

/-- A wrong password: the call goes on with the hash, or with the unlocked hash, which has the same
bad logins. -/
theorem handle_run (htok : token.InHand) (hpass : hp.passes call token = true)
    (hcheck : lockCheck call.now token = .unlocked ∨ lockCheck call.now token = .expired)
    (hstale : token.isTokenLocked = .Y → token.badLogins = some 0)
    (ht : db.token token.tokenId = some t) (hts : db.tokenSequence token.tokenId = some ts)
    (hkey : hp.decryptKey t.tokenKey t.encryptionKeyId = some key)
    (hseq : token.tokenSequence = ts.tokenSequence) (hbad : t.badLogins = token.badLogins) :
    ∃ token', (token' = token ∨ token' = token.unlocked) ∧ t.badLogins = token'.badLogins ∧
      (hp.handle call (some token)).run db = (hp.settle call (hp.judge call token')).run db := by
  unfold Server.handle
  dsimp only
  rw [if_pos hpass]
  rcases hcheck with hcheck | hcheck <;> rw [hcheck]
  · exact ⟨token, .inl rfl, hbad, rfl⟩
  · have hlocked : token.isTokenLocked = .Y := by
      by_contra hlocked
      rw [lockCheck, if_pos hlocked] at hcheck
      cases hcheck
    have hzero := hbad.trans (hstale hlocked)
    refine ⟨token.unlocked, .inr rfl, hzero, ?_⟩
    dsimp only
    rw [Server.unlock, Program.run_bind, unlocked_run htok ht hts hkey hseq hzero]

/-- **What a call does** that meets the condition: it succeeds; or it changes nothing, and has not
failed because of the password; or it counts one more bad login, and locks the token with the last
one. -/
theorem call_cases (htries : call.Tries tokenId) (hcounts : Counts hp tokenId db call)
    (hnonneg : 0 ≤ db.badAt tokenId) :
    (∃ i s, hp.outcome db call = .one i s) ∨
    (hp.after db call = db ∧ (∀ i s, hp.outcome db call ≠ .one i s) ∧
      (hp.outcome db call = .zero → hp.wrongPassword tokenId db call = false)) ∨
    (hp.outcome db call = .zero ∧ hp.wrongPassword tokenId db call = true ∧
      (hp.after db call).badAt tokenId = db.badAt tokenId + 1 ∧
      (hp.config.badAuthsBeforeLockout ≤ db.badAt tokenId + 1 →
        LockedSince hp (hp.after db call) tokenId call.now)) := by
  by_cases hidle : truthy (some call.otp) = true ∧ tokenId ≠ 0
  case neg =>
    refine .inr (.inl ?_)
    unfold Server.after Server.outcome
    rcases hotpAuthenticate_idle hp htries hidle with hret | hret <;> rw [hret]
    · exact ⟨rfl, fun i s => nofun, nofun⟩
    · refine ⟨rfl, fun i s => nofun, fun _ => ?_⟩
      unfold Server.wrongPassword
      split
      · rfl
      next token hf =>
        exact decide_eq_false fun h => hidle ⟨h.1, (fetched_eq_some hf).1⟩
  rw [outcome_eq htries hidle.1 hidle.2, after_eq htries hidle.1 hidle.2]
  unfold Server.wrongPassword
  cases hf : hp.fetched db tokenId with
  | none => exact .inr (.inl ⟨rfl, fun i s => nofun, fun _ => rfl⟩)
  | some token =>
    by_cases hreached : Reached hp call token
    case neg =>
      refine .inr (.inl ?_)
      rcases handle_of_not_reached hreached with hret | hret <;> rw [hret]
      · exact ⟨rfl, fun i s => nofun, fun _ => decide_eq_false fun h => hreached h.2.1⟩
      · exact ⟨rfl, fun i s => nofun, nofun⟩
    have hcase := hcounts token hf hreached
    obtain ⟨htok, rfl⟩ := fetched_inHand hf
    by_cases hok : ∃ s, hp.verdict call token = .ok s
    · obtain ⟨s, hok⟩ := hok
      have hsane : Sane hp token.tokenId db := ⟨hf ▸ Option.some_ne_none _, hnonneg⟩
      exact .inl ((handle_ok htok rfl hreached.1 hreached.2 hok).run hsane).2
    obtain ⟨hstale, hlater⟩ := hcase.resolve_left fun ⟨⟨s, hs⟩, hdef⟩ => by
      obtain ⟨s', -, -, hok'⟩ := verdict_of_expected htok.2 hdef hs
      exact hok ⟨s', hok'⟩
    obtain ⟨-, t, ts, key, ht, hts, hkey, htoken⟩ := fetched_eq_some hf
    have hseq : token.tokenSequence = ts.tokenSequence := by rw [htoken]; rfl
    have hbad : t.badLogins = token.badLogins := by rw [htoken]; rfl
    obtain ⟨token', hcase, hbad', hrun⟩ :=
      handle_run htok hreached.1 hreached.2 hstale ht hts hkey hseq hbad
    -- the unlocked hash is the same to the search and to the write
    have hsame : token'.InHand ∧ token'.tokenId = token.tokenId ∧
        token'.tokenSequence = ts.tokenSequence ∧
        hp.verdict call token' = hp.verdict call token := by
      rcases hcase with rfl | rfl
      · exact ⟨htok, rfl, hseq, rfl⟩
      · exact ⟨htok, rfl, hseq, rfl⟩
    obtain ⟨htok', hid', hseq', hverdict⟩ := hsame
    rw [hrun]
    cases hv : hp.verdict call token with
    | ok s => exact absurd ⟨s, hv⟩ hok
    | undef =>
      refine .inr (.inl ?_)
      unfold Server.judge
      rw [hverdict, hv]
      exact ⟨rfl, fun i s => nofun, nofun⟩
    | skewed =>
      refine .inr (.inl ?_)
      unfold Server.judge
      rw [hverdict, hv]
      refine ⟨rfl, fun i s => nofun, fun _ => decide_eq_false fun h => ?_⟩
      have hbadv := (bad_iff_noMatch htok.2 (by rw [hv]; exact nofun)).mpr h.2.2
      rw [hv] at hbadv
      cases hbadv
    | bad =>
      have hno := (bad_iff_noMatch htok.2 (by rw [hv]; exact nofun)).mp hv
      obtain ⟨hlt, hlast⟩ := hlater hno
      obtain ⟨db', hdb', hat, hlock⟩ := punished_run htok' (hid' ▸ ht) (hid' ▸ hts) hkey hseq'
        hbad' (hlast ts hts) (hlt t ht) (hverdict.trans hv)
      rw [hid'] at hat hlock
      rw [hdb']
      exact .inr (.inr ⟨rfl, decide_eq_true ⟨hidle.1, hreached, hno⟩, hat, hlock⟩)

/-! ## Runs -/

/-- The tables, and how many of the calls that count have failed since the last success. -/
def Server.tally (hp : Server) (counted : Db → Call → Bool) (x : Db × ℕ) (call : Call) : Db × ℕ :=
  (hp.after x.1 call,
    match hp.outcome x.1 call with
    | .one _ _ => 0
    | .zero => if counted x.1 call then x.2 + 1 else x.2
    | _ => x.2)

/-- The call is made before the unlock time of a lockout at `now`. -/
def Server.BeforeUnlock (hp : Server) (now : ℤ) (call : Call) : Prop :=
  hp.config.badAuthLockoutTime = 0 ∨ call.now < now + hp.config.badAuthLockoutTime

/-- **The rule.**  Whenever `BadAuthsBeforeLockout` of the calls that count have failed since the
last success, the token is locked, and no later call succeeds before its unlock time. -/
def Server.LocksOut (hp : Server) (counted : Db → Call → Bool) (tokenId : ℕ) (db : Db)
    (calls : List Call) : Prop :=
  ∀ pre call post, calls = pre ++ call :: post →
    (run (hp.tally counted) (db, 0) pre).2 + 1 = hp.config.badAuthsBeforeLockout →
    (run (hp.tally counted) (db, 0) (pre ++ [call])).2 = hp.config.badAuthsBeforeLockout →
    LockedSince hp (run (hp.tally counted) (db, 0) (pre ++ [call])).1 tokenId call.now ∧
      ∀ x ∈ hp.history (run (hp.tally counted) (db, 0) (pre ++ [call])).1 post,
        hp.BeforeUnlock call.now x.1 → ∀ i s, x.2 ≠ .one i s

/-- The bad logins are at least as many as the failures, until the token is locked. -/
def Tallied (hp : Server) (tokenId : ℕ) (x : Db × ℕ) : Prop :=
  0 ≤ x.1.badAt tokenId ∧
    (x.2 < hp.config.badAuthsBeforeLockout → x.2 ≤ x.1.badAt tokenId)

/-- Until the token is locked, calls meet the condition. -/
def CountsUntil (hp : Server) (tokenId : ℕ) (x : Db × ℕ) (call : Call) : Prop :=
  x.2 < hp.config.badAuthsBeforeLockout → Counts hp tokenId x.1 call

/-- A call counts what fails, and locks the token with the last failure. -/
theorem tally_step {x : Db × ℕ} (htries : call.Tries tokenId)
    (hcounts : CountsUntil hp tokenId x call) (h : Tallied hp tokenId x) :
    Tallied hp tokenId (hp.tally (hp.wrongPassword tokenId) x call) ∧
      (x.2 + 1 = hp.config.badAuthsBeforeLockout →
        (hp.tally (hp.wrongPassword tokenId) x call).2 = x.2 + 1 →
          LockedSince hp (hp.tally (hp.wrongPassword tokenId) x call).1 tokenId call.now) := by
  obtain ⟨hnonneg, hle⟩ := h
  have hafter : 0 ≤ (hp.after x.1 call).badAt tokenId := after_nonneg htries hnonneg
  by_cases hfew : x.2 < hp.config.badAuthsBeforeLockout
  case neg =>
    -- the count goes on from there, or a success sets it back
    refine ⟨⟨hafter, ?_⟩, fun hn _ => by omega⟩
    unfold Server.tally
    dsimp only
    cases hp.outcome x.1 call with
    | one i s => exact fun _ => hafter
    | zero =>
      dsimp only
      split <;> exact fun hlt => by omega
    | undef => exact fun hlt => absurd hlt hfew
    | die => exact fun hlt => absurd hlt hfew
  unfold Server.tally Tallied
  dsimp only
  rcases call_cases htries (hcounts hfew) hnonneg with ⟨i, s, hone⟩ | ⟨hsame, hone, hzero⟩ |
    ⟨hzero, hwrong, hat, hlock⟩
  · rw [hone]
    exact ⟨⟨hafter, fun _ => by simpa using hafter⟩, fun _ h => absurd h (by simp)⟩
  · -- nothing is written, and nothing is counted
    have hcount : (match hp.outcome x.1 call with
        | .one _ _ => 0
        | .zero => if hp.wrongPassword tokenId x.1 call then x.2 + 1 else x.2
        | _ => x.2) = x.2 := by
      cases ho : hp.outcome x.1 call with
      | one i s => exact absurd ho (hone i s)
      | zero => simp [hzero ho]
      | undef => rfl
      | die => rfl
    rw [hcount, hsame]
    exact ⟨⟨hnonneg, hle⟩, fun _ h => absurd h (by omega)⟩
  · rw [hzero]
    dsimp only
    rw [if_pos hwrong, hat]
    refine ⟨⟨by omega, fun hlt => ?_⟩, fun hn _ => hlock ?_⟩
    · have := hle (by omega)
      push_cast
      omega
    · have := hle (by omega)
      omega

/-- While the token is locked, a call changes nothing and does not succeed. -/
theorem locked_step (htries : call.Tries tokenId) (hlocked : LockedSince hp db tokenId now)
    (hbefore : hp.BeforeUnlock now call) :
    hp.after db call = db ∧ ∀ i s, hp.outcome db call ≠ .one i s := by
  by_cases hidle : truthy (some call.otp) = true ∧ tokenId ≠ 0
  case neg =>
    unfold Server.after Server.outcome
    rcases hotpAuthenticate_idle hp htries hidle with hret | hret <;> rw [hret] <;>
      exact ⟨rfl, fun i s => nofun⟩
  rw [outcome_eq htries hidle.1 hidle.2, after_eq htries hidle.1 hidle.2]
  cases hf : hp.fetched db tokenId with
  | none => exact ⟨rfl, fun i s => nofun⟩
  | some token =>
    have hclosed : ¬ Reached hp call token := by
      rintro ⟨-, hopen⟩
      obtain ⟨-, t, ts, key, ht, -, -, rfl⟩ := fetched_eq_some hf
      obtain ⟨t', ht', hflag, hunlock⟩ := hlocked
      obtain rfl := Option.some.inj (ht.symm.trans ht')
      simp only [lockCheck, viewRow, hflag, if_true, ne_eq, not_true_eq_false, if_false, hunlock,
        Server.unlockTime] at hopen
      unfold Server.BeforeUnlock at hbefore
      by_cases hT : hp.config.badAuthLockoutTime = 0
      · simp [hT] at hopen
      · have hlt := hbefore.resolve_left hT
        simp only [hT, not_false_eq_true, if_true, Option.map_some, shown] at hopen
        rw [if_neg (by omega)] at hopen
        simp at hopen
    rcases handle_of_not_reached hclosed with hret | hret <;> rw [hret] <;>
      exact ⟨rfl, fun i s => nofun⟩

theorem mem_calls_of_history {x : Call × Outcome} (h : x ∈ hp.history db calls) :
    x.1 ∈ calls := by
  induction calls generalizing db with
  | nil => cases h
  | cons call calls ih =>
    rcases List.mem_cons.mp h with rfl | h
    · exact List.mem_cons_self
    · exact List.mem_cons_of_mem _ (ih h)

theorem locked_run (htries : ∀ call ∈ calls, call.Tries tokenId)
    (hsorted : calls.Pairwise fun a b => a.now ≤ b.now) (hlocked : LockedSince hp db tokenId now)
    {x : Call × Outcome} (hx : x ∈ hp.history db calls) (hbefore : hp.BeforeUnlock now x.1)
    (i : ℕ) (s : ℤ) : x.2 ≠ .one i s := by
  induction calls generalizing db with
  | nil => cases hx
  | cons call calls ih =>
    rw [List.pairwise_cons] at hsorted
    have htries' : ∀ call ∈ calls, call.Tries tokenId := fun c hc =>
      htries c (List.mem_cons_of_mem _ hc)
    -- a call that comes no later than `x` is made before the unlock time too
    have hcall : hp.BeforeUnlock now call := by
      rcases List.mem_cons.mp hx with rfl | hx
      · exact hbefore
      · have := hsorted.1 x.1 (mem_calls_of_history hx)
        exact hbefore.imp_right fun h => by omega
    obtain ⟨hsame, hone⟩ := locked_step (htries call List.mem_cons_self) hlocked hcall
    rcases List.mem_cons.mp hx with rfl | hx
    · exact hone i s
    · rw [hsame] at hx
      exact ih htries' hsorted.2 hlocked hx

/-- **Lockout.**  The rule holds of every run in which calls meet the condition while the count is
short of the lockout, from a state without bad logins, at times that do not go back.  What counts is
a password of no counter in reach; other calls that fail may stand anywhere in the run. -/
theorem locksOut (htries : ∀ call ∈ calls, call.Tries tokenId)
    (hsorted : calls.Pairwise fun a b => a.now ≤ b.now)
    (hclean : ∀ t, db.token tokenId = some t → t.badLogins = none ∨ t.badLogins = some 0)
    (hcounts : AllSteps (hp.tally (hp.wrongPassword tokenId)) (CountsUntil hp tokenId) (db, 0)
      calls) : hp.LocksOut (hp.wrongPassword tokenId) tokenId db calls := by
  rintro pre call post rfl hpre hlast
  have hstart : Tallied hp tokenId (db, 0) := by
    have hzero : db.badAt tokenId = 0 := by
      unfold Db.badAt
      cases ht : db.token tokenId with
      | none => rfl
      | some t => rcases hclean t ht with h | h <;> simp [h]
    exact ⟨Int.le_of_eq hzero.symm, fun _ => Int.le_of_eq hzero.symm⟩
  obtain ⟨hcounts, hcall, -⟩ := AllSteps.append.mp hcounts
  have hallowed := hcounts.and_forall (p := fun call => call.Tries tokenId) fun c hc =>
    htries c (List.mem_append_left _ hc)
  have htallied := run_invariant (I := Tallied hp tokenId)
    (fun x c hx hc => (tally_step hc.2 hc.1 hx).1) hstart hallowed
  have hmem : call ∈ pre ++ call :: post := by simp
  have hlocked := (tally_step (htries call hmem) hcall htallied).2 hpre (by
    rw [run_append, run_cons, run_nil] at hlast
    omega)
  rw [run_append, run_cons, run_nil]
  refine ⟨hlocked, fun x hx hbefore i s => ?_⟩
  have hpost : ∀ c ∈ post, c ∈ pre ++ call :: post := fun c hc => by simp [hc]
  refine locked_run (fun c hc => htries c (hpost c hc)) ?_ hlocked hx hbefore i s
  exact (List.pairwise_append.mp hsorted).2.1.of_cons

/-- A server that locks a token with the first failure, and looks at few counters. -/
def strictServer : Server :=
  { digitServer with config := { badAuthsBeforeLockout := 1, resyncSequenceSkew := 10 } }

set_option maxRecDepth 4000 in
/-- A wrong PIN, the password of a counter that has been used, and then the right one. -/
theorem locksOut_strict : strictServer.LocksOut (strictServer.wrongPassword 7) 7 (oneToken 0)
    [login 999 "9999100002", login 1000 "1234100000", login 1001 "1234100002"] := by
  have hreaches : ∀ db call, ¬ (strictServer.fetched db 7).any (fun token =>
      decide (Reached strictServer call token)) → Counts strictServer 7 db call :=
    fun db call h token hf hreached => absurd (by simp [hf, hreached]) h
  have hpin : strictServer.tally (strictServer.wrongPassword 7) (oneToken 0, 0)
      (login 999 "9999100002") = (oneToken 0, 0) := rfl
  have hone : (strictServer.tally (strictServer.wrongPassword 7) (oneToken 0, 0)
      (login 1000 "1234100000")).2 = 1 := by
    decide
  refine locksOut ?_ ?_ ?_ ⟨fun _ => ?_, fun _ => ?_, fun h => ?_, trivial⟩
  · intro call hcall
    simp only [List.mem_cons, List.not_mem_nil, or_false] at hcall
    rcases hcall with rfl | rfl | rfl <;> rfl
  · decide
  · intro t ht
    obtain rfl := Option.some.inj ht
    exact .inr rfl
  · exact hreaches _ _ (by decide)
  · intro token hf _
    rw [hpin] at hf ⊢
    obtain rfl := Option.some.inj hf
    refine .inr ⟨fun _ => rfl, fun _ => ⟨fun t ht => ?_, fun ts hts => ?_⟩⟩
    · obtain rfl := Option.some.inj ht
      decide
    · obtain rfl := Option.some.inj hts
      decide
  · rw [hpin, hone] at h
    exact absurd h (by decide)

/-! ## What the count leaves out -/

/-- The call gets to a token that is there, can be used, and is not locked: if it fails, it does so
because of the PIN or the password. -/
def Server.presented (hp : Server) (tokenId : ℕ) (db : Db) (call : Call) : Bool :=
  match hp.fetched db tokenId with
  | none => false
  | some token => truthy (some call.otp) ∧ (call.pinNeeded → truthy token.tokenPassword) ∧
      truthy (some token.tokenType) ∧
      (lockCheck call.now token = .unlocked ∨ lockCheck call.now token = .expired)

def wrongPins : List Call :=
  [1000, 1001, 1002, 1003, 1004, 1005].map fun now => login now "9999100002"

/-- Six logins with a wrong PIN leave the token open. -/
theorem notLockedOut : (∀ call ∈ wrongPins, call.Tries 7) ∧
    (wrongPins.Pairwise fun a b => a.now ≤ b.now) ∧ (oneToken 0).badAt 7 = 0 ∧
    digitServer.config.badAuthsBeforeLockout = 6 ∧
    (run (digitServer.tally (digitServer.presented 7)) (oneToken 0, 0) wrongPins).2 = 6 ∧
    ((run (digitServer.tally (digitServer.presented 7)) (oneToken 0, 0) wrongPins).1.token 7).map
      (·.isTokenLocked) = some false ∧
    ¬ digitServer.LocksOut (digitServer.presented 7) 7 (oneToken 0) wrongPins := by
  have hopen : ((run (digitServer.tally (digitServer.presented 7)) (oneToken 0, 0)
      wrongPins).1.token 7).map (·.isTokenLocked) = some false := by
    decide
  refine ⟨by simp [wrongPins, login, Call.Tries, Call.skips], by decide, rfl, rfl,
    by decide, hopen, fun hlocks => ?_⟩
  obtain ⟨⟨t, ht, hlocked, -⟩, -⟩ := hlocks (wrongPins.take 5) (login 1005 "9999100002") [] rfl
    (by decide) (by decide)
  rw [show wrongPins.take 5 ++ [login 1005 "9999100002"] = wrongPins from rfl] at ht
  rw [ht, Option.map_some, hlocked] at hopen
  cases hopen

end JazzHands.Hotpants

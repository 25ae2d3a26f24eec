import JazzHands.Hotpants.TwoServers

/-!
# Resynchronisation

Two calls with the passwords of two consecutive counters that lie above the normal window of a
sequence-based token.
-/

namespace JazzHands.Hotpants

open Library
open Library.Program (Always)

variable {hp : Server} {db db₀ : Db} {token : Token} {call call₁ call₂ : Call}
  {t : TokenRow} {ts : TokenSequenceRow} {key : Option String} {c sequence now : ℤ}
  {tokenId i : ℕ}

/-! ## The stored counter -/

/-- The counter is the old one, or the accepted one. -/
def Written (ts : TokenSequenceRow) (i : ℕ) (token : Token) (sequence now : ℤ) (db : Db) : Prop :=
  db.tokenSequence i = some ts ∨
    token.tokenId = i ∧ sequence ≠ 0 ∧ ts.lastUpdated ≤ 1000000 * now ∧
      db.tokenSequence i = some ⟨sequence, 1000000 * now⟩

theorem Written.reset (hne : sequence ≠ 0) (h : Written ts i token sequence now db) :
    Written ts i token sequence now
      (db.resetSequence token.tokenId sequence (1000000 * now)) := by
  by_cases hi : i = token.tokenId
  · subst hi
    rcases h with h | ⟨-, -, hle, h⟩
    · unfold Written
      rw [resetSequence_of_some h]
      split
      next hle => exact .inr ⟨rfl, hne, hle, rfl⟩
      next => exact .inl rfl
    · refine .inr ⟨rfl, hne, hle, ?_⟩
      rw [resetSequence_of_some h, if_pos (Int.le_refl _)]
  · unfold Written
    rw [resetSequence_of_ne hi]
    exact h

/-- Writing back an accepted hash leaves the counter of every token, or writes the accepted one. -/
theorem putToken_written (hid : token.tokenId ≠ 0) :
    (putToken hp now (token.accepted sequence)).Always
      (fun db => db.tokenSequence token.tokenId ≠ none ∧ Written ts i token sequence now db)
      fun _ => True := by
  refine putToken_always ⟨hid, rfl⟩ trivial (fun _ _ _ => trivial) (fun hne _ _ _ _ _ => ?_)
    fun db b u n d hdb => by simpa [Written] using hdb
  refine setSequence_always (fun db hdb => hdb.1) fun db hdb => ⟨?_, hdb.2.reset hne⟩
  obtain ⟨ts', hts'⟩ := Option.ne_none_iff_exists'.mp hdb.1
  rw [show (token.accepted sequence).tokenId = token.tokenId from rfl, resetSequence_of_some hts']
  exact Option.some_ne_none _

/-- **What a call does to a stored counter**: nothing, or it writes the one that it accepts. -/
theorem after_sequence (hts : db.tokenSequence i = some ts) :
    (hp.after db call).tokenSequence i = some ts ∨
      ∃ token s, token.tokenId = i ∧ token.Of hp db ∧ hp.verdict call token = .ok s ∧
        (∀ t, db.fixedTokens i = some t → token.timeModulo = t.timeModulo) ∧ s ≠ 0 ∧
        ts.lastUpdated ≤ 1000000 * call.now ∧
        (hp.after db call).tokenSequence i = some ⟨s, 1000000 * call.now⟩ := by
  have hloop := fun token s => @tryTokens_ok hp db token call s
  obtain ⟨hI, hof⟩ := tryTokens_run hp db call
  unfold Server.after hotpAuthenticate authDone
  split
  case isFalse => exact .inl hts
  rw [Program.run_bind]
  generalize (tryTokens hp call call.tokens []).run db = r at hloop hI hof ⊢
  obtain ⟨found, db₁⟩ := r
  have hts₁ : db₁.tokenSequence i = some ts := (congrFun hI.1 i).trans hts
  cases found with
  | undef => exact .inl hts₁
  | die => exact .inl hts₁
  | failed badtokens =>
    have hbad : Unchanged db ((putBad hp call.now badtokens).run db₁).2 :=
      ((putBad_always hof).run hI).1
    exact .inl ((congrFun hbad.1 i).trans hts)
  | ok token s =>
    obtain ⟨-, htok, hok, hmodulo⟩ := hloop token s rfl
    obtain ⟨hhand, t, ts', -, hts', -, -⟩ := htok
    have hsome : db₁.tokenSequence token.tokenId ≠ none := by
      rw [hI.1, hts']
      exact Option.some_ne_none _
    have hput : Written ts i token s call.now
        ((putToken hp call.now (token.accepted s)).run db₁).2 :=
      ((putToken_written hhand.1).run ⟨hsome, .inl hts₁⟩).1.2
    dsimp only
    rw [Program.run_bind]
    generalize (putToken hp call.now (token.accepted s)).run db₁ = r at hput ⊢
    obtain ⟨put, db₂⟩ := r
    have hcase : db₂.tokenSequence i = some ts ∨ ∃ token s, token.tokenId = i ∧ token.Of hp db ∧
        hp.verdict call token = .ok s ∧
        (∀ t, db.fixedTokens i = some t → token.timeModulo = t.timeModulo) ∧ s ≠ 0 ∧
        ts.lastUpdated ≤ 1000000 * call.now ∧
        db₂.tokenSequence i = some ⟨s, 1000000 * call.now⟩ := by
      rcases hput with hput | ⟨rfl, hne, hle, hput⟩
      · exact .inl hput
      · exact .inr ⟨token, s, rfl, (hloop token s rfl).2.1, hok, hmodulo, hne, hle, hput⟩
    cases put <;> exact hcase

/-! ## The counter that a password is taken for -/

/-- `s` is the first counter of the normal window above `stored` that has the password of `c`. -/
def Server.Takes (hp : Server) (key : Option String) (stored c s : ℤ) : Prop :=
  stored < s ∧ s ≤ stored + 1 + hp.config.sequenceSkew ∧
    hp.generateHOTP key s = hp.generateHOTP key c ∧
    ∀ s', stored < s' → s' < s → hp.generateHOTP key s' ≠ hp.generateHOTP key c

theorem window_of_sequence (h : token.timeModulo.getD 0 = 0) :
    hp.window now token = (token.tokenSequence + 1, hp.config.sequenceSkew) := by
  unfold Server.window
  cases hm : token.timeModulo with
  | none => rfl
  | some m =>
    rw [hm] at h
    exact if_neg (not_not.mpr h)

section

variable (hskew : nonzero token.timeSkew = false) (hseq : token.timeModulo.getD 0 = 0)
include hskew hseq

theorem takes_of_verdict (hprn : hp.generateHOTP token.tokenKey c = some call.prn)
    (h : hp.verdict call token = .ok sequence) :
    hp.Takes token.tokenKey token.tokenSequence c sequence := by
  obtain ⟨⟨⟨hgen, hlow, hreach⟩, hhigh⟩, hfirst⟩ := verdict_expected hskew h
  rw [window_of_sequence hseq] at hlow hreach hhigh hfirst
  dsimp only at hlow hreach hhigh hfirst
  refine ⟨by omega, hhigh, hgen.trans hprn.symm, fun s' hs' hlt heq => ?_⟩
  exact hfirst s' hlt ⟨heq.trans hprn, by omega, by omega⟩

theorem verdict_of_takes (hreach : hp.config.sequenceSkew ≤ hp.config.resyncSequenceSkew)
    (hdef : ∀ s, hp.generateHOTP token.tokenKey s ≠ none)
    (hprn : hp.generateHOTP token.tokenKey c = some call.prn)
    (h : hp.Takes token.tokenKey token.tokenSequence c sequence) :
    hp.verdict call token = .ok sequence := by
  obtain ⟨hlow, hhigh, hgen, hfirst⟩ := h
  have hexpected : hp.Expected call token sequence := by
    unfold Server.Expected Server.Matches
    rw [window_of_sequence hseq]
    exact ⟨⟨hgen.trans hprn, by omega, by dsimp only; omega⟩, hhigh⟩
  obtain ⟨s, hle, ⟨⟨hs, hlow', -⟩, -⟩, hok⟩ := verdict_of_expected hskew hdef hexpected
  rw [window_of_sequence hseq] at hlow'
  dsimp only at hlow'
  -- no counter before `sequence` has these digits
  have hge : sequence ≤ s := by
    by_contra hlt
    exact hfirst s (by omega) (by omega) (hs.trans hprn.symm)
  rw [hok, Int.le_antisymm hle hge]

end

/-! ## Two calls -/

/-- The second call succeeds, and leaves the counter after `c`. -/
def Server.Resyncs (hp : Server) (db : Db) (call₁ call₂ : Call) (tokenId : ℕ) (c : ℤ) : Prop :=
  (∃ i s, hp.outcome (hp.after db call₁) call₂ = .one i s) ∧
    ((hp.after (hp.after db call₁) call₂).tokenSequence tokenId).map (·.tokenSequence) =
      some (c + 1)

/-- The password of `c` is that of a counter in the normal window too, which moves the window up to
`c + 1`. -/
def Server.Coincides (hp : Server) (token : Token) (call₁ call₂ : Call) (c : ℤ) : Prop :=
  ∃ s, hp.Takes token.tokenKey token.tokenSequence c s ∧
    hp.Takes token.tokenKey s (c + 1) (c + 1) ∧ s ≠ 0 ∧ c + 1 ≠ 0 ∧
    token.lastUpdated.time ≤ 1000000 * call₁.now ∧ call₁.now ≤ call₂.now

/-- The token has this key and no step width. -/
def Server.HasSequenceKey (hp : Server) (db : Db) (tokenId : ℕ) (key : Option String) : Prop :=
  ∃ t, db.fixedTokens tokenId = some t ∧ t.timeModulo.getD 0 = 0 ∧
    hp.decryptKey t.tokenKey t.encryptionKeyId = some key

theorem takes_of_accepted (hkey : hp.HasSequenceKey db tokenId key)
    (hts : db.tokenSequence tokenId = some ts) (hid : token.tokenId = tokenId)
    (hof : token.Of hp db)
    (hmodulo : ∀ t, db.fixedTokens tokenId = some t → token.timeModulo = t.timeModulo)
    (hprn : hp.generateHOTP key c = some call.prn) (hok : hp.verdict call token = .ok sequence) :
    hp.Takes key ts.tokenSequence c sequence := by
  obtain ⟨t, ht, hseq, hk⟩ := hkey
  obtain ⟨hhand, t', ts', ht', hts', hk', hstored⟩ := hof
  rw [hid] at ht' hts'
  obtain rfl := Option.some.inj (ht.symm.trans ht')
  obtain rfl := Option.some.inj (hts.symm.trans hts')
  obtain rfl := Option.some.inj (hk.symm.trans hk')
  rw [← hstored]
  exact takes_of_verdict hhand.2 (by rw [hmodulo t ht, hseq]) hprn hok

/-- **Only then**, whoever makes the calls. -/
theorem coincides_of_resyncs (hf : hp.fetched db tokenId = some token)
    (hseq : token.timeModulo.getD 0 = 0)
    (hlow : token.tokenSequence + 1 + hp.config.sequenceSkew < c)
    (h₁ : hp.generateHOTP token.tokenKey c = some call₁.prn)
    (h₂ : hp.generateHOTP token.tokenKey (c + 1) = some call₂.prn)
    (h : hp.Resyncs db call₁ call₂ tokenId c) : hp.Coincides token call₁ call₂ c := by
  obtain ⟨-, t, ts, key, ht, hts, hk, rfl⟩ := fetched_eq_some hf
  have hkey : hp.HasSequenceKey db tokenId key := ⟨t.fixed, by simp [Db.fixedTokens, ht], hseq, hk⟩
  have hkey' : hp.HasSequenceKey (hp.after db call₁) tokenId key := by
    obtain ⟨t₀, ht₀, hrest⟩ := hkey
    exact ⟨t₀, (after_advances hp db call₁).1 ▸ ht₀, hrest⟩
  -- the second call has written `c + 1`, if the counter was another one before
  have hsecond : ∀ ts', (hp.after db call₁).tokenSequence tokenId = some ts' →
      ts'.tokenSequence ≠ c + 1 →
      hp.Takes key ts'.tokenSequence (c + 1) (c + 1) ∧ c + 1 ≠ 0 ∧
        ts'.lastUpdated ≤ 1000000 * call₂.now := by
    intro ts' hts' hne
    have hlast := h.2
    rcases after_sequence hts' with hsame | ⟨token₂, s, hid, hof, hok, hmodulo, hs, hle, hw⟩
    · rw [hsame] at hlast
      exact absurd (Option.some.inj hlast) hne
    · rw [hw] at hlast
      obtain rfl : s = c + 1 := Option.some.inj hlast
      exact ⟨takes_of_accepted hkey' hts' hid hof hmodulo h₂ hok, hs, hle⟩
  have hlow' : ts.tokenSequence + 1 + hp.config.sequenceSkew < c := hlow
  rcases after_sequence hts with hsame | ⟨token₁, s, hid, hof, hok, hmodulo, hs, hle, hw⟩
  · -- the first call has left the counter, and `c + 1` is too far away
    obtain ⟨⟨-, hhigh, -⟩, -⟩ := hsecond ts hsame (by omega)
    omega
  · have htakes := takes_of_accepted hkey hts hid hof hmodulo h₁ hok
    obtain ⟨htakes', hne, hle'⟩ := hsecond _ hw (by have := htakes.2.1; dsimp only; omega)
    exact ⟨s, htakes, htakes', hs, hne, hle, by dsimp only at hle'; omega⟩

/-! ## The other direction -/

theorem truthy_of_passes (h : hp.passes call token = true) : truthy (some call.otp) = true := by
  have hlen : otplen ≤ call.otp.length := by
    simp only [Server.passes, Bool.decide_and, Bool.and_eq_true, decide_eq_true_eq] at h
    exact h.2.2.1
  unfold truthy
  have hempty : call.otp ≠ "" := by
    rintro heq
    rw [heq] at hlen
    exact absurd hlen (by decide)
  have hzero : call.otp ≠ "0" := by
    rintro heq
    rw [heq] at hlen
    exact absurd hlen (by decide)
  simp [hempty, hzero]

theorem authDone_run (hi : token.tokenId = tokenId) (hid : tokenId ≠ 0)
    (hlocked : token.isTokenLocked = .N) (hopen : Open hp db₀ tokenId db)
    (hts : db.tokenSequence tokenId = some ts) (hne : sequence ≠ 0)
    (hlt : ts.tokenSequence < sequence) (hle : ts.lastUpdated ≤ 1000000 * call.now) :
    (∃ i s, ((authDone hp call (.ok token sequence)).run db).1 = .one i s) ∧
      Open hp db₀ tokenId ((authDone hp call (.ok token sequence)).run db).2 ∧
      ((authDone hp call (.ok token sequence)).run db).2.tokenSequence tokenId =
        some ⟨sequence, 1000000 * call.now⟩ := by
  have hdone : (authDone hp call (.ok token sequence)).Always (Open hp db₀ tokenId)
      fun o => ∃ i s, o = .one i s := authDone_always hi hid hlocked
  obtain ⟨hopen', hone⟩ := hdone.run hopen
  refine ⟨hone, hopen', ?_⟩
  subst hi
  obtain ⟨t, ht, -⟩ := hopen.2.2.1
  have hstored : ((putToken hp call.now (token.accepted sequence)).run db).2.tokenSequence
      token.tokenId = some ⟨sequence, 1000000 * call.now⟩ :=
    putToken_stored hid ht hts hne hlt hle
  unfold authDone
  rw [Program.run_bind]
  generalize (putToken hp call.now (token.accepted sequence)).run db = r at hstored ⊢
  obtain ⟨put, db₁⟩ := r
  cases put <;> exact hstored

/-- **A call in an open state** that carries a password of the normal window succeeds, and stores
the counter. -/
theorem call_run (hopen : Open hp db₀ tokenId db) (hid : tokenId ≠ 0)
    (ht₀ : db₀.token tokenId = some t) (hseq : t.timeModulo.getD 0 = 0)
    (hkey : hp.decryptKey t.tokenKey t.encryptionKeyId = some key)
    (hreach : hp.config.sequenceSkew ≤ hp.config.resyncSequenceSkew)
    (hdef : ∀ s, hp.generateHOTP key s ≠ none) (htries : call.Tries tokenId)
    (hpass : ∀ ts, hp.passes call { viewRow tokenId t ts with tokenKey := key } = true)
    (hprn : hp.generateHOTP key c = some call.prn) (hts : db.tokenSequence tokenId = some ts)
    (htakes : hp.Takes key ts.tokenSequence c sequence) (hne : sequence ≠ 0)
    (hle : ts.lastUpdated ≤ 1000000 * call.now) :
    (∃ i s, hp.outcome db call = .one i s) ∧ Open hp db₀ tokenId (hp.after db call) ∧
      (hp.after db call).tokenSequence tokenId = some ⟨sequence, 1000000 * call.now⟩ := by
  obtain ⟨t', ht', hlocked⟩ := hopen.2.2.1
  have hfixed : t'.fixed = t.fixed := by
    have := congrFun hopen.1 tokenId
    simpa [Db.fixedTokens, ht₀, ht'] using this
  have hfetched := fetched_of_rows hid ht' hts ((key_of_fixed hfixed).trans hkey)
  have hpass' : hp.passes call { viewRow tokenId t' ts with tokenKey := key } = true :=
    (verdict_congr hp call tokenId ts key hfixed).1.trans (hpass ts)
  have hseq' : t'.timeModulo.getD 0 = 0 := by
    obtain ⟨b, u, n, d, rfl⟩ := eq_of_fixed hfixed
    exact hseq
  have hok : hp.verdict call { viewRow tokenId t' ts with tokenKey := key } = .ok sequence :=
    verdict_of_takes rfl hseq' hreach hdef hprn htakes
  rw [outcome_eq htries (truthy_of_passes hpass') hid,
    after_eq htries (truthy_of_passes hpass') hid, hfetched,
    handle_accepted hpass' (by simp [viewRow, hlocked]) hok]
  exact authDone_run rfl hid (by simp [viewRow, hlocked]) hopen hts hne htakes.1 hle

theorem resyncs_of_coincides (hf : hp.fetched db tokenId = some token)
    (hseq : token.timeModulo.getD 0 = 0)
    (hreach : hp.config.sequenceSkew ≤ hp.config.resyncSequenceSkew)
    (h₁ : hp.generateHOTP token.tokenKey c = some call₁.prn)
    (h₂ : hp.generateHOTP token.tokenKey (c + 1) = some call₂.prn)
    (hdef : ∀ s, hp.generateHOTP token.tokenKey s ≠ none)
    (htries₁ : call₁.Tries tokenId) (htries₂ : call₂.Tries tokenId)
    (hpass₁ : hp.passes call₁ token = true) (hpass₂ : hp.passes call₂ token = true)
    (hlocked : token.isTokenLocked ≠ .Y) (h : hp.Coincides token call₁ call₂ c) :
    hp.Resyncs db call₁ call₂ tokenId c := by
  obtain ⟨s, htakes, htakes', hs, hc, hle, hle'⟩ := h
  obtain ⟨hid, t, ts, key, ht, hts, hk, rfl⟩ := fetched_eq_some hf
  have hopen : Open hp db tokenId db := by
    refine ⟨rfl, ⟨ts, hts⟩, ⟨t, ht, ?_⟩, key, t.fixed, by simp [Db.fixedTokens, ht], hk⟩
    simpa [viewRow] using hlocked
  obtain ⟨-, hopen', hts'⟩ := call_run hopen hid ht hseq hk hreach hdef htries₁ (fun _ => hpass₁)
    h₁ hts htakes hs hle
  obtain ⟨hone, -, hts''⟩ := call_run hopen' hid ht hseq hk hreach hdef htries₂ (fun _ => hpass₂)
    h₂ hts' htakes' hc (by dsimp only; omega)
  exact ⟨hone, by rw [hts'']; rfl⟩

/-- **Resynchronisation.**  A password above the normal window and the next one: whoever makes the
calls, the second one does not succeed and store its counter unless the first password is by chance
that of a counter within the window too, which moves the window far enough.  When the calls try the
token alone, with the right PIN, it does in exactly that case. -/
theorem resyncs_iff (hf : hp.fetched db tokenId = some token)
    (hseq : token.timeModulo.getD 0 = 0)
    (hlow : token.tokenSequence + 1 + hp.config.sequenceSkew < c)
    (hhigh : c ≤ token.tokenSequence + hp.config.resyncSequenceSkew)
    (h₁ : hp.generateHOTP token.tokenKey c = some call₁.prn)
    (h₂ : hp.generateHOTP token.tokenKey (c + 1) = some call₂.prn) :
    (hp.Resyncs db call₁ call₂ tokenId c → hp.Coincides token call₁ call₂ c) ∧
    ((∀ s, hp.generateHOTP token.tokenKey s ≠ none) →
      call₁.Tries tokenId → call₂.Tries tokenId →
      hp.passes call₁ token = true → hp.passes call₂ token = true → token.isTokenLocked ≠ .Y →
      (hp.Resyncs db call₁ call₂ tokenId c ↔ hp.Coincides token call₁ call₂ c)) := by
  have honly := coincides_of_resyncs hf hseq hlow h₁ h₂
  refine ⟨honly, fun hdef htries₁ htries₂ hpass₁ hpass₂ hlocked => ⟨honly, ?_⟩⟩
  exact resyncs_of_coincides hf hseq (by omega) h₁ h₂ hdef htries₁ htries₂ hpass₁ hpass₂ hlocked

theorem not_resyncs (hinj : hp.Injective) (hf : hp.fetched db tokenId = some token)
    (hseq : token.timeModulo.getD 0 = 0)
    (hlow : token.tokenSequence + 1 + hp.config.sequenceSkew < c)
    (h₁ : hp.generateHOTP token.tokenKey c = some call₁.prn)
    (h₂ : hp.generateHOTP token.tokenKey (c + 1) = some call₂.prn) :
    ¬ hp.Resyncs db call₁ call₂ tokenId c := by
  intro h
  obtain ⟨s, ⟨-, hhigh, hgen, -⟩, -⟩ := coincides_of_resyncs hf hseq hlow h₁ h₂ h
  have := hinj _ s c _ (hgen.trans h₁) h₁
  omega

/-- What the server has of token 7. -/
def fetchedToken : Token where
  tokenId := 7
  tokenType := "sequence"
  timeModulo := none
  timeSkew := none
  tokenKey := some "key"
  encryptionKeyId := none
  tokenPassword := some "1234"
  isTokenLocked := .N
  tokenUnlockTime := none
  badLogins := some 0
  tokenSequence := 0
  lastUpdated := shown 0

/-- The passwords of the counters 10 and 11, for a token with the counter 0. -/
theorem resyncs_iff_ten :
    digitServer.Resyncs (oneToken 0) (login 1000 "1234100020") (login 1001 "1234100022") 7 10 ↔
      digitServer.Coincides fetchedToken (login 1000 "1234100020") (login 1001 "1234100022")
        10 := by
  have hfetched : digitServer.fetched (oneToken 0) 7 = some fetchedToken := rfl
  exact (resyncs_iff hfetched rfl (by decide) (by decide) (by decide) (by decide)).2
    (fun _ h => by cases h) rfl rfl (by decide) (by decide) (by decide)

/-- They are both turned down. -/
theorem notResynced : (digitServer.fetched (oneToken 0) 7 = some fetchedToken ∧
      fetchedToken.tokenSequence + 1 + digitServer.config.sequenceSkew < 10 ∧
      10 ≤ fetchedToken.tokenSequence + digitServer.config.resyncSequenceSkew ∧
      digitServer.generateHOTP fetchedToken.tokenKey 10 = some (login 1000 "1234100020").prn ∧
      digitServer.generateHOTP fetchedToken.tokenKey 11 = some (login 1001 "1234100022").prn ∧
      ∀ call ∈ [login 1000 "1234100020", login 1001 "1234100022"],
        call.Tries 7 ∧ digitServer.passes call fetchedToken = true) ∧
    ¬ digitServer.Resyncs (oneToken 0) (login 1000 "1234100020") (login 1001 "1234100022") 7 10 := by
  refine ⟨⟨rfl, by decide, by decide, by decide, by decide, ?_⟩, ?_⟩
  · intro call hcall
    rcases List.mem_pair.mp hcall with rfl | rfl <;> exact ⟨rfl, by decide⟩
  · exact not_resyncs digitServer_injective rfl rfl (by decide) (by decide) (by decide)

end JazzHands.Hotpants

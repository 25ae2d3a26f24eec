import JazzHands.Hotpants.Search

/-!
# Calls that try one token

A user with one token, or a call that asks for one.

The loop over tokens is then one pass (`hotpAuthenticate_eq`), and the results of other modules
about a pass are results about calls.
-/

namespace JazzHands.Hotpants

open Library
open Library.Program (read modify Always)

variable {hp : Server} {db : Db} {token : Token} {call : Call} {tokenId i : ℕ} {sequence : ℤ}

/-- The call tries this token and no other. -/
def Call.Tries (call : Call) (tokenId : ℕ) : Prop :=
  call.tokens.filter (fun i => !call.skips i) = [tokenId]

/-- What follows a single pass. -/
def Server.settle (hp : Server) (call : Call) : Tried → Program Db Outcome
  | .next => authDone hp call (.failed [])
  | .bad token => authDone hp call (.failed [token])
  | .ok token sequence => authDone hp call (.ok token sequence)
  | .undef => pure .undef
  | .die => pure .die

/-- What follows an unlocking. -/
def Server.unlock (hp : Server) (call : Call) (token : Token) : Program Db Outcome := do
  match ← putToken hp call.now token.unlocked with
  | .one => hp.settle call (hp.judge call token.unlocked)
  | .undef => pure .undef
  | .die => pure .die

/-- What follows the fetch. -/
def Server.handle (hp : Server) (call : Call) : Option Token → Program Db Outcome
  | none => pure .zero
  | some token =>
    if hp.passes call token then
      match lockCheck call.now token with
      | .unlocked => hp.settle call (hp.judge call token)
      | .locked => pure .zero
      | .unreadable => pure .undef
      | .expired => hp.unlock call token
    else pure .zero

theorem tryTokens_filter {tokens : List ℕ} {badtokens : List Token} :
    tryTokens hp call tokens badtokens =
      tryTokens hp call (tokens.filter fun i => !call.skips i) badtokens := by
  induction tokens generalizing badtokens with
  | nil => rfl
  | cons i rest ih =>
    cases hi : call.skips i with
    | true =>
      rw [List.filter_cons_of_neg (by simp [hi]), ← ih, tryTokens, tryToken, if_pos hi]
      rfl
    | false =>
      rw [List.filter_cons_of_pos (by simp [hi]), tryTokens, tryTokens]
      congr 1
      funext r
      cases r <;> simp [ih]

section

variable (h : call.Tries tokenId) (hotp : truthy (some call.otp) = true) (hid : tokenId ≠ 0)
include h hotp hid

/-- **A call for one token** fetches it, and goes on with the hash. -/
theorem hotpAuthenticate_eq :
    hotpAuthenticate hp call = read >>= fun db => hp.handle call (hp.fetched db tokenId) := by
  have hskip : call.skips tokenId = false := by
    have : tokenId ∈ call.tokens.filter fun i => !call.skips i := h ▸ List.mem_singleton_self _
    simpa using (List.mem_filter.mp this).2
  have hpass : hotpAuthenticate hp call = tryToken hp call tokenId >>= hp.settle call := by
    rw [hotpAuthenticate, if_pos hotp, tryTokens_filter, h, tryTokens, Program.bind_assoc]
    congr 1
    funext r
    cases r <;> rfl
  rw [hpass]
  rw [tryToken, hskip, if_neg Bool.false_ne_true, fetchToken, if_neg hid, Program.bind_assoc,
    Program.bind_assoc]
  congr 1
  funext db
  simp only [Server.fetched, if_neg hid, Program.pure_bind]
  cases (db.vHotpantsToken tokenId).bind hp.decrypted with
  | none => rfl
  | some token =>
    simp only [Server.handle]
    split
    · cases lockCheck call.now token with
      | unlocked => rfl
      | locked => rfl
      | unreadable => rfl
      | expired =>
        simp only [Program.bind_assoc, Server.unlock]
        congr 1
        funext r
        cases r <;> rfl
    · rfl

theorem outcome_eq : hp.outcome db call = ((hp.handle call (hp.fetched db tokenId)).run db).1 := by
  rw [Server.outcome, hotpAuthenticate_eq h hotp hid]
  simp

theorem after_eq : hp.after db call = ((hp.handle call (hp.fetched db tokenId)).run db).2 := by
  rw [Server.after, hotpAuthenticate_eq h hotp hid]
  simp

end

/-- A call without a password returns undef, and one that tries token 0 returns 0. -/
theorem hotpAuthenticate_idle (hp : Server) (h : call.Tries tokenId)
    (hidle : ¬ (truthy (some call.otp) = true ∧ tokenId ≠ 0)) :
    hotpAuthenticate hp call = pure .undef ∨ hotpAuthenticate hp call = pure .zero := by
  unfold hotpAuthenticate
  split
  next hotp =>
    obtain rfl : tokenId = 0 := by
      by_contra hid
      exact hidle ⟨hotp, hid⟩
    refine .inr ?_
    rw [tryTokens_filter, h, tryTokens, tryToken]
    split <;> rfl
  · exact .inl rfl

/-! ## What follows the fetch -/

variable {I : Db → Prop} {Q : Outcome → Prop} {fetched : Option Token} {tried : Tried}

theorem judge_eq_ok {token' : Token} (h : hp.judge call token = .ok token' sequence) :
    token' = token ∧ hp.verdict call token = .ok sequence := by
  unfold Server.judge at h
  split at h
  · cases h
  · cases h
  · cases h
  next s hs =>
    obtain ⟨rfl, rfl⟩ := Tried.ok.inj h
    exact ⟨rfl, hs⟩

theorem putBad_ne_one {now : ℤ} {badtokens : List Token} :
    (putBad hp now badtokens).Always (fun _ => True) fun o => ∀ i s, o ≠ .one i s := by
  induction badtokens with
  | nil => exact Always.pure fun i s h => by cases h
  | cons tok rest ih =>
    unfold putBad
    refine Always.bind (Always.of_true.mono fun r _ => ?_)
    cases r with
    | one => exact ih
    | undef => exact Always.pure fun i s h => by cases h
    | die => exact Always.pure fun i s h => by cases h

theorem settle_one : (hp.settle call tried).Always (fun _ => True) fun o =>
    ∀ i s, o = .one i s → ∃ token, tried = .ok token s ∧ token.tokenId = i := by
  cases tried with
  | next => exact putBad_ne_one.mono fun o ho i s h => absurd h (ho i s)
  | bad token => exact putBad_ne_one.mono fun o ho i s h => absurd h (ho i s)
  | undef => exact Always.pure fun i s => nofun
  | die => exact Always.pure fun i s => nofun
  | ok token sequence =>
    refine Always.bind (Always.of_true.mono fun r _ => ?_)
    cases r with
    | undef => exact Always.pure fun i s => nofun
    | die => exact Always.pure fun i s => nofun
    | one =>
      refine Always.pure fun i s h => ?_
      obtain ⟨rfl, rfl⟩ := Outcome.one.inj h
      exact ⟨token, rfl, rfl⟩

/-- **A call that succeeds has accepted the hash that it fetched**, whatever others do. -/
theorem handle_one : (hp.handle call fetched).Always (fun _ => True) fun o =>
    ∀ i s, o = .one i s → ∃ token, fetched = some token ∧ token.tokenId = i ∧
      hp.passes call token = true ∧ hp.verdict call token = .ok s := by
  cases fetched with
  | none => exact Always.pure fun i s => nofun
  | some token =>
    unfold Server.handle
    dsimp only
    split
    case isFalse => exact Always.pure fun i s => nofun
    next hpass =>
      split
      · refine settle_one.mono fun o ho i s h => ?_
        obtain ⟨token', hj, hi⟩ := ho i s h
        obtain ⟨rfl, hok⟩ := judge_eq_ok hj
        exact ⟨token', rfl, hi, hpass, hok⟩
      · exact Always.pure fun i s => nofun
      · exact Always.pure fun i s => nofun
      · unfold Server.unlock
        refine Always.bind (Always.of_true.mono fun r _ => ?_)
        cases r with
        | undef => exact Always.pure fun i s => nofun
        | die => exact Always.pure fun i s => nofun
        | one =>
          refine settle_one.mono fun o ho i s h => ?_
          obtain ⟨token', hj, hi⟩ := ho i s h
          obtain ⟨rfl, hok⟩ := judge_eq_ok hj
          exact ⟨token, rfl, hi, hpass, hok⟩

section

variable (hhand : token.InHand) (hlock : ∀ db b u n d, I db → I (db.lock token.tokenId b u n d))
  (hsame : KeptBySequence I call.now token)
  (hacc : ∀ s, hp.verdict call token = .ok s → KeptBySequence I call.now (token.accepted s))
include hhand hlock hsame hacc

/-- What a pass keeps: `hsame` is that writing back the hash does not touch the counter. -/
theorem settle_always : (hp.settle call (hp.judge call token)).Always I fun _ => True := by
  unfold Server.judge
  split
  · exact Always.pure trivial
  · have hpun : (hp.punished call.now token).InHand ∧
        (hp.punished call.now token).tokenId = token.tokenId ∧
        (hp.punished call.now token).tokenSequence = token.tokenSequence := by
      unfold Server.punished
      dsimp only
      split <;> exact ⟨hhand, rfl, rfl⟩
    refine Always.bind (putToken_always hpun.1 (Always.pure trivial)
      (fun _ _ _ => Always.pure trivial) ?_ (by rw [hpun.2.1]; exact hlock))
    unfold KeptBySequence at hsame ⊢
    rwa [hpun.2.1, hpun.2.2]
  · exact Always.pure trivial
  next s hs =>
    exact Always.bind (putToken_always ⟨hhand.1, rfl⟩ (Always.pure trivial)
      (fun _ _ _ => Always.pure trivial) (hacc s hs) hlock)

/-- **What a call keeps** after its fetch. -/
theorem handle_always : (hp.handle call (some token)).Always I fun _ => True := by
  unfold Server.handle
  dsimp only
  split
  · split
    · exact settle_always hhand hlock hsame hacc
    · exact Always.pure trivial
    · exact Always.pure trivial
    · have hun : token.unlocked.InHand := hhand
      refine Always.bind (putToken_always hun ?_ (fun _ _ _ => Always.pure trivial) hsame hlock)
      exact settle_always hun hlock hsame hacc
  · exact Always.pure trivial

end

theorem handle_accepted (hpass : hp.passes call token = true)
    (hlocked : token.isTokenLocked ≠ .Y) (hok : hp.verdict call token = .ok sequence) :
    hp.handle call (some token) = authDone hp call (.ok token sequence) := by
  have hcheck : lockCheck call.now token = .unlocked := if_pos hlocked
  simp only [Server.handle, hpass, if_true, hcheck, Server.judge, hok, Server.settle]

end JazzHands.Hotpants

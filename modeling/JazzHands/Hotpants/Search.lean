import JazzHands.Hotpants.Writes

/-!
# The search for the counter

The loop over counters ends at the first one that matches (`search_eq`), which gives the verdict on
a password in terms of `Expected` and `NoMatch`.  `tryTokens_always` is the invariant of the loop
over the tokens of a user.
-/

namespace JazzHands.Hotpants

open Library
open Library.Program (read modify Always)

variable {hp : Server} {db db₀ : Db} {token : Token} {call : Call} {key : Option String}
  {prn : String} {initialseq start sequence now : ℤ} {n tokenId : ℕ}

/-! ## Counters -/

/-- The submitted digits are those of the counter, and the counter may be used. -/
def Server.Matches (hp : Server) (key : Option String) (prn : String) (initialseq sequence : ℤ) :
    Prop :=
  hp.generateHOTP key sequence = some prn ∧ initialseq ≤ sequence ∧
    sequence ≤ initialseq + hp.config.resyncSequenceSkew

/-- The loop ends at the first match, or past its last counter. -/
theorem search_eq (h : hp.search key prn initialseq n start = some sequence) :
    (hp.Matches key prn initialseq sequence ∨ sequence = start + n) ∧
      ∀ s, start ≤ s → s < sequence → ¬ hp.Matches key prn initialseq s := by
  induction n generalizing start with
  | zero =>
    obtain rfl := Option.some.inj h
    exact ⟨.inr (by simp), fun s h₁ h₂ => by omega⟩
  | succ n ih =>
    unfold Server.search at h
    split at h
    · cases h
    next checkprn hgen =>
      split at h
      next hm =>
        obtain rfl := Option.some.inj h
        exact ⟨.inl ⟨hm.2.2 ▸ hgen, hm.1, hm.2.1⟩, fun s h₁ h₂ => by omega⟩
      next hm =>
        obtain ⟨hend, hrest⟩ := ih h
        refine ⟨hend.imp_right fun hend => by omega, fun s h₁ h₂ hs => ?_⟩
        by_cases hstart : s = start
        · subst hstart
          exact hm ⟨hs.2.1, hs.2.2, (Option.some.inj (hgen.symm.trans hs.1)).symm⟩
        · exact hrest s (by omega) h₂ hs

theorem lt_window (hp : Server) (token : Token) (now : ℤ) :
    token.tokenSequence < (hp.window now token).1 := by
  unfold Server.window
  split
  · split
    · dsimp only
      split <;> omega
    · dsimp only
      omega
  · dsimp only
    omega

/-- A counter that is accepted for the submitted digits. -/
def Server.Expected (hp : Server) (call : Call) (token : Token) (sequence : ℤ) : Prop :=
  hp.Matches token.tokenKey call.prn (hp.window call.now token).1 sequence ∧
    sequence ≤ (hp.window call.now token).1 + (hp.window call.now token).2

theorem search_isSome (hdef : ∀ s, hp.generateHOTP key s ≠ none) (prn : String)
    (initialseq : ℤ) (n : ℕ) (start : ℤ) :
    ∃ sequence, hp.search key prn initialseq n start = some sequence := by
  induction n generalizing start with
  | zero => exact ⟨start, rfl⟩
  | succ n ih =>
    unfold Server.search
    split
    · exact absurd ‹_› (hdef start)
    · split
      · exact ⟨start, rfl⟩
      · exact ih (start + 1)

section

variable (hskew : nonzero token.timeSkew = false)
include hskew

/-- A password of an expected counter is accepted, at the first counter it belongs to. -/
theorem verdict_of_expected (hdef : ∀ s, hp.generateHOTP token.tokenKey s ≠ none)
    (h : hp.Expected call token sequence) :
    ∃ s, s ≤ sequence ∧ hp.Expected call token s ∧ hp.verdict call token = .ok s := by
  rw [Server.verdict, hskew, if_neg Bool.false_ne_true]
  unfold Server.normal
  dsimp only
  obtain ⟨s, hs⟩ := search_isSome hdef call.prn (hp.window call.now token).1
    (hp.config.resyncSequenceSkew + 1001) ((hp.window call.now token).1 - 500)
  rw [hs]
  obtain ⟨hend, hfirst⟩ := search_eq hs
  have hle : s ≤ sequence := by
    by_contra hlt
    exact hfirst sequence (by have := h.1.2.1; omega) (by omega) h.1
  have hmatch : hp.Matches token.tokenKey call.prn (hp.window call.now token).1 s := by
    refine hend.resolve_right fun hend => ?_
    have := h.1.2.2
    omega
  have hskewed := h.2
  refine ⟨s, hle, ⟨hmatch, by omega⟩, ?_⟩
  dsimp only
  rw [if_neg (by have := hmatch.2.2; omega), if_neg (by omega)]

/-- The submitted digits are those of no counter in reach. -/
def Server.NoMatch (hp : Server) (call : Call) (token : Token) : Prop :=
  ∀ s, ¬ hp.Matches token.tokenKey call.prn (hp.window call.now token).1 s

/-- A bad login is a password of no counter in reach. -/
theorem bad_iff_noMatch (hdef : hp.verdict call token ≠ .undef) :
    hp.verdict call token = .bad ↔ hp.NoMatch call token := by
  rw [Server.verdict, hskew, if_neg Bool.false_ne_true] at hdef ⊢
  unfold Server.normal at hdef ⊢
  dsimp only at hdef ⊢
  cases hs : hp.search token.tokenKey call.prn (hp.window call.now token).1
      (hp.config.resyncSequenceSkew + 1001) ((hp.window call.now token).1 - 500) with
  | none =>
    rw [hs] at hdef
    exact absurd rfl hdef
  | some s =>
    dsimp only
    obtain ⟨hend, hfirst⟩ := search_eq hs
    by_cases hresync : (hp.window call.now token).1 + hp.config.resyncSequenceSkew < s
    · rw [if_pos hresync]
      refine iff_of_true rfl fun s' hs' => hfirst s' ?_ ?_ hs'
      · have := hs'.2.1
        omega
      · have := hs'.2.2
        omega
    · have hmatch := hend.resolve_right fun hend => by omega
      rw [if_neg hresync]
      refine ⟨fun h => ?_, fun h => absurd hmatch (h s)⟩
      split at h <;> cases h

/-- What is accepted is an expected counter, and the first one with these digits. -/
theorem verdict_expected (h : hp.verdict call token = .ok sequence) :
    hp.Expected call token sequence ∧
      ∀ s, s < sequence → ¬ hp.Matches token.tokenKey call.prn (hp.window call.now token).1 s := by
  rw [Server.verdict, hskew, if_neg Bool.false_ne_true] at h
  unfold Server.normal at h
  dsimp only at h
  split at h
  · cases h
  next s hs =>
    split at h
    · cases h
    next hresync =>
      split at h
      · cases h
      next hmax =>
        obtain rfl := Verdict.ok.inj h
        obtain ⟨hend, hfirst⟩ := search_eq hs
        have hmatch := hend.resolve_right fun hend => by omega
        refine ⟨⟨hmatch, by omega⟩, fun s' hlt hs' => hfirst s' ?_ hlt hs'⟩
        have := hs'.2.1
        omega

/-- An accepted counter is above the stored one, and the digits are its own. -/
theorem verdict_ok (h : hp.verdict call token = .ok sequence) :
    token.tokenSequence < sequence ∧
      hp.generateHOTP token.tokenKey sequence = some call.prn := by
  obtain ⟨⟨⟨hgen, hlow, -⟩, -⟩, -⟩ := verdict_expected hskew h
  have hlt := lt_window hp token call.now
  exact ⟨by omega, hgen⟩

end

/-! ## The loop over the tokens -/

/-- The stored counters and the columns that no call writes are those of `db₀`. -/
def Unchanged (db₀ db : Db) : Prop :=
  db.tokenSequence = db₀.tokenSequence ∧ db.fixedTokens = db₀.fixedTokens

/-- The hash has its key and its counter from `db₀`. -/
def Token.Of (hp : Server) (db₀ : Db) (token : Token) : Prop :=
  token.InHand ∧ ∃ t ts, db₀.fixedTokens token.tokenId = some t ∧
    db₀.tokenSequence token.tokenId = some ts ∧
    hp.decryptKey t.tokenKey t.encryptionKeyId = some token.tokenKey ∧
    token.tokenSequence = ts.tokenSequence

theorem fetched_of (hI : Unchanged db₀ db) (h : hp.fetched db tokenId = some token) :
    token.Of hp db₀ := by
  obtain ⟨hi, t, ts, key, ht, hts, hkey, rfl⟩ := fetched_eq_some h
  refine ⟨⟨hi, rfl⟩, t.fixed, ts, ?_, hI.1 ▸ hts, hkey, rfl⟩
  rw [← hI.2]
  simp [Db.fixedTokens, viewRow, ht]

theorem putToken_unchanged {Q : Put → Prop} (htok : token.Of hp db₀) (hone : Q .one)
    (hundef : Q .undef) : (putToken hp now token).Always (Unchanged db₀) Q := by
  obtain ⟨hhand, t, ts, ht, hts, -, hseq⟩ := htok
  refine putToken_always hhand hone (fun _ _ _ => hundef) (fun _ db old hdb hv hlt => ?_)
    (fun db b u n d hdb => ⟨by simp [hdb.1], by simp [hdb.2]⟩)
  obtain ⟨t', ts', -, hts', rfl⟩ := vHotpantsToken_eq_some.mp hv
  rw [hdb.1, hts] at hts'
  obtain rfl := Option.some.inj hts'
  exact absurd hlt (by simp [viewRow, hseq])

/-- What is known of the end of a pass. -/
def Tried.Of (hp : Server) (db₀ : Db) (call : Call) (tokenIds : List ℕ) : Tried → Prop
  | .ok token sequence => token.tokenId ∈ tokenIds ∧ token.Of hp db₀ ∧
      hp.verdict call token = .ok sequence
  | .bad token => token.Of hp db₀
  | _ => True

variable {tokenIds : List ℕ} {badtokens : List Token} {P : Token → Prop}

theorem judge_of (hmem : token.tokenId ∈ tokenIds) (h : token.Of hp db₀) :
    (hp.judge call token).Of hp db₀ call tokenIds := by
  unfold Server.judge
  split
  · trivial
  · exact h
  · trivial
  next s hs => exact ⟨hmem, h, hs⟩

theorem tryToken_always (hmem : tokenId ∈ tokenIds) :
    (tryToken hp call tokenId).Always (Unchanged db₀) (Tried.Of hp db₀ call tokenIds) := by
  unfold tryToken
  split
  · exact Always.pure trivial
  refine Always.bind (fetchToken_always (fun _ => Always.pure trivial) fun db hdb => ?_)
  cases hf : hp.fetched db tokenId with
  | none => exact Always.pure trivial
  | some token =>
    have hof := fetched_of hdb hf
    have hmem' : token.tokenId ∈ tokenIds := (fetched_inHand hf).2 ▸ hmem
    show Program.Always _ _ (if _ then _ else _)
    split
    · split
      · exact Always.pure (judge_of hmem' hof)
      · exact Always.pure trivial
      · exact Always.pure trivial
      · have hun : token.unlocked.Of hp db₀ := hof
        exact Always.bind (putToken_unchanged hun (Always.pure (judge_of hmem' hun))
          (Always.pure trivial))
    · exact Always.pure trivial

/-- What is known of the end of the loop. -/
def Found.Of (hp : Server) (db₀ : Db) (call : Call) (tokenIds : List ℕ) : Found → Prop
  | .ok token sequence => token.tokenId ∈ tokenIds ∧ token.Of hp db₀ ∧
      hp.verdict call token = .ok sequence
  | .failed badtokens => ∀ token ∈ badtokens, token.Of hp db₀
  | _ => True

/-- **The loop over the tokens** leaves the counters alone, and what it finds comes from the
tables. -/
theorem tryTokens_always {rest : List ℕ} (hsub : ∀ i ∈ rest, i ∈ tokenIds)
    (hbad : ∀ token ∈ badtokens, token.Of hp db₀) :
    (tryTokens hp call rest badtokens).Always (Unchanged db₀) (Found.Of hp db₀ call tokenIds) := by
  induction rest generalizing badtokens with
  | nil => exact Always.pure hbad
  | cons tokenId rest ih =>
    have hrest : ∀ i ∈ rest, i ∈ tokenIds := fun i hi => hsub i (List.mem_cons_of_mem _ hi)
    unfold tryTokens
    refine Always.bind ((tryToken_always (hsub tokenId List.mem_cons_self)).mono fun r hr => ?_)
    cases r with
    | next => exact ih hrest hbad
    | bad token =>
      refine ih hrest fun tok htok => ?_
      rcases List.mem_append.mp htok with h | h
      · exact hbad tok h
      · obtain rfl := List.mem_singleton.mp h
        exact hr
    | ok token sequence => exact Always.pure hr
    | undef => exact Always.pure trivial
    | die => exact Always.pure trivial

/-- What is true of every hash that can be fetched, and stays so when it is unlocked. -/
def OfFetched (hp : Server) (db₀ : Db) (P : Token → Prop) : Prop :=
  (∀ db i token, Unchanged db₀ db → hp.fetched db i = some token → P token) ∧
    ∀ token, P token → P token.unlocked

theorem tryToken_hash (hP : OfFetched hp db₀ P) (tokenId : ℕ) :
    (tryToken hp call tokenId).Always (Unchanged db₀) fun r =>
      ∀ token s, r = .ok token s → P token := by
  have hjudge : ∀ token, P token → ∀ token' s, hp.judge call token = .ok token' s → P token' := by
    intro token htoken token' s h
    unfold Server.judge at h
    split at h
    · cases h
    · cases h
    · cases h
    · exact (Tried.ok.inj h).1 ▸ htoken
  unfold tryToken
  split
  · exact Always.pure fun _ _ h => by cases h
  refine Always.bind (fetchToken_always (fun _ => Always.pure fun _ _ h => by cases h)
    fun db hdb => ?_)
  cases hf : hp.fetched db tokenId with
  | none => exact Always.pure fun _ _ h => by cases h
  | some token =>
    have htoken := hP.1 db tokenId token hdb hf
    have hof := fetched_of hdb hf
    show Program.Always _ _ (if _ then _ else _)
    split
    · split
      · exact Always.pure (hjudge token htoken)
      · exact Always.pure fun _ _ h => by cases h
      · exact Always.pure fun _ _ h => by cases h
      · have hun : token.unlocked.Of hp db₀ := hof
        exact Always.bind (putToken_unchanged hun
          (Always.pure (hjudge _ (hP.2 token htoken))) (Always.pure fun _ _ h => by cases h))
    · exact Always.pure fun _ _ h => by cases h

theorem tryTokens_hash (hP : OfFetched hp db₀ P) {rest : List ℕ} :
    (tryTokens hp call rest badtokens).Always (Unchanged db₀) fun r =>
      ∀ token s, r = .ok token s → P token := by
  induction rest generalizing badtokens with
  | nil => exact Always.pure fun _ _ h => by cases h
  | cons tokenId rest ih =>
    unfold tryTokens
    refine Always.bind ((tryToken_hash hP tokenId).mono fun r hr => ?_)
    cases r with
    | next => exact ih
    | bad token => exact ih
    | ok token sequence =>
      refine Always.pure fun token' s h => ?_
      obtain ⟨rfl, rfl⟩ := Found.ok.inj h
      exact hr token sequence rfl
    | undef => exact Always.pure fun _ _ h => by cases h
    | die => exact Always.pure fun _ _ h => by cases h

theorem tryTokens_run (hp : Server) (db : Db) (call : Call) :
    Unchanged db ((tryTokens hp call call.tokens []).run db).2 ∧
      Found.Of hp db call call.tokens ((tryTokens hp call call.tokens []).run db).1 :=
  (tryTokens_always (fun _ hi => hi) fun _ h => absurd h List.not_mem_nil).run ⟨rfl, rfl⟩

theorem ofFetched_timeModulo (hp : Server) (db₀ : Db) : OfFetched hp db₀ fun token =>
    ∀ t, db₀.fixedTokens token.tokenId = some t → token.timeModulo = t.timeModulo := by
  refine ⟨fun db i token hI h t₀ ht₀ => ?_, fun token h => h⟩
  obtain ⟨-, t, ts, key, ht, -, -, rfl⟩ := fetched_eq_some h
  rw [← hI.2] at ht₀
  obtain ⟨t', ht', rfl⟩ := Option.map_eq_some_iff.mp ht₀
  obtain rfl := Option.some.inj (ht.symm.trans ht')
  rfl

theorem tryTokens_ok (h : ((tryTokens hp call call.tokens []).run db).1 = .ok token sequence) :
    token.tokenId ∈ call.tokens ∧ token.Of hp db ∧ hp.verdict call token = .ok sequence ∧
      ∀ t, db.fixedTokens token.tokenId = some t → token.timeModulo = t.timeModulo := by
  have hof := (tryTokens_run hp db call).2
  have hmodulo : ∀ token s, ((tryTokens hp call call.tokens []).run db).1 = .ok token s →
      ∀ t, db.fixedTokens token.tokenId = some t → token.timeModulo = t.timeModulo :=
    ((tryTokens_hash (ofFetched_timeModulo hp db)).run ⟨rfl, rfl⟩).2
  rw [h] at hof
  exact ⟨hof.1, hof.2.1, hof.2.2, hmodulo token sequence h⟩

theorem putBad_always (hbad : ∀ token ∈ badtokens, token.Of hp db₀) :
    (putBad hp now badtokens).Always (Unchanged db₀) fun o => ∀ i s, o ≠ .one i s := by
  induction badtokens with
  | nil => exact Always.pure fun i s => nofun
  | cons tok rest ih =>
    have hpun : (hp.punished now tok).Of hp db₀ := by
      have := hbad tok List.mem_cons_self
      unfold Server.punished
      dsimp only
      split <;> exact this
    unfold putBad
    exact Always.bind (putToken_unchanged hpun
      (ih fun token h => hbad token (List.mem_cons_of_mem _ h)) (Always.pure fun i s => nofun))

/-! ## Calls -/

/-- What the call returns. -/
def Server.outcome (hp : Server) (db : Db) (call : Call) : Outcome :=
  ((hotpAuthenticate hp call).run db).1

/-- The tables after the call. -/
def Server.after (hp : Server) (db : Db) (call : Call) : Db :=
  ((hotpAuthenticate hp call).run db).2

end JazzHands.Hotpants

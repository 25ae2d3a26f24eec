import JazzHands.Hotpants.Replay
import Mathlib.Data.List.TakeWhile

/-!
# Two servers

Two calls for one token with one password, made at two servers that share the database.  Their
statements may come in any order.
-/

namespace JazzHands.Hotpants

open Library
open Library.Program (read modify Always)

variable {hp : Server} {calls : Bool → Call} {db db₀ : Db} {w : List Bool} {tokenId i : ℕ}
  {token : Token} {call : Call} {sequence seq upd : ℤ} {b x : Bool} {t : TokenRow}
  {ts : TokenSequenceRow}

/-- The two calls before their first statements. -/
def Server.begun (hp : Server) (calls : Bool → Call) (db : Db) :
    (Bool → Program Db Outcome) × Db := (fun b => hotpAuthenticate hp (calls b), db)

/-- The two calls after the statements that the schedule gives them. -/
def Server.together (hp : Server) (calls : Bool → Call) (db : Db) (w : List Bool) :
    (Bool → Program Db Outcome) × Db := run turn (hp.begun calls db) w

/-- The tables when a call fetches the token. -/
def Server.sees (hp : Server) (calls : Bool → Call) (db : Db) (w : List Bool) (b : Bool) : Db :=
  seenBy (hp.begun calls db) w b

/-- The call has reported success. -/
def Succeeded (c : (Bool → Program Db Outcome) × Db) (b : Bool) : Prop :=
  ∃ i s, c.1 b = .ret (.one i s)

/-- Not both calls have reported success. -/
def AtMostOne (c : (Bool → Program Db Outcome) × Db) : Prop :=
  ¬ (Succeeded c false ∧ Succeeded c true)

/-! ## Success is decided at the fetch -/

theorem begins (hp : Server) (db : Db) (h : (calls b).Tries tokenId) (hotp : truthy (some (calls b).otp) = true)
    (hid : tokenId ≠ 0) : (hp.begun calls db).1 b =
      read >>= fun db => hp.handle (calls b) (hp.fetched db tokenId) :=
  hotpAuthenticate_eq h hotp hid

theorem succeeded_sees (h : (calls b).Tries tokenId)
    (hone : Succeeded (hp.together calls db w) b) :
    ∃ token s, hp.fetched (hp.sees calls db w b) tokenId = some token ∧
      hp.passes (calls b) token = true ∧ hp.verdict (calls b) token = .ok s ∧
      truthy (some (calls b).otp) = true ∧ tokenId ≠ 0 := by
  obtain ⟨i, s, ho⟩ := hone
  by_cases hidle : truthy (some (calls b).otp) = true ∧ tokenId ≠ 0
  · obtain ⟨token, hf, -, hpass, hok⟩ :=
      returned_of_look (begins hp db h hidle.1 hidle.2) handle_one ho i s rfl
    exact ⟨token, s, hf, hpass, hok, hidle⟩
  · -- the call has nothing to do, and returned something else
    have hret : (hp.begun calls db).1 b = pure .undef ∨ (hp.begun calls db).1 b = pure .zero :=
      hotpAuthenticate_idle hp h hidle
    have hall : Promises (fun _ => True) (fun j o => j = b → ∀ i s, o ≠ .one i s)
        (hp.begun calls db) := by
      refine ⟨trivial, fun j => ?_⟩
      by_cases hj : j = b
      · subst hj
        rcases hret with hret | hret <;> rw [hret] <;> exact fun _ i s => nofun
      · exact Always.of_true.mono fun o _ hjb => absurd hjb hj
    exact absurd rfl ((run_always hall w).returned ho rfl i s)

/-! ## What the first call does to the counter -/

/-- The counter is the one that the call has fetched, or the one that it accepts. -/
def FirstWrites (hp : Server) (db₀ : Db) (call : Call) (token : Token) (ts₀ : TokenSequenceRow)
    (db : Db) : Prop :=
  db.fixedTokens = db₀.fixedTokens ∧ ∃ ts, db.tokenSequence token.tokenId = some ts ∧
    (ts = ts₀ ∨ hp.verdict call token = .ok ts.tokenSequence)

theorem FirstWrites.keptBySequence {ts₀ : TokenSequenceRow} (hok : hp.verdict call token = .ok seq) :
    KeptBySequence (FirstWrites hp db₀ call token ts₀) call.now (token.accepted seq) := by
  intro _ _ _ _ _ _
  refine setSequence_always (fun db hdb => ?_) fun db hdb => ?_
  · obtain ⟨-, ts, hts, -⟩ := hdb
    simp [Token.accepted, hts]
  · refine ⟨(fixedTokens_of_token resetSequence_token).trans hdb.1, ?_⟩
    obtain ⟨-, ts, hts, hcase⟩ := hdb
    unfold Db.resetSequence
    rw [show (token.accepted seq).tokenId = token.tokenId from rfl, hts]
    dsimp only
    split
    · exact ⟨⟨seq, 1000000 * call.now⟩, by simp [Token.accepted], .inr hok⟩
    · exact ⟨ts, hts, hcase⟩

theorem handle_firstWrites (hf : hp.fetched db₀ tokenId = some token)
    (hts : db₀.tokenSequence tokenId = some ts) :
    (hp.handle call (some token)).Always (FirstWrites hp db₀ call token ts) fun _ => True := by
  obtain ⟨hid, t, ts', key, -, hts', -, rfl⟩ := fetched_eq_some hf
  obtain rfl := Option.some.inj (hts.symm.trans hts')
  refine handle_always ⟨hid, rfl⟩ (fun db b u n d hdb => ?_) (fun _ db old hdb hv hlt => ?_)
    fun s hs => FirstWrites.keptBySequence hs
  · exact ⟨by simp [hdb.1], by simpa using hdb.2⟩
  · -- the hash has the fetched counter, so nothing below it is stored
    obtain ⟨-, ts', hts', hcase⟩ := hdb
    obtain ⟨t', ts'', -, hts'', rfl⟩ := vHotpantsToken_eq_some.mp hv
    obtain rfl := Option.some.inj (hts'.symm.trans hts'')
    have hlt' : ts'.tokenSequence < ts.tokenSequence := hlt
    rcases hcase with rfl | hok
    · exact absurd hlt' (Int.lt_irrefl _)
    · have hgt : ts.tokenSequence < ts'.tokenSequence := (verdict_ok rfl hok).1
      omega

/-- The call that has its turn first sees the tables as they were. -/
theorem sees_first (hp : Server) (calls : Bool → Call) (db : Db) (x : Bool) (w : List Bool) :
    hp.sees calls db (x :: w) x = db := by
  simp [Server.sees, seenBy, Server.begun]

/-- What the other one sees: only the first call has written. -/
theorem sees_second (h : (calls x).Tries tokenId) (hotp : truthy (some (calls x).otp) = true)
    (hid : tokenId ≠ 0) (hf : hp.fetched db tokenId = some token)
    (hts : db.tokenSequence tokenId = some ts) :
    FirstWrites hp db (calls x) token ts (hp.sees calls db (x :: w) !x) := by
  have htid : token.tokenId = tokenId := (fetched_inHand hf).2
  have halone : ∀ j ∈ w.takeWhile fun j => j ≠ !x, j = x := by
    intro j hj
    simpa using List.mem_takeWhile_imp hj
  have hturn := turn_read (begins hp db h hotp hid)
  have := run_alone (c := turn (hp.begun calls db) x) (i := x)
    (I := FirstWrites hp db (calls x) token ts) (R := fun _ => True) ?_ ?_ halone
  · unfold Server.sees seenBy
    rw [List.takeWhile_cons_of_pos (by simp)]
    exact this.1
  · rw [hturn.2]
    exact ⟨rfl, ts, htid ▸ hts, .inl rfl⟩
  · rw [hturn.1]
    show (hp.handle (calls x) (hp.fetched db tokenId)).Always _ _
    rw [hf]
    exact handle_firstWrites hf hts

/-! ## At most one -/

/-- The first call has succeeded, and so has the other: then the stored counter is the same at both
fetches. -/
theorem sees_eq_of_both (hinj : hp.Injective) (htries : ∀ b, (calls b).Tries tokenId)
    (hotp : (calls x).prn = (calls !x).prn)
    (hone : Succeeded (hp.together calls db (x :: w)) x)
    (hone' : Succeeded (hp.together calls db (x :: w)) !x) :
    (hp.sees calls db (x :: w) x).tokenSequence tokenId =
      (hp.sees calls db (x :: w) !x).tokenSequence tokenId := by
  obtain ⟨token, s, hf, -, hok, htruthy, hid⟩ := succeeded_sees (htries x) hone
  obtain ⟨token', s', hf', -, hok', -, -⟩ := succeeded_sees (htries !x) hone'
  rw [sees_first] at hf ⊢
  obtain ⟨-, t, ts, key, ht, hts, hkey, rfl⟩ := fetched_eq_some hf
  obtain ⟨-, t', ts', key', ht', hts', hkey', rfl⟩ := fetched_eq_some hf'
  obtain ⟨hfix, ts'', hts'', hcase⟩ := sees_second (w := w) (htries x) htruthy hid hf hts
  obtain rfl := Option.some.inj (hts'.symm.trans hts'')
  rcases hcase with rfl | hwritten
  · rw [hts, hts']
  · -- the counter of the first call is stored, and the second call accepts a higher one
    obtain rfl := Verdict.ok.inj (hok.symm.trans hwritten)
    obtain ⟨-, hgen⟩ := verdict_ok rfl hok
    obtain ⟨hlt, hgen'⟩ := verdict_ok rfl hok'
    have hfixed : t'.fixed = t.fixed := by
      have := congrFun hfix tokenId
      simpa [Db.fixedTokens, ht, ht'] using this
    obtain rfl : key = key' :=
      Option.some.inj (hkey.symm.trans ((key_of_fixed hfixed).symm.trans hkey'))
    have := hinj key _ _ _ (hotp ▸ hgen) hgen'
    exact absurd this (Int.ne_of_lt hlt)

/-- **The counter is written between the fetches.**  Then at most one call succeeds. -/
theorem atMostOne_of_written (hinj : hp.Injective) (htries : ∀ b, (calls b).Tries tokenId)
    (hotp : (calls false).otp = (calls true).otp)
    (hwritten : (hp.sees calls db w false).tokenSequence tokenId ≠
      (hp.sees calls db w true).tokenSequence tokenId) : AtMostOne (hp.together calls db w) := by
  rintro ⟨hfalse, htrue⟩
  have hprn : (calls false).prn = (calls true).prn := by simp only [Call.prn, hotp]
  cases w with
  | nil => exact hwritten rfl
  | cons x w =>
    cases x with
    | false => exact hwritten (sees_eq_of_both hinj htries hprn hfalse htrue)
    | true => exact hwritten (sees_eq_of_both hinj htries hprn.symm htrue hfalse).symm

/-! ## Both -/

/-- The token is there, not locked, and its key can be decrypted. -/
def Open (hp : Server) (db₀ : Db) (tokenId : ℕ) (db : Db) : Prop :=
  db.fixedTokens = db₀.fixedTokens ∧ (∃ ts, db.tokenSequence tokenId = some ts) ∧
    (∃ t, db.token tokenId = some t ∧ t.isTokenLocked = false) ∧
    ∃ key, hp.HasKey db₀ tokenId key

theorem Open.fetched (h : Open hp db₀ tokenId db) (hid : tokenId ≠ 0) :
    ∃ token, hp.fetched db tokenId = some token ∧ token.isTokenLocked ≠ .Y := by
  obtain ⟨hfix, ⟨ts, hts⟩, ⟨t, ht, hlocked⟩, key, t₀, ht₀, hkey⟩ := h
  have hfixed : t.fixed = t₀ := by
    have := congrFun hfix tokenId
    rw [ht₀] at this
    simpa [Db.fixedTokens, ht] using this
  subst hfixed
  exact ⟨_, fetched_of_rows hid ht hts hkey, by simp [viewRow, hlocked]⟩

theorem authDone_always (hi : token.tokenId = tokenId) (hid : tokenId ≠ 0)
    (hlocked : token.isTokenLocked = .N) :
    (authDone hp call (.ok token sequence)).Always (Open hp db₀ tokenId)
      fun o => ∃ i s, o = .one i s := by
  subst hi
  refine Always.bind (putToken_always_flags (B := fun b => b = false) ⟨hid, rfl⟩ ?_ ?_ ?_ ?_ ?_ ?_)
  · exact Always.pure ⟨_, _, rfl⟩
  · intro db hdb hnone
    obtain ⟨token', hf, -⟩ := hdb.fetched hid
    exact absurd (hnone.symm.trans hf) nofun
  · intro _ _ _ _ _ _
    refine setSequence_always (fun db hdb => ?_) fun db hdb => ?_
    · obtain ⟨-, ⟨ts, hts⟩, -⟩ := hdb
      simp [Token.accepted, hts]
    · refine ⟨(fixedTokens_of_token resetSequence_token).trans hdb.1, ?_, ?_, hdb.2.2.2⟩
      · obtain ⟨ts, hts⟩ := hdb.2.1
        unfold Db.resetSequence
        rw [show (token.accepted sequence).tokenId = token.tokenId from rfl, hts]
        dsimp only
        split
        · exact ⟨_, Function.update_self ..⟩
        · exact ⟨ts, hts⟩
      · simpa using hdb.2.2.1
  · intro db old hdb hv
    obtain ⟨t, ts, ht, -, rfl⟩ := vHotpantsToken_eq_some.mp hv
    obtain ⟨t', ht', hl⟩ := hdb.2.2.1
    obtain rfl := Option.some.inj (ht.symm.trans ht')
    simp [viewRow, hl]
  · simp [Token.accepted, hlocked]
  · intro _ _ _ _ _ db b u d hb hdb
    obtain ⟨t, ht, -⟩ := hdb.2.2.1
    refine ⟨by simp [hdb.1], by simpa using hdb.2.1, ?_, hdb.2.2.2⟩
    rw [show (token.accepted sequence).tokenId = token.tokenId from rfl, lock_of_some ht]
    exact ⟨_, Function.update_self .., hb⟩

/-- A call that sees the same columns and the same counter comes to the same verdict. -/
theorem verdict_congr (hp : Server) (call : Call) (i : ℕ) (ts : TokenSequenceRow)
    (key : Option String) {t' : TokenRow} (hfixed : t'.fixed = t.fixed) :
    hp.passes call { viewRow i t' ts with tokenKey := key } =
        hp.passes call { viewRow i t ts with tokenKey := key } ∧
      hp.verdict call { viewRow i t' ts with tokenKey := key } =
        hp.verdict call { viewRow i t ts with tokenKey := key } := by
  obtain ⟨b, u, n, d, rfl⟩ := eq_of_fixed hfixed
  exact ⟨rfl, rfl⟩

/-- The calls would each succeed alone, on a token that is not locked. -/
def EachAlone (hp : Server) (calls : Bool → Call) (db : Db) (tokenId : ℕ) : Prop :=
  (∃ t, db.token tokenId = some t ∧ t.isTokenLocked = false) ∧
    ∀ b, ∃ i s, hp.outcome db (calls b) = .one i s

/-- Both calls have returned. -/
def Returned (c : (Bool → Program Db Outcome) × Db) : Prop := ∀ b, ∃ o, c.1 b = .ret o

/-- A call that would succeed alone, and fetches what it would have fetched alone. -/
theorem handle_of_alone (h : (calls b).Tries tokenId) (hopen : Open hp db tokenId db₀)
    (hsame : db₀.tokenSequence tokenId = db.tokenSequence tokenId)
    (halone : ∃ i s, hp.outcome db (calls b) = .one i s) :
    (hp.handle (calls b) (hp.fetched db₀ tokenId)).Always (Open hp db tokenId)
      fun o => ∃ i s, o = .one i s := by
  obtain ⟨i, s, hone⟩ := halone
  by_cases hidle : truthy (some (calls b).otp) = true ∧ tokenId ≠ 0
  · rw [outcome_eq h hidle.1 hidle.2] at hone
    obtain ⟨token, hf, -, hpass, hok⟩ := (handle_one.run trivial).2 i s hone
    obtain ⟨hid, t, ts, key, ht, hts, hkey, rfl⟩ := fetched_eq_some hf
    obtain ⟨hfix, -, ⟨t', ht', hlocked⟩, -⟩ := hopen
    have hfixed : t'.fixed = t.fixed := by
      have := congrFun hfix tokenId
      simpa [Db.fixedTokens, ht, ht'] using this
    have hcongr := verdict_congr hp (calls b) tokenId ts key hfixed
    rw [fetched_of_rows hid ht' (hsame.trans hts) ((key_of_fixed hfixed).trans hkey),
      handle_accepted (hcongr.1.trans hpass) (by simp [viewRow, hlocked]) (hcongr.2.trans hok)]
    exact authDone_always rfl hid (by simp [viewRow, hlocked])
  · rcases hotpAuthenticate_idle hp h hidle with hret | hret <;>
      rw [Server.outcome, hret] at hone <;> cases hone

theorem busy_of_alone (h : (calls b).Tries tokenId)
    (halone : ∃ i s, hp.outcome db (calls b) = .one i s) :
    truthy (some (calls b).otp) = true ∧ tokenId ≠ 0 := by
  by_contra hidle
  obtain ⟨i, s, hone⟩ := halone
  rcases hotpAuthenticate_idle hp h hidle with hret | hret <;>
    rw [Server.outcome, hret] at hone <;> cases hone

section

variable (htries : ∀ b, (calls b).Tries tokenId) (halone : EachAlone hp calls db tokenId)
include htries halone

theorem open_of_alone : Open hp db tokenId db := by
  obtain ⟨i, s, hone⟩ := halone.2 true
  obtain ⟨hotp, hid⟩ := busy_of_alone (htries true) (halone.2 true)
  rw [outcome_eq (htries true) hotp hid] at hone
  obtain ⟨token, hf, -⟩ := (handle_one.run trivial).2 i s hone
  obtain ⟨-, t, ts, key, ht, hts, hkey, -⟩ := fetched_eq_some hf
  exact ⟨rfl, ⟨ts, hts⟩, halone.1, key, t.fixed, by simp [Db.fixedTokens, ht], hkey⟩

/-- **The counter is not written between the fetches.**  Then calls that would each succeed alone
both succeed. -/
theorem both_of_unwritten (hret : Returned (hp.together calls db w))
    (hsame : (hp.sees calls db w false).tokenSequence tokenId =
      (hp.sees calls db w true).tokenSequence tokenId) (b : Bool) :
    Succeeded (hp.together calls db w) b := by
  have hbusy := fun b => busy_of_alone (htries b) (halone.2 b)
  have hbegin := fun b => begins hp db (htries b) (hbusy b).1 (hbusy b).2
  have hturns : ∀ b, b ∈ w := by
    intro b
    by_contra hb
    obtain ⟨o, ho⟩ := hret b
    rw [Server.together, run_turn_of_notMem hb, hbegin b] at ho
    cases ho
  have hopen := open_of_alone htries halone
  cases w with
  | nil => exact absurd (hturns true) (List.not_mem_nil)
  | cons x w =>
    obtain ⟨w', hw, hnot⟩ := takeWhile_split (hturns !x)
    have hsees : ∀ y, (hp.sees calls db (x :: w) y).tokenSequence tokenId =
        db.tokenSequence tokenId := by
      have hx := congrArg (fun db : Db => db.tokenSequence tokenId)
        (sees_first hp calls db x w)
      intro y
      cases x <;> cases y
      · exact hx
      · exact hsame.symm.trans hx
      · exact hsame.trans hx
      · exact hx
    -- the first call alone, up to the first turn of the other
    have hpre : (x :: w).takeWhile (fun j => j ≠ !x) =
        x :: w.takeWhile fun j => j ≠ !x := List.takeWhile_cons_of_pos (by simp)
    have hfirst := turn_read (hbegin x)
    obtain ⟨hopen', hx⟩ := run_alone (c := turn (hp.begun calls db) x) (i := x)
      (I := Open hp db tokenId) (R := fun o => ∃ i s, o = .one i s)
      (w := w.takeWhile fun j => j ≠ !x) (by rw [hfirst.2]; exact hopen)
      (by rw [hfirst.1]; exact handle_of_alone (htries x) hopen rfl (halone.2 x))
      (fun j hj => by simpa using List.mem_takeWhile_imp hj)
    rw [← run_cons, ← hpre] at hopen' hx
    -- then the look of the other
    have hlook := run_first_turn (hbegin !x) hnot
    have hall : Promises (Open hp db tokenId) (fun _ o => ∃ i s, o = .one i s)
        (run turn (hp.begun calls db) ((x :: w).takeWhile (fun j => j ≠ !x) ++ [!x])) := by
      refine ⟨by rw [hlook.2]; exact hopen', fun y => ?_⟩
      by_cases hy : y = x
      · subst hy
        rw [run_append, run_cons, run_nil, turn_of_ne (by simp)]
        exact hx
      · obtain rfl : y = !x := Bool.eq_not.mpr hy
        rw [hlook.1]
        exact handle_of_alone (htries _) hopen' (hsees !x) (halone.2 _)
    obtain ⟨o, ho⟩ := hret b
    rw [Server.together, hw, List.append_cons, run_append] at ho
    obtain ⟨i, s, rfl⟩ := (run_always hall w').returned ho
    exact ⟨i, s, by rw [Server.together, hw, List.append_cons, run_append]; exact ho⟩

end

/-- **At most one.**  If the counter is written between the two fetches, at most one call succeeds.
When the calls would each succeed alone on a token that is not locked, and both have returned, at
most one has succeeded exactly if the counter was written between the two fetches. -/
theorem atMostOne_iff (hinj : hp.Injective) (htries : ∀ b, (calls b).Tries tokenId)
    (hotp : (calls false).otp = (calls true).otp) :
    ((hp.sees calls db w false).tokenSequence tokenId ≠
      (hp.sees calls db w true).tokenSequence tokenId → AtMostOne (hp.together calls db w)) ∧
    (EachAlone hp calls db tokenId → Returned (hp.together calls db w) →
      (AtMostOne (hp.together calls db w) ↔
        (hp.sees calls db w false).tokenSequence tokenId ≠
          (hp.sees calls db w true).tokenSequence tokenId)) := by
  refine ⟨atMostOne_of_written hinj htries hotp, fun halone hret =>
    ⟨fun hone hsame => ?_, atMostOne_of_written hinj htries hotp⟩⟩
  have hboth := both_of_unwritten htries halone hret hsame
  exact hone ⟨hboth false, hboth true⟩

/-- The same login at both servers. -/
def sameLogin (_ : Bool) : Call := login 1000 "1234100002"

theorem sameLogin_tries (b : Bool) : (sameLogin b).Tries 7 := rfl

set_option maxRecDepth 4000 in
/-- One call after the other: the counter is written before the second fetch. -/
theorem atMostOne_iff_apart : AtMostOne (digitServer.together sameLogin (oneToken 0)
    (List.replicate 20 false ++ List.replicate 20 true)) :=
  (atMostOne_iff digitServer_injective sameLogin_tries rfl).1 (by decide)

set_option maxRecDepth 4000 in
/-- Both servers fetch the token before either writes it back. -/
theorem bothSucceed : (digitServer.Injective ∧ (∀ b, (sameLogin b).Tries 7) ∧
      (sameLogin false).otp = (sameLogin true).otp) ∧
    ¬ AtMostOne (digitServer.together sameLogin (oneToken 0)
      (false :: true :: (List.replicate 20 false ++ List.replicate 20 true))) := by
  refine ⟨⟨digitServer_injective, sameLogin_tries, rfl⟩, fun h => h ⟨?_, ?_⟩⟩
  · exact ⟨7, 1, Program.result_eq_some.mp (by decide)⟩
  · exact ⟨7, 1, Program.result_eq_some.mp (by decide)⟩

end JazzHands.Hotpants

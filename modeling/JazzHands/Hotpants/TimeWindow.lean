import Mathlib.Algebra.Order.Ring.Int
import JazzHands.Hotpants.Replay

/-!
# Time-based tokens

How far the counter of an accepted password lies from the time step of the call.

An accepted counter is in the window that the search starts with (`verdict_inWindow`); where this is
depends on the stored counter (`Centred`).
-/

namespace JazzHands.Hotpants

open Library
open Library.Program (Always)

variable {hp : Server} {db db₀ : Db} {token : Token} {call : Call} {calls : List Call}
  {t : TokenRow} {ts : TokenSequenceRow} {now m skew stored sequence : ℤ} {tokenId : ℕ}

/-! ## The window -/

/-- The counter from which the passwords of a time-based token are expected. -/
def Server.firstCounter (hp : Server) (now m stored : ℤ) : ℤ :=
  max (stored + 1) ((now - hp.config.timeSequenceSkew * m).tdiv m)

theorem window_of_timeModulo (h : token.timeModulo = some m) (hm : m ≠ 0) :
    hp.window now token =
      (hp.firstCounter now m token.tokenSequence, hp.config.timeSequenceSkew) := by
  unfold Server.window Server.firstCounter
  rw [h]
  dsimp only
  rw [if_pos hm]
  split
  next hle => rw [max_eq_left (by omega : _ ≤ token.tokenSequence + 1)]
  next hlt => rw [max_eq_right (by omega : token.tokenSequence + 1 ≤ _)]

/-- The counter lies within `TimeSequenceSkew` steps of the step of the clock, moved by the skew of
the token. -/
def Server.InWindow (hp : Server) (now m skew sequence : ℤ) : Prop :=
  now.tdiv m + skew - hp.config.timeSequenceSkew ≤ sequence ∧
    sequence ≤ now.tdiv m + skew + hp.config.timeSequenceSkew

/-- The window starts within `TimeSequenceSkew` steps before that step. -/
def Server.Centred (hp : Server) (now m skew stored : ℤ) : Prop :=
  now.tdiv m + skew - hp.config.timeSequenceSkew ≤ hp.firstCounter now m stored ∧
    hp.firstCounter now m stored ≤ now.tdiv m + skew

/-- Where the window starts before the stored counter moves it. -/
theorem tdiv_window (k : ℕ) (hm : 0 < m) (hnow : 0 ≤ now) :
    now.tdiv m - k ≤ (now - k * m).tdiv m ∧ (now - k * m).tdiv m ≤ now.tdiv m := by
  rw [Int.tdiv_eq_ediv_of_nonneg hnow]
  have hstep : 0 ≤ now / m := Int.ediv_nonneg hnow hm.le
  by_cases hle : k * m ≤ now
  · rw [Int.tdiv_eq_ediv_of_nonneg (by omega), Int.sub_mul_ediv_right _ _ hm.ne']
    omega
  · -- the clock is less than `k` steps old, and `int` rounds up
    have hneg : (now - k * m).tdiv m = -((k * m - now) / m) := by
      rw [show now - k * m = -(k * m - now) by omega, Int.neg_tdiv,
        Int.tdiv_eq_ediv_of_nonneg (by omega)]
    have hnonneg : 0 ≤ (k * m - now) / m := Int.ediv_nonneg (by omega) hm.le
    have hfloor : now / m * m ≤ now := Int.ediv_mul_le now hm.ne'
    have hmul : (k * m - now : ℤ) ≤ (k - now / m) * m := by
      rw [Int.sub_mul]
      omega
    have hup := Int.ediv_le_of_le_mul hm hmul
    omega

/-- Without a skew: the stored counter lies before the step of the clock. -/
theorem centred_iff_lt (hm : 0 < m) (hnow : 0 ≤ now) :
    hp.Centred now m 0 stored ↔ stored < now.tdiv m := by
  obtain ⟨hlow, hhigh⟩ := tdiv_window hp.config.timeSequenceSkew hm hnow
  unfold Server.Centred Server.firstCounter
  rw [le_max_iff, max_le_iff]
  omega

/-- An accepted counter lies in a window that starts where it should. -/
theorem verdict_inWindow (hskew : nonzero token.timeSkew = false)
    (htimed : token.timeModulo = some m) (hm : m ≠ 0)
    (hcentred : hp.Centred call.now m skew token.tokenSequence)
    (h : hp.verdict call token = .ok sequence) : hp.InWindow call.now m skew sequence := by
  obtain ⟨⟨⟨-, hlow, -⟩, hhigh⟩, -⟩ := verdict_expected hskew h
  rw [window_of_timeModulo htimed hm] at hlow hhigh
  dsimp only at hlow hhigh
  exact ⟨by have := hcentred.1; omega, by have := hcentred.2; omega⟩

/-! ## Runs of calls -/

/-- The windows of the time-based tokens of the call start where they should. -/
def Server.OnTime (hp : Server) (db : Db) (call : Call) : Prop :=
  ∀ i ∈ call.tokens, ∀ t ts m, db.token i = some t → db.tokenSequence i = some ts →
    t.timeModulo = some m → m ≠ 0 →
    hp.Centred call.now m (t.timeSkew.getD 0) ts.tokenSequence

/-- What the calls accept for time-based tokens lies in the window around the step of the call. -/
def Server.AcceptsInWindow (hp : Server) (db : Db) (calls : List Call) : Prop :=
  ∀ x ∈ hp.history db calls, ∀ i s t m, x.2 = .one i s → db.token i = some t →
    t.timeModulo = some m → m ≠ 0 → hp.InWindow x.1.now m (t.timeSkew.getD 0) s

theorem outcome_found (h : hp.outcome db call = .one tokenId sequence) :
    ∃ token, ((tryTokens hp call call.tokens []).run db).1 = .ok token sequence ∧
      token.tokenId = tokenId := by
  unfold Server.outcome hotpAuthenticate at h
  split at h
  case isFalse => cases h
  rw [Program.run_bind] at h
  obtain ⟨hI, hof⟩ := tryTokens_run hp db call
  generalize (tryTokens hp call call.tokens []).run db = r at h hI hof ⊢
  obtain ⟨found, db₁⟩ := r
  cases found with
  | undef => cases h
  | die => cases h
  | failed badtokens =>
    exact absurd h (((putBad_always hof).run hI).2 tokenId sequence)
  | ok token s =>
    have hone := (@settle_one hp call (.ok token s)).run (s := db₁) trivial
    obtain ⟨token', htok, rfl⟩ := hone.2 tokenId sequence h
    obtain ⟨rfl, rfl⟩ := Tried.ok.inj htok
    exact ⟨token, rfl, rfl⟩

theorem outcome_inWindow {t₀ : TokenRow} (hon : hp.OnTime db call)
    (h : hp.outcome db call = .one tokenId sequence) (ht₀ : db.fixedTokens tokenId = some t₀)
    (htimed : t₀.timeModulo = some m) (hm : m ≠ 0) :
    hp.InWindow call.now m (t₀.timeSkew.getD 0) sequence := by
  obtain ⟨token, hfound, rfl⟩ := outcome_found h
  obtain ⟨hmem, ⟨hhand, -, ts, -, hts, -, hseq⟩, hok, hmodulo⟩ := tryTokens_ok hfound
  obtain ⟨t, ht, rfl⟩ := Option.map_eq_some_iff.mp ht₀
  have hcentred := hon _ hmem t ts m ht hts htimed hm
  rw [← hseq] at hcentred
  exact verdict_inWindow hhand.2 ((hmodulo _ ht₀).trans htimed) hm hcentred hok

/-- **Accepted counters are in the window** in every run of calls whose windows start where they
should. -/
theorem inWindow_run (hon : AllSteps hp.after hp.OnTime db calls) :
    hp.AcceptsInWindow db calls := by
  have hrun : ∀ x ∈ hp.history db calls, ∀ i s t₀ m, x.2 = .one i s →
      db.fixedTokens i = some t₀ → t₀.timeModulo = some m → m ≠ 0 →
      hp.InWindow x.1.now m (t₀.timeSkew.getD 0) s := by
    induction calls generalizing db with
    | nil => exact fun x hx => absurd hx List.not_mem_nil
    | cons call calls ih =>
      intro x hx i s t₀ m hone ht₀ htimed hm
      rcases List.mem_cons.mp hx with rfl | hx
      · exact outcome_inWindow hon.1 hone ht₀ htimed hm
      · have hadv := after_advances hp db call
        exact ih hon.2 x hx i s t₀ m hone (hadv.1 ▸ ht₀) htimed hm
  intro x hx i s t m hone ht htimed hm
  exact hrun x hx i s t.fixed m hone (by simp [Db.fixedTokens, ht]) htimed hm

/-- Token 7 with a step of a minute. -/
def timedToken : Db where
  token i := (oneToken 0).token i |>.map fun t => { t with timeModulo := some 60 }
  tokenSequence := (oneToken 0).tokenSequence

set_option maxRecDepth 4000 in
/-- A login in the minute 100, and one in the minute 101. -/
theorem inWindow_run_two : digitServer.AcceptsInWindow timedToken
    [login 6000 "1234100200", login 6060 "1234100202"] := by
  refine inWindow_run ⟨?_, ?_, trivial⟩
  · intro i hi t ts m ht hts htimed hm
    obtain rfl := List.mem_singleton.mp hi
    obtain rfl := Option.some.inj ht
    obtain rfl := Option.some.inj hts
    obtain rfl := Option.some.inj htimed
    exact (centred_iff_lt (by decide) (by decide)).mpr (by decide)
  · intro i hi t ts m ht hts htimed hm
    obtain rfl := List.mem_singleton.mp hi
    have hrow : (digitServer.after timedToken (login 6000 "1234100200")).tokenSequence 7 =
        some ⟨100, 6000000000⟩ := by decide
    have hcols : ((digitServer.after timedToken (login 6000 "1234100200")).token 7).map
        (fun t => (t.timeModulo, t.timeSkew)) = some (some 60, none) := by decide
    rw [ht] at hcols
    obtain ⟨hmodulo, hskew⟩ := Prod.mk.inj (Option.some.inj hcols)
    obtain rfl := Option.some.inj (hrow.symm.trans hts)
    obtain rfl := Option.some.inj (htimed.symm.trans hmodulo)
    rw [hskew]
    exact (centred_iff_lt (by decide) (by decide)).mpr (by decide)

set_option maxRecDepth 4000 in
/-- Two logins in one second, with the passwords of the minutes 100 and 107. -/
theorem ahead : ¬ digitServer.AcceptsInWindow timedToken
    [login 6000 "1234100200", login 6000 "1234100214"] := by
  intro h
  let calls := [login 6000 "1234100200", login 6000 "1234100214"]
  have hone : ((digitServer.history timedToken calls)[1]?).map (·.2) = some (.one 7 107) := by
    decide
  obtain ⟨x, hx, hx'⟩ := Option.map_eq_some_iff.mp hone
  have hnow : ((digitServer.history timedToken calls)[1]?).map (·.1.now) = some 6000 := by
    decide
  rw [hx] at hnow
  have := h x (List.mem_of_getElem? hx) 7 107 _ 60 hx' rfl rfl (by decide)
  have hsecond : x.1.now = 6000 := Option.some.inj hnow
  rw [hsecond] at this
  exact absurd this.2 (by decide)

end JazzHands.Hotpants

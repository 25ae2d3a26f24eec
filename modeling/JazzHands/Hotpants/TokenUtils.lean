import Mathlib.Data.List.Nodup
import JazzHands.Library.LastWriter
import JazzHands.Postgres.Error
import JazzHands.Hotpants.Replay

/-!
# Sequences and locks that converge

`token_utils.set_sequence` with and without a reset time, and `token_utils.set_lock_status`, called
one after another for any tokens.  A call that raises an error leaves the tables as they are.
-/

namespace JazzHands.Hotpants
namespace TokenUtils

open Library Postgres

variable {db : Db} {tokenId i : ℕ} {now seq time : ℤ} {t : TokenRow} {row : TokenSequenceRow}

/-! ## The functions -/

/-- A call of `set_sequence`.  `now` is `now()` of its transaction. -/
structure SetSequence where
  tokenId : Option ℕ
  now : ℤ
  tokenSequence : ℤ
  resetTime : Option ℤ

structure SetLockStatus where
  tokenId : Option ℕ
  lockStatus : Bool
  unlockTime : Option ℤ
  badLogins : Option ℤ
  lastUpdated : ℤ
  deriving DecidableEq

/-- The `UPDATE` of `set_sequence` without a reset time. -/
def raiseSequence (db : Db) (tokenId : ℕ) (tokenSequence now : ℤ) : Db :=
  match db.tokenSequence tokenId with
  | none => db
  | some cur =>
    if cur.tokenSequence < tokenSequence then db.putSequence tokenId ⟨tokenSequence, now⟩ else db

def setSequence (db : Db) (c : SetSequence) : Result Db :=
  match c.tokenId with
  | none => raise .invalidParameterValue "Invalid token %"
  | some tokenId =>
    match db.tokenSequence tokenId with
    | none =>
      match c.resetTime with
      | none => raise .notNullViolation "null value in column last_updated"
      | some resetTime => .ok (db.putSequence tokenId ⟨c.tokenSequence, resetTime⟩)
    | some _ =>
      match c.resetTime with
      | none => .ok (raiseSequence db tokenId c.tokenSequence c.now)
      | some resetTime => .ok (db.resetSequence tokenId c.tokenSequence resetTime)

def setLockStatus (db : Db) (c : SetLockStatus) : Result Db :=
  match c.tokenId with
  | none => raise .invalidParameterValue "Invalid token %"
  | some tokenId =>
    match db.token tokenId with
    | none => .ok db
    | some cur =>
      .ok (if cur.lastUpdated < c.lastUpdated then
        db.lock tokenId c.lockStatus c.unlockTime c.badLogins c.lastUpdated else db)

/-! ## Runs of calls -/

inductive Call where
  | setSequence (c : SetSequence)
  | setLockStatus (c : SetLockStatus)

def call (db : Db) : Call → Result Db
  | .setSequence c => setSequence db c
  | .setLockStatus c => setLockStatus db c

def step (db : Db) (c : Call) : Db :=
  match call db c with
  | .ok db' => db'
  | .error _ => db

/-- The call, if it is one of `set_sequence` for the token. -/
def Call.sequenceOf (tokenId : ℕ) : Call → Option SetSequence
  | .setSequence c => if c.tokenId = some tokenId then some c else none
  | .setLockStatus _ => none

/-- The call, if it is one of `set_lock_status` for the token. -/
def Call.lockOf (tokenId : ℕ) : Call → Option SetLockStatus
  | .setSequence _ => none
  | .setLockStatus c => if c.tokenId = some tokenId then some c else none

theorem sequenceOf_eq_some {c : Call} {s : SetSequence} :
    c.sequenceOf i = some s ↔ c = .setSequence s ∧ s.tokenId = some i := by
  cases c with
  | setSequence c =>
    simp only [Call.sequenceOf, Option.ite_none_right_eq_some, Option.some.injEq,
      Call.setSequence.injEq]
    constructor
    · rintro ⟨h, rfl⟩
      exact ⟨rfl, h⟩
    · rintro ⟨rfl, h⟩
      exact ⟨h, rfl⟩
  | setLockStatus c => simp [Call.sequenceOf]

variable {l c : SetLockStatus} {db' : Db} {calls : List Call}
  {s : Stamped ℤ (Bool × Option ℤ × Option ℤ)}

theorem lockOf_eq_some {c : Call} :
    c.lockOf i = some l ↔ c = .setLockStatus l ∧ l.tokenId = some i := by
  cases c with
  | setSequence c => simp [Call.lockOf]
  | setLockStatus c =>
    simp only [Call.lockOf, Option.ite_none_right_eq_some, Option.some.injEq,
      Call.setLockStatus.injEq]
    constructor
    · rintro ⟨h, rfl⟩
      exact ⟨rfl, h⟩
    · rintro ⟨rfl, h⟩
      exact ⟨h, rfl⟩

/-! ## Sequences -/

@[simp] theorem raiseSequence_token : (raiseSequence db i seq now).token = db.token := by
  unfold raiseSequence
  split
  · rfl
  · split <;> rfl

theorem setSequence_token {c : SetSequence} (h : setSequence db c = .ok db') :
    db'.token = db.token := by
  unfold setSequence at h
  split at h
  · exact absurd h raise_ne_ok
  · split at h
    · split at h
      · exact absurd h raise_ne_ok
      · cases h
        rfl
    · split at h
      · cases h
        exact raiseSequence_token
      · cases h
        exact resetSequence_token

theorem setLockStatus_tokenSequence (h : setLockStatus db c = .ok db')
    : db'.tokenSequence = db.tokenSequence := by
  unfold setLockStatus at h
  split at h
  · exact absurd h raise_ne_ok
  · split at h
    · cases h
      rfl
    · cases h
      split
      · exact lock_tokenSequence
      · rfl

theorem raiseSequence_of_some (h : db.tokenSequence i = some row) :
    (raiseSequence db i seq now).tokenSequence i =
      some (if row.tokenSequence < seq then ⟨seq, now⟩ else row) := by
  unfold raiseSequence
  rw [h]
  by_cases hlt : row.tokenSequence < seq
  · simp [hlt]
  · simp [hlt, h]

theorem raiseSequence_of_ne (h : i ≠ tokenId) :
    (raiseSequence db tokenId seq now).tokenSequence i = db.tokenSequence i := by
  unfold raiseSequence
  split
  · rfl
  · split
    · exact Function.update_of_ne h _ _
    · rfl

theorem setSequence_of_ne {c : SetSequence} (h : setSequence db c = .ok db')
    (hne : c.tokenId ≠ some i) : db'.tokenSequence i = db.tokenSequence i := by
  unfold setSequence at h
  split at h
  · exact absurd h raise_ne_ok
  next j hj =>
    have hij : i ≠ j := fun heq => hne (heq ▸ hj)
    split at h
    · split at h
      · exact absurd h raise_ne_ok
      · cases h
        exact Function.update_of_ne hij _ _
    · split at h
      · cases h
        exact raiseSequence_of_ne hij
      · cases h
        exact resetSequence_of_ne hij

/-- The row of a token keeps its value, or gets that of the call with one of its two times. -/
theorem setSequence_row {c : SetSequence} (h : setSequence db c = .ok db') (hi : c.tokenId = some i)
    : db'.tokenSequence i = db.tokenSequence i ∨
      ∃ u, db'.tokenSequence i = some ⟨c.tokenSequence, u⟩ ∧
        (u = c.now ∨ c.resetTime = some u) := by
  unfold setSequence at h
  rw [hi] at h
  dsimp only at h
  split at h
  · split at h
    · exact absurd h raise_ne_ok
    next u hu =>
      cases h
      exact .inr ⟨u, by simp, .inr hu⟩
  next row hrow =>
    split at h
    · cases h
      rw [raiseSequence_of_some hrow, hrow]
      split
      · exact .inr ⟨_, rfl, .inl rfl⟩
      · exact .inl rfl
    next u hu =>
      cases h
      rw [resetSequence_of_some hrow, hrow]
      split
      · exact .inr ⟨u, rfl, .inr hu⟩
      · exact .inl rfl

/-- No `last_updated` of the row lies after `time`. -/
def UpTo (tokenId : ℕ) (time : ℤ) (db : Db) : Prop :=
  ∀ row, db.tokenSequence tokenId = some row → row.lastUpdated ≤ time

/-- The clock and the reset time of the call lie before `time`. -/
def SetSequence.Before (time : ℤ) (c : SetSequence) : Prop :=
  c.now < time ∧ ∀ r, c.resetTime = some r → r < time

theorem step_upTo {c : Call} (hdb : UpTo i time db)
    (hc : ∀ s, c.sequenceOf i = some s → s.Before time) : UpTo i time (step db c) := by
  unfold step
  split
  next db' h =>
    intro row hrow
    cases c with
    | setLockStatus c =>
      rw [setLockStatus_tokenSequence h] at hrow
      exact hdb row hrow
    | setSequence c =>
      by_cases hi : c.tokenId = some i
      · have hbefore := hc c (sequenceOf_eq_some.mpr ⟨rfl, hi⟩)
        rcases setSequence_row h hi with heq | ⟨u, heq, hu⟩
        · rw [heq] at hrow
          exact hdb row hrow
        · obtain rfl := Option.some.inj (heq.symm.trans hrow)
          rcases hu with rfl | hu
          · exact hbefore.1.le
          · exact (hbefore.2 u hu).le
      · rw [setSequence_of_ne h hi] at hrow
        exact hdb row hrow
  · exact hdb

/-- After calls whose times lie before `time`, the row is not later either. -/
theorem run_upTo (hdb : UpTo i time db)
    (hc : ∀ c ∈ calls, ∀ s, c.sequenceOf i = some s → s.Before time) :
    UpTo i time (run step db calls) :=
  run_invariant (fun _ _ hs hp => step_upTo hs hp) hdb (allSteps_of_forall hc)

theorem step_noReset (hrow : db.tokenSequence i = some row) :
    ((step db (.setSequence ⟨some i, now, seq, none⟩)).tokenSequence i).map (·.tokenSequence) =
      some (max row.tokenSequence seq) := by
  have h : call db (.setSequence ⟨some i, now, seq, none⟩) =
      .ok (raiseSequence db i seq now) := by
    simp [call, setSequence, hrow]
  unfold step
  rw [h]
  dsimp only
  rw [raiseSequence_of_some hrow]
  split
  next hlt => exact congrArg some (max_eq_right hlt.le).symm
  next hge => exact congrArg some (max_eq_left (not_lt.mp hge)).symm

theorem step_reset (hdb : UpTo i time db) :
    (step db (.setSequence ⟨some i, now, seq, some time⟩)).tokenSequence i = some ⟨seq, time⟩ := by
  cases hrow : db.tokenSequence i with
  | none => simp [step, call, setSequence, hrow]
  | some row =>
    have h : call db (.setSequence ⟨some i, now, seq, some time⟩) =
        .ok (db.resetSequence i seq time) := by
      simp [call, setSequence, hrow]
    unfold step
    rw [h]
    dsimp only
    rw [resetSequence_of_some hrow, if_pos (hdb row hrow)]

/-! ## Locks -/

/-- The lock of a token, stamped with its `last_updated`. -/
def lockStamp (t : TokenRow) : Stamped ℤ (Bool × Option ℤ × Option ℤ) :=
  ⟨t.lastUpdated, t.isTokenLocked, t.tokenUnlockTime, t.badLogins⟩

/-- The write that a call of `set_lock_status` makes. -/
def SetLockStatus.stamp (c : SetLockStatus) : Stamped ℤ (Bool × Option ℤ × Option ℤ) :=
  ⟨c.lastUpdated, c.lockStatus, c.unlockTime, c.badLogins⟩

def withLock (t : TokenRow) (s : Stamped ℤ (Bool × Option ℤ × Option ℤ)) : TokenRow :=
  { t with
    isTokenLocked := s.value.1
    tokenUnlockTime := s.value.2.1
    badLogins := s.value.2.2
    lastUpdated := s.stamp }

@[simp] theorem withLock_lockStamp : withLock t (lockStamp t) = t := rfl

@[simp] theorem lockStamp_withLock :
    lockStamp (withLock t s) = s := rfl

@[simp] theorem withLock_withLock {s' : Stamped ℤ (Bool × Option ℤ × Option ℤ)} :
    withLock (withLock t s) s' = withLock t s' := rfl

theorem setLockStatus_of_some (hi : c.tokenId = some i) (ht : db.token i = some t)
    : ∃ db', setLockStatus db c = .ok db' ∧
      db'.token i = some (withLock t ((lockStamp t).put c.stamp)) := by
  unfold setLockStatus
  rw [hi]
  dsimp only
  rw [ht]
  refine ⟨_, rfl, ?_⟩
  by_cases hlt : t.lastUpdated < c.lastUpdated
  · rw [if_pos hlt, lock_of_some ht, put_of_lt (by exact hlt)]
    exact Function.update_self ..
  · rw [if_neg hlt, put_of_le (by exact not_lt.mp hlt)]
    exact ht

theorem setLockStatus_of_ne (h : setLockStatus db c = .ok db') (hne : c.tokenId ≠ some i)
    : db'.token i = db.token i := by
  unfold setLockStatus at h
  split at h
  · exact absurd h raise_ne_ok
  next j hj =>
    have hij : i ≠ j := fun heq => hne (heq ▸ hj)
    split at h
    · cases h
      rfl
    next cur hcur =>
      cases h
      split
      · rw [lock_of_some hcur]
        exact Function.update_of_ne hij _ _
      · rfl

theorem step_lock {c : Call} (hc : c.lockOf i = some l) (ht : db.token i = some t) :
    (step db c).token i = some (withLock t ((lockStamp t).put l.stamp)) := by
  obtain ⟨rfl, hi⟩ := lockOf_eq_some.mp hc
  obtain ⟨db', hdb', htoken⟩ := setLockStatus_of_some hi ht
  have hcall : call db (.setLockStatus l) = .ok db' := hdb'
  unfold step
  rw [hcall]
  exact htoken

theorem step_noLock {c : Call} (hc : c.lockOf i = none) :
    (step db c).token i = db.token i := by
  unfold step
  split
  next db' h =>
    cases c with
    | setSequence c => rw [setSequence_token h]
    | setLockStatus c =>
      refine setLockStatus_of_ne h fun hi => ?_
      simp [Call.lockOf, hi] at hc
  · rfl

/-- **The lock of a token is a register in which the latest write wins.** -/
theorem run_lock (ht : db.token i = some t) :
    (run step db calls).token i = some (withLock t
      (((calls.filterMap (Call.lockOf i)).map SetLockStatus.stamp).foldl Stamped.put
        (lockStamp t))) := by
  induction calls generalizing db t with
  | nil => exact ht
  | cons c calls ih =>
    rw [run_cons]
    cases hc : c.lockOf i with
    | none =>
      rw [List.filterMap_cons_none hc]
      exact ih ((step_noLock hc).trans ht)
    | some l =>
      rw [List.filterMap_cons_some hc, ih (step_lock hc ht)]
      simp

/-- Of calls with distinct times the latest one remains, in whatever order they arrive. -/
theorem run_lock_latest {calls' : List Call} {last : SetLockStatus} (ht : db.token i = some t)
    (hdistinct : ((calls.filterMap (Call.lockOf i)).map (·.lastUpdated)).Nodup)
    (hmem : last ∈ calls.filterMap (Call.lockOf i))
    (hlast : ∀ l ∈ calls.filterMap (Call.lockOf i), l.lastUpdated ≤ last.lastUpdated)
    (hlater : t.lastUpdated < last.lastUpdated) (hperm : calls'.Perm calls) :
    (run step db calls').token i = some (withLock t last.stamp) := by
  have hlocks := hperm.filterMap (Call.lockOf i)
  rw [run_lock ht, foldl_put_of_latest (w := last.stamp)]
  · exact List.mem_map_of_mem (hlocks.mem_iff.mpr hmem)
  · intro v hv hne
    obtain ⟨l, hl, rfl⟩ := List.mem_map.mp hv
    have hl' := hlocks.mem_iff.mp hl
    refine lt_of_le_of_ne (hlast l hl') fun heq => hne ?_
    rw [List.inj_on_of_nodup_map hdistinct hl' hmem heq]
  · exact hlater

/-! ## Convergence -/

/-- **What runs of calls leave.**  Whatever came before, a call without a reset time leaves the
greater of the stored sequence and its own; a reset that is later than all times before it leaves
its own; and of the locks that are set the latest one remains, if it is later than the first. -/
theorem tokenUtils_converge (db : Db) (tokenId : ℕ) (calls : List Call) :
    (∀ row now seq, (run step db calls).tokenSequence tokenId = some row →
      ((step (run step db calls)
        (.setSequence ⟨some tokenId, now, seq, none⟩)).tokenSequence tokenId).map
          (·.tokenSequence) = some (max row.tokenSequence seq)) ∧
    (∀ now seq time, UpTo tokenId time db →
      (∀ c ∈ calls, ∀ s, c.sequenceOf tokenId = some s → s.Before time) →
      ((step (run step db calls)
        (.setSequence ⟨some tokenId, now, seq, some time⟩)).tokenSequence tokenId).map
          (·.tokenSequence) = some seq) ∧
    (∀ t last, db.token tokenId = some t →
      ((calls.filterMap (Call.lockOf tokenId)).map (·.lastUpdated)).Nodup →
      last ∈ calls.filterMap (Call.lockOf tokenId) →
      (∀ l ∈ calls.filterMap (Call.lockOf tokenId), l.lastUpdated ≤ last.lastUpdated) →
      t.lastUpdated < last.lastUpdated →
      ∀ calls', calls'.Perm calls →
        (run step db calls').token tokenId = some
          { t with
            isTokenLocked := last.lockStatus
            tokenUnlockTime := last.unlockTime
            badLogins := last.badLogins
            lastUpdated := last.lastUpdated }) := by
  refine ⟨fun row now seq hrow => step_noReset hrow, fun now seq time hdb hbefore => ?_,
    fun t last ht hdistinct hmem hlast hlater calls' hperm => ?_⟩
  · rw [step_reset (run_upTo hdb hbefore)]
    rfl
  · exact run_lock_latest ht hdistinct hmem hlast hlater hperm

/-- A lock that is taken off later, and the two calls in the other order. -/
theorem tokenUtils_converge_unlock :
    let calls : List Call := [.setLockStatus ⟨some 7, true, some 9, some 6, 5⟩,
      .setLockStatus ⟨some 7, false, none, some 0, 8⟩]
    ((run step (oneToken 0) calls.reverse).token 7).map (·.isTokenLocked) = some false ∧
      ((step (run step (oneToken 3) calls)
        (.setSequence ⟨some 7, 4, 2, some 4⟩)).tokenSequence 7).map (·.tokenSequence) = some 2 := by
  intro calls
  obtain ⟨-, hreset, -⟩ := tokenUtils_converge (oneToken 3) 7 calls
  obtain ⟨-, -, hlock⟩ := tokenUtils_converge (oneToken 0) 7 calls
  constructor
  · rw [hlock _ ⟨some 7, false, none, some 0, 8⟩ rfl (by decide) (by decide) (by decide)
      (by decide) _ (List.reverse_perm calls)]
    rfl
  · refine hreset 4 2 4 ?_ (by simp [calls, Call.sequenceOf])
    intro row hrow
    obtain rfl := Option.some.inj hrow
    decide

/-- A reset that is later than all calls, but not later than the stored time. -/
theorem reset_refused :
    ((step (run step (oneToken 3) []) (.setSequence ⟨some 7, 1, 5, some 2⟩)).tokenSequence 7).map
      (·.tokenSequence) ≠ some 5 := by
  decide

end TokenUtils
end JazzHands.Hotpants

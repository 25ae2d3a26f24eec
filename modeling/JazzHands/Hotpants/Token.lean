import Mathlib.Data.Int.Basic
import JazzHands.Library.Program

/-!
# One-time password tokens

`HOTPAuthenticate`, `fetch_token` and `put_token` of `HOTPants.pm`, the view `v_hotpants_token`
with its trigger, and the functions `set_sequence` and `set_lock_status` of `token_utils`.  Every
SQL statement is one atomic step of a `Program` over the two tables, so that calls of several
servers can be interleaved statement by statement.

The clock of a server counts seconds, and stands still during one call.  The tables keep
microseconds, and the sessions run in UTC.  Messages and debug output are left out.
-/

namespace JazzHands.Hotpants

open Library
open Library.Program (read modify)

/-! ## The tables -/

structure TokenRow where
  tokenType : String
  timeModulo : Option ℤ
  timeSkew : Option ℤ
  tokenKey : Option String
  encryptionKeyId : Option ℕ
  tokenPassword : Option String
  isTokenLocked : Bool
  tokenUnlockTime : Option ℤ
  badLogins : Option ℤ
  lastUpdated : ℤ

structure TokenSequenceRow where
  tokenSequence : ℤ
  lastUpdated : ℤ
  deriving DecidableEq

/-- The two tables, by `token_id`. -/
structure Db where
  token : ℕ → Option TokenRow
  tokenSequence : ℕ → Option TokenSequenceRow

def Db.putSequence (db : Db) (tokenId : ℕ) (row : TokenSequenceRow) : Db :=
  { db with tokenSequence := Function.update db.tokenSequence tokenId (some row) }

def Db.putToken (db : Db) (tokenId : ℕ) (row : TokenRow) : Db :=
  { db with token := Function.update db.token tokenId (some row) }

/-- A timestamp as text.  The database shows it with its zone, `strftime` writes none. -/
structure TimeText where
  time : ℤ
  zone : Bool
  deriving DecidableEq

def strftime (t : ℤ) : TimeText := ⟨1000000 * t, false⟩

/-- A timestamp that is read from the database. -/
def shown (t : ℤ) : TimeText := ⟨t, true⟩

/-- What `is_token_locked` can be in the hash: `'Y'` and `'N'` from the view, 1 from a lockout. -/
inductive LockFlag where
  | Y
  | N
  | one
  deriving DecidableEq

/-- A row of `v_hotpants_token`, and the hash that a server keeps of it. -/
structure Token where
  tokenId : ℕ
  tokenType : String
  timeModulo : Option ℤ
  timeSkew : Option ℤ
  tokenKey : Option String
  encryptionKeyId : Option ℕ
  tokenPassword : Option String
  isTokenLocked : LockFlag
  tokenUnlockTime : Option TimeText
  badLogins : Option ℤ
  tokenSequence : ℤ
  lastUpdated : TimeText

/-- The row of the view.  It has no column `time_skew`, and its `last_updated` is that of
`token_sequence`. -/
def viewRow (tokenId : ℕ) (t : TokenRow) (ts : TokenSequenceRow) : Token where
  tokenId := tokenId
  tokenType := t.tokenType
  timeModulo := t.timeModulo
  timeSkew := none
  tokenKey := t.tokenKey
  encryptionKeyId := t.encryptionKeyId
  tokenPassword := t.tokenPassword
  isTokenLocked := if t.isTokenLocked then .Y else .N
  tokenUnlockTime := t.tokenUnlockTime.map shown
  badLogins := t.badLogins
  tokenSequence := ts.tokenSequence
  lastUpdated := shown ts.lastUpdated

def Db.vHotpantsToken (db : Db) (tokenId : ℕ) : Option Token :=
  match db.token tokenId, db.tokenSequence tokenId with
  | some t, some ts => some (viewRow tokenId t ts)
  | _, _ => none

/-! ## The functions of the database -/

/-- The `UPDATE` of `set_sequence`. -/
def Db.resetSequence (db : Db) (tokenId : ℕ) (tokenSequence resetTime : ℤ) : Db :=
  match db.tokenSequence tokenId with
  | none => db
  | some cur =>
    if cur.lastUpdated ≤ resetTime then db.putSequence tokenId ⟨tokenSequence, resetTime⟩ else db

/-- `token_utils.set_sequence`.  The trigger passes `last_updated`, which is never NULL, so the
branch for a reset time of NULL is not taken. -/
def setSequence (tokenId : ℕ) (tokenSequence resetTime : ℤ) : Program Db Unit := do
  let db ← read
  match db.tokenSequence tokenId with
  | none => modify fun db => db.putSequence tokenId ⟨tokenSequence, resetTime⟩
  | some _ => modify fun db => db.resetSequence tokenId tokenSequence resetTime

/-- The `UPDATE` of `set_lock_status`. -/
def Db.lock (db : Db) (tokenId : ℕ) (lockStatus : Bool) (unlockTime : Option ℤ)
    (badLogins : Option ℤ) (lastUpdated : ℤ) : Db :=
  match db.token tokenId with
  | none => db
  | some t => db.putToken tokenId
      { t with
        isTokenLocked := lockStatus
        tokenUnlockTime := unlockTime
        badLogins := badLogins
        lastUpdated := lastUpdated }

def setLockStatus (tokenId : ℕ) (lockStatus : Bool) (unlockTime : Option ℤ)
    (badLogins : Option ℤ) (lastUpdated : ℤ) : Program Db Unit := do
  let db ← read
  match db.token tokenId with
  | none => pure ()
  | some cur =>
    if cur.lastUpdated < lastUpdated then
      modify fun db => db.lock tokenId lockStatus unlockTime badLogins lastUpdated
    else pure ()

/-- The trigger `v_hotpants_token_upd`. -/
def vHotpantsTokenUpd (old new : Token) : Program Db Unit := do
  (if old.tokenSequence ≠ new.tokenSequence then
    setSequence new.tokenId new.tokenSequence new.lastUpdated.time
  else pure ())
  (if old.badLogins ≠ new.badLogins then
    setLockStatus new.tokenId (new.isTokenLocked = .Y) (new.tokenUnlockTime.map (·.time))
      new.badLogins new.lastUpdated.time
  else pure ())

/-- `UPDATE v_hotpants_token` of one token: the rows that `cond` picks go through the trigger. -/
def updateView (tokenId : ℕ) (cond : Token → Bool) (set : Token → Token) : Program Db Unit := do
  let db ← read
  match db.vHotpantsToken tokenId with
  | none => pure ()
  | some old => if cond old then vHotpantsTokenUpd old (set old) else pure ()

/-! ## The server -/

/-- `%__HOTPANTS_CONFIG_PARAMS`. -/
structure Config where
  timeSequenceSkew : ℕ := 6
  sequenceSkew : ℕ := 7
  resyncSequenceSkew : ℕ := 100
  badAuthsBeforeLockout : ℕ := 6
  badAuthLockoutTime : ℕ := 1800

/-- What a server runs with.  `decryptKey` is what the encryption map makes of a stored key, none
where `fetch_token` gives up; `generateHOTP` gives six digits, none for undef. -/
structure Server where
  config : Config
  decryptKey : Option String → Option ℕ → Option (Option String)
  bcrypt : String → String → String
  generateHOTP : Option String → ℤ → Option String

/-- Truth of a string in Perl. -/
def truthy (s : Option String) : Bool := s ≠ none ∧ s ≠ some "" ∧ s ≠ some "0"

/-- Truth of an integer in Perl. -/
def nonzero (n : Option ℤ) : Bool := n ≠ none ∧ n ≠ some 0

variable (hp : Server)

/-- The row with its key decrypted. -/
def Server.decrypted (hr : Token) : Option Token :=
  (hp.decryptKey hr.tokenKey hr.encryptionKeyId).map fun key => { hr with tokenKey := key }

def fetchToken (tokenId : ℕ) : Program Db (Option Token) :=
  if tokenId = 0 then pure none
  else do
    let db ← read
    pure ((db.vHotpantsToken tokenId).bind hp.decrypted)

/-- A key of `hash_table_diff`: it is there when the values differ. -/
def diffKey {α : Type} [DecidableEq α] (a b : α) : Option α := if a = b then none else some b

/-- The hash that `hash_table_diff` makes of the token in the database and the new values. -/
structure Diff where
  tokenUnlockTime : Option (Option TimeText)
  badLogins : Option (Option ℤ)
  lastUpdated : Option TimeText
  isTokenLocked : Option LockFlag

def hashTableDiff (dbtok new : Token) : Diff where
  tokenUnlockTime := diffKey dbtok.tokenUnlockTime new.tokenUnlockTime
  badLogins := diffKey dbtok.badLogins new.badLogins
  lastUpdated := diffKey dbtok.lastUpdated new.lastUpdated
  isTokenLocked := diffKey dbtok.isTokenLocked new.isTokenLocked

/-- The `SET` list that is made of the keys of the hash. -/
def Diff.set (diff : Diff) (old : Token) : Token :=
  { old with
    tokenUnlockTime := diff.tokenUnlockTime.getD old.tokenUnlockTime
    badLogins := diff.badLogins.getD old.badLogins
    lastUpdated := diff.lastUpdated.getD old.lastUpdated
    isTokenLocked := diff.isTokenLocked.getD old.isTokenLocked }

/-- What `put_token` ends with: 1, undef, or a Perl exception. -/
inductive Put where
  | one
  | undef
  | die

/-- `put_token`, the part that writes `token_sequence`. -/
def putTokenSequence (now : ℤ) (token : Token) : Program Db Unit :=
  if token.tokenSequence ≠ 0 then
    updateView token.tokenId (fun old => old.tokenSequence < token.tokenSequence) fun old =>
      { old with
        tokenSequence := token.tokenSequence
        lastUpdated := strftime now
        badLogins := token.badLogins }
  else pure ()

/-- `put_token`, the part that writes the lock.  `'Y'`, `'N'` and 1 are all true, so it is always
reached.  Without `last_updated` in the hash the statement has a placeholder that nothing is bound
to, and fails. -/
def putTokenLock (now : ℤ) (token : Token) : Program Db Put := do
  match ← fetchToken hp token.tokenId with
  | none => pure .undef
  | some dbtok =>
    let islocked := if token.isTokenLocked ≠ .N then .Y else .N
    let new := { token with lastUpdated := strftime now, isTokenLocked := islocked }
    let diff := hashTableDiff dbtok new
    match diff.lastUpdated with
    | none => pure .undef
    | some lastUpdated => do
      updateView token.tokenId (fun old => old.lastUpdated.time ≤ lastUpdated.time) diff.set
      pure .one

/-- `put_token`.  A time skew dies in `$dbh->prepare - cached(...)`. -/
def putToken (now : ℤ) (token : Token) : Program Db Put :=
  if token.tokenId = 0 then pure .undef
  else if nonzero token.timeSkew then pure .die
  else do
    putTokenSequence now token
    putTokenLock hp now token

/-! ## `HOTPAuthenticate` -/

/-- A call: when it is made, its options, and the tokens of the user. -/
structure Call where
  now : ℤ
  method : Option String
  otp : String
  tokens : List ℕ
  tokenId : Option ℕ

def otplen : ℕ := 6

/-- `!$method || $method ne 'oath-only'`. -/
def Call.pinNeeded (call : Call) : Bool := call.method ≠ some "oath-only"

def Call.pin (call : Call) : String :=
  String.ofList (call.otp.toList.take (call.otp.length - otplen))

def Call.prn (call : Call) : String :=
  String.ofList (call.otp.toList.drop (call.otp.length - otplen))

/-- The `token_id` option names another token. -/
def Call.skips (call : Call) (tokenId : ℕ) : Bool :=
  match call.tokenId with
  | none => false
  | some wanttoken => wanttoken ≠ 0 ∧ tokenId ≠ wanttoken

/-- The PIN is the token's. -/
def Server.pinRight (call : Call) (token : Token) : Bool :=
  match token.tokenPassword with
  | none => false
  | some password => password = hp.bcrypt call.pin password

/-- The tests that lead to `next` before the lock is looked at. -/
def Server.passes (call : Call) (token : Token) : Bool :=
  (call.pinNeeded → truthy token.tokenPassword) ∧ truthy (some token.tokenType) ∧
    otplen ≤ call.otp.length ∧ (call.pinNeeded → hp.pinRight call token)

/-- What the lock says. -/
inductive LockCheck where
  | unlocked
  | expired
  | locked
  | unreadable
  deriving DecidableEq

/-- The check of the lock.  An unlock time that is not there cannot be parsed. -/
def lockCheck (now : ℤ) (token : Token) : LockCheck :=
  if token.isTokenLocked ≠ .Y then .unlocked
  else
    match token.tokenUnlockTime with
    | none => .unreadable
    | some t =>
      let unlockwhence := t.time / 1000000
      if unlockwhence ≠ 0 ∧ unlockwhence ≤ now then .expired else .locked

/-- The loop over the counters from `sequence` on, at most `n` of them.  It ends at a match between
`initialseq` and `initialseq + ResyncSequenceSkew`; undef is none. -/
def Server.search (key : Option String) (prn : String) (initialseq : ℤ) : ℕ → ℤ → Option ℤ
  | 0, sequence => some sequence
  | n + 1, sequence =>
    match hp.generateHOTP key sequence with
    | none => none
    | some checkprn =>
      if initialseq ≤ sequence ∧ sequence ≤ initialseq + hp.config.resyncSequenceSkew ∧
          prn = checkprn then some sequence
      else Server.search key prn initialseq n (sequence + 1)

/-- `$initialseq` and `$maxskew`.  `int` rounds to zero. -/
def Server.window (now : ℤ) (token : Token) : ℤ × ℕ :=
  match token.timeModulo with
  | some m =>
    if m ≠ 0 then
      let initialseq := (now - hp.config.timeSequenceSkew * m).tdiv m
      (if initialseq ≤ token.tokenSequence then token.tokenSequence + 1 else initialseq,
        hp.config.timeSequenceSkew)
    else (token.tokenSequence + 1, hp.config.sequenceSkew)
  | none => (token.tokenSequence + 1, hp.config.sequenceSkew)

/-- What becomes of a token that is not locked. -/
inductive Verdict where
  | undef
  | bad
  | skewed
  | ok (sequence : ℤ)

/-- The search around the expected counter. -/
def Server.normal (call : Call) (token : Token) : Verdict :=
  let initialseq := (hp.window call.now token).1
  let maxskew := (hp.window call.now token).2
  match hp.search token.tokenKey call.prn initialseq (hp.config.resyncSequenceSkew + 1001)
      (initialseq - 500) with
  | none => .undef
  | some sequence =>
    if initialseq + hp.config.resyncSequenceSkew < sequence then .bad
    else if initialseq + maxskew < sequence then .skewed
    else .ok sequence

/-- The resynchronisation counter first, then the search. -/
def Server.verdict (call : Call) (token : Token) : Verdict :=
  if nonzero token.timeSkew then
    let sequence := token.timeSkew.getD 0 + 1
    match hp.generateHOTP token.tokenKey sequence with
    | none => .undef
    | some checkprn => if call.prn = checkprn then .ok sequence else hp.normal call token
  else hp.normal call token

/-- How one pass of the loop over the tokens ends. -/
inductive Tried where
  | next
  | bad (token : Token)
  | ok (token : Token) (sequence : ℤ)
  | undef
  | die

/-- The end of a pass.  A token whose counter is too far off is not written back. -/
def Server.judge (call : Call) (token : Token) : Tried :=
  match hp.verdict call token with
  | .undef => .undef
  | .bad => .bad token
  | .skewed => .next
  | .ok sequence => .ok token sequence

/-- The hash after the lock has run out.  Its own `last_updated` is not read again. -/
def Token.unlocked (token : Token) : Token :=
  { token with isTokenLocked := .N, tokenUnlockTime := none, badLogins := some 0 }

/-- One pass of the loop over the tokens. -/
def tryToken (call : Call) (tokenId : ℕ) : Program Db Tried :=
  if call.skips tokenId then pure .next
  else do
    match ← fetchToken hp tokenId with
    | none => pure .next
    | some token =>
      if hp.passes call token then
        match lockCheck call.now token with
        | .unlocked => pure (hp.judge call token)
        | .locked => pure .next
        | .unreadable => pure .undef
        | .expired => do
          match ← putToken hp call.now token.unlocked with
          | .one => pure (hp.judge call token.unlocked)
          | .undef => pure .undef
          | .die => pure .die
      else pure .next

/-- How the loop over the tokens ends. -/
inductive Found where
  | ok (token : Token) (sequence : ℤ)
  | failed (badtokens : List Token)
  | undef
  | die

/-- The loop over the tokens. -/
def tryTokens (call : Call) : List ℕ → List Token → Program Db Found
  | [], badtokens => pure (.failed badtokens)
  | tokenId :: rest, badtokens => do
    match ← tryToken hp call tokenId with
    | .next => tryTokens call rest badtokens
    | .bad token => tryTokens call rest (badtokens ++ [token])
    | .ok token sequence => pure (.ok token sequence)
    | .undef => pure .undef
    | .die => pure .die

/-- The hash of a token that is accepted. -/
def Token.accepted (token : Token) (sequence : ℤ) : Token :=
  { token with timeSkew := some 0, badLogins := some 0, tokenSequence := sequence }

/-- The hash of a token that counts a bad login, and is locked after too many. -/
def Server.punished (now : ℤ) (token : Token) : Token :=
  let badLogins := token.badLogins.getD 0 + 1
  if hp.config.badAuthsBeforeLockout ≤ badLogins then
    { token with
      badLogins := some badLogins
      isTokenLocked := .one
      tokenUnlockTime :=
        if hp.config.badAuthLockoutTime ≠ 0 then
          some (strftime (now + hp.config.badAuthLockoutTime))
        else none }
  else { token with badLogins := some badLogins }

/-- What a call returns: undef, 0 or 1.  With 1 stand the token and the counter of the password
that was accepted. -/
inductive Outcome where
  | undef
  | die
  | zero
  | one (tokenId : ℕ) (sequence : ℤ)
  deriving DecidableEq

/-- The loop over the tokens marked as bad. -/
def putBad (now : ℤ) : List Token → Program Db Outcome
  | [] => pure .zero
  | tok :: rest => do
    match ← putToken hp now (hp.punished now tok) with
    | .one => putBad now rest
    | .undef => pure .undef
    | .die => pure .die

/-- `HOTPAuthDone`: the accepted token is written back, or the bad ones are. -/
def authDone (call : Call) : Found → Program Db Outcome
  | .failed badtokens => putBad hp call.now badtokens
  | .undef => pure .undef
  | .die => pure .die
  | .ok token sequence => do
    match ← putToken hp call.now (token.accepted sequence) with
    | .one => pure (.one token.tokenId sequence)
    | .undef => pure .undef
    | .die => pure .die

def hotpAuthenticate (call : Call) : Program Db Outcome :=
  if truthy (some call.otp) then do
    let found ← tryTokens hp call call.tokens []
    authDone hp call found
  else pure .undef

end JazzHands.Hotpants

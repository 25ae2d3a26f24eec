import JazzHands.Library.PackedRecord

/-!
# Authentication tokens

`JazzHands::AuthToken`: the token of a session is a record, encrypted and kept in a cookie.

Strings are strings of bytes, and times are whole seconds.  `time()` may give another second each
time it is read in a call.
-/

namespace JazzHands.AuthToken

open Library

/-- The ciphers, and the digest in Base64. -/
structure Crypt where
  encrypt : (key iv plain : Bytes) → Bytes
  /-- There is none where `decrypt` dies. -/
  decrypt : (key cipher : Bytes) → Option Bytes
  sha1Base64 : Bytes → Bytes

/-- What `time()` gives in a call. -/
structure Clock where
  first : ℕ
  second : ℕ
  third : ℕ
  first_le_second : first ≤ second
  second_le_third : second ≤ third

structure Token where
  login : Bytes
  authtype : Bytes
  idle : ℕ
  expire : ℕ
  timestamp : ℕ
  secondaryauthinfo : Bytes
  deriving DecidableEq

def authtokenMagic : ℕ := 0xbeeff00d

def authtokenVersion : ℕ := 0x2

/-- The string is neither empty nor `0`. -/
def IsTrue (s : Bytes) : Prop := s ≠ [] ∧ s ≠ ascii "0"
  deriving Decidable

/-- `x || d`. -/
def orElse (x : Option Bytes) (d : Bytes) : Bytes :=
  match x with
  | some s => if IsTrue s then s else d
  | none => d

/-- `x || d` for a number. -/
def orNumber (x : Option ℕ) (d : ℕ) : ℕ :=
  match x with
  | some n => if n ≠ 0 then n else d
  | none => d

/-- The step fails with a message unless the condition holds. -/
def require (cond : Prop) [Decidable cond] (message : String) : Except Bytes Unit :=
  if cond then .ok () else .error (ascii message)

/-! ## Tokens as texts -/

def Token.pack (token : Token) : Bytes :=
  packN authtokenMagic ++ packN authtokenVersion ++ packZ token.login ++ packZ token.authtype ++
    packN token.idle ++ packN token.expire ++ packN token.timestamp ++
    packZ token.secondaryauthinfo

def chomp (s : Bytes) : Bytes :=
  if s.getLast? = some Base64.newline then s.dropLast else s

section Key

variable (crypt : Crypt) (key : Bytes)

def timestamp (token : Token) (time : ℕ) (iv : Bytes) : Except Bytes Bytes := do
  require (IsTrue key) "Error in passed parameters"
  let authtoken := { token with timestamp := time }.pack
  let authtoken := authtoken ++ packZ (crypt.sha1Base64 authtoken)
  let authtoken := Base64.encodeLines (crypt.encrypt key iv authtoken)
  require (IsTrue authtoken) "Error encrypting authtoken"
  .ok (Percent.escape (chomp authtoken))

structure CreateOptions where
  login : Option Bytes
  token : Option Bytes
  authtype : Option Bytes
  idle : Option ℕ
  lifetime : Option ℕ
  secondaryauthinfo : Option Bytes

/-- The token of a new session; what Perl takes for false is not given. -/
def CreateOptions.new (o : CreateOptions) (clock : Clock) : Token where
  login := o.login.getD []
  authtype := orElse o.authtype (ascii "level1")
  idle := orNumber o.idle 900
  expire := clock.first + orNumber o.lifetime 36000
  timestamp := clock.second
  secondaryauthinfo := orElse o.secondaryauthinfo []

/-- `Create`; it has no message of its own. -/
def create (o : CreateOptions) (clock : Clock) (iv : Bytes) : Except (Option Bytes) Bytes :=
  if ¬ IsTrue key then .error none
  else if ¬ (∃ s ∈ o.login, IsTrue s) ∧ ¬ ∃ s ∈ o.token, IsTrue s then .error none
  else (timestamp crypt key (o.new clock) clock.third iv).mapError some

/-- `unpack('NNN', ...)`. -/
def unpackNNN (s : Bytes) : Option (ℕ × ℕ × ℕ × Bytes) := do
  let (a, s) ← unpackN s
  let (b, s) ← unpackN s
  let (c, s) ← unpackN s
  some (a, b, c, s)

/-- `unpack('Z*Z*NNNZ*Z*', ...)`, with the digest. -/
def unpackToken (s : Bytes) : Bytes × Option (Token × Bytes) :=
  let login := unpackZ s
  let authtype := unpackZ login.2
  (login.1, (unpackNNN authtype.2).map fun n =>
    let secondaryauthinfo := unpackZ n.2.2.2
    (⟨login.1, authtype.1, n.1, n.2.1, n.2.2.1, secondaryauthinfo.1⟩,
      (unpackZ secondaryauthinfo.2).1))

/-- The token is repacked to check the digest. -/
def checkToken (first second : ℕ) (token : Token) (digest : Bytes) : Except Bytes Token := do
  require (digest = crypt.sha1Base64 token.pack) "Auth digest does not match: %s/%s"
  require (first ≤ token.expire) "Auth token has expired (session)"
  require (second ≤ token.timestamp + token.idle) "Auth token has expired (idle)"
  .ok token

def decode (authtoken : Bytes) (first second : ℕ) : Except Bytes Token := do
  require (IsTrue authtoken ∧ IsTrue key) "Error in passed parameters"
  let authtoken := Percent.unescape authtoken
  -- a decryption that dies in its `eval` leaves the text as it is
  let authtoken := (crypt.decrypt key (Base64.decode authtoken)).getD authtoken
  require (IsTrue authtoken) "Error decrypting authtoken"
  require ((unpackN authtoken).map (·.1) = some authtokenMagic)
    "Authentication magic does not match!"
  require ((unpackN (authtoken.drop 4)).map (·.1) = some authtokenVersion)
    "Unknown authtoken version"
  let (login, unpacked) := unpackToken (authtoken.drop 8)
  require (IsTrue login) "Bad authentication token"
  match unpacked with
  -- what is cut off before its numbers end has no digest
  | none => .error (ascii "Auth digest does not match: %s/%s")
  | some (token, digest) => checkToken crypt first second token digest

end Key

/-! ## `Verify` -/

inductive ErrorCode where
  | fatal
  | redirect
  | unauthorized
  deriving DecidableEq

/-- What is set when `Verify` fails; a message that is not set stays. -/
structure Failure where
  errorCode : ErrorCode
  error : Option Bytes
  location : Option Bytes
  deriving DecidableEq

def fatal {α : Type} (error : Bytes) : Except Failure α := .error ⟨.fatal, some error, none⟩

def orFatal {α : Type} (x : Option α) (error : String) : Except Failure α :=
  match x with
  | some a => .ok a
  | none => fatal (ascii error)

/-- An `Apache2::RequestRec`, with the values of its cookies. -/
structure Request where
  uri : Bytes
  cookies : List (Bytes × Bytes)

/-- What `GetUser` returns. -/
inductive User where
  | undef (error : Bytes)
  | noReference
  | user (id : ℕ)

inductive QueryError where
  | prepare (errstr : Bytes)
  | execute (errstr : Bytes)

/-- A connection to JazzHands: its users, and the query of `v_user_prop_expanded`. -/
structure Management where
  getUser : (login : Bytes) → User
  propExpanded : (id : ℕ) → (properties : List (Bytes × Bytes)) →
    Except QueryError (List (List (Option Bytes)))

inductive Authtype where
  | one (authtype : Bytes)
  | array (authtypes : List Bytes)

inductive RequiredProperties where
  | array (l : List Bytes)
  | other

structure VerifyOptions where
  authtype : Option Authtype
  authtoken : Option Bytes
  request : Option Request
  requiredProperties : Option RequiredProperties
  dbhandle : Option Management

structure Accepted where
  userinfo : Token
  token : Bytes
  cookieName : Bytes
  properties : Option (List (List (Option Bytes)))
  deriving DecidableEq

namespace VerifyOptions

variable (o : VerifyOptions)

def types : List Bytes :=
  match o.authtype with
  | none => [ascii "level1"]
  | some (.one a) => if IsTrue a then [a] else [ascii "level1"]
  | some (.array l) => l

def cookieName (type : Bytes) : Bytes := ascii "authtoken-" ++ type

/-- The token, and its authtype when it is in a cookie. -/
def retrieve : Except Failure (Option Bytes × Option Bytes) :=
  match o.authtoken.filter fun s => IsTrue s with
  | some authtoken => .ok (some authtoken, none)
  | none =>
    match o.request with
    | none => fatal (ascii "Error in passed parameters")
    | some r =>
      match o.types.find? fun t => (r.cookies.lookup (cookieName t)).isSome with
      | some type => .ok (r.cookies.lookup (cookieName type), some type)
      | none => .ok (none, none)

/-- The redirection to the login page. -/
def redirect (error : Option Bytes) : Failure where
  errorCode := .redirect
  error := error
  location := o.request.map fun r =>
    ascii "/login" ++ ascii "?referrer=" ++ Percent.escape r.uri ++ ascii "&authtype=" ++
      o.types.headD []

/-- The authtype of the cookie, else the one of the token if it is asked for. -/
def type (cookieType : Option Bytes) (userinfo : Token) : Option Bytes :=
  match cookieType.filter fun s => IsTrue s with
  | some type => some type
  | none => o.types.find? fun t => userinfo.authtype = t

end VerifyOptions

/-- The types and names, in turn. -/
def pairs : List Bytes → List (Bytes × Bytes)
  | type :: name :: l => (type, name) :: pairs l
  | _ => []

/-- The properties of the user, one of which is required. -/
def checkProperties (jhdbh : Management) (userinfo : Token) (id : ℕ) :
    Option RequiredProperties → Except Failure (Option (List (List (Option Bytes))))
  | none => .ok none
  | some .other => fatal (ascii "Error in passed parameters")
  | some (.array l) =>
    if l.length % 2 ≠ 0 then fatal (ascii "Error in passed parameters")
    else
      match jhdbh.propExpanded id (pairs l) with
      | .error (.prepare errstr) => fatal (ascii "Unable to prepare database query: " ++ errstr)
      | .error (.execute errstr) => fatal (ascii "Unable to execute database query: " ++ errstr)
      | .ok [] => .error
        ⟨.unauthorized, some (ascii "Authenticated user " ++ userinfo.login ++
          ascii " does not have any of the required properties"), none⟩
      | .ok rows => .ok (some rows)

def checkUser (jhdbh : Management) (userinfo : Token) : Except Failure ℕ :=
  match jhdbh.getUser userinfo.login with
  | .undef error => fatal (ascii "unable to get user information for authenticated user " ++
      userinfo.login ++ ascii " : " ++ error)
  | .noReference =>
    fatal (ascii "unable to get user information for authenticated user " ++ userinfo.login)
  | .user id => .ok id

section Key

variable (crypt : Crypt) (key : Bytes)

/-- The token is decoded, or the login page is next. -/
def decodeOrRedirect (o : VerifyOptions) (authtoken : Option Bytes) (clock : Clock) :
    Except Failure Token :=
  match authtoken.filter fun s => IsTrue s with
  | none => .error (o.redirect none)
  | some text =>
    (decode crypt key text clock.first clock.second).mapError fun error => o.redirect (some error)

/-- `Verify`; `connection` is there when the options have no database handle. -/
def verify (connection : Option Management) (o : VerifyOptions) (clock : Clock) (iv : Bytes) :
    Except Failure Accepted := do
  let (authtoken, cookieType) ← o.retrieve
  let userinfo ← decodeOrRedirect crypt key o authtoken clock
  let type ← orFatal ((o.type cookieType userinfo).filter fun t =>
    IsTrue t ∧ userinfo.authtype = t) "authtype does not match"
  let jhdbh ← orFatal (o.dbhandle.or connection) "unable to open connection to Database"
  let id ← checkUser jhdbh userinfo
  let properties ← checkProperties jhdbh userinfo id o.requiredProperties
  let token ← (timestamp crypt key userinfo clock.third iv).mapError fun error =>
    ⟨.fatal, some error, none⟩
  .ok ⟨{ userinfo with timestamp := clock.third }, token, VerifyOptions.cookieName type, properties⟩

end Key

end JazzHands.AuthToken

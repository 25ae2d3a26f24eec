import Mathlib.Data.List.Infix
import Mathlib.Data.List.Nodup
import JazzHands.Postgres.Error

/-!
# `account_password_manip`

The functions of `account_password_manip.sql` that set the passwords of an account and check one.

A foreign key makes the realm of a password that of its account, so the rows of an account differ in
their types, and the column is left out.  So are the limits on the length of texts, and the expansion
of account collections in `unrequire_password_change`, which deletes direct members only.
-/

namespace JazzHands.AccountPassword

open Postgres

/-- `pgcrypto.crypt` and `md5`, and the decoders that `deobfuscate_text` calls, with the key of the
session. -/
structure Pgcrypto where
  crypt : String → String → String
  md5 : String → String
  decode : (type label encoded : String) → Result (Option String)

/-- A crypt tells the plaintext that made it from any other, and the text of a `postgresMD5`
password, which is longer than any hash that starts so, is the crypt of nothing. -/
structure Pgcrypto.Lawful (E : Pgcrypto) : Prop where
  crypt_crypt : ∀ p s, E.crypt p (E.crypt p s) = E.crypt p s
  eq_of_crypt : ∀ p q s, E.crypt q (E.crypt p s) = E.crypt p s → q = p
  crypt_md5 : ∀ p t, E.crypt p ("md5" ++ E.md5 t) ≠ "md5" ++ E.md5 t

def deobfuscateText (E : Pgcrypto) (encoded type label : String) : Result (Option String) :=
  if type = "none" then .ok (some encoded)
  else if type = "base64" ∨ "pgp".toList <+: type.toList ∨
      "cbc/pad:pkcs".toList <:+: type.toList then
    E.decode type label encoded
  else raise .undefinedColumn "column \"invalid_parameter\" does not exist"

structure Account where
  accountId : ℕ
  login : String
  accountRealmId : ℕ

/-- A row of `account_password`, with its times in seconds. -/
structure PasswordRow where
  accountId : ℕ
  passwordType : String
  password : String
  changeTime : Option ℤ
  expireTime : Option ℤ

structure PasswordDb where
  account : List Account
  accountPassword : List PasswordRow
  valPasswordType : List String
  accountRealmPasswordType : List (String × ℕ)
  /-- `property_value_password_type` of the properties `Defaults:managedpwtype`. -/
  managedpwtype : List (Option String)
  /-- The collections of the properties `account-override:password_length`, with their values. -/
  passwordLength : List (ℕ × ℤ)
  /-- The collections of the properties `UserMgmt:NeedsPasswdChange`. -/
  needsPasswdChange : List ℕ
  /-- Pairs of a collection and an account. -/
  accountCollectionAccount : List (ℕ × ℕ)

/-- The password types that `authenticate_account` tries. -/
def triedTypes : List String := ["cryptMD5", "blowfish", "xdes", "postgresMD5"]

/-- `pgcrypto.crypt(plainpw, crypt) = crypt`. -/
def Matches (E : Pgcrypto) (plainpw : Option String) (crypt : String) : Prop :=
  ∃ p ∈ plainpw, E.crypt p crypt = crypt
  deriving Decidable

def authenticateAccount (E : Pgcrypto) (db : PasswordDb) (accountId : ℕ)
    (password encodeMethod label : String) (raiseexception : Bool := false) : Result Bool := do
  let plainpw ← deobfuscateText E password encodeMethod label
  let rows := db.accountPassword.filter fun a =>
    a.accountId = accountId ∧ a.passwordType ∈ triedTypes
  if ∃ a ∈ rows, Matches E plainpw a.password then .ok true
  else do
    raiseIf (raiseexception = true ∧ rows.length = 0) .cardinalityViolation
      "User has no passwords set"
    .ok false

/-! ## `set_account_passwords` -/

/-- A JSON object, as `jsonb_each_text` lists it. -/
abbrev Crypts : Type := List (String × Option String)

structure SetArgs where
  accountId : ℕ
  password : String
  encodeMethod : String := "pgp+base64"
  changeTime : Option ℤ
  expireTime : Option ℤ := none
  crypts : Crypts := []
  label : String := "default"
  purge : Bool := true
  racecatch : Bool := false

/-- `jsonb_insert` of a text at a key of the object. -/
def jsonbInsert (crypts : Crypts) (key value : String) : Result Crypts :=
  if key ∈ crypts.map Prod.fst then raise .invalidParameterValue "cannot replace existing key"
  else .ok (crypts ++ [(key, some value)])

/-- The crypt of a managed type.  It is the argument that is hashed, not what it stands for. -/
def managedCrypt (E : Pgcrypto) (genSalt : String → String) (db : PasswordDb) (args : SetArgs)
    (pwtype : String) : Result String :=
  if pwtype = "cryptMD5" then .ok (E.crypt args.password (genSalt "md5"))
  else if pwtype = "blowfish" then .ok (E.crypt args.password (genSalt "bf"))
  else if pwtype = "xdes" then .ok (E.crypt args.password (genSalt "xdes"))
  else if pwtype = "postgresMD5" then
    -- `concat` skips the login of an account that is not there
    let login := (db.account.find? (·.accountId = args.accountId)).map (·.login)
    .ok ("md5" ++ E.md5 (args.password ++ login.getD ""))
  else raise .invalidParameterValue "Unknown pwtype %"

/-- One turn of the loop over the managed types. -/
def addManaged (E : Pgcrypto) (genSalt : String → String) (db : PasswordDb) (args : SetArgs)
    (crypts : Crypts) (pwtype : Option String) : Result Crypts :=
  match pwtype with
  | none => raise .invalidParameterValue "Unknown pwtype %"
  | some pwtype =>
    if pwtype ∈ args.crypts.map Prod.fst then .ok crypts
    else do
      let crypt ← managedCrypt E genSalt db args pwtype
      jsonbInsert crypts pwtype crypt

/-- The row of the type is the account's. -/
def PasswordRow.IsOf (r : PasswordRow) (accountId : ℕ) (method : String) : Prop :=
  r.accountId = accountId ∧ r.passwordType = method
  deriving Decidable

def unrequirePasswordChange (db : PasswordDb) (accountId : ℕ) : PasswordDb :=
  { db with
    accountCollectionAccount := db.accountCollectionAccount.filter fun m =>
      ¬ (m.1 ∈ db.needsPasswdChange ∧ m.2 = accountId) }

def SetArgs.newRow (args : SetArgs) (method value : String) : PasswordRow where
  accountId := args.accountId
  passwordType := method
  password := value
  changeTime := args.changeTime
  expireTime := if args.changeTime = none then none else args.expireTime

/-- `DO UPDATE SET`. -/
def SetArgs.updateRow (args : SetArgs) (value : String) (r : PasswordRow) : PasswordRow :=
  { r with
    password := value
    changeTime := if args.changeTime = none then r.changeTime else args.changeTime
    expireTime := if args.changeTime = none then r.expireTime else args.expireTime }

/-- The INSERT, which updates the row that is there. -/
def upsertPassword (db : PasswordDb) (args : SetArgs) (method value : String) :
    Result PasswordDb :=
  match db.account.find? (·.accountId = args.accountId) with
  | none => raise .notNullViolation "null value in column \"account_realm_id\""
  | some a =>
    let db := unrequirePasswordChange db args.accountId
    if ∃ r ∈ db.accountPassword, r.IsOf args.accountId method then
      .ok { db with
        accountPassword := db.accountPassword.map fun r =>
          if r.IsOf args.accountId method then args.updateRow value r else r }
    else do
      raiseIf (method ∉ db.valPasswordType) .foreignKeyViolation
        "violates foreign key constraint fk_acct_pass_ref_vpasstype"
      raiseIf ((method, a.accountRealmId) ∉ db.accountRealmPasswordType) .foreignKeyViolation
        "violates foreign key constraint fk_acct_pwd_realm_type"
      .ok { db with accountPassword := db.accountPassword ++ [args.newRow method value] }

/-- One turn of the loop over the crypts; the list is `done`. -/
def storeCrypt (args : SetArgs) (x : PasswordDb × List String) (entry : String × Option String) :
    Result (PasswordDb × List String) :=
  match entry.2 with
  | none =>
    .ok ({ x.1 with
      accountPassword := x.1.accountPassword.filter fun r => ¬ r.IsOf args.accountId entry.1 }, x.2)
  | some value => do
    let db ← upsertPassword x.1 args entry.1 value
    .ok (db, x.2 ++ [entry.1])

/-- `DELETE FROM account_password WHERE ... AND NOT password_type = ANY (done)`.  The array `done` is
`NULL` until something is appended, and then no row meets the condition. -/
def purgePasswords (db : PasswordDb) (accountId : ℕ) (done : List String) : PasswordDb :=
  if done = [] then db
  else { db with
    accountPassword := db.accountPassword.filter fun r =>
      ¬ (r.accountId = accountId ∧ r.passwordType ∉ done) }

/-- The loop over the collections for the length of a password, longest first: the account is put
into the first one that it is long enough for, and out of the others. -/
def setPasswordLength (db : PasswordDb) (accountId : ℕ) (len : Option ℕ) : PasswordDb :=
  let sorted := db.passwordLength.mergeSort fun x y => y.2 ≤ x.2
  let x := sorted.foldl
    (fun (x : List (ℕ × ℕ) × Bool) acid =>
      if x.2 = false ∧ ∃ n ∈ len, acid.2 ≤ (n : ℤ) then
        (if (acid.1, accountId) ∈ x.1 then x.1 else x.1 ++ [(acid.1, accountId)], true)
      else (x.1.filter (· ≠ (acid.1, accountId)), x.2))
    (db.accountCollectionAccount, false)
  { db with accountCollectionAccount := x.1 }

/-- `account_password_manip.set_account_passwords` at the time `now`, with the salts that are drawn
for the managed types. -/
def setAccountPasswords (E : Pgcrypto) (genSalt : String → String) (now : ℤ) (db : PasswordDb)
    (args : SetArgs) : Result (PasswordDb × ℕ) := do
  let plainpw ← deobfuscateText E args.password args.encodeMethod args.label
  if args.racecatch = true ∧ ∃ ap ∈ db.accountPassword, ap.accountId = args.accountId ∧
      (∃ t ∈ ap.changeTime, now - t ≤ 5 * 60) ∧ Matches E plainpw ap.password then
    .ok (db, 1)
  else do
    let crypts ← db.managedpwtype.foldlM (addManaged E genSalt db args) args.crypts
    let x ← crypts.foldlM (storeCrypt args) (db, [])
    let db' := if args.purge = true then purgePasswords x.1 args.accountId x.2 else x.1
    .ok (setPasswordLength db' args.accountId (plainpw.map String.length), x.2.length)

end JazzHands.AccountPassword

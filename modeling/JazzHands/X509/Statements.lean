import JazzHands.Postgres.BeforeRow
import JazzHands.Postgres.Query
import JazzHands.X509.Hashes
import Mathlib.Tactic.MkIffOfInductiveProp

/-!
# Certificates, private keys and signing requests

`create_x509_triggers.sql` and `x509_hash_manip.sql`: each row has the hashes of its public key.

Other columns, the fingerprints of certificates, and the tables that refer to these are left out.
-/

namespace JazzHands.X509

open Postgres RowStatement

/-- The keys are in DER. -/
structure CertUtils where
  publicKey : String → Option String
  requestKey : String → Option String
  subjectKeyIdentifier : String → Option String
  sha1 : String → String
  sha256 : String → String

namespace CertUtils

variable (utils : CertUtils)

def hashes (key : String) : List Hash :=
  [⟨"sha1", utils.sha1 key⟩, ⟨"sha256", utils.sha256 key⟩]

def hashesOf : Option String → Result (List Hash)
  | none => raise .externalRoutineException "error from Perl function"
  | some key => .ok (utils.hashes key)

def getPublicKeyHashes (publicKey : String) : Result (List Hash) :=
  utils.hashesOf (utils.publicKey publicKey)

def getCsrHashes (certificateSigningRequest : String) : Result (List Hash) :=
  utils.hashesOf (utils.requestKey certificateSigningRequest)

end CertUtils

structure Certificate where
  x509SignedCertificateId : ℕ
  subjectKeyIdentifier : Option String
  publicKeyHashId : Option ℕ
  publicKey : Option String
  privateKeyId : Option ℕ
  certificateSigningRequestId : Option ℕ

structure PrivateKey where
  privateKeyId : ℕ
  publicKeyHashId : ℕ
  deriving DecidableEq

structure Request where
  certificateSigningRequestId : ℕ
  certificateSigningRequest : String
  publicKeyHashId : Option ℕ
  privateKeyId : Option ℕ
  deriving DecidableEq

structure Db where
  x509SignedCertificate : List Certificate
  privateKey : List PrivateKey
  certificateSigningRequest : List Request
  hashes : Hashes

/-! ## The triggers -/

/-- A hash id that is given has to be the one that is found. -/
def matchHashId (given : Option ℕ) (pkhid : ℕ) (message : String) : Result Unit :=
  raiseIf (∃ i ∈ given, i ≠ pkhid) .dataException message

/-- `BEFORE INSERT OR UPDATE OF public_key, public_key_hash_id, subject_key_identifier`.  The
handler of exceptions is for databases without `x509_plperl_cert_utils`. -/
def setX509CertificateSkiAndHashes (utils : CertUtils) (h : Hashes) (new : Certificate) :
    Result (Hashes × Certificate) :=
  match new.publicKey with
  | none => .ok (h, new)
  | some publicKey => do
    let hashes ← utils.getPublicKeyHashes publicKey
    let (h, pkhid) ← getOrCreatePublicKeyHashId h hashes
    matchHashId new.publicKeyHashId pkhid "public_key_hash_id does not match public_key"
    raiseIf (∃ ski ∈ new.subjectKeyIdentifier, some ski ≠ utils.subjectKeyIdentifier publicKey)
      .dataException "subject_key_identifier does not match public_key"
    .ok (h, { new with
      publicKeyHashId := some pkhid
      subjectKeyIdentifier := new.subjectKeyIdentifier.or (utils.subjectKeyIdentifier publicKey) })

/-- `BEFORE INSERT OR UPDATE OF certificate_signing_request, public_key_hash_id`. -/
def setCsrHashes (utils : CertUtils) (h : Hashes) (new : Request) : Result (Hashes × Request) := do
  let hashes ← utils.getCsrHashes new.certificateSigningRequest
  let (h, pkhid) ← getOrCreatePublicKeyHashId h hashes
  matchHashId new.publicKeyHashId pkhid
    "public_key_hash_id does not match certificate_signing_request"
  .ok (h, { new with publicKeyHashId := some pkhid })

/-- `AFTER INSERT OR UPDATE OF public_key, public_key_hash_id`. -/
def setX509CertificatePrivateKeyId (first : FirstRow PrivateKey) (db : Db) (new : Certificate) :
    Db :=
  { db with
    x509SignedCertificate := db.x509SignedCertificate.map fun x =>
      if x.x509SignedCertificateId = new.x509SignedCertificateId ∧ x.privateKeyId = none then
        { x with privateKeyId := (first.pick (db.privateKey.filter fun pk =>
            x.publicKeyHashId = some pk.publicKeyHashId)).map (·.privateKeyId) }
      else x }

/-- A row of one of the three tables refers to the hashes. -/
def Db.Refers (db : Db) (i : ℕ) : Prop :=
  (∃ x ∈ db.x509SignedCertificate, x.publicKeyHashId = some i) ∨
  (∃ pk ∈ db.privateKey, pk.publicKeyHashId = i) ∨
  ∃ r ∈ db.certificateSigningRequest, r.publicKeyHashId = some i
  deriving Decidable

/-- `AFTER DELETE OR UPDATE OF public_key_hash_id`, of certificates and of private keys. -/
def deleteDanglingPublicKeyHashes (db : Db) : Db :=
  { db with
    hashes := { db.hashes with
      publicKeyHashHash := db.hashes.publicKeyHashHash.filter fun r => db.Refers r.publicKeyHashId
      publicKeyHash := db.hashes.publicKeyHash.filter fun i => db.Refers i } }

/-! ## Constraints -/

/-- A private key, or a request, has the same hashes as the row that refers to it. -/
@[mk_iff]
structure Db.ForeignKeys (db : Db) : Prop where
  certificate : ∀ x ∈ db.x509SignedCertificate, ∀ i ∈ x.publicKeyHashId,
    i ∈ db.hashes.publicKeyHash ∧
    (∀ k ∈ x.privateKeyId, (⟨k, i⟩ : PrivateKey) ∈ db.privateKey) ∧
    ∀ q ∈ x.certificateSigningRequestId, ∃ r ∈ db.certificateSigningRequest,
      r.certificateSigningRequestId = q ∧ r.publicKeyHashId = some i
  privateKey : ∀ pk ∈ db.privateKey, pk.publicKeyHashId ∈ db.hashes.publicKeyHash
  request : ∀ r ∈ db.certificateSigningRequest, ∀ i ∈ r.publicKeyHashId,
    i ∈ db.hashes.publicKeyHash ∧ ∀ k ∈ r.privateKeyId, (⟨k, i⟩ : PrivateKey) ∈ db.privateKey

instance (db : Db) : Decidable db.ForeignKeys :=
  decidable_of_iff _ (Db.foreignKeys_iff db).symm

def checkForeignKeys (db : Db) : Result Unit :=
  raiseIf (¬ db.ForeignKeys) .foreignKeyViolation "violates foreign key constraint"

def certificateKeys (others : List Certificate) (new : Certificate) : Result Unit := do
  raiseIf (new.publicKeyHashId = none) .notNullViolation
    "null value in column public_key_hash_id violates not-null constraint"
  checkUnique (·.x509SignedCertificateId) "pk_x509_signed_certificate" others new

def requestKeys (others : List Request) (new : Request) : Result Unit := do
  raiseIf (new.publicKeyHashId = none) .notNullViolation
    "null value in column public_key_hash_id violates not-null constraint"
  checkUnique (·.certificateSigningRequestId) "pk_certificate_signing_request" others new

/-! ## Statements -/

inductive Column where
  | rowId
  | subjectKeyIdentifier
  | publicKeyHashId
  | publicKey
  | privateKeyId
  | certificateSigningRequestId
  | certificateSigningRequest
  deriving DecidableEq

def Certificate.set (columns : List Column) (old values : Certificate) : Certificate where
  x509SignedCertificateId := if .rowId ∈ columns then values.x509SignedCertificateId
    else old.x509SignedCertificateId
  subjectKeyIdentifier := if .subjectKeyIdentifier ∈ columns then values.subjectKeyIdentifier
    else old.subjectKeyIdentifier
  publicKeyHashId := if .publicKeyHashId ∈ columns then values.publicKeyHashId
    else old.publicKeyHashId
  publicKey := if .publicKey ∈ columns then values.publicKey else old.publicKey
  privateKeyId := if .privateKeyId ∈ columns then values.privateKeyId else old.privateKeyId
  certificateSigningRequestId := if .certificateSigningRequestId ∈ columns then
    values.certificateSigningRequestId else old.certificateSigningRequestId

def PrivateKey.set (columns : List Column) (old values : PrivateKey) : PrivateKey where
  privateKeyId := if .rowId ∈ columns then values.privateKeyId else old.privateKeyId
  publicKeyHashId := if .publicKeyHashId ∈ columns then values.publicKeyHashId
    else old.publicKeyHashId

def Request.set (columns : List Column) (old values : Request) : Request where
  certificateSigningRequestId := if .rowId ∈ columns then values.certificateSigningRequestId
    else old.certificateSigningRequestId
  certificateSigningRequest := if .certificateSigningRequest ∈ columns then
    values.certificateSigningRequest else old.certificateSigningRequest
  publicKeyHashId := if .publicKeyHashId ∈ columns then values.publicKeyHashId
    else old.publicKeyHashId
  privateKeyId := if .privateKeyId ∈ columns then values.privateKeyId else old.privateKeyId

/-- A trigger `AFTER DELETE OR UPDATE OF public_key_hash_id ... FOR EACH STATEMENT`. -/
def cleansUp {ρ : Type} (columns : List Column) : RowStatement ρ → Bool
  | .insert _ => false
  | .update _ => .publicKeyHashId ∈ columns
  | .delete _ => true

/-- With the triggers that remove hashes. -/
def cleanUp {ρ : Type} (columns : List Column) (s : RowStatement ρ) (db : Db) : Db :=
  if cleansUp columns s then deleteDanglingPublicKeyHashes db else db

def beforeCertificate (utils : CertUtils) (columns : List Column) (h : Hashes)
    (e : RowEvent Certificate) (new : Certificate) : Result (Hashes × Certificate) :=
  if Fires [.publicKey, .publicKeyHashId, .subjectKeyIdentifier] columns e then
    setX509CertificateSkiAndHashes utils h new
  else .ok (h, new)

def beforeRequest (utils : CertUtils) (columns : List Column) (h : Hashes)
    (e : RowEvent Request) (new : Request) : Result (Hashes × Request) :=
  if Fires [.certificateSigningRequest, .publicKeyHashId] columns e then setCsrHashes utils h new
  else .ok (h, new)

/-- The private keys of new rows. -/
def setPrivateKeyIds (first : FirstRow PrivateKey) (columns : List Column) (db : Db)
    (s : RowStatement Certificate) (news : List Certificate) : Db :=
  match s with
  | .insert _ => news.foldl (setX509CertificatePrivateKeyId first) db
  | .update _ =>
    if .publicKey ∈ columns ∨ .publicKeyHashId ∈ columns then
      news.foldl (setX509CertificatePrivateKeyId first) db
    else db
  | .delete _ => db

section Execute

variable (utils : CertUtils) (first : FirstRow PrivateKey) (db : Db)

/-- With the new rows, as `RETURNING` gives them. -/
def executeCertificate (columns : List Column) (s : RowStatement Certificate) :
    Result (Db × List Certificate) := do
  let w ← (s.naming (Certificate.set columns)).executeBefore (beforeCertificate utils columns)
    certificateKeys db.hashes db.x509SignedCertificate
  let db' := { db with hashes := w.state, x509SignedCertificate := w.rows }
  checkForeignKeys db'
  .ok (cleanUp columns s (setPrivateKeyIds first columns db' s w.news), w.news)

def executePrivateKey (columns : List Column) (s : RowStatement PrivateKey) : Result Db := do
  let rows ← (s.naming (PrivateKey.set columns)).execute
    (checkUnique (·.privateKeyId) "pk_private_key") db.privateKey
  let db' := { db with privateKey := rows }
  checkForeignKeys db'
  .ok (cleanUp columns s db')

def executeRequest (columns : List Column) (s : RowStatement Request) : Result Db := do
  let w ← (s.naming (Request.set columns)).executeBefore (beforeRequest utils columns) requestKeys
    db.hashes db.certificateSigningRequest
  let db' := { db with hashes := w.state, certificateSigningRequest := w.rows }
  checkForeignKeys db'
  .ok db'

def setPrivateKeyHashes (privateKeyId : Option ℕ) (hashes : List Hash) : Result Db := do
  let (h, pkhid) ← getOrCreatePublicKeyHashId db.hashes hashes
  executePrivateKey { db with hashes := h } [.publicKeyHashId] <| .update fun p =>
    if some p.privateKeyId = privateKeyId ∧ p.publicKeyHashId ≠ pkhid then
      some { p with publicKeyHashId := pkhid }
    else none

def setX509SignedCertificateHashes (x509CertId : ℕ) (hashes : List Hash)
    (updatePrivateKeyHashes : Bool) : Result Db := do
  let (h, pkhid) ← getOrCreatePublicKeyHashId db.hashes hashes
  let (db, news) ← executeCertificate utils first { db with hashes := h } [.publicKeyHashId] <|
    .update fun x =>
      if x.x509SignedCertificateId = x509CertId ∧ x.publicKeyHashId ≠ some pkhid then
        some { x with publicKeyHashId := some pkhid }
      else none
  if updatePrivateKeyHashes then
    setPrivateKeyHashes db (news.head?.bind (·.privateKeyId)) hashes
  else .ok db

end Execute

inductive Statement where
  | certificate (columns : List Column) (s : RowStatement Certificate)
  | privateKey (columns : List Column) (s : RowStatement PrivateKey)
  | request (columns : List Column) (s : RowStatement Request)
  | setPrivateKeyHashes (privateKeyId : ℕ) (hashes : List Hash)
  | setX509SignedCertificateHashes (x509CertId : ℕ) (hashes : List Hash)
      (updatePrivateKeyHashes : Bool)

def execute (utils : CertUtils) (first : FirstRow PrivateKey) (db : Db) : Statement → Result Db
  | .certificate columns s => do
    let (db, _) ← executeCertificate utils first db columns s
    .ok db
  | .privateKey columns s => executePrivateKey db columns s
  | .request columns s => executeRequest utils db columns s
  | .setPrivateKeyHashes k hashes => X509.setPrivateKeyHashes db (some k) hashes
  | .setX509SignedCertificateHashes x hashes updatePrivateKeyHashes =>
    X509.setX509SignedCertificateHashes utils first db x hashes updatePrivateKeyHashes

/-- The tables after a statement: an error leaves them as they were. -/
def step (utils : CertUtils) (db : Db) (s : Statement × FirstRow PrivateKey) : Db :=
  (execute utils s.2 db s.1).toOption.getD db

end JazzHands.X509

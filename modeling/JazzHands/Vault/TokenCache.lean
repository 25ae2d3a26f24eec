import JazzHands.Library.Runs
import Mathlib.Data.Int.Order.Basic

/-!
# Tokens of a vault client

`_check_and_test_token_cache`, `_save_token` and `approle_login` of `JazzHands::Vault`.  The token
is in the object, in a file and on the server.

A token that is already in the object is never looked at.
-/

namespace JazzHands.Vault

open Library

/-- The file, with its first line.  A path without a file has no line. -/
structure TokenFile where
  line : Option String
  /-- `-r` of the file. -/
  readable : Bool
  /-- `-w` of the file. -/
  writable : Bool
  /-- `-w` of its directory. -/
  dirWritable : Bool

structure Client where
  token : Option String
  tokenLeaseDuration : Option ℤ
  vaultRoleId : Option String
  vaultSecretId : Option String
  /-- The file of `VaultTokenPath`, if that is set. -/
  tokenFile : Option TokenFile

/-- `auth` of the answer to a login. -/
structure Auth where
  clientToken : String
  leaseDuration : Option ℤ

/-- What the server answers during a call: to `lookup-self` of a token, with its `ttl`, and to a
login. -/
structure Answers where
  lookupSelf : String → Option (Option ℤ)
  login : Option String → Option String → Option Auth

/-! ## The functions -/

def ttlRefreshSeconds : ℤ := 3600 / 2

/-- A lifetime of 0 means that the token does not expire. -/
def Lasts (ttl : ℤ) : Prop := ttl = 0 ∨ ttlRefreshSeconds < ttl
  deriving Decidable

/-- A value that counts as true. -/
def IsTrue (s : String) : Prop := s ≠ "" ∧ s ≠ "0"
  deriving Decidable

def readtoken (c : Client) : Option String :=
  c.tokenFile.bind fun f => if f.readable then f.line else none

/-- The part of the check that asks the server for the token of the file. -/
def readAndLookUp (c : Client) (a : Answers) : Client :=
  let token := readtoken c
  let c := { c with token := none, tokenLeaseDuration := none }
  match token with
  | none => c
  | some token =>
    if IsTrue token then
      match a.lookupSelf token with
      | none => c
      | some ttl => { c with token := some token, tokenLeaseDuration := ttl }
    else c

def checkAndTestTokenCache (c : Client) (a : Answers) : Bool × Client :=
  if ∃ token ∈ c.token, IsTrue token then (false, c)
  else
    let c := readAndLookUp c a
    match c.tokenLeaseDuration with
    | none => (false, c)
    | some ttl => (Lasts ttl, c)

/-- The file with a new line: a new file is put in its place, or it is written in its place. -/
def TokenFile.write (f : TokenFile) (token : String) : TokenFile :=
  if f.dirWritable then ⟨some token, true, true, true⟩ else { f with line := some token }

def saveToken (c : Client) (auth : Auth) : Option String × Client :=
  match c.tokenFile with
  | none => (none, c)
  | some f =>
    if ¬ f.writable ∧ ¬ f.dirWritable then (none, c)
    else if ∃ curtok ∈ readtoken c, IsTrue curtok ∧ curtok = auth.clientToken then
      (some auth.clientToken, c)
    else (some auth.clientToken, { c with tokenFile := some (f.write auth.clientToken) })

/-- `if ( $resp->{auth}->{lease_duration} )`, with what is taken otherwise. -/
def leaseOf (auth : Auth) : ℤ :=
  match auth.leaseDuration with
  | none => 86400
  | some n => if n = 0 then 86400 else n

def approleLogin (c : Client) (a : Answers) : Option String × Client :=
  let (valid, c) := checkAndTestTokenCache c a
  if valid then (c.token, c)
  else
    match a.login c.vaultRoleId c.vaultSecretId with
    | none => (none, c)
    | some auth =>
      let c := { c with tokenLeaseDuration := some (leaseOf auth) }
      let c := (saveToken c auth).2
      (some auth.clientToken, { c with token := some auth.clientToken })

def step (c : Client) (a : Answers) : Client := (approleLogin c a).2

/-! ## What is promised -/

/-- The answers to a call of an object with nothing but a token: the token of the file is accepted,
and there is no login without a role. -/
def Accepts (c : Client) (a : Answers) : Prop :=
  (∃ token ∈ readtoken c, IsTrue token ∧ ∃ ttl, a.lookupSelf token = some (some ttl)) ∧
    a.login none none = none

/-- A new object with only a token, which the server accepts in all calls, or an object with role
and secret and a writable token file, where all logins are granted. -/
structure SetUp (c : Client) (l : List Answers) : Prop where
  tokenOnly : c.vaultRoleId = none →
    c.token = none ∧ c.vaultSecretId = none ∧ ∀ a ∈ l, Accepts c a
  approle : ∀ role ∈ c.vaultRoleId, ∃ secret ∈ c.vaultSecretId,
    (∃ f ∈ c.tokenFile, f.writable ∨ f.dirWritable) ∧
      ∀ a ∈ l, (a.login (some role) (some secret)).isSome

/-- The call has the token of the file checked by the server, and it lasts. -/
def Checked (c : Client) (a : Answers) (token : String) : Prop :=
  (¬ ∃ token ∈ c.token, IsTrue token) ∧ readtoken c = some token ∧
    ∃ ttl, a.lookupSelf token = some (some ttl) ∧ Lasts ttl

/-- With only a token, the call returns that of the file and leaves the file.  With role and secret,
it returns the token that it has checked, or a new one, which the file then contains. -/
def CallRight (c : Client) (a : Answers) : Prop :=
  if c.vaultRoleId = none then
    (∃ token ∈ readtoken c, (approleLogin c a).1 = some token) ∧
      (step c a).tokenFile = c.tokenFile
  else
    ∃ token, (approleLogin c a).1 = some token ∧
      (Checked c a token ∨
        ∃ auth, a.login c.vaultRoleId c.vaultSecretId = some auth ∧ auth.clientToken = token ∧
          ∃ f ∈ (step c a).tokenFile, f.line = some token)

variable {c c' : Client} {a : Answers} {l : List Answers} {auth : Auth} {token role secret : String}
  {ttl : ℤ} {valid : Bool}

/-! ## The check -/

theorem readAndLookUp_frame : (readAndLookUp c a).vaultRoleId = c.vaultRoleId ∧
    (readAndLookUp c a).vaultSecretId = c.vaultSecretId ∧
    (readAndLookUp c a).tokenFile = c.tokenFile := by
  unfold readAndLookUp
  dsimp only
  split
  · exact ⟨rfl, rfl, rfl⟩
  · split
    · split
      · exact ⟨rfl, rfl, rfl⟩
      · exact ⟨rfl, rfl, rfl⟩
    · exact ⟨rfl, rfl, rfl⟩

theorem readAndLookUp_lease (h : (readAndLookUp c a).tokenLeaseDuration = some ttl) :
    ∃ token, (readAndLookUp c a).token = some token ∧ readtoken c = some token ∧
      a.lookupSelf token = some (some ttl) := by
  unfold readAndLookUp at h ⊢
  dsimp only at h ⊢
  split at h
  · cases h
  next token hread =>
    split at h
    next htrue =>
      rw [if_pos htrue]
      split at h
      · cases h
      next lease hlease => exact ⟨token, rfl, hread, hlease.trans (congrArg some h)⟩
    · cases h

theorem checkAndTestTokenCache_frame (h : checkAndTestTokenCache c a = (valid, c')) :
    c'.vaultRoleId = c.vaultRoleId ∧ c'.vaultSecretId = c.vaultSecretId ∧
      c'.tokenFile = c.tokenFile := by
  unfold checkAndTestTokenCache at h
  split at h
  · obtain ⟨-, rfl⟩ := Prod.mk.inj h
    exact ⟨rfl, rfl, rfl⟩
  · dsimp only at h
    split at h
    · obtain ⟨-, rfl⟩ := Prod.mk.inj h
      exact readAndLookUp_frame
    · obtain ⟨-, rfl⟩ := Prod.mk.inj h
      exact readAndLookUp_frame

/-- A token that passes the check has just been found to last. -/
theorem lasts_of_check (h : checkAndTestTokenCache c a = (true, c')) :
    ∃ token, c'.token = some token ∧ Checked c a token := by
  unfold checkAndTestTokenCache at h
  split at h
  · exact nomatch (Prod.mk.inj h).1
  next hnone =>
    dsimp only at h
    split at h
    · exact nomatch (Prod.mk.inj h).1
    next ttl hlease =>
      obtain ⟨hlasts, rfl⟩ := Prod.mk.inj h
      obtain ⟨token, htoken, hread, hlookup⟩ := readAndLookUp_lease hlease
      exact ⟨token, htoken, hnone, hread, ttl, hlookup, of_decide_eq_true hlasts⟩

/-! ## With role and secret -/

/-- The token file can be written. -/
def CanSave (c : Client) : Prop := ∃ f ∈ c.tokenFile, f.writable ∨ f.dirWritable

theorem saveToken_saves (auth : Auth) (h : CanSave c) :
    (saveToken c auth).2.vaultRoleId = c.vaultRoleId ∧
      (saveToken c auth).2.vaultSecretId = c.vaultSecretId ∧ CanSave (saveToken c auth).2 ∧
      ∃ f ∈ (saveToken c auth).2.tokenFile, f.line = some auth.clientToken := by
  obtain ⟨f, hf, hwritable⟩ := h
  rw [Option.mem_def] at hf
  have hno : ¬ (¬ f.writable ∧ ¬ f.dirWritable) := fun h => hwritable.elim h.1 h.2
  unfold saveToken
  rw [hf]
  dsimp only
  rw [if_neg hno]
  split
  next hcurrent =>
    obtain ⟨curtok, hread, -, rfl⟩ := hcurrent
    refine ⟨rfl, rfl, ⟨f, hf, hwritable⟩, f, hf, ?_⟩
    rw [readtoken, hf, Option.bind_some, Option.mem_def] at hread
    split at hread
    · exact hread
    · exact nomatch hread
  next hcurrent =>
    refine ⟨rfl, rfl, ⟨_, rfl, ?_⟩, _, rfl, ?_⟩
    · unfold TokenFile.write
      split
      · exact Or.inl rfl
      · exact hwritable
    · unfold TokenFile.write
      split <;> rfl

section

variable (hrole : c.vaultRoleId = some role) (hsecret : c.vaultSecretId = some secret)
  (hsave : CanSave c)
include hrole hsecret hsave

/-- **One call** with role and secret. -/
theorem callRight_approle (hlogin : (a.login (some role) (some secret)).isSome) :
    CallRight c a ∧ (step c a).vaultRoleId = some role ∧ (step c a).vaultSecretId = some secret ∧
      CanSave (step c a) := by
  obtain ⟨auth, hauth⟩ := Option.isSome_iff_exists.mp hlogin
  unfold CallRight step approleLogin
  rw [if_neg (by rw [hrole]; exact nofun)]
  cases hcheck : checkAndTestTokenCache c a with
  | mk valid c' =>
    obtain ⟨hrole', hsecret', hfile'⟩ := checkAndTestTokenCache_frame hcheck
    have hsave' : CanSave c' := by
      unfold CanSave
      rwa [hfile']
    cases valid with
    | true =>
      obtain ⟨token, htoken, hchecked⟩ := lasts_of_check hcheck
      refine ⟨⟨token, htoken, Or.inl hchecked⟩, ?_⟩
      exact ⟨hrole'.trans hrole, hsecret'.trans hsecret, hsave'⟩
    | false =>
      have hauth' : a.login c'.vaultRoleId c'.vaultSecretId = some auth := by
        rw [hrole', hsecret', hrole, hsecret, hauth]
      dsimp only
      rw [if_neg (by decide), hauth', hrole, hsecret, hauth]
      dsimp only
      obtain ⟨hr, hs, hcan, hline⟩ :=
        saveToken_saves (c := { c' with tokenLeaseDuration := some (leaseOf auth) }) auth hsave'
      refine ⟨⟨auth.clientToken, rfl, Or.inr ⟨auth, rfl, rfl, hline⟩⟩, ?_, ?_, hcan⟩
      · exact hr.trans (hrole'.trans hrole)
      · exact hs.trans (hsecret'.trans hsecret)

theorem run_approle (hlogin : ∀ a ∈ l, (a.login (some role) (some secret)).isSome) :
    AllSteps step CallRight c l := by
  induction l generalizing c with
  | nil => trivial
  | cons a l ih =>
    obtain ⟨ha, hl⟩ := List.forall_mem_cons.mp hlogin
    obtain ⟨hright, hrole', hsecret', hsave'⟩ := callRight_approle hrole hsecret hsave ha
    exact ⟨hright, ih hrole' hsecret' hsave' hl⟩

end

/-! ## With only a token -/

section

variable (htoken : c.token = none) (hread : readtoken c = some token) (htrue : IsTrue token)
  (hlookup : a.lookupSelf token = some (some ttl))
include htoken hread htrue hlookup

/-- The first call asks the server for the token of the file. -/
theorem check_first :
    checkAndTestTokenCache c a = (decide (Lasts ttl),
      { c with token := some token, tokenLeaseDuration := some ttl }) := by
  have hnone : ¬ ∃ token ∈ c.token, IsTrue token := by
    rintro ⟨token, hmem, -⟩
    rw [htoken] at hmem
    exact nomatch hmem
  have hread' : readAndLookUp c a =
      { c with token := some token, tokenLeaseDuration := some ttl } := by
    unfold readAndLookUp
    rw [hread]
    dsimp only
    rw [if_pos htrue, hlookup]
  rw [checkAndTestTokenCache, if_neg hnone, hread']

theorem approleLogin_first (hrole : c.vaultRoleId = none) (hsecret : c.vaultSecretId = none)
    (hlogin : a.login none none = none) :
    approleLogin c a = (if Lasts ttl then some token else none,
      { c with token := some token, tokenLeaseDuration := some ttl }) := by
  unfold approleLogin
  rw [check_first htoken hread htrue hlookup]
  dsimp only
  by_cases hlasts : Lasts ttl
  · rw [if_pos (decide_eq_true hlasts), if_pos hlasts]
  · rw [if_neg (by simpa using hlasts), if_neg hlasts, hrole, hsecret, hlogin]

end

/-- A later call has a token, does not look at it, and there is no login. -/
theorem approleLogin_later (htoken : c.token = some token) (htrue : IsTrue token)
    (hrole : c.vaultRoleId = none) (hsecret : c.vaultSecretId = none)
    (hlogin : a.login none none = none) : approleLogin c a = (none, c) := by
  have hcheck : checkAndTestTokenCache c a = (false, c) := if_pos ⟨token, htoken, htrue⟩
  unfold approleLogin
  rw [hcheck]
  dsimp only
  rw [if_neg (by decide), hrole, hsecret, hlogin]

/-- All calls with only a token are right when there is at most one, and the token lasts. -/
theorem run_tokenOnly (htoken : c.token = none) (hrole : c.vaultRoleId = none)
    (hsecret : c.vaultSecretId = none) (haccepts : ∀ a ∈ l, Accepts c a) :
    AllSteps step CallRight c l ↔
      l.length ≤ 1 ∧ ∀ a ∈ l, ∀ token ∈ readtoken c, ∀ ttl,
        a.lookupSelf token = some (some ttl) → Lasts ttl := by
  cases l with
  | nil => simp [AllSteps]
  | cons a l =>
    obtain ⟨⟨⟨token, hread, htrue, ttl, hlookup⟩, hlogin⟩, hrest⟩ :=
      List.forall_mem_cons.mp haccepts
    rw [Option.mem_def] at hread
    have hfirst := approleLogin_first htoken hread htrue hlookup hrole hsecret hlogin
    have hright : CallRight c a ↔ Lasts ttl := by
      unfold CallRight step
      rw [if_pos hrole, hfirst, hread]
      simp
    -- a second call finds the token in the object
    have hlater : ∀ b ∈ l, ¬ CallRight (step c a) b := by
      intro b hb h
      have hstep : step c a =
          { c with token := some token, tokenLeaseDuration := some ttl } := by
        rw [step, hfirst]
      rw [hstep] at h
      have hnone := approleLogin_later (c := { c with
        token := some token, tokenLeaseDuration := some ttl }) rfl htrue hrole hsecret
        (hrest b hb).2
      unfold CallRight at h
      rw [if_pos hrole, hnone] at h
      obtain ⟨⟨_, -, h⟩, -⟩ := h
      cases h
    have hlasts : (∀ token' ∈ readtoken c, ∀ ttl',
        a.lookupSelf token' = some (some ttl') → Lasts ttl') ↔ Lasts ttl := by
      rw [hread]
      constructor
      · intro h
        exact h token rfl ttl hlookup
      · intro h token' htoken' ttl' hlookup'
        obtain rfl := Option.some.inj htoken'
        rw [hlookup] at hlookup'
        obtain rfl := Option.some.inj (Option.some.inj hlookup')
        exact h
    cases l with
    | nil =>
      rw [List.forall_mem_singleton, hlasts, ← hright]
      exact ⟨fun h => ⟨Nat.le_refl 1, h.1⟩, fun h => ⟨h.2, trivial⟩⟩
    | cons b l =>
      constructor
      · rintro ⟨-, h, -⟩
        exact absurd h (hlater b List.mem_cons_self)
      · rintro ⟨h, -⟩
        simp at h

/-! ## All objects -/

/-- **Runs of calls.**  Every call is what is promised, exactly when there are role and secret, or
there is at most one call and the token lasts. -/
theorem run_callRight_iff (c : Client) (l : List Answers) (h : SetUp c l) :
    AllSteps step CallRight c l ↔
      c.vaultRoleId ≠ none ∨ l.length ≤ 1 ∧ ∀ a ∈ l, ∀ token ∈ readtoken c, ∀ ttl,
        a.lookupSelf token = some (some ttl) → Lasts ttl := by
  cases hrole : c.vaultRoleId with
  | none =>
    obtain ⟨htoken, hsecret, haccepts⟩ := h.tokenOnly hrole
    rw [run_tokenOnly htoken hrole hsecret haccepts]
    simp
  | some role =>
    obtain ⟨secret, hsecret, hsave, hlogin⟩ := h.approle role hrole
    refine ⟨fun _ => Or.inl nofun, fun _ => ?_⟩
    exact run_approle hrole hsecret hsave hlogin

/-- An object with nothing but a token. -/
def tokenOnly : Client := ⟨none, none, none, none, some ⟨some "s.token", true, false, false⟩⟩

/-- The server knows the token. -/
def accepting (ttl : ℤ) : Answers :=
  ⟨fun token => if token = "s.token" then some (some ttl) else none, fun _ _ => none⟩

theorem setUp_tokenOnly (ttls : List ℤ) : SetUp tokenOnly (ttls.map accepting) where
  tokenOnly := by
    refine fun _ => ⟨rfl, rfl, fun a ha => ?_⟩
    obtain ⟨ttl, -, rfl⟩ := List.mem_map.mp ha
    exact ⟨⟨"s.token", rfl, by decide, ttl, rfl⟩, rfl⟩
  approle := fun role hrole => nomatch hrole

theorem run_callRight_once : AllSteps step CallRight tokenOnly [accepting 0] := by
  refine (run_callRight_iff tokenOnly [accepting 0] (setUp_tokenOnly [0])).mpr
    (Or.inr ⟨Nat.le_refl 1, fun a ha token hread ttl hlookup => ?_⟩)
  obtain rfl := List.mem_singleton.mp ha
  obtain rfl := Option.some.inj hread
  obtain rfl := Option.some.inj (Option.some.inj hlookup)
  exact Or.inl rfl

/-- The second call with a token that does not expire fails. -/
theorem run_callRight_twice :
    SetUp tokenOnly [accepting 0, accepting 0] ∧
      ¬ AllSteps step CallRight tokenOnly [accepting 0, accepting 0] := by
  refine ⟨setUp_tokenOnly [0, 0], ?_⟩
  rintro ⟨-, h, -⟩
  obtain ⟨⟨token, -, h⟩, -⟩ : (∃ token ∈ readtoken (step tokenOnly (accepting 0)),
    (approleLogin (step tokenOnly (accepting 0)) (accepting 0)).1 = some token) ∧ _ := h
  exact nomatch h

end JazzHands.Vault

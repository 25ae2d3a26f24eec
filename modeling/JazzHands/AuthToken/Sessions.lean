import JazzHands.AuthToken.Token
import JazzHands.Library.Fallible

/-!
# Sessions

A text that `timestamp` has made is decoded to the stamped token until it has expired.  A session is
a token that is made once, and then stamped by each call that accepts it: all its tokens have the
login, the authtype and the expiration that it began with.
-/

namespace JazzHands.AuthToken

open Library

/-! ## The round trip -/

structure Crypt.Sound (crypt : Crypt) : Prop where
  decrypt_encrypt : ∀ key iv plain, crypt.decrypt key (crypt.encrypt key iv plain) = some plain
  encrypt_ne_nil : ∀ key iv plain, crypt.encrypt key iv plain ≠ []
  zero_notMem_sha1Base64 : ∀ s, 0 ∉ crypt.sha1Base64 s

structure Token.Stampable (token : Token) : Prop where
  isTrue_login : IsTrue token.login
  login : 0 ∉ token.login
  authtype : 0 ∉ token.authtype
  secondaryauthinfo : 0 ∉ token.secondaryauthinfo
  idle : token.idle < 2 ^ 32
  expire : token.expire < 2 ^ 32

variable {crypt : Crypt} {key iv text s : Bytes} {token : Token} {time first second : ℕ}

theorem require_of {cond : Prop} [Decidable cond] {message : String} (h : cond) :
    require cond message = .ok () :=
  if_pos h

theorem isTrue_of_length (h : 2 ≤ s.length) : IsTrue s := by
  constructor
  · rintro rfl
    simp at h
  · rintro rfl
    exact absurd h (by decide)

theorem filterMap_value?_chomp (s : Bytes) :
    (chomp s).filterMap Base64.value? = s.filterMap Base64.value? := by
  rw [chomp]
  split
  · rename_i h
    obtain ⟨t, rfl⟩ := List.getLast?_eq_some_iff.mp h
    rw [List.dropLast_concat, List.filterMap_append]
    exact (List.append_nil _).symm
  · rfl

theorem length_le_chomp (s : Bytes) : s.length ≤ (chomp s).length + 1 := by
  rw [chomp]
  split
  · rw [List.length_dropLast]
    omega
  · omega

theorem pack_append (token : Token) (rest : Bytes) :
    token.pack ++ rest = packN authtokenMagic ++ (packN authtokenVersion ++ (packZ token.login ++
      (packZ token.authtype ++ (packN token.idle ++ (packN token.expire ++
        (packN token.timestamp ++ (packZ token.secondaryauthinfo ++ rest))))))) := by
  simp only [Token.pack, List.append_assoc]

theorem unpackToken_pack (htoken : token.Stampable) (htime : token.timestamp < 2 ^ 32)
    {digest : Bytes} (hdigest : 0 ∉ digest) :
    unpackToken ((token.pack ++ packZ digest).drop 8) = (token.login, some (token, digest)) := by
  have hdrop : (token.pack ++ packZ digest).drop 8 = packZ token.login ++ (packZ token.authtype ++
      (packN token.idle ++ (packN token.expire ++ (packN token.timestamp ++
        (packZ token.secondaryauthinfo ++ (packZ digest ++ [])))))) := by
    rw [pack_append, List.append_nil]
    rfl
  rw [hdrop, unpackToken, unpackZ_packZ htoken.login]
  dsimp only
  rw [unpackZ_packZ htoken.authtype, unpackNNN, unpackN_packN htoken.idle]
  dsimp only [Option.bind_eq_bind, Option.bind_some]
  rw [unpackN_packN htoken.expire]
  dsimp only [Option.bind_some]
  rw [unpackN_packN htime]
  dsimp only [Option.bind_some, Option.map_some]
  rw [unpackZ_packZ htoken.secondaryauthinfo, unpackZ_packZ hdigest]

theorem timestamp_eq (hcrypt : crypt.Sound) (hkey : IsTrue key) (token : Token) (time : ℕ)
    (iv : Bytes) : ∃ plain cipher,
      plain = { token with timestamp := time }.pack ++
        packZ (crypt.sha1Base64 { token with timestamp := time }.pack) ∧
      cipher = crypt.encrypt key iv plain ∧
      timestamp crypt key token time iv =
        .ok (Percent.escape (chomp (Base64.encodeLines cipher))) := by
  refine ⟨_, _, rfl, rfl, ?_⟩
  have hlength := Base64.five_le_length_encodeLines (hcrypt.encrypt_ne_nil key iv
    ({ token with timestamp := time }.pack ++
      packZ (crypt.sha1Base64 { token with timestamp := time }.pack)))
  rw [timestamp, require_of hkey]
  show require (IsTrue _) _ >>= _ = _
  rw [require_of (isTrue_of_length (by omega))]
  rfl

theorem decode_eq (hcrypt : crypt.Sound) (hkey : IsTrue key) (htoken : token.Stampable)
    (htime : time < 2 ^ 32) (htext : timestamp crypt key token time iv = .ok text) :
    decode crypt key text first second = checkToken crypt first second
      { token with timestamp := time } (crypt.sha1Base64 { token with timestamp := time }.pack) := by
  obtain ⟨plain, cipher, hplain, hcipher, htext'⟩ := timestamp_eq hcrypt hkey token time iv
  obtain rfl := Except.ok.inj (htext'.symm.trans htext)
  have hlines := Base64.five_le_length_encodeLines (s := cipher)
    (hcipher ▸ hcrypt.encrypt_ne_nil key iv plain)
  have hchomp := length_le_chomp (Base64.encodeLines cipher)
  have hescape := Percent.length_escape (chomp (Base64.encodeLines cipher))
  -- the text is unescaped and decrypted
  have hbase64 : Base64.decode (chomp (Base64.encodeLines cipher)) = cipher :=
    Base64.decode_encode (by rw [filterMap_value?_chomp, Base64.filterMap_value?_encodeLines])
  have hdecrypt : (crypt.decrypt key cipher).getD (chomp (Base64.encodeLines cipher)) = plain := by
    rw [hcipher, hcrypt.decrypt_encrypt, Option.getD_some]
  -- and the record is unpacked
  have hmagic : (unpackN plain).map (·.1) = some authtokenMagic := by
    rw [hplain, pack_append, unpackN_packN (by decide)]
    rfl
  have hversion : (unpackN (plain.drop 4)).map (·.1) = some authtokenVersion := by
    rw [hplain, pack_append]
    show (unpackN (packN authtokenVersion ++ _)).map _ = _
    rw [unpackN_packN (by decide)]
    rfl
  have hlength : 2 ≤ plain.length := by
    rw [hplain, pack_append, List.length_append]
    show 2 ≤ 4 + _
    omega
  have htoken' : { token with timestamp := time }.Stampable := ⟨htoken.isTrue_login, htoken.login,
    htoken.authtype, htoken.secondaryauthinfo, htoken.idle, htoken.expire⟩
  have hunpack := unpackToken_pack htoken' htime
    (hcrypt.zero_notMem_sha1Base64 { token with timestamp := time }.pack)
  rw [← hplain] at hunpack
  rw [decode, require_of ⟨isTrue_of_length (by omega), hkey⟩]
  dsimp only [bind, Except.bind]
  rw [Percent.unescape_escape, hbase64, hdecrypt, require_of (isTrue_of_length hlength),
    require_of hmagic, require_of hversion, hunpack]
  dsimp only
  rw [require_of htoken.isTrue_login]

theorem checkToken_ok {digest : Bytes} {userinfo : Token}
    (h : checkToken crypt first second token digest = .ok userinfo) :
    userinfo = token ∧ first ≤ token.expire ∧ second ≤ token.timestamp + token.idle := by
  simp only [checkToken, require, bind, Except.bind] at h
  split_ifs at h with hdigest hexpire hidle
  exact ⟨(Except.ok.inj h).symm, hexpire, hidle⟩

/-- A text is decoded to what was stamped, until it has expired. -/
theorem decode_timestamp (hcrypt : crypt.Sound) (hkey : IsTrue key) (htoken : token.Stampable)
    (htime : time < 2 ^ 32) (iv : Bytes) : ∃ text, timestamp crypt key token time iv = .ok text ∧
      ∀ first second, first ≤ token.expire → second ≤ time + token.idle →
        decode crypt key text first second = .ok { token with timestamp := time } := by
  obtain ⟨plain, cipher, -, -, htext⟩ := timestamp_eq hcrypt hkey token time iv
  refine ⟨_, htext, fun first second hexpire hidle => ?_⟩
  rw [decode_eq hcrypt hkey htoken htime htext, checkToken, require_of rfl]
  dsimp only [bind, Except.bind]
  rw [require_of hexpire]
  dsimp only
  rw [require_of hidle]

/-! ## Chains of calls -/

inductive Call where
  | create (o : CreateOptions)
  | timestamp (token : Token)
  | decode (authtoken : Bytes)
  | verify (connection : Option Management) (o : VerifyOptions)

/-- A call, with what it reads of the clock, and its initialization vector. -/
structure Timed where
  call : Call
  clock : Clock
  iv : Bytes

/-- Calls one after the other, while times have 32 bits. -/
structure Run where
  calls : List Timed
  ordered : calls.Pairwise fun a b => a.clock.third ≤ b.clock.first
  bounded : ∀ c ∈ calls, c.clock.third < 2 ^ 32

/-- Each call verifies the token of the one before, and accepts it. -/
def Chain (crypt : Crypt) (key : Bytes) : Bytes → List Timed → Prop
  | _, [] => True
  | text, c :: l => ∃ connection o cookieType accepted, c.call = .verify connection o ∧
    o.retrieve = .ok (some text, cookieType) ∧
    verify crypt key connection o c.clock c.iv = .ok accepted ∧ Chain crypt key accepted.token l

/-- No call is later than the session or its idle time, and each one accepts the same user. -/
def Within (crypt : Crypt) (key login authtype : Bytes) (expire idle : ℕ) :
    ℕ → List Timed → Prop
  | _, [] => True
  | stamped, c :: l => c.clock.first ≤ expire ∧ c.clock.second ≤ stamped + idle ∧
    (∀ connection o accepted, c.call = .verify connection o →
      verify crypt key connection o c.clock c.iv = .ok accepted →
      accepted.userinfo.login = login ∧ accepted.userinfo.authtype = authtype) ∧
    Within crypt key login authtype expire idle c.clock.third l

variable {clock : Clock}

theorem verify_ok {connection : Option Management} {o : VerifyOptions} {a : Accepted}
    {cookieType : Option Bytes} (h : verify crypt key connection o clock iv = .ok a)
    (hretrieve : o.retrieve = .ok (some text, cookieType)) : ∃ userinfo,
      decode crypt key text clock.first clock.second = .ok userinfo ∧
      a.userinfo = { userinfo with timestamp := clock.third } ∧
      timestamp crypt key userinfo clock.third iv = .ok a.token := by
  rw [verify, hretrieve] at h
  obtain ⟨retrieved, hretrieved, h⟩ := bind_ok_iff.mp h
  obtain rfl := Except.ok.inj hretrieved
  obtain ⟨userinfo, hdecode, h⟩ := bind_ok_iff.mp h
  obtain ⟨type, -, h⟩ := bind_ok_iff.mp h
  obtain ⟨jhdbh, -, h⟩ := bind_ok_iff.mp h
  obtain ⟨id, -, h⟩ := bind_ok_iff.mp h
  obtain ⟨properties, -, h⟩ := bind_ok_iff.mp h
  obtain ⟨token, htoken, h⟩ := bind_ok_iff.mp h
  obtain rfl := Except.ok.inj h
  refine ⟨userinfo, ?_, rfl, mapError_eq_ok.mp htoken⟩
  rw [decodeOrRedirect] at hdecode
  split at hdecode
  · cases hdecode
  · rename_i text' htext
    obtain rfl := Option.some.inj (Option.filter_eq_some_iff.mp htext).1
    exact mapError_eq_ok.mp hdecode

/-- **A session.**  Each call that accepts it comes in time, and sees the same login and authtype. -/
theorem chain_within (hcrypt : crypt.Sound) (hkey : IsTrue key) (htoken : token.Stampable)
    {l : List Timed} (htime : time < 2 ^ 32) (hl : ∀ c ∈ l, c.clock.third < 2 ^ 32)
    (htext : timestamp crypt key token time iv = .ok text) (hchain : Chain crypt key text l) :
    Within crypt key token.login token.authtype token.expire token.idle time l := by
  induction l generalizing token time iv text with
  | nil => trivial
  | cons c l ih =>
    obtain ⟨connection, o, cookieType, a, hcall, hretrieve, hverify, hrest⟩ := hchain
    obtain ⟨userinfo, hdecode, huserinfo, hstamped⟩ := verify_ok hverify hretrieve
    rw [decode_eq hcrypt hkey htoken htime htext] at hdecode
    obtain ⟨rfl, hexpire, hidle⟩ := checkToken_ok hdecode
    have htoken' : { token with timestamp := time }.Stampable := ⟨htoken.isTrue_login,
      htoken.login, htoken.authtype, htoken.secondaryauthinfo, htoken.idle, htoken.expire⟩
    refine ⟨hexpire, hidle, fun connection' o' a' hcall' hverify' => ?_, ?_⟩
    · obtain ⟨rfl, rfl⟩ := Call.verify.inj (hcall.symm.trans hcall')
      obtain rfl := Except.ok.inj (hverify.symm.trans hverify')
      rw [huserinfo]
      exact ⟨rfl, rfl⟩
    · have hl' : ∀ d ∈ l, d.clock.third < 2 ^ 32 := fun d hd => hl d (List.mem_cons_of_mem c hd)
      have hwithin := ih htoken' (hl c List.mem_cons_self) hl' hstamped hrest
      exact hwithin

/-- The options of a new session that can be kept: strings without a zero byte, and positive
numbers. -/
structure CreateOptions.Keepable (o : CreateOptions) (login : Bytes) : Prop where
  given : o.login = some login
  isTrue_login : IsTrue login
  login : 0 ∉ login
  authtype : ∀ s ∈ o.authtype, 0 ∉ s
  secondaryauthinfo : ∀ s ∈ o.secondaryauthinfo, 0 ∉ s
  idle : ∀ n ∈ o.idle, 0 < n
  lifetime : ∀ n ∈ o.lifetime, 0 < n

theorem orNumber_eq {x : Option ℕ} {d : ℕ} (h : ∀ n ∈ x, 0 < n) : orNumber x d = x.getD d := by
  cases x with
  | none => rfl
  | some n => exact if_pos (Nat.pos_iff_ne_zero.mp (h n rfl))

theorem zero_notMem_orElse {x : Option Bytes} {d : Bytes} (h : ∀ s ∈ x, 0 ∉ s) (hd : 0 ∉ d) :
    0 ∉ orElse x d := by
  cases x with
  | none => exact hd
  | some s =>
    show 0 ∉ if IsTrue s then s else d
    split
    · exact h s rfl
    · exact hd

theorem CreateOptions.Keepable.stampable {o : CreateOptions} {login : Bytes} (h : o.Keepable login)
    (hidle : o.idle.getD 900 < 2 ^ 32)
    (hexpire : clock.first + o.lifetime.getD 36000 < 2 ^ 32) : (o.new clock).Stampable where
  isTrue_login := by
    rw [CreateOptions.new, h.given]
    exact h.isTrue_login
  login := by
    rw [CreateOptions.new, h.given]
    exact h.login
  authtype := zero_notMem_orElse h.authtype (by decide)
  secondaryauthinfo := zero_notMem_orElse h.secondaryauthinfo List.not_mem_nil
  idle := by
    rw [CreateOptions.new, orNumber_eq h.idle]
    exact hidle
  expire := by
    rw [CreateOptions.new, orNumber_eq h.lifetime]
    exact hexpire

/-- **Tokens and sessions.**  What is stamped is decoded until it has expired; and in every run a
chain of calls that verify the token of a new session stays within its lifetime and its idle time,
with its login and its authtype, which is `level1` where none is given. -/
theorem sessions (hcrypt : crypt.Sound) (hkey : IsTrue key) (run : Run) :
    (∀ token time iv, Token.Stampable token → time < 2 ^ 32 →
      ∃ text, timestamp crypt key token time iv = .ok text ∧
        ∀ first second, first ≤ token.expire → second ≤ time + token.idle →
          decode crypt key text first second = .ok { token with timestamp := time }) ∧
    ∀ c l o login text, (c :: l).Sublist run.calls → c.call = .create o → o.Keepable login →
      (∀ d ∈ run.calls, d.clock.third + o.idle.getD 900 < 2 ^ 32) →
      c.clock.first + o.lifetime.getD 36000 < 2 ^ 32 →
      create crypt key o c.clock c.iv = .ok text → Chain crypt key text l →
      Within crypt key login (orElse o.authtype (ascii "level1"))
        (c.clock.first + o.lifetime.getD 36000) (o.idle.getD 900) c.clock.third l := by
  refine ⟨fun token time iv htoken htime => decode_timestamp hcrypt hkey htoken htime iv, ?_⟩
  intro c l o login text hsub _ hkeep hidle hexpire hcreate hchain
  have hc : c ∈ run.calls := hsub.subset List.mem_cons_self
  have hl : ∀ d ∈ l, d.clock.third < 2 ^ 32 := fun d hd =>
    run.bounded d (hsub.subset (List.mem_cons_of_mem c hd))
  have hidle₀ := hidle c hc
  have htoken : (o.new c.clock).Stampable := hkeep.stampable (by omega) hexpire
  rw [create, if_neg (not_not.mpr hkey), if_neg fun hnot =>
    hnot.1 ⟨login, hkeep.given, hkeep.isTrue_login⟩] at hcreate
  have hwithin := chain_within hcrypt hkey htoken (run.bounded c hc) hl
    (mapError_eq_ok.mp hcreate) hchain
  rwa [CreateOptions.new, hkeep.given, orNumber_eq hkeep.idle, orNumber_eq hkeep.lifetime]
    at hwithin

/-! ## A session of a minute -/

def joedoe (timestamp : ℕ) : Token :=
  ⟨ascii "joedoe", ascii "level1", 900, 1600000060, timestamp, []⟩

def firstPlain : Bytes := (joedoe 1600000000).pack ++ packZ (ascii "BeFfNOsjoTZOoBSqP4VxtccV4EQ")

def secondPlain : Bytes := (joedoe 1600000050).pack ++ packZ (ascii "qeEb8xn4HPtW7eTHpsoQMs31wuA")

/-- The text of the new session. -/
def firstText : Bytes :=
  ascii "UmFuZG9tSVYBAQEBAQEBAamXOnXzl1ybQQIKJrCe%2FgCNBa5sYO37VXGUVTxkaTrYMJnQA7Dy83gJ" ++
    ascii "%0AaQbpeFFN1ZH1EcwfCjXCqfXTjwEmRwo%3D"

def secondText : Bytes :=
  ascii "UmFuZG9tSVYCAgICAgICAsL7Hm%2FR9Eyp908YIOAg2H6QzpgVR69KIK57nmcsSOzX5gpCh70BSOhU" ++
    ascii "%0AZjylbWqtT8D%2BM4xKSPi%2BvuTrd3nNMmk%3D"

def firstCipher : Bytes := Base64.decode (Percent.unescape firstText)

def secondCipher : Bytes := Base64.decode (Percent.unescape secondText)

/-- Blowfish and SHA-1 for these two records, with the key `key`. -/
def minuteCrypt : Crypt where
  encrypt _ _ plain :=
    if plain = firstPlain then firstCipher
    else if plain = secondPlain then secondCipher
    else 0 :: plain
  decrypt _ cipher :=
    if cipher = firstCipher then some firstPlain
    else if cipher = secondCipher then some secondPlain
    else if cipher.head? = some 0 then some cipher.tail
    else none
  sha1Base64 s :=
    if s = (joedoe 1600000000).pack then ascii "BeFfNOsjoTZOoBSqP4VxtccV4EQ"
    else if s = (joedoe 1600000050).pack then ascii "qeEb8xn4HPtW7eTHpsoQMs31wuA"
    else []

theorem minuteCrypt_sound : minuteCrypt.Sound where
  decrypt_encrypt key iv plain := by
    have hfirst : firstCipher.head? ≠ some 0 := by decide
    have hsecond : secondCipher.head? ≠ some 0 := by decide
    have hne : secondCipher ≠ firstCipher := by decide
    simp only [minuteCrypt]
    by_cases h₁ : plain = firstPlain
    · rw [if_pos h₁, if_pos rfl, h₁]
    · by_cases h₂ : plain = secondPlain
      · rw [if_neg h₁, if_pos h₂, if_neg hne, if_pos rfl, h₂]
      · rw [if_neg h₁, if_neg h₂, if_neg fun h : 0 :: plain = firstCipher => hfirst (h ▸ rfl),
          if_neg fun h : 0 :: plain = secondCipher => hsecond (h ▸ rfl)]
        exact if_pos rfl
  encrypt_ne_nil key iv plain := by
    simp only [minuteCrypt]
    split
    · decide
    · split
      · decide
      · exact List.cons_ne_nil _ _
  zero_notMem_sha1Base64 s := by
    simp only [minuteCrypt]
    split
    · decide
    · split <;> decide

def firstClock : Clock := ⟨1600000000, 1600000000, 1600000000, by decide, by decide⟩

def secondClock : Clock := ⟨1600000050, 1600000050, 1600000050, by decide, by decide⟩

/-- A session of a minute, with an authtype. -/
def newSession (authtype : Option Bytes) : CreateOptions :=
  ⟨some (ascii "joedoe"), none, authtype, none, some 60, none⟩

def jhdb : Management := ⟨fun _ => .user 1, fun _ _ => .ok []⟩

def verifyFirst : VerifyOptions := ⟨none, some firstText, none, none, some jhdb⟩

def minuteRun : Run where
  calls := [⟨.create (newSession none), firstClock, List.replicate 8 1⟩,
    ⟨.verify none verifyFirst, secondClock, List.replicate 8 2⟩]
  ordered := by simp [firstClock, secondClock]
  bounded := by simp [firstClock, secondClock]

set_option maxRecDepth 20000 in
theorem create_newSession : create minuteCrypt (ascii "key") (newSession none) firstClock
    (List.replicate 8 1) = .ok firstText := by
  decide

set_option maxRecDepth 20000 in
theorem verify_firstText :
    verify minuteCrypt (ascii "key") none verifyFirst secondClock (List.replicate 8 2) =
      .ok ⟨joedoe 1600000050, secondText, ascii "authtoken-level1", none⟩ := by
  decide

/-- The session is accepted within its minute. -/
theorem sessions_minute :
    Within minuteCrypt (ascii "key") (ascii "joedoe") (ascii "level1") 1600000060 900 1600000000
      [⟨.verify none verifyFirst, secondClock, List.replicate 8 2⟩] :=
  (sessions minuteCrypt_sound (by decide) minuteRun).2
    ⟨.create (newSession none), firstClock, List.replicate 8 1⟩ _ (newSession none)
    (ascii "joedoe") firstText (List.Sublist.refl _) rfl
    ⟨rfl, by decide, by decide, by decide, by decide, by decide, by decide⟩
    (by simp [minuteRun, firstClock, secondClock, newSession]) (by decide) create_newSession
    ⟨none, verifyFirst, none, _, rfl, rfl, verify_firstText, trivial⟩

set_option maxRecDepth 20000 in
/-- A session with the authtype `0` is accepted as `level1`. -/
theorem authtype_zero :
    create minuteCrypt (ascii "key") (newSession (some (ascii "0"))) firstClock
        (List.replicate 8 1) = .ok firstText ∧
      verify minuteCrypt (ascii "key") none verifyFirst secondClock (List.replicate 8 2) =
        .ok ⟨joedoe 1600000050, secondText, ascii "authtoken-level1", none⟩ ∧
      (joedoe 1600000050).authtype ≠ ascii "0" :=
  ⟨by decide, verify_firstText, by decide⟩

end JazzHands.AuthToken

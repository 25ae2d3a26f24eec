import Mathlib.Logic.Equiv.Basic
import JazzHands.AccountPassword.Manip

/-!
# Setting the passwords of an account

Two loops: one adds an entry for each managed type, the other stores the crypts.
`setAccountPasswords_has` is what they leave, type by type, and the comparison with
`authenticate_account` starts from there.
-/

namespace JazzHands.AccountPassword

open Postgres

section

variable (E : Pgcrypto) (genSalt : String → String) (db db' : PasswordDb) (args : SetArgs)

/-- The account has the crypt, as its password of the type. -/
def Has (accountId : ℕ) (τ crypt : String) : Prop :=
  ∃ r ∈ db.accountPassword, r.IsOf accountId τ ∧ r.password = crypt

/-- The type is one of those that are passed, with a crypt or with `null`. -/
def SetArgs.Passes (τ : String) : Prop := τ ∈ args.crypts.map Prod.fst

/-- The type is managed and not passed. -/
def LeftToDb (τ : String) : Prop := some τ ∈ db.managedpwtype ∧ ¬ args.Passes τ

/-- The call makes the crypt for the type. -/
def Generated (τ crypt : String) : Prop :=
  LeftToDb db args τ ∧ managedCrypt E genSalt db args τ = .ok crypt

/-- The call stores the crypt. -/
def Written (τ crypt : String) : Prop :=
  (τ, some crypt) ∈ args.crypts ∨ Generated E genSalt db args τ crypt

end

variable {E : Pgcrypto} {genSalt : String → String} {now : ℤ} {db db' db₁ : PasswordDb}
variable {args : SetArgs} {crypts crypts' : Crypts} {done : List String} {n : ℕ}
variable {a : ℕ} {τ crypt method value : String}

/-! ## Authentication -/

theorem authenticateAccount_eq_true_iff {password encodeMethod label : String} {plainpw : String}
    {raiseexception : Bool}
    (h : deobfuscateText E password encodeMethod label = .ok (some plainpw)) :
    authenticateAccount E db a password encodeMethod label raiseexception = .ok true ↔
      ∃ τ ∈ triedTypes, ∃ crypt, Has db a τ crypt ∧ E.crypt plainpw crypt = crypt := by
  have hrows : (∃ r ∈ db.accountPassword.filter (fun r => decide (r.accountId = a ∧
      r.passwordType ∈ triedTypes)), Matches E (some plainpw) r.password) ↔
      ∃ τ ∈ triedTypes, ∃ crypt, Has db a τ crypt ∧ E.crypt plainpw crypt = crypt := by
    constructor
    · rintro ⟨r, hr, p, hp, hmatch⟩
      cases hp
      obtain ⟨hr, hτ⟩ := List.mem_filter.mp hr
      obtain ⟨ha, hτ⟩ := of_decide_eq_true hτ
      exact ⟨_, hτ, _, ⟨r, hr, ⟨ha, rfl⟩, rfl⟩, hmatch⟩
    · rintro ⟨τ, hτ, crypt, ⟨r, hr, ⟨ha, rfl⟩, rfl⟩, hmatch⟩
      exact ⟨r, List.mem_filter.mpr ⟨hr, decide_eq_true ⟨ha, hτ⟩⟩, plainpw, rfl, hmatch⟩
  rw [← hrows, authenticateAccount, h]
  simp only [bind, Except.bind]
  split_ifs with hmatch
  · simp only [hmatch]
  · simp only [hmatch, iff_false]
    split
    · simp
    · simp

/-! ## The loop over the managed types -/

theorem jsonbInsert_ok (h : jsonbInsert crypts method value = .ok crypts') :
    method ∉ crypts.map Prod.fst ∧ crypts' = crypts ++ [(method, some value)] := by
  unfold jsonbInsert at h
  split_ifs at h with hkey
  · exact absurd h raise_ne_ok
  · cases h
    exact ⟨hkey, rfl⟩

theorem addManaged_ok {pwtype : Option String}
    (h : addManaged E genSalt db args crypts pwtype = .ok crypts') :
    ∃ τ, pwtype = some τ ∧ (args.Passes τ ∧ crypts' = crypts ∨
      ¬ args.Passes τ ∧ ∃ crypt, managedCrypt E genSalt db args τ = .ok crypt ∧
        τ ∉ crypts.map Prod.fst ∧ crypts' = crypts ++ [(τ, some crypt)]) := by
  cases pwtype with
  | none => exact absurd h raise_ne_ok
  | some τ =>
    refine ⟨τ, rfl, ?_⟩
    dsimp only [addManaged] at h
    split_ifs at h with hpassed
    · cases h
      exact Or.inl ⟨hpassed, rfl⟩
    · obtain ⟨crypt, hcrypt, h⟩ := bind_eq_ok.mp h
      obtain ⟨hkey, rfl⟩ := jsonbInsert_ok h
      exact Or.inr ⟨hpassed, crypt, hcrypt, hkey, rfl⟩

/-- The keys stay different, and an entry is added for each managed type that is not passed. -/
theorem addManaged_loop {l : List (Option String)}
    (h : l.foldlM (addManaged E genSalt db args) crypts = .ok crypts')
    (hnd : (crypts.map Prod.fst).Nodup) :
    (crypts'.map Prod.fst).Nodup ∧ ∀ τ v, (τ, v) ∈ crypts' ↔ (τ, v) ∈ crypts ∨
      some τ ∈ l ∧ ¬ args.Passes τ ∧ ∃ crypt, v = some crypt ∧
        managedCrypt E genSalt db args τ = .ok crypt := by
  induction l generalizing crypts with
  | nil =>
    cases h
    simp [hnd]
  | cons pwtype l ih =>
    obtain ⟨crypts₁, h₁, hl⟩ := bind_eq_ok.mp h
    obtain ⟨τ₀, rfl, ⟨hpassed, rfl⟩ | ⟨hpassed, crypt, hcrypt, hkey, rfl⟩⟩ := addManaged_ok h₁
    · obtain ⟨hnd', hmem⟩ := ih hl hnd
      refine ⟨hnd', fun τ v => ?_⟩
      rw [hmem]
      refine or_congr_right ?_
      constructor
      · rintro ⟨hτ, hrest⟩
        exact ⟨List.mem_cons_of_mem _ hτ, hrest⟩
      · rintro ⟨hτ, hnot, hrest⟩
        refine ⟨(List.mem_cons.mp hτ).resolve_left fun heq => ?_, hnot, hrest⟩
        cases heq
        exact hnot hpassed
    · have hnd₁ : ((crypts ++ [(τ₀, some crypt)]).map Prod.fst).Nodup := by
        rw [List.map_append, List.map_singleton, List.nodup_append]
        refine ⟨hnd, List.nodup_singleton _, fun x hx y hy heq => hkey ?_⟩
        rwa [heq, List.mem_singleton.mp hy] at hx
      obtain ⟨hnd', hmem⟩ := ih hl hnd₁
      refine ⟨hnd', fun τ v => ?_⟩
      rw [hmem, List.mem_append, List.mem_singleton, Prod.mk.injEq, or_assoc]
      refine or_congr_right ?_
      constructor
      · rintro (⟨rfl, rfl⟩ | ⟨hτ, hrest⟩)
        · exact ⟨List.mem_cons_self, hpassed, crypt, rfl, hcrypt⟩
        · exact ⟨List.mem_cons_of_mem _ hτ, hrest⟩
      · rintro ⟨hτ, hnot, c, rfl, hc⟩
        rcases List.mem_cons.mp hτ with heq | hτ
        · cases heq
          rw [hcrypt] at hc
          cases hc
          exact Or.inl ⟨rfl, rfl⟩
        · exact Or.inr ⟨hτ, hnot, c, rfl, hc⟩

theorem managedCrypt_of_addManaged {l : List (Option String)}
    (h : l.foldlM (addManaged E genSalt db args) crypts = .ok crypts') (hτ : some τ ∈ l)
    (hpassed : ¬ args.Passes τ) : ∃ crypt, managedCrypt E genSalt db args τ = .ok crypt := by
  induction l generalizing crypts with
  | nil => exact absurd hτ List.not_mem_nil
  | cons pwtype l ih =>
    obtain ⟨crypts₁, h₁, h⟩ := bind_eq_ok.mp h
    rcases List.mem_cons.mp hτ with rfl | hτ
    · obtain ⟨τ₀, hτ₀, hstep⟩ := addManaged_ok h₁
      cases hτ₀
      rcases hstep with ⟨hp, -⟩ | ⟨-, crypt, hcrypt, -⟩
      · exact absurd hp hpassed
      · exact ⟨crypt, hcrypt⟩
    · exact ih h hτ

/-! ## The loop over the crypts -/

theorem has_map_update (hrows : db'.accountPassword = db.accountPassword.map fun r =>
      if r.IsOf args.accountId method then args.updateRow value r else r)
    (hconflict : ∃ r ∈ db.accountPassword, r.IsOf args.accountId method) :
    Has db' a τ crypt ↔ if a = args.accountId ∧ τ = method then crypt = value
      else Has db a τ crypt := by
  simp only [Has, hrows, List.mem_map]
  split_ifs with hkey
  · obtain ⟨rfl, rfl⟩ := hkey
    constructor
    · rintro ⟨_, ⟨r, -, rfl⟩, hof, rfl⟩
      split_ifs at hof ⊢ with hr
      · rfl
      · exact absurd hof hr
    · rintro rfl
      obtain ⟨r, hr, hof⟩ := hconflict
      refine ⟨_, ⟨r, hr, rfl⟩, ?_⟩
      rw [if_pos hof]
      exact ⟨hof, rfl⟩
  · constructor
    · rintro ⟨_, ⟨r, hr, rfl⟩, hof, rfl⟩
      split_ifs at hof ⊢ with hupd
      · exact absurd ⟨hof.1.symm.trans hupd.1, hof.2.symm.trans hupd.2⟩ hkey
      · exact ⟨r, hr, hof, rfl⟩
    · rintro ⟨r, hr, hof, rfl⟩
      refine ⟨r, ⟨r, hr, if_neg fun hupd => ?_⟩, hof, rfl⟩
      exact hkey ⟨hof.1.symm.trans hupd.1, hof.2.symm.trans hupd.2⟩

theorem has_append (hrows : db'.accountPassword = db.accountPassword ++ [args.newRow method value])
    (hnone : ¬ ∃ r ∈ db.accountPassword, r.IsOf args.accountId method) :
    Has db' a τ crypt ↔ if a = args.accountId ∧ τ = method then crypt = value
      else Has db a τ crypt := by
  simp only [Has, hrows, List.mem_append, List.mem_singleton, or_and_right, exists_or]
  split_ifs with hkey
  · obtain ⟨rfl, rfl⟩ := hkey
    constructor
    · rintro (⟨r, hr, hof, -⟩ | ⟨r, rfl, -, rfl⟩)
      · exact absurd ⟨r, hr, hof⟩ hnone
      · rfl
    · rintro rfl
      exact Or.inr ⟨_, rfl, ⟨rfl, rfl⟩, rfl⟩
  · refine or_iff_left ?_
    rintro ⟨r, rfl, ⟨rfl, rfl⟩, -⟩
    exact hkey ⟨rfl, rfl⟩

theorem upsertPassword_ok (h : upsertPassword db args method value = .ok db') :
    Has db' a τ crypt ↔ if a = args.accountId ∧ τ = method then crypt = value
      else Has db a τ crypt := by
  unfold upsertPassword at h
  cases hacct : db.account.find? (·.accountId = args.accountId) with
  | none =>
    rw [hacct] at h
    exact absurd h raise_ne_ok
  | some acct =>
    rw [hacct] at h
    dsimp only at h
    split_ifs at h with hconflict
    · cases h
      exact has_map_update rfl hconflict
    · simp only [bind_unit_eq_ok, Except.ok.injEq] at h
      obtain ⟨-, -, rfl⟩ := h
      exact has_append rfl hconflict

/-- One turn: the password of the type is the crypt that is passed for it, or there is none. -/
theorem storeCrypt_ok {x x' : PasswordDb × List String} {entry : String × Option String}
    (h : storeCrypt args x entry = .ok x') :
    (∀ a τ crypt, Has x'.1 a τ crypt ↔ if a = args.accountId ∧ τ = entry.1 then
        entry.2 = some crypt else Has x.1 a τ crypt) ∧
      ∀ τ, τ ∈ x'.2 ↔ τ ∈ x.2 ∨ τ = entry.1 ∧ ∃ crypt, entry.2 = some crypt := by
  obtain ⟨method, value⟩ := entry
  cases value with
  | none =>
    cases h
    refine ⟨fun a τ crypt => ?_, fun τ => by simp⟩
    simp only [Has, List.mem_filter, decide_eq_true_eq]
    split_ifs with hkey
    · obtain ⟨rfl, rfl⟩ := hkey
      simp only [iff_false]
      rintro ⟨r, ⟨-, hnot⟩, hof, -⟩
      exact hnot hof
    · refine exists_congr fun r => ⟨fun hr => ⟨hr.1.1, hr.2⟩, fun hr => ⟨⟨hr.1, fun hof => ?_⟩, hr.2⟩⟩
      exact hkey ⟨hr.2.1.1.symm.trans hof.1, hr.2.1.2.symm.trans hof.2⟩
  | some value =>
    obtain ⟨db₁, h₁, h⟩ := bind_eq_ok.mp h
    cases h
    refine ⟨fun a τ crypt => ?_, fun τ => by simp⟩
    rw [upsertPassword_ok h₁]
    simp only [Option.some.injEq, eq_comm]

/-- The passwords after the loop are those passed, and the others of the types that are not. -/
theorem storeCrypt_loop {x x' : PasswordDb × List String}
    (h : crypts.foldlM (storeCrypt args) x = .ok x') (hnd : (crypts.map Prod.fst).Nodup) :
    (∀ a τ crypt, Has x'.1 a τ crypt ↔ if a = args.accountId ∧ τ ∈ crypts.map Prod.fst then
        (τ, some crypt) ∈ crypts else Has x.1 a τ crypt) ∧
      ∀ τ, τ ∈ x'.2 ↔ τ ∈ x.2 ∨ ∃ crypt, (τ, some crypt) ∈ crypts := by
  induction crypts generalizing x with
  | nil =>
    cases h
    simp
  | cons entry l ih =>
    obtain ⟨x₁, h₁, h⟩ := bind_eq_ok.mp h
    obtain ⟨hhas₁, hdone₁⟩ := storeCrypt_ok h₁
    obtain ⟨hkey, hnd⟩ := List.nodup_cons.mp hnd
    obtain ⟨hhas, hdone⟩ := ih h hnd
    refine ⟨fun a τ crypt => ?_, fun τ => ?_⟩
    · rw [hhas, hhas₁, List.map_cons]
      by_cases hl : a = args.accountId ∧ τ ∈ l.map Prod.fst
      · -- a later entry is of the type, so this one is not
        have hne : ¬ (τ, some crypt) = entry := fun heq => hkey (heq ▸ hl.2)
        rw [if_pos hl, if_pos ⟨hl.1, List.mem_cons_of_mem _ hl.2⟩, List.mem_cons, or_iff_right hne]
      · rw [if_neg hl]
        by_cases hτ : a = args.accountId ∧ τ = entry.1
        · obtain ⟨ha, rfl⟩ := hτ
          have hnot : (entry.1, some crypt) ∉ l := fun hmem =>
            hkey (List.mem_map.mpr ⟨_, hmem, rfl⟩)
          rw [if_pos ⟨ha, rfl⟩, if_pos ⟨ha, List.mem_cons_self⟩, List.mem_cons, or_iff_left hnot]
          simp only [Prod.ext_iff, true_and, eq_comm]
        · rw [if_neg hτ, if_neg]
          rintro ⟨ha, hmem⟩
          rcases List.mem_cons.mp hmem with heq | hmem
          · exact hτ ⟨ha, heq⟩
          · exact hl ⟨ha, hmem⟩
    · rw [hdone, hdone₁, or_assoc]
      refine or_congr_right ?_
      simp only [List.mem_cons, exists_or, Prod.ext_iff, exists_and_left, eq_comm]

/-! ## The call -/

theorem has_purgePasswords : Has (purgePasswords db n done) a τ crypt ↔
    Has db a τ crypt ∧ (a = n → done = [] ∨ τ ∈ done) := by
  unfold purgePasswords
  split_ifs with hdone
  · simp [hdone]
  · simp only [Has, List.mem_filter, decide_eq_true_eq, hdone, false_or]
    constructor
    · rintro ⟨r, ⟨hr, hnot⟩, ⟨rfl, rfl⟩, hpw⟩
      exact ⟨⟨r, hr, ⟨rfl, rfl⟩, hpw⟩, fun ha => by_contra fun hτ => hnot ⟨ha, hτ⟩⟩
    · rintro ⟨⟨r, hr, ⟨rfl, rfl⟩, hpw⟩, hkept⟩
      exact ⟨r, ⟨hr, fun hnot => hnot.2 (hkept hnot.1)⟩, ⟨rfl, rfl⟩, hpw⟩

@[simp] theorem has_setPasswordLength {len : Option ℕ} :
    Has (setPasswordLength db n len) a τ crypt ↔ Has db a τ crypt := Iff.rfl

/-- **The passwords after a call.**  The account has the crypts that the call stores.  Of the others
it has those of types that are neither passed nor managed, unless there is a purge, which does nothing
when the call stores nothing.  Other accounts keep theirs. -/
theorem setAccountPasswords_has (hmap : (args.crypts.map Prod.fst).Nodup)
    (hrace : args.racecatch = false)
    (h : setAccountPasswords E genSalt now db args = .ok (db', n)) :
    (∀ τ crypt, Has db' args.accountId τ crypt ↔ Written E genSalt db args τ crypt ∨
      (args.purge = true → ∀ τ crypt, ¬ Written E genSalt db args τ crypt) ∧
        Has db args.accountId τ crypt ∧ ¬ args.Passes τ ∧ some τ ∉ db.managedpwtype) ∧
    (∀ τ, LeftToDb db args τ → ∃ crypt, managedCrypt E genSalt db args τ = .ok crypt) ∧
    ∀ a τ crypt, a ≠ args.accountId → (Has db' a τ crypt ↔ Has db a τ crypt) := by
  obtain ⟨plainpw, -, h⟩ := bind_eq_ok.mp h
  rw [if_neg (by simp [hrace])] at h
  obtain ⟨entries, hentries, h⟩ := bind_eq_ok.mp h
  obtain ⟨⟨db₁, done⟩, hloop, h⟩ := bind_eq_ok.mp h
  simp only [Except.ok.injEq, Prod.mk.injEq] at h
  obtain ⟨rfl, -⟩ := h
  obtain ⟨hnd, hmem⟩ := addManaged_loop hentries hmap
  obtain ⟨hhas, hdone⟩ := storeCrypt_loop hloop hnd
  have hmade : ∀ τ, LeftToDb db args τ → ∃ crypt, managedCrypt E genSalt db args τ = .ok crypt :=
    fun τ hτ => managedCrypt_of_addManaged hentries hτ.1 hτ.2
  have hwritten : ∀ τ crypt, (τ, some crypt) ∈ entries ↔ Written E genSalt db args τ crypt := by
    intro τ crypt
    rw [hmem, Written, Generated, LeftToDb, and_assoc]
    simp only [Option.some.injEq, exists_eq_left']
  have hkeys : ∀ τ, τ ∈ entries.map Prod.fst ↔ args.Passes τ ∨ some τ ∈ db.managedpwtype := by
    intro τ
    constructor
    · intro hτ
      obtain ⟨⟨τ, v⟩, hv, rfl⟩ := List.mem_map.mp hτ
      rcases (hmem τ v).mp hv with hv | ⟨hτ, -⟩
      · exact Or.inl (List.mem_map.mpr ⟨_, hv, rfl⟩)
      · exact Or.inr hτ
    · intro hτ
      by_cases hpassed : args.Passes τ
      · obtain ⟨⟨τ, v⟩, hv, rfl⟩ := List.mem_map.mp hpassed
        exact List.mem_map.mpr ⟨_, (hmem τ v).mpr (Or.inl hv), rfl⟩
      · have hleft : LeftToDb db args τ := ⟨hτ.resolve_left hpassed, hpassed⟩
        obtain ⟨crypt, hcrypt⟩ := hmade τ hleft
        exact List.mem_map.mpr ⟨_, (hwritten τ crypt).mpr (Or.inr ⟨hleft, hcrypt⟩), rfl⟩
  have hdone' : ∀ τ, τ ∈ done ↔ ∃ crypt, Written E genSalt db args τ crypt := by
    intro τ
    simp only [← hwritten]
    simpa using hdone τ
  have hnil : done = [] ↔ ∀ τ crypt, ¬ Written E genSalt db args τ crypt := by
    simp only [List.eq_nil_iff_forall_not_mem, hdone', not_exists]
  refine ⟨fun τ crypt => ?_, hmade, fun a τ crypt ha => ?_⟩
  · have hrest : Has (if args.purge = true then purgePasswords db₁ args.accountId done else db₁)
        args.accountId τ crypt ↔ Has db₁ args.accountId τ crypt ∧
          (args.purge = true → done = [] ∨ τ ∈ done) := by
      split_ifs with hpurge
      · simp [has_purgePasswords, hpurge]
      · simp [hpurge]
    rw [has_setPasswordLength, hrest, hhas]
    by_cases hτ : τ ∈ entries.map Prod.fst
    · -- the entry decides
      have hnot : ¬ (¬ args.Passes τ ∧ some τ ∉ db.managedpwtype) := by
        rw [← not_or, ← hkeys]
        exact fun h => h hτ
      rw [if_pos ⟨rfl, hτ⟩, hwritten]
      constructor
      · exact fun hw => Or.inl hw.1
      · rintro (hw | hold)
        · exact ⟨hw, fun _ => Or.inr ((hdone' τ).mpr ⟨crypt, hw⟩)⟩
        · exact absurd hold.2.2 hnot
    · -- an old crypt, which a purge deletes unless nothing is done
      have hnot : ∀ crypt, ¬ Written E genSalt db args τ crypt := fun c hw =>
        hτ (List.mem_map.mpr ⟨_, (hwritten τ c).mpr hw, rfl⟩)
      have hτdone : τ ∉ done := fun hmem =>
        (hnot _ ((hdone' τ).mp hmem).choose_spec).elim
      rw [if_neg fun hc => hτ hc.2]
      rw [hkeys, not_or] at hτ
      simp only [hτdone, or_false, hnil, hnot crypt, false_or, hτ, not_false_eq_true, and_true]
      exact and_comm
  · have hrest : Has (if args.purge = true then purgePasswords db₁ args.accountId done else db₁)
        a τ crypt ↔ Has db₁ a τ crypt := by
      split_ifs with hpurge
      · simp [has_purgePasswords, ha]
      · rfl
    rw [has_setPasswordLength, hrest, hhas, if_neg fun hc => ha hc.1]

/-! ## What a call should do -/

/-- The managed types whose crypts `authenticate_account` can check. -/
def cryptTypes : List String := ["cryptMD5", "blowfish", "xdes"]

section

variable (E : Pgcrypto) (genSalt : String → String) (db db' : PasswordDb) (args : SetArgs)
variable (plainpw : String)

/-- What a call should do: the plaintext authenticates the account, the account has the types that it
should, and after a purge no crypt is tried that the call has not stored. -/
structure SetsPasswords : Prop where
  authenticates : (∃ τ ∈ cryptTypes, LeftToDb db args τ) →
    ∀ password encodeMethod label raiseexception,
      deobfuscateText E password encodeMethod label = .ok (some plainpw) →
        authenticateAccount E db' args.accountId password encodeMethod label raiseexception =
          .ok true
  types : ∀ τ, (∃ crypt, Has db' args.accountId τ crypt) ↔
    (∃ crypt, (τ, some crypt) ∈ args.crypts) ∨ LeftToDb db args τ ∨
      args.purge = false ∧ (∃ crypt, Has db args.accountId τ crypt) ∧ (τ, none) ∉ args.crypts
  renewed : args.purge = true → ∀ τ ∈ triedTypes, ∀ crypt, Has db' args.accountId τ crypt →
    Written E genSalt db args τ crypt

/-- A crypt that is passed, or one that the call leaves alone, is one of the plaintext. -/
def MatchesOther : Prop :=
  ∃ τ ∈ triedTypes, ∃ crypt, E.crypt plainpw crypt = crypt ∧ ((τ, some crypt) ∈ args.crypts ∨
    args.purge = false ∧ Has db args.accountId τ crypt ∧ ¬ args.Passes τ ∧
      some τ ∉ db.managedpwtype)

/-- There is a purge, nothing to store, and an old crypt of a type that is not passed. -/
def PurgesNothing : Prop :=
  args.purge = true ∧ (∀ τ crypt, (τ, some crypt) ∉ args.crypts) ∧ (∀ τ, ¬ LeftToDb db args τ) ∧
    ∃ τ crypt, Has db args.accountId τ crypt ∧ ¬ args.Passes τ

end

variable {plainpw : String}

theorem mem_triedTypes_of_mem_cryptTypes (h : τ ∈ cryptTypes) : τ ∈ triedTypes := by
  simp only [cryptTypes, List.mem_cons, List.not_mem_nil, or_false] at h
  rcases h with rfl | rfl | rfl <;> decide

/-- The crypts that the call makes for these types are crypts of its argument. -/
theorem managedCrypt_cryptTypes (h : τ ∈ cryptTypes)
    (hc : managedCrypt E genSalt db args τ = .ok crypt) :
    ∃ salt, crypt = E.crypt args.password salt := by
  simp only [cryptTypes, List.mem_cons, List.not_mem_nil, or_false] at h
  rcases h with rfl | rfl | rfl
  · exact ⟨genSalt "md5", (Except.ok.inj hc).symm⟩
  · exact ⟨genSalt "bf", (Except.ok.inj hc).symm⟩
  · exact ⟨genSalt "xdes", (Except.ok.inj hc).symm⟩

/-- Of the crypts that the call makes, one of the plaintext is one of the argument. -/
theorem password_eq_of_managedCrypt (hE : E.Lawful)
    (hc : managedCrypt E genSalt db args τ = .ok crypt) (hmatch : E.crypt plainpw crypt = crypt) :
    args.password = plainpw := by
  have hcrypt : ∀ salt, crypt = E.crypt args.password salt → args.password = plainpw := by
    rintro salt rfl
    exact (hE.eq_of_crypt _ _ _ hmatch).symm
  unfold managedCrypt at hc
  split_ifs at hc
  · exact hcrypt _ (Except.ok.inj hc).symm
  · exact hcrypt _ (Except.ok.inj hc).symm
  · exact hcrypt _ (Except.ok.inj hc).symm
  · cases hc
    exact absurd hmatch (hE.crypt_md5 _ _)
  · exact absurd hc raise_ne_ok

/-- The crypts of the account after a call, as `setAccountPasswords_has` has them. -/
structure Stores (E : Pgcrypto) (genSalt : String → String) (db db' : PasswordDb) (args : SetArgs) :
    Prop where
  has : ∀ τ crypt, Has db' args.accountId τ crypt ↔ Written E genSalt db args τ crypt ∨
    (args.purge = true → ∀ τ crypt, ¬ Written E genSalt db args τ crypt) ∧
      Has db args.accountId τ crypt ∧ ¬ args.Passes τ ∧ some τ ∉ db.managedpwtype
  made : ∀ τ, LeftToDb db args τ → ∃ crypt, managedCrypt E genSalt db args τ = .ok crypt

namespace Stores

section

variable (h : Stores E genSalt db db' args)
include h

theorem written_of_leftToDb (hτ : LeftToDb db args τ) :
    ∃ crypt, Written E genSalt db args τ crypt := by
  obtain ⟨crypt, hcrypt⟩ := h.made τ hτ
  exact ⟨crypt, Or.inr ⟨hτ, hcrypt⟩⟩

/-- The account has a crypt of the plaintext where the argument is the plaintext, or another crypt
happens to be one. -/
theorem matches_iff (hE : E.Lawful) (hleft : ∃ τ ∈ cryptTypes, LeftToDb db args τ) :
    (∃ τ ∈ triedTypes, ∃ crypt, Has db' args.accountId τ crypt ∧ E.crypt plainpw crypt = crypt) ↔
      args.password = plainpw ∨ MatchesOther E db args plainpw := by
  obtain ⟨τ₀, hτ₀, hleft⟩ := hleft
  constructor
  · rintro ⟨τ, hτ, crypt, hcrypt, hmatch⟩
    rcases (h.has τ crypt).mp hcrypt with (hpassed | ⟨-, hmade⟩) | ⟨hpurge, hold⟩
    · exact Or.inr ⟨τ, hτ, crypt, hmatch, Or.inl hpassed⟩
    · exact Or.inl (password_eq_of_managedCrypt hE hmade hmatch)
    · refine Or.inr ⟨τ, hτ, crypt, hmatch, Or.inr ⟨?_, hold⟩⟩
      obtain ⟨c, hc⟩ := h.written_of_leftToDb hleft
      exact Bool.eq_false_iff.mpr fun ht => hpurge ht _ _ hc
  · rintro (rfl | ⟨τ, hτ, crypt, hmatch, hpassed | ⟨hpurge, hold⟩⟩)
    · obtain ⟨crypt, hcrypt⟩ := h.made τ₀ hleft
      obtain ⟨salt, rfl⟩ := managedCrypt_cryptTypes hτ₀ hcrypt
      exact ⟨τ₀, mem_triedTypes_of_mem_cryptTypes hτ₀, _,
        (h.has _ _).mpr (Or.inl (Or.inr ⟨hleft, hcrypt⟩)), hE.crypt_crypt _ _⟩
    · exact ⟨τ, hτ, crypt, (h.has _ _).mpr (Or.inl (Or.inl hpassed)), hmatch⟩
    · refine ⟨τ, hτ, crypt, (h.has _ _).mpr (Or.inr ⟨fun ht => ?_, hold⟩), hmatch⟩
      rw [hpurge] at ht
      cases ht

/-- An old crypt is there after a purge only if nothing is stored. -/
theorem purgesNothing (hpurge : args.purge = true) (hcrypt : Has db' args.accountId τ crypt)
    (hnot : ¬ Written E genSalt db args τ crypt) :
    PurgesNothing db args := by
  obtain ⟨hnone, hold, hpassed, -⟩ := ((h.has τ crypt).mp hcrypt).resolve_left hnot
  refine ⟨hpurge, fun τ c hc => hnone hpurge τ c (Or.inl hc), fun τ hτ => ?_, τ, crypt, hold, hpassed⟩
  obtain ⟨c, hc⟩ := h.written_of_leftToDb hτ
  exact hnone hpurge τ c hc

theorem exists_written_iff :
    (∃ crypt, Written E genSalt db args τ crypt) ↔
      (∃ crypt, (τ, some crypt) ∈ args.crypts) ∨ LeftToDb db args τ := by
  constructor
  · rintro ⟨crypt, hpassed | ⟨hleft, -⟩⟩
    · exact Or.inl ⟨crypt, hpassed⟩
    · exact Or.inr hleft
  · rintro (⟨crypt, hpassed⟩ | hleft)
    · exact ⟨crypt, Or.inl hpassed⟩
    · exact h.written_of_leftToDb hleft

/-- The types after the call are the right ones, unless the purge fails. -/
theorem types_iff (hnot : ¬ PurgesNothing db args) :
    (∃ crypt, Has db' args.accountId τ crypt) ↔
      (∃ crypt, (τ, some crypt) ∈ args.crypts) ∨ LeftToDb db args τ ∨
        args.purge = false ∧ (∃ crypt, Has db args.accountId τ crypt) ∧ (τ, none) ∉ args.crypts := by
  rw [← or_assoc, ← h.exists_written_iff]
  constructor
  · rintro ⟨crypt, hcrypt⟩
    by_cases hw : Written E genSalt db args τ crypt
    · exact Or.inl ⟨crypt, hw⟩
    · obtain ⟨-, hold, hpassed, -⟩ := ((h.has τ crypt).mp hcrypt).resolve_left hw
      refine Or.inr ⟨Bool.eq_false_iff.mpr fun ht => hnot (h.purgesNothing ht hcrypt hw),
        ⟨crypt, hold⟩, fun hmem => hpassed (List.mem_map.mpr ⟨_, hmem, rfl⟩)⟩
  · rintro (⟨crypt, hw⟩ | ⟨hpurge, ⟨crypt, hold⟩, hnull⟩)
    · exact ⟨crypt, (h.has τ crypt).mpr (Or.inl hw)⟩
    · by_cases hw : ∃ c, Written E genSalt db args τ c
      · obtain ⟨c, hc⟩ := hw
        exact ⟨c, (h.has τ c).mpr (Or.inl hc)⟩
      · rw [h.exists_written_iff, not_or] at hw
        have hpassed : ¬ args.Passes τ := by
          intro hp
          obtain ⟨⟨τ, v⟩, hv, rfl⟩ := List.mem_map.mp hp
          cases v with
          | none => exact hnull hv
          | some c => exact hw.1 ⟨c, hv⟩
        refine ⟨crypt, (h.has τ crypt).mpr (Or.inr ⟨fun ht => ?_, hold, hpassed, fun hm => ?_⟩)⟩
        · rw [hpurge] at ht
          cases ht
        · exact hw.2 ⟨hm, hpassed⟩

end

end Stores

/-- **When a call does what it should.**  The argument has to be the plaintext, since it is the
argument that is hashed, unless another crypt of the account happens to be one of the plaintext; and
a purge needs something to store. -/
theorem setsPasswords_iff (hE : E.Lawful) (hmap : (args.crypts.map Prod.fst).Nodup)
    (hrace : args.racecatch = false)
    (hplain : deobfuscateText E args.password args.encodeMethod args.label = .ok (some plainpw))
    (h : setAccountPasswords E genSalt now db args = .ok (db', n)) :
    SetsPasswords E genSalt db db' args plainpw ↔
      ((∃ τ ∈ cryptTypes, LeftToDb db args τ) →
        args.password = plainpw ∨ MatchesOther E db args plainpw) ∧ ¬ PurgesNothing db args := by
  obtain ⟨hhas, hmade, -⟩ := setAccountPasswords_has hmap hrace h
  have hs : Stores E genSalt db db' args := ⟨hhas, hmade⟩
  constructor
  · refine fun hsets => ⟨fun hleft => ?_, ?_⟩
    · rw [← hs.matches_iff hE hleft]
      exact (authenticateAccount_eq_true_iff hplain).mp
        (hsets.authenticates hleft _ _ _ false hplain)
    · rintro ⟨hpurge, hnone, hleft, τ, crypt, hold, hpassed⟩
      have hnot : ∀ τ c, ¬ Written E genSalt db args τ c := by
        rintro τ c (hc | ⟨hτ, -⟩)
        · exact hnone τ c hc
        · exact hleft τ hτ
      have hcrypt : Has db' args.accountId τ crypt :=
        (hs.has τ crypt).mpr (Or.inr ⟨fun _ => hnot, hold, hpassed, fun hm => hleft τ ⟨hm, hpassed⟩⟩)
      rcases (hsets.types τ).mp ⟨crypt, hcrypt⟩ with ⟨c, hc⟩ | hτ | ⟨hfalse, -⟩
      · exact hnone τ c hc
      · exact hleft τ hτ
      · rw [hpurge] at hfalse
        cases hfalse
  · rintro ⟨hmatch, hnot⟩
    refine ⟨fun hleft password encodeMethod label raiseexception hdec => ?_,
      fun τ => hs.types_iff hnot, fun hpurge τ _ crypt hcrypt => ?_⟩
    · exact (authenticateAccount_eq_true_iff hdec).mpr ((hs.matches_iff hE hleft).mpr (hmatch hleft))
    · by_contra hw
      exact hnot (hs.purgesNothing hpurge hcrypt hw)

/-- What MD5 crypts make of the two texts below, with the salt below; of other texts as they are. -/
def hashed : Equiv.Perm String :=
  (Equiv.swap "secret" "cHJi5PXp/ki/ktXzqlk6I1").trans
    (Equiv.swap "c2VjcmV0" "hWPdc4zQKybAOx8JfNbFg1")

/-- MD5 crypts, with a salt of eight characters.  There is one text that decodes. -/
def md5Crypt : Pgcrypto where
  crypt p s := String.ofList ((s.toList ++ List.replicate 11 '.').take 11 ++
    '$' :: (hashed p).toList)
  md5 _ := "5ebe2294ecd0e0f08eab7690d2a6ee69"
  decode _ _ encoded := .ok (if encoded = "c2VjcmV0" then some "secret" else none)

theorem lawful_md5Crypt : md5Crypt.Lawful where
  crypt_crypt p s := by
    have hlen : ((s.toList ++ List.replicate 11 '.').take 11).length = 11 := by simp
    simp only [md5Crypt, String.toList_ofList, List.append_assoc]
    rw [List.take_left' hlen]
  eq_of_crypt p q s h := by
    have hlen : ((s.toList ++ List.replicate 11 '.').take 11).length = 11 := by simp
    simp only [md5Crypt, String.toList_ofList, List.append_assoc] at h
    rw [List.take_left' hlen, String.ofList_inj] at h
    have htail := List.append_cancel_left h
    exact hashed.injective (String.toList_inj.mp (List.cons_inj_right _ |>.mp htail))
  crypt_md5 p t h := by
    -- a crypt has a `$` after its salt
    have hmd5 : md5Crypt.md5 t = "5ebe2294ecd0e0f08eab7690d2a6ee69" := rfl
    rw [hmd5] at h
    have hlen : ((("md5" ++ "5ebe2294ecd0e0f08eab7690d2a6ee69").toList ++
        List.replicate 11 '.').take 11).length = 11 := by simp
    have hleft : (md5Crypt.crypt p ("md5" ++ "5ebe2294ecd0e0f08eab7690d2a6ee69")).toList[11]? =
        some '$' := by
      simp only [md5Crypt, String.toList_ofList]
      rw [List.getElem?_append_right hlen.le, hlen]
      rfl
    have hright : ("md5" ++ "5ebe2294ecd0e0f08eab7690d2a6ee69").toList[11]? = some 'e' := by
      decide
    rw [h, hright] at hleft
    exact absurd hleft (by decide)

def oneAccount : PasswordDb where
  account := [⟨1, "kovert", 1⟩]
  accountPassword := [⟨1, "cryptMD5", "$1$abcdefgh$cHJi5PXp/ki/ktXzqlk6I1", some 0, none⟩]
  valPasswordType := ["cryptMD5", "xdes"]
  accountRealmPasswordType := [("cryptMD5", 1), ("xdes", 1)]
  managedpwtype := [some "cryptMD5"]
  passwordLength := []
  needsPasswdChange := []
  accountCollectionAccount := []

def drawnSalt (_ : String) : String := "$1$abcdefgh"

/-- The argument is the plaintext itself. -/
def plainArgs : SetArgs where
  accountId := 1
  password := "secret"
  encodeMethod := "none"
  changeTime := some 1000

theorem setsPasswords_plainArgs : ∃ db' n,
    setAccountPasswords md5Crypt drawnSalt 1000 oneAccount plainArgs = .ok (db', n) ∧
      SetsPasswords md5Crypt drawnSalt oneAccount db' plainArgs "secret" := by
  obtain ⟨db', n, h⟩ : ∃ db' n,
      setAccountPasswords md5Crypt drawnSalt 1000 oneAccount plainArgs = .ok (db', n) := ⟨_, _, rfl⟩
  refine ⟨db', n, h, (setsPasswords_iff lawful_md5Crypt (by decide) rfl rfl h).mpr
    ⟨fun _ => Or.inl rfl, ?_⟩⟩
  rintro ⟨-, -, hnone, -⟩
  exact hnone "cryptMD5" ⟨by decide, by simp [SetArgs.Passes, plainArgs]⟩

/-- An encoded password is set and does not authenticate, and where only a `null` is passed and no
type is managed, a purge keeps the old password. -/
theorem setAccountPasswords_wrong :
    (do
      let x ← setAccountPasswords md5Crypt drawnSalt 1000 oneAccount
        { accountId := 1, password := "c2VjcmV0", changeTime := some 1000 }
      authenticateAccount md5Crypt x.1 1 "c2VjcmV0" "pgp+base64" "default") = .ok false ∧
    (do
      let x ← setAccountPasswords md5Crypt drawnSalt 1000 { oneAccount with managedpwtype := [] }
        { accountId := 1
          password := "c2VjcmV0"
          changeTime := some 1000
          crypts := [("xdes", none)] }
      authenticateAccount md5Crypt x.1 1 "secret" "none" "default") = .ok true :=
  ⟨by decide, by decide⟩

end JazzHands.AccountPassword

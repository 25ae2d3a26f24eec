import JazzHands.Library.Numeral
import JazzHands.Postgres.Query

/-!
# Picking a login

`person_manip.pick_login` of `person_manip.sql`.  A login is made of the letters of the first and
last name; when an account of the realm has it, the initial of the middle name comes in, then the
whole first name, and at last a number.

* `pickLogin`: the function.  `shortName`, `withMiddle`, `wholeName`, `numbered`: what it tries.

The middle name is not cleaned, a name without any letter becomes a blank, and the two characters
that are kept for the number are too few from 100 on.
-/

namespace JazzHands.Person

open Library Postgres

abbrev Text : Type := List Char

/-- `lower` of a locale.  The letters `a` to `z` are in lower case everywhere. -/
structure Collation where
  lower : Text → Text
  lower_of_isLower : ∀ s, (∀ c ∈ s, c.isLower) → lower s = s

structure Property where
  propertyType : String
  propertyName : String
  /-- The value, which is read as an integer. -/
  propertyValue : Option ℤ

structure Account where
  accountRealmId : ℕ
  login : Text

structure Db where
  property : List Property
  account : List Account

/-! ## The function -/

/-- `left(s, n)`; a negative `n` takes characters off the end. -/
def left (s : Text) (n : ℤ) : Text :=
  if 0 ≤ n then s.take n.toNat else s.take (s.length - n.natAbs)

/-- `lpad(s, length)`, which fills with blanks and cuts off what is too long. -/
def lpad (s : Text) (length : ℕ) : Text := (s.leftpad length ' ').take length

/-- `regexp_replace(s, '[^a-z]', '', 'g')`. -/
def clean (s : Text) : Text := s.filter Char.isLower

/-- `a || b`. -/
def concat (a b : Option Text) : Option Text := a.bind fun a => b.map (a ++ ·)

/-- `_trunclen`, with its default. -/
def Db.trunclen (db : Db) (first : FirstRow (Option ℤ)) : Option ℤ :=
  match first.pick ((db.property.filter fun p =>
      p.propertyType = "Defaults" ∧ p.propertyName = "_max_default_login_length").map
        Property.propertyValue) with
  | none => some 15
  | some value => value

/-- `IF _trunclen IS NOT NULL AND _trunclen > 0 THEN login := left(login, _trunclen - less)`. -/
def truncate (trunclen : Option ℤ) (less : ℤ) (login : Text) : Text :=
  match trunclen with
  | none => login
  | some n => if 0 < n then left login (n - less) else login

/-- An account of the realm has the login. -/
def Db.Has (db : Db) (accountRealmId : ℕ) (login : Option Text) : Prop :=
  ∃ a ∈ db.account, a.accountRealmId = accountRealmId ∧ some a.login = login
  deriving Decidable

/-- The loop over the numbers, which cuts the login off again in every pass. -/
def tryNumbers (db : Db) (accountRealmId : ℕ) (trunclen : Option ℤ) :
    List ℕ → Option Text → Option Text
  | [], _ => none
  | i :: is, login =>
    let login := login.map (truncate trunclen 2)
    let trylogin := concat login (some (Nat.toDigits 10 i))
    if db.Has accountRealmId trylogin then tryNumbers db accountRealmId trunclen is login
    else trylogin

def pickLogin (coll : Collation) (first : FirstRow (Option ℤ)) (db : Db) (accountRealmId : ℕ)
    (firstName middleName lastName : Option Text) : Option Text :=
  let trunclen := db.trunclen first
  let fn := firstName.map fun s => clean (coll.lower s)
  let ln := lastName.map fun s => clean (coll.lower s)
  let initial (s : Option Text) : Option Text := s.map fun s => lpad (coll.lower s) 1
  let login := (concat (initial fn) (ln.map coll.lower)).map (truncate trunclen 0)
  if ¬ db.Has accountRealmId login then login
  else
    let login := (concat (concat (initial fn) (initial middleName)) (ln.map coll.lower)).map
      (truncate trunclen 0)
    if middleName.isSome ∧ ¬ db.Has accountRealmId login then login
    else
      let login := (concat (fn.map coll.lower) (ln.map coll.lower)).map (truncate trunclen 0)
      if (∃ s ∈ login, s.length < 10) ∧ ¬ db.Has accountRealmId login then login
      else
        tryNumbers db accountRealmId trunclen (List.range' 1 500)
          (concat (initial fn) (ln.map coll.lower))

/-! ## What it tries -/

section

variable (m : ℤ) (f mid l : Text)

/-- The first initial and the last name. -/
def shortName : Text := left (lpad f 1 ++ l) m

/-- With the first character of the middle name between them. -/
def withMiddle : Text := left (lpad f 1 ++ lpad mid 1 ++ l) m

def wholeName : Text := left (f ++ l) m

/-- The first initial, the last name and a number. -/
def numbered (i : ℕ) : Text := left (lpad f 1 ++ l) (m - 2) ++ Nat.toDigits 10 i

end

variable {coll : Collation} {first : FirstRow (Option ℤ)} {db : Db} {accountRealmId : ℕ} {m : ℤ}
  {s f l mid first' last' : Text} {middle : Option Text} {c : Char} {i n : ℕ} {is : List ℕ}

/-- The account's login is free in the realm. -/
def Db.Free (db : Db) (accountRealmId : ℕ) (login : Text) : Prop :=
  ¬ db.Has accountRealmId (some login)
  deriving Decidable

theorem left_of_nonneg (h : 0 ≤ m) : left s m = s.take m.toNat := if_pos h

theorem left_left (h : 0 ≤ m) : left (left s m) m = left s m := by
  rw [left_of_nonneg h, left_of_nonneg h, List.take_take, min_self]

theorem mem_left (hm : 0 ≤ m) (h : c ∈ left s m) : c ∈ s := by
  rw [left_of_nonneg hm] at h
  exact List.mem_of_mem_take h

theorem length_left (hm : 0 ≤ m) : ((left s m).length : ℤ) = min m s.length := by
  rw [left_of_nonneg hm, List.length_take]
  omega

theorem head?_left (hm : 0 < m) : (left s m).head? = s.head? := by
  have hne : m.toNat ≠ 0 := by omega
  rw [left_of_nonneg hm.le, List.head?_take, if_neg hne]

theorem truncate_some (hm : 0 < m) (less : ℤ) : truncate (some m) less s = left s (m - less) :=
  if_pos hm

@[simp] theorem lpad_nil : lpad [] 1 = [' '] := rfl

@[simp] theorem lpad_cons : lpad (c :: s) 1 = [c] := by
  simp [lpad, List.leftpad]

theorem isLower_of_mem_clean (h : c ∈ clean s) : c.isLower := (List.mem_filter.mp h).2

@[simp] theorem lower_clean : coll.lower (clean s) = clean s :=
  coll.lower_of_isLower _ fun _ => isLower_of_mem_clean

/-- The loop gives the first of the numbered logins that is free. -/
theorem tryNumbers_eq (hm : 2 ≤ m) (hs : left s (m - 2) = left (lpad f 1 ++ l) (m - 2)) :
    tryNumbers db accountRealmId (some m) is (some s) =
      (is.find? fun i => db.Free accountRealmId (numbered m f l i)).map (numbered m f l) := by
  induction is generalizing s with
  | nil => rfl
  | cons i is ih =>
    rw [tryNumbers, Option.map_some, truncate_some (by omega), hs]
    have htry : concat (some (left (lpad f 1 ++ l) (m - 2))) (some (Nat.toDigits 10 i)) =
        some (numbered m f l i) := rfl
    rw [htry, List.find?_cons]
    by_cases hfree : db.Free accountRealmId (numbered m f l i)
    · rw [if_neg hfree, decide_eq_true hfree]
      rfl
    · rw [if_pos (not_not.mp hfree), decide_eq_false hfree]
      exact ih (left_left (by omega))

/-- **What the function tries**, when there are a first and a last name. -/
theorem pickLogin_eq (hm : db.trunclen first = some m) (h2 : 2 ≤ m)
    (hf : clean (coll.lower first') = f) (hl : clean (coll.lower last') = l) :
    pickLogin coll first db accountRealmId (some first') middle (some last') =
      if db.Free accountRealmId (shortName m f l) then some (shortName m f l)
      else if ∃ mid ∈ middle, db.Free accountRealmId (withMiddle m f (coll.lower mid) l) then
        middle.map fun mid => withMiddle m f (coll.lower mid) l
      else if (wholeName m f l).length < 10 ∧ db.Free accountRealmId (wholeName m f l) then
        some (wholeName m f l)
      else
        ((List.range' 1 500).find? fun i => db.Free accountRealmId (numbered m f l i)).map
          (numbered m f l) := by
  subst hf hl
  unfold pickLogin
  simp only [hm, Option.map_some, lower_clean, concat, Option.bind_some,
    truncate_some (show 0 < m by omega), sub_zero, Option.mem_some_iff, exists_eq_left']
  rw [tryNumbers_eq h2 rfl]
  cases middle with
  | none =>
    simp only [Option.isSome_none, Bool.false_eq_true, Option.not_mem_none, false_and, exists_false,
      if_false]
    rfl
  | some mid =>
    simp only [Option.isSome_some, Option.map_some, Option.bind_some, Option.mem_some_iff,
      exists_eq_left', true_and, truncate_some (show 0 < m by omega), sub_zero]
    rfl

/-! ## The logins as they are meant to be -/

/-- A letter `a` to `z` or a digit. -/
def IsLoginChar (c : Char) : Prop := c.isLower ∨ c.isDigit
  deriving Decidable

/-- Free, made of letters and digits with a letter first, and not too long. -/
structure Acceptable (db : Db) (accountRealmId : ℕ) (m : ℤ) (login : Text) : Prop where
  free : db.Free accountRealmId login
  chars : ∀ c ∈ login, IsLoginChar c
  starts : ∃ c ∈ login.head?, c.isLower
  short : (login.length : ℤ) ≤ m

/-- When every login that the function comes to is as it is meant to be. -/
structure Suits (db : Db) (accountRealmId : ℕ) (m : ℤ) (f : Text) (middle : Option Text)
    (l : Text) : Prop where
  /-- The first name has a letter when the short login is free. -/
  short : db.Free accountRealmId (shortName m f l) → f ≠ []
  /-- The middle name starts with a letter or a digit when its initial is used. -/
  initial : ¬ db.Free accountRealmId (shortName m f l) → ∀ mid ∈ middle,
    db.Free accountRealmId (withMiddle m f mid l) →
      f ≠ [] ∧ ∃ c ∈ mid.head?, IsLoginChar c
  /-- One of the names has a letter when they are put together. -/
  whole : ¬ db.Free accountRealmId (shortName m f l) →
    (∀ mid ∈ middle, ¬ db.Free accountRealmId (withMiddle m f mid l)) →
    (wholeName m f l).length < 10 ∧ db.Free accountRealmId (wholeName m f l) → f ++ l ≠ []
  /-- A number from 1 to 99 is left, or the names leave room for three digits. -/
  number : ¬ db.Free accountRealmId (shortName m f l) →
    (∀ mid ∈ middle, ¬ db.Free accountRealmId (withMiddle m f mid l)) →
    ¬ ((wholeName m f l).length < 10 ∧ db.Free accountRealmId (wholeName m f l)) →
    (∃ i, 1 ≤ i ∧ i ≤ 500 ∧ db.Free accountRealmId (numbered m f l i)) →
      f ≠ [] ∧ ((∃ i, 1 ≤ i ∧ i ≤ 99 ∧ db.Free accountRealmId (numbered m f l i)) ∨
        ((lpad f 1 ++ l).length : ℤ) + 3 ≤ m)

theorem isLower_space : ¬ (' ' : Char).isLower := by decide

theorem isLoginChar_space : ¬ IsLoginChar ' ' := by decide

theorem lpad_eq (s : Text) : ∃ c, lpad s 1 = [c] ∧ (s = [] ∧ c = ' ' ∨ s.head? = some c) := by
  cases s with
  | nil => exact ⟨' ', rfl, Or.inl ⟨rfl, rfl⟩⟩
  | cons c s => exact ⟨c, lpad_cons, Or.inr rfl⟩

/-- The first character of a login that starts with the first initial. -/
theorem head?_left_lpad (hm : 0 < m) (hf : ∀ c ∈ f, c.isLower) (t : Text) :
    (∃ c ∈ (left (lpad f 1 ++ t) m).head?, c.isLower) ↔ f ≠ [] := by
  rw [head?_left hm]
  obtain ⟨c, hlpad, ⟨rfl, rfl⟩ | hc⟩ := lpad_eq f
  · simp [hlpad, isLower_space]
  · have hlower := hf c (List.mem_of_mem_head? hc)
    have hne : f ≠ [] := by
      rintro rfl
      exact nomatch hc
    simp [hlpad, hlower, hne]

theorem isLoginChar_of_mem_lpad (hf : ∀ c ∈ f, c.isLower) (hne : f ≠ []) (h : c ∈ lpad f 1) :
    IsLoginChar c := by
  obtain ⟨d, hlpad, ⟨rfl, -⟩ | hd⟩ := lpad_eq f
  · exact absurd rfl hne
  · rw [hlpad, List.mem_singleton] at h
    exact Or.inl (hf c (List.mem_of_mem_head? (h ▸ hd)))

theorem length_left_le (hm : 0 ≤ m) : ((left s m).length : ℤ) ≤ m := by
  rw [length_left hm]
  exact min_le_left _ _

theorem acceptable_shortName (hm : 0 < m) (hf : ∀ c ∈ f, c.isLower) (hl : ∀ c ∈ l, c.isLower)
    (hfree : db.Free accountRealmId (shortName m f l)) :
    Acceptable db accountRealmId m (shortName m f l) ↔ f ≠ [] := by
  constructor
  · intro h
    exact (head?_left_lpad hm hf l).mp h.starts
  · intro hne
    refine ⟨hfree, fun c hc => ?_, (head?_left_lpad hm hf l).mpr hne, length_left_le hm.le⟩
    rcases List.mem_append.mp (mem_left hm.le hc) with hc | hc
    · exact isLoginChar_of_mem_lpad hf hne hc
    · exact Or.inl (hl c hc)

theorem acceptable_withMiddle (hm : 1 < m) (hf : ∀ c ∈ f, c.isLower) (hl : ∀ c ∈ l, c.isLower)
    (hfree : db.Free accountRealmId (withMiddle m f mid l)) :
    Acceptable db accountRealmId m (withMiddle m f mid l) ↔
      f ≠ [] ∧ ∃ c ∈ mid.head?, IsLoginChar c := by
  have hm0 : 0 < m := by omega
  have hhead := head?_left_lpad hm0 hf (lpad mid 1 ++ l)
  rw [← List.append_assoc] at hhead
  obtain ⟨d, hmid, hd⟩ := lpad_eq mid
  constructor
  · intro h
    have hne : f ≠ [] := hhead.mp h.starts
    refine ⟨hne, d, ?_⟩
    have hchar : IsLoginChar d := by
      refine h.chars d ?_
      -- the two initials are not cut off
      obtain ⟨c, hlpad, -⟩ := lpad_eq f
      obtain ⟨k, hk⟩ := Nat.exists_eq_add_of_le' (show 2 ≤ m.toNat by omega)
      simp [withMiddle, left_of_nonneg hm0.le, hlpad, hmid, hk]
    rcases hd with ⟨-, rfl⟩ | hd
    · exact absurd hchar isLoginChar_space
    · exact ⟨hd, hchar⟩
  · rintro ⟨hne, c, hc, hchar⟩
    have hcd : d = c := by
      rcases hd with ⟨rfl, -⟩ | hd
      · exact nomatch hc
      · exact Option.some.inj (hd.symm.trans hc)
    refine ⟨hfree, fun x hx => ?_, hhead.mpr hne, length_left_le hm0.le⟩
    rcases List.mem_append.mp (mem_left hm0.le hx) with hx | hx
    · rcases List.mem_append.mp hx with hx | hx
      · exact isLoginChar_of_mem_lpad hf hne hx
      · rw [hmid, List.mem_singleton] at hx
        rwa [hx, hcd]
    · exact Or.inl (hl x hx)

theorem acceptable_wholeName (hm : 0 < m) (hf : ∀ c ∈ f, c.isLower) (hl : ∀ c ∈ l, c.isLower)
    (hfree : db.Free accountRealmId (wholeName m f l)) :
    Acceptable db accountRealmId m (wholeName m f l) ↔ f ++ l ≠ [] := by
  have hlower : ∀ c ∈ f ++ l, c.isLower := List.forall_mem_append.mpr ⟨hf, hl⟩
  constructor
  · rintro h heq
    obtain ⟨c, hc, -⟩ := h.starts
    rw [wholeName, head?_left hm, heq] at hc
    exact nomatch hc
  · intro hne
    refine ⟨hfree, fun c hc => Or.inl (hlower c (mem_left hm.le hc)), ?_, length_left_le hm.le⟩
    refine ⟨(f ++ l).head hne, ?_, hlower _ (List.head_mem hne)⟩
    rw [wholeName, head?_left hm]
    exact List.head?_eq_some_head hne

theorem acceptable_numbered (hm : 2 < m) (hf : ∀ c ∈ f, c.isLower) (hl : ∀ c ∈ l, c.isLower)
    (h500 : i ≤ 500) (hfree : db.Free accountRealmId (numbered m f l i)) :
    Acceptable db accountRealmId m (numbered m f l i) ↔
      f ≠ [] ∧ (i ≤ 99 ∨ ((lpad f 1 ++ l).length : ℤ) + 3 ≤ m) := by
  have hm2 : 0 < m - 2 := by omega
  have hlen := length_left (s := lpad f 1 ++ l) hm2.le
  have hnumber : (numbered m f l i).length =
      (left (lpad f 1 ++ l) (m - 2)).length + (Nat.toDigits 10 i).length := List.length_append
  have h3 : (Nat.toDigits 10 i).length ≤ 3 :=
    (Nat.length_toDigits_le_iff (by decide) (by decide)).mpr (by omega)
  have h2 : (Nat.toDigits 10 i).length ≤ 2 ↔ i < 10 ^ 2 :=
    Nat.length_toDigits_le_iff (by decide) (by decide)
  -- the base is not empty, so the login starts with it
  have hhead : (numbered m f l i).head? = (left (lpad f 1 ++ l) (m - 2)).head? := by
    obtain ⟨c, hlpad, -⟩ := lpad_eq f
    rw [numbered, List.head?_append, head?_left hm2, hlpad]
    rfl
  have hstarts := head?_left_lpad hm2 hf l
  rw [← hhead] at hstarts
  constructor
  · intro h
    have hshort := h.short
    exact ⟨hstarts.mp h.starts, by omega⟩
  · rintro ⟨hne, hroom⟩
    refine ⟨hfree, fun c hc => ?_, hstarts.mpr hne, by omega⟩
    rcases List.mem_append.mp hc with hc | hc
    · rcases List.mem_append.mp (mem_left hm2.le hc) with hc | hc
      · exact isLoginChar_of_mem_lpad hf hne hc
      · exact Or.inl (hl c hc)
    · exact Or.inr (Nat.isDigit_of_mem_toDigits (by decide) (by decide) hc)

/-! ## What the function returns -/

theorem acceptable_number (hm : 2 < m) (hf : ∀ c ∈ f, c.isLower) (hl : ∀ c ∈ l, c.isLower) :
    (∀ i, (List.range' 1 500).find? (fun i => db.Free accountRealmId (numbered m f l i)) = some i →
        Acceptable db accountRealmId m (numbered m f l i)) ↔
      ((∃ i, 1 ≤ i ∧ i ≤ 500 ∧ db.Free accountRealmId (numbered m f l i)) →
        f ≠ [] ∧ ((∃ i, 1 ≤ i ∧ i ≤ 99 ∧ db.Free accountRealmId (numbered m f l i)) ∨
          ((lpad f 1 ++ l).length : ℤ) + 3 ≤ m)) := by
  cases hfind : (List.range' 1 500).find? fun i => db.Free accountRealmId (numbered m f l i) with
  | none =>
    have hnone := List.find?_eq_none.mp hfind
    refine ⟨fun _ => ?_, fun _ i hi => nomatch hi⟩
    rintro ⟨i, h1, h500, hfree⟩
    exact absurd (decide_eq_true hfree) (hnone i (List.mem_range'_1.mpr ⟨h1, by omega⟩))
  | some i =>
    obtain ⟨hfree, hmem, hleast⟩ := List.find?_range'_eq_some.mp hfind
    have hfree : db.Free accountRealmId (numbered m f l i) := of_decide_eq_true hfree
    obtain ⟨h1, h500⟩ := List.mem_range'_1.mp hmem
    have hiff := acceptable_numbered hm hf hl (show i ≤ 500 by omega) hfree
    have hsmall : (∃ j, 1 ≤ j ∧ j ≤ 99 ∧ db.Free accountRealmId (numbered m f l j)) ↔ i ≤ 99 := by
      constructor
      · rintro ⟨j, hj1, hj99, hj⟩
        by_contra hi
        have hnot := hleast j hj1 (by omega)
        rw [decide_eq_true hj] at hnot
        exact nomatch hnot
      · intro hi
        exact ⟨i, h1, hi, hfree⟩
    rw [hsmall]
    constructor
    · intro h _
      exact hiff.mp (h i rfl)
    · intro h j hj
      obtain rfl := Option.some.inj hj
      exact hiff.mpr (h ⟨i, h1, by omega, hfree⟩)

theorem pickLogin_null {firstName lastName : Option Text} (h : firstName = none ∨ lastName = none) :
    pickLogin coll first db accountRealmId firstName middle lastName = none := by
  have hnull : ¬ db.Has accountRealmId none := fun ⟨_, _, _, h⟩ => nomatch h
  rcases h with rfl | rfl
  · exact if_pos hnull
  · have hconcat (s : Option Text) : concat s none = none := by
      cases s with
      | none => rfl
      | some s => rfl
    unfold pickLogin
    simp only [Option.map_none, hconcat]
    exact if_pos hnull

/-- **When the function keeps to its purpose.**  What it returns, if anything, is a free login of
letters and digits that starts with a letter and is not too long, exactly when the names suit. -/
theorem pickLogin_acceptable_iff (coll : Collation) (first : FirstRow (Option ℤ)) (db : Db)
    (accountRealmId : ℕ) (m : ℤ) (hm : db.trunclen first = some m) (h5 : 5 < m)
    (firstName middleName lastName : Option Text) :
    (∀ login ∈ pickLogin coll first db accountRealmId firstName middleName lastName,
        Acceptable db accountRealmId m login) ↔
      ∀ first' ∈ firstName, ∀ last' ∈ lastName,
        Suits db accountRealmId m (clean (coll.lower first')) (middleName.map coll.lower)
          (clean (coll.lower last')) := by
  cases firstName with
  | none =>
    rw [pickLogin_null (Or.inl rfl)]
    exact ⟨fun _ _ h => (nomatch h), fun _ _ h => (nomatch h)⟩
  | some first' =>
  cases lastName with
  | none =>
    rw [pickLogin_null (Or.inr rfl)]
    exact ⟨fun _ _ _ _ h => (nomatch h), fun _ _ h => (nomatch h)⟩
  | some last' =>
  simp only [Option.mem_some_iff, forall_eq']
  have hf : ∀ c ∈ clean (coll.lower first'), c.isLower := fun _ => isLower_of_mem_clean
  have hl : ∀ c ∈ clean (coll.lower last'), c.isLower := fun _ => isLower_of_mem_clean
  rw [pickLogin_eq hm (by omega) rfl rfl]
  generalize clean (coll.lower first') = f at hf ⊢
  generalize clean (coll.lower last') = l at hl ⊢
  split
  next hshort =>
    simp only [Option.mem_some_iff, forall_eq']
    rw [acceptable_shortName (by omega) hf hl hshort]
    refine ⟨fun hne => ?_, fun h => h.short hshort⟩
    exact ⟨fun _ => hne, (absurd hshort ·), (absurd hshort ·), (absurd hshort ·)⟩
  next hshort =>
  split
  next hmid =>
    obtain ⟨mid, hmid, hfree⟩ := hmid
    obtain rfl := Option.mem_def.mp hmid
    simp only [Option.map_some, Option.mem_some_iff, forall_eq']
    rw [acceptable_withMiddle (by omega) hf hl hfree]
    have hall (h : ∀ mid' ∈ some (coll.lower mid),
        ¬ db.Free accountRealmId (withMiddle m f mid' l)) : False := h _ rfl hfree
    refine ⟨fun h => ?_, fun h => h.initial hshort _ rfl hfree⟩
    refine ⟨(absurd · hshort), fun _ mid' hmid' _ => ?_, fun _ h => (hall h).elim,
      fun _ h => (hall h).elim⟩
    obtain rfl := Option.some.inj hmid'
    exact h
  next hmid =>
  -- no login with the middle name is free
  have hall : ∀ mid ∈ middleName.map coll.lower,
      ¬ db.Free accountRealmId (withMiddle m f mid l) := by
    intro mid hmem hfree
    obtain ⟨mid', hmid', rfl⟩ := Option.map_eq_some_iff.mp hmem
    exact hmid ⟨mid', hmid', hfree⟩
  split
  next hwhole =>
    simp only [Option.mem_some_iff, forall_eq']
    rw [acceptable_wholeName (by omega) hf hl hwhole.2]
    refine ⟨fun hne => ?_, fun h => h.whole hshort hall hwhole⟩
    exact ⟨(absurd · hshort), fun _ mid hmem hfree => absurd hfree (hall mid hmem),
      fun _ _ _ => hne, fun _ _ h => absurd hwhole h⟩
  next hwhole =>
    simp only [Option.mem_def, Option.map_eq_some_iff, forall_exists_index, and_imp,
      forall_apply_eq_imp_iff₂]
    rw [acceptable_number (by omega) hf hl]
    refine ⟨fun hnumber => ?_, fun h => h.number hshort hall hwhole⟩
    exact ⟨(absurd · hshort), fun _ mid hmem hfree => absurd hfree (hall mid hmem),
      fun _ _ h => absurd h hwhole, fun _ _ _ => hnumber⟩

/-- The letters `A` to `Z` in lower case, and nothing else. -/
def Collation.ascii : Collation where
  lower := List.map Char.toLower
  lower_of_isLower := by
    intro s hs
    conv_rhs => rw [← List.map_id s]
    refine List.map_congr_left fun c hc => ?_
    have h : (decide (c.val ≥ 'a'.val) && decide (c.val ≤ 'z'.val)) = true := hs c hc
    simp only [ge_iff_le, UInt32.le_iff_toNat_le, Bool.and_eq_true, decide_eq_true_eq] at h
    have hlt : 'Z'.val.toNat < 'a'.val.toNat := by decide
    refine dif_neg (c := c.val ≥ 'A'.val ∧ c.val ≤ 'Z'.val) ?_
    simp only [ge_iff_le, UInt32.le_iff_toNat_le]
    omega

/-- One account, and a default for the length. -/
def oneAccount : Db :=
  ⟨[⟨"Defaults", "_max_default_login_length", some 8⟩], [⟨1, ['j', 's', 'm', 'i', 't', 'h']⟩]⟩

theorem pickLogin_acceptable_secondSmith :
    pickLogin .ascii (.listed _) oneAccount 1 (some ['J', 'o']) (some ['3', 'r', 'd'])
        (some ['S', 'm', 'i', 't', 'h']) = some ['j', '3', 's', 'm', 'i', 't', 'h'] ∧
      Acceptable oneAccount 1 8 ['j', '3', 's', 'm', 'i', 't', 'h'] := by
  have hlogin : pickLogin .ascii (.listed _) oneAccount 1 (some ['J', 'o'])
      (some ['3', 'r', 'd']) (some ['S', 'm', 'i', 't', 'h']) =
        some ['j', '3', 's', 'm', 'i', 't', 'h'] := by decide
  refine ⟨hlogin, (pickLogin_acceptable_iff .ascii (.listed _) oneAccount 1 8 rfl (by decide)
    _ _ _).mpr ?_ _ hlogin⟩
  intro f hf l hl
  obtain rfl := Option.some.inj hf
  obtain rfl := Option.some.inj hl
  have hshort : ¬ oneAccount.Free 1 (shortName 8 ['j', 'o'] ['s', 'm', 'i', 't', 'h']) := by decide
  have hmid : oneAccount.Free 1
      (withMiddle 8 ['j', 'o'] ['3', 'r', 'd'] ['s', 'm', 'i', 't', 'h']) := by decide
  refine ⟨(absurd · hshort), fun _ mid hmem _ => ?_, fun _ h => absurd hmid (h _ rfl),
    fun _ h => absurd hmid (h _ rfl)⟩
  obtain rfl := Option.some.inj hmem
  exact ⟨by decide, '3', rfl, by decide⟩

/-- A first name without a letter from `a` to `z` leaves a blank in front of the login. -/
theorem pickLogin_notAcceptable :
    pickLogin .ascii (.listed _) oneAccount 1 (some ['李']) none (some ['W', 'u']) =
        some [' ', 'w', 'u'] ∧
      ¬ Acceptable oneAccount 1 8 [' ', 'w', 'u'] := by
  refine ⟨by decide, fun h => ?_⟩
  obtain ⟨c, hc, hlower⟩ := h.starts
  obtain rfl := Option.some.inj hc
  exact isLower_space hlower

end JazzHands.Person

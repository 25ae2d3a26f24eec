import JazzHands.Library.Runs
import JazzHands.Postgres.Table
import Mathlib.Algebra.Group.Int.Defs
import Mathlib.Data.Int.Order.Basic

/-!
# Unix accounts

`person_manip.setup_unix_account` and `person_manip.get_unix_uid` of `person_manip.sql`, with the
keys of the tables.  Persons get uids upwards from 10000 and pseudousers downwards from 9999, and
the gid of an account's own group is its uid.
-/

namespace JazzHands.Person
namespace UnixUid

open Library Postgres

/-- The values of type `integer`. -/
abbrev Integer : Type := {n : ℤ // -2 ^ 31 ≤ n ∧ n < 2 ^ 31}

structure Account where
  accountId : ℕ
  login : String
  personId : ℕ

structure AccountUnixInfo where
  accountId : ℕ
  unixUid : Integer
  unixGroupAccountCollectionId : ℕ
  deriving DecidableEq

structure AccountCollection where
  accountCollectionName : String
  accountCollectionType : String

structure AccountCollectionAccount where
  accountCollectionId : ℕ
  accountId : ℕ
  deriving DecidableEq

structure UnixGroup where
  accountCollectionId : ℕ
  unixGid : Integer
  deriving DecidableEq

structure Db where
  person : List ℕ
  account : List Account
  accountCollection : Table AccountCollection
  accountCollectionAccount : List AccountCollectionAccount
  accountUnixInfo : List AccountUnixInfo
  unixGroup : List UnixGroup

/-- What the triggers on the collections and their members say to a new state. -/
abbrev Checks : Type := Db → Result Unit

/-! ## The functions -/

/-- An `integer` expression. -/
def integer (n : ℤ) : Result Integer :=
  if h : -2 ^ 31 ≤ n ∧ n < 2 ^ 31 then .ok ⟨n, h⟩
  else raise .numericValueOutOfRange "integer out of range"

def IsPeople (accountType : String) : Prop := accountType = "people" ∨ accountType = "person"
  deriving Decidable

/-- The join with `account` and `person` and the condition of the query for the type. -/
def Counted (db : Db) (accountType : String) (aui : AccountUnixInfo) : Prop :=
  ∃ a ∈ db.account, a.accountId = aui.accountId ∧ a.personId ∈ db.person ∧
    if IsPeople accountType then a.personId ≠ 0 else a.personId = 0 ∧ 6000 < aui.unixUid.val
  deriving Decidable

/-- The uids that the query sees. -/
def uids (db : Db) (accountType : String) : List ℤ :=
  (db.accountUnixInfo.filter fun aui => Counted db accountType aui).map (·.unixUid.val)

def getUnixUid (db : Db) (accountType : String) : Result Integer :=
  if IsPeople accountType then integer ((uids db accountType).max?.getD 9999 + 1)
  else integer ((uids db accountType).min?.getD 10000 - 1)

/-- The collection of type `unix-group` with the login, which is made when there is none. -/
def collectionOfLogin (checks : Checks) (db : Db) (login : Option String) : Result (ℕ × Db) :=
  match db.accountCollection.rows.find? fun c =>
      some c.2.accountCollectionName = login ∧ c.2.accountCollectionType = "unix-group" with
  | some c => .ok (c.1, db)
  | none =>
    match login with
    | none => raise .notNullViolation "null value in column \"account_collection_name\""
    | some login => do
      let (acid, accountCollection) ← db.accountCollection.insert ⟨login, "unix-group"⟩
      let db := { db with accountCollection }
      checks db
      .ok (acid, db)

/-- The collection of the account's login, with the account in it. -/
def unixGroupCollection (checks : Checks) (db : Db) (accountId : ℕ) : Result (ℕ × Db) := do
  let (acid, db) ← collectionOfLogin checks db
    ((db.account.find? (·.accountId = accountId)).map (·.login))
  if ⟨acid, accountId⟩ ∈ db.accountCollectionAccount then .ok (acid, db)
  else
    let db := { db with
      accountCollectionAccount := db.accountCollectionAccount ++ [⟨acid, accountId⟩] }
    raiseIf (∀ a ∈ db.account, a.accountId ≠ accountId) .foreignKeyViolation
      "insert or update on table \"account_collection_account\" violates foreign key constraint"
    checks db
    .ok (acid, db)

def insertUnixInfo (db : Db) (aui : AccountUnixInfo) : Result Db := do
  raiseIf (∃ b ∈ db.accountUnixInfo, b.accountId = aui.accountId) .uniqueViolation
    "duplicate key value violates unique constraint \"pk_account_unix_info\""
  raiseIf (∃ b ∈ db.accountUnixInfo, b.unixUid = aui.unixUid) .uniqueViolation
    "duplicate key value violates unique constraint \"ak_account_unix_info_unix_uid\""
  .ok { db with accountUnixInfo := db.accountUnixInfo ++ [aui] }

def insertUnixGroup (db : Db) (g : UnixGroup) : Result Db := do
  raiseIf (∃ b ∈ db.unixGroup, b.accountCollectionId = g.accountCollectionId) .uniqueViolation
    "duplicate key value violates unique constraint \"pk_unix_group\""
  raiseIf (∃ b ∈ db.unixGroup, b.unixGid = g.unixGid) .uniqueViolation
    "duplicate key value violates unique constraint \"ak_unix_group_unix_gid\""
  .ok { db with unixGroup := db.unixGroup ++ [g] }

def setupUnixAccount (checks : Checks) (db : Db) (accountId : ℕ) (accountType : String)
    (uid : Option Integer) : Result Db := do
  let (acid, db) ← unixGroupCollection checks db accountId
  let newUid ←
    match uid with
    | some uid => .ok uid
    | none => getUnixUid db accountType
  let db ← insertUnixInfo db ⟨accountId, newUid, acid⟩
  if ⟨acid, newUid⟩ ∈ db.unixGroup then .ok db else insertUnixGroup db ⟨acid, newUid⟩

/-! ## Runs of calls -/

/-- A call without a uid. -/
structure Call where
  accountId : ℕ
  accountType : String

def step (checks : Checks) (db : Db) (call : Call) : Db :=
  match setupUnixAccount checks db call.accountId call.accountType none with
  | .ok db' => db'
  | .error _ => db

/-- The account's own group and the uid that the call chooses, if it comes so far. -/
def chosen (checks : Checks) (db : Db) (call : Call) : Result (ℕ × Integer) := do
  let (acid, db) ← unixGroupCollection checks db call.accountId
  let newUid ← getUnixUid db call.accountType
  .ok (acid, newUid)

/-- The uid that a call chooses is that of no other account and the gid of no other group. -/
def ChoosesFresh (checks : Checks) (db : Db) (call : Call) : Prop :=
  ∀ acid u, chosen checks db call = .ok (acid, u) →
    (∀ aui ∈ db.accountUnixInfo, aui.accountId ≠ call.accountId → aui.unixUid ≠ u) ∧
    ∀ g ∈ db.unixGroup, g.accountCollectionId ≠ acid → g.unixGid ≠ u

/-- Directly above the uids of persons, or directly below those of pseudousers. -/
def Next (db : Db) (accountType : String) (u : Integer) : Prop :=
  if IsPeople accountType then
    (∀ v ∈ uids db accountType, v < u.val) ∧
      (u.val - 1 ∈ uids db accountType ∨ uids db accountType = [] ∧ u.val = 10000)
  else
    (∀ v ∈ uids db accountType, u.val < v) ∧
      (u.val + 1 ∈ uids db accountType ∨ uids db accountType = [] ∧ u.val = 9999)

/-- No other account of the other kind has the next uid, no pseudouser has 6000 when that comes
next, and no other group has it as its gid. -/
def Apart (checks : Checks) (db : Db) (call : Call) : Prop :=
  ∀ acid db', unixGroupCollection checks db call.accountId = .ok (acid, db') →
    (∀ aui ∈ db.accountUnixInfo, aui.accountId ≠ call.accountId →
      ¬ Counted db call.accountType aui → ¬ Next db call.accountType aui.unixUid) ∧
    ∀ g ∈ db.unixGroup, g.accountCollectionId ≠ acid → ¬ Next db call.accountType g.unixGid

variable {checks : Checks} {db db' : Db} {accountType : String} {accountId acid : ℕ} {u : Integer}
  {call : Call} {calls : List Call} {n : ℤ} {aui : AccountUnixInfo} {g : UnixGroup}

theorem integer_eq_ok : integer n = .ok u ↔ u.val = n := by
  unfold integer
  split
  next h =>
    rw [Except.ok.injEq, Subtype.ext_iff]
    exact eq_comm
  next h =>
    refine ⟨fun h => absurd h raise_ne_ok, ?_⟩
    rintro rfl
    exact absurd u.property h

/-- **The uid that comes next.** -/
theorem getUnixUid_eq_ok : getUnixUid db accountType = .ok u ↔ Next db accountType u := by
  unfold getUnixUid Next
  generalize uids db accountType = l
  split
  · rw [integer_eq_ok]
    cases hmax : l.max? with
    | none =>
      obtain rfl := List.max?_eq_none_iff.mp hmax
      simp
    | some v =>
      obtain ⟨hmem, hle⟩ := List.max?_eq_some_iff.mp hmax
      have hne : l ≠ [] := List.ne_nil_of_mem hmem
      rw [Option.getD_some]
      constructor
      · intro hu
        refine ⟨fun w hw => ?_, Or.inl ?_⟩
        · have := hle w hw
          omega
        · rwa [hu, Int.add_sub_cancel]
      · rintro ⟨hlt, hprev | ⟨hnil, -⟩⟩
        · have h₁ := hle _ hprev
          have h₂ := hlt v hmem
          omega
        · exact absurd hnil hne
  · rw [integer_eq_ok]
    cases hmin : l.min? with
    | none =>
      obtain rfl := List.min?_eq_none_iff.mp hmin
      simp
    | some v =>
      obtain ⟨hmem, hle⟩ := List.min?_eq_some_iff.mp hmin
      have hne : l ≠ [] := List.ne_nil_of_mem hmem
      rw [Option.getD_some]
      constructor
      · intro hu
        refine ⟨fun w hw => ?_, Or.inl ?_⟩
        · have := hle w hw
          omega
        · rwa [hu, Int.sub_add_cancel]
      · rintro ⟨hlt, hprev | ⟨hnil, -⟩⟩
        · have h₁ := hle _ hprev
          have h₂ := hlt v hmem
          omega
        · exact absurd hnil hne

/-- Another state in which nothing but the collections may differ. -/
def SameIds (db db' : Db) : Prop :=
  db'.person = db.person ∧ db'.account = db.account ∧
    db'.accountUnixInfo = db.accountUnixInfo ∧ db'.unixGroup = db.unixGroup

theorem collectionOfLogin_sameIds {login : Option String}
    (h : collectionOfLogin checks db login = .ok (acid, db')) : SameIds db db' := by
  unfold collectionOfLogin at h
  split at h
  · obtain ⟨-, rfl⟩ := Prod.mk.inj (Except.ok.inj h)
    exact ⟨rfl, rfl, rfl, rfl⟩
  · split at h
    · exact absurd h raise_ne_ok
    · obtain ⟨⟨c, t⟩, -, h⟩ := bind_eq_ok.mp h
      obtain ⟨-, h⟩ := bind_unit_eq_ok.mp h
      obtain ⟨-, rfl⟩ := Prod.mk.inj (Except.ok.inj h)
      exact ⟨rfl, rfl, rfl, rfl⟩

/-- The collections are all that the first part of the function changes. -/
theorem unixGroupCollection_sameIds
    (h : unixGroupCollection checks db accountId = .ok (acid, db')) : SameIds db db' := by
  unfold unixGroupCollection at h
  obtain ⟨⟨c, db₁⟩, h₁, h⟩ := bind_eq_ok.mp h
  have hsame := collectionOfLogin_sameIds h₁
  dsimp only at h
  split at h
  · obtain ⟨-, rfl⟩ := Prod.mk.inj (Except.ok.inj h)
    exact hsame
  · obtain ⟨-, h⟩ := bind_unit_eq_ok.mp h
    obtain ⟨-, h⟩ := bind_unit_eq_ok.mp h
    obtain ⟨-, rfl⟩ := Prod.mk.inj (Except.ok.inj h)
    exact hsame

theorem SameIds.uids (h : SameIds db db') (accountType : String) :
    uids db' accountType = uids db accountType := by
  cases db
  cases db'
  obtain ⟨rfl, rfl, rfl, rfl⟩ := h
  rfl

theorem SameIds.next (h : SameIds db db') : Next db' accountType u ↔ Next db accountType u := by
  rw [Next, Next, h.uids]

theorem mem_uids {v : ℤ} :
    v ∈ uids db accountType ↔
      ∃ aui ∈ db.accountUnixInfo, Counted db accountType aui ∧ aui.unixUid.val = v := by
  simp only [uids, List.mem_map, List.mem_filter, decide_eq_true_eq, and_assoc]

theorem chosen_eq_ok :
    chosen checks db call = .ok (acid, u) ↔
      (∃ db', unixGroupCollection checks db call.accountId = .ok (acid, db')) ∧
        Next db call.accountType u := by
  unfold chosen
  constructor
  · intro h
    obtain ⟨⟨c, db'⟩, hc, h⟩ := bind_eq_ok.mp h
    obtain ⟨v, hv, h⟩ := bind_eq_ok.mp h
    obtain ⟨rfl, rfl⟩ := Prod.mk.inj (Except.ok.inj h)
    exact ⟨⟨db', hc⟩, (unixGroupCollection_sameIds hc).next.mp (getUnixUid_eq_ok.mp hv)⟩
  · rintro ⟨⟨db', hc⟩, hnext⟩
    have hv := getUnixUid_eq_ok.mpr ((unixGroupCollection_sameIds hc).next.mpr hnext)
    exact bind_eq_ok.mpr ⟨_, hc, bind_eq_ok.mpr ⟨u, hv, rfl⟩⟩

/-- The next uid is that of no account that the query looks at. -/
theorem Next.not_counted (h : Next db accountType u) (haui : aui ∈ db.accountUnixInfo)
    (hu : aui.unixUid = u) : ¬ Counted db accountType aui := by
  intro hcounted
  have hmem : u.val ∈ uids db accountType := mem_uids.mpr ⟨aui, haui, hcounted, hu ▸ rfl⟩
  unfold Next at h
  split at h
  · exact lt_irrefl _ (h.1 _ hmem)
  · exact lt_irrefl _ (h.1 _ hmem)

theorem choosesFresh_iff : ChoosesFresh checks db call ↔ Apart checks db call := by
  constructor
  · intro h acid db' hc
    constructor
    · intro aui haui hother _ hnext
      exact (h acid _ (chosen_eq_ok.mpr ⟨⟨db', hc⟩, hnext⟩)).1 aui haui hother rfl
    · intro g hg hother hnext
      exact (h acid _ (chosen_eq_ok.mpr ⟨⟨db', hc⟩, hnext⟩)).2 g hg hother rfl
  · intro h acid u hchosen
    obtain ⟨⟨db', hc⟩, hnext⟩ := chosen_eq_ok.mp hchosen
    obtain ⟨haccounts, hgroups⟩ := h acid db' hc
    constructor
    · rintro aui haui hother rfl
      exact haccounts aui haui hother (hnext.not_counted haui rfl) hnext
    · rintro g hg hother rfl
      exact hgroups g hg hother hnext

/-- **Runs of calls.**  Every call of a run chooses a uid and gid that nobody else has exactly when
each of them finds the two kinds of ids apart in the state before it. -/
theorem run_choosesFresh_iff (checks : Checks) (db : Db) (calls : List Call) :
    AllSteps (step checks) (ChoosesFresh checks) db calls ↔
      AllSteps (step checks) (Apart checks) db calls :=
  ⟨AllSteps.mono fun _ _ => choosesFresh_iff.mp, AllSteps.mono fun _ _ => choosesFresh_iff.mpr⟩

/-- A person without a uid, and a pseudouser that was given 10000. -/
def givenFirst : Db where
  person := [0, 7]
  account := [⟨1, "ann", 7⟩, ⟨2, "backup", 0⟩]
  accountCollection := ⟨[(1, ⟨"ann", "unix-group"⟩), (2, ⟨"backup", "unix-group"⟩)], 3, by decide⟩
  accountCollectionAccount := [⟨1, 1⟩, ⟨2, 2⟩]
  accountUnixInfo := [⟨2, ⟨10000, by decide⟩, 2⟩]
  unixGroup := [⟨2, ⟨10000, by decide⟩⟩]

/-- The first person gets the pseudouser's uid. -/
theorem run_choosesFresh_fails :
    ¬ AllSteps (step fun _ => .ok ()) (ChoosesFresh fun _ => .ok ()) givenFirst
      [⟨1, "person"⟩] := by
  rintro ⟨h, -⟩
  have hchosen : chosen (fun _ => .ok ()) givenFirst ⟨1, "person"⟩ =
      .ok (1, ⟨10000, by decide⟩) := by decide
  exact (h 1 _ hchosen).1 ⟨2, ⟨10000, by decide⟩, 2⟩ (by decide) (by decide) rfl

end UnixUid
end JazzHands.Person

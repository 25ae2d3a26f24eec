import JazzHands.Authorization.CheckProperty
import JazzHands.Cache.WaysUp
import JazzHands.Library.Runs

/-!
# Who is granted a property

* `Answers`: the function says who is granted the property, and raises for unknown realms only.
-/

namespace JazzHands.Authorization

open Library Postgres Relation

/-- A role, which is told from its text. -/
structure PropertyRole where
  type : String
  name : String
  type_colon : ':' ∉ type.toList
  name_colon : ':' ∉ name.toList

def PropertyRole.text (role : PropertyRole) : String := role.type ++ ":" ++ role.name

inductive Who where
  | login (login : String)
  | accountId (accountId : ℕ)

inductive Realm where
  | accountRealmId (accountRealmId : ℕ)
  | accountRealmName (accountRealmName : String)
  | default

structure Request where
  role : PropertyRole
  who : Who
  realm : Realm
  propertyValue : Option String

def Request.parameters (rq : Request) : Parameters where
  propertyRole := some rq.role.text
  login := match rq.who with
    | .login login => some login
    | .accountId _ => none
  accountId := match rq.who with
    | .login _ => none
    | .accountId id => some id
  deviceName := none
  deviceId := none
  accountRealmId := match rq.realm with
    | .accountRealmId id => some id
    | _ => none
  accountRealmName := match rq.realm with
    | .accountRealmName name => some name
    | _ => none
  propertyValue := rq.propertyValue

/-- The realm is the one that the request means. -/
def Request.InRealm (rq : Request) (first : FirstRow Property) (db : Db) (realm : ℕ) : Prop :=
  match rq.realm with
  | .accountRealmId id => realm = id
  | .accountRealmName name => ⟨realm, name⟩ ∈ db.accountRealm
  | .default => defaultRealm first db = some realm

/-- The account is the one that the request means, if it is in the realm. -/
def Request.IsFor (rq : Request) (a : Account) : Prop :=
  match rq.who with
  | .login login => a.login = login
  | .accountId id => a.accountId = id

/-- The property is the one that the request asks for. -/
def Request.Asks (rq : Request) (p : Property) : Prop :=
  p.propertyType = rq.role.type ∧ p.propertyName = rq.role.name ∧
    ∀ value, rq.propertyValue = some value → p.propertyValue = some value

/-- The second collection is the first one or below it. -/
def Below (db : Db) (top c : ℕ) : Prop :=
  ReflTransGen (AccountCollection.Up db.collections.accountCollectionHier) c top

def IsGranted (first : FirstRow Property) (db : Db) (rq : Request) : Prop :=
  ∃ a ∈ db.account, rq.IsFor a ∧ rq.InRealm first db a.accountRealmId ∧
    ∃ p ∈ db.property, rq.Asks p ∧ ∃ top, p.accountCollectionId = some top ∧
      ∃ c, Below db top c ∧ ⟨c, a.accountId⟩ ∈ db.accountCollectionAccount

/-- The request names a realm by a name that no realm has. -/
def Request.RealmUnknown (rq : Request) (db : Db) : Prop :=
  ∃ name, rq.realm = .accountRealmName name ∧ ∀ r ∈ db.accountRealm, r.accountRealmName ≠ name

def Answers (first : FirstRow Property) (db : Db) (rq : Request) : Prop :=
  (checkPropertyAccountAuthorization first db rq.parameters = .ok true ↔ IsGranted first db rq) ∧
    ((∃ err, checkPropertyAccountAuthorization first db rq.parameters = .error err) →
      rq.RealmUnknown db)

/-- The keys of the tables, and the cache of the hierarchy as its view has it. -/
structure Consistent (db : Db) : Prop where
  accountKey : (db.account.map (·.accountId)).Nodup
  loginKey : (db.account.map fun a => (a.accountRealmId, a.login)).Nodup
  memberRef : ∀ m ∈ db.accountCollectionAccount,
    m.accountCollectionId ∈ db.collections.accountCollection
  valid : AccountCollection.Valid db.collections.accountCollection
    db.collections.accountCollectionHier
  cache : db.collections.ctRecurse.Perm
    (AccountCollection.vAccountCollectionHierRecurse db.collections)

variable {first : FirstRow Property} {db : Db} {rq : Request} {realm : ℕ} {a : Account}

/-! ## The parts of a role -/

theorem PropertyRole.splitOn (role : PropertyRole) :
    role.text.toList.splitOn ':' = [role.type.toList, role.name.toList] := by
  have hjoined : role.text.toList = joined ':' [role.type.toList, role.name.toList] := by
    simp [PropertyRole.text, joined]
  rw [hjoined, splitOn_joined (List.cons_ne_nil _ _)]
  simpa using ⟨role.type_colon, role.name_colon⟩

@[simp] theorem PropertyRole.splitPart_one (role : PropertyRole) :
    splitPart role.text ':' 1 = role.type := by
  simp [splitPart, role.splitOn]

@[simp] theorem PropertyRole.splitPart_two (role : PropertyRole) :
    splitPart role.text ':' 2 = role.name := by
  simp [splitPart, role.splitOn]

/-! ## The closure -/

theorem Consistent.exists_row_iff (h : Consistent db) {top c : ℕ}
    (hc : c ∈ db.collections.accountCollection) :
    (∃ r ∈ db.collections.ctRecurse, r.rootAccountCollectionId = top ∧
      r.accountCollectionId = c) ↔ Below db top c := by
  have hrows := (AccountCollection.holds_vRecurse h.valid).of_perm h.cache
  constructor
  · rintro ⟨r, hr, rfl, rfl⟩
    exact ((hrows.mem r).mp hr).ascends.reflTransGen
  · intro hbelow
    obtain ⟨path, hpath⟩ := exists_ascends_iff.mpr hbelow
    exact ⟨⟨top, c, path, false⟩, (hrows.mem _).mpr ⟨hpath, hc, rfl⟩, rfl, rfl⟩

/-! ## The account and its realm -/

theorem Consistent.find?_login (h : Consistent db) (ha : a ∈ db.account) {login : String}
    {arid : Option ℕ} (hlogin : a.login = login) (hrealm : some a.accountRealmId = arid) :
    db.account.find? (fun b => b.login = login ∧ some b.accountRealmId = arid) = some a := by
  cases hfind : db.account.find? (fun b => b.login = login ∧ some b.accountRealmId = arid) with
  | none =>
    exact (Library.not_of_find?_eq_none hfind ha ⟨hlogin, hrealm⟩).elim
  | some b =>
    obtain ⟨hb, hfound⟩ := Library.of_find?_eq_some hfind
    have hsame : (b.accountRealmId, b.login) = (a.accountRealmId, a.login) :=
      Prod.ext (Option.some.inj (hfound.2.trans hrealm.symm)) (hfound.1.trans hlogin.symm)
    rw [List.inj_on_of_nodup_map h.loginKey hb ha hsame]

theorem Consistent.aid_iff (h : Consistent db) (ha : a ∈ db.account) {arid aid' : Option ℕ}
    (hrealm : some a.accountRealmId = arid) (haid : aid db rq.parameters arid = .ok aid') :
    some a.accountId = aid' ↔ rq.IsFor a := by
  cases hwho : rq.who with
  | login login =>
    have haid' : (db.account.find? fun b => b.login = login ∧ some b.accountRealmId = arid).map
        (·.accountId) = aid' := by
      simpa [aid, Request.parameters, hwho] using haid
    have hfor : rq.IsFor a ↔ a.login = login := by rw [Request.IsFor, hwho]
    rw [hfor]
    constructor
    · intro hid
      rw [← hid] at haid'
      obtain ⟨b, hfind, hb⟩ := Option.map_eq_some_iff.mp haid'
      obtain ⟨hmem, hfound⟩ := Library.of_find?_eq_some hfind
      have hsame := List.inj_on_of_nodup_map h.accountKey hmem ha hb
      rw [← hsame]
      exact hfound.1
    · intro hlogin
      rw [← haid', h.find?_login ha hlogin hrealm]
      rfl
  | accountId id =>
    have haid' : some id = aid' := by
      simpa [aid, Request.parameters, hwho] using haid
    rw [← haid', Request.IsFor, hwho]
    exact Option.some_inj

/-! ## The query -/

/-- **The query looks for the right rows.** -/
theorem Consistent.grants_iff (h : Consistent db) {arid aid' : Option ℕ}
    (hrealm : ∀ realm, some realm = arid ↔ rq.InRealm first db realm)
    (haid : aid db rq.parameters arid = .ok aid') :
    (∃ p ∈ db.property, ∃ r ∈ db.collections.ctRecurse, ∃ aca ∈ db.accountCollectionAccount,
      ∃ a ∈ db.account, Grants rq.parameters rq.role.text arid aid' p r aca a) ↔
        IsGranted first db rq := by
  constructor
  · rintro ⟨p, hp, r, hr, ⟨c, id⟩, hmem, a, ha, htop, rfl, hid, htype, hname, haid', harid, hvalue⟩
    have hfor := (h.aid_iff ha harid haid).mp haid'
    refine ⟨a, ha, hfor, (hrealm _).mp harid, p, hp, ⟨?_, ?_, hvalue⟩, _, htop,
      r.accountCollectionId, ?_, ?_⟩
    · rw [htype, rq.role.splitPart_one]
    · rw [hname, rq.role.splitPart_two]
    · exact (h.exists_row_iff (h.memberRef _ hmem)).mp ⟨r, hr, rfl, rfl⟩
    · rw [hid]
      exact hmem
  · rintro ⟨a, ha, hfor, hin, p, hp, ⟨htype, hname, hvalue⟩, top, htop, c, hbelow, hmem⟩
    obtain ⟨r, hr, rfl, rfl⟩ := (h.exists_row_iff (h.memberRef _ hmem)).mpr hbelow
    have harid := (hrealm _).mpr hin
    refine ⟨p, hp, r, hr, _, hmem, a, ha, htop, rfl, rfl, ?_, ?_, ?_, harid, hvalue⟩
    · rw [htype, rq.role.splitPart_one]
    · rw [hname, rq.role.splitPart_two]
    · exact (h.aid_iff ha harid haid).mpr hfor

/-! ## All requests -/

theorem check_eq : checkPropertyAccountAuthorization first db rq.parameters =
    (do
      let arid ← arid first db rq.parameters
      let aid ← aid db rq.parameters arid
      .ok (decide (∃ p ∈ db.property, ∃ r ∈ db.collections.ctRecurse,
        ∃ aca ∈ db.accountCollectionAccount, ∃ a ∈ db.account,
          Grants rq.parameters rq.role.text arid aid p r aca a))) := by
  cases hwho : rq.who <;>
    simp [checkPropertyAccountAuthorization, Request.parameters, hwho, raiseIf] <;> rfl

theorem exists_aid (arid : Option ℕ) : ∃ aid', aid db rq.parameters arid = .ok aid' := by
  cases hwho : rq.who with
  | login login => exact ⟨_, by simp [aid, Request.parameters, hwho]; rfl⟩
  | accountId id => exact ⟨_, by simp [aid, Request.parameters, hwho]; rfl⟩

theorem Consistent.answers_of_arid (h : Consistent db) (arid' : Option ℕ)
    (harid : arid first db rq.parameters = .ok arid')
    (hrealm : ∀ realm, some realm = arid' ↔ rq.InRealm first db realm) : Answers first db rq := by
  obtain ⟨aid', haid⟩ : ∃ aid', aid db rq.parameters arid' = .ok aid' := exists_aid arid'
  have hcheck : checkPropertyAccountAuthorization first db rq.parameters =
      .ok (decide (∃ p ∈ db.property, ∃ r ∈ db.collections.ctRecurse,
        ∃ aca ∈ db.accountCollectionAccount, ∃ a ∈ db.account,
          Grants rq.parameters rq.role.text arid' aid' p r aca a)) := by
    rw [check_eq, harid]
    show (aid db rq.parameters arid' >>= _) = _
    rw [haid]
    rfl
  constructor
  · rw [hcheck, Except.ok.injEq, decide_eq_true_iff]
    exact h.grants_iff hrealm haid
  · rintro ⟨err, herr⟩
    rw [hcheck] at herr
    cases herr

/-- **Every request is answered, but those that name a known realm.** -/
theorem answers_iff (h : Consistent db) : Answers first db rq ↔
    ¬ ∃ r ∈ db.accountRealm, rq.realm = .accountRealmName r.accountRealmName := by
  cases hrealm : rq.realm with
  | accountRealmId id =>
    refine iff_of_true (h.answers_of_arid (some id) ?_ fun realm => ?_) ?_
    · simp [arid, Request.parameters, hrealm]
    · rw [Request.InRealm, hrealm, Option.some_inj]
    · simp
  | default =>
    refine iff_of_true (h.answers_of_arid (defaultRealm first db) ?_ fun realm => ?_) ?_
    · simp [arid, Request.parameters, hrealm]
    · rw [Request.InRealm, hrealm, eq_comm]
    · simp
  | accountRealmName name =>
    have hraise : checkPropertyAccountAuthorization first db rq.parameters =
        raise .undefinedColumn "column account_realm_id does not exist" := by
      rw [check_eq]
      simp [arid, Request.parameters, hrealm]
      rfl
    have hgranted : (∀ r ∈ db.accountRealm, r.accountRealmName ≠ name) →
        ¬ IsGranted first db rq := by
      rintro hunknown ⟨a, -, -, hin, -⟩
      rw [Request.InRealm, hrealm] at hin
      exact hunknown _ hin rfl
    constructor
    · rintro hanswers ⟨r, hr, hname⟩
      obtain ⟨name', hname', hunknown⟩ := hanswers.2 ⟨_, hraise⟩
      rw [hrealm, hname] at hname'
      exact hunknown r hr (Realm.accountRealmName.inj hname')
    · intro hnot
      have hunknown : ∀ r ∈ db.accountRealm, r.accountRealmName ≠ name :=
        fun r hr heq => hnot ⟨r, hr, congrArg _ heq.symm⟩
      refine ⟨iff_of_false ?_ (hgranted hunknown), fun _ => ⟨name, hrealm, hunknown⟩⟩
      rw [hraise]
      exact raise_ne_ok

/-! ## Administrators -/

/-- Alice is in the collection 2 below the collection 1, which has the property. -/
def administrators : Db where
  collections := Library.run AccountCollection.step ⟨[], [], [], []⟩
    [.insertCollection 1, .insertCollection 2, .insertHier ⟨1, 2⟩]
  account := [⟨1, "alice", 1⟩]
  accountRealm := [⟨1, "corporate"⟩]
  accountCollectionAccount := [⟨2, 1⟩]
  property := [⟨"admin", "console", some 1, none, none⟩]

theorem consistent_administrators : Consistent administrators where
  accountKey := by decide
  loginKey := by decide
  memberRef := by decide
  valid := {
    collections := by decide
    edges := by decide
    parents := by decide
    children := by decide
    acyclic := Acyclic.of_lt (fun c => c) fun x y hxy => by
      cases List.mem_singleton.mp hxy
      decide }
  cache := by decide

/-- Whether Alice is granted the property in a realm. -/
def console (realm : Realm) : Request :=
  ⟨⟨"console", "admin", by decide, by decide⟩, .login "alice", realm, none⟩

theorem answers_console : Answers (.listed Property) administrators (console (.accountRealmId 1)) :=
  (answers_iff consistent_administrators).mpr (by simp [console])

/-- By the name of the realm the request fails. -/
theorem not_answers_console : Consistent administrators ∧
    ¬ Answers (.listed Property) administrators (console (.accountRealmName "corporate")) := by
  refine ⟨consistent_administrators, fun h => ?_⟩
  have hraise : checkPropertyAccountAuthorization (.listed Property) administrators
      (console (.accountRealmName "corporate")).parameters =
        raise .undefinedColumn "column account_realm_id does not exist" := rfl
  obtain ⟨name, hname, hunknown⟩ := h.2 ⟨_, hraise⟩
  cases hname
  exact hunknown _ List.mem_cons_self rfl

end JazzHands.Authorization

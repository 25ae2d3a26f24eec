import JazzHands.Library.GuardedAscent
import JazzHands.Library.Sync
import JazzHands.Postgres.Error
import Mathlib.Data.List.Dedup

/-!
# The account collections of managers

`auto_ac_manip.make_auto_report_acs_right`, with what it calls.

Of the triggers of these tables two can raise here.  `validate_property` does so for a second property
of one kind, and `account_collection_hier_recurse_handler` for a row of `account_collection_hier` that
closes a loop; the collections of the reports may lie above those of their manager already, and then
the row that would link them the other way is refused.  What that handler reads is the cache of a
view, which shows the ways up from every collection; the cache is taken to hold what the view shows.

The other triggers ask for the limits, the realm and the hierarchy of the collection type, of which
the type `automated` has none as `initialize_jazzhands.sql` makes it, or keep caches.
-/

namespace JazzHands.AutoAc

open Library Postgres

structure Account where
  accountId : ℕ
  login : String
  personId : ℕ
  companyId : ℕ
  isEnabled : Bool
  accountRealmId : ℕ
  accountRole : String
  accountType : String
  deriving DecidableEq

structure PersonCompany where
  companyId : ℕ
  personId : ℕ
  personCompanyRelation : String
  managerPersonId : Option ℕ

structure AccountCollection where
  accountCollectionId : ℕ
  accountCollectionName : String
  accountCollectionType : String

/-- A row of `account_collection_account`. -/
structure Member where
  accountCollectionId : ℕ
  accountId : ℕ
  deriving DecidableEq

/-- A row of `account_collection_hier`. -/
structure Hier where
  accountCollectionId : ℕ
  childAccountCollectionId : ℕ
  deriving DecidableEq

/-- `isActive` where the row is in the view `v_property`. -/
structure Property where
  propertyName : String
  propertyType : String
  accountId : Option ℕ
  accountRealmId : Option ℕ
  propertyValueAccountCollectionId : Option ℕ
  isActive : Bool

/-- `references` are the account collections that rows of other tables or other columns refer to. -/
structure Db where
  account : List Account
  personCompany : List PersonCompany
  accountCollection : List AccountCollection
  accountCollectionAccount : List Member
  accountCollectionHier : List Hier
  property : List Property
  references : List ℕ
  accountCollectionSeq : ℕ

inductive AcType where
  | directs
  | rollups
  deriving DecidableEq

def AcType.text : AcType → String
  | directs => "AutomatedDirectsAC"
  | rollups => "AutomatedRollupsAC"

/-! ## Who reports to whom -/

structure Peep where
  account : Account
  managerPersonId : Option ℕ
  deriving DecidableEq

/-- `peeps` without `is_enabled = true`. -/
def employees (db : Db) : List Peep :=
  db.account.flatMap fun a =>
    if a.accountRole = "primary" ∧ a.accountType = "person" then
      (db.personCompany.filter fun pc => pc.personId = a.personId ∧ pc.companyId = a.companyId ∧
        pc.personCompanyRelation = "employee").map fun pc => ⟨a, pc.managerPersonId⟩
    else []

def peeps (db : Db) : List Peep := (employees db).filter (·.account.isEnabled)

/-- The condition of the join. -/
def Peep.ReportsTo (reports managers : Peep) : Prop :=
  some managers.account.personId = reports.managerPersonId ∧
    managers.account.accountRealmId = reports.account.accountRealmId
  deriving Decidable

def pairs (reports managers : List Peep) : List (Peep × Peep) :=
  managers.flatMap fun m => (reports.filter (·.ReportsTo m)).map fun r => (r, m)

def getNumDirectReports (db : Db) (a : Account) : ℕ :=
  ((pairs (peeps db) (peeps db)).filter fun x => x.2.account.accountId = a.accountId ∧
    x.2.account.accountRealmId = a.accountRealmId).length

/-- The property is for a kind of collection of the account. -/
def Property.IsFor (p : Property) (acType : AcType) (a : Account) : Prop :=
  p.propertyName = acType.text ∧ p.propertyType = "auto_acct_coll" ∧
    p.accountId = some a.accountId ∧ p.accountRealmId = some a.accountRealmId
  deriving Decidable

structure Agg where
  accountId : ℕ
  managerAccountId : ℕ
  propertyName : String
  accountCollectionId : ℕ

/-- `agg`; the definitions of these properties demand a value. -/
def agg (db : Db) (reports managers : List Peep) : List Agg :=
  (pairs reports managers).flatMap fun x => db.property.filterMap fun p =>
    if p.isActive = true ∧ (p.IsFor .directs x.1.account ∨ p.IsFor .rollups x.1.account) then
      p.propertyValueAccountCollectionId.map fun c =>
        ⟨x.1.account.accountId, x.2.account.accountId, p.propertyName, c⟩
    else none

/-- `rank = 1`, with the rows of an account in the descending order of `property_name`. -/
def rankedFirst (l : List Agg) : List Agg :=
  l.filter fun x => ∀ y ∈ l, y.accountId = x.accountId → ¬ x.propertyName < y.propertyName

def getNumReportsWithReports (db : Db) (a : Account) : ℕ :=
  let managers := (employees db).filter (·.account.accountRealmId = a.accountRealmId)
  let reports := managers.filter (·.account.isEnabled)
  ((rankedFirst (agg db reports managers)).filter (·.managerAccountId = a.accountId)).length

/-! ## The handler of the hierarchy -/

/-- The ways up from a collection, which the cache of `v_account_collection_hier_recurse` has. -/
def waysUp (t : List Hier) (c : ℕ) : List (Guarded ℕ) :=
  unionAll (Guarded.next fun x => (t.filter (·.childAccountCollectionId = x)).map
    (·.accountCollectionId)) [.start c] (t.length + 2)

/-- `_r.cycle`: the child of a new row is on a way up from its parent. -/
def ClosesLoop (t : List Hier) (new : Hier) : Prop :=
  ∃ r ∈ waysUp t new.accountCollectionId, r.node = new.childAccountCollectionId
  deriving Decidable

/-- `account_collection_hier_recurse_handler` for the rows that a statement inserts below one
collection.  The rows that the statement has inserted or is to delete below it lead to no other
collection on a way up from it. -/
def accountCollectionHierRecurseHandler (t inserted : List Hier) : Result Unit :=
  raiseIf (∃ new ∈ inserted, ClosesLoop t new) .invalidParameterValue "This creates an infite loop"

/-! ## What creates -/

def acname (a : Account) : AcType → String
  | .directs => a.login ++ "-employee-directs"
  | .rollups => a.login ++ "-employee-rollup"

/-- The collection has the name and the type that it is looked up by. -/
def AccountCollection.IsNamed (ac : AccountCollection) (a : Account) (acType : AcType) : Prop :=
  ac.accountCollectionName = acname a acType ∧ ac.accountCollectionType = "automated"
  deriving Decidable

/-- An active property has the collection as its value. -/
def IsValue (db : Db) (a : Account) (acType : AcType) (c : ℕ) : Prop :=
  ∃ p ∈ db.property, p.isActive = true ∧ p.IsFor acType a ∧
    p.propertyValueAccountCollectionId = some c
  deriving Decidable

def createAutomatedAc (db : Db) (a : Account) (acType : AcType) : Db :=
  let c := db.accountCollectionSeq
  { db with
    accountCollection := db.accountCollection ++ [⟨c, acname a acType, "automated"⟩]
    accountCollectionAccount := db.accountCollectionAccount ++
      if acType = .directs then [⟨c, a.accountId⟩] else []
    property := db.property ++ [⟨acType.text, "auto_acct_coll", some a.accountId,
      some a.accountRealmId, some c, true⟩]
    accountCollectionSeq := c + 1 }

def findOrCreateAutomatedAc (db : Db) (a : Account) (acType : AcType) : Result (ℕ × Db) :=
  match db.accountCollection.find? fun ac =>
    ac.IsNamed a acType ∧ IsValue db a acType ac.accountCollectionId with
  | some ac => .ok (ac.accountCollectionId, db)
  | none => do
    raiseIf (∃ ac ∈ db.accountCollection, ac.IsNamed a acType) .uniqueViolation
      "duplicate key value violates unique constraint uq_acct_collection_name"
    raiseIf (∃ p ∈ db.property, p.IsFor acType a) .uniqueViolation
      "Property of type (%,%) already exists for given LHS and property is not multivalue"
    .ok (db.accountCollectionSeq, createAutomatedAc db a acType)

/-- `ins` and `del` on a table with a primary key. -/
def insDel {ρ : Type} [DecidableEq ρ] (own : ρ → Bool) (shouldbethere t : List ρ) :
    Result (List ρ) := do
  raiseIf (¬ (missing shouldbethere t).Nodup) .uniqueViolation
    "duplicate key value violates unique constraint"
  .ok (sync own shouldbethere t)

/-- `shouldbethere` of `populate_direct_report_ac`. -/
def directMembers (db : Db) (a : Account) : List ℕ :=
  ((((pairs (peeps db) (peeps db)).filter fun x => x.2.account.accountId = a.accountId).map
    fun x => x.1.account.accountId) ++ if a.isEnabled then [a.accountId] else []).dedup

def populateDirectReportAc (db : Db) (a : Account) : Result (ℕ × Db) := do
  let (c, db) ← findOrCreateAutomatedAc db a .directs
  let t ← insDel (fun m => m.accountCollectionId = c)
    ((directMembers db a).map fun x => ⟨c, x⟩) db.accountCollectionAccount
  .ok (c, { db with accountCollectionAccount := t })

/-- The children in `shouldbethere` of `populate_rollup_report_ac`. -/
def rollupChildren (db : Db) (a : Account) : List ℕ :=
  ((rankedFirst (agg db (peeps db) (peeps db))).filter (·.managerAccountId = a.accountId)).map
    (·.accountCollectionId)

def populateRollupReportAc (db : Db) (a : Account) : Result (ℕ × Db) := do
  let (c, db) ← findOrCreateAutomatedAc db a .rollups
  let shouldbethere := (rollupChildren db a).map fun x => (⟨c, x⟩ : Hier)
  let t ← insDel (fun h => h.accountCollectionId = c) shouldbethere db.accountCollectionHier
  accountCollectionHierRecurseHandler db.accountCollectionHier
    (missing shouldbethere db.accountCollectionHier)
  .ok (c, { db with accountCollectionHier := t })

def createReportAccountCollections (db : Db) (a : Account) (numrpt numrlup : ℕ) : Result Db := do
  if numrpt = 0 then .ok db
  else
    let (directac, db) ← populateDirectReportAc db a
    if numrlup = 0 then .ok db
    else
      let (rollupac, db) ← populateRollupReportAc db a
      raiseIf (⟨rollupac, directac⟩ ∈ db.accountCollectionHier) .uniqueViolation
        "duplicate key value violates unique constraint pk_account_collection_hier"
      accountCollectionHierRecurseHandler db.accountCollectionHier [⟨rollupac, directac⟩]
      .ok { db with
        accountCollectionHier := db.accountCollectionHier ++ [⟨rollupac, directac⟩] }

/-! ## What destroys -/

/-- The values of all properties of a kind, active or not. -/
def purgedCollections (db : Db) (a : Account) (acType : AcType) : List ℕ :=
  (db.property.filter (·.IsFor acType a)).filterMap (·.propertyValueAccountCollectionId)

def purged (db : Db) (a : Account) (acType : AcType) : Db :=
  let p := purgedCollections db a acType
  { db with
    accountCollection := db.accountCollection.filter fun ac => ac.accountCollectionId ∉ p
    accountCollectionAccount := db.accountCollectionAccount.filter fun m =>
      m.accountCollectionId ∉ p
    accountCollectionHier := db.accountCollectionHier.filter fun h =>
      ¬ (h.accountCollectionId ∈ p ∨ h.childAccountCollectionId ∈ p)
    property := db.property.filter fun q => ¬ q.IsFor acType a }

def purgeReportAccountCollection (db : Db) (a : Account) (acType : AcType) : Result Db := do
  let db' := purged db a acType
  raiseIf (∃ c ∈ purgedCollections db a acType, c ∈ db'.references ∨
      ∃ q ∈ db'.property, q.propertyValueAccountCollectionId = some c) .foreignKeyViolation
    "update or delete on table account_collection violates foreign key constraint"
  .ok db'

def destroyReportAccountCollections (db : Db) (a : Account) (numrpt numrlup : ℕ) : Result Db :=
  if numrpt = 0 then purgeReportAccountCollection db a .directs
  else if numrlup = 0 then purgeReportAccountCollection db a .rollups
  else .ok db

/-! ## All of it -/

/-- `make_auto_report_acs_right` for an account whose row is found. -/
def makeAccountRight (db : Db) (a : Account) : Result Db := do
  let numrpt := getNumDirectReports db a
  let numrlup := getNumReportsWithReports db a
  let db ← destroyReportAccountCollections db a numrpt numrlup
  createReportAccountCollections db a numrpt numrlup

/-- Where there is no such account both counts are zero, and there is nothing to purge. -/
def makeAutoReportAcsRight (db : Db) (accountId : ℕ) : Result Db :=
  match db.account.find? (·.accountId = accountId) with
  | some a => makeAccountRight db a
  | none => .ok db

end JazzHands.AutoAc

import Mathlib.Data.List.AList
import JazzHands.Library.GuardedAscent

/-!
# The sudoers files of `mkpasswdfiles.pl`

A hash is an `AList`.  Texts are upper-cased as ASCII.
-/

namespace JazzHands.Mkpasswdfiles

open Library

/-- A row of `sudo_acct_col_device_collectio`, where booleans are `Y` and `N`. -/
structure SudoRule where
  sudoAliasName : String
  deviceCollectionId : ℕ
  accountCollectionId : ℕ
  runAsAccountCollectionId : Option ℕ
  requiresPassword : Option String
  canExecChild : Option String

structure Account where
  accountId : ℕ
  login : String
  accountStatus : String

structure SudoTables where
  /-- The properties `sudoers:sudo-default` of device collections, with their values. -/
  sudoDefault : List (ℕ × Option String)
  rules : List SudoRule
  /-- Names and values. -/
  sudoAlias : List (String × String)
  /-- Keys and names. -/
  accountCollection : List (ℕ × String)
  account : List Account
  /-- `ct_account_collection_hier_recurse`: pairs of a collection and one that it contains. -/
  accountCollectionHierRecurse : List (ℕ × ℕ)
  /-- Pairs of a collection and an account. -/
  accountCollectionAccount : List (ℕ × ℕ)
  /-- Pairs of a parent and a child. -/
  deviceCollectionHier : List (ℕ × ℕ)

/-- What an uclass expands into: a `User_Alias` or a `Runas_Alias`. -/
inductive Utype where
  | U
  | R
  deriving DecidableEq

def Utype.letter : Utype → String
  | U => "U"
  | R => "R"

/-- A key of `%uc_name`. -/
@[ext]
structure UclassKey where
  utype : Utype
  uclassId : ℕ
  deriving DecidableEq

def UclassKey.text (key : UclassKey) : String := key.utype.letter ++ toString key.uclassId

abbrev UcName : Type := AList fun _ : UclassKey => String

/-- `%h = @list`, a later pair before an earlier one. -/
def assign {κ : Type*} {β : Type*} [DecidableEq κ] (l : List (κ × β)) : AList fun _ : κ => β :=
  l.foldl (fun h p => h.insert p.1 p.2) ∅

namespace SudoTables

variable (t : SudoTables)

/-! ## `retrieve_sudo_data` -/

/-- `@{ $sudo_defaults{$mid} }`, which exists when it is not empty. -/
def sudoDefaults (mid : ℕ) : List (Option String) :=
  (t.sudoDefault.filter (·.1 = mid)).map (·.2)

/-- The rows of the rules of a mclass. -/
def rulesOf (mid : ℕ) : List SudoRule := t.rules.filter (·.deviceCollectionId = mid)

def sudoCmndAliases (mid : ℕ) : List (String × String) :=
  (t.rulesOf mid).flatMap fun c => t.sudoAlias.filter (·.1 = c.sudoAliasName)

def sudoUclasses (mid : ℕ) : List (Utype × ℕ × String) :=
  ((t.rulesOf mid).flatMap fun c1 =>
      (t.accountCollection.filter (·.1 = c1.accountCollectionId)).map (Utype.U, ·)).dedup ++
    ((t.rulesOf mid).flatMap fun c2 =>
      (t.accountCollection.filter (some ·.1 = c2.runAsAccountCollectionId)).map
        (Utype.R, ·)).dedup

/-- The rules of a mclass, `ORDER BY account_collection_id`. -/
def sudoUserSpec (mid : ℕ) : List SudoRule :=
  (t.rules.mergeSort fun x y => x.accountCollectionId ≤ y.accountCollectionId).filter
    (·.deviceCollectionId = mid)

def vAcctCollAcctExpanded : List (ℕ × ℕ) :=
  (t.accountCollectionHierRecurse.flatMap fun r =>
    (t.accountCollectionAccount.filter (·.1 = r.2)).map fun aca => (r.1, aca.2)).dedup

/-- The logins of the enabled accounts of a collection. -/
def enabledLogins (uclassId : ℕ) : List String :=
  (t.account.filter fun a => a.accountStatus ∈ ["enabled", "onleave-enable"] ∧
    ∃ aca ∈ t.vAcctCollAcctExpanded, aca = (uclassId, a.accountId)).map (·.login)

/-- `@{ $sudo_expand_uclass{$uclassid} }`.  The subquery selects `account_id` from a table without
such a column, so it is that of the account itself, once for each rule. -/
def sudoExpandUclass (uclassId : ℕ) : List String :=
  if t.rules = [] then [] else t.enabledLogins uclassId

/-! ## The mclasses above one -/

/-- The parents of a device collection. -/
def parents (dcid : ℕ) : List ℕ :=
  (t.deviceCollectionHier.filter (·.2 = dcid)).map (·.1)

/-- The rows of `v_device_coll_hier_detail` for a device collection. -/
def vDeviceCollHierDetail (dcid : ℕ) : List (Guarded ℕ) :=
  unionAll (Guarded.next t.parents) [Guarded.start dcid] (t.deviceCollectionHier.length + 2)

/-- `get_parents_for_mclass`; the loop ends at a key that is zero. -/
def getParentsForMclass (dcid : ℕ) : List ℕ :=
  ((((t.vDeviceCollHierDetail dcid).map (·.node)).filter (· ≠ dcid)).takeWhile (· ≠ 0)).foldl
    (fun ids id => if id ∈ ids then ids else id :: ids) []

/-! ## `get_sudo_uclasses_for_mclass` -/

end SudoTables

/-- `$name = uc($name); $name =~ s/\W/_/g; $name = "${utype}${uclassid}_${name}"`. -/
def aliasName (key : UclassKey) (name : String) : String :=
  key.text ++ "_" ++
    name.map fun c => if c.toUpper.isAlphanum = true ∨ c = '_' then c.toUpper else '_'

namespace SudoTables

variable (t : SudoTables)

def getSudoUclassesForMclass (mid : ℕ) : UcName :=
  assign ((t.sudoUclasses mid).map fun c => (⟨c.1, c.2.1⟩, aliasName ⟨c.1, c.2.1⟩ c.2.2))

end SudoTables

/-! ## `get_sudoers_user_aliases` -/

/-- A line `User_Alias` or `Runas_Alias`. -/
structure UserAlias where
  utype : Utype
  name : String
  logins : List String

/-- One turn of the loop over the keys. -/
def userAliasStep (t : SudoTables) (x : List UserAlias × UcName) (key : UclassKey) :
    List UserAlias × UcName :=
  match t.sudoExpandUclass key.uclassId with
  | [] => (x.1, x.2.erase key)
  | [login] => (x.1, x.2.insert key login)
  | logins => (x.1 ++ [⟨key.utype, (x.2.lookup key).getD "", logins.mergeSort (· ≤ ·)⟩], x.2)

/-- `get_sudoers_user_aliases`, with what becomes of `%uc_name`. -/
def getSudoersUserAliases (t : SudoTables) (ucn : UcName) : List UserAlias × UcName :=
  (ucn.keys.mergeSort fun a b => a.text ≤ b.text).foldl (userAliasStep t) ([], ucn)

/-! ## `get_sudoers_file` -/

/-- What the walk down the mclasses collects. -/
structure Merged where
  default : Option String := none
  cmnd : AList fun _ : String => String := ∅
  ucn : UcName := ∅
  uspec : List SudoRule := []

/-- One mclass of the walk. -/
def mergeMclass (t : SudoTables) (x : Merged) (mid : ℕ) : Merged :=
  if mid = 0 then x
  else if t.sudoDefaults mid = [] then x
  else
    { default := (t.sudoDefaults mid).head?.join.or x.default
      cmnd := assign (t.sudoCmndAliases mid) ∪ x.cmnd
      ucn := t.getSudoUclassesForMclass mid ∪ x.ucn
      uspec := x.uspec ++ t.sudoUserSpec mid }

def mergedFor (t : SudoTables) (mclassId : ℕ) : Merged :=
  (t.getParentsForMclass mclassId ++ [mclassId]).foldl (mergeMclass t) {}

def chomp (s : String) : String :=
  if s.toList.getLast? = some '\n' then String.ofList s.toList.dropLast else s

/-- A line of the user privilege specification. -/
structure Privilege where
  uclass : String
  runas : String
  passwd : String
  exec : String
  cmnd : String

/-- `shift(@uspec) || 'ALL'`, where `none` is `ALL`. -/
def SudoRule.runAs (r : SudoRule) : Option ℕ := r.runAsAccountCollectionId.filter (· ≠ 0)

/-- A flag that can be `NULL`, `Y` or `N`. -/
def flagText (yes no : String) : Option String → String
  | none => ""
  | some value => if value = "Y" then yes else no

/-- The line of a rule, unless an uclass of the rule is empty. -/
def privilege (ucn : UcName) (r : SudoRule) : Option Privilege := do
  let uclass ← ucn.lookup ⟨.U, r.accountCollectionId⟩
  let runas ← match r.runAs with
    | none => some "ALL"
    | some runAsId => ucn.lookup ⟨.R, runAsId⟩
  some ⟨uclass, runas, flagText "PASSWD:" "NOPASSWD:" r.requiresPassword,
    flagText "EXEC:" "NOEXEC:" r.canExecChild, r.sudoAliasName⟩

/-- The parts of a file. -/
structure SudoersFile where
  default : Option String
  cmndAliases : List (String × String)
  userAliases : List UserAlias
  privileges : List Privilege

def sudoersFile (t : SudoTables) (mclassId : ℕ) : SudoersFile :=
  let x := mergedFor t mclassId
  let aliases := getSudoersUserAliases t x.ucn
  { default := x.default.map chomp
    cmndAliases := ((x.cmnd.keys.mergeSort (· ≤ ·)).filter (· ≠ "ALL")).map fun name =>
      (name, chomp ((x.cmnd.lookup name).getD ""))
    userAliases := aliases.1
    privileges := x.uspec.filterMap (privilege aliases.2) }

end JazzHands.Mkpasswdfiles

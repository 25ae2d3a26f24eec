import Mathlib.Data.List.AList
import Mathlib.Data.List.Sort
import Mathlib.Data.String.Basic

/-!
# Runs of `generate-zones.pl`

`dns_utils.get_domain_from_cidr` is a parameter, and so are what is found on disk and what
`named-checkzone` says.  The acl and configuration files come after; they may only end the run.
-/

namespace JazzHands.Zonegen

structure DnsDomain where
  dnsDomainId : ℕ
  dnsDomainName : String
  deriving DecidableEq

/-- A row of `dns_domain_ip_universe`; times are in whole seconds. -/
structure DomainUniverse where
  dnsDomainId : ℕ
  ipUniverseId : ℕ
  soaSerial : Option ℤ
  shouldGenerate : Bool
  lastGenerated : Option ℤ

/-- A row of `ip_universe_visibility`. -/
structure Visibility where
  ipUniverseId : ℕ
  visibleIpUniverseId : ℕ

structure ChangeRecord (Inet : Type) where
  dnsChangeRecordId : ℕ
  dnsDomainId : Option ℕ
  ipUniverseId : Option ℕ
  ipAddress : Option Inet
  dataInsDate : ℤ
  deriving DecidableEq

structure Db (Inet : Type) where
  dnsDomain : List DnsDomain
  dnsDomainIpUniverse : List DomainUniverse
  ipUniverseVisibility : List Visibility
  dnsChangeRecord : List (ChangeRecord Inet)

variable {Inet : Type}

/-! ## The views -/

/-- A row of `v_dns_changes_pending`. -/
structure Pending where
  dnsChangeRecordId : ℕ
  dnsDomainId : ℕ
  soaName : String

/-- The join of a change record with zones. -/
def pendingRows (db : Db Inet) (chg : ChangeRecord Inet) (on : DnsDomain → DomainUniverse → Bool) :
    List Pending :=
  db.dnsDomain.flatMap fun n =>
    (db.dnsDomainIpUniverse.filter fun du => du.dnsDomainId = n.dnsDomainId && on n du).map fun _ =>
      ⟨chg.dnsChangeRecordId, n.dnsDomainId, n.dnsDomainName⟩

/-- The four parts of the `UNION ALL`. -/
def vDnsChangesPending (getDomainFromCidr : Inet → String) (db : Db Inet) : List Pending :=
  (db.dnsChangeRecord.flatMap fun chg => pendingRows db chg fun n _ =>
    chg.ipAddress.any fun ip => getDomainFromCidr ip = n.dnsDomainName) ++
  (db.dnsChangeRecord.flatMap fun chg => pendingRows db chg fun n _ =>
    chg.dnsDomainId = some n.dnsDomainId && chg.ipUniverseId = none) ++
  (db.dnsChangeRecord.flatMap fun chg => pendingRows db chg fun n du =>
    chg.dnsDomainId = some n.dnsDomainId && chg.ipUniverseId = some du.ipUniverseId) ++
  (db.dnsChangeRecord.flatMap fun chg =>
    (db.ipUniverseVisibility.filter fun iv => chg.ipUniverseId = some iv.ipUniverseId).flatMap
      fun _ => pendingRows db chg fun n _ => chg.dnsDomainId = some n.dnsDomainId)

/-- A row of `v_dns_domain_nouniverse`. -/
structure Zone where
  dnsDomainId : ℕ
  soaName : String
  soaSerial : Option ℤ
  shouldGenerate : Bool
  lastGenerated : Option ℤ

/-- The rows of the default universe, each with its domain. -/
def vDnsDomainNouniverse (db : Db Inet) : List Zone :=
  db.dnsDomainIpUniverse.filterMap fun du =>
    if du.ipUniverseId = 0 then
      (db.dnsDomain.find? fun n => n.dnsDomainId = du.dnsDomainId).map fun n =>
        ⟨du.dnsDomainId, n.dnsDomainName, du.soaSerial, du.shouldGenerate, du.lastGenerated⟩
    else none

/-! ## What a run is given -/

structure Options where
  nogen : Bool
  dumpzone : Bool
  help : Bool
  genall : Bool
  forcegen : Bool
  forcesoa : Bool
  force : Bool
  nosoa : Bool
  argv : List String

/-- `mtime` is about paths below the zone root, with `none` where there is no file. -/
structure Environment where
  now : ℤ
  lockAvailable : Bool
  mtime : String → Option ℤ
  checkzone : String → Bool
  finishes : Bool

def Options.forcesGen (o : Options) : Bool := o.forcegen || o.force

def Options.forcesSoa (o : Options) : Bool := o.forcesoa || o.force

/-! ## The zones to generate -/

/-- An element of `rec`: a row of either view, of which only the first has a change record. -/
structure Rec where
  dnsChangeRecordId : Option ℕ
  dnsDomainId : ℕ

/-- A value of the hash; `rec` has a first element. -/
structure Entry where
  bumpsoa : Bool
  first : Rec
  rest : List Rec

/-- `rec`. -/
def Entry.records (e : Entry) : List Rec := e.first :: e.rest

abbrev Generate : Type := AList fun _ : String => Entry

/-- Perl takes these for false. -/
def isFalse (s : String) : Bool := s = "" || s = "0"

/-- The row is not skipped because of the command line. -/
def Options.takes (o : Options) (hr : Pending) : Bool :=
  o.argv.isEmpty || (!isFalse hr.soaName && o.argv.contains hr.soaName)

/-- The key in the hash. -/
def Pending.dom (hr : Pending) : String := if isFalse hr.soaName then "__unknown__" else hr.soaName

def Pending.toRec (hr : Pending) : Rec := ⟨some hr.dnsChangeRecordId, hr.dnsDomainId⟩

def collect (g : Generate) (hr : Pending) : Generate :=
  match g.lookup hr.dom with
  | none => g.insert hr.dom ⟨true, hr.toRec, []⟩
  | some e => g.insert hr.dom ⟨true, e.first, e.rest ++ [hr.toRec]⟩

/-- The path that is looked at. -/
def zoneFile (dom : String) : String :=
  if dom.endsWith ".in-addr.arpa" then "inaddr/" ++ dom
  else if dom.endsWith ".ip6.arpa" then "ip6/" ++ dom
  else dom

def genit (o : Options) (env : Environment) (z : Zone) : Bool :=
  o.forcesGen || o.genall ||
    match env.mtime (zoneFile z.soaName) with
    | none => true
    | some mtime => mtime != z.lastGenerated.getD 0

/-- The zone is taken out of the hash. -/
def Options.refuses (o : Options) (z : Zone) : Bool :=
  (!o.genall && !z.shouldGenerate) || !(o.argv.isEmpty || o.argv.contains z.soaName)

def review (o : Options) (env : Environment) (g : Generate) (z : Zone) : Generate :=
  if o.refuses z then g.erase z.soaName
  else if z.soaName ∈ g then g
  else if genit o env z then g.insert z.soaName ⟨false, ⟨none, z.dnsDomainId⟩, []⟩
  else g

def lockDbChanges (now : ℤ) (db : Db Inet) : List ℕ :=
  (db.dnsChangeRecord.filter fun r => r.dataInsDate < now).map (·.dnsChangeRecordId)

def changeids (o : Options) (env : Environment) (db : Db Inet) : List ℕ :=
  if o.nosoa then [] else lockDbChanges env.now db

/-- The rows that count. -/
def considered (getDomainFromCidr : Inet → String) (o : Options) (env : Environment) (db : Db Inet) :
    List Pending :=
  if (changeids o env db).isEmpty then []
  else (vDnsChangesPending getDomainFromCidr db).filter o.takes

def choose (getDomainFromCidr : Inet → String) (o : Options) (env : Environment) (db : Db Inet) :
    Generate :=
  (vDnsDomainNouniverse db).foldl (review o env)
    ((considered getDomainFromCidr o env db).foldl collect ∅)

def getDnsDomid (db : Db Inet) (dom : String) : Option ℕ :=
  ((vDnsDomainNouniverse db).find? fun z => z.soaName = dom).map (·.dnsDomainId)

/-- All zones of the command line are there. -/
def validZones (o : Options) (db : Db Inet) (g : Generate) : Bool :=
  o.argv.all fun dom => dom ∈ g || (getDnsDomid db dom).any (· ≠ 0)

/-! ## Generation -/

def sortedKeys (g : Generate) : List String := g.keys.insertionSort (· ≤ ·)

/-- The keys but `__unknown__`, with their values. -/
def zones (g : Generate) : List (String × Entry) :=
  ((sortedKeys g).filter (· ≠ "__unknown__")).filterMap fun dom => (g.lookup dom).map (Prod.mk dom)

/-- `bumpsoa` as it is after the loop. -/
def Options.bumps (o : Options) (e : Entry) : Bool :=
  !o.nosoa && (o.forcesSoa || e.bumpsoa)

def soaSerial (db : Db Inet) (domid : ℕ) : Option ℤ :=
  ((vDnsDomainNouniverse db).find? fun z => z.dnsDomainId = domid).bind (·.soaSerial)

/-- The serial number in the file. -/
def processSoa (db : Db Inet) (domid : ℕ) (bumpsoa : Bool) : ℤ :=
  (soaSerial db domid).getD 0 + if bumpsoa then 1 else 0

/-- `$domid` in `process_domain`. -/
def domidOf (db : Db Inet) (x : String × Entry) : Option ℕ :=
  if x.2.first.dnsDomainId = 0 then (getDnsDomid db x.1).filter (· ≠ 0)
  else some x.2.first.dnsDomainId

/-- The zones whose files are put in place, with their serial numbers. -/
def writtenZones (o : Options) (env : Environment) (db : Db Inet) (g : Generate) :
    List (String × ℤ) :=
  ((zones g).filter fun x => env.checkzone x.1).filterMap fun x =>
    (domidOf db x).map fun domid => (x.1, processSoa db domid (o.bumps x.2))

/-! ## The database -/

/-- The row of the zone in the default universe. -/
def DomainUniverse.IsOf (du : DomainUniverse) (domid : ℕ) : Prop :=
  du.dnsDomainId = domid ∧ du.ipUniverseId = 0
  deriving Decidable

def DomainUniverse.bump (now : ℤ) (du : DomainUniverse) : DomainUniverse :=
  { du with soaSerial := du.soaSerial.map (· + 1), lastGenerated := some now }

/-- With a new serial number, `dns_domain_ip_universe_trigger_change` deletes the change records of a
zone that should not be generated. -/
def Untracks (db : Db Inet) (domid : ℕ) (r : ChangeRecord Inet) : Prop :=
  (∃ du ∈ db.dnsDomainIpUniverse, du.IsOf domid ∧ du.soaSerial ≠ none ∧ du.shouldGenerate = false) ∧
    r.dnsDomainId = some domid ∧ r.ipUniverseId = some 0
  deriving Decidable

/-- `record_newgen`; a serial number is a 32-bit integer. -/
def recordNewgen (now : ℤ) (db : Db Inet) (domid : ℕ) : Option (Db Inet) :=
  if ∃ du ∈ db.dnsDomainIpUniverse, du.IsOf domid ∧ du.soaSerial = some 2147483647 then none
  else some { db with
    dnsDomainIpUniverse := db.dnsDomainIpUniverse.map fun du =>
      if du.IsOf domid then du.bump now else du
    dnsChangeRecord := db.dnsChangeRecord.filter fun r => ¬ Untracks db domid r }

/-- The zones whose serials are bumped. -/
def bumpedIds (o : Options) (g : Generate) : List ℕ :=
  ((zones g).filter fun x => o.bumps x.2).map fun x => x.2.first.dnsDomainId

/-- The change records that are deleted. -/
def purgedIds (o : Options) (env : Environment) (db : Db Inet) (g : Generate) : List ℕ :=
  if o.nosoa then []
  else (((sortedKeys g).flatMap fun dom => ((g.lookup dom).elim [] Entry.records)).filterMap
    (·.dnsChangeRecordId)).filter fun id => id ≠ 0 && (changeids o env db).contains id

/-- The database as committed, and the zone files. -/
structure Outcome (Inet : Type) where
  db : Db Inet
  written : List (String × ℤ)

/-- The run ends before this where the options say so or where zones are being generated already. -/
def Options.starts (o : Options) (env : Environment) : Bool :=
  !(o.nogen || o.dumpzone || o.help || (o.nosoa && o.forcesSoa)) && (o.nosoa || env.lockAvailable)

/-- A run; `none` where it ends without a commit. -/
def generateZones (getDomainFromCidr : Inet → String) (o : Options) (env : Environment)
    (db : Db Inet) : Option (Outcome Inet) :=
  let g := choose getDomainFromCidr o env db
  if o.starts env && validZones o db g then do
    let written := writtenZones o env db g
    let db' ← (bumpedIds o g).foldlM (recordNewgen env.now) db
    let purged := purgedIds o env db g
    if env.finishes then
      if (bumpedIds o g).isEmpty && purged.isEmpty then some ⟨db, written⟩
      else some ⟨{ db' with
        dnsChangeRecord := db'.dnsChangeRecord.filter fun r => ¬ r.dnsChangeRecordId ∈ purged },
          written⟩
    else none
  else none

end JazzHands.Zonegen

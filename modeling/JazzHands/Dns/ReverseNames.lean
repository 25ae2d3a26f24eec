import JazzHands.Postgres.InetText

/-!
# Names of reverse zones

The functions of `net_manip.sql` and `dns_utils.sql` that write addresses out and name the zones of
blocks.  Texts are lists of characters; only names of zones are strings.
-/

namespace JazzHands.Dns

open Library Postgres

/-- `lpad(s, length, '0')`; what is too long is cut off. -/
def lpad (s : List Char) (length : ℕ) : List Char := (s.leftpad length '0').take length

/-! ## `expand_ipv6_address` -/

/-- `regexp_replace(s, '::/\d+$', ':')`. -/
def dropMask (s : List Char) : List Char :=
  let rest := s.rdropWhile Char.isDigit
  if [':', ':', '/'] <:+ rest ∧ rest ≠ s then rest.dropLast.dropLast else s

/-- `[a-f0-9:]`, in both cases. -/
def isHexOrColon (c : Char) : Bool :=
  c.isDigit || (decide ('a' ≤ c.toLower) && decide (c.toLower ≤ 'f')) || c == ':'

/-- `regexp_replace(s, '^:', '')`. -/
def dropColon (s : List Char) : List Char := if s.head? = some ':' then s.tail else s

/-- `regexp_replace(s, '^:?([a-f0-9:]*):?(/\d+)?$', '\1', 'i')`, where the group leaves no colon to
what follows it. -/
def stripColons (s : List Char) : List Char :=
  let group := (dropColon s).takeWhile isHexOrColon
  let rest := (dropColon s).dropWhile isHexOrColon
  if rest = [] ∨ (rest.head? = some '/' ∧ rest.tail ≠ [] ∧ rest.tail.all Char.isDigit = true) then
    group
  else s

/-- The loop that makes `zero`. -/
def zeroFill : ℕ → List Char → List Char
  | 0, zero => zero
  | tally + 1, zero => zeroFill tally (zero ++ ':' :: lpad [] 4)

def expandIpv6Address (showsAll : Bool) (ip : Inet) : Result (List Char) := do
  raiseIf (ip.family ≠ .inet6) .invalidParameterValue
    "net_manip.expand_ipv6_address only works on IPv6 addresses"
  let parts := (stripColons (dropMask (ip.text showsAll))).splitOn ':'
  let proc := parts.map fun elem => if elem ≠ [] then lpad elem 4 else elem
  let tally := (parts.filter (· ≠ [])).length
  let zero := dropColon (zeroFill (8 - tally) [])
  .ok (joined ':' (proc.map fun elem => if elem ≠ [] then elem else zero))

/-! ## `expand_v6` -/

/-- `regexp_replace(s, '::', replacement)`. -/
def replaceDouble (s replacement : List Char) : List Char :=
  match cutDouble s with
  | none => s
  | some x => x.1 ++ (replacement ++ x.2)

/-- `repeat('0:', n)`. -/
def repeatZero (n : ℕ) : List Char := (List.replicate n ['0', ':']).flatten

/-- `regexp_replace(s, ':$', ':0')`. -/
def endColon (s : List Char) : List Char := if s.getLast? = some ':' then s ++ ['0'] else s

def expandV6 (ip : Inet) : List Char :=
  let single := replaceDouble ip.hostText []
  let n := 6 - (single.length - (single.filter (· ≠ ':')).length)
  let filled := endColon (replaceDouble ip.hostText (':' :: repeatZero n))
  joined ':' ((filled.splitOn ':').map fun s => lpad s 4)

def v6Inaddr (ip : Inet) : List Char :=
  (((expandV6 ip).filter (· ≠ ':')).reverse.flatMap fun c => [c, '.']).rdropWhile (· = '.')

/-! ## Zones -/

/-- `regexp_split_to_array(s, '')`. -/
def characters (s : List Char) : List (List Char) := if s = [] then [[]] else s.map fun c => [c]

def getDomainFromCidr (showsAll : Bool) (block : Inet) : Result String :=
  match block.family with
  | .inet4 =>
    let ipnodes := (block.hostText.splitOn '.').reverse
    .ok (String.ofList (joined '.' ((ipnodes.drop 1).take 3)) ++ ".in-addr.arpa")
  | .inet6 => do
    let ipaddr ← expandIpv6Address showsAll block
    let ipaddr := lpad (ipaddr.filter (· ≠ ':')) (block.masklen / 4)
    .ok (String.ofList (joined '.' (characters ipaddr).reverse) ++ ".ip6.arpa")

/-- The cast to `integer` of a number without fraction. -/
def toInteger (n : ℤ) : Result ℤ :=
  if -2 ^ 31 ≤ n ∧ n < 2 ^ 31 then .ok n
  else raise .numericValueOutOfRange "integer out of range"

def generateSeries (stop : ℤ) (step : ℕ) : List ℤ :=
  (List.range ((stop + step) / step).toNat).map fun (k : ℕ) => (k * step : ℤ)

/-- The values of `cur`.  The number of addresses is a double, which is exact for these powers. -/
def blocksOf (block : Inet) : Result (List Inet) :=
  match block.family with
  | .inet4 =>
    if 24 ≤ block.masklen then do
      let cur ← block.setMasklen 24
      .ok [cur]
    else do
      let stop ← toInteger (256 * 2 ^ (24 - block.masklen) - 1)
      (generateSeries stop 256).mapM fun o => do
        let ip ← block.add o
        ip.setMasklen 24
  | .inet6 => do
    let cur ← block.setMasklen 64
    .ok [cur]

def getAllDomainsForCidr (showsAll : Bool) (block : Inet) : Result (List String) := do
  let curs ← blocksOf block
  curs.foldlM (fun rv cur => do
    let domain ← getDomainFromCidr showsAll cur
    .ok (rv ++ [domain])) []

def getAllDomainRowsForCidr (showsAll : Bool) (block : Inet) : Result (List String) := do
  let curs ← blocksOf block
  curs.mapM (getDomainFromCidr showsAll)

end JazzHands.Dns

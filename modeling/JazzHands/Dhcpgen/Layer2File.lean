import JazzHands.Dhcpgen.FormatOption

/-!
# The files that `dhcpgen.pl` writes

For every layer 2 network a file is written that the configuration of the server includes.

* `Sound`: braces are balanced, each network of 4 to 4096 addresses has its subnet, and the pools
  are where their subnet is.

A shared network is opened for two layer 3 networks or more, and is closed when a subnet was written.
-/

namespace JazzHands.Dhcpgen

open Library Library.Nesting Postgres

/-! ## What is fetched -/

/-- A hash of DHCP properties. -/
structure Props where
  option : DhcpOption → Option OptionValue
  primaryDHCPServer : Option OptionValue

structure Layer3Network where
  layer3NetworkId : ℕ
  netblockAddress : Address
  gatewayAddress : Address

structure NetworkRange where
  networkRangeId : ℕ
  startAddress : Address
  stopAddress : Address

structure DhcpAssignment where
  deviceId : ℕ
  deviceName : Option PlainText
  physicalLabel : Option PlainText
  networkInterfaceId : ℕ
  netblockId : ℕ
  macAddr : PlainText
  ipAddress : Address

structure Layer2Network where
  layer2NetworkId : ℕ
  layer2NetworkCollectionId : ℕ
  layer2UniqueLabel : PlainText
  layer3Networks : List Layer3Network
  dhcpAssignments : List DhcpAssignment

structure Fetched where
  l2Props : ℕ → Props
  netrangeProps : ℕ → Props
  deviceProps : ℕ → Props
  netranges : ℕ → List NetworkRange
  hostname : PlainText

/-! ## Blocks -/

inductive Block where
  | sharedNetwork
  | subnet (n : Layer3Network)
  | pool (nr : NetworkRange)
  | host (h : DhcpAssignment)

abbrev Pieces := List (Piece Block Char)

/-- The head of a block is a line that ends in an opening brace. -/
def openLine (head : List Char) : List Char := head ++ ['\x7b', '\n']

def closeLine (indent : List Char) : List Char := indent ++ ['\x7d', '\n']

def header : List Char :=
  "#\n# Autogenerated DHCP configuration file\n".toList ++
    "# DO NOT MAKE MANUAL CHANGES TO THIS FILE.  THEY WILL BE OVERWRITTEN.\n#\n".toList

namespace Layer2Network

/-- `$shared_network`. -/
def Shared (l2 : Layer2Network) : Prop := 1 < l2.layer3Networks.length

instance (l2 : Layer2Network) : Decidable l2.Shared := inferInstanceAs (Decidable (_ < _))

def indent (l2 : Layer2Network) : List Char := if l2.Shared then ['\t', '\t'] else ['\t']

/-- `$shared_network ? "\t" : ""`. -/
def tab (l2 : Layer2Network) : List Char := if l2.Shared then ['\t'] else []

end Layer2Network

/-! ## Subnets -/

/-- The `next` of the loop. -/
def Layer3Network.Skipped (n : Layer3Network) : Prop :=
  n.netblockAddress.masklen ≤ 19 ∨ n.netblockAddress.masklen > 30

instance (n : Layer3Network) : Decidable n.Skipped := inferInstanceAs (Decidable (_ ∨ _))

/-- The networks that `$l3_count` counts. -/
def Layer2Network.written (l2 : Layer2Network) : List Layer3Network :=
  l2.layer3Networks.filter fun n => ¬ n.Skipped

def subnetHead (l2 : Layer2Network) (n : Layer3Network) : List Char :=
  openLine (l2.tab ++ ("subnet ".toList ++ (n.netblockAddress.addr ++ (" netmask ".toList ++
    (n.netblockAddress.mask ++ [' '])))))

def routersLine (l2 : Layer2Network) (n : Layer3Network) : List Char :=
  l2.tab ++ ("\toption routers ".toList ++ (n.gatewayAddress.addr ++ [';', '\n']))

def subnetPieces (l2 : Layer2Network) (n : Layer3Network) (lines : List (List Char)) : Pieces :=
  .opening (.subnet n) (subnetHead l2 n) :: ((routersLine l2 n :: lines).map .inner ++
    if l2.Shared then [.closing (closeLine l2.indent)] else [])

def writeSubnet (perl : Perl) (d : Fetched) (l2 : Layer2Network) (n : Layer3Network) :
    Except Died Pieces := do
  let lines ← optionLines perl (d.l2Props l2.layer2NetworkCollectionId).option l2.indent l2.indent
  .ok (subnetPieces l2 n lines)

/-! ## Pools -/

/-- `$x || $y`. -/
def orValue (x y : Option OptionValue) : Option OptionValue :=
  (x.filter fun v => v.IsTrue).or y

/-- The condition that the program checks of a pool, with `$primary`. -/
def Primary (perl : Perl) (d : Fetched) (l2 : Layer2Network) (nr : NetworkRange) : Prop :=
  ∃ v ∈ orValue (d.netrangeProps nr.networkRangeId).primaryDHCPServer
      (d.l2Props l2.layer2NetworkCollectionId).primaryDHCPServer,
    v.IsTrue ∧ d.hostname.IsTrue ∧ v.string perl = d.hostname.chars
  deriving Decidable

/-- The pools for which this host is the primary server. -/
def servedPools (perl : Perl) (d : Fetched) (l2 : Layer2Network) : List NetworkRange :=
  (d.netranges l2.layer2NetworkId).filter fun nr => Primary perl d l2 nr

def rangeLine (nr : NetworkRange) : List Char :=
  "\t\trange ".toList ++ (nr.startAddress.addr ++ (' ' :: (nr.stopAddress.addr ++ [';', '\n'])))

def poolPieces (nr : NetworkRange) (lines : List (List Char)) : Pieces :=
  block (.pool nr) (openLine "\tpool ".toList) (rangeLine nr :: lines) (closeLine ['\t'])

def writePool (perl : Perl) (d : Fetched) (l2 : Layer2Network) (nr : NetworkRange) :
    Except Died Pieces := do
  let lines ← optionLines perl (d.netrangeProps nr.networkRangeId).option ['\t', '\t'] l2.indent
  .ok (poolPieces nr lines)

/-! ## Hosts -/

/-- `$x || $default`. -/
def orText (x : Option PlainText) (default : List Char) : List Char :=
  match x with
  | some t => if t.IsTrue then t.chars else default
  | none => default

def numeral (n : ℕ) : List Char := Nat.toDigits 10 n

namespace DhcpAssignment

def comment (h : DhcpAssignment) : List Char :=
  "\n# ".toList ++ (orText h.deviceName "unnamed device".toList ++ (" (".toList ++
    (orText h.physicalLabel "unlabeled device".toList ++ (") device_id ".toList ++
      (numeral h.deviceId ++ (", network_interface ".toList ++ (numeral h.networkInterfaceId ++
        (", netblock ".toList ++ (numeral h.netblockId ++ ['\n'])))))))))

def head (h : DhcpAssignment) : List Char :=
  openLine ("host ".toList ++ (orText h.deviceName (orText h.physicalLabel "device".toList) ++
    ('-' :: (numeral h.deviceId ++ ('-' :: (numeral h.networkInterfaceId ++
      ('-' :: (numeral h.netblockId ++ [' ']))))))))

def body (h : DhcpAssignment) : List Char :=
  "\thardware ethernet ".toList ++ (h.macAddr.chars ++ (";\n\tfixed-address ".toList ++
    (h.ipAddress.addr ++ (";\n\toption host-name = \"".toList ++
      (orText h.physicalLabel (orText h.deviceName ("device".toList ++ numeral h.deviceId)) ++
        "\";\n".toList)))))

/-- `$a->{ip_address} <=> $b->{ip_address}`. -/
def Before (a b : DhcpAssignment) : Prop :=
  a.ipAddress.inet.addr < b.ipAddress.inet.addr ∨ (a.ipAddress.inet.addr = b.ipAddress.inet.addr ∧
    a.ipAddress.masklen ≤ b.ipAddress.masklen)

instance : DecidableRel Before := fun _ _ => inferInstanceAs (Decidable (_ ∨ _))

end DhcpAssignment

def hostNote : List Char :=
  "##\n## NOTE: The following host declarations are global.".toList ++
    "  They are located here\n## as an attempt to group them with".toList ++
    " the layer2 networks that the IP address\n## is associate with\n##\n".toList

def hostPieces (h : DhcpAssignment) (lines : List (List Char)) : Pieces :=
  .inner h.comment :: block (.host h) h.head (h.body :: lines) (closeLine [])

def writeHost (perl : Perl) (d : Fetched) (l2 : Layer2Network) (h : DhcpAssignment) :
    Except Died Pieces := do
  let lines ← optionLines perl (d.deviceProps h.deviceId).option ['\t'] l2.indent
  .ok (hostPieces h lines)

def Layer2Network.sortedAssignments (l2 : Layer2Network) : List DhcpAssignment :=
  l2.dhcpAssignments.insertionSort DhcpAssignment.Before

/-! ## The file -/

def sharedOpening (l2 : Layer2Network) : Pieces :=
  if l2.Shared then [.opening .sharedNetwork (openLine ("shared-network ".toList ++
    (l2.layer2UniqueLabel.chars ++ [' '])))]
  else []

/-- `print $l2fh "}\n" if $l3_count`. -/
def lastClosing (l2 : Layer2Network) : Pieces :=
  if l2.written ≠ [] then [.closing (closeLine [])] else []

def hostSection (l2 : Layer2Network) (hosts : List Pieces) : Pieces :=
  if l2.dhcpAssignments ≠ [] then .inner hostNote :: hosts.flatten else []

def layer2File (perl : Perl) (d : Fetched) (l2 : Layer2Network) : Except Died Pieces := do
  let subnets ← l2.written.mapM (writeSubnet perl d l2)
  let pools ← (servedPools perl d l2).mapM (writePool perl d l2)
  let hosts ← l2.sortedAssignments.mapM (writeHost perl d l2)
  .ok (.inner header :: (sharedOpening l2 ++ (subnets.flatten ++ (pools.flatten ++
    (lastClosing l2 ++ hostSection l2 hosts)))))

/-! ## What the file has to be -/

/-- Mask length 20 to 30. -/
def Layer3Network.Declarable (n : Layer3Network) : Prop :=
  20 ≤ n.netblockAddress.masklen ∧ n.netblockAddress.masklen ≤ 30

/-- The range lies in the network. -/
def Layer3Network.Contains (n : Layer3Network) (nr : NetworkRange) : Prop :=
  nr.startAddress.inet.host.subnetEq n.netblockAddress.inet ∧
    nr.stopAddress.inet.host.subnetEq n.netblockAddress.inet

/-- The blocks of a file, each with those around it. -/
abbrev blocks (ps : Pieces) : List (Block × List Block) := opened ps []

def subnetId (x : Block × List Block) : Option ℕ :=
  match x.1 with
  | .subnet n => some n.layer3NetworkId
  | _ => none

/-- A block with `st` around it is where a subnet with the range is declared. -/
def WithSubnet (ps : Pieces) (nr : NetworkRange) (st : List Block) : Prop :=
  (.sharedNetwork ∈ st ∧ ∃ n st', (.subnet n, st') ∈ blocks ps ∧ .sharedNetwork ∈ st' ∧
      n.Contains nr) ∨
    ∃ n, .subnet n ∈ st ∧ n.Contains nr

structure Sound (perl : Perl) (d : Fetched) (l2 : Layer2Network) (ps : Pieces) : Prop where
  balanced : Braced (render ps)
  subnets : ∀ n ∈ l2.layer3Networks, n.Declarable →
    (∃ st, (.subnet n, st) ∈ blocks ps) ∧ ((blocks ps).filterMap subnetId).count n.layer3NetworkId = 1
  noOther : ∀ n st, (.subnet n, st) ∈ blocks ps → n ∈ l2.layer3Networks ∧ n.Declarable
  pools : ∀ nr ∈ servedPools perl d l2, ∃ st, (.pool nr, st) ∈ blocks ps ∧ WithSubnet ps nr st

/-! ## The parts of the file -/

section

variable {perl : Perl} {d : Fetched} {l2 : Layer2Network} {n : Layer3Network} {nr : NetworkRange}
  {h : DhcpAssignment} {lines : List (List Char)} {ps : Pieces} {st : List Block}

theorem mem_written : n ∈ l2.written ↔ n ∈ l2.layer3Networks ∧ n.Declarable := by
  rw [Layer2Network.written, List.mem_filter, decide_eq_true_eq, Layer3Network.Skipped,
    Layer3Network.Declarable]
  refine and_congr_right fun _ => ?_
  omega

/-- The options of the networks that are written, of the pools and of the hosts. -/
structure Writable (perl : Perl) (d : Fetched) (l2 : Layer2Network) : Prop where
  subnets : l2.written ≠ [] → AllFormat (d.l2Props l2.layer2NetworkCollectionId).option
  pools : ∀ nr ∈ servedPools perl d l2, AllFormat (d.netrangeProps nr.networkRangeId).option
  hosts : ∀ h ∈ l2.dhcpAssignments, AllFormat (d.deviceProps h.deviceId).option

variable (perl d l2)

def subnetLines : List (List Char) :=
  returned (optionLines perl (d.l2Props l2.layer2NetworkCollectionId).option l2.indent l2.indent)

def poolLines (nr : NetworkRange) : List (List Char) :=
  returned (optionLines perl (d.netrangeProps nr.networkRangeId).option ['\t', '\t'] l2.indent)

def hostLines (h : DhcpAssignment) : List (List Char) :=
  returned (optionLines perl (d.deviceProps h.deviceId).option ['\t'] l2.indent)

/-- The blocks before the closing brace of the outer one. -/
def innerPieces : Pieces :=
  sharedOpening l2 ++ (l2.written.flatMap (fun n => subnetPieces l2 n (subnetLines perl d l2)) ++
    (servedPools perl d l2).flatMap fun nr => poolPieces nr (poolLines perl d l2 nr))

def hostsPieces : Pieces :=
  hostSection l2 (l2.sortedAssignments.map fun h => hostPieces h (hostLines perl d l2 h))

/-- The pieces of the file when no option makes the program die. -/
def filePieces : Pieces :=
  .inner header :: (innerPieces perl d l2 ++ (lastClosing l2 ++ hostsPieces perl d l2))

variable {perl d l2}

theorem writing_ok_iff {x : Except Died (List (List Char))} {f : List (List Char) → Pieces} :
    (x >>= fun lines => .ok (f lines)) = .ok ps ↔ (∃ lines, x = .ok lines) ∧ ps = f (returned x) := by
  rw [bind_ok_iff]
  constructor
  · rintro ⟨lines, hx, hps⟩
    rw [← Except.ok.inj hps, ← (eq_ok_iff_returned.mp hx).2]
    exact ⟨⟨lines, hx⟩, rfl⟩
  · rintro ⟨hx, rfl⟩
    exact ⟨_, eq_ok_iff_returned.mpr ⟨hx, rfl⟩, rfl⟩

theorem writeSubnet_ok_iff (n : Layer3Network) (ps : Pieces) : writeSubnet perl d l2 n = .ok ps ↔
    AllFormat (d.l2Props l2.layer2NetworkCollectionId).option ∧
      ps = subnetPieces l2 n (subnetLines perl d l2) := by
  rw [writeSubnet, writing_ok_iff, optionLines_ok_iff]
  rfl

theorem writePool_ok_iff (nr : NetworkRange) (ps : Pieces) : writePool perl d l2 nr = .ok ps ↔
    AllFormat (d.netrangeProps nr.networkRangeId).option ∧
      ps = poolPieces nr (poolLines perl d l2 nr) := by
  rw [writePool, writing_ok_iff, optionLines_ok_iff]
  rfl

theorem writeHost_ok_iff (h : DhcpAssignment) (ps : Pieces) : writeHost perl d l2 h = .ok ps ↔
    AllFormat (d.deviceProps h.deviceId).option ∧ ps = hostPieces h (hostLines perl d l2 h) := by
  rw [writeHost, writing_ok_iff, optionLines_ok_iff]
  rfl

theorem mem_sortedAssignments : h ∈ l2.sortedAssignments ↔ h ∈ l2.dhcpAssignments :=
  List.mem_insertionSort _

theorem layer2File_ok_iff :
    layer2File perl d l2 = .ok ps ↔ Writable perl d l2 ∧ ps = filePieces perl d l2 := by
  have hpieces : filePieces perl d l2 = .inner header :: (sharedOpening l2 ++
      ((l2.written.map fun n => subnetPieces l2 n (subnetLines perl d l2)).flatten ++
        (((servedPools perl d l2).map fun nr => poolPieces nr (poolLines perl d l2 nr)).flatten ++
          (lastClosing l2 ++ hostsPieces perl d l2)))) := by
    rw [filePieces, innerPieces, List.append_assoc, List.append_assoc]
    rfl
  rw [hpieces]
  constructor
  · intro hfile
    obtain ⟨subnets, hs, hfile⟩ := bind_ok_iff.mp hfile
    obtain ⟨pools, hp, hfile⟩ := bind_ok_iff.mp hfile
    obtain ⟨hosts, hh, hfile⟩ := bind_ok_iff.mp hfile
    obtain ⟨hsubnet, rfl⟩ := (mapM_ok_iff writeSubnet_ok_iff).mp hs
    obtain ⟨hpool, rfl⟩ := (mapM_ok_iff writePool_ok_iff).mp hp
    obtain ⟨hhost, rfl⟩ := (mapM_ok_iff writeHost_ok_iff).mp hh
    have hwritable : Writable perl d l2 :=
      ⟨fun hne => hsubnet _ (List.head_mem hne), hpool,
        fun h hmem => hhost h (mem_sortedAssignments.mpr hmem)⟩
    exact ⟨hwritable, (Except.ok.inj hfile).symm⟩
  · rintro ⟨hw, rfl⟩
    refine bind_ok_iff.mpr ⟨_, (mapM_ok_iff writeSubnet_ok_iff).mpr ⟨fun n hn => ?_, rfl⟩, ?_⟩
    · exact hw.subnets (List.ne_nil_of_mem hn)
    · refine bind_ok_iff.mpr ⟨_, (mapM_ok_iff writePool_ok_iff).mpr ⟨hw.pools, rfl⟩, ?_⟩
      refine bind_ok_iff.mpr ⟨_, (mapM_ok_iff writeHost_ok_iff).mpr ⟨fun h hmem => ?_, rfl⟩, rfl⟩
      exact hw.hosts h (mem_sortedAssignments.mp hmem)

/-! ## Every piece is what it seems -/

theorem braced_cons {c : Char} {s : List Char} (hc : Braced [c]) (hs : Braced s) : Braced (c :: s) :=
  hc.append hs

theorem fits_opening {b : Block} {head : List Char} (h : Braced head) :
    (Piece.opening b (openLine head)).Fits '\x7b' '\x7d' := by
  intro n
  have hopen := depth_opening h (c := []) rfl n
  rwa [List.append_nil] at hopen

theorem fits_closing {indent : List Char} (h : Braced indent) :
    (Piece.closing (closeLine indent) : Piece Block Char).Fits '\x7b' '\x7d' := by
  constructor
  · rw [closeLine, depth_append, h.depth_eq, Option.bind_some, depth_cons_right_zero (by decide)]
  · intro n
    rw [closeLine, depth_append, h.depth_eq, Option.bind_some, depth_cons_right (by decide)]
    exact (by decide : Braced ['\n']).depth_eq

theorem braced_tab : Braced l2.tab := by
  rw [Layer2Network.tab]
  split <;> decide

theorem braced_indent : Braced l2.indent := by
  rw [Layer2Network.indent]
  split <;> decide

theorem plain_orText (x : Option PlainText) {s : List Char} (hs : Plain s) : Plain (orText x s) := by
  rcases x with _ | t
  · exact hs
  · rw [orText]
    split
    · exact t.plain
    · exact hs

section

variable (hlines : ∀ line ∈ lines, Braced line)
include hlines

theorem fits_subnetPieces :
    ∀ p ∈ subnetPieces l2 n lines, p.Fits '\x7b' '\x7d' := by
  have hhead : Braced (l2.tab ++ ("subnet ".toList ++ (n.netblockAddress.addr ++
      (" netmask ".toList ++ (n.netblockAddress.mask ++ [' ']))))) :=
    braced_tab.append <| Balanced.append (by decide) <| (plain_addr _).braced.append <|
      Balanced.append (by decide) <| (plain_mask _).braced.append (by decide)
  have hrouters : Braced (routersLine l2 n) :=
    braced_tab.append <| Balanced.append (by decide) <| (plain_addr _).braced.append (by decide)
  intro p hp
  rw [subnetPieces, List.mem_cons, List.mem_append, List.mem_map] at hp
  rcases hp with rfl | ⟨line, hline, rfl⟩ | hp
  · exact fits_opening hhead
  · rcases List.mem_cons.mp hline with rfl | hline
    · exact hrouters
    · exact hlines line hline
  · by_cases hshared : l2.Shared
    · rw [if_pos hshared, List.mem_singleton] at hp
      exact hp ▸ fits_closing braced_indent
    · rw [if_neg hshared] at hp
      exact absurd hp List.not_mem_nil

theorem fits_poolPieces :
    ∀ p ∈ poolPieces nr lines, p.Fits '\x7b' '\x7d' := by
  have hrange : Braced (rangeLine nr) :=
    Balanced.append (by decide) <| (plain_addr _).braced.append <|
      braced_cons (by decide) <| (plain_addr _).braced.append (by decide)
  exact fits_block (fits_opening (by decide)) (List.forall_mem_cons.mpr ⟨hrange, hlines⟩)
    (fits_closing (by decide))

theorem fits_hostPieces :
    ∀ p ∈ hostPieces h lines, p.Fits '\x7b' '\x7d' := by
  have hnumeral (k : ℕ) : Braced (numeral k) := (plain_toDigits k).braced
  have hcomment : Braced h.comment :=
    Balanced.append (by decide) <| (plain_orText _ (by decide)).braced.append <|
      Balanced.append (by decide) <| (plain_orText _ (by decide)).braced.append <|
      Balanced.append (by decide) <| (hnumeral _).append <|
      Balanced.append (by decide) <| (hnumeral _).append <|
      Balanced.append (by decide) <| (hnumeral _).append (by decide)
  have hhead : Braced ("host ".toList ++ (orText h.deviceName (orText h.physicalLabel
      "device".toList) ++ ('-' :: (numeral h.deviceId ++ ('-' :: (numeral h.networkInterfaceId ++
        ('-' :: (numeral h.netblockId ++ [' ']))))))))  :=
    Balanced.append (by decide) <| (plain_orText _ (plain_orText _ (by decide))).braced.append <|
      braced_cons (by decide) <| (hnumeral _).append <|
      braced_cons (by decide) <| (hnumeral _).append <|
      braced_cons (by decide) <| (hnumeral _).append (by decide)
  have hbody : Braced h.body :=
    Balanced.append (by decide) <| h.macAddr.plain.braced.append <|
      Balanced.append (by decide) <| (plain_addr _).braced.append <|
      Balanced.append (by decide) <| (plain_orText _ (plain_orText _
        ((by decide : Plain "device".toList).append (plain_toDigits _)))).braced.append (by decide)
  refine List.forall_mem_cons.mpr ⟨hcomment, ?_⟩
  exact fits_block (fits_opening hhead) (List.forall_mem_cons.mpr ⟨hbody, hlines⟩)
    (fits_closing (by decide))

end

theorem fits_filePieces (hw : Writable perl d l2) :
    ∀ p ∈ filePieces perl d l2, p.Fits '\x7b' '\x7d' := by
  have hlines {props : DhcpOption → Option OptionValue} {lead : List Char} (hlead : Braced lead)
      (hprops : AllFormat props) :
      ∀ line ∈ returned (optionLines perl props lead l2.indent), Braced line := by
    exact braced_optionLines hlead braced_indent
      (eq_ok_iff_returned.mpr ⟨optionLines_ok_iff.mpr hprops, rfl⟩)
  have hshared : ∀ p ∈ sharedOpening l2, p.Fits '\x7b' '\x7d' := by
    intro p hp
    rw [sharedOpening] at hp
    split at hp
    · rw [List.mem_singleton] at hp
      rw [hp]
      exact fits_opening (Balanced.append (by decide) (l2.layer2UniqueLabel.plain.braced.append
        (by decide)))
    · exact absurd hp List.not_mem_nil
  have hclosing : ∀ p ∈ lastClosing l2, p.Fits '\x7b' '\x7d' := by
    intro p hp
    rw [lastClosing] at hp
    split at hp
    · rw [List.mem_singleton] at hp
      exact hp ▸ fits_closing (by decide)
    · exact absurd hp List.not_mem_nil
  have hnote : Braced hostNote :=
    (Balanced.append (by decide) (by decide)).append (by decide)
  have hhosts : ∀ p ∈ hostsPieces perl d l2, p.Fits '\x7b' '\x7d' := by
    intro p hp
    rw [hostsPieces, hostSection] at hp
    split at hp
    · rcases List.mem_cons.mp hp with rfl | hp
      · exact hnote
      · rw [List.mem_flatten] at hp
        obtain ⟨ps, hps, hp⟩ := hp
        obtain ⟨h, hh, rfl⟩ := List.mem_map.mp hps
        exact fits_hostPieces (hlines (by decide) (hw.hosts h (mem_sortedAssignments.mp hh))) p hp
    · exact absurd hp List.not_mem_nil
  intro p hp
  rw [filePieces, innerPieces, List.mem_cons, List.mem_append, List.mem_append, List.mem_append,
    List.mem_append, List.mem_flatMap, List.mem_flatMap] at hp
  rcases hp with rfl | (hp | ⟨n, hn, hp⟩ | ⟨nr, hnr, hp⟩) | hp | hp
  · exact Balanced.append (by decide) (by decide)
  · exact hshared p hp
  · exact fits_subnetPieces (hlines braced_indent (hw.subnets (List.ne_nil_of_mem hn))) p hp
  · exact fits_poolPieces (hlines (by decide) (hw.pools nr hnr)) p hp
  · exact hclosing p hp
  · exact hhosts p hp

/-! ## How the pieces are nested -/

/-- The blocks around the pools. -/
def outer (l2 : Layer2Network) : List Block :=
  if l2.Shared then [.sharedNetwork] else l2.written.map .subnet

theorem nest_poolPieces (nr : NetworkRange) (st : List Block) :
    nest (poolPieces nr (poolLines perl d l2 nr)) st = some st := nest_block

theorem opened_poolPieces (nr : NetworkRange) (st : List Block) :
    opened (poolPieces nr (poolLines perl d l2 nr)) st = [(.pool nr, st)] := opened_block

theorem nest_hostPieces (h : DhcpAssignment) (st : List Block) :
    nest (hostPieces h (hostLines perl d l2 h)) st = some st := by
  rw [hostPieces, nest, nest_block]

theorem opened_hostPieces (h : DhcpAssignment) (st : List Block) :
    opened (hostPieces h (hostLines perl d l2 h)) st = [(.host h, st)] := by
  rw [hostPieces, opened, opened_block]

theorem subnetPieces_shared (hs : l2.Shared) : subnetPieces l2 n lines =
    block (.subnet n) (subnetHead l2 n) (routersLine l2 n :: lines) (closeLine l2.indent) := by
  rw [subnetPieces, if_pos hs, block]

theorem subnetPieces_single (hs : ¬ l2.Shared) : subnetPieces l2 n lines =
    .opening (.subnet n) (subnetHead l2 n) :: ((routersLine l2 n :: lines).map .inner ++ []) := by
  rw [subnetPieces, if_neg hs]

theorem written_of_not_shared (hs : ¬ l2.Shared) : l2.written = [] ∨ ∃ n, l2.written = [n] := by
  have hle : l2.written.length ≤ 1 :=
    (List.length_filter_le _ _).trans (Nat.not_lt.mp hs)
  rcases hw : l2.written with _ | ⟨n, _ | ⟨m, l⟩⟩
  · exact Or.inl rfl
  · exact Or.inr ⟨n, rfl⟩
  · rw [hw, List.length_cons, List.length_cons] at hle
    omega

/-- The blocks of the layer 3 networks. -/
def network (l2 : Layer2Network) : List (Block × List Block) :=
  if l2.Shared then (.sharedNetwork, []) :: l2.written.map fun n => (.subnet n, [.sharedNetwork])
  else l2.written.map fun n => (.subnet n, [])

/-- The shared network or the subnet is open after the pools. -/
theorem innerPieces_nested : nest (innerPieces perl d l2) [] = some (outer l2) ∧
    opened (innerPieces perl d l2) [] =
      network l2 ++ (servedPools perl d l2).map fun nr => (.pool nr, outer l2) := by
  set pools := (servedPools perl d l2).flatMap fun nr => poolPieces nr (poolLines perl d l2 nr)
    with hpools
  have hnest (st : List Block) : nest pools st = some st := nest_flatMap nest_poolPieces _ st
  have hopened (st : List Block) :
      opened pools st = (servedPools perl d l2).map fun nr => (.pool nr, st) :=
    opened_flatMap nest_poolPieces opened_poolPieces _ st
  rw [innerPieces, ← hpools, outer, network, sharedOpening]
  by_cases hs : l2.Shared
  · simp only [subnetPieces_shared hs]
    have hsubnets := nest_flatMap (f := fun n => block (Block.subnet n) (subnetHead l2 n)
      (routersLine l2 n :: subnetLines perl d l2) (closeLine l2.indent)) (fun _ _ => nest_block)
      l2.written [.sharedNetwork]
    rw [if_pos hs, if_pos hs, if_pos hs, List.singleton_append, nest, opened, nest_append, hsubnets,
      Option.bind_some, hnest, opened_append hsubnets, hopened,
      opened_flatMap (fun _ _ => nest_block) (fun _ _ => opened_block)]
    exact ⟨rfl, rfl⟩
  · simp only [subnetPieces_single hs]
    rw [if_neg hs, if_neg hs, if_neg hs, List.nil_append]
    rcases written_of_not_shared hs with hw | ⟨n, hw⟩
    · rw [hw]
      exact ⟨hnest [], hopened []⟩
    · rw [hw, List.flatMap_singleton, List.cons_append, nest, opened, List.append_assoc, nest_lines,
        opened_lines, List.nil_append, hnest, hopened]
      exact ⟨rfl, rfl⟩

theorem hostsPieces_nested (st : List Block) : nest (hostsPieces perl d l2) st = some st ∧
    ∀ x ∈ opened (hostsPieces perl d l2) st, ∃ h, x = (.host h, st) := by
  rw [hostsPieces, hostSection]
  split
  · rw [nest, opened, ← List.flatMap_def, nest_flatMap nest_hostPieces,
      opened_flatMap nest_hostPieces opened_hostPieces]
    refine ⟨rfl, fun x hx => ?_⟩
    obtain ⟨h, -, rfl⟩ := List.mem_map.mp hx
    exact ⟨h, rfl⟩
  · exact ⟨rfl, fun x hx => absurd hx List.not_mem_nil⟩

theorem outer_of_shared (hs : l2.Shared) : outer l2 = [.sharedNetwork] := if_pos hs

theorem outer_of_not_shared (hs : ¬ l2.Shared) : outer l2 = l2.written.map .subnet := if_neg hs

/-- One block is open after the pools, if a subnet was written. -/
theorem exists_outer (hw : l2.written ≠ []) : ∃ b, outer l2 = [b] := by
  by_cases hs : l2.Shared
  · exact ⟨.sharedNetwork, outer_of_shared hs⟩
  · rcases written_of_not_shared hs with h | ⟨n, h⟩
    · exact absurd h hw
    · exact ⟨.subnet n, by rw [outer_of_not_shared hs, h, List.map_singleton]⟩

theorem nest_lastClosing (hw : l2.written ≠ []) : nest (lastClosing l2) (outer l2) = some [] := by
  obtain ⟨b, hb⟩ := exists_outer hw
  rw [lastClosing, if_pos hw, hb]
  rfl

theorem nest_filePieces :
    nest (filePieces perl d l2) [] = some [] ↔ (l2.Shared → l2.written ≠ []) := by
  rw [filePieces, nest, nest_append, innerPieces_nested.1, Option.bind_some, nest_append]
  by_cases hw : l2.written = []
  · have hlast : lastClosing l2 = [] := if_neg (not_not.mpr hw)
    rw [hlast, nest, Option.bind_some, (hostsPieces_nested _).1, Option.some_inj]
    by_cases hs : l2.Shared
    · rw [outer_of_shared hs]
      exact iff_of_false (List.cons_ne_nil _ _) fun h => h hs hw
    · rw [outer_of_not_shared hs, hw]
      exact iff_of_true rfl fun h => absurd h hs
  · rw [nest_lastClosing hw, Option.bind_some, (hostsPieces_nested _).1]
    exact iff_of_true rfl fun _ => hw

/-! ## The blocks of the file -/

/-- After those of the networks and the pools there are those of the hosts. -/
theorem blocks_filePieces (perl : Perl) (d : Fetched) (l2 : Layer2Network) :
    ∃ hosts : List (Block × List Block), blocks (filePieces perl d l2) =
    network l2 ++ (servedPools perl d l2).map (fun nr => (.pool nr, outer l2)) ++ hosts ∧
      ∀ x ∈ hosts, ∃ h st, x = (.host h, st) := by
  refine ⟨opened (lastClosing l2 ++ hostsPieces perl d l2) (outer l2), ?_, ?_⟩
  · rw [blocks, filePieces, opened, opened_append innerPieces_nested.1, innerPieces_nested.2]
  · intro x hx
    by_cases hw : l2.written = []
    · have hlast : lastClosing l2 = [] := if_neg (not_not.mpr hw)
      rw [hlast, List.nil_append] at hx
      obtain ⟨h, rfl⟩ := (hostsPieces_nested _).2 x hx
      exact ⟨h, _, rfl⟩
    · rw [opened_append (nest_lastClosing hw), lastClosing, if_pos hw, opened, opened,
        List.nil_append] at hx
      obtain ⟨h, rfl⟩ := (hostsPieces_nested _).2 x hx
      exact ⟨h, _, rfl⟩

theorem subnet_mem_network : (.subnet n, st) ∈ network l2 ↔
    n ∈ l2.written ∧ st = if l2.Shared then [.sharedNetwork] else [] := by
  rw [network]
  by_cases hs : l2.Shared
  · simp [hs, eq_comm, and_comm]
  · simp [hs, eq_comm, and_comm]

theorem subnet_mem_blocks : (.subnet n, st) ∈ blocks (filePieces perl d l2) ↔
    n ∈ l2.written ∧ st = if l2.Shared then [.sharedNetwork] else [] := by
  obtain ⟨hosts, hblocks, hhosts⟩ := blocks_filePieces perl d l2
  rw [hblocks, List.mem_append, List.mem_append, List.mem_map, subnet_mem_network, or_assoc]
  refine or_iff_left fun hor => ?_
  rcases hor with ⟨nr, -, h⟩ | h
  · cases h
  · obtain ⟨h, st', he⟩ := hhosts _ h
    cases he

theorem pool_mem_blocks : (.pool nr, st) ∈ blocks (filePieces perl d l2) ↔
    nr ∈ servedPools perl d l2 ∧ st = outer l2 := by
  obtain ⟨hosts, hblocks, hhosts⟩ := blocks_filePieces perl d l2
  have hnetwork : (.pool nr, st) ∉ network l2 := by
    rw [network]
    by_cases hs : l2.Shared
    · simp [hs]
    · simp [hs]
  have hhost : (.pool nr, st) ∉ hosts := fun h => by
    obtain ⟨h, st', he⟩ := hhosts _ h
    cases he
  rw [hblocks, List.mem_append, List.mem_append, List.mem_map, or_iff_left hhost,
    or_iff_right hnetwork]
  simp only [Prod.mk.injEq, Block.pool.injEq]
  exact ⟨fun ⟨_, h, he, hst⟩ => ⟨he ▸ h, hst.symm⟩, fun ⟨h, hst⟩ => ⟨nr, h, rfl, hst.symm⟩⟩

theorem subnetIds_filePieces : (blocks (filePieces perl d l2)).filterMap subnetId =
    l2.written.map Layer3Network.layer3NetworkId := by
  obtain ⟨hosts, hblocks, hhosts⟩ := blocks_filePieces perl d l2
  have hnetwork : (network l2).filterMap subnetId =
      l2.written.map Layer3Network.layer3NetworkId := by
    rw [network]
    by_cases hs : l2.Shared
    · rw [if_pos hs, List.filterMap_cons_none rfl, List.filterMap_map]
      exact congrFun (List.filterMap_eq_map (f := Layer3Network.layer3NetworkId)) _
    · rw [if_neg hs, List.filterMap_map]
      exact congrFun (List.filterMap_eq_map (f := Layer3Network.layer3NetworkId)) _
  have hpools : ((servedPools perl d l2).map fun nr => (Block.pool nr, outer l2)).filterMap
      subnetId = [] := by
    rw [List.filterMap_map, List.filterMap_eq_nil_iff]
    exact fun _ _ => rfl
  have hhost : hosts.filterMap subnetId = [] := by
    rw [List.filterMap_eq_nil_iff]
    intro x hx
    obtain ⟨h, st, rfl⟩ := hhosts x hx
    rfl
  rw [hblocks, List.filterMap_append, List.filterMap_append, hnetwork, hpools, hhost,
    List.append_nil, List.append_nil]

theorem withSubnet_outer : WithSubnet (filePieces perl d l2) nr (outer l2) ↔
    ∃ n ∈ l2.layer3Networks, n.Declarable ∧ n.Contains nr := by
  simp only [WithSubnet, subnet_mem_blocks, ← and_assoc, ← mem_written]
  by_cases hs : l2.Shared
  · simp [outer_of_shared hs, hs]
  · simp [outer_of_not_shared hs]

/-- When the file is what it has to be. -/
structure FileFits (perl : Perl) (d : Fetched) (l2 : Layer2Network) : Prop where
  writable : Writable perl d l2
  someDeclared : 1 < l2.layer3Networks.length → ∃ n ∈ l2.layer3Networks, n.Declarable
  distinct : (l2.written.map Layer3Network.layer3NetworkId).Nodup
  covered : ∀ nr ∈ servedPools perl d l2, ∃ n ∈ l2.layer3Networks, n.Declarable ∧ n.Contains nr

theorem balanced_iff (hw : Writable perl d l2) : Braced (render (filePieces perl d l2)) ↔
    (1 < l2.layer3Networks.length → ∃ n ∈ l2.layer3Networks, n.Declarable) := by
  have hne : l2.written ≠ [] ↔ ∃ n ∈ l2.layer3Networks, n.Declarable := by
    simp only [← mem_written]
    exact ⟨List.exists_mem_of_ne_nil _, fun ⟨_, hn⟩ => List.ne_nil_of_mem hn⟩
  rw [Braced, balanced_render_iff (fits_filePieces hw), nest_filePieces, hne]
  rfl

/-- Each network is declared once when no two of them are one. -/
theorem declaredOnce_iff : (∀ n ∈ l2.layer3Networks, n.Declarable →
    (∃ st, (.subnet n, st) ∈ blocks (filePieces perl d l2)) ∧
      ((blocks (filePieces perl d l2)).filterMap subnetId).count n.layer3NetworkId = 1) ↔
    (l2.written.map Layer3Network.layer3NetworkId).Nodup := by
  rw [subnetIds_filePieces]
  constructor
  · intro h
    refine List.nodup_iff_count_eq_one.mpr fun i hi => ?_
    obtain ⟨n, hn, rfl⟩ := List.mem_map.mp hi
    exact (h n (mem_written.mp hn).1 (mem_written.mp hn).2).2
  · intro hnodup n hn hd
    have hwritten := mem_written.mpr ⟨hn, hd⟩
    exact ⟨⟨_, subnet_mem_blocks.mpr ⟨hwritten, rfl⟩⟩,
      List.count_eq_one_of_mem hnodup (List.mem_map_of_mem hwritten)⟩

end

/-- Every file is sound for which the program finishes, a network of several has one to declare, no
network is listed twice, and the pools of this host lie in networks that are declared. -/
theorem sound_iff (perl : Perl) (d : Fetched) (l2 : Layer2Network) :
    (∃ ps, layer2File perl d l2 = .ok ps ∧ Sound perl d l2 ps) ↔ FileFits perl d l2 := by
  simp only [layer2File_ok_iff, and_assoc, exists_and_left, exists_eq_left]
  constructor
  · rintro ⟨hw, hsound⟩
    refine ⟨hw, (balanced_iff hw).mp hsound.balanced, declaredOnce_iff.mp hsound.subnets, ?_⟩
    intro nr hnr
    obtain ⟨st, hst, hwith⟩ := hsound.pools nr hnr
    rw [(pool_mem_blocks.mp hst).2] at hwith
    exact withSubnet_outer.mp hwith
  · intro hfits
    refine ⟨hfits.writable, ?_⟩
    exact {
      balanced := (balanced_iff hfits.writable).mpr hfits.someDeclared
      subnets := declaredOnce_iff.mpr hfits.distinct
      noOther := fun n st h => mem_written.mp (subnet_mem_blocks.mp h).1
      pools := fun nr hnr => ⟨_, pool_mem_blocks.mpr ⟨hnr, rfl⟩,
        withSubnet_outer.mpr (hfits.covered nr hnr)⟩ }

/-! ## Two large networks -/

/-- `10.k.0.0/16` with its gateway. -/
def largeNetwork (k : Fin 256) : Layer3Network where
  layer3NetworkId := k
  netblockAddress := ⟨.v4 10 k 0 0 16, rfl⟩
  gatewayAddress := ⟨.v4 10 k 0 1 16, rfl⟩

def largeLayer2Network : Layer2Network where
  layer2NetworkId := 1
  layer2NetworkCollectionId := 1
  layer2UniqueLabel := ⟨"dc1-100-1".toList, by decide⟩
  layer3Networks := [largeNetwork 0, largeNetwork 1]
  dhcpAssignments := []

def noProps : Props := ⟨fun _ => none, none⟩

def nothingElse : Fetched where
  l2Props := fun _ => noProps
  netrangeProps := fun _ => noProps
  deviceProps := fun _ => noProps
  netranges := fun _ => []
  hostname := ⟨"dhcp1".toList, by decide⟩

def somePerl : Perl where
  arrayText := ⟨"ARRAY(0x55d0)".toList, by decide⟩
  toInt := fun _ => 0

/-- The shared network is opened and is not closed. -/
theorem largeLayer2Network_unbalanced :
    ∃ ps, layer2File somePerl nothingElse largeLayer2Network = .ok ps ∧ ¬ Braced (render ps) := by
  have hw : Writable somePerl nothingElse largeLayer2Network := by
    refine ⟨fun _ _ _ hv => ?_, fun _ hnr => ?_, fun _ hh => ?_⟩
    · cases hv
    · cases hnr
    · cases hh
  refine ⟨_, layer2File_ok_iff.mpr ⟨hw, rfl⟩, fun hbraced => ?_⟩
  obtain ⟨n, hn, hlow, hhigh⟩ := (balanced_iff hw).mp hbraced (by decide)
  rw [largeLayer2Network, List.mem_cons, List.mem_singleton] at hn
  rcases hn with rfl | rfl
  · exact absurd hlow (by decide)
  · exact absurd hlow (by decide)

end JazzHands.Dhcpgen

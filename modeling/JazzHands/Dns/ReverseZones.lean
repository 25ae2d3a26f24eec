import JazzHands.Dns.AddDomain
import JazzHands.Dns.Expanded

/-!
# Reverse zones and their blocks

The name that `get_domain_from_cidr` gives to a block, and the block that
`get_or_create_inaddr_domain_netblock_link` computes from the name.
-/

namespace JazzHands.Dns

open Library Postgres Tables

/-- The blocks that have a zone of their own: those of an IPv4 address with its first three octets,
and the IPv6 networks of 64 bits. -/
def IsZoneBlock (i : Inet) : Prop :=
  (i.family = .inet4 ∧ i.masklen = 24) ∨
    (i.family = .inet6 ∧ i.masklen = 64 ∧ i.network = i)

/-- The first three octets, the last one first. -/
def inaddrName (i : Inet) : String :=
  String.ofList (joined '.' ((i.octets.take 3).reverse.map (Nat.toDigits 10))) ++ ".in-addr.arpa"

/-- The first 16 digits, the last one first. -/
def ip6Name (i : Inet) : String :=
  String.ofList (joined '.' ((Numeral.padded 16 16 (i.addr / 2 ^ 64)).reverse.map fun c => [c])) ++
    ".ip6.arpa"

variable {i ip : Inet} {s t : List Char} {p gs : List (List Char)} {c : Char} {n k a : ℕ}
  {showsAll : Bool}

/-! ## The name of a block -/

theorem getDomainFromCidr_inet4 (h : i.family = .inet4) :
    getDomainFromCidr showsAll i = .ok (inaddrName i) := by
  have hsplit : i.hostText.splitOn '.' = i.octets.map (Nat.toDigits 10) := by
    have hdot : ∀ s ∈ i.octets.map (Nat.toDigits 10), '.' ∉ s := fun s hs => by
      obtain ⟨n, -, rfl⟩ := List.mem_map.mp hs
      exact Numeral.notMem_toDigits (by decide) (by decide)
    rw [Inet.hostText, h]
    exact splitOn_joined (List.cons_ne_nil _ _) hdot
  rw [getDomainFromCidr, h]
  dsimp only
  rw [hsplit]
  rfl

theorem not_dotted_of_zeros (h5 : i.words[5]? = some 0) (h6 : i.words[6]? = some 0) :
    ¬ i.Dotted := by
  have hend : i.words[Inet.zerosFrom i.words 0]? ≠ some 0 := Inet.getElem?_zerosFrom
  rintro ⟨-, hsix | ⟨hfive, -⟩⟩
  · rw [hsix] at hend
    exact hend h6
  · rw [hfive] at hend
    exact hend h5

theorem addr_of_zoneBlock (hf : i.family = .inet6) (hm : i.masklen = 64) (hn : i.network = i) :
    i.addr = i.addr / 2 ^ 64 * 2 ^ 64 := by
  have hbits : i.hostbits = 64 := by rw [Inet.hostbits, hf, hm]; rfl
  have haddr := Inet.addr_of_network hn
  rw [Inet.block, hbits] at haddr
  exact haddr

theorem getDomainFromCidr_inet6 (hf : i.family = .inet6) (hm : i.masklen = 64)
    (hn : i.network = i) : getDomainFromCidr showsAll i = .ok (ip6Name i) := by
  have haddr := addr_of_zoneBlock hf hm hn
  have hd : ¬ i.Dotted := by
    refine not_dotted_of_zeros ?_ ?_
    · show some (i.addr / 65536 ^ 2 % 65536) = some 0
      congr 1
      omega
    · show some (i.addr / 65536 ^ 1 % 65536) = some 0
      congr 1
      omega
  have hexpand : expandIpv6Address showsAll i = .ok (joined ':' (groups i)) :=
    (expandIpv6Address_iff hf hd).mpr fun hc => by
      have hbits := hc.1.1
      rw [hf, hm] at hbits
      exact absurd hbits (by decide)
  have hlpad : lpad (Numeral.padded 16 32 i.addr) 16 = Numeral.padded 16 16 (i.addr / 2 ^ 64) := by
    have htake : (Numeral.padded 16 (16 + 16) i.addr).take 16 =
        Numeral.padded 16 16 (i.addr / 16 ^ 16) := Numeral.take_padded
    rw [lpad, List.leftpad, Numeral.length_padded]
    exact htake
  have hchars : characters (Numeral.padded 16 16 (i.addr / 2 ^ 64)) =
      (Numeral.padded 16 16 (i.addr / 2 ^ 64)).map fun c => [c] := if_neg (List.cons_ne_nil _ _)
  rw [getDomainFromCidr, hf, hm, hexpand]
  show Except.ok (String.ofList (joined '.' (characters (lpad ((joined ':' (groups i)).filter
    (· ≠ ':')) 16)).reverse) ++ ".ip6.arpa") = _
  rw [filter_joined colon_notMem_groups, flatten_groups, hlpad, hchars, ← List.map_reverse, ip6Name]

/-! ## The parts of a name -/

theorem before_append (suffix : String) : before suffix (String.ofList s ++ suffix) = some s := by
  have hsuffix : suffix.toList <:+ (String.ofList s ++ suffix).toList :=
    ⟨s, by rw [String.toList_append, String.toList_ofList]⟩
  rw [before, if_pos hsuffix, String.toList_append, String.toList_ofList, String.length_append,
    Nat.add_sub_cancel]
  simp

theorem before_inaddr_ip6 : before ".in-addr.arpa" (String.ofList s ++ ".ip6.arpa") = none := by
  refine if_neg fun hsuffix => ?_
  have hip6 : ".ip6.arpa".toList <:+ (String.ofList s ++ ".ip6.arpa").toList :=
    ⟨s, by simp⟩
  have hboth := List.suffix_of_suffix_length_le hip6 hsuffix (by decide)
  exact absurd hboth (by decide)

theorem arpaParts_inaddr (hne : s ≠ []) :
    arpaParts (String.ofList s ++ ".in-addr.arpa") = some (s, "in-addr") := by
  rw [arpaParts, before_append]
  cases s with
  | nil => exact absurd rfl hne
  | cons c s => rfl

theorem arpaParts_ip6 (hne : s ≠ []) :
    arpaParts (String.ofList s ++ ".ip6.arpa") = some (s, "ip6") := by
  rw [arpaParts, before_inaddr_ip6, before_append]
  cases s with
  | nil => exact absurd rfl hne
  | cons c s => rfl

theorem joined_ne_nil {x : List Char} (hx : x ∈ p) (hne : x ≠ []) : joined c p ≠ [] := by
  obtain ⟨d, l, rfl⟩ := List.exists_cons_of_ne_nil hne
  exact List.ne_nil_of_mem (mem_joined_of_mem hx List.mem_cons_self)

/-! ## The text of a name -/

theorem inaddrText_inaddrName (i : Inet) : inaddrText (inaddrName i) =
    .ok (some (String.ofList (joined '.' ((i.octets.take 3 ++ [0]).map (Nat.toDigits 10)) ++
      '/' :: Nat.toDigits 10 24))) := by
  have hdot : ∀ s ∈ (i.octets.take 3).reverse.map (Nat.toDigits 10), '.' ∉ s := fun s hs => by
    obtain ⟨n, -, rfl⟩ := List.mem_map.mp hs
    exact Numeral.notMem_toDigits (by decide) (by decide)
  have hne : joined '.' ((i.octets.take 3).reverse.map (Nat.toDigits 10)) ≠ [] :=
    joined_ne_nil List.mem_cons_self Nat.toDigits_ne_nil
  have hne3 : (i.octets.take 3).reverse.map (Nat.toDigits 10) ≠ [] := List.cons_ne_nil _ _
  have hmembers : ((joined '.' ((i.octets.take 3).reverse.map (Nat.toDigits 10))).splitOn
      '.').reverse = (i.octets.take 3).map (Nat.toDigits 10) := by
    rw [splitOn_joined hne3 hdot, List.map_reverse, List.reverse_reverse]
  rw [inaddrText, inaddrName, arpaParts_inaddr hne]
  dsimp only
  rw [if_pos rfl, hmembers, String.ofList_append]
  rfl

theorem colonEveryFour_flatten (h : ∀ g ∈ gs, g.length = 4) (hne : gs ≠ []) :
    colonEveryFour gs.flatten ++ s = joined ':' gs ++ ':' :: s := by
  induction gs with
  | nil => exact absurd rfl hne
  | cons g gs ih =>
    obtain ⟨a, b, c, d, rfl⟩ := List.length_eq_four.mp (h g List.mem_cons_self)
    by_cases hgs : gs = []
    · rw [hgs, joined_singleton]
      rfl
    · have ih := ih (fun x hx => h x (List.mem_cons_of_mem _ hx)) hgs
      show a :: b :: c :: d :: ':' :: (colonEveryFour gs.flatten ++ s) = _
      rw [ih, joined_cons _ hgs]
      rfl

/-- The first four groups of digits. -/
def topGroups (a : ℕ) : List (List Char) :=
  ((List.range 4).map fun k => a / 65536 ^ (3 - k) % 65536).map (Numeral.padded 16 4)

theorem flatten_topGroups (a : ℕ) : (topGroups a).flatten = Numeral.padded 16 16 a := by
  have hdigits := Numeral.flatten_padded 16 4 a 4
  rw [topGroups, List.map_map, ← hdigits]
  congr 1
  refine List.map_congr_left fun k _ => ?_
  exact Numeral.padded_mod (b := 16) (m := 4) le_rfl

theorem isPiece_topGroups : ∀ g ∈ topGroups a, IsPiece g := fun g hg => by
  obtain ⟨w, -, rfl⟩ := List.mem_map.mp hg
  exact ⟨List.cons_ne_nil _ _, colon_notMem_padded⟩

theorem inaddrText_ip6Name (i : Inet) : inaddrText (ip6Name i) =
    .ok (some (String.ofList (joined ':' (topGroups (i.addr / 2 ^ 64)) ++ ':' :: ':' ::
      joined ':' [] ++ '/' :: Nat.toDigits 10 64))) := by
  rw [ip6Name, inaddrText]
  generalize i.addr / 2 ^ 64 = a
  have hdot : ∀ s ∈ (Numeral.padded 16 16 a).reverse.map fun c => [c], '.' ∉ s := fun s hs => by
    obtain ⟨c, hc, rfl⟩ := List.mem_map.mp hs
    have hmem : '.' ∉ Numeral.padded 16 16 a := Numeral.notMem_padded (by decide) (by decide)
    rw [List.mem_singleton]
    exact fun heq => hmem (heq ▸ List.mem_reverse.mp hc)
  have hne : (Numeral.padded 16 16 a).reverse.map (fun c => [c]) ≠ [] := by
    rw [← List.length_pos_iff, List.length_map, List.length_reverse, Numeral.length_padded]
    decide
  obtain ⟨g, hg⟩ := List.exists_mem_of_ne_nil _ hne
  have hjoined : joined '.' ((Numeral.padded 16 16 a).reverse.map fun c => [c]) ≠ [] := by
    refine joined_ne_nil hg ?_
    obtain ⟨c, -, rfl⟩ := List.mem_map.mp hg
    exact List.cons_ne_nil _ _
  have hmembers : ((joined '.' ((Numeral.padded 16 16 a).reverse.map fun c => [c])).splitOn
      '.').reverse.flatten = Numeral.padded 16 16 a := by
    rw [splitOn_joined hne hdot, ← List.map_reverse, List.reverse_reverse, ← List.flatMap_def]
    simp
  have hcolons : colonEveryFour (Numeral.padded 16 16 a) ++ [':', '/', '6', '4'] =
      joined ':' (topGroups a) ++ ':' :: [':', '/', '6', '4'] := by
    rw [← flatten_topGroups]
    refine colonEveryFour_flatten (fun g hg => ?_) (List.cons_ne_nil _ _)
    obtain ⟨w, -, rfl⟩ := List.mem_map.mp hg
    exact Numeral.length_padded
  rw [arpaParts_ip6 hjoined]
  dsimp only
  rw [if_neg (by decide), hmembers]
  have htext : String.ofList (colonEveryFour (Numeral.padded 16 16 a)) ++ ":/64" =
      String.ofList (colonEveryFour (Numeral.padded 16 16 a) ++ [':', '/', '6', '4']) := by
    rw [String.ofList_append]
  rw [htext, hcolons, List.append_assoc]
  rfl

/-! ## The round trip -/

theorem make?_network {family : Family} {addr masklen : ℕ} (hf : i.family = family)
    (hm : i.masklen = masklen) (ha : i.network.addr = addr) :
    Inet.make? family addr masklen = some i.network := by
  have hself := Inet.make?_self i.network
  rwa [Inet.family_network, Inet.masklen_network, hf, hm, ha] at hself

theorem addr_network {h : ℕ} (hbits : i.hostbits = h) :
    i.network.addr = i.addr / 2 ^ h * 2 ^ h := by
  show i.block.first = _
  rw [Inet.block, hbits]
  rfl

theorem inetIn_inaddr (hf : i.family = .inet4) (hm : i.masklen = 24) :
    Inet.inetIn (String.ofList (joined '.' ((i.octets.take 3 ++ [0]).map (Nat.toDigits 10)) ++
      '/' :: Nat.toDigits 10 24)) = some i.network := by
  have hnot : ∀ d, d ≠ '.' → (∀ n < 10, d ≠ Nat.digitChar n) →
      d ∉ joined '.' ((i.octets.take 3 ++ [0]).map (Nat.toDigits 10)) := fun d hd hdigit hmem => by
    rcases mem_joined hmem with heq | ⟨s, hs, hmem⟩
    · exact hd heq
    · obtain ⟨n, -, rfl⟩ := List.mem_map.mp hs
      exact Numeral.notMem_toDigits (by decide) hdigit hmem
  have hlt : ∀ n ∈ i.octets.take 3 ++ [0], n < 256 := fun n hn => by
    rcases List.mem_append.mp hn with hn | hn
    · exact Inet.lt_of_mem_octets (List.mem_of_mem_take hn)
    · rw [List.mem_singleton.mp hn]
      decide
  have haddr : i.network.addr = (i.octets.take 3 ++ [0]).foldl (· * 256 + ·) 0 := by
    have hbits : i.hostbits = 8 := by rw [Inet.hostbits, hf, hm]; rfl
    have hlt := i.addr_lt
    rw [hf] at hlt
    rw [addr_network hbits]
    show _ = (((0 * 256 + i.addr / 256 ^ 3 % 256) * 256 + i.addr / 256 ^ 2 % 256) * 256 +
      i.addr / 256 ^ 1 % 256) * 256 + 0
    have hlt : i.addr < 2 ^ 32 := hlt
    omega
  rw [Inet.inetIn_mask (hnot '/' (by decide) (by decide)), Inet.readAddress,
    if_neg (hnot ':' (by decide) (by decide)), Inet.readDotted_joined rfl hlt, Option.map_some,
    Option.bind_some]
  exact make?_network hf hm haddr

theorem inetIn_ip6 (hf : i.family = .inet6) (hm : i.masklen = 64) :
    Inet.inetIn (String.ofList (joined ':' (topGroups (i.addr / 2 ^ 64)) ++ ':' :: ':' ::
      joined ':' [] ++ '/' :: Nat.toDigits 10 64)) = some i.network := by
  have hslash : ∀ a, '/' ∉ joined ':' (topGroups a) ++ ':' :: ':' :: joined ':' [] := fun a => by
    have hgroups : '/' ∉ joined ':' (topGroups a) := fun hmem => by
      rcases mem_joined hmem with heq | ⟨s, hs, hmem⟩
      · exact absurd heq (by decide)
      · obtain ⟨n, -, rfl⟩ := List.mem_map.mp hs
        exact Numeral.notMem_padded (by decide) (by decide) hmem
    simp [hgroups]
  have hwords : (topGroups (i.addr / 2 ^ 64)).mapM Inet.readWord =
      some ((List.range 4).map fun k => i.addr / 2 ^ 64 / 65536 ^ (3 - k) % 65536) := by
    refine Inet.mapM_some fun w hw => ?_
    obtain ⟨k, -, rfl⟩ := List.mem_map.mp hw
    exact Inet.readWord_padded (Nat.mod_lt _ (by decide))
  have hread : Inet.read6 (joined ':' (topGroups (i.addr / 2 ^ 64)) ++ ':' :: ':' :: joined ':' []) =
      some (((List.range 4).map fun k => i.addr / 2 ^ 64 / 65536 ^ (3 - k) % 65536) ++
        List.replicate 4 0 ++ []) := by
    refine (Inet.read6_double isPiece_topGroups (List.forall_mem_nil _) hwords
      (show Inet.readWords [] = some [] from rfl) (by simp)).trans ?_
    rw [List.length_map, List.length_range]
    rfl
  have haddr : i.network.addr = (((List.range 4).map fun k =>
      i.addr / 2 ^ 64 / 65536 ^ (3 - k) % 65536) ++ List.replicate 4 0 ++ []).foldl
        (· * 65536 + ·) 0 := by
    have hbits : i.hostbits = 64 := by rw [Inet.hostbits, hf, hm]; rfl
    have hlt : i.addr < 2 ^ 128 := by
      have := i.addr_lt
      rwa [hf] at this
    have hvalue : ((List.range 4).map fun k => i.addr / 2 ^ 64 / 65536 ^ (3 - k) % 65536).foldl
        (· * 65536 + ·) 0 = i.addr / 2 ^ 64 := by
      refine (Numeral.foldl_digits 65536 (i.addr / 2 ^ 64) 4 0).trans ?_
      omega
    have hpow : 65536 ^ 4 = 2 ^ 64 := by decide
    rw [addr_network hbits, List.append_nil, List.foldl_append, hvalue, Numeral.foldl_zeros, hpow]
  rw [Inet.inetIn_mask (hslash _), Inet.readAddress, if_pos Inet.colon_mem_double, hread,
    Option.map_some, Option.bind_some]
  exact make?_network hf hm haddr

/-- **The block of a name** is the network that the name was made for. -/
theorem inaddrText_getDomainFromCidr (showsAll : Bool) (h : IsZoneBlock i) :
    ∃ name text, getDomainFromCidr showsAll i = .ok name ∧ inaddrText name = .ok (some text) ∧
      Inet.inetIn text = some i.network := by
  rcases h with ⟨hf, hm⟩ | ⟨hf, hm, hn⟩
  · exact ⟨_, _, getDomainFromCidr_inet4 hf, inaddrText_inaddrName i, inetIn_inaddr hf hm⟩
  · exact ⟨_, _, getDomainFromCidr_inet6 hf hm hn, inaddrText_ip6Name i, inetIn_ip6 hf hm⟩

theorem network_eq_of_name (hi : IsZoneBlock i) (hj : IsZoneBlock ip)
    (h : getDomainFromCidr showsAll i = getDomainFromCidr showsAll ip) : i.network = ip.network := by
  obtain ⟨name, text, hname, htext, hin⟩ := inaddrText_getDomainFromCidr showsAll hi
  obtain ⟨name', text', hname', htext', hin'⟩ := inaddrText_getDomainFromCidr showsAll hj
  obtain rfl : name = name' := Except.ok.inj (hname.symm.trans (h.trans hname'))
  obtain rfl : text = text' := Option.some.inj (Except.ok.inj (htext.symm.trans htext'))
  exact Option.some.inj (hin.symm.trans hin')

/-- **Reverse zones round-trip.** -/
theorem reverse_zone_round_trip (showsAll : Bool) (i : Inet) (h : IsZoneBlock i) :
    ∃ name, getDomainFromCidr showsAll i = .ok name ∧
      (∀ (srv : Server) (t : Tables) (dnsDomainId : ℕ),
        t.getOrCreateInaddrDomainNetblockLink { srv with inetIn := Inet.inetIn } name dnsDomainId =
          (t.reverseNetblock { srv with inetIn := Inet.inetIn } i.network >>= fun x =>
            x.1.insertRecords { srv with inetIn := Inet.inetIn }
              [newRecord dnsDomainId "IN" "REVERSE_ZONE_BLOCK_PTR" none (some x.2)])) ∧
      ∀ ip, IsZoneBlock ip → ip.network ≠ i.network → getDomainFromCidr showsAll ip ≠ .ok name := by
  obtain ⟨name, text, hname, htext, hin⟩ := inaddrText_getDomainFromCidr showsAll h
  refine ⟨name, hname, fun srv t dnsDomainId => ?_, fun ip hip hne heq => ?_⟩
  · rw [getOrCreateInaddrDomainNetblockLink, htext]
    dsimp only [bind, Except.bind]
    rw [hin]
  · exact hne (network_eq_of_name hip h (heq.trans hname.symm))

theorem reverse_zone_round_trip_ten :
    ∃ name, getDomainFromCidr false (Inet.v4 10 1 2 3 24) = .ok name :=
  (reverse_zone_round_trip false (Inet.v4 10 1 2 3 24) (Or.inl ⟨rfl, rfl⟩)).imp fun _ h => h.1

end JazzHands.Dns

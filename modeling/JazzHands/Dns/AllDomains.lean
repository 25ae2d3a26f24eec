import JazzHands.Dns.ReverseZones

/-!
# The zones of a larger block

`get_all_domains_for_cidr` and `get_all_domain_rows_for_cidr` for IPv4 blocks.
-/

namespace JazzHands.Dns

open Library Postgres

/-- The network of 24 bits at an address that is a multiple of its size. -/
def slash24 (a : ℕ) : Inet where
  family := .inet4
  addr := a % 2 ^ 32
  masklen := 24
  addr_lt := Nat.mod_lt _ (by decide)
  masklen_le := by decide

/-- So many networks of 24 bits, from an address on. -/
def slashes (a n : ℕ) : List Inet := (List.range n).map fun k => slash24 (a + k * 256)

/-- The networks of 24 bits that overlap a block. -/
def IsSlashOf (block n : Inet) : Prop :=
  n.family = .inet4 ∧ n.masklen = 24 ∧ n.network = n ∧ n.Overlaps block

variable {block n : Inet} {a k m : ℕ} {l : List Inet} {showsAll : Bool}

/-! ## Results of the loop -/

theorem getAllDomains_of_blocks (hf : ∀ cur ∈ l, cur.family = .inet4)
    (h : blocksOf block = .ok l) :
    getAllDomainsForCidr showsAll block = .ok (l.map inaddrName) ∧
      getAllDomainRowsForCidr showsAll block = .ok (l.map inaddrName) := by
  have hname : ∀ cur ∈ l, getDomainFromCidr showsAll cur = .ok (inaddrName cur) := fun cur hcur =>
    getDomainFromCidr_inet4 (hf cur hcur)
  constructor
  · rw [getAllDomainsForCidr, h]
    exact foldlM_concat_ok hname []
  · rw [getAllDomainRowsForCidr, h]
    exact mapM_ok hname

/-! ## Networks of 24 bits -/

theorem addr_of_slash (hf : n.family = .inet4) (hm : n.masklen = 24) :
    n.network = n ↔ n.addr = n.addr / 2 ^ 8 * 2 ^ 8 := by
  have hbits : n.hostbits = 8 := by rw [Inet.hostbits, hf, hm]; rfl
  have haddr := addr_network hbits
  constructor
  · intro hn
    rwa [hn] at haddr
  · exact fun hn => Inet.eq_of_fields rfl (haddr.trans hn.symm) rfl

/-- Overlapping is agreeing on the bits of the larger network. -/
theorem isSlashOf_iff (hf : block.family = .inet4) : IsSlashOf block n ↔
    n.family = .inet4 ∧ n.masklen = 24 ∧ n.network = n ∧
      n.addr / 2 ^ max 8 block.hostbits = block.addr / 2 ^ max 8 block.hostbits := by
  refine and_congr_right fun hn => and_congr_right fun hm => and_congr_right fun _ => ?_
  have hbits : n.hostbits = 8 := by rw [Inet.hostbits, hn, hm]; rfl
  have hblock : block.hostbits = 32 - block.masklen := by rw [Inet.hostbits, hf]; rfl
  have hle : block.masklen ≤ 32 := by
    have := block.masklen_le
    rwa [hf] at this
  rw [Inet.overlaps_iff, Inet.subnetEq, Inet.subnetEq, hbits, hn, hf, hm]
  rcases le_total block.masklen 24 with h | h
  · rw [max_eq_right (by omega)]
    constructor
    · rintro (⟨-, -, heq⟩ | ⟨-, hge, heq⟩)
      · exact heq
      · rw [show block.hostbits = 8 by omega]
        exact heq.symm
    · exact fun heq => Or.inl ⟨rfl, h, heq⟩
  · rw [max_eq_left (by omega)]
    constructor
    · rintro (⟨-, hge, heq⟩ | ⟨-, -, heq⟩)
      · rwa [show block.hostbits = 8 by omega] at heq
      · exact heq.symm
    · exact fun heq => Or.inr ⟨rfl, h, heq.symm⟩

theorem aligned_le (ha : a < 2 ^ 32) (hm : m ≤ 32) : a / 2 ^ m * 2 ^ m + 2 ^ m ≤ 2 ^ 32 := by
  have hpow : 2 ^ 32 = 2 ^ (32 - m) * 2 ^ m := by rw [← pow_add, Nat.sub_add_cancel hm]
  have hlt : a / 2 ^ m < 2 ^ (32 - m) := Nat.div_lt_of_lt_mul (by rwa [Nat.mul_comm, ← hpow])
  rw [hpow, ← Nat.succ_mul]
  exact Nat.mul_le_mul_right _ hlt

theorem addr_slash24 (h : a < 2 ^ 32) : (slash24 a).addr = a := Nat.mod_eq_of_lt h

/-- **The networks of 24 bits of an aligned block.** -/
theorem mem_slashes_iff (ha : a < 2 ^ 32) (h8 : 8 ≤ m) (hm : m ≤ 32) :
    n ∈ slashes (a / 2 ^ m * 2 ^ m) (2 ^ (m - 8)) ↔
      n.family = .inet4 ∧ n.masklen = 24 ∧ n.network = n ∧ n.addr / 2 ^ m = a / 2 ^ m := by
  have hend := aligned_le ha hm
  have hpow : 2 ^ m = 2 ^ (m - 8) * 256 := by
    rw [show (256 : ℕ) = 2 ^ 8 by rfl, ← pow_add, Nat.sub_add_cancel h8]
  have hpos : 0 < 2 ^ (m - 8) := Nat.pow_pos (by decide)
  rw [slashes, List.mem_map]
  constructor
  · rintro ⟨k, hk, rfl⟩
    have hk : k < 2 ^ (m - 8) := List.mem_range.mp hk
    have hlt : a / 2 ^ m * 2 ^ m + k * 256 < 2 ^ 32 := by omega
    have haddr := addr_slash24 hlt
    refine ⟨rfl, rfl, (addr_of_slash rfl rfl).mpr ?_, ?_⟩
    · have hmul : a / 2 ^ m * 2 ^ m = a / 2 ^ m * 2 ^ (m - 8) * 256 := by
        rw [Nat.mul_assoc, ← hpow]
      rw [haddr, hmul, ← Nat.add_mul]
      omega
    · have hzero : k * 256 / 2 ^ m = 0 := Nat.div_eq_of_lt (by omega)
      rw [haddr, Nat.mul_comm, Nat.mul_add_div (Nat.pow_pos (by decide)), hzero, Nat.add_zero]
  · rintro ⟨hf, hmask, hn, hdiv⟩
    have haddr := (addr_of_slash hf hmask).mp hn
    have hsplit := Nat.div_add_mod n.addr (2 ^ m)
    have hmod := Nat.mod_lt n.addr (Nat.pow_pos (n := m) (show 0 < 2 by decide))
    have hmul : 2 ^ m * (n.addr / 2 ^ m) = 256 * (2 ^ (m - 8) * (n.addr / 2 ^ m)) := by
      rw [hpow]
      ring
    refine ⟨n.addr % 2 ^ m / 256, List.mem_range.mpr ?_, ?_⟩
    · rw [Nat.div_lt_iff_lt_mul (by decide), ← hpow]
      exact hmod
    · have hsum : a / 2 ^ m * 2 ^ m + n.addr % 2 ^ m / 256 * 256 = n.addr := by
        rw [← hdiv, Nat.mul_comm (n.addr / 2 ^ m)]
        omega
      have hlt : n.addr < 2 ^ 32 := by
        have := n.addr_lt
        rwa [hf] at this
      rw [hsum]
      exact Inet.eq_of_fields hf.symm (addr_slash24 hlt) hmask.symm

theorem pairwise_slashes (h : a + k * 256 ≤ 2 ^ 32) :
    (slashes a k).Pairwise fun x y => x.addr < y.addr := by
  rw [slashes, List.pairwise_map]
  refine List.Pairwise.imp_of_mem (fun hi hj hlt => ?_) List.pairwise_lt_range
  have hi := List.mem_range.mp hi
  have hj := List.mem_range.mp hj
  rw [addr_slash24 (by omega), addr_slash24 (by omega)]
  omega

theorem nodup_names (hl : l.Pairwise fun x y => x.addr < y.addr)
    (hslash : ∀ n ∈ l, n.family = .inet4 ∧ n.masklen = 24 ∧ n.network = n) :
    (l.map inaddrName).Nodup := by
  refine List.Nodup.map_on (fun x hx y hy heq => ?_) (hl.imp fun hlt heq => ?_)
  · obtain ⟨hfx, hmx, hnx⟩ := hslash x hx
    obtain ⟨hfy, hmy, hny⟩ := hslash y hy
    have hname : getDomainFromCidr true x = getDomainFromCidr true y := by
      rw [getDomainFromCidr_inet4 hfx, getDomainFromCidr_inet4 hfy, heq]
    have hnetwork := network_eq_of_name (Or.inl ⟨hfx, hmx⟩) (Or.inl ⟨hfy, hmy⟩) hname
    rwa [hnx, hny] at hnetwork
  · exact absurd (congrArg Inet.addr heq) (Nat.ne_of_lt hlt)

/-! ## The loop -/

theorem blocksOf_small (hf : block.family = .inet4) (hm : 24 ≤ block.masklen) :
    ∃ cur, blocksOf block = .ok [cur] ∧ cur.family = .inet4 ∧
      inaddrName cur = inaddrName (slash24 (block.addr / 2 ^ 8 * 2 ^ 8)) := by
  have hle : 24 ≤ block.family.bits := by rw [hf]; decide
  refine ⟨block.withMasklen 24 hle, ?_, hf, ?_⟩
  · rw [blocksOf, hf]
    dsimp only
    have hset : block.setMasklen 24 = .ok (block.withMasklen 24 hle) := Inet.setMasklen_of_le hle
    rw [if_pos hm, hset]
    rfl
  · have hlt : block.addr < 2 ^ 32 := by
      have := block.addr_lt
      rwa [hf] at this
    have hoctets : (block.withMasklen 24 hle).octets.take 3 =
        (slash24 (block.addr / 2 ^ 8 * 2 ^ 8)).octets.take 3 := by
      show [block.addr / 256 ^ 3 % 256, block.addr / 256 ^ 2 % 256, block.addr / 256 ^ 1 % 256] =
        [block.addr / 2 ^ 8 * 2 ^ 8 % 2 ^ 32 / 256 ^ 3 % 256,
          block.addr / 2 ^ 8 * 2 ^ 8 % 2 ^ 32 / 256 ^ 2 % 256,
          block.addr / 2 ^ 8 * 2 ^ 8 % 2 ^ 32 / 256 ^ 1 % 256]
      congr 1
      · omega
      · congr 1
        · omega
        · congr 1
          omega
    rw [inaddrName, inaddrName, hoctets]

theorem generateSeries_eq {k : ℕ} :
    generateSeries (256 * k - 1) 256 = (List.range k).map fun (j : ℕ) => (j * 256 : ℤ) := by
  have hcount : ((256 * k - 1 + (256 : ℕ) : ℤ) / (256 : ℕ)).toNat = k := by omega
  rw [generateSeries, hcount]
  rfl

theorem blocksOf_large (hf : block.family = .inet4) (hn : block.network = block)
    (hm : block.masklen < 24) (hpos : block.masklen ≠ 0) :
    blocksOf block = .ok (slashes block.addr (2 ^ (24 - block.masklen))) := by
  have hbits : block.hostbits = 32 - block.masklen := by rw [Inet.hostbits, hf]; rfl
  have hlt : block.addr < 2 ^ 32 := by
    have := block.addr_lt
    rwa [hf] at this
  have hend := aligned_le hlt (show 32 - block.masklen ≤ 32 by omega)
  have hpow : 2 ^ (32 - block.masklen) = 2 ^ (24 - block.masklen) * 256 := by
    rw [show (256 : ℕ) = 2 ^ 8 by rfl, ← pow_add]
    congr 1
    omega
  have haddr : block.addr / 2 ^ (32 - block.masklen) * 2 ^ (32 - block.masklen) = block.addr := by
    have := addr_network hbits
    rw [hn] at this
    exact this.symm
  have hcount : 2 ^ (24 - block.masklen) ≤ 2 ^ 23 :=
    Nat.pow_le_pow_right (by decide) (by omega)
  rw [haddr, hpow] at hend
  have hstop : toInteger (256 * 2 ^ (24 - block.masklen) - 1) =
      .ok (256 * (2 ^ (24 - block.masklen) : ℕ) - 1) := by
    rw [toInteger]
    push_cast
    refine if_pos ?_
    have hcast : (2 : ℤ) ^ (24 - block.masklen) ≤ 2 ^ 23 := by exact_mod_cast hcount
    have hge : (0 : ℤ) < 2 ^ (24 - block.masklen) := by
      exact_mod_cast Nat.two_pow_pos (24 - block.masklen)
    constructor <;> omega
  rw [blocksOf, hf]
  dsimp only
  rw [if_neg (by omega), hstop]
  show List.mapM _ (generateSeries _ 256) = _
  rw [generateSeries_eq, slashes, List.mapM_map]
  refine mapM_ok fun k hk => ?_
  have hk := List.mem_range.mp hk
  have hsum : ((block.addr : ℤ) + (k * 256 : ℤ)).toNat = block.addr + k * 256 := by omega
  have hroom : block.addr + k * 256 < 2 ^ 32 := by omega
  obtain ⟨ip, hip⟩ : ∃ ip, block.add (k * 256 : ℤ) = .ok ip := by
    rw [Inet.add, dif_pos ⟨by omega, by rw [hsum, hf]; exact hroom⟩]
    exact ⟨_, rfl⟩
  obtain ⟨hfam, -, haddr⟩ := Inet.add_eq_ok.mp hip
  have hle : 24 ≤ ip.family.bits := by rw [hfam, hf]; decide
  have hset : ip.setMasklen 24 = .ok (ip.withMasklen 24 hle) := Inet.setMasklen_of_le hle
  show (block.add (k * 256 : ℤ) >>= fun ip => ip.setMasklen 24) = _
  rw [hip]
  show ip.setMasklen 24 = _
  rw [hset]
  refine congrArg Except.ok (Inet.eq_of_fields (hfam.trans hf) ?_ rfl)
  rw [addr_slash24 hroom]
  show ip.addr = _
  omega

/-- The number of addresses less one is no `integer` for the block of all addresses. -/
theorem blocksOf_all (hf : block.family = .inet4) (hm : block.masklen = 0) :
    ∃ err, blocksOf block = .error err := by
  rw [blocksOf, hf, hm]
  exact ⟨_, rfl⟩

/-- **The zones of a block** are those of the networks of 24 bits that overlap it, in order, for
every block but that of all addresses. -/
theorem getAllDomains_iff (showsAll : Bool) (block : Inet) (hf : block.family = .inet4)
    (hn : block.network = block) :
    (∃ l : List Inet, l.Pairwise (fun x y => x.addr < y.addr) ∧
      (∀ n, n ∈ l ↔ IsSlashOf block n) ∧ (l.map inaddrName).Nodup ∧
      getAllDomainsForCidr showsAll block = .ok (l.map inaddrName) ∧
      getAllDomainRowsForCidr showsAll block = .ok (l.map inaddrName)) ↔ block.masklen ≠ 0 := by
  constructor
  · rintro ⟨l, -, -, -, hdomains, -⟩ hm
    obtain ⟨err, herr⟩ := blocksOf_all hf hm
    rw [getAllDomainsForCidr, herr] at hdomains
    cases hdomains
  · intro hpos
    have hlt : block.addr < 2 ^ 32 := by
      have := block.addr_lt
      rwa [hf] at this
    have hbits : block.hostbits = 32 - block.masklen := by rw [Inet.hostbits, hf]; rfl
    have h8 : 8 ≤ max 8 block.hostbits := le_max_left _ _
    have h32 : max 8 block.hostbits ≤ 32 := max_le (by decide) (by omega)
    have hmem : ∀ n, n ∈ slashes (block.addr / 2 ^ max 8 block.hostbits *
        2 ^ max 8 block.hostbits) (2 ^ (max 8 block.hostbits - 8)) ↔ IsSlashOf block n := fun n =>
      (mem_slashes_iff hlt h8 h32).trans (isSlashOf_iff hf).symm
    have hend := aligned_le hlt h32
    have hpow : 2 ^ max 8 block.hostbits = 2 ^ (max 8 block.hostbits - 8) * 256 := by
      rw [show (256 : ℕ) = 2 ^ 8 by rfl, ← pow_add, Nat.sub_add_cancel h8]
    have hpairwise := pairwise_slashes (hend.trans' (Nat.add_le_add_left hpow.ge _))
    have hnodup := nodup_names hpairwise fun n hn =>
      let h := (hmem n).mp hn
      ⟨h.1, h.2.1, h.2.2.1⟩
    refine ⟨_, hpairwise, hmem, hnodup, ?_⟩
    rcases Nat.lt_or_ge block.masklen 24 with hm | hm
    · have hmax : max 8 block.hostbits = 32 - block.masklen := by omega
      have haddr : block.addr / 2 ^ max 8 block.hostbits * 2 ^ max 8 block.hostbits =
          block.addr := by
        have := addr_network hbits
        rw [hn] at this
        rw [hmax]
        exact this.symm
      have hcount : max 8 block.hostbits - 8 = 24 - block.masklen := by omega
      rw [haddr, hcount]
      refine getAllDomains_of_blocks (fun cur hcur => ?_) (blocksOf_large hf hn hm hpos)
      obtain ⟨k, -, rfl⟩ := List.mem_map.mp hcur
      rfl
    · have hmax : max 8 block.hostbits = 8 := by omega
      obtain ⟨cur, hcur, hfam, hname⟩ := blocksOf_small hf hm
      rw [hmax]
      show getAllDomainsForCidr showsAll block = .ok [inaddrName (slash24 (_ + 0 * 256))] ∧
        getAllDomainRowsForCidr showsAll block = .ok [inaddrName (slash24 (_ + 0 * 256))]
      rw [Nat.zero_mul, Nat.add_zero, ← hname]
      exact getAllDomains_of_blocks (by simpa using hfam) hcur

theorem getAllDomains_ten : ∃ l : List Inet,
    getAllDomainsForCidr false (Inet.v4 10 0 0 0 8) = .ok (l.map inaddrName) := by
  have hn : (Inet.v4 10 0 0 0 8).network = Inet.v4 10 0 0 0 8 := by decide
  obtain ⟨l, -, -, -, h, -⟩ := (getAllDomains_iff false _ rfl hn).mpr (by decide)
  exact ⟨l, h⟩

/-- All addresses. -/
theorem getAllDomains_all : getAllDomainsForCidr false (Inet.v4 0 0 0 0 0) =
      raise .numericValueOutOfRange "integer out of range" ∧
    getAllDomainRowsForCidr false (Inet.v4 0 0 0 0 0) =
      raise .numericValueOutOfRange "integer out of range" := ⟨rfl, rfl⟩

end JazzHands.Dns

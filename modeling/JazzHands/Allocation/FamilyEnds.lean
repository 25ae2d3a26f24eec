import JazzHands.Allocation.Bounded
import Mathlib.Order.Interval.Finset.Nat

/-!
# The ends of an address family

`find_free_netblocks` looks one address beyond what it returns: after a parent or a desired address,
after a block or a network range, and before a block or a range on the way down.  At the first or
the last address of the family there is no such address, and the call fails.
-/

namespace JazzHands

open Library Postgres

variable {s : RangeTables} {o : Outcomes} {q : FindFree} {p : Netblock} {v v' : Search}
variable {c c' : ParentSearch} {k k' : Cursor} {x y : Inet} {m n t : ℕ}

/-- The call does not fail with an address that its family does not have. -/
def InRange {α : Type} (x : ExceptT PgError Option α) : Prop :=
  FailsOnly (fun err => ¬ err.errcode = .numericValueOutOfRange) x

/-- The values of `random()` do not add up to more than a `bigint`. -/
def Outcomes.DrawsFit (o : Outcomes) : Prop :=
  ∀ n, (o.random n).high <<< 32 + (o.random n).low + 1 < 2 ^ 63

/-- A network range of the parent goes from `lo` to `hi`. -/
def HasRange (s : RangeTables) (p : Netblock) (lo hi : ℕ) : Prop :=
  ∃ nr ∈ s.networkRange, nr.parentNetblockId = p.netblockId ∧ ∃ start ∈ s.start nr,
    ∃ stop ∈ s.stop nr, start.ipAddress.family = p.ipAddress.family ∧
      stop.ipAddress.family = p.ipAddress.family ∧ start.ipAddress.addr = lo ∧
      stop.ipAddress.addr = hi

/-- The address is in a network range of the parent. -/
def InSomeRange (s : RangeTables) (p : Netblock) (a : ℕ) : Prop :=
  ∃ nr ∈ s.networkRange, nr.parentNetblockId = p.netblockId ∧ ∃ start ∈ s.start nr,
    ∃ stop ∈ s.stop nr, start.ipAddress.family = p.ipAddress.family ∧
      stop.ipAddress.family = p.ipAddress.family ∧ start.ipAddress.addr ≤ a ∧
      a ≤ stop.ipAddress.addr
  deriving Decidable

/-- The address `a` of the family of `ip`, with a mask of `m` bits. -/
def Postgres.Inet.at (ip : Inet) (m a : ℕ) : Inet where
  family := ip.family
  addr := a % 2 ^ ip.family.bits
  masklen := min m ip.family.bits
  addr_lt := Nat.mod_lt _ (Nat.two_pow_pos _)
  masklen_le := min_le_right _ _

namespace FindFree

/-- The request gets past the checks of the parent, and asks for a mask of `m` bits. -/
structure Searches (q : FindFree) (p : Netblock) (m : ℕ) : Prop where
  known : ∀ x ∈ q.allocationMethod, x ∈ ["top", "bottom", "random", "default"]
  requested : q.Requests p m
  canSubnet : p.canSubnet = !q.singleAddress
  method : q.singleAddress = false → q.allocationMethod ≠ some "random"
  block : q.singleAddress = false → p.ipAddress.masklen < m ∧ m ≤ p.ipAddress.family.bits
  desired : ∀ d ∈ q.desiredIpAddress, d.host.subnetEq p.ipAddress

/-- The request asks for at least one result. -/
structure Looks (q : FindFree) : Prop where
  maxAddresses : ∃ l ∈ q.maxAddresses, 0 < l
  rndMaxCount : 0 < q.rndMaxCount

/-- The row is in the way of `x` below the parent. -/
def InTheWay (q : FindFree) (p : Netblock) (x : Inet) (n : Netblock) : Prop :=
  n.ipUniverseId = p.ipUniverseId ∧ n.netblockType = p.netblockType ∧
    n.parentNetblockId = some p.netblockId ∧
    if q.singleAddress = true then n.ipAddress = x
    else x.subnetEq n.ipAddress ∨ n.ipAddress.subnetEq x
  deriving Decidable

/-- How many addresses a result with a mask of `m` bits stands for. -/
def step (q : FindFree) (p : Netblock) (m : ℕ) : ℕ :=
  if q.singleAddress = true then 1 else 2 ^ (p.ipAddress.family.bits - m)

/-- The search finds a result at `a`. -/
def FreeAt (s : RangeTables) (q : FindFree) (p : Netblock) (m a : ℕ) : Prop :=
  q.step p m ∣ a ∧ (q.singleAddress = true → ¬ InSomeRange s p a) ∧
    ¬ ∃ n ∈ s.netblock, q.InTheWay p (p.ipAddress.at m a) n
  deriving Decidable

/-- The addresses after `a` where the search finds a result. -/
def freeAbove (s : RangeTables) (q : FindFree) (p : Netblock) (m a : ℕ) : Finset ℕ :=
  {b ∈ Finset.Ioo a (p.ipAddress.block.last + 1 - q.margin p) | q.FreeAt s p m b}

/-- From `t` on, a search from the top is going to leave the family: `t` is the first address of all
or the end of a network range from there, and the search is down at `t` before it has found enough.
A range that begins with the lowest address that the search looks at would end it. -/
structure ComesDown (s : RangeTables) (q : FindFree) (p : Netblock) (m t : ℕ) : Prop where
  method : q.allocationMethod = some "top"
  lowest : p.ipAddress.block.first + q.margin p ≤ t
  zero : (t = 0 ∧ (q.singleAddress = true → ¬ InSomeRange s p 0)) ∨
    (q.singleAddress = true ∧ HasRange s p 0 t)
  passable : q.singleAddress = true → ∀ a, t < a →
    a < p.ipAddress.block.last + 1 - q.margin p → InSomeRange s p a →
    ∃ lo hi, HasRange s p lo hi ∧ lo ≤ a ∧ a ≤ hi ∧ p.ipAddress.block.first + q.margin p < lo
  wanted : ∃ l ∈ q.maxAddresses, ((q.freeAbove s p m t).card : ℤ) < l
  rndMaxCount : 0 < q.rndMaxCount

end FindFree

/-- **The search of a parent leaves the family** of its addresses. -/
inductive LeavesFamily (s : RangeTables) (q : FindFree) (p : Netblock) : Prop
  /-- The parent ends with the last address. -/
  | parent {m : ℕ} (h : q.Searches p m) (hd : q.desiredIpAddress = none)
      (hlast : p.ipAddress.block.last + 1 = 2 ^ p.ipAddress.family.bits)
  /-- The desired address is the last one. -/
  | desired {m : ℕ} {d : Inet} (h : q.Searches p m) (hd : q.desiredIpAddress = some d)
      (hlast : d.addr + 1 = 2 ^ p.ipAddress.family.bits)
  /-- The desired block ends with the last address. -/
  | block {m : ℕ} {d : Inet} (h : q.Searches p m) (hd : q.desiredIpAddress = some d)
      (hs : q.singleAddress = false) (hlooks : q.Looks)
      (hlast : (AlignedBlock.of (p.ipAddress.family.bits - m) d.addr).last + 1 =
        2 ^ p.ipAddress.family.bits)
  /-- The desired address is in a network range that ends with the last address. -/
  | range {m lo hi : ℕ} {d : Inet} (h : q.Searches p m) (hd : q.desiredIpAddress = some d)
      (hs : q.singleAddress = true) (hlooks : q.Looks) (hrange : HasRange s p lo hi)
      (hlo : lo ≤ d.addr) (hhi : d.addr ≤ hi) (hlast : hi + 1 = 2 ^ p.ipAddress.family.bits)
  /-- A search from the top comes down to the first address. -/
  | first {m t : ℕ} (h : q.Searches p m) (hd : q.desiredIpAddress = none)
      (hdown : q.ComesDown s p m t)

/-! ## Ranges -/

theorem inSomeRange_iff {a : ℕ} :
    InSomeRange s p a ↔ ∃ lo hi, HasRange s p lo hi ∧ lo ≤ a ∧ a ≤ hi := by
  constructor
  · rintro ⟨nr, hnr, hp, start, hstart, stop, hstop, hf, hf', hlo, hhi⟩
    exact ⟨_, _, ⟨nr, hnr, hp, start, hstart, stop, hstop, hf, hf', rfl, rfl⟩, hlo, hhi⟩
  · rintro ⟨lo, hi, ⟨nr, hnr, hp, start, hstart, stop, hstop, hf, hf', rfl, rfl⟩, hlo, hhi⟩
    exact ⟨nr, hnr, hp, start, hstart, stop, hstop, hf, hf', hlo, hhi⟩

theorem Checked.netrangeRec_eq_none_iff (hc : Checked q p v c) (hx : c.Fits x)
    (hs : q.singleAddress = true) :
    c.netrangeRec s o x = none ↔ ¬ InSomeRange s p x.addr := by
  rw [netrangeRec_eq_none (hc.singleAddress.trans hs), hc.netblockRec]
  have hf : x.family = p.ipAddress.family := by rw [hx.family, hc.netblockRec]
  constructor
  · rintro h ⟨nr, hnr, hp, start, hstart, stop, hstop, hsf, htf, hlo, hhi⟩
    exact h nr hnr hp ⟨start, hstart, stop, hstop, hf.trans hsf.symm, hf.trans htf.symm, hlo, hhi⟩
  · rintro h nr hnr hp ⟨start, hstart, stop, hstop, hsf, htf, hlo, hhi⟩
    exact h ⟨nr, hnr, hp, start, hstart, stop, hstop, hsf.symm.trans hf, htf.symm.trans hf, hlo, hhi⟩

theorem Checked.netrangeRec_some (hc : Checked q p v c) (hx : c.Fits x) {nr : NetworkRange}
    (h : c.netrangeRec s o x = some nr) : q.singleAddress = true ∧ ∃ start ∈ s.start nr,
      ∃ stop ∈ s.stop nr, HasRange s p start.ipAddress.addr stop.ipAddress.addr ∧
        start.ipAddress.addr ≤ x.addr ∧ x.addr ≤ stop.ipAddress.addr ∧
        stop.ipAddress.family = p.ipAddress.family := by
  obtain ⟨hs, hmem, hparent, start, hstart, stop, hstop, hf, hf', hlo, hhi⟩ := netrangeRec_eq_some h
  have hxf : x.family = p.ipAddress.family := by rw [hx.family, hc.netblockRec]
  rw [hc.netblockRec] at hparent
  exact ⟨hc.singleAddress.symm.trans hs, start, hstart, stop, hstop,
    ⟨nr, hmem, hparent, start, hstart, stop, hstop, hf.symm.trans hxf, hf'.symm.trans hxf, rfl, rfl⟩,
    hlo, hhi, hf'.symm.trans hxf⟩

/-! ## The passes that fail -/

theorem avoids_next_bottom (hm : c.allocationMethod = .bottom) :
    Avoids .numericValueOutOfRange (c.next o k) ↔
      (if c.singleAddress = true then k.currentIp.addr else k.currentIp.block.last) + 1 <
        2 ^ k.currentIp.family.bits := by
  rw [ParentSearch.next]
  simp only [hm, if_true]
  split
  · exact avoids_bind_ok.trans Inet.add_one_avoids
  · exact avoids_bind_ok.trans Inet.add_one_avoids

theorem avoids_next_top (hm : c.allocationMethod = .top) :
    Avoids .numericValueOutOfRange (c.next o k) ↔ 0 < k.currentIp.addr := by
  rw [ParentSearch.next]
  simp only [hm, reduceCtorEq, if_false]
  split
  · exact avoids_bind_ok.trans Inet.sub_one_avoids
  · exact avoids_bind_ok.trans Inet.sub_one_avoids

theorem avoids_jump_bottom {nr : NetworkRange} {stop : Netblock} (hm : c.allocationMethod = .bottom)
    (hstop : stop ∈ s.stop nr) : Avoids .numericValueOutOfRange (c.jump s o nr k) ↔
      stop.ipAddress.addr + 1 < 2 ^ stop.ipAddress.family.bits := by
  rw [ParentSearch.jump, hm, Option.mem_def.mp hstop]
  exact avoids_bind_ok.trans Inet.add_one_avoids

theorem avoids_jump_top {nr : NetworkRange} {start : Netblock} (hm : c.allocationMethod = .top)
    (hstart : start ∈ s.start nr) : Avoids .numericValueOutOfRange (c.jump s o nr k) ↔
      0 < start.ipAddress.addr := by
  rw [ParentSearch.jump, hm, Option.mem_def.mp hstart]
  exact avoids_bind_ok.trans Inet.sub_one_avoids

theorem searchPass_avoids (hgoing : c.Going k) :
    Avoids .numericValueOutOfRange (c.searchPass s o k) ↔
      match c.netrangeRec s o k.currentIp with
      | some nr => Avoids .numericValueOutOfRange (c.jump s o nr k)
      | none => Avoids .numericValueOutOfRange (c.next o k) := by
  rw [ParentSearch.searchPass, if_pos hgoing]
  cases c.netrangeRec s o k.currentIp with
  | some nr =>
    dsimp only
    constructor
    · intro h err herr
      exact h err (bind_eq_error.mpr (Or.inl herr))
    · intro h
      exact h.bind fun _ _ => avoids_bind_ok.mpr Inet.setMasklen_avoids
  | none =>
    dsimp only
    exact avoids_bind_ok.trans (by rw [next_record])

end JazzHands

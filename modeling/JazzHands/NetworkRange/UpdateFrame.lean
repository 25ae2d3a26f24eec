import JazzHands.NetworkRange.CreateUpdate
import JazzHands.NetworkRange.Overlap

/-!
# What `update_network_range` changes

`updateNetworkRange_ok` says what a call that succeeds has written: the row of the range, and the
addresses of at most two netblocks (`EndsMoved`).  `changesOnly_iff` compares this with the
arguments.
-/

namespace JazzHands

open Library Postgres RangeDb

namespace RangeDb

/-- The constraints on the stored rows. -/
structure Stored (db : RangeDb) : Prop where
  netblock : WellFormed db.netblock
  pk : ∀ nr ∈ db.networkRange, ∀ nr' ∈ db.networkRange,
    nr.networkRangeId = nr'.networkRangeId → nr = nr'
  keys : ∀ nr ∈ db.networkRange, checkRangeKeys db.tables nr.toNetworkRange = .ok ()

/-- The address of a netblock, without its mask. -/
def address (db : RangeDb) (netblockId : ℕ) : Option Inet :=
  (findNetblock db.netblock netblockId).map (·.ipAddress.host)

end RangeDb

section

variable (args : UpdateArgs) (db db' : RangeDb) (nr nr' : RangeRow)

/-- The start address that the range should have. -/
def newStart : Option Inet :=
  (args.startIpAddress.map (·.host)).or (db.address nr.startNetblockId)

def newStop : Option Inet :=
  (args.stopIpAddress.map (·.host)).or (db.address nr.stopNetblockId)

/-- The range `nr` has become `nr'`, with the values that are passed for it, and the old ones where
none is passed.  An empty description stands for none. -/
structure TakesArguments : Prop where
  networkRangeId : nr'.networkRangeId = nr.networkRangeId
  networkRangeType : nr'.networkRangeType = nr.networkRangeType
  startIpAddress : db'.address nr'.startNetblockId = newStart args db nr
  stopIpAddress : db'.address nr'.stopNetblockId = newStop args db nr
  parentNetblockId : nr'.parentNetblockId = args.parentNetblockId.getD nr.parentNetblockId
  description : nr'.description =
    if args.description = some "" then none else args.description.or nr.description
  dnsPrefix : nr'.dnsPrefix = args.dnsPrefix.or nr.dnsPrefix
  dnsDomainId : nr'.dnsDomainId = args.dnsDomainId.or nr.dnsDomainId
  leaseTime : nr'.leaseTime = args.leaseTime.or nr.leaseTime

/-- The other ranges are the same ones with the same ends, and the range takes the arguments. -/
structure ChangesOnly : Prop where
  others : ∀ nr, nr.networkRangeId ≠ args.networkRangeId →
    (nr ∈ db'.networkRange ↔ nr ∈ db.networkRange)
  ends : ∀ nr ∈ db.networkRange, nr.networkRangeId ≠ args.networkRangeId →
    db'.address nr.startNetblockId = db.address nr.startNetblockId ∧
      db'.address nr.stopNetblockId = db.address nr.stopNetblockId
  range : ∀ nr ∈ db.networkRange, nr.networkRangeId = args.networkRangeId →
    ∃ nr' ∈ db'.networkRange, TakesArguments args db db' nr nr'

/-- A netblock that is moved is an end of no other range, and where both ends of the range are one
netblock, they move together. -/
structure MovesOwnEnds : Prop where
  start : newStart args db nr ≠ db.address nr.startNetblockId → ∀ other ∈ db.networkRange,
    other.networkRangeId ≠ nr.networkRangeId → ¬ other.EndsAt nr.startNetblockId
  stop : newStop args db nr ≠ db.address nr.stopNetblockId → ∀ other ∈ db.networkRange,
    other.networkRangeId ≠ nr.networkRangeId → ¬ other.EndsAt nr.stopNetblockId
  together : nr.startNetblockId = nr.stopNetblockId → newStart args db nr = newStop args db nr

/-- When a column of the range itself is passed, each of them is, except those that have no value
before. -/
def GivesAllFields : Prop :=
  GivesFields args → (args.description = none → nr.description = none) ∧
    (args.dnsPrefix = none → nr.dnsPrefix = none) ∧
    (args.dnsDomainId = none → nr.dnsDomainId = none) ∧
    (args.leaseTime = none → nr.leaseTime = none)

/-- No other parent is passed. -/
def KeepsParent : Prop := ∀ p ∈ args.parentNetblockId, p = nr.parentNetblockId

end

variable {schema : Schema} {order : ScanOrder} {orders : ScanOrder × ScanOrder}
variable {db db' db₁ db₂ : RangeDb} {args : UpdateArgs} {nr nr' new : RangeRow}
variable {i k : ℕ} {ip : Inet} {newIp : Option Inet} {old row : Netblock}

/-! ## The UPDATEs of the netblocks -/

/-- Of the tables only `netblock` is written, where the netblock `i` gets the address `ip`. -/
structure MovesTo (db db' : RangeDb) (i : ℕ) (ip : Option Inet) : Prop where
  rest : db' = { db with netblock := db'.netblock }
  wellFormed : WellFormed db'.netblock
  address : ∀ k, db.address k ≠ none → db'.address k = if k = i then ip else db.address k

theorem address_eq_some (h : findNetblock db.netblock k = some old) :
    db.address k = some old.ipAddress.host := by
  rw [RangeDb.address, h, Option.map_some]

theorem MovesTo.self (hwf : WellFormed db.netblock) (h : db.address i = newIp) :
    MovesTo db db i newIp where
  rest := rfl
  wellFormed := hwf
  address k _ := by
    split_ifs with hk
    · rw [hk, h]
    · rfl

theorem MovesTo.find (h : MovesTo db db' i newIp) (hip : newIp ≠ none) (hk : db.address k ≠ none) :
    ∃ row, findNetblock db'.netblock k = some row := by
  have hsome : db'.address k ≠ none := by
    rw [h.address k hk]
    split_ifs
    · exact hip
    · exact hk
  cases hf : findNetblock db'.netblock k with
  | none => exact absurd (by rw [RangeDb.address, hf, Option.map_none]) hsome
  | some row => exact ⟨row, rfl⟩

theorem executeUpdate_host {t : List Netblock} {x : Txn} (ht : WellFormed t) (hold : old ∈ t)
    (h : executeUpdate schema order t old { ipAddress := some (some ip) } = .ok x) :
    ∃ new, findNetblock x.netblock old.netblockId = some new ∧ new.ipAddress.host = ip.host := by
  obtain ⟨row, hrow⟩ := (executeUpdate_keepsRows ht hold h).find _ old (ht.findNetblock_mem hold)
  refine ⟨row, hrow, ?_⟩
  rcases executeUpdate_ok ht hold h with
    ⟨hfire, -⟩ | ⟨n, new, x₁, x₂, g, g', -, hn, hw, -, -, -, -, -, rfl⟩
  · cases hfire
  have hip : ip = n.ipAddress := Option.some.inj (complete_ok hn).2.1
  obtain ⟨hmem, hid⟩ := findNetblock_eq_some hrow
  obtain ⟨m, -, hm⟩ := List.mem_map.mp hmem
  split_ifs at hm with hc
  · rw [← hm, hw.host, hip]
  · exact absurd (hm ▸ hid) hc

theorem setIpAddress_ok (hwf : WellFormed db.netblock)
    (hold : findNetblock db.netblock i = some old)
    (h : db.setIpAddress schema order i ip = .ok db') : MovesTo db db' i (some ip.host) := by
  obtain ⟨s, hs, h⟩ := bind_eq_ok.mp h
  cases h
  obtain ⟨holdt, rfl⟩ := findNetblock_eq_some hold
  have hx : ∃ x, executeUpdate schema order db.netblock old { ipAddress := some (some ip) } = .ok x ∧
      s.netblock = x.netblock := by
    dsimp only [executeRange, RangeDb.tables] at hs
    rw [hold] at hs
    obtain ⟨x, hx, hs⟩ := bind_eq_ok.mp hs
    refine ⟨x, hx, ?_⟩
    split at hs
    · cases hs
      rfl
    · obtain ⟨-, hs⟩ := bind_unit_eq_ok.mp hs
      cases hs
      rfl
  obtain ⟨x, hx, hsx⟩ := hx
  have hk := executeUpdate_keepsRows hwf holdt hx
  obtain ⟨new, hnew, hhost⟩ := executeUpdate_host hwf holdt hx
  refine ⟨rfl, hsx ▸ hk.wellFormed, fun k hsome => ?_⟩
  split_ifs with hki
  · rw [hki, RangeDb.address, hsx, hnew, Option.map_some, hhost]
  · cases hr : findNetblock db.netblock k with
    | none => exact absurd (by rw [RangeDb.address, hr, Option.map_none]) hsome
    | some r =>
      obtain ⟨r', hr'⟩ := hk.find k r hr
      rw [address_eq_some hr, RangeDb.address, hsx, hr', Option.map_some,
        (hk.other k r r' hki hr hr').host]

/-- The UPDATE of an end writes the address `a`, where that is another one than the old one. -/
theorem moveEnd_ok {a : Option Inet} (hwf : WellFormed db.netblock)
    (hrow : findNetblock db.netblock i = some row)
    (ha : (newIp.map (·.host)).or (some old.ipAddress.host) = a)
    (h : moveEnd schema order db newIp (some old.ipAddress) (some i) = .ok db') :
    MovesTo db db' i (if a ≠ some old.ipAddress.host then a else db.address i) := by
  subst ha
  unfold moveEnd at h
  cases newIp with
  | none =>
    rw [if_neg (by simp [HostDiffers])] at h
    cases h
    exact .self hwf (by simp)
  | some ip =>
    by_cases hsame : ip.host = old.ipAddress.host
    · rw [if_neg (by simp [HostDiffers, hsame])] at h
      cases h
      exact .self hwf (by simp [hsame])
    · rw [if_pos (by simp [HostDiffers, hsame])] at h
      have hmoved : MovesTo db db' i (some ip.host.host) := setIpAddress_ok hwf hrow h
      rw [if_pos (by simpa using hsame)]
      exact hmoved

theorem MovesTo.address_ite {a o : Option Inet}
    (h : MovesTo db db' i (if a ≠ o then a else db.address i)) (hk : db.address k ≠ none) :
    db'.address k = if k = i ∧ a ≠ o then a else db.address k := by
  rw [h.address k hk]
  by_cases hki : k = i
  · simp only [hki, if_true, true_and]
  · simp only [hki, if_false, false_and]

/-! ## The UPDATE of the range -/

/-- The row that `update_network_range` stores. -/
def UpdateArgs.written (args : UpdateArgs) (nr : RangeRow) : RangeRow :=
  if GivesFields args then
    { nr with
      description := if args.description = some "" then none else args.description
      dnsPrefix := args.dnsPrefix
      dnsDomainId := args.dnsDomainId
      leaseTime := args.leaseTime }
  else nr

@[simp] theorem toNetworkRange_written :
    (args.written nr).toNetworkRange = nr.toNetworkRange := by
  unfold UpdateArgs.written
  split_ifs <;> rfl

theorem RangeDb.Stored.find?_networkRange (hdb : db.Stored) (hnr : nr ∈ db.networkRange)
    (hid : nr.networkRangeId = i) : db.networkRange.find? (·.networkRangeId = i) = some nr :=
  Library.find?_eq_some_of_unique hnr hid fun nr' hnr' hid' =>
    hdb.pk nr' hnr' nr hnr (hid'.trans hid.symm)

theorem mem_replaceRow (hnr : nr ∈ db.networkRange) (hid : nr.networkRangeId = new.networkRangeId) :
    nr' ∈ (db.replaceRow new).networkRange ↔
      nr' = new ∨ nr' ∈ db.networkRange ∧ nr'.networkRangeId ≠ new.networkRangeId := by
  rw [replaceRow, List.mem_map]
  constructor
  · rintro ⟨r, hr, rfl⟩
    split_ifs with hc
    · exact Or.inl rfl
    · exact Or.inr ⟨hr, hc⟩
  · rintro (rfl | ⟨hr, hne⟩)
    · exact ⟨nr, hnr, if_pos hid⟩
    · exact ⟨nr', hr, if_neg hne⟩

section

variable (hdb : db.Stored) (hnr : nr ∈ db.networkRange)
include hdb hnr

theorem writeFields_ok (hid : nr.networkRangeId = args.networkRangeId)
    (hranges : db₂.networkRange = db.networkRange) (h : db₂.writeFields args = .ok db') :
    (∀ k, db'.address k = db₂.address k) ∧ ∀ nr', nr' ∈ db'.networkRange ↔
      nr' = args.written nr ∨ nr' ∈ db.networkRange ∧ nr'.networkRangeId ≠ nr.networkRangeId := by
  have hfind : db₂.networkRange.find? (·.networkRangeId = args.networkRangeId) = some nr := by
    rw [hranges, hdb.find?_networkRange hnr hid]
  unfold writeFields at h
  by_cases hg : GivesFields args
  · rw [if_pos hg] at h
    unfold updateFields at h
    rw [hfind] at h
    obtain ⟨-, h⟩ := bind_unit_eq_ok.mp h
    obtain ⟨-, h⟩ := bind_unit_eq_ok.mp h
    cases h
    refine ⟨fun k => rfl, fun nr' => ?_⟩
    have hnr₂ : nr ∈ db₂.networkRange := hranges ▸ hnr
    rw [UpdateArgs.written, if_pos hg, ← hranges]
    exact mem_replaceRow hnr₂ rfl
  · rw [if_neg hg] at h
    cases h
    refine ⟨fun k => rfl, fun nr' => ?_⟩
    rw [UpdateArgs.written, if_neg hg, hranges]
    constructor
    · intro hr
      by_cases hc : nr'.networkRangeId = nr.networkRangeId
      · exact Or.inl (hdb.pk nr' hr nr hnr hc)
      · exact Or.inr ⟨hr, hc⟩
    · rintro (rfl | ⟨hr, -⟩)
      · exact hnr
      · exact hr

/-! ## The call -/

theorem RangeDb.Stored.ends :
    (∃ p, findNetblock db.netblock nr.parentNetblockId = some p) ∧
      (∃ a, findNetblock db.netblock nr.startNetblockId = some a) ∧
      ∃ b, findNetblock db.netblock nr.stopNetblockId = some b :=
  checkRangeKeys_ok (hdb.keys nr hnr)

theorem updateNetworkRange_ok (hid : nr.networkRangeId = args.networkRangeId)
    (h : db.updateNetworkRange schema orders args = .ok db') :
    (∀ k, db.address k ≠ none → db'.address k =
      if k = nr.stopNetblockId ∧ newStop args db nr ≠ db.address nr.stopNetblockId then
        newStop args db nr
      else if k = nr.startNetblockId ∧ newStart args db nr ≠ db.address nr.startNetblockId then
        newStart args db nr
      else db.address k) ∧
    ∀ nr', nr' ∈ db'.networkRange ↔
      nr' = args.written nr ∨ nr' ∈ db.networkRange ∧ nr'.networkRangeId ≠ nr.networkRangeId := by
  obtain ⟨⟨p, hp⟩, ⟨a, ha⟩, b, hb⟩ := hdb.ends hnr
  have hview : db.vNetworkRangeExpanded args.networkRangeId = some (nr.expanded p a b) := by
    rw [vNetworkRangeExpanded, hdb.find?_networkRange hnr hid]
    simp [hp, ha, hb]
  unfold updateNetworkRange at h
  rw [hview] at h
  obtain ⟨-, h⟩ := bind_unit_eq_ok.mp h
  obtain ⟨-, h⟩ := bind_unit_eq_ok.mp h
  obtain ⟨nbcheck, -, h⟩ := bind_eq_ok.mp h
  obtain ⟨-, h⟩ := bind_unit_eq_ok.mp h
  obtain ⟨db₁, h₁, h⟩ := bind_eq_ok.mp h
  obtain ⟨db₂, h₂, h⟩ := bind_eq_ok.mp h
  have haddrA := address_eq_some ha
  have haddrB := address_eq_some hb
  have hstart : newStart args db nr ≠ none := by simp [newStart, haddrA]
  have hm₁ := moveEnd_ok (a := newStart args db nr) hdb.netblock ha (by rw [newStart, haddrA]) h₁
  obtain ⟨row, hrow⟩ := hm₁.find (by split_ifs <;> simp [hstart, haddrA])
    (by simp [haddrB] : db.address nr.stopNetblockId ≠ none)
  have hm₂ := moveEnd_ok (a := newStop args db nr) hm₁.wellFormed hrow (by rw [newStop, haddrB]) h₂
  have hranges : db₂.networkRange = db.networkRange := by
    rw [hm₂.rest, hm₁.rest]
  obtain ⟨haddr, hrows⟩ := writeFields_ok hdb hnr hid hranges h
  refine ⟨fun k hk => ?_, hrows⟩
  have hk₁ : db₁.address k ≠ none := by
    obtain ⟨row, hrow⟩ := hm₁.find (by split_ifs <;> simp [hstart, haddrA]) hk
    rw [address_eq_some hrow]
    simp
  rw [haddr, hm₂.address_ite hk₁, hm₁.address_ite hk, haddrA, haddrB]

end

/-- The addresses after the call, as `updateNetworkRange_ok` has them. -/
def EndsMoved (args : UpdateArgs) (db db' : RangeDb) (nr : RangeRow) : Prop :=
  ∀ k, db.address k ≠ none → db'.address k =
    if k = nr.stopNetblockId ∧ newStop args db nr ≠ db.address nr.stopNetblockId then
      newStop args db nr
    else if k = nr.startNetblockId ∧ newStart args db nr ≠ db.address nr.startNetblockId then
      newStart args db nr
    else db.address k

/-- A netblock keeps its address when it is not an end that moves. -/
theorem EndsMoved.eq_iff (h : EndsMoved args db db' nr) (hk : db.address k ≠ none) :
    db'.address k = db.address k ↔
      ¬ (k = nr.stopNetblockId ∧ newStop args db nr ≠ db.address nr.stopNetblockId) ∧
      ¬ (k = nr.startNetblockId ∧ newStart args db nr ≠ db.address nr.startNetblockId) := by
  rw [h k hk]
  split_ifs with hstop hstart
  · obtain ⟨rfl, hne⟩ := hstop
    exact ⟨fun heq => absurd heq hne, fun hnot => absurd ⟨rfl, hne⟩ hnot.1⟩
  · obtain ⟨rfl, hne⟩ := hstart
    exact ⟨fun heq => absurd heq hne, fun hnot => absurd ⟨rfl, hne⟩ hnot.2⟩
  · exact ⟨fun _ => ⟨hstop, hstart⟩, fun _ => rfl⟩

theorem eq_of_not_moved {a b : Option Inet} (h : ¬ (k = k ∧ a ≠ b)) : a = b := by
  simpa using h

/-- The ends of the range are where they should be, if the two are moved together. -/
theorem EndsMoved.range_iff (h : EndsMoved args db db' nr)
    (hstart : db.address nr.startNetblockId ≠ none) (hstop : db.address nr.stopNetblockId ≠ none) :
    db'.address nr.startNetblockId = newStart args db nr ∧
      db'.address nr.stopNetblockId = newStop args db nr ↔
    (nr.startNetblockId = nr.stopNetblockId → newStart args db nr = newStop args db nr) := by
  by_cases heq : nr.startNetblockId = nr.stopNetblockId
  · -- both are the one address that the netblock has
    rw [heq]
    refine ⟨fun hends _ => hends.1.symm.trans hends.2, fun htogether => ?_⟩
    have hone := htogether rfl
    have hb := h _ hstop
    rw [heq, hone] at hb
    rw [hone, and_self, hb]
    split_ifs with hc
    · rfl
    · exact (eq_of_not_moved hc).symm
  · -- each is written by its own UPDATE
    have ha := h _ hstart
    have hb := h _ hstop
    rw [if_neg fun hc => heq hc.1] at ha
    rw [ha, hb, if_neg (fun hc : nr.stopNetblockId = nr.startNetblockId ∧ _ => heq hc.1.symm)]
    refine ⟨fun _ hc => absurd hc heq, fun _ => ⟨?_, ?_⟩⟩
    · split_ifs with hc
      · rfl
      · exact (eq_of_not_moved hc).symm
    · split_ifs with hc
      · rfl
      · exact (eq_of_not_moved hc).symm

theorem eq_or_iff {α : Type*} {x y : Option α} : x = x.or y ↔ (x = none → y = none) := by
  cases x with
  | none => simp [eq_comm]
  | some a => simp

theorem eq_getD_iff {p : Option ℕ} {n : ℕ} : n = p.getD n ↔ ∀ m ∈ p, m = n := by
  cases p with
  | none => simp
  | some m => simp [eq_comm]

theorem written_columns_iff :
    (args.written nr).parentNetblockId = args.parentNetblockId.getD nr.parentNetblockId ∧
      (args.written nr).description =
        (if args.description = some "" then none else args.description.or nr.description) ∧
      (args.written nr).dnsPrefix = args.dnsPrefix.or nr.dnsPrefix ∧
      (args.written nr).dnsDomainId = args.dnsDomainId.or nr.dnsDomainId ∧
      (args.written nr).leaseTime = args.leaseTime.or nr.leaseTime ↔
    GivesAllFields args nr ∧ KeepsParent args nr := by
  rw [toNetworkRange_written, eq_getD_iff, and_comm, GivesAllFields, KeepsParent]
  refine and_congr_left fun _ => ?_
  unfold UpdateArgs.written
  by_cases hg : GivesFields args
  · have hdesc : ((if args.description = some "" then none else args.description) =
        if args.description = some "" then none else args.description.or nr.description) ↔
          (args.description = none → nr.description = none) := by
      by_cases hempty : args.description = some ""
      · simp [hempty]
      · rw [if_neg hempty, if_neg hempty, eq_or_iff]
    rw [if_pos hg]
    simp only [hdesc, eq_or_iff, hg, true_implies]
  · simp only [GivesFields, not_or, not_not] at hg
    obtain ⟨h₁, h₂, h₃, h₄⟩ := hg
    simp [GivesFields, h₁, h₂, h₃, h₄]

/-- **The calls that change what they should.**  A call that succeeds leaves the other ranges alone
and gives the range the values passed, and no others, exactly when it moves only the ends of the
range, passes all of the columns or none, and no other parent. -/
theorem changesOnly_iff (hdb : db.Stored) (hnr : nr ∈ db.networkRange)
    (hid : nr.networkRangeId = args.networkRangeId)
    (h : db.updateNetworkRange schema orders args = .ok db') :
    ChangesOnly args db db' ↔
      MovesOwnEnds args db nr ∧ GivesAllFields args nr ∧ KeepsParent args nr := by
  obtain ⟨hmoved, hrows⟩ := updateNetworkRange_ok hdb hnr hid h
  replace hmoved : EndsMoved args db db' nr := hmoved
  have hends : ∀ {r}, r ∈ db.networkRange →
      db.address r.startNetblockId ≠ none ∧ db.address r.stopNetblockId ≠ none := by
    intro r hr
    obtain ⟨-, ⟨a, ha⟩, b, hb⟩ := hdb.ends hr
    simp [address_eq_some ha, address_eq_some hb]
  have hrange := hmoved.range_iff (hends hnr).1 (hends hnr).2
  have hwid : (args.written nr).networkRangeId = nr.networkRangeId := by simp
  constructor
  · intro hc
    obtain ⟨nr', hnr', ht⟩ := hc.range nr hnr hid
    obtain rfl : nr' = args.written nr := by
      rcases (hrows nr').mp hnr' with rfl | ⟨-, hne⟩
      · rfl
      · exact absurd ht.networkRangeId hne
    have hstart := ht.startIpAddress
    have hstop := ht.stopIpAddress
    simp only [toNetworkRange_written] at hstart hstop
    refine ⟨⟨fun hne other hother ho => ?_, fun hne other hother ho => ?_,
      hrange.mp ⟨hstart, hstop⟩⟩, written_columns_iff.mp ⟨ht.parentNetblockId, ht.description,
        ht.dnsPrefix, ht.dnsDomainId, ht.leaseTime⟩⟩
    · have hsame := hc.ends other hother (hid ▸ ho)
      rw [hmoved.eq_iff (hends hother).1, hmoved.eq_iff (hends hother).2] at hsame
      rintro (hi | hi)
      · exact hsame.1.2 ⟨hi, hne⟩
      · exact hsame.2.2 ⟨hi, hne⟩
    · have hsame := hc.ends other hother (hid ▸ ho)
      rw [hmoved.eq_iff (hends hother).1, hmoved.eq_iff (hends hother).2] at hsame
      rintro (hi | hi)
      · exact hsame.1.1 ⟨hi, hne⟩
      · exact hsame.2.1 ⟨hi, hne⟩
  · rintro ⟨hown, hfields⟩
    obtain ⟨hparent, hdesc, hprefix, hdomain, hlease⟩ := written_columns_iff.mpr hfields
    obtain ⟨hstart, hstop⟩ := hrange.mpr hown.together
    refine ⟨fun r hr => ?_, fun other hother ho => ?_, fun r hr hrid => ?_⟩
    · rw [hrows]
      refine ⟨?_, fun hmem => Or.inr ⟨hmem, hid ▸ hr⟩⟩
      rintro (rfl | ⟨hmem, -⟩)
      · exact absurd (hwid.trans hid) hr
      · exact hmem
    · rw [← hid] at ho
      rw [hmoved.eq_iff (hends hother).1, hmoved.eq_iff (hends hother).2]
      exact ⟨⟨fun hc => hown.stop hc.2 other hother ho (Or.inl hc.1),
          fun hc => hown.start hc.2 other hother ho (Or.inl hc.1)⟩,
        fun hc => hown.stop hc.2 other hother ho (Or.inr hc.1),
        fun hc => hown.start hc.2 other hother ho (Or.inr hc.1)⟩
    · obtain rfl := hdb.pk r hr nr hnr (hrid.trans hid.symm)
      refine ⟨_, (hrows _).mpr (Or.inl rfl), ?_⟩
      exact {
        networkRangeId := hwid
        networkRangeType := by simp
        startIpAddress := by simpa using hstart
        stopIpAddress := by simpa using hstop
        parentNetblockId := hparent
        description := hdesc
        dnsPrefix := hprefix
        dnsDomainId := hdomain
        leaseTime := hlease }

/-- **What a call changes.**  A call that succeeds, and moves only the ends of the range, passes all
of the columns or none, and no other parent, leaves the other ranges alone, and the range has the
values passed for it, and the old ones for those that are not passed. -/
theorem updateNetworkRange_changesOnly (hdb : db.Stored) (hnr : nr ∈ db.networkRange)
    (hid : nr.networkRangeId = args.networkRangeId)
    (h : db.updateNetworkRange schema orders args = .ok db') (hown : MovesOwnEnds args db nr)
    (hfields : GivesAllFields args nr) (hparent : KeepsParent args nr) : ChangesOnly args db db' :=
  (changesOnly_iff hdb hnr hid h).mpr ⟨hown, hfields, hparent⟩

/-- Two ranges that `create_network_range` makes, the second one where the first one ends. -/
def endToEnd : RangeDb where
  netblock := [⟨1, .v4 10 0 0 0 24, "default", false, false, none, 0⟩,
    ⟨20, .v4 10 0 0 20 32, "network_range", true, false, none, 0⟩,
    ⟨30, .v4 10 0 0 30 32, "network_range", true, false, none, 0⟩,
    ⟨40, .v4 10 0 0 40 32, "network_range", true, false, none, 0⟩]
  networkRange := [⟨⟨1, "dhcp_lease_pool", 1, 20, 30⟩, some "lab", none, none, none⟩,
    ⟨⟨2, "reserved", 1, 30, 40⟩, some "door", none, none, none⟩]
  valNetworkRangeType := [⟨"dhcp_lease_pool", some "network_range", false, false⟩,
    ⟨"reserved", some "network_range", false, false⟩]
  dnsDomainRequired := []
  dnsDomain := []

/-- When the end of the first range moves, the second one begins elsewhere, and the description that
is not passed is gone. -/
example : (do
    let db ← endToEnd.updateNetworkRange .initial (.asIs, .asIs)
      { networkRangeId := 1
        stopIpAddress := some (.v4 10 0 0 35 32)
        leaseTime := some 3600 }
    .ok (db.networkRange.map fun (nr : RangeRow) =>
      (db.address nr.startNetblockId, nr.description))) =
    .ok [(some (.v4 10 0 0 20 32), none), (some (.v4 10 0 0 35 32), some "door")] := rfl

theorem stored_endToEnd : endToEnd.Stored where
  netblock := by decide
  pk := by decide
  keys := by decide

/-- The first range begins later, and has a lease time. -/
def laterStart : UpdateArgs where
  networkRangeId := 1
  startIpAddress := some (.v4 10 0 0 25 32)
  description := some "lab"
  leaseTime := some 3600

theorem updateNetworkRange_changesOnly_laterStart : ∃ db',
    endToEnd.updateNetworkRange .initial (.asIs, .asIs) laterStart = .ok db' ∧
      ChangesOnly laterStart endToEnd db' := by
  obtain ⟨db', h⟩ : ∃ db',
      endToEnd.updateNetworkRange .initial (.asIs, .asIs) laterStart = .ok db' := ⟨_, rfl⟩
  refine ⟨db', h, updateNetworkRange_changesOnly stored_endToEnd List.mem_cons_self rfl h ?_ ?_ ?_⟩
  · exact ⟨fun _ => by simp [endToEnd, NetworkRange.EndsAt], fun hne => absurd rfl hne,
      fun heq => absurd heq (by decide)⟩
  · exact fun _ => by simp [laterStart]
  · simp [KeepsParent, laterStart]

/-- An empty description is passed, and the range has none. -/
theorem updateNetworkRange_empty_description : (do
    let db ← endToEnd.updateNetworkRange .initial (.asIs, .asIs)
      { networkRangeId := 1, description := some "" }
    .ok (db.networkRange.map fun (nr : RangeRow) => (nr.networkRangeId, nr.description))) =
    .ok [(1, none), (2, some "door")] := rfl

end JazzHands

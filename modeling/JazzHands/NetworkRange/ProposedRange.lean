import JazzHands.NetworkRange.Manip
import JazzHands.NetworkRange.Overlap

/-!
# The overlap error of `validate_network_range`

* `shares_iff`: it shares an address when it holds an end of the proposed range, or lies inside it.
-/

namespace JazzHands

open Library Postgres RangeDb

/-- The arguments propose the range from `start` to `stop`, of an existing type, which is the one
that the range has if there is one, and at least one of its ends is new. -/
structure Proposes (db : RangeDb) (args : ValidateArgs) (current : VNetworkRangeExpanded)
    (nrt : NetworkRangeType) (start stop : Inet) : Prop where
  currentRange : db.currentRange args.networkRangeId = .ok current
  type_kept : ∀ nrType ∈ args.networkRangeType, ∀ old ∈ current.networkRangeType, nrType = old
  type_exists : (args.networkRangeType.or current.networkRangeType).bind db.tables.nrt = some nrt
  startIpAddress : args.startIpAddress = some start
  stopIpAddress : args.stopIpAddress = some stop
  new_ends : some start ≠ current.startIpAddress ∨ some stop ≠ current.stopIpAddress
  ordered : start.host.le stop.host

section

variable (db : RangeDb) (nrId : Option ℕ) (networkRangeType : String)

/-- Another range of the type, with the places of its ends, is so. -/
def OtherRange (P : ℕ × ℕ → Prop) : Prop :=
  ∃ nr ∈ db.networkRange, some nr.networkRangeId ≠ nrId ∧ nr.networkRangeType = networkRangeType ∧
    ∃ startnb ∈ findNetblock db.netblock nr.startNetblockId,
      ∃ stopnb ∈ findNetblock db.netblock nr.stopNetblockId, P (interval startnb stopnb)

/-- Another range has an address in common with `start..stop`. -/
def Shares (start stop : Inet) : Prop :=
  OtherRange db nrId networkRangeType fun i => Meets (start.position, stop.position) i

/-- Another range has `start` or `stop` in it. -/
def HoldsEnd (start stop : Inet) : Prop :=
  OtherRange db nrId networkRangeType fun i => EndIn (start.position, stop.position) i

/-- Another range, with its ends in order, has neither of them, but lies between them. -/
def LiesInside (start stop : Inet) : Prop :=
  OtherRange db nrId networkRangeType fun i =>
    i.1 ≤ i.2 ∧ Inside i (start.position, stop.position)

end

variable {db : RangeDb} {args : ValidateArgs} {current proposed : VNetworkRangeExpanded}
  {nrt : NetworkRangeType} {start stop : Inet} {nrId : Option ℕ} {τ : String}

theorem shares_iff (hle : start.position ≤ stop.position) : Shares db nrId τ start stop ↔
    HoldsEnd db nrId τ start stop ∨ LiesInside db nrId τ start stop := by
  constructor
  · rintro ⟨nr, hnr, hid, hτ, a, ha, b, hb, x, hx, hxa, hxb⟩
    have hab : (interval a b).1 ≤ (interval a b).2 := hxa.trans hxb
    rcases (meets_iff hle hab).mp ⟨x, hx, hxa, hxb⟩ with hend | hinside
    · exact Or.inl ⟨nr, hnr, hid, hτ, a, ha, b, hb, hend⟩
    · exact Or.inr ⟨nr, hnr, hid, hτ, a, ha, b, hb, hab, hinside⟩
  · rintro (⟨nr, hnr, hid, hτ, a, ha, b, hb, hend⟩ | ⟨nr, hnr, hid, hτ, a, ha, b, hb, hab, hinside⟩)
    · exact ⟨nr, hnr, hid, hτ, a, ha, b, hb, hend.meets hle⟩
    · exact ⟨nr, hnr, hid, hτ, a, ha, b, hb, (meets_iff hle hab).mpr (Or.inr hinside)⟩

/-! ## The parts of the function -/

@[simp] theorem networkRangeType_proposeStart (s : Option Inet) :
    (proposeStart s proposed).networkRangeType = proposed.networkRangeType := by
  unfold proposeStart
  split <;> rfl

@[simp] theorem startIpAddress_proposeStart (s : Option Inet) :
    (proposeStart s proposed).startIpAddress = s := by
  unfold proposeStart
  split
  · rfl
  · next h => exact (not_not.mp h).symm

@[simp] theorem networkRangeType_proposeStop (s : Option Inet) :
    (proposeStop s proposed).networkRangeType = proposed.networkRangeType := by
  unfold proposeStop
  split <;> rfl

@[simp] theorem startIpAddress_proposeStop (s : Option Inet) :
    (proposeStop s proposed).startIpAddress = proposed.startIpAddress := by
  unfold proposeStop
  split <;> rfl

@[simp] theorem stopIpAddress_proposeStop (s : Option Inet) :
    (proposeStop s proposed).stopIpAddress = s := by
  unfold proposeStop
  split
  · rfl
  · next h => exact (not_not.mp h).symm

@[simp] theorem networkRangeType_proposeParent (p : Option ℕ) :
    (proposeParent p proposed).networkRangeType = proposed.networkRangeType := by
  unfold proposeParent
  split <;> rfl

@[simp] theorem startIpAddress_proposeParent (p : Option ℕ) :
    (proposeParent p proposed).startIpAddress = proposed.startIpAddress := by
  unfold proposeParent
  split <;> rfl

@[simp] theorem stopIpAddress_proposeParent (p : Option ℕ) :
    (proposeParent p proposed).stopIpAddress = proposed.stopIpAddress := by
  unfold proposeParent
  split <;> rfl

theorem Proposes.proposedRange (h : Proposes db args current nrt start stop) :
    ∃ proposed, db.proposedRange args current = .ok (proposed, nrt) ∧
      proposed.networkRangeType = some nrt.networkRangeType ∧
      proposed.startIpAddress = some start ∧ proposed.stopIpAddress = some stop := by
  obtain ⟨τ, hτ, hnrt⟩ := Option.bind_eq_some_iff.mp h.type_exists
  have hname : nrt.networkRangeType = τ := (Library.of_find?_eq_some hnrt).2
  have hkept : raiseIf (∃ nrType ∈ args.networkRangeType, ∃ old ∈ current.networkRangeType,
      nrType ≠ old) .checkViolation "network_range_type may not be changed" = .ok () := by
    rw [raiseIf_eq_ok]
    rintro ⟨nrType, hnew, old, hold, hne⟩
    exact hne (h.type_kept nrType hnew old hold)
  refine ⟨proposeParent args.parentNetblockId (proposeStop args.stopIpAddress
    (proposeStart args.startIpAddress { current with networkRangeType := some τ })), ?_, ?_, ?_, ?_⟩
  · simp only [RangeDb.proposedRange, hkept, hτ, Option.bind_some, hnrt, bind_unit_eq_ok, true_and,
      raiseIf_eq_ok, and_true]
    simp [h.startIpAddress, h.stopIpAddress]
  · simp [hname]
  · simp [h.startIpAddress]
  · simp [h.stopIpAddress]

/-! ## The error -/

section

variable (hτ : proposed.networkRangeType = some τ) (hstart : proposed.startIpAddress = some start)
  (hstop : proposed.stopIpAddress = some stop)
include hτ hstart hstop

theorem exists_temprange_iff :
    (∃ nr ∈ db.networkRange, Temprange db nrId proposed nr) ↔ HoldsEnd db nrId τ start stop := by
  refine exists_congr fun nr => and_congr_right fun _ => and_congr_right fun _ => ?_
  rw [hτ, hstart, hstop]
  simp only [Option.some.injEq, Option.mem_def, exists_eq_left', HostEndIn, EndIn, Inet.le_host_iff,
    interval]

/-- Where the ends are not both as they were, and for a type that allows overlaps the last one is
not, the function looks for a range that has an end of the new one. -/
theorem checkOverlap_eq_error_iff :
    db.checkOverlap nrId current proposed nrt = raise .checkViolation overlapMessage ↔
      (nrt.canOverlap = false ∧ some start ≠ current.startIpAddress ∨
        some stop ≠ current.stopIpAddress) ∧ HoldsEnd db nrId τ start stop := by
  rw [← exists_temprange_iff hτ hstart hstop, checkOverlap, hstart, hstop]
  by_cases hguard : nrt.canOverlap = false ∧ some start ≠ current.startIpAddress ∨
      some stop ≠ current.stopIpAddress
  · rw [if_pos hguard, raise, raiseIf_eq_error]
    simp only [and_true, hguard, true_and]
  · rw [if_neg hguard]
    simp [hguard, raise]

end

section

variable {e : SqlState} {m : String}

theorem raise_ne_overlap {α : Type} (hm : m ≠ overlapMessage) :
    (raise e m : Result α) ≠ raise .checkViolation overlapMessage := by
  intro h
  exact hm (congrArg PgError.message (Except.error.inj h))

theorem raiseIf_ne_overlap {cond : Prop} [Decidable cond] (hm : m ≠ overlapMessage) :
    raiseIf cond e m ≠ raise .checkViolation overlapMessage := by
  intro h
  obtain ⟨-, heq⟩ := raiseIf_eq_error.mp h
  exact hm (congrArg PgError.message heq).symm

end

/-- No error on the parent has the text of the one about overlaps. -/
theorem parentOf_ne_overlap {p : Option ℕ} :
    db.parentOf p start ≠ raise .checkViolation overlapMessage := by
  unfold RangeDb.parentOf
  split
  · split
    · simp [raise]
    · exact raise_ne_overlap (by decide)
  · split
    · simp [raise]
    · exact raise_ne_overlap (by decide)

theorem checkParent_ne_overlap {par : Netblock} :
    checkParent par start stop ≠ raise .checkViolation overlapMessage := by
  intro h
  rcases bind_eq_error.mp h with h | ⟨-, -, h⟩
  · exact raiseIf_ne_overlap (by decide) h
  rcases bind_eq_error.mp h with h | ⟨-, -, h⟩
  · exact raiseIf_ne_overlap (by decide) h
  rcases bind_eq_error.mp h with h | ⟨-, -, h⟩
  · exact raiseIf_ne_overlap (by decide) h
  · exact raiseIf_ne_overlap (by decide) h

/-- The function raises the error when the query for an overlap finds a range. -/
theorem validateNetworkRange_eq_overlap_iff (h : Proposes db args current nrt start stop) :
    db.validateNetworkRange args = raise .checkViolation overlapMessage ↔
      (nrt.canOverlap = false ∧ some start ≠ current.startIpAddress ∨
        some stop ≠ current.stopIpAddress) ∧
      HoldsEnd db args.networkRangeId nrt.networkRangeType start stop := by
  obtain ⟨proposed, hproposed, hτ, hstart, hstop⟩ := h.proposedRange
  rw [← checkOverlap_eq_error_iff hτ hstart hstop]
  unfold RangeDb.validateNetworkRange
  rw [h.currentRange, h.startIpAddress, h.stopIpAddress]
  constructor
  · intro hv
    rcases bind_eq_error.mp hv with hv | ⟨c, hc, hv⟩
    · cases hv
    cases hc
    rw [hproposed] at hv
    rcases bind_eq_error.mp hv with hv | ⟨x, hx, hv⟩
    · cases hv
    cases hx
    rcases bind_eq_error.mp hv with hv | ⟨-, -, hv⟩
    · exact hv
    -- the later errors are others
    rcases bind_eq_error.mp hv with hv | ⟨par, -, hv⟩
    · exact absurd hv parentOf_ne_overlap
    rcases bind_eq_error.mp hv with hv | ⟨-, -, hv⟩
    · exact absurd hv checkParent_ne_overlap
    · cases hv
  · intro hv
    refine bind_eq_error.mpr (Or.inr ⟨current, rfl, ?_⟩)
    rw [hproposed]
    exact bind_eq_error.mpr (Or.inr ⟨_, rfl, bind_eq_error.mpr (Or.inl hv)⟩)

/-- The error is right, which is that the type does not allow overlaps and another range of it
shares an address, except for two kinds of proposals.  A type that allows overlaps has it too, where
the last address is new, and a range that lies inside the proposed one is not found. -/
theorem validateNetworkRange_overlap_iff (h : Proposes db args current nrt start stop) :
    (db.validateNetworkRange args = raise .checkViolation overlapMessage ↔
      nrt.canOverlap = false ∧
        Shares db args.networkRangeId nrt.networkRangeType start stop) ↔
    ¬ (nrt.canOverlap = true ∧ some stop ≠ current.stopIpAddress ∧
        HoldsEnd db args.networkRangeId nrt.networkRangeType start stop) ∧
    ¬ (nrt.canOverlap = false ∧
        LiesInside db args.networkRangeId nrt.networkRangeType start stop ∧
        ¬ HoldsEnd db args.networkRangeId nrt.networkRangeType start stop) := by
  rw [validateNetworkRange_eq_overlap_iff h, shares_iff (Inet.le_host_iff.mp h.ordered)]
  have hnew := h.new_ends
  cases nrt.canOverlap with
  | true => simp
  | false =>
    simp
    tauto

/-- A pool with a range from `10.0.0.20` to `10.0.0.30`. -/
def pool (canOverlap : Bool) : RangeDb where
  netblock := [⟨1, .v4 10 0 0 0 24, "default", false, false, none, 0⟩,
    ⟨20, .v4 10 0 0 20 32, "network_range", true, false, none, 0⟩,
    ⟨30, .v4 10 0 0 30 32, "network_range", true, false, none, 0⟩]
  networkRange := [⟨⟨1, "dhcp_lease_pool", 1, 20, 30⟩, none, none, none, none⟩]
  valNetworkRangeType := [⟨"dhcp_lease_pool", some "network_range", canOverlap, false⟩]
  dnsDomainRequired := [("dhcp_lease_pool", "PROHIBITED")]
  dnsDomain := []

/-- A new range of the pool. -/
def newRange (start stop : Fin 256) : ValidateArgs where
  startIpAddress := some (.v4 10 0 0 start 32)
  stopIpAddress := some (.v4 10 0 0 stop 32)
  networkRangeType := some "dhcp_lease_pool"

/-- A range that begins in the old one is turned down, as it should be. -/
theorem validateNetworkRange_overlap_pool :
    (pool false).validateNetworkRange (newRange 25 35) = raise .checkViolation overlapMessage ↔
      false = false ∧
        Shares (pool false) none "dhcp_lease_pool" (.v4 10 0 0 25 32) (.v4 10 0 0 35 32) := by
  have hproposes : Proposes (pool false) (newRange 25 35) {}
      ⟨"dhcp_lease_pool", some "network_range", false, false⟩ (.v4 10 0 0 25 32)
      (.v4 10 0 0 35 32) :=
    { currentRange := rfl
      type_kept := by simp
      type_exists := rfl
      startIpAddress := rfl
      stopIpAddress := rfl
      new_ends := by simp
      ordered := by decide }
  refine (validateNetworkRange_overlap_iff hproposes).mpr ⟨by simp, fun h => h.2.2 ?_⟩
  exact ⟨_, List.mem_singleton_self _, by decide, rfl, _, rfl, _, rfl, Or.inl (by decide)⟩

/-- A type that allows overlaps gets the error, and a range around the old one does not. -/
theorem validateNetworkRange_overlap_wrong :
    (pool true).validateNetworkRange (newRange 25 35) = raise .checkViolation overlapMessage ∧
    (pool false).validateNetworkRange (newRange 10 40) ≠ raise .checkViolation overlapMessage ∧
    Shares (pool false) none "dhcp_lease_pool" (.v4 10 0 0 10 32) (.v4 10 0 0 40 32) := by
  refine ⟨by rfl, ?_, ?_⟩
  · intro h
    cases h
  · exact ⟨_, List.mem_singleton_self _, by decide, rfl, _, rfl, _, rfl,
      (Inet.v4 10 0 0 20 32).position, by decide, by decide⟩

end JazzHands

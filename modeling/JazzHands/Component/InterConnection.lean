import JazzHands.Library.Runs
import JazzHands.Postgres.Query
import JazzHands.Postgres.RowStatement
import Mathlib.Data.List.Pairwise

/-!
# Connections between slots

The table `inter_component_connection`, with `validate_inter_component_connection` of
`create_component_triggers.sql`.

The circuit of a connection is left out, which nothing here reads.
-/

namespace JazzHands.Component

open Library Postgres RowStatement

structure Connection where
  interComponentConnectionId : ℕ
  slot1Id : ℕ
  slot2Id : ℕ

structure Slot where
  slotId : ℕ
  componentId : ℕ
  slotTypeId : ℕ

structure SlotType where
  slotTypeId : ℕ
  slotFunction : String

structure PermittedRemote where
  slotTypeId : ℕ
  remoteSlotTypeId : ℕ

/-- The tables that say which slots go together. -/
structure Slots where
  slot : List Slot
  slotType : List SlotType
  slotTypePermittedRemoteSlotType : List PermittedRemote

/-- `slot JOIN slot_type USING (slot_type_id)`, the rows of one slot. -/
def Slots.joined (db : Slots) (slotId : ℕ) : List (Slot × SlotType) :=
  (db.slot.filter (·.slotId = slotId)).flatMap fun cs =>
    (db.slotType.filter (·.slotTypeId = cs.slotTypeId)).map fun st => (cs, st)

/-- The connection is of one function, and its types are permitted in one order or the other. -/
def Slots.Permits (db : Slots) (new : Connection) : Prop :=
  ∃ slot1 ∈ db.joined new.slot1Id, ∃ slot2 ∈ db.joined new.slot2Id,
    slot1.2.slotFunction = slot2.2.slotFunction ∧
      ∃ pst ∈ db.slotTypePermittedRemoteSlotType,
        (slot1.2.slotTypeId = pst.slotTypeId ∧ slot2.2.slotTypeId = pst.remoteSlotTypeId) ∨
        (slot2.2.slotTypeId = pst.slotTypeId ∧ slot1.2.slotTypeId = pst.remoteSlotTypeId)
  deriving Decidable

/-! ## The trigger -/

/-- Another connection with one of the two slots. -/
def Meets (new icc : Connection) : Prop :=
  icc.interComponentConnectionId ≠ new.interComponentConnectionId ∧
    (icc.slot1Id = new.slot1Id ∨ icc.slot1Id = new.slot2Id ∨
      icc.slot2Id = new.slot1Id ∨ icc.slot2Id = new.slot2Id)
  deriving Decidable

def validateInterComponentConnection (db : Slots) (first : FirstRow (ℕ × ℕ)) (t : List Connection)
    (new : Connection) : Result Unit := do
  raiseIf (new.slot1Id = new.slot2Id) .checkViolation "A slot may not be connected to itself"
  match first.pick ((t.filter (Meets new ·)).map fun icc => (icc.slot1Id, icc.slot2Id)) with
  | none => .ok ()
  | some csidRec => do
    raiseIf (csidRec.1 = new.slot1Id) .uniqueViolation
      "slot_id % is already attached to slot_id %"
    raiseIf (csidRec.1 = new.slot2Id) .uniqueViolation
      "slot_id % is already attached to slot_id %"
    raiseIf (csidRec.2 = new.slot1Id) .uniqueViolation
      "slot_id % is already attached to slot_id %"
    raiseIf (csidRec.2 = new.slot2Id) .uniqueViolation
      "slot_id % is already attached to slot_id %"
  raiseIf (¬ db.Permits new) .checkViolation
    "Slot types are not allowed to be connected:\nSlot %, component_id %, slot_type %, slot_function %\nSlot %, component_id %, slot_type %, slot_function %"

/-! ## Statements -/

/-- The keys, with a row that comes to the others. -/
def checkKeys (others : List Connection) (new : Connection) : Result Unit := do
  checkUnique (·.interComponentConnectionId) "pk_inter_component_connection" others new
  checkUnique (·.slot1Id) "ak_inter_component_con_sl1_id" others new
  checkUnique (·.slot2Id) "ak_inter_component_con_sl2_id" others new

/-- What is checked after the statement, for each row that it wrote. -/
def checkRow (db : Slots) (first : FirstRow (ℕ × ℕ)) (t : List Connection) (new : Connection) :
    Result Unit := do
  raiseIf (∀ s ∈ db.slot, s.slotId ≠ new.slot1Id) .foreignKeyViolation
    "violates foreign key constraint fk_intercomp_conn_slot1_id"
  raiseIf (∀ s ∈ db.slot, s.slotId ≠ new.slot2Id) .foreignKeyViolation
    "violates foreign key constraint fk_intercomp_conn_slot2_id"
  validateInterComponentConnection db first t new

/-- `INSERT OR UPDATE`. -/
def constraintTriggers (db : Slots) (first : FirstRow (ℕ × ℕ)) (t : List Connection)
    (e : RowEvent Connection) : Result Unit :=
  match e.new? with
  | none => .ok ()
  | some new => checkRow db first t new

def execute (db : Slots) (first : FirstRow (ℕ × ℕ)) (t : List Connection)
    (s : RowStatement Connection) : Result (List Connection) := do
  let t' ← s.execute checkKeys t
  (s.events t).forM (constraintTriggers db first t')
  .ok t'

/-- A statement, with the tables of slots as they are then. -/
structure Input where
  statement : RowStatement Connection
  slots : Slots
  first : FirstRow (ℕ × ℕ)

/-- The table after a statement.  One that fails changes nothing. -/
def step (t : List Connection) (a : Input) : List Connection :=
  (execute a.slots a.first t a.statement).toOption.getD t

/-! ## What a check says -/

/-- The two connections have no slot in common. -/
def Apart (c d : Connection) : Prop :=
  c.slot1Id ≠ d.slot1Id ∧ c.slot1Id ≠ d.slot2Id ∧ c.slot2Id ≠ d.slot1Id ∧ c.slot2Id ≠ d.slot2Id

/-- No slot is in two connections, or twice in one. -/
structure OnceConnected (t : List Connection) : Prop where
  apart : t.Pairwise Apart
  notSelf : ∀ c ∈ t, c.slot1Id ≠ c.slot2Id

/-- The primary key. -/
def Keyed (t : List Connection) : Prop := (t.map (·.interComponentConnectionId)).Nodup

variable {db : Slots} {first : FirstRow (ℕ × ℕ)} {t t' : List Connection} {c d new : Connection}

theorem Apart.symm (h : Apart c d) : Apart d c :=
  ⟨h.1.symm, h.2.2.1.symm, h.2.1.symm, h.2.2.2.symm⟩

instance : Std.Symm Apart := ⟨fun _ _ => Apart.symm⟩

theorem not_meets_iff : ¬ Meets new c ↔
    (c.interComponentConnectionId ≠ new.interComponentConnectionId → Apart new c) := by
  rw [Meets, not_and]
  refine forall_congr' fun _ => ?_
  simp only [not_or, Apart, ne_comm (a := new.slot1Id), ne_comm (a := new.slot2Id), ne_eq]
  tauto

theorem validateInterComponentConnection_ok_iff :
    validateInterComponentConnection db first t new = .ok () ↔
      new.slot1Id ≠ new.slot2Id ∧ (∀ c ∈ t, ¬ Meets new c) ∧ db.Permits new := by
  rw [validateInterComponentConnection, bind_unit_eq_ok, raiseIf_eq_ok]
  refine and_congr_right fun _ => ?_
  cases hpick : first.pick ((t.filter (Meets new ·)).map fun icc => (icc.slot1Id, icc.slot2Id)) with
  | none =>
    have hnil := List.map_eq_nil_iff.mp (first.ne_nil hpick)
    have hnone : ∀ c ∈ t, ¬ Meets new c := fun c hc => by
      simpa using List.filter_eq_nil_iff.mp hnil c hc
    exact (raiseIf_eq_ok.trans not_not).trans (and_iff_right hnone).symm
  | some csidRec =>
    -- the row that is found raises one of the errors
    obtain ⟨icc, hicc, rfl⟩ := List.mem_map.mp (first.mem hpick)
    obtain ⟨hmem, hmeets⟩ := List.mem_filter.mp hicc
    have hmeets : Meets new icc := of_decide_eq_true hmeets
    refine iff_of_false ?_ fun hall => hall.1 icc hmem hmeets
    obtain ⟨-, hends⟩ := hmeets
    simp only [bind_unit_eq_ok, raiseIf_eq_ok]
    omega

/-- A row that passes has two slots, and shares none with the other rows. -/
theorem checkRow_ok (h : checkRow db first t new = .ok ()) :
    new.slot1Id ≠ new.slot2Id ∧ ∀ c ∈ t,
      c.interComponentConnectionId ≠ new.interComponentConnectionId → Apart new c := by
  obtain ⟨-, h⟩ := bind_unit_eq_ok.mp h
  obtain ⟨-, h⟩ := bind_unit_eq_ok.mp h
  obtain ⟨hself, hmeets, -⟩ := validateInterComponentConnection_ok_iff.mp h
  exact ⟨hself, fun c hc => not_meets_iff.mp (hmeets c hc)⟩

theorem onceConnected_of_checked (hkeyed : Keyed t') (hself : ∀ c ∈ t, c.slot1Id ≠ c.slot2Id)
    (hapart : ∀ c ∈ t, ∀ d ∈ t, c.interComponentConnectionId ≠ d.interComponentConnectionId →
      Apart c d)
    (db : Slots) (first : FirstRow (ℕ × ℕ))
    (hrows : ∀ c ∈ t', c ∈ t ∨ checkRow db first t' c = .ok ()) : OnceConnected t' where
  apart := by
    refine (List.pairwise_map.mp hkeyed).imp_of_mem fun {c d} hc hd hne => ?_
    rcases hrows c hc with hold | hnew
    · rcases hrows d hd with hold' | hnew'
      · exact hapart c hold d hold' hne
      · exact ((checkRow_ok hnew').2 c hc hne).symm
    · exact (checkRow_ok hnew).2 d hd hne.symm
  notSelf := fun c hc => (hrows c hc).elim (hself c) fun h => (checkRow_ok h).1

/-! ## Runs -/

structure Sound (t : List Connection) : Prop extends OnceConnected t where
  keyed : Keyed t

theorem Sound.apart_of_ne (h : Sound t) (hc : c ∈ t) (hd : d ∈ t)
    (hne : c.interComponentConnectionId ≠ d.interComponentConnectionId) : Apart c d :=
  h.apart.forall hc hd fun heq => hne (by rw [heq])

theorem sound_execute {s : RowStatement Connection} (hsound : Sound t)
    (h : execute db first t s = .ok t') : Sound t' := by
  obtain ⟨t₁, hrows, h⟩ := bind_eq_ok.mp h
  obtain ⟨hcheck, h⟩ := bind_unit_eq_ok.mp h
  obtain rfl := Except.ok.inj h
  have hkeyed : Keyed t₁ := by
    refine RowStatement.nodup_execute (fun l new hnew => ?_) hsound.keyed hrows
    exact checkUnique_ok (bind_unit_eq_ok.mp hnew).1
  obtain rfl := RowStatement.execute_ok hrows
  refine ⟨onceConnected_of_checked hkeyed hsound.notSelf
    (fun c hc d hd => hsound.apart_of_ne hc hd) db first fun c hc => ?_, hkeyed⟩
  rcases RowStatement.mem_after hc with hold | ⟨e, he, hnew⟩
  · exact .inl hold
  · have hpass := forM_eq_ok.mp hcheck e he
    rw [constraintTriggers, hnew] at hpass
    exact .inr hpass

theorem sound_step (hsound : Sound t) (a : Input) : Sound (step t a) := by
  unfold step
  cases h : execute a.slots a.first t a.statement with
  | error e => exact hsound
  | ok t' => exact sound_execute hsound h

/-- In every state that statements lead to, no slot is in two connections, on either side, and no
connection joins a slot to itself. -/
theorem onceConnected_run (l : List Input) : OnceConnected (run step [] l) := by
  have hstart : Sound [] :=
    ⟨⟨.nil, fun c hc => absurd hc List.not_mem_nil⟩, List.nodup_nil⟩
  have hall : AllSteps step (fun _ _ => True) [] l := allSteps_of_forall fun _ _ => trivial
  have hend : Sound (run step [] l) :=
    run_invariant (I := Sound) (fun t a hs _ => sound_step hs a) hstart hall
  exact hend.toOnceConnected

end JazzHands.Component

import JazzHands.Postgres.Error
import Mathlib.Data.Int.Order.Basic
import Mathlib.Data.List.Nodup

/-!
# Connecting two physical ports

`port_utils.configure_layer1_connect` and `port_utils.do_l1_connection_update` of `port_util.sql`,
with `layer1_connection` as a table.

The test for a new flow control looks at the parity of the connection.
-/

namespace JazzHands.PortUtils

open Postgres

abbrev Text : Type := List Char

structure PhysicalPort where
  physicalPortId : ℕ
  portType : String

structure Layer1Connection where
  layer1ConnectionId : ℕ
  physicalPort1Id : ℕ
  physicalPort2Id : ℕ
  circuitId : Option ℤ
  baud : Option ℤ
  dataBits : Option ℤ
  stopBits : Option ℤ
  parity : Option Text
  flowControl : Option Text
  tcpsrvDeviceId : Option ℕ
  isTcpsrvEnabled : Option Char
  deriving DecidableEq

@[ext] structure Connections where
  rows : List Layer1Connection
  nextval : ℕ
  nodup : (rows.map (·.layer1ConnectionId)).Nodup
  lt_nextval : ∀ c ∈ rows, c.layer1ConnectionId < nextval

/-- The arguments; `none` is NULL. -/
structure Args where
  physportid1 : ℕ
  physportid2 : ℕ
  baud : Option ℤ
  dataBits : Option ℤ
  stopBits : Option ℤ
  parity : Option Text
  flwCntrl : Option Text
  circuitId : Option ℤ

def unknownText : Text := ['_', '_', 'u', 'n', 'k', 'n', 'o', 'w', 'n', '_', '_']

/-- A parameter that is neither NULL nor the default, which stands for one that is not given. -/
def given {α : Type} [DecidableEq α] (default : α) (v : Option α) : Option α :=
  if v = some default then none else v

/-- The connection has the port on one of its sides. -/
def Layer1Connection.Touches (c : Layer1Connection) (port : ℕ) : Prop :=
  c.physicalPort1Id = port ∨ c.physicalPort2Id = port
  deriving Decidable

/-! ## The statements -/

/-- A value of type `text` is assigned to a variable of type `varchar(n)`: blanks that are too many
are cut off, and nothing else. -/
def toVarchar (n : ℕ) (s : Text) : Result Text :=
  if s.length ≤ n then .ok s
  else if (s.drop n).all (· = ' ') then .ok (s.take n)
  else raise .stringDataRightTruncation "value too long for type character varying(%)"

def quoteLiteral (s : Text) : Text :=
  (if '\\' ∈ s then ['E'] else []) ++ '\'' ::
    (s.flatMap fun c => if c = '\'' ∨ c = '\\' then [c, c] else [c]) ++ ['\'']

/-- One assignment of the `UPDATE` statement. -/
inductive Assignment where
  | physicalPort1Id (v : ℕ)
  | physicalPort2Id (v : ℕ)
  | circuitId (v : ℤ)
  | baud (v : ℤ)
  | dataBits (v : ℤ)
  | stopBits (v : ℤ)
  | parity (v : Text)
  | flowControl (v : Text)

def Layer1Connection.set (c : Layer1Connection) : Assignment → Layer1Connection
  | .physicalPort1Id v => { c with physicalPort1Id := v }
  | .physicalPort2Id v => { c with physicalPort2Id := v }
  | .circuitId v => { c with circuitId := some v }
  | .baud v => { c with baud := some v }
  | .dataBits v => { c with dataBits := some v }
  | .stopBits v => { c with stopBits := some v }
  | .parity v => { c with parity := some v }
  | .flowControl v => { c with flowControl := some v }

@[simp] theorem set_layer1ConnectionId (c : Layer1Connection) (a : Assignment) :
    (c.set a).layer1ConnectionId = c.layer1ConnectionId := by
  cases a <;> rfl

@[simp] theorem foldl_set_layer1ConnectionId (l : List Assignment) (c : Layer1Connection) :
    (l.foldl Layer1Connection.set c).layer1ConnectionId = c.layer1ConnectionId := by
  induction l generalizing c with
  | nil => rfl
  | cons a l ih => rw [List.foldl_cons, ih, set_layer1ConnectionId]

namespace Connections

/-- `INSERT ... RETURNING layer1_connection_id`. -/
def insert (t : Connections) (row : ℕ → Layer1Connection)
    (hrow : ∀ id, (row id).layer1ConnectionId = id) : Connections where
  rows := t.rows ++ [row t.nextval]
  nextval := t.nextval + 1
  nodup := by
    rw [List.map_append, List.nodup_append]
    refine ⟨t.nodup, List.nodup_singleton _, fun a ha b hb => ?_⟩
    obtain ⟨c, hc, rfl⟩ := List.mem_map.mp ha
    rw [List.map_singleton, List.mem_singleton, hrow] at hb
    rw [hb]
    exact Nat.ne_of_lt (t.lt_nextval c hc)
  lt_nextval := by
    intro c hc
    rcases List.mem_append.mp hc with hc | hc
    · exact Nat.lt_succ_of_lt (t.lt_nextval c hc)
    · rw [List.mem_singleton.mp hc, hrow]
      exact Nat.lt_succ_self _

/-- `DELETE ... WHERE layer1_connection_id = id`; with NULL nothing is deleted. -/
def delete (t : Connections) (id : Option ℕ) : Connections where
  rows := t.rows.filter fun c => id ≠ some c.layer1ConnectionId
  nextval := t.nextval
  nodup := t.nodup.sublist (List.filter_sublist.map _)
  lt_nextval := fun c hc => t.lt_nextval c (List.mem_of_mem_filter hc)

/-- `port_utils.do_l1_connection_update`; the text of a literal is read back as it was. -/
def doL1ConnectionUpdate (t : Connections) (l : List Assignment) (id : ℕ) : Connections where
  rows := t.rows.map fun c => if c.layer1ConnectionId = id then l.foldl .set c else c
  nextval := t.nextval
  nodup := by
    have hmap : (t.rows.map fun c => if c.layer1ConnectionId = id then l.foldl .set c else c).map
        (·.layer1ConnectionId) = t.rows.map (·.layer1ConnectionId) := by
      rw [List.map_map]
      refine List.map_congr_left fun c _ => ?_
      rw [Function.comp_apply]
      split
      · exact foldl_set_layer1ConnectionId l c
      · rfl
    rw [hmap]
    exact t.nodup
  lt_nextval := by
    intro c hc
    obtain ⟨d, hd, rfl⟩ := List.mem_map.mp hc
    split
    · rw [foldl_set_layer1ConnectionId]
      exact t.lt_nextval d hd
    · exact t.lt_nextval d hd

/-- `SELECT * FROM layer1_connection WHERE physical_port1_id = port OR physical_port2_id = port`. -/
def ofPort (t : Connections) (port : ℕ) : Option Layer1Connection := t.rows.find? (·.Touches port)

end Connections

/-! ## The function -/

/-- The connection that is kept, and the key of the one that is deleted, when a port has one. -/
def keep (physportid1 physportid2 : ℕ) :
    Option Layer1Connection → Option Layer1Connection → Option (Layer1Connection × Option ℕ)
  | some p1, some p2 =>
    if p1.physicalPort1Id = physportid1 then
      if p1.physicalPort2Id ≠ physportid2 then some (p1, some p2.layer1ConnectionId)
      else some (p1, none)
    -- the row was found by one of its sides, so this is the other one
    else if p1.physicalPort1Id ≠ physportid2 then
      if p2.physicalPort1Id = physportid1 then some (p2, some p1.layer1ConnectionId)
      else some (p1, some p2.layer1ConnectionId)
    else some (p1, none)
  | some p1, none => some (p1, none)
  | none, some p2 => some (p2, none)
  | none, none => none

/-- The port that has to be changed. -/
def portAssignments (l1con : Layer1Connection) (physportid1 physportid2 : ℕ) : List Assignment :=
  if (l1con.physicalPort1Id ≠ physportid1 ∨ l1con.physicalPort2Id ≠ physportid2) ∧
      (l1con.physicalPort1Id ≠ physportid2 ∨ l1con.physicalPort2Id ≠ physportid1) then
    if l1con.physicalPort1Id = physportid1 then [.physicalPort2Id physportid2]
    else if l1con.physicalPort2Id = physportid1 then [.physicalPort1Id physportid2]
    else if l1con.physicalPort1Id = physportid2 then [.physicalPort2Id physportid1]
    else if l1con.physicalPort2Id = physportid2 then [.physicalPort1Id physportid1]
    else []
  else []

/-- `IF v <> default AND (column IS NULL OR column <> v)`: the column gets the value. -/
def changed {α : Type} [DecidableEq α] (v column : Option α) (set : α → Assignment) :
    List Assignment :=
  match v with
  | none => []
  | some v => if column = some v then [] else [set v]

/-- The same for text, which is quoted and put into an array of `varchar(100)`. -/
def changedText (v column : Option Text) (set : Text → Assignment) : Result (List Assignment) :=
  match v with
  | none => .ok []
  | some v =>
    if column = some v then .ok []
    else do
      let _ ← toVarchar 100 (quoteLiteral v)
      .ok [set v]

/-- All assignments; the flow control is compared with the parity. -/
def assignments (a : Args) (l1con : Layer1Connection) : Result (List Assignment) := do
  let parity ← changedText (given unknownText a.parity) l1con.parity .parity
  let flowControl ← changedText (given unknownText a.flwCntrl) l1con.parity .flowControl
  .ok (portAssignments l1con a.physportid1 a.physportid2 ++
    changed (given (-99) a.circuitId) l1con.circuitId .circuitId ++
    changed (given (-99) a.baud) l1con.baud .baud ++
    changed (given (-99) a.dataBits) l1con.dataBits .dataBits ++
    changed (given (-99) a.stopBits) l1con.stopBits .stopBits ++ parity ++ flowControl)

/-- `i_parity` and `i_flw_cntrl`, of the type of the columns. -/
def columnText (v : Option Text) : Result (Option Text) :=
  match given unknownText v with
  | none => .ok none
  | some v => (toVarchar 255 v).map some

def newRow (a : Args) (serial : Bool) (parity flowControl : Option Text) (id : ℕ) :
    Layer1Connection where
  layer1ConnectionId := id
  physicalPort1Id := a.physportid1
  physicalPort2Id := a.physportid2
  circuitId := given (-99) a.circuitId
  baud := given (-99) a.baud
  dataBits := given (-99) a.dataBits
  stopBits := given (-99) a.stopBits
  parity := parity
  flowControl := flowControl
  tcpsrvDeviceId := none
  isTcpsrvEnabled := if serial then some 'Y' else none

/-- The function, with the number that it returns. -/
def configureLayer1Connect (physicalPort : List PhysicalPort) (t : Connections) (a : Args) :
    Result (ℕ × Connections) := do
  let portType (id : ℕ) := (physicalPort.find? (·.physicalPortId = id)).map (·.portType)
  raiseIf (∃ x ∈ portType a.physportid1, ∃ y ∈ portType a.physportid2, x ≠ y) .raiseException
    "Port Types Must match"
  match keep a.physportid1 a.physportid2 (t.ofPort a.physportid1) (t.ofPort a.physportid2) with
  | none =>
    let parity ← columnText a.parity
    let flowControl ← columnText a.flwCntrl
    let serial := portType a.physportid1 = some "serial"
    .ok (1, t.insert (newRow a serial parity flowControl) fun _ => rfl)
  | some (l1con, gone) =>
    let t := t.delete gone
    let l ← assignments a l1con
    .ok (l.length, if l = [] then t else t.doL1ConnectionUpdate l l1con.layer1ConnectionId)

/-! ## What a call is for -/

/-- Each port is on at most one side of at most one connection. -/
structure Paired (rows : List Layer1Connection) : Prop where
  sides : ∀ c ∈ rows, c.physicalPort1Id ≠ c.physicalPort2Id
  once : ∀ c ∈ rows, ∀ d ∈ rows, ∀ port, c.Touches port → d.Touches port → c = d

/-- The connection is between the two ports, in either direction. -/
def Layer1Connection.Joins (c : Layer1Connection) (p q : ℕ) : Prop :=
  c.physicalPort1Id = p ∧ c.physicalPort2Id = q ∨ c.physicalPort1Id = q ∧ c.physicalPort2Id = p

/-- The connection touches one of the two ports. -/
def Args.Involves (a : Args) (c : Layer1Connection) : Prop :=
  c.Touches a.physportid1 ∨ c.Touches a.physportid2

/-- The parameters of the call, and where they are not given those of the old connection. -/
structure HasParameters (a : Args) (old : Option Layer1Connection) (c : Layer1Connection) :
    Prop where
  circuitId : c.circuitId = (given (-99) a.circuitId).or (old.bind (·.circuitId))
  baud : c.baud = (given (-99) a.baud).or (old.bind (·.baud))
  dataBits : c.dataBits = (given (-99) a.dataBits).or (old.bind (·.dataBits))
  stopBits : c.stopBits = (given (-99) a.stopBits).or (old.bind (·.stopBits))
  parity : c.parity = (given unknownText a.parity).or (old.bind (·.parity))
  flowControl : c.flowControl = (given unknownText a.flwCntrl).or (old.bind (·.flowControl))

/-- One connection joins the two ports, which are in no other, and all others stay. -/
structure Configured (rows rows' : List Layer1Connection) (a : Args) : Prop where
  joined : ∃ c ∈ rows', c.Joins a.physportid1 a.physportid2 ∧ (∀ d ∈ rows', a.Involves d → d = c) ∧
    HasParameters a (rows.find? (·.layer1ConnectionId = c.layer1ConnectionId)) c
  others : ∀ d, ¬ a.Involves d → (d ∈ rows' ↔ d ∈ rows)

/-- The table after a call; one that fails changes nothing. -/
def after (physicalPort : List PhysicalPort) (t : Connections) (a : Args) : Connections :=
  match configureLayer1Connect physicalPort t a with
  | .ok (_, t') => t'
  | .error _ => t

/-- The connection of the first port, or of the second one where the first has none. -/
def Reused (rows : List Layer1Connection) (a : Args) (c : Layer1Connection) : Prop :=
  c ∈ rows ∧ (c.Touches a.physportid1 ∨
    c.Touches a.physportid2 ∧ ∀ d ∈ rows, ¬ d.Touches a.physportid1)

/-- A text that has to be written fits into the array. -/
def Quotable (v column : Option Text) : Prop :=
  ∀ s ∈ v, column ≠ some s → (quoteLiteral s).length ≤ 100

structure Suits (rows : List Layer1Connection) (a : Args) : Prop where
  new : (∀ c ∈ rows, ¬ a.Involves c) → ∀ s,
    s ∈ given unknownText a.parity ∨ s ∈ given unknownText a.flwCntrl → s.length ≤ 255
  parity : ∀ c, Reused rows a c → Quotable (given unknownText a.parity) c.parity
  flowControl : ∀ c, Reused rows a c → Quotable (given unknownText a.flwCntrl) c.parity
  /-- A flow control that reads like the parity is already there. -/
  same : ∀ c, Reused rows a c → ∀ f ∈ given unknownText a.flwCntrl, c.parity = some f →
    c.flowControl = some f

variable {t t' : Connections} {a : Args} {c d e : Layer1Connection} {p q id : ℕ} {s : Text}
  {gone : Option ℕ} {v column : Option Text} {l : List Assignment} {rows : List Layer1Connection}

/-! ## Text -/

theorem toVarchar_quoteLiteral :
    (∃ s', toVarchar 100 (quoteLiteral s) = .ok s') ↔ (quoteLiteral s).length ≤ 100 := by
  unfold toVarchar
  constructor
  · rintro ⟨s', h⟩
    by_contra hlong
    rw [if_neg hlong] at h
    split at h
    next hblank =>
      -- the literal ends with a quote
      have hdrop : (quoteLiteral s).drop 100 ≠ [] := by
        rw [Ne, List.drop_eq_nil_iff]
        omega
      have hlast : ((quoteLiteral s).drop 100).getLast hdrop = '\'' := by
        rw [List.getLast_drop]
        exact List.getLast_append_singleton _
      have hmem := List.getLast_mem hdrop
      rw [hlast] at hmem
      exact absurd (of_decide_eq_true (List.all_eq_true.mp hblank _ hmem)) (by decide)
    · exact absurd h raise_ne_ok
  · intro hshort
    exact ⟨_, if_pos hshort⟩

theorem toVarchar_self {n : ℕ} : toVarchar n s = .ok s ↔ s.length ≤ n := by
  unfold toVarchar
  constructor
  · intro h
    by_contra hlong
    rw [if_neg hlong] at h
    split at h
    · have hlen := congrArg List.length (Except.ok.inj h)
      rw [List.length_take] at hlen
      omega
    · exact absurd h raise_ne_ok
  · exact fun h => if_pos h

theorem changedText_eq_ok {set : Text → Assignment} :
    changedText v column set = .ok l ↔ Quotable v column ∧ l = changed v column set := by
  unfold changedText changed Quotable
  cases v with
  | none => simp [eq_comm]
  | some s =>
    dsimp only
    split
    next h => simp [h, eq_comm]
    next h =>
      simp only [bind_eq_ok, exists_and_right, toVarchar_quoteLiteral, Except.ok.injEq,
        Option.mem_some_iff, forall_eq', @eq_comm _ _ l]
      exact and_congr_left fun _ => ⟨fun hlen _ => hlen, fun hlen => hlen h⟩

/-! ## The connection that is kept -/

theorem ofPort_eq_some (h : t.ofPort p = some c) : c ∈ t.rows ∧ c.Touches p :=
  Library.of_find?_eq_some h

theorem ofPort_eq_none : t.ofPort p = none ↔ ∀ c ∈ t.rows, ¬ c.Touches p := by
  rw [Connections.ofPort, List.find?_eq_none]
  simp only [decide_eq_true_eq]

/-- With connections at both ports, that of the first one is kept; it is either that of the second
one as well, or that one is deleted. -/
theorem keep_some_some (hne : p ≠ q) (hc : c.Touches p) (he : e.Touches p → e = c) :
    (c.Touches q → keep p q (some c) (some e) = some (c, none)) ∧
      (¬ c.Touches q → keep p q (some c) (some e) = some (c, some e.layer1ConnectionId)) := by
  unfold keep
  by_cases h₁ : c.physicalPort1Id = p
  · have hq : c.Touches q ↔ c.physicalPort2Id = q :=
      ⟨fun h => h.resolve_left fun heq => hne (h₁.symm.trans heq), Or.inr⟩
    simp +contextual [h₁, hq]
  · have h₂ : c.physicalPort2Id = p := hc.resolve_left h₁
    have hq : c.Touches q ↔ c.physicalPort1Id = q :=
      ⟨fun h => h.resolve_right fun heq => hne (h₂.symm.trans heq), Or.inl⟩
    -- the connection of the second port does not begin at the first one
    have hother : e.physicalPort1Id ≠ p := by
      intro heq
      exact h₁ (he (Or.inl heq) ▸ heq)
    have hpq : q ≠ p := hne.symm
    simp +contextual [h₁, hq, hother, hpq]

theorem keep_eq_some (hpaired : Paired t.rows) (hne : a.physportid1 ≠ a.physportid2)
    (h : keep a.physportid1 a.physportid2 (t.ofPort a.physportid1) (t.ofPort a.physportid2) =
      some (c, gone)) :
    Reused t.rows a c ∧ ((gone = none ∧ ∀ d ∈ t.rows, a.Involves d → d = c) ∨
      ∃ e ∈ t.rows, gone = some e.layer1ConnectionId ∧ e ≠ c ∧ a.Involves e ∧
        ∀ d ∈ t.rows, a.Involves d → d = c ∨ d = e) := by
  cases h₁ : t.ofPort a.physportid1 with
  | none =>
    have hfree := ofPort_eq_none.mp h₁
    cases h₂ : t.ofPort a.physportid2 with
    | none =>
      rw [h₁, h₂] at h
      exact nomatch h
    | some c₂ =>
      rw [h₁, h₂] at h
      obtain ⟨rfl, rfl⟩ := Prod.mk.inj (Option.some.inj h)
      obtain ⟨hmem, htouch⟩ := ofPort_eq_some h₂
      refine ⟨⟨hmem, Or.inr ⟨htouch, hfree⟩⟩, Or.inl ⟨rfl, fun d hd hinv => ?_⟩⟩
      exact hpaired.once d hd _ hmem _ (hinv.resolve_left (hfree d hd)) htouch
  | some c₁ =>
    obtain ⟨hmem, htouch⟩ := ofPort_eq_some h₁
    cases h₂ : t.ofPort a.physportid2 with
    | none =>
      have hfree := ofPort_eq_none.mp h₂
      rw [h₁, h₂] at h
      obtain ⟨rfl, rfl⟩ := Prod.mk.inj (Option.some.inj h)
      refine ⟨⟨hmem, Or.inl htouch⟩, Or.inl ⟨rfl, fun d hd hinv => ?_⟩⟩
      exact hpaired.once d hd _ hmem _ (hinv.resolve_right (hfree d hd)) htouch
    | some c₂ =>
      obtain ⟨hmem₂, htouch₂⟩ := ofPort_eq_some h₂
      have hinvolved : ∀ d ∈ t.rows, a.Involves d → d = c₁ ∨ d = c₂ := by
        rintro d hd (hinv | hinv)
        · exact Or.inl (hpaired.once d hd _ hmem _ hinv htouch)
        · exact Or.inr (hpaired.once d hd _ hmem₂ _ hinv htouch₂)
      obtain ⟨hboth, honly⟩ := keep_some_some hne htouch fun hinv =>
        hpaired.once _ hmem₂ _ hmem _ hinv htouch
      rw [h₁, h₂] at h
      by_cases hq : c₁.Touches a.physportid2
      · rw [hboth hq] at h
        obtain ⟨rfl, rfl⟩ := Prod.mk.inj (Option.some.inj h)
        have hsame := hpaired.once _ hmem₂ _ hmem _ htouch₂ hq
        refine ⟨⟨hmem, Or.inl htouch⟩, Or.inl ⟨rfl, fun d hd hinv => ?_⟩⟩
        exact (hinvolved d hd hinv).elim id fun heq => heq.trans hsame
      · rw [honly hq] at h
        obtain ⟨rfl, rfl⟩ := Prod.mk.inj (Option.some.inj h)
        refine ⟨⟨hmem, Or.inl htouch⟩, Or.inr ⟨c₂, hmem₂, rfl, ?_, Or.inr htouch₂, hinvolved⟩⟩
        rintro rfl
        exact hq htouch₂

theorem keep_eq_none :
    keep p q (t.ofPort p) (t.ofPort q) = none ↔
      ∀ c ∈ t.rows, ¬ (c.Touches p ∨ c.Touches q) := by
  have hfree : (∀ c ∈ t.rows, ¬ (c.Touches p ∨ c.Touches q)) ↔
      t.ofPort p = none ∧ t.ofPort q = none := by
    simp only [ofPort_eq_none, not_or, imp_and, forall_and]
  rw [hfree]
  cases t.ofPort p with
  | none =>
    cases t.ofPort q with
    | none => simp [keep]
    | some c => simp [keep]
  | some c =>
    cases t.ofPort q with
    | none => simp [keep]
    | some d =>
      simp only [keep, reduceCtorEq, false_and, iff_false]
      split_ifs <;> simp

theorem delete_keep (hpaired : Paired t.rows) (hne : a.physportid1 ≠ a.physportid2)
    (h : keep a.physportid1 a.physportid2 (t.ofPort a.physportid1) (t.ofPort a.physportid2) =
      some (c, gone)) :
    c ∈ (t.delete gone).rows ∧ (∀ d ∈ (t.delete gone).rows, a.Involves d → d = c) ∧
      ∀ d, ¬ a.Involves d → (d ∈ (t.delete gone).rows ↔ d ∈ t.rows) := by
  obtain ⟨⟨hmem, -⟩, ⟨rfl, hall⟩ | ⟨e, he, rfl, hec, hinv, hall⟩⟩ := keep_eq_some hpaired hne h
  · have hrows : (t.delete none).rows = t.rows := by
      simp [Connections.delete]
    rw [hrows]
    exact ⟨hmem, hall, fun d _ => Iff.rfl⟩
  · have hdelete : ∀ d, d ∈ (t.delete (some e.layer1ConnectionId)).rows ↔ d ∈ t.rows ∧ d ≠ e := by
      intro d
      simp only [Connections.delete, ne_eq, Option.some.injEq, List.mem_filter, decide_eq_true_eq]
      refine and_congr_right fun hd => not_congr ⟨fun heq => ?_, fun heq => heq ▸ rfl⟩
      exact List.inj_on_of_nodup_map t.nodup hd he heq.symm
    refine ⟨(hdelete c).mpr ⟨hmem, hec.symm⟩, fun d hd hd' => ?_, fun d hd' => ?_⟩
    · obtain ⟨hd, hde⟩ := (hdelete d).mp hd
      exact (hall d hd hd').resolve_right hde
    · rw [hdelete]
      refine and_iff_left_of_imp fun _ => ?_
      rintro rfl
      exact hd' hinv

/-! ## The assignments -/

/-- The connection with the ports that it gets. -/
def repointed (c : Layer1Connection) (p q : ℕ) : Layer1Connection :=
  (portAssignments c p q).foldl .set c

theorem joins_repointed (h : c.Touches p ∨ c.Touches q) (hne : p ≠ q) :
    (repointed c p q).Joins p q := by
  unfold repointed portAssignments Layer1Connection.Joins
  unfold Layer1Connection.Touches at h
  split_ifs <;> simp [Layer1Connection.set] <;> omega

theorem portAssignments_of_joins (h : c.Joins p q) : portAssignments c p q = [] := by
  unfold portAssignments
  rw [if_neg]
  rcases h with ⟨h₁, h₂⟩ | ⟨h₁, h₂⟩
  · exact fun hwrong => hwrong.1.elim (absurd h₁) (absurd h₂)
  · exact fun hwrong => hwrong.2.elim (absurd h₁) (absurd h₂)

theorem repointed_eq (c : Layer1Connection) (p q : ℕ) :
    ∃ i j, repointed c p q = { c with physicalPort1Id := i, physicalPort2Id := j } := by
  unfold repointed portAssignments
  split_ifs <;> exact ⟨_, _, rfl⟩

theorem foldl_changed {α : Type} [DecidableEq α] {v column : Option α} (set : α → Assignment)
    (update : Layer1Connection → Option α → Layer1Connection)
    (hset : ∀ x, c.set (set x) = update c (some x)) (hsame : update c column = c) :
    (changed v column set).foldl .set c = update c (v.or column) := by
  cases v with
  | none => exact hsame.symm
  | some x =>
    rw [changed, Option.some_or]
    split
    next h => rw [← h, hsame, List.foldl_nil]
    next h => rw [List.foldl_cons, List.foldl_nil, hset]

def newFlowControl (a : Args) (c : Layer1Connection) : Option Text :=
  match given unknownText a.flwCntrl with
  | none => c.flowControl
  | some f => if c.parity = some f then c.flowControl else some f

def configured (a : Args) (c : Layer1Connection) : Layer1Connection :=
  { repointed c a.physportid1 a.physportid2 with
    circuitId := (given (-99) a.circuitId).or c.circuitId
    baud := (given (-99) a.baud).or c.baud
    dataBits := (given (-99) a.dataBits).or c.dataBits
    stopBits := (given (-99) a.stopBits).or c.stopBits
    parity := (given unknownText a.parity).or c.parity
    flowControl := newFlowControl a c }

theorem foldl_changed_flowControl (hcolumn : c.flowControl = d.flowControl) :
    (changed (given unknownText a.flwCntrl) d.parity .flowControl).foldl .set c =
      { c with flowControl := newFlowControl a d } := by
  unfold newFlowControl changed
  cases given unknownText a.flwCntrl with
  | none => rw [List.foldl_nil, ← hcolumn]
  | some f =>
    dsimp only
    split
    next h => rw [List.foldl_nil, ← hcolumn]
    next h => rfl

/-- **What the statement makes of the connection.** -/
theorem assignments_eq_ok (h : assignments a c = .ok l) :
    l.foldl .set c = configured a c ∧ Quotable (given unknownText a.parity) c.parity ∧
      Quotable (given unknownText a.flwCntrl) c.parity := by
  obtain ⟨parity, hparity, h⟩ := bind_eq_ok.mp h
  obtain ⟨flowControl, hflow, h⟩ := bind_eq_ok.mp h
  obtain rfl := Except.ok.inj h
  obtain ⟨hquotable, rfl⟩ := changedText_eq_ok.mp hparity
  obtain ⟨hquotable', rfl⟩ := changedText_eq_ok.mp hflow
  refine ⟨?_, hquotable, hquotable'⟩
  simp only [List.foldl_append]
  have hports : (portAssignments c a.physportid1 a.physportid2).foldl .set c =
      repointed c a.physportid1 a.physportid2 := rfl
  rw [hports]
  unfold configured
  obtain ⟨i, j, hrepointed⟩ := repointed_eq c a.physportid1 a.physportid2
  rw [hrepointed]
  -- one column after the other
  rw [foldl_changed .circuitId (fun c x => { c with circuitId := x }) (fun _ => rfl),
    foldl_changed .baud (fun c x => { c with baud := x }) (fun _ => rfl),
    foldl_changed .dataBits (fun c x => { c with dataBits := x }) (fun _ => rfl),
    foldl_changed .stopBits (fun c x => { c with stopBits := x }) (fun _ => rfl),
    foldl_changed .parity (fun c x => { c with parity := x }) (fun _ => rfl),
    foldl_changed_flowControl]
  all_goals rfl

theorem exists_assignments (hparity : Quotable (given unknownText a.parity) c.parity)
    (hflow : Quotable (given unknownText a.flwCntrl) c.parity) : ∃ l, assignments a c = .ok l :=
  ⟨_, bind_eq_ok.mpr ⟨_, changedText_eq_ok.mpr ⟨hparity, rfl⟩,
    bind_eq_ok.mpr ⟨_, changedText_eq_ok.mpr ⟨hflow, rfl⟩, rfl⟩⟩⟩

@[simp] theorem configured_layer1ConnectionId :
    (configured a c).layer1ConnectionId = c.layer1ConnectionId := by
  show (repointed c a.physportid1 a.physportid2).layer1ConnectionId = c.layer1ConnectionId
  exact foldl_set_layer1ConnectionId _ c

theorem configured_joins (h : a.Involves c) (hne : a.physportid1 ≠ a.physportid2) :
    (configured a c).Joins a.physportid1 a.physportid2 := joins_repointed h hne

/-- The parameters are right but for a flow control that reads like the parity. -/
theorem configured_hasParameters :
    HasParameters a (some c) (configured a c) ↔
      ∀ f ∈ given unknownText a.flwCntrl, c.parity = some f → c.flowControl = some f := by
  have hflow : newFlowControl a c = (given unknownText a.flwCntrl).or c.flowControl ↔
      ∀ f ∈ given unknownText a.flwCntrl, c.parity = some f → c.flowControl = some f := by
    unfold newFlowControl
    cases given unknownText a.flwCntrl with
    | none => simp
    | some f =>
      dsimp only
      split
      next h => simp [h]
      next h => simp [h]
  rw [← hflow]
  exact ⟨fun h => h.flowControl, fun h => ⟨rfl, rfl, rfl, rfl, rfl, h⟩⟩

theorem or_eq_self {α : Type} {g old column : Option α} (h : column = g.or old) :
    g.or column = column := by
  cases g with
  | none => rfl
  | some x => rw [h, Option.some_or, Option.some_or]

/-- A call changes nothing of a connection that joins its ports and has its parameters. -/
theorem configured_of_hasParameters {old : Option Layer1Connection}
    (hjoins : c.Joins a.physportid1 a.physportid2) (h : HasParameters a old c) :
    configured a c = c := by
  have hports : repointed c a.physportid1 a.physportid2 = c := by
    rw [repointed, portAssignments_of_joins hjoins, List.foldl_nil]
  have hflow : newFlowControl a c = c.flowControl := by
    have hcolumn := h.flowControl
    unfold newFlowControl
    cases hgiven : given unknownText a.flwCntrl with
    | none => rfl
    | some f =>
      rw [hgiven, Option.some_or] at hcolumn
      dsimp only
      split
      · rfl
      · exact hcolumn.symm
  rw [configured, hports, hflow, or_eq_self h.circuitId, or_eq_self h.baud, or_eq_self h.dataBits,
    or_eq_self h.stopBits, or_eq_self h.parity]

/-! ## Calls -/

theorem find?_layer1ConnectionId (hc : c ∈ t.rows) :
    t.rows.find? (·.layer1ConnectionId = c.layer1ConnectionId) = some c :=
  Library.find?_key t.nodup hc

/-- A statement without assignments is not run, and would change nothing. -/
theorem rows_update (l : List Assignment) (id : ℕ) :
    (if l = [] then t else t.doL1ConnectionUpdate l id).rows =
      t.rows.map fun c => if c.layer1ConnectionId = id then l.foldl .set c else c := by
  split
  next h =>
    subst h
    simp
  next h => rfl

/-- **A connection is kept.** -/
theorem configured_rows (hpaired : Paired t.rows) (hne : a.physportid1 ≠ a.physportid2)
    (hkeep : keep a.physportid1 a.physportid2 (t.ofPort a.physportid1) (t.ofPort a.physportid2) =
      some (c, gone)) (hl : l.foldl .set c = configured a c) :
    Configured t.rows ((t.delete gone).rows.map fun d =>
        if d.layer1ConnectionId = c.layer1ConnectionId then l.foldl .set d else d) a ↔
      ∀ f ∈ given unknownText a.flwCntrl, c.parity = some f → c.flowControl = some f := by
  obtain ⟨⟨hmem, htouch⟩, -⟩ := keep_eq_some hpaired hne hkeep
  have hinvolved : a.Involves c := htouch.imp id And.left
  obtain ⟨hc, honly, hothers⟩ := delete_keep hpaired hne hkeep
  have hjoins := configured_joins hinvolved hne
  have hinvolves : a.Involves (configured a c) :=
    Or.inl (hjoins.imp And.left And.right)
  have hold : t.rows.find? (·.layer1ConnectionId = (configured a c).layer1ConnectionId) =
      some c := by
    rw [configured_layer1ConnectionId]
    exact find?_layer1ConnectionId hmem
  -- the rows afterwards
  have hrows : ∀ d, (d ∈ (t.delete gone).rows.map fun d =>
      if d.layer1ConnectionId = c.layer1ConnectionId then l.foldl .set d else d) ↔
        d = configured a c ∨ d ∈ (t.delete gone).rows ∧ d ≠ c := by
    intro d
    rw [List.mem_map]
    constructor
    · rintro ⟨e, he, rfl⟩
      split
      next hid =>
        obtain rfl := List.inj_on_of_nodup_map (t.delete gone).nodup he hc hid
        exact Or.inl hl
      next hid => exact Or.inr ⟨he, fun heq => hid (heq ▸ rfl)⟩
    · rintro (rfl | ⟨hd, hdc⟩)
      · exact ⟨c, hc, by rw [if_pos rfl, hl]⟩
      · refine ⟨d, hd, if_neg fun hid => hdc ?_⟩
        exact List.inj_on_of_nodup_map (t.delete gone).nodup hd hc hid
  rw [← configured_hasParameters]
  constructor
  · rintro ⟨⟨d, -, hdjoins, hall, hparams⟩, -⟩
    obtain rfl := hall _ ((hrows _).mpr (Or.inl rfl)) hinvolves
    rwa [hold] at hparams
  · intro hparams
    refine ⟨⟨configured a c, (hrows _).mpr (Or.inl rfl), hjoins, fun d hd hinv => ?_, ?_⟩, ?_⟩
    · rcases (hrows d).mp hd with rfl | ⟨hd, hdc⟩
      · rfl
      · exact absurd (honly d hd hinv) hdc
    · rwa [hold]
    · intro d hd
      rw [hrows, ← hothers d hd]
      constructor
      · rintro (rfl | ⟨hmem, -⟩)
        · exact absurd hinvolves hd
        · exact hmem
      · intro hmem
        refine Or.inr ⟨hmem, ?_⟩
        rintro rfl
        exact hd hinvolved

/-- **A connection is new.** -/
theorem inserted_rows {serial : Bool} {parity flowControl : Option Text}
    (hfree : ∀ c ∈ t.rows, ¬ a.Involves c) :
    Configured t.rows (t.insert (newRow a serial parity flowControl) fun _ => rfl).rows a ↔
      parity = given unknownText a.parity ∧ flowControl = given unknownText a.flwCntrl := by
  have hrows : ∀ d, d ∈ (t.insert (newRow a serial parity flowControl) fun _ => rfl).rows ↔
      d ∈ t.rows ∨ d = newRow a serial parity flowControl t.nextval := by
    intro d
    exact List.mem_append.trans (or_congr_right List.mem_singleton)
  have hinvolves : a.Involves (newRow a serial parity flowControl t.nextval) := Or.inl (Or.inl rfl)
  have hold : t.rows.find? (·.layer1ConnectionId =
      (newRow a serial parity flowControl t.nextval).layer1ConnectionId) = none := by
    refine List.find?_eq_none.mpr fun c hc => ?_
    rw [decide_eq_true_eq]
    exact Nat.ne_of_lt (t.lt_nextval c hc)
  constructor
  · rintro ⟨⟨d, -, -, hall, hparams⟩, -⟩
    obtain rfl := hall _ ((hrows _).mpr (Or.inr rfl)) hinvolves
    rw [hold] at hparams
    exact ⟨hparams.parity.trans Option.or_none, hparams.flowControl.trans Option.or_none⟩
  · rintro ⟨rfl, rfl⟩
    refine ⟨⟨_, (hrows _).mpr (Or.inr rfl), Or.inl ⟨rfl, rfl⟩, fun d hd hinv => ?_, ?_⟩, ?_⟩
    · rcases (hrows d).mp hd with hd | rfl
      · exact absurd hinv (hfree d hd)
      · rfl
    · rw [hold]
      constructor <;> exact Option.or_none.symm
    · intro d hd
      rw [hrows]
      refine or_iff_left ?_
      rintro rfl
      exact hd hinvolves

theorem columnText_eq_given :
    columnText v = .ok (given unknownText v) ↔ ∀ s ∈ given unknownText v, s.length ≤ 255 := by
  unfold columnText
  cases given unknownText v with
  | none => simp
  | some s =>
    dsimp only
    simp only [Option.mem_some_iff, forall_eq']
    rw [← toVarchar_self]
    cases toVarchar 255 s with
    | error e => simp [Except.map]
    | ok s' => simp [Except.map]

/-- The ports exist and are of one type. -/
def SameType (physicalPort : List PhysicalPort) (a : Args) : Prop :=
  ∃ portType, (physicalPort.find? (·.physicalPortId = a.physportid1)).map (·.portType) =
      some portType ∧
    (physicalPort.find? (·.physicalPortId = a.physportid2)).map (·.portType) = some portType

theorem configureLayer1Connect_eq {physicalPort : List PhysicalPort}
    (htype : SameType physicalPort a) :
    configureLayer1Connect physicalPort t a =
      (match keep a.physportid1 a.physportid2 (t.ofPort a.physportid1)
          (t.ofPort a.physportid2) with
      | none => do
        let parity ← columnText a.parity
        let flowControl ← columnText a.flwCntrl
        let serial := (physicalPort.find? (·.physicalPortId = a.physportid1)).map (·.portType) =
          some "serial"
        .ok (1, t.insert (newRow a serial parity flowControl) fun _ => rfl)
      | some (l1con, gone) => do
        let l ← assignments a l1con
        .ok (l.length,
          if l = [] then t.delete gone
          else (t.delete gone).doL1ConnectionUpdate l l1con.layer1ConnectionId)) := by
  obtain ⟨portType, h₁, h₂⟩ := htype
  unfold configureLayer1Connect
  dsimp only
  have hsame : ¬ ∃ x ∈ (physicalPort.find? (·.physicalPortId = a.physportid1)).map (·.portType),
      ∃ y ∈ (physicalPort.find? (·.physicalPortId = a.physportid2)).map (·.portType), x ≠ y := by
    rintro ⟨x, hx, y, hy, hxy⟩
    rw [h₁, Option.mem_some_iff] at hx
    rw [h₂, Option.mem_some_iff] at hy
    exact hxy (hx.symm.trans hy)
  rw [(raiseIf_eq_ok (u := ())).mpr hsame]
  rfl

/-- **A second call** changes nothing. -/
theorem after_of_configured {physicalPort : List PhysicalPort} (htype : SameType physicalPort a)
    (hne : a.physportid1 ≠ a.physportid2) (h : Configured rows t.rows a) :
    after physicalPort t a = t := by
  obtain ⟨c, hc, hjoins, hall, hparams⟩ := h.joined
  have htouch : c.Touches a.physportid1 ∧ c.Touches a.physportid2 := by
    rcases hjoins with ⟨h₁, h₂⟩ | ⟨h₁, h₂⟩
    · exact ⟨Or.inl h₁, Or.inr h₂⟩
    · exact ⟨Or.inr h₂, Or.inl h₁⟩
  have hof : ∀ p, (∀ d : Layer1Connection, d.Touches p → a.Involves d) → c.Touches p →
      t.ofPort p = some c := by
    intro p hp hcp
    cases hfind : t.ofPort p with
    | none => exact absurd hcp (ofPort_eq_none.mp hfind c hc)
    | some d =>
      obtain ⟨hd, hdp⟩ := ofPort_eq_some hfind
      rw [hall d hd (hp d hdp)]
  have hkeep : keep a.physportid1 a.physportid2 (t.ofPort a.physportid1)
      (t.ofPort a.physportid2) = some (c, none) := by
    rw [hof _ (fun _ => Or.inl) htouch.1, hof _ (fun _ => Or.inr) htouch.2]
    exact (keep_some_some hne htouch.1 fun _ => rfl).1 htouch.2
  have hdelete : t.delete none = t := by
    simp [Connections.delete]
  unfold after
  rw [configureLayer1Connect_eq htype, hkeep]
  dsimp only
  cases hassign : assignments a c with
  | error e => rfl
  | ok l =>
    obtain ⟨hl, -⟩ := assignments_eq_ok hassign
    -- the connection has the parameters already
    have hsame := configured_of_hasParameters hjoins hparams
    rw [hdelete]
    show (if l = [] then t else t.doL1ConnectionUpdate l c.layer1ConnectionId) = t
    refine Connections.ext ?_ (by split <;> rfl)
    rw [rows_update]
    conv_rhs => rw [← List.map_id t.rows]
    refine List.map_congr_left fun d hd => ?_
    split
    next hid =>
      rw [List.inj_on_of_nodup_map t.nodup hd hc hid, hl, hsame, id_eq]
    next hid => rfl

/-- **When a call does what it is for.** -/
theorem configureLayer1Connect_iff (physicalPort : List PhysicalPort) (t : Connections) (a : Args)
    (hpaired : Paired t.rows) (hne : a.physportid1 ≠ a.physportid2)
    (htype : SameType physicalPort a) :
    (∃ n t', configureLayer1Connect physicalPort t a = .ok (n, t') ∧
        Configured t.rows t'.rows a ∧ after physicalPort t' a = t') ↔ Suits t.rows a := by
  have hsecond : (∃ n t', configureLayer1Connect physicalPort t a = .ok (n, t') ∧
      Configured t.rows t'.rows a ∧ after physicalPort t' a = t') ↔
        ∃ n t', configureLayer1Connect physicalPort t a = .ok (n, t') ∧
          Configured t.rows t'.rows a := by
    refine exists_congr fun n => exists_congr fun t' => and_congr_right fun _ => ?_
    exact and_iff_left_of_imp fun h => after_of_configured htype hne h
  rw [hsecond, configureLayer1Connect_eq htype]
  cases hkeep : keep a.physportid1 a.physportid2 (t.ofPort a.physportid1)
      (t.ofPort a.physportid2) with
  | none =>
    have hfree : ∀ c ∈ t.rows, ¬ a.Involves c := keep_eq_none.mp hkeep
    have hnone : ∀ c, ¬ Reused t.rows a c := by
      rintro c ⟨hc, htouch | ⟨htouch, -⟩⟩
      · exact hfree c hc (Or.inl htouch)
      · exact hfree c hc (Or.inr htouch)
    dsimp only
    constructor
    · rintro ⟨n, t', h, hconfigured⟩
      obtain ⟨parity, hparity, h⟩ := bind_eq_ok.mp h
      obtain ⟨flowControl, hflow, h⟩ := bind_eq_ok.mp h
      obtain ⟨-, rfl⟩ := Prod.mk.inj (Except.ok.inj h)
      obtain ⟨rfl, rfl⟩ := (inserted_rows hfree).mp hconfigured
      refine ⟨fun _ s hs => ?_, fun c hc => absurd hc (hnone c), fun c hc => absurd hc (hnone c),
        fun c hc => absurd hc (hnone c)⟩
      exact hs.elim (columnText_eq_given.mp hparity s) (columnText_eq_given.mp hflow s)
    · intro hsuits
      have hparity := columnText_eq_given.mpr fun s hs => hsuits.new hfree s (Or.inl hs)
      have hflow := columnText_eq_given.mpr fun s hs => hsuits.new hfree s (Or.inr hs)
      exact ⟨1, _, bind_eq_ok.mpr ⟨_, hparity, bind_eq_ok.mpr ⟨_, hflow, rfl⟩⟩,
        (inserted_rows hfree).mpr ⟨rfl, rfl⟩⟩
  | some x =>
    obtain ⟨c, gone⟩ := x
    obtain ⟨hreused, -⟩ := keep_eq_some hpaired hne hkeep
    have hinvolved : a.Involves c := hreused.2.imp id And.left
    have honly : ∀ d, Reused t.rows a d → d = c := by
      rintro d ⟨hd, htouch⟩
      rcases hreused with ⟨hc, htouch' | ⟨htouch', hnone⟩⟩
      · refine hpaired.once d hd c hc _ (htouch.resolve_right fun hno => ?_) htouch'
        exact hno.2 c hc htouch'
      · refine hpaired.once d hd c hc _ (htouch.resolve_left (hnone d hd)).1 htouch'
    dsimp only
    constructor
    · rintro ⟨n, t', h, hconfigured⟩
      obtain ⟨l, hassign, h⟩ := bind_eq_ok.mp h
      obtain ⟨-, rfl⟩ := Prod.mk.inj (Except.ok.inj h)
      obtain ⟨hl, hparity, hflow⟩ := assignments_eq_ok hassign
      rw [rows_update, configured_rows hpaired hne hkeep hl] at hconfigured
      refine ⟨fun hfree => absurd hinvolved (hfree c hreused.1), ?_, ?_, ?_⟩
      · rintro d hd
        rwa [honly d hd]
      · rintro d hd
        rwa [honly d hd]
      · rintro d hd
        rwa [honly d hd]
    · intro hsuits
      obtain ⟨l, hassign⟩ := exists_assignments (hsuits.parity c hreused)
        (hsuits.flowControl c hreused)
      obtain ⟨hl, -⟩ := assignments_eq_ok hassign
      refine ⟨l.length, _, bind_eq_ok.mpr ⟨l, hassign, rfl⟩, ?_⟩
      rw [rows_update, configured_rows hpaired hne hkeep hl]
      exact hsuits.same c hreused

def serialPorts : List PhysicalPort := [⟨1, "serial"⟩, ⟨2, "serial"⟩]

/-- A connection from the first port to another one, with a parity. -/
def oneConnection (parity : Text) : Connections where
  rows := [⟨5, 1, 3, none, some 9600, none, none, some parity, none, none, some 'Y'⟩]
  nextval := 6
  nodup := List.nodup_singleton _
  lt_nextval := by
    intro c hc
    rw [List.mem_singleton.mp hc]
    exact Nat.lt_succ_self 5

def withFlowControl (flowControl : Text) : Args :=
  ⟨1, 2, some (-99), some 8, some (-99), some unknownText, some flowControl, some (-99)⟩

theorem paired_oneConnection (parity : Text) : Paired (oneConnection parity).rows where
  sides := by
    intro c hc
    rw [List.mem_singleton.mp hc]
    exact Nat.ne_of_lt (show 1 < 3 by decide)
  once := by
    intro c hc d hd _ _ _
    rw [List.mem_singleton.mp hc, List.mem_singleton.mp hd]

theorem configureLayer1Connect_evenParity :
    ∃ n t', configureLayer1Connect serialPorts (oneConnection ['e']) (withFlowControl ['x']) =
        .ok (n, t') ∧
      Configured (oneConnection ['e']).rows t'.rows (withFlowControl ['x']) ∧
        after serialPorts t' (withFlowControl ['x']) = t' := by
  refine (configureLayer1Connect_iff _ _ _ (paired_oneConnection _) (by decide)
    ⟨"serial", rfl, rfl⟩).mpr ⟨?_, ?_, ?_, ?_⟩
  · intro h
    exact absurd (Or.inl (Or.inl rfl)) (h _ List.mem_cons_self)
  · intro c hc s hs
    exact nomatch hs
  · intro c hc s hs _
    obtain rfl := Option.some.inj hs
    decide
  · intro c hc f hf hparity
    rw [List.mem_singleton.mp hc.1] at hparity
    obtain rfl := Option.some.inj hf
    exact absurd hparity (by decide)

def noneText : Text := ['n', 'o', 'n', 'e']

/-- The connection has no parity, the call asks for no flow control, and that is not written. -/
theorem configureLayer1Connect_sameText :
    ¬ ∃ n t', configureLayer1Connect serialPorts (oneConnection noneText)
        (withFlowControl noneText) = .ok (n, t') ∧
      Configured (oneConnection noneText).rows t'.rows (withFlowControl noneText) ∧
        after serialPorts t' (withFlowControl noneText) = t' := by
  rintro ⟨n, t', h, ⟨⟨c, hc, -, -, hparams⟩, -⟩, -⟩
  have hrows : some t'.rows = (configureLayer1Connect serialPorts (oneConnection noneText)
      (withFlowControl noneText)).toOption.map (·.2.rows) := by
    rw [h]
    rfl
  have heval : (configureLayer1Connect serialPorts (oneConnection noneText)
      (withFlowControl noneText)).toOption.map (·.2.rows) =
        some [⟨5, 1, 2, none, some 9600, some 8, none, some noneText, none, none, some 'Y'⟩] := by
    decide
  rw [Option.some.inj (hrows.trans heval), List.mem_singleton] at hc
  have hflow := hparams.flowControl
  rw [hc] at hflow
  exact nomatch hflow

end JazzHands.PortUtils

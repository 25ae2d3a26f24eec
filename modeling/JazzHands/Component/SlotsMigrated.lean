import JazzHands.Component.MigrateSlots

/-!
# What `migrate_component_template_slots` leaves

The steps of the function are taken in turn, and each is possible exactly when a condition on the
tables as they were holds (`CanMove`, `CanMigrate`).  `Sound` is what the matching of slots needs,
and `Sound.migrated` what a call that returns has done.
-/

namespace JazzHands.Component
namespace MigrateSlots

open Postgres

variable {choices : Choices} {db db' : Db} {cid q p n : ℕ} {s : SlotRow} {f : String}
  {ic ic' : Connection} {c : ComponentRow}

/-! ## Which slots go together -/

/-- The slot is one of the component, and has the function. -/
structure SlotOf (db : Db) (cid : ℕ) (s : SlotRow) (f : String) : Prop where
  mem : s ∈ db.slot
  owner : s.componentId = cid
  function : ∃ st ∈ db.slotType, st.slotTypeId = s.slotTypeId ∧ st.slotFunction = f

/-- The slot is made from a template of the type that its component has. -/
def OfOwnType (db : Db) (s : SlotRow) : Prop :=
  ∃ c ∈ db.component, c.componentId = s.componentId ∧
    (db.template s.componentTypeSlotTemplateId).map (·.componentTypeId) = some c.componentTypeId

/-- `o` is an old slot of the component, and `n` a new one of the same name and function. -/
structure Matches (db : Db) (cid : ℕ) (f : String) (o n : SlotRow) : Prop where
  old : SlotOf db cid o f
  notOwn : ¬ OfOwnType db o
  new : SlotOf db cid n f
  own : OfOwnType db n
  name : o.slotName = n.slotName

/-- The ids of two slots that go together. -/
def Match (db : Db) (cid q n : ℕ) : Prop :=
  ∃ f o n', Matches db cid f o n' ∧ o.slotId = q ∧ n'.slotId = n

/-- Among the old slots, and among the new ones, the name and the function tell a slot. -/
def Distinct (db : Db) (cid : ℕ) : Prop :=
  ∀ f s s', SlotOf db cid s f → SlotOf db cid s' f → s.slotName = s'.slotName →
    (OfOwnType db s ↔ OfOwnType db s') → s.slotId = s'.slotId

/-- The keys hold, and each slot is in one connection at most. -/
structure Keys (db : Db) (cid : ℕ) : Prop where
  slotKey : (db.slot.map fun s => s.slotId).Nodup
  slotTypeKey : (db.slotType.map (·.slotTypeId)).Nodup
  componentKey : (db.component.map fun c => c.componentId).Nodup
  parentKey : ∀ c ∈ db.component, ∀ d ∈ db.component, ∀ q, c.parentSlotId = some q →
    d.parentSlotId = some q → c = d
  connectionKey : Keyed db.interComponentConnection
  onceConnected : OnceConnected db.interComponentConnection
  /-- The component does not sit in a slot of its own. -/
  notInItself : ∀ c ∈ db.component, c.componentId = cid → ∀ s ∈ db.slot,
    c.parentSlotId = some s.slotId → s.componentId ≠ cid

/-- What holds of the tables when the slots are matched. -/
structure Sound (db : Db) (cid : ℕ) : Prop extends Keys db cid where
  distinct : Distinct db cid

/-- What was attached to an old slot is attached to the one that goes with it, old slots of which
there is such a one are gone, and of the others only those to which nothing refers. -/
structure Migrated (db : Db) (cid : ℕ) (db' : Db) : Prop where
  connection : ∀ ic ∈ db.interComponentConnection, ∃ ic' ∈ db'.interComponentConnection,
    ic'.interComponentConnectionId = ic.interComponentConnectionId ∧
      (∀ n, Match db cid ic.slot1Id n → ic'.slot1Id = n) ∧
      ∀ n, Match db cid ic.slot2Id n → ic'.slot2Id = n
  property : ∀ cp ∈ db.componentProperty, ∀ q n, cp.slotId = some q → Match db cid q n →
    { cp with slotId := some n } ∈ db'.componentProperty
  component : ∀ c ∈ db.component, ∀ q n, c.parentSlotId = some q → Match db cid q n →
    { c with parentSlotId := some n } ∈ db'.component
  layer3Interface : ∀ l3i ∈ db.layer3Interface, ∀ q n, l3i.slotId = some q → Match db cid q n →
    { l3i with slotId := some n } ∈ db'.layer3Interface
  gone : ∀ q n, Match db cid q n → ∀ s ∈ db'.slot, s.slotId ≠ q
  deleted : ∀ s ∈ db.slot, (∀ s' ∈ db'.slot, s'.slotId ≠ s.slotId) →
    (∃ n, Match db cid s.slotId n) ∨ (s.componentId = cid ∧ ¬ OfOwnType db s ∧
      ¬ Attached db s.slotId ∧ s.slotId ∉ db.slotRefs)

section

variable (h : Sound db cid)
include h

theorem Sound.eq_of_slotId {s s' : SlotRow} (hs : s ∈ db.slot) (hs' : s' ∈ db.slot)
    (hid : s.slotId = s'.slotId) : s = s' :=
  List.inj_on_of_nodup_map h.slotKey hs hs' hid

theorem Sound.function_unique {f' : String} (hf : SlotOf db cid s f) (hf' : SlotOf db cid s f') :
    f = f' := by
  obtain ⟨st, hst, hid, rfl⟩ := hf.function
  obtain ⟨st', hst', hid', rfl⟩ := hf'.function
  rw [List.inj_on_of_nodup_map h.slotTypeKey hst hst' (hid.trans hid'.symm)]

theorem Sound.match_unique {n' : ℕ} (hn : Match db cid q n) (hn' : Match db cid q n') : n = n' := by
  obtain ⟨f, o, new, hm, rfl, rfl⟩ := hn
  obtain ⟨f', o', new', hm', hid, rfl⟩ := hn'
  obtain rfl := h.eq_of_slotId hm'.old.mem hm.old.mem hid
  obtain rfl := h.function_unique hm.old hm'.old
  exact h.distinct _ _ _ hm.new hm'.new (hm.name.symm.trans hm'.name) (iff_of_true hm.own hm'.own)

theorem Sound.match_inj (hq : Match db cid q n) (hp : Match db cid p n) :
    q = p := by
  obtain ⟨f, o, new, hm, rfl, rfl⟩ := hq
  obtain ⟨f', o', new', hm', rfl, hid⟩ := hp
  obtain rfl := h.eq_of_slotId hm'.new.mem hm.new.mem hid
  obtain rfl := h.function_unique hm.new hm'.new
  exact h.distinct _ _ _ hm.old hm'.old (hm.name.trans hm'.name.symm)
    (iff_of_false hm.notOwn hm'.notOwn)

theorem Sound.not_match_new (hq : Match db cid q n) : ¬ Match db cid n p := by
  obtain ⟨f, o, new, hm, rfl, rfl⟩ := hq
  rintro ⟨f', o', new', hm', hid, rfl⟩
  obtain rfl := h.eq_of_slotId hm'.old.mem hm.new.mem hid
  exact hm'.notOwn hm.own

theorem Sound.ne_of_match (hq : Match db cid q n) : q ≠ n := by
  rintro rfl
  exact h.not_match_new hq hq

end

/-! ## The rows of `slot_map` -/

theorem mem_joinedSlots {j : JoinedSlot} : j ∈ joinedSlots db cid ↔
    SlotOf db cid j.s j.st.slotFunction ∧ j.st ∈ db.slotType ∧ j.st.slotTypeId = j.s.slotTypeId ∧
      j.c ∈ db.component ∧ j.c.componentId = j.s.componentId ∧
      j.ctst = db.template j.s.componentTypeSlotTemplateId := by
  simp only [joinedSlots, List.mem_flatMap, List.mem_map, List.mem_filter, decide_eq_true_eq]
  constructor
  · rintro ⟨s, ⟨hs, howner⟩, st, ⟨hst, htype⟩, c, ⟨hc, hcid⟩, rfl⟩
    exact ⟨⟨hs, howner, st, hst, htype, rfl⟩, hst, htype, hc, hcid, rfl⟩
  · rintro ⟨hs, hst, htype, hc, hcid, hctst⟩
    refine ⟨j.s, ⟨hs.mem, hs.owner⟩, j.st, ⟨hst, htype⟩, j.c, ⟨hc, hcid⟩, ?_⟩
    rw [← hctst]

theorem Sound.ofType_iff (h : Sound db cid) {j : JoinedSlot} (hj : j ∈ joinedSlots db cid) :
    j.OfType ↔ OfOwnType db j.s := by
  obtain ⟨-, -, -, hc, hcid, hctst⟩ := mem_joinedSlots.mp hj
  rw [JoinedSlot.OfType, hctst]
  constructor
  · intro htype
    exact ⟨j.c, hc, hcid, htype⟩
  · rintro ⟨c, hc', hcid', htype⟩
    rwa [List.inj_on_of_nodup_map h.componentKey hc hc' (hcid.trans hcid'.symm)]

/-- A slot of the component that is there is in the joins. -/
theorem exists_joinedSlot (hs : SlotOf db cid s f) (hc : c ∈ db.component)
    (hcid : c.componentId = cid) : ∃ j ∈ joinedSlots db cid, j.s = s ∧ j.st.slotFunction = f := by
  obtain ⟨st, hst, htype, rfl⟩ := hs.function
  exact ⟨⟨s, st, c, db.template s.componentTypeSlotTemplateId⟩, mem_joinedSlots.mpr
    ⟨hs, hst, htype, hc, hcid.trans hs.owner.symm, rfl⟩, rfl, rfl⟩

section

variable (h : Sound db cid)
include h

theorem Sound.mem_oldSlot {j : JoinedSlot} : j ∈ oldSlot db cid ↔
    j ∈ joinedSlots db cid ∧ ¬ OfOwnType db j.s := by
  rw [oldSlot, List.mem_filter, decide_eq_true_eq]
  exact and_congr_right fun hj => not_congr (h.ofType_iff hj)

theorem Sound.mem_newSlot {j : JoinedSlot} : j ∈ newSlot db cid ↔
    j ∈ joinedSlots db cid ∧ OfOwnType db j.s := by
  rw [newSlot, List.mem_filter, decide_eq_true_eq]
  exact and_congr_right fun hj => h.ofType_iff hj

theorem Sound.mem_slotMap : (q, n) ∈ slotMap db cid ↔ Match db cid q n := by
  simp only [slotMap, List.mem_flatMap, List.mem_map, List.mem_filter, decide_eq_true_eq,
    Prod.mk.injEq]
  constructor
  · rintro ⟨o, ho, new, ⟨hnew, hname, hfunction⟩, rfl, rfl⟩
    obtain ⟨ho, hnot⟩ := h.mem_oldSlot.mp ho
    obtain ⟨hnew, hown⟩ := h.mem_newSlot.mp hnew
    have hslot := (mem_joinedSlots.mp hnew).1
    rw [← hfunction] at hslot
    exact ⟨_, o.s, new.s, ⟨(mem_joinedSlots.mp ho).1, hnot, hslot, hown, hname⟩, rfl, rfl⟩
  · rintro ⟨f, o, new, hm, rfl, rfl⟩
    obtain ⟨c, hc, hcid, -⟩ := hm.own
    have hcid := hcid.trans hm.new.owner
    obtain ⟨j, hj, rfl, hjf⟩ := exists_joinedSlot hm.old hc hcid
    obtain ⟨k, hk, rfl, hkf⟩ := exists_joinedSlot hm.new hc hcid
    exact ⟨j, h.mem_oldSlot.mpr ⟨hj, hm.notOwn⟩, k,
      ⟨h.mem_newSlot.mpr ⟨hk, hm.own⟩, hm.name, hjf.trans hkf.symm⟩, rfl, rfl⟩

theorem Sound.newSlotOf_eq_some :
    newSlotOf choices (slotMap db cid) q = some n ↔ Match db cid q n := by
  have hmem {k : ℕ} : k ∈ ((slotMap db cid).filter (·.1 = q)).map (·.2) ↔ Match db cid q k := by
    rw [← h.mem_slotMap]
    simp
  constructor
  · intro hpick
    exact hmem.mp (choices.slot.mem hpick)
  · intro hm
    exact choices.slot.pick_eq (hmem.mpr hm) fun k hk => h.match_unique (hmem.mp hk) hm

theorem Sound.newSlotOf_eq_none :
    newSlotOf choices (slotMap db cid) q = none ↔ ∀ n, ¬ Match db cid q n := by
  rw [Option.eq_none_iff_forall_ne_some]
  exact forall_congr' fun n => not_congr h.newSlotOf_eq_some

/-! ## The slots that are deleted -/

/-- The slot is an old one, made from a template, to which nothing is attached. -/
def Empty (db : Db) (cid q : ℕ) : Prop :=
  ∃ f s, SlotOf db cid s f ∧ (∃ c ∈ db.component, c.componentId = cid) ∧ ¬ OfOwnType db s ∧
    db.template s.componentTypeSlotTemplateId ≠ none ∧ ¬ Attached db q ∧ s.slotId = q

theorem Sound.mem_deleted :
    q ∈ deleted db cid ↔ (∃ n, Match db cid q n) ∨ Empty db cid q := by
  have hold : q ∈ (slotMap db cid).map (·.1) ↔ ∃ n, Match db cid q n := by
    simp only [← h.mem_slotMap, List.mem_map, Prod.exists, exists_and_right, exists_eq_right]
  rw [deleted, List.mem_append, hold]
  refine or_congr_right ?_
  simp only [List.mem_map, List.mem_filter, decide_eq_true_eq]
  constructor
  · rintro ⟨j, ⟨hj, hempty, hctst⟩, rfl⟩
    obtain ⟨hj, hnot⟩ := h.mem_oldSlot.mp hj
    obtain ⟨hs, -, -, hc, hcid, heq⟩ := mem_joinedSlots.mp hj
    exact ⟨_, j.s, hs, ⟨j.c, hc, hcid.trans hs.owner⟩, hnot, heq ▸ hctst, hempty, rfl⟩
  · rintro ⟨f, s, hs, ⟨c, hc, hcid⟩, hnot, htemplate, hempty, rfl⟩
    obtain ⟨j, hj, rfl, -⟩ := exists_joinedSlot hs hc hcid
    obtain ⟨-, -, -, -, -, heq⟩ := mem_joinedSlots.mp hj
    exact ⟨j, ⟨h.mem_oldSlot.mpr ⟨hj, hnot⟩, hempty, heq ▸ htemplate⟩, rfl⟩

theorem Sound.not_match_deleted (hq : q ∈ deleted db cid) :
    ¬ Match db cid p q := by
  intro hp
  rcases h.mem_deleted.mp hq with ⟨n, hn⟩ | ⟨f, s, hs, -, hnot, -, -, rfl⟩
  · exact h.not_match_new hp hn
  · obtain ⟨f', o, new, hm, -, hid⟩ := hp
    obtain rfl := h.eq_of_slotId hm.new.mem hs.mem hid
    exact hnot hm.own

end

/-! ## The rows that are moved -/

theorem mem_updateRows {ρ : Type} {upd : ρ → Option ρ} {rows : List ρ} {r' : ρ} :
    r' ∈ updateRows upd rows ↔
      ∃ r ∈ rows, upd r = some r' ∨ (upd r = none ∧ r = r') := by
  rw [updateRows, List.mem_map]
  refine exists_congr fun r => and_congr_right fun _ => ?_
  cases upd r <;> simp

section Refs

variable {ρ : Type} (get : ρ → Option ℕ) (set : ρ → ℕ → ρ) {rows : List ρ}

/-- The slots to which the rows of a table refer after an update of one column. -/
theorem Sound.exists_ref_iff (h : Sound db cid) (hset : ∀ r n, get (set r n) = some n)
    (hq : ∀ p, ¬ Match db cid p q) :
    (∃ r' ∈ updateRows (fun r => ((get r).bind (newSlotOf choices (slotMap db cid))).map (set r))
      rows, get r' = some q) ↔ (∀ n, ¬ Match db cid q n) ∧ ∃ r ∈ rows, get r = some q := by
  simp only [mem_updateRows, Option.map_eq_some_iff, Option.map_eq_none_iff, Option.bind_eq_some_iff,
    Option.bind_eq_none_iff, h.newSlotOf_eq_some, h.newSlotOf_eq_none]
  constructor
  · rintro ⟨r', ⟨r, hr, ⟨n, ⟨p, hp, hm⟩, rfl⟩ | ⟨hnone, rfl⟩⟩, hget⟩
    · rw [hset, Option.some_inj] at hget
      exact absurd (hget ▸ hm) (hq p)
    · exact ⟨hnone q hget, r, hr, hget⟩
  · rintro ⟨hnone, r, hr, hget⟩
    refine ⟨r, ⟨r, hr, Or.inr ⟨fun p hp => ?_, rfl⟩⟩, hget⟩
    obtain rfl := Option.some_inj.mp (hget.symm.trans hp)
    exact hnone

end Refs

/-- One end of the connection is moved. -/
def Moved (db : Db) (cid : ℕ) (ic ic' : Connection) : Prop :=
  (∃ n, Match db cid ic.slot1Id n ∧ ic' = { ic with slot1Id := n }) ∨
    ∃ n, Match db cid ic.slot2Id n ∧ ic' = { ic with slot2Id := n }

theorem Moved.id_eq (h : Moved db cid ic ic') :
    ic'.interComponentConnectionId = ic.interComponentConnectionId := by
  rcases h with ⟨n, -, rfl⟩ | ⟨n, -, rfl⟩ <;> rfl

theorem Sound.moved_of_connectionUpd (h : Sound db cid)
    (hupd : connectionUpd choices (slotMap db cid) ic = some ic') : Moved db cid ic ic' := by
  have hone : slot1Upd choices (slotMap db cid) ic = some ic' ∨
      slot2Upd choices (slotMap db cid) ic = some ic' := by
    rw [connectionUpd] at hupd
    split at hupd
    · exact (Option.or_eq_some_iff.mp hupd).imp_right And.right
    · exact (Option.or_eq_some_iff.mp hupd).symm.imp_left And.right
  rcases hone with hone | hone
  · obtain ⟨n, hn, rfl⟩ := Option.map_eq_some_iff.mp hone
    exact Or.inl ⟨n, h.newSlotOf_eq_some.mp hn, rfl⟩
  · obtain ⟨n, hn, rfl⟩ := Option.map_eq_some_iff.mp hone
    exact Or.inr ⟨n, h.newSlotOf_eq_some.mp hn, rfl⟩

theorem Sound.connectionUpd_eq_none (h : Sound db cid) :
    connectionUpd choices (slotMap db cid) ic = none ↔
      (∀ n, ¬ Match db cid ic.slot1Id n) ∧ ∀ n, ¬ Match db cid ic.slot2Id n := by
  rw [connectionUpd, slot1Upd, slot2Upd]
  split
  · rw [Option.or_eq_none_iff, Option.map_eq_none_iff, Option.map_eq_none_iff,
      h.newSlotOf_eq_none, h.newSlotOf_eq_none]
  · rw [Option.or_eq_none_iff, Option.map_eq_none_iff, Option.map_eq_none_iff,
      h.newSlotOf_eq_none, h.newSlotOf_eq_none, and_comm]

/-- No connection joins two slots that are both to be replaced. -/
def NoneWithin (db : Db) (cid : ℕ) : Prop :=
  ∀ ic ∈ db.interComponentConnection, ∀ n n', Match db cid ic.slot1Id n →
    ¬ Match db cid ic.slot2Id n'

theorem Sound.connectionUpd_eq_some (h : Sound db cid) (hnone : NoneWithin db cid)
    (hic : ic ∈ db.interComponentConnection) :
    connectionUpd choices (slotMap db cid) ic = some ic' ↔ Moved db cid ic ic' := by
  refine ⟨h.moved_of_connectionUpd, fun hmoved => ?_⟩
  cases hupd : connectionUpd choices (slotMap db cid) ic with
  | none =>
    obtain ⟨h₁, h₂⟩ := h.connectionUpd_eq_none.mp hupd
    rcases hmoved with ⟨n, hn, -⟩ | ⟨n, hn, -⟩
    · exact absurd hn (h₁ n)
    · exact absurd hn (h₂ n)
  | some ic₁ =>
    rcases h.moved_of_connectionUpd hupd with ⟨n, hn, rfl⟩ | ⟨n, hn, rfl⟩ <;>
      rcases hmoved with ⟨n', hn', rfl⟩ | ⟨n', hn', rfl⟩
    · rw [h.match_unique hn hn']
    · exact absurd hn' (hnone ic hic n n' hn)
    · exact absurd hn (hnone ic hic n' n hn')
    · rw [h.match_unique hn hn']

/-! ## Nothing refers to a slot that is deleted -/

/-- The connection has an end in the slot. -/
def Ends (ic : Connection) (q : ℕ) : Prop := ic.slot1Id = q ∨ ic.slot2Id = q

theorem mem_connections (h : Sound db cid) (hnone : NoneWithin db cid) :
    ic' ∈ updateRows (connectionUpd choices (slotMap db cid)) db.interComponentConnection ↔
      ∃ ic ∈ db.interComponentConnection,
        Moved db cid ic ic' ∨ ((∀ q n, Ends ic q → ¬ Match db cid q n) ∧ ic = ic') := by
  rw [mem_updateRows]
  refine exists_congr fun ic => and_congr_right fun hic => or_congr (h.connectionUpd_eq_some hnone hic)
    (and_congr_left fun _ => ?_)
  rw [h.connectionUpd_eq_none]
  constructor
  · rintro ⟨h₁, h₂⟩ q n (rfl | rfl)
    · exact h₁ n
    · exact h₂ n
  · intro hends
    exact ⟨fun n => hends _ n (Or.inl rfl), fun n => hends _ n (Or.inr rfl)⟩

/-- An end of a row that was moved is an old end, or goes with one. -/
theorem Moved.ends (h : Moved db cid ic ic') (hq : Ends ic' q) :
    Ends ic q ∨ ∃ p, Ends ic p ∧ Match db cid p q := by
  rcases h with ⟨n, hn, rfl⟩ | ⟨n, hn, rfl⟩
  · rcases hq with rfl | hq
    · exact Or.inr ⟨_, Or.inl rfl, hn⟩
    · exact Or.inl (Or.inr hq)
  · rcases hq with hq | rfl
    · exact Or.inl (Or.inl hq)
    · exact Or.inr ⟨_, Or.inr rfl, hn⟩

/-- Where only one end is to be moved, the row that was moved has none that is. -/
theorem Sound.not_match_of_moved (h : Sound db cid) (hnone : NoneWithin db cid)
    (hic : ic ∈ db.interComponentConnection) (hmoved : Moved db cid ic ic') (hq : Ends ic' q) :
    ¬ Match db cid q n := by
  intro hm
  rcases hmoved with ⟨k, hk, rfl⟩ | ⟨k, hk, rfl⟩
  · rcases hq with rfl | rfl
    · exact h.not_match_new hk hm
    · exact hnone ic hic k n hk hm
  · rcases hq with rfl | rfl
    · exact hnone ic hic n k hm hk
    · exact h.not_match_new hk hm

theorem Sound.not_attached (h : Sound db cid) (hnone : NoneWithin db cid)
    (hq : q ∈ deleted db cid) : ¬ Attached (written choices db cid) q := by
  have hnew (p : ℕ) : ¬ Match db cid p q := h.not_match_deleted hq
  have hrefs {A : Prop} (hA : A → Attached db q) (hno : ∀ n, ¬ Match db cid q n) : ¬ A := by
    rcases h.mem_deleted.mp hq with ⟨n, hn⟩ | ⟨-, -, -, -, -, -, hempty, -⟩
    · exact absurd hn (hno n)
    · exact fun hA' => hempty (hA hA')
  rintro (hcp | hl3i | ⟨ic', hic', hends⟩ | hc)
  · obtain ⟨hno, hold⟩ := (h.exists_ref_iff (fun cp : PropertyRow => cp.slotId)
      (fun cp n => { cp with slotId := some n }) (fun _ _ => rfl) hnew).mp hcp
    exact hrefs Or.inl hno hold
  · obtain ⟨hno, hold⟩ := (h.exists_ref_iff (fun l3i : Layer3Interface => l3i.slotId)
      (fun l3i n => { l3i with slotId := some n }) (fun _ _ => rfl) hnew).mp hl3i
    exact hrefs (Or.inr ∘ Or.inl) hno hold
  · obtain ⟨ic, hic, hmoved | ⟨hstays, rfl⟩⟩ := (mem_connections h hnone).mp hic'
    · rcases hmoved.ends hends with hold | ⟨p, -, hp⟩
      · exact hrefs (Or.inr ∘ Or.inr ∘ Or.inl) (fun n => h.not_match_of_moved hnone hic hmoved hends)
          ⟨ic, hic, hold⟩
      · exact hnew p hp
    · exact hrefs (Or.inr ∘ Or.inr ∘ Or.inl) (hstays q · hends) ⟨ic, hic, hends⟩
  · obtain ⟨hno, hold⟩ := (h.exists_ref_iff (fun c : ComponentRow => c.parentSlotId)
      (fun c n => { c with parentSlotId := some n }) (fun _ _ => rfl) hnew).mp hc
    exact hrefs (Or.inr ∘ Or.inr ∘ Or.inr) hno hold

/-- When both ends of a connection are to be moved, one of them is not. -/
theorem Sound.exists_attached (h : Sound db cid) (choices : Choices) {n' : ℕ} (hic : ic ∈ db.interComponentConnection)
    (hn : Match db cid ic.slot1Id n) (hn' : Match db cid ic.slot2Id n') :
    ∃ q ∈ deleted db cid, Attached (written choices db cid) q := by
  have hdel {q n : ℕ} (hm : Match db cid q n) : q ∈ deleted db cid := h.mem_deleted.mpr (Or.inl ⟨n, hm⟩)
  cases hupd : connectionUpd choices (slotMap db cid) ic with
  | none => exact absurd hn ((h.connectionUpd_eq_none.mp hupd).1 n)
  | some ic' =>
    have hmem : ic' ∈ (written choices db cid).interComponentConnection :=
      mem_updateRows.mpr ⟨ic, hic, Or.inl hupd⟩
    rcases h.moved_of_connectionUpd hupd with ⟨k, -, rfl⟩ | ⟨k, -, rfl⟩
    · exact ⟨_, hdel hn', Or.inr (Or.inr (Or.inl ⟨_, hmem, Or.inr rfl⟩))⟩
    · exact ⟨_, hdel hn, Or.inr (Or.inr (Or.inl ⟨_, hmem, Or.inl rfl⟩))⟩

theorem Sound.refsCheck_iff (h : Sound db cid) :
    (¬ ∃ slotId ∈ deleted db cid, Attached (written choices db cid) slotId ∨
      slotId ∈ db.slotRefs) ↔
    NoneWithin db cid ∧ ∀ q ∈ deleted db cid, q ∉ db.slotRefs := by
  constructor
  · intro hno
    refine ⟨fun ic hic n n' hn hn' => ?_, fun q hq href => hno ⟨q, hq, Or.inr href⟩⟩
    obtain ⟨q, hq, hattached⟩ := h.exists_attached choices hic hn hn'
    exact hno ⟨q, hq, Or.inl hattached⟩
  · rintro ⟨hnone, hrefs⟩ ⟨q, hq, hattached | href⟩
    · exact h.not_attached hnone hq hattached
    · exact hrefs q hq href

/-! ## The connections that are moved -/

/-- No connection has an end in the slot to which an end of a connection is moved. -/
def Free (db : Db) (cid : ℕ) : Prop :=
  ∀ ic ∈ db.interComponentConnection, ∀ q n, Ends ic q → Match db cid q n →
    ∀ ic₂ ∈ db.interComponentConnection, ¬ Ends ic₂ n

theorem meets_iff : Meets ic ic' ↔
    ic'.interComponentConnectionId ≠ ic.interComponentConnectionId ∧ ∃ q, Ends ic q ∧ Ends ic' q := by
  rw [Meets]
  refine and_congr_right fun _ => ?_
  constructor
  · rintro (heq | heq | heq | heq)
    · exact ⟨_, Or.inl rfl, Or.inl heq⟩
    · exact ⟨_, Or.inr rfl, Or.inl heq⟩
    · exact ⟨_, Or.inl rfl, Or.inr heq⟩
    · exact ⟨_, Or.inr rfl, Or.inr heq⟩
  · rintro ⟨q, rfl | rfl, heq | heq⟩ <;> simp [heq]

theorem Sound.not_ends (h : Sound db cid) {ic₂ : Connection}
    (hic : ic ∈ db.interComponentConnection) (hic₂ : ic₂ ∈ db.interComponentConnection)
    (hne : ic₂.interComponentConnectionId ≠ ic.interComponentConnectionId) (hq : Ends ic q) :
    ¬ Ends ic₂ q := by
  have hapart : Apart ic ic₂ := h.onceConnected.apart.forall hic hic₂ fun heq => hne (heq ▸ rfl)
  obtain ⟨h₁, h₂, h₃, h₄⟩ := hapart
  rcases hq with rfl | rfl
  · exact not_or.mpr ⟨h₁.symm, h₂.symm⟩
  · exact not_or.mpr ⟨h₃.symm, h₄.symm⟩

theorem Sound.free_iff (h : Sound db cid) (choices : Choices) (hnone : NoneWithin db cid) :
    (∀ ic ∈ db.interComponentConnection, ∀ ic', Moved db cid ic ic' →
      ic'.slot1Id ≠ ic'.slot2Id ∧ ∀ icc ∈ updateRows (connectionUpd choices (slotMap db cid))
        db.interComponentConnection, ¬ Meets ic' icc) ↔ Free db cid := by
  constructor
  · intro hall ic hic q n hq hm ic₂ hic₂ hends
    obtain ⟨ic', hmoved, hn, hboth⟩ : ∃ ic', Moved db cid ic ic' ∧ Ends ic' n ∧
        (Ends ic n → ic'.slot1Id = ic'.slot2Id) := by
      have hne := h.ne_of_match hm
      rcases hq with rfl | rfl
      · exact ⟨_, Or.inl ⟨n, hm, rfl⟩, Or.inl rfl, fun hn => (hn.resolve_left hne).symm⟩
      · exact ⟨_, Or.inr ⟨n, hm, rfl⟩, Or.inr rfl, fun hn => hn.resolve_right hne⟩
    obtain ⟨hself, hfree⟩ := hall ic hic ic' hmoved
    by_cases hid : ic₂.interComponentConnectionId = ic.interComponentConnectionId
    · obtain rfl := List.inj_on_of_nodup_map h.connectionKey hic₂ hic hid
      exact hself (hboth hends)
    · -- the row of the other connection still has this end
      obtain ⟨icc, hicc, hid', hn'⟩ : ∃ icc ∈ updateRows (connectionUpd choices (slotMap db cid))
          db.interComponentConnection, icc.interComponentConnectionId =
            ic₂.interComponentConnectionId ∧ Ends icc n := by
        cases hupd : connectionUpd choices (slotMap db cid) ic₂ with
        | none => exact ⟨ic₂, mem_updateRows.mpr ⟨ic₂, hic₂, Or.inr ⟨hupd, rfl⟩⟩, rfl, hends⟩
        | some icc =>
          refine ⟨icc, mem_updateRows.mpr ⟨ic₂, hic₂, Or.inl hupd⟩,
            (h.moved_of_connectionUpd hupd).id_eq, ?_⟩
          rcases h.moved_of_connectionUpd hupd with ⟨k, hk, rfl⟩ | ⟨k, hk, rfl⟩
          · exact Or.inr (hends.resolve_left fun heq => h.not_match_new hm (heq ▸ hk))
          · exact Or.inl (hends.resolve_right fun heq => h.not_match_new hm (heq ▸ hk))
      refine hfree icc hicc (meets_iff.mpr ⟨?_, n, hn, hn'⟩)
      rw [hid', hmoved.id_eq]
      exact hid
  · intro hfree ic hic ic' hmoved
    constructor
    · intro heq
      rcases hmoved with ⟨n, hn, rfl⟩ | ⟨n, hn, rfl⟩
      · exact hfree ic hic _ n (Or.inl rfl) hn ic hic (Or.inr heq.symm)
      · exact hfree ic hic _ n (Or.inr rfl) hn ic hic (Or.inl heq)
    · intro icc hicc hmeets
      obtain ⟨hid, q, hq, hq'⟩ := meets_iff.mp hmeets
      obtain ⟨ic₂, hic₂, hrow⟩ := (mem_connections h hnone).mp hicc
      have hid₂ : ic₂.interComponentConnectionId ≠ ic.interComponentConnectionId := by
        rw [← hmoved.id_eq]
        rcases hrow with hmoved₂ | ⟨-, rfl⟩
        · exact hmoved₂.id_eq ▸ hid
        · exact hid
      have hends₂ : Ends ic₂ q ∨ ∃ p, Ends ic₂ p ∧ Match db cid p q := by
        rcases hrow with hmoved₂ | ⟨-, rfl⟩
        · exact hmoved₂.ends hq'
        · exact Or.inl hq'
      rcases hmoved.ends hq with hold | ⟨p, hp, hm⟩ <;> rcases hends₂ with hold₂ | ⟨p₂, hp₂, hm₂⟩
      · exact h.not_ends hic hic₂ hid₂ hold hold₂
      · exact hfree ic₂ hic₂ p₂ q hp₂ hm₂ ic hic hold
      · exact hfree ic hic p q hp hm ic₂ hic₂ hold₂
      · obtain rfl := h.match_inj hm hm₂
        exact h.not_ends hic hic₂ hid₂ hp hp₂

/-! ## Tables that a check reads -/

theorem find?_slot_written (hq : q ∉ deleted db cid) :
    (written choices db cid).slot.find? (·.slotId = q) = db.slot.find? (·.slotId = q) := by
  rw [written, List.find?_filter]
  refine congrArg (List.find? · db.slot) (funext fun s => ?_)
  by_cases hid : s.slotId = q
  · simp [hid, hq]
  · simp [hid]

theorem joined_written (hq : q ∉ deleted db cid) :
    (written choices db cid).slots.joined q = db.slots.joined q := by
  have hslots : (written choices db cid).slots.slot.filter (·.slotId = q) =
      db.slots.slot.filter (·.slotId = q) := by
    rw [Db.slots, Db.slots, written, List.filter_map, List.filter_map, List.filter_filter]
    refine congrArg (List.map _) (congrArg (List.filter · db.slot) (funext fun s => ?_))
    by_cases hid : s.slotId = q
    · simp [hid, hq]
    · simp [hid]
  rw [Slots.joined, Slots.joined, hslots]
  rfl

theorem permits_written (h₁ : ic.slot1Id ∉ deleted db cid) (h₂ : ic.slot2Id ∉ deleted db cid) :
    (written choices db cid).slots.Permits ic ↔ db.slots.Permits ic := by
  rw [Slots.Permits, Slots.Permits, joined_written h₁, joined_written h₂]
  rfl

theorem permitsComponent_written {i : ℕ} (hq : q ∉ deleted db cid) :
    PermitsComponent (written choices db cid) i q ↔ PermitsComponent db i q := by
  have hmem (s : SlotRow) : s ∈ (written choices db cid).slot ∧ s.slotId = q ↔
      s ∈ db.slot ∧ s.slotId = q := by
    rw [written, List.mem_filter]
    constructor
    · rintro ⟨⟨hs, -⟩, hid⟩
      exact ⟨hs, hid⟩
    · rintro ⟨hs, rfl⟩
      exact ⟨⟨hs, decide_eq_true hq⟩, rfl⟩
  refine exists_congr fun s => ?_
  rw [← and_assoc, ← and_assoc, hmem]
  rfl

theorem find?_component_written {i : ℕ} :
    ((written choices db cid).component.find? (·.componentId = i)).map (·.componentTypeId) =
      (db.component.find? (·.componentId = i)).map (·.componentTypeId) := by
  have hrow (c : ComponentRow) : (((compUpd choices (slotMap db cid) c).getD c).componentId = c.componentId) ∧
      ((compUpd choices (slotMap db cid) c).getD c).componentTypeId = c.componentTypeId := by
    rw [compUpd]
    cases c.parentSlotId.bind (newSlotOf choices (slotMap db cid)) <;> exact ⟨rfl, rfl⟩
  rw [written, updateRows, List.find?_map, Option.map_map]
  have hkey : ((fun c : ComponentRow => decide (c.componentId = i)) ∘ fun c =>
      (compUpd choices (slotMap db cid) c).getD c) = fun c => decide (c.componentId = i) := by
    funext c
    rw [Function.comp_apply, (hrow c).1]
  rw [hkey]
  refine congrArg (Option.map · _) (funext fun c => (hrow c).2)

theorem componentAttrs_eq (t : PropertyTables) (i : ℕ) : componentAttrs t i =
    ((t.component.find? (·.componentId = i)).map (·.componentTypeId)).bind fun type =>
      (t.functionsOf type).map fun functions => (type, functions) := by
  rw [componentAttrs]
  cases t.component.find? (·.componentId = i) with
  | none => rfl
  | some c => exact (Option.map_eq_bind).symm

theorem componentAttrs_written {i : ℕ} :
    componentAttrs (written choices db cid).toPropertyTables i =
      componentAttrs db.toPropertyTables i := by
  rw [componentAttrs_eq, componentAttrs_eq, find?_component_written]
  rfl

theorem slotAttrs_eq (t : PropertyTables) (q : ℕ) : slotAttrs t q =
    (t.slot.find? (·.slotId = q)).bind fun cs =>
      (t.slotType.find? (·.slotTypeId = cs.slotTypeId)).bind fun st =>
        ((t.component.find? (·.componentId = cs.componentId)).map (·.componentTypeId)).bind
          fun type => (t.componentType.find? (·.componentTypeId = type)).map fun ct => (st, ct) := by
  rw [slotAttrs]
  refine congrArg _ (funext fun cs => congrArg _ (funext fun st => ?_))
  cases t.component.find? (·.componentId = cs.componentId) with
  | none => rfl
  | some c => exact (Option.map_eq_bind).symm

theorem slotAttrs_written (hq : q ∉ deleted db cid) :
    slotAttrs (written choices db cid).toPropertyTables q = slotAttrs db.toPropertyTables q := by
  rw [slotAttrs_eq, slotAttrs_eq, find?_slot_written hq]
  simp only [find?_component_written]
  rfl

/-! ## The properties that are moved -/

/-- The slot where what is attached to a slot is to be. -/
def dest (db : Db) (cid q : ℕ) : ℕ :=
  (((slotMap db cid).find? (·.1 = q)).map (·.2)).getD q

def moveProperty (db : Db) (cid : ℕ) (cp : PropertyRow) : PropertyRow :=
  { cp with slotId := cp.slotId.map (dest db cid) }

theorem Sound.newSlotOf_getD (h : Sound db cid) (choices : Choices) :
    (newSlotOf choices (slotMap db cid) q).getD q = dest db cid q := by
  rw [dest]
  cases hfind : (slotMap db cid).find? (·.1 = q) with
  | none =>
    have hnone : newSlotOf choices (slotMap db cid) q = none := by
      refine h.newSlotOf_eq_none.mpr fun n hn => ?_
      exact Library.not_of_find?_eq_none hfind (h.mem_slotMap.mpr hn) rfl
    rw [hnone]
    rfl
  | some row =>
    obtain ⟨q', n⟩ := row
    obtain ⟨hrow, rfl⟩ := Library.of_find?_eq_some hfind
    rw [h.newSlotOf_eq_some.mpr (h.mem_slotMap.mp hrow)]
    rfl

theorem Sound.properties_written (h : Sound db cid) :
    (written choices db cid).componentProperty =
      db.componentProperty.map (moveProperty db cid) := by
  refine List.map_congr_left fun cp _ => ?_
  rw [propUpd, moveProperty]
  cases hslot : cp.slotId with
  | none =>
    obtain ⟨⟩ := cp
    obtain rfl := hslot
    rfl
  | some q =>
    rw [Option.map_some, ← h.newSlotOf_getD choices, Option.bind_some]
    cases newSlotOf choices (slotMap db cid) q with
    | none =>
      obtain ⟨⟩ := cp
      obtain rfl := hslot
      rfl
    | some n => rfl

theorem validateComponentProperty_written {table : List PropertyRow} {new : PropertyRow}
    (hnew : ∀ q ∈ new.slotId, q ∉ deleted db cid) :
    validateComponentProperty (written choices db cid).toPropertyTables table new =
      validateComponentProperty db.toPropertyTables table new := by
  have hslot (v : ValComponentProperty) :
      whenSet new.slotId (checkSlotId (written choices db cid).toPropertyTables v) =
        whenSet new.slotId (checkSlotId db.toPropertyTables v) := by
    cases hcase : new.slotId with
    | none => rfl
    | some q =>
      rw [whenSet, whenSet, checkSlotId, checkSlotId, slotAttrs_written (hnew q hcase)]
      rfl
  have hcomponent (v : ValComponentProperty) :
      checkComponentId (written choices db cid).toPropertyTables v =
        checkComponentId db.toPropertyTables v := by
    funext i
    rw [checkComponentId, checkComponentId, componentAttrs_written]
  have htargets (v : ValComponentProperty) :
      checkTargets (written choices db cid).toPropertyTables v new =
        checkTargets db.toPropertyTables v new := by
    rw [checkTargets, checkTargets, hslot, hcomponent]
    rfl
  rw [validateComponentProperty, validateComponentProperty]
  simp only [htargets]
  rfl

/-! ## When the statement can be done -/

/-- Each row that is moved may be where it is moved, and nothing refers to a slot that goes. -/
structure CanMove (db : Db) (cid : ℕ) : Prop where
  noneWithin : NoneWithin db cid
  refs : ∀ q, (∃ n, Match db cid q n) ∨ Empty db cid q → q ∉ db.slotRefs
  free : Free db cid
  permitted : ∀ ic ∈ db.interComponentConnection, ∀ ic', Moved db cid ic ic' →
    db.slots.Permits ic'
  parentFree : ∀ c ∈ db.component, ∀ q n, c.parentSlotId = some q → Match db cid q n →
    ∀ d ∈ db.component, d.parentSlotId ≠ some n
  parentPermitted : ∀ c ∈ db.component, ∀ q n, c.parentSlotId = some q → Match db cid q n →
    PermitsComponent db c.componentTypeId n
  properties : ∀ cp ∈ db.componentProperty, ∀ q n, cp.slotId = some q → Match db cid q n →
    validateComponentProperty db.toPropertyTables (db.componentProperty.map (moveProperty db cid))
      { cp with slotId := some n } = .ok ()

theorem Sound.new_notMem_deleted (h : Sound db cid) (hm : Match db cid q n) :
    n ∉ deleted db cid := fun hn => h.not_match_deleted hn hm

theorem Sound.ends_notMem_deleted (h : Sound db cid) (hnone : NoneWithin db cid)
    (hic : ic ∈ db.interComponentConnection) (hmoved : Moved db cid ic ic') (hq : Ends ic' q) :
    q ∉ deleted db cid := by
  intro hdel
  rcases hmoved.ends hq with hold | ⟨p, -, hp⟩
  · rcases h.mem_deleted.mp hdel with ⟨n, hn⟩ | ⟨-, -, -, -, -, -, hempty, -⟩
    · exact h.not_match_of_moved hnone hic hmoved hq hn
    · exact hempty (Or.inr (Or.inr (Or.inl ⟨ic, hic, hold⟩)))
  · exact h.not_match_deleted hdel hp

theorem checkSlotKeys_of_not_meets {table : List Connection} (hall : ∀ icc ∈ table, ¬ Meets ic icc) :
    checkSlotKeys table ic = .ok () := by
  rw [checkSlotKeys, bind_unit_eq_ok, raiseIf_eq_ok, raiseIf_eq_ok]
  constructor
  · rintro ⟨icc, hicc, hid, heq⟩
    exact hall icc hicc ⟨hid, Or.inl heq⟩
  · rintro ⟨icc, hicc, hid, heq⟩
    exact hall icc hicc ⟨hid, Or.inr (Or.inr (Or.inr heq))⟩

section

variable (h : Sound db cid)
include h

theorem Sound.connectionChecks_iff (choices : Choices) (hnone : NoneWithin db cid) :
    (((db.interComponentConnection.filterMap (connectionUpd choices (slotMap db cid))).forM
      (checkSlotKeys (written choices db cid).interComponentConnection) = .ok ()) ∧
    (db.interComponentConnection.filterMap (connectionUpd choices (slotMap db cid))).forM
      (validateInterComponentConnection (written choices db cid).slots choices.connection
        (written choices db cid).interComponentConnection) = .ok ()) ↔
    Free db cid ∧ ∀ ic ∈ db.interComponentConnection, ∀ ic', Moved db cid ic ic' →
      db.slots.Permits ic' := by
  have hall {P : Connection → Prop} :
      (∀ ic' ∈ db.interComponentConnection.filterMap (connectionUpd choices (slotMap db cid)), P ic') ↔
        ∀ ic ∈ db.interComponentConnection, ∀ ic', Moved db cid ic ic' → P ic' := by
    simp only [List.mem_filterMap, forall_exists_index, and_imp]
    constructor
    · intro hP ic hic ic' hmoved
      exact hP ic' ic hic ((h.connectionUpd_eq_some hnone hic).mpr hmoved)
    · intro hP ic' ic hic hupd
      exact hP ic hic ic' (h.moved_of_connectionUpd hupd)
  rw [forM_eq_ok, forM_eq_ok, hall, hall, ← h.free_iff choices hnone]
  simp only [validateInterComponentConnection_ok_iff]
  have hpermits {ic ic' : Connection} (hic : ic ∈ db.interComponentConnection)
      (hmoved : Moved db cid ic ic') :
      (written choices db cid).slots.Permits ic' ↔ db.slots.Permits ic' :=
    permits_written (h.ends_notMem_deleted hnone hic hmoved (Or.inl rfl))
      (h.ends_notMem_deleted hnone hic hmoved (Or.inr rfl))
  constructor
  · rintro ⟨-, hvalid⟩
    refine ⟨fun ic hic ic' hmoved => ?_, fun ic hic ic' hmoved => ?_⟩
    · exact ⟨(hvalid ic hic ic' hmoved).1, (hvalid ic hic ic' hmoved).2.1⟩
    · exact (hpermits hic hmoved).mp (hvalid ic hic ic' hmoved).2.2
  · rintro ⟨hfree, hperm⟩
    refine ⟨fun ic hic ic' hmoved => ?_, fun ic hic ic' hmoved => ?_⟩
    · exact checkSlotKeys_of_not_meets (hfree ic hic ic' hmoved).2
    · obtain ⟨hself, hmeets⟩ := hfree ic hic ic' hmoved
      exact ⟨hself, hmeets, (hpermits hic hmoved).mpr (hperm ic hic ic' hmoved)⟩

theorem Sound.compUpd_eq_some {c' : ComponentRow} :
    compUpd choices (slotMap db cid) c = some c' ↔
      ∃ q n, c.parentSlotId = some q ∧ Match db cid q n ∧ c' = { c with parentSlotId := some n } := by
  simp only [compUpd, Option.map_eq_some_iff, Option.bind_eq_some_iff, h.newSlotOf_eq_some]
  constructor
  · rintro ⟨n, ⟨q, hq, hm⟩, rfl⟩
    exact ⟨q, n, hq, hm, rfl⟩
  · rintro ⟨q, n, hq, hm, rfl⟩
    exact ⟨n, ⟨q, hq, hm⟩, rfl⟩

theorem Sound.forall_compUpd (choices : Choices) {P : ComponentRow → Prop} :
    (∀ c' ∈ db.component.filterMap (compUpd choices (slotMap db cid)), P c') ↔
      ∀ c ∈ db.component, ∀ q n, c.parentSlotId = some q → Match db cid q n →
        P { c with parentSlotId := some n } := by
  simp only [List.mem_filterMap, h.compUpd_eq_some]
  constructor
  · intro hP c hc q n hq hm
    exact hP _ ⟨c, hc, q, n, hq, hm, rfl⟩
  · rintro hP c' ⟨c, hc, q, n, hq, hm, rfl⟩
    exact hP c hc q n hq hm

theorem Sound.componentChecks_iff (choices : Choices) :
    (((db.component.filterMap (compUpd choices (slotMap db cid))).forM
      (checkParentKey (written choices db cid).component) = .ok ()) ∧
    (db.component.filterMap (compUpd choices (slotMap db cid))).forM
      (validateComponentParentSlotId (written choices db cid)) = .ok ()) ↔
    (∀ c ∈ db.component, ∀ q n, c.parentSlotId = some q → Match db cid q n →
      ∀ d ∈ db.component, d.parentSlotId ≠ some n) ∧
    ∀ c ∈ db.component, ∀ q n, c.parentSlotId = some q → Match db cid q n →
      PermitsComponent db c.componentTypeId n := by
  rw [forM_eq_ok, forM_eq_ok, h.forall_compUpd choices, h.forall_compUpd choices]
  refine and_congr ?_ ?_
  · simp only [checkParentKey, raiseIf_eq_ok]
    constructor
    · intro hkey c hc q n hq hm d hd hdn
      by_cases hid : d.componentId = c.componentId
      · obtain rfl := List.inj_on_of_nodup_map h.componentKey hd hc hid
        exact h.ne_of_match hm (Option.some_inj.mp (hq.symm.trans hdn))
      · refine hkey c hc q n hq hm ⟨d, mem_updateRows.mpr ⟨d, hd, Or.inr ⟨?_, rfl⟩⟩, hid, hdn⟩
        rw [Option.eq_none_iff_forall_ne_some]
        rintro d' hd'
        obtain ⟨p, k, hp, hk, -⟩ := h.compUpd_eq_some.mp hd'
        obtain rfl := Option.some_inj.mp (hdn.symm.trans hp)
        exact h.not_match_new hm hk
    · rintro hfree c hc q n hq hm ⟨d', hd', hid, hdn⟩
      obtain ⟨d, hd, hupd | ⟨-, rfl⟩⟩ := mem_updateRows.mp hd'
      · obtain ⟨p, k, hp, hk, rfl⟩ := h.compUpd_eq_some.mp hupd
        obtain rfl := Option.some_inj.mp hdn
        obtain rfl := h.match_inj hm hk
        exact hid (congrArg (fun c => c.componentId) (h.parentKey d hd c hc q hp hq))
      · exact hfree c hc q n hq hm d hd hdn
  · have hcheck {c : ComponentRow} {q n : ℕ} (hm : Match db cid q n) :
        validateComponentParentSlotId (written choices db cid) { c with parentSlotId := some n } =
          .ok () ↔ PermitsComponent db c.componentTypeId n := by
      rw [validateComponentParentSlotId, whenSet, raiseIf_eq_ok, not_not]
      exact permitsComponent_written (h.new_notMem_deleted hm)
    constructor
    · intro hvalid c hc q n hq hm
      exact (hcheck hm).mp (hvalid c hc q n hq hm)
    · intro hperm c hc q n hq hm
      exact (hcheck hm).mpr (hperm c hc q n hq hm)

theorem Sound.propertyChecks_iff :
    (db.componentProperty.filterMap (propUpd choices (slotMap db cid))).forM
      (validateComponentProperty (written choices db cid).toPropertyTables
        (written choices db cid).componentProperty) = .ok () ↔
    ∀ cp ∈ db.componentProperty, ∀ q n, cp.slotId = some q → Match db cid q n →
      validateComponentProperty db.toPropertyTables
        (db.componentProperty.map (moveProperty db cid)) { cp with slotId := some n } = .ok () := by
  have hcheck {cp : PropertyRow} {q n : ℕ} (hm : Match db cid q n) :
      validateComponentProperty (written choices db cid).toPropertyTables
        (written choices db cid).componentProperty { cp with slotId := some n } =
      validateComponentProperty db.toPropertyTables
        (db.componentProperty.map (moveProperty db cid)) { cp with slotId := some n } := by
    rw [h.properties_written]
    refine validateComponentProperty_written fun k hk => ?_
    obtain rfl := Option.some_inj.mp hk
    exact h.new_notMem_deleted hm
  rw [forM_eq_ok]
  simp only [List.mem_filterMap, propUpd, Option.map_eq_some_iff, Option.bind_eq_some_iff,
    h.newSlotOf_eq_some]
  constructor
  · intro hall cp hcp q n hq hm
    rw [← hcheck hm]
    exact hall _ ⟨cp, hcp, n, ⟨q, hq, hm⟩, rfl⟩
  · rintro hall cp' ⟨cp, hcp, n, ⟨q, hq, hm⟩, rfl⟩
    rw [hcheck hm]
    exact hall cp hcp q n hq hm

theorem checkWritten_ok_iff :
    checkWritten choices db cid = .ok () ↔ CanMove db cid := by
  rw [checkWritten]
  simp only [bind_unit_eq_ok]
  rw [raiseIf_eq_ok, h.refsCheck_iff, h.propertyChecks_iff]
  have hrefs : (∀ q ∈ deleted db cid, q ∉ db.slotRefs) ↔
      ∀ q, (∃ n, Match db cid q n) ∨ Empty db cid q → q ∉ db.slotRefs :=
    forall_congr' fun q => by rw [h.mem_deleted]
  rw [hrefs]
  constructor
  · rintro ⟨hslotKeys, hparentKeys, ⟨hnone, hrefs⟩, hconnections, hproperties, hparents⟩
    obtain ⟨hfree, hpermitted⟩ := (h.connectionChecks_iff choices hnone).mp ⟨hslotKeys, hconnections⟩
    obtain ⟨hparentFree, hparentPermitted⟩ := (h.componentChecks_iff choices).mp ⟨hparentKeys, hparents⟩
    exact ⟨hnone, hrefs, hfree, hpermitted, hparentFree, hparentPermitted, hproperties⟩
  · rintro ⟨hnone, hrefs, hfree, hpermitted, hparentFree, hparentPermitted, hproperties⟩
    obtain ⟨hslotKeys, hconnections⟩ := (h.connectionChecks_iff choices hnone).mpr
      ⟨hfree, hpermitted⟩
    obtain ⟨hparentKeys, hparents⟩ := (h.componentChecks_iff choices).mpr
      ⟨hparentFree, hparentPermitted⟩
    exact ⟨hslotKeys, hparentKeys, ⟨hnone, hrefs⟩, hconnections, hproperties, hparents⟩

end

/-! ## The names of the slots of what was moved -/

section Names

variable {t t' : NameTables} {new ps : SlotRow} {l : List ComponentRow}

/-- The slots of a component in a slot can be named. -/
def Fits (t : NameTables) (c : ComponentRow) (ps : SlotRow) : Prop :=
  ∀ s ∈ t.slot, s.componentId = c.componentId → ∀ r ∈ recIn t s ps, ∃ sn, generate r = .ok sn

/-- The component sits in a slot, which is not one of the components of a list. -/
def SitsOutside (t : NameTables) (l : List ComponentRow) (c : ComponentRow) : Prop :=
  t.component.find? (·.componentId = c.componentId) = some c ∧
    ∃ q ps, c.parentSlotId = some q ∧ t.slotOf (some q) = some ps ∧
      ∀ d ∈ l, ps.componentId ≠ d.componentId

/-- The tables with the slots of a component named. -/
def withNames (t : NameTables) (c : ComponentRow) : NameTables :=
  { t with
    slot := t.slot.map
      (renamed t ((t.slot.filter (·.componentId = c.componentId)).map fun s => s.slotId)) }

@[simp] theorem slotIds_withNames :
    (withNames t c).slot.map (fun s => s.slotId) = t.slot.map fun s => s.slotId := by
  rw [withNames, List.map_map]
  exact List.map_congr_left fun s _ => slotId_renamed

section

variable (hslot : (t.slot.map fun s => s.slotId).Nodup)
include hslot

theorem slotOf_withNames (hps : t.slotOf (some q) = some ps)
    (hne : ps.componentId ≠ c.componentId) :
    (withNames t c).slotOf (some q) = some ps := by
  have hkey (l : List ℕ) : ((fun s : SlotRow => decide (some s.slotId = some q)) ∘ renamed t l) =
      fun s => decide (some s.slotId = some q) := by
    funext s
    rw [Function.comp_apply, slotId_renamed]
  rw [NameTables.slotOf] at hps
  rw [NameTables.slotOf, withNames, List.find?_map, hkey, hps, Option.map_some,
    renamed_of_ne hslot (List.mem_of_find?_eq_some hps) hne]

theorem fits_withNames {d : ComponentRow} (hne : d.componentId ≠ c.componentId) :
    Fits (withNames t c) d ps ↔ Fits t d ps := by
  constructor
  · intro hfits s hs howner
    refine hfits s (List.mem_map.mpr ⟨s, hs, renamed_of_ne hslot hs ?_⟩) howner
    rwa [howner]
  · intro hfits s hs howner
    obtain ⟨s₀, hs₀, rfl⟩ := List.mem_map.mp hs
    rw [componentId_renamed] at howner
    rw [renamed_of_ne hslot hs₀ (howner ▸ hne)]
    exact hfits s₀ hs₀ howner

theorem SitsOutside.withNames {d : ComponentRow} (h : SitsOutside t (c :: l) d) :
    SitsOutside (withNames t c) l d := by
  obtain ⟨hfind, q, ps, hq, hps, hout⟩ := h
  exact ⟨hfind, q, ps, hq, slotOf_withNames hslot hps (hout c List.mem_cons_self),
    fun e he => hout e (List.mem_cons_of_mem _ he)⟩

theorem setSlotNamesByTrigger_ok_iff
    (hfind : t.component.find? (·.componentId = c.componentId) = some c)
    (hq : c.parentSlotId = some q) (hps : t.slotOf (some q) = some ps) :
    setSlotNamesByTrigger t c = .ok t' ↔ Fits t c ps ∧ t' = withNames t c := by
  have hfits : AllGenerate t ((t.slot.filter (·.componentId = c.componentId)).map (·.slotId)) ↔
      Fits t c ps := by
    rw [allGenerate_iff hslot]
    refine forall₂_congr fun s _ => forall_congr' fun howner => ?_
    rw [slotRec_of_parent (howner ▸ hfind) hq hps]
  rw [setSlotNamesByTrigger, bind_eq_ok, ← hfits]
  simp only [setSlotNames_ok_iff hslot, and_assoc, exists_and_left, exists_eq_left]
  exact and_congr_right fun _ => ⟨fun h => (Except.ok.inj h).symm, fun h => congrArg _ h.symm⟩

theorem nameAll_ok_iff (hids : (l.map fun c => c.componentId).Nodup)
    (hl : ∀ c ∈ l, SitsOutside t l c) :
    (∃ t', l.foldlM setSlotNamesByTrigger t = .ok t') ↔
      ∀ c ∈ l, ∀ q ps, c.parentSlotId = some q → t.slotOf (some q) = some ps → Fits t c ps := by
  induction l generalizing t with
  | nil => exact iff_of_true ⟨t, rfl⟩ fun c hc => absurd hc List.not_mem_nil
  | cons c l ih =>
    obtain ⟨hfind, q, ps, hq, hps, hout⟩ := hl c List.mem_cons_self
    rw [List.map_cons, List.nodup_cons] at hids
    have hne {d : ComponentRow} (hd : d ∈ l) : d.componentId ≠ c.componentId := fun heq =>
      hids.1 (heq ▸ List.mem_map_of_mem hd)
    have hl' : ∀ d ∈ l, SitsOutside (withNames t c) l d := fun d hd =>
      (hl d (List.mem_cons_of_mem _ hd)).withNames hslot
    have ih := ih (t := withNames t c) (by rwa [slotIds_withNames]) hids.2 hl'
    -- the others do not see the names of this one
    have hrest : (∀ d ∈ l, ∀ q ps, d.parentSlotId = some q →
        (withNames t c).slotOf (some q) = some ps → Fits (withNames t c) d ps) ↔
        ∀ d ∈ l, ∀ q ps, d.parentSlotId = some q → t.slotOf (some q) = some ps → Fits t d ps := by
      refine forall₂_congr fun d hd => ?_
      obtain ⟨-, k, pd, hk, hpd, houtd⟩ := hl d (List.mem_cons_of_mem _ hd)
      have hpd' := slotOf_withNames hslot hpd (houtd c List.mem_cons_self)
      constructor
      · intro h q' ps' hq' hps'
        obtain rfl := Option.some_inj.mp (hk.symm.trans hq')
        obtain rfl := Option.some_inj.mp (hpd.symm.trans hps')
        exact (fits_withNames hslot (hne hd)).mp (h k pd hk hpd')
      · intro h q' ps' hq' hps'
        obtain rfl := Option.some_inj.mp (hk.symm.trans hq')
        obtain rfl := Option.some_inj.mp (hpd'.symm.trans hps')
        exact (fits_withNames hslot (hne hd)).mpr (h k pd hk hpd)
    have hfirst : (∀ q' ps', c.parentSlotId = some q' → t.slotOf (some q') = some ps' →
        Fits t c ps') ↔ Fits t c ps := by
      constructor
      · intro h
        exact h q ps hq hps
      · intro h q' ps' hq' hps'
        obtain rfl := Option.some_inj.mp (hq.symm.trans hq')
        obtain rfl := Option.some_inj.mp (hps.symm.trans hps')
        exact h
    rw [List.forall_mem_cons, hfirst, ← hrest, ← ih]
    simp only [List.foldlM_cons, bind_eq_ok, setSlotNamesByTrigger_ok_iff hslot hfind hq hps]
    constructor
    · rintro ⟨t', -, ⟨hfits, rfl⟩, ht'⟩
      exact ⟨hfits, t', ht'⟩
    · rintro ⟨hfits, t', ht'⟩
      exact ⟨t', _, ⟨hfits, rfl⟩, ht'⟩

theorem slotIds_nameAll (h : l.foldlM setSlotNamesByTrigger t = .ok t') :
    t'.slot.map (fun s => s.slotId) = t.slot.map fun s => s.slotId := by
  refine foldlM_keeps (P := fun t' : NameTables =>
    t'.slot.map (fun s => s.slotId) = t.slot.map fun s => s.slotId) (fun c _ t₁ t₂ h₁ h₂ => ?_) rfl h
  obtain ⟨slot, hslot', h₂⟩ := bind_eq_ok.mp h₂
  obtain rfl := Except.ok.inj h₂
  obtain ⟨-, rfl⟩ := (setSlotNames_ok_iff (h₁ ▸ hslot)).mp hslot'
  rw [← h₁]
  simp only [List.map_map]
  exact List.map_congr_left fun s _ => slotId_renamed

end

end Names

/-! ## The whole function -/

/-- The tables with the slots of the component named. -/
def afterNaming (db : Db) (cid : ℕ) : Db :=
  { db with
    slot := db.slot.map
      (renamed db.toNameTables ((db.slot.filter (·.componentId = cid)).map fun s => s.slotId)) }

/-- The slots of the component can be named, what is attached to old slots can be moved, and then the
slots of the components that were moved can be named. -/
structure CanMigrate (db : Db) (cid : ℕ) : Prop where
  names : ∀ s ∈ db.slot, s.componentId = cid → ∀ r ∈ slotRec db.toNameTables s,
    ∃ sn, generate r = .ok sn
  moves : CanMove (afterNaming db cid) cid
  childNames : ∀ c ∈ db.component, ∀ f o n, Matches (afterNaming db cid) cid f o n →
    c.parentSlotId = some o.slotId → Fits (afterNaming db cid).toNameTables c n

theorem Keys.afterNaming (h : Keys db cid) : Keys (afterNaming db cid) cid where
  slotKey := by
    rw [MigrateSlots.afterNaming, List.map_map]
    convert h.slotKey using 1
    exact List.map_congr_left fun s _ => slotId_renamed
  slotTypeKey := h.slotTypeKey
  componentKey := h.componentKey
  parentKey := h.parentKey
  connectionKey := h.connectionKey
  onceConnected := h.onceConnected
  notInItself := by
    intro c hc hcid s hs hparent
    obtain ⟨s₀, hs₀, rfl⟩ := List.mem_map.mp hs
    rw [componentId_renamed]
    rw [slotId_renamed] at hparent
    exact h.notInItself c hc hcid s₀ hs₀ hparent

theorem Keys.named_ok_iff (h : Keys db cid) : named db cid = .ok db' ↔
    (∀ s ∈ db.slot, s.componentId = cid → ∀ r ∈ slotRec db.toNameTables s,
      ∃ sn, generate r = .ok sn) ∧ db' = MigrateSlots.afterNaming db cid := by
  rw [named, bind_eq_ok, ← allGenerate_iff (t := db.toNameTables) h.slotKey]
  simp only [setSlotNames_ok_iff (t := db.toNameTables) h.slotKey, and_assoc, exists_and_left,
    exists_eq_left]
  exact and_congr_right fun _ => ⟨fun h => (Except.ok.inj h).symm, fun h => congrArg _ h.symm⟩

section

variable (h : Sound db cid)
include h

theorem Sound.owner_of_deleted (hs : s ∈ db.slot) (hdel : s.slotId ∈ deleted db cid) :
    s.componentId = cid := by
  rcases h.mem_deleted.mp hdel with ⟨n, f, o, new, hm, hid, -⟩ | ⟨f, s', hs', -, -, -, -, hid⟩
  · rw [← h.eq_of_slotId hm.old.mem hs hid]
    exact hm.old.owner
  · rw [← h.eq_of_slotId hs'.mem hs hid]
    exact hs'.owner

theorem Sound.ne_of_parent (hc : c ∈ db.component) (hq : c.parentSlotId = some q)
    (hm : Match db cid q n) : c.componentId ≠ cid := by
  obtain ⟨f, o, new, hm, rfl, -⟩ := hm
  intro hcid
  exact h.notInItself c hc hcid o hm.old.mem hq hm.old.owner

theorem Sound.compUpd_ids :
    ((db.component.filterMap (compUpd choices (slotMap db cid))).map fun c => c.componentId).Nodup := by
  refine List.pairwise_map.mpr (List.pairwise_filterMap.mpr ?_)
  refine (List.pairwise_map.mp h.componentKey).imp fun {c d} hne c' hc' d' hd' => ?_
  obtain ⟨-, -, -, -, rfl⟩ := h.compUpd_eq_some.mp hc'
  obtain ⟨-, -, -, -, rfl⟩ := h.compUpd_eq_some.mp hd'
  exact hne

theorem Sound.component_written_ids (choices : Choices) :
    ((written choices db cid).component.map fun c => c.componentId).Nodup := by
  rw [written, updateRows, List.map_map]
  convert h.componentKey using 1
  refine List.map_congr_left fun c _ => ?_
  rw [Function.comp_apply, compUpd]
  cases c.parentSlotId.bind (newSlotOf choices (slotMap db cid)) <;> rfl

theorem Sound.slot_written_ids (choices : Choices) :
    ((written choices db cid).slot.map fun s => s.slotId).Nodup :=
  h.slotKey.sublist (List.filter_sublist.map _)

theorem Sound.slotOf_written {o new : SlotRow} (hm : Matches db cid f o new) :
    (written choices db cid).slotOf (some new.slotId) = some new := by
  have hnew : new ∈ (written choices db cid).slot :=
    List.mem_filter.mpr ⟨hm.new.mem, decide_eq_true
      (h.new_notMem_deleted ⟨f, o, new, hm, rfl, rfl⟩)⟩
  rw [NameTables.slotOf]
  simp only [Option.some_inj]
  exact Library.find?_key (h.slot_written_ids choices) hnew

theorem Sound.fits_written {ps : SlotRow} (hne : c.componentId ≠ cid) :
    Fits (written choices db cid).toNameTables c ps ↔ Fits db.toNameTables c ps := by
  constructor
  · intro hfits s hs howner
    refine hfits s (List.mem_filter.mpr ⟨hs, decide_eq_true fun hdel => ?_⟩) howner
    exact hne (howner.symm.trans (h.owner_of_deleted hs hdel))
  · intro hfits s hs howner
    exact hfits s (List.mem_of_mem_filter hs) howner

theorem Sound.childNames_iff (choices : Choices) :
    (∃ t', (db.component.filterMap (compUpd choices (slotMap db cid))).foldlM setSlotNamesByTrigger
      (written choices db cid).toNameTables = .ok t') ↔
    ∀ c ∈ db.component, ∀ f o n, Matches db cid f o n → c.parentSlotId = some o.slotId →
      Fits db.toNameTables c n := by
  have hall {P : ComponentRow → Prop} := h.forall_compUpd choices (P := P)
  have hsits : ∀ c ∈ db.component.filterMap (compUpd choices (slotMap db cid)),
      SitsOutside (written choices db cid).toNameTables
        (db.component.filterMap (compUpd choices (slotMap db cid))) c := by
    refine hall.mpr fun c hc q n hq hm => ?_
    obtain ⟨f, o, new, hmatch, rfl, rfl⟩ := id hm
    refine ⟨?_, new.slotId, new, rfl, h.slotOf_written hmatch, ?_⟩
    · refine Library.find?_key (a := { c with parentSlotId := some new.slotId })
        (h.component_written_ids choices) (mem_updateRows.mpr ⟨c, hc, Or.inl ?_⟩)
      exact h.compUpd_eq_some.mpr ⟨_, _, hq, hm, rfl⟩
    · refine hall.mpr fun d hd q' n' hq' hm' => ?_
      rw [hmatch.new.owner]
      exact (h.ne_of_parent hd hq' hm').symm
  rw [nameAll_ok_iff (h.slot_written_ids choices) h.compUpd_ids hsits, hall]
  constructor
  · intro hfits c hc f o new hmatch hparent
    have hm : Match db cid o.slotId new.slotId := ⟨f, o, new, hmatch, rfl, rfl⟩
    exact (h.fits_written (h.ne_of_parent hc hparent hm)).mp
      (hfits c hc _ _ hparent hm _ new rfl (h.slotOf_written hmatch))
  · rintro hfits c hc q n hq hm q' ps hq' hps
    obtain ⟨f, o, new, hmatch, rfl, rfl⟩ := id hm
    obtain rfl := Option.some_inj.mp hq'
    obtain rfl := Option.some_inj.mp ((h.slotOf_written hmatch).symm.trans hps)
    have hne : c.componentId ≠ cid := h.ne_of_parent hc hq hm
    exact (h.fits_written (c := { c with parentSlotId := some _ }) hne).mpr
      (hfits c hc f o _ hmatch hq)

/-- **What a call that returns has done.** -/
theorem Sound.migrated (hmove : CanMove db cid) {names : NameTables}
    (hnames : names.slot.map (fun s => s.slotId) =
      (written choices db cid).slot.map fun s => s.slotId) :
    Migrated db cid { written choices db cid with slot := names.slot } where
  connection := by
    intro ic hic
    have hrow {ic' : Connection} (hmoved : Moved db cid ic ic') :
        ic' ∈ (written choices db cid).interComponentConnection :=
      (mem_connections h hmove.noneWithin).mpr ⟨ic, hic, Or.inl hmoved⟩
    by_cases h₁ : ∃ n, Match db cid ic.slot1Id n
    · obtain ⟨n, hn⟩ := h₁
      refine ⟨_, hrow (Or.inl ⟨n, hn, rfl⟩), rfl, fun k hk => h.match_unique hn hk, fun k hk => ?_⟩
      exact absurd hk (hmove.noneWithin ic hic n k hn)
    · by_cases h₂ : ∃ n, Match db cid ic.slot2Id n
      · obtain ⟨n, hn⟩ := h₂
        refine ⟨_, hrow (Or.inr ⟨n, hn, rfl⟩), rfl, fun k hk => absurd ⟨k, hk⟩ h₁, ?_⟩
        exact fun k hk => h.match_unique hn hk
      · refine ⟨ic, (mem_connections h hmove.noneWithin).mpr ⟨ic, hic, Or.inr ⟨?_, rfl⟩⟩, rfl,
          fun k hk => absurd ⟨k, hk⟩ h₁, fun k hk => absurd ⟨k, hk⟩ h₂⟩
        rintro q n (rfl | rfl) hm
        · exact h₁ ⟨n, hm⟩
        · exact h₂ ⟨n, hm⟩
  property := by
    intro cp hcp q n hq hm
    refine mem_updateRows.mpr ⟨cp, hcp, Or.inl ?_⟩
    rw [propUpd, hq, Option.bind_some, h.newSlotOf_eq_some.mpr hm]
    rfl
  component := by
    intro c hc q n hq hm
    exact mem_updateRows.mpr ⟨c, hc, Or.inl (h.compUpd_eq_some.mpr ⟨q, n, hq, hm, rfl⟩)⟩
  layer3Interface := by
    intro l3i hl3i q n hq hm
    refine mem_updateRows.mpr ⟨l3i, hl3i, Or.inl ?_⟩
    rw [l3iUpd, hq, Option.bind_some, h.newSlotOf_eq_some.mpr hm]
    rfl
  gone := by
    rintro q n hm s hs rfl
    have hin : s.slotId ∈ names.slot.map fun s => s.slotId := List.mem_map_of_mem hs
    rw [hnames] at hin
    obtain ⟨s', hs', hid⟩ := List.mem_map.mp hin
    exact of_decide_eq_true (List.mem_filter.mp hs').2 (hid ▸ h.mem_deleted.mpr (Or.inl ⟨n, hm⟩))
  deleted := by
    intro s hs hgone
    have hdel : s.slotId ∈ MigrateSlots.deleted db cid := by
      by_contra hnot
      have hin : s.slotId ∈ (written choices db cid).slot.map fun s => s.slotId :=
        List.mem_map_of_mem (List.mem_filter.mpr ⟨hs, decide_eq_true hnot⟩)
      rw [← hnames] at hin
      obtain ⟨s', hs', hid⟩ := List.mem_map.mp hin
      exact hgone s' hs' hid
    refine (h.mem_deleted.mp hdel).imp_right fun hempty => ?_
    have hrefs := hmove.refs _ (Or.inr hempty)
    obtain ⟨f, s', hs', -, hnot, -, hempty, hid⟩ := hempty
    obtain rfl := h.eq_of_slotId hs'.mem hs hid
    exact ⟨hs'.owner, hnot, hempty, hrefs⟩

end

/-- **`migrate_component_template_slots`** moves everything and deletes the old slots exactly when
each row may be where it is moved, no connection joins two slots that are to be replaced, and no
other table refers to a slot that is to go. -/
theorem migrated_iff (choices : Choices) (hkeys : Keys db cid)
    (hdistinct : Distinct (afterNaming db cid) cid) :
    (∃ r, migrateComponentTemplateSlots choices db cid = .ok r ∧
      Migrated (afterNaming db cid) cid r.1) ↔ CanMigrate db cid := by
  have h : Sound (afterNaming db cid) cid := ⟨hkeys.afterNaming, hdistinct⟩
  rw [migrateComponentTemplateSlots]
  simp only [bind_eq_ok, hkeys.named_ok_iff]
  constructor
  · rintro ⟨r, ⟨db₁, ⟨hnames, rfl⟩, ⟨⟩, hcheck, t', hchildren, -⟩, -⟩
    exact ⟨hnames, (checkWritten_ok_iff h).mp hcheck,
      (h.childNames_iff choices).mp ⟨t', hchildren⟩⟩
  · rintro ⟨hnames, hmove, hchildren⟩
    obtain ⟨t', ht'⟩ := (h.childNames_iff choices).mpr hchildren
    refine ⟨_, ⟨_, ⟨hnames, rfl⟩, (), (checkWritten_ok_iff h).mpr hmove, t', ht', rfl⟩, ?_⟩
    exact h.migrated hmove (slotIds_nameAll (h.slot_written_ids choices) ht')

/-- Two slots of the type that the component had, two of the one that it has, and a slot elsewhere. -/
def cardSlots : List SlotRow :=
  [⟨⟨10, 1, 7⟩, .char 'a', some 100⟩, ⟨⟨11, 1, 7⟩, .char 'a', some 200⟩,
    ⟨⟨12, 1, 7⟩, .char 'b', some 101⟩, ⟨⟨13, 1, 7⟩, .char 'b', some 201⟩,
    ⟨⟨30, 3, 7⟩, .char 'a', none⟩]

def card (connections : List Connection) : Db where
  component := [⟨⟨1, none⟩, 6⟩, ⟨⟨3, none⟩, 6⟩]
  slot := cardSlots
  componentTypeSlotTemplate :=
    [⟨100, 5, .char 'a', none, none⟩, ⟨101, 5, .char 'b', none, none⟩,
      ⟨200, 6, .char 'a', none, none⟩, ⟨201, 6, .char 'b', none, none⟩]
  slotType := [⟨7, "network"⟩]
  componentType := [⟨5, none⟩, ⟨6, none⟩]
  componentTypeComponentFunction := []
  valComponentProperty := []
  valComponentPropertyType := []
  valComponentPropertyValue := []
  interComponentConnection := connections
  componentProperty := []
  layer3Interface := []
  slotTypePermittedRemoteSlotType := [⟨7, 7⟩]
  slotTypePermittedComponentSlotType := []
  slotRefs := []

section Card

variable {connections : List Connection}

theorem afterNaming_card : afterNaming (card connections) 1 = card connections := rfl

theorem distinct_card : Distinct (card connections) 1 := by
  have hslots : ∀ s ∈ cardSlots, ∀ s' ∈ cardSlots, s.componentId = 1 → s'.componentId = 1 →
      s.slotName = s'.slotName → (OfOwnType (card []) s ↔ OfOwnType (card []) s') →
        s.slotId = s'.slotId := by
    unfold OfOwnType
    decide
  intro f s s' hs hs' hname hown
  exact hslots s hs.mem s' hs'.mem hs.owner hs'.owner hname hown

theorem keys_card (hkeyed : Keyed connections) (honce : OnceConnected connections) :
    Keys (card connections) 1 where
  slotKey := (by decide : (cardSlots.map fun s => s.slotId).Nodup)
  slotTypeKey := List.nodup_singleton _
  componentKey := (by decide : [1, 3].Nodup)
  parentKey := by simp [card]
  connectionKey := hkeyed
  onceConnected := honce
  notInItself := by simp [card]

theorem match_card (hkeyed : Keyed connections) (honce : OnceConnected connections) :
    Match (card connections) 1 q n ↔ (q, n) ∈ [(10, 11), (12, 13)] := by
  have hsound : Sound (card connections) 1 := ⟨keys_card hkeyed honce, distinct_card⟩
  rw [← hsound.mem_slotMap]
  rfl

end Card

theorem migrated_iff_card : ∃ r,
    migrateComponentTemplateSlots ⟨.listed ℕ, .listed (ℕ × ℕ), true⟩ (card [⟨1, 10, 30⟩]) 1 = .ok r ∧
      Migrated (card [⟨1, 10, 30⟩]) 1 r.1 := by
  have hkeyed : Keyed [⟨1, 10, 30⟩] := List.nodup_singleton _
  have honce : OnceConnected [⟨1, 10, 30⟩] := ⟨List.pairwise_singleton _ _, by simp⟩
  have hmatch {q n : ℕ} := match_card (q := q) (n := n) hkeyed honce
  refine (migrated_iff _ (keys_card hkeyed honce) distinct_card).mpr ⟨?_, ?_, ?_⟩
  · have hnone : ∀ s ∈ cardSlots, (slotRec (card []).toNameTables s).isNone := by decide
    intro s hs _ r hr
    exact absurd ((Option.isNone_iff_eq_none.mp (hnone s hs)).symm.trans hr) (by simp)
  · exact {
      noneWithin := by
        simp only [NoneWithin, afterNaming_card, hmatch]
        simp [card]
      refs := fun q _ => List.not_mem_nil
      free := by
        simp only [Free, afterNaming_card, hmatch]
        intro ic _ q n _ hm ic₂ hic₂ hends
        obtain rfl := List.mem_singleton.mp hic₂
        simp only [Ends, List.mem_cons, Prod.mk.injEq, List.not_mem_nil, or_false] at hm hends
        omega
      permitted := by
        simp only [Moved, afterNaming_card, hmatch]
        rintro ic hic ic' (⟨n, hn, rfl⟩ | ⟨n, hn, rfl⟩)
        · obtain rfl := List.mem_singleton.mp hic
          obtain rfl : n = 11 := by simpa using hn
          decide
        · obtain rfl := List.mem_singleton.mp hic
          simp at hn
      parentFree := by simp [card, afterNaming]
      parentPermitted := by simp [card, afterNaming]
      properties := fun cp hcp => absurd hcp List.not_mem_nil }
  · simp [card]

/-- Two old slots of the component are connected: the call fails, in whichever order the ends are
updated. -/
theorem connected_within : Keys (card [⟨1, 10, 12⟩]) 1 ∧ Distinct (card [⟨1, 10, 12⟩]) 1 ∧
    ∀ choices r, migrateComponentTemplateSlots choices (card [⟨1, 10, 12⟩]) 1 ≠ .ok r := by
  have hkeyed : Keyed [⟨1, 10, 12⟩] := List.nodup_singleton _
  have honce : OnceConnected [⟨1, 10, 12⟩] := ⟨List.pairwise_singleton _ _, by simp⟩
  have hkeys := keys_card hkeyed honce
  refine ⟨hkeys, distinct_card, fun choices r hok => ?_⟩
  have h : Sound (card [⟨1, 10, 12⟩]) 1 := ⟨hkeys, distinct_card⟩
  rw [migrateComponentTemplateSlots] at hok
  obtain ⟨db₁, hnamed, hok⟩ := bind_eq_ok.mp hok
  obtain ⟨-, rfl⟩ := hkeys.named_ok_iff.mp hnamed
  obtain ⟨⟨⟩, hcheck, -⟩ := bind_eq_ok.mp hok
  have hmove := (checkWritten_ok_iff h).mp hcheck
  exact hmove.noneWithin ⟨1, 10, 12⟩ List.mem_cons_self 11 13
    ((match_card hkeyed honce).mpr (by decide)) ((match_card hkeyed honce).mpr (by decide))

end MigrateSlots
end JazzHands.Component

import JazzHands.Hotpants.Token

/-!
# Tokens are brought to a server

The loop over tokens of `radiussync.pl`, with `SetTokenSequence` and `SetTokenLockStatus` of
`JazzHands::Management::Token`.

`put_token` and the two functions of the database store what they are given.  Calls of either store
do not fail, and what is printed is left out.
-/

namespace JazzHands.Hotpants
namespace TokenSync

/-- The fields of a token.  In the local store `time_skew` is called `skew_sequence`. -/
structure Record where
  tokenId : ℕ
  type : ℕ
  status : ℕ
  serial : String
  sequence : ℕ
  zeroTime : ℕ
  timeModulo : ℕ
  timeSkew : ℤ
  tokenLocked : Bool
  unlockTime : ℕ
  badLogins : ℕ
  tokenChanged : ℕ
  sequenceChanged : ℕ
  lockStatusChanged : ℕ
  userId : ℕ
  pin : Option String
  key : Option String

structure Lock where
  locked : Bool
  badLogins : ℕ
  unlockTime : ℕ
  deriving DecidableEq

def Record.lock (r : Record) : Lock := ⟨r.tokenLocked, r.badLogins, r.unlockTime⟩

/-- The fields that are only pulled from the database. -/
structure Settings where
  key : Option String
  pin : Option String
  type : ℕ
  status : ℕ
  serial : String
  zeroTime : ℕ
  timeModulo : ℕ
  timeSkew : ℤ

def Record.settings (r : Record) : Settings :=
  ⟨r.key, r.pin, r.type, r.status, r.serial, r.zeroTime, r.timeModulo, r.timeSkew⟩

/-! ## The database -/

structure Database where
  current : ℕ → Option Record
  committed : ℕ → Option Record

def Database.commit (d : Database) : Database := ⟨d.current, d.current⟩

def Database.change (d : Database) (tokenId : ℕ) (f : Record → Record) : Database :=
  { d with current := Function.update d.current tokenId ((d.current tokenId).map f) }

def setTokenSequence (d : Database) (tokenId sequence : ℕ) : Database :=
  if tokenId = 0 ∨ sequence = 0 then d
  else (d.change tokenId fun r => { r with sequence := sequence }).commit

def setTokenLockStatus (now : ℕ) (d : Database) (tokenId : ℕ) (lock : Lock)
    (lockStatusChanged : ℕ) : Database :=
  let changed := if lockStatusChanged = 0 then now else lockStatusChanged
  (d.change tokenId fun r => { r with
    tokenLocked := lock.locked
    unlockTime := lock.unlockTime
    badLogins := lock.badLogins
    lockStatusChanged := changed }).commit

/-! ## One token -/

/-- The variables of the loop. -/
structure Pass where
  database : Database
  hptoken : Record
  tokenChanged : Bool
  hptokenChanged : Bool

def syncSequence (token : Record) (p : Pass) : Pass :=
  if token.sequence > p.hptoken.sequence ∨ token.sequenceChanged > p.hptoken.sequenceChanged then
    { p with
      hptoken := { p.hptoken with
        key := token.key
        sequence := token.sequence
        sequenceChanged := token.sequenceChanged }
      hptokenChanged := true }
  else if token.sequence < p.hptoken.sequence then
    { p with
      tokenChanged := true
      database := setTokenSequence p.database token.tokenId p.hptoken.sequence }
  else p

def syncLock (now : ℕ) (token : Record) (p : Pass) : Pass :=
  if token.userId = 0 ∧ p.hptoken.lockStatusChanged ≠ 0 then
    { p with
      hptoken := { p.hptoken with
        tokenLocked := false
        badLogins := 0
        unlockTime := 0
        lockStatusChanged := 0 }
      hptokenChanged := true }
  else if token.lockStatusChanged < p.hptoken.lockStatusChanged then
    { p with
      database := setTokenLockStatus now p.database p.hptoken.tokenId p.hptoken.lock
        p.hptoken.lockStatusChanged }
  else if token.lockStatusChanged > p.hptoken.lockStatusChanged then
    { p with
      hptoken := { p.hptoken with
        tokenLocked := token.tokenLocked
        badLogins := token.badLogins
        unlockTime := token.unlockTime
        lockStatusChanged := token.lockStatusChanged }
      hptokenChanged := true }
  else p

/-- The PIN is what is set for a new PIN, and also for a new key. -/
def pulledPin (token hptoken : Record) : Option String :=
  if truthy token.pin ∧ hptoken.pin ≠ token.pin then token.pin
  else if truthy token.key ∧ hptoken.key ≠ token.key then token.pin
  else hptoken.pin

def syncSettings (token : Record) (p : Pass) : Pass :=
  if token.tokenChanged > p.hptoken.tokenChanged then
    { p with
      hptoken := { p.hptoken with
        type := token.type
        pin := pulledPin token p.hptoken
        status := token.status
        serial := token.serial
        zeroTime := token.zeroTime
        timeModulo := token.timeModulo
        timeSkew := token.timeSkew
        tokenChanged := token.tokenChanged }
      hptokenChanged := true }
  else p

structure Stores where
  database : Database
  hp : ℕ → Option Record

def putToken (hp : ℕ → Option Record) (token : Record) : ℕ → Option Record :=
  Function.update hp token.tokenId (some token)

/-- The body of the loop.  What is put in the local store is `$token`. -/
def syncToken (now : ℕ) (st : Stores) (token : Record) : Stores :=
  if token.tokenId = 0 then st
  else
    match st.hp token.tokenId with
    | none => { st with hp := putToken st.hp token }
    | some hptoken =>
      let p := syncSettings token (syncLock now token
        (syncSequence token ⟨st.database, hptoken, false, false⟩))
      { database := if p.tokenChanged then p.database.commit else p.database
        hp := if p.hptokenChanged then putToken st.hp token else st.hp }

/-- The loop, over what `GetAllTokens` has given. -/
def syncTokens (now : ℕ) (st : Stores) (tokens : List Record) : Stores :=
  tokens.foldl (syncToken now) st

/-! ## What is promised -/

/-- Every group of fields of the upstream record `u'` and the local record `l'` is that of the side
that has changed it last. -/
structure Merged (u l u' l' : Record) : Prop where
  reset : l.sequenceChanged < u.sequenceChanged → u'.sequence = u.sequence ∧ l'.sequence = u.sequence
  largest : ¬ l.sequenceChanged < u.sequenceChanged →
    u'.sequence = max u.sequence l.sequence ∧ l'.sequence = max u.sequence l.sequence
  lockUp : l.lockStatusChanged < u.lockStatusChanged → u'.lock = u.lock ∧ l'.lock = u.lock
  lockDown : u.lockStatusChanged < l.lockStatusChanged → u'.lock = l.lock ∧ l'.lock = l.lock
  settings : l.tokenChanged < u.tokenChanged → l'.settings = u.settings

/-- Something of the upstream record is newer, so that the local record is written. -/
def Pulled (u l : Record) : Prop :=
  (l.sequence < u.sequence ∨ l.sequenceChanged < u.sequenceChanged) ∨
    l.lockStatusChanged < u.lockStatusChanged ∨ l.tokenChanged < u.tokenChanged

/-- Something of the local record would be lost if it were written over. -/
def Ahead (u l : Record) : Prop :=
  (u.sequence < l.sequence ∧ ¬ l.sequenceChanged < u.sequenceChanged) ∨
    (u.lockStatusChanged < l.lockStatusChanged ∧ u.lock ≠ l.lock)

instance (u l : Record) : Decidable (Pulled u l) :=
  inferInstanceAs (Decidable ((_ ∨ _) ∨ _ ∨ _))

/-- Nothing is left to commit, and the local store finds a record under its id. -/
structure Settled (st : Stores) : Prop where
  database : st.database.current = st.database.committed
  ids : ∀ id r, st.hp id = some r → r.tokenId = id

/-- The stores hold the two records of a token. -/
structure Holds (st : Stores) (u l : Record) : Prop where
  settled : Settled st
  upstream : st.database.committed u.tokenId = some u
  loc : st.hp u.tokenId = some l

variable {now : ℕ} {d : Database} {st : Stores} {tokens : List Record} {p : Pass}
  {token u l u₁ : Record} {id : ℕ} {f : Record → Record}

/-! ## The database -/

/-- Nothing is left to commit. -/
def Database.Settled (d : Database) : Prop := d.current = d.committed

theorem commit_of_settled (h : d.Settled) : d.commit = d := by
  show (⟨d.current, d.current⟩ : Database) = ⟨d.current, d.committed⟩
  rw [show d.current = d.committed from h]

theorem settled_commit : d.commit.Settled := rfl

theorem change_commit (h : d.Settled) (hid : d.committed id = some u) :
    (d.change id f).commit.committed id = some (f u) := by
  show Function.update d.current id ((d.current id).map f) id = some (f u)
  rw [Function.update_self, h, hid, Option.map_some]

theorem change_commit_other {id' : ℕ} (h : d.Settled) (hne : id' ≠ id) :
    (d.change id f).commit.committed id' = d.committed id' := by
  show Function.update d.current id ((d.current id).map f) id' = d.committed id'
  rw [Function.update_of_ne hne, h]

theorem settled_setTokenSequence {sequence : ℕ} (h : d.Settled) :
    (setTokenSequence d id sequence).Settled := by
  unfold setTokenSequence
  split_ifs
  · exact h
  · exact settled_commit

/-! ## The three groups -/

/-- The upstream record with the larger sequence. -/
def sequenceUp (u l : Record) : Record :=
  if ¬ l.sequenceChanged < u.sequenceChanged ∧ u.sequence < l.sequence then
    { u with sequence := l.sequence }
  else u

/-- A record with the lock state of another. -/
def lockUp (u l : Record) : Record :=
  if u.lockStatusChanged < l.lockStatusChanged then
    { u with
      tokenLocked := l.tokenLocked
      unlockTime := l.unlockTime
      badLogins := l.badLogins
      lockStatusChanged := l.lockStatusChanged }
  else u

/-- What a stage has left in the variables. -/
structure Stage (token u₁ : Record) (changed : Prop) (p : Pass) : Prop where
  settled : p.database.Settled
  upstream : p.database.committed token.tokenId = some u₁
  changed_iff : p.hptokenChanged = true ↔ changed

theorem stage_sequence (hsettled : d.Settled) (hup : d.committed u.tokenId = some u)
    (hid : u.tokenId ≠ 0) :
    Stage u (sequenceUp u l) (l.sequence < u.sequence ∨ l.sequenceChanged < u.sequenceChanged)
      (syncSequence u ⟨d, l, false, false⟩) := by
  unfold syncSequence sequenceUp
  dsimp only
  by_cases hnewer : u.sequence > l.sequence ∨ u.sequenceChanged > l.sequenceChanged
  · rw [if_pos hnewer, if_neg (by omega)]
    exact ⟨hsettled, hup, iff_of_true rfl hnewer⟩
  · rw [if_neg hnewer]
    by_cases hbehind : u.sequence < l.sequence
    · rw [if_pos hbehind, if_pos (by omega)]
      refine ⟨settled_setTokenSequence hsettled, ?_, iff_of_false Bool.false_ne_true hnewer⟩
      show (setTokenSequence d u.tokenId l.sequence).committed u.tokenId = _
      rw [setTokenSequence, if_neg (by omega), change_commit hsettled hup]
    · rw [if_neg hbehind, if_neg (by omega)]
      exact ⟨hsettled, hup, iff_of_false Bool.false_ne_true hnewer⟩

theorem syncSequence_hptoken (u : Record) (p : Pass) :
    (syncSequence u p).hptoken.lock = p.hptoken.lock ∧
      (syncSequence u p).hptoken.lockStatusChanged = p.hptoken.lockStatusChanged ∧
      (syncSequence u p).hptoken.tokenChanged = p.hptoken.tokenChanged ∧
      (syncSequence u p).hptoken.tokenId = p.hptoken.tokenId := by
  unfold syncSequence
  split_ifs <;> exact ⟨rfl, rfl, rfl, rfl⟩

theorem stage_lock {changed : Prop} (h : Stage u u₁ changed p) (hassigned : u.userId ≠ 0)
    (hlock : p.hptoken.lock = l.lock)
    (hchanged : p.hptoken.lockStatusChanged = l.lockStatusChanged)
    (hid : p.hptoken.tokenId = u.tokenId)
    (hu₁ : u₁.lockStatusChanged = u.lockStatusChanged) :
    Stage u (lockUp u₁ l) (changed ∨ l.lockStatusChanged < u.lockStatusChanged)
      (syncLock now u p) ∧ (syncLock now u p).hptoken.tokenChanged = p.hptoken.tokenChanged := by
  have hlocked : l.lock = ⟨l.tokenLocked, l.badLogins, l.unlockTime⟩ := rfl
  have hunassigned : ¬ (u.userId = 0 ∧ l.lockStatusChanged ≠ 0) := fun h => hassigned h.1
  unfold syncLock lockUp
  rw [hchanged, hid, hlock, hu₁, if_neg hunassigned]
  by_cases hdown : u.lockStatusChanged < l.lockStatusChanged
  · rw [if_pos hdown, if_pos hdown]
    refine ⟨⟨settled_commit, ?_, ?_⟩, rfl⟩
    · show (setTokenLockStatus now p.database u.tokenId l.lock l.lockStatusChanged).committed
        u.tokenId = _
      rw [setTokenLockStatus, if_neg (by omega), change_commit h.settled h.upstream]
      rfl
    · show p.hptokenChanged = true ↔ _
      rw [h.changed_iff]
      exact ⟨.inl, fun hor => hor.resolve_right (by omega)⟩
  · rw [if_neg hdown, if_neg hdown]
    by_cases hup : u.lockStatusChanged > l.lockStatusChanged
    · rw [if_pos hup]
      exact ⟨⟨h.settled, h.upstream, iff_of_true rfl (.inr hup)⟩, rfl⟩
    · rw [if_neg hup]
      refine ⟨⟨h.settled, h.upstream, ?_⟩, rfl⟩
      rw [h.changed_iff]
      exact ⟨.inl, fun hor => hor.resolve_right hup⟩

theorem stage_settings {changed : Prop} (h : Stage u u₁ changed p)
    (hchanged : p.hptoken.tokenChanged = l.tokenChanged) :
    Stage u u₁ (changed ∨ l.tokenChanged < u.tokenChanged) (syncSettings u p) ∧
      (syncSettings u p).database = p.database := by
  unfold syncSettings
  rw [hchanged]
  by_cases hup : u.tokenChanged > l.tokenChanged
  · rw [if_pos hup]
    exact ⟨⟨h.settled, h.upstream, iff_of_true rfl (.inr hup)⟩, rfl⟩
  · rw [if_neg hup]
    refine ⟨⟨h.settled, h.upstream, ?_⟩, rfl⟩
    rw [h.changed_iff]
    exact ⟨.inl, fun hor => hor.resolve_right hup⟩

/-! ## One token -/

theorem syncToken_self (h : Holds st u l) (hid : u.tokenId ≠ 0) (hassigned : u.userId ≠ 0) :
    (syncToken now st u).database.committed u.tokenId = some (lockUp (sequenceUp u l) l) ∧
      (syncToken now st u).hp u.tokenId = some (if Pulled u l then u else l) := by
  have hseq := stage_sequence (l := l) h.settled.database h.upstream hid
  obtain ⟨hlock, hlockChanged, htokenChanged, htokenId⟩ :=
    syncSequence_hptoken u ⟨st.database, l, false, false⟩
  have hsame : (sequenceUp u l).lockStatusChanged = u.lockStatusChanged := by
    unfold sequenceUp
    split_ifs <;> rfl
  have hboth := @stage_lock now _ u l _ _ hseq hassigned hlock hlockChanged
    (htokenId.trans (h.settled.ids _ _ h.loc)) hsame
  obtain ⟨hstage, hchanged⟩ := hboth
  obtain ⟨hfinal, -⟩ := stage_settings hstage (hchanged.trans htokenChanged)
  unfold syncToken
  rw [if_neg hid, h.loc]
  dsimp only
  constructor
  · split_ifs
    · rw [commit_of_settled hfinal.settled]
      exact hfinal.upstream
    · exact hfinal.upstream
  · by_cases hpulled : Pulled u l
    · rw [if_pos hpulled, if_pos (hfinal.changed_iff.mpr (or_assoc.mpr hpulled))]
      exact Function.update_self ..
    · rw [if_neg hpulled, if_neg fun hc => hpulled (or_assoc.mp (hfinal.changed_iff.mp hc))]
      exact h.loc

/-- The record of another token stays as it is. -/
structure Apart (tokenId : ℕ) (d d' : Database) : Prop where
  settled : d'.Settled
  same : ∀ id ≠ tokenId, d'.committed id = d.committed id

theorem Apart.refl (h : d.Settled) : Apart id d d := ⟨h, fun _ _ => rfl⟩

theorem apart_change (h : d.Settled) : Apart id d (d.change id f).commit :=
  ⟨settled_commit, fun _ hne => change_commit_other h hne⟩

theorem apart_syncSequence (token : Record) (h : p.database.Settled) :
    Apart token.tokenId p.database (syncSequence token p).database := by
  unfold syncSequence
  split_ifs
  · exact .refl h
  · show Apart token.tokenId p.database (setTokenSequence p.database token.tokenId _)
    unfold setTokenSequence
    split_ifs
    · exact .refl h
    · exact apart_change h
  · exact .refl h

theorem apart_syncLock (h : p.database.Settled) (hid : p.hptoken.tokenId = token.tokenId) :
    Apart token.tokenId p.database (syncLock now token p).database := by
  unfold syncLock
  rw [hid]
  split_ifs
  · exact .refl h
  · exact apart_change h
  · exact .refl h
  · exact .refl h

theorem syncSettings_database : (syncSettings token p).database = p.database := by
  unfold syncSettings
  split_ifs <;> rfl

theorem settled_putToken (h : Settled st) (d : Database) (hd : d.Settled) :
    Settled ⟨d, putToken st.hp token⟩ where
  database := hd
  ids := by
    intro id r hr
    have hr : Function.update st.hp token.tokenId (some token) id = some r := hr
    by_cases hid : id = token.tokenId
    · subst hid
      rw [Function.update_self] at hr
      rw [← Option.some.inj hr]
    · rw [Function.update_of_ne hid] at hr
      exact h.ids id r hr

theorem syncToken_other (now : ℕ) (token : Record) (h : Settled st) : Settled (syncToken now st token) ∧
    ∀ id ≠ token.tokenId,
      (syncToken now st token).database.committed id = st.database.committed id ∧
        (syncToken now st token).hp id = st.hp id := by
  unfold syncToken
  split_ifs with hzero
  · exact ⟨h, fun _ _ => ⟨rfl, rfl⟩⟩
  · cases hfind : st.hp token.tokenId with
    | none =>
      exact ⟨settled_putToken h _ h.database, fun id hne => ⟨rfl, Function.update_of_ne hne ..⟩⟩
    | some hptoken =>
      have hid := (syncSequence_hptoken token ⟨st.database, hptoken, false, false⟩).2.2.2
      have hseq := apart_syncSequence (p := ⟨st.database, hptoken, false, false⟩) token h.database
      have hlock := @apart_syncLock now _ token hseq.settled (hid.trans (h.ids _ _ hfind))
      have hpass : Apart token.tokenId st.database (syncSettings token (syncLock now token
          (syncSequence token ⟨st.database, hptoken, false, false⟩))).database := by
        rw [syncSettings_database]
        exact ⟨hlock.settled, fun id hne => (hlock.same id hne).trans (hseq.same id hne)⟩
      dsimp only
      rw [commit_of_settled hpass.settled, ite_self]
      split_ifs
      · exact ⟨settled_putToken h _ hpass.settled,
          fun id hne => ⟨hpass.same id hne, Function.update_of_ne hne ..⟩⟩
      · exact ⟨⟨hpass.settled, h.ids⟩, fun id hne => ⟨hpass.same id hne, rfl⟩⟩

theorem syncTokens_other (now : ℕ) (h : Settled st) (hne : ∀ token ∈ tokens, id ≠ token.tokenId) :
    Settled (syncTokens now st tokens) ∧
      (syncTokens now st tokens).database.committed id = st.database.committed id ∧
      (syncTokens now st tokens).hp id = st.hp id := by
  induction tokens generalizing st with
  | nil => exact ⟨h, rfl, rfl⟩
  | cons token tokens ih =>
    rw [List.forall_mem_cons] at hne
    obtain ⟨hone, hsame⟩ := syncToken_other now token h
    obtain ⟨hall, hup, hloc⟩ := ih hone hne.2
    obtain ⟨hup₁, hloc₁⟩ := hsame id hne.1
    exact ⟨hall, hup.trans hup₁, hloc.trans hloc₁⟩

theorem syncTokens_self (h : Holds st u l) (hids : (tokens.map (·.tokenId)).Nodup)
    (hmem : u ∈ tokens) (hid : u.tokenId ≠ 0) (hassigned : u.userId ≠ 0) :
    (syncTokens now st tokens).database.committed u.tokenId = some (lockUp (sequenceUp u l) l) ∧
      (syncTokens now st tokens).hp u.tokenId = some (if Pulled u l then u else l) := by
  obtain ⟨before, rest, rfl⟩ := List.append_of_mem hmem
  rw [List.map_append, List.map_cons, List.nodup_append, List.nodup_cons] at hids
  obtain ⟨-, ⟨hrest, -⟩, hbefore⟩ := hids
  have hne : ∀ token ∈ before, u.tokenId ≠ token.tokenId := fun token htoken heq =>
    hbefore _ (List.mem_map_of_mem htoken) _ List.mem_cons_self heq.symm
  have hne' : ∀ token ∈ rest, u.tokenId ≠ token.tokenId := fun token htoken heq =>
    hrest (heq ▸ List.mem_map_of_mem htoken)
  obtain ⟨hsettled, hup, hloc⟩ := syncTokens_other now h.settled hne
  have hholds : Holds (syncTokens now st before) u l :=
    ⟨hsettled, hup.trans h.upstream, hloc.trans h.loc⟩
  obtain ⟨hup, hloc⟩ := @syncToken_self now _ u l hholds hid hassigned
  obtain ⟨hsettled, -⟩ := syncToken_other now u hsettled
  obtain ⟨-, hup', hloc'⟩ := syncTokens_other now hsettled hne'
  rw [syncTokens, List.foldl_append, List.foldl_cons]
  exact ⟨hup'.trans hup, hloc'.trans hloc⟩

/-! ## When they are merged -/

theorem lockUp_sequence (r l : Record) : (lockUp r l).sequence = r.sequence := by
  unfold lockUp
  split_ifs <;> rfl

theorem sequenceUp_lock (u l : Record) : (sequenceUp u l).lock = u.lock ∧
    (sequenceUp u l).lockStatusChanged = u.lockStatusChanged := by
  unfold sequenceUp
  split_ifs <;> exact ⟨rfl, rfl⟩

theorem merged_one : Merged u l (lockUp (sequenceUp u l) l) (if Pulled u l then u else l) ↔
    ¬ (Pulled u l ∧ Ahead u l) := by
  obtain ⟨hlock, hlockChanged⟩ := sequenceUp_lock u l
  constructor
  · rintro h ⟨hpulled, ⟨hless, hreset⟩ | ⟨hdown, hne⟩⟩
    · have hsequence := (h.largest hreset).2
      rw [if_pos hpulled] at hsequence
      omega
    · have hlocks := (h.lockDown hdown).2
      rw [if_pos hpulled] at hlocks
      exact hne hlocks
  · intro hnot
    have hbehind : Pulled u l → ¬ Ahead u l := fun hpulled hahead => hnot ⟨hpulled, hahead⟩
    constructor
    · intro hreset
      rw [lockUp_sequence, sequenceUp, if_neg fun h => h.1 hreset, if_pos (.inl (.inr hreset))]
      exact ⟨rfl, rfl⟩
    · intro hreset
      constructor
      · rw [lockUp_sequence, sequenceUp]
        split_ifs with hless
        · exact (max_eq_right (Nat.le_of_lt hless.2)).symm
        · have hle : l.sequence ≤ u.sequence := not_lt.mp fun h => hless ⟨hreset, h⟩
          exact (max_eq_left hle).symm
      · split_ifs with hpulled
        · have hle : l.sequence ≤ u.sequence :=
            not_lt.mp fun h => hbehind hpulled (.inl ⟨h, hreset⟩)
          exact (max_eq_left hle).symm
        · have hle : u.sequence ≤ l.sequence := not_lt.mp fun h => hpulled (.inl (.inl h))
          exact (max_eq_right hle).symm
    · intro hup
      rw [lockUp, hlockChanged, if_neg (Nat.not_lt_of_gt hup), if_pos (.inr (.inl hup))]
      exact ⟨hlock, rfl⟩
    · intro hdown
      rw [lockUp, hlockChanged, if_pos hdown]
      refine ⟨rfl, ?_⟩
      split_ifs with hpulled
      · by_contra hne
        exact hbehind hpulled (.inr ⟨hdown, hne⟩)
      · rfl
    · intro hup
      rw [if_pos (.inr (.inr hup))]

/-- **When the loop merges the two records of a token.** -/
theorem merged_iff (h : Holds st u l) (hids : (tokens.map (·.tokenId)).Nodup)
    (hmem : u ∈ tokens) (hid : u.tokenId ≠ 0) (hassigned : u.userId ≠ 0) :
    (∃ u' l', (syncTokens now st tokens).database.committed u.tokenId = some u' ∧
        (syncTokens now st tokens).hp u.tokenId = some l' ∧ Merged u l u' l') ↔
      ¬ (Pulled u l ∧ Ahead u l) := by
  obtain ⟨hup, hloc⟩ := @syncTokens_self now st tokens u l h hids hmem hid hassigned
  rw [← merged_one]
  constructor
  · rintro ⟨u', l', hu', hl', hmerged⟩
    rw [hup] at hu'
    rw [hloc] at hl'
    rw [Option.some.inj hu', Option.some.inj hl']
    exact hmerged
  · exact fun hmerged => ⟨_, _, hup, hloc, hmerged⟩

/-- A token that is assigned to a user. -/
def issued (sequence badLogins tokenChanged lockStatusChanged : ℕ) : Record where
  tokenId := 5
  type := 1
  status := 1
  serial := "s"
  sequence := sequence
  zeroTime := 0
  timeModulo := 0
  timeSkew := 0
  tokenLocked := false
  unlockTime := 0
  badLogins := badLogins
  tokenChanged := tokenChanged
  sequenceChanged := 10
  lockStatusChanged := lockStatusChanged
  userId := 3
  pin := none
  key := some "k"

/-- The two stores, with one token. -/
def bothStores (u l : Record) : Stores where
  database := ⟨fun id => if id = 5 then some u else none, fun id => if id = 5 then some u else none⟩
  hp := fun id => if id = 5 then some l else none

theorem holds_bothStores {u l : Record} (hu : u.tokenId = 5) (hl : l.tokenId = 5) :
    Holds (bothStores u l) u l where
  settled := by
    refine ⟨rfl, fun id r hr => ?_⟩
    obtain ⟨hid, hr⟩ := Option.ite_none_right_eq_some.mp hr
    rw [← Option.some.inj hr, hid, hl]
  upstream := if_pos hu
  loc := if_pos hu

/-- The local sequence and lock state are newer, and nothing else. -/
theorem localNewer_merged : ∃ u' l',
    (syncTokens 50 (bothStores (issued 7 0 20 30) (issued 9 2 20 40))
      [issued 7 0 20 30]).database.committed 5 = some u' ∧
    (syncTokens 50 (bothStores (issued 7 0 20 30) (issued 9 2 20 40))
      [issued 7 0 20 30]).hp 5 = some l' ∧ Merged (issued 7 0 20 30) (issued 9 2 20 40) u' l' :=
  (merged_iff (holds_bothStores rfl rfl) (by decide) List.mem_cons_self (by decide)
    (by decide)).mpr (by unfold Pulled Ahead; decide)

/-- The upstream settings are newer, and the local sequence is ahead. -/
theorem sequenceFallsBack : ¬ ∃ u' l',
    (syncTokens 50 (bothStores (issued 7 0 21 30) (issued 9 0 20 30))
      [issued 7 0 21 30]).database.committed 5 = some u' ∧
    (syncTokens 50 (bothStores (issued 7 0 21 30) (issued 9 0 20 30))
      [issued 7 0 21 30]).hp 5 = some l' ∧ Merged (issued 7 0 21 30) (issued 9 0 20 30) u' l' := by
  rintro ⟨u', l', -, hl', hmerged⟩
  have hlocal : ((syncTokens 50 (bothStores (issued 7 0 21 30) (issued 9 0 20 30))
      [issued 7 0 21 30]).hp 5).map (·.sequence) = some 7 := by decide
  rw [hl', Option.map_some, (hmerged.largest (by decide)).2] at hlocal
  revert hlocal
  decide

end TokenSync
end JazzHands.Hotpants

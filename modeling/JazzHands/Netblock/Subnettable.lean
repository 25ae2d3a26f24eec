import JazzHands.Library.Runs
import JazzHands.Netblock.Change

/-!
# The children of a network

A network that is not subnettable has no network among its children (JH10B), and no row has both
single addresses and networks as children (JH107).  The deferred trigger checks JH107 of the parent
of every row it looks at.  It checks JH10B only of a row's own children, and only when the row has a
parent: a network that is put below one that is not subnettable, and a top-level network that is not
subnettable and has networks below it, pass.
-/

namespace JazzHands

open Library Postgres

variable {db : Schema} {t t' : List Netblock} {s : Statement} {gone written : Option Netblock}
variable {n m r r' w old new m' n' s' : Netblock} {i : ℕ} {o : Option Netblock}

/-- The row `n` is a child of the row `m`. -/
def Netblock.IsChildOf (n m : Netblock) : Prop := n.parentNetblockId = some m.netblockId
  deriving Decidable

/-- JH10B: no network without subnets is the parent of a network. -/
def NoNetworkUnderUnsubnettable (db : Schema) (t : List Netblock) : Prop :=
  ∀ m ∈ t, db.isValidatedHierarchy m.netblockType = true → m.isSingleAddress = false →
    m.canSubnet = false → ∀ n ∈ t, n.IsChildOf m → n.isSingleAddress = true

/-- JH107: no row is the parent of both a single address and a network. -/
def ChildrenOfOneKind (db : Schema) (t : List Netblock) : Prop :=
  ∀ m ∈ t, db.isValidatedHierarchy m.netblockType = true → ∀ n ∈ t, n.IsChildOf m →
    ∀ s ∈ t, s.IsChildOf m → n.isSingleAddress = s.isSingleAddress

structure SubnetRules (db : Schema) (t : List Netblock) : Prop where
  subnet : NoNetworkUnderUnsubnettable db t
  kinds : ChildrenOfOneKind db t

/-- What holds of parents after any run: they exist (the foreign key), no row is its own parent
(JH101), a network hangs off a network (JH10A), and below a network of a forced hierarchy off one of
its own type and universe (JH109). -/
structure ParentRules (db : Schema) (t : List Netblock) : Prop where
  exist : ∀ n ∈ t, ∀ p ∈ n.parentNetblockId, ∃ m ∈ t, m.netblockId = p
  irrefl : ∀ n ∈ t, ¬ n.IsChildOf n
  network : ∀ m ∈ t, ∀ n ∈ t, n.IsChildOf m → db.isValidatedHierarchy m.netblockType = true →
    n.isSingleAddress = false → m.isSingleAddress = false
  key : ∀ m ∈ t, ∀ n ∈ t, n.IsChildOf m → m.isSingleAddress = false →
    db.dbForcedHierarchy m.netblockType = true → n.isSingleAddress = false →
      n.netblockType = m.netblockType ∧ n.ipUniverseId = m.ipUniverseId

/-! ## The statements -/

/-- The rows that the statement takes away and stores are of validated types. -/
def Statement.OnValidated (db : Schema) (t : List Netblock) : Statement → Prop
  | .insert rec => db.isValidatedHierarchy rec.netblockType = true
  | .update i set => ∀ old, findNetblock t i = some old →
      db.isValidatedHierarchy old.netblockType = true ∧
        db.isValidatedHierarchy (set.netblockType.getD old.netblockType) = true
  | .delete i => ∀ old, findNetblock t i = some old →
      db.isValidatedHierarchy old.netblockType = true

/-- A network with the columns of `n`, whose key was `i`, is not put below one that is not
subnettable. -/
def FitsAbove (db : Schema) (t : List Netblock) (fires : Bool) (i : ℕ) (n : Netblock) : Prop :=
  n.isSingleAddress = false → ∀ m ∈ t, m.netblockId ≠ i → m.isSingleAddress = false →
    writtenParent db t fires n = some m.netblockId → m.canSubnet = true
  deriving Decidable

/-- A network with the columns of `n` that is not subnettable and has no parent gets or keeps only
single addresses, among the rows that satisfy `below`. -/
def FitsBelow (db : Schema) (t : List Netblock) (fires : Bool) (n : Netblock)
    (below : Netblock → Prop) : Prop :=
  n.isSingleAddress = false → n.canSubnet = false → writtenParent db t fires n = none →
    ∀ c ∈ t, below c → c.isSingleAddress = true

instance {fires : Bool} {below : Netblock → Prop} [DecidablePred below] :
    Decidable (FitsBelow db t fires n below) := by
  unfold FitsBelow
  infer_instance

/-- The statement does not slip past JH10B. -/
def Statement.KeepsSubnetRules (db : Schema) (t : List Netblock) : Statement → Prop
  | .insert rec => ∀ n, rec.complete db t = .ok n →
      FitsAbove db t true n.netblockId n ∧ FitsBelow db t true n fun c =>
        db.dbForcedHierarchy n.netblockType = true ∧ c.parentNetblockId = none ∧
          c.netblockType = n.netblockType ∧ c.ipUniverseId = n.ipUniverseId ∧
          c.ipAddress.subnetEq n.ipAddress
  | .update i set => ∀ old, findNetblock t i = some old → ∀ n,
      (set.apply old).complete db t = .ok n → FitsAbove db t set.firesManipulate i n ∧
        FitsBelow db t set.firesManipulate n fun c => c.IsChildOf n ∧ set.Leaves db n c
  | .delete _ => True

theorem Writes.validated (h : Writes db t s gone written) (hs : s.OnValidated db t) :
    (∀ o ∈ gone, db.isValidatedHierarchy o.netblockType = true) ∧
      ∀ w ∈ written, db.isValidatedHierarchy w.netblockType = true := by
  cases h with
  | insert complete row =>
    refine ⟨by simp, ?_⟩
    rintro _ ⟨⟩
    rw [row.netblockType, (complete_ok complete).2.2.1]
    exact hs
  | update find fires complete row =>
    obtain ⟨hold, hnew⟩ := hs _ find
    refine ⟨by rintro _ ⟨⟩; exact hold, ?_⟩
    rintro _ ⟨⟩
    rw [row.netblockType, (complete_ok complete).2.2.1]
    exact hnew
  | delete find => exact ⟨by rintro _ ⟨⟩; exact hs _ find, by simp⟩

variable {set : SetClause} {sa : Statement × ScanOrder}

/-- An UPDATE of the parent alone changes no other column. -/
theorem Writes.unfired (h : Writes db t (.update i set) (some old) (some new))
    (hs : set.firesManipulate = false) : new.netblockType = old.netblockType ∧
      new.ipUniverseId = old.ipUniverseId ∧ new.isSingleAddress = old.isSingleAddress := by
  simp only [SetClause.firesManipulate, Bool.or_eq_false_iff, Option.isSome_eq_false_iff,
    Option.isNone_iff_eq_none] at hs
  obtain ⟨⟨⟨⟨⟨-, htype⟩, huniverse⟩, -⟩, -⟩, hsingle⟩ := hs
  cases h with
  | update find fires complete row =>
    obtain ⟨-, -, ctype, csingle, -, -, cuniverse⟩ := complete_ok complete
    refine ⟨?_, ?_, ?_⟩
    · rw [row.netblockType, ctype]
      simp [SetClause.apply, htype]
    · rw [row.ipUniverseId]
      exact cuniverse _ (by simp [SetClause.apply, huniverse])
    · rw [row.isSingleAddress]
      exact csingle _ (by simp [SetClause.apply, hsingle])

/-! ## Parents after a change -/

/-- The row with the key of a written row is the one it replaces. -/
theorem Change.gone_of_id_eq (hc : Change db t t' s gone (some w)) (hm : m ∈ t)
    (hid : m.netblockId = w.netblockId) : ∃ o ∈ gone, m.netblockId = o.netblockId := by
  by_contra hne
  push Not at hne
  exact hc.fresh w rfl m hm hne hid

theorem Writes.gone_mem (h : Writes db t s gone written) : ∀ o ∈ gone, o ∈ t := by
  cases h with
  | insert => simp
  | update find | delete find => rintro _ ⟨⟩; exact (findNetblock_eq_some find).1

section

variable (hc : Change db t t' s gone written)
  (hfk : ∀ n ∈ t, ∀ p ∈ n.parentNetblockId, ∃ m ∈ t, m.netblockId = p) (hm' : m' ∈ t')
include hc hfk hm'

/-- A row that keeps its parent was a child of the row that the parent stands for, or of the one
that the parent replaces. -/
theorem Change.parent_cases (hn : n ∈ t) (hp : n.IsChildOf m') :
    (∃ m ∈ t, n.IsChildOf m ∧ StandsFor m m') ∨
      (m' ∈ written ∧ ∃ old ∈ gone, old ∈ t ∧ n.IsChildOf old) := by
  rcases hc.source_cases hm' with hw | ⟨m, hm, -, hst⟩
  · right
    obtain rfl := Option.mem_def.mp hw
    obtain ⟨m, hm, hid⟩ := hfk n hn _ hp
    obtain ⟨old, hold, hid'⟩ := hc.gone_of_id_eq hm hid
    refine ⟨rfl, old, hold, hc.writes.gone_mem old hold, ?_⟩
    rw [Netblock.IsChildOf, hp, ← hid, hid']
  · exact Or.inl ⟨m, hm, by rw [Netblock.IsChildOf, hp, hst.columns.1], hst⟩

/-- A child in the committed table has passed the trigger, or it kept its parent. -/
theorem Change.child_cases (hn' : n' ∈ t') (hp : n'.IsChildOf m') :
    (∃ o, Validated db t' o n') ∨ (n' ∈ t ∧ ¬ s.Touches db gone written n' ∧
      ((∃ m ∈ t, n'.IsChildOf m ∧ StandsFor m m') ∨
        (m' ∈ written ∧ ∃ old ∈ gone, old ∈ t ∧ n'.IsChildOf old))) := by
  rcases hc.source n' hn' with hw | ⟨n, hn, -, ⟨htouch, rfl⟩ | ⟨-, hval⟩⟩
  · exact Or.inl ⟨gone, hc.checked n' hw⟩
  · exact Or.inr ⟨hn, htouch, hc.parent_cases hfk hm' hn hp⟩
  · exact Or.inl hval

end

/-- What the trigger checks of the parent of a row, of the parent itself. -/
theorem Validated.of_child (ht : WellFormed t) (hr : r ∈ t) (h : Validated db t o r) (hm : m ∈ t)
    (hp : r.IsChildOf m) : m.netblockId ≠ r.netblockId ∧ m.isSingleAddress = false ∧
      m.ipUniverseId = r.ipUniverseId ∧ m.netblockType = r.netblockType ∧
      (db.isValidatedHierarchy r.netblockType = true → ChildOf t o r m) := by
  obtain ⟨hne, m₁, hm₁, hid, hrest⟩ := h.parent ht hr hp
  obtain rfl := ht.pk m₁ hm₁ m hm hid
  exact ⟨hne, hrest⟩

/-- **A committed transaction** keeps what holds of parents. -/
theorem Change.parentRules (hc : Change db t t' s gone written)
    (hs : s.OnValidated db t) (h : ParentRules db t) : ParentRules db t' := by
  have hwf := hc.wellFormed
  refine ⟨fun n' hn' p hp => ?_, fun n' hn' hp => ?_, fun m' hm' n' hn' hp hv hnet => ?_,
    fun m' hm' n' hn' hp hmnet hforced hnet => ?_⟩
  · obtain ⟨m, hm⟩ := hc.parent n' hn' p hp
    exact ⟨m, findNetblock_eq_some hm⟩
  · rcases hc.child_cases h.exist hn' hn' hp with ⟨o, ho⟩ | ⟨hn, -, -⟩
    · exact (ho.of_child hwf hn' hn' hp).1 rfl
    · exact h.irrefl n' hn hp
  · rcases hc.child_cases h.exist hm' hn' hp with ⟨o, ho⟩ | ⟨hn, -, ⟨m, hm, hpm, hst⟩ | ⟨hw, -⟩⟩
    · exact (ho.of_child hwf hn' hm' hp).2.1
    · obtain ⟨-, htype, -, hsingle, -⟩ := hst.columns
      rw [hsingle]
      exact h.network m hm n' hn hpm (htype ▸ hv) hnet
    · -- the parent of a network did not become a single address
      obtain rfl := Option.mem_def.mp hw
      by_contra hms
      rw [Bool.not_eq_false] at hms
      have hsub : m'.canSubnet = false := by
        cases hc.writes with
        | insert _ row | update _ _ _ row => exact (checkNetblock_ok row.check).1 hms
      have := hc.child_of_single hms hv hsub hn' hp
      rw [hnet] at this
      cases this
  · rcases hc.child_cases h.exist hm' hn' hp with
      ⟨o, ho⟩ | ⟨hn, htouch, ⟨m, hm, hpm, hst⟩ | ⟨hw, old, hold, holdt, hpo⟩⟩
    · obtain ⟨-, -, hu, hτ, -⟩ := ho.of_child hwf hn' hm' hp
      exact ⟨hτ.symm, hu.symm⟩
    · obtain ⟨-, htype, huniverse, hsingle, -⟩ := hst.columns
      rw [htype, huniverse]
      exact h.key m hm n' hn hpm (hsingle ▸ hmnet) (htype ▸ hforced) hnet
    · obtain rfl := Option.mem_def.mp hw
      cases hwrites : hc.writes with
      | insert => cases hold
      | @update i set o' n _ find fires complete row =>
        obtain rfl := Option.mem_some_iff.mp hold
        by_cases hf : set.firesManipulate = true
        · obtain ⟨hu, hτ, -⟩ := row.leaves hp htouch hf (row.netblockType ▸ hforced)
            (row.isSingleAddress ▸ hmnet)
          rw [row.netblockType, row.ipUniverseId]
          exact ⟨hτ, hu⟩
        · obtain ⟨hτ, hu, hsingle⟩ := hc.writes.unfired (by simpa using hf)
          rw [hτ, hu]
          exact h.key _ holdt n' hn hpo (hsingle ▸ hmnet) (hτ ▸ hforced) hnet

/-! ## JH107 -/

/-- The children of a row are of one kind when one of them has passed the trigger. -/
theorem Validated.kinds (ht : WellFormed t) (hn : n ∈ t) (h : Validated db t o n) (hm : m ∈ t)
    (hp : n.IsChildOf m) (hv : db.isValidatedHierarchy m.netblockType = true) (hr : r ∈ t)
    (hpr : r.IsChildOf m) : n.isSingleAddress = r.isSingleAddress := by
  obtain ⟨-, -, -, hτ, hchild⟩ := h.of_child ht hn hm hp
  exact (hchild (hτ ▸ hv)).kinds n hn hp r hr hpr

/-- **JH107** is kept by every transaction. -/
theorem Change.childrenOfOneKind (hc : Change db t t' s gone written)
    (hs : s.OnValidated db t) (hpar : ParentRules db t) (h : ChildrenOfOneKind db t) :
    ChildrenOfOneKind db t' := by
  intro m' hm' hv n' hn' hpn r' hr' hpr
  rcases hc.child_cases hpar.exist hm' hn' hpn with ⟨o, ho⟩ | ⟨hn, -, hncase⟩
  · exact ho.kinds hc.wellFormed hn' hm' hpn hv hr' hpr
  rcases hc.child_cases hpar.exist hm' hr' hpr with ⟨o, ho⟩ | ⟨hr, -, hrcase⟩
  · exact (ho.kinds hc.wellFormed hr' hm' hpr hv hn' hpn).symm
  -- both were children before, of one row
  obtain ⟨m, hm, hpm, hv'⟩ : ∃ m ∈ t, n'.IsChildOf m ∧
      db.isValidatedHierarchy m.netblockType = true := by
    rcases hncase with ⟨m, hm, hpm, hst⟩ | ⟨-, old, hold, holdt, hpo⟩
    · exact ⟨m, hm, hpm, hst.columns.2.1 ▸ hv⟩
    · exact ⟨old, holdt, hpo, (hc.writes.validated hs).1 old hold⟩
  exact h m hm hv' n' hn hpm r' hr (hpr.trans (hpn.symm.trans hpm))

/-! ## JH10B -/

/-- The parent of a network that has a network as its child is subnettable. -/
theorem ParentRules.parent_of_parent (hpar : ParentRules db t)
    (h : NoNetworkUnderUnsubnettable db t) (holdt : old ∈ t) (hm : m ∈ t)
    (hvold : db.isValidatedHierarchy old.netblockType = true)
    (hv : db.isValidatedHierarchy m.netblockType = true) (hms : m.isSingleAddress = false)
    (hn : n ∈ t) (hnet : n.isSingleAddress = false) (hpn : n.IsChildOf old) (hpo : old.IsChildOf m) :
    m.canSubnet = true := by
  by_contra hsub
  have holds := h m hm hv hms (by simpa using hsub) old holdt hpo
  rw [hpar.network old holdt n hn hpn hvold hnet] at holds
  cases holds

/-- The network `w` that the statement writes is not put below a network without subnets. -/
theorem Change.subnet_above (hc : Change db t t' s gone (some w))
    (hfit : s.KeepsSubnetRules db t) (hw : w.isSingleAddress = false) (hm' : m' ∈ t')
    (hp : w.IsChildOf m') (hms : m'.isSingleAddress = false) : m'.canSubnet = true := by
  have hne := ((hc.checked w rfl).of_child hc.wellFormed (hc.written_mem w rfl) hm' hp).1
  rcases hc.source_cases hm' with hw' | ⟨m, hm, hmgone, hst⟩
  · obtain rfl := Option.mem_some_iff.mp hw'
    exact absurd rfl hne
  obtain ⟨hid, -, -, hsingle, hsubnet⟩ := hst.columns
  rw [hsubnet]
  cases hc.writes with
  | @insert rec n _ complete row =>
    rw [row.isSingleAddress] at hw
    refine (hfit n complete).1 hw m hm ?_ (hsingle ▸ hms) ?_
    · rw [← row.netblockId]
      exact hc.fresh w rfl m hm (by simp)
    · rw [← row.parent_eq hw, ← hid]
      exact hp
  | @update i set old n _ find fires complete row =>
    rw [row.isSingleAddress] at hw
    refine (hfit old find n complete).1 hw m hm ?_ (hsingle ▸ hms) ?_
    · rw [← (findNetblock_eq_some find).2]
      exact hmgone old rfl
    · rw [← row.parent_eq hw, ← hid]
      exact hp

/-- An INSERT does not take networks over for a network without subnets: if the new row has a
parent, the trigger looks at its children, and if not, the statement fits them. -/
theorem Change.subnet_adopted {rec : NetblockRecord}
    (hc : Change db t t' (.insert rec) none (some w))
    (hfit : (Statement.insert rec).KeepsSubnetRules db t)
    (hv : db.isValidatedHierarchy w.netblockType = true) (hw : w.isSingleAddress = false)
    (hsub : w.canSubnet = false) (hn : n ∈ t) (hn' : n' ∈ t')
    (hsame : n'.isSingleAddress = n.isSingleAddress) (hp : n'.IsChildOf w)
    (hadopted : AdoptedByInsert db w n) : n'.isSingleAddress = true := by
  by_cases hwp : w.parentNetblockId = none
  · cases hc.writes with
    | @insert _ n₀ _ complete row =>
      have hw₀ := row.isSingleAddress ▸ hw
      obtain ⟨hforced, -, hpar, hle, -, hkey⟩ := hadopted
      obtain ⟨hτ, hu⟩ := hkey hwp
      rw [row.netblockType] at hforced hτ
      rw [row.ipUniverseId] at hu
      rw [row.ip (Or.inl hw₀)] at hle
      rw [hsame]
      exact (hfit n₀ complete).2 hw₀ (row.canSubnet ▸ hsub) ((row.parent_eq hw₀).symm.trans hwp)
        n hn ⟨hforced, hpar.trans hwp, hτ, hu, hle⟩
  · exact hc.child_single hv hsub hwp hn' hp

section

variable (hc : Change db t t' (.update i set) (some old) (some w))
include hc

/-- An UPDATE does not leave networks below a network without subnets. -/
theorem Change.subnet_left (hfit : (Statement.update i set).KeepsSubnetRules db t)
    (hv : db.isValidatedHierarchy w.netblockType = true) (hw : w.isSingleAddress = false)
    (hsub : w.canSubnet = false) (hn : n ∈ t) (hn' : n ∈ t') (hp : n.IsChildOf w)
    (htouch : ¬ (Statement.update i set).Touches db (some old) (some w) n) :
    n.isSingleAddress = true := by
  by_cases hwp : w.parentNetblockId = none
  · cases hc.writes with
    | @update _ _ _ n₀ _ find fires complete row =>
      have hw₀ := row.isSingleAddress ▸ hw
      refine (hfit old find n₀ complete).2 hw₀ (row.canSubnet ▸ hsub)
        ((row.parent_eq hw₀).symm.trans hwp) n hn ⟨?_, row.leaves hp htouch⟩
      rw [Netblock.IsChildOf, hp, row.netblockId]
  · exact hc.child_single hv hsub hwp hn' hp

/-- The children that an UPDATE takes away were children of the row it updates. -/
theorem Change.released_child (hpar : ParentRules db t) (hn : n ∈ t)
    (hreleased : ReleasedByUpdate db set.firesManipulate w n) : n.IsChildOf old := by
  obtain ⟨m, hm, hid⟩ := hpar.exist n hn _ hreleased.2.1
  obtain ⟨o, ⟨⟩, hid'⟩ := hc.gone_of_id_eq hm hid
  rw [Netblock.IsChildOf, hreleased.2.1, ← hid, hid']

/-- No network is taken over and given away by the same UPDATE. -/
theorem Change.not_pass {r₁ : Netblock} {p : Option ℕ} (hpar : ParentRules db t) (hn : n ∈ t)
    (hnet : n.isSingleAddress = false) (hadopted : AdoptedByUpdate db set.firesManipulate w n)
    (hbetween : Touched p n r₁) :
    ¬ ReleasedByUpdate db set.firesManipulate w r₁ := by
  intro hreleased
  obtain ⟨⟨-, hforced, -⟩, hne, hp, hle, -⟩ := hadopted
  obtain ⟨q, hq⟩ := Option.ne_none_iff_exists'.mp hne
  obtain ⟨hqw, m', hm', hid, hms, hu, hτ, -⟩ :=
    (hc.checked w rfl).parent hc.wellFormed (hc.written_mem w rfl) (hp.symm.trans hq)
  -- the new parent was a network of the type and universe of the row before
  rcases hc.source_cases hm' with hw | ⟨m, hm, -, hst⟩
  · obtain rfl := Option.mem_some_iff.mp hw
    exact hqw hid.symm
  obtain ⟨hid', hτ', hu', hms', -⟩ := hst.columns
  have hpm : n.IsChildOf m := by rw [Netblock.IsChildOf, hq, ← hid, hid']
  obtain ⟨hnτ, hnu⟩ := hpar.key m hm n hn hpm (hms' ▸ hms) (by rw [← hτ', hτ]; exact hforced) hnet
  rcases hreleased.2.2 with hne' | hne' | hne'
  · rw [hbetween.ipUniverseId, hnu, ← hu', hu] at hne'
    exact hne' rfl
  · rw [hbetween.netblockType, hnτ, ← hτ', hτ] at hne'
    exact hne' rfl
  · rw [hbetween.ip hnet] at hne'
    exact hne' hle

end

/-- A network that moves up to the parent of `old` does not come to lie below a network without
subnets. -/
theorem Change.subnet_up (hc : Change db t t' s (some old) written) (hpar : ParentRules db t)
    (h : NoNetworkUnderUnsubnettable db t) (hvold : db.isValidatedHierarchy old.netblockType = true)
    (hm' : m' ∈ t') (hv : db.isValidatedHierarchy m'.netblockType = true)
    (hms : m'.isSingleAddress = false) (hn : n ∈ t) (hnet : n.isSingleAddress = false)
    (hpn : n.IsChildOf old) (hpo : old.parentNetblockId = some m'.netblockId) :
    m'.canSubnet = true := by
  have hold : old ∈ t := hc.writes.gone_mem old rfl
  obtain ⟨m, hm, hid⟩ := hpar.exist old hold _ hpo
  have hmold : m.netblockId ≠ old.netblockId := fun e =>
    hpar.irrefl old hold (by rw [Netblock.IsChildOf, hpo, ← hid, e])
  rcases hc.source_cases hm' with hw | ⟨m₁, hm₁, -, hst⟩
  · obtain rfl := Option.mem_def.mp hw
    obtain ⟨o, ⟨⟩, hid'⟩ := hc.gone_of_id_eq hm hid
    exact absurd hid' hmold
  · obtain ⟨hid', hτ, -, hsingle, hsubnet⟩ := hst.columns
    rw [hsubnet]
    exact hpar.parent_of_parent h hold hm₁ hvold (hτ ▸ hv) (hsingle ▸ hms) hn hnet hpn
      (by rw [Netblock.IsChildOf, hpo, hid'])

section

variable (hc : Change db t t' s gone written) (hs : s.OnValidated db t)
  (hfit : s.KeepsSubnetRules db t) (hpar : ParentRules db t) (h : NoNetworkUnderUnsubnettable db t)
include hc hs hfit hpar h

/-- A network that a trigger moved is not below a network without subnets. -/
theorem Change.subnet_moved (hm' : m' ∈ t') (hv : db.isValidatedHierarchy m'.netblockType = true)
    (hms : m'.isSingleAddress = false) (hsub : m'.canSubnet = false) (hn : n ∈ t) (hn' : n' ∈ t')
    (hp : n'.IsChildOf m') (hmoved : Moved db s gone written n n') : n'.isSingleAddress = true := by
  by_contra hnet'
  rw [Bool.not_eq_true] at hnet'
  obtain ⟨p, htouched⟩ := hmoved.touched
  have hsame := htouched.isSingleAddress
  have hnet : n.isSingleAddress = false := hsame ▸ hnet'
  have hvgone := (hc.writes.validated hs).1
  -- a row that was given to the written one
  have hwritten : ∀ w ∈ written, n'.parentNetblockId = some w.netblockId → m' = w := by
    intro w hw he
    exact hc.wellFormed.pk m' hm' w (hc.written_mem w hw) (Option.some.inj (hp.symm.trans he))
  cases hmoved with
  | insert adopted touched =>
    obtain rfl := hwritten _ rfl touched.parentNetblockId
    exact absurd (hc.subnet_adopted hfit hv hms hsub hn hn' hsame hp adopted) (by simp [hnet'])
  | adopt adopted touched =>
    obtain rfl := hwritten _ rfl touched.parentNetblockId
    exact absurd (hc.child_single hv hsub (adopted.2.2.1 ▸ adopted.2.1) hn' hp) (by simp [hnet'])
  | release released touched =>
    have := hc.subnet_up hpar h (hvgone _ rfl) hm' hv hms hn hnet
      (hc.released_child hpar hn released) (touched.parentNetblockId.symm.trans hp)
    rw [hsub] at this
    cases this
  | pass adopted between released touched =>
    exact hc.not_pass hpar hn hnet adopted between released
  | delete released touched =>
    have := hc.subnet_up hpar h (hvgone _ rfl) hm' hv hms hn hnet released.2
      (touched.parentNetblockId.symm.trans hp)
    rw [hsub] at this
    cases this

/-- **JH10B** is kept by the transactions that do not slip past it. -/
theorem Change.noNetworkUnderUnsubnettable : NoNetworkUnderUnsubnettable db t' := by
  intro m' hm' hv hms hsub n' hn' hp
  rcases hc.source n' hn' with hw | ⟨n, hn, -, ⟨htouch, rfl⟩ | ⟨hmoved, -⟩⟩
  · obtain rfl := Option.mem_def.mp hw
    by_contra hnet
    have := hc.subnet_above hfit (by simpa using hnet) hm' hp hms
    rw [hsub] at this
    cases this
  · rcases hc.parent_cases hpar.exist hm' hn hp with ⟨m, hm, hpm, hst⟩ | ⟨hw, old, hold, -, -⟩
    · obtain ⟨-, hτ, -, hsingle, hsubnet⟩ := hst.columns
      exact h m hm (hτ ▸ hv) (hsingle ▸ hms) (hsubnet ▸ hsub) n' hn hpm
    · obtain rfl := Option.mem_def.mp hw
      obtain rfl := Option.mem_def.mp hold
      cases hwrites : hc.writes with
      | update => exact hc.subnet_left hfit hv hms hsub hn hn' hp htouch
  · exact hc.subnet_moved hs hfit hpar h hm' hv hms hsub hn hn' hp hmoved

end

/-! ## Runs -/

section

variable (ht : WellFormed t) (hs : sa.1.OnValidated db t)
include ht hs

theorem ParentRules.step (h : ParentRules db t) : ParentRules db (step db t sa) :=
  step_cases ht h fun _ _ _ hc => hc.parentRules hs h

theorem ChildrenOfOneKind.step (hpar : ParentRules db t) (h : ChildrenOfOneKind db t) :
    ChildrenOfOneKind db (step db t sa) :=
  step_cases ht h fun _ _ _ hc => hc.childrenOfOneKind hs hpar h

theorem NoNetworkUnderUnsubnettable.step (hfit : sa.1.KeepsSubnetRules db t)
    (hpar : ParentRules db t) (h : NoNetworkUnderUnsubnettable db t) :
    NoNetworkUnderUnsubnettable db (step db t sa) :=
  step_cases ht h fun _ _ _ hc => hc.noNetworkUnderUnsubnettable hs hfit hpar h

end

/-- **JH107.**  In every run of statements on rows of validated types no row has both single
addresses and networks as children. -/
theorem childrenOfOneKind_run (ht : WellFormed t) (hpar : ParentRules db t)
    (h₀ : ChildrenOfOneKind db t) (l : List (Statement × ScanOrder))
    (hl : AllSteps (step db) (fun t sa => sa.1.OnValidated db t) t l) :
    ChildrenOfOneKind db (run (step db) t l) :=
  (run_invariant (I := fun t => WellFormed t ∧ ParentRules db t ∧ ChildrenOfOneKind db t)
    (fun _ _ hI hs => ⟨hI.1.step, hI.2.1.step hI.1 hs, hI.2.2.step hI.1 hs hI.2.1⟩)
    ⟨ht, hpar, h₀⟩ hl).2.2

/-- **Children of networks.**  In every run of statements on rows of validated types that do not
slip past JH10B, no network without subnets is the parent of a network, and no row has both single
addresses and networks as children. -/
theorem subnetRules_run (ht : WellFormed t) (hpar : ParentRules db t) (h₀ : SubnetRules db t)
    (l : List (Statement × ScanOrder))
    (hl : AllSteps (step db) (fun t sa => sa.1.OnValidated db t ∧ sa.1.KeepsSubnetRules db t) t l) :
    SubnetRules db (run (step db) t l) :=
  (run_invariant (I := fun t => WellFormed t ∧ ParentRules db t ∧ SubnetRules db t)
    (fun _ _ hI hs => ⟨hI.1.step, hI.2.1.step hI.1 hs.1,
      hI.2.2.subnet.step hI.1 hs.1 hs.2 hI.2.1, hI.2.2.kinds.step hI.1 hs.1 hI.2.1⟩)
    ⟨ht, hpar, h₀⟩ hl).2.2

theorem ParentRules.nil : ParentRules db [] := ⟨by simp, by simp, by simp, by simp⟩

theorem SubnetRules.nil : SubnetRules db [] :=
  ⟨by simp [NoNetworkUnderUnsubnettable], by simp [ChildrenOfOneKind]⟩

/-- A network without subnets is put below a subnettable one, and gets a single address. -/
def belowSubnettable : List (Statement × ScanOrder) :=
  [(.insertNetwork 1 (.v4 10 0 0 0 8) true, .asIs),
    (.insertNetwork 2 (.v4 10 0 0 0 24) false, .asIs),
    (.insertSingleAddress 3 (.v4 10 0 0 5 32), .asIs)]

theorem subnetRules_run_belowSubnettable :
    SubnetRules .initial (run (step .initial) [] belowSubnettable) := by
  refine subnetRules_run .nil .nil .nil belowSubnettable
    ⟨⟨rfl, fun n hn => ?_⟩, ⟨rfl, fun n hn => ?_⟩, ⟨rfl, fun n hn => ?_⟩, trivial⟩
  all_goals
    obtain rfl := Except.ok.inj hn
    exact ⟨by decide, by decide⟩

/-- A network is put below a network without subnets. -/
def belowUnsubnettable : List (Statement × ScanOrder) :=
  [(.insertNetwork 1 (.v4 10 0 0 0 24) false, .asIs),
    (.insertNetwork 2 (.v4 10 0 0 0 28) true, .asIs)]

theorem childrenOfOneKind_run_belowUnsubnettable :
    ChildrenOfOneKind .initial (run (step .initial) [] belowUnsubnettable) :=
  childrenOfOneKind_run .nil .nil (by simp [ChildrenOfOneKind]) belowUnsubnettable
    ⟨rfl, rfl, trivial⟩

/-- The deferred trigger looks at the children of the new row and not at those of its parent, so the
second statement commits. -/
theorem belowUnsubnettable_breaks :
    AllSteps (step .initial) (fun t sa => sa.1.OnValidated .initial t) [] belowUnsubnettable ∧
      ¬ SubnetRules .initial (run (step .initial) [] belowUnsubnettable) := by
  refine ⟨⟨rfl, rfl, trivial⟩, fun h => ?_⟩
  have hchild := h.subnet ⟨1, .v4 10 0 0 0 24, "default", false, false, none, 0⟩ (by decide) rfl rfl
    rfl ⟨2, .v4 10 0 0 0 28, "default", false, true, some 1, 0⟩ (by decide) rfl
  cases hchild

end JazzHands

import JazzHands.Netblock.Outcome
import JazzHands.Netblock.Validated

/-!
# The change that a committed transaction makes

The triggers rewrite rows of other netblocks in a few ways only, the constructors of `Moved`.  The
invariants of `netblock` are proved from `step_cases` and the fields of `Change`.
-/

namespace JazzHands

open Postgres

variable {db : Schema} {order : ScanOrder} {t t' : List Netblock} {x x' : Txn}
variable {m m' n new old r r' : Netblock} {o gone written : Option Netblock} {i : ℕ} {s : Statement}

/-- The statement `s` on the table `t` takes away the row `gone` and stores the row `written`. -/
inductive Writes (db : Schema) (t : List Netblock) :
    Statement → Option Netblock → Option Netblock → Prop where
  | insert {rec : NetblockRecord} {n new : Netblock} (complete : rec.complete db t = .ok n)
      (row : WrittenRow db t none true n new) : Writes db t (.insert rec) none (some new)
  | update {i : ℕ} {set : SetClause} {old n new : Netblock} (find : findNetblock t i = some old)
      (fires : set.firesValidate = true) (complete : (set.apply old).complete db t = .ok n)
      (row : WrittenRow db t (some old) set.firesManipulate n new) :
      Writes db t (.update i set) (some old) (some new)
  | delete {i : ℕ} {old : Netblock} (find : findNetblock t i = some old) :
      Writes db t (.delete i) (some old) none

/-- The triggers of the statement rewrite the parent of the row `r`. -/
def Statement.Touches (db : Schema) (s : Statement) (gone written : Option Netblock)
    (r : Netblock) : Prop :=
  match s with
  | .insert _ => ∃ new ∈ written, AdoptedByInsert db new r
  | .update _ set => ∃ new ∈ written,
      AdoptedByUpdate db set.firesManipulate new r ∨ ReleasedByUpdate db set.firesManipulate new r
  | .delete _ => ∃ old ∈ gone, ReleasedByDelete db old r

/-- The triggers of the statement make `r'` of the row `r`. -/
inductive Moved (db : Schema) :
    Statement → Option Netblock → Option Netblock → Netblock → Netblock → Prop
  | insert {rec : NetblockRecord} {new r r' : Netblock} (adopted : AdoptedByInsert db new r)
      (touched : Touched (some new.netblockId) r r') : Moved db (.insert rec) none (some new) r r'
  | adopt {i : ℕ} {set : SetClause} {old new r r' : Netblock}
      (adopted : AdoptedByUpdate db set.firesManipulate new r)
      (touched : Touched (some new.netblockId) r r') :
      Moved db (.update i set) (some old) (some new) r r'
  | release {i : ℕ} {set : SetClause} {old new r r' : Netblock}
      (released : ReleasedByUpdate db set.firesManipulate new r)
      (touched : Touched old.parentNetblockId r r') :
      Moved db (.update i set) (some old) (some new) r r'
  /-- A row that the first statement of the trigger takes over and the second one gives away. -/
  | pass {i : ℕ} {set : SetClause} {old new r r₁ r' : Netblock}
      (adopted : AdoptedByUpdate db set.firesManipulate new r)
      (between : Touched (some new.netblockId) r r₁)
      (released : ReleasedByUpdate db set.firesManipulate new r₁)
      (touched : Touched old.parentNetblockId r r') :
      Moved db (.update i set) (some old) (some new) r r'
  | delete {i : ℕ} {old r r' : Netblock} (released : ReleasedByDelete db old r)
      (touched : Touched old.parentNetblockId r r') : Moved db (.delete i) (some old) none r r'

theorem Moved.touched (h : Moved db s gone written r r') : ∃ p, Touched p r r' := by
  cases h with
  | insert _ touched | adopt _ touched | release _ touched | pass _ _ _ touched
  | delete _ touched => exact ⟨_, touched⟩

/-- The committed transaction of the statement `s` made the table `t'` of the table `t`. -/
structure Change (db : Schema) (t t' : List Netblock) (s : Statement)
    (gone written : Option Netblock) : Prop where
  writes : Writes db t s gone written
  wellFormed : WellFormed t'
  fresh : ∀ w ∈ written, ∀ r ∈ t, (∀ o ∈ gone, r.netblockId ≠ o.netblockId) →
    r.netblockId ≠ w.netblockId
  written_mem : ∀ w ∈ written, w ∈ t'
  checked : ∀ w ∈ written, Validated db t' gone w
  source : ∀ r' ∈ t', r' ∈ written ∨ ∃ r ∈ t, (∀ o ∈ gone, r.netblockId ≠ o.netblockId) ∧
    ((¬ s.Touches db gone written r ∧ r' = r) ∨
      (Moved db s gone written r r' ∧ ∃ o, Validated db t' o r'))
  image : ∀ r ∈ t, (∀ o ∈ gone, r.netblockId ≠ o.netblockId) → ∃ r' ∈ t',
    (¬ s.Touches db gone written r ∧ r' = r) ∨ Moved db s gone written r r'
  parent : ∀ r ∈ t', ∀ p ∈ r.parentNetblockId, ∃ m, findNetblock t' p = some m

section

variable (ht : WellFormed t)
include ht

theorem change_insert {rec : NetblockRecord} (hx : executeInsert db order t rec = .ok x)
    (hc : commit db x = .ok t') :
    ∃ new, Change db t t' (.insert rec) none (some new) := by
  obtain ⟨n, new, g, hn, hw, hcons, hg⟩ := executeInsert_ok ht hx
  obtain ⟨rfl, hev, hpar⟩ := commit_ok hc
  have hnew : new ∈ t ++ [new] := mem_append_new.mpr (Or.inr rfl)
  have hgnew : g new = new := hg.kept new hnew fun ha => ha.2.2.2.2.1 rfl
  have htouch : ∀ r, (Statement.insert rec).Touches db none (some new) r ↔
      AdoptedByInsert db new r := fun r => by simp [Statement.Touches]
  have hmem : ∀ r ∈ t ++ [new], g r ∈ x.netblock := fun r hr =>
    hg.netblock ▸ List.mem_map_of_mem hr
  refine ⟨new, .insert hn hw, hg.wellFormed, ?_, ?_, ?_, fun r' hr' => ?_, fun r hr _ => ?_, hpar⟩
  · rintro w ⟨⟩ r hr -
    exact (checkConstraints_ok hcons).1 r hr
  · rintro w ⟨⟩
    exact hgnew ▸ hmem new hnew
  · rintro w ⟨⟩
    exact hev _ (hg.deferred (List.mem_singleton.mpr rfl))
  · rw [hg.netblock, List.mem_map] at hr'
    obtain ⟨r, hr, rfl⟩ := hr'
    rcases mem_append_new.mp hr with hr₀ | rfl
    · refine Or.inr ⟨r, hr₀, by simp, ?_⟩
      rw [htouch]
      by_cases ha : AdoptedByInsert db new r
      · obtain ⟨ev, hmem, hnew, -⟩ := hg.event r hr ha
        refine Or.inr ⟨.insert ha (hg.touched r hr ha), ev.old, ?_⟩
        rw [← hnew]
        exact hev ev hmem
      · exact Or.inl ⟨ha, hg.kept r hr ha⟩
    · rw [hgnew]
      exact Or.inl rfl
  · have hr' : r ∈ t ++ [new] := mem_append_new.mpr (Or.inl hr)
    refine ⟨g r, hmem r hr', ?_⟩
    rw [htouch]
    by_cases ha : AdoptedByInsert db new r
    · exact Or.inr (.insert ha (hg.touched r hr' ha))
    · exact Or.inl ⟨ha, hg.kept r hr' ha⟩

theorem change_delete (hf : findNetblock t i = some old) (hx : executeDelete db order t old = .ok x)
    (hc : commit db x = .ok t') :
    Change db t t' (.delete i) (some old) none := by
  obtain ⟨g, hg⟩ := executeDelete_ok ht hx
  obtain ⟨rfl, hev, hpar⟩ := commit_ok hc
  have htouch : ∀ r, (Statement.delete i).Touches db (some old) none r ↔
      ReleasedByDelete db old r := fun r => by simp [Statement.Touches]
  refine ⟨.delete hf, hg.wellFormed, by simp, by simp, by simp, fun r' hr' => ?_, fun r hr hne => ?_, hpar⟩
  · rw [hg.netblock, List.mem_map] at hr'
    obtain ⟨r, hr, rfl⟩ := hr'
    obtain ⟨hr₀, hne⟩ := mem_without.mp hr
    refine Or.inr ⟨r, hr₀, by rintro o ⟨⟩; exact hne, ?_⟩
    rw [htouch]
    by_cases ha : ReleasedByDelete db old r
    · obtain ⟨ev, hmem, hnew, -⟩ := hg.event r hr ha
      refine Or.inr ⟨.delete ha (hg.touched r hr ha), ev.old, ?_⟩
      rw [← hnew]
      exact hev ev hmem
    · exact Or.inl ⟨ha, hg.kept r hr ha⟩
  · have hr' : r ∈ without t old.netblockId := mem_without.mpr ⟨hr, hne old rfl⟩
    refine ⟨g r, hg.netblock ▸ List.mem_map_of_mem hr', ?_⟩
    rw [htouch]
    by_cases ha : ReleasedByDelete db old r
    · exact Or.inr (.delete ha (hg.touched r hr' ha))
    · exact Or.inl ⟨ha, hg.kept r hr' ha⟩

theorem change_update {set : SetClause} (hf : findNetblock t i = some old)
    (hx : executeUpdate db order t old set = .ok x) (hc : commit db x = .ok t') :
    t' = t ∨ ∃ new, Change db t t' (.update i set) (some old) (some new) := by
  obtain ⟨hold, -⟩ := findNetblock_eq_some hf
  rcases executeUpdate_ok ht hold hx with
    ⟨-, rfl⟩ | ⟨n, new, x₁, x₂, g, g', hfire, hn, hw, hg, hg', hA, hR, hcons, rfl⟩
  · exact Or.inl (commit_ok hc).1
  obtain ⟨rfl, hev, hpar⟩ := commit_ok hc
  have htouch : ∀ r, (Statement.update i set).Touches db (some old) (some new) r ↔
      AdoptedByUpdate db set.firesManipulate new r ∨
        ReleasedByUpdate db set.firesManipulate new r := fun r => by simp [Statement.Touches]
  have hmem₁ : ∀ r ∈ t, g r ∈ x₁.netblock := fun r hr => hg.netblock ▸ List.mem_map_of_mem hr
  have hmem₂ : ∀ r ∈ t, g' (g r) ∈ x₂.netblock := fun r hr =>
    hg'.netblock ▸ List.mem_map_of_mem (hmem₁ r hr)
  have hid : ∀ r ∈ t, (g' (g r)).netblockId = r.netblockId := fun r hr => by
    rw [hg'.netblockId (hmem₁ r hr), hg.netblockId hr]
  -- a row that neither statement selects stays, and any other row ends with an event of its own
  have hstay : ∀ r ∈ t, ¬ AdoptedByUpdate db set.firesManipulate new r →
      ¬ ReleasedByUpdate db set.firesManipulate new r → g' (g r) = r := fun r hr ha hb => by
    have hgr : g r = r := hg.kept r hr ha
    rw [hgr]
    exact hg'.kept r (hgr ▸ hmem₁ r hr) hb
  have hmove : ∀ r ∈ t, AdoptedByUpdate db set.firesManipulate new r ∨
      ReleasedByUpdate db set.firesManipulate new r →
        Moved db (.update i set) (some old) (some new) r (g' (g r)) ∧
          ∃ ev ∈ x₂.deferred, ev.new = g' (g r) := fun r hr hsel => by
    by_cases hb : ReleasedByUpdate db set.firesManipulate new (g r)
    · obtain ⟨ev, hev, hnew, -⟩ := hg'.event (g r) (hmem₁ r hr) hb
      have ht' := hg'.touched (g r) (hmem₁ r hr) hb
      refine ⟨?_, ev, hev, hnew⟩
      by_cases ha : AdoptedByUpdate db set.firesManipulate new r
      · exact .pass ha (hg.touched r hr ha) hb ((hg.touched r hr ha).trans ht')
      · rw [hg.kept r hr ha] at hb ht' ⊢
        exact .release hb ht'
    · have ha : AdoptedByUpdate db set.firesManipulate new r := by
        by_contra ha
        rw [hg.kept r hr ha] at hb
        exact hb (hsel.resolve_left ha)
      obtain ⟨ev, hev, hnew, -⟩ := hg.event r hr ha
      rw [hg'.kept (g r) (hmem₁ r hr) hb]
      exact ⟨.adopt ha (hg.touched r hr ha), ev, hg'.deferred hev, hnew⟩
  have hold₂ : old ∈ x₂.netblock := hstay old hold hA hR ▸ hmem₂ old hold
  have hmem : ∀ r, r ∈ replace x₂.netblock old new ↔
      r = new ∨ (r ∈ x₂.netblock ∧ r.netblockId ≠ old.netblockId) := fun r => mem_replace hold₂
  refine Or.inr ⟨new, .update hf hfire hn hw, hg'.wellFormed.replace hold₂ hcons hw.network,
    ?_, ?_, ?_, fun r' hr' => ?_, fun r hr hne => ?_, hpar⟩
  · rintro w ⟨⟩ r hr hne
    rw [← hid r hr]
    refine (checkConstraints_ok hcons).1 _ (mem_without.mpr ⟨hmem₂ r hr, ?_⟩)
    rw [hid r hr]
    exact hne old rfl
  · rintro w ⟨⟩
    exact (hmem _).mpr (Or.inl rfl)
  · rintro w ⟨⟩
    exact hev _ (List.mem_append_right _ (List.mem_singleton.mpr rfl))
  · rcases (hmem r').mp hr' with rfl | ⟨hr₂, hne⟩
    · exact Or.inl rfl
    rw [hg'.netblock, hg.netblock, List.map_map, List.mem_map] at hr₂
    obtain ⟨r, hr, rfl⟩ := hr₂
    refine Or.inr ⟨r, hr, ?_, ?_⟩
    · rintro o ⟨⟩
      exact hid r hr ▸ hne
    rw [htouch]
    by_cases hsel : AdoptedByUpdate db set.firesManipulate new r ∨
        ReleasedByUpdate db set.firesManipulate new r
    · obtain ⟨hmoved, ev, hmem, hnew⟩ := hmove r hr hsel
      refine Or.inr ⟨hmoved, ev.old, ?_⟩
      show Validated db _ ev.old (g' (g r))
      rw [← hnew]
      exact hev ev (List.mem_append_left _ hmem)
    · rw [not_or] at hsel
      exact Or.inl ⟨not_or.mpr hsel, hstay r hr hsel.1 hsel.2⟩
  · refine ⟨g' (g r), (hmem _).mpr (Or.inr ⟨hmem₂ r hr, ?_⟩), ?_⟩
    · rw [hid r hr]
      exact hne old rfl
    rw [htouch]
    by_cases hsel : AdoptedByUpdate db set.firesManipulate new r ∨
        ReleasedByUpdate db set.firesManipulate new r
    · exact Or.inr (hmove r hr hsel).1
    · rw [not_or] at hsel
      exact Or.inl ⟨not_or.mpr hsel, hstay r hr hsel.1 hsel.2⟩

/-- **A committed transaction** leaves the table as it is, or is a `Change`. -/
theorem transaction_ok (h : transaction db order t s = .ok t') :
    t' = t ∨ ∃ gone written, Change db t t' s gone written := by
  obtain ⟨x, hx, hc⟩ := bind_eq_ok.mp h
  cases s with
  | insert rec =>
    obtain ⟨new, hnew⟩ := change_insert ht hx hc
    exact Or.inr ⟨_, _, hnew⟩
  | update i set =>
    dsimp only [execute] at hx
    cases hf : findNetblock t i with
    | none =>
      rw [hf] at hx
      cases hx
      exact Or.inl (commit_ok hc).1
    | some old =>
      rw [hf] at hx
      exact (change_update ht hf hx hc).imp_right fun ⟨new, hnew⟩ => ⟨_, _, hnew⟩
  | delete i =>
    dsimp only [execute] at hx
    cases hf : findNetblock t i with
    | none =>
      rw [hf] at hx
      cases hx
      exact Or.inl (commit_ok hc).1
    | some old =>
      rw [hf] at hx
      exact Or.inr ⟨_, _, change_delete ht hf hx hc⟩

/-- What holds of a table, and of every table that a committed transaction makes of it, holds of
the table after a step. -/
theorem step_cases {I : List Netblock → Prop} {sa : Statement × ScanOrder} (h₀ : I t)
    (h : ∀ t' gone written, Change db t t' sa.1 gone written → I t') :
    I (step db t sa) := by
  unfold step
  cases hx : transaction db sa.2 t sa.1 with
  | error e => exact h₀
  | ok t' =>
    rcases transaction_ok ht hx with rfl | ⟨gone, written, hc⟩
    · exact h₀
    · exact h t' gone written hc

theorem WellFormed.step {sa : Statement × ScanOrder} :
    WellFormed (step db t sa) :=
  step_cases ht ht fun _ _ _ hc => hc.wellFormed

end

/-! ## Facts about changes -/

/-- A child `c` that keeps its parent when the row of the parent becomes `n`: the triggers move
only the children of a network in a forced hierarchy. -/
def SetClause.Leaves (db : Schema) (set : SetClause) (n c : Netblock) : Prop :=
  set.firesManipulate = true → db.dbForcedHierarchy n.netblockType = true →
    n.isSingleAddress = false → c.ipUniverseId = n.ipUniverseId ∧
      c.netblockType = n.netblockType ∧ c.ipAddress.subnetEq n.ipAddress

theorem WrittenRow.leaves {set : SetClause} {c : Netblock}
    (h : WrittenRow db t o set.firesManipulate n new) (hp : c.parentNetblockId = some new.netblockId)
    (htouch : ¬ (Statement.update i set).Touches db gone (some new) c) : set.Leaves db n c := by
  intro hf hforced hnet
  by_contra hnot
  refine htouch ⟨new, rfl, Or.inr ⟨⟨hf, h.netblockType ▸ hforced, h.isSingleAddress.trans hnet⟩,
    hp, ?_⟩⟩
  rw [h.ipUniverseId, h.netblockType, h.ip (Or.inl hnet)]
  by_contra hall
  push Not at hall
  exact hnot hall

/-- JH105: a single address of a validated type has a parent. -/
theorem Validated.parent_ne_none (ht : WellFormed t) (hr : r ∈ t) (h : Validated db t o r)
    (hv : db.isValidatedHierarchy r.netblockType = true) (hs : r.isSingleAddress = true) :
    r.parentNetblockId ≠ none := by
  intro hp
  have hnet := (h.topLevel ht hr hv hp).single
  rw [hs] at hnet
  cases hnet

/-- JH10B, which the trigger checks of a row with a parent: the children of a written row that is
not subnettable are single addresses. -/
theorem Change.child_single (hc : Change db t t' s gone (some new))
    (hv : db.isValidatedHierarchy new.netblockType = true) (hsubnet : new.canSubnet = false)
    (hparent : new.parentNetblockId ≠ none) (hr : r ∈ t')
    (hp : r.parentNetblockId = some new.netblockId) : r.isSingleAddress = true := by
  obtain ⟨p, hp'⟩ := Option.ne_none_iff_exists'.mp hparent
  obtain ⟨-, m, -, -, -, -, -, hchild⟩ :=
    (hc.checked new rfl).parent hc.wellFormed (hc.written_mem new rfl) hp'
  exact (hchild hv).children hsubnet r hr hp

/-- The children of a row that became a single address are no networks. -/
theorem Change.child_of_single (hc : Change db t t' s gone (some new))
    (hs : new.isSingleAddress = true) (hv : db.isValidatedHierarchy new.netblockType = true)
    (hsubnet : new.canSubnet = false) (hr : r ∈ t')
    (hp : r.parentNetblockId = some new.netblockId) : r.isSingleAddress = true :=
  hc.child_single hv hsubnet
    ((hc.checked new rfl).parent_ne_none hc.wellFormed (hc.written_mem new rfl) hv hs) hr hp

/-- The row `m'` of the committed table stands for the row `m`: its parent may be another, and for
a single address its mask. -/
def StandsFor (m m' : Netblock) : Prop := m' = m ∨ ∃ p, Touched p m m'

theorem StandsFor.columns (h : StandsFor m m') : m'.netblockId = m.netblockId ∧
    m'.netblockType = m.netblockType ∧ m'.ipUniverseId = m.ipUniverseId ∧
    m'.isSingleAddress = m.isSingleAddress ∧ m'.canSubnet = m.canSubnet := by
  rcases h with rfl | ⟨p, hp⟩
  · exact ⟨rfl, rfl, rfl, rfl, rfl⟩
  · exact ⟨hp.netblockId, hp.netblockType, hp.ipUniverseId, hp.isSingleAddress, hp.canSubnet⟩

theorem Change.source_cases (hc : Change db t t' s gone written) (hm' : m' ∈ t') :
    m' ∈ written ∨ ∃ m ∈ t, (∀ o ∈ gone, m.netblockId ≠ o.netblockId) ∧ StandsFor m m' := by
  rcases hc.source m' hm' with hw | ⟨m, hm, hne, ⟨-, rfl⟩ | ⟨hmoved, -⟩⟩
  · exact Or.inl hw
  · exact Or.inr ⟨m', hm, hne, Or.inl rfl⟩
  · exact Or.inr ⟨m, hm, hne, Or.inr hmoved.touched⟩

theorem StandsFor.ip (h : StandsFor m m') (hs : m'.isSingleAddress = false) :
    m'.ipAddress = m.ipAddress := by
  rcases h with rfl | ⟨p, hp⟩
  · rfl
  · exact hp.ip (hp.isSingleAddress ▸ hs)

/-- A symmetric relation between all rows of a table is kept if it does not depend on what the
triggers rewrite, and holds of the written row and every other row. -/
theorem Change.forall_pairs {P : Netblock → Netblock → Prop} (hc : Change db t t' s gone written)
    (hsymm : ∀ a b, P a b → P b a) (hstands : ∀ a a' b, StandsFor a a' → P a b → P a' b)
    (h : ∀ a ∈ t, ∀ b ∈ t, P a b)
    (hw : ∀ w ∈ written, P w w ∧ ∀ m ∈ t, (∀ o ∈ gone, m.netblockId ≠ o.netblockId) →
      m.netblockId ≠ w.netblockId → P w m) :
    ∀ a ∈ t', ∀ b ∈ t', P a b := by
  have hone : ∀ w ∈ written, ∀ b' ∈ t', P w b' := by
    intro w hw' b' hb'
    rcases hc.source_cases hb' with hbw | ⟨b, hb, hne, hst⟩
    · rw [Option.mem_unique hbw hw']
      exact (hw w hw').1
    · exact hsymm _ _ (hstands b b' w hst
        (hsymm _ _ ((hw w hw').2 b hb hne (hc.fresh w hw' b hb hne))))
  intro a' ha' b' hb'
  rcases hc.source_cases ha' with haw | ⟨a, ha, -, hsta⟩
  · exact hone a' haw b' hb'
  rcases hc.source_cases hb' with hbw | ⟨b, hb, -, hstb⟩
  · exact hsymm _ _ (hone b' hbw a' ha')
  · exact hstands a a' b' hsta (hsymm _ _ (hstands b b' a hstb (hsymm _ _ (h a ha b hb))))

end JazzHands

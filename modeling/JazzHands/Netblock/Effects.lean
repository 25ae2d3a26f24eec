import JazzHands.Netblock.Statement
import Mathlib.Tactic.MkIffOfInductiveProp

/-!
# What the trigger functions do to the table

* `validateNetblock_record`: `validate_netblock` on a complete record changes at most the mask of a
  single address.
-/

namespace JazzHands

open Postgres

variable {db : Schema} {order : ScanOrder} {t t' : List Netblock} {x x' : Txn}
variable {p : Option ℕ} {n new old r r' s : Netblock} {o : Option Netblock} {i : ℕ}

/-! ## Well-formed tables -/

/-- The columns of `ak_netblock_params` agree. -/
def SameParams (r s : Netblock) : Prop :=
  r.ipAddress = s.ipAddress ∧ r.netblockType = s.netblockType ∧
    r.ipUniverseId = s.ipUniverseId ∧ r.isSingleAddress = s.isSingleAddress
  deriving Decidable

/-- The constraints that hold of the stored rows at any time: the two keys, and networks have no
host bits (JH103). -/
@[mk_iff]
structure WellFormed (t : List Netblock) : Prop where
  pk : ∀ r ∈ t, ∀ s ∈ t, r.netblockId = s.netblockId → r = s
  ak : ∀ r ∈ t, ∀ s ∈ t, SameParams r s → r = s
  network : ∀ r ∈ t, r.isSingleAddress = false → r.ipAddress.network = r.ipAddress

instance (t : List Netblock) : Decidable (WellFormed t) :=
  decidable_of_iff _ (wellFormed_iff t).symm

theorem WellFormed.nil : WellFormed [] := ⟨by simp, by simp, by simp⟩

theorem findNetblock_eq_some (h : findNetblock t i = some n) : n ∈ t ∧ n.netblockId = i :=
  Library.of_find?_eq_some h

theorem findNetblock_eq_none : findNetblock t i = none ↔ ∀ n ∈ t, n.netblockId ≠ i := by
  simp [findNetblock, List.find?_eq_none]

theorem WellFormed.findNetblock_mem (ht : WellFormed t) (hn : n ∈ t) :
    findNetblock t n.netblockId = some n :=
  Library.find?_eq_some_of_unique hn rfl fun m hm hid => ht.pk m hm n hn hid

theorem mem_without : r ∈ without t i ↔ r ∈ t ∧ r.netblockId ≠ i := by
  simp [without]

/-! ## `validate_netblock` -/

@[simp] theorem complete_record (db : Schema) (t : List Netblock) (n : Netblock) :
    n.record.complete db t = .ok n := by
  simp [NetblockRecord.complete, Netblock.record]

/-- `validate_netblock` fills in columns that are NULL, and keeps the other ones. -/
theorem complete_ok {rec : NetblockRecord} (h : rec.complete db t = .ok n) :
    n.netblockId = rec.netblockId ∧ rec.ipAddress = some n.ipAddress ∧
      n.netblockType = rec.netblockType ∧ (∀ b ∈ rec.isSingleAddress, n.isSingleAddress = b) ∧
      (∀ b ∈ rec.canSubnet, n.canSubnet = b) ∧ n.parentNetblockId = rec.parentNetblockId ∧
      ∀ u ∈ rec.ipUniverseId, n.ipUniverseId = u := by
  unfold NetblockRecord.complete at h
  cases hip : rec.ipAddress with
  | none =>
    rw [hip] at h
    exact absurd h raise_ne_ok
  | some ip =>
    rw [hip] at h
    dsimp only at h
    split at h
    · next single subnet hs hc =>
      cases h
      refine ⟨rfl, rfl, rfl, fun b hb => ?_, fun b hb => ?_, rfl, fun u hu => ?_⟩
      · rw [Option.mem_def] at hb
        simpa [hb] using hs.symm
      · rw [Option.mem_def] at hb
        simpa [hb] using hc.symm
      · rw [Option.mem_def] at hu
        simp [hu]
    · exact absurd h raise_ne_ok

theorem setMasklen_eq_ok {a b : Inet} {m : ℕ} (h : a.setMasklen m = .ok b) :
    b.host = a.host ∧ b.masklen = m := by
  unfold Inet.setMasklen at h
  rw [if_neg (by omega)] at h
  split at h
  · cases h
    exact ⟨rfl, rfl⟩
  · exact absurd h raise_ne_ok

/-- `validate_netblock` changes no column of a complete record but the mask of a single address of
a forced hierarchy. -/
theorem singleAddressMask_ok (h : singleAddressMask db t n = .ok new) :
    new = { n with ipAddress := new.ipAddress } ∧ new.ipAddress.host = n.ipAddress.host ∧
      (n.isSingleAddress = false ∨ db.dbForcedHierarchy n.netblockType = false → new = n) := by
  unfold singleAddressMask at h
  split_ifs at h with hc
  · cases hp : (n.bestParent t).bind (findNetblock t) with
    | none =>
      rw [hp] at h
      exact absurd h raise_ne_ok
    | some parent =>
      rw [hp] at h
      simp only [bind_eq_ok, Except.ok.injEq] at h
      obtain ⟨ip, hip, rfl⟩ := h
      refine ⟨rfl, (setMasklen_eq_ok hip).1, ?_⟩
      rintro (hs | hf)
      · simp [hc.1] at hs
      · simp [hc.2] at hf
  · cases h
    exact ⟨rfl, rfl, fun _ => rfl⟩

theorem validateNetblock_ok {new₀ : NetblockRecord} (h : validateNetblock db t o new₀ = .ok new) :
    ∃ n, new₀.complete db t = .ok n ∧ singleAddressMask db t n = .ok new ∧
      checkNetblock db t o new = .ok () := by
  obtain ⟨n, hn, h⟩ := bind_eq_ok.mp h
  obtain ⟨new', hnew, h⟩ := bind_eq_ok.mp h
  obtain ⟨hcheck, h⟩ := bind_unit_eq_ok.mp h
  cases h
  exact ⟨n, hn, hnew, hcheck⟩

theorem validateNetblock_record (h : validateNetblock db t o n.record = .ok new) :
    singleAddressMask db t n = .ok new ∧ checkNetblock db t o new = .ok () := by
  obtain ⟨n', hn', hmask, hcheck⟩ := validateNetblock_ok h
  rw [complete_record, Except.ok.injEq] at hn'
  rw [hn']
  exact ⟨hmask, hcheck⟩

theorem checkNetblock_ok (h : checkNetblock db t o new = .ok ()) :
    (new.isSingleAddress = true → new.canSubnet = false) ∧
      (new.isSingleAddress = false → new.ipAddress.network = new.ipAddress) := by
  simp only [checkNetblock, bind_unit_eq_ok, raiseIf_eq_ok] at h
  obtain ⟨h106, h103, -⟩ := h
  refine ⟨fun hs => ?_, fun hs => ?_⟩
  · simpa [hs] using h106
  · by_contra hne
    exact h103 ⟨hs, fun e => hne e.symm⟩

/-! ## Rows touched by the triggers -/

/-- The row `r` after a statement inside a trigger set its parent to `p`. -/
structure Touched (p : Option ℕ) (r r' : Netblock) : Prop where
  row : r' = { r with parentNetblockId := p, ipAddress := r'.ipAddress }
  host : r'.ipAddress.host = r.ipAddress.host
  ip : r.isSingleAddress = false → r'.ipAddress = r.ipAddress

namespace Touched

section

variable (h : Touched p r r')
include h

theorem netblockId : r'.netblockId = r.netblockId := by rw [h.row]

theorem netblockType : r'.netblockType = r.netblockType := by rw [h.row]

theorem isSingleAddress : r'.isSingleAddress = r.isSingleAddress := by
  rw [h.row]

theorem canSubnet : r'.canSubnet = r.canSubnet := by rw [h.row]

theorem ipUniverseId : r'.ipUniverseId = r.ipUniverseId := by rw [h.row]

theorem parentNetblockId : r'.parentNetblockId = p := by rw [h.row]

theorem trans {q : Option ℕ} (h' : Touched q r' s) : Touched q r s where
  row := by
    rw [h'.row, h.row]
  host := h'.host.trans h.host
  ip := fun hs => (h'.ip (h.isSingleAddress.trans hs)).trans (h.ip hs)

end

end Touched

theorem touched_of_eq_or {q : Option ℕ} (h : r' = r ∨ Touched q r r') (h' : Touched p r' s) :
    Touched p r s := by
  rcases h with rfl | h
  · exact h'
  · exact h.trans h'

/-- The row that `validate_netblock` returns when a trigger sets a parent. -/
theorem touched_of_validateNetblock
    (h : validateNetblock db t o { r with parentNetblockId := p }.record = .ok r') :
    Touched p r r' := by
  obtain ⟨hrow, hhost, hip⟩ := singleAddressMask_ok (validateNetblock_record h).1
  exact ⟨hrow, hhost, fun hs => by rw [hip (Or.inl hs)]⟩

/-! ## Writing a row -/

theorem checkConstraints_ok (h : checkConstraints db t new = .ok ()) :
    (∀ r ∈ t, r.netblockId ≠ new.netblockId) ∧ ∀ r ∈ t, ¬ SameParams r new := by
  simp only [checkConstraints, bind_unit_eq_ok, raiseIf_eq_ok, not_exists, not_and] at h
  exact ⟨h.1, fun r hr hp => h.2.1 r hr hp.1 hp.2.1 hp.2.2.1 hp.2.2.2⟩

/-- The rows once the row with the key of `old` has become `new`. -/
def replace (t : List Netblock) (old new : Netblock) : List Netblock :=
  t.map fun n => if n.netblockId = old.netblockId then new else n

theorem mem_replace (hold : old ∈ t) :
    r ∈ replace t old new ↔ r = new ∨ (r ∈ t ∧ r.netblockId ≠ old.netblockId) := by
  rw [replace, List.mem_map]
  constructor
  · rintro ⟨n, hn, rfl⟩
    split_ifs with hc
    · exact Or.inl rfl
    · exact Or.inr ⟨hn, hc⟩
  · rintro (rfl | ⟨hr, hne⟩)
    · exact ⟨old, hold, if_pos rfl⟩
    · exact ⟨r, hr, if_neg hne⟩

theorem writeRow_ok (h : writeRow db x old new = .ok x') :
    checkConstraints db (without x.netblock old.netblockId) new = .ok () ∧
      x' = ⟨replace x.netblock old new, x.deferred ++ [⟨some old, new⟩]⟩ := by
  simp only [writeRow, bind_unit_eq_ok, Except.ok.injEq] at h
  exact ⟨h.1, h.2.symm⟩

theorem WellFormed.replace (ht : WellFormed t) (hold : old ∈ t)
    (hc : checkConstraints db (without t old.netblockId) new = .ok ())
    (hn : new.isSingleAddress = false → new.ipAddress.network = new.ipAddress) :
    WellFormed (replace t old new) := by
  obtain ⟨hid, hak⟩ := checkConstraints_ok hc
  have hother : ∀ r ∈ t, r.netblockId ≠ old.netblockId → r ∈ without t old.netblockId :=
    fun r hr hne => mem_without.mpr ⟨hr, hne⟩
  refine ⟨fun r hr s hs hrs => ?_, fun r hr s hs hrs => ?_, fun r hr hsingle => ?_⟩
  · rcases (mem_replace hold).mp hr with rfl | ⟨hr', hrne⟩ <;>
      rcases (mem_replace hold).mp hs with rfl | ⟨hs', hsne⟩
    · rfl
    · exact absurd hrs.symm (hid s (hother s hs' hsne))
    · exact absurd hrs (hid r (hother r hr' hrne))
    · exact ht.pk r hr' s hs' hrs
  · rcases (mem_replace hold).mp hr with rfl | ⟨hr', hrne⟩ <;>
      rcases (mem_replace hold).mp hs with rfl | ⟨hs', hsne⟩
    · rfl
    · exact absurd ⟨hrs.1.symm, hrs.2.1.symm, hrs.2.2.1.symm, hrs.2.2.2.symm⟩
        (hak s (hother s hs' hsne))
    · exact absurd hrs (hak r (hother r hr' hrne))
    · exact ht.ak r hr' s hs' hrs
  · rcases (mem_replace hold).mp hr with rfl | ⟨hr, -⟩
    · exact hn hsingle
    · exact ht.network r hr hsingle

/-! ## The statements inside the triggers -/

/-- What `UPDATE netblock SET parent_netblock_id = p WHERE cond` inside a trigger does: the rows
are mapped by `g`, which touches the selected ones, and every selected row gets an event. -/
structure UpdatesParents (p : Option ℕ) (cond : Netblock → Prop) (x x' : Txn)
    (g : Netblock → Netblock) : Prop where
  netblock : x'.netblock = x.netblock.map g
  touched : ∀ r ∈ x.netblock, cond r → Touched p r (g r)
  kept : ∀ r ∈ x.netblock, ¬ cond r → g r = r
  wellFormed : WellFormed x'.netblock
  deferred : x.deferred ⊆ x'.deferred
  event : ∀ r ∈ x.netblock, cond r →
    ∃ ev ∈ x'.deferred, ev.new = g r ∧ ∃ o ∈ ev.old, o.netblockId = r.netblockId
  events : ∀ ev ∈ x'.deferred, ev ∈ x.deferred ∨ ∃ r ∈ x.netblock, cond r ∧
    ∃ o, ev.old = some o ∧ (o = r ∨ Touched p r o) ∧ Touched p r ev.new

namespace UpdatesParents

variable {cond cond' : Netblock → Prop} {g g' : Netblock → Netblock} {x'' : Txn}

theorem nop (hx : WellFormed x.netblock) (hc : ∀ r ∈ x.netblock, ¬ cond r) :
    UpdatesParents p cond x x id where
  netblock := (List.map_id _).symm
  touched r hr h := absurd h (hc r hr)
  kept _ _ _ := rfl
  wellFormed := hx
  deferred := List.Subset.refl _
  event r hr h := absurd h (hc r hr)
  events _ hev := Or.inl hev

/-- The map keeps the columns of a row that no statement inside a trigger sets. -/
theorem touched_or_eq (h : UpdatesParents p cond x x' g) (hr : r ∈ x.netblock) :
    g r = r ∨ Touched p r (g r) := by
  by_cases hc : cond r
  · exact Or.inr (h.touched r hr hc)
  · exact Or.inl (h.kept r hr hc)

theorem netblockId (h : UpdatesParents p cond x x' g) (hr : r ∈ x.netblock) :
    (g r).netblockId = r.netblockId := by
  rcases h.touched_or_eq hr with he | ht
  · rw [he]
  · exact ht.netblockId

theorem congr (h : UpdatesParents p cond x x' g) (hc : ∀ r ∈ x.netblock, cond r ↔ cond' r) :
    UpdatesParents p cond' x x' g where
  netblock := h.netblock
  touched r hr hr' := h.touched r hr ((hc r hr).mpr hr')
  kept r hr hr' := h.kept r hr fun hcr => hr' ((hc r hr).mp hcr)
  wellFormed := h.wellFormed
  deferred := h.deferred
  event r hr hr' := h.event r hr ((hc r hr).mpr hr')
  events ev hev := (h.events ev hev).imp_right fun ⟨r, hr, hcr, hrest⟩ =>
    ⟨r, hr, (hc r hr).mp hcr, hrest⟩

/-- Two statements that set the same parent, and select rows by their keys. -/
theorem comp {i : ℕ} {l : List ℕ} (h : UpdatesParents p (·.netblockId = i) x x' g)
    (h' : UpdatesParents p (·.netblockId ∈ l) x' x'' g') :
    UpdatesParents p (·.netblockId ∈ i :: l) x x'' (g' ∘ g) := by
  have hmem : ∀ r ∈ x.netblock, g r ∈ x'.netblock := fun r hr =>
    h.netblock ▸ List.mem_map_of_mem hr
  refine ⟨?_, fun r hr hc => ?_, fun r hr hc => ?_, h'.wellFormed,
    List.Subset.trans h.deferred h'.deferred,
    fun r hr hc => ?_, fun ev hev => ?_⟩
  · rw [h'.netblock, h.netblock, List.map_map]
  · by_cases hl : r.netblockId ∈ l
    · have ht := h'.touched (g r) (hmem r hr) (by rwa [h.netblockId hr])
      exact touched_of_eq_or (h.touched_or_eq hr) ht
    · have hi : r.netblockId = i := (List.mem_cons.mp hc).resolve_right hl
      rw [Function.comp, h'.kept (g r) (hmem r hr) (by rwa [h.netblockId hr])]
      exact h.touched r hr hi
  · rw [List.mem_cons, not_or] at hc
    rw [Function.comp, h.kept r hr hc.1, h'.kept r (h.kept r hr hc.1 ▸ hmem r hr) hc.2]
  · by_cases hl : r.netblockId ∈ l
    · obtain ⟨ev, hev, hnew, o, ho, hid⟩ :=
        h'.event (g r) (hmem r hr) (by rwa [h.netblockId hr])
      exact ⟨ev, hev, hnew, o, ho, hid.trans (h.netblockId hr)⟩
    · have hi : r.netblockId = i := (List.mem_cons.mp hc).resolve_right hl
      obtain ⟨ev, hev, hnew, ho⟩ := h.event r hr hi
      refine ⟨ev, h'.deferred hev, ?_, ho⟩
      rw [Function.comp, h'.kept (g r) (hmem r hr) (by rwa [h.netblockId hr])]
      exact hnew
  · rcases h'.events ev hev with hev | ⟨r, hr, hc, o, ho, hor, hnew⟩
    · rcases h.events ev hev with hev | ⟨r, hr, hc, hrest⟩
      · exact Or.inl hev
      · exact Or.inr ⟨r, hr, List.mem_cons.mpr (Or.inl hc), hrest⟩
    · rw [h.netblock, List.mem_map] at hr
      obtain ⟨r₀, hr₀, rfl⟩ := hr
      have hc' : r₀.netblockId ∈ i :: l :=
        List.mem_cons_of_mem _ (h.netblockId hr₀ ▸ hc)
      have hstep := h.touched_or_eq hr₀
      refine Or.inr ⟨r₀, hr₀, hc', o, ho, ?_, touched_of_eq_or hstep hnew⟩
      rcases hor with rfl | ht
      · exact hstep
      · exact Or.inr (touched_of_eq_or hstep ht)

end UpdatesParents

theorem updateParent_ok (hx : WellFormed x.netblock) (h : updateParent db p x i = .ok x') :
    ∃ g, UpdatesParents p (·.netblockId = i) x x' g := by
  unfold updateParent at h
  cases hf : findNetblock x.netblock i with
  | none =>
    rw [hf] at h
    cases h
    exact ⟨id, .nop hx (findNetblock_eq_none.mp hf)⟩
  | some old =>
    rw [hf] at h
    obtain ⟨hold, rfl⟩ := findNetblock_eq_some hf
    obtain ⟨new, hnew, hw⟩ := bind_eq_ok.mp h
    obtain ⟨hc, hx'⟩ := writeRow_ok hw
    have ht : Touched p old new := touched_of_validateNetblock hnew
    have hnet : new.isSingleAddress = false → new.ipAddress.network = new.ipAddress :=
      (checkNetblock_ok (validateNetblock_record hnew).2).2
    refine ⟨fun n => if n.netblockId = old.netblockId then new else n, ?_⟩
    refine ⟨by rw [hx']; rfl, fun r hr hr' => ?_, fun r hr hr' => if_neg hr', ?_,
      by simp [hx'], fun r hr hr' => ?_, fun ev hev => ?_⟩
    · rw [if_pos hr', hx.pk r hr old hold hr']
      exact ht
    · rw [hx']
      exact hx.replace hold hc hnet
    · exact ⟨⟨some old, new⟩, by simp [hx'], (if_pos hr').symm, old, rfl, hr'.symm⟩
    · rw [hx', List.mem_append, List.mem_singleton] at hev
      rcases hev with hev | rfl
      · exact Or.inl hev
      · exact Or.inr ⟨old, hold, rfl, old, rfl, Or.inl rfl, ht⟩

theorem updateParentAll_ok {l : List ℕ} (hx : WellFormed x.netblock)
    (h : updateParentAll db p x l = .ok x') :
    ∃ g, UpdatesParents p (·.netblockId ∈ l) x x' g := by
  induction l generalizing x with
  | nil =>
    cases h
    exact ⟨id, .nop hx fun r _ => List.not_mem_nil⟩
  | cons i l ih =>
    obtain ⟨x₁, h₁, h₂⟩ := bind_eq_ok.mp h
    obtain ⟨g, hg⟩ := updateParent_ok hx h₁
    obtain ⟨g', hg'⟩ := ih hg.wellFormed h₂
    exact ⟨g' ∘ g, hg.comp hg'⟩

/-- **The effect of a statement inside a trigger.** -/
theorem updateParents_ok {cond : Netblock → Prop} [DecidablePred cond]
    (hx : WellFormed x.netblock) (h : updateParents db order p cond x = .ok x') :
    ∃ g, UpdatesParents p cond x x' g := by
  obtain ⟨g, hg⟩ := updateParentAll_ok hx h
  refine ⟨g, hg.congr fun r hr => ?_⟩
  rw [(order.perm _).mem_iff, List.mem_map]
  constructor
  · rintro ⟨s, hs, hid⟩
    obtain ⟨hs, hc⟩ := List.mem_filter.mp hs
    rw [← hx.pk s hs r hr hid]
    exact of_decide_eq_true hc
  · exact fun hc => ⟨r, List.mem_filter.mpr ⟨hr, decide_eq_true hc⟩, rfl⟩

end JazzHands

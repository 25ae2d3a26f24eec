import JazzHands.Library.Runs
import JazzHands.SchemaSupport.RefreshMv

/-!
# Whether a change is noticed

A view is current when no relation that it tracks has changed after its refresh.  `Sound` is the
invariant: it is about every view and every open transaction, and each step of a transaction keeps
it where the change is noticed.  Two transactions do not meet because of their locks
(`apart_of_conflict`).
-/

namespace JazzHands.RefreshMv

open Library

variable {β ν γ : Type} {n : ℕ} {cat : Catalog β ν γ}
  {s s' : Snapshot β ν γ} {t t' : Transaction ν γ} {w : World β ν γ n} {i j : Fin n} {u v : ν}
  {rel : Relation β ν} {rv ts lastdat lastref : Option ℕ}

/-- The stored rows are those of the query. -/
def Current (cat : Catalog β ν γ) (s : Snapshot β ν γ) (v : ν) : Prop :=
  s.contents (.view v) = cat.query v s.contents

/-! ## Times -/

/-- The time `ts`, if there is one, is not after `rv`; no time is before all times. -/
def NotAfter (ts rv : Option ℕ) : Prop := ∀ t, ts = some t → ∃ r, rv = some r ∧ t ≤ r

theorem NotAfter.trans {r : Option ℕ} (h : NotAfter ts rv) (h' : NotAfter rv r) :
    NotAfter ts r := by
  intro t ht
  obtain ⟨r₁, h₁, hle⟩ := h t ht
  obtain ⟨r₂, h₂, hle'⟩ := h' r₁ h₁
  exact ⟨r₂, h₂, by omega⟩

theorem notAfter_later_left : NotAfter rv (later rv ts) := by
  rintro t rfl
  cases ts with
  | none => exact ⟨t, rfl, Nat.le_refl t⟩
  | some ts =>
    unfold later
    dsimp only
    split
    · exact ⟨ts, rfl, by omega⟩
    · exact ⟨t, rfl, Nat.le_refl t⟩

theorem notAfter_later_right : NotAfter ts (later rv ts) := by
  rintro t rfl
  cases rv with
  | none => exact ⟨t, rfl, Nat.le_refl t⟩
  | some rv =>
    unfold later
    dsimp only
    split
    · exact ⟨t, rfl, Nat.le_refl t⟩
    · exact ⟨rv, rfl, by omega⟩

theorem notAfter_iff_refreshNeeded : NotAfter lastdat lastref ↔
    refreshNeeded lastdat lastref = false := by
  cases lastdat <;> cases lastref <;> simp [NotAfter, refreshNeeded]

theorem notAfter_foldl (l : List (Reference β ν)) :
    NotAfter rv (l.foldl (fun rv r => later rv (lastChanged s r.refobj)) rv) ∧
      ∀ r ∈ l, NotAfter (lastChanged s r.refobj)
        (l.foldl (fun rv r => later rv (lastChanged s r.refobj)) rv) := by
  induction l generalizing rv with
  | nil => exact ⟨fun t ht => ⟨t, ht, Nat.le_refl t⟩, fun r hr => nomatch hr⟩
  | cons r l ih =>
    obtain ⟨hrv, hl⟩ := @ih (later rv (lastChanged s r.refobj))
    refine ⟨notAfter_later_left.trans hrv, fun r' hr' => ?_⟩
    rcases List.mem_cons.mp hr' with rfl | hr'
    · exact notAfter_later_right.trans hrv
    · exact hl r' hr'

/-- The view refers to a column of the relation. -/
def Catalog.Tracks (cat : Catalog β ν γ) (v : ν) (rel : Relation β ν) : Prop :=
  ∃ r ∈ cat.depends v, r.refobj = rel ∧ 0 < r.refobjsubid

theorem notAfter_of_not_refreshNeeded (htracks : cat.Tracks v rel)
    (h : refreshNeeded (relationLastChanged cat s v) lastref = false) :
    NotAfter (lastChanged s rel) lastref := by
  obtain ⟨r, hr, rfl, hcolumn⟩ := htracks
  have hmem : r ∈ (cat.depends v).filter fun r => 0 < r.refobjsubid :=
    List.mem_filter.mpr ⟨hr, decide_eq_true hcolumn⟩
  exact ((notAfter_foldl _).2 r hmem).trans (notAfter_iff_refreshNeeded.mpr h)

/-! ## A view that would not be refreshed -/

/-- A view is current if no relation that it tracks has changed after its refresh. -/
def Detects (cat : Catalog β ν γ) (s : Snapshot β ν γ) (v : ν) : Prop :=
  (∀ rel, cat.Tracks v rel → NotAfter (lastChanged s rel) (s.refresh v)) → Current cat s v

theorem Detects.current (h : Detects cat s v)
    (hnot : refreshNeeded (relationLastChanged cat s v) (s.refresh v) = false) :
    Current cat s v :=
  h fun _ htracks => notAfter_of_not_refreshNeeded htracks hnot

theorem detects_of_later (htracks : cat.Tracks v rel) {c : ℕ} (hc : lastChanged s rel = some c)
    (hlt : ∀ r, s.refresh v = some r → r < c) : Detects cat s v := by
  intro hall
  obtain ⟨r, hr, hle⟩ := hall rel htracks c hc
  have := hlt r hr
  omega

/-- The two snapshots do not differ in the view and in what it refers to. -/
structure Agree (cat : Catalog β ν γ) (v : ν) (s s' : Snapshot β ν γ) : Prop where
  refresh : s.refresh v = s'.refresh v
  stored : s.contents (.view v) = s'.contents (.view v)
  contents : ∀ r ∈ cat.depends v, s.contents r.refobj = s'.contents r.refobj
  changed : ∀ r ∈ cat.depends v, lastChanged s r.refobj = lastChanged s' r.refobj

theorem Detects.congr (h : Detects cat s v) (hagree : Agree cat v s s') : Detects cat s' v := by
  intro hall
  have hcurrent : Current cat s v := by
    refine h fun rel htracks => ?_
    obtain ⟨r, hr, rfl, hcolumn⟩ := htracks
    rw [hagree.changed r hr, hagree.refresh]
    exact hall _ ⟨r, hr, rfl, hcolumn⟩
  show s'.contents (.view v) = cat.query v s'.contents
  rw [← hagree.stored, ← cat.reads v _ _ hagree.contents]
  exact hcurrent

/-! ## A commit of a transaction that writes -/

section Write

variable {now clock : ℕ} {changes : β → Option γ}

theorem recent_self (last : ℕ) : recent last last = true := by
  have hpos : 0 < tenDays := by decide
  exact decide_eq_true (Nat.lt_add_of_pos_right hpos)

/-- The last commit is the last one that is found, unless its audit rows are older than those of
another transaction by ten days. -/
theorem auditLastChanged_cons {rows : List AuditRow} (hclock : ∀ r ∈ rows, r.committed ≤ clock)
    (hwindow : ∀ r ∈ rows, recent r.timestamp now = true) :
    auditLastChanged (⟨now, clock⟩ :: rows) = some clock := by
  obtain ⟨last, hlast⟩ : ∃ last, ((⟨now, clock⟩ :: rows).map (·.timestamp)).max? = some last :=
    Option.isSome_iff_exists.mp (by simp)
  have hrecent : recent last now = true := by
    rcases List.mem_cons.mp (List.max?_mem hlast) with hnew | hmem
    · have hlast : last = now := hnew
      rw [hlast]
      exact recent_self now
    · obtain ⟨r, hr, rfl⟩ := List.mem_map.mp hmem
      exact hwindow r hr
  rw [auditLastChanged, hlast, Option.bind_some, List.max?_eq_some_iff]
  constructor
  · exact List.mem_map.mpr ⟨⟨now, clock⟩, List.mem_filter.mpr ⟨List.mem_cons_self, hrecent⟩, rfl⟩
  · intro c hc
    obtain ⟨r, hr, rfl⟩ := List.mem_map.mp hc
    rcases List.mem_cons.mp (List.mem_filter.mp hr).1 with rfl | hr
    · exact Nat.le_refl _
    · exact hclock r hr

/-- Every view that refers to the relation refers to a column of it. -/
def Catalog.Named (cat : Catalog β ν γ) (rel : Relation β ν) : Prop :=
  ∀ v, ∀ r ∈ cat.depends v, r.refobj = rel → cat.Tracks v rel

theorem Detects.write (h : Detects cat s v) (hnamed : ∀ b, (changes b).isSome →
      cat.Named (.table b) ∧ ∀ r ∈ s.audit b, recent r.timestamp now = true)
    (haudit : ∀ b, ∀ r ∈ s.audit b, r.committed ≤ clock)
    (hrefresh : ∀ r, s.refresh v = some r → r < clock) :
    Detects cat (s.write now clock changes) v := by
  by_cases hread : ∃ b, (changes b).isSome ∧ ∃ r ∈ cat.depends v, r.refobj = .table b
  · obtain ⟨b, hb, r, hr, heq⟩ := hread
    obtain ⟨hcolumn, hwindow⟩ := hnamed b hb
    refine detects_of_later (hcolumn v r hr heq) (c := clock) ?_ hrefresh
    show auditLastChanged (if (changes b).isSome then _ else _) = some clock
    rw [if_pos hb]
    exact auditLastChanged_cons (haudit b) hwindow
  · have hsame : ∀ r ∈ cat.depends v, ∀ b, r.refobj = .table b → changes b = none := by
      intro r hr b heq
      by_contra hne
      exact hread ⟨b, Option.isSome_iff_ne_none.mpr hne, r, hr, heq⟩
    refine h.congr ⟨rfl, rfl, fun r hr => ?_, fun r hr => ?_⟩
    · cases hrel : r.refobj with
      | table b => simp [Snapshot.write, hsame r hr b hrel]
      | view u => rfl
    · cases hrel : r.refobj with
      | table b => simp [Snapshot.write, lastChanged, hsame r hr b hrel]
      | view u => rfl

end Write

/-! ## What a transaction sees -/

section

variable [DecidableEq ν]

theorem overlay_view_of_some {o : Refreshed ν γ} (h : t.find v = some o) :
    (s.overlay t).contents (.view v) = o.contents ∧ (s.overlay t).refresh v = some o.refresh := by
  simp [Snapshot.overlay, h]

theorem overlay_view_of_none (h : t.find v = none) :
    (s.overlay t).contents (.view v) = s.contents (.view v) ∧
      (s.overlay t).refresh v = s.refresh v := by
  simp [Snapshot.overlay, h]

theorem overlay_congr (h : t.refreshed = t'.refreshed) : s.overlay t = s.overlay t' := by
  have hfind : t.find = t'.find := by
    unfold Transaction.find
    rw [h]
  unfold Snapshot.overlay
  rw [hfind]

theorem find_nil (h : t.refreshed = []) : t.find v = none := by
  rw [Transaction.find, h]
  rfl

theorem overlay_nil (h : t.refreshed = []) : s.overlay t = s := by
  have hfind : ∀ v, t.find v = none := fun v => find_nil h
  obtain ⟨contents, audit, refresh⟩ := s
  unfold Snapshot.overlay
  congr
  · funext rel
    cases rel <;> simp [hfind]
  · funext v
    simp [hfind]

theorem overlay_write {now clock : ℕ} {changes : β → Option γ} :
    (s.write now clock changes).overlay t = (s.overlay t).write now clock changes := by
  unfold Snapshot.overlay Snapshot.write
  congr

theorem find_refresh : (t.refresh cat s v lastref).find u =
    if v = u then some ⟨v, cat.query v (s.overlay t).contents, whence t.now lastref⟩
    else t.find u := by
  unfold Transaction.refresh Transaction.find
  rw [List.find?_cons]
  by_cases h : v = u <;> simp [h]

theorem overlay_refresh_self :
    (s.overlay (t.refresh cat s v lastref)).contents (.view v) =
        cat.query v (s.overlay t).contents ∧
      (s.overlay (t.refresh cat s v lastref)).refresh v = some (whence t.now lastref) := by
  simp [Snapshot.overlay, find_refresh]

theorem overlay_refresh_of_ne (h : v ≠ u) :
    (s.overlay (t.refresh cat s v lastref)).contents (.view u) = (s.overlay t).contents (.view u) ∧
      (s.overlay (t.refresh cat s v lastref)).refresh u = (s.overlay t).refresh u := by
  simp [Snapshot.overlay, find_refresh, h]

theorem overlay_refresh_rel (h : rel ≠ .view v) :
    (s.overlay (t.refresh cat s v lastref)).contents rel = (s.overlay t).contents rel ∧
      lastChanged (s.overlay (t.refresh cat s v lastref)) rel = lastChanged (s.overlay t) rel := by
  cases rel with
  | table b => exact ⟨rfl, rfl⟩
  | view u => exact overlay_refresh_of_ne fun heq => h (heq ▸ rfl)

end

/-! ## Transactions side by side -/

theorem of_others {p : Transaction ν γ → Bool} (h : w.others i p = false) (hj : j ≠ i)
    (ht : w.running j = some t) : p t = false := by
  have := List.any_eq_false.mp h j (List.mem_finRange j)
  simpa [hj, ht] using this

section

variable [DecidableEq β] [DecidableEq ν] {m : ℕ} {x : Option (Transaction ν γ)}

/-- The locks of two transactions: neither has refreshed a view that the other one has refreshed, or
has read for it. -/
def Apart (cat : Catalog β ν γ) (t t' : Transaction ν γ) : Prop :=
  ∀ u v, (t.find u).isSome → (t'.find v).isSome →
    u ≠ v ∧ cat.builtOn u v = false ∧ cat.builtOn v u = false

theorem Apart.symm (h : Apart cat t t') : Apart cat t' t :=
  fun u v hu hv => ⟨(h v u hv hu).1.symm, (h v u hv hu).2.2, (h v u hv hu).2.1⟩

theorem builtOn_iff : cat.builtOn v u = true ↔ ∃ r ∈ cat.depends v, r.refobj = .view u := by
  simp [Catalog.builtOn]

/-- What an open transaction has recorded and seen. -/
structure Transaction.Sound (cat : Catalog β ν γ) (m : ℕ) (s : Snapshot β ν γ)
    (t : Transaction ν γ) : Prop where
  now : t.now ≤ m
  refreshed : ∀ v o, t.find v = some o → o.refresh ≤ m
  pending : ∀ v r, t.pending = some (v, some r) → r ≤ m
  detects : ∀ v, Detects cat (s.overlay t) v
  ahead : ∀ v o, t.find v = some o → cat.Named (.view v) ∧
    ∀ u, cat.builtOn u v = true → t.find u = none → ∀ r, s.refresh u = some r → r < o.refresh

/-- All times are at most `m`; every view that no relation is later than is current, for everybody;
and open transactions do not meet. -/
structure Sound (cat : Catalog β ν γ) (m : ℕ) (w : World β ν γ n) : Prop where
  audit : ∀ b, ∀ r ∈ w.committed.audit b, r.committed ≤ m
  recorded : ∀ v r, w.committed.refresh v = some r → r ≤ m
  detects : ∀ v, Detects cat w.committed v
  running : ∀ i t, w.running i = some t → t.Sound cat m w.committed
  apart : ∀ i j t t', i ≠ j → w.running i = some t → w.running j = some t' → Apart cat t t'

theorem Transaction.Sound.mono {m' : ℕ} (h : t.Sound cat m s) (hle : m ≤ m') :
    t.Sound cat m' s :=
  ⟨h.now.trans hle, fun v o hv => (h.refreshed v o hv).trans hle,
    fun v r hv => (h.pending v r hv).trans hle, h.detects, h.ahead⟩

theorem Sound.mono {m' : ℕ} (h : Sound cat m w) (hle : m ≤ m') : Sound cat m' w :=
  ⟨fun b r hr => (h.audit b r hr).trans hle, fun v r hv => (h.recorded v r hv).trans hle, h.detects,
    fun i t ht => (h.running i t ht).mono hle, h.apart⟩

theorem overlay_refresh_le (hs : ∀ v r, s.refresh v = some r → r ≤ m) (ht : t.Sound cat m s) {r : ℕ}
    (h : (s.overlay t).refresh v = some r) : r ≤ m := by
  cases hfind : t.find v with
  | none => exact hs v r ((overlay_view_of_none hfind).2 ▸ h)
  | some o =>
    rw [(overlay_view_of_some hfind).2] at h
    exact Option.some.inj h ▸ ht.refreshed v o hfind

/-- One transaction goes on, begins or ends without a commit. -/
theorem Sound.set (h : Sound cat m w) (hx : ∀ t, x = some t → t.Sound cat m w.committed ∧
      ∀ j, j ≠ i → ∀ t', w.running j = some t' → Apart cat t t') :
    Sound cat m (w.set i x) := by
  have hself : (w.set i x).running i = x := by simp [World.set]
  have hother : ∀ k, k ≠ i → (w.set i x).running k = w.running k :=
    fun k hk => by simp [World.set, hk]
  refine ⟨h.audit, h.recorded, h.detects, fun k t ht => ?_, fun k k' t t' hne ht ht' => ?_⟩
  · by_cases hk : k = i
    · subst hk
      exact (hx t (hself.symm.trans ht)).1
    · rw [hother k hk] at ht
      exact h.running k t ht
  · by_cases hk : k = i
    · subst hk
      rw [hother k' hne.symm] at ht'
      exact (hx t (hself.symm.trans ht)).2 k' hne.symm t' ht'
    rw [hother k hk] at ht
    by_cases hk' : k' = i
    · subst hk'
      exact ((hx t' (hself.symm.trans ht')).2 k hk t ht).symm
    · rw [hother k' hk'] at ht'
      exact h.apart k k' t t' hne ht ht'

/-! ## The steps -/

theorem Sound.write (h : Sound cat m w) {now clock : ℕ} {changes : β → Option γ} (hm : m < clock)
    (hnamed : ∀ b, (changes b).isSome →
      cat.Named (.table b) ∧ ∀ r ∈ w.committed.audit b, recent r.timestamp now = true) :
    Sound cat clock { w with committed := w.committed.write now clock changes } := by
  have haudit : ∀ b, ∀ r ∈ w.committed.audit b, r.committed ≤ clock :=
    fun b r hr => (h.audit b r hr).trans (Nat.le_of_lt hm)
  refine ⟨fun b r hr => ?_, fun v r hv => (h.recorded v r hv).trans (Nat.le_of_lt hm), fun v => ?_,
    fun i t ht => ?_, h.apart⟩
  · change r ∈ (if (changes b).isSome then _ else _) at hr
    split at hr
    · rcases List.mem_cons.mp hr with rfl | hr
      · exact Nat.le_refl _
      · exact haudit b r hr
    · exact haudit b r hr
  · exact (h.detects v).write hnamed haudit fun r hr => Nat.lt_of_le_of_lt (h.recorded v r hr) hm
  · have hsound := h.running i t ht
    refine ⟨hsound.now.trans (Nat.le_of_lt hm),
      fun v o hv => (hsound.refreshed v o hv).trans (Nat.le_of_lt hm),
      fun v r hv => (hsound.pending v r hv).trans (Nat.le_of_lt hm), fun v => ?_, hsound.ahead⟩
    rw [overlay_write]
    exact (hsound.detects v).write hnamed haudit fun r hr =>
      Nat.lt_of_le_of_lt (overlay_refresh_le h.recorded hsound hr) hm

theorem Sound.begin (h : Sound cat m w) {now : ℕ} (hnow : now ≤ m) :
    Sound cat m (w.set i (some ⟨now, [], [], none⟩)) := by
  refine h.set fun t ht => ?_
  obtain rfl := Option.some.inj ht
  have hfind : ∀ v, (⟨now, [], [], none⟩ : Transaction ν γ).find v = none := fun v => find_nil rfl
  constructor
  · refine ⟨hnow, fun v o hv => ?_, fun v r hv => (nomatch hv), fun v => ?_, fun v o hv => ?_⟩
    · rw [hfind] at hv
      cases hv
    · rw [overlay_nil rfl]
      exact h.detects v
    · rw [hfind] at hv
      cases hv
  · intro j hj t' ht' u v hu
    rw [hfind] at hu
    cases hu

theorem Sound.check (h : Sound cat m w) (ht : w.running i = some t) (v : ν) :
    Sound cat m (w.set i (some (t.check cat w.committed v))) := by
  have hsound := h.running i t ht
  refine h.set fun t' ht' => ?_
  obtain rfl := Option.some.inj ht'
  refine ⟨⟨hsound.now, hsound.refreshed, fun u r hu => ?_, fun u => ?_, hsound.ahead⟩,
    fun j hj t' ht' => h.apart i j t t' hj.symm ht ht'⟩
  · change (if _ then some (v, _) else none) = some (u, some r) at hu
    split at hu
    · obtain ⟨rfl, hr⟩ := Prod.mk.inj (Option.some.inj hu)
      exact overlay_refresh_le h.recorded hsound hr
    · cases hu
  · have heq : w.committed.overlay (t.check cat w.committed v) = w.committed.overlay t :=
      overlay_congr rfl
    rw [heq]
    exact hsound.detects u

theorem detects_refresh (ht : ∀ u, Detects cat (s.overlay t) u) (hnamed : cat.Named (.view v))
    (hahead : ∀ u, cat.builtOn u v = true → ∀ r, (s.overlay t).refresh u = some r →
      r < whence t.now lastref) (u : ν) :
    Detects cat (s.overlay (t.refresh cat s v lastref)) u := by
  by_cases huv : v = u
  · -- the view is what its query gives, and does not read itself
    subst huv
    intro _
    show _ = cat.query v _
    rw [overlay_refresh_self.1]
    refine cat.reads v _ _ fun r hr => (overlay_refresh_rel fun heq => ?_).1.symm
    exact Nat.lt_irrefl _ (cat.acyclic v r hr v heq)
  · by_cases hbuilt : cat.builtOn u v = true
    · obtain ⟨r, hr, hrel⟩ := builtOn_iff.mp hbuilt
      refine detects_of_later (hnamed u r hr hrel) overlay_refresh_self.2 fun r hr => ?_
      rw [(overlay_refresh_of_ne huv).2] at hr
      exact hahead u hbuilt r hr
    · have hne : ∀ r ∈ cat.depends u, r.refobj ≠ .view v :=
        fun r hr heq => hbuilt (builtOn_iff.mpr ⟨r, hr, heq⟩)
      refine (ht u).congr ⟨(overlay_refresh_of_ne huv).2.symm, (overlay_refresh_of_ne huv).1.symm,
        fun r hr => (overlay_refresh_rel (hne r hr)).1.symm,
        fun r hr => (overlay_refresh_rel (hne r hr)).2.symm⟩

/-- The time that is recorded is that of the transaction, or that of the last refresh. -/
theorem whence_le {now : ℕ} (hnow : now ≤ m) (hlast : ∀ r, lastref = some r → r ≤ m) :
    whence now lastref ≤ m := by
  unfold whence
  split
  · exact hnow
  next r =>
    have := hlast r rfl
    split <;> omega

/-- No other transaction has refreshed the view, or read it, or refreshed what it reads. -/
theorem apart_of_conflict (h : cat.conflict v t' = false) (hu : (t'.find u).isSome) :
    v ≠ u ∧ cat.builtOn v u = false ∧ cat.builtOn u v = false := by
  obtain ⟨o, ho⟩ := Option.isSome_iff_exists.mp hu
  have hview := List.find?_some ho
  have := List.any_eq_false.mp h o (List.mem_of_find?_eq_some ho)
  obtain rfl := of_decide_eq_true hview
  simp only [Bool.or_eq_true, decide_eq_true_eq, not_or, Bool.not_eq_true] at this
  exact ⟨fun heq => this.1.1 heq.symm, this.2, this.1.2⟩

theorem Sound.refresh (h : Sound cat m w) (ht : w.running i = some t)
    (hpending : t.pending = some (v, lastref)) (hnamed : cat.Named (.view v))
    (hahead : ∀ u, cat.builtOn u v = true → ∀ r, (w.committed.overlay t).refresh u = some r →
      r < whence t.now lastref)
    (hlocks : w.others i (fun t' => t'.locked.contains v || cat.conflict v t') = false) :
    Sound cat m (w.set i (some (t.refresh cat w.committed v lastref))) := by
  have hsound := h.running i t ht
  have hwhence : whence t.now lastref ≤ m :=
    whence_le hsound.now fun r hr => hsound.pending v r (hr ▸ hpending)
  refine h.set fun t' ht' => ?_
  obtain rfl := Option.some.inj ht'
  constructor
  · refine ⟨hsound.now, fun u o hu => ?_, fun u r hu => (nomatch hu),
      detects_refresh hsound.detects hnamed hahead, fun u o hu => ?_⟩
    · rw [find_refresh] at hu
      split at hu
      · obtain rfl := Option.some.inj hu
        exact hwhence
      · exact hsound.refreshed u o hu
    · have hkept : ∀ u', (t.refresh cat w.committed v lastref).find u' = none →
          t.find u' = none := by
        intro u' hu'
        rw [find_refresh] at hu'
        split at hu'
        · cases hu'
        · exact hu'
      rw [find_refresh] at hu
      split at hu
      next heq =>
        obtain rfl := Option.some.inj hu
        subst heq
        refine ⟨hnamed, fun u' hbuilt hnone r hr => hahead u' hbuilt r ?_⟩
        rw [(overlay_view_of_none (hkept u' hnone)).2]
        exact hr
      next =>
        obtain ⟨hnamed', hahead'⟩ := hsound.ahead u o hu
        exact ⟨hnamed', fun u' hbuilt hnone => hahead' u' hbuilt (hkept u' hnone)⟩
  · intro j hj t' ht' u u' hu hu'
    rw [find_refresh] at hu
    split at hu
    next heq =>
      subst heq
      have hfree := of_others hlocks hj ht'
      exact apart_of_conflict (Bool.or_eq_false_iff.mp hfree).2 hu'
    next => exact h.apart i j t t' hj.symm ht ht' u u' hu hu'

/-! ## Commits of transactions that refresh -/

/-- A view has nothing to do with what a transaction has refreshed. -/
def Untouched (cat : Catalog β ν γ) (t : Transaction ν γ) (v : ν) : Prop :=
  t.find v = none ∧ ∀ u, cat.builtOn v u = true → t.find u = none

theorem agree_overlay (h : Untouched cat t v) : Agree cat v s (s.overlay t) := by
  have hrel : ∀ r ∈ cat.depends v, s.contents r.refobj = (s.overlay t).contents r.refobj ∧
      lastChanged s r.refobj = lastChanged (s.overlay t) r.refobj := by
    intro r hr
    cases hobj : r.refobj with
    | table b => exact ⟨rfl, rfl⟩
    | view u =>
      have hnone := h.2 u (builtOn_iff.mpr ⟨r, hr, hobj⟩)
      exact ⟨(overlay_view_of_none hnone).1.symm, (overlay_view_of_none hnone).2.symm⟩
  exact ⟨(overlay_view_of_none h.1).2.symm, (overlay_view_of_none h.1).1.symm,
    fun r hr => (hrel r hr).1, fun r hr => (hrel r hr).2⟩

/-- What two transactions that do not meet have refreshed may be put on in either order. -/
theorem overlay_comm (h : Apart cat t t') :
    (s.overlay t).overlay t' = (s.overlay t').overlay t := by
  have hnone : ∀ v, t.find v = none ∨ t'.find v = none := by
    intro v
    by_contra hboth
    obtain ⟨h₁, h₂⟩ := not_or.mp hboth
    exact (h v v (Option.isSome_iff_ne_none.mpr h₁) (Option.isSome_iff_ne_none.mpr h₂)).1 rfl
  unfold Snapshot.overlay
  congr 1
  · funext rel
    cases rel with
    | table b => rfl
    | view v => rcases hnone v with hv | hv <;> simp [hv]
  · funext v
    rcases hnone v with hv | hv <;> simp [hv]

theorem detects_overlay (ht : t.Sound cat m s) (ht' : t'.Sound cat m s) (h : Apart cat t t')
    (v : ν) : Detects cat ((s.overlay t).overlay t') v := by
  by_cases hleft : Untouched cat t' v
  · exact (ht.detects v).congr (agree_overlay hleft)
  by_cases hright : Untouched cat t v
  · rw [overlay_comm h]
    exact (ht'.detects v).congr (agree_overlay hright)
  -- neither has refreshed the view, and the first one has refreshed what it is built on
  have htouch : ∀ t : Transaction ν γ, ¬ Untouched cat t v →
      (t.find v).isSome ∨ ∃ u, cat.builtOn v u = true ∧ (t.find u).isSome := by
    intro t hnot
    by_contra hnone
    obtain ⟨hv, hu⟩ := not_or.mp hnone
    refine hnot ⟨by simpa using hv, fun u hbuilt => ?_⟩
    by_contra hsome
    exact hu ⟨u, hbuilt, Option.isSome_iff_ne_none.mpr hsome⟩
  have hfind : ∀ t t' : Transaction ν γ, Apart cat t t' → ¬ Untouched cat t' v →
      t.find v = none := by
    intro t t' h hnot
    by_contra hsome
    have hsome := Option.isSome_iff_ne_none.mpr hsome
    rcases htouch t' hnot with hv | ⟨u, hbuilt, hu⟩
    · exact (h v v hsome hv).1 rfl
    · rw [(h v u hsome hu).2.1] at hbuilt
      cases hbuilt
  have hv := hfind t t' h hleft
  have hv' := hfind t' t h.symm hright
  rcases htouch t hright with hsome | ⟨u, hbuilt, hsome⟩
  · rw [hv] at hsome
    cases hsome
  obtain ⟨o, ho⟩ := Option.isSome_iff_exists.mp hsome
  obtain ⟨hnamed, hahead⟩ := ht.ahead u o ho
  obtain ⟨r, hr, hrel⟩ := builtOn_iff.mp hbuilt
  have hu' : t'.find u = none := by
    by_contra hne
    exact (h u u hsome (Option.isSome_iff_ne_none.mpr hne)).1 rfl
  refine detects_of_later (hnamed v r hr hrel) (c := o.refresh) ?_ fun r hr => ?_
  · exact ((overlay_view_of_none hu').2).trans (overlay_view_of_some ho).2
  · rw [(overlay_view_of_none hv').2, (overlay_view_of_none hv).2] at hr
    exact hahead v hbuilt hv r hr

theorem Sound.commit (h : Sound cat m w) (ht : w.running i = some t) :
    Sound cat m ({ w with committed := w.committed.overlay t }.set i none) := by
  have hsound := h.running i t ht
  have hrunning : ∀ j t', ({ w with committed := w.committed.overlay t }.set i none).running j =
      some t' → j ≠ i ∧ w.running j = some t' := by
    intro j t' ht'
    by_cases hj : j = i
    · subst hj
      simp [World.set] at ht'
    · exact ⟨hj, by simpa [World.set, hj] using ht'⟩
  refine ⟨h.audit, fun v r hr => overlay_refresh_le h.recorded hsound hr, hsound.detects,
    fun j t' ht' => ?_, fun j k t₁ t₂ hne h₁ h₂ => ?_⟩
  · obtain ⟨hj, ht'⟩ := hrunning j t' ht'
    have hsound' := h.running j t' ht'
    have hapart := h.apart i j t t' hj.symm ht ht'
    refine ⟨hsound'.now, hsound'.refreshed, hsound'.pending, detects_overlay hsound hsound' hapart,
      fun v o hv => ⟨(hsound'.ahead v o hv).1, fun u hbuilt hnone r hr => ?_⟩⟩
    have hu : t.find u = none := by
      by_contra hne
      have hmeet := hapart u v (Option.isSome_iff_ne_none.mpr hne) (by simp [hv])
      rw [hmeet.2.1] at hbuilt
      cases hbuilt
    refine (hsound'.ahead v o hv).2 u hbuilt hnone r ?_
    rw [← (overlay_view_of_none hu).2]
    exact hr
  · exact h.apart j k t₁ t₂ hne (hrunning j t₁ h₁).2 (hrunning k t₂ h₂).2

/-! ## Runs -/

/-- The audit rows of a commit are not ten days older than the last ones, the time that a refresh
records is after those of all views that are built on the view, and all views name a column of what
changes. -/
def Noticed (cat : Catalog β ν γ) (w : World β ν γ n) (a : Input β ν γ n) : Prop :=
  match a.action with
  | .write age changes => ∀ b, (changes b).isSome → cat.Named (.table b) ∧
      ∀ r ∈ w.committed.audit b, recent r.timestamp ((w.tick a.wait).clock - age) = true
  | .refresh i => ∀ t v lastref, w.running i = some t → t.pending = some (v, lastref) →
      cat.Named (.view v) ∧ ∀ u, cat.builtOn u v = true →
        ∀ r, (w.committed.overlay t).refresh u = some r → r < whence t.now lastref
  | _ => True

theorem Sound.step (h : Sound cat w.clock w) {a : Input β ν γ n} (ha : Noticed cat w a) :
    Sound cat (step cat w a).clock (step cat w a) := by
  obtain ⟨wait, action⟩ := a
  have hlt : w.clock < (w.tick wait).clock := by
    show w.clock < w.clock + wait + 1
    omega
  have hbefore : Sound cat w.clock (w.tick wait) :=
    ⟨h.audit, h.recorded, h.detects, h.running, h.apart⟩
  have htick := hbefore.mono (Nat.le_of_lt hlt)
  unfold RefreshMv.step
  cases action with
  | write age changes => exact hbefore.write hlt ha
  | begin i =>
    unfold act
    dsimp only
    split
    · exact htick.begin (Nat.le_refl _)
    · exact htick
  | check i v =>
    unfold act
    dsimp only
    split
    · exact htick
    next t ht =>
      split
      · exact htick
      · exact htick.check ht v
  | refresh i =>
    unfold act
    dsimp only
    split
    next now refreshed locked v lastref ht =>
      obtain ⟨hnamed, hahead⟩ := ha _ v lastref ht rfl
      split
      · exact htick
      next hlocks =>
        exact htick.refresh ht rfl hnamed hahead (Bool.eq_false_iff.mpr hlocks)
    · exact htick
  | commit i =>
    unfold act
    dsimp only
    split
    · exact htick
    next t ht =>
      split
      · exact htick
      · exact htick.commit ht
  | rollback i =>
    exact htick.set fun t ht => nomatch ht

/-- All views are what their queries give, and nobody is at work. -/
structure Start (cat : Catalog β ν γ) (w : World β ν γ n) : Prop where
  audit : ∀ b, ∀ r ∈ w.committed.audit b, r.committed ≤ w.clock
  recorded : ∀ v r, w.committed.refresh v = some r → r ≤ w.clock
  current : ∀ v, Current cat w.committed v
  running : ∀ i, w.running i = none

theorem Start.sound (h : Start cat w) : Sound cat w.clock w := by
  refine ⟨h.audit, h.recorded, fun v _ => h.current v, fun i t ht => ?_, fun i _ t _ _ ht => ?_⟩
  · rw [h.running] at ht
    cases ht
  · rw [h.running] at ht
    cases ht

theorem run_sound (h : Start cat w) {l : List (Input β ν γ n)}
    (hl : AllSteps (step cat) (Noticed cat) w l) :
    Sound cat (run (step cat) w l).clock (run (step cat) w l) :=
  run_invariant (I := fun w => Sound cat w.clock w) (fun _ _ hw ha => hw.step ha) h.sound hl

/-- A call in which no refresh is needed. -/
def ReturnsAtOnce (cat : Catalog β ν γ) (s : Snapshot β ν γ) (v : ν) : Prop :=
  refreshNeeded (relationLastChanged cat s v) (s.refresh v) = false

/-- **No change is missed** in a run in which every change is noticed: a call that returns without a
refresh leaves a view that is what its query gives. -/
theorem unrefreshed_current (h : Start cat w) {l : List (Input β ν γ n)}
    (hl : AllSteps (step cat) (Noticed cat) w l) (ht : (run (step cat) w l).running i = some t)
    (hreturns : ReturnsAtOnce cat ((run (step cat) w l).committed.overlay t) v) :
    Current cat ((run (step cat) w l).committed.overlay t) v :=
  (((run_sound h hl).running i t ht).detects v).current hreturns

end

/-! ## A view on a view -/

inductive Level
  | inner
  | outer
  deriving DecidableEq

/-- The inner view shows a table, and the outer one the inner view. -/
def twoViews : Catalog Unit Level ℕ where
  depends
    | .inner => [⟨.table (), 1⟩]
    | .outer => [⟨.view .inner, 1⟩]
  query
    | .inner, c => c (.table ())
    | .outer, c => c (.view .inner)
  rank
    | .inner => 0
    | .outer => 1
  reads v c c' h := by cases v <;> exact h _ List.mem_cons_self
  acyclic v r hr u hu := by
    cases v <;> obtain rfl := List.mem_singleton.mp hr
    · cases hu
    · obtain rfl := Relation.view.inj hu
      exact Nat.zero_lt_one

/-- Only the inner view has been refreshed since it was created. -/
def created : World Unit Level ℕ 3 where
  clock := 1
  committed := ⟨fun _ => 0, fun _ => [], fun v => if v = .inner then some 1 else none⟩
  running := fun _ => none

theorem created_start : Start twoViews created := by
  refine ⟨fun b r hr => (nomatch hr), fun v r hv => ?_, fun v => ?_, fun i => rfl⟩
  · change (if v = .inner then some 1 else none) = some r at hv
    split at hv
    · exact Nat.le_of_eq (Option.some.inj hv).symm
    · cases hv
  · cases v <;> rfl

theorem twoViews_named (rel : Relation Unit Level) : twoViews.Named rel := by
  intro v r hr heq
  refine ⟨r, hr, heq, ?_⟩
  cases v <;> obtain rfl := List.mem_singleton.mp hr <;> exact Nat.zero_lt_one

/-- Both views are refreshed in turn after a change of the table. -/
def inTurn : List (Input Unit Level ℕ 3) :=
  [⟨0, .write 0 fun _ => some 5⟩, ⟨0, .begin 0⟩, ⟨0, .check 0 .inner⟩, ⟨0, .refresh 0⟩,
    ⟨0, .commit 0⟩, ⟨0, .begin 1⟩, ⟨0, .check 1 .outer⟩, ⟨0, .refresh 1⟩, ⟨0, .commit 1⟩,
    ⟨0, .begin 2⟩]

theorem unrefreshed_current_inTurn : ∃ t : Transaction Level ℕ,
    Current twoViews ((run (step twoViews) created inTurn).committed.overlay t) .outer := by
  have hnoticed : AllSteps (step twoViews) (Noticed twoViews) created inTurn := by
    refine ⟨fun b _ => ⟨twoViews_named _, fun r hr => (nomatch hr)⟩, trivial, trivial,
      fun t v lastref ht hv => ⟨twoViews_named _, fun u hu r hr => ?_⟩, trivial, trivial, trivial,
      fun t v lastref ht hv => ⟨twoViews_named _, fun u hu r hr => ?_⟩, trivial, trivial, trivial⟩
    · -- the outer view has no time yet
      obtain rfl := Option.some.inj ht
      obtain ⟨rfl, -⟩ := Prod.mk.inj (Option.some.inj hv)
      cases u
      · cases hu
      · cases hr
    · -- no view is built on the outer one
      obtain rfl := Option.some.inj ht
      obtain ⟨rfl, -⟩ := Prod.mk.inj (Option.some.inj hv)
      cases u <;> cases hu
  exact ⟨_, unrefreshed_current created_start hnoticed (i := 2) rfl rfl⟩

/-- Transaction 0 begins before transaction 1, which refreshes the outer view, and refreshes the inner
view after that. -/
def startedEarlier : List (Input Unit Level ℕ 3) :=
  [⟨0, .write 0 fun _ => some 5⟩, ⟨0, .begin 0⟩, ⟨0, .begin 1⟩, ⟨0, .check 1 .outer⟩,
    ⟨0, .refresh 1⟩, ⟨0, .commit 1⟩, ⟨0, .check 0 .inner⟩, ⟨0, .refresh 0⟩, ⟨0, .commit 0⟩,
    ⟨0, .begin 2⟩]

/-- The outer view is not refreshed again, and does not show what the inner view shows. -/
theorem startedEarlier_missed : Start twoViews created ∧ ∃ t : Transaction Level ℕ,
    (run (step twoViews) created startedEarlier).running 2 = some t ∧
    ReturnsAtOnce twoViews ((run (step twoViews) created startedEarlier).committed.overlay t)
      .outer ∧
    ¬ Current twoViews ((run (step twoViews) created startedEarlier).committed.overlay t)
      .outer := by
  refine ⟨created_start, _, rfl, rfl, fun h => ?_⟩
  cases h

end JazzHands.RefreshMv

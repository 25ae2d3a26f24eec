import JazzHands.Library.Fallible
import Mathlib.Data.List.Induction
import Mathlib.Data.List.Nodup

/-!
# One list brought into line with another, label by label

Every element has a label.  The elements of `source` are replaced by those of `target`, one label
after the other, and `halfway` is the list when some labels are done.

* `foldlM_reaches`, `foldlM_eq_ok`: what a loop that can fail has reached after each prefix of its
  list, and when it does not fail.
* `perm_halfway_concat`: one more label is done when its elements are those of `target` and the
  others are left alone.  The ways to do so are `append`, `map`, `filter` and `keep`.
* `halfway_eq_target`: all labels are done.
-/

namespace JazzHands.Library

variable {ε σ ρ τ : Type*}

section Loops

variable {f : σ → τ → Except ε σ} {P : List τ → σ → Prop} {Q : List τ → Prop} {ks : List τ} {s : σ}

/-- What every step keeps holds after a loop that has come to its end. -/
theorem foldlM_preserves {I : σ → Prop} {s' : σ}
    (hstep : ∀ k ∈ ks, ∀ s s', I s → f s k = .ok s' → I s') (h : I s)
    (hs : ks.foldlM f s = .ok s') : I s' := by
  induction ks generalizing s with
  | nil =>
    obtain rfl : s = s' := Except.ok.inj hs
    exact h
  | cons k ks ih =>
    rw [List.foldlM_cons] at hs
    cases hk : f s k with
    | error e =>
      rw [hk] at hs
      exact nomatch hs
    | ok s₁ =>
      rw [hk] at hs
      exact ih (fun j hj => hstep j (List.mem_cons_of_mem k hj))
        (hstep k List.mem_cons_self s s₁ h hk) hs

theorem foldlM_concat {k : τ} : (ks ++ [k]).foldlM f s = ks.foldlM f s >>= (f · k) := by
  simp only [List.foldlM_append, List.foldlM_cons, List.foldlM_nil, bind_pure]

section

variable (hkeep : ∀ done k s s', done ++ [k] <+: ks → P done s → f s k = .ok s' → P (done ++ [k]) s')
  (h : P [] s)

include hkeep h

/-- A loop that has come to its end went through all the prefixes of its list. -/
theorem foldlM_reaches {s' : σ} (hQ : ∀ done s, P done s → Q done) (hs : ks.foldlM f s = .ok s') :
    P ks s' ∧ ∀ done, done <+: ks → Q done := by
  induction ks using List.reverseRecOn generalizing s' with
  | nil =>
    obtain rfl : s = s' := Except.ok.inj hs
    refine ⟨h, fun done hdone => ?_⟩
    rw [List.prefix_nil.mp hdone]
    exact hQ [] s h
  | append_singleton ks k ih =>
    rw [foldlM_concat, bind_ok_iff] at hs
    obtain ⟨s₁, hks, hk⟩ := hs
    obtain ⟨h₁, hroom⟩ := ih (fun done j s s' hj =>
      hkeep done j s s' (hj.trans (List.prefix_append ks [k]))) hks
    have h' : P (ks ++ [k]) s' := hkeep ks k s₁ s' (List.prefix_refl _) h₁ hk
    refine ⟨h', fun done hdone => ?_⟩
    rcases List.prefix_concat_iff.mp hdone with rfl | hdone
    · exact hQ _ s' h'
    · exact hroom done hdone

/-- A loop comes to its end if every prefix of its list has room. -/
theorem foldlM_eq_ok
    (hstep : ∀ done k s, done ++ [k] <+: ks → P done s → Q (done ++ [k]) → ∃ s', f s k = .ok s')
    (hroom : ∀ done, done <+: ks → Q done) : ∃ s', ks.foldlM f s = .ok s' ∧ P ks s' := by
  induction ks using List.reverseRecOn with
  | nil => exact ⟨s, rfl, h⟩
  | append_singleton ks k ih =>
    have hle {l : List τ} (hl : l <+: ks) : l <+: ks ++ [k] := hl.trans (List.prefix_append ks [k])
    obtain ⟨s₁, hs₁, h₁⟩ := ih (fun done j s s' hj => hkeep done j s s' (hle hj))
      (fun done j s hj => hstep done j s (hle hj)) fun done hdone => hroom done (hle hdone)
    obtain ⟨s', hs'⟩ := hstep ks k s₁ (List.prefix_refl _) h₁ (hroom _ (List.prefix_refl _))
    refine ⟨s', ?_, hkeep ks k s₁ s' (List.prefix_refl _) h₁ hs'⟩
    rw [foldlM_concat, bind_ok_iff]
    exact ⟨s₁, hs₁, hs'⟩

end

end Loops

theorem notMem_of_concat {ks done : List τ} {k : τ} (hks : ks.Nodup) (h : done ++ [k] <+: ks) :
    k ∉ done := by
  have hnodup := hks.sublist h.sublist
  rw [← List.concat_eq_append, List.nodup_concat] at hnodup
  exact hnodup.1

variable [DecidableEq τ] {label : ρ → τ} {source target rows rows' : List ρ} {done done' : List τ}
  {k : τ} {d u : ρ}

/-- The elements with a label in `done` are those of `target`, the others those of `source`. -/
def halfway (label : ρ → τ) (source target : List ρ) (done : List τ) : List ρ :=
  source.filter (fun r => label r ∉ done) ++ target.filter fun r => label r ∈ done

theorem halfway_nil : halfway label source target [] = source := by
  simp [halfway]

theorem halfway_congr (h : ∀ k, k ∈ done ↔ k ∈ done') :
    halfway label source target done = halfway label source target done' := by
  simp only [halfway, h]

/-- **All labels are done.** -/
theorem halfway_eq_target (hsource : ∀ r ∈ source, label r ∈ done)
    (htarget : ∀ r ∈ target, label r ∈ done) : halfway label source target done = target := by
  rw [halfway, List.filter_eq_nil_iff.mpr fun r hr => by simpa using hsource r hr,
    List.filter_eq_self.mpr fun r hr => by simpa using htarget r hr, List.nil_append]

/-- What is done after all of `target` only removes elements. -/
theorem halfway_append_sublist (htarget : ∀ r ∈ target, label r ∈ done) :
    (halfway label source target (done ++ done')).Sublist (halfway label source target done) := by
  have hsource : ∀ r, decide (label r ∉ done ++ done') = true → decide (label r ∉ done) = true := by
    simp +contextual
  have heq : (target.filter fun r => label r ∈ done ++ done') = target.filter (label · ∈ done) :=
    List.filter_congr fun r hr => by simp [htarget r hr]
  rw [halfway, heq]
  exact (List.monotone_filter_right source hsource).append_right _

theorem mem_of_mem_halfway {r : ρ} (h : r ∈ halfway label source target done) :
    r ∈ target ++ source := by
  rcases List.mem_append.mp h with h | h
  · exact List.mem_append_right _ (List.mem_filter.mp h).1
  · exact List.mem_append_left _ (List.mem_filter.mp h).1

theorem filter_halfway_of_mem (hk : k ∈ done) :
    ((halfway label source target done).filter fun r => label r = k) =
      target.filter fun r => label r = k := by
  have hsource : ((source.filter fun r => label r ∉ done).filter fun r => label r = k) = [] :=
    List.filter_eq_nil_iff.mpr fun r hr heq =>
      of_decide_eq_true (List.mem_filter.mp hr).2 (of_decide_eq_true heq ▸ hk)
  rw [halfway, List.filter_append, hsource, List.nil_append, List.filter_filter]
  refine List.filter_congr fun r _ => ?_
  by_cases hr : label r = k
  · simp [hr, hk]
  · simp [hr]

theorem filter_halfway_of_notMem (hk : k ∉ done) :
    ((halfway label source target done).filter fun r => label r = k) =
      source.filter fun r => label r = k := by
  have htarget : ((target.filter fun r => label r ∈ done).filter fun r => label r = k) = [] :=
    List.filter_eq_nil_iff.mpr fun r hr heq =>
      hk (of_decide_eq_true heq ▸ of_decide_eq_true (List.mem_filter.mp hr).2)
  rw [halfway, List.filter_append, htarget, List.append_nil, List.filter_filter]
  refine List.filter_congr fun r _ => ?_
  by_cases hr : label r = k
  · simp [hr, hk]
  · simp [hr]

theorem filter_halfway_concat :
    ((halfway label source target (done ++ [k])).filter fun r => label r ≠ k) =
      (halfway label source target done).filter fun r => label r ≠ k := by
  simp only [halfway, List.filter_append, List.filter_filter]
  congr 1
  all_goals
    refine List.filter_congr fun r _ => ?_
    by_cases hr : label r = k
    · simp [hr]
    · simp [hr]

section

variable (h : rows.Perm (halfway label source target done)) (hk : k ∉ done)
include h hk

/-- A label that is not done has the elements of `source`. -/
theorem perm_filter_source :
    (rows.filter fun r => label r = k).Perm (source.filter fun r => label r = k) :=
  (h.filter _).trans (.of_eq (filter_halfway_of_notMem hk))

omit hk in
/-- A label is done when its elements are those of `target`, and the others are left alone. -/
theorem perm_halfway_concat
    (hother : (rows'.filter fun r => label r ≠ k) = rows.filter fun r => label r ≠ k)
    (hsame : (rows'.filter fun r => label r = k).Perm (target.filter fun r => label r = k)) :
    rows'.Perm (halfway label source target (done ++ [k])) := by
  have hsplit (l : List ρ) :
      ((l.filter fun r => label r = k) ++ l.filter fun r => label r ≠ k).Perm l := by
    simpa using List.filter_append_perm (fun r => decide (label r = k)) l
  refine (hsplit rows').symm.trans (.trans ?_ (hsplit _))
  refine .append ?_ ?_
  · rwa [filter_halfway_of_mem (by simp)]
  · rw [hother, filter_halfway_concat]
    exact h.filter _

/-- The label has no element in `source` and one in `target`. -/
theorem perm_halfway_append (hsource : (source.filter fun r => label r = k) = [])
    (htarget : (target.filter fun r => label r = k) = [u]) :
    (rows ++ [u]).Perm (halfway label source target (done ++ [k])) := by
  have huk : label u = k := by
    have hmem : u ∈ target.filter fun r => label r = k := htarget ▸ List.mem_singleton_self u
    simpa using (List.mem_filter.mp hmem).2
  have hnone := (perm_filter_source h hk).trans (.of_eq hsource)
  refine perm_halfway_concat h ?_ ?_
  · simp [List.filter_append, huk]
  · rw [List.filter_append, hnone.eq_nil, htarget]
    simp [huk]

/-- The one element with the label is exchanged for another. -/
theorem perm_halfway_map {g : ρ → ρ} (hsource : (source.filter fun r => label r = k) = [d])
    (htarget : (target.filter fun r => label r = k) = [u]) (hgd : g d = u)
    (hg : ∀ r ∈ rows, label r ≠ k → g r = r) :
    (rows.map g).Perm (halfway label source target (done ++ [k])) := by
  have huk : label u = k := by
    have hmem : u ∈ target.filter fun r => label r = k := htarget ▸ List.mem_singleton_self u
    simpa using (List.mem_filter.mp hmem).2
  have honly : (rows.filter fun r => label r = k) = [d] :=
    List.perm_singleton.mp ((perm_filter_source h hk).trans (.of_eq hsource))
  have hlabel : ∀ r ∈ rows, (label (g r) = k ↔ label r = k) := fun r hr => by
    by_cases hrk : label r = k
    · have hrd : r ∈ rows.filter fun r => label r = k := List.mem_filter.mpr ⟨hr, by simpa using hrk⟩
      rw [honly, List.mem_singleton] at hrd
      rw [hrd, hgd, ← hrd]
      exact iff_of_true huk hrk
    · rw [hg r hr hrk]
  refine perm_halfway_concat h ?_ (.of_eq ?_)
  · rw [List.filter_map, List.filter_congr fun r hr => (by simp [hlabel r hr] :
      ((fun r => decide (label r ≠ k)) ∘ g) r = decide (label r ≠ k))]
    refine (List.map_congr_left fun r hr => ?_).trans (List.map_id _)
    obtain ⟨hr, hrk⟩ := List.mem_filter.mp hr
    exact hg r hr (of_decide_eq_true hrk)
  · rw [List.filter_map, List.filter_congr fun r hr => (by simp [hlabel r hr] :
      ((fun r => decide (label r = k)) ∘ g) r = decide (label r = k)), honly, htarget, ← hgd]
    rfl

omit hk in
theorem perm_halfway_filter {p : ρ → Bool} (htarget : (target.filter fun r => label r = k) = [])
    (hp : ∀ r ∈ rows, p r = decide (label r ≠ k)) :
    (rows.filter p).Perm (halfway label source target (done ++ [k])) := by
  rw [List.filter_congr hp]
  refine perm_halfway_concat h ?_ ?_
  · simp [List.filter_filter]
  · rw [htarget, List.filter_filter]
    simp

theorem perm_halfway_keep (hsame : (source.filter fun r => label r = k) =
    target.filter fun r => label r = k) :
    rows.Perm (halfway label source target (done ++ [k])) :=
  perm_halfway_concat h rfl ((perm_filter_source h hk).trans (.of_eq hsame))

end

end JazzHands.Library

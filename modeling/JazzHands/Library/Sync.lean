import Mathlib.Data.List.Nodup

/-!
# Bringing part of a list into line

Of a list, some elements are somebody's own.  They are to be exactly those of another list: what is
missing is added, and what should not be there is dropped.

* `mem_sync`, `nodup_sync`: what is in it.
* `sync_sync`, `sync_append`: nothing is left to do, also after an element that should not be there.
-/

namespace JazzHands.Library

variable {α : Type*} [DecidableEq α]

/-- What should be there and is not. -/
def missing (should t : List α) : List α := should.filter (· ∉ t)

def sync (own : α → Bool) (should t : List α) : List α :=
  t.filter (fun x => !own x || decide (x ∈ should)) ++ missing should t

variable {own : α → Bool} {should t : List α} {x : α}

@[simp] theorem mem_missing : x ∈ missing should t ↔ x ∈ should ∧ x ∉ t := by
  simp [missing]

theorem mem_sync : x ∈ sync own should t ↔ x ∈ should ∨ (x ∈ t ∧ own x = false) := by
  simp only [sync, List.mem_append, List.mem_filter, mem_missing, Bool.or_eq_true,
    Bool.not_eq_true', decide_eq_true_eq]
  tauto

theorem nodup_sync (ht : t.Nodup) (hmissing : (missing should t).Nodup) :
    (sync own should t).Nodup := by
  refine List.nodup_append.mpr ⟨ht.filter _, hmissing, fun a ha b hb => ?_⟩
  rintro rfl
  exact (mem_missing.mp hb).2 (List.mem_filter.mp ha).1

theorem missing_eq_nil (h : ∀ x ∈ should, x ∈ t) : missing should t = [] :=
  List.filter_eq_nil_iff.mpr fun x hx => by simpa using h x hx

theorem sync_eq_self (hshould : ∀ x ∈ should, x ∈ t) (hown : ∀ x ∈ t, own x = true → x ∈ should) :
    sync own should t = t := by
  rw [sync, missing_eq_nil hshould, List.append_nil, List.filter_eq_self]
  intro x hx
  cases hx' : own x with
  | false => rfl
  | true => simpa using hown x hx hx'

theorem sync_sync : sync own should (sync own should t) = sync own should t := by
  refine sync_eq_self (fun x hx => mem_sync.mpr (.inl hx)) fun x hx hown => ?_
  refine (mem_sync.mp hx).resolve_right fun h => ?_
  rw [hown] at h
  exact Bool.noConfusion h.2

theorem sync_append (hown : own x = true) (hx : x ∉ should) :
    sync own should (sync own should t ++ [x]) = sync own should t := by
  have hthere : ∀ y ∈ should, y ∈ sync own should t := fun y hy => mem_sync.mpr (.inl hy)
  have hkept : sync own should (sync own should t) = sync own should t := sync_sync
  rw [sync, missing_eq_nil hthere, List.append_nil] at hkept
  rw [sync, missing_eq_nil fun y hy => List.mem_append_left _ (hthere y hy), List.append_nil,
    List.filter_append, hkept]
  simp [hown, hx]

end JazzHands.Library

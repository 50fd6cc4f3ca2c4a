import Mathlib.Data.Finset.Basic

/-!
Queues of edits to a set, each edit deciding the membership of the elements it
mentions.  A receiver may start from a later set than the one the queued edits
were written against.
-/

namespace Rtt.EditQueue

variable {α β : Type*}

/-- Whether an element stays in the set depends on that element alone. -/
def Pointwise (apply : Finset α → β → Finset α) : Prop :=
  ∀ (s t : Finset α) (edit : β) (x : α), (x ∈ s ↔ x ∈ t) → (x ∈ apply s edit ↔ x ∈ apply t edit)

/-- Whatever part of the queue is left, it leads back to the target. -/
def Settles (apply : Finset α → β → Finset α) (queue : List β) (target : Finset α) : Prop :=
  ∀ rest, rest <:+ queue → rest.foldl apply target = target

/-- The edits lead from `source` to `target`, also where the receiver already
differs from `source` on the elements that change. -/
structure Carries (apply : Finset α → β → Finset α) (edits : List β)
    (source target : Finset α) : Prop where
  settles : Settles apply edits target
  reaches : ∀ (s : Finset α) (x : α), ((x ∈ source ↔ x ∈ target) → (x ∈ s ↔ x ∈ source)) →
    (x ∈ edits.foldl apply s ↔ x ∈ target)

variable {apply : Finset α → β → Finset α} {queue edits : List β} {source target : Finset α}

theorem Pointwise.foldl (hlocal : Pointwise apply) {s t : Finset α} {x : α}
    (h : x ∈ s ↔ x ∈ t) (edits : List β) :
    x ∈ edits.foldl apply s ↔ x ∈ edits.foldl apply t := by
  induction edits generalizing s t with
  | nil => exact h
  | cons edit edits ih => exact ih (hlocal s t edit x h)

theorem settles_nil : Settles apply [] target := by
  intro rest hrest
  rw [List.suffix_nil.mp hrest, List.foldl_nil]

theorem Settles.suffix (h : Settles apply queue target) {rest : List β} (hrest : rest <:+ queue) :
    Settles apply rest target :=
  fun _ hsuffix => h _ (hsuffix.trans hrest)

theorem Settles.foldl_eq (h : Settles apply queue target) : queue.foldl apply target = target :=
  h queue (List.suffix_refl queue)

theorem settles_of_fixed (h : ∀ edit ∈ edits, apply target edit = target) :
    Settles apply edits target := by
  rintro rest ⟨before, rfl⟩
  induction rest with
  | nil => rfl
  | cons edit rest ih =>
      rw [List.foldl_cons, h edit (by simp)]
      refine ih fun other hother => h other ?_
      simp only [List.mem_append, List.mem_cons] at hother ⊢
      tauto

theorem Carries.foldl_eq (h : Carries apply edits source target) :
    edits.foldl apply source = target := by
  ext x
  exact h.reaches source x fun _ => Iff.rfl

/-- New edits may be queued behind old ones that were never delivered. -/
theorem Settles.append (hlocal : Pointwise apply) (hqueue : Settles apply queue source)
    (hedits : Carries apply edits source target) : Settles apply (queue ++ edits) target := by
  rintro rest ⟨before, hsplit⟩
  rcases List.append_eq_append_iff.mp hsplit with ⟨left, hleft, rfl⟩ | ⟨gone, -, hgone⟩
  · ext x
    rw [List.foldl_append]
    refine hedits.reaches _ x fun hsame => ?_
    have hback := hlocal.foldl hsame.symm left
    rw [hqueue left ⟨before, hleft.symm⟩] at hback
    exact hback
  · exact hedits.settles rest ⟨gone, hgone.symm⟩

end Rtt.EditQueue

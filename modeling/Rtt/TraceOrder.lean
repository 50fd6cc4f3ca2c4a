import Mathlib.Data.List.Basic

namespace Rtt.TraceOrder

variable {ε : Type*}

/-- Every event of kind `p` has one of kind `q` after it. -/
def Followed (p q : ε → Prop) (trace : List ε) : Prop :=
  ∀ pre x post, trace = pre ++ x :: post → p x → ∃ e ∈ post, q e

/-- Every event of kind `p` has one of kind `q` before it. -/
def Preceded (p q : ε → Prop) (trace : List ε) : Prop :=
  ∀ pre x post, trace = pre ++ x :: post → p x → ∃ e ∈ pre, q e

/-- Two events of kind `p` with one of kind `b` between them have one of kind `q`
between them as well. -/
def Separated (p b q : ε → Prop) (trace : List ε) : Prop :=
  ∀ pre x mid y post, trace = pre ++ x :: (mid ++ y :: post) → p x → p y →
    (∃ e ∈ mid, b e) → ∃ e ∈ mid, q e

variable {p b q : ε → Prop} {xs ys : List ε}

theorem append_split {pre post : List ε} {x : ε} (h : xs ++ ys = pre ++ x :: post) :
    (∃ rest, xs = pre ++ x :: rest ∧ post = rest ++ ys) ∨
      ∃ rest, pre = xs ++ rest ∧ ys = rest ++ x :: post := by
  rcases List.append_eq_append_iff.mp h with ⟨rest, rfl, hys⟩ | ⟨rest, rfl, hrest⟩
  · exact .inr ⟨rest, rfl, hys⟩
  · rcases rest with _ | ⟨first, rest⟩
    · exact .inr ⟨[], by simp, by simpa using hrest.symm⟩
    · obtain ⟨rfl, rfl⟩ := List.cons.inj hrest
      exact .inl ⟨rest, rfl, rfl⟩

theorem mem_of_split {pre post : List ε} {x : ε} (h : xs = pre ++ x :: post) : x ∈ xs := by
  simp [h]

theorem followed_of_none (hnone : ∀ e ∈ xs, ¬ p e) : Followed p q xs :=
  fun _ _ _ hsplit hx => absurd hx (hnone _ (mem_of_split hsplit))

theorem preceded_of_none (hnone : ∀ e ∈ xs, ¬ p e) : Preceded p q xs :=
  fun _ _ _ hsplit hx => absurd hx (hnone _ (mem_of_split hsplit))

theorem followed_append (hnone : ∀ e ∈ ys, ¬ p e) (hq : ∃ e ∈ ys, q e) :
    Followed p q (xs ++ ys) := by
  intro pre x post hsplit hx
  rcases append_split hsplit with ⟨rest, -, rfl⟩ | ⟨rest, -, hys⟩
  · obtain ⟨e, he, hqe⟩ := hq
    exact ⟨e, List.mem_append_right rest he, hqe⟩
  · exact absurd hx (hnone x (mem_of_split hys))

theorem preceded_append (hnone : ∀ e ∈ xs, ¬ p e) (hq : ∃ e ∈ xs, q e) :
    Preceded p q (xs ++ ys) := by
  intro pre x post hsplit hx
  rcases append_split hsplit with ⟨rest, hxs, -⟩ | ⟨rest, rfl, -⟩
  · exact absurd hx (hnone x (mem_of_split hxs))
  · obtain ⟨e, he, hqe⟩ := hq
    exact ⟨e, List.mem_append_left rest he, hqe⟩

theorem followed_concat_iff {x : ε} :
    Followed p q (xs ++ [x]) ↔ ¬ p x ∧ (q x ∨ Followed p q xs) := by
  constructor
  · intro h
    constructor
    · intro hx
      obtain ⟨e, he, -⟩ := h xs x [] rfl hx
      exact absurd he (by simp)
    · by_contra hnone
      obtain ⟨hq, hxs⟩ := not_or.mp hnone
      refine hxs ?_
      rintro pre y post rfl hy
      obtain ⟨e, he, hqe⟩ := h pre y (post ++ [x]) (by simp) hy
      rcases List.mem_append.mp he with hpost | hlast
      · exact ⟨e, hpost, hqe⟩
      · exact absurd (List.mem_singleton.mp hlast ▸ hqe) hq
  · rintro ⟨hx, hq | hxs⟩ pre y post hsplit hy
    · rcases append_split hsplit with ⟨rest, -, rfl⟩ | ⟨rest, -, hlast⟩
      · exact ⟨x, by simp, hq⟩
      · exact absurd (List.mem_singleton.mp (mem_of_split hlast) ▸ hy) hx
    · rcases append_split hsplit with ⟨rest, hfirst, rfl⟩ | ⟨rest, -, hlast⟩
      · obtain ⟨e, he, hqe⟩ := hxs pre y rest hfirst hy
        exact ⟨e, List.mem_append_left _ he, hqe⟩
      · exact absurd (List.mem_singleton.mp (mem_of_split hlast) ▸ hy) hx

theorem separated_nil : Separated p b q [] :=
  fun _ _ _ _ _ hsplit => absurd hsplit (by simp)

theorem separated_cons (x : ε) (hnone : ∀ e ∈ xs, ¬ b e) : Separated p b q (x :: xs) := by
  rintro pre y mid z post hsplit - - ⟨e, he, hb⟩
  refine absurd hb (hnone e ?_)
  rcases pre with _ | ⟨first, pre⟩
  · obtain ⟨rfl, rfl⟩ := List.cons.inj hsplit
    simp [he]
  · obtain ⟨rfl, rfl⟩ := List.cons.inj hsplit
    simp [he]

theorem separated_append (hxs : Separated p b q xs) (hys : Separated p b q ys)
    (hseam : Followed p q xs ∨ Preceded p q ys) : Separated p b q (xs ++ ys) := by
  intro pre x mid y post hsplit hx hy hb
  rcases append_split hsplit with ⟨rest, hfirst, hrest⟩ | ⟨rest, -, hsecond⟩
  · rcases append_split hrest.symm with ⟨between, rfl, -⟩ | ⟨between, rfl, hsecond⟩
    · exact hxs pre x mid y between hfirst hx hy hb
    · rcases hseam with hfollowed | hpreceded
      · obtain ⟨e, he, hq⟩ := hfollowed pre x rest hfirst hx
        exact ⟨e, List.mem_append_left between he, hq⟩
      · obtain ⟨e, he, hq⟩ := hpreceded between y post hsecond hy
        exact ⟨e, List.mem_append_right rest he, hq⟩
  · exact hys rest x mid y post hsecond hx hy hb

end Rtt.TraceOrder

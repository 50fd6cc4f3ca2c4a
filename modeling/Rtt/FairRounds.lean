import Rtt.Machine

/-!
Machines that get somewhere under every fair schedule: a weight that each input lowers or
leaves as it is, and rounds of inputs of which one at least has something to do.
-/

namespace Rtt.FairRounds

open Rtt.Machine

variable {σ ι ο : Type*} {step : σ → ι → σ × ο} {Keeps : σ → Prop} {Works : ι → Prop}
  {Idles : σ → σ → Prop} {Finished : σ → Prop} {weight : σ → Nat}

/-- The inputs that are work keep the invariant, undo no finish, and idle, lower the weight
or finish.  A machine idles when it does nothing, or only what it does while it waits. -/
structure Lowers (step : σ → ι → σ × ο) (Keeps : σ → Prop) (Works : ι → Prop)
    (Idles : σ → σ → Prop) (Finished : σ → Prop) (weight : σ → Nat) : Prop where
  refl : ∀ s, Idles s s
  trans : ∀ r s t, Idles r s → Idles s t → Idles r t
  weight_le : ∀ s t, Idles s t → weight t ≤ weight s
  keeps : ∀ s i, Keeps s → Works i → Keeps (step s i).1
  stays : ∀ s i, Keeps s → Works i → Finished s → Finished (step s i).1
  lowers : ∀ s i, Keeps s → Works i → ¬ Finished s →
    Idles s (step s i).1 ∨ weight (step s i).1 < weight s ∨ Finished (step s i).1

/-- The input has something to do in the state, however the machine idles before. -/
def Moves (step : σ → ι → σ × ο) (Keeps : σ → Prop) (Idles : σ → σ → Prop) (s : σ) (i : ι) :
    Prop :=
  ∀ t, Idles s t → Keeps t → ¬ Idles t (step t i).1

namespace Lowers

variable (h : Lowers step Keeps Works Idles Finished weight) {s : σ} {inputs : List ι}

include h

theorem keeps_exec (hs : Keeps s) (hwork : ∀ i ∈ inputs, Works i) :
    Keeps (exec step s inputs) :=
  exec_invariant (fun s i hs hi => h.keeps s i hs hi) hs (along_forall_iff.mpr hwork)

theorem finished_exec (hs : Keeps s) (hwork : ∀ i ∈ inputs, Works i) (hfinished : Finished s) :
    Finished (exec step s inputs) := by
  induction inputs generalizing s with
  | nil => exact hfinished
  | cons i inputs ih =>
      obtain ⟨hi, hrest⟩ := List.forall_mem_cons.mp hwork
      exact ih (h.keeps s i hs hi) hrest (h.stays s i hs hi hfinished)

theorem exec_cases (hs : Keeps s) (hwork : ∀ i ∈ inputs, Works i) :
    (Idles s (exec step s inputs) ∧ ∀ i ∈ inputs, ¬ Moves step Keeps Idles s i) ∨
      weight (exec step s inputs) < weight s ∨ Finished (exec step s inputs) := by
  induction inputs generalizing s with
  | nil => exact Or.inl ⟨h.refl s, by simp⟩
  | cons i inputs ih =>
      obtain ⟨hi, hrest⟩ := List.forall_mem_cons.mp hwork
      have hnext := h.keeps s i hs hi
      by_cases hfinished : Finished s
      · exact Or.inr (Or.inr (h.finished_exec hs hwork hfinished))
      obtain hidle | hless | hdone := h.lowers s i hs hi hfinished
      · obtain ⟨hexec, hall⟩ | hless | hdone := ih hnext hrest
        · refine Or.inl ⟨h.trans _ _ _ hidle hexec, List.forall_mem_cons.mpr ⟨?_, ?_⟩⟩
          · exact fun hmoves => hmoves s (h.refl s) hs hidle
          · intro j hj hmoves
            exact hall j hj fun t ht => hmoves t (h.trans _ _ _ hidle ht)
        · exact Or.inr (Or.inl (Nat.lt_of_lt_of_le hless (h.weight_le _ _ hidle)))
        · exact Or.inr (Or.inr hdone)
      · obtain ⟨hexec, -⟩ | hless' | hdone := ih hnext hrest
        · exact Or.inr (Or.inl (Nat.lt_of_le_of_lt (h.weight_le _ _ hexec) hless))
        · exact Or.inr (Or.inl (Nat.lt_trans hless' hless))
        · exact Or.inr (Or.inr hdone)
      · have hend := h.finished_exec hnext hrest hdone
        exact Or.inr (Or.inr hend)

/-- Where some input of each round has something to do, enough rounds finish. -/
theorem finished_of_rounds {IsRound : List ι → Prop}
    (hround : ∀ s, Keeps s → ¬ Finished s → ∀ round, IsRound round →
      ∃ i ∈ round, Moves step Keeps Idles s i)
    {rounds : List (List ι)} (hrounds : ∀ round ∈ rounds, IsRound round ∧ ∀ i ∈ round, Works i)
    (hs : Keeps s) (hmany : weight s < rounds.length) :
    Finished (exec step s rounds.flatten) := by
  induction rounds generalizing s with
  | nil => exact absurd hmany (Nat.not_lt_zero _)
  | cons round rounds ih =>
      obtain ⟨⟨his, hwork⟩, hrest⟩ := List.forall_mem_cons.mp hrounds
      have hnext := h.keeps_exec hs hwork
      have hworks : ∀ i ∈ rounds.flatten, Works i := by
        intro i hi
        obtain ⟨other, hother, hmem⟩ := List.mem_flatten.mp hi
        exact (hrest other hother).2 i hmem
      rw [List.flatten_cons, exec_append]
      by_cases hfinished : Finished s
      · exact h.finished_exec hnext hworks (h.finished_exec hs hwork hfinished)
      obtain ⟨-, hall⟩ | hless | hdone := h.exec_cases hs hwork
      · obtain ⟨i, hi, hmoves⟩ := hround s hs hfinished round his
        exact absurd hmoves (hall i hi)
      · apply ih hrest hnext
        rw [List.length_cons] at hmany
        omega
      · exact h.finished_exec hnext hworks hdone

end Lowers

end Rtt.FairRounds

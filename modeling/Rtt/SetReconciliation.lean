import Mathlib.Data.Set.Lattice
import Mathlib.Tactic.Tauto

/-!
Reconciling what is live with what is wanted, as sets of identifiers.  An
identifier that is live and wanted may still be stale: it is then withdrawn and
issued again.
-/

namespace Rtt.SetReconciliation

variable {ι : Type*}

/-- What is live, what is wanted and which of them are stale. -/
structure Situation (ι : Type*) where
  live : Set ι
  wanted : Set ι
  stale : Set ι

namespace Situation

/-- What is withdrawn: live and not wanted, or stale. -/
def withdrawn (s : Situation ι) : Set ι := fun i => i ∈ s.live ∧ (i ∉ s.wanted ∨ i ∈ s.stale)

/-- What is issued: wanted and not live, or stale. -/
def issued (s : Situation ι) : Set ι := fun i => i ∈ s.wanted ∧ (i ∉ s.live ∨ i ∈ s.stale)

/-- Nothing is left to withdraw or to issue. -/
def Converged (s : Situation ι) : Prop := ∀ i, i ∉ s.withdrawn ∧ i ∉ s.issued

theorem mem_withdrawn {s : Situation ι} {i : ι} :
    i ∈ s.withdrawn ↔ i ∈ s.live ∧ (i ∉ s.wanted ∨ i ∈ s.stale) :=
  Iff.rfl

theorem mem_issued {s : Situation ι} {i : ι} :
    i ∈ s.issued ↔ i ∈ s.wanted ∧ (i ∉ s.live ∨ i ∈ s.stale) :=
  Iff.rfl

theorem kept_of_not_issued {s : Situation ι} {i : ι} (hwanted : i ∈ s.wanted)
    (hissued : i ∉ s.issued) : i ∉ s.withdrawn ∧ i ∉ s.stale := by
  have hfresh : i ∉ s.stale := fun hstale => hissued ⟨hwanted, Or.inr hstale⟩
  refine ⟨?_, hfresh⟩
  rintro ⟨-, hunwanted | hstale⟩
  · exact hunwanted hwanted
  · exact hfresh hstale

theorem converged_iff (s : Situation ι) :
    s.Converged ↔ s.live = s.wanted ∧ ∀ i ∈ s.wanted, i ∉ s.stale := by
  constructor
  · intro hconverged
    simp only [Converged, mem_withdrawn, mem_issued] at hconverged
    refine ⟨Set.ext fun i => ?_, fun i hi hstale => ?_⟩
    · have := hconverged i
      tauto
    · have := hconverged i
      tauto
  · rintro ⟨hlive, hfresh⟩ i
    have := hfresh i
    rw [mem_withdrawn, mem_issued, hlive]
    tauto

theorem confirmed_live (s : Situation ι) : s.live \ s.withdrawn ∪ s.issued = s.wanted := by
  ext i
  simp only [Set.mem_union, Set.mem_sdiff, mem_withdrawn, mem_issued]
  tauto

theorem inFlight_live (s : Situation ι) : s.live ∪ s.issued = s.live ∪ s.wanted := by
  ext i
  simp only [Set.mem_union, mem_issued]
  tauto

end Situation

end Rtt.SetReconciliation

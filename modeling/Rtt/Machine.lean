import Mathlib.Data.List.Induction

/-!
Runs of deterministic machines that read an input, move to a new state and
emit an output, together with the induction rules used on such runs.
-/

namespace Rtt.Machine

variable {σ ι ο : Type*}

/-- The state reached by feeding the inputs one after another. -/
def exec (step : σ → ι → σ × ο) : σ → List ι → σ
  | s, [] => s
  | s, i :: rest => exec step (step s i).1 rest

/-- The outputs of a run, one for each input. -/
def outputs (step : σ → ι → σ × ο) : σ → List ι → List ο
  | _, [] => []
  | s, i :: rest => (step s i).2 :: outputs step (step s i).1 rest

/-- `P` holds of every state and input that a run meets. -/
def Along (step : σ → ι → σ × ο) (P : σ → ι → Prop) : σ → List ι → Prop
  | _, [] => True
  | s, i :: rest => P s i ∧ Along step P (step s i).1 rest

def decideAlong (step : σ → ι → σ × ο) (P : σ → ι → Prop) [∀ s i, Decidable (P s i)] :
    ∀ (s : σ) (xs : List ι), Decidable (Along step P s xs)
  | _, [] => isTrue trivial
  | s, i :: rest =>
      have := decideAlong step P (step s i).1 rest
      inferInstanceAs (Decidable (P s i ∧ _))

instance (step : σ → ι → σ × ο) (P : σ → ι → Prop) [∀ s i, Decidable (P s i)] (s : σ)
    (xs : List ι) : Decidable (Along step P s xs) :=
  decideAlong step P s xs

variable {step : σ → ι → σ × ο}

theorem exec_append (s : σ) (xs ys : List ι) :
    exec step s (xs ++ ys) = exec step (exec step s xs) ys := by
  induction xs generalizing s with
  | nil => rfl
  | cons i xs ih => exact ih _

theorem outputs_append (s : σ) (xs ys : List ι) :
    outputs step s (xs ++ ys) =
      outputs step s xs ++ outputs step (exec step s xs) ys := by
  induction xs generalizing s with
  | nil => rfl
  | cons i xs ih =>
      simp only [List.cons_append, outputs, exec]
      rw [ih]

theorem exec_concat (s : σ) (xs : List ι) (i : ι) :
    exec step s (xs ++ [i]) = (step (exec step s xs) i).1 := by
  rw [exec_append]
  rfl

theorem outputs_concat (s : σ) (xs : List ι) (i : ι) :
    outputs step s (xs ++ [i]) =
      outputs step s xs ++ [(step (exec step s xs) i).2] := by
  rw [outputs_append]
  rfl

theorem along_append {P : σ → ι → Prop} {s : σ} {xs ys : List ι} :
    Along step P s (xs ++ ys) ↔
      Along step P s xs ∧ Along step P (exec step s xs) ys := by
  induction xs generalizing s with
  | nil => simp [Along, exec]
  | cons i xs ih => simp only [List.cons_append, Along, exec, ih, and_assoc]

theorem along_concat {P : σ → ι → Prop} {s : σ} {xs : List ι} {i : ι} :
    Along step P s (xs ++ [i]) ↔
      Along step P s xs ∧ P (exec step s xs) i := by
  simp [along_append, Along]

theorem along_iff_forall_prefix {P : σ → ι → Prop} {s : σ} {xs : List ι} :
    Along step P s xs ↔ ∀ pre i, pre ++ [i] <+: xs → P (exec step s pre) i := by
  constructor
  · rintro h pre i ⟨rest, rfl⟩
    exact (along_concat.mp (along_append.mp h).1).2
  · intro h
    induction xs using List.reverseRecOn with
    | nil => trivial
    | append_singleton xs i ih =>
        refine along_concat.mpr ⟨ih ?_, h xs i List.prefix_rfl⟩
        exact fun pre j hpre => h pre j (hpre.trans (List.prefix_append xs [i]))

theorem forall_prefix_iff_of_concat {P : List ι → Prop} {Q : List ι → ι → Prop} (hnil : P [])
    (hstep : ∀ pre i, P pre → (P (pre ++ [i]) ↔ Q pre i)) (xs : List ι) :
    (∀ pre, pre <+: xs → P pre) ↔ ∀ pre i, pre ++ [i] <+: xs → Q pre i := by
  constructor
  · intro h pre i hpre
    exact (hstep pre i (h pre ((List.prefix_append pre [i]).trans hpre))).mp (h _ hpre)
  · intro h pre
    induction pre using List.reverseRecOn with
    | nil => exact fun _ => hnil
    | append_singleton pre i ih =>
        intro hpre
        exact (hstep pre i (ih ((List.prefix_append pre [i]).trans hpre))).mpr (h pre i hpre)

theorem forall_prefix_last_iff {Q : ι → Prop} (xs : List ι) :
    (∀ pre i, pre ++ [i] <+: xs → Q i) ↔ ∀ i ∈ xs, Q i := by
  constructor
  · intro h i hi
    obtain ⟨before, after, rfl⟩ := List.append_of_mem hi
    exact h before i ⟨after, by simp⟩
  · rintro h pre i hpre
    exact h i (hpre.subset (by simp))

theorem along_congr {P Q : σ → ι → Prop} {J : σ → List ι → Prop}
    (hkeep : ∀ s i rest, J s (i :: rest) → J (step s i).1 rest)
    (hexact : ∀ s i rest, J s (i :: rest) → (P s i ↔ Q s i))
    {inputs : List ι} {start : σ} (hJ : J start inputs) :
    Along step P start inputs ↔ Along step Q start inputs := by
  induction inputs generalizing start with
  | nil => exact Iff.rfl
  | cons i rest ih =>
      exact and_congr (hexact start i rest hJ) (ih (hkeep start i rest hJ))

theorem along_congr_of_kept {P Q : σ → ι → Prop} {J : σ → Prop}
    (hexact : ∀ s i, J s → (P s i ↔ Q s i)) (hkeep : ∀ s i, J s → P s i → J (step s i).1)
    {inputs : List ι} {start : σ} (hJ : J start) :
    Along step P start inputs ↔ Along step Q start inputs := by
  induction inputs generalizing start with
  | nil => exact Iff.rfl
  | cons i rest ih =>
      rw [Along, Along, ← hexact start i hJ]
      exact and_congr_right fun hP => ih (hkeep start i hJ hP)

theorem along_true (s : σ) (xs : List ι) : Along step (fun _ _ => True) s xs := by
  induction xs generalizing s with
  | nil => trivial
  | cons i xs ih => exact ⟨trivial, ih _⟩

theorem along_forall_iff {P : ι → Prop} {s : σ} {xs : List ι} :
    Along step (fun _ i => P i) s xs ↔ ∀ i ∈ xs, P i := by
  induction xs generalizing s with
  | nil => simp [Along]
  | cons i xs ih => rw [Along, ih, List.forall_mem_cons]

variable (step) in
/-- Induction over a run from its start.  The motive sees the inputs read so
far, the state reached and the outputs emitted so far. -/
theorem run_induction {P : σ → ι → Prop} {motive : List ι → σ → List ο → Prop}
    {start : σ} (hstart : motive [] start [])
    (hstep : ∀ pre s out i, motive pre s out → P s i →
      motive (pre ++ [i]) (step s i).1 (out ++ [(step s i).2]))
    (inputs : List ι) (halong : Along step P start inputs) :
    motive inputs (exec step start inputs) (outputs step start inputs) := by
  induction inputs using List.reverseRecOn with
  | nil => exact hstart
  | append_singleton pre i ih =>
      obtain ⟨hpre, hi⟩ := along_concat.mp halong
      rw [exec_concat, outputs_concat]
      exact hstep pre _ _ i (ih hpre) hi

theorem exec_invariant {P : σ → ι → Prop} {I : σ → Prop}
    (hstep : ∀ s i, I s → P s i → I (step s i).1)
    {start : σ} (hstart : I start) {inputs : List ι}
    (halong : Along step P start inputs) : I (exec step start inputs) := by
  induction inputs generalizing start with
  | nil => exact hstart
  | cons i rest ih => exact ih (hstep start i hstart halong.1) halong.2

theorem exec_kept {I : σ → Prop} (hstep : ∀ s i, I s → I (step s i).1) {start : σ}
    (hstart : I start) (inputs : List ι) : I (exec step start inputs) :=
  exec_invariant (fun s i h _ => hstep s i h) hstart (along_true start inputs)

theorem exec_simulates {τ ο' : Type*} {f : σ → τ} {next : τ → ι → τ × ο'}
    (hstep : ∀ s i, f (step s i).1 = (next (f s) i).1) (s : σ) (xs : List ι) :
    f (exec step s xs) = exec next (f s) xs := by
  induction xs generalizing s with
  | nil => rfl
  | cons i xs ih => rw [exec, ih, hstep, exec]

theorem exec_field {τ : Type*} {f : σ → τ} (hstep : ∀ s i, f (step s i).1 = f s) (s : σ)
    (xs : List ι) : f (exec step s xs) = f s := by
  induction xs generalizing s with
  | nil => rfl
  | cons i xs ih => rw [exec, ih, hstep]

/-- Where `P` says exactly which steps keep `I`, all states of a run keep it when
all its steps satisfy `P`. -/
theorem forall_prefix_iff_along {P : σ → ι → Prop} {I J : σ → Prop} {inputs : List ι}
    (hkeep : ∀ s, ∀ i ∈ inputs, J s → J (step s i).1)
    (hexact : ∀ s, ∀ i ∈ inputs, J s → I s → (I (step s i).1 ↔ P s i))
    {start : σ} (hJ : J start) (hI : I start) :
    (∀ pre, pre <+: inputs → I (exec step start pre)) ↔ Along step P start inputs := by
  induction inputs generalizing start with
  | nil =>
      refine iff_of_true ?_ trivial
      intro pre hpre
      rw [List.prefix_nil.mp hpre]
      exact hI
  | cons i rest ih =>
      have hi : i ∈ i :: rest := List.mem_cons_self
      have htail := @ih (fun s j hj => hkeep s j (List.mem_cons_of_mem i hj))
        (fun s j hj => hexact s j (List.mem_cons_of_mem i hj)) _ (hkeep start i hi hJ)
      constructor
      · intro h
        have hnext : I (step start i).1 := h [i] ⟨rest, rfl⟩
        refine ⟨(hexact start i hi hJ hI).mp hnext, (htail hnext).mp ?_⟩
        exact fun pre hpre => h (i :: pre) (List.cons_prefix_cons.mpr ⟨rfl, hpre⟩)
      · rintro ⟨hPi, hrest⟩ pre hpre
        rcases pre with _ | ⟨j, pre⟩
        · exact hI
        · obtain ⟨rfl, hprefix⟩ := List.cons_prefix_cons.mp hpre
          exact (htail ((hexact start j hi hJ hI).mpr hPi)).mpr hrest pre hprefix

theorem forall_prefixes_iff_along {P : σ → ι → Prop} {R : σ → σ → Prop}
    {J : σ → List ι → Prop} (hrefl : ∀ s, R s s) (htrans : ∀ a b c, R a b → R b c → R a c)
    (hkeep : ∀ s i rest, J s (i :: rest) → J (step s i).1 rest)
    (hexact : ∀ s i rest, J s (i :: rest) → (R s (step s i).1 ↔ P s i))
    {inputs : List ι} {start : σ} (hJ : J start inputs) :
    (∀ earlier later, earlier <+: later → later <+: inputs →
      R (exec step start earlier) (exec step start later)) ↔ Along step P start inputs := by
  induction inputs generalizing start with
  | nil =>
      refine iff_of_true ?_ trivial
      intro earlier later hearlier hlater
      obtain rfl := List.prefix_nil.mp hlater
      obtain rfl := List.prefix_nil.mp hearlier
      exact hrefl _
  | cons i rest ih =>
      have htail := ih (hkeep start i rest hJ)
      constructor
      · intro h
        refine ⟨(hexact start i rest hJ).mp (h [] [i] List.nil_prefix ⟨rest, rfl⟩), htail.mp ?_⟩
        intro earlier later hearlier hlater
        exact h (i :: earlier) (i :: later) (List.cons_prefix_cons.mpr ⟨rfl, hearlier⟩)
          (List.cons_prefix_cons.mpr ⟨rfl, hlater⟩)
      · rintro ⟨hPi, hrest⟩ earlier later hearlier hlater
        have hlaterSteps := htail.mpr hrest
        rcases later with _ | ⟨j, later⟩
        · obtain rfl := List.prefix_nil.mp hearlier
          exact hrefl _
        · obtain ⟨rfl, hrestLater⟩ := List.cons_prefix_cons.mp hlater
          rcases earlier with _ | ⟨k, earlier⟩
          · exact htrans _ _ _ ((hexact start _ rest hJ).mpr hPi)
              (hlaterSteps [] later List.nil_prefix hrestLater)
          · obtain ⟨rfl, hlaterTail⟩ := List.cons_prefix_cons.mp hearlier
            exact hlaterSteps earlier later hlaterTail hrestLater

theorem outputs_forall {P : σ → ι → Prop} {I : σ → Prop} {Q : ο → Prop}
    (hstep : ∀ s i, I s → P s i → I (step s i).1)
    (hout : ∀ s i, I s → P s i → Q (step s i).2)
    {start : σ} (hstart : I start) {inputs : List ι}
    (halong : Along step P start inputs) :
    ∀ o ∈ outputs step start inputs, Q o := by
  induction inputs generalizing start with
  | nil => simp [outputs]
  | cons i rest ih =>
      intro o ho
      rcases List.mem_cons.mp ho with rfl | ho
      · exact hout start i hstart halong.1
      · exact ih (hstep start i hstart halong.1) halong.2 o ho

end Rtt.Machine

import Mathlib.Data.List.Induction

/-!
The last effect that a run of events has on one cell of a store.
-/

namespace Rtt.CellHistory

variable {α ε σ τ : Type*}

/-- What one event does to the cell: a written value carries a tag. -/
inductive Effect (τ : Type*) where
  | kept
  | cleared
  | written (tag : τ)
  deriving DecidableEq, Repr

/-- Of two effects in a row the later one shows, unless it keeps the cell. -/
def Effect.andThen (first second : Effect τ) : Effect τ :=
  match second with
  | .kept => first
  | .cleared => .cleared
  | .written tag => .written tag

/-- The effect of a whole run of events: the last one that is not `kept`. -/
def lastEffect (effect : ε → Effect τ) (events : List ε) : Effect τ :=
  events.foldl (fun before event => before.andThen (effect event)) .kept

/-- What an effect leaves in a cell that was empty before it. -/
def Effect.left : Effect τ → Option τ
  | .kept | .cleared => none
  | .written tag => some tag

/-- The effect that leaves the given content. -/
def Effect.leaving : Option τ → Effect τ
  | none => .cleared
  | some tag => .written tag

/-- The events from the last one that `p` picks out, or all of them. -/
def sinceLast (p : ε → Bool) : List ε → List ε
  | [] => []
  | event :: events => if events.any p then sinceLast p events else event :: events

/-- The cell went from `before` to `after` by an effect. -/
def Shows (tag : α → τ) (before after : Option α) : Effect τ → Prop
  | .kept => after = before
  | .cleared => after = none
  | .written t => after.map tag = some t

variable {tag : α → τ} {before middle after : Option α} {effect : ε → Effect τ}

@[simp] theorem Effect.kept_andThen (second : Effect τ) : Effect.kept.andThen second = second := by
  cases second <;> rfl

@[simp] theorem Effect.andThen_kept (first : Effect τ) : first.andThen .kept = first := rfl

theorem Effect.andThen_of_ne_kept (first : Effect τ) {second : Effect τ}
    (h : second ≠ .kept) : first.andThen second = second := by
  cases second with
  | kept => exact absurd rfl h
  | cleared | written => rfl

theorem Effect.andThen_assoc (first second third : Effect τ) :
    (first.andThen second).andThen third = first.andThen (second.andThen third) := by
  cases third <;> rfl

theorem Effect.leaving_ne_kept (content : Option τ) : leaving content ≠ .kept := by
  cases content <;> simp [leaving]

theorem shows_leaving (before content : Option α) :
    Shows id before content (Effect.leaving content) := by
  cases content with
  | none => rfl
  | some value => exact Option.map_id_apply ..

theorem Shows.eq_left {effect : Effect α} (h : Shows id none after effect) :
    after = effect.left := by
  cases effect with
  | kept | cleared => exact h
  | written value => exact (Option.map_id_apply ..).symm.trans h

theorem Shows.trans {first second : Effect τ} (hfirst : Shows tag before middle first)
    (hsecond : Shows tag middle after second) : Shows tag before after (first.andThen second) := by
  cases second with
  | kept =>
      rw [show after = middle from hsecond]
      exact hfirst
  | cleared => exact hsecond
  | written t => exact hsecond

theorem lastEffect_concat (events : List ε) (event : ε) :
    lastEffect effect (events ++ [event]) = (lastEffect effect events).andThen (effect event) := by
  simp [lastEffect]

theorem lastEffect_append (xs ys : List ε) :
    lastEffect effect (xs ++ ys) = (lastEffect effect xs).andThen (lastEffect effect ys) := by
  induction ys using List.reverseRecOn with
  | nil => simp [lastEffect]
  | append_singleton ys event ih =>
      rw [← List.append_assoc, lastEffect_concat, lastEffect_concat, ih, Effect.andThen_assoc]

theorem lastEffect_cons (event : ε) (events : List ε) :
    lastEffect effect (event :: events) = (effect event).andThen (lastEffect effect events) := by
  have happend : lastEffect effect ([event] ++ events) = _ := lastEffect_append [event] events
  rwa [show lastEffect effect [event] = effect event from Effect.kept_andThen _] at happend

theorem lastEffect_flatMap {ι : Type*} (f : ι → List ε) (xs : List ι) :
    lastEffect effect (xs.flatMap f) = lastEffect (fun x => lastEffect effect (f x)) xs := by
  induction xs with
  | nil => rfl
  | cons x xs ih => rw [List.flatMap_cons, lastEffect_append, lastEffect_cons, ih]

theorem lastEffect_ne_kept {events : List ε} (h : ∃ event ∈ events, effect event ≠ .kept) :
    lastEffect effect events ≠ .kept := by
  induction events with
  | nil => exact absurd h (by simp)
  | cons event events ih =>
      rw [lastEffect_cons]
      rcases eq_or_ne (lastEffect effect events) .kept with hkept | hne
      · rw [hkept]
        obtain ⟨other, hother, heffect⟩ := h
        rcases List.mem_cons.mp hother with rfl | hlater
        · exact heffect
        · exact absurd hkept (ih ⟨other, hlater, heffect⟩)
      · rw [Effect.andThen_of_ne_kept _ hne]
        exact hne

theorem lastEffect_sinceLast {p : ε → Bool} (h : ∀ event, p event → effect event ≠ .kept)
    (events : List ε) : lastEffect effect (sinceLast p events) = lastEffect effect events := by
  induction events with
  | nil => rfl
  | cons event events ih =>
      rw [sinceLast]
      split
      · rename_i hany
        obtain ⟨later, hlater, hp⟩ := List.any_eq_true.mp hany
        have hne := lastEffect_ne_kept ⟨later, hlater, h later hp⟩
        rw [ih, lastEffect_cons, Effect.andThen_of_ne_kept _ hne]
      · rfl

theorem shows_foldl {step : σ → ε → σ} {cell : σ → Option α}
    (hstep : ∀ s event, Shows tag (cell s) (cell (step s event)) (effect event)) (s : σ)
    (events : List ε) :
    Shows tag (cell s) (cell (events.foldl step s)) (lastEffect effect events) := by
  induction events using List.reverseRecOn with
  | nil => rfl
  | append_singleton events event ih =>
      rw [List.foldl_append, lastEffect_concat]
      exact ih.trans (hstep _ event)

end Rtt.CellHistory

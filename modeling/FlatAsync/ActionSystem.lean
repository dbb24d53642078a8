import Mathlib.Logic.Basic
import Mathlib.Tactic.Common

/-!
# Systems driven by lists of actions

A concurrent program is modelled by a state, a type of actions and two
functions: `enabled` says which actions the program may take next, `next`
computes the state an action leads to.  Every nondeterministic choice (which
thread moves, what a user handler does, how an operation completes) is part
of the action, so a run is just a list of actions and can be evaluated.

This file defines runs, the two ways of speaking about a whole run (a property
of every state, a condition on every step) and the induction rules that derive
the first from the second.
-/

namespace FlatAsync

/-- A system whose moves are named by actions. -/
structure ActionSystem (State Action : Type*) where
  enabled : State → Action → Prop
  next : State → Action → State

namespace ActionSystem

variable {State Action : Type*} (system : ActionSystem State Action)

/-- The state reached from `state` by taking all the actions in order. -/
def run (state : State) : List Action → State
  | [] => state
  | action :: actions => run (system.next state action) actions

/-- Every step of the run meets `condition`, which may look at the state the
step is taken in. -/
def EveryStep (condition : State → Action → Prop) (state : State) :
    List Action → Prop
  | [] => True
  | action :: actions =>
      condition state action ∧
        EveryStep condition (system.next state action) actions

/-- Every state of the run, the first and the last included, has `property`. -/
def EveryState (property : State → Prop) (state : State) :
    List Action → Prop
  | [] => property state
  | action :: actions =>
      property state ∧ EveryState property (system.next state action) actions

/-- What the steps of a run show, one after the other, to an observer. -/
def trace {Event : Type*} (observe : State → Action → List Event) (state : State) :
    List Action → List Event
  | [] => []
  | action :: actions =>
      observe state action ++ trace observe (system.next state action) actions

/-- The system with a record of what its steps have shown to an observer. -/
def recorded {Event : Type*} (observe : State → Action → List Event) :
    ActionSystem (State × List Event) Action where
  enabled s := system.enabled s.1
  next s action := (system.next s.1 action, s.2 ++ observe s.1 action)

/-- A run of the system: each action is enabled where it is taken. -/
def Legal : State → List Action → Prop :=
  system.EveryStep system.enabled

instance decidableEveryStep (condition : State → Action → Prop)
    [∀ state action, Decidable (condition state action)] :
    ∀ state actions, Decidable (system.EveryStep condition state actions)
  | _, [] => inferInstanceAs (Decidable True)
  | state, action :: actions =>
      have := decidableEveryStep condition (system.next state action) actions
      inferInstanceAs (Decidable (_ ∧ _))

instance decidableLegal [∀ state action, Decidable (system.enabled state action)]
    (state : State) (actions : List Action) :
    Decidable (system.Legal state actions) :=
  system.decidableEveryStep system.enabled state actions

instance {Event : Type*} (observe : State → Action → List Event)
    [∀ state action, Decidable (system.enabled state action)]
    (s : State × List Event) (action : Action) :
    Decidable ((system.recorded observe).enabled s action) :=
  inferInstanceAs (Decidable (system.enabled s.1 action))

section Rules

variable {system}
variable {invariant property : State → Prop}
variable {condition : State → Action → Prop}

theorem EveryStep.imp {weaker : State → Action → Prop}
    (implies : ∀ state action, condition state action → weaker state action)
    {state : State} {actions : List Action}
    (steps : system.EveryStep condition state actions) :
    system.EveryStep weaker state actions := by
  induction actions generalizing state with
  | nil => trivial
  | cons action actions ih =>
      exact ⟨implies state action steps.1, ih steps.2⟩

theorem everyStep_of_forall (always : ∀ state action, condition state action) {state : State}
    {actions : List Action} : system.EveryStep condition state actions := by
  induction actions generalizing state with
  | nil => trivial
  | cons action actions ih => exact ⟨always state action, ih⟩

theorem EveryStep.and {other : State → Action → Prop} {state : State}
    {actions : List Action} (steps : system.EveryStep condition state actions)
    (others : system.EveryStep other state actions) :
    system.EveryStep (fun state action => condition state action ∧ other state action)
      state actions := by
  induction actions generalizing state with
  | nil => trivial
  | cons action actions ih =>
      exact ⟨⟨steps.1, others.1⟩, ih steps.2 others.2⟩

theorem run_append (state : State) (before after : List Action) :
    system.run state (before ++ after) = system.run (system.run state before) after := by
  induction before generalizing state with
  | nil => rfl
  | cons action before ih => exact ih (system.next state action)

theorem trace_append {Event : Type*} (observe : State → Action → List Event) (state : State)
    (before after : List Action) : system.trace observe state (before ++ after) =
      system.trace observe state before ++
        system.trace observe (system.run state before) after := by
  induction before generalizing state with
  | nil => rfl
  | cons action before ih => simp [trace, run, ih]

theorem everyStep_append {state : State} {before after : List Action} :
    system.EveryStep condition state (before ++ after) ↔
      system.EveryStep condition state before ∧
        system.EveryStep condition (system.run state before) after := by
  induction before generalizing state with
  | nil => simp [EveryStep, run]
  | cons action before ih => simp [EveryStep, run, ih, and_assoc]

theorem EveryState.first {state : State} {actions : List Action}
    (states : system.EveryState property state actions) : property state := by
  cases actions with
  | nil => exact states
  | cons => exact states.1

theorem everyState_append {state : State} {before after : List Action} :
    system.EveryState property state (before ++ after) ↔
      system.EveryState property state before ∧
        system.EveryState property (system.run state before) after := by
  induction before generalizing state with
  | nil => exact ⟨fun states => ⟨states.first, states⟩, And.right⟩
  | cons action before ih => simp [EveryState, run, ih, and_assoc]

theorem EveryState.last {state : State} {actions : List Action}
    (states : system.EveryState property state actions) :
    property (system.run state actions) := by
  induction actions generalizing state with
  | nil => exact states
  | cons action actions ih => exact ih states.2

theorem EveryState.imp {weaker : State → Prop}
    (implies : ∀ state, property state → weaker state)
    {state : State} {actions : List Action}
    (states : system.EveryState property state actions) :
    system.EveryState weaker state actions := by
  induction actions generalizing state with
  | nil => exact implies state states
  | cons action actions ih => exact ⟨implies state states.1, ih states.2⟩

theorem EveryState.and {other : State → Prop} {state : State} {actions : List Action}
    (states : system.EveryState property state actions)
    (others : system.EveryState other state actions) :
    system.EveryState (fun state => property state ∧ other state) state actions := by
  induction actions generalizing state with
  | nil => exact ⟨states, others⟩
  | cons action actions ih =>
      exact ⟨⟨states.1, others.1⟩, ih states.2 others.2⟩

/-- What holds at the end of every prefix of a run holds in every state of it. -/
theorem everyState_of_prefixes {state : State} {actions : List Action}
    (holds : ∀ before after, actions = before ++ after → property (system.run state before)) :
    system.EveryState property state actions := by
  induction actions generalizing state with
  | nil => exact holds [] [] rfl
  | cons action actions ih =>
      refine ⟨holds [] _ rfl, ih fun before after split => ?_⟩
      exact holds (action :: before) after (by rw [split, List.cons_append])

/-- An invariant of the initial state that every step meeting `condition`
preserves holds in every state of a run whose steps all meet `condition`. -/
theorem everyState_of_invariant
    (preserved : ∀ state action, invariant state → system.enabled state action →
      condition state action → invariant (system.next state action))
    {state : State} {actions : List Action}
    (initially : invariant state) (legal : system.Legal state actions)
    (steps : system.EveryStep condition state actions) :
    system.EveryState invariant state actions := by
  induction actions generalizing state with
  | nil => exact initially
  | cons action actions ih =>
      exact ⟨initially,
        ih (preserved state action initially legal.1 steps.1) legal.2 steps.2⟩

/-- An invariant that relates the state to what has been observed so far. -/
theorem trace_invariant {Event : Type*} {observe : State → Action → List Event}
    {relates : State → List Event → Prop}
    (preserved : ∀ state seen action, relates state seen → system.enabled state action →
      condition state action →
        relates (system.next state action) (seen ++ observe state action))
    {state : State} {actions : List Action} {seen : List Event}
    (initially : relates state seen) (legal : system.Legal state actions)
    (steps : system.EveryStep condition state actions) :
    relates (system.run state actions) (seen ++ system.trace observe state actions) := by
  induction actions generalizing state seen with
  | nil => simpa [trace, run] using initially
  | cons action actions ih =>
      have after := preserved state seen action initially legal.1 steps.1
      simpa [trace, run] using ih after legal.2 steps.2

theorem countP_of_invariant (measure : State → Nat) (counts : Action → Bool)
    (preserved : ∀ state action, invariant state → system.enabled state action →
      condition state action → invariant (system.next state action))
    (counted : ∀ state action, invariant state → system.enabled state action →
      condition state action →
        measure (system.next state action) = measure state + (counts action).toNat)
    {state : State} {actions : List Action}
    (initially : invariant state) (legal : system.Legal state actions)
    (steps : system.EveryStep condition state actions) :
    measure (system.run state actions) = measure state + actions.countP counts := by
  induction actions generalizing state with
  | nil => rfl
  | cons action actions ih =>
      have after := preserved state action initially legal.1 steps.1
      have rest := ih after legal.2 steps.2
      rw [counted state action initially legal.1 steps.1] at rest
      rw [run, rest, List.countP_cons, Nat.add_assoc, Nat.add_comm (actions.countP counts)]
      cases counts action <;> rfl

/-- When every step that counts is paid out of a budget, to which each other step adds at
most `grant`, a run has only as many steps that count as have been paid for. -/
theorem countP_le_of_budget (budget : State → Nat) (counts : Action → Bool) (grant : Nat)
    (preserved : ∀ state action, invariant state → system.enabled state action →
      condition state action → invariant (system.next state action))
    (paid : ∀ state action, invariant state → system.enabled state action →
      condition state action →
        budget (system.next state action) + (counts action).toNat ≤
          budget state + grant * (!counts action).toNat)
    {state : State} {actions : List Action}
    (initially : invariant state) (legal : system.Legal state actions)
    (steps : system.EveryStep condition state actions) :
    budget (system.run state actions) + actions.countP counts ≤
      budget state + grant * actions.countP (fun action => !counts action) := by
  induction actions generalizing state with
  | nil => exact Nat.le_refl _
  | cons action actions ih =>
      have after := preserved state action initially legal.1 steps.1
      have first := paid state action initially legal.1 steps.1
      have rest := ih after legal.2 steps.2
      rw [run, List.countP_cons, List.countP_cons]
      cases counted : counts action with
      | true =>
          simp only [counted, Bool.toNat_true, Bool.not_true, Bool.toNat_false] at first
          simp only [if_true, Bool.not_true, Bool.false_eq_true, if_false, Nat.add_zero]
          omega
      | false =>
          simp only [counted, Bool.toNat_false, Bool.not_false, Bool.toNat_true] at first
          simp only [Bool.false_eq_true, if_false, Bool.not_false, if_true, Nat.mul_add]
          omega

/-- What an invariant makes true of the steps that are enabled under it is
true of every step of a run. -/
theorem everyStep_of_invariant {consequence : State → Action → Prop}
    (preserved : ∀ state action, invariant state → system.enabled state action →
      condition state action → invariant (system.next state action))
    (consequent : ∀ state action, invariant state → system.enabled state action →
      condition state action → consequence state action)
    {state : State} {actions : List Action}
    (initially : invariant state) (legal : system.Legal state actions)
    (steps : system.EveryStep condition state actions) :
    system.EveryStep consequence state actions := by
  induction actions generalizing state with
  | nil => trivial
  | cons action actions ih =>
      exact ⟨consequent state action initially legal.1 steps.1,
        ih (preserved state action initially legal.1 steps.1) legal.2 steps.2⟩

/-- When the steps that meet `condition` preserve an invariant under which they are
the steps that meet `other`, all steps of a run meet the one or all the other. -/
theorem everyStep_congr {assumed other : State → Action → Prop}
    (same : ∀ state action, invariant state → system.enabled state action →
      assumed state action → (other state action ↔ condition state action))
    (preserved : ∀ state action, invariant state → system.enabled state action →
      assumed state action → condition state action →
        invariant (system.next state action))
    {state : State} {actions : List Action}
    (initially : invariant state) (legal : system.Legal state actions)
    (assumption : system.EveryStep assumed state actions) :
    system.EveryStep other state actions ↔ system.EveryStep condition state actions := by
  induction actions generalizing state with
  | nil => exact Iff.rfl
  | cons action actions ih =>
      have here := same state action initially legal.1 assumption.1
      have rest (met : condition state action) :=
        ih (preserved state action initially legal.1 assumption.1 met) legal.2 assumption.2
      constructor
      · rintro ⟨first, later⟩
        exact ⟨here.mp first, (rest (here.mp first)).mp later⟩
      · rintro ⟨first, later⟩
        exact ⟨here.mpr first, (rest first).mpr later⟩

/-- When an invariant implies `property`, is preserved by the steps that meet
`condition`, and every other step leads to a state without `property`, a run
has `property` throughout exactly when all its steps meet `condition`. -/
theorem everyState_iff_everyStep {assumed : State → Action → Prop}
    (holds : ∀ state, invariant state → property state)
    (preserved : ∀ state action, invariant state → system.enabled state action →
      assumed state action → condition state action →
        invariant (system.next state action))
    (broken : ∀ state action, invariant state → system.enabled state action →
      assumed state action → ¬ condition state action →
        ¬ property (system.next state action))
    {state : State} {actions : List Action}
    (initially : invariant state) (legal : system.Legal state actions)
    (assumption : system.EveryStep assumed state actions) :
    system.EveryState property state actions ↔
      system.EveryStep condition state actions := by
  induction actions generalizing state with
  | nil => exact ⟨fun _ => trivial, fun _ => holds state initially⟩
  | cons action actions ih =>
      by_cases met : condition state action
      · have after := preserved state action initially legal.1 assumption.1 met
        have rest := ih after legal.2 assumption.2
        exact ⟨fun states => ⟨met, rest.mp states.2⟩,
          fun steps => ⟨holds state initially, rest.mpr steps.2⟩⟩
      · have lost := broken state action initially legal.1 assumption.1 met
        constructor
        · intro states
          have here : property (system.next state action) := by
            cases actions with
            | nil => exact states.2
            | cons => exact states.2.1
          exact absurd here lost
        · intro steps
          exact absurd steps.1 met

/-- A property of every state and a consequence of every step hold throughout a
run exactly when all its steps meet `condition`, if an invariant that these steps
preserve implies both, and every other step breaks one of them. -/
theorem everyStep_and_everyState_iff {consequence : State → Action → Prop}
    (holds : ∀ state, invariant state → property state)
    (preserved : ∀ state action, invariant state → system.enabled state action →
      condition state action → invariant (system.next state action))
    (consequent : ∀ state action, invariant state → system.enabled state action →
      condition state action → consequence state action)
    (broken : ∀ state action, invariant state → system.enabled state action →
      ¬ condition state action → consequence state action →
        ¬ property (system.next state action))
    {state : State} {actions : List Action}
    (initially : invariant state) (legal : system.Legal state actions) :
    system.EveryStep consequence state actions ∧ system.EveryState property state actions ↔
      system.EveryStep condition state actions := by
  constructor
  · rintro ⟨steps, states⟩
    induction actions generalizing state with
    | nil => trivial
    | cons action actions ih =>
        have here : condition state action := by
          by_contra missed
          apply broken state action initially legal.1 missed steps.1
          cases actions with
          | nil => exact states.2
          | cons => exact states.2.1
        exact ⟨here, ih (preserved state action initially legal.1 here) legal.2 steps.2 states.2⟩
  · intro met
    exact ⟨everyStep_of_invariant preserved consequent initially legal met,
      (everyState_of_invariant preserved initially legal met).imp holds⟩

/-- When another system can follow every step with a run of its own, it can follow a
whole run. -/
theorem exists_run_of_simulates {Other OtherAction : Type*} {other : ActionSystem Other OtherAction}
    {related : State → Other → Prop}
    (simulates : ∀ state image action, related state image → system.enabled state action →
      ∃ others, other.Legal image others ∧
        related (system.next state action) (other.run image others))
    {state : State} {image : Other} {actions : List Action} (initially : related state image)
    (legal : system.Legal state actions) :
    ∃ others, other.Legal image others ∧
      related (system.run state actions) (other.run image others) := by
  induction actions generalizing state image with
  | nil => exact ⟨[], trivial, initially⟩
  | cons action actions ih =>
      obtain ⟨first, firstLegal, after⟩ := simulates state image action initially legal.1
      obtain ⟨rest, restLegal, reached⟩ := ih after legal.2
      refine ⟨first ++ rest, everyStep_append.mpr ⟨firstLegal, restLegal⟩, ?_⟩
      rw [run_append]
      exact reached

/-- When the calls that a step makes on another system meet `observed` there and keep
the two related, the calls of a whole run do. -/
theorem everyStep_trace {Other OtherAction : Type*} {other : ActionSystem Other OtherAction}
    {calls : State → Action → List OtherAction} {related : State → Other → Prop}
    {observed : Other → OtherAction → Prop}
    (follows : ∀ state image action, related state image → system.enabled state action →
      condition state action → other.EveryStep observed image (calls state action) ∧
        related (system.next state action) (other.run image (calls state action)))
    {state : State} {image : Other} {actions : List Action} (initially : related state image)
    (legal : system.Legal state actions) (steps : system.EveryStep condition state actions) :
    other.EveryStep observed image (system.trace calls state actions) ∧
      related (system.run state actions) (other.run image (system.trace calls state actions)) := by
  induction actions generalizing state image with
  | nil => exact ⟨trivial, initially⟩
  | cons action actions ih =>
      obtain ⟨here, after⟩ := follows state image action initially legal.1 steps.1
      obtain ⟨later, reached⟩ := ih after legal.2 steps.2
      refine ⟨everyStep_append.mpr ⟨here, later⟩, ?_⟩
      rw [trace, run_append]
      exact reached

end Rules

end ActionSystem

end FlatAsync

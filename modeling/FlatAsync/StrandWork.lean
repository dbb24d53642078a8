import FlatAsync.Strand
import Mathlib.Algebra.BigOperators.Group.Multiset.Basic
import Mathlib.Algebra.Order.BigOperators.Group.Multiset

/-!
# The work of a strand

A strand works by itself: a posted task enters the queue, a result comes back to it, an
entry begins.  How long it goes on depends on what the pieces of outstanding work can lead
to.

This file bounds it.  Each piece of work has a weight, which may depend on the state; a move
takes weight from the bag for the entries that it begins and for the tasks that it posts,
and only the outside world and user code may add to the bag.
-/

namespace FlatAsync

variable {State Task Operation Result Frame Choice Call : Type*}

/-- The steps that a strand takes by itself. -/
def StrandAction.isOwn : StrandAction Task Result Choice Call → Bool
  | .flush | .begin _ | .deliver _ => true
  | .post _ | .complete .. | .act _ => false

/-- The moves among them. -/
def Move.isOwn : Move Task Operation Result Frame Choice Call → Bool
  | .begin .. | .deliver .. => true
  | .post _ | .complete .. | .act .. => false

namespace Item

def total (weight : Item Task Operation Result Frame → Nat)
    (items : Multiset (Item Task Operation Result Frame)) : Nat :=
  (items.map weight).sum

section Total

variable {weight : Item Task Operation Result Frame → Nat}
variable {item : Item Task Operation Result Frame}
variable {items others : Multiset (Item Task Operation Result Frame)}

@[simp]
theorem total_zero : total weight 0 = 0 :=
  rfl

@[simp]
theorem total_cons : total weight (item ::ₘ items) = weight item + total weight items := by
  simp [total]

@[simp]
theorem total_singleton : total weight {item} = weight item := by
  simp [total]

@[simp]
theorem total_add : total weight (items + others) = total weight items + total weight others := by
  simp [total]

private theorem total_map_le {heavier : Item Task Operation Result Frame → Nat}
    {change : Item Task Operation Result Frame → Item Task Operation Result Frame}
    (lighter : ∀ item ∈ items, weight (change item) ≤ heavier item) :
    total weight (items.map change) ≤ total heavier items := by
  rw [total, Multiset.map_map]
  exact Multiset.sum_map_le_sum_map _ _ lighter

end Total

end Item

namespace Segment

/-- What a stretch of code adds to the work: what it ends with and the tasks that it posts,
each of which has yet to enter the queue. -/
def cost (weight : Item Task Operation Result Frame → Nat)
    (segment : Segment State Task Operation Result Frame) : Nat :=
  Item.total weight segment.after.items + Item.total weight segment.posted +
    segment.posts.length

variable {weight before : Item Task Operation Result Frame → Nat}
variable {segment : Segment State Task Operation Result Frame}
variable {rest : Multiset (Item Task Operation Result Frame)}

theorem total_outstanding_le
    (lighter : ∀ item ∈ rest, weight (item.settle segment.settles) ≤ before item) :
    Item.total weight (segment.outstanding rest) + segment.posts.length ≤
      segment.cost weight + Item.total before rest := by
  have settled := Item.total_map_le lighter
  rw [outstanding, Item.total_add, Item.total_add, cost]
  omega

end Segment

/-- Under an invariant, no move makes the work heavier than it pays for: a move of the
strand by itself costs one, and each other move may add `grant`. -/
def Program.PaysFor (program : Program State Task Operation Result Frame Choice Call)
    (weight : State → Item Task Operation Result Frame → Nat) (grant : Nat)
    (invariant : State → Multiset (Item Task Operation Result Frame) → Prop) : Prop :=
  ∀ state rest move, invariant state (move.consumed + rest) → program.Allowed state move →
    Item.total (weight (program.stateAfter state rest move))
          (program.itemsAfter state rest move) +
        (program.posts state rest move).length + move.isOwn.toNat ≤
      Item.total (weight state) (move.consumed + rest) + grant * (!move.isOwn).toNat

namespace Strand

def budget (weight : State → Item Task Operation Result Frame → Nat)
    (s : Strand State Task Operation Result Frame) : Nat :=
  Item.total (weight s.state) s.items + s.outbox.length

section Budget

variable {program : Program State Task Operation Result Frame Choice Call}
variable {weight : State → Item Task Operation Result Frame → Nat} {grant : Nat}
variable {invariant : State → Multiset (Item Task Operation Result Frame) → Prop}
variable {condition : State → Multiset (Item Task Operation Result Frame) →
  Move Task Operation Result Frame Choice Call → Prop}
variable {s : Strand State Task Operation Result Frame}
variable {action : StrandAction Task Result Choice Call}
variable {actions : List (StrandAction Task Result Choice Call)}

/-- A step puts the posted tasks into the outbox, or takes one out of it. -/
theorem outbox_step (enabled : program.Enabled s action) :
    match s.effect action with
    | some (move, rest) =>
        (program.step s action).outbox = s.outbox ++ program.posts s.state rest move ∧
          action.isOwn = move.isOwn
    | none => (program.step s action).outbox.length + 1 = s.outbox.length ∧
        action.isOwn = true := by
  cases action with
  | post task => exact ⟨(List.append_nil _).symm, rfl⟩
  | flush =>
      cases tasks : s.outbox with
      | nil => exact absurd tasks enabled.2
      | cons task rest => simp [effect, Program.step, tasks, StrandAction.isOwn]
  | begin choice =>
      cases entries : s.queue with
      | nil => exact absurd entries enabled.2.2.2
      | cons entry rest =>
          simp [effect, Program.step, entries, perform, Program.posts, StrandAction.isOwn,
            Move.isOwn]
  | complete index result =>
      obtain ⟨-, possible⟩ := enabled
      cases found : s.waiting[index]? with
      | none => simp [found] at possible
      | some pair =>
          obtain ⟨operation, answer⟩ := pair
          cases answer with
          | some => simp [found] at possible
          | none =>
              simp [effect, Program.step, found, Program.posts, StrandAction.isOwn, Move.isOwn]
  | deliver index =>
      obtain ⟨-, possible⟩ := enabled
      cases found : s.waiting[index]? with
      | none => simp [found] at possible
      | some pair =>
          obtain ⟨operation, answer⟩ := pair
          cases answer with
          | none => simp [found] at possible
          | some result =>
              simp [effect, Program.step, found, Program.posts, StrandAction.isOwn, Move.isOwn]
  | act call =>
      obtain ⟨frame, busy⟩ := Option.isSome_iff_exists.mp enabled.2.2
      simp [effect, Program.step, busy, perform, Program.posts, StrandAction.isOwn, Move.isOwn]

theorem budget_step (pays : program.PaysFor weight grant invariant)
    (bag : invariant s.state s.items) (enabled : program.Enabled s action) :
    (program.step s action).budget weight + action.isOwn.toNat ≤
      s.budget weight + grant * (!action.isOwn).toNat := by
  have simulated := step_simulates enabled
  have outbox := outbox_step enabled
  cases effect : s.effect action with
  | none =>
      rw [effect] at simulated outbox
      rw [budget, simulated.1, simulated.2, budget, outbox.2, Bool.toNat_true]
      omega
  | some made =>
      obtain ⟨move, rest⟩ := made
      rw [effect] at simulated outbox
      obtain ⟨allowed, before, state, items⟩ := simulated
      have paid := pays s.state rest move (before ▸ bag) allowed
      rw [budget, state, items, outbox.1, List.length_append, budget, before, outbox.2]
      omega

/-- A strand whose moves pay for themselves takes only as many steps by itself as its work
at the beginning was worth and the outside world and user code have added. -/
theorem own_steps_le (preserved : program.Preserves invariant condition)
    (pays : program.PaysFor weight grant invariant) (initially : invariant s.state s.items)
    (legal : program.system.Legal s actions)
    (steps : program.system.EveryStep (During condition) s actions) :
    actions.countP StrandAction.isOwn ≤
      s.budget weight + grant * actions.countP (fun action => !action.isOwn) := by
  have paysFor (s : Strand State Task Operation Result Frame)
      (action : StrandAction Task Result Choice Call) (bag : invariant s.state s.items)
      (enabled : program.Enabled s action) (_ : s.During condition action) :
      (program.step s action).budget weight + action.isOwn.toNat ≤
        s.budget weight + grant * (!action.isOwn).toNat :=
    budget_step pays bag enabled
  have paid : (program.system.run s actions).budget weight +
        actions.countP StrandAction.isOwn ≤
      s.budget weight + grant * actions.countP (fun action => !action.isOwn) :=
    ActionSystem.countP_le_of_budget (budget weight) StrandAction.isOwn grant
      (bag_step preserved) paysFor initially legal steps
  omega

end Budget

end Strand

end FlatAsync

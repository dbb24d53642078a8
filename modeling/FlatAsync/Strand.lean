import FlatAsync.ActionSystem
import Mathlib.Algebra.Order.Group.Multiset
import Mathlib.Algebra.Order.Group.Nat
import Mathlib.Data.Multiset.Count
import Mathlib.Data.Multiset.MapFold
import Mathlib.Data.List.Perm.Basic

/-!
# Programs on a strand

A strand runs the tasks posted to it one at a time and in posting order.  A
task is a coroutine: it runs until it ends or waits for an operation, the
operation completes outside of the strand, and the strand's queue then gets an
entry that resumes the coroutine with the result.

A `Program` says what each stretch of code between two such points does.  This
file gives the strand that runs a program, and a second, simpler view of it:
the bag of everything that is outstanding, whatever its order.  The strand
simulates moves of bags, so that an invariant of the bag holds along every run
of the strand.
-/

namespace FlatAsync

/-- An entry of a strand's queue: a task to begin, or a coroutine to resume
with the result of the operation it was waiting for. -/
inductive Entry (Task Operation Result : Type*)
  | task (task : Task)
  | resume (operation : Operation) (result : Result)
  deriving DecidableEq, Repr

/-- What `select` makes of an entry that is a task. -/
def Entry.pick {Task Operation Result Picked : Type*} (select : Task → Option Picked) :
    Entry Task Operation Result → Option Picked
  | .task queued => select queued
  | .resume .. => none

inductive Item (Task Operation Result Frame : Type*)
  | queued (entry : Entry Task Operation Result)
  | waiting (operation : Operation) (result : Option Result)
  | running (frame : Frame)
  deriving DecidableEq, Repr

/-- How a stretch of code ends: the task is over, or user code runs in `frame`,
or the coroutine waits for `operation`. -/
inductive After (Operation Frame : Type*)
  | finish
  | run (frame : Frame)
  | suspend (operation : Operation)
  deriving DecidableEq, Repr

/-- What a stretch of code does: the state it leaves, the tasks it posts, the
results it gives to operations that have none yet, and how it ends. -/
structure Segment (State Task Operation Result Frame : Type*) where
  state : State
  posts : List Task := []
  settles : Operation → Option Result := fun _ => none
  after : After Operation Frame := .finish

/-- A program for a strand.  `mayPost` lists the tasks that come from outside,
`begin` says what an entry of the queue does (`rest` is what is outstanding
beside it), and `act` what a call of user code does. -/
structure Program (State Task Operation Result Frame Choice Call : Type*) where
  defined : State → Prop
  mayPost : Task → Prop
  mayComplete : State → Operation → Result → Prop
  completed : State → Operation → Result → State
  begin : Choice → State → (rest : Multiset (Item Task Operation Result Frame)) →
    Entry Task Operation Result → Segment State Task Operation Result Frame
  act : State → Frame → Call → Segment State Task Operation Result Frame

/-- A strand.  The tasks that a stretch of code posts pass one by one through
`outbox`, so that other threads may post in between. -/
structure Strand (State Task Operation Result Frame : Type*) where
  state : State
  queue : List (Entry Task Operation Result) := []
  outbox : List Task := []
  waiting : List (Operation × Option Result) := []
  current : Option Frame := none

/-- The steps of a strand.  Waiting operations are named by their place. -/
inductive StrandAction (Task Result Choice Call : Type*)
  | post (task : Task)
  | flush
  | begin (choice : Choice)
  | complete (index : Nat) (result : Result)
  | deliver (index : Nat)
  | act (call : Call)
  deriving DecidableEq, Repr

inductive Move (Task Operation Result Frame Choice Call : Type*)
  | post (task : Task)
  | complete (operation : Operation) (result : Result)
  | deliver (operation : Operation) (result : Result)
  | begin (choice : Choice) (entry : Entry Task Operation Result)
  | act (frame : Frame) (call : Call)
  deriving DecidableEq, Repr

variable {State Task Operation Result Frame Choice Call : Type*}

namespace Item

/-- An operation without a result gets the one that `settles` has for it. -/
def settle (settles : Operation → Option Result) :
    Item Task Operation Result Frame → Item Task Operation Result Frame
  | .waiting operation none => .waiting operation (settles operation)
  | item => item

/-- The number of items in a bag that `select` picks. -/
def count (select : Item Task Operation Result Frame → Bool)
    (items : Multiset (Item Task Operation Result Frame)) : Nat :=
  items.countP (select · = true)

/-- `select` does not look at the result of a waiting operation. -/
def Blind (select : Item Task Operation Result Frame → Bool) : Prop :=
  ∀ operation result, select (.waiting operation result) = select (.waiting operation none)

section Count

variable {select : Item Task Operation Result Frame → Bool}
variable {item : Item Task Operation Result Frame}
variable {items others : Multiset (Item Task Operation Result Frame)}

@[simp]
theorem count_zero : count select 0 = 0 :=
  rfl

@[simp]
theorem count_cons :
    count select (item ::ₘ items) = count select items + (select item).toNat := by
  cases chosen : select item <;> simp [count, chosen]

@[simp]
theorem count_singleton : count select {item} = (select item).toNat := by
  rw [← Multiset.cons_zero, count_cons, count_zero, Nat.zero_add]

@[simp]
theorem count_add : count select (items + others) = count select items + count select others :=
  Multiset.countP_add _ _ _

theorem count_le_count {weaker : Item Task Operation Result Frame → Bool}
    (implies : ∀ item, select item = true → weaker item = true) :
    count select items ≤ count weaker items := by
  induction items using Multiset.induction_on with
  | empty => exact Nat.le_refl _
  | cons item items ih =>
      have one : (select item).toNat ≤ (weaker item).toNat := by
        cases chosen : select item with
        | false => exact Nat.zero_le _
        | true => simp [implies item chosen]
      simp only [count_cons]
      omega

theorem count_eq_zero : count select items = 0 ↔ ∀ item ∈ items, select item = false := by
  simp [count, Multiset.countP_eq_zero]

theorem count_pos : 0 < count select items ↔ ∃ item ∈ items, select item = true :=
  Multiset.countP_pos

theorem count_pos_of_mem (member : item ∈ items) (chosen : select item = true) :
    0 < count select items :=
  count_pos.mpr ⟨item, member, chosen⟩

theorem Blind.settle (blind : Blind select) (settles : Operation → Option Result)
    (item : Item Task Operation Result Frame) : select (item.settle settles) = select item := by
  cases item with
  | queued => rfl
  | running => rfl
  | waiting operation result =>
      cases result with
      | none => exact blind operation (settles operation)
      | some => rfl

theorem Blind.count_settle (blind : Blind select) (settles : Operation → Option Result) :
    count select (items.map (Item.settle settles)) = count select items := by
  induction items using Multiset.induction_on with
  | empty => rfl
  | cons item items ih => simp [ih, blind.settle]

@[simp]
theorem settle_none : items.map (settle fun _ => none) = items := by
  have identity : settle (fun _ : Operation => (none : Option Result)) =
      (id : Item Task Operation Result Frame → _) := by
    funext item
    cases item with
    | queued => rfl
    | running => rfl
    | waiting operation result => cases result <;> rfl
  simp [identity]

end Count

end Item

namespace After

def running : After Operation Frame → Option Frame
  | run frame => some frame
  | finish | suspend _ => none

def items : After Operation Frame → Multiset (Item Task Operation Result Frame)
  | finish => 0
  | run frame => {.running frame}
  | suspend operation => {.waiting operation none}

variable {frame : Frame} {operation : Operation}

@[simp]
theorem items_finish :
    (finish : After Operation Frame).items = (0 : Multiset (Item Task Operation Result Frame)) :=
  rfl

@[simp]
theorem items_run : (run frame : After Operation Frame).items =
    ({.running frame} : Multiset (Item Task Operation Result Frame)) :=
  rfl

@[simp]
theorem items_suspend : (suspend operation : After Operation Frame).items =
    ({.waiting operation none} : Multiset (Item Task Operation Result Frame)) :=
  rfl

theorem running_eq_some {after : After Operation Frame} :
    after.running = some frame ↔ after = run frame := by
  cases after <;> simp [running]

private theorem queued_notMem_items {entry : Entry Task Operation Result}
    (after : After Operation Frame) :
    (.queued entry : Item Task Operation Result Frame) ∉ after.items := by
  cases after <;> simp

end After

namespace Segment

variable {segment : Segment State Task Operation Result Frame}
variable {item : Item Task Operation Result Frame}
variable {rest : Multiset (Item Task Operation Result Frame)}

def posted (segment : Segment State Task Operation Result Frame) :
    Multiset (Item Task Operation Result Frame) :=
  Multiset.ofList (segment.posts.map fun task => .queued (.task task))

/-- What is outstanding after a stretch of code, when `rest` was outstanding
beside it. -/
def outstanding (segment : Segment State Task Operation Result Frame)
    (rest : Multiset (Item Task Operation Result Frame)) :
    Multiset (Item Task Operation Result Frame) :=
  segment.after.items + segment.posted + rest.map (Item.settle segment.settles)

theorem mem_outstanding : item ∈ segment.outstanding rest ↔
    item ∈ segment.after.items ∨ (∃ task ∈ segment.posts, item = .queued (.task task)) ∨
      ∃ other ∈ rest, other.settle segment.settles = item := by
  simp only [outstanding, posted, Multiset.mem_add, Multiset.mem_coe, List.mem_map,
    Multiset.mem_map, or_assoc, eq_comm]

/-- The tasks in the queue are those that were there and those that are posted. -/
theorem queued_mem_outstanding {task : Task} :
    .queued (.task task) ∈ segment.outstanding rest ↔
      task ∈ segment.posts ∨ .queued (.task task) ∈ rest := by
  rw [mem_outstanding]
  constructor
  · rintro (produced | ⟨other, posted, same⟩ | ⟨other, old, same⟩)
    · exact absurd produced segment.after.queued_notMem_items
    · obtain rfl : task = other := by simpa using same
      exact .inl posted
    · cases other with
      | queued entry =>
          obtain rfl : entry = .task task := by simpa [Item.settle] using same
          exact .inr old
      | waiting operation result => cases result <;> simp [Item.settle] at same
      | running frame => simp [Item.settle] at same
  · rintro (posted | old)
    · exact .inr (.inl ⟨task, posted, rfl⟩)
    · exact .inr (.inr ⟨_, old, rfl⟩)

/-- The number of new items that a stretch of code adds to those that `select`
picks. -/
def yield (segment : Segment State Task Operation Result Frame)
    (select : Item Task Operation Result Frame → Bool) : Nat :=
  Item.count select segment.after.items +
    segment.posts.countP fun task => select (.queued (.task task))

theorem count_outstanding_settle {select : Item Task Operation Result Frame → Bool} :
    Item.count select (segment.outstanding rest) =
      segment.yield select + Item.count select (rest.map (Item.settle segment.settles)) := by
  have posts : Item.count select segment.posted =
      segment.posts.countP (fun task => select (.queued (.task task))) := by
    simp [Item.count, posted, List.countP_map, Function.comp_def]
  simp [outstanding, yield, posts]

theorem count_outstanding {select : Item Task Operation Result Frame → Bool}
    (blind : Item.Blind select) :
    Item.count select (segment.outstanding rest) =
      segment.yield select + Item.count select rest := by
  rw [count_outstanding_settle, blind.count_settle]

end Segment

namespace Strand

/-- The bag of everything outstanding. -/
def items (s : Strand State Task Operation Result Frame) :
    Multiset (Item Task Operation Result Frame) :=
  Multiset.ofList
    (s.queue.map .queued ++ s.outbox.map (fun task => .queued (.task task)) ++
      s.waiting.map (fun operation => .waiting operation.1 operation.2) ++
        s.current.toList.map .running)

/-- A waiting operation without a result gets the one that `settles` has. -/
def settle (settles : Operation → Option Result) :
    Operation × Option Result → Operation × Option Result
  | (operation, none) => (operation, settles operation)
  | (operation, some result) => (operation, some result)

def perform (s : Strand State Task Operation Result Frame)
    (segment : Segment State Task Operation Result Frame) :
    Strand State Task Operation Result Frame :=
  let settled := s.waiting.map (settle segment.settles)
  { state := segment.state
    queue := s.queue
    outbox := s.outbox ++ segment.posts
    waiting :=
      match segment.after with
      | .suspend operation => settled ++ [(operation, none)]
      | _ => settled
    current :=
      match segment.after with
      | .run frame => some frame
      | _ => none }

end Strand

namespace Move

def consumed : Move Task Operation Result Frame Choice Call →
    Multiset (Item Task Operation Result Frame)
  | .post _ => 0
  | .complete operation _ => {.waiting operation none}
  | .deliver operation result => {.waiting operation (some result)}
  | .begin _ entry => {.queued entry}
  | .act frame _ => {.running frame}

end Move

namespace Program

variable (program : Program State Task Operation Result Frame Choice Call)

def Enabled (s : Strand State Task Operation Result Frame) :
    StrandAction Task Result Choice Call → Prop
  | .post task => program.defined s.state ∧ program.mayPost task
  | .flush => program.defined s.state ∧ s.outbox ≠ []
  | .begin _ =>
      program.defined s.state ∧ s.outbox = [] ∧ s.current.isNone = true ∧ s.queue ≠ []
  | .complete index result =>
      program.defined s.state ∧
        match s.waiting[index]? with
        | some (operation, none) => program.mayComplete s.state operation result
        | _ => False
  | .deliver index =>
      program.defined s.state ∧ ((s.waiting[index]?).bind Prod.snd).isSome = true
  | .act _ => program.defined s.state ∧ s.outbox = [] ∧ s.current.isSome = true

instance [DecidablePred program.defined] [DecidablePred program.mayPost]
    [∀ state operation result, Decidable (program.mayComplete state operation result)]
    (s : Strand State Task Operation Result Frame) :
    ∀ action, Decidable (program.Enabled s action)
  | .post _ => inferInstanceAs (Decidable (_ ∧ _))
  | .flush =>
      have : Decidable (s.outbox ≠ []) := decidable_of_iff (s.outbox.isEmpty = false) (by simp)
      inferInstanceAs (Decidable (_ ∧ _))
  | .begin _ =>
      have : Decidable (s.outbox = []) := decidable_of_iff (s.outbox.isEmpty = true) (by simp)
      have : Decidable (s.queue ≠ []) := decidable_of_iff (s.queue.isEmpty = false) (by simp)
      inferInstanceAs (Decidable (_ ∧ _ ∧ _ ∧ _))
  | .complete index result =>
      have : Decidable (match s.waiting[index]? with
          | some (operation, none) => program.mayComplete s.state operation result
          | _ => False) :=
        match s.waiting[index]? with
        | some (operation, none) =>
            inferInstanceAs (Decidable (program.mayComplete s.state operation result))
        | some (_, some _) => inferInstanceAs (Decidable False)
        | none => inferInstanceAs (Decidable False)
      inferInstanceAs (Decidable (_ ∧ _))
  | .deliver _ => inferInstanceAs (Decidable (_ ∧ _))
  | .act _ =>
      have : Decidable (s.outbox = []) := decidable_of_iff (s.outbox.isEmpty = true) (by simp)
      inferInstanceAs (Decidable (_ ∧ _ ∧ _))

def step (s : Strand State Task Operation Result Frame) :
    StrandAction Task Result Choice Call → Strand State Task Operation Result Frame
  | .post task => { s with queue := s.queue ++ [.task task] }
  | .flush =>
      match s.outbox with
      | [] => s
      | task :: tasks => { s with queue := s.queue ++ [.task task], outbox := tasks }
  | .begin choice =>
      match s.queue with
      | [] => s
      | entry :: entries =>
          let others := { s with queue := entries }
          others.perform (program.begin choice s.state others.items entry)
  | .complete index result =>
      match s.waiting[index]? with
      | some (operation, _) =>
          { s with
            state := program.completed s.state operation result
            waiting := s.waiting.set index (operation, some result) }
      | none => s
  | .deliver index =>
      match s.waiting[index]? with
      | some (operation, some result) =>
          { s with
            queue := s.queue ++ [.resume operation result]
            waiting := s.waiting.eraseIdx index }
      | _ => s
  | .act call =>
      match s.current with
      | some frame => { s with current := none }.perform (program.act s.state frame call)
      | none => s

def system : ActionSystem (Strand State Task Operation Result Frame)
    (StrandAction Task Result Choice Call) where
  enabled := program.Enabled
  next := program.step

instance [DecidablePred program.defined] [DecidablePred program.mayPost]
    [∀ state operation result, Decidable (program.mayComplete state operation result)]
    (s : Strand State Task Operation Result Frame)
    (action : StrandAction Task Result Choice Call) :
    Decidable (program.system.enabled s action) :=
  inferInstanceAs (Decidable (program.Enabled s action))

/-! ### Bags of outstanding work -/

/-- The moves that the outside world or the program may make in a state. -/
def Allowed (state : State) : Move Task Operation Result Frame Choice Call → Prop
  | .post task => program.mayPost task
  | .complete operation result => program.mayComplete state operation result
  | .deliver .. | .begin .. | .act .. => True

/-- The state after a move beside which `rest` was outstanding. -/
def stateAfter (state : State) (rest : Multiset (Item Task Operation Result Frame)) :
    Move Task Operation Result Frame Choice Call → State
  | .post _ | .deliver .. => state
  | .complete operation result => program.completed state operation result
  | .begin choice entry => (program.begin choice state rest entry).state
  | .act frame call => (program.act state frame call).state

/-- What is outstanding after a move beside which `rest` was outstanding. -/
def itemsAfter (state : State) (rest : Multiset (Item Task Operation Result Frame)) :
    Move Task Operation Result Frame Choice Call → Multiset (Item Task Operation Result Frame)
  | .post task => .queued (.task task) ::ₘ rest
  | .complete operation result => .waiting operation (some result) ::ₘ rest
  | .deliver operation result => .queued (.resume operation result) ::ₘ rest
  | .begin choice entry => (program.begin choice state rest entry).outstanding rest
  | .act frame call => (program.act state frame call).outstanding rest

/-- The number of new items that a move adds to those that `select` picks. -/
def yield (select : Item Task Operation Result Frame → Bool) (state : State)
    (rest : Multiset (Item Task Operation Result Frame)) :
    Move Task Operation Result Frame Choice Call → Nat
  | .post task => (select (.queued (.task task))).toNat
  | .complete operation result => (select (.waiting operation (some result))).toNat
  | .deliver operation result => (select (.queued (.resume operation result))).toNat
  | .begin choice entry => (program.begin choice state rest entry).yield select
  | .act frame call => (program.act state frame call).yield select

theorem queued_after {state : State} {rest : Multiset (Item Task Operation Result Frame)}
    {move : Move Task Operation Result Frame Choice Call} {entry : Entry Task Operation Result}
    (queued : .queued entry ∈ move.consumed + rest) :
    (∃ choice, move = .begin choice entry) ∨
      .queued entry ∈ program.itemsAfter state rest move := by
  rcases Multiset.mem_add.mp queued with taken | kept
  · cases move with
    | begin choice other =>
        obtain rfl : entry = other := by simpa [Move.consumed] using taken
        exact .inl ⟨choice, rfl⟩
    | post | complete | deliver | act => simp [Move.consumed] at taken
  · right
    cases move with
    | post | complete | deliver => exact Multiset.mem_cons_of_mem kept
    | begin | act => exact Segment.mem_outstanding.mpr (.inr (.inr ⟨_, kept, rfl⟩))

end Program

namespace Strand

/-- The move that a step makes, with the work it does not take up.  A step that
only hands a posted task on makes none. -/
def effect (s : Strand State Task Operation Result Frame) :
    StrandAction Task Result Choice Call →
      Option (Move Task Operation Result Frame Choice Call ×
        Multiset (Item Task Operation Result Frame))
  | .post task => some (.post task, s.items)
  | .flush => none
  | .begin choice =>
      match s.queue with
      | [] => none
      | entry :: entries => some (.begin choice entry, { s with queue := entries }.items)
  | .complete index result =>
      match s.waiting[index]? with
      | some (operation, none) =>
          some (.complete operation result,
            { s with waiting := s.waiting.eraseIdx index }.items)
      | _ => none
  | .deliver index =>
      match s.waiting[index]? with
      | some (operation, some result) =>
          some (.deliver operation result, { s with waiting := s.waiting.eraseIdx index }.items)
      | _ => none
  | .act call =>
      match s.current with
      | some frame => some (.act frame call, { s with current := none }.items)
      | none => none

/-- A condition on moves, read as a condition on the steps of a strand. -/
def During (condition : State → Multiset (Item Task Operation Result Frame) →
      Move Task Operation Result Frame Choice Call → Prop)
    (s : Strand State Task Operation Result Frame)
    (action : StrandAction Task Result Choice Call) : Prop :=
  match s.effect action with
  | some (move, rest) => condition s.state rest move
  | none => True

instance (condition : State → Multiset (Item Task Operation Result Frame) →
      Move Task Operation Result Frame Choice Call → Prop)
    [∀ state rest move, Decidable (condition state rest move)]
    (s : Strand State Task Operation Result Frame)
    (action : StrandAction Task Result Choice Call) : Decidable (s.During condition action) :=
  match effect : s.effect action with
  | some (move, rest) =>
      decidable_of_iff (condition s.state rest move) (by simp [During, effect])
  | none => isTrue (by simp [During, effect])

/-- What an observer of moves sees in a step of a strand. -/
def observed {Event : Type*} (observe : State →
      Move Task Operation Result Frame Choice Call → List Event)
    (s : Strand State Task Operation Result Frame)
    (action : StrandAction Task Result Choice Call) : List Event :=
  match s.effect action with
  | some (move, _) => observe s.state move
  | none => []

variable {s : Strand State Task Operation Result Frame}
variable {segment : Segment State Task Operation Result Frame}
variable {program : Program State Task Operation Result Frame Choice Call}
variable {action : StrandAction Task Result Choice Call}

theorem items_eq (s : Strand State Task Operation Result Frame) :
    s.items =
      Multiset.ofList (s.queue.map .queued) +
        Multiset.ofList (s.outbox.map fun task => .queued (.task task)) +
          Multiset.ofList (s.waiting.map fun operation => .waiting operation.1 operation.2) +
            Multiset.ofList (s.current.toList.map .running) := by
  simp [items]

private theorem items_perform (idle : s.current = none) :
    (s.perform segment).items = segment.outstanding s.items := by
  have settled : (fun operation : Operation × Option Result =>
        (Item.waiting operation.1 operation.2 : Item Task Operation Result Frame)) ∘
          settle segment.settles =
      Item.settle segment.settles ∘ fun operation => Item.waiting operation.1 operation.2 := by
    funext ⟨operation, result⟩
    cases result <;> rfl
  have bag : segment.outstanding s.items =
      segment.after.items +
        Multiset.ofList (segment.posts.map fun task => Item.queued (.task task)) +
          (Multiset.ofList (s.queue.map Item.queued) +
            Multiset.ofList (s.outbox.map fun task => Item.queued (.task task)) +
              Multiset.ofList (s.waiting.map (Item.settle segment.settles ∘
                fun operation => Item.waiting operation.1 operation.2))) := by
    simp only [Segment.outstanding, Segment.posted, items_eq, idle, Multiset.map_add,
      Multiset.map_coe, List.map_map, Option.toList_none, List.map_nil, Multiset.coe_nil, add_zero]
    rfl
  rw [bag, ← settled, items_eq]
  cases ends : segment.after with
  | finish =>
      simp only [perform, ends, List.map_append, List.map_map, Option.toList_none, List.map_nil,
        After.items_finish, ← Multiset.coe_add, Multiset.coe_nil, add_zero, zero_add]
      ac_rfl
  | run frame =>
      simp only [perform, ends, List.map_append, List.map_map, Option.toList_some, List.map_cons,
        List.map_nil, After.items_run, ← Multiset.coe_add, Multiset.coe_singleton]
      ac_rfl
  | suspend operation =>
      simp only [perform, ends, List.map_append, List.map_map, Option.toList_none, List.map_cons,
        List.map_nil, After.items_suspend, ← Multiset.coe_add, Multiset.coe_nil,
        Multiset.coe_singleton, add_zero]
      ac_rfl

/-- What a waiting operation leaves behind in the bag, and what it becomes there
when its result is replaced. -/
theorem items_waiting {index : Nat} {operation : Operation} {result : Option Result}
    (found : s.waiting[index]? = some (operation, result)) (answer : Option Result) :
    s.items = .waiting operation result ::ₘ { s with waiting := s.waiting.eraseIdx index }.items ∧
      { s with waiting := s.waiting.set index (operation, answer) }.items =
        .waiting operation answer ::ₘ
          { s with waiting := s.waiting.eraseIdx index }.items := by
  obtain ⟨inside, here⟩ := List.getElem?_eq_some_iff.mp found
  have before : List.Perm s.waiting ((operation, result) :: s.waiting.eraseIdx index) := by
    rw [← here]
    exact (List.getElem_cons_eraseIdx_perm inside).symm
  have after := List.set_perm_cons_eraseIdx inside (operation, answer)
  simp only [items_eq, ← Multiset.singleton_add]
  constructor
  · rw [Multiset.coe_eq_coe.mpr (before.map _), List.map_cons, ← Multiset.cons_coe,
      ← Multiset.singleton_add]
    ac_rfl
  · rw [Multiset.coe_eq_coe.mpr (after.map _), List.map_cons, ← Multiset.cons_coe,
      ← Multiset.singleton_add]
    ac_rfl

/-- Each step of a strand makes the move that `effect` names, or none. -/
theorem step_simulates (enabled : program.Enabled s action) :
    match s.effect action with
    | some (move, rest) =>
        program.Allowed s.state move ∧ s.items = move.consumed + rest ∧
          (program.step s action).state = program.stateAfter s.state rest move ∧
            (program.step s action).items = program.itemsAfter s.state rest move
    | none =>
        (program.step s action).state = s.state ∧ (program.step s action).items = s.items := by
  cases action with
  | post task =>
      refine ⟨enabled.2, (zero_add _).symm, rfl, ?_⟩
      simp only [Program.step, Program.itemsAfter, items_eq, List.map_append, List.map_cons,
        List.map_nil, ← Multiset.coe_add, Multiset.coe_singleton, ← Multiset.singleton_add]
      ac_rfl
  | flush =>
      cases tasks : s.outbox with
      | nil => simp [effect, Program.step, tasks]
      | cons task rest =>
          simp only [effect, Program.step, tasks, true_and, items_eq, List.map_append,
            List.map_cons, List.map_nil, ← Multiset.coe_add, ← Multiset.cons_coe,
            ← Multiset.singleton_add]
          ac_rfl
  | begin choice =>
      have idle : s.current = none := Option.isNone_iff_eq_none.mp enabled.2.2.1
      cases entries : s.queue with
      | nil => exact absurd entries enabled.2.2.2
      | cons entry rest =>
          simp only [effect, Program.step, entries]
          refine ⟨trivial, ?_, rfl, items_perform idle⟩
          simp only [Move.consumed, items_eq, entries, List.map_cons, ← Multiset.cons_coe,
            ← Multiset.singleton_add]
          ac_rfl
  | complete index result =>
      obtain ⟨-, possible⟩ := enabled
      cases found : s.waiting[index]? with
      | none => simp [found] at possible
      | some pair =>
          obtain ⟨operation, answer⟩ := pair
          cases answer with
          | some => simp [found] at possible
          | none =>
              simp only [found] at possible
              simp only [effect, Program.step, found]
              obtain ⟨before, after⟩ := items_waiting found (some result)
              exact ⟨possible, before.trans (Multiset.singleton_add _ _).symm, rfl, after⟩
  | deliver index =>
      obtain ⟨-, possible⟩ := enabled
      cases found : s.waiting[index]? with
      | none => simp [found] at possible
      | some pair =>
          obtain ⟨operation, answer⟩ := pair
          cases answer with
          | none => simp [found] at possible
          | some result =>
              simp only [effect, Program.step, found]
              obtain ⟨before, -⟩ := items_waiting found none
              refine ⟨trivial, before.trans (Multiset.singleton_add _ _).symm, rfl, ?_⟩
              simp only [Program.itemsAfter, items_eq, List.map_append, List.map_cons,
                List.map_nil, ← Multiset.coe_add, Multiset.coe_singleton,
                ← Multiset.singleton_add]
              ac_rfl
  | act call =>
      obtain ⟨frame, busy⟩ := Option.isSome_iff_exists.mp enabled.2.2
      simp only [effect, Program.step, busy]
      refine ⟨trivial, ?_, rfl, items_perform rfl⟩
      simp only [Move.consumed, items_eq, busy, Option.toList_some, Option.toList_none,
        List.map_cons, List.map_nil, Multiset.coe_singleton, Multiset.coe_nil, add_zero]
      ac_rfl

end Strand

/-! ### The order of the queue -/

section Pick

variable {Picked : Type*} {select : Task → Option Picked}

@[simp]
theorem Entry.pick_task {posted : Task} :
    (.task posted : Entry Task Operation Result).pick select = select posted :=
  rfl

@[simp]
theorem Entry.pick_resume {operation : Operation} {result : Result} :
    (.resume operation result : Entry Task Operation Result).pick select = none :=
  rfl

end Pick

def Program.posts (program : Program State Task Operation Result Frame Choice Call)
    (state : State) (rest : Multiset (Item Task Operation Result Frame)) :
    Move Task Operation Result Frame Choice Call → List Task
  | .post _ | .complete .. | .deliver .. => []
  | .begin choice entry => (program.begin choice state rest entry).posts
  | .act frame call => (program.act state frame call).posts

/-- A task in the queue has been there before, or has been posted by the program or
from outside. -/
theorem Program.queued_itemsAfter
    {program : Program State Task Operation Result Frame Choice Call} {state : State}
    {rest : Multiset (Item Task Operation Result Frame)}
    {move : Move Task Operation Result Frame Choice Call} {task : Task}
    (queued : .queued (.task task) ∈ program.itemsAfter state rest move) :
    move = .post task ∨ task ∈ program.posts state rest move ∨ .queued (.task task) ∈ rest := by
  cases move with
  | post other =>
      rcases Multiset.mem_cons.mp queued with same | old
      · obtain rfl : task = other := by simpa using same
        exact .inl rfl
      · exact .inr (.inr old)
  | complete | deliver =>
      rcases Multiset.mem_cons.mp queued with same | old
      · simp at same
      · exact .inr (.inr old)
  | begin | act => exact .inr (Segment.queued_mem_outstanding.mp queued)

/-- The item is a task in the queue that `choose` picks. -/
def Item.isTask (choose : Task → Bool) : Item Task Operation Result Frame → Bool
  | .queued (.task task) => choose task
  | .queued (.resume ..) | .waiting .. | .running _ => false

theorem Item.blind_isTask (choose : Task → Bool) :
    Item.Blind (isTask choose : Item Task Operation Result Frame → Bool) :=
  fun _ _ => rfl

/-- The tasks in the queue after a move: those that were there beside it and those
that the program has posted. -/
theorem Program.count_isTask {program : Program State Task Operation Result Frame Choice Call}
    {state : State} {rest : Multiset (Item Task Operation Result Frame)}
    {move : Move Task Operation Result Frame Choice Call} {choose : Task → Bool}
    (outside : ∀ task, move = .post task → choose task = false) :
    Item.count (Item.isTask choose) (program.itemsAfter state rest move) =
      (program.posts state rest move).countP choose + Item.count (Item.isTask choose) rest := by
  have performed (segment : Segment State Task Operation Result Frame) :
      Item.count (Item.isTask choose) (segment.outstanding rest) =
        segment.posts.countP choose + Item.count (Item.isTask choose) rest := by
    rw [Segment.count_outstanding (Item.blind_isTask choose), Segment.yield]
    cases segment.after <;> simp [Item.isTask]
  cases move with
  | post task => simp [Program.itemsAfter, Program.posts, Item.isTask, outside task rfl]
  | complete | deliver => simp [Program.itemsAfter, Program.posts, Item.isTask]
  | begin choice entry => exact performed _
  | act frame call => exact performed _

namespace Strand

/-- The entries of the queue, those included that are still in the outbox. -/
def pending (s : Strand State Task Operation Result Frame) :
    List (Entry Task Operation Result) :=
  s.queue ++ s.outbox.map .task

section Order

variable {program : Program State Task Operation Result Frame Choice Call}
variable {s : Strand State Task Operation Result Frame}
variable {action : StrandAction Task Result Choice Call}
variable {entry : Entry Task Operation Result}
variable {precedes : Entry Task Operation Result → Entry Task Operation Result → Prop}

theorem queued_mem_items : .queued entry ∈ s.items ↔ entry ∈ s.pending := by
  simp only [items, pending, Multiset.mem_coe, List.mem_append, List.mem_map]
  constructor
  · rintro (((⟨other, queued, same⟩ | ⟨task, posted, same⟩) | ⟨_, -, same⟩) | ⟨_, -, same⟩)
    · exact .inl (Item.queued.inj same ▸ queued)
    · exact .inr ⟨task, posted, Item.queued.inj same⟩
    · simp at same
    · simp at same
  · rintro (queued | ⟨task, posted, rfl⟩)
    · exact .inl (.inl (.inl ⟨entry, queued, rfl⟩))
    · exact .inl (.inl (.inr ⟨task, posted, rfl⟩))

theorem queue_of_begin {choice : Choice} {rest : Multiset (Item Task Operation Result Frame)}
    (begins : s.effect action =
      some ((.begin choice entry : Move Task Operation Result Frame Choice Call), rest)) :
    ∃ entries, s.queue = entry :: entries := by
  cases action with
  | begin choice' =>
      cases entries : s.queue with
      | nil => simp [effect, entries] at begins
      | cons head tail =>
          simp only [effect, entries, Option.some.injEq, Prod.mk.injEq, Move.begin.injEq] at begins
          exact ⟨tail, by rw [begins.1.2]⟩
  | post | flush => simp [effect] at begins
  | complete index result =>
      simp only [effect] at begins
      split at begins <;> simp at begins
  | deliver index =>
      simp only [effect] at begins
      split at begins <;> simp at begins
  | act call =>
      simp only [effect] at begins
      split at begins <;> simp at begins

private theorem perform_current {segment : Segment State Task Operation Result Frame} :
    (s.perform segment).current = segment.after.running := by
  cases after : segment.after <;> simp [perform, after, After.running]

/-- The running code changes only when an entry begins or the code makes a
call. -/
theorem current_step (enabled : program.Enabled s action) :
    match s.effect action with
    | some (.begin choice entry, rest) =>
        s.current = none ∧ (program.step s action).current =
          (program.begin choice s.state rest entry).after.running
    | some (.act frame call, _) =>
        s.current = some frame ∧ (program.step s action).current =
          (program.act s.state frame call).after.running
    | _ => (program.step s action).current = s.current := by
  cases action with
  | post task => rfl
  | flush =>
      cases tasks : s.outbox <;> simp [effect, Program.step, tasks]
  | begin choice =>
      have idle : s.current = none := Option.isNone_iff_eq_none.mp enabled.2.2.1
      cases entries : s.queue with
      | nil => exact absurd entries enabled.2.2.2
      | cons entry rest =>
          simp only [effect, Program.step, entries]
          exact ⟨idle, perform_current⟩
  | complete index result =>
      cases found : s.waiting[index]? with
      | none => simp [effect, Program.step, found]
      | some pair =>
          obtain ⟨operation, answer⟩ := pair
          cases answer <;> simp [effect, Program.step, found]
  | deliver index =>
      cases found : s.waiting[index]? with
      | none => simp [effect, Program.step, found]
      | some pair =>
          obtain ⟨operation, answer⟩ := pair
          cases answer <;> simp [effect, Program.step, found]
  | act call =>
      obtain ⟨frame, busy⟩ := Option.isSome_iff_exists.mp enabled.2.2
      simp only [effect, Program.step, busy]
      exact ⟨trivial, perform_current⟩

private theorem pairwise_insert {before after : List (Entry Task Operation Result)}
    (ordered : (before ++ after).Pairwise precedes)
    (left : ∀ other ∈ before, precedes other entry)
    (right : ∀ other ∈ after, precedes entry other) :
    ((before ++ [entry]) ++ after).Pairwise precedes := by
  obtain ⟨first, second, across⟩ := List.pairwise_append.mp ordered
  rw [List.append_assoc, List.pairwise_append]
  refine ⟨first, List.pairwise_cons.mpr ⟨right, second⟩, fun other member => ?_⟩
  intro later member'
  rcases List.mem_cons.mp member' with rfl | old
  · exact left other member
  · exact across other member later old

/-- An order of the queue that the arrival of results and of tasks from outside
cannot disturb, and that the tasks of a move respect, is kept by a step. -/
theorem ordered_step (ordered : s.pending.Pairwise precedes) (enabled : program.Enabled s action)
    (outside : ∀ task other, program.mayPost task →
      precedes other (.task task) ∧ precedes (.task task) other)
    (resumed : ∀ operation result other,
      precedes other (.resume operation result) ∧ precedes (.resume operation result) other)
    (posted : s.During (fun state rest move =>
      ((program.posts state rest move).map Entry.task).Pairwise precedes ∧
        ∀ task ∈ program.posts state rest move, ∀ entry, .queued entry ∈ rest →
          precedes entry (.task task)) action) :
    (program.step s action).pending.Pairwise precedes := by
  have stretch {entries : List (Entry Task Operation Result)} {posts : List Task}
      (kept : entries.Pairwise precedes) (sorted : (posts.map Entry.task).Pairwise precedes)
      (behind : ∀ task ∈ posts, ∀ entry ∈ entries, precedes entry (.task task)) :
      (entries ++ posts.map Entry.task).Pairwise precedes := by
    refine List.pairwise_append.mpr ⟨kept, sorted, fun entry member later arrived => ?_⟩
    obtain ⟨task, new, rfl⟩ := List.mem_map.mp arrived
    exact behind task new entry member
  unfold During at posted
  cases action with
  | post task =>
      exact pairwise_insert ordered (fun other _ => (outside task other enabled.2).1)
        fun other _ => (outside task other enabled.2).2
  | flush =>
      cases tasks : s.outbox with
      | nil => simpa [Program.step, tasks] using ordered
      | cons task rest => simpa [pending, Program.step, tasks] using ordered
  | begin choice =>
      cases entries : s.queue with
      | nil => exact absurd entries enabled.2.2.2
      | cons entry rest =>
          simp only [effect, entries, enabled.2.1, Program.posts] at posted
          simp only [pending, entries, enabled.2.1, List.map_nil, List.append_nil] at ordered
          simp only [pending, Program.step, entries, perform, enabled.2.1, List.nil_append]
          refine stretch (List.pairwise_cons.mp ordered).2 posted.1 fun task new other member => ?_
          exact posted.2 task new other
            (queued_mem_items.mpr (List.mem_append_left _ member))
  | complete index result =>
      cases found : s.waiting[index]? with
      | none => simpa [Program.step, found] using ordered
      | some pair => simpa [pending, Program.step, found] using ordered
  | deliver index =>
      cases found : s.waiting[index]? with
      | none => simpa [Program.step, found] using ordered
      | some pair =>
          obtain ⟨operation, answer⟩ := pair
          cases answer with
          | none => simpa [Program.step, found] using ordered
          | some result =>
              simp only [pending, Program.step, found]
              exact pairwise_insert ordered (fun other _ => (resumed operation result other).1)
                fun other _ => (resumed operation result other).2
  | act call =>
      cases busy : s.current with
      | none => simpa [Program.step, busy] using ordered
      | some frame =>
          simp only [effect, busy, Program.posts] at posted
          simp only [pending, enabled.2.1, List.map_nil, List.append_nil] at ordered
          simp only [pending, Program.step, busy, perform, enabled.2.1, List.nil_append]
          refine stretch ordered posted.1 fun task new other member => ?_
          exact posted.2 task new other
            (queued_mem_items.mpr (List.mem_append_left _ member))

/-- What `select` makes of the tasks of the queue, in their order. -/
def selected {Picked : Type*} (select : Task → Option Picked)
    (s : Strand State Task Operation Result Frame) : List Picked :=
  s.pending.filterMap (Entry.pick select)

/-- What `select` makes of the task that begins in a move. -/
def taken {Picked : Type*} (select : Task → Option Picked) :
    Move Task Operation Result Frame Choice Call → Option Picked
  | .begin _ entry => entry.pick select
  | .post _ | .complete .. | .deliver .. | .act .. => none

/-- The selected tasks form a queue of their own: a move takes the first of them
when it begins one, and appends those that it posts. -/
theorem selected_step {Picked : Type*} (select : Task → Option Picked)
    (enabled : program.Enabled s action)
    (outside : ∀ task, program.mayPost task → select task = none) :
    match s.effect action with
    | some (move, rest) =>
        ∃ others, s.selected select = (taken select move).toList ++ others ∧
          (program.step s action).selected select =
            others ++ (program.posts s.state rest move).filterMap select
    | none => (program.step s action).selected select = s.selected select := by
  have tasks (posts : List Task) :
      (posts.map fun task => (.task task : Entry Task Operation Result)).filterMap
        (Entry.pick select) = posts.filterMap select := by
    rw [List.filterMap_map]
    rfl
  cases action with
  | post task =>
      refine ⟨s.selected select, rfl, ?_⟩
      simp [selected, pending, Program.step, Program.posts, outside task enabled.2]
  | flush =>
      cases posted : s.outbox with
      | nil => simp [effect, Program.step, posted]
      | cons task rest => simp [effect, selected, pending, Program.step, posted]
  | begin choice =>
      cases entries : s.queue with
      | nil => exact absurd entries enabled.2.2.2
      | cons entry rest =>
          simp only [effect, entries]
          refine ⟨rest.filterMap (Entry.pick select), ?_, ?_⟩
          · simp only [selected, pending, entries, enabled.2.1, List.map_nil, List.append_nil,
              List.filterMap_cons, taken]
            cases entry.pick select <;> rfl
          · simp only [selected, pending, Program.step, entries, perform, enabled.2.1,
              List.nil_append, List.filterMap_append, tasks, Program.posts]
  | complete index result =>
      cases found : s.waiting[index]? with
      | none => simp [effect, Program.step, found]
      | some pair =>
          obtain ⟨operation, answer⟩ := pair
          cases answer with
          | none => simp [effect, taken, selected, pending, Program.step, Program.posts, found]
          | some => simp [effect, selected, pending, Program.step, found]
  | deliver index =>
      cases found : s.waiting[index]? with
      | none => simp [effect, Program.step, found]
      | some pair =>
          obtain ⟨operation, answer⟩ := pair
          cases answer with
          | none => simp [effect, Program.step, found]
          | some result =>
              simp [effect, taken, selected, pending, Program.step, Program.posts, found,
                List.filterMap_cons]
  | act call =>
      obtain ⟨frame, busy⟩ := Option.isSome_iff_exists.mp enabled.2.2
      simp only [effect, busy]
      refine ⟨s.selected select, rfl, ?_⟩
      simp only [selected, pending, Program.step, busy, perform, enabled.2.1, List.nil_append,
        List.map_nil, List.append_nil, List.filterMap_append, tasks, Program.posts]

end Order

end Strand

/-! ### Invariants of the bag -/

section Rules

variable {program : Program State Task Operation Result Frame Choice Call}
variable {invariant property : State → Multiset (Item Task Operation Result Frame) → Prop}
variable {assumed condition : State → Multiset (Item Task Operation Result Frame) →
  Move Task Operation Result Frame Choice Call → Prop}

/-- `invariant` survives every move that meets `condition`. -/
def Program.Preserves (program : Program State Task Operation Result Frame Choice Call)
    (invariant : State → Multiset (Item Task Operation Result Frame) → Prop)
    (condition : State → Multiset (Item Task Operation Result Frame) →
      Move Task Operation Result Frame Choice Call → Prop) : Prop :=
  ∀ state rest move, invariant state (move.consumed + rest) → program.Allowed state move →
    condition state rest move →
      invariant (program.stateAfter state rest move) (program.itemsAfter state rest move)

theorem Strand.bag_step (preserved : program.Preserves invariant condition)
    (s : Strand State Task Operation Result Frame)
    (action : StrandAction Task Result Choice Call) (bag : invariant s.state s.items)
    (enabled : program.Enabled s action) (met : s.During condition action) :
    invariant (program.step s action).state (program.step s action).items := by
  have simulated := Strand.step_simulates enabled
  unfold Strand.During at met
  cases effect : s.effect action with
  | none =>
      rw [effect] at simulated
      rwa [simulated.1, simulated.2]
  | some made =>
      obtain ⟨move, rest⟩ := made
      rw [effect] at simulated met
      obtain ⟨allowed, before, state, items⟩ := simulated
      rw [state, items]
      exact preserved s.state rest move (before ▸ bag) allowed met

theorem Strand.During.and {s : Strand State Task Operation Result Frame}
    {action : StrandAction Task Result Choice Call} (given : s.During assumed action)
    (met : s.During condition action) :
    s.During (fun state rest move => assumed state rest move ∧ condition state rest move)
      action := by
  unfold Strand.During at *
  cases effect : s.effect action with
  | none => trivial
  | some made =>
      rw [effect] at given met
      exact ⟨given, met⟩

variable {s : Strand State Task Operation Result Frame}
variable {actions : List (StrandAction Task Result Choice Call)}

theorem Strand.everyStep_of_forall (always : ∀ state rest move, condition state rest move) :
    program.system.EveryStep (Strand.During condition) s actions := by
  refine ActionSystem.everyStep_of_forall fun s action => ?_
  unfold Strand.During
  cases effect : s.effect action with
  | none => trivial
  | some made => exact always s.state made.2 made.1

/-- An invariant of the bag holds in every state of a run of the strand whose
moves meet `condition`. -/
theorem Strand.everyState_of_bag (preserved : program.Preserves invariant condition)
    (initially : invariant s.state s.items) (legal : program.system.Legal s actions)
    (steps : program.system.EveryStep (Strand.During condition) s actions) :
    program.system.EveryState (fun s => invariant s.state s.items) s actions :=
  ActionSystem.everyState_of_invariant (Strand.bag_step preserved) initially legal steps

/-- An invariant that relates the bag to what an observer of the moves has seen
holds in every state of a recorded run. -/
theorem Strand.everyState_of_record {Event : Type*}
    {observe : State → Move Task Operation Result Frame Choice Call → List Event}
    {relates : List Event → State → Multiset (Item Task Operation Result Frame) → Prop}
    {during : List Event → State → Multiset (Item Task Operation Result Frame) →
      Move Task Operation Result Frame Choice Call → Prop}
    (preserved : ∀ seen state rest move, relates seen state (move.consumed + rest) →
      program.Allowed state move → during seen state rest move →
        relates (seen ++ observe state move) (program.stateAfter state rest move)
          (program.itemsAfter state rest move))
    (initially : relates [] s.state s.items)
    (legal : (program.system.recorded (Strand.observed observe)).Legal (s, []) actions)
    (steps : (program.system.recorded (Strand.observed observe)).EveryStep
      (fun s => s.1.During (during s.2)) (s, []) actions) :
    (program.system.recorded (Strand.observed observe)).EveryState
      (fun s => relates s.2 s.1.state s.1.items) (s, []) actions := by
  refine ActionSystem.everyState_of_invariant ?_ initially legal steps
  intro s action related enabled met
  have simulated := Strand.step_simulates enabled
  unfold Strand.During at met
  simp only [ActionSystem.recorded, Strand.observed]
  cases effect : s.1.effect action with
  | none =>
      rw [effect] at simulated
      simpa [Program.system, simulated.1, simulated.2] using related
  | some made =>
      obtain ⟨move, rest⟩ := made
      rw [effect] at simulated met
      obtain ⟨allowed, before, state, items⟩ := simulated
      simp only [Program.system, state, items]
      exact preserved s.2 s.1.state rest move (before ▸ related) allowed met

theorem Program.defined_of_enabled {action : StrandAction Task Result Choice Call}
    (enabled : program.Enabled s action) : program.defined s.state := by
  cases action with
  | post | flush | begin | complete | deliver | act => exact enabled.1

/-- In recorded runs, a property of every state and a consequence of every move
hold exactly when all moves meet `condition`, if a relation between record and bag
that these moves preserve implies both, and every other move breaks one of them. -/
theorem Strand.recorded_iff {Event : Type*}
    {observe : State → Move Task Operation Result Frame Choice Call → List Event}
    {relates : List Event → State → Multiset (Item Task Operation Result Frame) → Prop}
    {kept : List Event → State → Prop}
    {met made : List Event → State → Multiset (Item Task Operation Result Frame) →
      Move Task Operation Result Frame Choice Call → Prop}
    (holds : ∀ seen state items, relates seen state items → kept seen state)
    (preserved : ∀ seen state rest move, relates seen state (move.consumed + rest) →
      program.defined state → program.Allowed state move → met seen state rest move →
        relates (seen ++ observe state move) (program.stateAfter state rest move)
          (program.itemsAfter state rest move))
    (consequent : ∀ seen state rest move, relates seen state (move.consumed + rest) →
      met seen state rest move → made seen state rest move)
    (broken : ∀ seen state rest move, relates seen state (move.consumed + rest) →
      ¬ met seen state rest move → made seen state rest move →
        ¬ kept (seen ++ observe state move) (program.stateAfter state rest move))
    (initially : relates [] s.state s.items)
    (legal : (program.system.recorded (Strand.observed observe)).Legal (s, []) actions) :
    (program.system.recorded (Strand.observed observe)).EveryStep
          (fun s => s.1.During (made s.2)) (s, []) actions ∧
        (program.system.recorded (Strand.observed observe)).EveryState
          (fun s => kept s.2 s.1.state) (s, []) actions ↔
      (program.system.recorded (Strand.observed observe)).EveryStep
        (fun s => s.1.During (met s.2)) (s, []) actions := by
  refine ActionSystem.everyStep_and_everyState_iff
    (fun s related => holds s.2 s.1.state s.1.items related) ?_ ?_ ?_ initially legal
  · intro s action related enabled condition
    have simulated := Strand.step_simulates enabled
    unfold Strand.During at condition
    simp only [ActionSystem.recorded, Strand.observed]
    cases effect : s.1.effect action with
    | none =>
        rw [effect] at simulated
        simpa [Program.system, simulated.1, simulated.2] using related
    | some move =>
        rw [effect] at simulated condition
        obtain ⟨allowed, before, state, items⟩ := simulated
        simp only [Program.system, state, items]
        exact preserved s.2 s.1.state move.2 move.1 (before ▸ related)
          (Program.defined_of_enabled enabled) allowed condition
  · intro s action related enabled condition
    have simulated := Strand.step_simulates enabled
    unfold Strand.During at condition ⊢
    cases effect : s.1.effect action with
    | none => trivial
    | some move =>
        rw [effect] at simulated condition
        exact consequent s.2 s.1.state move.2 move.1 (simulated.2.1 ▸ related) condition
  · intro s action related enabled missed consequence
    have simulated := Strand.step_simulates enabled
    unfold Strand.During at missed consequence
    simp only [ActionSystem.recorded, Strand.observed]
    cases effect : s.1.effect action with
    | none => simp [effect] at missed
    | some move =>
        rw [effect] at simulated missed consequence
        obtain ⟨-, before, state, -⟩ := simulated
        simp only [Program.system, state]
        exact broken s.2 s.1.state move.2 move.1 (before ▸ related) missed consequence

/-- What an invariant of the bag makes true of the moves made under it is true
of every step of a run. -/
theorem Strand.everyStep_of_bag {consequence : State →
      Multiset (Item Task Operation Result Frame) →
        Move Task Operation Result Frame Choice Call → Prop}
    (preserved : program.Preserves invariant condition)
    (consequent : ∀ state rest move, invariant state (move.consumed + rest) →
      condition state rest move → consequence state rest move)
    (initially : invariant s.state s.items) (legal : program.system.Legal s actions)
    (steps : program.system.EveryStep (Strand.During condition) s actions) :
    program.system.EveryStep (Strand.During consequence) s actions := by
  refine ActionSystem.everyStep_of_invariant (Strand.bag_step preserved) ?_ initially legal steps
  intro s action bag enabled met
  have simulated := Strand.step_simulates enabled
  unfold Strand.During at met ⊢
  cases effect : s.effect action with
  | none => trivial
  | some made =>
      obtain ⟨move, rest⟩ := made
      rw [effect] at simulated met
      exact consequent s.state rest move (simulated.2.1 ▸ bag) met

/-- When the moves that meet `condition` preserve an invariant that implies
`property`, and every other move destroys `property`, a run has `property`
throughout exactly when all its moves meet `condition`. -/
theorem Strand.everyState_iff_bag
    (holds : ∀ state items, invariant state items → property state items)
    (preserved : program.Preserves invariant fun state rest move =>
      assumed state rest move ∧ condition state rest move)
    (broken : ∀ state rest move, invariant state (move.consumed + rest) →
      program.Allowed state move → assumed state rest move → ¬ condition state rest move →
        ¬ property (program.stateAfter state rest move) (program.itemsAfter state rest move))
    (initially : invariant s.state s.items) (legal : program.system.Legal s actions)
    (assumption : program.system.EveryStep (Strand.During assumed) s actions) :
    program.system.EveryState (fun s => property s.state s.items) s actions ↔
      program.system.EveryStep (Strand.During condition) s actions := by
  refine ActionSystem.everyState_iff_everyStep (fun s bag => holds s.state s.items bag) ?_ ?_
    initially legal assumption
  · intro s action bag enabled given met
    exact Strand.bag_step preserved s action bag enabled (given.and met)
  · intro s action bag enabled given missed
    have simulated := Strand.step_simulates enabled
    unfold Strand.During at given missed
    cases effect : s.effect action with
    | none => simp [effect] at missed
    | some made =>
        obtain ⟨move, rest⟩ := made
        rw [effect] at simulated given missed
        obtain ⟨allowed, before, state, items⟩ := simulated
        rw [show program.system.next s action = program.step s action from rfl, state, items]
        exact broken s.state rest move (before ▸ bag) allowed given missed

theorem Strand.everyState_iff_moves
    (holds : ∀ state items, invariant state items → property state items)
    (preserved : program.Preserves invariant condition)
    (broken : ∀ state rest move, invariant state (move.consumed + rest) →
      program.Allowed state move → ¬ condition state rest move →
        ¬ property (program.stateAfter state rest move) (program.itemsAfter state rest move))
    (initially : invariant s.state s.items) (legal : program.system.Legal s actions) :
    program.system.EveryState (fun s => property s.state s.items) s actions ↔
      program.system.EveryStep (Strand.During condition) s actions := by
  have anything : program.system.EveryStep (Strand.During fun _ _ _ => True) s actions :=
    Strand.everyStep_of_forall fun _ _ _ => trivial
  exact Strand.everyState_iff_bag holds
    (fun state rest move bag allowed met => preserved state rest move bag allowed met.2)
    (fun state rest move bag allowed _ missed => broken state rest move bag allowed missed)
    initially legal anything

end Rules

end FlatAsync

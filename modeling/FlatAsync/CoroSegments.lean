import FlatAsync.CoroHelper

/-!
# Bodies in segments

The body of a coroutine is a sequence of segments with a call of the free
function `Yield` between them.  Calls of `Start` and `Resume` from outside all
coroutines leave a stale pointer behind in the thread, but each of them sets the
pointer again before a segment runs.

This file executes bodies on top of the coroutines of a thread and shows which
segment each call runs.
-/

namespace FlatAsync

/-- A body has at least the segment up to its first `Yield`. -/
structure CoroBody (α : Type*) where
  first : α
  later : List α
  deriving DecidableEq, Repr

inductive TopCall (α : Type*)
  | start (coro : CoroId) (body : CoroBody α)
  | resume (coro : CoroId)
  deriving DecidableEq, Repr

def TopCall.isStart {α : Type*} (c : CoroId) : TopCall α → Bool
  | .start other _ => other = c
  | .resume _ => false

def TopCall.isResume {α : Type*} (c : CoroId) : TopCall α → Bool
  | .start _ _ => false
  | .resume other => other = c

/-- `CoroHelper::operator bool` -/
def CoroState.operatorBool (s : CoroState) (c : CoroId) : Bool :=
  match s.coros c with
  | .suspended | .active true => true
  | .empty | .active false | .finished | .destroyed => false

/-- The coroutines with the segments that are left on their stacks, and a record
of the segments that have run. -/
structure SegmentState (α : Type*) where
  helpers : CoroState := {}
  frames : CoroId → List α := fun _ => []
  ran : List (CoroId × α) := []

namespace SegmentState

variable {α : Type*}

/-- Thread `t` runs the next segment of the body whose stack it is on, up to the
`Yield` behind it or to the end. -/
def runBody (m : SegmentState α) (t : Nat) : SegmentState α :=
  match (m.helpers.threads t).stack with
  | [] => m
  | call :: _ =>
      match m.frames call.coro with
      | [] => { m with helpers := m.helpers.finish t }
      | segment :: rest =>
          { helpers := if rest = [] then m.helpers.finish t else m.helpers.yield t
            frames := Function.update m.frames call.coro rest
            ran := m.ran ++ [(call.coro, segment)] }

/-- `CoroHelper::Start` with a suspended coroutine to unwind, or without. -/
def start (m : SegmentState α) (t : Nat) (c : CoroId) (body : CoroBody α) : SegmentState α :=
  let entered := m.helpers.start t c
  runBody
    { m with
      helpers := if entered.kind t = some .restart then entered.unwound t else entered
      frames := Function.update m.frames c (body.first :: body.later) } t

/-- `CoroHelper::Resume` -/
def resume (m : SegmentState α) (t : Nat) (c : CoroId) : SegmentState α :=
  if m.helpers.operatorBool c then
    runBody { m with helpers := m.helpers.resume t c } t
  else
    m

def call (m : SegmentState α) (t : Nat) : TopCall α → SegmentState α
  | .start c body => m.start t c body
  | .resume c => m.resume t c

end SegmentState

/-- Any sequence of calls on any number of objects, made by thread `t`. -/
def segmentSystem (α : Type*) (t : Nat) : ActionSystem (SegmentState α) (TopCall α) where
  enabled _ _ := True
  next m := m.call t

/-! ### One call -/

/-- The thread is outside all coroutines, and those with segments left are
suspended. -/
structure AtTopLevel {α : Type*} (t : Nat) (m : SegmentState α) : Prop where
  outside : (m.helpers.threads t).stack = []
  defined : m.helpers.undefined = false
  suspended : ∀ c, m.helpers.coros c = .suspended ↔ m.frames c ≠ []
  settled : ∀ c, m.helpers.coros c = .suspended ∨ m.helpers.coros c = .empty ∨
    m.helpers.coros c = .finished

namespace AtTopLevel

variable {α : Type*} {t : Nat} {m : SegmentState α} {c : CoroId} {body : CoroBody α}

theorem initial : AtTopLevel t ({} : SegmentState α) := by
  constructor <;> simp

theorem operatorBool_iff (top : AtTopLevel t m) :
    m.helpers.operatorBool c = true ↔ m.frames c ≠ [] := by
  rw [← top.suspended c]
  rcases top.settled c with coro | coro | coro <;> simp [CoroState.operatorBool, coro]

/-- Control comes back from the stack of `c`, on which the segments `rest` are
left. -/
theorem leave (top : AtTopLevel t m) {s : CoroState} {call : CoroCall} {rest : List α}
    {pointer : Option CoroId} {coro : Coroutine} {ran : List (CoroId × α)}
    (same : call.coro = c) (defined : s.undefined = false)
    (coros : ∀ other ≠ c, s.coros other = m.helpers.coros other)
    (suspended : coro = .suspended ↔ rest ≠ [])
    (settled : coro = .suspended ∨ coro = .finished) :
    AtTopLevel t
      { helpers := s.leave t call [] pointer coro
        frames := Function.update m.frames c rest
        ran := ran } where
  outside := by simp [CoroState.leave]
  defined := by simpa [CoroState.leave] using defined
  suspended other := by
    by_cases here : other = c
    · simpa [CoroState.leave, same, here] using suspended
    · simpa [CoroState.leave, same, here, coros other here] using top.suspended other
  settled other := by
    by_cases here : other = c
    · subst here
      simp only [CoroState.leave, CoroState.put_coros, same, Function.update_self]
      rcases settled with coro | coro
      · exact .inl coro
      · exact .inr (.inr coro)
    · simpa [CoroState.leave, same, here, coros other here] using top.settled other

/-- A thread that is on the stack of `c` with the pointer set to `c` runs one
segment and comes back. -/
theorem runBody (top : AtTopLevel t m) {s : CoroState} {call : CoroCall} {segment : α}
    {rest : List α} (entered : s.threads t = { pointer := some c, stack := [call] })
    (same : call.coro = c) (runs : call.kind = .start ∨ call.kind = .resume)
    (defined : s.undefined = false)
    (coros : ∀ other ≠ c, s.coros other = m.helpers.coros other)
    {frames : CoroId → List α} (here : frames c = segment :: rest)
    (elsewhere : Function.update frames c rest = Function.update m.frames c rest) :
    let after := SegmentState.runBody { helpers := s, frames := frames, ran := m.ran } t
    AtTopLevel t after ∧ after.frames = Function.update m.frames c rest ∧
      after.ran = m.ran ++ [(c, segment)] := by
  have after : SegmentState.runBody { helpers := s, frames := frames, ran := m.ran } t =
      { helpers := if rest = [] then s.finish t else s.yield t
        frames := Function.update m.frames c rest
        ran := m.ran ++ [(c, segment)] } := by
    simp [SegmentState.runBody, entered, same, here, elsewhere]
  rw [after]
  refine ⟨?_, rfl, rfl⟩
  by_cases last : rest = []
  · obtain ⟨pointer, ends⟩ : ∃ pointer, s.finish t = s.leave t call [] pointer .finished := by
      rcases runs with kind | kind
      · exact ⟨none, by simp [CoroState.finish, entered, kind]⟩
      · exact ⟨call.before, by simp [CoroState.finish, entered, kind]⟩
    rw [if_pos last, ends]
    exact top.leave same defined coros (by simp [last]) (.inr rfl)
  · obtain ⟨pointer, yields⟩ : ∃ pointer, s.yield t = s.leave t call [] pointer .suspended := by
      -- the pointer was set on the way in, so that `Yield` reaches this coroutine
      rcases runs with kind | kind
      · exact ⟨some c, by simp [CoroState.yield, CoroState.yieldCoro, entered, same, kind]⟩
      · exact ⟨call.before, by simp [CoroState.yield, CoroState.yieldCoro, entered, same, kind]⟩
    rw [if_neg last, yields]
    exact top.leave same defined coros (by simp [last]) (.inl rfl)

/-- `Start` unwinds what is left of an old body and gets on the stack of the new
one. -/
theorem enter_start (top : AtTopLevel t m) (c : CoroId) (body : CoroBody α) :
    ∃ s call, s.threads t = { pointer := some c, stack := [call] } ∧ call.coro = c ∧
      call.kind = .start ∧ s.undefined = false ∧
      (∀ other ≠ c, s.coros other = m.helpers.coros other) ∧
      (∃ actions, coroSystem.Legal m.helpers actions ∧ coroSystem.run m.helpers actions = s) ∧
      m.start t c body = SegmentState.runBody
        { m with
          helpers := s, frames := Function.update m.frames c (body.first :: body.later) } t := by
  have startable : coroSystem.enabled m.helpers (.start t c) := by
    rcases top.settled c with coro | coro | coro <;>
      simp [coroSystem, CoroState.Enabled, CoroState.Guard, top.defined, coro]
  rcases top.settled c with coro | coro | coro
  · have restarts : (m.helpers.start t c).kind t = some .restart := by
      simp [CoroState.start, coro, CoroState.kind, CoroState.enter]
    refine ⟨(m.helpers.start t c).unwound t, ⟨.start, c, (m.helpers.threads t).pointer⟩,
      ?_, rfl, rfl, ?_, ?_, ⟨[.start t c, .unwound t], ?_, rfl⟩, ?_⟩
    · simp [CoroState.start, coro, CoroState.enter, CoroState.unwound, top.outside]
    · simp [CoroState.start, coro, CoroState.enter, CoroState.unwound, top.defined]
    · intro other different
      simp [CoroState.start, coro, CoroState.enter, CoroState.unwound, different]
    · refine ⟨startable, ⟨?_, .inr restarts⟩, trivial⟩
      simp [coroSystem, CoroState.step, CoroState.start, coro, CoroState.enter, top.defined]
    · simp [SegmentState.start, restarts]
  all_goals
    have entered : m.helpers.start t c = m.helpers.enter t .start c (some c) false := by
      simp [CoroState.start, coro]
    refine ⟨m.helpers.start t c, ⟨.start, c, (m.helpers.threads t).pointer⟩,
      ?_, rfl, rfl, ?_, ?_, ⟨[.start t c], ⟨startable, trivial⟩, rfl⟩, ?_⟩
    · simp [entered, CoroState.enter, top.outside]
    · simp [entered, CoroState.enter, top.defined]
    · intro other different
      simp [entered, CoroState.enter, different]
    · simp [SegmentState.start, entered, CoroState.kind, CoroState.enter]

/-- `Start` runs the first segment of the new body. -/
theorem start (top : AtTopLevel t m) :
    AtTopLevel t (m.start t c body) ∧
      (m.start t c body).frames = Function.update m.frames c body.later ∧
      (m.start t c body).ran = m.ran ++ [(c, body.first)] := by
  obtain ⟨s, call, thread, same, kind, defined, coros, -, runs⟩ := top.enter_start c body
  rw [runs]
  exact top.runBody thread same (.inl kind) defined coros (by simp) (by simp)

/-- `Resume` gets on the stack of a suspended coroutine. -/
theorem enter_resume (top : AtTopLevel t m) (coro : m.helpers.coros c = .suspended) :
    (m.helpers.resume t c).threads t =
        { pointer := some c, stack := [⟨.resume, c, (m.helpers.threads t).pointer⟩] } ∧
      (m.helpers.resume t c).undefined = false ∧
      ∀ other ≠ c, (m.helpers.resume t c).coros other = m.helpers.coros other := by
  have entered : m.helpers.resume t c = m.helpers.enter t .resume c (some c) true := by
    simp [CoroState.resume, coro]
  rw [entered]
  refine ⟨?_, top.defined, ?_⟩
  · simp [CoroState.enter, top.outside]
  · intro other different
    simp [CoroState.enter, different]

/-- `Resume` runs the next segment, if there is one. -/
theorem resume (top : AtTopLevel t m) :
    AtTopLevel t (m.resume t c) ∧
      (m.resume t c).frames = Function.update m.frames c (m.frames c).tail ∧
      (m.resume t c).ran = m.ran ++ (m.frames c).head?.toList.map (c, ·) := by
  unfold SegmentState.resume
  cases left : m.frames c with
  | nil =>
      have ended : m.helpers.operatorBool c = false := by
        simpa [left] using (top.operatorBool_iff (c := c)).not
      rw [ended, if_neg Bool.false_ne_true, List.tail_nil, ← left, Function.update_eq_self]
      exact ⟨top, rfl, by simp [left]⟩
  | cons segment rest =>
      have usable : m.helpers.operatorBool c = true := top.operatorBool_iff.mpr (by simp [left])
      have coro : m.helpers.coros c = .suspended := (top.suspended c).mpr (by simp [left])
      rw [if_pos usable]
      obtain ⟨thread, defined, coros⟩ := top.enter_resume coro
      exact top.runBody thread rfl (.inr rfl) defined coros left rfl

theorem call (top : AtTopLevel t m) (call : TopCall α) : AtTopLevel t (m.call t call) := by
  cases call with
  | start c body => exact top.start.1
  | resume c => exact top.resume.1

theorem runBody_step {s : CoroState} {call : CoroCall} {frames : CoroId → List α}
    {ran : List (CoroId × α)} (stack : (s.threads t).stack = [call])
    (runs : call.kind = .start ∨ call.kind = .resume) (defined : s.undefined = false) :
    ∃ action, coroSystem.enabled s action ∧ coroSystem.next s action =
      (SegmentState.runBody { helpers := s, frames := frames, ran := ran } t).helpers := by
  have body : s.inBody t = true := by
    rcases runs with kind | kind <;>
      simp [CoroState.inBody, CoroState.kind, stack, kind, CallKind.runsBody]
  cases left : frames call.coro with
  | nil => exact ⟨.finish t, ⟨defined, body⟩, by
      simp [coroSystem, CoroState.step, SegmentState.runBody, stack, left]⟩
  | cons segment rest =>
      by_cases last : rest = []
      · exact ⟨.finish t, ⟨defined, body⟩, by
          simp [coroSystem, CoroState.step, SegmentState.runBody, stack, left, last]⟩
      · exact ⟨.yield t, ⟨defined, body⟩, by
          simp [coroSystem, CoroState.step, SegmentState.runBody, stack, left, last]⟩

theorem call_run (top : AtTopLevel t m) (call : TopCall α) :
    ∃ actions, coroSystem.Legal m.helpers actions ∧
      coroSystem.run m.helpers actions = (m.call t call).helpers := by
  cases call with
  | start c body =>
      obtain ⟨s, call, thread, -, kind, defined, -, ⟨actions, legal, reached⟩, runs⟩ :=
        top.enter_start c body
      obtain ⟨action, enabled, leaves⟩ := runBody_step (by rw [thread]) (.inl kind) defined
      refine ⟨actions ++ [action], ?_, ?_⟩
      · rw [← reached] at enabled
        exact ActionSystem.everyStep_append.mpr ⟨legal, enabled, trivial⟩
      · rw [ActionSystem.run_append, reached, SegmentState.call, runs]
        exact leaves
  | resume c =>
      by_cases usable : m.helpers.operatorBool c = true
      · have coro : m.helpers.coros c = .suspended :=
          (top.suspended c).mpr (top.operatorBool_iff.mp usable)
        obtain ⟨thread, defined, -⟩ := top.enter_resume coro
        have resumable : coroSystem.enabled m.helpers (.resume t c) := by
          simp [coroSystem, CoroState.Enabled, CoroState.Guard, top.defined, coro]
        obtain ⟨action, enabled, leaves⟩ := runBody_step (by rw [thread]) (.inr rfl) defined
        refine ⟨[.resume t c, action], ⟨resumable, enabled, trivial⟩, ?_⟩
        rw [SegmentState.call, SegmentState.resume, if_pos usable]
        exact leaves
      · refine ⟨[], trivial, ?_⟩
        rw [SegmentState.call, SegmentState.resume, if_neg usable]
        rfl

theorem run (top : AtTopLevel t m) (calls : List (TopCall α)) :
    AtTopLevel t ((segmentSystem α t).run m calls) := by
  induction calls generalizing m with
  | nil => exact top
  | cons call calls ih => exact ih (top.call call)

/-- A call that does not start `c` takes a segment of `c` away, or none. -/
theorem call_frames (top : AtTopLevel t m) {call : TopCall α} (other : call.isStart c = false) :
    (m.call t call).frames c = (m.frames c).drop (call.isResume c).toNat := by
  cases call with
  | start d body =>
      have different : c ≠ d := fun same => by simp [TopCall.isStart, same] at other
      rw [SegmentState.call, top.start.2.1, Function.update_of_ne different]
      rfl
  | resume d =>
      rw [SegmentState.call, top.resume.2.1]
      by_cases same : d = c
      · subst same
        simp [TopCall.isResume]
      · simp [TopCall.isResume, same, Ne.symm same]

/-- As long as `c` is not started again, each `Resume` takes one segment. -/
theorem run_frames (top : AtTopLevel t m) {calls : List (TopCall α)}
    (others : ∀ call ∈ calls, call.isStart c = false) :
    ((segmentSystem α t).run m calls).frames c =
      (m.frames c).drop (calls.countP (·.isResume c)) := by
  induction calls generalizing m with
  | nil => rfl
  | cons call calls ih =>
      have first : (m.call t call).frames c = (m.frames c).drop (call.isResume c).toNat :=
        top.call_frames (others call List.mem_cons_self)
      have rest := ih (top.call call) fun later member => others later (.tail _ member)
      rw [first, List.drop_drop] at rest
      rw [ActionSystem.run, List.countP_cons]
      cases resumed : call.isResume c with
      | true => simpa [resumed, Nat.add_comm, segmentSystem] using rest
      | false => simpa [resumed, segmentSystem] using rest

end AtTopLevel

/-! ### Whole runs -/

/-- Where the objects are after `calls`. -/
def afterCalls {α : Type*} (t : Nat) (calls : List (TopCall α)) : SegmentState α :=
  (segmentSystem α t).run {} calls

/-- What the next call runs after `calls` have been made on objects that had no
coroutine, and what `operator bool` tells. -/
structure SegmentLaw {α : Type*} (t : Nat) (calls : List (TopCall α)) : Prop where
  returned : ((afterCalls t calls).helpers.threads t).stack = []
  defined : (afterCalls t calls).helpers.undefined = false
  start : ∀ c body, ((afterCalls t calls).call t (.start c body)).ran =
    (afterCalls t calls).ran ++ [(c, body.first)]
  resume : ∀ before c body between, calls = before ++ .start c body :: between →
    (∀ call ∈ between, call.isStart c = false) →
      ((afterCalls t calls).call t (.resume c)).ran = (afterCalls t calls).ran ++
        (body.later[between.countP (·.isResume c)]?).toList.map (c, ·)
  unstarted : ∀ c, (∀ call ∈ calls, call.isStart c = false) →
    ((afterCalls t calls).call t (.resume c)).ran = (afterCalls t calls).ran
  suspended : ∀ before c body between, calls = before ++ .start c body :: between →
    (∀ call ∈ between, call.isStart c = false) →
      ((afterCalls t calls).helpers.operatorBool c = true ↔
        between.countP (·.isResume c) < body.later.length)
  unusable : ∀ c, (∀ call ∈ calls, call.isStart c = false) →
    (afterCalls t calls).helpers.operatorBool c = false

section Law

variable {α : Type*} {t : Nat} {before between calls : List (TopCall α)} {c : CoroId}
variable {body : CoroBody α}

private theorem atTopLevel_afterCalls : AtTopLevel t (afterCalls t calls) :=
  AtTopLevel.initial.run calls

/-- The segments that are left of the latest body of `c`. -/
theorem frames_afterCalls (others : ∀ call ∈ between, call.isStart c = false) :
    (afterCalls t (before ++ .start c body :: between)).frames c =
      body.later.drop (between.countP (·.isResume c)) := by
  have top : AtTopLevel t (afterCalls t before) := atTopLevel_afterCalls
  have started : ((afterCalls t before).call t (.start c body)).frames c = body.later := by
    rw [SegmentState.call, top.start.2.1, Function.update_self]
  rw [← started, ← (top.call (.start c body)).run_frames others, afterCalls,
    ActionSystem.run_append]
  rfl

private theorem frames_afterCalls_of_unstarted (others : ∀ call ∈ calls, call.isStart c = false) :
    (afterCalls t calls).frames c = [] := by
  rw [afterCalls, AtTopLevel.initial.run_frames others, List.drop_nil]

/-- For any number of coroutines on a thread and every sequence of `Start` and
`Resume` calls on them: `Start` runs the first segment of its body, each later
`Resume` the next one until none is left, and no call runs anything else. -/
theorem segment_law (t : Nat) (calls : List (TopCall α)) : SegmentLaw t calls := by
  have top : AtTopLevel t (afterCalls t calls) := atTopLevel_afterCalls
  constructor
  · exact top.outside
  · exact top.defined
  · intro c body
    exact top.start.2.2
  · intro before c body between split others
    have resumed := (top.resume (c := c)).2.2
    rw [split, frames_afterCalls others, List.head?_drop] at resumed
    rw [split]
    exact resumed
  · intro c others
    have resumed := (top.resume (c := c)).2.2
    rw [frames_afterCalls_of_unstarted others] at resumed
    simpa [SegmentState.call] using resumed
  · intro before c body between split others
    rw [top.operatorBool_iff, split, frames_afterCalls others, Ne, List.drop_eq_nil_iff,
      Nat.not_le]
  · intro c others
    have ended := (top.operatorBool_iff (c := c)).not
    rw [frames_afterCalls_of_unstarted others] at ended
    simpa using ended

end Law

/-- Two objects take turns, and one of them gets a new body while it is
suspended. -/
example : (afterCalls 0 [.start 0 ⟨1, [2, 3]⟩, .start 1 ⟨7, [8]⟩, .resume 0,
    .resume 1, .start 0 ⟨4, [5]⟩, .resume 1, .resume 0, .resume 0]).ran =
      [(0, 1), (1, 7), (0, 2), (1, 8), (0, 4), (0, 5)] := by
  decide

end FlatAsync

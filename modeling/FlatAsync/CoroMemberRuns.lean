import FlatAsync.CoroHelper
import FlatAsync.CoroMembers

/-!
# The members of nested coroutines

The runs of any number of coroutines, on any number of threads and nested in any way,
say nothing about the members of the helpers.  This file shows that each helper in such
a run goes through a life of its own, statement by statement.
-/

namespace FlatAsync

/-! ### Calls -/

namespace CallsApart

variable {s : CoroState} {action : CoroAction} {t u : Nat} {call other : CoroCall}

theorem yieldCoro (calls : CallsApart s) : CallsApart (s.yieldCoro t) := by
  cases top : (s.threads t).stack with
  | nil => simpa [CoroState.yieldCoro, top]
  | cons call rest =>
      simp only [CoroState.yieldCoro, top]
      split <;> exact calls.leave top .suspended

theorem step (calls : CallsApart s) (enabled : s.Enabled action) : CallsApart (s.step action) := by
  have guard := enabled.2
  cases action with
  | start t c =>
      have idle := CoroInvariant.inactive guard.1 guard.2.1
      simp only [CoroState.step, CoroState.start]
      split <;> exact calls.enter idle false
  | resume t c =>
      cases coro : s.coros c with
      | suspended =>
          simp only [CoroState.step, CoroState.resume, coro]
          exact calls.enter (by simp [coro]) true
      | empty | finished | active | destroyed => simpa [CoroState.step, CoroState.resume, coro]
  | destroy t c =>
      have idle := CoroInvariant.inactive guard.1 guard.2.1
      simp only [CoroState.step, CoroState.destroy]
      split
      · exact calls.enter idle true
      all_goals exact calls.discard idle
  | yield t =>
      simp only [CoroState.step, CoroState.yield]
      split
      · exact calls.yieldCoro
      · exact ⟨calls.active, calls.nodup, calls.apart⟩
  | yieldCoro t => exact calls.yieldCoro
  | finish t =>
      obtain ⟨call, rest, top, kind | kind⟩ := CoroState.inBody_top guard
      all_goals
        simp only [CoroState.step, CoroState.finish, top, kind]
        exact calls.leave top .finished
  | throw t =>
      obtain ⟨call, rest, top, kind | kind⟩ := CoroState.inBody_top guard
      all_goals
        simp only [CoroState.step, CoroState.throw, top, kind]
        exact calls.leave top _
  | unwound t =>
      rcases guard with unwinds | restarts
      · obtain ⟨call, rest, top, kind⟩ := CoroState.kind_top unwinds
        simp only [CoroState.step, CoroState.unwound, top, kind]
        exact calls.leave top .destroyed
      · obtain ⟨call, rest, top, kind⟩ := CoroState.kind_top restarts
        simp only [CoroState.step, CoroState.unwound, top, kind]
        exact calls.rerun top

theorem call_eq (calls : CallsApart s) (here : call ∈ (s.threads t).stack)
    (there : other ∈ (s.threads u).stack) (same : call.coro = other.coro) :
    t = u ∧ call = other := by
  have member : call.coro ∈ (s.threads t).coros := List.mem_map_of_mem here
  have also : call.coro ∈ (s.threads u).coros := same ▸ List.mem_map_of_mem there
  obtain rfl := calls.apart t u _ member also
  exact ⟨rfl, List.inj_on_of_nodup_map (calls.nodup t) here there same⟩

end CallsApart

/-- What a helper shows while a call into its coroutine is being executed. -/
def InCall (h : HelperState) : CallKind → Prop
  | .start => h.control = .body ∧ h.coro = .none
  | .resume => h.control = .body ∧ h.coro = .active
  | .unwind => h.control = .unwinding [.destroyHandler] ∧ h.coro = .none
  | .restart => h.control = .unwinding [.makeCoro] ∧ h.coro = .none

/-- The helper is where the run of the coroutines has brought it. -/
def Shows (s : CoroState) (c : CoroId) (h : HelperState) : Prop :=
  match s.coros c with
  | .empty => h.control = .outside ∧ h.coro = .none
  | .suspended => h.control = .outside ∧ h.coro = .suspended
  | .finished => h.control = .outside ∧ h.coro = .complete
  | .destroyed => h.control = .destroyed
  | .active _ => ∃ t, ∃ call ∈ (s.threads t).stack, call.coro = c ∧ InCall h call.kind

/-! ### What a helper can do -/

namespace HelperState

variable {h : HelperState} {property : HelperState → Prop} {action : HelperAction}
variable {effect : Effect} {rest : List Effect}

/-- The helper has a run to a state with `property`. -/
def Reaches (h : HelperState) (property : HelperState → Prop) : Prop :=
  ∃ actions, helperSystem.Legal h actions ∧ property (helperSystem.run h actions)

theorem Reaches.stay (already : property h) : h.Reaches property :=
  ⟨[], trivial, already⟩

theorem Reaches.imp {weaker : HelperState → Prop} (implies : ∀ h, property h → weaker h)
    (reaches : h.Reaches property) : h.Reaches weaker := by
  obtain ⟨actions, legal, reached⟩ := reaches
  exact ⟨actions, legal, implies _ reached⟩

theorem Reaches.step (guard : h.Guard action) (next : (h.step action).Reaches property) :
    h.Reaches property := by
  obtain ⟨actions, legal, reached⟩ := next
  exact ⟨action :: actions, ⟨guard, legal⟩, reached⟩

theorem Reaches.code (control : h.control = .code (effect :: rest))
    (next : (h.perform rest effect).Reaches property) : h.Reaches property := by
  have guard : h.Guard .effect := by simp [Guard, control, Control.isCode]
  apply Reaches.step guard
  rw [step_effect control]
  exact next

theorem Reaches.reset (control : h.control = .code (.resetCoro :: rest))
    (idle : h.coro ≠ .suspended)
    (next : Reaches { h with coro := .none, control := .goOn rest } property) :
    h.Reaches property := by
  apply Reaches.code control
  rw [Placed.reset_other idle]
  exact next

theorem Reaches.unwind (control : h.control = .code (.resetCoro :: rest))
    (suspended : h.coro = .suspended)
    (next : property { h with coro := .none, control := .unwinding rest }) :
    h.Reaches property := by
  apply Reaches.code control
  rw [Placed.reset_suspended suspended]
  exact Reaches.stay next

theorem reaches_start (outside : h.control = .outside) (idle : h.coro ≠ .suspended) :
    h.Reaches fun h => InCall h .start := by
  apply Reaches.step (show h.Guard .start from outside)
  apply Reaches.code rfl
  apply Reaches.code rfl
  refine Reaches.reset rfl idle ?_
  apply Reaches.code rfl
  exact Reaches.stay ⟨rfl, rfl⟩

theorem reaches_restart (outside : h.control = .outside) (suspended : h.coro = .suspended) :
    h.Reaches fun h => InCall h .restart := by
  apply Reaches.step (show h.Guard .start from outside)
  apply Reaches.code rfl
  apply Reaches.code rfl
  exact Reaches.unwind rfl suspended ⟨rfl, rfl⟩

theorem reaches_destroy (outside : h.control = .outside) (idle : h.coro ≠ .suspended) :
    h.Reaches fun h => h.control = .destroyed := by
  apply Reaches.step (show h.Guard .destroy from outside)
  apply Reaches.code rfl
  refine Reaches.reset rfl idle ?_
  apply Reaches.code rfl
  exact Reaches.stay rfl

theorem reaches_unwind (outside : h.control = .outside) (suspended : h.coro = .suspended) :
    h.Reaches fun h => InCall h .unwind := by
  apply Reaches.step (show h.Guard .destroy from outside)
  apply Reaches.code rfl
  exact Reaches.unwind rfl suspended ⟨rfl, rfl⟩

theorem Reaches.unwound (control : h.control = .unwinding [effect]) (none : h.coro = .none)
    (next : property
      (perform { h with frames := h.frames.tail, control := .code [effect] } [] effect)) :
    h.Reaches property := by
  apply Reaches.step (show h.Guard .unwound by simp [Guard, control, Control.isUnwinding])
  rw [step_unwound control none]
  apply Reaches.code rfl
  exact Reaches.stay next

theorem reaches_suspended (control : h.control = .body) (placed : h.Placed) :
    h.Reaches fun h => h.control = .outside ∧ h.coro = .suspended := by
  have yields : h.ptrYield = true := placed.yields (.inl control)
  apply Reaches.step (show h.Guard .yield from .inl control)
  apply Reaches.stay
  simp [HelperState.step, yield, yields, control]

theorem reaches_finished (control : h.control = .body) :
    h.Reaches fun h => h.control = .outside ∧ h.coro = .complete := by
  apply Reaches.step (show h.Guard .finish from control)
  exact Reaches.stay ⟨rfl, rfl⟩

theorem reaches_thrown (control : h.control = .body) :
    h.Reaches fun after => after.control = .outside ∧
      after.coro = if h.coro = .active then .complete else .none := by
  apply Reaches.step (show h.Guard .throw from control)
  exact Reaches.stay ⟨rfl, rfl⟩

theorem reaches_resume (outside : h.control = .outside) (suspended : h.coro = .suspended)
    (placed : h.Placed) : h.Reaches fun h => InCall h .resume := by
  have yields : h.ptrYield = true := placed.yields (.inr ⟨outside, suspended⟩)
  apply Reaches.step (show h.Guard .resume from .inl outside)
  apply Reaches.stay
  simp [HelperState.step, resume, suspended, yields, InCall]

end HelperState

theorem HelperState.Placed.run {h : HelperState} {life : List HelperAction} (placed : h.Placed)
    (lives : helperSystem.Legal h life) : (helperSystem.run h life).Placed := by
  have throughout : helperSystem.EveryState HelperState.Placed h life := by
    refine ActionSystem.everyState_of_invariant ?_ placed lives
      (ActionSystem.everyStep_of_forall fun _ _ => trivial)
    exact fun _ _ placed guard (_ : True) => placed.step guard
  exact throughout.last

/-! ### The simulation -/

section Simulation

variable {s : CoroState} {action : CoroAction} {t : Nat} {c other : CoroId} {call : CoroCall}
variable {rest : List CoroCall} {h : HelperState}

/-- A step that changes another coroutine, and takes no call on this one off a stack, is
not seen by the helper. -/
theorem Shows.frame (shows : Shows s c h) {thread : CoroThread} {coro : Coroutine}
    (apart : other ≠ c)
    (kept : ∀ call ∈ (s.threads t).stack, call.coro = c → call ∈ thread.stack) :
    Shows (s.put t thread other coro) c h := by
  have same : (s.put t thread other coro).coros c = s.coros c := by simp [Ne.symm apart]
  unfold Shows at shows ⊢
  rw [same]
  split at shows
  case h_5 =>
    obtain ⟨u, call, member, own, inCall⟩ := shows
    refine ⟨u, call, ?_, own, inCall⟩
    by_cases here : u = t
    · subst here
      simpa using kept call member own
    · simpa [here] using member
  all_goals exact shows

theorem Shows.enter (shows : Shows s c h) (apart : other ≠ c) {kind : CallKind}
    {pointer : Option CoroId} {assigned : Bool} :
    Shows (s.enter t kind other pointer assigned) c h :=
  shows.frame apart fun _ member _ => List.mem_cons_of_mem _ member

theorem Shows.leave (shows : Shows s c h) (top : (s.threads t).stack = call :: rest)
    (apart : call.coro ≠ c) {pointer : Option CoroId} {coro : Coroutine} :
    Shows (s.leave t call rest pointer coro) c h := by
  refine shows.frame apart fun other member own => ?_
  rw [top] at member
  rcases List.mem_cons.mp member with rfl | below
  · exact absurd own apart
  · exact below

private theorem shows_enter {kind : CallKind} {pointer : Option CoroId} {assigned : Bool}
    (inCall : InCall h kind) : Shows (s.enter t kind c pointer assigned) c h := by
  simp only [Shows, CoroState.enter, CoroState.put_coros, Function.update_self]
  exact ⟨t, ⟨kind, c, (s.threads t).pointer⟩, by simp, rfl, inCall⟩

theorem Shows.inCall (shows : Shows s call.coro h) (calls : CallsApart s)
    (top : (s.threads t).stack = call :: rest) : InCall h call.kind := by
  have here : call ∈ (s.threads t).stack := by simp [top]
  obtain ⟨assigned, active⟩ := calls.active t call.coro (List.mem_map_of_mem here)
  rw [Shows, active] at shows
  obtain ⟨u, other, there, same, inCall⟩ := shows
  obtain ⟨-, rfl⟩ := calls.call_eq here there same.symm
  exact inCall

structure Follows (c : CoroId) (s : CoroState) (h : HelperState) : Prop where
  calls : CallsApart s
  placed : h.Placed
  shows : Shows s c h

namespace Follows

theorem suspended (follows : Follows c s h) (suspended : s.coros c = .suspended) :
    h.control = .outside ∧ h.coro = .suspended := by
  have shows := follows.shows
  rw [Shows, suspended] at shows
  exact shows

theorem idle (follows : Follows c s h) (idle : s.coros c = .empty ∨ s.coros c = .finished) :
    h.control = .outside ∧ h.coro ≠ .suspended := by
  have shows := follows.shows
  rcases idle with empty | finished
  · rw [Shows, empty] at shows
    exact ⟨shows.1, by simp [shows.2]⟩
  · rw [Shows, finished] at shows
    exact ⟨shows.1, by simp [shows.2]⟩

theorem body (follows : Follows call.coro s h) (top : (s.threads t).stack = call :: rest)
    (kind : call.kind = .start ∨ call.kind = .resume) : h.control = .body := by
  have inCall := follows.shows.inCall follows.calls top
  rcases kind with kind | kind
  · rw [kind] at inCall
    exact inCall.1
  · rw [kind] at inCall
    exact inCall.1

/-- A step that ends a call is followed by the helper of the coroutine, and not seen by
the others. -/
theorem leave (follows : Follows c s h) (top : (s.threads t).stack = call :: rest)
    {pointer : Option CoroId} {coro : Coroutine}
    (ends : call.coro = c → h.Reaches (Shows (s.leave t call rest pointer coro) c)) :
    h.Reaches (Shows (s.leave t call rest pointer coro) c) := by
  by_cases own : call.coro = c
  · exact ends own
  · exact HelperState.Reaches.stay (follows.shows.leave top own)

/-- A step that makes a call is followed by the helper of the coroutine. -/
theorem enter (follows : Follows c s h) {kind : CallKind} {pointer : Option CoroId}
    {assigned : Bool} (makes : other = c → h.Reaches fun h => InCall h kind) :
    h.Reaches (Shows (s.enter t kind other pointer assigned) c) := by
  by_cases own : other = c
  · subst own
    exact (makes rfl).imp fun _ => shows_enter
  · exact HelperState.Reaches.stay (follows.shows.enter own)

theorem start (follows : Follows c s h) (enabled : s.Enabled (.start t other)) :
    h.Reaches (Shows (s.start t other) c) := by
  have guard := enabled.2
  unfold CoroState.start
  split
  next suspended =>
    refine follows.enter ?_
    rintro rfl
    have place := follows.suspended suspended
    exact HelperState.reaches_restart place.1 place.2
  next empty =>
    refine follows.enter ?_
    rintro rfl
    have place := follows.idle (.inl empty)
    exact HelperState.reaches_start place.1 place.2
  next assigned active => cases assigned <;> simp [CoroState.Guard, active] at guard
  next finished =>
    refine follows.enter ?_
    rintro rfl
    have place := follows.idle (.inr finished)
    exact HelperState.reaches_start place.1 place.2
  next destroyed => simp [CoroState.Guard, destroyed] at guard

theorem resume (follows : Follows c s h) : h.Reaches (Shows (s.resume t other) c) := by
  unfold CoroState.resume
  split
  next suspended =>
    refine follows.enter ?_
    rintro rfl
    have place := follows.suspended suspended
    exact HelperState.reaches_resume place.1 place.2 follows.placed
  all_goals exact HelperState.Reaches.stay follows.shows

theorem destroy (follows : Follows c s h) (enabled : s.Enabled (.destroy t other)) :
    h.Reaches (Shows (s.destroy t other) c) := by
  have guard := enabled.2
  have discards (idle : other = c → h.control = .outside ∧ h.coro ≠ .suspended) :
      h.Reaches (Shows (s.put t (s.threads t) other .destroyed) c) := by
    by_cases own : other = c
    · refine (HelperState.reaches_destroy (idle own).1 (idle own).2).imp fun _ gone => ?_
      simpa [Shows, own] using gone
    · exact HelperState.Reaches.stay (follows.shows.frame own fun _ member _ => member)
  unfold CoroState.destroy
  split
  next suspended =>
    refine follows.enter ?_
    rintro rfl
    have place := follows.suspended suspended
    exact HelperState.reaches_unwind place.1 place.2
  next empty =>
    apply discards
    rintro rfl
    exact follows.idle (.inl empty)
  next assigned active => cases assigned <;> simp [CoroState.Guard, active] at guard
  next finished =>
    apply discards
    rintro rfl
    exact follows.idle (.inr finished)
  next destroyed => simp [CoroState.Guard, destroyed] at guard

theorem yieldCoro (follows : Follows c s h) (body : s.inBody t = true) :
    h.Reaches (Shows (s.yieldCoro t) c) := by
  obtain ⟨call, rest, top, kind⟩ := CoroState.inBody_top body
  have leaves : ∃ pointer, s.yieldCoro t = s.leave t call rest pointer .suspended := by
    rcases kind with kind | kind
    · exact ⟨_, CoroInvariant.started_yieldCoro top kind⟩
    · exact ⟨_, CoroInvariant.resumed_yieldCoro top kind⟩
  obtain ⟨pointer, leaves⟩ := leaves
  rw [leaves]
  refine follows.leave top ?_
  rintro rfl
  refine (HelperState.reaches_suspended (follows.body top kind) follows.placed).imp ?_
  intro after suspended
  simpa [Shows, CoroState.leave] using suspended

theorem finish (follows : Follows c s h) (body : s.inBody t = true) :
    h.Reaches (Shows (s.finish t) c) := by
  obtain ⟨call, rest, top, kind⟩ := CoroState.inBody_top body
  have leaves : ∃ pointer, s.finish t = s.leave t call rest pointer .finished := by
    rcases kind with kind | kind
    · exact ⟨none, by simp [CoroState.finish, top, kind]⟩
    · exact ⟨call.before, by simp [CoroState.finish, top, kind]⟩
  obtain ⟨pointer, leaves⟩ := leaves
  rw [leaves]
  refine follows.leave top ?_
  rintro rfl
  refine (HelperState.reaches_finished (follows.body top kind)).imp ?_
  intro after finished
  simpa [Shows, CoroState.leave] using finished

/-- An exception in the first run leaves the helper without a coroutine. -/
theorem throw (follows : Follows c s h) (body : s.inBody t = true) :
    h.Reaches (Shows (s.throw t) c) := by
  obtain ⟨call, rest, top, kind⟩ := CoroState.inBody_top body
  have leaves : s.throw t =
      s.leave t call rest none (if call.kind = .resume then .finished else .empty) := by
    rcases kind with kind | kind <;> simp [CoroState.throw, top, kind]
  rw [leaves]
  refine follows.leave top ?_
  rintro rfl
  have inCall := follows.shows.inCall follows.calls top
  refine (HelperState.reaches_thrown (follows.body top kind)).imp ?_
  intro after thrown
  -- the helper has its coroutine exactly if the call is a resumption
  rcases kind with kind | kind
  · rw [kind] at inCall
    simpa [Shows, CoroState.leave, kind, inCall.2] using thrown
  · rw [kind] at inCall
    simpa [Shows, CoroState.leave, kind, inCall.2] using thrown

/-- The end of an unwinding is the end of the destructor, or lets `Start` go on. -/
theorem unwound (follows : Follows c s h) (enabled : s.Enabled (.unwound t)) :
    h.Reaches (Shows (s.unwound t) c) := by
  rcases enabled.2 with unwinds | restarts
  · obtain ⟨call, rest, top, kind⟩ := CoroState.kind_top unwinds
    have leaves : s.unwound t = s.leave t call rest none .destroyed := by
      simp [CoroState.unwound, top, kind]
    rw [leaves]
    refine follows.leave top ?_
    rintro rfl
    have inCall := follows.shows.inCall follows.calls top
    rw [kind] at inCall
    apply HelperState.Reaches.unwound inCall.1 inCall.2
    simp [Shows, CoroState.leave, HelperState.perform]
  · obtain ⟨call, rest, top, kind⟩ := CoroState.kind_top restarts
    have reruns : s.unwound t = s.put t
        { pointer := some call.coro, stack := ⟨.start, call.coro, call.before⟩ :: rest }
          call.coro (.active false) := by
      simp [CoroState.unwound, top, kind]
    rw [reruns]
    by_cases own : call.coro = c
    · subst own
      have inCall := follows.shows.inCall follows.calls top
      rw [kind] at inCall
      apply HelperState.Reaches.unwound inCall.1 inCall.2
      simp only [Shows, CoroState.put_coros, Function.update_self]
      exact ⟨t, ⟨.start, call.coro, call.before⟩, by simp, rfl, rfl, inCall.2⟩
    · apply HelperState.Reaches.stay
      refine follows.shows.frame own fun other member same => ?_
      rw [top] at member
      rcases List.mem_cons.mp member with rfl | below
      · exact absurd same own
      · exact List.mem_cons_of_mem _ below

theorem reaches (follows : Follows c s h) (enabled : s.Enabled action) :
    h.Reaches (Shows (s.step action) c) := by
  cases action with
  | start t other => exact follows.start enabled
  | resume t other => exact follows.resume
  | destroy t other => exact follows.destroy enabled
  | yield t =>
      rw [CoroState.step, CoroState.yield]
      split
      · exact follows.yieldCoro enabled.2
      · exact HelperState.Reaches.stay follows.shows
  | yieldCoro t => exact follows.yieldCoro enabled.2
  | finish t => exact follows.finish enabled.2
  | throw t => exact follows.throw enabled.2
  | unwound t => exact follows.unwound enabled

theorem initial : Follows c {} {} where
  calls := CoroInvariant.initial.calls
  placed := HelperState.Placed.initial
  shows := ⟨rfl, rfl⟩

end Follows

end Simulation

/-- In every run of any number of coroutines each helper lives as `helperSystem` says. -/
theorem exists_helper_run {actions : List CoroAction} (legal : coroSystem.Legal {} actions)
    (c : CoroId) : ∃ life, helperSystem.Legal {} life ∧
      Shows (coroSystem.run {} actions) c (helperSystem.run {} life) := by
  have follows : ∃ life, helperSystem.Legal {} life ∧
      Follows c (coroSystem.run {} actions) (helperSystem.run {} life) := by
    refine ActionSystem.exists_run_of_simulates ?_ Follows.initial legal
    intro s h action follows enabled
    obtain ⟨life, lives, shows⟩ := follows.reaches enabled
    refine ⟨life, lives, follows.calls.step enabled, ?_, shows⟩
    exact follows.placed.run lives
  obtain ⟨life, lives, follows⟩ := follows
  exact ⟨life, lives, follows.shows⟩

end FlatAsync

import FlatAsync.StrandHostRuns

/-!
# A program on runners is never stuck

Between two stretches of code on a strand a thread leaves a body, calls `OnExit` and a
defer handler, detaches itself, and takes up the next closure.  This file shows that
all this can always be done, as long as nobody else uses the strand: what the program
has queued begins, and what it waits for is started.
-/

namespace FlatAsync

variable {State Task Operation Result Frame Choice Call : Type*}

namespace Host

/-- The step is one of the program's own tasks. -/
def OwnStep (s : Host State Task Operation Result Frame) :
    HostAction Task Result Choice Call → Prop
  | .runner action => ∀ r ∈ action.subject, s.isMember r = true
  | _ => True

instance (s : Host State Task Operation Result Frame) :
    ∀ action : HostAction Task Result Choice Call, Decidable (s.OwnStep action)
  | .runner action => inferInstanceAs (Decidable (∀ r ∈ action.subject, s.isMember r = true))
  | .post .. | .launch _ | .begin .. | .act _ | .complete .. | .deliver _ =>
      inferInstanceAs (Decidable True)

end Host

/-- A thread works for a task of the program, leaves it, or is idle. -/
def Pc.StaysAmong (members : RunnerId → Bool) : Pc → Prop
  | .entered r _ | .body r | .exiting r | .deferring r .callable => members r = true
  | .deferring _ .proceedHandler => False
  | .idle | .leaving => True

structure Host.Parked (s : Host State Task Operation Result Frame) (r : RunnerId) : Prop where
  suspended : ∃ site, (s.system.runners r).coroHelper = .suspended site
  unposted : ∀ closure ∈ s.system.posted, closure.runner ≠ r
  untaken : s.taken ≠ some r

theorem Pc.StaysAmong.mono {members others : RunnerId → Bool} {pc : Pc}
    (stays : pc.StaysAmong members) (more : ∀ r, members r = true → others r = true) :
    pc.StaysAmong others := by
  cases pc with
  | entered r | body r | exiting r => exact more r stays
  | deferring r handler =>
      cases handler with
      | callable => exact more r stays
      | proceedHandler => exact stays
  | idle | leaving => trivial

theorem Host.Parked.keep {s after : Host State Task Operation Result Frame} {r : RunnerId}
    (parked : s.Parked r)
    (coro : (after.system.runners r).coroHelper = (s.system.runners r).coroHelper)
    (posted : ∀ closure ∈ after.system.posted, closure.runner = r → closure ∈ s.system.posted)
    (taken : after.taken = some r → s.taken = some r) : after.Parked r where
  suspended := by
    rw [coro]
    exact parked.suspended
  unposted closure waiting own := parked.unposted closure (posted closure waiting own) own
  untaken takes := parked.untaken (taken takes)

/-- The tasks of the program have the strand for themselves, and each operation has a
runner of its own that waits for it. -/
structure Closed (home : SchedulerId) (s : Host State Task Operation Result Frame) : Prop where
  hosted : Hosted home s
  running : s.system.terminated = false
  posted : ∀ closure ∈ s.system.posted, s.isMember closure.runner = true
  places : ∀ t, (s.system.threads t).pc.StaysAmong s.isMember
  dispatched : ∀ t, (s.system.threads t).pc ≠ .idle → (s.system.threads t).dispatchedBy = home
  waits : ∀ operation ∈ s.waiting, s.waitsIn operation.1 = true ∨ s.Parked operation.1
  once : (s.waiting.map Prod.fst).Nodup

namespace Closed

variable {program : Program State Task Operation Result Frame Choice Call} {home : SchedulerId}
variable {s after : Host State Task Operation Result Frame} {t : ThreadId} {r : RunnerId}

theorem initial (state : State) :
    Closed home ({ state := state } : Host State Task Operation Result Frame) where
  hosted := Hosted.initial state
  running := rfl
  posted := nofun
  places _ := trivial
  dispatched _ busy := absurd rfl busy
  waits := nofun
  once := List.nodup_nil

/-- A runner that waits with its coroutine suspended is not in a body. -/
theorem not_parked_of_body (closed : Closed home s) (inside : (s.system.threads t).pc = .body r) :
    ¬ s.Parked r := by
  intro parked
  obtain ⟨site, suspended⟩ := parked.suspended
  rw [System.running_of_body closed.hosted.tended.life.phases inside] at suspended
  cases suspended

theorem parked_of_free (closed : Closed home s) (free : ∀ q, s.waitsIn q = false)
    {operation : RunnerId × Operation × Option Result} (waits : operation ∈ s.waiting) :
    s.Parked operation.1 := by
  rcases closed.waits operation waits with inside | parked
  · simp [free] at inside
  · exact parked

theorem once_perform (closed : Closed home s) (absent : ∀ operation ∈ s.waiting, operation.1 ≠ r)
    (segment : Segment State Task Operation Result Frame) :
    ((s.perform r segment).waiting.map Prod.fst).Nodup := by
  have fresh : r ∉ s.waiting.map Prod.fst := by
    intro member
    obtain ⟨operation, waits, own⟩ := List.mem_map.mp member
    exact absent operation waits own
  cases ends : segment.after with
  | suspend operation =>
      simp only [Host.perform, ends, List.map_append, List.map_map, List.map_cons, List.map_nil,
        List.nodup_append, List.nodup_cons, List.not_mem_nil, not_false_eq_true, List.nodup_nil,
        and_true, List.mem_singleton]
      refine ⟨closed.once, trivial, ?_⟩
      rintro q member _ rfl rfl
      exact fresh member
  | finish | run frame => simpa [Host.perform, ends, Function.comp_def] using closed.once

theorem create (closed : Closed home s) {entry : Entry Task Operation Result}
    (hosted : Hosted home after) (enabled : s.system.Enabled (.runAsync r home))
    (system : after.system = s.system.step (.runAsync r home))
    (entries : after.entry = Function.update s.entry r (some entry)) (taken : after.taken = s.taken)
    (body : after.body = s.body) (waiting : after.waiting = s.waiting) : Closed home after where
  hosted := hosted
  running := by
    rw [system]
    exact closed.running
  posted closure queued := by
    rw [Hosted.isMember_of_update entries]
    rw [system, System.step_posted] at queued
    rcases List.mem_append.mp queued with old | new
    · simp [closed.posted closure old]
    · obtain rfl : closure = ⟨.start, r, home⟩ := by simpa using new
      simp
  places t := by
    rw [system]
    refine Pc.StaysAmong.mono (closed.places t) fun q member => ?_
    simp [Hosted.isMember_of_update entries, member]
  dispatched t busy := by
    rw [system] at busy ⊢
    exact closed.dispatched t busy
  waits operation waits := by
    rw [waiting] at waits
    rcases closed.waits operation waits with inside | parked
    · exact .inl (by simpa [Host.waitsIn, body] using inside)
    · right
      have born := (closed.hosted.tended.plain _ (closed.hosted.waiting operation waits)).born
      have other : operation.1 ≠ r := by
        intro own
        exact born (own ▸ enabled.2)
      refine parked.keep ?_ ?_ ?_
      · rw [system, s.system.step_runners (by simpa [Action.runner] using Ne.symm other)]
      · intro closure queued own
        rw [system, System.step_posted] at queued
        rcases List.mem_append.mp queued with old | new
        · exact old
        · obtain rfl : closure = ⟨.start, r, home⟩ := by simpa using new
          exact absurd own.symm other
      · rw [taken]
        exact id
  once := by
    rw [waiting]
    exact closed.once

theorem launch (closed : Closed home s) {created : RunnerId}
    (enabled : program.HostEnabled home s (.launch created)) :
    Closed home (program.hostStep home s (.launch created)) := by
  have hosted := (closed.hosted.launch enabled).hosted
  have allowed := enabled.system _ rfl
  cases posts : s.outbox with
  | nil =>
      have flushes := enabled.guard.2
      simp [posts] at flushes
  | cons task tasks =>
      simp only [Program.hostStep, posts] at hosted ⊢
      exact closed.create hosted allowed rfl rfl rfl rfl rfl

theorem places_of_step (closed : Closed home s) (action : Action) (own : action.thread = some t)
    (here : ((s.system.step action).threads t).pc.StaysAmong s.isMember) (u : ThreadId) :
    ((s.system.step action).threads u).pc.StaysAmong s.isMember := by
  by_cases same : u = t
  · rw [same]
    exact here
  · rw [System.other_threads own same]
    exact closed.places u

private theorem dispatched_of_step (closed : Closed home s) (action : Action)
    (own : action.thread = some t)
    (here : ((s.system.step action).threads t).pc ≠ .idle →
      ((s.system.step action).threads t).dispatchedBy = home) (u : ThreadId)
    (busy : ((s.system.step action).threads u).pc ≠ .idle) :
    ((s.system.step action).threads u).dispatchedBy = home := by
  by_cases same : u = t
  · rw [same] at busy ⊢
    exact here busy
  · rw [System.other_threads own same] at busy ⊢
    exact closed.dispatched u busy

/-- The tasks that have waited still do, and the code that has run may wait. -/
theorem waits_perform {segment : Segment State Task Operation Result Frame}
    (parked : ∀ operation ∈ s.waiting, (s.perform r segment).Parked operation.1) :
    ∀ operation ∈ (s.perform r segment).waiting,
      (s.perform r segment).waitsIn operation.1 = true ∨
        (s.perform r segment).Parked operation.1 := by
  intro operation waits
  simp only [Host.perform, List.mem_append, List.mem_map] at waits
  rcases waits with ⟨old, waits, rfl⟩ | new
  · exact .inr (parked old waits)
  · cases ends : segment.after with
    | suspend started =>
        obtain rfl : operation = (r, started, none) := by simpa [ends] using new
        exact .inl (by simp [Host.waitsIn, Host.perform, ends])
    | finish | run => simp [ends] at new

theorem begin (closed : Closed home s) {kind : ClosureKind} {choice : Choice}
    (enabled : program.HostEnabled home s (.begin t r kind choice)) :
    Closed home (program.hostStep home s (.begin t r kind choice)) := by
  have hosted := (closed.hosted.begin enabled).hosted
  have allowed : s.system.Enabled (.enter t r kind) := enabled.system _ rfl
  have entered : (s.system.threads t).pc = .entered r kind := allowed.2
  have member : s.isMember r = true := enabled.guard.2
  obtain ⟨entry, found⟩ := Option.isSome_iff_exists.mp member
  have takes := closed.hosted.taken_of_entered member entered
  have free := closed.hosted.free_of_entered member entered
  have plain := closed.hosted.tended.plain r member
  have unwaited (q : RunnerId) : s.waitsIn q = false := by simp [Host.waitsIn, free]
  have absent (operation) (waits : operation ∈ s.waiting) : operation.1 ≠ r := by
    intro own
    exact (closed.parked_of_free unwaited waits).untaken (own ▸ takes)
  obtain ⟨-, inside⟩ := closed.hosted.tended.enter member allowed
  have came : (s.system.threads t).dispatchedBy = home := closed.dispatched t (by simp [entered])
  have stays : ((s.system.step (.enter t r kind)).threads t).dispatchedBy = home ∧
      (s.system.step (.enter t r kind)).terminated = s.system.terminated := by
    cases kind with
    | start => simp [System.step, System.start, came]
    | proceed =>
        obtain ⟨site, suspended⟩ := closed.hosted.tended.life.phases.suspended_of_entered entered
        rw [plain.resume suspended]
        simp [System.wake, came]
  have step : program.hostStep home s (.begin t r kind choice) =
      { s with taken := none, system := s.system.step (.enter t r kind) }.perform r
        (program.begin choice s.state { s with taken := none }.strand.items entry) := by
    simp [Program.hostStep, found]
  rw [step] at hosted ⊢
  refine ⟨hosted, stays.2.trans closed.running, ?_, ?_, ?_, ?_, ?_⟩
  · intro closure queued
    have posted : (s.system.step (.enter t r kind)).posted = s.system.posted :=
      s.system.step_posted _
    exact closed.posted closure (posted ▸ queued)
  · refine closed.places_of_step (.enter t r kind) rfl ?_
    rw [inside]
    exact member
  · exact closed.dispatched_of_step (.enter t r kind) rfl fun _ => stays.1
  · refine waits_perform fun operation waits => ?_
    refine (closed.parked_of_free unwaited waits).keep ?_ ?_ (by simp [Host.perform])
    · have other := absent operation waits
      have same : (s.system.step (.enter t r kind)).runners operation.1 =
          s.system.runners operation.1 :=
        s.system.step_runners (by simpa [Action.runner] using Ne.symm other)
      exact congrArg AsyncRunner.coroHelper same
    · intro closure queued _
      have posted : (s.system.step (.enter t r kind)).posted = s.system.posted :=
        s.system.step_posted _
      exact posted ▸ queued
  · exact closed.once_perform absent _

theorem act (closed : Closed home s) {call : Call}
    (enabled : program.HostEnabled home s (.act call)) :
    Closed home (program.hostStep home s (.act call)) := by
  have hosted := (closed.hosted.act enabled).hosted
  obtain ⟨frame, current⟩ := Option.isSome_iff_exists.mp enabled.guard.2.2
  obtain ⟨⟨r, after⟩, runs, ends⟩ := Option.bind_eq_some_iff.mp current
  obtain rfl : after = .run frame := After.running_eq_some.mp ends
  have unwaited (q : RunnerId) : s.waitsIn q = false := by simp [Host.waitsIn, runs]
  obtain ⟨-, t, inside⟩ := (closed.hosted.body r).mp (by simp [runs])
  have absent (operation) (waits : operation ∈ s.waiting) : operation.1 ≠ r := by
    rintro rfl
    exact closed.not_parked_of_body inside (closed.parked_of_free unwaited waits)
  simp only [Program.hostStep, runs] at hosted ⊢
  refine ⟨hosted, closed.running, closed.posted, closed.places, closed.dispatched, ?_, ?_⟩
  · exact waits_perform fun operation waits =>
      (closed.parked_of_free unwaited waits).keep rfl (fun _ queued _ => queued) id
  · exact closed.once_perform absent _

theorem complete (closed : Closed home s) {index : Nat} {result : Result}
    (enabled : program.HostEnabled home s (.complete index result)) :
    Closed home (program.hostStep home s (.complete index result)) := by
  have hosted := (closed.hosted.complete enabled).hosted
  cases found : s.waiting[index]? with
  | none =>
      simp only [Program.hostStep, found] at hosted ⊢
      exact closed
  | some operation =>
      simp only [Program.hostStep, found] at hosted ⊢
      refine ⟨hosted, closed.running, closed.posted, closed.places, closed.dispatched, ?_, ?_⟩
      · intro other waits
        have old : ∃ before ∈ s.waiting, before.1 = other.1 := by
          rcases List.mem_or_eq_of_mem_set waits with old | rfl
          · exact ⟨other, old, rfl⟩
          · exact ⟨operation, List.mem_of_getElem? found, rfl⟩
        obtain ⟨before, member, own⟩ := old
        rw [← own]
        exact (closed.waits before member).imp_right fun parked =>
          parked.keep rfl (fun _ queued _ => queued) id
      · obtain ⟨inside, here⟩ := List.getElem?_eq_some_iff.mp found
        have same : (s.waiting.set index (operation.1, operation.2.1, some result)).map Prod.fst =
            s.waiting.map Prod.fst := by
          rw [List.map_set]
          have bound : index < (s.waiting.map Prod.fst).length := by simpa using inside
          have first : (s.waiting.map Prod.fst)[index] = operation.1 := by simp [here]
          rw [← first, List.set_getElem_self]
        rw [same]
        exact closed.once

private theorem ne_of_mem_eraseIdx {α β : Type*} {items : List α} {name : α → β}
    (once : (items.map name).Nodup) {index : Nat} {item other : α}
    (found : items[index]? = some item) (member : other ∈ items.eraseIdx index) :
    name other ≠ name item := by
  obtain ⟨inside, here⟩ := List.getElem?_eq_some_iff.mp found
  have split := ((List.getElem_cons_eraseIdx_perm inside).symm.map name).nodup_iff.mp once
  rw [here, List.map_cons, List.nodup_cons] at split
  intro same
  exact split.1 (same ▸ List.mem_map_of_mem member)

theorem deliver (closed : Closed home s) {index : Nat}
    (enabled : program.HostEnabled home s (.deliver index))
    (contract : HostContract home s (.deliver index : HostAction Task Result Choice Call)) :
    Closed home (program.hostStep home s (.deliver index)) := by
  have hosted := (closed.hosted.deliver enabled contract).hosted
  obtain ⟨result, answered⟩ := Option.isSome_iff_exists.mp enabled.guard.2
  obtain ⟨⟨r, operation, answer⟩, found, rfl⟩ := Option.bind_eq_some_iff.mp answered
  have member : s.isMember r = true := closed.hosted.waiting _ (List.mem_of_getElem? found)
  simp only [Program.hostStep, found] at hosted ⊢
  have members (q : RunnerId) (also : s.isMember q = true) :
      Host.isMember { s with entry := Function.update s.entry r (some (.resume operation result)) }
        q = true := by
    rw [Hosted.isMember_of_update (s := s) (r := r) rfl]
    simp [also]
  refine ⟨hosted, closed.running, ?_, ?_, closed.dispatched, ?_, ?_⟩
  · intro closure queued
    rw [System.step_posted] at queued
    rcases List.mem_append.mp queued with old | new
    · exact members _ (closed.posted closure old)
    · obtain rfl : closure = ⟨.proceed, r, (s.system.runners r).scheduler⟩ := by simpa using new
      exact members _ member
  · exact fun t => (closed.places t).mono members
  · intro other waits
    have different : other.1 ≠ r := ne_of_mem_eraseIdx closed.once found waits
    refine (closed.waits other (List.mem_of_mem_eraseIdx waits)).imp_right fun parked => ?_
    refine parked.keep ?_ ?_ id
    · have same : (s.system.step (.proceed r)).runners other.1 = s.system.runners other.1 :=
        s.system.step_runners (by simpa [Action.runner] using Ne.symm different)
      exact congrArg AsyncRunner.coroHelper same
    · intro closure queued own
      rw [System.step_posted] at queued
      rcases List.mem_append.mp queued with old | new
      · exact old
      · obtain rfl : closure = ⟨.proceed, r, (s.system.runners r).scheduler⟩ := by simpa using new
        exact absurd own.symm different
  · exact closed.once.sublist ((List.eraseIdx_sublist s.waiting index).map Prod.fst)

theorem post (closed : Closed home s) {created : RunnerId} {task : Task}
    (enabled : program.HostEnabled home s (.post created task)) :
    Closed home (program.hostStep home s (.post created task)) :=
  closed.create (closed.hosted.post enabled).hosted (enabled.system _ rfl) rfl rfl rfl rfl rfl

theorem advance (closed : Closed home s) (action : Action) (own : action.thread = some t)
    (hosted : Hosted home after) (system : after.system = s.system.step action)
    (entries : after.entry = s.entry) (waiting : after.waiting = s.waiting)
    (running : (s.system.step action).terminated = false)
    (posted : ∀ closure ∈ (s.system.step action).posted, closure ∈ s.system.posted)
    (here : ((s.system.step action).threads t).pc.StaysAmong s.isMember)
    (came : ((s.system.step action).threads t).pc ≠ .idle →
      ((s.system.step action).threads t).dispatchedBy = home)
    (waits : ∀ operation ∈ s.waiting, after.waitsIn operation.1 = true ∨ after.Parked operation.1) :
    Closed home after := by
  have members : after.isMember = s.isMember := by
    funext q
    simp [Host.isMember, entries]
  refine ⟨hosted, by rwa [system], ?_, ?_, ?_, ?_, ?_⟩
  · intro closure queued
    rw [members]
    exact closed.posted closure (posted closure (system ▸ queued))
  · rw [members, system]
    exact closed.places_of_step action own here
  · rw [system]
    exact closed.dispatched_of_step action own came
  · rw [waiting]
    exact waits
  · rw [waiting]
    exact closed.once

theorem dispatch (closed : Closed home s) {closure : Closure}
    (hosted : Hosted home (program.hostStep home s (.runner (.dispatch t closure))))
    (enabled : s.system.Enabled (.dispatch t closure)) :
    Closed home (program.hostStep home s (.runner (.dispatch t closure))) := by
  have member := closed.posted closure enabled.2.2
  have here : closure.scheduler = home :=
    closed.hosted.tended.closures closure enabled.2.2 member
  have subset : ∀ other ∈ (s.system.step (.dispatch t closure)).posted, other ∈ s.system.posted := by
    intro other queued
    rw [System.step_posted] at queued
    exact List.mem_of_mem_erase queued
  refine closed.advance (.dispatch t closure) rfl hosted rfl rfl rfl closed.running subset
    ?_ ?_ ?_
  · simpa [System.step, System.onEnter, Pc.StaysAmong] using member
  · simp [System.step, System.onEnter, here]
  · intro operation waits
    refine (closed.waits operation waits).imp_right fun parked => ?_
    refine parked.keep rfl (fun other queued _ => subset other queued) fun takes => ?_
    have same : closure.runner = operation.1 := by
      simpa [Program.hostStep, Host.takes, member] using takes
    exact absurd same (parked.unposted closure enabled.2.2)

theorem leave (closed : Closed home s) (action : Action) (own : action.thread = some t)
    (inside : (s.system.threads t).pc = .body r)
    (hosted : Hosted home after) (step : after = { s with system := s.system.step action, body := none })
    (running : (s.system.step action).terminated = false)
    (unposted : (s.system.step action).posted = s.system.posted)
    (exits : ((s.system.step action).threads t).pc = .exiting r)
    (came : ((s.system.step action).threads t).dispatchedBy = (s.system.threads t).dispatchedBy)
    (others : ∀ q, q ≠ r → (s.system.step action).runners q = s.system.runners q)
    (waits : s.waitsIn r = true →
      ∃ site, ((s.system.step action).runners r).coroHelper = .suspended site)
    (member : s.isMember r = true) : Closed home after := by
  subst step
  have taken := closed.hosted.untaken_of_body member inside
  refine closed.advance action own hosted rfl rfl rfl running (fun closure queued => unposted ▸ queued)
    ?_ ?_ ?_
  · rw [exits]
    exact member
  · intro _
    rw [came]
    exact closed.dispatched t (by simp [inside])
  · intro operation waiting
    right
    by_cases same : operation.1 = r
    · rcases closed.waits operation waiting with waitsIn | parked
      · refine ⟨?_, ?_, ?_⟩
        · rw [same] at waitsIn ⊢
          exact waits waitsIn
        · intro closure queued
          rw [same]
          have plays : (s.system.threads t).pc.role r = some .body := by simp [inside, Pc.role]
          exact closed.hosted.tended.life.phases.not_posted_of_role plays (unposted ▸ queued)
        · simp [taken]
      · exact absurd (same ▸ parked) (closed.not_parked_of_body inside)
    · have parked : s.Parked operation.1 := by
        rcases closed.waits operation waiting with waitsIn | parked
        · obtain ⟨started, runs⟩ := Host.waitsIn_eq_true.mp waitsIn
          obtain ⟨also, u, place⟩ := (closed.hosted.body operation.1).mp (by simp [runs])
          obtain rfl := closed.hosted.tended.unique member (.inl inside) also (.inl place)
          exact absurd (Pc.body.inj (place.symm.trans inside)) same
        · exact parked
      exact parked.keep (congrArg AsyncRunner.coroHelper (others operation.1 same))
        (fun closure queued _ => unposted ▸ queued) id

/-- A thread goes on in `OnExit`, where the tasks that wait are left alone. -/
theorem pass (closed : Closed home s) (action : Action) (own : action.thread = some t)
    (hosted : Hosted home after) (step : after = { s with system := s.system.step action })
    (running : (s.system.step action).terminated = false)
    (unposted : (s.system.step action).posted = s.system.posted)
    (coros : ∀ q, ((s.system.step action).runners q).coroHelper = (s.system.runners q).coroHelper)
    (here : ((s.system.step action).threads t).pc.StaysAmong s.isMember)
    (came : ((s.system.step action).threads t).pc ≠ .idle → (s.system.threads t).pc ≠ .idle ∧
      ((s.system.step action).threads t).dispatchedBy = (s.system.threads t).dispatchedBy) :
    Closed home after := by
  subst step
  refine closed.advance action own hosted rfl rfl rfl running (fun closure queued => unposted ▸ queued)
    here ?_ ?_
  · intro busy
    obtain ⟨before, same⟩ := came busy
    exact same.trans (closed.dispatched t before)
  · intro operation waiting
    exact (closed.waits operation waiting).imp_right fun parked =>
      parked.keep (coros operation.1) (fun closure queued _ => unposted ▸ queued) id

theorem onExit (closed : Closed home s)
    (hosted : Hosted home (program.hostStep home s (.runner (.onExit t r))))
    (enabled : s.system.Enabled (.onExit t r)) (member : s.isMember r = true) :
    Closed home (program.hostStep home s (.runner (.onExit t r))) := by
  have exits : (s.system.threads t).pc = .exiting r := enabled.2
  have plain := closed.hosted.tended.plain r member
  refine closed.pass (.onExit t r) rfl hosted ?_ ?_ (System.step_posted _ _) ?_ ?_ ?_
  · simp [Program.hostStep, Host.takes, Host.leaves]
  · simp only [System.step, System.onExit]
    split <;> exact closed.running
  · intro q
    by_cases own : q = r
    · subst own
      simp only [System.step, System.onExit]
      split <;> simp [System.takeHandler, System.delete]
    · rw [s.system.step_runners (by simpa [Action.runner] using Ne.symm own)]
  · simp only [System.step, System.onExit]
    split
    next handler stored =>
      cases handler with
      | callable => simpa [System.takeHandler, Pc.StaysAmong] using member
      | proceedHandler => exact absurd stored plain.handler
    next => simp [System.delete, Pc.StaysAmong]
  · intro _
    refine ⟨by simp [exits], ?_⟩
    simp only [System.step, System.onExit]
    split <;> simp [System.takeHandler, System.delete]

theorem runner (closed : Closed home s) {action : Action}
    (enabled : program.HostEnabled home s (.runner action))
    (contract : HostContract home s (.runner action : HostAction Task Result Choice Call))
    (own : s.OwnStep (.runner action : HostAction Task Result Choice Call)) :
    Closed home (program.hostStep home s (.runner action)) := by
  have hosted := (closed.hosted.unseen enabled contract).hosted
  have allowed : s.system.Enabled action := enabled.system _ rfl
  have unseen : s.Unseen action := enabled.guard
  have plain {q : RunnerId} (about : action.subject = some q) :
      (s.system.runners q).Plain home := closed.hosted.tended.plain q (own q about)
  have foreign {q : RunnerId} (about : action.subject = some q) (not : s.isMember q = false) :
      False := by
    simp [own q about] at not
  cases action with
  | dispatch u closure => exact closed.dispatch hosted allowed
  | onExit u q => exact closed.onExit hosted allowed (own q rfl)
  | defer u q =>
      have member := own q rfl
      obtain ⟨-, waits⟩ := unseen member
      obtain ⟨operation, runs⟩ := Host.waitsIn_eq_true.mp waits
      have yields := (plain (q := q) rfl).defer (t := u)
      refine closed.leave (.defer u q) rfl allowed.2 hosted ?_ ?_ (System.step_posted _ _)
        (closed.hosted.tended.defer member allowed).2 ?_ ?_ ?_ member
      · simp [Program.hostStep, Host.takes, Host.leaves, runs]
      · rw [yields]
        exact closed.running
      · simp [yields, System.yield]
      · exact fun p other => s.system.step_runners (by simpa [Action.runner] using Ne.symm other)
      · exact fun _ => ⟨.defer, by simp [yields, System.yield]⟩
  | finish u q =>
      have member := own q rfl
      obtain ⟨-, ends⟩ := unseen member
      have runs := Host.endsIn_eq_true.mp ends
      refine closed.leave (.finish u q) rfl allowed.2.1 hosted ?_ closed.running
        (System.step_posted _ _) (closed.hosted.tended.finish member allowed).2 ?_ ?_ ?_ member
      · simp [Program.hostStep, Host.takes, Host.leaves, runs]
      · simp [System.step, System.finish]
      · exact fun p other => s.system.step_runners (by simpa [Action.runner] using Ne.symm other)
      · simp [Host.waitsIn, runs]
  | returnHandler u q =>
      have defers : (s.system.threads u).pc = .deferring q .callable := allowed.2
      exact closed.pass (.returnHandler u q) rfl hosted rfl closed.running rfl
        (fun _ => rfl) (by simp [System.step, Pc.StaysAmong])
        fun _ => ⟨by simp [defers], by simp [System.step]⟩
  | detach u =>
      exact closed.pass (.detach u) rfl hosted rfl closed.running rfl (fun _ => rfl)
        (by simp [System.step, System.detach, Pc.StaysAmong])
        fun busy => absurd (by simp [System.step, System.detach]) busy
  | currentScheduler u =>
      exact closed.pass (.currentScheduler u) rfl hosted rfl closed.running rfl
        (fun _ => rfl) (closed.places u) fun busy => ⟨busy, rfl⟩
  | _ => exact (foreign rfl (unseen _ rfl)).elim

theorem step (closed : Closed home s) {action : HostAction Task Result Choice Call}
    (enabled : program.HostEnabled home s action) (contract : HostContract home s action)
    (own : s.OwnStep action) : Closed home (program.hostStep home s action) := by
  cases action with
  | post => exact closed.post enabled
  | launch => exact closed.launch enabled
  | begin => exact closed.begin enabled
  | act => exact closed.act enabled
  | complete => exact closed.complete enabled
  | deliver => exact closed.deliver enabled contract
  | runner => exact closed.runner enabled contract own

end Closed

/-! ### What the threads can do -/

/-- How a host runs that has the strand for itself. -/
def OwnContract (home : SchedulerId) (s : Host State Task Operation Result Frame)
    (action : HostAction Task Result Choice Call) : Prop :=
  HostContract home s action ∧ s.OwnStep action

/-- The host gets from `s` to `after`, and `calls` is what this is for the strand. -/
def Gets (program : Program State Task Operation Result Frame Choice Call) (home : SchedulerId)
    (s after : Host State Task Operation Result Frame)
    (calls : List (StrandAction Task Result Choice Call)) : Prop :=
  ∃ more, (program.hostSystem home).Legal s more ∧
    (program.hostSystem home).EveryStep (OwnContract home) s more ∧
      (program.hostSystem home).trace Host.calls s more = calls ∧
        (program.hostSystem home).run s more = after

namespace Gets

variable {program : Program State Task Operation Result Frame Choice Call} {home : SchedulerId}
variable {s after : Host State Task Operation Result Frame}
variable {calls : List (StrandAction Task Result Choice Call)}

theorem refl : Gets program home s s [] :=
  ⟨[], trivial, trivial, rfl, rfl⟩

theorem cons {action : HostAction Task Result Choice Call}
    (enabled : program.HostEnabled home s action) (contract : OwnContract home s action)
    (rest : Gets program home (program.hostStep home s action) after calls) :
    Gets program home s after (s.calls action ++ calls) := by
  obtain ⟨more, legal, steps, trace, run⟩ := rest
  exact ⟨action :: more, ⟨enabled, legal⟩, ⟨contract, steps⟩, by rw [← trace]; rfl, run⟩

theorem trans {middle : Host State Task Operation Result Frame}
    {before : List (StrandAction Task Result Choice Call)}
    (first : Gets program home s middle before) (rest : Gets program home middle after calls) :
    Gets program home s after (before ++ calls) := by
  obtain ⟨steps, legal, contract, trace, rfl⟩ := first
  obtain ⟨more, moreLegal, moreContract, moreTrace, run⟩ := rest
  refine ⟨steps ++ more, ActionSystem.everyStep_append.mpr ⟨legal, moreLegal⟩,
    ActionSystem.everyStep_append.mpr ⟨contract, moreContract⟩, ?_, ?_⟩
  · rw [ActionSystem.trace_append, trace, moreTrace]
  · rw [ActionSystem.run_append, run]

end Gets

/-- No thread is busy, and the tasks wait as they did in `s`. -/
structure Rested (home : SchedulerId) (s after : Host State Task Operation Result Frame) : Prop where
  closed : Closed home after
  strand : after.strand = s.strand
  waiting : after.waiting = s.waiting
  idle : ∀ t, (after.system.threads t).pc = .idle

def ComesToRest (program : Program State Task Operation Result Frame Choice Call)
    (home : SchedulerId) (s : Host State Task Operation Result Frame) : Prop :=
  ∃ after, Gets program home s after [] ∧ Rested home s after

namespace ComesToRest

variable {program : Program State Task Operation Result Frame Choice Call} {home : SchedulerId}
variable {s : Host State Task Operation Result Frame} {t : ThreadId} {r : RunnerId}

/-- A step that the program does not see, after which the threads can come to rest. -/
theorem cons {action : Action}
    (closed : Closed home s) (enabled : program.HostEnabled home s (.runner action))
    (contract : OwnContract home s (.runner action : HostAction Task Result Choice Call))
    (rest : Closed home (program.hostStep home s (.runner action)) →
      ComesToRest program home (program.hostStep home s (.runner action))) :
    ComesToRest program home s := by
  have followed := closed.hosted.step enabled contract.1
  obtain ⟨after, gets, rested⟩ := rest (closed.step enabled contract.1 contract.2)
  exact ⟨after, gets.cons enabled contract,
    ⟨rested.closed, rested.strand.trans followed.strand, rested.waiting, rested.idle⟩⟩

private theorem busy_unique (closed : Closed home s) (busy : (s.system.threads t).pc ≠ .idle)
    {u : ThreadId}
    (also : (s.system.threads u).pc ≠ .idle) : u = t := by
  have here := closed.dispatched t busy
  have there := closed.dispatched u also
  exact closed.hosted.tended.single u t also busy (there.trans here.symm) (by simp [there])

theorem of_leaving (closed : Closed home s) (leaves : (s.system.threads t).pc = .leaving) :
    ComesToRest program home s := by
  have enabled : program.HostEnabled home s (.runner (.detach t)) := by
    refine ⟨nofun, fun step made => ?_⟩
    obtain rfl := Option.some.inj made
    exact ⟨closed.running, leaves⟩
  refine cons closed enabled ⟨.quiet rfl, nofun⟩ fun after => ?_
  refine ⟨_, Gets.refl, after, rfl, rfl, fun u => ?_⟩
  by_cases same : u = t
  · subst same
    simp [Program.hostStep, System.step, System.detach]
  · have before : (s.system.threads u).pc = .idle := by
      by_contra busy
      exact same (busy_unique closed (by simp [leaves]) busy)
    simpa [Program.hostStep, System.step, System.detach, same] using before

private theorem of_deferring (closed : Closed home s)
    (defers : (s.system.threads t).pc = .deferring r .callable) : ComesToRest program home s := by
  have enabled : program.HostEnabled home s (.runner (.returnHandler t r)) := by
    refine ⟨nofun, fun step made => ?_⟩
    obtain rfl := Option.some.inj made
    exact ⟨closed.running, defers⟩
  refine cons closed enabled ⟨.quiet rfl, nofun⟩ fun after => ?_
  exact of_leaving (t := t) after (by simp [Program.hostStep, System.step])

theorem of_exiting (closed : Closed home s) (exits : (s.system.threads t).pc = .exiting r) :
    ComesToRest program home s := by
  have member : s.isMember r = true := by
    have stays := closed.places t
    rwa [exits] at stays
  have enabled : program.HostEnabled home s (.runner (.onExit t r)) := by
    refine ⟨trivial, fun step made => ?_⟩
    obtain rfl := Option.some.inj made
    exact ⟨closed.running, exits⟩
  refine cons closed enabled ⟨.quiet rfl, fun q same => ?_⟩ fun after => ?_
  · obtain rfl := Option.some.inj same
    exact member
  · cases stored : (s.system.runners r).deferHandler with
    | none =>
        refine of_leaving (t := t) after ?_
        simp [Program.hostStep, System.step, System.onExit, stored, System.delete]
    | some handler =>
        cases handler with
        | callable =>
            refine of_deferring (t := t) (r := r) after ?_
            simp [Program.hostStep, System.step, System.onExit, stored, System.takeHandler]
        | proceedHandler => exact absurd stored (closed.hosted.tended.plain r member).handler

private theorem of_body (closed : Closed home s) (inside : (s.system.threads t).pc = .body r)
    (flushed : s.outbox = []) (quiet : s.strand.current = none) : ComesToRest program home s := by
  have member : s.isMember r = true := by
    have stays := closed.places t
    rwa [inside] at stays
  have own {action : Action} (about : action.subject = some r) :
      s.OwnStep (.runner action : HostAction Task Result Choice Call) := by
    intro q same
    obtain rfl := Option.some.inj (about.symm.trans same)
    exact member
  have plain := closed.hosted.tended.plain r member
  obtain ⟨body, runs, rfl⟩ := Option.map_eq_some_iff.mp ((closed.hosted.body r).mpr ⟨member, t, inside⟩)
  obtain ⟨r, ending⟩ := body
  have stopped : ending.running = none := by simpa [Host.strand, runs] using quiet
  cases ending with
  | run frame => cases stopped
  | suspend operation =>
      have enabled : program.HostEnabled home s (.runner (.defer t r)) := by
        refine ⟨fun _ => ⟨by simp [flushed], by simp [Host.waitsIn, runs]⟩, fun step made => ?_⟩
        obtain rfl := Option.some.inj made
        exact ⟨closed.running, inside⟩
      refine cons closed enabled ⟨.quiet rfl, own rfl⟩ fun after => ?_
      exact of_exiting after (closed.hosted.tended.defer member (enabled.system _ rfl)).2
  | finish =>
      have enabled : program.HostEnabled home s (.runner (.finish t r)) := by
        refine ⟨fun _ => ⟨by simp [flushed], by simp [Host.endsIn, runs]⟩, fun step made => ?_⟩
        obtain rfl := Option.some.inj made
        exact ⟨closed.running, inside, plain.scopes, plain.unwinding⟩
      refine cons closed enabled ⟨.quiet rfl, own rfl⟩ fun after => ?_
      exact of_exiting after (closed.hosted.tended.finish member (enabled.system _ rfl)).2

/-- When no code runs and no closure has been taken up, the threads can come to rest. -/
theorem of_quiet (closed : Closed home s) (flushed : s.outbox = [])
    (quiet : s.strand.current = none) (untaken : s.taken = none) :
    ComesToRest program home s := by
  by_cases idle : ∀ t, (s.system.threads t).pc = .idle
  · exact ⟨s, Gets.refl, closed, rfl, rfl, idle⟩
  · simp only [not_forall] at idle
    obtain ⟨t, busy⟩ := idle
    have stays := closed.places t
    cases place : (s.system.threads t).pc with
    | idle => exact absurd place busy
    | entered r kind =>
        rw [place] at stays
        have takes := closed.hosted.taken_of_entered stays place
        simp [untaken] at takes
    | body r => exact of_body closed place flushed quiet
    | exiting r => exact of_exiting closed place
    | deferring r handler =>
        cases handler with
        | callable => exact of_deferring closed place
        | proceedHandler =>
            rw [place] at stays
            exact stays.elim
    | leaving => exact of_leaving closed place

end ComesToRest

/-! ### No step of the strand is out of reach -/

namespace Closed

variable {program : Program State Task Operation Result Frame Choice Call} {home : SchedulerId}
variable {s : Host State Task Operation Result Frame} {t : ThreadId} {r : RunnerId}

private theorem gets_begin (closed : Closed home s) (defined : program.defined s.state)
    (takes : s.taken = some r) (choice : Choice) :
    ∃ after, Gets program home s after [.begin choice] := by
  obtain ⟨member, t, kind, entered⟩ := (closed.hosted.taken r).mp takes
  have enabled : program.HostEnabled home s (.begin t r kind choice) := by
    refine ⟨⟨defined, member⟩, fun step made => ?_⟩
    obtain rfl := Option.some.inj made
    exact ⟨closed.running, entered⟩
  exact ⟨_, Gets.refl.cons enabled ⟨.quiet rfl, trivial⟩⟩

private theorem gets_dispatch (closed : Closed home s) (idle : ∀ t, (s.system.threads t).pc = .idle)
    (defined : program.defined s.state) (queued : s.strand.queue ≠ []) (choice : Choice) :
    ∃ after, Gets program home s after [.begin choice] := by
  have untaken : s.taken = none := by
    cases takes : s.taken with
    | none => rfl
    | some q =>
        obtain ⟨-, t, kind, entered⟩ := (closed.hosted.taken q).mp takes
        cases (idle t).symm.trans entered
  cases first : s.system.posted with
  | nil => simp [Host.strand, Host.posted, untaken, first] at queued
  | cons closure closures =>
      have waiting : closure ∈ s.system.posted := by simp [first]
      have member := closed.posted closure waiting
      have here := closed.hosted.tended.closures closure waiting member
      have enabled : program.HostEnabled home s (.runner (.dispatch 0 closure)) := by
        refine ⟨trivial, fun step made => ?_⟩
        obtain rfl := Option.some.inj made
        exact ⟨closed.running, idle 0, waiting⟩
      have contract : OwnContract home s
          (.runner (.dispatch 0 closure) : HostAction Task Result Choice Call) := by
        refine ⟨.dispatch (fun _ u busy => absurd (idle u) busy) fun _ => ?_, fun q same => ?_⟩
        · simp [first, here]
        · obtain rfl := Option.some.inj same
          exact member
      have after := closed.step enabled contract.1 contract.2
      have takes : (program.hostStep home s (.runner (.dispatch 0 closure))).taken =
          some closure.runner := by
        simp [Program.hostStep, Host.takes, member]
      have gets : ∃ last, Gets program home
          (program.hostStep home s (.runner (.dispatch 0 closure))) last [.begin choice] :=
        after.gets_begin defined takes choice
      obtain ⟨last, gets⟩ := gets
      exact ⟨last, gets.cons enabled contract⟩

theorem begins (closed : Closed home s) {choice : Choice}
    (enabled : program.Enabled s.strand (.begin choice)) :
    ∃ after, Gets program home s after [.begin choice] := by
  obtain ⟨defined, flushed, idle, queued⟩ := enabled
  have quiet : s.strand.current = none := Option.isNone_iff_eq_none.mp idle
  cases takes : s.taken with
  | some r => exact closed.gets_begin defined takes choice
  | none =>
      have rests : ComesToRest program home s := .of_quiet closed flushed quiet takes
      obtain ⟨rest, gets, rested⟩ := rests
      have state : rest.state = s.state := congrArg Strand.state rested.strand
      have begins : ∃ after, Gets program home rest after [.begin choice] :=
        rested.closed.gets_dispatch rested.idle (by rwa [state]) (by rwa [rested.strand]) choice
      obtain ⟨after, begins⟩ := begins
      exact ⟨after, gets.trans begins⟩

/-- A task that waits, and that no thread works for, waits for its proceed handler to be
called. -/
theorem holders_of_parked (closed : Closed home s) (parked : s.Parked r)
    (born : (s.system.runners r).stage ≠ .unborn)
    (unheld : ∀ t, (s.system.threads t).pc.role r = none) :
    (s.system.runners r).answer = .holders := by
  by_contra other
  have unposted : (s.system.view r).closures = [] := by
    refine List.filter_eq_nil_iff.mpr fun closure queued own => ?_
    exact parked.unposted closure queued (by simpa using own)
  have finished := (closed.hosted.tended.life.phases r).finished_of_settled born unposted unheld other
  obtain ⟨site, suspended⟩ := parked.suspended
  cases suspended.symm.trans finished

/-- What waits is started, once the code that waits for it has left the strand. -/
theorem starts (closed : Closed home s) (flushed : s.outbox = [])
    {operation : RunnerId × Operation × Option Result} (waits : operation ∈ s.waiting) :
    ∃ after, Gets program home s after [] ∧ after.strand = s.strand ∧
      after.waiting = s.waiting ∧ (after.system.runners operation.1).answer = .holders := by
  have born {after : Host State Task Operation Result Frame} (closed : Closed home after)
      (waits : operation ∈ after.waiting) :
      (after.system.runners operation.1).stage ≠ .unborn :=
    (closed.hosted.tended.plain _ (closed.hosted.waiting operation waits)).born
  by_cases busy : ∃ t q, s.isMember q = true ∧ (s.system.threads t).WorksFor q ∧ q ≠ operation.1
  · -- Another task runs, or is about to, so that this one has left the strand.
    obtain ⟨t, q, member, works, other⟩ := busy
    have place : (s.system.threads t).pc ≠ .idle := by
      rcases works with body | ⟨kind, entered⟩ <;> simp [*]
    have parked : s.Parked operation.1 := by
      rcases closed.waits operation waits with inside | parked
      · obtain ⟨started, runs⟩ := Host.waitsIn_eq_true.mp inside
        obtain ⟨also, u, body⟩ := (closed.hosted.body operation.1).mp (by simp [runs])
        obtain rfl := closed.hosted.tended.unique member works also (.inl body)
        rcases works with inBody | ⟨kind, entered⟩
        · exact absurd (Pc.body.inj (inBody.symm.trans body)) other
        · cases entered.symm.trans body
      · exact parked
    refine ⟨s, Gets.refl, rfl, rfl, closed.holders_of_parked parked (born closed waits) fun u => ?_⟩
    by_cases same : u = t
    · subst same
      rcases works with body | ⟨kind, entered⟩
      · simp [body, Pc.role, other]
      · simp [entered, Pc.role, other]
    · have idle : (s.system.threads u).pc = .idle := by
        by_contra also
        exact same (ComesToRest.busy_unique closed place also)
      simp [idle, Pc.role]
  · have untaken : s.taken = none := by
      cases takes : s.taken with
      | none => rfl
      | some q =>
          obtain ⟨member, t, kind, entered⟩ := (closed.hosted.taken q).mp takes
          by_cases own : q = operation.1
          · rcases closed.waits operation waits with inside | parked
            · have free := closed.hosted.free_of_entered member entered
              simp [Host.waitsIn, free] at inside
            · exact absurd (own ▸ takes) parked.untaken
          · exact absurd ⟨t, q, member, .inr ⟨kind, entered⟩, own⟩ busy
    have quiet : s.strand.current = none := by
      cases runs : s.body with
      | none => simp [Host.strand, runs]
      | some body =>
          obtain ⟨member, t, inside⟩ := (closed.hosted.body body.1).mp (by simp [runs])
          by_cases own : body.1 = operation.1
          · rcases closed.waits operation waits with waitsIn | parked
            · obtain ⟨started, here⟩ := Host.waitsIn_eq_true.mp waitsIn
              simp [Host.strand, here, After.running]
            · exact absurd (own ▸ parked) (closed.not_parked_of_body inside)
          · exact absurd ⟨t, body.1, member, .inl inside, own⟩ busy
    have rests : ComesToRest program home s := .of_quiet closed flushed quiet untaken
    obtain ⟨rest, gets, rested⟩ := rests
    have still : operation ∈ rest.waiting := by rwa [rested.waiting]
    have parked : rest.Parked operation.1 := by
      rcases rested.closed.waits operation still with inside | parked
      · obtain ⟨started, runs⟩ := Host.waitsIn_eq_true.mp inside
        obtain ⟨-, u, body⟩ := (rested.closed.hosted.body operation.1).mp (by simp [runs])
        cases (rested.idle u).symm.trans body
      · exact parked
    refine ⟨rest, gets, rested.strand, rested.waiting, ?_⟩
    refine rested.closed.holders_of_parked parked (born rested.closed still) fun u => ?_
    simp [rested.idle u, Pc.role]

theorem delivers (closed : Closed home s) (flushed : s.outbox = []) {index : Nat}
    (enabled : program.Enabled s.strand (.deliver index)) :
    ∃ after, Gets program home s after [.deliver index] := by
  obtain ⟨defined, settled⟩ := enabled
  obtain ⟨result, answered⟩ := Option.isSome_iff_exists.mp settled
  obtain ⟨⟨operation, answer⟩, found, rfl⟩ := Option.bind_eq_some_iff.mp answered
  simp only [Host.strand, List.getElem?_map, Option.map_eq_some_iff] at found
  obtain ⟨⟨r, _⟩, found, rfl⟩ := found
  have starts : ∃ after, Gets program home s after [] ∧ after.strand = s.strand ∧
      after.waiting = s.waiting ∧ (after.system.runners r).answer = .holders :=
    closed.starts flushed (List.mem_of_getElem? found)
  obtain ⟨rest, gets, strand, waiting, holds⟩ := starts
  have state : rest.state = s.state := congrArg Strand.state strand
  have here : rest.waiting[index]? = some (r, operation, some result) := by rw [waiting, found]
  have calls : rest.runnerAction home (.deliver index : HostAction Task Result Choice Call) =
      some (.proceed r) := by
    simp [Host.runnerAction, here]
  have reached : Closed home rest := by
    obtain ⟨more, legal, steps, -, rfl⟩ := gets
    have states : (program.hostSystem home).EveryState (Closed home) s more :=
      ActionSystem.everyState_of_invariant
        (fun s action closed enabled met => Closed.step closed enabled met.1 met.2)
        closed legal steps
    exact states.last
  have allowed : program.HostEnabled home rest (.deliver index) := by
    refine ⟨⟨by rwa [state], by simp [here]⟩, fun step made => ?_⟩
    obtain rfl := Option.some.inj (calls.symm.trans made)
    exact ⟨reached.running, trivial⟩
  have contract : HostContract home rest
      (.deliver index : HostAction Task Result Choice Call) := by
    constructor
    all_goals
      intro step made
      obtain rfl := Option.some.inj (calls.symm.trans made)
    · exact holds
    · trivial
    · trivial
  exact ⟨_, gets.trans (Gets.refl.cons allowed ⟨contract, trivial⟩)⟩

theorem acts {call : Call}
    (enabled : program.Enabled s.strand (.act call)) :
    ∃ after, Gets program home s after [.act call] := by
  obtain ⟨defined, flushed, busy⟩ := enabled
  have allowed : program.HostEnabled home s (.act call) :=
    ⟨⟨defined, List.isEmpty_iff.mpr flushed, busy⟩, nofun⟩
  exact ⟨_, Gets.refl.cons allowed ⟨.quiet rfl, trivial⟩⟩

end Closed

def FewBorn (s : System) : Prop :=
  ∃ bound, ∀ r, bound ≤ r → (s.runners r).stage = .unborn

theorem FewBorn.step {s : System} (few : FewBorn s) (phases : AllPhases s) {action : Action}
    (guard : s.Guard action) : FewBorn (s.step action) := by
  obtain ⟨bound, unborn⟩ := few
  have undeleted {r : RunnerId} (far : bound ≤ r) : s.deletes action ≠ some r := by
    intro deletes
    obtain ⟨⟨t, rfl⟩, -⟩ := System.deletes_eq_some deletes
    obtain ⟨alive, -⟩ := phases.exiting guard
    cases (unborn r far).symm.trans alive
  cases creates : action.creates with
  | none =>
      refine ⟨bound, fun r far => ?_⟩
      rw [System.step_stage, if_neg (by simp [creates]), if_neg (undeleted far)]
      exact unborn r far
  | some created =>
      refine ⟨max bound (created + 1), fun r far => ?_⟩
      have beyond : bound ≤ r := le_trans (Nat.le_max_left ..) far
      have other : created ≠ r := Nat.ne_of_lt (le_trans (Nat.le_max_right ..) far)
      rw [System.step_stage, if_neg (by simp [creates, other]), if_neg (undeleted beyond)]
      exact unborn r beyond

/-- A host that has the strand for itself after some steps. -/
structure Reached (home : SchedulerId) (s : Host State Task Operation Result Frame) : Prop where
  closed : Closed home s
  few : FewBorn s.system

namespace Reached

variable {program : Program State Task Operation Result Frame Choice Call} {home : SchedulerId}
variable {s : Host State Task Operation Result Frame}

theorem initial (state : State) :
    Reached home ({ state := state } : Host State Task Operation Result Frame) :=
  ⟨Closed.initial state, 0, fun _ _ => rfl⟩

theorem step (reached : Reached home s) {action : HostAction Task Result Choice Call}
    (enabled : program.HostEnabled home s action) (contract : OwnContract home s action) :
    Reached home (program.hostStep home s action) := by
  refine ⟨reached.closed.step enabled contract.1 contract.2, ?_⟩
  have made {step : Action} (calls : s.runnerAction home action = some step) :
      FewBorn (s.system.step step) :=
    reached.few.step reached.closed.hosted.tended.life.phases (enabled.system step calls).2
  cases action with
  | post created task => exact made rfl
  | runner action => exact made rfl
  | launch created =>
      simp only [Program.hostStep]
      split
      · exact reached.few
      · exact made rfl
  | begin t r kind choice =>
      simp only [Program.hostStep]
      split
      · exact made rfl
      · exact reached.few
  | act call =>
      simp only [Program.hostStep]
      split <;> exact reached.few
  | complete index result =>
      simp only [Program.hostStep]
      split <;> exact reached.few
  | deliver index =>
      simp only [Program.hostStep]
      split
      next r operation result found =>
        have calls : s.runnerAction home
            (.deliver index : HostAction Task Result Choice Call) = some (.proceed r) := by
          simp [Host.runnerAction, found]
        exact made calls
      next => exact reached.few

theorem flush (reached : Reached home s) (defined : program.defined s.state)
    (posts : s.outbox ≠ []) :
    ∃ after, Gets program home s after [.flush] ∧ Reached home after ∧
      after.outbox = s.outbox.tail ∧ after.state = s.state ∧ after.waiting = s.waiting := by
  obtain ⟨bound, unborn⟩ := reached.few
  have allowed : program.HostEnabled home s (.launch bound) := by
    refine ⟨⟨defined, by simpa using posts⟩, fun step made => ?_⟩
    obtain rfl := Option.some.inj made
    exact ⟨reached.closed.running, unborn bound (Nat.le_refl _)⟩
  have contract : OwnContract home s (.launch bound : HostAction Task Result Choice Call) :=
    ⟨.quiet rfl, trivial⟩
  refine ⟨_, Gets.refl.cons allowed contract, reached.step allowed contract, ?_⟩
  cases first : s.outbox with
  | nil => exact absurd first posts
  | cons task tasks => simp [Program.hostStep, first]

theorem flushAll (reached : Reached home s) (defined : program.defined s.state) :
    ∃ after, Gets program home s after (List.replicate s.outbox.length .flush) ∧
      Reached home after ∧ after.outbox = [] ∧ after.state = s.state ∧
        after.waiting = s.waiting := by
  generalize posts : s.outbox = tasks
  induction tasks generalizing s with
  | nil => exact ⟨s, Gets.refl, reached, posts, rfl, rfl⟩
  | cons task tasks ih =>
      have first : ∃ after, Gets program home s after [.flush] ∧ Reached home after ∧
          after.outbox = s.outbox.tail ∧ after.state = s.state ∧ after.waiting = s.waiting :=
        reached.flush defined (by simp [posts])
      obtain ⟨next, gets, there, outbox, state, waiting⟩ := first
      obtain ⟨after, more, last, flushed, sameState, sameWaiting⟩ :=
        ih there (by rwa [state]) (by simp [outbox, posts])
      exact ⟨after, gets.trans more, last, flushed, sameState.trans state,
        sameWaiting.trans waiting⟩

end Reached

/-- What a strand does by itself: user code runs on, a task that has been posted enters
the queue, and so does a result; and the next entry begins. -/
def StrandAction.Internal : StrandAction Task Result Choice Call → Prop
  | .flush | .begin _ | .act _ | .deliver _ => True
  | .post _ | .complete .. => False

/-- What the running code posts before a step: its thread leaves the strand, and starts
the operation that the code waits for, after the last post. -/
def Strand.postsBefore (s : Strand State Task Operation Result Frame) :
    StrandAction Task Result Choice Call → List (StrandAction Task Result Choice Call)
  | .deliver _ => List.replicate s.outbox.length .flush
  | .post _ | .flush | .begin _ | .complete .. | .act _ => []

variable {program : Program State Task Operation Result Frame Choice Call} {home : SchedulerId}

/-- Whatever threads and tasks of a program have done that has the strand for itself, its
runners can take every step that the strand can take, a delivery after the running code
has posted what it has to post; and then they can start every operation. -/
theorem host_never_stuck {state : State} {actions : List (HostAction Task Result Choice Call)}
    (legal : (program.hostSystem home).Legal { state := state } actions)
    (contract : (program.hostSystem home).EveryStep (OwnContract home) { state := state } actions) :
    let s := (program.hostSystem home).run { state := state } actions
    (∀ call : StrandAction Task Result Choice Call, call.Internal →
        program.Enabled s.strand call →
          ∃ after, Gets program home s after (s.strand.postsBefore call ++ [call])) ∧
      (program.defined s.state → ∀ operation ∈ s.waiting,
        ∃ after, Gets program home s after (List.replicate s.outbox.length .flush) ∧
          after.waiting = s.waiting ∧ (after.system.runners operation.1).answer = .holders) := by
  intro s
  have states : (program.hostSystem home).EveryState (Reached home) { state := state } actions :=
    ActionSystem.everyState_of_invariant
      (fun s action reached enabled met => Reached.step reached enabled met)
      (Reached.initial state) legal contract
  have reached : Reached home s := states.last
  have flushes (defined : program.defined s.state) :
      ∃ after, Gets program home s after (List.replicate s.outbox.length .flush) ∧
        Reached home after ∧ after.outbox = [] ∧ after.state = s.state ∧
          after.waiting = s.waiting :=
    reached.flushAll defined
  constructor
  · intro call internal enabled
    cases call with
    | flush =>
        have flush : ∃ after, Gets program home s after [.flush] ∧ Reached home after ∧
            after.outbox = s.outbox.tail ∧ after.state = s.state ∧ after.waiting = s.waiting :=
          reached.flush enabled.1 enabled.2
        obtain ⟨after, gets, -⟩ := flush
        exact ⟨after, gets⟩
    | begin choice => exact reached.closed.begins enabled
    | act call => exact Closed.acts enabled
    | deliver index =>
        obtain ⟨middle, gets, there, flushed, same, waiting⟩ := flushes enabled.1
        have settled : program.Enabled middle.strand (.deliver index) := by
          constructor
          · change program.defined middle.state
            rw [same]
            exact enabled.1
          · simpa [Host.strand, waiting] using enabled.2
        have delivers : ∃ after, Gets program home middle after [.deliver index] :=
          there.closed.delivers flushed settled
        obtain ⟨after, more⟩ := delivers
        exact ⟨after, gets.trans more⟩
    | post | complete => exact internal.elim
  · intro defined operation waits
    obtain ⟨middle, gets, there, flushed, -, waiting⟩ := flushes defined
    have starts : ∃ after, Gets program home middle after [] ∧ after.strand = middle.strand ∧
        after.waiting = middle.waiting ∧
          (after.system.runners operation.1).answer = .holders :=
      there.closed.starts flushed (by rwa [waiting])
    obtain ⟨after, more, -, still, holds⟩ := starts
    refine ⟨after, ?_, still.trans waiting, holds⟩
    simpa using gets.trans more

/-- A server is started by a task on thread 0, and begins to accept on thread 1.  The
accept completes before the code has posted the task that serves the listening event. -/
def startedAlone :
    List (HostAction TcpServer.Task Completion TcpServer.Choice TcpServer.Call) :=
  [.post 0 .user, .runner (.dispatch 0 ⟨.start, 0, 1⟩), .begin 0 0 .start {}, .act .start,
    .launch 1, .act .leave, .runner (.finish 0 0), .runner (.onExit 0 0), .runner (.detach 0),
    .runner (.dispatch 1 ⟨.start, 1, 1⟩), .begin 1 1 .start {}, .complete 0 ⟨.success, []⟩]

private theorem contract_startedAlone :
    (TcpServer.program.hostSystem 1).EveryStep (OwnContract 1)
      { state := (TcpServer.initial 1).state } startedAlone :=
  (hostContract_of_below 2 (by decide) (by decide)).and (by decide)

theorem host_never_stuck_startedAlone :
    let s := (TcpServer.program.hostSystem 1).run { state := (TcpServer.initial 1).state }
      startedAlone
    (∀ call : StrandAction TcpServer.Task Completion TcpServer.Choice TcpServer.Call,
        call.Internal → TcpServer.program.Enabled s.strand call →
          ∃ after, Gets TcpServer.program 1 s after (s.strand.postsBefore call ++ [call])) ∧
      (TcpServer.program.defined s.state → ∀ operation ∈ s.waiting,
        ∃ after, Gets TcpServer.program 1 s after (List.replicate s.outbox.length .flush) ∧
          after.waiting = s.waiting ∧ (after.system.runners operation.1).answer = .holders) :=
  host_never_stuck (by decide) contract_startedAlone

end FlatAsync

import FlatAsync.StrandHost
import FlatAsync.TcpServer

/-!
# The runs of a program on runners

This file follows a program on runners step by step.  What its steps are for the strand
is a run of the strand, whatever the threads and the other tasks do in between.
-/

namespace FlatAsync

variable {State Task Operation Result Frame Choice Call : Type*}

namespace Hosted

variable {home : SchedulerId} {s after : Host State Task Operation Result Frame}
variable {t : ThreadId} {r : RunnerId}

/-! ### Queues -/

theorem isMember_of_update {entry : Entry Task Operation Result}
    (entries : after.entry = Function.update s.entry r (some entry)) {q : RunnerId} :
    after.isMember q = (decide (q = r) || s.isMember q) := by
  by_cases own : q = r
  · simp [Host.isMember, entries, own]
  · simp [Host.isMember, entries, own]

theorem queue_of_update {entry : Entry Task Operation Result} {kind : ClosureKind}
    {dst : SchedulerId} (entries : after.entry = Function.update s.entry r (some entry))
    (unposted : ∀ closure ∈ s.system.posted, closure.runner ≠ r) (untaken : s.taken ≠ some r)
    (posted : after.system.posted = s.system.posted ++ [⟨kind, r, dst⟩])
    (taken : after.taken = s.taken) : after.strand.queue = s.strand.queue ++ [entry] := by
  have old : s.system.posted.filterMap (fun closure => after.entry closure.runner) = s.posted := by
    refine List.filterMap_congr fun closure waiting => ?_
    rw [entries, Function.update_of_ne (unposted closure waiting)]
  have first : s.taken.toList.filterMap after.entry = s.taken.toList.filterMap s.entry := by
    refine List.filterMap_congr fun q member => ?_
    have other : q ≠ r := by
      rintro rfl
      exact untaken (Option.mem_toList.mp member)
    rw [entries, Function.update_of_ne other]
  have new : after.entry r = some entry := by
    rw [entries, Function.update_self]
  simp [Host.strand, Host.posted, posted, taken, old, first, new]

/-- Nothing is posted for a task that waits for the holders of its proceed handler. -/
theorem unposted_of_answer (hosted : Hosted home s)
    (holds : (s.system.runners r).answer = .holders) :
    (∀ closure ∈ s.system.posted, closure.runner ≠ r) ∧ s.taken ≠ some r := by
  obtain ⟨viewEq, -⟩ := (hosted.tended.life.phases r).parked_of_answer holds
  refine ⟨?_, fun takes => ?_⟩
  · rintro closure waiting rfl
    have member : closure ∈ (s.system.view closure.runner).closures :=
      List.mem_filter.mpr ⟨waiting, by simp⟩
    rw [viewEq] at member
    simp at member
  · obtain ⟨-, t, kind, place⟩ := (hosted.taken r).mp takes
    have unheld := (hosted.tended.life.phases.unheld_of_answer holds).2 t
    simp [place, Pc.role] at unheld

private theorem unposted_of_unborn (hosted : Hosted home s)
    (fresh : (s.system.runners r).stage = .unborn) :
    (∀ closure ∈ s.system.posted, closure.runner ≠ r) ∧ s.taken ≠ some r := by
  obtain ⟨unposted, unheld⟩ := hosted.tended.life.phases.unreferenced_of_unborn fresh
  refine ⟨unposted, fun takes => ?_⟩
  obtain ⟨-, t, kind, place⟩ := (hosted.taken r).mp takes
  have role := unheld t
  simp [place, Pc.role] at role

private theorem posted_of_filter {entry : RunnerId → Option (Entry Task Operation Result)}
    {members : RunnerId → Bool} (own : ∀ r, members r = (entry r).isSome)
    {closures others : List Closure}
    (same : closures.filter (fun closure => members closure.runner) =
      others.filter fun closure => members closure.runner) :
    closures.filterMap (fun closure => entry closure.runner) =
      others.filterMap fun closure => entry closure.runner := by
  have picked (closures : List Closure) :
      (closures.filter fun closure => members closure.runner).filterMap
          (fun closure => entry closure.runner) =
        closures.filterMap fun closure => entry closure.runner := by
    induction closures with
    | nil => rfl
    | cons closure closures ih =>
        cases found : entry closure.runner <;> simp [own, found, ← ih]
  rw [← picked closures, same, picked others]

private theorem posted_of_order (hosted : Hosted home s) {closure : Closure}
    {entry : Entry Task Operation Result} (found : s.entry closure.runner = some entry)
    (enabled : s.system.Enabled (.dispatch t closure))
    (ordered : PostingOrder home s.system (.dispatch t closure)) :
    s.posted = entry :: (s.system.posted.erase closure).filterMap fun other => s.entry other.runner := by
  have member : s.isMember closure.runner = true := by simp [Host.isMember, found]
  have here : closure.scheduler = home := hosted.tended.closures closure enabled.2.2 member
  obtain ⟨-, before, later, split, others⟩ := List.find?_eq_some_iff_append.mp (ordered here)
  have unseen : before.filterMap (fun other => s.entry other.runner) = [] := by
    rw [List.filterMap_eq_nil_iff]
    intro other waiting
    cases again : s.entry other.runner with
    | none => rfl
    | some =>
        have away := others other waiting
        have stays := hosted.tended.closures other (by simp [split, waiting])
          (by simp [Host.isMember, again])
        simp [stays] at away
  have absent : closure ∉ before := by
    intro waiting
    have away := others closure waiting
    simp [here] at away
  rw [Host.posted, split, List.erase_append_right _ absent, List.erase_cons_head]
  simp [unseen, found]

/-! ### Steps -/

variable {program : Program State Task Operation Result Frame Choice Call}

/-- What the step is for the strand is allowed there and leads to the same strand. -/
structure Followed (program : Program State Task Operation Result Frame Choice Call)
    (home : SchedulerId) (s : Host State Task Operation Result Frame)
    (action : HostAction Task Result Choice Call) : Prop where
  legal : program.system.Legal s.strand (s.calls action)
  hosted : Hosted home (program.hostStep home s action)
  strand : (program.hostStep home s action).strand = program.system.run s.strand (s.calls action)

theorem create (hosted : Hosted home s) {entry : Entry Task Operation Result}
    (enabled : s.system.Enabled (.runAsync r home))
    (system : after.system = s.system.step (.runAsync r home))
    (entries : after.entry = Function.update s.entry r (some entry)) (taken : after.taken = s.taken)
    (body : after.body = s.body) (waiting : after.waiting = s.waiting)
    (idle : after.body = none → after.outbox = []) : Hosted home after := by
  have fresh : (s.system.runners r).stage = .unborn := enabled.2
  have unheld := (hosted.tended.life.phases.unreferenced_of_unborn fresh).2
  have created : Tended home after.isMember after.system := by
    rw [system]
    obtain ⟨life, single⟩ := hosted.tended.advance enabled trivial trivial
    refine hosted.tended.create fresh (fun q other => ?_) life single
    simp [isMember_of_update entries, other]
  refine hosted.keep created ?_ ?_ ?_ taken (by rw [body]) idle ?_
  · intro u q member works
    rw [system]
    rfl
  · intro q member
    simp [isMember_of_update entries, member]
  · intro u q member works
    have other : q ≠ r := by
      rintro rfl
      have held : ((s.system.threads u).pc.role q).isSome :=
        Thread.WorksFor.role (by rwa [system] at works)
      simp [unheld u] at held
    simpa [isMember_of_update entries, other] using member
  · rw [waiting]
    exact hosted.waiting

theorem post (hosted : Hosted home s) {created : RunnerId} {task : Task}
    (enabled : program.HostEnabled home s (.post created task)) :
    Followed program home s (.post created task) := by
  have allowed : s.system.Enabled (.runAsync created home) := enabled.system _ rfl
  obtain ⟨unposted, untaken⟩ := hosted.unposted_of_unborn allowed.2
  refine ⟨⟨enabled.guard, trivial⟩, ?_, ?_⟩
  · exact hosted.create allowed rfl rfl rfl rfl rfl hosted.idle
  · have queue : (program.hostStep home s (.post created task)).strand.queue =
        s.strand.queue ++ [.task task] :=
      queue_of_update rfl unposted untaken (s.system.step_posted _) rfl
    change { s.strand with queue := (program.hostStep home s (.post created task)).strand.queue } = _
    rw [queue]
    rfl

theorem launch (hosted : Hosted home s) {created : RunnerId}
    (enabled : program.HostEnabled home s (.launch created)) :
    Followed program home s (.launch created) := by
  have allowed : s.system.Enabled (.runAsync created home) := enabled.system _ rfl
  obtain ⟨unposted, untaken⟩ := hosted.unposted_of_unborn allowed.2
  cases posts : s.outbox with
  | nil =>
      have flushes := enabled.guard.2
      simp [posts] at flushes
  | cons task tasks =>
      have runs : s.body ≠ none := fun none => by simp [hosted.idle none] at posts
      have step : program.hostStep home s (.launch created) =
          { s with
            system := s.system.step (.runAsync created home)
            entry := Function.update s.entry created (some (.task task))
            outbox := tasks } := by
        simp [Program.hostStep, posts]
      refine ⟨⟨⟨enabled.guard.1, by simp [Host.strand, posts]⟩, trivial⟩, ?_, ?_⟩
      · rw [step]
        exact hosted.create allowed rfl rfl rfl rfl rfl fun none => absurd none runs
      · have queue : (program.hostStep home s (.launch created)).strand.queue =
            s.strand.queue ++ [.task task] :=
          queue_of_update (by rw [step]) unposted untaken
            (by rw [step]; exact s.system.step_posted _) (by rw [step])
        have strand : (program.hostStep home s (.launch created)).strand =
            { s.strand with
              queue := (program.hostStep home s (.launch created)).strand.queue
              outbox := tasks } := by
          rw [step]
          rfl
        rw [strand, queue]
        simp [Host.calls, Program.system, ActionSystem.run, Program.step, Host.strand, posts]

private theorem strand_perform (s : Host State Task Operation Result Frame) (r : RunnerId)
    (segment : Segment State Task Operation Result Frame) :
    (s.perform r segment).strand = s.strand.perform segment := by
  cases ends : segment.after <;>
    simp [Host.strand, Host.perform, Host.posted, Strand.perform, ends, After.running,
      Function.comp_def]

theorem waits_perform (hosted : Hosted home s) {others : Host State Task Operation Result Frame}
    (entries : others.entry = s.entry) (waiting : others.waiting = s.waiting)
    {segment : Segment State Task Operation Result Frame} (member : s.isMember r = true) :
    ∀ operation ∈ (others.perform r segment).waiting,
      (others.perform r segment).isMember operation.1 = true := by
  intro operation waits
  have same : (others.perform r segment).isMember = s.isMember := by
    funext q
    simp [Host.isMember, Host.perform, entries]
  rw [same]
  simp only [Host.perform, waiting, List.mem_append, List.mem_map] at waits
  rcases waits with ⟨old, waits, rfl⟩ | new
  · exact hosted.waiting old waits
  · cases ends : segment.after with
    | suspend started =>
        obtain rfl : operation = (r, started, none) := by simpa [ends] using new
        exact member
    | finish | run => simp [ends] at new

theorem begin (hosted : Hosted home s) {kind : ClosureKind} {choice : Choice}
    (enabled : program.HostEnabled home s (.begin t r kind choice)) :
    Followed program home s (.begin t r kind choice) := by
  have allowed : s.system.Enabled (.enter t r kind) := enabled.system _ rfl
  have entered : (s.system.threads t).pc = .entered r kind := allowed.2
  have member : s.isMember r = true := enabled.guard.2
  obtain ⟨entry, found⟩ := Option.isSome_iff_exists.mp member
  have takes := hosted.taken_of_entered member entered
  have free := hosted.free_of_entered member entered
  obtain ⟨tended, inside⟩ := hosted.tended.enter member allowed
  have queue : s.strand.queue = entry :: s.posted := by
    simp [Host.strand, takes, found]
  let others := { s with taken := none }
  let segment := program.begin choice s.state others.strand.items entry
  have step : program.hostStep home s (.begin t r kind choice) =
      { others with system := s.system.step (.enter t r kind) }.perform r segment := by
    simp [Program.hostStep, found, others, segment]
  refine ⟨⟨⟨enabled.guard.1, hosted.idle free, ?_, ?_⟩, trivial⟩, ?_, ?_⟩
  · simp [Host.strand, free]
  · simp [queue]
  · rw [step]
    refine .alone (t := t) tended ?_ ?_ ?_ ?_ ?_
    · refine AloneAt.step hosted.tended member (.inr ⟨kind, entered⟩) fun u elsewhere => ?_
      exact System.other_threads (t := t) rfl elsewhere
    · simp [Host.perform, others, inside]
    · intro q
      simp only [Host.perform, Option.map_some, Option.some.injEq, inside, Pc.body.injEq]
      exact ⟨fun same => ⟨same ▸ member, same⟩, And.right⟩
    · simp [Host.perform]
    · exact hosted.waits_perform rfl rfl member
  · have same : ({ others with system := s.system.step (.enter t r kind) } :
        Host State Task Operation Result Frame).strand = { s.strand with queue := s.posted } := by
      simp [Host.strand, Host.posted, others, s.system.step_posted (.enter t r kind)]
    rw [step, strand_perform, same]
    simp only [Host.calls, Program.system, ActionSystem.run, Program.step, queue]
    rfl

theorem same_of_system (members : RunnerId → Bool) (s : System) : SamePlaces members s s :=
  fun _ _ _ _ => rfl

theorem act (hosted : Hosted home s) {call : Call}
    (enabled : program.HostEnabled home s (.act call)) : Followed program home s (.act call) := by
  obtain ⟨defined, flushed, busy⟩ := enabled.guard
  obtain ⟨frame, current⟩ := Option.isSome_iff_exists.mp busy
  obtain ⟨⟨r, after⟩, runs, ends⟩ := Option.bind_eq_some_iff.mp current
  obtain rfl : after = .run frame := After.running_eq_some.mp ends
  have member : s.isMember r = true := ((hosted.body r).mp (by simp [runs])).1
  have step : program.hostStep home s (.act call) =
      s.perform r (program.act s.state frame call) := by
    simp [Program.hostStep, runs]
  have strand : s.strand.current = some frame := by
    simp [Host.strand, runs, After.running]
  refine ⟨⟨⟨defined, List.isEmpty_iff.mp flushed, by simp [strand]⟩, trivial⟩, ?_, ?_⟩
  · rw [step]
    refine hosted.keep hosted.tended (same_of_system _ _) (fun _ member => member)
      (fun _ _ member _ => member) rfl (by simp [Host.perform, runs]) (by simp [Host.perform]) ?_
    exact hosted.waits_perform rfl rfl member
  · rw [step, strand_perform]
    simp only [Host.calls, Program.system, ActionSystem.run, Program.step, strand]
    rfl

theorem complete (hosted : Hosted home s) {index : Nat} {result : Result}
    (enabled : program.HostEnabled home s (.complete index result)) :
    Followed program home s (.complete index result) := by
  obtain ⟨defined, possible⟩ := enabled.guard
  cases found : s.waiting[index]? with
  | none => simp [found] at possible
  | some waits =>
      obtain ⟨r, operation, answer⟩ := waits
      cases answer with
      | some => simp [found] at possible
      | none =>
          simp only [found] at possible
          have step : program.hostStep home s (.complete index result) =
              { s with
                state := program.completed s.state operation result
                waiting := s.waiting.set index (r, operation, some result) } := by
            simp [Program.hostStep, found]
          have strand : s.strand.waiting[index]? = some (operation, none) := by
            simp [Host.strand, found]
          refine ⟨⟨⟨defined, ?_⟩, trivial⟩, ?_, ?_⟩
          · simp only [strand]
            exact possible
          · rw [step]
            refine hosted.keep hosted.tended (same_of_system _ _) (fun _ member => member)
              (fun _ _ member _ => member) rfl rfl hosted.idle ?_
            intro waits member
            rcases List.mem_or_eq_of_mem_set member with old | new
            · exact hosted.waiting waits old
            · rw [new]
              exact hosted.waiting (r, operation, none) (List.mem_of_getElem? found)
          · rw [step]
            simp only [Host.calls, Program.system, ActionSystem.run, Program.step, strand]
            simp [Host.strand, Host.posted, List.map_set]

theorem deliver (hosted : Hosted home s) {index : Nat}
    (enabled : program.HostEnabled home s (.deliver index))
    (contract : HostContract home s (.deliver index : HostAction Task Result Choice Call)) :
    Followed program home s (.deliver index) := by
  obtain ⟨defined, settled⟩ := enabled.guard
  obtain ⟨result, answered⟩ := Option.isSome_iff_exists.mp settled
  obtain ⟨⟨r, operation, answer⟩, found, rfl⟩ := Option.bind_eq_some_iff.mp answered
  have calls : s.runnerAction home (.deliver index : HostAction Task Result Choice Call) =
      some (.proceed r) := by
    simp [Host.runnerAction, found]
  have holds : (s.system.runners r).answer = .holders := contract.proceeds _ calls
  have allowed : s.system.Enabled (.proceed r) := enabled.system _ calls
  have member : s.isMember r = true := hosted.waiting _ (List.mem_of_getElem? found)
  obtain ⟨unposted, untaken⟩ := hosted.unposted_of_answer holds
  have step : program.hostStep home s (.deliver index) =
      { s with
        system := s.system.step (.proceed r)
        entry := Function.update s.entry r (some (.resume operation result))
        waiting := s.waiting.eraseIdx index } := by
    simp [Program.hostStep, found]
  have strand : s.strand.waiting[index]? = some (operation, some result) := by
    simp [Host.strand, found]
  have members : (program.hostStep home s (.deliver index)).isMember = s.isMember := by
    funext q
    have entries : (program.hostStep home s (.deliver index)).entry =
        Function.update s.entry r (some (.resume operation result)) := by
      rw [step]
    rw [isMember_of_update entries]
    by_cases own : q = r <;> simp [own, member]
  refine ⟨⟨⟨defined, by simp [strand]⟩, trivial⟩, ?_, ?_⟩
  · refine hosted.keep ?_ ?_ ?_ ?_ (by rw [step]) (by rw [step]) ?_ ?_
    · rw [members, step]
      exact hosted.tended.proceed member allowed holds
    · rw [step]
      exact same_of_system _ s.system
    · exact fun q member => by rwa [members]
    · exact fun _ q member _ => by rwa [members] at member
    · rw [step]
      exact hosted.idle
    · intro waits member
      rw [step] at member
      exact hosted.waiting waits (List.mem_of_mem_eraseIdx member)
  · have queue : (program.hostStep home s (.deliver index)).strand.queue =
        s.strand.queue ++ [.resume operation result] :=
      queue_of_update (by rw [step]) unposted untaken
        (by rw [step]; exact s.system.step_posted _) (by rw [step])
    have split : (program.hostStep home s (.deliver index)).strand =
        { s.strand with
          queue := (program.hostStep home s (.deliver index)).strand.queue
          waiting := (s.waiting.eraseIdx index).map Prod.snd } := by
      rw [step]
      rfl
    rw [split, queue]
    simp only [Host.calls, Program.system, ActionSystem.run, Program.step, strand]
    simp [Host.strand, List.eraseIdx_map]

/-! ### Steps that the program does not see -/

theorem spare (hosted : Hosted home s) {action : Action}
    (enabled : program.HostEnabled home s (.runner action))
    (contract : HostContract home s (.runner action : HostAction Task Result Choice Call))
    (others : ∀ r, action.subject = some r → s.isMember r = false) :
    Followed program home s (.runner action) := by
  have allowed : s.system.Enabled action := enabled.system _ rfl
  have spares : System.Spares s.isMember s.system (s.system.step action) :=
    System.step_spares allowed.2 others
  have takes : s.takes action = s.taken := by
    cases action with
    | dispatch u closure => simp [Host.takes, others closure.runner rfl]
    | _ => rfl
  have stays {q : RunnerId} (about : action.subject = some q) : s.body.map Prod.fst ≠ some q := by
    intro runs
    have member := ((hosted.body q).mp runs).1
    simp [others q about] at member
  have leaves : s.leaves action = s.body := by
    cases action with
    | defer u q | finish u q => simp only [Host.leaves, if_neg (stays (q := q) rfl)]
    | _ => rfl
  have step : program.hostStep home s (.runner action) =
      { s with system := s.system.step action } := by
    simp [Program.hostStep, takes, leaves]
  refine ⟨trivial, ?_, ?_⟩
  · rw [step]
    obtain ⟨life, single⟩ :=
      hosted.tended.advance allowed (contract.proceeds _ rfl) (contract.exclusive _ rfl)
    exact hosted.keep (hosted.tended.spare spares life single)
      (fun u q member works => (spares.threads u q member works).1) (fun _ member => member)
      (fun _ _ member _ => member) rfl rfl hosted.idle hosted.waiting
  · rw [step]
    have posted : ({ s with system := s.system.step action } :
        Host State Task Operation Result Frame).posted = s.posted :=
      posted_of_filter (fun _ => rfl) spares.posted
    simp only [Host.strand, posted]
    rfl

theorem dispatch (hosted : Hosted home s) {closure : Closure}
    (enabled : program.HostEnabled home s (.runner (.dispatch t closure)))
    (contract : HostContract home s
      (.runner (.dispatch t closure) : HostAction Task Result Choice Call))
    (member : s.isMember closure.runner = true) :
    Followed program home s (.runner (.dispatch t closure)) := by
  have allowed : s.system.Enabled (.dispatch t closure) := enabled.system _ rfl
  obtain ⟨entry, found⟩ := Option.isSome_iff_exists.mp member
  have idle {u : ThreadId} {q : RunnerId} (also : s.isMember q = true) :
      ¬ (s.system.threads u).WorksFor q :=
    hosted.tended.idle_of_dispatch member allowed.2.2 (contract.exclusive _ rfl) also
  have untaken : s.taken = none := by
    cases takes : s.taken with
    | none => rfl
    | some q =>
        obtain ⟨also, u, kind, place⟩ := (hosted.taken q).mp takes
        exact absurd (.inr ⟨kind, place⟩) (idle also)
  have free : s.body = none := by
    cases runs : s.body with
    | none => rfl
    | some body =>
        obtain ⟨also, u, place⟩ := (hosted.body body.1).mp (by simp [runs])
        exact absurd (.inl place) (idle also)
  have step : program.hostStep home s (.runner (.dispatch t closure)) =
      { s with
        system := s.system.step (.dispatch t closure)
        taken := some closure.runner } := by
    simp [Program.hostStep, Host.takes, Host.leaves, member]
  have entered : ((s.system.step (.dispatch t closure)).threads t).pc =
      .entered closure.runner closure.kind := by
    simp [System.step, System.onEnter]
  refine ⟨trivial, ?_, ?_⟩
  · rw [step]
    refine .alone (t := t) (hosted.tended.dispatch member allowed (contract.exclusive _ rfl))
      ?_ ?_ ?_ hosted.idle hosted.waiting
    · refine AloneAt.start (s := s.system) (fun u q also => idle also) fun u elsewhere => ?_
      have own : (Action.dispatch t closure).thread = some t := rfl
      exact System.other_threads own elsewhere
    · intro q
      simp only [Option.some.injEq, entered, Pc.entered.injEq]
      exact ⟨fun same => ⟨same ▸ member, closure.kind, same, rfl⟩, fun place => place.2.choose_spec.1⟩
    · simp [free, entered]
  · rw [step]
    have order := hosted.posted_of_order found allowed (contract.ordered _ rfl)
    have rest : ({ s with
        system := s.system.step (.dispatch t closure)
        taken := some closure.runner } : Host State Task Operation Result Frame).posted =
          (s.system.posted.erase closure).filterMap fun other => s.entry other.runner := by
      simp only [Host.posted, System.step_posted]
    simp only [Host.strand, rest, untaken, order, Option.toList_some, Option.toList_none]
    simp [found, ActionSystem.run, Host.calls]

/-- The code of a task leaves its body: nothing of it is left to do on the strand. -/
theorem leave (hosted : Hosted home s) {action : Action} {ending : After Operation Frame}
    (inside : (s.system.threads t).pc = .body r) (own : action.thread = some t)
    (runs : s.body = some (r, ending)) (flushed : s.outbox = []) (stopped : ending.running = none)
    (step : program.hostStep home s (.runner action) =
      { s with system := s.system.step action, body := none })
    (unposted : (s.system.step action).posted = s.system.posted)
    (left : Tended home s.isMember (s.system.step action) ∧
      ((s.system.step action).threads t).pc = .exiting r) :
    Followed program home s (.runner action) := by
  have member : s.isMember r = true := ((hosted.body r).mp (by simp [runs])).1
  refine ⟨trivial, ?_, ?_⟩
  · rw [step]
    refine .alone (t := t) left.1 ?_ ?_ ?_ (fun _ => flushed) hosted.waiting
    · refine AloneAt.step hosted.tended member (.inl inside) fun u elsewhere => ?_
      exact System.other_threads own elsewhere
    · simp [left.2, hosted.untaken_of_body member inside]
    · simp [left.2]
  · rw [step]
    simp [Host.strand, Host.posted, unposted, runs, stopped, Host.calls, ActionSystem.run]

theorem onExit (hosted : Hosted home s)
    (enabled : program.HostEnabled home s (.runner (.onExit t r))) (member : s.isMember r = true) :
    Followed program home s (.runner (.onExit t r)) := by
  have allowed : s.system.Enabled (.onExit t r) := enabled.system _ rfl
  have exits : (s.system.threads t).pc = .exiting r := allowed.2
  have step : program.hostStep home s (.runner (.onExit t r)) =
      { s with system := s.system.step (.onExit t r) } := by
    simp [Program.hostStep, Host.takes, Host.leaves]
  have same : SamePlaces s.isMember s.system (s.system.step (.onExit t r)) := by
    intro u q _ works
    by_cases here : u = t
    · subst here
      refine absurd works ?_
      simp only [System.step, System.onExit]
      split <;> simp [Thread.WorksFor, exits, System.takeHandler, System.delete]
    · rw [System.other_threads rfl here]
  refine ⟨trivial, ?_, ?_⟩
  · rw [step]
    exact hosted.keep (hosted.tended.onExit member allowed) same (fun _ member => member)
      (fun _ _ member _ => member) rfl rfl hosted.idle hosted.waiting
  · rw [step]
    simp only [Host.strand, Host.posted, System.step_posted]
    rfl

theorem unseen (hosted : Hosted home s) {action : Action}
    (enabled : program.HostEnabled home s (.runner action))
    (contract : HostContract home s (.runner action : HostAction Task Result Choice Call)) :
    Followed program home s (.runner action) := by
  have allowed : s.system.Enabled action := enabled.system _ rfl
  have unseen : s.Unseen action := enabled.guard
  by_cases others : ∀ r, action.subject = some r → s.isMember r = false
  · exact hosted.spare enabled contract others
  · simp only [not_forall] at others
    obtain ⟨r, about, own⟩ := others
    have member : s.isMember r = true := by simpa using own
    cases action with
    | dispatch u closure =>
        obtain rfl := Option.some.inj about
        exact hosted.dispatch enabled contract member
    | onExit u q =>
        obtain rfl := Option.some.inj about
        exact hosted.onExit enabled member
    | defer u q =>
        obtain rfl := Option.some.inj about
        obtain ⟨flushed, waits⟩ := unseen member
        obtain ⟨operation, runs⟩ := Host.waitsIn_eq_true.mp waits
        exact hosted.leave allowed.2 rfl runs (List.isEmpty_iff.mp flushed) rfl
          (by simp [Program.hostStep, Host.takes, Host.leaves, runs])
          (by rw [System.step_posted]) (hosted.tended.defer member allowed)
    | finish u q =>
        obtain rfl := Option.some.inj about
        obtain ⟨flushed, ends⟩ := unseen member
        have runs := Host.endsIn_eq_true.mp ends
        exact hosted.leave allowed.2.1 rfl runs (List.isEmpty_iff.mp flushed) rfl
          (by simp [Program.hostStep, Host.takes, Host.leaves, runs])
          (by rw [System.step_posted]) (hosted.tended.finish member allowed)
    | _ => exact absurd (unseen r about) own

theorem step (hosted : Hosted home s) {action : HostAction Task Result Choice Call}
    (enabled : program.HostEnabled home s action) (contract : HostContract home s action) :
    Followed program home s action := by
  cases action with
  | post => exact hosted.post enabled
  | launch => exact hosted.launch enabled
  | begin => exact hosted.begin enabled
  | act => exact hosted.act enabled
  | complete => exact hosted.complete enabled
  | deliver => exact hosted.deliver enabled contract
  | runner => exact hosted.unseen enabled contract

theorem initial (state : State) :
    Hosted home ({ state := state } : Host State Task Operation Result Frame) where
  tended := {
    life := LifeInvariant.initial
    single := OneAtATime.initial
    plain := nofun
    closures := nofun
    works := nofun }
  taken r := by simp [Host.isMember]
  body r := by simp [Host.isMember]
  idle _ := rfl
  waiting := nofun

end Hosted

/-! ### Runs -/

structure Hosts (home : SchedulerId) (s : Host State Task Operation Result Frame)
    (image : Strand State Task Operation Result Frame) : Prop where
  hosted : Hosted home s
  strand : s.strand = image

namespace Host

/-- The code of the program runs on one thread at a time. -/
def OneThread (s : Host State Task Operation Result Frame) : Prop :=
  ∀ t other r q, s.isMember r = true → (s.system.threads t).pc = .body r →
    s.isMember q = true → (s.system.threads other).pc = .body q → other = t

end Host

variable {program : Program State Task Operation Result Frame Choice Call} {home : SchedulerId}

theorem follows_strand {state : State} {actions : List (HostAction Task Result Choice Call)}
    (legal : (program.hostSystem home).Legal { state := state } actions)
    (contract : (program.hostSystem home).EveryStep (HostContract home) { state := state } actions) :
    program.system.Legal { state := state }
        ((program.hostSystem home).trace Host.calls { state := state } actions) ∧
      Hosts home ((program.hostSystem home).run { state := state } actions)
        (program.system.run { state := state }
          ((program.hostSystem home).trace Host.calls { state := state } actions)) := by
  refine ActionSystem.everyStep_trace ?_ ⟨Hosted.initial state, rfl⟩ legal contract
  rintro s image action ⟨hosted, rfl⟩ enabled met
  have followed := hosted.step enabled met
  exact ⟨followed.legal, followed.hosted, followed.strand⟩

theorem everyState_hosted {state : State} {actions : List (HostAction Task Result Choice Call)}
    (legal : (program.hostSystem home).Legal { state := state } actions)
    (contract : (program.hostSystem home).EveryStep (HostContract home) { state := state } actions) :
    (program.hostSystem home).EveryState (Hosted home) { state := state } actions :=
  ActionSystem.everyState_of_invariant
    (fun _ _ hosted enabled met => (hosted.step enabled met).hosted)
    (Hosted.initial state) legal contract

theorem Hosted.oneThread {s : Host State Task Operation Result Frame} (hosted : Hosted home s) :
    s.OneThread :=
  fun _ _ _ _ member inside also alsoInside =>
    hosted.tended.unique member (.inl inside) also (.inl alsoInside)

/-- In every run of a program on runners, on any number of threads and beside any other
tasks, the steps of the program are a run of the strand that leads to the same state, and
its code runs on one thread at a time. -/
theorem host_refines_strand {state : State} {actions : List (HostAction Task Result Choice Call)}
    (legal : (program.hostSystem home).Legal { state := state } actions)
    (contract : (program.hostSystem home).EveryStep (HostContract home) { state := state } actions) :
    program.system.Legal { state := state }
        ((program.hostSystem home).trace Host.calls { state := state } actions) ∧
      ((program.hostSystem home).run { state := state } actions).strand =
        program.system.run { state := state }
          ((program.hostSystem home).trace Host.calls { state := state } actions) ∧
      (program.hostSystem home).EveryState Host.OneThread { state := state } actions := by
  obtain ⟨lawful, hosts⟩ := follows_strand legal contract
  exact ⟨lawful, hosts.strand, (everyState_hosted legal contract).imp fun _ hosted =>
    hosted.oneThread⟩

/-- A server is started by a task on thread 0, and begins to accept on thread 1, while
task 7 of somebody else runs on thread 2. -/
def startedOnTwoThreads :
    List (HostAction TcpServer.Task Completion TcpServer.Choice TcpServer.Call) :=
  [.post 0 .user, .runner (.runAsync 7 2), .runner (.dispatch 0 ⟨.start, 0, 1⟩),
    .runner (.dispatch 2 ⟨.start, 7, 2⟩), .begin 0 0 .start {}, .act .start,
    .runner (.enter 2 7 .start), .launch 1, .act .leave, .runner (.finish 0 0),
    .runner (.onExit 0 0), .runner (.switchTo 2 7 3), .runner (.detach 0),
    .runner (.dispatch 1 ⟨.start, 1, 1⟩), .begin 1 1 .start {}, .launch 2, .runner (.defer 1 1),
    .runner (.onExit 1 1), .runner (.returnHandler 1 1), .runner (.detach 1),
    .complete 0 { error := .success }, .deliver 0]

private theorem contract_startedOnTwoThreads :
    (TcpServer.program.hostSystem 1).EveryStep (HostContract 1)
      { state := (TcpServer.initial 1).state } startedOnTwoThreads :=
  hostContract_of_below 3 (by decide) (by decide)

theorem host_refines_strand_startedOnTwoThreads :
    TcpServer.program.system.Legal (TcpServer.initial 1)
        ((TcpServer.program.hostSystem 1).trace Host.calls
          { state := (TcpServer.initial 1).state } startedOnTwoThreads) ∧
      ((TcpServer.program.hostSystem 1).run { state := (TcpServer.initial 1).state }
          startedOnTwoThreads).strand =
        TcpServer.program.system.run (TcpServer.initial 1)
          ((TcpServer.program.hostSystem 1).trace Host.calls
            { state := (TcpServer.initial 1).state } startedOnTwoThreads) ∧
      (TcpServer.program.hostSystem 1).EveryState Host.OneThread
        { state := (TcpServer.initial 1).state } startedOnTwoThreads :=
  host_refines_strand (by decide) contract_startedOnTwoThreads

end FlatAsync

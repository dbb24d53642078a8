import FlatAsync.EngineTasks

/-!
# The life cycle of the engine

The flags of an engine change at once, and its server later, in tasks.  This file
finds the sequences of calls after which, whatever the order of the tasks, all of
them find the server they are meant for.
-/

namespace FlatAsync

/-! ### What a step of the main scheduler changes -/

def MainEntry.isCall : MainEntry → Bool
  | .task .start | .task .stop => true
  | .task (.server ..) | .resume .. => false

theorem MainEntry.ne_of_not_call {entry : MainEntry} (other : MainEntry.isCall entry = false) :
    entry ≠ .task .start ∧ entry ≠ .task .stop := by
  constructor
  · rintro rfl
    cases other
  · rintro rfl
    cases other

def MainTask.ofServer : MainTask → Bool
  | .start | .stop => false
  | .server .. => true

/-- A step adds entries other than those of calls to the queue, or takes the first
one, which is the task of `Start`, that of `Stop`, or another. -/
inductive MainChange (s after : MainStrand) : Prop
  | queued (more : List MainEntry) (queue : after.queue = s.queue ++ more)
      (others : ∀ entry ∈ more, MainEntry.isCall entry = false)
      (created : after.state.created = s.state.created)
      (stops : after.state.stops = s.state.stops)
      (generation : after.state.generation = s.state.generation)
  | started (queue : s.queue = .task .start :: after.queue)
      (created : after.state.created = s.state.created + 1)
      (stops : after.state.stops = s.state.stops)
      (generation : after.state.generation = some s.state.created)
  | stopped (queue : s.queue = .task .stop :: after.queue)
      (created : after.state.created = s.state.created)
      (stops : after.state.stops = s.state.stops ++ s.state.generation.toList)
      (generation : after.state.generation = s.state.generation)
  | begun (entry : MainEntry) (queue : s.queue = entry :: after.queue)
      (other : MainEntry.isCall entry = false)
      (created : after.state.created = s.state.created)
      (stops : after.state.stops = s.state.stops)
      (generation : after.state.generation = s.state.generation)

namespace MainState

variable {s : MainState} {generation : Nat} {code : TcpServer.State → TcpServer.Stretch}

theorem onServer_same : (s.onServer generation code).state.created = s.created ∧
    (s.onServer generation code).state.stops = s.stops ∧
      (s.onServer generation code).state.generation = s.generation := by
  unfold onServer
  split
  next server present =>
    split
    next own =>
      subst own
      exact ⟨rfl, rfl, by simp [embed, MainState.generation, present]⟩
    · exact ⟨rfl, rfl, rfl⟩
  · exact ⟨rfl, rfl, rfl⟩

theorem onServer_posts : ∀ task ∈ (s.onServer generation code).posts,
    MainTask.ofServer task = true := by
  intro task posted
  unfold onServer at posted
  split at posted
  · split at posted
    · obtain ⟨own, -, rfl⟩ := List.mem_map.mp posted
      rfl
    · simp [undefinedBehaviour] at posted
  · simp [undefinedBehaviour] at posted

private theorem begin_posts {choice : TcpServer.Choice} {rest : Multiset MainWork}
    {entry : MainEntry} :
    ∀ task ∈ (s.begin choice rest entry).posts, MainTask.ofServer task = true := by
  cases entry with
  | resume operation result => exact onServer_posts
  | task task =>
      cases task with
      | server generation task => exact onServer_posts
      | start =>
          intro task posted
          obtain ⟨own, -, rfl⟩ := List.mem_map.mp posted
          rfl
      | stop =>
          intro task posted
          simp only [begin, stopServer] at posted
          split at posted
          · obtain rfl := List.mem_singleton.mp posted
            rfl
          · simp [undefinedBehaviour] at posted

end MainState

/-- What is on the way to the queue are tasks of servers. -/
def OutboxClean (s : MainStrand) : Prop :=
  ∀ task ∈ s.outbox, MainTask.ofServer task = true

section MainSteps

variable {s : MainStrand} {action : MainAction}

private theorem perform_outbox {segment : MainStretch} (clean : OutboxClean s)
    (posts : ∀ task ∈ segment.posts, MainTask.ofServer task = true) :
    OutboxClean (s.perform segment) := by
  intro task member
  rcases List.mem_append.mp member with old | new
  · exact clean task old
  · exact posts task new

theorem outboxClean_step (clean : OutboxClean s) (enabled : mainProgram.Enabled s action) :
    OutboxClean (mainProgram.step s action) := by
  cases action with
  | post task => exact enabled.2.elim
  | flush =>
      simp only [Program.step]
      split
      · exact clean
      next task tasks out => exact fun other member => clean other (by simp [out, member])
  | begin choice =>
      simp only [Program.step]
      split
      · exact clean
      · exact perform_outbox clean MainState.begin_posts
  | complete index result =>
      simp only [Program.step]
      split <;> exact clean
  | deliver index =>
      simp only [Program.step]
      split <;> exact clean
  | act call =>
      simp only [Program.step]
      split
      · exact perform_outbox clean MainState.onServer_posts
      · exact clean

theorem mainChange (clean : OutboxClean s) (enabled : mainProgram.Enabled s action) :
    MainChange s (mainProgram.step s action) := by
  have unchanged : MainChange s s := .queued [] (by simp) (by simp) rfl rfl rfl
  cases action with
  | post task => exact enabled.2.elim
  | flush =>
      simp only [Program.step]
      split
      · exact unchanged
      next task tasks out =>
        have own := clean task (by simp [out])
        refine .queued [.task task] rfl (fun entry member => ?_) rfl rfl rfl
        obtain rfl := List.mem_singleton.mp member
        cases task with
        | start | stop => simp [MainTask.ofServer] at own
        | server => rfl
  | begin choice =>
      simp only [Program.step]
      split
      · exact unchanged
      next entry entries queue =>
        cases entry with
        | resume operation result =>
            obtain ⟨created, stops, generation⟩ := MainState.onServer_same
            exact .begun _ queue rfl created stops generation
        | task task =>
            cases task with
            | start => exact .started queue rfl rfl rfl
            | server generation task =>
                obtain ⟨created, stops, generation⟩ := MainState.onServer_same
                exact .begun _ queue rfl created stops generation
            | stop =>
                refine .stopped queue ?_ ?_ ?_ <;>
                  cases present : s.state.tcpServer <;>
                    simp [Strand.perform, mainProgram, MainState.begin, MainState.stopServer,
                      present, MainState.undefinedBehaviour, MainState.generation]
  | complete index result =>
      simp only [Program.step]
      split
      · exact .queued [] (by simp) (by simp) rfl rfl rfl
      · exact unchanged
  | deliver index =>
      simp only [Program.step]
      split
      next operation result here =>
        exact .queued [.resume operation result] rfl (by simp [MainEntry.isCall]) rfl rfl rfl
      · exact unchanged
  | act call =>
      simp only [Program.step]
      split
      next frame =>
        obtain ⟨created, stops, generation⟩ := MainState.onServer_same
        exact .queued [] (by simp [Strand.perform]) (by simp) created stops generation
      · exact unchanged

end MainSteps

/-! ### The calls of a run and the servers that they reach -/

/-- The task of `Stop` finds a server. -/
def FindsServer (s : MainState) (_ : Multiset MainWork) : MainMove → Prop
  | .begin _ (.task .stop) => s.tcpServer.isSome = true
  | _ => True

/-- The task of `Start` replaces no server that has tasks or connections. -/
def ReplacesIdle (s : MainState) (rest : Multiset MainWork) : MainMove → Prop
  | .begin _ (.task .start) => ∀ server, s.tcpServer = some server →
      serverItems server.generation rest = 0 ∧ server.state.getConnectedCount = 0
  | _ => True

/-- `Stop` of that server has been called, or a task that will call it stands in the
queue behind the tasks of as many calls of `Start` as are missing to this server. -/
def LeadsToStop (s : MainStrand) (generation : Nat) : Prop :=
  generation ∈ s.state.stops ∨
    ∃ before after : List MainEntry, s.queue = before ++ .task .stop :: after ∧
      s.state.created + before.count (.task .start) = generation + 1

namespace Engine

variable (s : Engine)

/-- A step of the main scheduler meets a condition on its move. -/
def Meets (condition : MainState → Multiset MainWork → MainMove → Prop) : EngineAction → Prop
  | .main action => s.main.During condition action
  | .call _ => True

/-- Each call of `Stop` that has returned true after a call of `Start` leads to
`Stop` of the server that the last such call creates. -/
def StopsLast : Prop :=
  ∀ generation, generation + 1 ∈ s.requests → LeadsToStop s.main generation

end Engine

def LifeCycleKept (actions : List EngineAction) : Prop :=
  engineSystem.EveryStep (fun s => s.Meets FindsServer) {} actions ∧
    engineSystem.EveryStep (fun s => s.Meets ReplacesIdle) {} actions ∧
      engineSystem.EveryState Engine.StopsLast {} actions

def callsOf : List EngineAction → List EngineCall
  | [] => []
  | .call call :: actions => call :: callsOf actions
  | .main _ :: actions => callsOf actions

/-- `Init` comes first and once. -/
def PassesAssertions : List EngineCall → Prop
  | [] => True
  | call :: calls => call = .init ∧ .init ∉ calls

instance : ∀ calls, Decidable (PassesAssertions calls)
  | [] => inferInstanceAs (Decidable True)
  | _ :: _ => inferInstanceAs (Decidable (_ ∧ _))

/-- `Start` is called once at most, and `Stop` only after it. -/
def StartsOnce (calls : List EngineCall) : Prop :=
  calls.count .start ≤ 1 ∧ .stop ∉ calls.takeWhile (· ≠ .start)

instance (calls : List EngineCall) : Decidable (StartsOnce calls) :=
  inferInstanceAs (Decidable (_ ∧ _))

/-! ### Engines that are started once -/

private theorem mem_takeWhile_append {α : Type} {keep : α → Bool} {item : α} {items more : List α}
    (member : item ∈ (items ++ more).takeWhile keep) :
    item ∈ items.takeWhile keep ∨ item ∈ more := by
  induction items with
  | nil => exact .inr ((List.takeWhile_sublist keep).subset member)
  | cons first items ih =>
      cases kept : keep first with
      | false => simp [kept] at member
      | true =>
          simp only [List.cons_append, List.takeWhile_cons, kept, if_true, List.mem_cons]
            at member ⊢
          rcases member with same | later
          · exact .inl (.inl same)
          · exact (ih later).imp_left .inr

private theorem takeWhile_append_of_mem {α : Type} {keep : α → Bool} {item : α}
    {items more : List α}
    (member : item ∈ items) (stops : keep item = false) :
    (items ++ more).takeWhile keep = items.takeWhile keep := by
  induction items with
  | nil => simp at member
  | cons first items ih =>
      cases kept : keep first with
      | false => simp [kept]
      | true =>
          have later : item ∈ items := by
            rcases List.mem_cons.mp member with rfl | later
            · simp [stops] at kept
            · exact later
          simp [kept, ih later]

/-- The present server is the last that has come into being. -/
def Numbered (s : MainState) : Prop :=
  s.generation = if s.created = 0 then none else some (s.created - 1)

/-- No task of `Stop` stands before the first of `Start`, unless there is a server. -/
def StopsFind (s : MainStrand) : Prop :=
  s.state.created = 0 → .task .stop ∉ s.queue.takeWhile (· ≠ .task .start)

/-- An engine on which `Start` has been called once at most, before `Stop`. -/
structure LifeCycleInvariant (s : Engine) : Prop where
  clean : OutboxClean s.main
  numbered : Numbered s.main.state
  started : s.main.state.created + s.main.queue.count (.task .start) = s.starts
  single : s.starts ≤ 1
  found : StopsFind s.main
  marked : s.stopped = true → LeadsToStop s.main 0
  requested : ∀ starts ∈ s.requests, starts = 1 ∧ s.stopped = true

section Changes

variable {s after : MainStrand} {generation : Nat}

theorem Numbered.change (numbered : Numbered s.state) (change : MainChange s after) :
    Numbered after.state := by
  unfold Numbered at numbered ⊢
  cases change with
  | started _ created _ present => simp [present, created]
  | queued _ _ _ created _ same | stopped _ created _ same | begun _ _ _ created _ same =>
      rw [same, created]
      exact numbered

theorem MainChange.starts_eq (change : MainChange s after) :
    after.state.created + after.queue.count (.task .start) =
      s.state.created + s.queue.count (.task .start) := by
  cases change with
  | queued more queue others created =>
      have none : more.count (.task .start) = 0 :=
        List.count_eq_zero.mpr fun member => (MainEntry.ne_of_not_call (others _ member)).1 rfl
      rw [queue, created, List.count_append, none, Nat.add_zero]
  | started queue created =>
      rw [queue, created, List.count_cons_self]
      omega
  | stopped queue created => rw [queue, created, List.count_cons_of_ne (by decide)]
  | begun entry queue other created =>
      rw [queue, created, List.count_cons_of_ne (MainEntry.ne_of_not_call other).1]

theorem StopsFind.change (found : StopsFind s) (change : MainChange s after) :
    StopsFind after := by
  intro none member
  cases change with
  | started _ created => omega
  | queued more queue others created =>
      rw [queue] at member
      rcases mem_takeWhile_append member with old | new
      · exact found (created ▸ none) old
      · exact (MainEntry.ne_of_not_call (others _ new)).2 rfl
  | stopped queue created =>
      refine found (created ▸ none) ?_
      rw [queue]
      simp
  | begun entry queue other created =>
      have different := (MainEntry.ne_of_not_call other).1
      refine found (created ▸ none) ?_
      rw [queue, List.takeWhile_cons_of_pos (by simpa using different)]
      exact List.mem_cons_of_mem _ member

/-- What leads to `Stop` of a server goes on to do so, and the task calls it when
the server is the present one. -/
theorem LeadsToStop.change (leads : LeadsToStop s generation) (numbered : Numbered s.state)
    (change : MainChange s after) : LeadsToStop after generation := by
  rcases leads with called | ⟨before, behind, place, missing⟩
  · left
    cases change with
    | stopped _ _ stops =>
        rw [stops]
        exact List.mem_append_left _ called
    | queued _ _ _ _ stops | started _ _ stops | begun _ _ _ _ stops =>
        rw [stops]
        exact called
  cases change with
  | queued more queue others created =>
      exact .inr ⟨before, behind ++ more, by simp [queue, place], by rw [created, missing]⟩
  | started queue created =>
      cases before with
      | nil => simp [queue] at place
      | cons first before =>
          obtain ⟨rfl, rest⟩ := List.cons.inj (queue.symm.trans place)
          refine .inr ⟨before, behind, rest, ?_⟩
          rw [List.count_cons_self] at missing
          omega
  | stopped queue created stops =>
      cases before with
      | nil =>
          left
          rw [stops, numbered]
          have here : s.state.created = generation + 1 := by simpa using missing
          simp [here]
      | cons first before =>
          obtain ⟨rfl, rest⟩ := List.cons.inj (queue.symm.trans place)
          refine .inr ⟨before, behind, rest, ?_⟩
          rw [List.count_cons_of_ne (by decide)] at missing
          rw [created, missing]
  | begun entry queue other created =>
      cases before with
      | nil =>
          obtain ⟨rfl, -⟩ := List.cons.inj (queue.symm.trans place)
          exact absurd rfl (MainEntry.ne_of_not_call other).2
      | cons first before =>
          obtain ⟨rfl, rest⟩ := List.cons.inj (queue.symm.trans place)
          refine .inr ⟨before, behind, rest, ?_⟩
          rw [List.count_cons_of_ne (MainEntry.ne_of_not_call other).1] at missing
          rw [created, missing]

theorem LeadsToStop.post (leads : LeadsToStop s generation) (entry : MainEntry) :
    LeadsToStop { s with queue := s.queue ++ [entry] } generation := by
  rcases leads with called | ⟨before, behind, place, missing⟩
  · exact .inl called
  · exact .inr ⟨before, behind ++ [entry], by simp [place], missing⟩

end Changes

/-- `Start` is called for the first time, or `Stop` after it. -/
def InSequence (s : Engine) : EngineAction → Prop
  | .call .start => s.starts = 0
  | .call .stop => 0 < s.starts
  | .call .init | .main _ => True

namespace LifeCycleInvariant

variable {s : Engine} {action : EngineAction}

theorem start (inv : LifeCycleInvariant s) (first : s.starts = 0) :
    LifeCycleInvariant (s.call .start) := by
  have started := inv.started
  refine ⟨inv.clean, inv.numbered, ?_, ?_, ?_, ?_, inv.requested⟩
  · simp only [Engine.call, Engine.start, Engine.runAsync, List.count_append]
    simp
    omega
  · simp [Engine.call, first]
  · intro none member
    rcases mem_takeWhile_append member with old | new
    · exact inv.found none old
    · simp at new
  · intro marked
    exact (inv.marked marked).post _

theorem stop (inv : LifeCycleInvariant s) (later : 0 < s.starts) :
    LifeCycleInvariant (s.call .stop) := by
  have started := inv.started
  have single := inv.single
  have one : s.starts = 1 := by omega
  cases stopped : s.stopped with
  | true =>
      have same : s.call .stop = { s with requests := s.starts :: s.requests } := by
        simp [Engine.call, Engine.stop, stopped]
      rw [same]
      refine ⟨inv.clean, inv.numbered, started, single, inv.found, inv.marked, ?_⟩
      intro starts member
      rcases List.mem_cons.mp member with rfl | old
      · exact ⟨one, stopped⟩
      · exact inv.requested starts old
  | false =>
      have posted : s.call .stop =
          { s with
            stopped := true
            main := { s.main with queue := s.main.queue ++ [.task .stop] }
            requests := s.starts :: s.requests } := by
        simp [Engine.call, Engine.stop, Engine.runAsync, stopped]
      rw [posted]
      refine ⟨inv.clean, inv.numbered, ?_, single, ?_, ?_, ?_⟩
      · simpa [List.count_append] using started
      · intro none member
        have waits : (.task .start : MainEntry) ∈ s.main.queue := by
          rw [← List.count_pos_iff]
          have none : s.main.state.created = 0 := none
          omega
        rw [takeWhile_append_of_mem waits (by simp)] at member
        exact inv.found none member
      · intro _
        exact .inr ⟨s.main.queue, [], rfl, started.trans one⟩
      · intro starts member
        rcases List.mem_cons.mp member with rfl | old
        · exact ⟨one, rfl⟩
        · exact ⟨(inv.requested starts old).1, rfl⟩

theorem step (inv : LifeCycleInvariant s) (enabled : s.Enabled action)
    (sequenced : InSequence s action) : LifeCycleInvariant (s.step action) := by
  cases action with
  | main action =>
      have change := mainChange inv.clean enabled.1
      refine ⟨outboxClean_step inv.clean enabled.1, inv.numbered.change change,
        change.starts_eq.trans inv.started, inv.single, inv.found.change change, ?_, inv.requested⟩
      intro marked
      exact (inv.marked marked).change inv.numbered change
  | call call =>
      cases call with
      | init =>
          exact ⟨inv.clean, inv.numbered, inv.started, inv.single, inv.found, inv.marked,
            inv.requested⟩
      | start => exact inv.start sequenced
      | stop => exact inv.stop sequenced

theorem initial : LifeCycleInvariant {} where
  clean := nofun
  numbered := rfl
  started := rfl
  single := Nat.zero_le 1
  found _ := by simp
  marked := nofun
  requested := nofun

/-- The task of `Stop` comes after a server has come into being. -/
theorem findsServer (inv : LifeCycleInvariant s) : s.Meets FindsServer action := by
  cases action with
  | call call => trivial
  | main action =>
      change s.main.During FindsServer action
      unfold Strand.During
      split
      next move rest effect =>
        unfold FindsServer
        split
        next choice =>
          obtain ⟨entries, queue⟩ := Strand.queue_of_begin effect
          have numbered := inv.numbered
          have born : s.main.state.created ≠ 0 := by
            intro none
            have before := inv.found none
            rw [queue] at before
            simp at before
          simp only [Numbered, born, if_false] at numbered
          cases present : s.main.state.tcpServer with
          | none => simp [MainState.generation, present] at numbered
          | some server => rfl
        · trivial
      · trivial

theorem replacesIdle (inv : LifeCycleInvariant s) : s.Meets ReplacesIdle action := by
  cases action with
  | call call => trivial
  | main action =>
      change s.main.During ReplacesIdle action
      unfold Strand.During
      split
      next move rest effect =>
        unfold ReplacesIdle
        split
        next choice =>
          obtain ⟨entries, queue⟩ := Strand.queue_of_begin effect
          have numbered := inv.numbered
          have started := inv.started
          have single := inv.single
          have unborn : s.main.state.created = 0 := by
            rw [queue, List.count_cons_self] at started
            omega
          simp only [Numbered, unborn, if_true] at numbered
          intro server present
          simp [MainState.generation, present] at numbered
        · trivial
      · trivial

theorem stopsLast (inv : LifeCycleInvariant s) : s.StopsLast := by
  intro generation requested
  obtain ⟨one, stopped⟩ := inv.requested _ requested
  obtain rfl : generation = 0 := by omega
  exact inv.marked stopped

end LifeCycleInvariant

theorem everyStep_inSequence {s : Engine} {actions : List EngineAction}
    (single : s.starts + (callsOf actions).count .start ≤ 1)
    (ordered : s.starts = 0 → .stop ∉ (callsOf actions).takeWhile (· ≠ .start)) :
    engineSystem.EveryStep InSequence s actions := by
  induction actions generalizing s with
  | nil => trivial
  | cons action actions ih =>
      cases action with
      | main action => exact ⟨trivial, ih single ordered⟩
      | call call =>
          cases call with
          | init =>
              have different : EngineCall.init ≠ .start := by decide
              simp only [callsOf, List.count_cons_of_ne different] at single
              refine ⟨trivial, ih single fun first => ?_⟩
              simpa [callsOf] using ordered first
          | start =>
              simp only [callsOf, List.count_cons_self] at single
              refine ⟨(by omega : s.starts = 0), ih ?_ fun first => ?_⟩
              · change s.starts + 1 + _ ≤ 1
                omega
              · exact absurd first (Nat.succ_ne_zero s.starts)
          | stop =>
              have later : 0 < s.starts := by
                apply Nat.pos_of_ne_zero
                intro first
                simp [callsOf] at ordered
                exact ordered first
              have same : (s.step (.call .stop)).starts = s.starts := by
                simp only [Engine.step, Engine.call, Engine.stop]
                split <;> rfl
              refine ⟨later, ih ?_ fun first => ?_⟩
              · change (s.step (.call .stop)).starts + _ ≤ 1
                rw [same]
                simpa [callsOf] using single
              · exact absurd (same.symm.trans first) later.ne'

/-- The life cycle of an engine that is started once, before it is stopped. -/
theorem lifeCycleKept_of_startsOnce {actions : List EngineAction}
    (legal : engineSystem.Legal {} actions) (once : StartsOnce (callsOf actions)) :
    LifeCycleKept actions := by
  have sequenced : engineSystem.EveryStep InSequence {} actions :=
    everyStep_inSequence (by simpa using once.1) fun _ => once.2
  have preserved : ∀ (s : Engine) (action : EngineAction), LifeCycleInvariant s →
      s.Enabled action → InSequence s action → LifeCycleInvariant (s.step action) :=
    fun _ _ inv enabled next => inv.step enabled next
  refine ⟨?_, ?_, ?_⟩
  · apply ActionSystem.everyStep_of_invariant preserved _ LifeCycleInvariant.initial legal sequenced
    intro s action inv _ _
    exact inv.findsServer
  · apply ActionSystem.everyStep_of_invariant preserved _ LifeCycleInvariant.initial legal sequenced
    intro s action inv _ _
    exact inv.replacesIdle
  · apply (ActionSystem.everyState_of_invariant preserved LifeCycleInvariant.initial legal
      sequenced).imp
    intro s inv
    exact inv.stopsLast

/-! ### Engines on which all calls are made at once -/

def postedBy : Bool → List EngineCall → List MainEntry
  | _, [] => []
  | stopped, .init :: calls => postedBy stopped calls
  | stopped, .start :: calls => .task .start :: postedBy stopped calls
  | true, .stop :: calls => postedBy true calls
  | false, .stop :: calls => .task .stop :: postedBy true calls

section Calls

variable {calls : List EngineCall}

private theorem callsOf_append (before after : List EngineAction) :
    callsOf (before ++ after) = callsOf before ++ callsOf after := by
  induction before with
  | nil => rfl
  | cons action before ih =>
      cases action with
      | call call => simp [callsOf, ih]
      | main action => simpa [callsOf] using ih

private theorem callsOf_call : callsOf (calls.map .call) = calls := by
  induction calls with
  | nil => rfl
  | cons call calls ih => simp [callsOf, ih]

private theorem callsOf_main (actions : List MainAction) : callsOf (actions.map .main) = [] := by
  induction actions with
  | nil => rfl
  | cons action actions ih => simpa [callsOf] using ih

private theorem run_calls (s : Engine) : (engineSystem.run s (calls.map .call)).main =
    { s.main with queue := s.main.queue ++ postedBy s.stopped calls } := by
  induction calls generalizing s with
  | nil => simp [ActionSystem.run, postedBy]
  | cons call calls ih =>
      rw [List.map_cons, ActionSystem.run, ih]
      cases call with
      | init => rfl
      | start =>
          simp [engineSystem, Engine.step, Engine.call, Engine.start, Engine.runAsync, postedBy]
      | stop =>
          cases stopped : s.stopped <;>
            simp [engineSystem, Engine.step, Engine.call, Engine.stop, Engine.runAsync, stopped,
              postedBy]

private theorem legal_calls {s : Engine} (initiated : s.initiated = true)
    (defined : s.main.state.undefined = false) (later : .init ∉ calls) :
    engineSystem.Legal s (calls.map .call) := by
  induction calls generalizing s with
  | nil => trivial
  | cons call calls ih =>
      have rest : .init ∉ calls := fun member => later (List.mem_cons_of_mem _ member)
      cases call with
      | init => simp at later
      | start => exact ⟨⟨defined, initiated⟩, ih initiated defined rest⟩
      | stop =>
          refine ⟨⟨defined, initiated⟩, ih ?_ ?_ rest⟩ <;>
            cases stopped : s.stopped <;>
              simpa [engineSystem, Engine.step, Engine.call, Engine.stop, Engine.runAsync, stopped]

/-- `Stop` is called before `Start`, and its task comes first. -/
theorem postedBy_of_stop (early : .stop ∈ calls.takeWhile (· ≠ .start)) :
    ∃ more, postedBy false calls = .task .stop :: more := by
  induction calls with
  | nil => simp at early
  | cons call calls ih =>
      cases call with
      | init => exact ih (by simpa using early)
      | start => simp at early
      | stop => exact ⟨_, rfl⟩

/-- Once `Stop` has posted its task, only `Start` posts one. -/
theorem postedBy_of_stopped (starts : 1 ≤ calls.count .start) :
    ∃ more, postedBy true calls = .task .start :: more := by
  induction calls with
  | nil => simp at starts
  | cons call calls ih =>
      cases call with
      | init | stop => exact ih (by simpa using starts)
      | start => exact ⟨_, rfl⟩

/-- The first task belongs to the first call that is not `Init`. -/
theorem postedBy_cases (starts : 1 ≤ calls.count .start) :
    (∃ later, postedBy false calls = .task .stop :: postedBy true later ∧
        later.count .start = calls.count .start) ∨
      ∃ later, postedBy false calls = .task .start :: postedBy false later ∧
        later.count .start + 1 = calls.count .start := by
  induction calls with
  | nil => simp at starts
  | cons call calls ih =>
      cases call with
      | init => simpa [postedBy] using ih (by simpa using starts)
      | stop => exact .inl ⟨calls, rfl, by simp⟩
      | start => exact .inr ⟨calls, rfl, by simp⟩

end Calls

private theorem run_mains (s : Engine) (actions : List MainAction) :
    (engineSystem.run s (actions.map .main)).main = mainProgram.system.run s.main actions := by
  induction actions generalizing s with
  | nil => rfl
  | cons action actions ih => exact ih _

section Runs

variable {calls : List EngineCall} {more : List MainEntry}

def MainAction.ofScheduler : MainAction → Bool
  | .flush | .begin _ => true
  | .post _ | .complete .. | .deliver _ | .act _ => false

private theorem legal_mains {s : Engine} {actions : List MainAction}
    (scheduled : ∀ action ∈ actions, MainAction.ofScheduler action = true)
    (legal : mainProgram.system.Legal s.main actions) :
    engineSystem.Legal s (actions.map .main) := by
  induction actions generalizing s with
  | nil => trivial
  | cons action actions ih =>
      have others : ∀ other ∈ actions, MainAction.ofScheduler other = true :=
        fun other member => scheduled other (List.mem_cons_of_mem _ member)
      refine ⟨⟨legal.1, ?_⟩, ih others legal.2⟩
      have own := scheduled action List.mem_cons_self
      unfold Strand.During
      cases action with
      | flush => trivial
      | begin choice =>
          simp only [Strand.effect]
          split
          next move rest effect =>
            split at effect
            · cases effect
            · cases effect
              trivial
          · trivial
      | post | complete | deliver | act => cases own

/-- All calls are made before the main scheduler takes its first step. -/
def callsFirst (calls : List EngineCall) (actions : List MainAction) : List EngineAction :=
  calls.map .call ++ actions.map .main

private theorem callsOf_callsFirst (actions : List MainAction) :
    callsOf (callsFirst calls actions) = calls := by
  rw [callsFirst, callsOf_append, callsOf_call, callsOf_main, List.append_nil]

theorem legal_callsFirst {actions : List MainAction} (passes : PassesAssertions calls)
    (scheduled : ∀ action ∈ actions, MainAction.ofScheduler action = true)
    (legal : mainProgram.system.Legal { state := {}, queue := postedBy false calls } actions) :
    engineSystem.Legal {} (callsFirst calls actions) := by
  have called : engineSystem.Legal {} (calls.map .call) := by
    cases calls with
    | nil => trivial
    | cons call calls =>
        obtain ⟨rfl, later⟩ := passes
        exact ⟨⟨rfl, rfl⟩, legal_calls rfl rfl later⟩
  refine ActionSystem.everyStep_append.mpr ⟨called, legal_mains scheduled ?_⟩
  rw [run_calls]
  exact legal

theorem during_of_callsFirst {condition : MainState → Multiset MainWork → MainMove → Prop}
    {actions : List MainAction} {last : MainAction}
    (kept : engineSystem.EveryStep (fun s => s.Meets condition) {}
      (callsFirst calls (actions ++ [last]))) :
    (mainProgram.system.run { state := {}, queue := postedBy false calls } actions).During condition
      last := by
  rw [callsFirst, List.map_append] at kept
  have final := (ActionSystem.everyStep_append.mp (ActionSystem.everyStep_append.mp kept).2).2.1
  have same : (engineSystem.run (engineSystem.run {} (calls.map .call)) (actions.map .main)).main =
      mainProgram.system.run { state := {}, queue := postedBy false calls } actions := by
    rw [run_mains, run_calls]
    rfl
  rw [← same]
  exact final

theorem misses_of_stop (passes : PassesAssertions calls)
    (queue : postedBy false calls = .task .stop :: more) :
    ∃ actions, engineSystem.Legal {} (callsFirst calls actions) ∧
      ¬ engineSystem.EveryStep (fun s => s.Meets FindsServer) {} (callsFirst calls actions) := by
  refine ⟨[] ++ [.begin {}], ?_, fun kept => ?_⟩
  · refine legal_callsFirst passes (by simp [MainAction.ofScheduler]) ?_
    rw [queue]
    exact ⟨⟨rfl, rfl, rfl, nofun⟩, trivial⟩
  · have finds := during_of_callsFirst kept
    rw [queue] at finds
    simp [ActionSystem.run, Strand.During, Strand.effect, FindsServer] at finds

theorem not_replacesIdle {s : MainStrand} {server : ServerObject} {task : TcpServer.Task}
    {choice : TcpServer.Choice} (present : s.state.tcpServer = some server)
    (queue : s.queue = .task .start :: more)
    (left : .task (.server server.generation task) ∈ more) :
    ¬ s.During ReplacesIdle (.begin choice) := by
  intro idle
  simp only [Strand.During, Strand.effect, queue, ReplacesIdle] at idle
  obtain ⟨none, -⟩ := idle server present
  have waits : (.queued (.task (.server server.generation task)) : MainWork) ∈
      ({ s with queue := more } : MainStrand).items :=
    Strand.queued_mem_items.mpr (List.mem_append_left _ left)
  have pending : .queued (.task task) ∈
      serverItems server.generation ({ s with queue := more } : MainStrand).items :=
    (Multiset.mem_filterMap _ _).mpr ⟨_, waits, by simp [serverItem]⟩
  simp [none] at pending

/-- The task of the first `Start`, and the task that the new server posts. -/
theorem run_start : mainProgram.system.run { state := {}, queue := .task .start :: more }
      [.begin {}, .flush] =
    { state := { tcpServer := some ⟨0, MainState.startedServer.1⟩, created := 1 }
      queue := more ++ [.task (.server 0 .start)] } :=
  rfl

private theorem run_start_stop : mainProgram.system.run
      { state := {}, queue := .task .start :: .task .stop :: more }
      [.begin {}, .flush, .begin {}, .flush] =
    { state := { tcpServer := some ⟨0, MainState.startedServer.1⟩, created := 1, stops := [0] }
      queue := more ++ [.task (.server 0 .start)] ++ [.task (.server 0 .stop)] } :=
  rfl

/-- `Start` twice in a row, or with a single `Stop` in between, replaces a server
that has not begun to listen. -/
theorem replaces_of_twice (passes : PassesAssertions calls) (twice : 2 ≤ calls.count .start)
    (queue : postedBy false calls = .task .start :: more) :
    ∃ actions, engineSystem.Legal {} (callsFirst calls actions) ∧
      ¬ engineSystem.EveryStep (fun s => s.Meets ReplacesIdle) {} (callsFirst calls actions) := by
  rcases postedBy_cases (show 1 ≤ calls.count .start by omega) with
    ⟨later, stop, -⟩ | ⟨later, start, count⟩
  · simp [queue] at stop
  rcases postedBy_cases (show 1 ≤ later.count .start by omega) with
    ⟨last, stop, count⟩ | ⟨last, again, -⟩
  · obtain ⟨rest, again⟩ := postedBy_of_stopped (show 1 ≤ last.count .start by omega)
    rw [stop, again] at start
    refine ⟨[.begin {}, .flush, .begin {}, .flush] ++ [.begin {}], ?_, fun idle => ?_⟩
    · refine legal_callsFirst passes (by simp [MainAction.ofScheduler]) ?_
      rw [start]
      exact ⟨⟨rfl, rfl, rfl, nofun⟩, ⟨rfl, nofun⟩, ⟨rfl, rfl, rfl, nofun⟩, ⟨rfl, nofun⟩,
        ⟨rfl, rfl, rfl, nofun⟩, trivial⟩
    · have replaced := during_of_callsFirst idle
      rw [start, run_start_stop] at replaced
      have left : .task (.server 0 .start) ∈
          rest ++ [.task (.server 0 .start)] ++ [.task (.server 0 .stop)] := by simp
      exact not_replacesIdle rfl rfl left replaced
  · rw [again] at start
    refine ⟨[.begin {}, .flush] ++ [.begin {}], ?_, fun idle => ?_⟩
    · refine legal_callsFirst passes (by simp [MainAction.ofScheduler]) ?_
      rw [start]
      exact ⟨⟨rfl, rfl, rfl, nofun⟩, ⟨rfl, nofun⟩, ⟨rfl, rfl, rfl, nofun⟩, trivial⟩
    · have replaced := during_of_callsFirst idle
      rw [start, run_start] at replaced
      have left : .task (.server 0 .start) ∈
          postedBy false last ++ [.task (.server 0 .start)] := by simp
      exact not_replacesIdle rfl rfl left replaced

end Runs

/-- In every run in which these calls are made, each task of `Stop` finds a server,
each task of `Start` replaces none that is in use, and each `Stop` after a `Start`
leads to `Stop` of its server, exactly if `Start` is called once at most and `Stop`
only after it. -/
theorem engine_life_cycle_iff {calls : List EngineCall} (passes : PassesAssertions calls) :
    (∀ actions, engineSystem.Legal {} actions → callsOf actions = calls →
      LifeCycleKept actions) ↔ StartsOnce calls := by
  constructor
  · intro kept
    have finds {more : List MainEntry} (queue : postedBy false calls = .task .stop :: more) :
        False := by
      obtain ⟨actions, legal, misses⟩ := misses_of_stop passes queue
      exact misses (kept _ legal (callsOf_callsFirst actions)).1
    constructor
    · by_contra more
      have twice : 2 ≤ calls.count .start := by omega
      rcases postedBy_cases (show 1 ≤ calls.count .start by omega) with
        ⟨later, stop, -⟩ | ⟨later, start, -⟩
      · exact finds stop
      · obtain ⟨actions, legal, replaces⟩ := replaces_of_twice passes twice start
        exact replaces (kept _ legal (callsOf_callsFirst actions)).2.1
    · intro early
      obtain ⟨more, queue⟩ := postedBy_of_stop early
      exact finds queue
  · rintro once actions legal rfl
    exact lifeCycleKept_of_startsOnce legal once

/-- An engine is started, listens and is stopped, once and again. -/
def startedAndStopped : List EngineAction :=
  [.call .init, .call .start, .main (.begin {}), .main .flush, .main (.begin {}), .main .flush,
    .call .stop, .main (.begin {}), .main (.act .leave), .main (.begin {}), .main .flush,
    .call .stop, .main (.begin {}), .main (.act .leave), .main (.deliver 0), .main (.begin {})]

theorem engine_life_cycle_startedAndStopped : LifeCycleKept startedAndStopped :=
  have passes : PassesAssertions [.init, .start, .stop, .stop] := by decide
  (engine_life_cycle_iff passes).mpr (by decide) startedAndStopped (by decide +kernel) rfl

/-- The engine is started and stopped again when nothing is left of its first
server. -/
def restarted : List EngineAction :=
  startedAndStopped ++
    [.call .start, .main (.begin {}), .main .flush, .main (.begin {}), .main .flush,
      .main (.begin {}), .main (.act .leave), .call .stop]

/-- After `restarted` the second server listens, `Stop` has returned true, and no task
is left that would stop the server.  An engine that is stopped before it is started
calls a null server. -/
theorem not_stopped_restarted :
    engineSystem.Legal {} restarted ∧ PassesAssertions (callsOf restarted) ∧
      (engineSystem.run {} restarted).requests.head? = some 2 ∧
      (engineSystem.run {} restarted).main.state.generation = some 1 ∧
      (engineSystem.run {} restarted).main.queue = [] ∧
      ¬ LifeCycleKept restarted ∧
      engineSystem.Legal {} [.call .init, .call .stop, .main (.begin {})] ∧
      ¬ LifeCycleKept [.call .init, .call .stop, .main (.begin {})] := by
  have empty : (engineSystem.run {} restarted).main.queue = [] := by decide +kernel
  refine ⟨by decide +kernel, by decide, by decide +kernel, by decide +kernel, empty, ?_,
    by decide, ?_⟩
  · rintro ⟨-, -, stops⟩
    rcases stops.last 1 (by decide +kernel) with called | ⟨before, after, queue, -⟩
    · exact absurd called (by decide +kernel)
    · simp [empty] at queue
  · rintro ⟨finds, -, -⟩
    have present : (none : Option ServerObject).isSome = true := finds.2.2.1
    simp at present

end FlatAsync

import FlatAsync.Waiter

/-!
# The rounds of a Waiter

A `Waiter` goes through rounds, each with a token of its own.  This file shows
that the token of the present round is held by its `Waiter` until `Wait` yields,
that the tokens of earlier rounds are answered, and that no two `Waiter` objects
share a token.
-/

namespace FlatAsync

variable {T : Type}

/-- What is known of the tokens of a `Waiter`. -/
structure Waiter.Sound (waiter : Waiter) (table : JoinTable T) : Prop where
  known : ∀ k ∈ waiter.tokens, (table.joins k).kind = .waiter ∧
    (table.joins k).owner = waiter.owner ∧ (table.joins k).phase ≠ .unused
  proceed : ∀ k ∈ waiter.tokens, (table.joins k).phase.Called → (table.joins k).proceed = true
  past : waiter.stage ≠ .unborn → ∀ k ∈ waiter.past, (table.joins k).phase = .answered
  resting : waiter.stage = .alive → waiter.waiting = false →
    ((table.joins waiter.token).phase = .idle ∧ (table.joins waiter.token).looping = true ∧
      (table.joins waiter.token).proceed = true) ∨ (table.joins waiter.token).phase = .answered
  waiting : waiter.stage = .alive → waiter.waiting = true →
    (table.joins waiter.token).phase.Called
  destroyed : waiter.stage = .destroyed →
    ((table.joins waiter.token).phase = .idle ∧ (table.joins waiter.token).looping = false) ∨
      (table.joins waiter.token).phase = .answered

theorem Waiter.token_mem {waiter : Waiter} (born : waiter.stage ≠ .unborn) :
    waiter.token ∈ waiter.tokens := by
  simp [Waiter.tokens, born]

theorem Waiter.past_mem {waiter : Waiter} (born : waiter.stage ≠ .unborn) {k : JoinId}
    (past : k ∈ waiter.past) : k ∈ waiter.tokens := by
  simp [Waiter.tokens, born, past]

theorem JoinPhase.idle_or_called {phase : JoinPhase} (used : phase ≠ .unused) :
    phase = .idle ∨ phase.Called := by
  cases phase with
  | unused => exact absurd rfl used
  | idle => exact .inl rfl
  | stored => exact .inr (.inl rfl)
  | begun => exact .inr (.inr (.inl rfl))
  | answered => exact .inr (.inr (.inr rfl))

/-- Steps of the joins that do not end a round of the `Waiter`. -/
theorem Waiter.Sound.frame {waiter : Waiter} {s : JoinState T} {action : JoinAction T}
    (sound : waiter.Sound s.table) (roll : JoinRoll s) (enabled : s.Enabled action)
    (stays : ∀ k ∈ waiter.tokens, action.endsRound k = false) :
    waiter.Sound (s.step action).table := by
  have answered {k : JoinId} (done : (s.table.joins k).phase = .answered) :
      ((s.step action).table.joins k).phase = .answered :=
    (roll.called_step enabled (.inr (.inr done))).2.2 done
  refine ⟨fun k member => ?_, fun k member called => ?_, fun born k past => ?_,
    fun alive rests => ?_, fun alive waits => ?_, fun dead => ?_⟩
  · obtain ⟨kind, owner, used⟩ := sound.known k member
    have call := roll.sameCall_step enabled used
    exact ⟨call.kind.trans kind, call.owner.trans owner, call.used⟩
  · rcases JoinPhase.idle_or_called (sound.known k member).2.2 with idle | before
    · simp [JoinPhase.Called, (roll.idle_step enabled idle (stays k member)).1] at called
    · rw [(roll.called_step enabled before).2.1]
      exact sound.proceed k member before
  · exact answered (sound.past born k past)
  · rcases sound.resting alive rests with ⟨idle, looping, proceed⟩ | done
    · have kept := roll.idle_step enabled idle (stays _ (token_mem (by simp [alive])))
      exact .inl ⟨kept.1, kept.2.1.trans looping, kept.2.2.trans proceed⟩
    · exact .inr (answered done)
  · exact (roll.called_step enabled (sound.waiting alive waits)).1
  · rcases sound.destroyed dead with ⟨idle, looping⟩ | done
    · have kept := roll.idle_step enabled idle (stays _ (token_mem (by simp [dead])))
      exact .inl ⟨kept.1, kept.2.1.trans looping⟩
    · exact .inr (answered done)

/-- A `Waiter` whose present token has just been made by `init`. -/
theorem Waiter.Sound.fresh {waiter : Waiter} {table : JoinTable T}
    (alive : waiter.stage = .alive) (rests : waiter.waiting = false)
    (made : table.joins waiter.token =
      { kind := .waiter, owner := waiter.owner, looping := true, phase := .idle })
    (past : ∀ k ∈ waiter.past, (table.joins k).kind = .waiter ∧
      (table.joins k).owner = waiter.owner ∧ (table.joins k).proceed = true ∧
        (table.joins k).phase = .answered) : waiter.Sound table := by
  have cases_of_mem {k : JoinId} (member : k ∈ waiter.tokens) :
      k = waiter.token ∨ k ∈ waiter.past := by
    simpa [Waiter.tokens, alive] using member
  refine ⟨fun k member => ?_, fun k member _ => ?_, fun _ k member => (past k member).2.2.2,
    fun _ _ => .inl (by simp [made]), fun _ waits => ?_, fun dead => ?_⟩
  · rcases cases_of_mem member with rfl | old
    · simp [made]
    · obtain ⟨kind, owner, -, answered⟩ := past k old
      exact ⟨kind, owner, by simp [answered]⟩
  · rcases cases_of_mem member with rfl | old
    · simp [made]
    · exact (past k old).2.2.1
  · simp [rests] at waits
  · simp [alive] at dead

/-- `waiting` does not matter once the present token is answered. -/
theorem Waiter.Sound.setWaiting {waiter : Waiter} {table : JoinTable T}
    (sound : waiter.Sound table) (waits : Bool)
    (answered : (table.joins waiter.token).phase = .answered) :
    ({ waiter with waiting := waits } : Waiter).Sound table :=
  ⟨sound.known, sound.proceed, sound.past, fun _ _ => .inr answered,
    fun _ _ => .inr (.inr answered), sound.destroyed⟩

theorem Waiter.Sound.suspend {waiter : Waiter} {table : JoinTable T} (sound : waiter.Sound table)
    (alive : waiter.stage = .alive) (idle : (table.joins waiter.token).phase = .idle)
    (proceed : (table.joins waiter.token).proceed = true) (r : RunnerId) :
    ({ waiter with waiting := true } : Waiter).Sound (table.deferJoin r waiter.token) := by
  have born : waiter.stage ≠ .unborn := by simp [alive]
  have known := sound.known _ (token_mem born)
  refine ⟨fun k member => ?_, fun k member called => ?_, fun _ k old => ?_, nofun,
    fun _ _ => .inl (by simp [JoinTable.deferJoin]), fun dead => ?_⟩
  · by_cases own : k = waiter.token
    · subst own
      simp [JoinTable.deferJoin, known]
    · simpa [JoinTable.deferJoin, own] using sound.known k member
  · by_cases own : k = waiter.token
    · subst own
      simp [JoinTable.deferJoin, proceed]
    · simp only [JoinTable.deferJoin, JoinTable.setJoin_joins, Function.update_of_ne own] at called ⊢
      exact sound.proceed k member called
  · have answered := sound.past born k old
    have own : k ≠ waiter.token := fun same => by simp [same, idle] at answered
    simpa [JoinTable.deferJoin, own] using answered
  · simp [alive] at dead

/-- `~Waiter` silences the deleter and releases its copy. -/
theorem Waiter.Sound.drop {waiter : Waiter} {table after : JoinTable T}
    (sound : waiter.Sound table) (alive : waiter.stage = .alive)
    (idle : (table.joins waiter.token).phase = .idle)
    (dropped : after.joins = Function.update table.joins waiter.token
      { table.joins waiter.token with proceed := false, looping := false }) :
    ({ waiter with stage := .destroyed } : Waiter).Sound after := by
  have born : waiter.stage ≠ .unborn := by simp [alive]
  have same (k : JoinId) (member : k ∈ ({ waiter with stage := .destroyed } : Waiter).tokens) :
      k ∈ waiter.tokens := by
    simpa [tokens, born] using member
  refine ⟨fun k member => ?_, fun k member called => ?_, fun _ k old => ?_, nofun, nofun,
    fun _ => .inl (by simp [dropped, idle])⟩
  · have known := sound.known k (same k member)
    by_cases own : k = waiter.token
    · subst own
      simpa [dropped] using known
    · simpa [dropped, own] using known
  · by_cases own : k = waiter.token
    · subst own
      simp [dropped, idle, JoinPhase.Called] at called
    · simp only [dropped, Function.update_of_ne own] at called ⊢
      exact sound.proceed k (same k member) called
  · have answered := sound.past born k old
    have own : k ≠ waiter.token := fun same => by simp [same, idle] at answered
    simpa [dropped, own] using answered

/-- The invariant of a system with `Waiter` objects. -/
structure WaiterInvariant (s : WaiterState T) : Prop where
  roll : JoinRoll s.joins
  sound : ∀ w, (s.waiters w).Sound s.joins.table
  apart : ∀ w other k, k ∈ (s.waiters w).tokens → k ∈ (s.waiters other).tokens → w = other

namespace WaiterInvariant

variable {s : WaiterState T} {w : WaiterId} {t : ThreadId}

/-- One `Waiter` is replaced, and the others see a step that ends none of their
rounds. -/
theorem replace (inv : WaiterInvariant s) {after : JoinState T} (roll : JoinRoll after)
    {waiter : Waiter} (own : waiter.Sound after.table)
    (others : ∀ other, other ≠ w → (s.waiters other).Sound after.table)
    (apart : ∀ k ∈ waiter.tokens, ∀ other, other ≠ w → k ∉ (s.waiters other).tokens) :
    WaiterInvariant ⟨after, Function.update s.waiters w waiter⟩ := by
  refine ⟨roll, fun other => ?_, fun first second k ofFirst ofSecond => ?_⟩
  · by_cases here : other = w
    · subst here
      simpa using own
    · simpa [here] using others other here
  · by_cases here : first = w <;> by_cases there : second = w
    · exact here.trans there.symm
    · subst here
      simp only [Function.update_self] at ofFirst
      exact absurd (by simpa [there] using ofSecond) (apart k ofFirst second there)
    · subst there
      simp only [Function.update_self] at ofSecond
      exact absurd (by simpa [here] using ofFirst) (apart k ofSecond first here)
    · exact inv.apart first second k (by simpa [here] using ofFirst)
        (by simpa [there] using ofSecond)

theorem not_shared (inv : WaiterInvariant s) {k : JoinId} (own : k ∈ (s.waiters w).tokens)
    (other : WaiterId) (different : other ≠ w) : k ∉ (s.waiters other).tokens :=
  fun shared => different (inv.apart other w k shared own)

theorem others_frame (inv : WaiterInvariant s) {action : JoinAction T}
    (enabled : s.joins.Enabled action) (stays : ∀ other, other ≠ w →
      ∀ k ∈ (s.waiters other).tokens, action.endsRound k = false) :
    ∀ other, other ≠ w → (s.waiters other).Sound (s.joins.step action).table :=
  fun other different => (inv.sound other).frame inv.roll enabled (stays other different)

private theorem not_token_of_unused (inv : WaiterInvariant s) {j : JoinId}
    (unused : (s.joins.table.joins j).phase = .unused) (w : WaiterId) :
    j ∉ (s.waiters w).tokens :=
  fun member => ((inv.sound w).known j member).2.2 unused

theorem makeWaiter_joins (s : JoinState T) (t : ThreadId) (r : RunnerId) (j : JoinId) :
    (s.step (.makeWaiter t r j)).table.joins j =
      { kind := .waiter, owner := r, looping := true, phase := .idle } := by
  simp [JoinState.step, JoinState.afterTable, JoinTable.newJoin]

theorem construct (inv : WaiterInvariant s) {r : RunnerId} {j : JoinId}
    (enabled : s.joins.Enabled (.makeWaiter t r j)) :
    WaiterInvariant ⟨s.joins.step (.makeWaiter t r j),
      Function.update s.waiters w { stage := .alive, owner := r, token := j }⟩ := by
  have unused := enabled.2.1.2
  refine inv.replace (inv.roll.step enabled trivial)
    (.fresh rfl rfl (makeWaiter_joins s.joins t r j) nofun)
    (inv.others_frame enabled fun _ _ _ _ => rfl) fun k member other _ => ?_
  obtain rfl : k = j := by simpa [Waiter.tokens] using member
  exact inv.not_token_of_unused unused other

/-- The owner of a `Waiter` works, so its last round, if it waits, is answered. -/
theorem answered_of_works (inv : WaiterInvariant s) (alive : (s.waiters w).stage = .alive)
    (waits : (s.waiters w).waiting = true)
    (works : (s.joins.system.threads t).WorksFor (s.waiters w).owner) :
    (s.joins.table.joins (s.waiters w).token).phase = .answered := by
  have born : (s.waiters w).stage ≠ .unborn := by simp [alive]
  have owner := ((inv.sound w).known _ (Waiter.token_mem born)).2.1
  have awake : ¬ s.joins.CallerRests (s.waiters w).token := fun rests => rests t (owner ▸ works)
  rcases (inv.sound w).waiting alive waits with stored | begun | answered
  · exact absurd (inv.roll.callerRests (.inl stored)) awake
  · exact absurd (inv.roll.callerRests (.inr begun)) awake
  · exact answered

theorem init (inv : WaiterInvariant s) {j : JoinId} (used : s.Used t w)
    (waits : (s.waiters w).waiting = true)
    (enabled : s.joins.Enabled (.makeWaiter t (s.waiters w).owner j)) :
    WaiterInvariant ⟨s.joins.step (.makeWaiter t (s.waiters w).owner j),
      Function.update s.waiters w
        { s.waiters w with
          token := j, past := (s.waiters w).token :: (s.waiters w).past, waiting := false }⟩ := by
  have unused := enabled.2.1.2
  have born : (s.waiters w).stage ≠ .unborn := by simp [used.1]
  have framed := (inv.sound w).frame inv.roll enabled fun _ _ => rfl
  have done := inv.answered_of_works used.1 waits (.inl used.2.1)
  refine inv.replace (inv.roll.step enabled trivial)
    (.fresh used.1 rfl (makeWaiter_joins s.joins t _ j) fun k old => ?_)
    (inv.others_frame enabled fun _ _ _ _ => rfl) fun k member other different => ?_
  · have member : k ∈ (s.waiters w).tokens := by simpa [Waiter.tokens, born] using old
    have answered : ((s.joins.step (.makeWaiter t (s.waiters w).owner j)).table.joins k).phase =
        .answered := by
      rcases List.mem_cons.mp old with rfl | older
      · exact (inv.roll.called_step enabled (.inr (.inr done))).2.2 done
      · exact framed.past born k older
    obtain ⟨kind, owner, -⟩ := framed.known k member
    exact ⟨kind, owner, framed.proceed k member (.inr (.inr answered)), answered⟩
  · have split : k = j ∨ k ∈ (s.waiters w).tokens := by
      simpa [Waiter.tokens, used.1] using member
    rcases split with rfl | old
    · exact inv.not_token_of_unused unused other
    · exact inv.not_shared old other different

theorem proceeder_eq (s : WaiterState T) {w : WaiterId} {j : JoinId}
    (held : s.proceeder w = some j) :
    j = (s.waiters w).token ∧ (s.joins.table.joins j).looping = true := by
  unfold WaiterState.proceeder at held
  split at held
  next looping =>
    obtain rfl := Option.some.inj held
    exact ⟨rfl, looping⟩
  · cases held

/-- A `Waiter` at rest whose `proceeder_` is null has been left by a `Wait` that
threw. -/
theorem answered_of_null (inv : WaiterInvariant s) (used : s.Used t w)
    (rests : (s.waiters w).waiting = false) (null : s.proceeder w = none) :
    (s.joins.table.joins (s.waiters w).token).phase = .answered := by
  rcases (inv.sound w).resting used.1 rests with ⟨-, looping, -⟩ | answered
  · simp [WaiterState.proceeder, looping] at null
  · exact answered

private theorem idle_of_held (inv : WaiterInvariant s) (used : s.Used t w)
    (rests : (s.waiters w).waiting = false) {j : JoinId} (held : s.proceeder w = some j) :
    (s.joins.table.joins j).phase = .idle ∧ (s.joins.table.joins j).proceed = true := by
  obtain ⟨rfl, looping⟩ := proceeder_eq s held
  have born : (s.waiters w).stage ≠ .unborn := by simp [used.1]
  rcases (inv.sound w).resting used.1 rests with ⟨idle, -, proceed⟩ | answered
  · exact ⟨idle, proceed⟩
  · have kind := ((inv.sound w).known _ (Waiter.token_mem born)).1
    simp [(inv.roll.released_of_answered kind answered).1] at looping

theorem waiterWait_table (s : JoinState T) (t : ThreadId) (r : RunnerId) (j : JoinId) :
    (s.step (.waiterWait t r j)).table =
      if (s.table.joins j).holders ≠ [] ∧ s.system.handleEvents t r = none then
        s.table.deferJoin r j
      else s.table := by
  simp only [JoinState.step, JoinState.afterTable, JoinState.ifCalm]
  by_cases unique : (s.table.joins j).holders = []
  · simp [unique]
  · cases event : s.system.handleEvents t r <;> simp [unique]

private theorem wait_held (inv : WaiterInvariant s) {j : JoinId} (used : s.Used t w)
    (rests : (s.waiters w).waiting = false) (held : s.proceeder w = some j)
    (enabled : s.joins.Enabled (.waiterWait t (s.waiters w).owner j)) :
    WaiterInvariant ⟨s.joins.step (.waiterWait t (s.waiters w).owner j),
      Function.update s.waiters w { s.waiters w with waiting := s.suspends t w }⟩ := by
  obtain ⟨rfl, looping⟩ := proceeder_eq s held
  obtain ⟨idle, proceed⟩ := inv.idle_of_held used rests held
  have born : (s.waiters w).stage ≠ .unborn := by simp [used.1]
  have own := Waiter.token_mem born
  have others := inv.others_frame (w := w) enabled fun other different k member => by
    have apart : (s.waiters w).token ≠ k := fun same =>
      inv.not_shared own other different (same ▸ member)
    simp [JoinAction.endsRound, apart]
  refine inv.replace (inv.roll.step enabled trivial) ?_ others fun k member =>
    inv.not_shared (by simpa [Waiter.tokens] using member)
  rw [waiterWait_table]
  have suspends : s.suspends t w = true ↔
      (s.joins.table.joins (s.waiters w).token).holders ≠ [] ∧
        s.joins.system.handleEvents t (s.waiters w).owner = none := by
    simp [WaiterState.suspends, WaiterState.unique, held]
  split
  next yields =>
    rw [suspends.mpr yields]
    exact (inv.sound w).suspend used.1 idle proceed _
  next returns =>
    have stays : s.suspends t w = false := by simpa using mt suspends.mp returns
    have same := inv.sound w
    rw [stays]
    exact ⟨same.known, same.proceed, same.past, fun _ _ => .inl ⟨idle, looping, proceed⟩, by simp,
      same.destroyed⟩

theorem dropWaiter_joins (s : JoinState T) (t : ThreadId) (r : RunnerId) (j : JoinId)
    (kind : (s.table.joins j).kind = .waiter) :
    (s.step (.dropWaiter t r j)).table.joins =
      Function.update s.table.joins j
        { s.table.joins j with proceed := false, looping := false } := by
  simp only [JoinState.step, JoinState.afterTable, JoinTable.releaseLoop,
    JoinTable.setJoin_setJoin, JoinTable.setJoin_releaseIfLast_joins]
  simp [Join.afterRelease, kind]

private theorem destroy_held (inv : WaiterInvariant s) {j : JoinId} (used : s.Used t w)
    (rests : (s.waiters w).waiting = false) (held : s.proceeder w = some j)
    (enabled : s.joins.Enabled (.dropWaiter t (s.waiters w).owner j)) :
    WaiterInvariant ⟨s.joins.step (.dropWaiter t (s.waiters w).owner j),
      Function.update s.waiters w { s.waiters w with stage := .destroyed }⟩ := by
  obtain ⟨rfl, looping⟩ := proceeder_eq s held
  obtain ⟨idle, proceed⟩ := inv.idle_of_held used rests held
  have born : (s.waiters w).stage ≠ .unborn := by simp [used.1]
  have own := Waiter.token_mem born
  have others := inv.others_frame (w := w) enabled fun other different k member => by
    have apart : (s.waiters w).token ≠ k := fun same =>
      inv.not_shared own other different (same ▸ member)
    simp [JoinAction.endsRound, apart]
  refine inv.replace (inv.roll.step enabled trivial) ((inv.sound w).drop used.1 idle ?_) others
    fun k member => inv.not_shared (by simpa [Waiter.tokens, born] using member)
  exact dropWaiter_joins s.joins t _ _ ((inv.sound w).known _ own).1

private theorem wait_null (inv : WaiterInvariant s) (used : s.Used t w)
    (rests : (s.waiters w).waiting = false) (null : s.proceeder w = none)
    (enabled : s.joins.Enabled (.defer t (s.waiters w).owner 0)) :
    WaiterInvariant ⟨s.joins.step (.defer t (s.waiters w).owner 0),
      Function.update s.waiters w { s.waiters w with waiting := s.suspends t w }⟩ := by
  have done := inv.answered_of_null used rests null
  have framed := (inv.sound w).frame inv.roll enabled fun _ _ => rfl
  refine inv.replace (inv.roll.step enabled trivial)
    (framed.setWaiting _ ((inv.roll.called_step enabled (.inr (.inr done))).2.2 done))
    (inv.others_frame enabled fun _ _ _ _ => rfl) fun k member => inv.not_shared ?_
  simpa [Waiter.tokens] using member

/-- A step that ends no round, after which a `Waiter` has launched more. -/
theorem launched (inv : WaiterInvariant s) {action : JoinAction T}
    (enabled : s.joins.Enabled action) (contract : UserContract s.joins action)
    (stays : ∀ k, action.endsRound k = false) (tasks : List RunnerId) :
    WaiterInvariant ⟨s.joins.step action,
      Function.update s.waiters w { s.waiters w with launched := tasks }⟩ := by
  have framed := (inv.sound w).frame inv.roll enabled fun k _ => stays k
  refine inv.replace (inv.roll.step enabled contract)
    ⟨framed.known, framed.proceed, framed.past, framed.resting, framed.waiting, framed.destroyed⟩
    (inv.others_frame enabled fun _ _ k _ => stays k) fun k member => inv.not_shared ?_
  simpa [Waiter.tokens] using member

private theorem destroy_null (inv : WaiterInvariant s) (used : s.Used t w)
    (rests : (s.waiters w).waiting = false) (null : s.proceeder w = none) :
    WaiterInvariant ⟨s.joins,
      Function.update s.waiters w { s.waiters w with stage := .destroyed }⟩ := by
  have done := inv.answered_of_null used rests null
  have born : (s.waiters w).stage ≠ .unborn := by simp [used.1]
  have sound := inv.sound w
  have same (k : JoinId) (member : k ∈ ({ s.waiters w with stage := .destroyed } : Waiter).tokens) :
      k ∈ (s.waiters w).tokens := by
    simpa [Waiter.tokens, born] using member
  refine inv.replace inv.roll
    ⟨fun k member => sound.known k (same k member), fun k member => sound.proceed k (same k member),
      fun _ => sound.past born, nofun, nofun, fun _ => .inr done⟩
    (fun other _ => inv.sound other) fun k member => inv.not_shared (same k member)

theorem afterOther_eq (s : WaiterState T) (action : JoinAction T) (w : WaiterId) :
    s.afterOther action w = s.waiters w ∨
      ∃ t, action = .runner (.enter t (s.waiters w).owner .proceed) ∧
        (s.joins.system.handleEvents t (s.waiters w).owner).isSome ∧
          s.afterOther action w = { s.waiters w with waiting := false } := by
  unfold WaiterState.afterOther
  split
  next _ t r =>
    split
    next event =>
      obtain ⟨rfl, event⟩ := event
      exact .inr ⟨t, rfl, event, rfl⟩
    · exact .inl rfl
  · exact .inl rfl

theorem other (inv : WaiterInvariant s) {action : JoinAction T} (plain : action.plain = true)
    (enabled : s.joins.Enabled action) (contract : UserContract s.joins action) :
    WaiterInvariant ⟨s.joins.step action, s.afterOther action⟩ := by
  have stays (k : JoinId) : action.endsRound k = false := by
    cases action <;> first | rfl | cases plain
  have tokens (w : WaiterId) : (s.afterOther action w).tokens = (s.waiters w).tokens := by
    rcases afterOther_eq s action w with same | ⟨_, _, _, same⟩ <;> rw [same]
    rfl
  refine ⟨inv.roll.step enabled contract, fun w => ?_, fun w other k own also => ?_⟩
  · have framed := (inv.sound w).frame inv.roll enabled fun k _ => stays k
    change (s.afterOther action w).Sound (s.joins.step action).table
    rcases afterOther_eq s action w with same | ⟨t, rfl, -, same⟩
    · rw [same]
      exact framed
    · rw [same]
      have entered : (s.joins.system.threads t).WorksFor (s.waiters w).owner :=
        .inr ⟨.proceed, enabled.2.2.1⟩
      refine ⟨framed.known, framed.proceed, framed.past, fun alive _ => ?_, nofun,
        framed.destroyed⟩
      cases waits : (s.waiters w).waiting with
      | false => exact framed.resting alive waits
      | true =>
          have done := inv.answered_of_works alive waits entered
          exact .inr ((inv.roll.called_step enabled (.inr (.inr done))).2.2 done)
  · exact inv.apart w other k (tokens w ▸ own) (tokens other ▸ also)

theorem step (inv : WaiterInvariant s) {action : WaiterAction T} (enabled : s.Enabled action)
    (contract : s.Contract action) : WaiterInvariant (s.step action) := by
  obtain ⟨guard, permitted⟩ := enabled
  unfold WaiterState.Contract at contract
  cases action with
  | other action => exact inv.other guard permitted contract
  | construct t r w j => exact inv.construct permitted
  | init t w j => exact inv.init guard.1 guard.2 permitted
  | runAsync t w created =>
      simp only [WaiterState.step, WaiterState.afterWaiters]
      cases held : s.proceeder w with
      | none =>
          simp only [WaiterState.joinAction, held] at permitted contract ⊢
          exact inv.launched permitted contract (fun _ => rfl) _
      | some j =>
          simp only [WaiterState.joinAction, held] at permitted contract ⊢
          exact inv.launched permitted contract (fun _ => rfl) _
  | wait t w =>
      simp only [WaiterState.step, WaiterState.afterWaiters]
      cases held : s.proceeder w with
      | none =>
          simp only [WaiterState.joinAction, held] at permitted ⊢
          exact inv.wait_null guard.1 guard.2 held permitted
      | some j =>
          simp only [WaiterState.joinAction, held] at permitted ⊢
          exact inv.wait_held guard.1 guard.2 held permitted
  | destroy t w =>
      simp only [WaiterState.step, WaiterState.afterWaiters]
      cases held : s.proceeder w with
      | none =>
          simp only [WaiterState.joinAction, held] at permitted ⊢
          exact inv.destroy_null guard.1 guard.2 held
      | some j =>
          simp only [WaiterState.joinAction, held] at permitted ⊢
          exact inv.destroy_held guard.1 guard.2 held permitted

theorem initial : WaiterInvariant ({} : WaiterState T) where
  roll := JoinRoll.initial
  sound _ := ⟨nofun, nofun, nofun, nofun, nofun, nofun⟩
  apart := nofun

end WaiterInvariant

end FlatAsync

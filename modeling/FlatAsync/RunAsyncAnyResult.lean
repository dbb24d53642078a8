import FlatAsync.JoinOutcome

/-!
# RunAsyncAnyResult

The counter of `RunAsyncAnyResult` is incremented by every child that returns a
value, and once more by the destructor that runs with the last copy of the
shared pointer.  This file shows that the caller gets the first value that was
returned, and none only when all handlers have ended without one.
-/

namespace FlatAsync

variable {T : Type}

/-- The value, if any, that a step returns from a handler of join `j`. -/
def JoinState.returnedValues (j : JoinId) (s : JoinState T) : JoinAction T → List T
  | .childReturns _ r value =>
      match s.table.child r with
      | some child => if child.join = j then value.toList else []
      | none => []
  | _ => []

/-- What the shared state of a `RunAsyncAnyResult` says when its handlers have
returned `values`, in this order. -/
structure ResultLaw (join : Join T) (values : List T) : Prop where
  unused : join.phase = .unused → values = []
  result : join.kind = .anyResult → join.result = values.head?
  unclaimed : join.kind = .anyResult → join.counter = 0 → values = []
  nobody : join.kind = .anyResult → join.counter ≠ 0 → values = [] →
    join.looping = false ∧ join.holders = []

namespace ResultLaw

variable {join after : Join T} {values : List T}

theorem keep (law : ResultLaw join values) (used : after.phase = .unused → values = [])
    (kind : after.kind = join.kind) (counter : after.counter = join.counter)
    (result : after.result = join.result)
    (gone : join.looping = false → join.holders = [] →
      after.looping = false ∧ after.holders = []) : ResultLaw after values where
  unused := used
  result any := by rw [result, law.result (kind ▸ any)]
  unclaimed any zero := law.unclaimed (kind ▸ any) (counter ▸ zero)
  nobody any counted empty := by
    obtain ⟨looping, holders⟩ := law.nobody (kind ▸ any) (counter ▸ counted) empty
    exact gone looping holders

/-- `Counter::~Counter` counts only when no value has been counted. -/
theorem afterRelease (law : ResultLaw join values) : ResultLaw join.afterRelease values := by
  unfold Join.afterRelease
  split
  next last =>
    unfold Join.tryProceed
    split
    next first =>
      have empty := law.unclaimed last.2 first
      exact ⟨law.unused, fun _ => by simp [empty], fun _ => by simp, fun _ _ _ => last.1⟩
    · exact ⟨law.unused, law.result, fun _ => by simp, fun _ _ _ => last.1⟩
  · exact law

/-- A handler returns `value` while its closure still holds a copy. -/
theorem tryProceed (law : ResultLaw join values) (kind : join.kind = .anyResult)
    (used : join.phase ≠ .unused) (held : join.holders ≠ []) (value : T) :
    ResultLaw (join.tryProceed (some value)) (values ++ [value]) := by
  unfold Join.tryProceed
  split
  next first =>
    have empty := law.unclaimed kind first
    exact ⟨fun unused => absurd unused used, fun _ => by simp [empty],
      fun _ => by simp, fun _ _ none => by simp at none⟩
  next counted =>
    have some : values ≠ [] := fun empty => held (law.nobody kind counted empty).2
    refine ⟨fun unused => absurd unused used, fun _ => ?_, fun _ => by simp,
      fun _ _ none => by simp at none⟩
    simp only [law.result kind, List.head?_append_of_ne_nil values some]

theorem other (kind : join.kind ≠ .anyResult) (used : join.phase ≠ .unused) (seen : List T) :
    ResultLaw join seen :=
  ⟨fun unused => absurd unused used, fun any => absurd any kind, fun any => absurd any kind,
    fun any => absurd any kind⟩

end ResultLaw

namespace JoinRoll

variable {s : JoinState T} {action : JoinAction T} {j : JoinId} {values : List T}

/-- A closure whose handler has not ended holds a copy of the shared
pointer. -/
theorem holds_of_running (inv : JoinRoll s) {r : RunnerId} {child : Child}
    (found : s.table.child r = some child) (runs : child.ended = false) :
    r ∈ (s.table.joins child.join).holders := by
  rcases inv.inv.fits.children r child found with deleted | holds
  · simp [inv.ended_of_deleted found deleted] at runs
  · exact holds

private theorem resultLaw_of_changes (inv : JoinRoll s) {after : Join T}
    (law : ResultLaw (s.table.joins j) values) (changes : s.Changes j action after)
    (notReturn : ∀ t r value, action ≠ .childReturns t r (some value)) :
    ResultLaw after values := by
  cases changes with
  | same _ same => exact same ▸ law
  | made _ unused kind owner handlers phase starts _ _ same =>
      subst same
      have empty := law.unused unused
      exact ⟨fun _ => empty, fun _ => by simp [empty], fun _ _ => empty,
        fun _ counted => absurd rfl counted⟩
  | suspends _ _ _ _ same | begins _ _ same | answered _ _ same =>
      subst same
      exact law.keep nofun rfl rfl rfl fun looping holders => ⟨looping, holders⟩
  | launches _ looping created _ same =>
      subst same
      exact law.keep law.unused rfl rfl rfl fun ceased => by simp [looping] at ceased
  | releasesLoop _ looping proceed _ same =>
      subst same
      refine ResultLaw.afterRelease (law.keep law.unused rfl rfl rfl fun ceased => ?_)
      simp [looping] at ceased
  | releasesChild _ t r child exits found own same =>
      subst same
      refine ResultLaw.afterRelease (law.keep law.unused rfl rfl rfl fun looping holders => ?_)
      exact ⟨looping, by simp [holders]⟩
  | returns _ _ t r child value returned => exact absurd returned (notReturn t r value)
  | counts _ kind t index _ counting same =>
      subst same
      have counts := (s.table.joins j).tryIndex_same index
      refine ResultLaw.other (by simp [counts.kind, kind]) ?_ _
      rw [counts.phase]
      rcases (inv.inv.ledger.counting t j index counting).2 with phase | phase <;> simp [phase]

theorem resultLaw_step (inv : JoinRoll s) (enabled : s.Enabled action)
    (law : ResultLaw (s.table.joins j) values) :
    ResultLaw ((s.step action).table.joins j) (values ++ s.returnedValues j action) := by
  by_cases returns : ∃ t r value, action = .childReturns t r (some value)
  · obtain ⟨t, r, value, rfl⟩ := returns
    obtain ⟨child, found⟩ := Option.isSome_iff_exists.mp enabled.2.1.2.1.1
    have runs : child.ended = false := by simpa [JoinState.ended, found] using enabled.2.1.2.1.2
    have used := inv.inv.ledger.known r child found
    simp only [JoinState.step, JoinState.afterTable, found, JoinState.returnedValues]
    rcases s.table.childReturns_cases t r child (some value) with
      ⟨kind, result, given, same⟩ | ⟨kind, same⟩ | ⟨-, other, same⟩ <;> rw [same]
    · obtain rfl := Option.some.inj given
      rw [JoinTable.tryProceed, JoinTable.settle_joins]
      by_cases own : child.join = j
      · subst own
        have holds := inv.holds_of_running found runs
        simpa using law.tryProceed kind used (List.ne_nil_of_mem holds) value
      · simpa [own, Ne.symm own] using law
    · by_cases own : child.join = j
      · subst own
        exact ResultLaw.other (by simp [kind]) used _
      · simpa [own] using law
    · by_cases own : child.join = j
      · subst own
        exact ResultLaw.other (fun any => absurd (other any) (by simp)) used _
      · simpa [own] using law
  · have notReturn : ∀ t r value, action ≠ .childReturns t r (some value) :=
      fun t r value same => returns ⟨t, r, value, same⟩
    have nothing : s.returnedValues j action = [] := by
      cases action with
      | childReturns t r value =>
          cases value with
          | none =>
              unfold JoinState.returnedValues
              dsimp only
              split
              · exact ite_self _
              · rfl
          | some value => exact absurd rfl (notReturn t r value)
      | _ => rfl
    simpa [nothing] using inv.resultLaw_of_changes law (inv.changes enabled j) notReturn

theorem resultLaw {actions : List (JoinAction T)} (legal : (joinSystem T).Legal {} actions)
    (contract : (joinSystem T).EveryStep UserContract {} actions) (j : JoinId) :
    ResultLaw (((joinSystem T).run {} actions).table.joins j)
      ((joinSystem T).trace (JoinState.returnedValues j) {} actions) := by
  have first : ResultLaw (({} : JoinState T).table.joins j) [] :=
    ⟨fun _ => rfl, fun _ => rfl, fun _ _ => rfl, fun any => nomatch any⟩
  have preserved : ∀ (s : JoinState T) (values : List T) (action : JoinAction T), JoinRoll s →
      ResultLaw (s.table.joins j) values → s.Enabled action → UserContract s action →
        ResultLaw ((s.step action).table.joins j) (values ++ s.returnedValues j action) :=
    fun _ _ _ inv law enabled _ => inv.resultLaw_step enabled law
  exact JoinRoll.trace preserved first legal contract

/-- The result of a join whose counter has been incremented does not change. -/
theorem counted_step (inv : JoinRoll s) (enabled : s.Enabled action)
    (used : (s.table.joins j).phase ≠ .unused) (any : (s.table.joins j).kind = .anyResult)
    (counted : (s.table.joins j).counter ≠ 0) :
    ((s.step action).table.joins j).counter ≠ 0 ∧
      ((s.step action).table.joins j).result = (s.table.joins j).result := by
  have increment (join : Join T) (result : Option T) (counted : join.counter ≠ 0) :
      (join.tryProceed result).counter ≠ 0 ∧ (join.tryProceed result).result = join.result := by
    simp [Join.tryProceed, counted]
  have release (join : Join T) (counted : join.counter ≠ 0) :
      join.afterRelease.counter ≠ 0 ∧ join.afterRelease.result = join.result := by
    unfold Join.afterRelease
    split
    · exact increment join none counted
    · exact ⟨counted, rfl⟩
  cases inv.changes enabled j with
  | same _ same | launches _ _ _ _ same | suspends _ _ _ _ same | begins _ _ same
  | answered _ _ same => simp [same, counted]
  | made _ unused => exact absurd unused used
  | releasesLoop _ _ _ _ same | releasesChild _ _ _ _ _ _ _ same =>
      rw [same]
      exact release _ counted
  | returns _ _ _ _ _ value _ _ _ _ same =>
      rw [same]
      exact increment _ (some value) counted
  | counts _ kind => simp [kind] at any

private theorem counted_run (inv : JoinRoll s) {actions : List (JoinAction T)}
    (legal : (joinSystem T).Legal s actions)
    (contract : (joinSystem T).EveryStep UserContract s actions)
    (used : (s.table.joins j).phase ≠ .unused) (any : (s.table.joins j).kind = .anyResult)
    (counted : (s.table.joins j).counter ≠ 0) :
    (((joinSystem T).run s actions).table.joins j).result = (s.table.joins j).result := by
  induction actions generalizing s with
  | nil => rfl
  | cons action actions ih =>
      have call := inv.sameCall_step legal.1 used
      obtain ⟨stillCounted, same⟩ := inv.counted_step legal.1 used any counted
      exact (ih (inv.step legal.1 contract.1) legal.2 contract.2 call.used
        (call.kind.trans any) stillCounted).trans same

end JoinRoll

/-- The caller of a `RunAsyncAnyResult` gets `result`: the first of the values
returned so far, and none only when all handlers have ended. -/
structure ReturnsFirst (s : JoinState T) (j : JoinId) (values : List T) (result : Option T) :
    Prop where
  first : result = values.head?
  nobody : result = none → (s.table.joins j).looping = false ∧ s.AllEnded j

/-- In every run, the proceed handler of a `RunAsyncAnyResult` is called once at
most; the result the caller finds at any time after that is the first value
returned before it, and none only when all handlers had ended; the caller rests
until the call, which is made when all children are gone. -/
theorem run_async_any_result {actions : List (JoinAction T)}
    (legal : (joinSystem T).Legal {} actions)
    (contract : (joinSystem T).EveryStep UserContract {} actions) :
    (∀ j before answer after, actions = before ++ answer :: after → answer.answers j = true →
        (((joinSystem T).run {} before).table.joins j).kind = .anyResult →
          ReturnsFirst ((joinSystem T).run {} before) j
            ((joinSystem T).trace (JoinState.returnedValues j) {} before)
            (((joinSystem T).run {} actions).table.joins j).result) ∧
      (joinSystem T).EveryState (fun s => ∀ j, (s.table.joins j).kind = .anyResult →
        (s.table.joins j).phase ≠ .unused → WaitsForAnswer s j) {} actions ∧
      ∀ j, actions.countP (·.answers j) =
        (((joinSystem T).run {} actions).table.joins j).phase.answers := by
  refine ⟨fun j before answer after split answers any => ?_,
    (JoinRoll.everyState legal contract).imp fun s inv j kind used => ?_,
    JoinRoll.count_answers legal contract⟩
  · subst split
    obtain ⟨legalBefore, rest⟩ := ActionSystem.everyStep_append.mp legal
    obtain ⟨contractBefore, contractRest⟩ := ActionSystem.everyStep_append.mp contract
    have inv := (JoinRoll.everyState legalBefore contractBefore).last
    have law := JoinRoll.resultLaw legalBefore contractBefore j
    have used : (((joinSystem T).run {} before).table.joins j).phase ≠ .unused := by
      simp [inv.begun_of_answers rest.1 answers]
    have counted : (((joinSystem T).run {} before).table.joins j).counter ≠ 0 := by
      simpa [Join.claimed, any] using inv.claimed_of_answers rest.1 answers
    have kept := inv.counted_run rest contractRest used any counted
    rw [ActionSystem.run_append, kept]
    refine ⟨law.result any, fun nobody => ?_⟩
    have empty := List.head?_eq_none_iff.mp ((law.result any).symm.trans nobody)
    obtain ⟨looping, holders⟩ := law.nobody any counted empty
    exact ⟨looping, inv.allEnded used (by simp [any]) looping holders⟩
  · refine ⟨inv.callerRests, fun running gone => inv.resumed running used ?_ ?_⟩
    · have counted := inv.due.gone j used kind gone.1 (inv.holders_eq_nil_iff.mpr gone.2)
      simpa [Join.claimed, kind] using counted
    · exact inv.inv.ledger.proceed j (by simp [kind])

/-- Task 0 calls `RunAsyncAnyResult` with three handlers.  The first one returns
none, the second one 7, and the third one 9 after the call of the proceed
handler. -/
def secondValue : List (JoinAction Nat) :=
  [.runner (.runAsync 0 1), .runner (.dispatch 0 ⟨.start, 0, 1⟩),
    .runner (.enter 0 0 .start), .join 0 0 0 .anyResult 3, .runner (.onExit 0 0), .launch 0 0 1,
    .runner (.dispatch 1 ⟨.start, 1, 1⟩), .runner (.enter 1 1 .start), .childReturns 1 1 none,
    .runner (.finish 1 1), .runner (.onExit 1 1), .runner (.detach 1), .launch 0 0 2,
    .launch 0 0 3, .endLoop 0 0, .runner (.dispatch 1 ⟨.start, 2, 1⟩),
    .runner (.enter 1 2 .start), .childReturns 1 2 (some 7)]

theorem run_async_any_result_secondValue :
    (((joinSystem Nat).run {} (secondValue ++ .callProceed 1 0 ::
      [.runner (.dispatch 2 ⟨.start, 3, 1⟩), .runner (.enter 2 3 .start),
        .childReturns 2 3 (some 9)])).table.joins 0).result = some 7 :=
  ((run_async_any_result (by decide) (by decide)).1 0 secondValue (.callProceed 1 0) _ rfl
    (by decide) (by decide)).first.trans (by decide)

end FlatAsync

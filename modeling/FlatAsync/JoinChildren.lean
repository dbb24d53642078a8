import FlatAsync.JoinInvariant

/-!
# The children of joins

A join launches one task for each of its handlers.  The ledger says who calls
the proceed handler; this file keeps the roll of the children: which handlers
have been launched, that a child is gone only after its handler has ended, and
that a join whose proceed handler is due has a thread that is about to call it.
-/

namespace FlatAsync

variable {T : Type}

/-! ### Updates of the counters -/

/-- A property of tables that looks neither at the counters, with what the first
increment sets, nor at who is to increment one or owes a call. -/
structure CounterBlind (property : JoinTable T → Prop) : Prop where
  owe : ∀ {table t j}, property table → property (table.owe t j)
  setCounting : ∀ {table t counts}, property table → property (table.setCounting t counts)
  setJoin : ∀ {table j join}, join.SameButCounter (table.joins j) → property table →
    property (table.setJoin j join)

namespace CounterBlind

variable {property : JoinTable T → Prop} (blind : CounterBlind property)
variable {table : JoinTable T} {t : ThreadId} {r : RunnerId} {j : JoinId}

include blind

theorem settle {join : Join T} (same : join.SameButCounter (table.joins j))
    (holds : property table) (proceeds : Bool) : property (table.settle t j join proceeds) := by
  have updated := blind.setJoin same holds
  unfold JoinTable.settle
  split
  · exact blind.owe updated
  · exact updated

theorem releaseIfLast (holds : property table) : property (table.releaseIfLast t j) :=
  blind.settle (Join.afterRelease_same _) holds _

theorem childReturns {child : Child}
    (ended : property (table.setChild r { child with ended := true })) (value : Option T) :
    property (table.childReturns t r child value) := by
  rcases table.childReturns_cases t r child value with ⟨-, _, -, same⟩ | ⟨-, same⟩ | ⟨-, -, same⟩ <;>
    rw [same]
  · exact blind.settle (Join.tryProceed_same _ _) ended _
  · exact blind.setCounting ended
  · exact ended

theorem increment (holds : property table) (index : Nat) :
    property (table.increment t j index) :=
  blind.settle (Join.tryIndex_same _ _) (blind.setCounting holds) _

end CounterBlind

/-! ### Children and runners -/

/-- How the children in the table fit the runners: their runners exist, a body
that is over has ended its handler, and a copy of a shared pointer belongs to a
child that is not deleted. -/
structure Enrolled (table : JoinTable T) (runners : RunnerId → AsyncRunner) : Prop where
  born : ∀ r child, table.child r = some child → (runners r).stage ≠ .unborn
  ends : ∀ r child, table.child r = some child → (runners r).coroHelper = .finished →
    child.ended = true
  holds : ∀ j r, r ∈ (table.joins j).holders → (runners r).stage ≠ .deleted ∧
    ∃ child, table.child r = some child ∧ child.join = j

namespace Enrolled

variable {table : JoinTable T} {runners : RunnerId → AsyncRunner} {t : ThreadId}
  {r : RunnerId} {j : JoinId}

/-- A runner goes on: its body is over only when its handler has ended, and it
is deleted only when it holds no copy. -/
theorem update (enrolled : Enrolled table runners) {runner : AsyncRunner}
    (born : runner.stage = .unborn → (runners r).stage = .unborn)
    (ends : runner.coroHelper = .finished → (runners r).coroHelper = .finished ∨
      ∀ child, table.child r = some child → child.ended = true)
    (deleted : runner.stage = .deleted → (runners r).stage = .deleted ∨
      ∀ j, r ∉ (table.joins j).holders) :
    Enrolled table (Function.update runners r runner) where
  born other child found := by
    by_cases same : other = r
    · subst same
      simpa using fun unborn => enrolled.born other child found (born unborn)
    · simpa [same] using enrolled.born other child found
  ends other child found ceased := by
    by_cases same : other = r
    · subst same
      rcases ends (by simpa using ceased) with before | ended
      · exact enrolled.ends other child found before
      · exact ended child found
    · exact enrolled.ends other child found (by simpa [same] using ceased)
  holds j other holds := by
    obtain ⟨present, child⟩ := enrolled.holds j other holds
    refine ⟨?_, child⟩
    by_cases same : other = r
    · subst same
      intro gone
      rcases deleted (by simpa using gone) with before | free
      · exact present before
      · exact free j holds
    · simpa [same] using present

theorem same (enrolled : Enrolled table runners) {runner : AsyncRunner}
    (stage : runner.stage = (runners r).stage)
    (coroHelper : runner.coroHelper = .finished → (runners r).coroHelper = .finished) :
    Enrolled table (Function.update runners r runner) :=
  enrolled.update (fun unborn => stage ▸ unborn) (fun ceased => .inl (coroHelper ceased))
    (fun deleted => .inl (stage ▸ deleted))

/-- What the users of a table leave to a step of the runner system: a body of a
child ends after its handler, and a deleted runner holds no copy. -/
def Lets (table : JoinTable T) (s : System) : Action → Prop
  | .finish _ r => ∀ child, table.child r = some child → child.ended = true
  | .onExit _ r => (s.runners r).deferHandler = none → ∀ j, r ∉ (table.joins j).holders
  | _ => True

theorem rules (table : JoinTable T) :
    StepRules (fun _ => True) (Lets table) (fun s => Enrolled table s.runners) where
  setRunner enrolled same := enrolled.same same.stage fun ceased => same.coroHelper ▸ ceased
  raise enrolled _ := enrolled.same rfl id
  catchException enrolled _ _ := enrolled.same rfl id
  terminate enrolled := enrolled
  create {s r} enrolled fresh scheduler := by
    refine enrolled.update (r := r) ?_ ?_ ?_ <;> simp
  onEnter enrolled _ _ _ := enrolled
  start enrolled _ := enrolled.same rfl (by simp)
  wake enrolled _ _ := enrolled.same rfl (by simp)
  notSuspended enrolled _ _ := enrolled
  yield enrolled _ _ := enrolled.same rfl (by simp)
  switchAway {s t r site dst} enrolled _ _ := by
    have moved : Enrolled table (s.setScheduler r dst).runners := enrolled.same rfl id
    exact moved.same rfl (by simp)
  failedSwitch {s t r site dst} enrolled _ _ := by
    have moved : Enrolled table (s.setScheduler r dst).runners := enrolled.same rfl id
    cases site with
    | defer | switchTo dst | accessCtor source dst => exact moved.same rfl id
    | accessDtor source => exact moved
  finish enrolled _ ended :=
    enrolled.update (by simp) (fun _ => .inr ended) (fun deleted => .inl deleted)
  takeHandler enrolled _ _ _ := enrolled.same rfl id
  delete enrolled _ missing free :=
    enrolled.update (by simp) (fun ceased => .inl ceased) (fun _ => .inr (free missing))
  callProceed enrolled _ := enrolled.same rfl id
  returnHandler enrolled _ := enrolled
  detach enrolled _ := enrolled
  proceed enrolled _ _ := enrolled.same rfl id

private theorem shrink (enrolled : Enrolled table runners) {after : JoinTable T}
    (child : after.child = table.child)
    (holders : ∀ j r, r ∈ (after.joins j).holders → r ∈ (table.joins j).holders) :
    Enrolled after runners where
  born r found := child ▸ enrolled.born r found
  ends r found := child ▸ enrolled.ends r found
  holds j r holds := child ▸ enrolled.holds j r (holders j r holds)

theorem launch (enrolled : Enrolled table runners) {created : RunnerId}
    (new : table.child created = none) (empty : (runners created).coroHelper ≠ .finished)
    (alive : (runners created).stage = .alive) : Enrolled (table.launch j created) runners where
  born r child found := by
    by_cases same : r = created
    · simp [same, alive]
    · exact enrolled.born r child (by simpa [JoinTable.launch, same] using found)
  ends r child found ceased := by
    by_cases same : r = created
    · exact absurd (same ▸ ceased) empty
    · exact enrolled.ends r child (by simpa [JoinTable.launch, same] using found) ceased
  holds k r holds := by
    by_cases same : r = created
    · subst same
      refine ⟨by simp [alive], ?_⟩
      by_cases here : k = j
      · exact ⟨_, by simp [JoinTable.launch]; rfl, here.symm⟩
      · obtain ⟨-, child, found, -⟩ :=
          enrolled.holds k r (by simpa [JoinTable.launch, here] using holds)
        simp [new] at found
    · have before : r ∈ (table.joins k).holders := by
        by_cases here : k = j
        · subst here
          simpa [JoinTable.launch, same] using holds
        · simpa [JoinTable.launch, here] using holds
      obtain ⟨present, child, found, own⟩ := enrolled.holds k r before
      exact ⟨present, child, by simpa [JoinTable.launch, same] using found, own⟩

theorem setEnded (enrolled : Enrolled table runners) {child : Child}
    (found : table.child r = some child) :
    Enrolled (table.setChild r { child with ended := true }) runners where
  born other otherChild other_found := by
    by_cases same : other = r
    · subst same
      exact enrolled.born other child found
    · exact enrolled.born other otherChild (by simpa [same] using other_found)
  ends other otherChild other_found ceased := by
    by_cases same : other = r
    · subst same
      have equal : { child with ended := true } = otherChild := by simpa using other_found
      exact equal ▸ rfl
    · exact enrolled.ends other otherChild (by simpa [same] using other_found) ceased
  holds k other holds := by
    obtain ⟨present, otherChild, other_found, own⟩ := enrolled.holds k other holds
    refine ⟨present, ?_⟩
    by_cases same : other = r
    · subst same
      have equal : child = otherChild := by simpa [found] using other_found
      exact ⟨{ child with ended := true }, by simp, equal ▸ own⟩
    · exact ⟨otherChild, by simpa [same] using other_found, own⟩

theorem setJoin (enrolled : Enrolled table runners) {join : Join T}
    (fewer : ∀ r ∈ join.holders, r ∈ (table.joins j).holders) :
    Enrolled (table.setJoin j join) runners := by
  refine enrolled.shrink rfl fun k r holds => ?_
  by_cases same : k = j
  · subst same
    exact fewer r (by simpa using holds)
  · simpa [same] using holds

theorem blind : CounterBlind fun table : JoinTable T => Enrolled table runners where
  owe enrolled := { enrolled with }
  setCounting enrolled := { enrolled with }
  setJoin same enrolled := enrolled.setJoin fun _ holds => same.holders ▸ holds

theorem releaseLoop (enrolled : Enrolled table runners) :
    Enrolled (table.releaseLoop t j) runners := by
  apply blind.releaseIfLast
  exact enrolled.setJoin fun _ holds => holds

theorem releaseChild (enrolled : Enrolled table runners) :
    Enrolled (table.releaseChild t r) runners := by
  unfold JoinTable.releaseChild
  split
  · apply blind.releaseIfLast
    exact enrolled.setJoin fun _ holds => List.mem_of_mem_erase holds
  · exact enrolled

theorem newJoin (enrolled : Enrolled table runners) (kind : JoinKind) (handlers : Nat) :
    Enrolled (table.newJoin r j kind handlers) runners :=
  enrolled.setJoin (by simp)

theorem deferJoin (enrolled : Enrolled table runners) :
    Enrolled (table.deferJoin r j) runners := by
  have stored : Enrolled (table.setJoin j { table.joins j with phase := .stored }) runners :=
    enrolled.setJoin fun _ holds => holds
  exact { stored with }

theorem beginHandler (enrolled : Enrolled table runners) :
    Enrolled (table.beginHandler t r) runners := by
  unfold JoinTable.beginHandler
  split
  · exact { enrolled with }
  next j code =>
    have begun : Enrolled (table.setJoin j { table.joins j with phase := .begun }) runners :=
      enrolled.setJoin fun _ holds => holds
    exact { begun with }

theorem pay (enrolled : Enrolled table runners) : Enrolled (table.pay t j) runners := by
  have answered :
      Enrolled (table.setJoin j { table.joins j with phase := .answered }) runners :=
    enrolled.setJoin fun _ holds => holds
  exact { answered with }

end Enrolled

/-! ### The roll -/

/-- The handlers of each join that have been launched are the children with its
number, one for each index. -/
structure Roll (table : JoinTable T) : Prop where
  index : ∀ r child, table.child r = some child →
    child.index < (table.joins child.join).launched
  distinct : ∀ r other child another, table.child r = some child →
    table.child other = some another → child.join = another.join →
      child.index = another.index → r = other
  present : ∀ j i, i < (table.joins j).launched →
    ∃ r child, table.child r = some child ∧ child.join = j ∧ child.index = i
  bounded : ∀ j, (table.joins j).kind ≠ .waiter →
    (table.joins j).launched ≤ (table.joins j).handlers
  looped : ∀ j, (table.joins j).phase ≠ .unused → (table.joins j).kind ≠ .waiter →
    (table.joins j).looping = false → (table.joins j).launched = (table.joins j).handlers
  nodup : ∀ j, (table.joins j).holders.Nodup

/-- Two versions of a join with the same children and the same copies. -/
structure Join.SameRoll (join old : Join T) : Prop where
  kind : join.kind = old.kind
  handlers : join.handlers = old.handlers
  launched : join.launched = old.launched
  looping : join.looping = old.looping
  holders : join.holders = old.holders
  used : join.phase ≠ .unused → old.phase ≠ .unused

namespace Roll

variable {table : JoinTable T} {t : ThreadId} {r : RunnerId} {j : JoinId}

/-- Join `j` changes, but not the number of its children. -/
theorem setJoin (roll : Roll table) {join : Join T}
    (launched : join.launched = (table.joins j).launched)
    (bounded : join.kind ≠ .waiter → join.launched ≤ join.handlers)
    (looped : join.phase ≠ .unused → join.kind ≠ .waiter → join.looping = false →
      join.launched = join.handlers)
    (nodup : join.holders.Nodup) : Roll (table.setJoin j join) := by
  have sizes : ∀ k, ((table.setJoin j join).joins k).launched = (table.joins k).launched := by
    intro k
    by_cases same : k = j
    · subst same
      simpa using launched
    · simp [same]
  constructor
  · intro r child found
    rw [sizes]
    exact roll.index r child found
  · exact roll.distinct
  · intro k i small
    rw [sizes] at small
    exact roll.present k i small
  · intro k
    by_cases same : k = j
    · subst same
      simpa using bounded
    · simpa [same] using roll.bounded k
  · intro k
    by_cases same : k = j
    · subst same
      simpa using looped
    · simpa [same] using roll.looped k
  · intro k
    by_cases same : k = j
    · subst same
      simpa using nodup
    · simpa [same] using roll.nodup k

theorem launch (roll : Roll table) {created : RunnerId} (new : table.child created = none)
    (free : created ∉ (table.joins j).holders) (looping : (table.joins j).looping = true)
    (bounded : (table.joins j).kind ≠ .waiter →
      (table.joins j).launched < (table.joins j).handlers) :
    Roll (table.launch j created) := by
  have old {r : RunnerId} {child : Child} (found : table.child r = some child) :
      (table.launch j created).child r = some child := by
    have different : r ≠ created := by
      rintro rfl
      simp [new] at found
    simpa [JoinTable.launch, different] using found
  have cases {r : RunnerId} {child : Child}
      (found : (table.launch j created).child r = some child) :
      (r = created ∧ child = { join := j, index := (table.joins j).launched }) ∨
        table.child r = some child := by
    by_cases same : r = created
    · subst same
      exact .inl ⟨rfl, by simpa [JoinTable.launch, eq_comm] using found⟩
    · exact .inr (by simpa [JoinTable.launch, same] using found)
  have here : ((table.launch j created).joins j).launched = (table.joins j).launched + 1 := by
    simp [JoinTable.launch]
  have others {k : JoinId} (different : k ≠ j) :
      (table.launch j created).joins k = table.joins k := by
    simp [JoinTable.launch, different]
  constructor
  · intro r child found
    rcases cases found with ⟨-, rfl⟩ | before
    · rw [here]
      exact Nat.lt_succ_self _
    · have small := roll.index r child before
      by_cases same : child.join = j
      · rw [same] at small ⊢
        rw [here]
        exact Nat.lt_succ_of_lt small
      · rwa [others same]
  · intro r other child another found alsoFound join index
    rcases cases found with ⟨rfl, rfl⟩ | before <;>
      rcases cases alsoFound with ⟨rfl, rfl⟩ | alsoBefore
    · rfl
    · have small := roll.index other another alsoBefore
      rw [← join, ← index] at small
      exact absurd small (Nat.lt_irrefl _)
    · have small := roll.index r child before
      rw [join, index] at small
      exact absurd small (Nat.lt_irrefl _)
    · exact roll.distinct r other child another before alsoBefore join index
  · intro k i small
    by_cases same : k = j
    · subst same
      rw [here] at small
      by_cases last : i = (table.joins k).launched
      · exact ⟨created, _, by simp [JoinTable.launch]; rfl, rfl, last.symm⟩
      · obtain ⟨r, child, found, own⟩ := roll.present k i (by omega)
        exact ⟨r, child, old found, own⟩
    · rw [others same] at small
      obtain ⟨r, child, found, own⟩ := roll.present k i small
      exact ⟨r, child, old found, own⟩
  · intro k
    by_cases same : k = j
    · subst same
      simpa [JoinTable.launch, Nat.succ_le_iff] using bounded
    · rw [others same]
      exact roll.bounded k
  · intro k
    by_cases same : k = j
    · subst same
      simp [JoinTable.launch, looping]
    · rw [others same]
      exact roll.looped k
  · intro k
    by_cases same : k = j
    · subst same
      simpa [JoinTable.launch] using ⟨free, roll.nodup k⟩
    · rw [others same]
      exact roll.nodup k

theorem setEnded (roll : Roll table) {child : Child} (found : table.child r = some child) :
    Roll (table.setChild r { child with ended := true }) := by
  have cases {other : RunnerId} {new : Child}
      (here : (table.setChild r { child with ended := true }).child other = some new) :
      ∃ before, table.child other = some before ∧ before.join = new.join ∧
        before.index = new.index := by
    by_cases same : other = r
    · subst same
      have equal : { child with ended := true } = new := by simpa using here
      exact ⟨child, found, by rw [← equal], by rw [← equal]⟩
    · exact ⟨new, by simpa [same] using here, rfl, rfl⟩
  refine { roll with index := ?_, distinct := ?_, present := ?_ }
  · intro other new here
    obtain ⟨before, was, join, index⟩ := cases here
    rw [← join, ← index]
    exact roll.index other before was
  · intro other another new newer here there join index
    obtain ⟨before, was, ownJoin, ownIndex⟩ := cases here
    obtain ⟨beforeToo, wasToo, ownJoinToo, ownIndexToo⟩ := cases there
    exact roll.distinct other another before beforeToo was wasToo
      (by rw [ownJoin, ownJoinToo, join]) (by rw [ownIndex, ownIndexToo, index])
  · intro k i small
    obtain ⟨other, before, was, join, index⟩ := roll.present k i small
    by_cases same : other = r
    · subst same
      have equal : child = before := by simpa [found] using was
      exact ⟨other, { child with ended := true }, by simp, equal ▸ join, equal ▸ index⟩
    · exact ⟨other, before, by simpa [same] using was, join, index⟩

theorem update (roll : Roll table) {join : Join T} (same : join.SameRoll (table.joins j)) :
    Roll (table.setJoin j join) := by
  refine roll.setJoin same.launched ?_ ?_ ?_
  · rw [same.kind, same.launched, same.handlers]
    exact roll.bounded j
  · rw [same.kind, same.launched, same.handlers, same.looping]
    exact fun used => roll.looped j (same.used used)
  · rw [same.holders]
    exact roll.nodup j

theorem blind : CounterBlind fun table : JoinTable T => Roll table where
  owe roll := { roll with }
  setCounting roll := { roll with }
  setJoin same roll := roll.update
    ⟨same.kind, same.handlers, same.launched, same.looping, same.holders,
      fun used => same.phase ▸ used⟩

theorem releaseLoop (roll : Roll table)
    (full : (table.joins j).kind ≠ .waiter →
      (table.joins j).launched = (table.joins j).handlers) : Roll (table.releaseLoop t j) := by
  apply blind.releaseIfLast
  exact roll.setJoin rfl (roll.bounded j) (fun _ notWaiter _ => full notWaiter) (roll.nodup j)

theorem releaseChild (roll : Roll table) : Roll (table.releaseChild t r) := by
  unfold JoinTable.releaseChild
  split
  · apply blind.releaseIfLast
    exact roll.setJoin rfl (roll.bounded _) (roll.looped _) ((roll.nodup _).erase _)
  · exact roll

theorem newJoin (roll : Roll table) (unused : table.joins j = {}) (kind : JoinKind)
    (handlers : Nat) : Roll (table.newJoin r j kind handlers) :=
  roll.setJoin (by simp [unused]) (by simp) (by simp) (by simp)

theorem deferJoin (roll : Roll table) (used : (table.joins j).phase ≠ .unused) :
    Roll (table.deferJoin r j) := by
  have stored : Roll (table.setJoin j { table.joins j with phase := .stored }) :=
    roll.update (by constructor <;> simp [used])
  exact { stored with }

theorem beginHandler (roll : Roll table)
    (stored : ∀ j, table.stored r = .join j → (table.joins j).phase ≠ .unused) :
    Roll (table.beginHandler t r) := by
  unfold JoinTable.beginHandler
  split
  · exact { roll with }
  next j code =>
    have begun : Roll (table.setJoin j { table.joins j with phase := .begun }) :=
      roll.update (by constructor <;> simp [stored j code])
    exact { begun with }

theorem pay (roll : Roll table) (used : (table.joins j).phase ≠ .unused) :
    Roll (table.pay t j) := by
  have answered : Roll (table.setJoin j { table.joins j with phase := .answered }) :=
    roll.update (by constructor <;> simp [used])
  exact { answered with }

end Roll

/-! ### Due calls -/

/-- A join whose proceed handler is due has been answered, or a thread is about
to call the handler.  The counter of `RunAsyncAnyResult` has been incremented
when all copies are gone. -/
structure Due (table : JoinTable T) : Prop where
  claimed : ∀ j, (table.joins j).phase ≠ .unused → (table.joins j).claimed = true →
    (table.joins j).proceed = true →
      (∃ t, table.owes t = some j) ∨ (table.joins j).phase = .answered
  gone : ∀ j, (table.joins j).phase ≠ .unused → (table.joins j).kind = .anyResult →
    (table.joins j).looping = false → (table.joins j).holders = [] →
      (table.joins j).counter ≠ 0

namespace Due

variable {table : JoinTable T} {t : ThreadId} {r : RunnerId} {j : JoinId}

theorem change (due : Due table) {after : JoinTable T}
    (others : ∀ k, k ≠ j → after.joins k = table.joins k)
    (owes : ∀ t k, k ≠ j → table.owes t = some k → ∃ t, after.owes t = some k)
    (claimed : (after.joins j).phase ≠ .unused → (after.joins j).claimed = true →
      (after.joins j).proceed = true →
        (∃ t, after.owes t = some j) ∨ (after.joins j).phase = .answered)
    (gone : (after.joins j).phase ≠ .unused → (after.joins j).kind = .anyResult →
      (after.joins j).looping = false → (after.joins j).holders = [] →
        (after.joins j).counter ≠ 0) : Due after where
  claimed k := by
    by_cases same : k = j
    · exact same ▸ claimed
    · rw [others k same]
      intro used claims proceed
      exact (due.claimed k used claims proceed).imp_left fun ⟨t, owed⟩ => owes t k same owed
  gone k := by
    by_cases same : k = j
    · exact same ▸ gone
    · rw [others k same]
      exact due.gone k

/-- A thread that owed nothing owes the call of join `j` from now on. -/
theorem owe (due : Due table) (free : table.owes t = none) {join : Join T}
    (gone : join.kind = .anyResult → join.counter ≠ 0) :
    Due ((table.setJoin j join).owe t j) := by
  refine due.change (j := j) (fun k other => by simp [other]) ?_
    (fun _ _ _ => .inl ⟨t, by simp⟩) ?_
  · intro other k _ owed
    have different : other ≠ t := by
      rintro rfl
      simp [free] at owed
    exact ⟨other, by simpa [different] using owed⟩
  · intro _ kind _ _
    simpa using gone (by simpa using kind)

theorem setJoin (due : Due table) {join : Join T}
    (claimed : join.phase ≠ .unused → join.claimed = true → join.proceed = true →
      (∃ t, table.owes t = some j) ∨ join.phase = .answered)
    (gone : join.phase ≠ .unused → join.kind = .anyResult → join.looping = false →
      join.holders = [] → join.counter ≠ 0) : Due (table.setJoin j join) :=
  due.change (j := j) (fun k other => by simp [other]) (fun other _ _ owed => ⟨other, owed⟩)
    (by simpa using claimed) (by simpa using gone)

theorem countUp (due : Due table) (free : table.owes t = none)
    (counts : (table.joins j).kind = .anyWait ∨ (table.joins j).kind = .anyResult)
    {join : Join T} (same : join.SameButCounter (table.joins j))
    (counter : join.counter = (table.joins j).counter + 1) :
    Due (table.settle t j join ((table.joins j).counter = 0)) := by
  unfold JoinTable.settle
  split
  next => exact due.owe free (by simp [counter])
  next later =>
    refine due.setJoin (fun used _ proceed => ?_) (by simp [counter])
    have claimed : (table.joins j).claimed = true := by
      rcases counts with kind | kind <;> simpa [Join.claimed, kind] using later
    rw [same.phase] at used ⊢
    exact due.claimed j used claimed (same.proceed ▸ proceed)

/-- A copy of the shared pointer of join `j` is released. -/
theorem release (due : Due table) (free : table.owes t = none) {join : Join T}
    (kind : join.kind = (table.joins j).kind) (phase : join.phase = (table.joins j).phase)
    (counter : join.counter = (table.joins j).counter)
    (proceed : join.proceed = true → (table.joins j).proceed = true) :
    Due ((table.setJoin j join).releaseIfLast t j) := by
  have same := join.afterRelease_same
  have gone (result : join.afterRelease.kind = .anyResult) (last : join.Released) :
      join.afterRelease.counter ≠ 0 := by
    simp [Join.afterRelease, last, same.kind ▸ result, Join.tryProceed_counter]
  have counted (counts : join.kind = .anyWait ∨ join.kind = .anyResult)
      (used : join.phase ≠ .unused) (claimed : join.claimed = true)
      (set : join.proceed = true) : (∃ t, table.owes t = some j) ∨ join.phase = .answered := by
    rw [phase] at used ⊢
    refine due.claimed j used ?_ (proceed set)
    rcases counts with same | same <;>
      simpa [Join.claimed, same, kind.symm.trans same, counter] using claimed
  simp only [JoinTable.releaseIfLast, JoinTable.settle, JoinTable.setJoin_joins,
    Function.update_self, JoinTable.setJoin_setJoin]
  split
  next proceeds =>
    have last : join.Released := by
      by_contra held
      simp [Join.release_of_held held] at proceeds
    exact due.owe free fun result => gone result last
  next silent =>
    refine due.setJoin (fun used claimed set => ?_) fun _ result looping empty =>
      gone result ⟨same.looping ▸ looping, same.holders ▸ empty⟩
    rw [same.phase] at used ⊢
    rw [same.proceed] at set
    cases found : join.kind with
    | wait | waiter =>
        rw [Join.afterRelease_eq (by simp [found])] at claimed
        have last : join.Released := by
          simpa [Join.claimed, found, Join.Released, List.isEmpty_iff] using claimed
        simp [Join.releaseProceeds, last, found, set] at silent
    | anyWait =>
        rw [Join.afterRelease_eq (by simp [found])] at claimed
        exact counted (.inl found) used claimed set
    | anyResult =>
        refine counted (.inr found) used ?_ set
        by_cases last : join.Released
        · simpa [Join.releaseProceeds, last, found, Join.claimed] using silent
        · rwa [(Join.release_of_held last).1] at claimed

theorem releaseLoop (due : Due table) (free : table.owes t = none) :
    Due (table.releaseLoop t j) :=
  due.release free rfl rfl rfl id

theorem releaseChild (due : Due table) (free : table.owes t = none) :
    Due (table.releaseChild t r) := by
  unfold JoinTable.releaseChild
  split
  · exact due.release free rfl rfl rfl id
  · exact due

theorem setChild (due : Due table) {child : Child} : Due (table.setChild r child) := { due with }

theorem childReturns (due : Due table) (free : table.owes t = none) {child : Child}
    (value : Option T) : Due (table.childReturns t r child value) := by
  have ended : Due (table.setChild r { child with ended := true }) := due.setChild
  rcases table.childReturns_cases t r child value with ⟨kind, _, -, same⟩ | ⟨-, same⟩ | ⟨-, -, same⟩ <;>
    rw [same]
  · exact ended.countUp free (.inr kind) (Join.tryProceed_same _ _) (Join.tryProceed_counter _ _)
  · exact { ended with }
  · exact ended

theorem increment (due : Due table) (free : table.owes t = none)
    (kind : (table.joins j).kind = .anyWait) (index : Nat) :
    Due (table.increment t j index) := by
  have counted : Due (table.setCounting t none) := { due with }
  exact counted.countUp free (.inl kind) (Join.tryIndex_same _ _) (Join.tryIndex_counter _ _)

theorem newJoin (due : Due table) (kind : JoinKind) (handlers : Nat) :
    Due (table.newJoin r j kind handlers) := by
  refine due.setJoin (fun _ claimed => ?_) (by simp)
  cases kind <;> simp [Join.claimed] at claimed

theorem launch (due : Due table) (looping : (table.joins j).looping = true)
    (created : RunnerId) : Due (table.launch j created) := by
  refine Due.setChild (due.setJoin (fun used claimed proceed => ?_) (by simp))
  refine due.claimed j used ?_ proceed
  cases kind : (table.joins j).kind with
  | wait | waiter => simp [Join.claimed, kind, looping] at claimed
  | anyWait | anyResult => simpa [Join.claimed, kind] using claimed

theorem advance (due : Due table) {phase : JoinPhase} (used : (table.joins j).phase ≠ .unused)
    (open_ : (table.joins j).phase ≠ .answered) :
    Due (table.setJoin j { table.joins j with phase := phase }) := by
  refine due.setJoin (fun _ claimed proceed => ?_) (fun _ => due.gone j used)
  exact .inl ((due.claimed j used claimed proceed).resolve_right open_)

theorem deferJoin (due : Due table) (idle : (table.joins j).phase = .idle) :
    Due (table.deferJoin r j) := by
  have stored : Due (table.setJoin j { table.joins j with phase := .stored }) :=
    due.advance (by simp [idle]) (by simp [idle])
  exact { stored with }

theorem beginHandler (due : Due table)
    (stored : ∀ j, table.stored r = .join j → (table.joins j).phase = .stored) :
    Due (table.beginHandler t r) := by
  unfold JoinTable.beginHandler
  split
  · exact { due with }
  next j code =>
    have begun : Due (table.setJoin j { table.joins j with phase := .begun }) :=
      due.advance (by simp [stored j code]) (by simp [stored j code])
    exact { begun with }

theorem pay (due : Due table) (used : (table.joins j).phase ≠ .unused)
    (owes : table.owes t = some j) : Due (table.pay t j) := by
  refine due.change (j := j) (fun k other => by simp [JoinTable.pay, other]) ?_
    (fun _ _ _ => .inr (by simp [JoinTable.pay])) ?_
  · intro other k different owed
    have apart : other ≠ t := by
      rintro rfl
      rw [owes] at owed
      exact different (Option.some.inj owed).symm
    exact ⟨other, by simpa [JoinTable.pay, apart] using owed⟩
  · simpa [JoinTable.pay] using due.gone j used

end Due

/-! ### Steps of joins -/

structure JoinRoll (s : JoinState T) : Prop where
  inv : JoinInvariant False s
  enrolled : Enrolled s.table s.system.runners
  roll : Roll s.table
  due : Due s.table

namespace JoinRoll

variable {s : JoinState T} {t : ThreadId} {r : RunnerId} {j : JoinId}

theorem child_of_unborn (inv : JoinRoll s) (unborn : (s.system.runners r).stage = .unborn) :
    s.table.child r = none := by
  cases found : s.table.child r with
  | none => rfl
  | some child => exact absurd unborn (inv.enrolled.born r child found)

private theorem not_holder_of_child (inv : JoinRoll s) (none : s.table.child r = none) :
    r ∉ (s.table.joins j).holders := by
  intro holds
  obtain ⟨-, child, found, -⟩ := inv.enrolled.holds j r holds
  simp [none] at found

theorem launch (inv : JoinRoll s) {created : RunnerId}
    (fresh : (s.system.runners created).stage = .unborn) (scheduler : SchedulerId)
    (looping : (s.table.joins j).looping = true)
    (bounded : (s.table.joins j).kind ≠ .waiter →
      (s.table.joins j).launched < (s.table.joins j).handlers) :
    Enrolled (s.table.launch j created) (s.system.create created scheduler).runners ∧
      Roll (s.table.launch j created) ∧ Due (s.table.launch j created) := by
  have new := inv.child_of_unborn fresh
  have made : Enrolled s.table (s.system.create created scheduler).runners :=
    (Enrolled.rules s.table).create inv.enrolled fresh scheduler
  refine ⟨made.launch new ?_ ?_, inv.roll.launch new (inv.not_holder_of_child new) looping bounded,
    inv.due.launch looping created⟩ <;> simp [System.create, System.schedule]

private theorem not_holder_released (inv : JoinRoll s) (j : JoinId) :
    r ∉ ((s.table.releaseChild t r).joins j).holders := by
  unfold JoinTable.releaseChild
  split
  next child found =>
    have blind : CounterBlind fun table : JoinTable T => r ∉ (table.joins j).holders :=
      { owe := id
        setCounting := id
        setJoin := fun {table k join} counts free => by
          by_cases same : j = k
          · subst same
            simpa [counts.holders] using free
          · simpa [same] using free }
    apply blind.releaseIfLast
    by_cases same : j = child.join
    · subst same
      simpa using (inv.roll.nodup child.join).not_mem_erase
    · intro holds
      obtain ⟨-, other, otherFound, own⟩ :=
        inv.enrolled.holds j r (by simpa [same] using holds)
      have equal : child = other := by simpa [found] using otherFound
      exact same (equal ▸ own.symm)
  next missing => exact inv.not_holder_of_child missing

theorem unbound {action : JoinAction T} (enabled : s.Enabled action)
    (thread : JoinState.thread action = some t) :
    s.table.counting t = none ∧ s.table.owes t = none := by
  have idle := enabled.2.2.2
  rw [thread] at idle
  simpa [JoinState.Owing] using idle

theorem free {action : JoinAction T} (enabled : s.Enabled action)
    (thread : JoinState.thread action = some t) : s.table.owes t = none :=
  (unbound enabled thread).2

/-- `OnExit` begins a callable, or deletes the runner and its closure. -/
theorem onExit (inv : JoinRoll s) (exits : (s.system.threads t).pc = .exiting r)
    (free : s.table.owes t = none) :
    Enrolled (s.afterRunner (.onExit t r)) (s.system.onExit t r).runners ∧
      Roll (s.afterRunner (.onExit t r)) ∧ Due (s.afterRunner (.onExit t r)) := by
  cases handler : (s.system.runners r).deferHandler with
  | none =>
      simp only [System.onExit, JoinState.afterRunner, handler]
      exact ⟨(Enrolled.rules (s.table.releaseChild t r)).delete inv.enrolled.releaseChild exits
          handler (fun _ => inv.not_holder_released), inv.roll.releaseChild,
        inv.due.releaseChild free⟩
  | some stored =>
      have taken := (Enrolled.rules s.table).takeHandler inv.enrolled exits handler
        (by simp [Enrolled.Lets, handler])
      cases stored with
      | proceedHandler =>
          simp only [System.onExit, JoinState.afterRunner, handler]
          exact ⟨taken, inv.roll, inv.due⟩
      | callable =>
          simp only [System.onExit, JoinState.afterRunner, handler]
          have phase (j : JoinId) (code : s.table.stored r = .join j) :
              (s.table.joins j).phase = .stored := (inv.inv.fits.handlers r j handler code).1
          exact ⟨taken.beginHandler, inv.roll.beginHandler fun j code => by simp [phase j code],
            inv.due.beginHandler phase⟩

theorem still (inv : JoinRoll s) {action : Action} (enabled : s.system.Enabled action)
    (contract : ProceedContract s.system action)
    (lets : Enrolled.Lets s.table s.system action) :
    Enrolled s.table (s.system.step action).runners :=
  (Enrolled.rules s.table).step inv.enrolled enabled contract (fun _ _ => trivial) lets

/-- A body calls `Defer`: it finds an event, or yields with the new table. -/
theorem defer (inv : JoinRoll s) (runs : (s.system.threads t).pc = .body r)
    {table : JoinTable T} (enrolled : Enrolled table s.system.runners) (roll : Roll table)
    (due : Due table) :
    Enrolled (s.ifCalm t r table) (s.system.defer t r .defer .callable).runners ∧
      Roll (s.ifCalm t r table) ∧ Due (s.ifCalm t r table) := by
  unfold System.defer JoinState.ifCalm
  cases found : s.system.handleEvents t r with
  | some status => exact ⟨(Enrolled.rules s.table).raise inv.enrolled runs, inv.roll, inv.due⟩
  | none => exact ⟨(Enrolled.rules table).yield enrolled runs trivial, roll, due⟩

theorem runnerStep (inv : JoinRoll s) {action : Action} (enabled : s.Enabled (.runner action))
    (contract : UserContract s (.runner action)) :
    Enrolled (s.afterRunner action) (s.system.step action).runners ∧
      Roll (s.afterRunner action) ∧ Due (s.afterRunner action) := by
  have leaves : s.Leaves action := enabled.2.1
  have permitted : s.system.Enabled action := ⟨enabled.1, enabled.2.2.1⟩
  cases action with
  | onExit t r => exact inv.onExit permitted.2 (free enabled rfl)
  | defer t r => exact absurd leaves id
  | proceed r => exact ⟨inv.still permitted contract.1 trivial, inv.roll, inv.due⟩
  | finish t r =>
      refine ⟨inv.still permitted trivial fun child found => ?_, inv.roll, inv.due⟩
      rcases leaves with none | ended
      · simp [none] at found
      · simpa [JoinState.ended, found] using ended
  | runAsync | runAsyncHere | currentScheduler | dispatch | enter | handleEvents
  | disableEvents | enableEvents | switchTo | enterGuard | enterAccess | leaveScope | raise
  | catchException | callProceed | returnHandler | detach | setStatus | reset =>
      exact ⟨inv.still permitted trivial trivial, inv.roll, inv.due⟩

theorem step (inv : JoinRoll s) {action : JoinAction T} (enabled : s.Enabled action)
    (contract : UserContract s action) : JoinRoll (s.step action) := by
  have after := inv.inv.step enabled contract False.elim
  suffices clauses : Enrolled (s.afterTable action) (s.step action).system.runners ∧
      Roll (s.afterTable action) ∧ Due (s.afterTable action) from
    ⟨after, clauses.1, clauses.2.1, clauses.2.2⟩
  have guard := enabled.2.1
  have permitted := enabled.2.2.1
  cases action with
  | runner action => exact inv.runnerStep enabled contract
  | defer t r calls =>
      exact inv.defer guard.1 { inv.enrolled with } { inv.roll with } { inv.due with }
  | userCall t created =>
      cases created with
      | none => exact ⟨{ inv.enrolled with }, { inv.roll with }, { inv.due with }⟩
      | some created =>
          have made : Enrolled s.table (s.system.step (.runAsyncHere t created)).runners :=
            inv.still ⟨enabled.1, permitted⟩ trivial trivial
          exact ⟨{ made with }, { inv.roll with }, { inv.due with }⟩
  | join t r j kind handlers =>
      have unused := inv.inv.ledger.unused j guard.2.1
      refine inv.defer guard.1.1 ?_ ?_ ?_
      · exact (inv.enrolled.newJoin kind handlers).deferJoin
      · exact (inv.roll.newJoin unused kind handlers).deferJoin
          (by simp [JoinTable.newJoin, JoinTable.setJoin])
      · exact (inv.due.newJoin kind handlers).deferJoin
          (by simp [JoinTable.newJoin, JoinTable.setJoin])
  | launch t j created => exact inv.launch permitted.1 _ guard.1.2.2 fun _ => guard.2
  | endLoop t j =>
      refine ⟨inv.enrolled.releaseLoop, inv.roll.releaseLoop fun notWaiter => ?_,
        inv.due.releaseLoop (free enabled rfl)⟩
      exact Nat.le_antisymm (inv.roll.bounded j notWaiter) guard.2
  | makeWaiter t r j =>
      have unused := inv.inv.ledger.unused j guard.2
      exact ⟨inv.enrolled.newJoin .waiter 0, inv.roll.newJoin unused .waiter 0,
        inv.due.newJoin .waiter 0⟩
  | waiterRunAsync t r j created =>
      exact inv.launch permitted.1 _ guard.2.2.2.2 fun notWaiter => absurd guard.2.1 notWaiter
  | waiterWait t r j =>
      obtain ⟨⟨runs, -⟩, -, -, idle, -⟩ := guard
      by_cases unique : (s.table.joins j).holders = []
      · simpa [JoinState.step, JoinState.runnerAction, JoinState.afterTable, unique] using
          And.intro inv.enrolled ⟨inv.roll, inv.due⟩
      · have suspended := inv.defer runs (inv.enrolled.deferJoin (r := r) (j := j))
          (inv.roll.deferJoin (by simp [idle])) (inv.due.deferJoin idle)
        simpa [JoinState.step, JoinState.runnerAction, JoinState.afterTable, unique,
          System.step] using suspended
  | dropWaiter t r j =>
      obtain ⟨-, kind, -, idle, looping⟩ := guard
      let silenced := s.table.setJoin j { s.table.joins j with proceed := false }
      have enrolled : Enrolled silenced s.system.runners :=
        inv.enrolled.setJoin fun _ holds => holds
      have roll : Roll silenced := inv.roll.update (by constructor <;> simp)
      have due : Due silenced := inv.due.setJoin (by simp) (by simp [kind])
      refine ⟨enrolled.releaseLoop, roll.releaseLoop ?_, due.releaseLoop (free enabled rfl)⟩
      simp [silenced, kind]
  | childReturns t r value =>
      cases found : s.table.child r with
      | none =>
          have isChild := guard.2.1.1
          simp [found] at isChild
      | some child =>
          simp only [JoinState.afterTable, found]
          exact ⟨Enrolled.blind.childReturns (inv.enrolled.setEnded found) value,
            Roll.blind.childReturns (inv.roll.setEnded found) value,
            inv.due.childReturns (free enabled rfl) value⟩
  | childThrows t r =>
      have catches : s.system.Enabled (.catchException t r) := ⟨enabled.1, permitted⟩
      cases found : s.table.child r with
      | none =>
          have isChild := guard.2.1.1
          simp [found] at isChild
      | some child =>
          have caught : Enrolled s.table (s.system.step (.catchException t r)).runners :=
            inv.still catches trivial trivial
          simp only [JoinState.afterTable, found]
          exact ⟨caught.setEnded found, inv.roll.setEnded found, inv.due.setChild⟩
  | increment t j index =>
      have kind := (inv.inv.ledger.counting t j index guard.1).1
      exact ⟨Enrolled.blind.increment inv.enrolled index, Roll.blind.increment inv.roll index,
        inv.due.increment guard.2 kind index⟩
  | callProceed t j =>
      obtain ⟨begun, -⟩ := inv.inv.ledger.owed t j guard
      obtain ⟨holds, -⟩ := inv.inv.fits.begun j begun
      have used : (s.table.joins j).phase ≠ .unused := by simp [begun]
      have posted := (Enrolled.rules s.table).proceed inv.enrolled holds trivial
      exact ⟨posted.pay, inv.roll.pay used, inv.due.pay used guard⟩

theorem initial : JoinRoll ({} : JoinState T) where
  inv := JoinInvariant.initial
  enrolled := by constructor <;> simp
  roll := by constructor <;> simp
  due := by constructor <;> simp

end JoinRoll

end FlatAsync

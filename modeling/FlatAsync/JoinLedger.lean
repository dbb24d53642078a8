import FlatAsync.Joins

/-!
# The ledger of joins

Whatever the kind of a join, the call of its proceed handler falls to one
thread: the one that releases the last copy of the token, or the one that makes
the first increment of the counter.  This file states the bookkeeping behind
that as an invariant of the table of joins and shows that every update of the
table keeps it.
-/

namespace FlatAsync

variable {T : Type}

namespace Join

/-- Two versions of a join that differ at most in what an increment of the
counter sets. -/
structure SameButCounter (join old : Join T) : Prop where
  kind : join.kind = old.kind
  owner : join.owner = old.owner
  handlers : join.handlers = old.handlers
  launched : join.launched = old.launched
  looping : join.looping = old.looping
  holders : join.holders = old.holders
  proceed : join.proceed = old.proceed
  phase : join.phase = old.phase

variable (join : Join T)

theorem tryProceed_same (result : Option T) :
    (join.tryProceed result).SameButCounter join := by
  unfold tryProceed
  split <;> constructor <;> rfl

theorem tryIndex_same (index : Nat) : (join.tryIndex index).SameButCounter join := by
  unfold tryIndex
  split <;> constructor <;> rfl

theorem tryProceed_counter (result : Option T) :
    (join.tryProceed result).counter = join.counter + 1 := by
  unfold tryProceed
  split
  next first => simp [first]
  · rfl

theorem tryIndex_counter (index : Nat) :
    (join.tryIndex index).counter = join.counter + 1 := by
  unfold tryIndex
  split
  next first => simp [first]
  · rfl

theorem afterRelease_same : join.afterRelease.SameButCounter join := by
  unfold afterRelease
  split
  · exact join.tryProceed_same none
  · constructor <;> rfl

variable {join}

theorem afterRelease_eq (other : join.kind ≠ .anyResult) : join.afterRelease = join :=
  if_neg fun last => other last.2

theorem release_of_held (held : ¬ join.Released) :
    join.afterRelease = join ∧ join.releaseProceeds = false :=
  ⟨if_neg fun last => held last.1, by simp [releaseProceeds, held]⟩

end Join

/-- What a return does beside ending the handler: a value is counted at once for
`RunAsyncAnyResult`, and the increment of `RunAsyncAnyWait` is to come. -/
theorem JoinTable.childReturns_cases (table : JoinTable T) (t : ThreadId) (r : RunnerId)
    (child : Child) (value : Option T) :
    ((table.joins child.join).kind = .anyResult ∧ ∃ result, value = some result ∧
        table.childReturns t r child value =
          (table.setChild r { child with ended := true }).tryProceed t child.join (some result)) ∨
      ((table.joins child.join).kind = .anyWait ∧ table.childReturns t r child value =
        (table.setChild r { child with ended := true }).setCounting t
          (some (child.join, child.index))) ∨
      ((table.joins child.join).kind ≠ .anyWait ∧
        ((table.joins child.join).kind = .anyResult → value = none) ∧
        table.childReturns t r child value = table.setChild r { child with ended := true }) := by
  have still : (table.setChild r { child with ended := true }).settle t child.join
      (table.joins child.join) false = table.setChild r { child with ended := true } :=
    settle_self (table.setChild r { child with ended := true }) t child.join
  unfold childReturns Join.afterReturn Join.returnProceeds tryProceed
  cases kind : (table.joins child.join).kind with
  | wait | anyWait | waiter => simp [kind, still]
  | anyResult =>
      cases value with
      | none => simp [kind, still]
      | some result =>
          refine .inl ⟨rfl, result, rfl, ?_⟩
          simp only [kind]
          rfl

/-- The call of the proceed handler has fallen to a thread. -/
def Join.claimed (join : Join T) : Bool :=
  match join.kind with
  | .wait | .waiter => !join.looping && join.holders.isEmpty
  | .anyWait | .anyResult => join.counter ≠ 0

/-- What the table says about itself: each join is claimed once, between the
start of its handler and the call of the proceed handler. -/
structure Ledger (table : JoinTable T) : Prop where
  unused : ∀ j, (table.joins j).phase = .unused → table.joins j = {}
  unclaimed : ∀ j, (table.joins j).claimed = false →
    (table.joins j).phase ≠ .answered ∧ ∀ t, table.owes t ≠ some j
  owed : ∀ t j, table.owes t = some j → (table.joins j).phase = .begun ∧
    ∀ other, table.owes other = some j → other = t
  proceed : ∀ j, (table.joins j).kind ≠ .waiter → (table.joins j).proceed = true
  released : ∀ j, (table.joins j).phase ≠ .unused → (table.joins j).looping = false →
    (table.joins j).proceed = true →
      (table.joins j).phase = .begun ∨ (table.joins j).phase = .answered
  known : ∀ r child, table.child r = some child →
    (table.joins child.join).phase ≠ .unused
  started : ∀ r child, table.child r = some child →
    (table.joins child.join).kind ≠ .waiter →
      (table.joins child.join).phase = .begun ∨ (table.joins child.join).phase = .answered
  counting : ∀ t j index, table.counting t = some (j, index) → (table.joins j).kind = .anyWait ∧
    ((table.joins j).phase = .begun ∨ (table.joins j).phase = .answered)

namespace Ledger

variable {table : JoinTable T} {t : ThreadId} {r : RunnerId} {j : JoinId}

/-- A join in use is updated without changing its phase or its kind, and
without taking back a claim. -/
theorem update (ledger : Ledger table) {join : Join T}
    (used : (table.joins j).phase ≠ .unused)
    (phase : join.phase = (table.joins j).phase) (kind : join.kind = (table.joins j).kind)
    (claimed : join.claimed = false → (table.joins j).claimed = false)
    (proceed : join.kind ≠ .waiter → join.proceed = true)
    (released : join.looping = false → join.proceed = true →
      join.phase = .begun ∨ join.phase = .answered) :
    Ledger (table.setJoin j join) where
  unused other unused := by
    by_cases same : other = j
    · subst same
      simp [JoinTable.setJoin, phase, used] at unused
    · simpa [JoinTable.setJoin, same] using
        ledger.unused other (by simpa [JoinTable.setJoin, same] using unused)
  unclaimed other unclaimed := by
    by_cases same : other = j
    · subst same
      have before := ledger.unclaimed other
        (claimed (by simpa [JoinTable.setJoin] using unclaimed))
      simpa [JoinTable.setJoin, phase] using before
    · simpa [JoinTable.setJoin, same] using
        ledger.unclaimed other (by simpa [JoinTable.setJoin, same] using unclaimed)
  owed thread other owes := by
    have before := ledger.owed thread other owes
    by_cases same : other = j
    · subst same
      simpa [JoinTable.setJoin, phase] using before
    · simpa [JoinTable.setJoin, same] using before
  proceed other notWaiter := by
    by_cases same : other = j
    · subst same
      simpa [JoinTable.setJoin] using
        proceed (by simpa [JoinTable.setJoin] using notWaiter)
    · simpa [JoinTable.setJoin, same] using
        ledger.proceed other (by simpa [JoinTable.setJoin, same] using notWaiter)
  released other inUse looping proceed := by
    by_cases same : other = j
    · subst same
      simp only [JoinTable.setJoin, Function.update_self] at looping proceed ⊢
      exact released looping proceed
    · simp only [JoinTable.setJoin, Function.update_of_ne same] at inUse looping proceed ⊢
      exact ledger.released other inUse looping proceed
  known runner child found := by
    have before := ledger.known runner child found
    by_cases same : child.join = j
    · simpa [JoinTable.setJoin, same, phase] using used
    · simpa [JoinTable.setJoin, same] using before
  started runner child found notWaiter := by
    by_cases same : child.join = j
    · have before := ledger.started runner child found
      simp only [JoinTable.setJoin, same, Function.update_self, kind, phase] at notWaiter ⊢
      rw [same] at before
      exact before notWaiter
    · simp only [JoinTable.setJoin, Function.update_of_ne same] at notWaiter ⊢
      exact ledger.started runner child found notWaiter
  counting thread other index counts := by
    have before := ledger.counting thread other index counts
    by_cases same : other = j
    · subst same
      simpa [kind, phase] using before
    · simpa [same] using before

theorem owe (ledger : Ledger table) (begun : (table.joins j).phase = .begun)
    (claimed : (table.joins j).claimed = true) (free : ∀ other, table.owes other ≠ some j) :
    Ledger (table.owe t j) where
  unused := ledger.unused
  unclaimed other unclaimed := by
    have different : j ≠ other := by
      rintro rfl
      exact absurd claimed (by simpa [JoinTable.owe] using unclaimed)
    refine ⟨(ledger.unclaimed other unclaimed).1, fun thread => ?_⟩
    by_cases same : thread = t
    · subst same
      simpa [JoinTable.owe] using different
    · simpa [JoinTable.owe, same] using (ledger.unclaimed other unclaimed).2 thread
  owed thread other owes := by
    by_cases same : thread = t
    · subst same
      have equal : j = other := by simpa [JoinTable.owe] using owes
      subst equal
      refine ⟨begun, fun another also => ?_⟩
      by_contra different
      exact free another (by simpa [JoinTable.owe, different] using also)
    · have before := ledger.owed thread other (by simpa [JoinTable.owe, same] using owes)
      refine ⟨before.1, fun another also => ?_⟩
      by_cases here : another = t
      · subst here
        have equal : j = other := by simpa [JoinTable.owe] using also
        subst equal
        exact absurd (by simpa [JoinTable.owe, same] using owes) (free thread)
      · exact before.2 another (by simpa [JoinTable.owe, here] using also)
  proceed := ledger.proceed
  released := ledger.released
  known := ledger.known
  started := ledger.started
  counting := ledger.counting

theorem claim (ledger : Ledger table) {join : Join T}
    (unclaimed : (table.joins j).claimed = false)
    (handling : (table.joins j).phase = .begun ∨ (table.joins j).phase = .answered)
    (phase : join.phase = (table.joins j).phase) (kind : join.kind = (table.joins j).kind)
    (claimed : join.claimed = true) (proceed : join.kind ≠ .waiter → join.proceed = true) :
    Ledger ((table.setJoin j join).owe t j) := by
  obtain ⟨unanswered, free⟩ := ledger.unclaimed j unclaimed
  have begun : (table.joins j).phase = .begun := handling.resolve_right unanswered
  have updated : Ledger (table.setJoin j join) :=
    ledger.update (by simp [begun]) phase kind (fun without => by simp [claimed] at without)
      proceed (fun _ _ => .inl (phase.trans begun))
  apply updated.owe
  · simpa [JoinTable.setJoin] using phase.trans begun
  · simpa [JoinTable.setJoin] using claimed
  · exact free

theorem countUp (ledger : Ledger table) {join : Join T}
    (counts : (table.joins j).kind = .anyWait ∨ (table.joins j).kind = .anyResult)
    (handling : (table.joins j).phase = .begun ∨ (table.joins j).phase = .answered)
    (same : join.SameButCounter (table.joins j))
    (counter : join.counter = (table.joins j).counter + 1) :
    Ledger (table.settle t j join ((table.joins j).counter = 0)) := by
  have proceed : join.kind ≠ .waiter → join.proceed = true := fun notWaiter =>
    same.proceed.trans (ledger.proceed j (same.kind ▸ notWaiter))
  have claimed : join.claimed = true := by
    rcases counts with kind | kind <;> simp [Join.claimed, same.kind, kind, counter]
  unfold JoinTable.settle
  split
  next first =>
    refine ledger.claim ?_ handling same.phase same.kind claimed proceed
    rcases counts with kind | kind <;> simpa [Join.claimed, kind] using first
  next later =>
    refine ledger.update ?_ same.phase same.kind ?_ proceed (fun _ _ => same.phase ▸ handling)
    · rcases handling with phase | phase <;> simp [phase]
    · exact fun without => by simp [claimed] at without

theorem tryProceed (ledger : Ledger table)
    (counts : (table.joins j).kind = .anyWait ∨ (table.joins j).kind = .anyResult)
    (handling : (table.joins j).phase = .begun ∨ (table.joins j).phase = .answered)
    (result : Option T) : Ledger (table.tryProceed t j result) :=
  ledger.countUp counts handling (Join.tryProceed_same _ _) (Join.tryProceed_counter _ _)

theorem release (ledger : Ledger table) {join : Join T}
    (used : (table.joins j).phase ≠ .unused)
    (held : (table.joins j).looping = true ∨ (table.joins j).holders ≠ [])
    (phase : join.phase = (table.joins j).phase) (kind : join.kind = (table.joins j).kind)
    (counter : join.counter = (table.joins j).counter)
    (proceed : join.kind ≠ .waiter → join.proceed = true)
    (released : join.looping = false → join.proceed = true →
      join.phase = .begun ∨ join.phase = .answered) :
    Ledger ((table.setJoin j join).releaseIfLast t j) := by
  have token : (table.joins j).kind = .wait ∨ (table.joins j).kind = .waiter →
      (table.joins j).claimed = false := by
    intro kind
    rcases held with looping | holders <;> rcases kind with kind | kind <;>
      simp_all [Join.claimed]
  have updated : Ledger (table.setJoin j join) := by
    refine ledger.update used phase kind ?_ proceed released
    intro without
    cases found : (table.joins j).kind with
    | wait => exact token (.inl found)
    | waiter => exact token (.inr found)
    | anyWait | anyResult => simpa [Join.claimed, kind, found, counter] using without
  have here : (table.setJoin j join).joins j = join := by simp
  have quiet (proceeds : join.releaseProceeds = false) (same : join.afterRelease = join) :
      Ledger ((table.setJoin j join).releaseIfLast t j) := by
    simpa [JoinTable.releaseIfLast, JoinTable.settle, proceeds, same] using updated
  by_cases last : join.Released
  · have claims (tokens : join.kind = .wait ∨ join.kind = .waiter)
        (proceeds : join.releaseProceeds = true) (set : join.proceed = true) :
        Ledger ((table.setJoin j join).releaseIfLast t j) := by
      have same : join.afterRelease = join :=
        Join.afterRelease_eq (by rcases tokens with found | found <;> simp [found])
      have claimed : join.claimed = true := by
        rcases tokens with found | found <;> simp [Join.claimed, found, last.1, last.2]
      have handling : (table.joins j).phase = .begun ∨ (table.joins j).phase = .answered :=
        phase ▸ released last.1 set
      simpa [JoinTable.releaseIfLast, JoinTable.settle, proceeds, same] using
        ledger.claim (token (kind ▸ tokens)) handling phase kind claimed proceed
    cases found : join.kind with
    | wait =>
        have set := proceed (by simp [found])
        exact claims (.inl found) (by simp [Join.releaseProceeds, last, found]) set
    | waiter =>
        by_cases set : join.proceed = true
        · exact claims (.inr found) (by simp [Join.releaseProceeds, last, found, set]) set
        · exact quiet (by simpa [Join.releaseProceeds, last, found] using set)
            (Join.afterRelease_eq (by simp [found]))
    | anyResult =>
        -- The destructor of `Counter` increments the counter
        have proceeds : join.releaseProceeds = decide (join.counter = 0) := by
          simp [Join.releaseProceeds, last, found]
        have after : join.afterRelease = join.tryProceed none := by
          simp [Join.afterRelease, last, found]
        have counted : Ledger ((table.setJoin j join).tryProceed t j none) := by
          refine updated.tryProceed ?_ ?_ none <;> rw [here]
          · exact .inr found
          · exact released last.1 (proceed (by simp [found]))
        simpa [JoinTable.releaseIfLast, JoinTable.tryProceed, here, proceeds, after] using counted
    | anyWait =>
        exact quiet (by simp [Join.releaseProceeds, found])
          (Join.afterRelease_eq (by simp [found]))
  · obtain ⟨same, proceeds⟩ := Join.release_of_held last
    exact quiet proceeds same

theorem releaseLoop (ledger : Ledger table) (looping : (table.joins j).looping = true)
    (used : (table.joins j).phase ≠ .unused)
    (released : (table.joins j).proceed = true →
      (table.joins j).phase = .begun ∨ (table.joins j).phase = .answered) :
    Ledger (table.releaseLoop t j) :=
  ledger.release used (.inl looping) rfl rfl rfl (ledger.proceed j) (fun _ => released)

theorem releaseChild (ledger : Ledger table)
    (holds : ∀ child, table.child r = some child → r ∈ (table.joins child.join).holders) :
    Ledger (table.releaseChild t r) := by
  unfold JoinTable.releaseChild
  split
  next child found =>
    have used := ledger.known r child found
    exact ledger.release used (.inr (List.ne_nil_of_mem (holds child found))) rfl rfl rfl
      (ledger.proceed _) (ledger.released _ used)
  · exact ledger

/-- A child is launched by a loop that has begun, or by a `Waiter`. -/
theorem launch (ledger : Ledger table) (looping : (table.joins j).looping = true)
    (used : (table.joins j).phase ≠ .unused)
    (handling : (table.joins j).kind ≠ .waiter →
      (table.joins j).phase = .begun ∨ (table.joins j).phase = .answered)
    (created : RunnerId) : Ledger (table.launch j created) := by
  have updated : Ledger (table.setJoin j
      { table.joins j with
        launched := (table.joins j).launched + 1
        holders := created :: (table.joins j).holders }) := by
    refine ledger.update used rfl rfl ?_ (ledger.proceed j) ?_
    · cases kind : (table.joins j).kind <;> simp [Join.claimed, kind, looping]
    · simp [looping]
  refine { updated with known := fun r child found => ?_, started := fun r child found => ?_ }
  · by_cases same : r = created
    · subst same
      have equal : ({ join := j, index := (table.joins j).launched } : Child) = child := by
        simpa [JoinTable.launch, JoinTable.setChild] using found
      subst equal
      simpa [JoinTable.launch, JoinTable.setChild, JoinTable.setJoin] using used
    · exact updated.known r child (by simpa [JoinTable.launch, JoinTable.setChild, same] using found)
  · by_cases same : r = created
    · subst same
      have equal : ({ join := j, index := (table.joins j).launched } : Child) = child := by
        simpa [JoinTable.launch, JoinTable.setChild] using found
      subst equal
      simpa [JoinTable.launch, JoinTable.setChild, JoinTable.setJoin] using handling
    · exact updated.started r child
        (by simpa [JoinTable.launch, JoinTable.setChild, same] using found)

theorem setEnded (ledger : Ledger table) {child : Child} (found : table.child r = some child) :
    Ledger (table.setChild r { child with ended := true }) := by
  refine { ledger with known := fun other otherChild set => ?_,
                       started := fun other otherChild set => ?_ }
  · by_cases same : other = r
    · subst same
      have equal : { child with ended := true } = otherChild := by
        simpa [JoinTable.setChild] using set
      subst equal
      exact ledger.known other child found
    · exact ledger.known other otherChild (by simpa [JoinTable.setChild, same] using set)
  · by_cases same : other = r
    · subst same
      have equal : { child with ended := true } = otherChild := by
        simpa [JoinTable.setChild] using set
      subst equal
      exact ledger.started other child found
    · exact ledger.started other otherChild (by simpa [JoinTable.setChild, same] using set)

theorem setCounting (ledger : Ledger table) {counts : Option (JoinId × Nat)}
    (counting : ∀ j index, counts = some (j, index) → (table.joins j).kind = .anyWait ∧
      ((table.joins j).phase = .begun ∨ (table.joins j).phase = .answered)) :
    Ledger (table.setCounting t counts) := by
  refine { ledger with counting := fun thread j index set => ?_ }
  by_cases here : thread = t
  · subst here
    exact counting j index (by simpa using set)
  · exact ledger.counting thread j index (by simpa [here] using set)

theorem childReturns (ledger : Ledger table) {child : Child}
    (found : table.child r = some child) (value : Option T) :
    Ledger (table.childReturns t r child value) := by
  have ended := ledger.setEnded found
  have handling := ledger.started r child found
  rcases table.childReturns_cases t r child value with
    ⟨kind, result, -, same⟩ | ⟨kind, same⟩ | ⟨-, -, same⟩ <;> rw [same]
  · exact ended.tryProceed (.inr kind) (handling (by simp [kind])) (some result)
  · refine ended.setCounting fun j index set => ?_
    obtain ⟨rfl, -⟩ : child.join = j ∧ child.index = index := by simpa using set
    exact ⟨kind, handling (by simp [kind])⟩
  · exact ended

/-- A child of `RunAsyncAnyWait` increments the counter. -/
theorem increment (ledger : Ledger table) {index : Nat}
    (counts : table.counting t = some (j, index)) : Ledger (table.increment t j index) := by
  obtain ⟨kind, handling⟩ := ledger.counting t j index counts
  have counted : Ledger (table.setCounting t none) := ledger.setCounting nofun
  exact counted.countUp (.inl kind) handling (Join.tryIndex_same _ _) (Join.tryIndex_counter _ _)

theorem newJoin (ledger : Ledger table) (fresh : (table.joins j).phase = .unused)
    (kind : JoinKind) (handlers : Nat) : Ledger (table.newJoin r j kind handlers) where
  unused other unused := by
    by_cases same : other = j
    · subst same
      simp [JoinTable.newJoin, JoinTable.setJoin] at unused
    · simpa [JoinTable.newJoin, JoinTable.setJoin, same] using
        ledger.unused other (by simpa [JoinTable.newJoin, JoinTable.setJoin, same] using unused)
  unclaimed other unclaimed := by
    by_cases same : other = j
    · subst same
      refine ⟨by simp [JoinTable.newJoin, JoinTable.setJoin], fun t owes => ?_⟩
      have begun := (ledger.owed t other owes).1
      simp [fresh] at begun
    · simpa [JoinTable.newJoin, JoinTable.setJoin, same] using
        ledger.unclaimed other
          (by simpa [JoinTable.newJoin, JoinTable.setJoin, same] using unclaimed)
  owed thread other owes := by
    have before := ledger.owed thread other owes
    have different : other ≠ j := by
      rintro rfl
      simp [fresh] at before
    simpa [JoinTable.newJoin, JoinTable.setJoin, different] using before
  proceed other notWaiter := by
    by_cases same : other = j
    · subst same
      simp [JoinTable.newJoin, JoinTable.setJoin]
    · simp only [JoinTable.newJoin, JoinTable.setJoin, Function.update_of_ne same] at notWaiter ⊢
      exact ledger.proceed other notWaiter
  released other inUse looping proceed := by
    by_cases same : other = j
    · subst same
      simp [JoinTable.newJoin, JoinTable.setJoin] at looping
    · simp only [JoinTable.newJoin, JoinTable.setJoin, Function.update_of_ne same] at *
      exact ledger.released other inUse looping proceed
  known runner child found := by
    have different : child.join ≠ j := by
      intro same
      exact ledger.known runner child found (same ▸ fresh)
    simpa [JoinTable.newJoin, JoinTable.setJoin, different] using
      ledger.known runner child found
  started runner child found notWaiter := by
    have different : child.join ≠ j := by
      intro same
      exact ledger.known runner child found (same ▸ fresh)
    simp only [JoinTable.newJoin, JoinTable.setJoin, Function.update_of_ne different]
      at notWaiter ⊢
    exact ledger.started runner child found notWaiter
  counting thread other index counts := by
    have before := ledger.counting thread other index counts
    have different : other ≠ j := by
      rintro rfl
      simp [fresh] at before
    simpa [JoinTable.newJoin, different] using before

/-- The phase of a join moves on before its proceed handler is called. -/
theorem advance (ledger : Ledger table) {phase : JoinPhase}
    (used : (table.joins j).phase ≠ .unused) (moves : phase = .stored ∨ phase = .begun)
    (free : phase = .stored → ∀ t, table.owes t ≠ some j)
    (kept : (table.joins j).phase = .begun ∨ (table.joins j).phase = .answered →
      phase = .begun)
    (released : (table.joins j).looping = false → (table.joins j).proceed = true →
      phase = .begun) :
    Ledger (table.setJoin j { table.joins j with phase := phase }) where
  unused other unused := by
    by_cases same : other = j
    · subst same
      rcases moves with rfl | rfl <;> simp [JoinTable.setJoin] at unused
    · simpa [JoinTable.setJoin, same] using
        ledger.unused other (by simpa [JoinTable.setJoin, same] using unused)
  unclaimed other unclaimed := by
    by_cases same : other = j
    · subst same
      have before := ledger.unclaimed other
        (by simpa [JoinTable.setJoin, Join.claimed] using unclaimed)
      refine ⟨?_, before.2⟩
      rcases moves with rfl | rfl <;> simp [JoinTable.setJoin]
    · simpa [JoinTable.setJoin, same] using
        ledger.unclaimed other (by simpa [JoinTable.setJoin, same] using unclaimed)
  owed thread other owes := by
    have before := ledger.owed thread other owes
    by_cases same : other = j
    · subst same
      simpa [JoinTable.setJoin, kept (.inl before.1)] using before.2
    · simpa [JoinTable.setJoin, same] using before
  proceed other notWaiter := by
    by_cases same : other = j
    · subst same
      simp only [JoinTable.setJoin, Function.update_self] at notWaiter ⊢
      exact ledger.proceed other notWaiter
    · simp only [JoinTable.setJoin, Function.update_of_ne same] at notWaiter ⊢
      exact ledger.proceed other notWaiter
  released other inUse looping proceed := by
    by_cases same : other = j
    · subst same
      simp only [JoinTable.setJoin, Function.update_self] at looping proceed ⊢
      exact .inl (released looping proceed)
    · simp only [JoinTable.setJoin, Function.update_of_ne same] at inUse looping proceed ⊢
      exact ledger.released other inUse looping proceed
  known runner child found := by
    by_cases same : child.join = j
    · rcases moves with rfl | rfl <;> simp [JoinTable.setJoin, same]
    · simpa [JoinTable.setJoin, same] using ledger.known runner child found
  started runner child found notWaiter := by
    by_cases same : child.join = j
    · have before := ledger.started runner child found
      simp only [JoinTable.setJoin, same, Function.update_self] at notWaiter ⊢
      rw [same] at before
      exact .inl (kept (before notWaiter))
    · simp only [JoinTable.setJoin, Function.update_of_ne same] at notWaiter ⊢
      exact ledger.started runner child found notWaiter
  counting thread other index counts := by
    obtain ⟨kind, handling⟩ := ledger.counting thread other index counts
    by_cases same : other = j
    · subst same
      simp [kind, kept handling]
    · simpa [same] using And.intro kind handling

theorem deferJoin (ledger : Ledger table) (idle : (table.joins j).phase = .idle)
    (looping : (table.joins j).looping = true) : Ledger (table.deferJoin r j) := by
  have stored : Ledger (table.setJoin j { table.joins j with phase := .stored }) := by
    apply ledger.advance
    · simp [idle]
    · exact .inl rfl
    · intro _ t owes
      have begun := (ledger.owed t j owes).1
      simp [idle] at begun
    · simp [idle]
    · simp [looping]
  exact { stored with }

theorem beginHandler (ledger : Ledger table)
    (stored : ∀ j, table.stored r = .join j → (table.joins j).phase ≠ .unused) :
    Ledger (table.beginHandler t r) := by
  unfold JoinTable.beginHandler
  split
  · exact { ledger with }
  next j code =>
    have begun : Ledger (table.setJoin j { table.joins j with phase := .begun }) :=
      ledger.advance (stored j code) (.inr rfl) (by simp) (fun _ => rfl) (fun _ _ => rfl)
    exact { begun with }

theorem pay (ledger : Ledger table) (owes : table.owes t = some j) :
    Ledger (table.pay t j) := by
  obtain ⟨begun, alone⟩ := ledger.owed t j owes
  have claimed : (table.joins j).claimed = true := by
    by_contra without
    exact (ledger.unclaimed j (by simpa using without)).2 t owes
  constructor
  · intro other unused
    by_cases same : other = j
    · subst same
      simp [JoinTable.pay, JoinTable.setJoin] at unused
    · simpa [JoinTable.pay, JoinTable.setJoin, same] using
        ledger.unused other (by simpa [JoinTable.pay, JoinTable.setJoin, same] using unused)
  · intro other unclaimed
    have different : other ≠ j := by
      rintro rfl
      simp [JoinTable.pay, JoinTable.setJoin, Join.claimed] at unclaimed
      simp [Join.claimed, unclaimed] at claimed
    have before := ledger.unclaimed other
      (by simpa [JoinTable.pay, JoinTable.setJoin, different] using unclaimed)
    refine ⟨by simpa [JoinTable.pay, JoinTable.setJoin, different] using before.1, ?_⟩
    intro thread
    by_cases same : thread = t
    · subst same
      simp [JoinTable.pay]
    · simpa [JoinTable.pay, same] using before.2 thread
  · intro thread other also
    have otherThread : thread ≠ t := by
      rintro rfl
      simp [JoinTable.pay] at also
    have before : table.owes thread = some other := by
      simpa [JoinTable.pay, otherThread] using also
    have different : other ≠ j := by
      rintro rfl
      exact otherThread (alone thread before)
    obtain ⟨phase, unique⟩ := ledger.owed thread other before
    refine ⟨by simpa [JoinTable.pay, JoinTable.setJoin, different] using phase, ?_⟩
    intro another and
    have notPaid : another ≠ t := by
      rintro rfl
      simp [JoinTable.pay] at and
    exact unique another (by simpa [JoinTable.pay, notPaid] using and)
  · intro other notWaiter
    by_cases same : other = j
    · subst same
      simp only [JoinTable.pay, JoinTable.setJoin, Function.update_self] at notWaiter ⊢
      exact ledger.proceed other notWaiter
    · simp only [JoinTable.pay, JoinTable.setJoin, Function.update_of_ne same] at notWaiter ⊢
      exact ledger.proceed other notWaiter
  · intro other inUse looping proceed
    by_cases same : other = j
    · subst same
      exact .inr (by simp [JoinTable.pay, JoinTable.setJoin])
    · simp only [JoinTable.pay, JoinTable.setJoin, Function.update_of_ne same] at *
      exact ledger.released other inUse looping proceed
  · intro runner child found
    by_cases same : child.join = j
    · simp [JoinTable.pay, JoinTable.setJoin, same]
    · simpa [JoinTable.pay, JoinTable.setJoin, same] using ledger.known runner child found
  · intro runner child found notWaiter
    by_cases same : child.join = j
    · exact .inr (by simp [JoinTable.pay, JoinTable.setJoin, same])
    · simp only [JoinTable.pay, JoinTable.setJoin, Function.update_of_ne same] at notWaiter ⊢
      exact ledger.started runner child found notWaiter
  · intro thread other index counts
    have before := ledger.counting thread other index counts
    by_cases same : other = j
    · subst same
      simp [JoinTable.pay, before.1]
    · simpa [JoinTable.pay, same] using before

end Ledger

end FlatAsync

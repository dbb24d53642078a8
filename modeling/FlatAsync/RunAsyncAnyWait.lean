import FlatAsync.JoinOutcome
import FlatAsync.RunnerFrames

/-!
# RunAsyncAnyWait

A child of `RunAsyncAnyWait` increments the counter after the call of its
handler, so a handler that throws leaves the counter alone, and one that has
returned may be overtaken on the way to the counter.  This file shows that the
caller is resumed, with the index of the first handler to end, when that handler
returns and is the first to increment the counter; and that a caller whose only
handler throws is left suspended.
-/

namespace FlatAsync

variable {T : Type}

/-! ### The handlers that have ended, and those that have been counted -/

namespace JoinState

/-- The handler of runner `r` ends: its number, and whether it returns. -/
def ending (s : JoinState T) (j : JoinId) (r : RunnerId) (returns : Bool) : List (Nat × Bool) :=
  match s.table.child r with
  | some child => if child.join = j then [(child.index, returns)] else []
  | none => []

/-- The handlers of join `j` that end with a step. -/
def endings (j : JoinId) (s : JoinState T) : JoinAction T → List (Nat × Bool)
  | .childReturns _ r _ => s.ending j r true
  | .childThrows _ r => s.ending j r false
  | _ => []

end JoinState

/-- The handler of join `j` whose closure increments the counter with a step. -/
def JoinAction.counts (j : JoinId) : JoinAction T → List Nat
  | .increment _ k index => if k = j then [index] else []
  | _ => []

/-- What the shared state of a `RunAsyncAnyWait` says when its closures have
incremented the counter in the order `counts`. -/
structure IndexLaw (join : Join T) (counts : List Nat) : Prop where
  unused : join.phase = .unused → counts = []
  index : join.kind = .anyWait → join.index = counts.head?
  counter : join.kind = .anyWait → (join.counter = 0 ↔ counts = [])
  some : join.kind = .anyWait → join.phase ≠ .unused → 0 < join.handlers

namespace IndexLaw

variable {join after : Join T} {counts : List Nat}

theorem keep (law : IndexLaw join counts) (used : join.phase ≠ .unused)
    (still : after.phase ≠ .unused) (kind : after.kind = join.kind)
    (handlers : after.handlers = join.handlers)
    (same : join.kind = .anyWait → after.index = join.index ∧ after.counter = join.counter) :
    IndexLaw after counts where
  unused unused := absurd unused still
  index any := by rw [(same (kind ▸ any)).1, law.index (kind ▸ any)]
  counter any := by rw [(same (kind ▸ any)).2, law.counter (kind ▸ any)]
  some any _ := handlers ▸ law.some (kind ▸ any) used

theorem afterRelease (law : IndexLaw join counts) (used : join.phase ≠ .unused) :
    IndexLaw join.afterRelease counts := by
  have same := join.afterRelease_same
  refine law.keep used (same.phase ▸ used) same.kind same.handlers fun any => ?_
  simp [Join.afterRelease, any]

theorem tryIndex (law : IndexLaw join counts) (used : join.phase ≠ .unused) (index : Nat) :
    IndexLaw (join.tryIndex index) (counts ++ [index]) := by
  have same := join.tryIndex_same index
  refine ⟨fun unused => absurd (same.phase ▸ unused) used, fun any => ?_, fun any => ?_,
    fun any _ => same.handlers ▸ law.some (same.kind ▸ any) used⟩
  · have kind : join.kind = .anyWait := same.kind ▸ any
    unfold Join.tryIndex
    split
    next first => simp [(law.counter kind).mp first]
    next counted =>
      have some : counts ≠ [] := mt (law.counter kind).mpr counted
      simp only [law.index kind, List.head?_append_of_ne_nil counts some]
  · simp [join.tryIndex_counter index]

end IndexLaw

namespace JoinRoll

variable {s : JoinState T} {action : JoinAction T} {j : JoinId} {counts : List Nat}

private theorem indexLaw_of_changes (inv : JoinRoll s) {after : Join T}
    (law : IndexLaw (s.table.joins j) counts) (changes : s.Changes j action after)
    (uncounted : ∀ t index, action ≠ .increment t j index) : IndexLaw after counts := by
  cases changes with
  | same _ same => exact same ▸ law
  | made _ unused kind owner handlers phase starts some _ same =>
      subst same
      have empty := law.unused unused
      exact ⟨fun _ => empty, fun _ => by simp [empty], fun _ => by simp [empty],
        fun any _ => some any⟩
  | suspends _ idle _ _ same =>
      subst same
      exact law.keep (by simp [idle]) nofun rfl rfl fun _ => ⟨rfl, rfl⟩
  | begins _ stored same =>
      subst same
      exact law.keep (by simp [stored]) nofun rfl rfl fun _ => ⟨rfl, rfl⟩
  | answered _ begun same =>
      subst same
      exact law.keep (by simp [begun]) nofun rfl rfl fun _ => ⟨rfl, rfl⟩
  | launches _ looping created _ same =>
      subst same
      have used := inv.used_of_looping looping
      exact law.keep used used rfl rfl fun _ => ⟨rfl, rfl⟩
  | releasesLoop _ looping proceed _ same =>
      subst same
      have used := inv.used_of_looping looping
      exact IndexLaw.afterRelease (law.keep used used rfl rfl fun _ => ⟨rfl, rfl⟩) used
  | releasesChild _ t r child exits found own same =>
      subst same
      have used := own ▸ inv.inv.ledger.known r child found
      exact IndexLaw.afterRelease (law.keep used used rfl rfl fun _ => ⟨rfl, rfl⟩) used
  | returns _ kind t r child value _ found own _ same =>
      subst same
      have used := own ▸ inv.inv.ledger.known r child found
      have counts := (s.table.joins j).tryProceed_same (some value)
      exact law.keep used (counts.phase ▸ used) counts.kind counts.handlers fun any => by
        simp [kind] at any
  | counts _ _ t index counted => exact absurd counted (uncounted t index)

theorem indexLaw_step (inv : JoinRoll s) (enabled : s.Enabled action)
    (law : IndexLaw (s.table.joins j) counts) :
    IndexLaw ((s.step action).table.joins j) (counts ++ action.counts j) := by
  by_cases counted : ∃ t index, action = .increment t j index
  · obtain ⟨t, index, rfl⟩ := counted
    have used : (s.table.joins j).phase ≠ .unused := by
      rcases (inv.inv.ledger.counting t j index enabled.2.1.1).2 with phase | phase <;>
        simp [phase]
    simpa [JoinState.step, JoinState.afterTable, JoinTable.increment, JoinTable.tryIndex,
      JoinTable.settle_joins, JoinAction.counts] using law.tryIndex used index
  · have uncounted : ∀ t index, action ≠ .increment t j index :=
      fun t index same => counted ⟨t, index, same⟩
    have nothing : action.counts j = [] := by
      cases action with
      | increment t k index =>
          exact if_neg fun same => uncounted t index (by rw [same])
      | _ => rfl
    simpa [nothing] using inv.indexLaw_of_changes law (inv.changes enabled j) uncounted

end JoinRoll

/-! ### Where the counter is incremented and the proceed handler called -/

namespace JoinTable

variable {table : JoinTable T} {t u : ThreadId} {j k : JoinId} {join : Join T} {proceeds : Bool}

@[simp] theorem settle_counting :
    (table.settle t j join proceeds).counting = table.counting := by
  unfold settle
  split <;> rfl

theorem owes_of_settle (other : k ≠ j ∨ u ≠ t ∨ proceeds = false)
    (owes : (table.settle t k join proceeds).owes u = some j) : table.owes u = some j := by
  unfold settle at owes
  split at owes
  next due =>
    by_cases here : u = t
    · subst here
      have different : k ≠ j := by simpa [due] using other
      simp [different] at owes
    · simpa [here] using owes
  · exact owes

/-- The last release of a `RunAsyncAnyWait` calls nothing. -/
theorem owes_of_releaseIfLast (any : (table.joins j).kind = .anyWait)
    (owes : (table.releaseIfLast t k).owes u = some j) : table.owes u = some j := by
  refine owes_of_settle ?_ owes
  by_cases same : k = j
  · subst same
    exact .inr (.inr (by simp [Join.releaseProceeds, any]))
  · exact .inl same

end JoinTable

/-- Thread `u` is about to increment the counter of join `j`, or to call its
proceed handler. -/
def JoinState.Bound (s : JoinState T) (j : JoinId) (u : ThreadId) : Prop :=
  (∃ index, s.table.counting u = some (j, index)) ∨ s.table.owes u = some j

/-- The code of a `RunAsyncAnyWait` after the call of a handler is executed in the
bodies of its children. -/
def JoinState.CallsInside (s : JoinState T) (j : JoinId) : Prop :=
  (s.table.joins j).kind = .anyWait → ∀ t, s.Bound j t →
    ∃ r child, (s.system.threads t).pc = .body r ∧ s.table.child r = some child ∧ child.join = j

/-- What a step makes of the increments that are to come. -/
inductive JoinState.CountingChanges (s : JoinState T) (action : JoinAction T)
    (after : ThreadId → Option (JoinId × Nat)) : Prop
  | same (silent : ∀ t r value, action ≠ .childReturns t r value)
      (uncounted : ∀ t j index, action ≠ .increment t j index)
      (same : after = s.table.counting)
  | returns (t : ThreadId) (r : RunnerId) (value : Option T) (child : Child)
      (returned : action = .childReturns t r value) (found : s.table.child r = some child)
      (same : after = Function.update s.table.counting t
        (if (s.table.joins child.join).kind = .anyWait then some (child.join, child.index)
          else none))
  | counts (t : ThreadId) (j : JoinId) (index : Nat) (counted : action = .increment t j index)
      (counting : s.table.counting t = some (j, index))
      (same : after = Function.update s.table.counting t none)

namespace JoinRoll

variable {s : JoinState T} {action : JoinAction T} {j : JoinId}

theorem countingChanges (enabled : s.Enabled action) :
    s.CountingChanges action (s.step action).table.counting := by
  change s.CountingChanges action (s.afterTable action).counting
  cases action with
  | runner action =>
      refine .same (by simp) (by simp) ?_
      cases action with
      | onExit t q =>
          simp only [JoinState.afterTable, JoinState.afterRunner]
          split
          · unfold JoinTable.beginHandler
            split <;> rfl
          · rfl
          · unfold JoinTable.releaseChild
            split <;> simp [JoinTable.releaseIfLast]
      | _ => rfl
  | defer t q calls | join t q k kind handlers =>
      refine .same (by simp) (by simp) (s.ifCalm_same JoinTable.counting ?_)
      rfl
  | userCall | launch | makeWaiter | waiterRunAsync | callProceed =>
      exact .same (by simp) (by simp) rfl
  | endLoop | dropWaiter =>
      exact .same (by simp) (by simp) (by
        simp [JoinState.afterTable, JoinTable.releaseLoop, JoinTable.releaseIfLast])
  | waiterWait t q k =>
      refine .same (by simp) (by simp) ?_
      simp only [JoinState.afterTable]
      split
      · rfl
      · refine s.ifCalm_same JoinTable.counting ?_
        rfl
  | childReturns t r value =>
      obtain ⟨child, found⟩ := Option.isSome_iff_exists.mp enabled.2.1.2.1.1
      have free := (unbound (t := t) enabled rfl).1
      refine .returns t r value child rfl found ?_
      simp only [JoinState.afterTable, found]
      rcases s.table.childReturns_cases t r child value with
        ⟨kind, _, -, same⟩ | ⟨kind, same⟩ | ⟨kind, -, same⟩ <;> rw [same]
      · simp [JoinTable.tryProceed, kind, ← free]
      · simp [kind]
      · simp [kind, ← free]
  | childThrows t r =>
      obtain ⟨child, found⟩ := Option.isSome_iff_exists.mp enabled.2.1.2.1.1
      exact .same (by simp) (by simp) (by simp [JoinState.afterTable, found])
  | increment t k index =>
      exact .counts t k index rfl enabled.2.1.1 (by
        simp [JoinState.afterTable, JoinTable.increment, JoinTable.tryIndex])

/-- A thread comes to be about to increment a counter when a child returns. -/
theorem counting_cases (enabled : s.Enabled action) {u : ThreadId} {index : Nat}
    (counts : (s.step action).table.counting u = some (j, index)) :
    s.table.counting u = some (j, index) ∨ ∃ r value child, action = .childReturns u r value ∧
      s.table.child r = some child ∧ child.join = j ∧ child.index = index := by
  cases countingChanges enabled with
  | same _ _ same => exact .inl (same ▸ counts)
  | returns t r value child returned found same =>
      rw [same] at counts
      by_cases here : u = t
      · subst here
        rw [Function.update_self] at counts
        split at counts
        · obtain ⟨own, number⟩ : child.join = j ∧ child.index = index := by simpa using counts
          exact .inr ⟨r, value, child, returned, found, own, number⟩
        · cases counts
      · exact .inl (by simpa [here] using counts)
  | counts t k number _ _ same =>
      rw [same] at counts
      by_cases here : u = t
      · simp [here] at counts
      · exact .inl (by simpa [here] using counts)

/-- A thread comes to owe a call of `RunAsyncAnyWait` by an increment. -/
theorem owes_step (enabled : s.Enabled action)
    (any : (s.table.joins j).kind = .anyWait) {u : ThreadId}
    (owes : (s.step action).table.owes u = some j) :
    s.table.owes u = some j ∨ ∃ index, action = .increment u j index := by
  change (s.afterTable action).owes u = some j at owes
  have calm {t : ThreadId} {q : RunnerId} {table : JoinTable T}
      (same : table.owes = s.table.owes) (owes : (s.ifCalm t q table).owes u = some j) :
      s.table.owes u = some j :=
    s.ifCalm_same JoinTable.owes same ▸ owes
  have released {t : ThreadId} {k : JoinId} {join : Join T}
      (kind : join.kind = (s.table.joins k).kind)
      (owes : ((s.table.setJoin k join).releaseIfLast t k).owes u = some j) :
      s.table.owes u = some j := by
    have still : ((s.table.setJoin k join).joins j).kind = .anyWait := by
      by_cases same : j = k
      · subst same
        simpa [kind] using any
      · simpa [same] using any
    have before := JoinTable.owes_of_releaseIfLast still owes
    exact before
  cases action with
  | runner action =>
      cases action with
      | onExit t q =>
          simp only [JoinState.afterTable, JoinState.afterRunner] at owes
          split at owes
          · unfold JoinTable.beginHandler at owes
            split at owes <;> exact .inl owes
          · exact .inl owes
          · unfold JoinTable.releaseChild at owes
            split at owes
            · exact .inl (released (by rfl) owes)
            · exact .inl owes
      | _ => exact .inl owes
  | defer t q calls =>
      refine .inl (calm ?_ owes)
      rfl
  | join t q k kind handlers =>
      refine .inl (calm ?_ owes)
      rfl
  | userCall | launch | makeWaiter | waiterRunAsync => exact .inl owes
  | endLoop t k =>
      simp only [JoinState.afterTable, JoinTable.releaseLoop] at owes
      exact .inl (released (by rfl) owes)
  | waiterWait t q k =>
      simp only [JoinState.afterTable] at owes
      split at owes
      · exact .inl owes
      · refine .inl (calm ?_ owes)
        rfl
  | dropWaiter t q k =>
      simp only [JoinState.afterTable, JoinTable.releaseLoop, JoinTable.setJoin_setJoin] at owes
      exact .inl (released (by simp) owes)
  | childReturns t r value =>
      obtain ⟨child, found⟩ := Option.isSome_iff_exists.mp enabled.2.1.2.1.1
      simp only [JoinState.afterTable, found] at owes
      rcases s.table.childReturns_cases t r child value with
        ⟨kind, _, -, same⟩ | ⟨-, same⟩ | ⟨-, -, same⟩ <;> rw [same] at owes
      · have other : child.join ≠ j := by
          rintro rfl
          simp [kind] at any
        have before := JoinTable.owes_of_settle (.inl other) owes
        exact .inl before
      · exact .inl owes
      · exact .inl owes
  | childThrows t r =>
      obtain ⟨child, found⟩ := Option.isSome_iff_exists.mp enabled.2.1.2.1.1
      simp only [JoinState.afterTable, found] at owes
      exact .inl owes
  | increment t k index =>
      by_cases here : k = j ∧ u = t
      · obtain ⟨rfl, rfl⟩ := here
        exact .inr ⟨index, rfl⟩
      · have other : k ≠ j ∨ u ≠ t ∨ decide ((s.table.joins k).counter = 0) = false :=
          (not_and_or.mp here).imp_right .inl
        have before := JoinTable.owes_of_settle other owes
        exact .inl before
  | callProceed t k =>
      by_cases here : u = t
      · subst here
        simp [JoinState.afterTable, JoinTable.pay] at owes
      · exact .inl (by simpa [JoinState.afterTable, JoinTable.pay, here] using owes)

/-- A thread comes to be bound to a `RunAsyncAnyWait` when a child returns. -/
theorem bound_step (enabled : s.Enabled action)
    (any : (s.table.joins j).kind = .anyWait) {u : ThreadId} (bound : (s.step action).Bound j u) :
    s.Bound j u ∨ ∃ r value child, action = .childReturns u r value ∧
      s.table.child r = some child ∧ child.join = j := by
  rcases bound with ⟨index, counts⟩ | owes
  · rcases counting_cases enabled counts with before | ⟨r, value, child, returned, found, own, -⟩
    · exact .inl (.inl ⟨index, before⟩)
    · exact .inr ⟨r, value, child, returned, found, own⟩
  · rcases owes_step enabled any owes with before | ⟨index, rfl⟩
    · exact .inl (.inr before)
    · exact .inl (.inl ⟨index, enabled.2.1.1⟩)

theorem callsInside_step (inv : JoinRoll s) (enabled : s.Enabled action)
    (contract : UserContract s action) (inside : s.CallsInside j) :
    (s.step action).CallsInside j := by
  intro any u bound
  have after := (inv.step enabled contract).inv.ledger
  have handling : ((s.step action).table.joins j).phase = .begun ∨
      ((s.step action).table.joins j).phase = .answered := by
    rcases bound with ⟨index, counts⟩ | owes
    · exact (after.counting u j index counts).2
    · exact .inl (after.owed u j owes).1
  have kind : (s.table.joins j).kind = .anyWait := by
    by_cases unused : (s.table.joins j).phase = .unused
    · have used : ((s.step action).table.joins j).phase ≠ .unused := by
        rcases handling with phase | phase <;> simp [phase]
      obtain ⟨_, _, _, phase, starts, -, same⟩ := inv.made_of_used enabled unused used
      rcases starts with rfl | rfl <;> simp [same] at handling
    · exact (inv.sameCall_step enabled unused).kind ▸ any
  have stays {r : RunnerId} {child : Child} (runs : (s.system.threads u).pc = .body r)
      (pc : (s.step action).system.threads u = s.system.threads u)
      (found : s.table.child r = some child) (own : child.join = j) :
      ∃ r child, ((s.step action).system.threads u).pc = .body r ∧
        (s.step action).table.child r = some child ∧ child.join = j := by
    obtain ⟨after, present, join, -⟩ := inv.child_step enabled found
    exact ⟨r, after, by rw [pc, runs], present, join.trans own⟩
  rcases bound_step enabled kind bound with before | ⟨r, value, child, rfl, found, own⟩
  · obtain ⟨r, child, runs, found, own⟩ := inside kind u before
    have elsewhere : JoinState.thread action ≠ some u := fun thread => by
      obtain ⟨noCount, noCall⟩ := unbound enabled thread
      rcases before with ⟨index, counts⟩ | owes
      · simp [noCount] at counts
      · simp [noCall] at owes
    exact stays runs (s.step_threads elsewhere) found own
  · exact stays enabled.2.1.1.1 rfl found own

theorem unbound_of_gone (inv : JoinRoll s) (inside : s.CallsInside j)
    (any : (s.table.joins j).kind = .anyWait) (gone : s.AllGone j) (t : ThreadId) :
    ¬ s.Bound j t := by
  intro bound
  obtain ⟨r, child, runs, found, own⟩ := inside any t bound
  have plays : (s.system.threads t).pc.role r = some .body := by simp [Pc.role, runs]
  obtain ⟨-, alive, -⟩ := (inv.inv.life.phases r).held_of_role (t := t) plays
  exact absurd (alive.symm.trans (gone.2 r child found own)) (by simp)

/-- When the children of a `RunAsyncAnyWait` are gone and its counter has been
incremented, the proceed handler has been called. -/
theorem answered_of_gone (inv : JoinRoll s) (inside : s.CallsInside j)
    (any : (s.table.joins j).kind = .anyWait) (used : (s.table.joins j).phase ≠ .unused)
    (counted : (s.table.joins j).counter ≠ 0) (gone : s.AllGone j) :
    (s.table.joins j).phase = .answered := by
  have proceed := inv.inv.ledger.proceed j (by simp [any])
  rcases inv.due.claimed j used (by simpa [Join.claimed, any] using counted) proceed with
    ⟨t, owes⟩ | answered
  · exact absurd (.inr owes) (inv.unbound_of_gone inside any gone t)
  · exact answered

end JoinRoll

/-! ### The first handler to end -/

/-- What is known of a `RunAsyncAnyWait` whose handlers have ended as listed in
`endings`, and have been counted in the order `counts`: those that have returned
are counted, or a thread is about to count them. -/
structure AnyWaitInvariant (j : JoinId) (s : JoinState T) (endings : List (Nat × Bool))
    (counts : List Nat) : Prop where
  law : IndexLaw (s.table.joins j) counts
  inside : s.CallsInside j
  listed : ∀ r child, s.table.child r = some child → child.join = j → child.ended = true →
    endings ≠ []
  bounded : ∀ ending ∈ endings, ending.1 < (s.table.joins j).launched
  counting : ∀ t index, s.table.counting t = some (j, index) → (index, true) ∈ endings
  counted : ∀ index ∈ counts, (index, true) ∈ endings
  returned : (s.table.joins j).kind = .anyWait → ∀ index, (index, true) ∈ endings →
    index ∈ counts ∨ ∃ t, s.table.counting t = some (j, index)

namespace JoinRoll

variable {s : JoinState T} {action : JoinAction T} {j : JoinId}

/-- A handler of the join has ended only if the list of endings says so. -/
theorem ended_step (inv : JoinRoll s) (enabled : s.Enabled action) {endings : List (Nat × Bool)}
    (listed : ∀ r child, s.table.child r = some child → child.join = j → child.ended = true →
      endings ≠ []) :
    ∀ r child, (s.step action).table.child r = some child → child.join = j →
      child.ended = true → endings ++ s.endings j action ≠ [] := by
  intro r child found own ended
  cases inv.childChanges enabled r with
  | same same => simp [listed r child (same.symm.trans found) own ended]
  | launched _ k same =>
      obtain rfl := Option.some.inj (same.symm.trans found)
      cases ended
  | ended before present _ t ends same =>
      obtain rfl := Option.some.inj (same.symm.trans found)
      rcases ends with ⟨value, rfl⟩ | rfl <;>
        simp [JoinState.endings, JoinState.ending, present, show before.join = j from own]

private theorem launched_of_endings (inv : JoinRoll s) {ending : Nat × Bool}
    (ends : ending ∈ s.endings j action) :
    (s.table.joins j).phase ≠ .unused ∧ ending.1 < (s.table.joins j).launched := by
  have child {r : RunnerId} {returns : Bool} (ends : ending ∈ s.ending j r returns) :
      (s.table.joins j).phase ≠ .unused ∧ ending.1 < (s.table.joins j).launched := by
    unfold JoinState.ending at ends
    split at ends
    next child found =>
      split at ends
      next own =>
        obtain rfl := List.mem_singleton.mp ends
        exact own ▸ ⟨inv.inv.ledger.known r child found, inv.roll.index r child found⟩
      · cases ends
    · cases ends
  cases action with
  | childReturns t r value => exact child ends
  | childThrows t r => exact child ends
  | _ => cases ends

theorem launched_step (inv : JoinRoll s) (enabled : s.Enabled action) (j : JoinId) :
    (s.table.joins j).launched ≤ ((s.step action).table.joins j).launched := by
  cases inv.changes enabled j with
  | same _ same | suspends _ _ _ _ same | begins _ _ same | answered _ _ same =>
      exact Nat.le_of_eq (by rw [same])
  | made _ unused => simp [inv.inv.ledger.unused j unused]
  | launches _ _ _ _ same => simp [same]
  | releasesLoop _ _ _ _ same | releasesChild _ _ _ _ _ _ _ same =>
      exact Nat.le_of_eq (by rw [same, (Join.afterRelease_same _).launched])
  | returns _ _ _ _ _ _ _ _ _ _ same =>
      exact Nat.le_of_eq (by rw [same, (Join.tryProceed_same _ _).launched])
  | counts _ _ _ _ _ _ same =>
      exact Nat.le_of_eq (by rw [same, (Join.tryIndex_same _ _).launched])

end JoinRoll

namespace AnyWaitInvariant

variable {s : JoinState T} {action : JoinAction T} {j : JoinId} {endings : List (Nat × Bool)}
  {counts : List Nat}

private theorem used_of_ending (inv : AnyWaitInvariant j s endings counts) (roll : JoinRoll s)
    {ending : Nat × Bool} (member : ending ∈ endings) : (s.table.joins j).phase ≠ .unused := by
  intro unused
  have small := inv.bounded ending member
  simp [roll.inv.ledger.unused j unused] at small

theorem counting_step (inv : AnyWaitInvariant j s endings counts) (enabled : s.Enabled action) :
    ∀ t index, (s.step action).table.counting t = some (j, index) →
      (index, true) ∈ endings ++ s.endings j action := by
  intro u index counts
  rcases JoinRoll.counting_cases enabled counts with
    before | ⟨r, value, child, rfl, found, own, rfl⟩
  · exact List.mem_append_left _ (inv.counting u index before)
  · simp [JoinState.endings, JoinState.ending, found, own]

theorem counted_step (inv : AnyWaitInvariant j s endings counts) (enabled : s.Enabled action) :
    ∀ index ∈ counts ++ action.counts j, (index, true) ∈ endings ++ s.endings j action := by
  intro index member
  rcases List.mem_append.mp member with before | now
  · exact List.mem_append_left _ (inv.counted index before)
  · cases action with
    | increment t k number =>
        simp only [JoinAction.counts] at now
        split at now
        next same =>
          subst same
          obtain rfl := List.mem_singleton.mp now
          exact List.mem_append_left _ (inv.counting t index enabled.2.1.1)
        · cases now
    | _ => cases now

/-- A handler that has returned is counted, or a thread is about to count it. -/
theorem returned_step (inv : AnyWaitInvariant j s endings counts) (roll : JoinRoll s)
    (enabled : s.Enabled action) (any : ((s.step action).table.joins j).kind = .anyWait) :
    ∀ index, (index, true) ∈ endings ++ s.endings j action → index ∈ counts ++ action.counts j ∨
      ∃ t, (s.step action).table.counting t = some (j, index) := by
  intro index member
  have used : (s.table.joins j).phase ≠ .unused := by
    rcases List.mem_append.mp member with before | now
    · exact inv.used_of_ending roll before
    · exact (roll.launched_of_endings now).1
  have kind : (s.table.joins j).kind = .anyWait := (roll.sameCall_step enabled used).kind ▸ any
  rcases List.mem_append.mp member with before | now
  · rcases inv.returned kind index before with counted | ⟨u, counts⟩
    · exact .inl (List.mem_append_left _ counted)
    · cases JoinRoll.countingChanges enabled with
      | same _ _ same => exact .inr ⟨u, same ▸ counts⟩
      | returns t r value child returned _ same =>
          have elsewhere : u ≠ t := by
            rintro rfl
            subst returned
            simp [(JoinRoll.unbound (t := u) enabled rfl).1] at counts
          exact .inr ⟨u, by simpa [same, elsewhere] using counts⟩
      | counts t k number counted counting same =>
          by_cases here : u = t
          · subst here
            obtain ⟨rfl, rfl⟩ : k = j ∧ number = index := by simpa [counting] using counts
            exact .inl (List.mem_append_right _ (by simp [counted, JoinAction.counts]))
          · exact .inr ⟨u, by simpa [same, here] using counts⟩
  · cases action with
    | childReturns t r value =>
        cases JoinRoll.countingChanges enabled with
        | same silent => exact absurd rfl (silent t r value)
        | counts _ _ _ counted => cases counted
        | returns t r value child returned found same =>
            cases returned
            simp only [JoinState.endings, JoinState.ending, found] at now
            split at now
            next own =>
              obtain rfl : index = child.index := by simpa using now
              exact .inr ⟨t, by simp [same, own, kind]⟩
            · cases now
    | childThrows t r =>
        unfold JoinState.endings JoinState.ending at now
        dsimp only at now
        split at now
        · split at now <;> simp at now
        · cases now
    | _ => cases now

theorem step (inv : AnyWaitInvariant j s endings counts) (roll : JoinRoll s)
    (enabled : s.Enabled action) (contract : UserContract s action) :
    AnyWaitInvariant j (s.step action) (endings ++ s.endings j action)
      (counts ++ action.counts j) where
  law := roll.indexLaw_step enabled inv.law
  inside := roll.callsInside_step enabled contract inv.inside
  listed := roll.ended_step enabled inv.listed
  bounded ending member := by
    refine Nat.lt_of_lt_of_le ?_ (roll.launched_step enabled j)
    rcases List.mem_append.mp member with before | now
    · exact inv.bounded ending before
    · exact (roll.launched_of_endings now).2
  counting := inv.counting_step enabled
  counted := inv.counted_step enabled
  returned any := inv.returned_step roll enabled any

private theorem run_from (inv : AnyWaitInvariant j s endings counts) (roll : JoinRoll s)
    {actions : List (JoinAction T)} (legal : (joinSystem T).Legal s actions)
    (contract : (joinSystem T).EveryStep UserContract s actions) :
    AnyWaitInvariant j ((joinSystem T).run s actions)
      (endings ++ (joinSystem T).trace (JoinState.endings j) s actions)
      (counts ++ (joinSystem T).trace (fun _ => JoinAction.counts j) s actions) := by
  induction actions generalizing s endings counts with
  | nil => simpa [ActionSystem.run, ActionSystem.trace] using inv
  | cons action actions ih =>
      have after := inv.step roll legal.1 contract.1
      have rest := ih after (roll.step legal.1 contract.1) legal.2 contract.2
      rw [List.append_assoc, List.append_assoc] at rest
      exact rest

theorem run {actions : List (JoinAction T)} (legal : (joinSystem T).Legal {} actions)
    (contract : (joinSystem T).EveryStep UserContract {} actions) (j : JoinId) :
    AnyWaitInvariant j ((joinSystem T).run {} actions)
      ((joinSystem T).trace (JoinState.endings j) {} actions)
      ((joinSystem T).trace (fun _ => JoinAction.counts j) {} actions) := by
  have initial : AnyWaitInvariant j ({} : JoinState T) [] [] :=
    { law := ⟨fun _ => rfl, nofun, nofun, nofun⟩
      inside := nofun
      listed := nofun
      bounded := nofun
      counting := nofun
      counted := nofun
      returned := nofun }
  simpa using initial.run_from JoinRoll.initial legal contract

end AnyWaitInvariant

/-- The first handler of join `j` that ends in the run, if any, returns, and no
other handler increments the counter before it. -/
def FirstCounts (j : JoinId) (actions : List (JoinAction T)) : Prop :=
  let endings := (joinSystem T).trace (JoinState.endings j) {} actions
  let counts := (joinSystem T).trace (fun _ => JoinAction.counts j) {} actions
  endings.head?.all (·.2) = true ∧ ∀ index ∈ counts.head?, endings.head? = some (index, true)

instance (j : JoinId) (actions : List (JoinAction T)) : Decidable (FirstCounts j actions) :=
  inferInstanceAs (Decidable (_ ∧ _))

theorem FirstCounts.take {j : JoinId} {before after : List (JoinAction T)}
    (first : FirstCounts j (before ++ after))
    (counted : ∀ index ∈ (joinSystem T).trace (fun _ => JoinAction.counts j) {} before,
      (index, true) ∈ (joinSystem T).trace (JoinState.endings j) {} before) :
    FirstCounts j before := by
  unfold FirstCounts at first ⊢
  simp only [ActionSystem.trace_append] at first
  cases ended : (joinSystem T).trace (JoinState.endings j) {} before with
  | nil =>
      refine ⟨rfl, fun index head => ?_⟩
      have member := counted index (List.mem_of_mem_head? head)
      simp [ended] at member
  | cons ending endings =>
      refine ⟨by simpa [ended] using first.1, fun index head => ?_⟩
      simpa [ended] using first.2 index (List.mem_head?_append_of_mem_head? head)

/-- In every run in which the first handler of a `RunAsyncAnyWait` to end
returns, and increments the counter before any other one, the proceed handler is
called once at most; the index the caller finds at any time after that is the
number of the first handler that ended; the caller rests until the call, which
has been made when all children are gone. -/
theorem run_async_any_wait {actions : List (JoinAction T)}
    (legal : (joinSystem T).Legal {} actions)
    (contract : (joinSystem T).EveryStep UserContract {} actions) {j : JoinId}
    (first : FirstCounts j actions) :
    (∀ before answer after, actions = before ++ answer :: after → answer.answers j = true →
        (((joinSystem T).run {} before).table.joins j).kind = .anyWait →
          ∃ index < (((joinSystem T).run {} before).table.joins j).handlers,
            ((joinSystem T).trace (JoinState.endings j) {} before).head? = some (index, true) ∧
              (((joinSystem T).run {} actions).table.joins j).index = some index) ∧
      (joinSystem T).EveryState (fun s => (s.table.joins j).kind = .anyWait →
        (s.table.joins j).phase ≠ .unused →
          ((s.table.joins j).phase = .stored ∨ (s.table.joins j).phase = .begun →
              s.CallerRests j) ∧
            (s.AllGone j → (s.table.joins j).phase = .answered)) {} actions ∧
      actions.countP (·.answers j) =
        (((joinSystem T).run {} actions).table.joins j).phase.answers := by
  refine ⟨fun before answer after split answers any => ?_,
    ActionSystem.everyState_of_prefixes fun before after split any used => ?_,
    JoinRoll.count_answers legal contract j⟩
  · subst split
    obtain ⟨legalBefore, rest⟩ := ActionSystem.everyStep_append.mp legal
    obtain ⟨contractBefore, contractRest⟩ := ActionSystem.everyStep_append.mp contract
    have roll := (JoinRoll.everyState legalBefore contractBefore).last
    have now := AnyWaitInvariant.run legalBefore contractBefore j
    have last := AnyWaitInvariant.run legal contract j
    have counted : (((joinSystem T).run {} before).table.joins j).counter ≠ 0 := by
      simpa [Join.claimed, any] using roll.claimed_of_answers rest.1 answers
    -- The first closure that has incremented the counter is that of the first handler
    obtain ⟨index, winner⟩ := Option.ne_none_iff_exists'.mp
      (mt List.head?_eq_none_iff.mp (mt (now.law.counter any).mpr counted))
    have head := (first.take now.counted).2 index winner
    have used : (((joinSystem T).run {} before).table.joins j).phase ≠ .unused := by
      simp [roll.begun_of_answers rest.1 answers]
    have call := roll.sameCall_run rest contractRest used
    rw [← ActionSystem.run_append] at call
    refine ⟨index, ?_, head, ?_⟩
    · have launched := now.bounded _ (List.mem_of_mem_head? head)
      exact Nat.lt_of_lt_of_le launched (roll.roll.bounded j (by simp [any]))
    · rw [last.law.index (call.kind.trans any), ActionSystem.trace_append]
      exact List.mem_head?_append_of_mem_head? winner
  · subst split
    have legalBefore := (ActionSystem.everyStep_append.mp legal).1
    have contractBefore := (ActionSystem.everyStep_append.mp contract).1
    have roll := (JoinRoll.everyState legalBefore contractBefore).last
    have now := AnyWaitInvariant.run legalBefore contractBefore j
    refine ⟨roll.callerRests, fun gone => ?_⟩
    obtain ⟨full, ended⟩ := roll.allEnded used (by simp [any]) gone.1
      (roll.holders_eq_nil_iff.mpr gone.2)
    obtain ⟨r, found, -⟩ := ended 0 (now.law.some any used)
    obtain ⟨⟨index, returns⟩, head⟩ := Option.ne_none_iff_exists'.mp
      (mt List.head?_eq_none_iff.mp (now.listed r _ found rfl rfl))
    obtain rfl : returns = true := by simpa [head] using (first.take now.counted).1
    have counted : (((joinSystem T).run {} before).table.joins j).counter ≠ 0 := by
      intro zero
      have nobody := (now.law.counter any).mp zero
      rcases now.returned any index (List.mem_of_mem_head? head) with counted | ⟨t, counting⟩
      · simp [nobody] at counted
      · exact roll.unbound_of_gone now.inside any gone t (.inl ⟨index, counting⟩)
    exact roll.answered_of_gone now.inside any used counted gone

/-- Task 0 calls `RunAsyncAnyWait` with two handlers; the second one returns
first, and increments the counter. -/
def secondReturns : List (JoinAction Nat) :=
  [.runner (.runAsync 0 1), .runner (.dispatch 0 ⟨.start, 0, 1⟩),
    .runner (.enter 0 0 .start), .join 0 0 0 .anyWait 2, .runner (.onExit 0 0), .launch 0 0 1,
    .launch 0 0 2, .endLoop 0 0, .runner (.dispatch 1 ⟨.start, 2, 1⟩),
    .runner (.enter 1 2 .start), .childReturns 1 2 none, .increment 1 0 1]

/-- The first handler throws after the call of the proceed handler. -/
def firstThrowsLate : List (JoinAction Nat) :=
  [.runner (.dispatch 2 ⟨.start, 1, 1⟩), .runner (.enter 2 1 .start), .runner (.raise 2 1),
    .childThrows 2 1]

theorem run_async_any_wait_firstThrowsLate :
    ∃ index < 2, (((joinSystem Nat).run {}
      (secondReturns ++ .callProceed 1 0 :: firstThrowsLate)).table.joins 0).index =
        some index := by
  have legal : (joinSystem Nat).Legal {} (secondReturns ++ .callProceed 1 0 :: firstThrowsLate) := by
    decide
  obtain ⟨index, small, -, same⟩ := (run_async_any_wait legal (by decide) (j := 0) (by decide)).1
    secondReturns (.callProceed 1 0) firstThrowsLate rfl (by decide) (by decide)
  exact ⟨index, small, same⟩

/-- The first handler returns, and the second one, which returns later, is the
first to increment the counter. -/
def overtakenReturn : List (JoinAction Nat) :=
  secondReturns.take 8 ++
    [.runner (.dispatch 1 ⟨.start, 1, 1⟩), .runner (.enter 1 1 .start),
      .runner (.dispatch 2 ⟨.start, 2, 1⟩), .runner (.enter 2 2 .start), .childReturns 1 1 none,
      .childReturns 2 2 none, .increment 2 0 1]

/-- The caller of `overtakenReturn` finds the number of the second handler. -/
example : (joinSystem Nat).Legal {} overtakenReturn ∧ ¬ FirstCounts 0 overtakenReturn ∧
    (((joinSystem Nat).run {} overtakenReturn).table.joins 0).index = some 1 := by
  decide

/-- Task 0 calls `RunAsyncAnyWait` with one handler, which throws. -/
def onlyThrows : List (JoinAction Nat) :=
  [.runner (.runAsync 0 1), .runner (.dispatch 0 ⟨.start, 0, 1⟩),
    .runner (.enter 0 0 .start), .join 0 0 0 .anyWait 1, .runner (.onExit 0 0), .launch 0 0 1,
    .endLoop 0 0, .runner (.returnHandler 0 0), .runner (.detach 0),
    .runner (.dispatch 1 ⟨.start, 1, 1⟩), .runner (.enter 1 1 .start), .runner (.raise 1 1),
    .childThrows 1 1, .runner (.finish 1 1), .runner (.onExit 1 1), .runner (.detach 1)]

/-- All children are gone, and nobody calls the proceed handler. -/
theorem any_wait_left_behind_onlyThrows :
    (joinSystem Nat).Legal {} onlyThrows ∧
      (joinSystem Nat).EveryStep UserContract {} onlyThrows ∧
        (((joinSystem Nat).run {} onlyThrows).table.joins 0).kind = .anyWait ∧
          ((joinSystem Nat).run {} onlyThrows).AllGone 0 ∧
            ¬ ((joinSystem Nat).run {} onlyThrows).Resumed 0 := by
  have legal : (joinSystem Nat).Legal {} onlyThrows := by decide
  have contract : (joinSystem Nat).EveryStep UserContract {} onlyThrows := by decide
  have inv := (JoinRoll.everyState legal contract).last
  refine ⟨legal, contract, by decide, ⟨by decide, inv.holders_eq_nil_iff.mp (by decide)⟩, ?_⟩
  have unclaimed := inv.inv.ledger.unclaimed 0 (by decide)
  rintro (answered | ⟨t, calls⟩)
  · exact unclaimed.1 answered
  · exact unclaimed.2 t calls.2.1

end FlatAsync

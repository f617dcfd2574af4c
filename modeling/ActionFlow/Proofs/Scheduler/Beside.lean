import ActionFlow.Proofs.Scheduler.Attended

/-!
# What goes past a task

Most of what the scheduler does goes past a task that waits for a helper, or that has ended: the task stays
as it is, it gets no timers, and the only word that can come to it meanwhile is that its helper has ended.
Here is what each change of the scheduler comes to for such a task, as long as it is neither the task's own
turn, nor a word for its wait, nor a cancellation of the task.

## Main results

* `Beside`: a change that goes past a task; `Beside.trans`: several ones.
* `beside_settle`, `beside_suspend`, `beside_finish`, …: the changes of another task.
* `beside_await`, `beside_takeTurn`: another task asks for a pause, or has its turn.
-/

namespace ActionFlow
namespace Scheduler

variable {κ : Type} {s s' : Scheduler κ} {t other : TaskId}

/-- Who has ended stays so. -/
def Ends (s s' : Scheduler κ) : Prop := ∀ ⦃other ending⦄,
  s.status? other = some (.finished ending) → s'.status? other = some (.finished ending)

/-- Whether a task has not ended. -/
def Going (s : Scheduler κ) (t : TaskId) : Prop := ∀ ending, s.status? t ≠ some (.finished ending)

theorem going_of_status {status : Status} (known : s.status? t = some status)
    (unfinished : ∀ ending, status ≠ .finished ending) : s.Going t := fun ending same =>
  unfinished ending (Option.some.inj (known.symm.trans same))

/-- A cancellation ends nobody. -/
theorem going_cancel (going : s.Going t) : (s.cancel other).Going t := by
  intro ending ended
  by_cases same : t = other
  · subst same
    exact going ending (finished_of_cancel ended)
  · rw [status?_cancel_of_ne same] at ended
    exact going ending ended

/-- A change of the scheduler that goes past a task. -/
structure Beside (s s' : Scheduler κ) (t : TaskId) : Prop where
  task : s'.task t = s.task t
  ended : Ends s s'
  /-- No word comes to the task but that its helper has ended. -/
  words : ∀ {id}, .signal t id ∈ s'.turns → .signal t id ∈ s.turns ∨
    ∃ wait helper ending, s.status? t = some (.waiting wait) ∧ wait.id = id ∧
      wait.aim.helper? = some helper ∧ s'.status? helper = some (.finished ending)
  timers : ∀ timer ∈ s'.timers, timer.task = t → timer ∈ s.timers

namespace Beside

theorem status (h : Beside s s' t) : s'.status? t = s.status? t := by
  simp only [status?, h.task]

theorem of_tasks (task : s'.task = s.task) (turns : s'.turns = s.turns)
    (timers : ∀ timer ∈ s'.timers, timer.task = t → timer ∈ s.timers) : Beside s s' t where
  task := by rw [task]
  ended other ending ended := by simpa only [status?, task] using ended
  words word := .inl (turns ▸ word)
  timers := timers

/-- What touches neither tasks nor turns nor timers. -/
theorem of_eq (task : s'.task = s.task) (turns : s'.turns = s.turns) (timers : s'.timers = s.timers) :
    Beside s s' t := of_tasks task turns fun _ member _ => timers ▸ member

theorem refl (s : Scheduler κ) (t : TaskId) : Beside s s t := of_eq rfl rfl rfl

theorem trans {s'' : Scheduler κ} (h : Beside s s' t) (h' : Beside s' s'' t) : Beside s s'' t where
  task := h'.task.trans h.task
  ended other ending ended := h'.ended (h.ended ended)
  words word := by
    rcases h'.words word with word | ⟨wait, helper, ending, waits, same, aims, ended⟩
    · rcases h.words word with word | ⟨wait, helper, ending, waits, same, aims, ended⟩
      · exact .inl word
      · exact .inr ⟨wait, helper, ending, waits, same, aims, h'.ended ended⟩
    · exact .inr ⟨wait, helper, ending, h.status.symm.trans waits, same, aims, ended⟩
  timers timer member own := h.timers timer (h'.timers timer member own) own

/-- Such a change may come first. -/
theorem of_same {s'' : Scheduler κ} (h : Beside s' s'' t) (task : s'.task = s.task)
    (turns : s'.turns = s.turns) (timers : s'.timers = s.timers) : Beside s s'' t :=
  (of_eq task turns timers).trans h

end Beside

/-! ## Changes of another task -/

theorem beside_push (s : Scheduler κ) {turn : Turn} (elsewhere : ∀ id, turn ≠ .signal t id) :
    Beside s (s.push turn) t where
  task := rfl
  ended _ _ ended := ended
  words {id} word := by
    rw [turns_push] at word
    refine .inl ((List.mem_append.mp word).resolve_right fun last => ?_)
    exact elsewhere id (List.mem_singleton.mp last).symm
  timers _ member _ := member

section Others

variable (different : t ≠ other)

include different

theorem beside_setTask (s : Scheduler κ) {task : Task κ}
    (ended : ∀ ending, s.status? other = some (.finished ending) → task.status = .finished ending) :
    Beside s (s.setTask other task) t where
  task := amend_of_ne different _ _
  ended third ending known := by
    rw [status?_setTask]
    split
    next same => rw [ended ending (same ▸ known)]
    next => exact known
  words word := .inl word
  timers _ member _ := member

theorem beside_settle (s : Scheduler κ) (signal : Signal) : Beside s (s.settle other signal) t := by
  by_cases waits : ∃ wait, s.status? other = some (.waiting wait) ∧ wait.signal = .pending
  · obtain ⟨wait, waiting, pending⟩ := waits
    obtain ⟨task, -, same⟩ := settle_eq waiting pending signal
    rw [same]
    refine (beside_setTask different s fun ending ended => ?_).trans (beside_push _ nofun)
    cases waiting.symm.trans ended
  · rw [settle_eq_self waits]
    exact .refl s t

theorem beside_suspend (going : s.Going other) (aim : Aim) : Beside s (s.suspend other aim) t := by
  cases ht : s.task other with
  | none =>
    rw [show s.suspend other aim = s by simp only [suspend, ht]]
    exact .refl s t
  | some task =>
    have waiting : Beside s ({ s with waits := s.waits + 1 }.setTask other
        { task with status := .waiting { id := s.waits, aim }, cancelAsked := false }) t :=
      (beside_setTask different { s with waits := s.waits + 1 } fun ending ended =>
        absurd ended (going ending)).of_same rfl rfl rfl
    rw [suspend_eq ht]
    split
    · exact waiting.trans (beside_settle different _ _)
    · exact waiting

theorem beside_yieldTurn (going : s.Going other) : Beside s (s.yieldTurn other) t := by
  unfold yieldTurn
  split
  · exact (beside_setTask different s fun ending ended => absurd ended (going ending)).trans
      (beside_push _ nofun)
  · exact .refl s t

theorem beside_setResume (s : Scheduler κ) (resume : Except Failure PauseId → κ) :
    Beside s (s.setResume other resume) t := by
  unfold setResume
  split
  next task ht =>
    refine beside_setTask different s fun ending ended => ?_
    exact Option.some.inj ((status_of_task ht).symm.trans ended)
  next => exact .refl s t

/-- The end of another task is told to its caller, if it is a helper. -/
theorem beside_finish (going : s.Going other) (ending : Except Failure Unit) :
    Beside s (s.finish other ending) t := by
  cases ht : s.task other with
  | none =>
    rw [show s.finish other ending = s by simp only [finish, ht]]
    exact .refl s t
  | some task =>
    have ended : Beside s (s.setTask other
        { task with status := .finished (endingOf task ending), cancelAsked := false }) t :=
      beside_setTask different s fun ending ended => absurd ended (going ending)
    cases helps : task.role.helper? with
    | none => rwa [finish_body ht helps]
    | some own =>
      obtain ⟨key, caller⟩ := own
      rcases finish_helper ht helps ending with same | ⟨wait, waiting, aims, same⟩
      · rwa [same]
      · rw [same]
        by_cases mine : caller = t
        · subst mine
          refine ⟨ended.task, ended.ended, fun word => ?_, ended.timers⟩
          rw [turns_push] at word
          refine (List.mem_append.mp word).imp id fun last => ?_
          cases List.mem_singleton.mp last
          refine ⟨wait, other, endingOf task ending, waiting, rfl, aims, ?_⟩
          rw [status?_push, status?_setTask, if_pos rfl]
        · refine ended.trans (beside_push _ fun id same => ?_)
          cases same
          exact mine rfl

end Others

/-- A cancellation goes past everybody else, and past who has ended. -/
theorem beside_cancel (spared : t ≠ other ∨ ∃ ending, s.status? t = some (.finished ending)) :
    Beside s (s.cancel other) t := by
  by_cases different : t ≠ other
  · rcases cancel_cases s other with ⟨same, -⟩ | ⟨_, -, -, same⟩ | ⟨task, ht, same⟩
    · rw [same]
      exact .refl s t
    · rw [same]
      exact beside_settle different s _
    · rw [same]
      refine beside_setTask different s fun ending ended => ?_
      exact Option.some.inj ((status_of_task ht).symm.trans ended)
  · obtain ⟨ending, ended⟩ := spared.resolve_left different
    obtain rfl : t = other := Decidable.not_not.mp different
    obtain ⟨task, ht, status⟩ := task_of_status ended
    rw [show s.cancel t = s by simp only [cancel, ht, status]]
    exact .refl s t

/-- A helper that is called off by another task is not the task in question, or it has ended. -/
theorem beside_abandon (different : t ≠ other) (going : s.Going other) (key : PauseId) {helper : TaskId}
    (spared : t ≠ helper ∨ ∃ ending, s.status? t = some (.finished ending)) (why : Failure) :
    Beside s (s.abandon other key helper why) t := by
  have leaving : Beside s ((s.cancel helper).suspend other (.leave key helper why)) t :=
    (beside_cancel spared).trans (beside_suspend different (going_cancel going) _)
  unfold abandon
  simp only
  split
  · refine leaving.trans (beside_push _ fun id same => ?_)
    cases same
    exact different rfl
  · exact leaving

theorem beside_spawn (known : t ≠ s.size) (unknown : s.status? s.size = none) (role : Role κ) :
    Beside s (s.spawn role).1 t := by
  have added : Beside { s with size := s.size + 1 }
      ({ s with size := s.size + 1 }.setTask s.size { role }) t :=
    beside_setTask known _ fun ending ended => by
      have ended : s.status? s.size = some (.finished ending) := ended
      cases unknown.symm.trans ended
  have queued (now : Scheduler κ) : Beside now (now.push (.resume s.size)) t := beside_push now nofun
  exact (added.trans (queued _)).of_same rfl rfl rfl

/-! ## Freeing the barrier, and opening gates -/

/-- Who is not in line is not woken by the barrier. -/
theorem beside_wakeFirst (outside : t ∉ s.line) : Beside s s.wakeFirst t := by
  unfold wakeFirst
  split
  next => exact .refl s t
  next first rest line => exact beside_settle (fun same => outside (by simp [line, same])) s _

/-- Nobody ends by being told that his wait is over. -/
theorem going_settle (going : s.Going other) (first : TaskId) (signal : Signal) :
    (s.settle first signal).Going other := by
  intro ending ended
  by_cases same : other = first
  · subst same
    by_cases waits : ∃ wait, s.status? other = some (.waiting wait) ∧ wait.signal = .pending
    · obtain ⟨wait, waiting, pending⟩ := waits
      cases (Wakeful.status_of_settle waiting pending signal).symm.trans ended
    · rw [settle_eq_self waits] at ended
      exact going ending ended
  · rw [status?_settle_of_ne same] at ended
    exact going ending ended

theorem going_wakeFirst (going : s.Going other) : s.wakeFirst.Going other := by
  unfold wakeFirst
  split
  · exact going
  · exact going_settle going _ _

theorem beside_unlock (outside : t ∉ s.line) {freed : Scheduler κ} (frees : s.unlock = .ok freed) :
    Beside s freed t := by
  unfold unlock at frees
  split at frees
  · cases frees
    exact (beside_wakeFirst (s := { s with holder := none }) outside).of_same rfl rfl rfl
  · cases frees

theorem beside_release (outside : t ∉ s.line) (key : PauseId) : Beside s (s.release key).1 t := by
  have spent : Beside s { s with keys := s.keys.erase key } t := .of_eq rfl rfl rfl
  unfold release
  split
  · simp only
    split
    next freed frees =>
      exact spent.trans (beside_unlock (s := { s with keys := s.keys.erase key }) outside frees)
    next => exact spent
  · exact .refl s t

/-- Who does not wait at a gate is not woken by it. -/
theorem beside_setGate
    (elsewhere : ∀ wait gate, s.status? t = some (.waiting wait) → wait.aim ≠ .gate gate)
    (gate : String) (opened : Bool) : Beside s (s.setGate gate opened) t := by
  have settled (waiting : List TaskId) (outside : t ∉ waiting) (now : Scheduler κ) :
      Beside now (waiting.foldl (fun now t => now.settle t .met) now) t := by
    induction waiting generalizing now with
    | nil => exact .refl now t
    | cons first rest ih =>
      rw [List.mem_cons, not_or] at outside
      exact (beside_settle outside.1 now .met).trans (ih outside.2 _)
  have changed : Beside s { s with opened := amend s.opened gate opened } t :=
    .of_eq rfl rfl rfl
  unfold setGate
  simp only
  split
  · refine changed.trans (settled _ (fun member => ?_) _)
    have here := (List.mem_filter.mp member).2
    split at here
    next name _ _ pending =>
      obtain ⟨waiting, -⟩ := pendingWait?_eq_some_iff.mp pending
      exact elsewhere _ _ waiting rfl
    next => cases here
  · exact changed

/-! ## Pauses and turns of another task -/

section Turns

variable (different : t ≠ other)

include different

/-- A timer of another task. -/
theorem beside_remind (s : Scheduler κ) {timer : Timer} (mine : timer.task = other) :
    Beside s { s with timers := timer.insert s.timers } t := by
  refine .of_tasks rfl rfl fun third member own => ?_
  refine (Sound.mem_insert_timer member).resolve_left fun same => ?_
  exact different (own.symm.trans ((congrArg Timer.task same).trans mine))

/-- Another task asks for a pause. -/
theorem beside_await (known : t ≠ s.size) (unknown : s.status? s.size = none)
    (running : s.status? other = some .running) (pause : Pause) : Beside s (s.await other pause).1 t := by
  have going : s.Going other := going_of_status running nofun
  cases pause with
  | gate name =>
    unfold await
    simp only
    split
    · exact .of_eq rfl rfl rfl
    · exact (beside_suspend (s := { s with atGates := s.atGates ++ [other] }) different going _).of_same
        rfl rfl rfl
  | sleep span =>
    unfold await
    simp only
    split
    · exact beside_yieldTurn different going
    · let timer : Timer := { due := s.clock.add span, task := other, wait := s.waits }
      exact (beside_remind different s rfl).trans
        (beside_suspend (s := { s with timers := timer.insert s.timers }) different going _)
  | barrier =>
    unfold await
    simp only
    split
    · split
      · exact .of_eq rfl rfl rfl
      · exact (beside_suspend (s := { s with line := s.line ++ [other] }) different going _).of_same
          rfl rfl rfl
    · have helped : Beside s (s.spawn (.helper s.waits other)).1 t := beside_spawn known unknown _
      split
      · exact helped.trans (.of_eq rfl rfl rfl)
      next span _ =>
        let now := (s.spawn (.helper s.waits other)).1
        let timer : Timer := { due := s.clock.add span, task := other, wait := s.waits }
        have older : other ≠ s.size := fun same => by
          rw [same, unknown] at running
          cases running
        have going : now.Going other := by
          have stays : now.status? other = some .running := by
            rw [status?_spawn, if_neg older]
            exact running
          exact going_of_status stays nofun
        have reminded : Beside now { now with timers := timer.insert now.timers } t :=
          beside_remind different now rfl
        exact (helped.trans reminded).trans
          (beside_suspend (s := { now with timers := timer.insert now.timers }) different going _)

end Turns

/-- How far another task has come in its turn, which goes past the task in question. -/
structure Passing (s now : Scheduler κ) (t other : TaskId) : Prop where
  beside : Beside s now t
  different : t ≠ other
  going : now.Going other
  outside : t ∉ now.line

namespace Passing

variable {now : Scheduler κ}

theorem finish (h : Passing s now t other) (ending : Except Failure Unit) :
    Beside s (now.finish other ending) t :=
  h.beside.trans (beside_finish h.different h.going ending)

theorem goOn (h : Passing s now t other) (role : Role κ) (answer : Except Failure PauseId) :
    Beside s (now.goOn other role answer).1 t := by
  cases role with
  | body => exact h.beside
  | helper => exact h.finish _

theorem goOnWith (h : Passing s now t other) (role : Role κ) (key : PauseId) :
    Beside s (now.goOnWith other role key).1 t := by
  cases role with
  | body => exact h.beside.trans (.of_eq rfl rfl rfl)
  | helper => exact h.finish (.ok ())

theorem abandon (h : Passing s now t other) (key : PauseId) {helper : TaskId}
    (spared : t ≠ helper ∨ ∃ ending, s.status? t = some (.finished ending)) (why : Failure) :
    Beside s (now.abandon other key helper why) t := by
  refine h.beside.trans (beside_abandon h.different h.going key ?_ why)
  rwa [h.beside.status]

theorem wakeFirst (h : Passing s now t other) : Passing s now.wakeFirst t other where
  beside := h.beside.trans (beside_wakeFirst h.outside)
  different := h.different
  going := going_wakeFirst h.going
  outside := by
    rw [show now.wakeFirst.line = now.line from congrArg Latch.line (latch_wakeFirst now)]
    exact h.outside

theorem unlock (h : Passing s now t other) {freed : Scheduler κ} (frees : now.unlock = .ok freed) :
    Passing s freed t other := by
  unfold Scheduler.unlock at frees
  split at frees
  · cases frees
    have free : Passing s { now with holder := none } t other :=
      ⟨h.beside.trans (.of_eq rfl rfl rfl), h.different, h.going, h.outside⟩
    exact free.wakeFirst
  · cases frees

/-- The first turn of another task. -/
theorem resumeQueued (h : Passing s now t other) (role : Role κ) (thrown : Bool) :
    Beside s (now.resumeQueued other role thrown).1 t := by
  unfold Scheduler.resumeQueued
  split
  · exact h.goOn role _
  · cases role with
    | body => exact h.beside.trans (.of_eq rfl rfl rfl)
    | helper key caller =>
      simp only
      split
      · have taken := beside_finish (s := now.take key) h.different h.going (.ok ())
        exact h.beside.trans (taken.of_same rfl rfl rfl)
      · have waits := beside_suspend (s := { now with line := now.line ++ [other] }) h.different h.going
          (.line key)
        exact h.beside.trans (waits.of_same rfl rfl rfl)

/-- The turn of another task after a wait. -/
theorem resumeWaiting (h : Passing s now t other) (role : Role κ) (wait : Wait) (thrown : Bool)
    (spared : ∀ helper, wait.aim.helper? = some helper →
      t ≠ helper ∨ ∃ ending, s.status? t = some (.finished ending)) :
    Beside s (now.resumeWaiting other role wait thrown).1 t := by
  have tidied (atGates : List TaskId) (holder : Option PauseId) {line : List TaskId}
      (fewer : ∀ t ∈ line, t ∈ now.line) : Passing s { now with
        timers := now.timers.filter fun timer => timer.wait ≠ wait.id, atGates, line, holder } t other :=
    ⟨h.beside.trans (.of_tasks rfl rfl fun timer member _ => (List.mem_filter.mp member).1), h.different,
      h.going, fun member => h.outside (fewer t member)⟩
  have all : ∀ t ∈ now.line, t ∈ now.line := fun _ => id
  have left : ∀ t ∈ now.line.erase other, t ∈ now.line := fun _ => List.mem_of_mem_erase
  unfold Scheduler.resumeWaiting
  simp only
  split
  next => exact (tidied _ _ all).goOn role _
  next => exact (tidied _ _ all).goOn role _
  next key aims =>
    split
    next =>
      refine Passing.goOn ?_ role _
      split
      next => exact (tidied _ _ left).wakeFirst
      next => exact tidied _ _ left
    next => exact (tidied _ _ left).goOnWith role key
  next key helper limit aims =>
    have spared := spared helper (by rw [aims]; rfl)
    split
    next => exact (tidied _ _ all).abandon key spared .cancelled
    next =>
      split
      next => exact (tidied _ _ all).goOnWith role key
      next => exact (tidied _ _ all).goOn role _
      next => exact (tidied _ _ all).abandon key spared _
  next key helper why aims =>
    split
    next => exact (tidied _ _ all).goOn role _
    next =>
      split
      next =>
        split
        next freed frees => exact ((tidied _ _ all).unlock frees).goOn role _
        next => exact (tidied _ _ all).goOn role _
      next => exact (tidied _ _ all).goOn role _

end Passing

/-! ## Turns -/

/-- A task that has ended, or waits for its helper: neither the barrier nor a gate wakes it. -/
inductive Afar (s : Scheduler κ) (t : TaskId) : Prop where
  | ended {ending : Except Failure Unit} (has : s.status? t = some (.finished ending))
  | helped {wait : Wait} {helper : TaskId} (waits : s.status? t = some (.waiting wait))
      (aims : wait.aim.helper? = some helper)

namespace Afar

variable {hand : Hand} {trace : List Deed}

theorem known (h : s.Afar t) (sound : s.Sound hand trace) : t ≠ s.size := by
  cases h with
  | ended has => exact Nat.ne_of_lt (sound.orderly.known has)
  | helped waits => exact Nat.ne_of_lt (sound.orderly.known waits)

/-- It is not in line. -/
theorem outside (h : s.Afar t) (sound : s.Sound hand trace) : t ∉ s.line := fun member => by
  obtain ⟨wait, key, waits, inLine⟩ := sound.orderly.inLine.mp member
  cases h with
  | ended has => cases waits.symm.trans has
  | helped waits' aims =>
    cases waits.symm.trans waits'
    rw [inLine] at aims
    cases aims

/-- It does not wait at a gate. -/
theorem elsewhere (h : s.Afar t) (wait : Wait) (gate : String)
    (waits : s.status? t = some (.waiting wait)) : wait.aim ≠ .gate gate := by
  intro atGate
  cases h with
  | ended has => cases waits.symm.trans has
  | helped waits' aims =>
    cases waits.symm.trans waits'
    rw [atGate] at aims
    cases aims

/-- It is not its turn. -/
theorem resting (h : s.Afar t) : s.status? t ≠ some .running := by
  intro running
  cases h with
  | ended has => cases running.symm.trans has
  | helped waits => cases running.symm.trans waits

/-- Who waits for his helper is nobody's helper himself. -/
theorem spared (h : s.Afar t) (sound : s.Sound hand trace) {wait : Wait} {helper : TaskId}
    (waits : s.status? other = some (.waiting wait)) (aims : wait.aim.helper? = some helper) :
    t ≠ helper ∨ ∃ ending, s.status? t = some (.finished ending) := by
  cases h with
  | ended has => exact .inr ⟨_, has⟩
  | helped waits' aims' =>
    refine .inl fun same => ?_
    obtain ⟨key, helps⟩ := sound.followed waits aims
    have inLine := sound.orderly.helperWaits helps (same ▸ waits')
    rw [inLine] at aims'
    cases aims'

end Afar

/-- A turn goes past whoever is not concerned: it is not his own, and no word for his wait. -/
theorem beside_takeTurn {trace : List Deed} (sound : s.Sound none trace) (afar : s.Afar t) {turn : Turn}
    (foreign : turn ≠ .resume t)
    (wordless : ∀ wait, s.status? t = some (.waiting wait) → turn ≠ .signal t wait.id) :
    Beside s (s.takeTurn turn).1 t := by
  cases turn with
  | signal other id =>
    unfold takeTurn
    simp only
    split
    next wait pending =>
      split
      next same =>
        refine beside_settle (fun mine => ?_) s .met
        subst mine same
        exact wordless wait (pendingWait?_eq_some_iff.mp pending).1 rfl
      next => exact .refl s t
    next => exact .refl s t
  | resume other =>
    have different : t ≠ other := fun same => foreign (same ▸ rfl)
    cases ht : s.task other with
    | none =>
      simp only [takeTurn, ht]
      exact .refl s t
    | some task =>
      have starts (unended : ∀ ending, task.status ≠ .finished ending) :
          Passing s (s.start other task) t other := {
        beside := beside_setTask different s fun ending ended =>
          absurd (Option.some.inj ((status_of_task ht).symm.trans ended)) (unended ending)
        different
        going := going_of_status (status_of_task (task_start s other task)) fun _ ended => by cases ended
        outside := afar.outside sound }
      cases status : task.status with
      | queued =>
        have turn := (starts (by simp [status])).resumeQueued task.role task.cancelAsked
        simpa only [takeTurn, ht, status] using turn
      | waiting wait =>
        have waits := (status_of_task ht).trans (congrArg some status)
        have turn := (starts (by simp [status])).resumeWaiting task.role wait
          (task.cancelAsked || decide (wait.signal = .cancelled)) fun helper => afar.spared sound waits
        simpa only [takeTurn, ht, status] using turn
      | running | finished =>
        simp only [takeTurn, ht, status]
        exact .refl s t

end Scheduler
end ActionFlow

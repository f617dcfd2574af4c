import ActionFlow.Proofs.World.Alike
import ActionFlow.Proofs.World.Hosts

/-!
# Runs without a marker do not depend on the barrier

A run without a marker is followed in two worlds at once, which may differ in everything that the run cannot
tell: who has the barrier, who is waiting for it and how long, which other tasks there are, and what these do.
Step by step the run does the same in both worlds, and has nothing to do with the barrier of either.

## Main results

* `Abreast`: two executions of a run go on side by side.
* `apart_step`: a step of a task that keeps aloof leaves the barrier as it is.
* `Alike.step`: such a step is the same in worlds that look alike, and these look alike afterwards.
* `unmarked_runs_ignore_the_barrier`: whatever becomes of a run without a marker in one world becomes of it
  in the other one as well.
-/

namespace ActionFlow

variable {α : Type} {program left left' : Program α}

/-- A host under which callbacks, rules, views and loaders keep aloof from the barrier. -/
def Host.Aloof (host : Host) : Prop := ∀ call, Program.Aloof (host call).run

/-- What may be left of a program behind a step: it still waits, it goes on with an answer to its next effect,
or what it calls goes on. -/
inductive Program.Leads : Program α → Program α → Prop where
  | stays {left : Program α} : Leads left left
  | answered {effect : Effect} {more : effect.Reply → Program α} (reply : effect.Reply) :
      Leads (.act effect more) (more reply)
  | called {call : Call} {more : Except Failure call.Result → Program α} {host : Host}
      (quiet : host.Aloof) : Leads (.act (.call call) more) ((host call).run.bind more)

/-- What keeps aloof goes on keeping aloof. -/
theorem Program.Aloof.leads (h : left.Aloof) (leads : left.Leads left') : left'.Aloof := by
  cases leads with
  | stays => exact h
  | answered reply => exact h.2 reply
  | called quiet => exact (quiet _).bind h.2

/-- What keeps aloof and is not over yet starts by that. -/
theorem Program.Aloof.starts (h : left.Aloof) (unended : ∀ ending, left ≠ .done ending) :
    left.StartsAloof := by
  cases left with
  | done ending => exact absurd rfl (unended ending)
  | act => exact h.1

namespace World

variable {one other world after after' : World} {t t' : TaskId} {job : Job} {host : Host}
  {trace trace' deeds : List Deed} {hosts : Host → Prop} {jobs : Job → Prop}

/-! ## Single steps -/

/-- A step of a task that has nothing to do with the barrier: all that is done is to perform an effect, if
any, that keeps aloof from the barrier, and the barrier is left as it was. -/
structure Apart (world : World) (t : TaskId) (after : World) : Prop where
  deeds : world.deeds = world.doing.map (.did t)
  aloof : ∀ effect ∈ world.doing, effect.Aloof
  latch : after.scheduler.latch = world.scheduler.latch

/-- A task whose turn it is. -/
theorem apart_of_current (current : world.current = some (t, job)) (aloof : job.StartsAloof)
    (steps : world.step host = some after) : world.Apart t after := by
  cases job with
  | done => cases aloof
  | act effect next =>
    have doing : world.doing = [effect] := by simp only [World.doing, current]
    simp only [World.step, current, Option.some.injEq] at steps
    refine ⟨?_, ?_, ?_⟩
    · rw [doing, deeds_of_current current aloof.1, List.map_singleton]
    · rw [doing]
      exact List.forall_mem_singleton.mpr aloof.1
    · rw [← steps]
      exact latch_perform aloof.1

/-- A task whose turn comes next. -/
theorem apart_of_turn {resume : Except Failure PauseId → Job} {dealt : Scheduler Job}
    (idle : world.current = none) (next : world.scheduler.nextTurn? = some (.resume t, dealt))
    (rests : world.scheduler.rest? t = some (resume, false)) (steps : world.step host = some after) :
    world.Apart t after := by
  have rests' := (Scheduler.unmoved_nextTurn next t).trans rests
  obtain ⟨task, ht, -⟩ := Option.bind_eq_some_iff.mp rests'
  obtain ⟨scheduler, id, taken, -, -, latch⟩ := Scheduler.takeTurn_of_rest rests' ht
  simp only [World.step, idle, next, Option.map_some, Option.some.injEq] at steps
  rw [takeTurn_of_handover { world with scheduler := dealt, current := none } taken] at steps
  subst steps
  have doing : world.doing = [] := by simp only [World.doing, idle]
  refine ⟨?_, ?_, latch.trans (Scheduler.latch_nextTurn next)⟩
  · rw [doing, deeds_of_turn idle next rests, List.map_nil]
  · rw [doing]
    exact List.forall_mem_nil _

/-- Who keeps aloof does not rest with a request for the barrier. -/
theorem Faces.rests_apart (faces : world.Faces t job) (idle : ∀ own, world.current ≠ some (t, own))
    (aloof : job.StartsAloof) :
    ∃ resume, world.scheduler.rest? t = some (resume, false) ∧
      ∀ key key', resume (.ok key) = resume (.ok key') := by
  cases faces with
  | turn current => exact absurd current (idle _)
  | @pause pause resume rests =>
    obtain ⟨apart, tells⟩ := aloof
    have elsewhere : decide (pause = .barrier) = false := by
      refine decide_eq_false ?_
      rintro rfl
      cases apart
    exact ⟨resume, elsewhere ▸ rests, fun key key' => tells (.ok key) (.ok key') trivial⟩

/-- **A step of a task** that keeps aloof from the barrier. -/
theorem apart_step (sound : world.Sound trace) (faces : world.Faces t job) (aloof : job.StartsAloof)
    (acts : world.Acts t) (steps : world.step host = some after) : world.Apart t after := by
  rcases acts with ⟨own, current⟩ | ⟨idle, dealt, next⟩
  · cases faces.job_eq sound current
    exact apart_of_current current aloof steps
  · obtain ⟨resume, rests, -⟩ := faces.rests_apart (by simp [idle]) aloof
    exact apart_of_turn idle next rests steps

/-- **The same step of two tasks** that keep aloof from the barrier, in worlds that look alike to them. -/
theorem Alike.step (h : one.Alike t other t') (sound : one.Sound trace) (faces : one.Faces t job)
    (aloof : job.StartsAloof) (acts : one.Acts t) (acts' : other.Acts t') (steps : one.step host = some after)
    (steps' : other.step host = some after') : other.doing = one.doing ∧ after.Alike t after' t' := by
  rcases acts with ⟨own, current⟩ | ⟨idle, dealt, next⟩
  · cases faces.job_eq sound current
    have current' := (h.turn job).mpr current
    cases job with
    | done => cases aloof
    | act effect next =>
      simp only [World.step, current, current', Option.some.injEq] at steps steps'
      rw [← steps, ← steps']
      exact ⟨by simp only [doing, current, current'], h.perform (sound.running current) aloof⟩
  · -- The other task cannot be in the middle of its turn, for then so would be this one.
    rcases acts' with ⟨own, current⟩ | ⟨idle', dealt', next'⟩
    · cases idle.symm.trans ((h.turn own).mp current)
    refine ⟨by simp only [doing, idle, idle'], ?_⟩
    obtain ⟨resume, rests, tells⟩ := faces.rests_apart (by simp [idle]) aloof
    simp only [World.step, idle, idle', next, next', Option.map_some, Option.some.injEq] at steps steps'
    rw [← steps, ← steps']
    have dealt : { one with scheduler := dealt, current := none }.Alike t
        { other with scheduler := dealt', current := none } t' :=
      h.rest (h.scheduler.change (Scheduler.alike_nextTurn next t) (Scheduler.alike_nextTurn next' t'))
    exact dealt.takeTurn ((Scheduler.unmoved_nextTurn next t).trans rests) tells

/-- What a step leaves of a program that is not over yet. -/
theorem Faces.leads {next : α → Job} (faces : world.Faces t (program.bind next))
    (unended : ∀ result, program ≠ .done result) (sound : world.Sound trace) (quiet : host.Aloof)
    (steps : world.step host = some after) : ∃ left, program.Leads left ∧ after.Faces t (left.bind next) := by
  cases program with
  | done result => exact absurd rfl (unended result)
  | act effect more =>
    have moves : Move Host.Aloof (fun _ => True) world world.deeds after := .step quiet steps
    have proceeds : Proceeds Host.Aloof world t world.deeds after effect fun reply => (more reply).bind next :=
      Faces.move faces sound moves
    cases proceeds with
    | waits faces => exact ⟨_, .stays, faces⟩
    | answered reply _ goesOn => exact ⟨_, .answered reply, .turn goesOn⟩
    | @called call _ host quiet goesOn =>
      have inside := Program.bind_assoc (host call).run more next
      exact ⟨_, .called quiet, .turn (goesOn.trans (congrArg (fun job => some (t, job)) inside.symm))⟩
    | gave _ _ goesOn => exact ⟨_, .answered _, .turn goesOn⟩

/-! ## What others do meanwhile -/

/-- What others do while a task does nothing: moves none of which is a step of the task. -/
inductive Meanwhile (hosts : Host → Prop) (jobs : Job → Prop) (t : TaskId) : World → World → Prop where
  | nothing {world : World} : Meanwhile hosts jobs t world world
  | move {world now after : World} {deeds : List Deed} (before : Meanwhile hosts jobs t world now)
      (moves : Move hosts jobs now deeds after)
      (others : ∀ host, now.Acts t → now.step host ≠ some after) : Meanwhile hosts jobs t world after

/-- A move of others leaves a task with what it has to do. -/
theorem Faces.meanwhile (faces : world.Faces t job) (sound : world.Sound trace)
    (moves : Move hosts jobs world deeds after)
    (others : ∀ host, world.Acts t → world.step host ≠ some after) : after.Faces t job := by
  cases moves with
  | @step host _ _ _ steps =>
    cases current : world.current with
    | some hand =>
      obtain ⟨other, own⟩ := hand
      refine faces.aside sound current ?_ steps
      rintro rfl
      exact others host (.inl ⟨own, current⟩) steps
    | none =>
      cases faces with
      | turn own => cases current.symm.trans own
      | pause rests =>
        have steps' := steps
        simp only [World.step, current] at steps'
        obtain ⟨⟨turn, dealt⟩, next, rfl⟩ := Option.map_eq_some_iff.mp steps'
        have rests' := (Scheduler.unmoved_nextTurn next t).trans rests
        refine .pause ?_
        rw [scheduler_takeTurn]
        -- Only its own turn takes a task out of its rest, and that would be a step of the task.
        rcases Scheduler.rest?_takeTurn rests' turn with stays | ⟨handover, went, -⟩
        · exact stays
        · obtain ⟨rfl, -⟩ := Scheduler.rest?_of_takeTurn went
          exact absurd steps (others host (.inr ⟨current, dealt, next⟩))
  | spawn name allowed => exact faces.spawn sound name _
  | explore | setClock | reorder => exact faces.unmoved rfl fun _ => rfl
  | setGate gate opened => exact faces.unmoved rfl (Scheduler.unmoved_setGate _ gate opened)
  | cancel other => exact faces.unmoved rfl (Scheduler.unmoved_cancel _ other)

theorem Meanwhile.reached (meanwhile : Meanwhile hosts jobs t world after)
    (reached : Reached hosts jobs world trace) : ∃ trace, Reached hosts jobs after trace := by
  induction meanwhile with
  | nothing => exact ⟨trace, reached⟩
  | move _ moves _ ih =>
    obtain ⟨before, reached⟩ := ih
    exact ⟨_, reached.move moves⟩

theorem Meanwhile.faces (meanwhile : Meanwhile hosts jobs t world after)
    (reached : Reached hosts jobs world trace) (faces : world.Faces t job) : after.Faces t job := by
  induction meanwhile with
  | nothing => exact faces
  | move before moves others ih =>
    obtain ⟨_, reached'⟩ := before.reached reached
    exact ih.meanwhile reached'.sound moves others

/-! ## Two executions side by side -/

section SideBySide

variable (hosts : Host → Prop) (jobs : Job → Prop) (t t' : TaskId) (next : Except Failure Unit → Job)

/-- A run in two executions side by side, as long as it is not over. What is left of the run is the same in
both. The two tasks that run it have their steps at the same time and under the same hosts, which keep aloof
from the barrier. Between these steps others do in either world whatever they do there, as long as the two
worlds look alike to the two tasks afterwards. The lists tell what was done in the steps of the two tasks. -/
inductive Abreast (run : Program (Except Failure Unit)) (one other : World) :
    Program (Except Failure Unit) → List Deed → World → List Deed → World → Prop where
  | begin : Abreast run one other run [] one [] other
  | others {left : Program (Except Failure Unit)} {done done' : List Deed} {now now' after after' : World}
      (before : Abreast run one other left done now done' now') (unended : ∀ ending, left ≠ .done ending)
      (meanwhile : Meanwhile hosts jobs t now after) (meanwhile' : Meanwhile hosts jobs t' now' after')
      (alike : after.Alike t after' t') : Abreast run one other left done after done' after'
  | own {left left' : Program (Except Failure Unit)} {done done' : List Deed}
      {now now' after after' : World} {host : Host}
      (before : Abreast run one other left done now done' now') (unended : ∀ ending, left ≠ .done ending)
      (allowed : hosts host) (quiet : host.Aloof) (acts : now.Acts t) (acts' : now'.Acts t')
      (steps : now.step host = some after) (steps' : now'.step host = some after')
      (leads : left.Leads left') (goesOn : after.Faces t (left'.bind next)) :
      Abreast run one other left' (done ++ now.deeds) after (done' ++ now'.deeds) after'

/-- How two executions of a run compare. -/
structure Unison (left : Program (Except Failure Unit)) (done : List Deed) (now : World)
    (done' : List Deed) (now' : World) : Prop where
  /-- The two tasks have performed the same effects, and none that has anything to do with the barrier. -/
  same : ∃ effects : List Effect, done = effects.map (.did t) ∧ done' = effects.map (.did t') ∧
    ∀ effect ∈ effects, effect.Aloof
  /-- The two worlds look alike to them. -/
  alike : now.Alike t now' t'
  /-- The same is left to do, with the same outcome if the run is over. -/
  faces : now.Faces t (left.bind next)
  faces' : now'.Faces t' (left.bind next)
  /-- Both have a turn coming, or neither has. -/
  coming : .resume t' ∈ now'.scheduler.turns ↔ .resume t ∈ now.scheduler.turns
  /-- While the run is not over, it is not waiting for the barrier in either world. -/
  unasked : (∀ ending, left ≠ .done ending) → ∀ {resume asked},
    (now.scheduler.rest? t = some (resume, asked) → asked = false) ∧
      (now'.scheduler.rest? t' = some (resume, asked) → asked = false)
  /-- A further step of the run leaves the barrier of either world as it is. -/
  latch : (∀ ending, left ≠ .done ending) → ∀ {host after},
    (now.Acts t → now.step host = some after → after.scheduler.latch = now.scheduler.latch) ∧
      (now'.Acts t' → now'.step host = some after → after.scheduler.latch = now'.scheduler.latch)

/-- What is so all along while a run goes on in two executions side by side. -/
structure InStep (left : Program (Except Failure Unit)) (done : List Deed) (now : World) (done' : List Deed)
    (now' : World) : Prop where
  reached : ∃ trace, Reached hosts jobs now trace
  reached' : ∃ trace, Reached hosts jobs now' trace
  same : ∃ effects : List Effect, done = effects.map (.did t) ∧ done' = effects.map (.did t') ∧
    ∀ effect ∈ effects, effect.Aloof
  alike : now.Alike t now' t'
  faces : now.Faces t (left.bind next)
  aloof : left.Aloof

end SideBySide

section InStep

variable {next : Except Failure Unit → Job} {run left left' : Program (Except Failure Unit)}
  {done done' : List Deed} {now now' after after' : World}

theorem InStep.own (h : InStep hosts jobs t t' next left done now done' now')
    (unended : ∀ ending, left ≠ .done ending) (allowed : hosts host) (acts : now.Acts t)
    (acts' : now'.Acts t') (steps : now.step host = some after) (steps' : now'.step host = some after')
    (leads : left.Leads left') (goesOn : after.Faces t (left'.bind next)) :
    InStep hosts jobs t t' next left' (done ++ now.deeds) after (done' ++ now'.deeds) after' := by
  obtain ⟨trace, reached⟩ := h.reached
  obtain ⟨trace', reached'⟩ := h.reached'
  obtain ⟨effects, rfl, rfl, idle⟩ := h.same
  have aloof := (h.aloof.starts unended).bind next
  have apart := apart_step reached.sound h.faces aloof acts steps
  have apart' := apart_step reached'.sound (h.alike.faces h.faces) aloof acts' steps'
  obtain ⟨doing, alike⟩ := h.alike.step reached.sound h.faces aloof acts acts' steps steps'
  refine ⟨⟨_, reached.move (.step allowed steps)⟩, ⟨_, reached'.move (.step allowed steps')⟩,
    ⟨effects ++ now.doing, ?_, ?_, ?_⟩, alike, goesOn, h.aloof.leads leads⟩
  · rw [apart.deeds, List.map_append]
  · rw [apart'.deeds, doing, List.map_append]
  · intro effect mem
    rcases List.mem_append.mp mem with before | last
    · exact idle effect before
    · exact apart.aloof effect last

theorem InStep.others (h : InStep hosts jobs t t' next left done now done' now')
    (meanwhile : Meanwhile hosts jobs t now after) (meanwhile' : Meanwhile hosts jobs t' now' after')
    (alike : after.Alike t after' t') : InStep hosts jobs t t' next left done after done' after' := by
  obtain ⟨trace, reached⟩ := h.reached
  obtain ⟨trace', reached'⟩ := h.reached'
  exact ⟨meanwhile.reached reached, meanwhile'.reached reached', h.same, alike,
    meanwhile.faces reached h.faces, h.aloof⟩

theorem Abreast.inStep (abreast : Abreast hosts jobs t t' next run one other left done now done' now')
    (begins : InStep hosts jobs t t' next run [] one [] other) :
    InStep hosts jobs t t' next left done now done' now' := by
  induction abreast with
  | begin => exact begins
  | others _ _ meanwhile meanwhile' alike ih => exact ih.others meanwhile meanwhile' alike
  | own _ unended allowed _ acts acts' steps steps' leads goesOn ih =>
    exact ih.own unended allowed acts acts' steps steps' leads goesOn

/-- A task has a turn coming exactly if it is ready for one. -/
theorem Reached.coming_iff (reached : Reached hosts jobs world trace) (t : TaskId) :
    .resume t ∈ world.scheduler.turns ↔ world.scheduler.Ready t :=
  ⟨reached.sound.orderly.ready, reached.alert.wakeful.ready⟩

/-- Who keeps aloof has not asked for the barrier. -/
theorem Faces.unasked (faces : world.Faces t job) (aloof : job.StartsAloof) (sound : world.Sound trace)
    {resume : Except Failure PauseId → Job} {asked : Bool}
    (rests : world.scheduler.rest? t = some (resume, asked)) : asked = false := by
  have idle : ∀ own, world.current ≠ some (t, own) := by
    intro own current
    cases (Scheduler.rest?_of_running (sound.running current)).symm.trans rests
  obtain ⟨_, apart, -⟩ := faces.rests_apart idle aloof
  cases apart.symm.trans rests
  rfl

theorem InStep.unison (h : InStep hosts jobs t t' next left done now done' now') :
    Unison t t' next left done now done' now' := by
  obtain ⟨trace, reached⟩ := h.reached
  obtain ⟨trace', reached'⟩ := h.reached'
  have faces' := h.alike.faces h.faces
  have aloof (unended : ∀ ending, left ≠ .done ending) := (h.aloof.starts unended).bind next
  refine ⟨h.same, h.alike, h.faces, faces', ?_, fun unended => ⟨?_, ?_⟩, fun unended => ⟨?_, ?_⟩⟩
  · rw [reached.coming_iff, reached'.coming_iff]
    exact ⟨h.alike.scheduler.symm.ready, h.alike.scheduler.ready⟩
  · exact h.faces.unasked (aloof unended) reached.sound
  · exact faces'.unasked (aloof unended) reached'.sound
  · exact fun acts steps => (apart_step reached.sound h.faces (aloof unended) acts steps).latch
  · exact fun acts steps => (apart_step reached'.sound faces' (aloof unended) acts steps).latch

/-- **Runs without a marker do not depend on the barrier.** Two worlds are reached in any way, and look alike to
a task of each; the barrier may be free in one of them and held in the other, by anybody, with any tasks in
line and any limit of time. Both tasks begin to run the same expression, which has no `wait` in element
position of its outermost level, and whatever they do afterwards. From there on the run goes on in both worlds
side by side, under hosts that keep aloof from the barrier, while others do in either world whatever they do
there. Then, at any time up to its end, the run has performed the same effects in both, invocations and events
among them, and none that asks for the barrier, gives it back or looks for a key to it. Selections and all else
that the run can tell are the same, and so is what is left of it to do, down to its outcome. It is never
waiting for the barrier, and no step of it makes a difference to the barrier of either world. -/
theorem unmarked_runs_ignore_the_barrier (reached : Reached hosts jobs one trace)
    (reached' : Reached hosts jobs other trace') {source : String} {mode : Mode} {expression : Expr}
    {items : Supply} (unmarked : expression.markless)
    (begins : one.current = some (t, (Expr.run source mode expression items).run.bind next))
    (alike : one.Alike t other t')
    (abreast : Abreast hosts jobs t t' next (Expr.run source mode expression items).run one other left done now
      done' now') : Unison t t' next left done now done' now' := by
  have begun : InStep hosts jobs t t' next (Expr.run source mode expression items).run [] one [] other :=
    { reached := ⟨trace, reached⟩
      reached' := ⟨trace', reached'⟩
      same := ⟨[], rfl, rfl, List.forall_mem_nil _⟩
      alike := alike
      faces := .turn begins
      aloof := Expr.aloof_run source mode items unmarked }
  exact (abreast.inStep begun).unison

end InStep

/-! ## A run beside one that holds the barrier -/

/-- Whether a task is about to perform an effect. -/
def busy (world : World) (t : TaskId) : Bool :=
  match world.current with
  | some (own, .act ..) => own = t
  | _ => false

/-- A step as long as a task is busy. -/
theorem steps_of_busy (host : Host) (trace : List Deed) (busy : world.busy t) :
    ∃ effect more after, world.current = some (t, .act effect more) ∧ world.step host = some after ∧
      ∀ n, World.steps host (n + 1) (world, trace) = World.steps host n (after, trace ++ world.deeds) := by
  unfold World.busy at busy
  split at busy
  next own effect more current =>
    cases of_decide_eq_true busy
    have stepped : world.step host = some (world.perform host t effect more) := by
      simp only [World.step, current]
    exact ⟨effect, more, _, current, stepped, fun n => by simp only [World.steps, stepped]⟩
  next => cases busy

/-- As long as both tasks are busy, they go on side by side. -/
theorem Abreast.steps {run left : Job} {done done' : List Deed} {now now' : World}
    (before : Abreast hosts jobs t t' .done run one other left done now done' now')
    (reached : Reached hosts jobs now trace) (faces : now.Faces t (left.bind .done)) (allowed : hosts host)
    (quiet : host.Aloof) (n : Nat)
    (turns : ∀ k < n, (World.steps host k (now, done)).1.busy t ∧
      (World.steps host k (now', done')).1.busy t') :
    ∃ left', Abreast hosts jobs t t' .done run one other left' (World.steps host n (now, done)).2
      (World.steps host n (now, done)).1 (World.steps host n (now', done')).2
      (World.steps host n (now', done')).1 := by
  induction n generalizing left done done' now now' trace with
  | zero => exact ⟨left, before⟩
  | succ n ih =>
    obtain ⟨busy, busy'⟩ : now.busy t ∧ now'.busy t' := turns 0 n.succ_pos
    obtain ⟨effect, more, after, current, stepped, onwards⟩ := steps_of_busy host done busy
    obtain ⟨_, _, after', current', stepped', onwards'⟩ := steps_of_busy host done' busy'
    obtain rfl := (faces.job_eq reached.sound current).trans (Program.bind_done left)
    have unended : ∀ ending, Program.act effect more ≠ .done ending := nofun
    obtain ⟨left', leads, goesOn⟩ := faces.leads unended reached.sound quiet stepped
    have both := before.own unended allowed quiet (.inl ⟨_, current⟩) (.inl ⟨_, current'⟩) stepped stepped'
      leads goesOn
    rw [onwards, onwards']
    refine ih both (reached.move (.step allowed stepped)) goesOn fun k less => ?_
    rw [← onwards, ← onwards']
    exact turns (k + 1) (Nat.succ_lt_succ less)

/-- An explorer that only notes what is called. -/
def noting : Host
  | .callback action context => Run.record (.called action.name context)
  | .test source rule _ item => Run.op (.test source rule item)
  | .requestRender .. | .render _ | .load .. => pure ()

theorem aloof_noting : noting.Aloof := by
  intro call
  cases call with
  | callback | test => exact ⟨⟨trivial, by rintro _ _ rfl; rfl⟩, fun _ => trivial⟩
  | requestRender | render | load => trivial

/-- An explorer with an action to call. -/
def furnished : Explorer where
  sources _ := { root := .node "a", registry := { actions := [{ name := "open" }] } }

/-- A `wait` inside another element, and one as a branch. -/
def nesting : List Expr :=
  [.seq [.leaf { name := "wait" }, .leaf { name := "open" }], .leaf { name := "root?" },
    .leaf { name := "wait" }, .leaf { name := "open" }]

/-- What a run of that does: inside, the `wait` is passed over, and as a branch, it is invoked. -/
def nested : Run Unit := do
  invoke "files" "open" (.many [.node "a", .node "b"]) [] .normal
  let parts ← Rule.root.route "files" [] (.many [.node "a", .node "b"])
  onPart parts.1 fun items => invoke "files" "wait" items [] .normal
  onPart parts.2 fun items => invoke "files" "open" items [] .normal

theorem run_nesting : Expr.run "files" .normal (.seq nesting) (.many [.node "a", .node "b"]) = nested := by
  have single (l : Leaf) : Expr.runInner "files" .normal (.leaf l) =
      fun items => invoke "files" l.name items l.args .normal := funext (Expr.runInner_leaf _ _ · l)
  have question : Rule.ofName? "root?" = some .root := rfl
  rw [Expr.run_seq _ _ _ rfl, nesting, Expr.runElements_cons_seq, Expr.runInner_seq,
    Expr.runElements_cons_wait _ _ _ rfl, Expr.runElements_cons_action _ _ _ _ (by decide) rfl,
    Expr.runElements_cons_rule _ _ _ _ question]
  simp only [single, Expr.runElements_nil, bind_pure_unit]
  rfl

/-- What a task does that takes the barrier and keeps it. -/
def holding : Job := .act (.await .barrier) fun _ => .act (.await (.gate "never")) fun _ => .done (.ok ())

/-- The barrier is free and has a limit when the run begins. -/
def beginFree : World × List Deed :=
  let world : World := { explorer := furnished, scheduler := { limit := some (.int 10) } }
  steps noting 1 ((world.spawn "run" nested.run).1, [])

/-- A task has the barrier, and there is no limit. -/
def taken : World × List Deed :=
  let world : World := { explorer := furnished }
  steps noting 3 ((world.spawn "holder" holding).1, [])

/-- Another task has the barrier when the run begins. -/
def beginHeld : World × List Deed := steps noting 1 ((taken.1.spawn "run" nested.run).1, taken.2)

theorem alike_beginFree : beginFree.1.Alike 0 beginHeld.1 1 where
  explorer := ⟨rfl, rfl, rfl, rfl, rfl⟩
  scheduler := ⟨rfl, rfl⟩
  named name := by
    show amend (amend (fun _ => none) "holder" (some 0)) "run" (some 1) name = some 1 ↔
      amend (fun _ => none) "run" (some 0) name = some 0
    simp [amend]
  turn job := by
    have free : beginFree.1.current = some (0, nested.run) := rfl
    have held : beginHeld.1.current = some (1, nested.run) := rfl
    simp [free, held]

/-- From beginning to end, the run does the same in both. -/
theorem nested_waits_ignore_the_barrier :
    let free := steps noting 15 (beginFree.1, [])
    let held := steps noting 15 (beginHeld.1, [])
    (∃ left, Unison 0 1 .done left free.2 free.1 held.2 held.1) ∧
      free.1.current = some (0, .done (.ok ())) ∧ held.1.current = some (1, .done (.ok ())) ∧
      free.1.scheduler.holder = none ∧ held.1.scheduler.holder = some 1 := by
  intro free held
  have reached : Reached Host.Aloof (fun _ => True) beginFree.1 beginFree.2 :=
    ((Reached.begin furnished (fun _ => rfl) (some (.int 10)) .zero fun _ => false).outside
      (.spawn "run" trivial)).steps aloof_noting 1
  have reachedTaken : Reached Host.Aloof (fun _ => True) taken.1 taken.2 :=
    ((Reached.begin furnished (fun _ => rfl) none .zero fun _ => false).outside
      (.spawn "holder" trivial)).steps aloof_noting 3
  have reached' : Reached Host.Aloof (fun _ => True) beginHeld.1 beginHeld.2 :=
    (reachedTaken.outside (.spawn "run" trivial)).steps aloof_noting 1
  have begins : beginFree.1.current =
      some (0, (Expr.run "files" .normal (.seq nesting) (.many [.node "a", .node "b"])).run.bind .done) := by
    rw [Program.bind_done, run_nesting]
    rfl
  have unmarked : (Expr.seq nesting).markless := by decide
  have busy : ∀ k < 15, (steps noting k (beginFree.1, [])).1.busy 0 ∧
      (steps noting k (beginHeld.1, [])).1.busy 1 := by decide +kernel
  obtain ⟨left, abreast⟩ :=
    Abreast.begin.steps reached (.turn begins) aloof_noting aloof_noting 15 busy
  exact ⟨⟨left, unmarked_runs_ignore_the_barrier reached reached' unmarked begins alike_beginFree abreast⟩,
    rfl, rfl, rfl, rfl⟩

end World
end ActionFlow

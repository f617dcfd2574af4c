import ActionFlow.Proofs.World.Facing
import ActionFlow.Proofs.World.OneShot
import ActionFlow.Proofs.World.Secured

/-!
# Runs give back what they took

A run that gets the barrier keeps it until all that is left of the run is to give it back, after the last
post-effect of whatever failed or was cancelled meanwhile. Then it gives the barrier back, once, which
frees it and does not change how the run ends. A run that does not get the barrier gives nothing back.

A run is followed move by move, from stage to stage: a stage is the key that the run has got, if it has
got one, and what is left of the run beside giving the key back. Whatever is done by others, and by
callbacks in the course of the run, leaves the run at its stage.

## Main results

* `Stage.Goes`: how a run goes from stage to stage, and what it does with the barrier there.
* `Stands.move`: every move takes a run to such a next stage.
* `gives_back_once`: so does every course of moves, from the beginning of a run until its end.
-/

namespace ActionFlow

theorem Effect.Idle.spares {effect : Effect} (idle : effect.Idle) (key : PauseId) :
    (Pact.spares key).allows effect := by
  refine ⟨?_, ?_⟩
  · rintro rfl
    exact idle
  · rintro hold rfl
    exact idle

/-! ## Stages -/

/-- How far a run has come: the key that it has got, if it has, and what is left of it before that is
given back. -/
structure Stage where
  key : Option PauseId := none
  left : Program (Except Failure Unit)

namespace Stage

/-- Giving the key back, if there is one, and then whatever comes after the run. -/
def tail (key : Option PauseId) (next : Except Failure Unit → Job) (ending : Except Failure Unit) : Job :=
  (Walk.giveBack (ending, key)).bind next

/-- All that is to be done from a stage on, with whatever comes after the run. -/
def job (stage : Stage) (next : Except Failure Unit → Job) : Job := stage.left.bind (tail stage.key next)

/-- What is left of a run that has got the barrier. -/
theorem job_granted {more : Except Failure PauseId → Program (Except Failure Unit)}
    {body : Program (Except Failure Unit)} {key : PauseId}
    (granted : more (.ok key) = body.bind fun ending => Walk.giveBack (ending, some key))
    (next : Except Failure Unit → Job) :
    (more (.ok key)).bind (tail none next) = job ⟨some key, body⟩ next := by
  rw [granted, Program.bind_assoc]
  rfl

/-- The stages that runs come to: the barrier may be asked for as long as there is no key. -/
def Due : Stage → Prop
  | ⟨none, left⟩ => left.Bracketed
  | ⟨some _, left⟩ => left.Idle

/-- What is done next has nothing to do with the barrier, unless it asks for it. -/
theorem Due.effect {key : Option PauseId} {effect : Effect}
    {more : effect.Reply → Program (Except Failure Unit)} (due : Due ⟨key, .act effect more⟩) :
    effect.Idle ∨ key = none ∧ effect = .await .barrier := by
  cases key with
  | some key => exact .inl due.1
  | none =>
    cases (show Program.Bracketed _ from due) with
    | act idle => exact .inl idle
    | take => exact .inr ⟨rfl, rfl⟩

theorem Due.more {key : Option PauseId} {effect : Effect}
    {more : effect.Reply → Program (Except Failure Unit)} (due : Due ⟨key, .act effect more⟩)
    (idle : effect.Idle) (reply : effect.Reply) : Due ⟨key, more reply⟩ := by
  cases key with
  | some key => exact due.2 reply
  | none =>
    cases (show Program.Bracketed _ from due) with
    | act _ rest => exact rest reply
    | take => cases idle

/-- Whether what is done next is done by something that the run has called. -/
def Calls (stage : Stage) : Prop := ∃ call more, stage.left = .act (.call call) more

/-- What is done while a run stays at a stage, or goes on without giving its key back. -/
structure Keeps (t : TaskId) (stage : Stage) (deeds : List Deed) : Prop where
  /-- Nobody gives the run's key back. -/
  held : ∀ key, stage.key = some key → ∀ other, .did other (.release key) ∉ deeds
  /-- The run has nothing to do with the barrier, but for asking for it if it has no key. -/
  own : ∀ effect, .did t effect ∈ deeds →
    effect.Idle ∨ stage.key = none ∧ effect = .await .barrier ∨ stage.Calls

/-- How a run goes from one stage to the next in a move. -/
inductive Goes (t : TaskId) : Stage → List Deed → World → Stage → Prop where
  /-- Others move, or the run waits, or something that the run has called goes on. -/
  | stays {stage : Stage} {deeds : List Deed} {after : World} (keeps : stage.Keeps t deeds) :
      Goes t stage deeds after stage
  /-- The run goes on, with nothing to do with the barrier. -/
  | acts {key : Option PauseId} {effect : Effect} {more : effect.Reply → Program (Except Failure Unit)}
      {deeds : List Deed} {after : World} (idle : effect.Idle) (reply : effect.Reply)
      (keeps : Stage.Keeps t ⟨key, .act effect more⟩ deeds) :
      Goes t ⟨key, .act effect more⟩ deeds after ⟨key, more reply⟩
  /-- The run does not get the barrier, and fails. -/
  | fails {more : Except Failure PauseId → Program (Except Failure Unit)} {failure : Failure}
      {deeds : List Deed} {after : World} (denied : more (.error failure) = .done (.error failure))
      (keeps : Stage.Keeps t ⟨none, .act (.await .barrier) more⟩ deeds) :
      Goes t ⟨none, .act (.await .barrier) more⟩ deeds after ⟨none, .done (.error failure)⟩
  /-- The run gets the barrier. What is left is done before the key is given back. -/
  | takes {more : Except Failure PauseId → Program (Except Failure Unit)} {key : PauseId}
      {body : Program (Except Failure Unit)} {deeds : List Deed} {after : World}
      (took : .took t key ∈ deeds)
      (granted : more (.ok key) = body.bind fun ending => Walk.giveBack (ending, some key))
      (keeps : Stage.Keeps t ⟨none, .act (.await .barrier) more⟩ deeds) :
      Goes t ⟨none, .act (.await .barrier) more⟩ deeds after ⟨some key, body⟩
  /-- The run gives the barrier back. That frees the barrier, and the run ends as it was going to. -/
  | gives {key : PauseId} {ending : Except Failure Unit} {after : World}
      (freed : after.scheduler.holder = none) :
      Goes t ⟨some key, .done ending⟩ [.did t (.release key)] after ⟨none, .done ending⟩

/-- What carries a run on: what is left of it itself, or of something that it has called, which leaves
the run's key alone. -/
inductive Carries (next : Except Failure Unit → Job) : Stage → Job → Prop where
  | itself (stage : Stage) : Carries next stage (stage.job next)
  | calling {key : Option PauseId} {call : Call}
      {more : Except Failure call.Result → Program (Except Failure Unit)} {effect : Effect}
      {rest : effect.Reply → Program (Except Failure call.Result)}
      (spares : ∀ own, key = some own → (Program.act effect rest).Honours (.spares own)) :
      Carries next ⟨key, .act (.call call) more⟩
        ((Program.act effect rest).bind fun answer => (more answer).bind (tail key next))

/-- What a task does next while the run is not over. -/
theorem Carries.own {next : Except Failure Unit → Job} {stage : Stage} {effect : Effect}
    {more : effect.Reply → Job} (carries : Carries next stage (.act effect more)) (due : stage.Due)
    (unended : ∀ ending, stage.left ≠ .done ending) :
    (effect.Idle ∨ stage.key = none ∧ effect = .await .barrier ∨ stage.Calls) ∧
      ∀ key, stage.key = some key → (Pact.spares key).allows effect := by
  generalize same : Program.act effect more = job at carries
  cases carries with
  | itself =>
    obtain ⟨key, left⟩ := stage
    cases left with
    | done ending => exact absurd rfl (unended ending)
    | act own others =>
      cases same
      rcases due.effect with idle | ⟨rfl, asks⟩
      · exact ⟨.inl idle, fun key _ => idle.spares key⟩
      · exact ⟨.inr (.inl ⟨rfl, asks⟩), nofun⟩
  | calling spares =>
    cases same
    exact ⟨.inr (.inr ⟨_, _, rfl⟩), fun key own => (spares key own).1⟩

/-- What is so whenever a run is at a stage. -/
structure Obtains (t : TaskId) (next : Except Failure Unit → Job) (stage : Stage) (world : World) :
    Prop where
  /-- The task has still to do what carries the run on from this stage. -/
  carried : ∃ job, world.Faces t job ∧ Carries next stage job
  /-- The barrier is held with the run's key. -/
  held : ∀ key, stage.key = some key → world.scheduler.holder = some key
  /-- When nothing else is left, the very next effect is that the key is given back. -/
  returning : ∀ key ending, stage = ⟨some key, .done ending⟩ →
    ∃ more, world.current = some (t, .act (.release key) more)

/-- A course of moves, as a run of a task goes through it from a stage on: either up to some stage, or up
to the end of the run, from where on the task goes on with what comes after the run. -/
inductive Accounts (t : TaskId) (next : Except Failure Unit → Job) :
    Stage → World → List (List Deed × World) → Prop where
  | soFar {stage : Stage} {world : World} (obtains : Obtains t next stage world) :
      Accounts t next stage world []
  | ended {ending : Except Failure Unit} {world : World} {path : List (List Deed × World)}
      (goesOn : world.current = some (t, next ending)) : Accounts t next ⟨none, .done ending⟩ world path
  | move {stage stage' : Stage} {world after : World} {deeds : List Deed}
      {path : List (List Deed × World)} (obtains : Obtains t next stage world)
      (goes : Goes t stage deeds after stage') (rest : Accounts t next stage' after path) :
      Accounts t next stage world ((deeds, after) :: path)

end Stage

namespace World

variable {world after : World} {trace deeds : List Deed} {t : TaskId} {key : PauseId}

/-! ## A run at a stage -/

open Stage (Accounts Carries Goes)

/-- A run of a task is at a stage. -/
structure Stands (world : World) (trace : List Deed) (t : TaskId) (next : Except Failure Unit → Job)
    (stage : Stage) : Prop where
  due : stage.Due
  faces : ∃ job, world.Faces t job ∧ Carries next stage job
  secured : ∀ key, stage.key = some key → world.Secured trace t key
  ended : ∀ ending, stage = ⟨none, .done ending⟩ → world.current = some (t, next ending)

variable {next : Except Failure Unit → Job} {stage : Stage}

/-- It is the run's turn, and it goes on by itself. -/
theorem Stands.turn (due : stage.Due) (current : world.current = some (t, stage.job next))
    (secured : ∀ key, stage.key = some key → world.Secured trace t key) :
    world.Stands trace t next stage where
  due := due
  faces := ⟨_, .turn current, .itself stage⟩
  secured := secured
  ended ending same := by
    subst same
    exact current

/-- What is so at a stage. -/
theorem Stands.obtains (stands : world.Stands trace t next stage) (sound : world.Sound trace) :
    stage.Obtains t next world where
  carried := stands.faces
  held key own := (stands.secured key own).holder sound
  returning key ending same := by
    subst same
    obtain ⟨job, faces, carries⟩ := stands.faces
    cases carries with
    | itself =>
      cases faces with
      | turn current => exact ⟨_, current⟩

/-- While the run is not over, a move leaves its key where it is. -/
theorem Stands.meanwhile (stands : world.Stands trace t next stage) (sound : world.Sound trace)
    (moves : Move Host.Faithful Program.Faithful world deeds after)
    (unended : ∀ ending, stage.left ≠ .done ending) :
    stage.Keeps t deeds ∧ ∀ key, stage.key = some key → after.Secured (trace ++ deeds) t key := by
  obtain ⟨due, ⟨job, faces, carries⟩, secured, -⟩ := stands
  have own : ∀ effect, .did t effect ∈ deeds →
      (effect.Idle ∨ stage.key = none ∧ effect = .await .barrier ∨ stage.Calls) ∧
        ∀ key, stage.key = some key → (Pact.spares key).allows effect := by
    intro effect did
    obtain ⟨more, rfl⟩ := faces.own sound moves did
    exact carries.own due unended
  have safe : ∀ key, stage.key = some key → after.Secured (trace ++ deeds) t key := fun key held =>
    (secured key held).move sound moves fun effect did => (own effect did).2 key held
  refine ⟨⟨fun key held other did => ?_, fun effect did => (own effect did).1⟩, safe⟩
  exact (safe key held).kept other (List.mem_append_right _ did)

/-- What the run has called goes on, or has come to its end, and the run goes on with the answer. -/
theorem Stands.call_goesOn {call : Call} {more : Except Failure call.Result → Program (Except Failure Unit)}
    {held : Option PauseId} {program : Program (Except Failure call.Result)}
    (current : after.current =
      some (t, program.bind fun answer => (more answer).bind (Stage.tail held next)))
    (spares : ∀ own, held = some own → program.Honours (.spares own))
    (due : Stage.Due ⟨held, .act (.call call) more⟩)
    (keeps : Stage.Keeps t ⟨held, .act (.call call) more⟩ deeds)
    (secured : ∀ key, held = some key → after.Secured trace t key) :
    ∃ stage', Goes t ⟨held, .act (.call call) more⟩ deeds after stage' ∧
      after.Stands trace t next stage' := by
  have idle : (Effect.call call).Idle := trivial
  cases program with
  | done answer =>
    exact ⟨⟨held, more answer⟩, .acts idle answer keeps, .turn (due.more idle answer) current secured⟩
  | act effect rest =>
    exact ⟨_, .stays keeps, due, ⟨_, .turn current, .calling spares⟩, secured, nofun⟩

/-- What the run has called does its next effect. -/
theorem Stands.calling {call : Call} {more : Except Failure call.Result → Program (Except Failure Unit)}
    {held : Option PauseId} {effect : Effect} {rest : effect.Reply → Program (Except Failure call.Result)}
    (sound : world.Sound trace) (moves : Move Host.Faithful Program.Faithful world deeds after)
    (due : Stage.Due ⟨held, .act (.call call) more⟩)
    (secured : ∀ key, held = some key → world.Secured trace t key)
    (faces : world.Faces t
      ((Program.act effect rest).bind fun answer => (more answer).bind (Stage.tail held next)))
    (spares : ∀ own, held = some own → (Program.act effect rest).Honours (.spares own))
    (keeps : Stage.Keeps t ⟨held, .act (.call call) more⟩ deeds)
    (safe : ∀ key, held = some key → after.Secured (trace ++ deeds) t key) :
    ∃ stage', Goes t ⟨held, .act (.call call) more⟩ deeds after stage' ∧
      after.Stands (trace ++ deeds) t next stage' := by
  cases Faces.move faces sound moves with
  | waits faces => exact ⟨_, .stays keeps, due, ⟨_, faces, .calling spares⟩, safe, nofun⟩
  | answered reply _ goesOn told =>
    refine call_goesOn goesOn (fun own same => (spares own same).2 reply ?_) due keeps safe
    -- A key that is told now is another one: it was granted just now, or had been put aside.
    intro key taught
    rcases told key taught with took | ⟨hold, -, put⟩
    · rintro rfl
      exact (moves.untold_of_took sound took).1.1 t (secured key same).took
    · exact (secured own same).spared.aside put
  | @called inner _ host faithful goesOn =>
    have inside := Program.bind_assoc (host inner).run rest fun answer =>
      (more answer).bind (Stage.tail held next)
    refine call_goesOn (goesOn.trans (congrArg (fun job => some (t, job)) inside.symm))
      (fun own same => ?_) due keeps safe
    have honours : (host inner).run.Honours (.spares own) := faithful own inner
    exact honours.bind fun reply => (spares own same).2 reply nofun
  | gave _ _ goesOn =>
    exact call_goesOn goesOn (fun own same => (spares own same).2 _ nofun) due keeps safe

/-- The run does its next effect itself. -/
theorem Stands.acting (reached : Reached Host.Faithful Program.Faithful world trace)
    (moves : Move Host.Faithful Program.Faithful world deeds after)
    {held : Option PauseId} {effect : Effect} {more : effect.Reply → Program (Except Failure Unit)}
    (due : Stage.Due ⟨held, .act effect more⟩)
    (faces : world.Faces t (Stage.job ⟨held, .act effect more⟩ next))
    (keeps : Stage.Keeps t ⟨held, .act effect more⟩ deeds)
    (safe : ∀ key, held = some key → after.Secured (trace ++ deeds) t key) :
    ∃ stage', Goes t ⟨held, .act effect more⟩ deeds after stage' ∧
      after.Stands (trace ++ deeds) t next stage' := by
  have proceeds : Proceeds Host.Faithful world t deeds after effect
      fun reply => (more reply).bind (Stage.tail held next) := Faces.move faces reached.sound moves
  rcases due.effect with idle | ⟨rfl, rfl⟩
  · cases proceeds with
    | waits faces => exact ⟨_, .stays keeps, due, ⟨_, faces, .itself _⟩, safe, nofun⟩
    | answered reply _ goesOn =>
      exact ⟨⟨held, more reply⟩, .acts idle reply keeps, .turn (due.more idle reply) goesOn safe⟩
    | called faithful goesOn =>
      exact call_goesOn goesOn (fun own _ => faithful own _) due keeps safe
    | gave => cases idle
  · cases (show Program.Bracketed _ from due) with
    | act idle => cases idle
    | @take _ body idle granted denied =>
      cases proceeds with
      | waits faces => exact ⟨_, .stays keeps, due, ⟨_, faces, .itself _⟩, safe, nofun⟩
      | answered reply _ goesOn told =>
        cases reply with
        | ok key =>
          have took : .took t key ∈ deeds := by
            rcases told key rfl with took | ⟨_, asks, _⟩
            · exact took
            · cases asks
          have current : after.current = some (t, Stage.job ⟨some key, body⟩ next) :=
            goesOn.trans (congrArg (fun job => some (t, job)) (Stage.job_granted (granted key) next))
          refine ⟨⟨some key, body⟩, .takes took (granted key) keeps, .turn idle current fun own same => ?_⟩
          cases same
          exact Secured.start reached moves took
        | error failure =>
          have ended : (more (.error failure)).bind (Stage.tail none next) = next (.error failure) := by
            rw [denied]
            rfl
          have current : after.current = some (t, next (.error failure)) :=
            goesOn.trans (congrArg (fun job => some (t, job)) ended)
          exact ⟨⟨none, .done (.error failure)⟩, .fails (denied failure) keeps,
            .turn (.done (.error failure)) current nofun⟩

/-- The run gives its key back. -/
theorem Stands.giving (sound : world.Sound trace)
    (moves : Move Host.Faithful Program.Faithful world deeds after) {ending : Except Failure Unit}
    (faces : world.Faces t (Stage.job ⟨some key, .done ending⟩ next))
    (secured : world.Secured trace t key) :
    ∃ stage', Goes t ⟨some key, .done ending⟩ deeds after stage' ∧
      after.Stands (trace ++ deeds) t next stage' := by
  cases Faces.move faces sound moves with
  | waits still asked =>
    have silent : ∀ effect, .did t effect ∉ deeds := by
      intro effect did
      obtain ⟨pause, rfl⟩ := asked effect did
      obtain ⟨more, same⟩ := faces.own sound moves did
      cases same
    have safe := secured.move sound moves fun effect did => absurd did (silent effect)
    have keeps : Stage.Keeps t ⟨some key, .done ending⟩ deeds := by
      refine ⟨fun own same other did => ?_, fun effect did => absurd did (silent effect)⟩
      cases same
      exact safe.kept other (List.mem_append_right _ did)
    refine ⟨_, .stays keeps, trivial, ⟨_, still, .itself _⟩, fun own same => ?_, nofun⟩
    cases same
    exact safe
  | answered _ other => exact absurd rfl (other key)
  | gave only released goesOn =>
    subst only
    rcases release_cases sound.keyed (some t) key with ⟨-, -, -, same⟩ | ⟨shut, -⟩
    · have freed : after.scheduler.holder = none := by
        rw [released, ← scheduler_release world (some t), same]
        exact congrArg Latch.holder (Scheduler.latch_wakeFirst _)
      refine ⟨⟨none, .done ending⟩, .gives freed, .turn (.done ending) ?_ nofun⟩
      rw [goesOn, same]
      rfl
    · exact absurd (secured.opens sound) shut

/-- **From stage to stage.** Every move takes a run that is not over to a next stage, or leaves it where
it is. -/
theorem Stands.move (stands : world.Stands trace t next stage)
    (reached : Reached Host.Faithful Program.Faithful world trace)
    (moves : Move Host.Faithful Program.Faithful world deeds after)
    (unended : ∀ ending, stage ≠ ⟨none, .done ending⟩) :
    ∃ stage', Goes t stage deeds after stage' ∧ after.Stands (trace ++ deeds) t next stage' := by
  obtain ⟨held, left⟩ := stage
  cases left with
  | done ending =>
    cases held with
    | none => exact absurd rfl (unended ending)
    | some key =>
      obtain ⟨-, ⟨job, faces, carries⟩, secured, -⟩ := stands
      cases carries with
      | itself => exact giving reached.sound moves faces (secured key rfl)
  | act effect more =>
    obtain ⟨keeps, safe⟩ := stands.meanwhile reached.sound moves nofun
    obtain ⟨due, ⟨job, faces, carries⟩, secured, -⟩ := stands
    cases carries with
    | itself => exact acting reached moves due faces keeps safe
    | calling spares =>
      exact calling reached.sound moves due secured faces spares keeps safe

/-- **A run and its account.** A run that is at a stage goes through every course of moves from there from
stage to stage. -/
theorem Stands.accounts (stands : world.Stands trace t next stage)
    (reached : Reached Host.Faithful Program.Faithful world trace) {path : List (List Deed × World)}
    (takes : Path Host.Faithful Program.Faithful world path) :
    Accounts t next stage world path := by
  induction takes generalizing trace stage with
  | nil => exact .soFar (stands.obtains reached.sound)
  | cons moves rest ih =>
    by_cases finished : ∃ ending, stage = ⟨none, .done ending⟩
    · obtain ⟨ending, rfl⟩ := finished
      exact .ended (stands.ended ending rfl)
    · obtain ⟨stage', goes, stands'⟩ := stands.move reached moves
        fun ending same => finished ⟨ending, same⟩
      exact .move (stands.obtains reached.sound) goes (ih stands' (reached.move moves))

/-- **Runs give back what they took.** Tasks run expressions and do whatever else, under hosts that may do
anything, as long as nobody gives back or puts aside a key that he was not told; tasks are cancelled, time
passes, gates are opened and turns are taken in any order. A run begins, of a task that goes on with
`next` afterwards. Then, whatever is done from there on, the run goes through it from stage to stage. If
it gets the barrier, then the barrier is held with its key, and nobody gives that key back, until nothing
else is left of the run; then the run gives it back once, which frees the barrier, and the task goes on
with what the run ended with. If the run does not get the barrier, or does not ask for it, it gives
nothing back. What stands inside the expression has nothing to do with the barrier. -/
theorem gives_back_once (reached : Reached Host.Faithful Program.Faithful world trace) {source : String}
    {mode : Mode} {expression : Expr} {items : Supply}
    (begins : world.current = some (t, (Expr.run source mode expression items).run.bind next))
    {path : List (List Deed × World)} (takes : Path Host.Faithful Program.Faithful world path) :
    Accounts t next ⟨none, (Expr.run source mode expression items).run⟩ world path ∧
      ∀ inside given, (Expr.runInner source mode inside given).Idle := by
  have begun : world.Stands trace t next ⟨none, (Expr.run source mode expression items).run⟩ :=
    .turn (Expr.bracketed_run source mode expression items) begins nofun
  exact ⟨begun.accounts reached takes, (Expr.idle_inside source mode).1⟩

/-- An action whose callback is held up, and whose source is rendered afterwards. -/
def holdup : Action :=
  { name := "work", options := { render := true }, callback := { script := [.awaitGate "disk"] } }

/-- A marker with that action behind it. -/
def guarded : Expr := .seq [.leaf { name := "wait" }, .leaf { name := "work" }]

/-- What a run of the two comes to. -/
def guardedRun : Run Unit := do
  let key ← Run.await .barrier
  Run.ensuring (do invoke "files" "work" (.many []) [] .normal; pure ()) (Run.release key)

theorem run_guarded : Expr.run "files" .normal guarded (.many []) = guardedRun := by
  rw [guarded, Expr.run_seq _ _ _ rfl, Expr.runElements_cons_outermost_wait _ _ _ rfl,
    Expr.runElements_cons_action _ _ _ _ (by decide) (by decide), Expr.runInner_leaf, Expr.runElements_nil]
  rfl

/-- The run is about to begin. -/
def begun : World × List Deed :=
  let workshop : World := { explorer := { sources := fun _ => { registry := { actions := [holdup] } } } }
  steps silence 1 ((workshop.spawn "first" guardedRun.run).1, [])

/-- It goes on until the callback waits. -/
def heldUp : List (List Deed × World) := course silence 7 begun.1

/-- Then the task is cancelled. -/
def calledOff : World :=
  let waiting := final begun.1 heldUp
  { waiting with scheduler := waiting.scheduler.cancel 0 }

/-- The run takes the barrier, has it while the callback waits, is cancelled and the source is rendered, and then
gives it back. -/
theorem marker_gives_back :
    let path := heldUp ++ ([], calledOff) :: course silence 12 calledOff
    Reached Host.Faithful Program.Faithful begun.1 begun.2 ∧
      (heldUp.all fun move => move.2.scheduler.holder = some 1) = true ∧
      (final begun.1 path).scheduler.holder = none ∧
      (final begun.1 path).scheduler.ending? 0 = some (.error .cancelled) ∧
      Accounts 0 .done ⟨none, (Expr.run "files" .normal guarded (.many [])).run⟩ begun.1 path := by
  intro path
  have faithful : silence.Faithful := faithful_scriptedHost _
  have job : Program.Faithful guardedRun.run := run_guarded ▸ Expr.faithful_run _ _ _ _
  have none : Reached Host.Faithful Program.Faithful _ [] :=
    .begin { sources := fun _ => { registry := { actions := [holdup] } } } (fun _ => rfl)
      none .zero fun _ => false
  have reached : Reached Host.Faithful Program.Faithful begun.1 begun.2 :=
    (none.outside (.spawn "first" job)).steps faithful 1
  have begins : begun.1.current = some (0, (Expr.run "files" .normal guarded (.many [])).run.bind .done) := by
    rw [Program.bind_done, run_guarded]
    rfl
  have takes : Path Host.Faithful Program.Faithful begun.1 path :=
    (path_course faithful 7 _).append (.cons (.cancel 0) (path_course faithful 12 _))
  exact ⟨reached, by decide +kernel, rfl, rfl, (gives_back_once reached begins takes).1⟩

end World
end ActionFlow

import ActionFlow.Explorer

/-!
# Programs

A program is what a task still has to do: it is finished with a result, or it has an effect to
perform and goes on with the answer. Programs are plain data, so what two of them do can be compared
without saying when their turns come or how the world around them answers.

A `Run` is a program that may end early with a failure; `ensuring` is the one way to do something
however such a program ends.

## Main results

* `Program` is a lawful monad: sequencing is associative, and finished programs are its units.
* `run_ensuring`: what `ensuring` does, in terms of programs.
-/

namespace ActionFlow

/-! ## Effects -/

/-- What a task waits for. -/
inductive Pause where
  /-- A gate to be open. -/
  | gate (name : String)
  /-- A span of time to pass. -/
  | sleep (span : Binary64)
  /-- The barrier to be free, and to be the first in its line. -/
  | barrier
  deriving DecidableEq, Repr, Inhabited

/-- What actions call in the explorer around them. -/
inductive Call where
  /-- The callback of an action. -/
  | callback (action : Action) (context : Context)
  /-- A rule's question about an item. -/
  | test (source : String) (rule : Rule) (args : List String) (item : Item)
  /-- A source's view is told to render items when it next can. -/
  | requestRender (source : String) (items : List Item)
  /-- A source's view renders itself. -/
  | render (source : String)
  /-- A source is loaded again from an item on. -/
  | load (source : String) (item : Item)

/-- What a call answers. -/
def Call.Result : Call → Type
  | test .. => Bool
  | callback .. | requestRender .. | render .. | load .. => Unit

/-- One thing that a program does before it goes on. -/
inductive Effect where
  /-- Looks at the explorer's state or changes it. -/
  | op (op : Op)
  /-- Calls something in the explorer and waits until that is settled. -/
  | call (call : Call)
  /-- Waits; the answer is the number of the pause, or a cancellation. -/
  | await (pause : Pause)
  /-- Gives a key to the barrier back. A key that was given back before opens nothing. -/
  | release (key : PauseId)
  /-- Opens or closes a gate. -/
  | setGate (gate : String) (opened : Bool)
  /-- Cancels the task of a name. -/
  | cancel (task : String)

/-- The answer to an effect. -/
def Effect.Reply : Effect → Type
  | op o => o.Reply
  | call c => Except Failure c.Result
  | await _ => Except Failure PauseId
  | release _ => Except Failure Unit
  | setGate .. | cancel _ => Unit

/-! ## Programs -/

/-- A program with results in `α`. -/
inductive Program (α : Type) : Type where
  | done (result : α)
  | act (effect : Effect) (next : effect.Reply → Program α)

namespace Program

/-- Goes on with what `f` makes of the result. -/
def bind {α β : Type} : Program α → (α → Program β) → Program β
  | done result, f => f result
  | act effect next, f => act effect fun reply => (next reply).bind f

/-- Performs one effect; the result is its answer. -/
def perform (effect : Effect) : Program effect.Reply := act effect done

instance : Monad Program where
  pure := done
  bind := bind

theorem bind_done {α : Type} (program : Program α) : program.bind done = program := by
  induction program with
  | done => rfl
  | act effect next ih => simp only [bind, ih]

theorem bind_assoc {α β γ : Type} (program : Program α) (f : α → Program β) (g : β → Program γ) :
    (program.bind f).bind g = program.bind fun result => (f result).bind g := by
  induction program with
  | done => rfl
  | act effect next ih => simp only [bind, ih]

instance : LawfulMonad Program :=
  LawfulMonad.mk' Program bind_done (fun _ _ => rfl) bind_assoc

end Program

/-! ## Programs that may fail -/

/-- A program that ends with a result or with a failure. -/
abbrev Run (α : Type) : Type := ExceptT Failure Program α

namespace Run

/-- Performs an operation on the explorer's state. -/
def op (operation : Op) : Run operation.Reply := ExceptT.lift (Program.perform (.op operation))

/-- Registers an action, and fails if that is refused. -/
def register (table : Option String) (registration : Registration) : Run Unit :=
  ExceptT.mk (Program.perform (.op (.register table registration)))

/-- Makes an item expandable or not, and fails if it cannot be changed. -/
def setExpandable (item : Item) (truth : Bool) : Run Unit :=
  ExceptT.mk (Program.perform (.op (.setExpandable item truth)))

/-- Calls something in the explorer, and fails as it does. -/
def call (called : Call) : Run called.Result := ExceptT.mk (Program.perform (.call called))

/-- Asks a rule's question about an item. -/
def test (source : String) (rule : Rule) (args : List String) (item : Item) : Run Bool :=
  call (.test source rule args item)

/-- Waits, and fails if the task is cancelled meanwhile. -/
def await (pause : Pause) : Run PauseId := ExceptT.mk (Program.perform (.await pause))

/-- Gives a key to the barrier back. -/
def release (key : PauseId) : Run Unit := ExceptT.mk (Program.perform (.release key))

/-- Notes something in the journal. -/
def note (notice : Notice) : Run Unit := op (.record (.noted notice))

/-- Writes an event into the journal. -/
def record (event : Event) : Run Unit := op (.record event)

/-- Fails if there is a failure. -/
def failIf : Option Failure → Run Unit
  | some failure => throw failure
  | none => pure ()

/-- Does `cleanup` however `body` ends. A failure of the cleanup takes the place of whatever `body`
ended with; otherwise the end of `body` stands. -/
def ensuring {α : Type} (body : Run α) (cleanup : Run Unit) : Run α :=
  ExceptT.mk do
    let ending ← body.run
    match ← cleanup.run with
    | .ok _ => pure ending
    | .error failure => pure (.error failure)

theorem run_ensuring {α : Type} (body : Run α) (cleanup : Run Unit) :
    (ensuring body cleanup).run = body.run.bind fun ending =>
      cleanup.run.bind fun
        | .ok _ => .done ending
        | .error failure => .done (.error failure) := by
  refine congrArg (Program.bind body.run) (funext fun ending => ?_)
  refine congrArg (Program.bind cleanup.run) (funext fun outcome => ?_)
  cases outcome <;> rfl

/-- Does `body` inside a callback, unless too many callbacks are inside each other. -/
def inside (body : Run Unit) : Run Unit := do
  ExceptT.mk (Program.perform (.op .enter))
  ensuring body (op .leave)

end Run
end ActionFlow

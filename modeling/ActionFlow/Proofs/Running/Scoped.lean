import ActionFlow.Proofs.Running.Pacts

/-!
# What runs do with the barrier

A key to the barrier is a number, and a program could give back any number. What a program is meant to
do is give back keys that it was given. This module says what that means, and that runs of expressions
do much less: they take the barrier at most once, and once they have it there is one thing that they
do with the key, which is to give it back as the last thing they do.

## Main results

* `Program.Honest`: nothing is given back but what is known, and no key is put aside.
* `Program.Scoped`: the barrier is taken at most once, and given back at the very end.
* `Program.Bracketed`: what is done with the barrier is a bracket around what has nothing to do with it.
* `bracketed_run`: runs of expressions are bracketed, whatever happens while they run.
* `scoped_run`: so they are scoped.
-/

namespace ActionFlow

/-! ## Effects -/

namespace Effect

/-- Whether an effect has nothing to do with the barrier. -/
def Idle : Effect → Prop
  | await .barrier | release _ | op (.keep ..) => False
  | _ => True

/-- Whether an effect is open to a program that knows certain keys. -/
def Allowed (known : PauseId → Prop) : Effect → Prop
  | release key => known key
  | op (.keep ..) => False
  | _ => True

theorem Idle.allowed {effect : Effect} (h : effect.Idle) (known : PauseId → Prop) :
    effect.Allowed known := by
  cases effect with
  | op op => cases op <;> exact h
  | release => cases h
  | call | await | setGate | cancel => trivial

theorem Allowed.mono {effect : Effect} {known more : PauseId → Prop} (h : effect.Allowed known)
    (implies : ∀ key, known key → more key) : effect.Allowed more := by
  cases effect with
  | release key => exact implies key h
  | op op => cases op <;> exact h
  | call | await | setGate | cancel => trivial

end Effect

/-! ## Programs -/

namespace Program

variable {α β : Type}

/-- A program that has nothing to do with the barrier. -/
def Idle : Program α → Prop
  | done _ => True
  | act effect next => effect.Idle ∧ ∀ reply, (next reply).Idle

/-- A program that gives back only the keys that it knows, or comes to know, and puts none aside. -/
def Honest : Program α → (PauseId → Prop) → Prop
  | done _, _ => True
  | act effect next, known =>
      effect.Allowed known ∧ ∀ reply, (next reply).Honest fun key => known key ∨ effect.Teaches reply key

/-- A program that takes the barrier at most once and gives it back as its last effect, however it goes
on in between. `held` is the key, once there is one. -/
def Scoped : Program α → (held : Option PauseId) → Prop
  | done _, held => held = none
  | act (.await .barrier) next, held =>
      held = none ∧ (∀ key, (next (.ok key)).Scoped (some key)) ∧
        ∀ failure, ∃ result, next (.error failure) = done result
  | act (.release key) next, held => held = some key ∧ ∀ reply, ∃ result, next reply = done result
  | act effect next, held => effect.Idle ∧ ∀ reply, (next reply).Scoped held

/-- A program that has nothing to do with the barrier until it asks for it, and fails if that fails. With
a key, it goes on as a program that has nothing to do with the barrier, and after that the key is given
back, however that program ends. -/
inductive Bracketed : Program (Except Failure Unit) → Prop where
  | done (ending : Except Failure Unit) : Bracketed (.done ending)
  | act {effect : Effect} {next : effect.Reply → Program (Except Failure Unit)} (idle : effect.Idle)
      (rest : ∀ reply, Bracketed (next reply)) : Bracketed (.act effect next)
  | take {next : Except Failure PauseId → Program (Except Failure Unit)}
      {body : Program (Except Failure Unit)} (idle : body.Idle)
      (granted : ∀ key, next (.ok key) = body.bind fun ending => Walk.giveBack (ending, some key))
      (denied : ∀ failure, next (.error failure) = .done (.error failure)) :
      Bracketed (.act (.await .barrier) next)

theorem Idle.bind {program : Program α} {next : α → Program β} (h : program.Idle)
    (rest : ∀ result, (next result).Idle) : (program.bind next).Idle := by
  induction program with
  | done result => exact rest result
  | act effect others ih => exact ⟨h.1, fun reply => ih reply (h.2 reply)⟩

/-- What honours the pact that leaves the barrier alone has nothing to do with it. -/
theorem idle_of_honours {program : Program α} (h : program.Honours { allows := Effect.Idle }) :
    program.Idle := by
  induction program with
  | done => trivial
  | act effect next ih => exact ⟨h.1, fun reply => ih reply (h.2 reply fun _ _ => trivial)⟩

theorem Honest.mono {program : Program α} {known more : PauseId → Prop} (h : program.Honest known)
    (implies : ∀ key, known key → more key) : program.Honest more := by
  induction program generalizing known more with
  | done => trivial
  | act effect next ih =>
      exact ⟨h.1.mono implies, fun reply => ih reply (h.2 reply) fun key => .imp_left (implies key)⟩

/-- What comes later may rely on what was known before. -/
theorem Honest.bind {program : Program α} {next : α → Program β} {known : PauseId → Prop}
    (h : program.Honest known) (rest : ∀ result, (next result).Honest known) :
    (program.bind next).Honest known := by
  induction program generalizing known with
  | done result => exact rest result
  | act effect others ih =>
      exact ⟨h.1, fun reply => ih reply (h.2 reply) fun result => (rest result).mono fun _ => .inl⟩

theorem Idle.honest {program : Program α} (h : program.Idle) (known : PauseId → Prop) :
    program.Honest known := by
  induction program generalizing known with
  | done => trivial
  | act effect next ih => exact ⟨h.1.allowed known, fun reply => ih reply (h.2 reply) _⟩

/-- An effect that has nothing to do with the barrier may come first. -/
theorem scoped_act {effect : Effect} {next : effect.Reply → Program α} {held : Option PauseId}
    (idle : effect.Idle) (rest : ∀ reply, (next reply).Scoped held) : (act effect next).Scoped held := by
  cases effect with
  | await pause =>
      cases pause with
      | barrier => cases idle
      | gate | sleep => exact ⟨idle, rest⟩
  | release => cases idle
  | op | call | setGate | cancel => exact ⟨idle, rest⟩

theorem Idle.scoped_bind {program : Program α} {next : α → Program β} {held : Option PauseId}
    (h : program.Idle) (rest : ∀ result, (next result).Scoped held) :
    (program.bind next).Scoped held := by
  induction program with
  | done result => exact rest result
  | act effect others ih => exact scoped_act h.1 fun reply => ih reply (h.2 reply)

theorem Idle.bracketed_bind {program : Program α} {next : α → Program (Except Failure Unit)}
    (h : program.Idle) (rest : ∀ result, (next result).Bracketed) : (program.bind next).Bracketed := by
  induction program with
  | done result => exact rest result
  | act effect others ih => exact .act h.1 fun reply => ih reply (h.2 reply)

/-- The end of a bracket is the last effect. -/
theorem scoped_giveBack (ending : Except Failure Unit) (key : PauseId) :
    (Walk.giveBack (ending, some key)).Scoped (some key) := by
  refine ⟨rfl, fun reply => ?_⟩
  cases reply with
  | ok => exact ⟨ending, rfl⟩
  | error failure => exact ⟨.error failure, rfl⟩

/-- What is bracketed is scoped. -/
theorem Bracketed.scoped {program : Program (Except Failure Unit)} (h : program.Bracketed) :
    program.Scoped none := by
  induction h with
  | done => rfl
  | act idle _ ih => exact scoped_act idle ih
  | take idle granted denied =>
      refine ⟨rfl, fun key => ?_, fun failure => ⟨_, denied failure⟩⟩
      rw [granted]
      exact idle.scoped_bind fun ending => scoped_giveBack ending key

/-- Who gives back the one key that was taken gives back what is known. -/
theorem Scoped.honest {program : Program α} {held : Option PauseId} (h : program.Scoped held)
    {known : PauseId → Prop} (knows : ∀ key, held = some key → known key) : program.Honest known := by
  induction program generalizing held known with
  | done => trivial
  | act effect next ih =>
      have idle : effect.Idle ∧ (∀ reply, (next reply).Scoped held) → (act effect next).Honest known :=
        fun h => ⟨h.1.allowed known, fun reply => ih reply (h.2 reply) fun key same =>
          .inl (knows key same)⟩
      cases effect with
      | release key =>
          refine ⟨knows key h.1, fun reply => ?_⟩
          obtain ⟨result, same⟩ := h.2 reply
          rw [same]
          trivial
      | await pause =>
          cases pause with
          | gate | sleep => exact idle h
          | barrier =>
              refine ⟨trivial, fun reply => ?_⟩
              cases reply with
              | ok key => exact ih _ (h.2.1 key) fun other same => .inr (by cases same; rfl)
              | error failure =>
                  obtain ⟨result, same⟩ := h.2.2 failure
                  rw [same]
                  trivial
      | op | call | setGate | cancel => exact idle h

end Program

/-! ## Runs -/

namespace Run

variable {α β : Type}

/-- A run that has nothing to do with the barrier. -/
def Idle (run : Run α) : Prop := Program.Idle run.run

/-- What honours the pact that leaves the barrier alone has nothing to do with it. -/
theorem idle_of_honours {run : Run α} (h : run.Honours { allows := Effect.Idle }) : run.Idle :=
  Program.idle_of_honours h

theorem bracketed_throw (failure : Failure) : Program.Bracketed (throw failure : Run Unit).run :=
  .done (.error failure)

/-- What has nothing to do with the barrier may come before what is bracketed. -/
theorem Idle.bracketed_bind {run : Run α} {next : α → Run Unit} (h : run.Idle)
    (rest : ∀ result, Program.Bracketed (next result).run) :
    Program.Bracketed (run >>= next).run := by
  refine Program.Idle.bracketed_bind h fun ending => ?_
  cases ending with
  | ok result => exact rest result
  | error failure => exact .done (.error failure)

theorem Idle.bracketed {run : Run Unit} (h : run.Idle) : Program.Bracketed run.run := by
  rw [← Program.bind_done run.run]
  exact Program.Idle.bracketed_bind h .done

theorem Idle.bracketed_bracket {body : Run Unit} (h : body.Idle) :
    Program.Bracketed (do
      let key ← Run.await .barrier
      Run.ensuring body (Run.release key) : Run Unit).run :=
  .take h (fun key => run_ensuring body (Run.release key)) fun _ => rfl

end Run

/-! ## Runs of expressions -/

/-- What a source does of its own accord has nothing to do with the barrier. -/
theorem idle_plain : Pact.AllowsPlain { allows := Effect.Idle } := by
  intro effect plain
  cases effect with
  | op op => cases op <;> trivial
  | call => trivial
  | await | release | setGate | cancel => cases plain

theorem idle_invoke (source name : String) (items : Supply) (args : List String) (mode : Mode) :
    (invoke source name items args mode).Idle :=
  Run.idle_of_honours (Run.honours_invoke (idle_plain.of source) name items args mode)

theorem idle_route (rule : Rule) (source : String) (args : List String) (items : Supply) :
    (rule.route source args items).Idle :=
  Run.idle_of_honours (Run.honours_route (idle_plain.of source) rule args items)

namespace Expr

/-- What stands inside another expression has nothing to do with the barrier. -/
theorem idle_inside (source : String) (mode : Mode) :
    (∀ expression items, (runInner source mode expression items).Idle) ∧
      ∀ elements items, (runElements source mode false elements items).Idle := by
  obtain ⟨inner, ahead⟩ := honours_inside (idle_plain.of source) mode
  exact ⟨fun expression items => Run.idle_of_honours (inner expression items),
    fun elements items => Run.idle_of_honours (ahead elements items)⟩

/-- **Runs are bracketed.** Every run of an expression takes the barrier at most once, and then gives it
back after all else, whatever the explorer answers meanwhile. -/
theorem bracketed_run (source : String) (mode : Mode) (expression : Expr) (items : Supply) :
    Program.Bracketed (run source mode expression items).run :=
  @run_induction source mode Run.Idle (fun run => Program.Bracketed run.run) (idle_inside source mode)
    (fun alone => alone.bracketed) Run.bracketed_throw (fun first second => first.bracketed_bind fun _ => second)
    (fun rule args items _ => (idle_route rule source args items).bracketed_bind)
    (fun body => body.bracketed_bracket) expression items

/-- **Runs are scoped.** Every run of an expression takes the barrier at most once, and gives it back as
the last thing it does, whatever the explorer answers meanwhile. -/
theorem scoped_run (source : String) (mode : Mode) (expression : Expr) (items : Supply) :
    Program.Scoped (run source mode expression items).run none :=
  (bracketed_run source mode expression items).scoped

end Expr
end ActionFlow

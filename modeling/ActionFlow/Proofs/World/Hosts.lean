import ActionFlow.Proofs.Running.Scoped
import ActionFlow.Script

/-!
# Honest hosts

What callbacks, rules, views and loaders do is up to the host. The one thing that is asked of it, where
it is asked anything, is that nobody gives back a key to the barrier that he was not given. Hosts whose
callbacks follow scripts are honest, whatever the scripts say.

A program that gives back only what it was given leaves alone every key that it was not told, and the
other way round, if it puts nothing aside. Both halves of that are pacts, so what scripts honour is shown
once for every pact that leaves open what scripts do.

## Main results

* `honours_scriptedHost`: scripted hosts honour every pact that leaves open what scripts do.
* `Program.Honest.spares`, `Program.honest_of_spares`: being honest is leaving alone every key that one
  does not know, and putting nothing aside.
* `honest_scriptedHost`: scripted hosts are honest.
-/

namespace ActionFlow

/-- A host under which callbacks, rules, views and loaders give back only keys that they got themselves,
and put no key aside. They may take the barrier, run other expressions, wait, cancel tasks and fail. -/
def Host.Honest (host : Host) : Prop := ∀ call, Program.Honest (host call).run fun _ => False

/-- A host under which callbacks, rules, views and loaders honour a pact. -/
def Host.Honours (host : Host) (pact : Pact) : Prop := ∀ call, (host call).Honours pact

/-- Leaving a key alone, unless one is told it: it is neither given back nor put aside. -/
def Pact.spares (key : PauseId) : Pact where
  allows effect := effect ≠ .release key ∧ ∀ hold, effect ≠ .op (.keep hold key)
  learns := (· ≠ key)

/-- Putting no key aside. -/
def Pact.keepsNone : Pact where
  allows effect := ∀ hold key, effect ≠ .op (.keep hold key)

/-! ## Honest programs -/

namespace Program

variable {α : Type} {program : Program α} {known : PauseId → Prop}

/-- Who gives back only what he knows leaves alone what he does not know. -/
theorem Honest.spares (h : program.Honest known) {key : PauseId} (unknown : ¬ known key) :
    program.Honours (.spares key) := by
  induction program generalizing known with
  | done => trivial
  | act effect next ih =>
      obtain ⟨allowed, later⟩ := h
      refine ⟨⟨?_, ?_⟩, fun reply expected => ih reply (later reply) ?_⟩
      · rintro rfl
        exact unknown allowed
      · rintro hold rfl
        exact allowed
      · rintro (knows | taught)
        · exact unknown knows
        · exact expected key taught rfl

theorem Honest.keepsNone (h : program.Honest known) : program.Honours .keepsNone := by
  induction program generalizing known with
  | done => trivial
  | act effect next ih =>
      refine ⟨?_, fun reply _ => ih reply (h.2 reply)⟩
      rintro hold key rfl
      exact h.1

/-- Who puts nothing aside and leaves alone every key that he does not know gives back only what he
knows. -/
theorem honest_of_spares (nothing : program.Honours .keepsNone)
    (h : ∀ key, ¬ known key → program.Honours (.spares key)) : program.Honest known := by
  induction program generalizing known with
  | done => trivial
  | act effect next ih =>
      constructor
      · cases effect with
        | release key => exact Classical.byContradiction fun unknown => (h key unknown).1.1 rfl
        | op op =>
            cases op with
            | keep hold key => exact nothing.1 hold key rfl
            | _ => trivial
        | call | await | setGate | cancel => trivial
      · intro reply
        refine ih reply (nothing.2 reply fun _ _ => trivial) fun key unknown => ?_
        rw [not_or] at unknown
        refine (h key unknown.1).2 reply ?_
        rintro other told rfl
        exact unknown.2 told

end Program

/-- A run that gives back only keys that it is given itself. -/
def Run.Honest {α : Type} (run : Run α) : Prop := Program.Honest run.run fun _ => False

theorem Expr.honest_run (source : String) (mode : Mode) (expression : Expr) (items : Supply) :
    (Expr.run source mode expression items).Honest :=
  (scoped_run source mode expression items).honest nofun

/-! ## Scripts -/

/-- What scripts do beside giving back keys: anything but putting keys aside and noting what the barrier
notes. -/
def Effect.Scripted : Effect → Prop
  | release _ | op (.keep ..) => False
  | op (.record (.noted (.barrierTaken _))) | op (.record (.noted (.barrierReleased _))) => False
  | _ => True

theorem Effect.Plain.scripted {effect : Effect} (h : effect.Plain) : effect.Scripted := by
  cases effect with
  | op op =>
      cases op with
      | record event =>
          cases event with
          | noted notice => cases notice <;> exact h
          | _ => trivial
      | _ => trivial
  | release => cases h
  | call | await | setGate | cancel => trivial

/-- Whether it is open to do what scripts do. -/
structure Pact.AllowsScripts (pact : Pact) : Prop where
  scripted : ∀ effect : Effect, effect.Scripted → pact.allows effect
  returns : ∀ key, pact.learns key → pact.allows (.release key)

namespace Pact.AllowsScripts

variable {pact : Pact} (h : pact.AllowsScripts)

include h

theorem plain : pact.AllowsPlain := fun effect plain => h.scripted effect plain.scripted

theorem barrier : pact.AllowsBarrier := ⟨h.scripted _ trivial, h.returns⟩

end Pact.AllowsScripts

section Scripts

variable {pact : Pact} (opens : pact.AllowsScripts)

include opens

theorem Expr.honours_runValue (source : String) (mode : Mode) (value : Value) (inside : Bool)
    (items : Supply) : (Expr.runValue source mode value inside items).Honours pact := by
  unfold runValue
  split
  next => exact Run.honours_throw _
  next expression _ =>
    cases inside with
    | true => exact (honours_inside (opens.plain.of source) mode).1 expression items
    | false => exact honours_run (opens.plain.of source) opens.barrier mode expression items

namespace Script

/-- A key that was put aside is known to who asks for it. -/
theorem honours_releaseHold (hold : String) : (releaseHold hold).Honours pact := by
  refine ⟨opens.scripted _ trivial, fun reply expected => ?_⟩
  cases reply with
  | none => trivial
  | some key => exact ⟨opens.returns key (expected key rfl), fun reply _ => by cases reply <;> trivial⟩

theorem honours_instruction (context : Context) (instruction : Instruction) :
    (Script.instruction context instruction).Honours pact := by
  cases instruction with
  | mark text => exact Run.honours_op (.record (.marked text)) (opens.scripted _ trivial)
  | fail => exact Run.honours_throw _
  | dropItems | dropArgs => exact Run.honours_pure ()
  | awaitGate gate =>
      exact (Run.honours_await (opens.scripted (.await (.gate gate)) trivial)).bind fun _ =>
        Run.honours_pure ()
  | sleep span =>
      simp only [Script.instruction]
      split
      next => exact Run.honours_throw _
      next duration _ =>
        exact (Run.honours_await (opens.scripted (.await (.sleep duration)) trivial)).bind fun _ =>
          Run.honours_pure ()
  | run source expression own => exact Expr.honours_runValue opens _ _ _ _ _
  | invoke source name own => exact Run.honours_invoke (opens.plain.of _) _ _ _ _
  | change source change => exact Run.honours_op (.change _ change) (opens.scripted _ trivial)
  | setExpandable item truth => exact ⟨opens.scripted _ trivial, fun _ _ => trivial⟩
  | setGate gate opened => exact ⟨opens.scripted _ trivial, fun _ _ => trivial⟩
  | register => exact ⟨opens.scripted _ trivial, fun _ _ => trivial⟩
  | release hold => exact honours_releaseHold opens hold
  | cancel => exact ⟨opens.scripted _ trivial, fun _ _ => trivial⟩

theorem honours_follow (context : Context) (script : List Instruction) :
    (follow context script).Honours pact := by
  induction script generalizing context with
  | nil => exact Run.honours_pure ()
  | cons next rest ih => exact (honours_instruction opens context next).bind fun _ => ih _

end Script

theorem Callback.honours_call (callback : Callback) (name : String) (context : Context) :
    (callback.call name context).Honours pact := by
  have announced := Run.honours_op (.record (.called name context)) (opens.scripted _ trivial)
  have script := Script.honours_follow opens context callback.script
  have entered : Run.Honours pact (ExceptT.mk (Program.perform (.op .enter)) : Run Unit) :=
    ⟨opens.scripted _ trivial, fun _ _ => trivial⟩
  refine entered.bind fun _ => Run.Honours.ensuring ?_ (Run.honours_op .leave (opens.scripted _ trivial))
  unfold Callback.parts
  cases callback.style with
  | immediate => exact (announced.bind fun _ => script).bind fun _ => Run.honours_pure ()
  | deferred => exact (Run.honours_pure ()).bind fun _ => announced.bind fun _ => script
  | handedOver => exact announced.bind fun _ => script

/-- The hooks of a view record events that are none of the barrier's notices. -/
theorem Hook.honours_call (hook : Hook) {started ended : Event}
    (starts : (Effect.op (.record started)).Scripted) (ends : (Effect.op (.record ended)).Scripted) :
    (hook.call started ended).Honours pact := by
  refine (Run.honours_op (.record started) (opens.scripted _ starts)).bind fun _ => ?_
  split
  next gate _ _ =>
    exact (Run.honours_await (opens.scripted (.await (.gate gate)) trivial)).bind fun _ =>
      (Run.honours_op (.record ended) (opens.scripted _ ends)).bind fun _ => Run.honours_failIf _
  next => exact Run.honours_failIf _

/-- **Scripted hosts honour every pact that leaves open what scripts do.** -/
theorem honours_scriptedHost (views : String → View) : (scriptedHost views).Honours pact := by
  intro call
  cases call with
  | callback action context => exact Callback.honours_call opens _ _ _
  | test source rule args item =>
      have answered := Run.honours_op (.test source rule item) (opens.scripted _ trivial)
      exact Run.honours_ite ((Run.honours_failIf _).bind fun _ => answered) answered
  | requestRender source items =>
      exact (Run.honours_op (.record (.requested source items)) (opens.scripted _ trivial)).bind fun _ =>
        Run.honours_failIf _
  | render source => exact Hook.honours_call opens _ trivial trivial
  | load source item => exact Hook.honours_call opens _ trivial trivial

end Scripts

theorem allowsScripts_spares (key : PauseId) : (Pact.spares key).AllowsScripts where
  scripted effect scripted := by
    refine ⟨?_, ?_⟩
    · rintro rfl
      cases scripted
    · rintro hold rfl
      cases scripted
  returns other different := ⟨fun same => different (Effect.release.inj same), nofun⟩

theorem allowsScripts_keepsNone : Pact.keepsNone.AllowsScripts where
  scripted effect scripted := by
    rintro hold key rfl
    cases scripted
  returns _ _ := nofun

/-- **Scripted hosts are honest.** -/
theorem honest_scriptedHost (views : String → View) : (scriptedHost views).Honest := fun call =>
  Program.honest_of_spares (honours_scriptedHost allowsScripts_keepsNone views call) fun key _ =>
    honours_scriptedHost (allowsScripts_spares key) views call

/-- The explorer around tasks that ask nothing of it. -/
def silence : Host := scriptedHost fun _ => {}

end ActionFlow

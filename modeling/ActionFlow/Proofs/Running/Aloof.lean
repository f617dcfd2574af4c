import ActionFlow.Proofs.Running.Splicing
import ActionFlow.Proofs.Running.Scoped

/-!
# Runs that keep aloof from the barrier

Only a `wait` among the elements of the outermost sequence has anything to do with the barrier. A run
without one does nothing but what is plain, and that leaves the barrier and the keys to it alone; whatever
stands inside other elements or as a branch, and whatever the whole expression is called, is no marker.

A program that keeps aloof does not even learn anything from how things stand with the barrier. Pauses are
numbered, and every request for the barrier uses a number up, so what such a program does next must not depend
on the number of a pause either.

## Main results

* `Program.Aloof`: a program that neither touches the barrier nor learns anything of it.
* `Expr.honours_markless`: runs of expressions without a marker are plain, and about their source.
* `Expr.aloof_run`: so they keep aloof.
-/

namespace ActionFlow

variable {α β : Type}

/-! ## Programs -/

namespace Effect

/-- Whether an effect neither touches the barrier nor the keys to it, be it only to look one up that was put
aside. -/
def Aloof : Effect → Prop
  | await .barrier | release _ | op (.keep ..) | op (.keyOf _) => False
  | _ => True

/-- Whether two answers tell the same, apart from the number of a pause. -/
def TellsSame : (effect : Effect) → effect.Reply → effect.Reply → Prop
  | await _, .ok _, .ok _ => True
  | _, one, other => one = other

/-- What a source does of its own accord keeps aloof, and is told no number. -/
theorem Plain.aloof {effect : Effect} (h : effect.Plain) :
    effect.Aloof ∧ ∀ one other, effect.TellsSame one other → one = other := by
  cases effect with
  | op op =>
      refine ⟨?_, fun _ _ => id⟩
      cases op <;> trivial
  | call => exact ⟨trivial, fun _ _ => id⟩
  | await | release | setGate | cancel => cases h

end Effect

namespace Program

/-- There is a next effect, which keeps aloof from the barrier, and the program goes on in the same way
whatever the number of its pause is. -/
def StartsAloof : Program α → Prop
  | done _ => False
  | act effect next => effect.Aloof ∧ ∀ one other, effect.TellsSame one other → next one = next other

/-- A program that keeps aloof from the barrier. -/
def Aloof : Program α → Prop
  | done _ => True
  | act effect next => (act effect next).StartsAloof ∧ ∀ reply, (next reply).Aloof

theorem StartsAloof.bind {program : Program α} (h : program.StartsAloof) (next : α → Program β) :
    (program.bind next).StartsAloof := by
  cases program with
  | done => cases h
  | act effect others =>
      exact ⟨h.1, fun one other same => congrArg (Program.bind · next) (h.2 one other same)⟩

theorem Aloof.bind {program : Program α} {next : α → Program β} (h : program.Aloof)
    (rest : ∀ result, (next result).Aloof) : (program.bind next).Aloof := by
  induction program with
  | done result => exact rest result
  | act effect others ih =>
      exact ⟨h.1.bind next, fun reply => ih reply (h.2 reply)⟩

/-- What is plain keeps aloof. -/
theorem aloof_of_plain {program : Program α} (h : program.Honours { allows := Effect.Plain }) :
    program.Aloof := by
  induction program with
  | done => trivial
  | act effect next ih =>
      obtain ⟨aloof, told⟩ := h.1.aloof
      refine ⟨⟨aloof, fun one other same => ?_⟩, fun reply => ih reply (h.2 reply fun _ _ => trivial)⟩
      rw [told one other same]

end Program

/-! ## Runs of expressions -/

namespace Expr

/-- Whether there is no `wait` in element position of the outermost level. -/
def markless : Expr → Bool
  | leaf _ => true
  | seq elements => unmarked elements

/-- Runs of expressions without a marker are plain, and about their source. -/
theorem honours_markless {pact : Pact} {source : String} (plain : pact.AllowsPlainOf source) (mode : Mode)
    (items : Supply) {expression : Expr} (h : expression.markless) :
    (run source mode expression items).Honours pact := by
  cases passes : expression.check with
  | error failure =>
      rw [run_of_check_error _ _ _ passes]
      exact Run.honours_throw _
  | ok =>
      cases expression with
      | leaf l => exact Run.honours_invoke plain l.name items l.args mode
      | seq elements =>
          rw [run_seq _ _ _ passes, runElements_unmarked source mode true items (closed_of_check ?_) h]
          · exact (honours_inside plain mode).2 elements items
          · rwa [check_seq] at passes

/-- **Runs without a marker keep aloof** from the barrier, whatever happens while they run. -/
theorem aloof_run (source : String) (mode : Mode) (items : Supply) {expression : Expr}
    (h : expression.markless) : Program.Aloof (run source mode expression items).run := by
  have plain : (run source mode expression items).Honours { allows := Effect.Plain } :=
    honours_markless (fun _ plain _ => plain) mode items h
  exact Program.aloof_of_plain plain

end Expr
end ActionFlow

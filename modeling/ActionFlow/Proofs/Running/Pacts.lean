import ActionFlow.Proofs.Running.Elements

/-!
# Pacts

A pact says which effects are open to a program and which keys to the barrier it may be told. Whoever
is told another key is free to do anything from there on, so a pact about a key binds those who do not
know it.

What a source does of its own accord is plain: it looks things up, notes what it does and calls others;
and whatever it looks up, changes or calls is its own. A run honours every pact that leaves open to it the
plain effects of its source and, in its outermost sequence, taking the barrier and giving it back.

## Main results

* `Program.Honours`: a program honours a pact.
* `Expr.honours_inside`, `Expr.honours_run`: so do runs, whatever happens while they run.
-/

namespace ActionFlow

/-! ## Effects -/

/-- The source that an operation is about, if it is about one. -/
def Op.source? : Op → Option String
  | resolve source _ | gather source _ _ | test source _ _ | rootOf source | change source _ => some source
  | register table _ => table
  | partsOf _ | record _ | setExpandable .. | keep .. | keyOf _ | enter | leave => none

/-- The source that a call is about. -/
def Call.source : Call → String
  | callback _ context => context.source
  | test source .. | requestRender source _ | render source | load source _ => source

namespace Effect

/-- Whether an effect is about no other source than a given one. -/
def Within (source : String) : Effect → Prop
  | op o => ∀ other, o.source? = some other → other = source
  | call c => c.source = source
  | await _ | release _ | setGate .. | cancel _ => True

/-- The key that a program learns from an answer: the one that it gets, or one that was put aside. -/
def Teaches : (effect : Effect) → effect.Reply → PauseId → Prop
  | await .barrier, reply, key => reply = .ok key
  | op (.keyOf _), reply, key => reply = some key
  | _, _, _ => False

/-- Whether an effect is one of those by which a source does its own part. -/
def Plain : Effect → Prop
  | op (.resolve ..) | op (.gather ..) | op (.rootOf _) | op (.partsOf _) | call _ => True
  | op (.record (.noted (.barrierTaken _))) | op (.record (.noted (.barrierReleased _))) => False
  | op (.record (.noted _)) => True
  | _ => False

end Effect

/-! ## Programs -/

/-- What is open to a program. -/
structure Pact where
  /-- The effects that it may perform. -/
  allows : Effect → Prop
  /-- The keys that it may be told. -/
  learns : PauseId → Prop := fun _ => True

/-- Whether an answer tells no other key than a pact reckons with. -/
def Pact.Expects (pact : Pact) (effect : Effect) (reply : effect.Reply) : Prop :=
  ∀ key, effect.Teaches reply key → pact.learns key

/-- Whether the plain effects are open. -/
def Pact.AllowsPlain (pact : Pact) : Prop := ∀ effect : Effect, effect.Plain → pact.allows effect

/-- Whether those are open that are about no other source than a given one. -/
def Pact.AllowsPlainOf (pact : Pact) (source : String) : Prop :=
  ∀ effect : Effect, effect.Plain → effect.Within source → pact.allows effect

theorem Pact.AllowsPlain.of {pact : Pact} (h : pact.AllowsPlain) (source : String) :
    pact.AllowsPlainOf source := fun effect plain _ => h effect plain

/-- Whether it is open to take the barrier, and to give back a key that one was told. -/
def Pact.AllowsBarrier (pact : Pact) : Prop :=
  pact.allows (.await .barrier) ∧ ∀ key, pact.learns key → pact.allows (.release key)

namespace Program

variable {α β : Type} {pact : Pact}

/-- A program that performs nothing but what a pact allows, as long as it is told no other keys. -/
def Honours (pact : Pact) : Program α → Prop
  | done _ => True
  | act effect next =>
      pact.allows effect ∧ ∀ reply, pact.Expects effect reply → (next reply).Honours pact

theorem Honours.bind {program : Program α} {next : α → Program β} (h : program.Honours pact)
    (rest : ∀ result, (next result).Honours pact) : (program.bind next).Honours pact := by
  induction program with
  | done result => exact rest result
  | act effect others ih => exact ⟨h.1, fun reply expected => ih reply (h.2 reply expected)⟩

end Program

namespace Run

variable {α β : Type} {pact : Pact}

/-- A run that performs nothing but what a pact allows. -/
def Honours (pact : Pact) (run : Run α) : Prop := Program.Honours pact run.run

theorem honours_pure (result : α) : (pure result : Run α).Honours pact := trivial

theorem honours_throw (failure : Failure) : (throw failure : Run α).Honours pact := trivial

theorem Honours.bind {run : Run α} {next : α → Run β} (h : run.Honours pact)
    (rest : ∀ result, (next result).Honours pact) : (run >>= next).Honours pact := by
  refine Program.Honours.bind h fun ending => ?_
  cases ending with
  | ok result => exact rest result
  | error => trivial

theorem Honours.ensuring {body : Run α} {cleanup : Run Unit} (h : body.Honours pact)
    (tidy : cleanup.Honours pact) : (body.ensuring cleanup).Honours pact := by
  unfold Honours
  rw [run_ensuring]
  refine Program.Honours.bind h fun ending => Program.Honours.bind tidy fun outcome => ?_
  cases outcome <;> trivial

theorem honours_ite {condition : Prop} [Decidable condition] {yes no : Run α}
    (hyes : yes.Honours pact) (hno : no.Honours pact) :
    (if condition then yes else no).Honours pact := by
  split <;> assumption

theorem honours_op (op : Op) (allowed : pact.allows (.op op)) : (Run.op op).Honours pact :=
  ⟨allowed, fun _ _ => trivial⟩

theorem honours_await {pause : Pause} (allowed : pact.allows (.await pause)) :
    (Run.await pause).Honours pact :=
  ⟨allowed, fun _ _ => trivial⟩

/-- What is done while the barrier is held may come before the key is given back. -/
theorem Honours.bracket {body : Run Unit} (h : body.Honours pact) (barrier : pact.AllowsBarrier) :
    (do let key ← Run.await .barrier; Run.ensuring body (Run.release key) : Run Unit).Honours
      pact := by
  refine ⟨barrier.1, fun reply expected => ?_⟩
  cases reply with
  | error => trivial
  | ok key =>
    have given : (Run.release key).Honours pact :=
      ⟨barrier.2 key (expected key rfl), fun _ _ => trivial⟩
    exact h.ensuring given

theorem honours_failIf (failure : Option Failure) : (Run.failIf failure).Honours pact := by
  cases failure <;> trivial

section Plain

variable {source : String} (plain : pact.AllowsPlainOf source)

include plain

theorem honours_call {called : Call} (own : called.source = source) : (Run.call called).Honours pact :=
  ⟨plain _ trivial own, fun _ _ => trivial⟩

theorem honours_plain {op : Op} (h : (Effect.op op).Plain) (own : (Effect.op op).Within source) :
    (Run.op op).Honours pact :=
  honours_op op (plain _ h own)

/-! ## What a source does -/

theorem honours_followUp (options : Options) (name : String) :
    (Action.followUp options source name).Honours pact := by
  unfold Action.followUp
  refine honours_ite ?_ (honours_ite ?_ (honours_pure ()))
  · have noted : (Run.op (.record (.noted (.reloading name)))).Honours pact :=
      honours_plain plain trivial nofun
    have rooted : (Run.op (.rootOf source)).Honours pact :=
      honours_plain plain trivial fun _ same => (Option.some.inj same).symm
    exact noted.bind fun _ => rooted.bind fun _ => honours_call plain rfl
  · have noted : (Run.op (.record (.noted (.rendering name)))).Honours pact :=
      honours_plain plain trivial nofun
    exact noted.bind fun _ => honours_call plain rfl

theorem honours_callOn (action : Action) (given : List Item) (args : List String) (mode : Mode) :
    (action.callOn source given args mode).Honours pact := by
  have gathered : (Run.op (.gather source action.options.select given)).Honours pact :=
    honours_plain plain trivial fun _ same => (Option.some.inj same).symm
  refine gathered.bind fun items => ?_
  have called : (Run.call (.callback action { source, items, args, mode })).Honours pact :=
    honours_call plain rfl
  exact honours_ite ((honours_call plain rfl).bind fun _ => called) called

theorem honours_invoke (name : String) (items : Supply) (args : List String) (mode : Mode) :
    (invoke source name items args mode).Honours pact := by
  have resolved : (Run.op (.resolve source name)).Honours pact :=
    honours_plain plain trivial fun _ same => (Option.some.inj same).symm
  refine resolved.bind fun found => ?_
  cases found with
  | none => exact honours_plain plain trivial nofun
  | some action =>
      exact (honours_callOn plain action _ args mode).ensuring (honours_followUp plain action.options name)

theorem honours_split (rule : Rule) (args : List String) (items : List Item) :
    (rule.split source args items).Honours pact := by
  induction items with
  | nil => exact honours_pure _
  | cons item rest ih =>
      have tested : (Run.test source rule args item).Honours pact := honours_call plain rfl
      exact tested.bind fun (answer : Bool) =>
        ih.bind fun parts => honours_ite (honours_pure _) (honours_pure _)

theorem honours_members (items : Supply) : items.members.Honours pact := by
  cases items with
  | many => exact honours_pure _
  | single item =>
      have looked : (Run.op (.partsOf item)).Honours pact := honours_plain plain trivial nofun
      refine looked.bind fun parts => ?_
      cases parts with
      | none => exact honours_throw _
      | some count => exact honours_pure _

theorem honours_route (rule : Rule) (args : List String) (items : Supply) :
    (rule.route source args items).Honours pact :=
  (honours_members plain items).bind fun all => (honours_split plain rule args all).bind fun parts =>
    have noted : (Run.note (.routed rule.name parts.1.length parts.2.length)).Honours pact :=
      honours_plain plain trivial nofun
    noted.bind fun _ => honours_pure _

end Plain

end Run

/-! ## Runs of expressions -/

namespace Expr

variable {pact : Pact}

open Run

/-- What stands inside another expression is plain, and about its source. -/
theorem honours_inside {source : String} (plain : pact.AllowsPlainOf source) (mode : Mode) :
    (∀ expression items, (runInner source mode expression items).Honours pact) ∧
      ∀ elements items, (runElements source mode false elements items).Honours pact :=
  inside_induction (honours_pure ()) honours_throw (fun first second => first.bind fun _ => second)
    (fun name items args => honours_invoke plain name items args mode)
    (fun rule args items _ => (honours_route plain rule args items).bind)

/-- A run on its own takes the barrier, and gives it back, beside what is plain. -/
theorem honours_run {source : String} (plain : pact.AllowsPlainOf source) (barrier : pact.AllowsBarrier)
    (mode : Mode) (expression : Expr) (items : Supply) : (run source mode expression items).Honours pact :=
  run_induction (honours_inside plain mode) id honours_throw
    (fun first second => first.bind fun _ => second)
    (fun rule args items _ => (honours_route plain rule args items).bind)
    (fun body => body.bracket barrier) expression items

end Expr
end ActionFlow

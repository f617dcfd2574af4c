import ActionFlow.Proofs.Running.Elements
import ActionFlow.Script

/-!
# Programs that gather by invoking

Items are gathered where an action is invoked and nowhere else: what follows a callback does not gather, nor do
rules, views and loaders, and a callback that follows a script gathers only if the script invokes something. So
a program can be told by its invocations, with what else it does in between.

## Main results

* `Errand`: what is to be invoked; `Errand.bind_program`: what invoking comes to, step by step.
* `Program.Invokes`: a program that gathers nothing but by invoking.
* `Program.Invokes.act_cases`: what such a program does first.
* `Expr.invokes_run`, `invokes_scriptedHost`: runs are such programs, and so is all that scripted hosts do.
-/

namespace ActionFlow

/-! ## Errands -/

/-- What is to be invoked: a name on a source, with items, arguments and a mode. -/
structure Errand where
  source : String
  name : String
  items : Supply
  args : List String
  mode : Mode

namespace Errand

variable (errand : Errand) (action : Action)

/-- The program that invokes it. -/
def program : Program (Except Failure Unit) :=
  (invoke errand.source errand.name errand.items errand.args errand.mode).run

/-- The program that calls the action, once that is found. -/
def merging : Program (Except Failure Unit) :=
  (action.callOn errand.source errand.items.toList errand.args errand.mode).run

/-- What the callback is called on. -/
def context (items : List Item) : Context :=
  { source := errand.source, items, args := errand.args, mode := errand.mode }

variable {β : Type} (next : Except Failure Unit → Program β)

/-- What is left of an invocation when its callback has ended. -/
def closing (ending : Except Failure Unit) : Program β :=
  (Action.followUp action.options errand.source errand.name).run.bind fun
    | .ok _ => next ending
    | .error failure => next (.error failure)

/-- What is left of an invocation when the name has been looked up. -/
def looked : Option Action → Program β
  | none => .act (.op (.record (.noted (.unknownAction errand.name)))) fun _ => next (.ok ())
  | some action => (errand.merging action).bind (errand.closing action next)

/-- An invocation looks the name up before all else. -/
theorem bind_program :
    errand.program.bind next = .act (.op (.resolve errand.source errand.name)) (errand.looked next) := by
  refine congrArg (Program.act _) (funext fun found => ?_)
  cases found with
  | none => rfl
  | some action =>
    show (Run.ensuring _ _).run.bind next = _
    rw [Run.run_ensuring, Program.bind_assoc]
    refine congrArg (Program.bind _) (funext fun ending => ?_)
    rw [Program.bind_assoc]
    refine congrArg (Program.bind _) (funext fun outcome => ?_)
    cases outcome <;> rfl

end Errand

/-! ## Programs -/

/-- Whether items are gathered by an effect. -/
def Effect.Gathers : Effect → Prop
  | op (.gather ..) => True
  | _ => False

namespace Program

variable {α β : Type}

/-- A program that gathers nothing but by invoking. -/
inductive Invokes : Program α → Prop where
  | done (result : α) : Invokes (.done result)
  | act {effect : Effect} {next : effect.Reply → Program α} (other : ¬ effect.Gathers)
      (rest : ∀ reply, Invokes (next reply)) : Invokes (.act effect next)
  | invoke (errand : Errand) {next : Except Failure Unit → Program α}
      (rest : ∀ ending, Invokes (next ending)) : Invokes (errand.program.bind next)

/-- Such a program does something else first, or it invokes something. -/
theorem Invokes.act_cases {program : Program α} (h : program.Invokes) {effect : Effect}
    {next : effect.Reply → Program α} (same : program = .act effect next) :
    (¬ effect.Gathers ∧ ∀ reply, (next reply).Invokes) ∨
      ∃ errand : Errand, ∃ more : Except Failure Unit → Program α,
        effect = .op (.resolve errand.source errand.name) ∧ program = errand.program.bind more ∧
        ∀ ending, (more ending).Invokes := by
  cases h with
  | done => cases same
  | act other rest =>
    cases same
    exact .inl ⟨other, rest⟩
  | @invoke errand more rest =>
    refine .inr ⟨errand, more, ?_, rfl, rest⟩
    rw [errand.bind_program] at same
    cases same
    rfl

theorem Invokes.bind {program : Program α} {next : α → Program β} (h : program.Invokes)
    (rest : ∀ result, (next result).Invokes) : (program.bind next).Invokes := by
  induction h with
  | done result => exact rest result
  | act other _ ih => exact .act other ih
  | @invoke errand more _ ih =>
    rw [bind_assoc]
    exact .invoke errand ih

end Program

/-! ## Runs -/

namespace Run

variable {α β : Type}

/-- A run that gathers nothing but by invoking. -/
def Invokes (run : Run α) : Prop := Program.Invokes run.run

theorem invokes_pure (result : α) : (pure result : Run α).Invokes := .done _

theorem invokes_throw (failure : Failure) : (throw failure : Run α).Invokes := .done _

/-- One effect, and then the end. -/
theorem invokes_perform {effect : Effect} (other : ¬ effect.Gathers)
    {ending : effect.Reply → Except Failure α} :
    Program.Invokes (.act effect fun reply => .done (ending reply)) :=
  .act other fun _ => .done _

theorem Invokes.bind {run : Run α} {next : α → Run β} (h : run.Invokes)
    (rest : ∀ result, (next result).Invokes) : (run >>= next).Invokes := by
  refine Program.Invokes.bind h fun ending => ?_
  cases ending with
  | ok result => exact rest result
  | error => exact .done _

theorem Invokes.ensuring {body : Run α} {cleanup : Run Unit} (h : body.Invokes) (tidy : cleanup.Invokes) :
    (body.ensuring cleanup).Invokes := by
  unfold Invokes
  rw [run_ensuring]
  refine Program.Invokes.bind h fun ending => Program.Invokes.bind tidy fun outcome => ?_
  cases outcome <;> exact .done _

theorem invokes_ite {condition : Prop} [Decidable condition] {yes no : Run α} (hyes : yes.Invokes)
    (hno : no.Invokes) : (if condition then yes else no).Invokes := by
  split <;> assumption

theorem invokes_op {op : Op} (other : ¬ (Effect.op op).Gathers) : (Run.op op).Invokes := invokes_perform other

theorem invokes_call (called : Call) : (Run.call called).Invokes := invokes_perform id

theorem invokes_await (pause : Pause) : (Run.await pause).Invokes := invokes_perform id

theorem invokes_release (key : PauseId) : (Run.release key).Invokes := invokes_perform id

theorem invokes_failIf (failure : Option Failure) : (Run.failIf failure).Invokes := by
  cases failure <;> exact .done _

theorem invokes_invoke (source name : String) (items : Supply) (args : List String) (mode : Mode) :
    (invoke source name items args mode).Invokes := by
  have whole := @Program.Invokes.invoke _ ⟨source, name, items, args, mode⟩ .done fun _ => .done _
  rwa [Program.bind_done] at whole

theorem invokes_followUp (options : Options) (source name : String) :
    (Action.followUp options source name).Invokes := by
  unfold Action.followUp
  have rooted : (Run.op (.rootOf source)).Invokes := invokes_op id
  refine invokes_ite ?_ (invokes_ite ?_ (invokes_pure ()))
  · exact (invokes_op id).bind fun _ => rooted.bind fun _ => invokes_call _
  · exact (invokes_op id).bind fun _ => invokes_call _

theorem invokes_split (rule : Rule) (source : String) (args : List String) (items : List Item) :
    (rule.split source args items).Invokes := by
  induction items with
  | nil => exact invokes_pure _
  | cons item rest ih =>
    have tested : (Run.test source rule args item).Invokes := invokes_call _
    exact tested.bind fun (answer : Bool) => ih.bind fun parts => invokes_ite (invokes_pure _) (invokes_pure _)

theorem invokes_members (items : Supply) : items.members.Invokes := by
  cases items with
  | many => exact invokes_pure _
  | single item =>
    have looked : (Run.op (.partsOf item)).Invokes := invokes_op id
    refine looked.bind fun parts => ?_
    cases parts with
    | none => exact invokes_throw _
    | some count => exact invokes_pure _

theorem invokes_route (rule : Rule) (source : String) (args : List String) (items : Supply) :
    (rule.route source args items).Invokes :=
  (invokes_members items).bind fun all => (invokes_split rule source args all).bind fun _ =>
    (invokes_op id).bind fun _ => invokes_pure _

end Run

/-- To call an action is to merge the items with the selection, before all else. -/
theorem Errand.bind_merging (errand : Errand) (action : Action) {β : Type}
    {next : Except Failure Unit → Program β} (rest : ∀ ending, (next ending).Invokes) :
    ∃ more : List Item → Program β, (errand.merging action).bind next =
        .act (.op (.gather errand.source action.options.select errand.items.toList)) more ∧
      ∀ items, (more items).Invokes := by
  refine ⟨_, rfl, fun items => ?_⟩
  have called : (Run.call (.callback action (errand.context items))).Invokes := Run.invokes_call _
  refine Program.Invokes.bind ?_ rest
  exact Run.invokes_ite ((Run.invokes_call _).bind fun _ => called) called

/-- What is left of an invocation when its callback has ended gathers nothing but by invoking, if that is so of
what comes behind. -/
theorem Errand.invokes_closing (errand : Errand) (action : Action) {β : Type}
    {next : Except Failure Unit → Program β} (rest : ∀ ending, (next ending).Invokes)
    (ending : Except Failure Unit) : (errand.closing action next ending).Invokes := by
  refine Program.Invokes.bind (Run.invokes_followUp _ _ _) fun outcome => ?_
  cases outcome <;> exact rest _

namespace Expr

open Run

theorem invokes_inside (source : String) (mode : Mode) :
    (∀ expression items, (runInner source mode expression items).Invokes) ∧
      ∀ elements items, (runElements source mode false elements items).Invokes :=
  inside_induction (invokes_pure ()) invokes_throw (fun first second => first.bind fun _ => second)
    (fun name items args => invokes_invoke source name items args mode)
    (fun rule args items _ => (invokes_route rule source args items).bind)

/-- **Runs gather by invoking**, and in no other way. -/
theorem invokes_run (source : String) (mode : Mode) (expression : Expr) (items : Supply) :
    (run source mode expression items).Invokes :=
  run_induction (invokes_inside source mode) id invokes_throw
    (fun first second => first.bind fun _ => second)
    (fun rule args items _ => (invokes_route rule source args items).bind)
    (fun body => (invokes_await .barrier).bind fun key => body.ensuring (invokes_release key))
    expression items

theorem invokes_runValue (source : String) (mode : Mode) (value : Value) (inside : Bool) (items : Supply) :
    (runValue source mode value inside items).Invokes := by
  unfold runValue
  split
  next => exact invokes_throw _
  next expression _ =>
    cases inside with
    | true => exact (invokes_inside source mode).1 expression items
    | false => exact invokes_run source mode expression items

end Expr

/-! ## Hosts -/

/-- A host under which callbacks, rules, views and loaders gather nothing but by invoking. -/
def Host.Invokes (host : Host) : Prop := ∀ call, (host call).Invokes

section Scripts

open Run

theorem Script.invokes_instruction (context : Context) (instruction : Instruction) :
    (Script.instruction context instruction).Invokes := by
  cases instruction with
  | fail => exact invokes_throw _
  | dropItems | dropArgs => exact invokes_pure ()
  | awaitGate gate => exact (invokes_await _).bind fun _ => invokes_pure ()
  | sleep span =>
    simp only [Script.instruction]
    split
    next => exact invokes_throw _
    next => exact (invokes_await _).bind fun _ => invokes_pure ()
  | run source expression own => exact Expr.invokes_runValue _ _ _ _ _
  | invoke source name own => exact invokes_invoke _ _ _ _ _
  | release hold =>
    have asked : (Run.op (.keyOf hold)).Invokes := invokes_op id
    refine asked.bind fun found => ?_
    cases found with
    | none => exact invokes_pure ()
    | some key => exact invokes_release key
  | mark | change | setExpandable | setGate | register | cancel => exact .act id fun _ => .done _

theorem Script.invokes_follow (context : Context) (script : List Instruction) :
    (Script.follow context script).Invokes := by
  induction script generalizing context with
  | nil => exact invokes_pure ()
  | cons next rest ih => exact (Script.invokes_instruction context next).bind fun _ => ih _

theorem Callback.invokes_call (callback : Callback) (name : String) (context : Context) :
    (callback.call name context).Invokes := by
  have announced : (Run.record (.called name context)).Invokes := invokes_op id
  have script := Script.invokes_follow context callback.script
  have entered : Run.Invokes (ExceptT.mk (Program.perform (.op .enter)) : Run Unit) :=
    .act id fun _ => .done _
  refine entered.bind fun _ => Invokes.ensuring ?_ (invokes_op id)
  unfold Callback.parts
  cases callback.style with
  | immediate => exact (announced.bind fun _ => script).bind fun _ => invokes_pure ()
  | deferred => exact (invokes_pure ()).bind fun _ => announced.bind fun _ => script
  | handedOver => exact announced.bind fun _ => script

theorem Hook.invokes_call (hook : Hook) (started ended : Event) : (hook.call started ended).Invokes := by
  have recorded : ∀ event, (Run.record event).Invokes := fun _ => invokes_op id
  refine (recorded started).bind fun _ => ?_
  split
  next => exact (invokes_await _).bind fun _ => (recorded ended).bind fun _ => invokes_failIf _
  next => exact invokes_failIf _

/-- **Scripted hosts gather by invoking**, whatever the scripts say. -/
theorem invokes_scriptedHost (views : String → View) : (scriptedHost views).Invokes := by
  intro call
  cases call with
  | callback action context => exact Callback.invokes_call _ _ _
  | test source rule args item =>
    have answered : (Run.op (.test source rule item)).Invokes := invokes_op id
    exact invokes_ite ((invokes_failIf _).bind fun _ => answered) answered
  | requestRender source items =>
    have recorded : (Run.record (.requested source items)).Invokes := invokes_op id
    exact recorded.bind fun _ => invokes_failIf _
  | render | load => exact Hook.invokes_call _ _ _

end Scripts
end ActionFlow

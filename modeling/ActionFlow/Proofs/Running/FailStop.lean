import ActionFlow.Proofs.Running.Invocation
import ActionFlow.Proofs.Running.Meaning
import ActionFlow.Proofs.Running.Scoped

/-!
# Runs stop where something fails

Two plays of a run are compared: one against an oracle, and one against an oracle that answers in the
same way, but for steps at which it fails. Up to the first such step both have the same log. What stands
behind it in the second one is not left to the run: if the step belongs to an invocation that is not yet
over, the invocation is followed up; if the run had taken the barrier, the key is given back; and that
is all, however deep in the expression the step was.

A run may fail in many ways, but there is one way in which two plays of a program part, so this is said
of programs first, in terms of what may stand behind a failing answer. Composed programs inherit it from
their parts.

## Main results

* `Parting`: where two plays part, and what stands behind that.
* `Aftermath`, `Windup`: what stands behind a failing answer, inside an expression and in a run on its
  own.
* `stops_where_it_fails`: the plays of runs part in this way.
-/

namespace ActionFlow

variable {σ α β : Type}

/-! ## Steps that fail -/

/-- Whether a run may fail at an effect: it calls something, or asks for the barrier. -/
def Effect.Fallible : Effect → Prop
  | call _ | await .barrier => True
  | _ => False

/-- Whether a second oracle answers as the first one does, but for steps at which it fails. -/
def Oracle.SameUnlessFailing (first second : Oracle σ) : Prop :=
  ∀ state effect, second.answer state effect = first.answer state effect ∨ effect.Fallible ∧
    ∃ failure, Answered.failure? ⟨effect, (second.answer state effect).1⟩ = some failure

/-- Whether a call belongs to that part of an invocation which is followed up. -/
def Call.Followed : Call → Prop
  | callback .. | requestRender .. => True
  | test .. | render _ | load .. => False

/-- What a failure comes to when more is done behind it: it stays, unless that fails, too. -/
inductive Failure.LeadsTo (failure : Failure) : Except Failure Unit → Failure → Prop where
  | stays : LeadsTo failure (.ok ()) failure
  | replaced (other : Failure) : LeadsTo failure (.error other) other

/-! ## What stands behind a failing answer -/

/-- What may stand behind a failing answer: it is said of the log before that answer, the answer, the log
behind it, and the failure that all ends with. -/
abbrev Wake : Type := List Answered → Answered → List Answered → Failure → Prop

/-- Nothing stands behind a failing answer, and the run fails just so. This is the case of rules, of the
barrier, and of views and loaders when an action is followed up. -/
structure Halts (before : List Answered) (failed : Answered) (after : List Answered)
    (final : Failure) : Prop where
  nothing : after = []
  fails : failed.failure? = some final
  elsewhere : ∀ call, failed.effect = .call call → ¬ call.Followed

theorem halts_call {call : Call} (unfollowed : ¬ call.Followed) (before : List Answered)
    (failure : Failure) : Halts before ⟨.call call, .error failure⟩ [] failure :=
  ⟨rfl, rfl, fun _ same => by cases same; exact unfollowed⟩

/-- What stands behind a failing answer inside an expression. -/
inductive Aftermath : Wake where
  | halts {before after : List Answered} {failed : Answered} {final : Failure}
      (halts : Halts before failed after final) : Aftermath before failed after final
  /-- Telling the view failed, or the callback. The very action that was looked up for it is followed
  up. -/
  | followsUp (earlier : List Answered) {opening tidy : List Answered} {failed : Answered}
      {source name : String} {given : List Item} {args : List String} {mode : Mode} {action : Action}
      {failure final : Failure} {last : Except Failure Unit}
      (calls : action.CalledOn source given args mode (opening ++ [failed]) (.error failure))
      (follows : FollowedUp action.options source name tidy last)
      (outcome : failure.LeadsTo last final) :
      Aftermath (earlier ++ ⟨.op (.resolve source name), some action⟩ :: opening) failed tidy final

/-- Whether the barrier is taken somewhere in a log, with a key. -/
def Takes (log : List Answered) (key : PauseId) : Prop := ⟨.await .barrier, .ok key⟩ ∈ log

/-- What stands behind a failing answer in a run on its own: if the barrier had been taken, then the key
is given back at the end. -/
inductive Windup : Wake where
  | free {before after : List Answered} {failed : Answered} {final : Failure}
      (untaken : ∀ key, ¬ Takes before key) (aftermath : Aftermath before failed after final) :
      Windup before failed after final
  | held {before tidy : List Answered} {failed : Answered} {failure final : Failure} {key : PauseId}
      {returned : Except Failure Unit} (taken : Takes before key)
      (aftermath : Aftermath before failed tidy failure)
      (outcome : failure.LeadsTo returned final) :
      Windup before failed (tidy ++ [⟨.release key, returned⟩]) final

theorem Aftermath.prepend {before after : List Answered} {failed : Answered} {final : Failure}
    (h : Aftermath before failed after final) (log : List Answered) :
    Aftermath (log ++ before) failed after final := by
  cases h with
  | halts halts => exact .halts ⟨halts.nothing, halts.fails, halts.elsewhere⟩
  | followsUp _ calls follows outcome =>
      rw [← List.append_assoc]
      exact .followsUp _ calls follows outcome

theorem Windup.prepend {before after : List Answered} {failed : Answered} {final : Failure}
    (h : Windup before failed after final) {log : List Answered} (untaken : ∀ key, ¬ Takes log key) :
    Windup (log ++ before) failed after final := by
  cases h with
  | free still aftermath =>
      exact .free (fun key taken => (List.mem_append.mp taken).elim (untaken key) (still key))
        (aftermath.prepend log)
  | held taken aftermath outcome =>
      exact .held (List.mem_append_right log taken) (aftermath.prepend log) outcome

/-! ## Plays that part -/

/-- How a second play parts from a first one: not at all, or at a step that fails in the second. Before
that step both have the same log. -/
inductive Parting (wake : Wake) (first second : Play σ (Except Failure α)) : Prop where
  | never (same : second = first)
  | parts {before rest after : List Answered} {effect : Effect} {reply reply' : effect.Reply}
      {final : Failure} (one : first.log = before ++ ⟨effect, reply⟩ :: rest)
      (other : second.log = before ++ ⟨effect, reply'⟩ :: after) (ends : second.result = .error final)
      (wakes : wake before ⟨effect, reply'⟩ after final)

theorem Parting.mono {wake more : Wake} {first second : Play σ (Except Failure α)}
    (h : Parting wake first second)
    (implies : ∀ {before failed after final}, (∀ entry ∈ before, entry ∈ second.log) →
      wake before failed after final → more before failed after final) :
    Parting more first second := by
  cases h with
  | never same => exact .never same
  | parts one other ends wakes =>
      exact .parts one other ends (implies (fun entry => other ▸ List.mem_append_left _) wakes)

/-- What comes first in both plays stands before everything else. -/
theorem Parting.behind {wake : Wake} {first second : Play σ (Except Failure α)} (entry : Answered)
    (h : Parting (fun before => wake (entry :: before)) first second) :
    Parting wake (first.behind entry) (second.behind entry) := by
  cases h with
  | never same => exact .never (congrArg (Play.behind · entry) same)
  | @parts before rest after effect reply reply' final one other ends wakes =>
      have one : (first.behind entry).log = (entry :: before) ++ ⟨effect, reply⟩ :: rest :=
        congrArg (entry :: ·) one
      have other : (second.behind entry).log = (entry :: before) ++ ⟨effect, reply'⟩ :: after :=
        congrArg (entry :: ·) other
      exact .parts one other ends wakes

/-- Plays that go on part where their first halves do, or else where the second halves do. What comes
behind the failing answer of a first half is whatever goes on with its failure. -/
theorem Parting.andThen {wake more : Wake} (later : Wake) {first second : Play σ (Except Failure α)}
    {next other : Except Failure α → σ → Play σ (Except Failure β)} (h : Parting wake first second)
    (rest : ∀ ending state, Parting later (next ending state) (other ending state))
    (lifts : ∀ {before failed after final}, later before failed after final →
      more (second.log ++ before) failed after final)
    (closes : ∀ {before failed after failure}, wake before failed after failure →
      ∃ final, (other (.error failure) second.state).result = .error final ∧
        more before failed (after ++ (other (.error failure) second.state).log) final) :
    Parting more (first.andThen next) (second.andThen other) := by
  cases h with
  | never same =>
      subst same
      cases rest second.result second.state with
      | never same => exact .never (by simp only [Play.andThen, same])
      | @parts before rest after effect reply reply' final one other' ends wakes =>
          have one : (second.andThen next).log = (second.log ++ before) ++ ⟨effect, reply⟩ :: rest := by
            simp only [Play.andThen, one, List.append_assoc]
          have other : (second.andThen other).log =
              (second.log ++ before) ++ ⟨effect, reply'⟩ :: after := by
            simp only [Play.andThen, other', List.append_assoc]
          exact .parts one other ends (lifts wakes)
  | @parts before rest after effect reply reply' failure one another ends wakes =>
      obtain ⟨final, result, wakes⟩ := closes wakes
      have one : (first.andThen next).log =
          before ++ ⟨effect, reply⟩ :: (rest ++ (next first.result first.state).log) := by
        simp only [Play.andThen, one, List.append_assoc, List.cons_append]
      have another : (second.andThen other).log =
          before ++ ⟨effect, reply'⟩ :: (after ++ (other (.error failure) second.state).log) := by
        simp only [Play.andThen, another, ends, List.append_assoc, List.cons_append]
      have result : (second.andThen other).result = .error final := by
        simp only [Play.andThen, ends, result]
      exact .parts one another result wakes

/-- Programs whose plays part in such a way, from whatever state. -/
def Program.PartsWith (first second : Oracle σ) (wake : Wake) (program : Program (Except Failure α)) :
    Prop :=
  ∀ state, Parting wake (program.play first state) (program.play second state)

/-- Runs whose plays part in such a way. -/
def Run.PartsWith (first second : Oracle σ) (wake : Wake) (run : Run α) : Prop :=
  Program.PartsWith first second wake run.run

section Alike

variable {first second : Oracle σ} {wake : Wake}

/-- The first effect: whoever fails there ends with that failure. -/
theorem Program.partsWith_act (alike : first.SameUnlessFailing second) {effect : Effect}
    {next : effect.Reply → Program (Except Failure α)}
    (fails : effect.Fallible → ∀ reply failure, Answered.failure? ⟨effect, reply⟩ = some failure →
      next reply = .done (.error failure) ∧ wake [] ⟨effect, reply⟩ [] failure)
    (rest : ∀ reply, (next reply).PartsWith first second
      fun before => wake (⟨effect, reply⟩ :: before)) :
    (act effect next).PartsWith first second wake := by
  intro state
  rw [play_act, play_act]
  rcases alike state effect with same | ⟨fallible, failure, failed⟩
  · rw [same]
    exact (rest _ _).behind _
  · obtain ⟨stops, wakes⟩ := fails fallible _ _ failed
    rw [stops]
    exact .parts rfl rfl rfl wakes

namespace Run

theorem partsWith_pure (result : α) : (pure result : Run α).PartsWith first second wake :=
  fun _ => .never rfl

theorem partsWith_throw (failure : Failure) : (throw failure : Run α).PartsWith first second wake :=
  fun _ => .never rfl

theorem partsWith_ite {condition : Prop} [Decidable condition] {yes no : Run α}
    (hyes : yes.PartsWith first second wake) (hno : no.PartsWith first second wake) :
    (if condition then yes else no).PartsWith first second wake := by
  split <;> assumption

/-- A run and what comes behind it, if what may stand behind a failing answer does not depend on the log
of the run. -/
theorem PartsWith.bind {run : Run α} {next : α → Run β} (h : run.PartsWith first second wake)
    (rest : ∀ result, (next result).PartsWith first second wake)
    (stable : ∀ {state before failed after final}, wake before failed after final →
      wake ((run.play second state).log ++ before) failed after final) :
    (run >>= next).PartsWith first second wake := by
  intro state
  have parting : Parting wake (run.play first state) (run.play second state) := h state
  show Parting wake ((run >>= next).play first state) ((run >>= next).play second state)
  rw [play_bind, play_bind]
  refine parting.andThen wake (fun ending state => ?_) stable fun wakes => ?_
  · cases ending with
    | ok result => exact rest result state
    | error => exact .never rfl
  · exact ⟨_, rfl, (List.append_nil _).symm ▸ wakes⟩

/-- A body and its cleanup, if the log of the cleanup may stand behind the failing answers of the body. -/
theorem PartsWith.ensuring {body : Run α} {cleanup : Run Unit} {bodyWake cleanupWake : Wake}
    (h : body.PartsWith first second bodyWake) (tidy : cleanup.PartsWith first second cleanupWake)
    (lifts : ∀ {state before failed after final}, cleanupWake before failed after final →
      wake ((body.play second state).log ++ before) failed after final)
    (closes : ∀ {before failed after failure}, bodyWake before failed after failure → ∀ {state final},
      failure.LeadsTo (cleanup.play second state).result final →
        wake before failed (after ++ (cleanup.play second state).log) final) :
    (body.ensuring cleanup).PartsWith first second wake := by
  intro state
  have parting : Parting bodyWake (body.play first state) (body.play second state) := h state
  show Parting wake ((body.ensuring cleanup).play first state)
    ((body.ensuring cleanup).play second state)
  rw [play_ensuring, play_ensuring]
  refine parting.andThen cleanupWake (fun ending state => ?_) lifts ?_
  · -- Nothing is done behind the cleanup any more.
    refine (tidy state).andThen (fun _ _ _ _ => False) (fun outcome state => ?_) False.elim
      fun wakes => ?_
    · cases outcome <;> exact .never rfl
    · exact ⟨_, rfl, (List.append_nil _).symm ▸ wakes⟩
  · intro before failed after failure wakes
    have closed := @closes before failed after failure wakes (body.play second state).state
    generalize cleanup.play second (body.play second state).state = last at closed
    obtain ⟨log, outcome, after'⟩ := last
    cases outcome with
    | ok =>
        have closed : wake before failed (after ++ log) failure := closed .stays
        rw [← List.append_nil log] at closed
        exact ⟨failure, rfl, closed⟩
    | error final =>
        have closed : wake before failed (after ++ log) final := closed (.replaced final)
        rw [← List.append_nil log] at closed
        exact ⟨final, rfl, closed⟩

/-- An operation does not fail, so plays do not part at one. -/
theorem partsWith_op_bind (alike : first.SameUnlessFailing second) {op : Op} {next : op.Reply → Run α}
    (rest : ∀ reply, (next reply).PartsWith first second fun before => wake (⟨.op op, reply⟩ :: before)) :
    (Run.op op >>= next).PartsWith first second wake :=
  Program.partsWith_act alike False.elim rest

theorem partsWith_op (alike : first.SameUnlessFailing second) (op : Op) :
    (Run.op op).PartsWith first second wake :=
  Program.partsWith_act alike False.elim fun _ _ => .never rfl

/-- A call, and what comes behind it unless the call fails. -/
theorem partsWith_call_bind (alike : first.SameUnlessFailing second) {called : Call}
    {next : called.Result → Run α}
    (fails : ∀ failure, wake [] ⟨.call called, .error failure⟩ [] failure)
    (rest : ∀ reply, (next reply).PartsWith first second
      fun before => wake (⟨.call called, .ok reply⟩ :: before)) :
    (Run.call called >>= next).PartsWith first second wake := by
  refine Program.partsWith_act alike (fun _ reply failure failed => ?_) fun reply => ?_
  · cases reply with
    | ok => cases failed
    | error => cases failed; exact ⟨rfl, fails failure⟩
  · cases reply with
    | ok reply => exact rest reply
    | error failure => exact fun _ => .never rfl

theorem partsWith_call (alike : first.SameUnlessFailing second) {called : Call}
    (fails : ∀ failure, wake [] ⟨.call called, .error failure⟩ [] failure) :
    (Run.call called).PartsWith first second wake := by
  rw [← bind_pure (Run.call called)]
  exact partsWith_call_bind alike fails fun reply => partsWith_pure reply

/-- What is done with the barrier, unless asking for it fails. -/
theorem partsWith_await_bind (alike : first.SameUnlessFailing second) {next : PauseId → Run α}
    (fails : ∀ failure, wake [] ⟨.await .barrier, .error failure⟩ [] failure)
    (rest : ∀ key, (next key).PartsWith first second
      fun before => wake (⟨.await .barrier, .ok key⟩ :: before)) :
    (Run.await .barrier >>= next).PartsWith first second wake := by
  refine Program.partsWith_act alike (fun _ reply failure failed => ?_) fun reply => ?_
  · cases reply with
    | ok => cases failed
    | error => cases failed; exact ⟨rfl, fails failure⟩
  · cases reply with
    | ok reply => exact rest reply
    | error failure => exact fun _ => .never rfl

/-- Giving a key back is not a step at which plays part. -/
theorem partsWith_release (alike : first.SameUnlessFailing second) (key : PauseId) :
    (Run.release key).PartsWith first second wake :=
  Program.partsWith_act alike False.elim fun _ _ => .never rfl

end Run
end Alike

/-! ## Runs of expressions part -/

/-- What stands behind a failing answer while an action is called: nothing, and the log up to the failure
is one of calling the action. -/
def Action.Breaks (action : Action) (source : String) (given : List Item) (args : List String)
    (mode : Mode) : Wake :=
  fun before failed after failure =>
    after = [] ∧ action.CalledOn source given args mode (before ++ [failed]) (.error failure)

section Parts

variable {first second : Oracle σ} (alike : first.SameUnlessFailing second) (source : String)

include alike

theorem Action.partsWith_callOn (action : Action) (given : List Item) (args : List String) (mode : Mode) :
    (action.callOn source given args mode).PartsWith first second
      (action.Breaks source given args mode) := by
  by_cases consumes : action.options.select = .select
  · rw [callOn_of_consumes source given args mode consumes]
    refine Run.partsWith_op_bind alike fun items => Run.partsWith_call_bind alike ?_ fun _ =>
      Run.partsWith_call alike ?_
    · exact fun failure => ⟨rfl, .refused consumes items failure⟩
    · exact fun failure => ⟨rfl, .consuming consumes items _⟩
  · rw [callOn_of_spares source given args mode consumes]
    exact Run.partsWith_op_bind alike fun items => Run.partsWith_call alike fun failure =>
      ⟨rfl, .sparing consumes items _⟩

theorem partsWith_followUp (options : Options) (name : String) :
    (Action.followUp options source name).PartsWith first second Halts := by
  refine Run.partsWith_ite ?_ (Run.partsWith_ite ?_ (Run.partsWith_pure _))
  · exact Run.partsWith_op_bind alike fun _ => Run.partsWith_op_bind alike fun _ =>
      Run.partsWith_call alike (halts_call id _)
  · exact Run.partsWith_op_bind alike fun _ => Run.partsWith_call alike (halts_call id _)

theorem partsWith_invoke (name : String) (items : Supply) (args : List String) (mode : Mode) :
    (invoke source name items args mode).PartsWith first second Aftermath := by
  refine Run.partsWith_op_bind alike fun reply => ?_
  cases reply with
  | none => exact Run.partsWith_op alike _
  | some action =>
      refine (action.partsWith_callOn alike source items.toList args mode).ensuring
        (partsWith_followUp alike source action.options name) (fun halts => ?_) ?_
      · exact .halts ⟨halts.nothing, halts.fails, halts.elsewhere⟩
      · rintro before failed after failure ⟨rfl, calls⟩ state final outcome
        exact .followsUp [] calls (followedUp_followUp second action.options source name state) outcome

/-- Asking a rule is a step of its own. -/
theorem partsWith_test (rule : Rule) (args : List String) (item : Item) :
    (Run.test source rule args item).PartsWith first second Aftermath :=
  Run.partsWith_call alike fun failure => .halts (halts_call id [] failure)

theorem partsWith_split (rule : Rule) (args : List String) (items : List Item) :
    (rule.split source args items).PartsWith first second Aftermath := by
  induction items with
  | nil => exact Run.partsWith_pure _
  | cons item rest ih =>
      refine (partsWith_test alike source rule args item).bind (fun answer => ?_) (·.prepend _)
      exact ih.bind (fun parts => Run.partsWith_ite (Run.partsWith_pure _) (Run.partsWith_pure _))
        (·.prepend _)

theorem partsWith_members (items : Supply) :
    items.members.PartsWith first second Aftermath := by
  cases items with
  | many items => exact Run.partsWith_pure _
  | single item =>
      refine Run.partsWith_op_bind alike fun parts => ?_
      cases parts with
      | none => exact Run.partsWith_throw _
      | some count => exact Run.partsWith_pure _

theorem partsWith_route (rule : Rule) (args : List String) (items : Supply) :
    (rule.route source args items).PartsWith first second Aftermath :=
  (partsWith_members alike items).bind (fun members =>
    (partsWith_split alike source rule args members).bind (fun _ =>
      Run.partsWith_op_bind alike fun _ => Run.partsWith_pure _) (·.prepend _)) (·.prepend _)

/-- What a bracket adds: the key goes back, behind whatever stood behind the failing answer. -/
theorem Run.PartsWith.bracket {body : Run Unit} (h : body.PartsWith first second Aftermath) :
    (do
      let key ← Run.await .barrier
      Run.ensuring body (Run.release key) : Run Unit).PartsWith first second Windup := by
  refine Run.partsWith_await_bind alike (fun failure => ?_) fun key => ?_
  · exact .free (fun _ => List.not_mem_nil) (.halts ⟨rfl, rfl, nofun⟩)
  · have returning : (Run.release key).PartsWith first second fun _ _ _ _ => False :=
      Run.partsWith_release alike key
    refine h.ensuring returning False.elim ?_
    intro before failed after failure wakes state final outcome
    have taken : Takes (⟨.await .barrier, .ok key⟩ :: before) key := List.mem_cons_self
    exact .held taken (wakes.prepend [_]) outcome

end Parts

/-! ### Runs that leave the barrier alone -/

theorem Program.Idle.of_mem_log {program : Program α} (h : program.Idle) {oracle : Oracle σ} {state : σ}
    {entry : Answered} (logged : entry ∈ (program.play oracle state).log) : entry.effect.Idle := by
  induction program generalizing state with
  | done => cases logged
  | act effect next ih =>
      rcases List.mem_cons.mp logged with rfl | logged
      · exact h.1
      · exact ih _ (h.2 _) logged

theorem Run.Idle.untaken {run : Run α} (h : run.Idle) (oracle : Oracle σ) (state : σ) (key : PauseId) :
    ¬ Takes (run.play oracle state).log key :=
  fun taken => Program.Idle.of_mem_log h taken

/-- What leaves the barrier alone parts in the same way inside an expression and on its own. -/
theorem Run.PartsWith.windup {first second : Oracle σ} {run : Run α}
    (h : run.PartsWith first second Aftermath) (idle : run.Idle) : run.PartsWith first second Windup :=
  fun state => (h state).mono fun inside aftermath =>
    .free (fun key taken => idle.untaken second state key (inside _ taken)) aftermath

/-- Before what may take the barrier, there may be something that leaves it alone. -/
theorem Run.PartsWith.idle_bind {first second : Oracle σ} {run : Run α} {next : α → Run β}
    (h : run.PartsWith first second Aftermath) (idle : run.Idle)
    (rest : ∀ result, (next result).PartsWith first second Windup) :
    (run >>= next).PartsWith first second Windup :=
  (h.windup idle).bind rest fun wakes => wakes.prepend (idle.untaken second _)

namespace Expr

variable {first second : Oracle σ} (alike : first.SameUnlessFailing second) (source : String)
  (mode : Mode)

include alike

/-- How plays part inside an expression. -/
theorem partsWith_inside :
    (∀ expression items, (runInner source mode expression items).PartsWith first second Aftermath) ∧
      ∀ elements items,
        (runElements source mode false elements items).PartsWith first second Aftermath :=
  inside_induction (Run.partsWith_pure _) Run.partsWith_throw
    (fun before rest => before.bind (fun _ => rest) (·.prepend _))
    (fun name items args => partsWith_invoke alike source name items args mode)
    (fun rule args items _ rest => (partsWith_route alike source rule args items).bind rest (·.prepend _))

/-- How plays of the outermost sequence part. -/
theorem partsWith_runElements (elements : List Expr) (items : Supply) :
    (runElements source mode true elements items).PartsWith first second Windup := by
  obtain ⟨inner, ahead⟩ := partsWith_inside alike source mode
  obtain ⟨idle, spared⟩ := idle_inside source mode
  refine @outermost_induction source mode (fun run => run.PartsWith first second Aftermath ∧ run.Idle)
    (·.PartsWith first second Windup)
    ⟨fun _ _ => ⟨inner _ _, idle _ _⟩, fun _ _ => ⟨ahead _ _, spared _ _⟩⟩ ?_ Run.partsWith_throw ?_ ?_ ?_
    elements items
  · exact fun ⟨parts, idle⟩ => parts.windup idle
  · exact fun ⟨parts, idle⟩ rest => parts.idle_bind idle fun _ => rest
  · intro rule args items _ rest
    exact (partsWith_route alike source rule args items).idle_bind (idle_route ..) rest
  · exact fun ⟨parts, _⟩ => Run.PartsWith.bracket alike parts

/-- **Runs stop where something fails.** Let one oracle answer as another does, but for calls and requests
for the barrier which it answers with a failure, whichever and however many. Then running an expression
leaves the same log and comes to the same end against both, or the logs agree up to the first answer that
is a failure in the second one only. Behind that answer there is nothing in the second log but what the
failed invocation is followed up with, if there is one, and then the return of the key, if the barrier had
been taken; and the run ends with that very failure, unless one of these fails, too. -/
theorem stops_where_it_fails (expression : Expr) (items : Supply) (state : σ) :
    Parting Windup ((run source mode expression items).play first state)
        ((run source mode expression items).play second state) ∧
      Parting Aftermath ((runInner source mode expression items).play first state)
        ((runInner source mode expression items).play second state) := by
  obtain ⟨inner, ahead⟩ := partsWith_inside alike source mode
  refine ⟨?_, inner expression items state⟩
  cases passes : expression.check with
  | error failure =>
      rw [run_of_check_error _ _ _ passes]
      exact .never rfl
  | ok =>
      cases expression with
      | leaf l =>
          have invoking := partsWith_invoke alike source l.name items l.args mode
          exact invoking.windup (idle_invoke _ _ _ _ _) state
      | seq elements =>
          rw [run_seq _ _ _ passes]
          exact partsWith_runElements alike source mode elements items state

end Expr

/-- An oracle that knows an action by every name, and otherwise answers as another does. -/
def Oracle.knowing (action : Action) (oracle : Oracle σ) : Oracle σ where
  answer state
    | .op (.resolve ..) => (some action, (oracle.answer state (.op (.resolve "" ""))).2)
    | effect => oracle.answer state effect

/-- An oracle under which callbacks fail, and which otherwise answers as another does. -/
def Oracle.failingCallbacks (failure : Failure) (oracle : Oracle σ) : Oracle σ where
  answer state
    | .call (.callback ..) => (.error failure, state)
    | effect => oracle.answer state effect

theorem Oracle.sameUnlessFailing_failingCallbacks (failure : Failure) (oracle : Oracle σ) :
    oracle.SameUnlessFailing (oracle.failingCallbacks failure) := by
  intro state effect
  cases effect with
  | call call =>
      cases call with
      | callback => exact .inr ⟨trivial, failure, rfl⟩
      | test | requestRender | render | load => exact .inl rfl
  | op | await | release | setGate | cancel => exact .inl rfl

/-- A callback that fails behind a marker, inside a condition, before another action. -/
theorem stops_at_failing_callback :
    let opening := Expr.leaf { name := "open" }
    let elements :=
      [Expr.leaf { name := "wait" }, .leaf { name := "root?" }, .seq [opening], opening, opening]
    let first := Oracle.agreeable.knowing { name := "open", options := { render := true } }
    let second := first.failingCallbacks .lacking
    first.SameUnlessFailing second ∧
      (((Expr.seq elements).run "files" .normal (.many [.node "a"])).play second 0).result =
        .error .lacking ∧
      Parting Windup (((Expr.seq elements).run "files" .normal (.many [.node "a"])).play first 0)
        (((Expr.seq elements).run "files" .normal (.many [.node "a"])).play second 0) := by
  intro opening elements first second
  have alike := Oracle.sameUnlessFailing_failingCallbacks .lacking first
  refine ⟨alike, ?_, (Expr.stops_where_it_fails alike "files" .normal (.seq elements) _ 0).1⟩
  have inside : Expr.runInner "files" .normal (.seq [opening]) =
      fun items => invoke "files" "open" items [] .normal := by
    funext items
    rw [Expr.runInner_seq, Expr.runElements_cons_action _ _ _ _ (by decide) rfl, Expr.runElements_nil,
      bind_pure, Expr.runInner_leaf]
  have condition : Rule.ofName? "root?" = some .root := rfl
  rw [Expr.run_seq _ _ _ rfl, Expr.runElements_cons_outermost_wait _ _ _ rfl,
    Expr.runElements_cons_rule _ _ _ _ condition, inside]
  rfl

end ActionFlow

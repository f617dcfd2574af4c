import ActionFlow.Proofs.Running.Invocation
import ActionFlow.Proofs.Running.Meaning
import ActionFlow.Proofs.World.Merging

/-!
# Invocations from their beginning to their end

An invocation may take long: its callback and what follows it may wait, may be cancelled while they wait,
and may invoke other actions themselves, and all the time other tasks have their turns. An account sorts
out of a course of moves what one task does for one program. It has the program's own effects with their
answers, and the answer to a call is what everything that the host did for the call came to.

The accounts of an invocation are the logs of invocations. So the callback is called once, unless the view
refuses the items first; what follows the callback begins when that has settled, however it ended; and the
invocation ends when what follows has settled.

## Main results

* `Program.Yields.begins`: whatever a program has done so far is the beginning of what it does against some
  oracle.
* `World.Account`, `World.Path.account`: in every course of moves a program has an account.
* `World.invocation_is_followed_up`: the accounts of invocations.
-/

namespace ActionFlow

/-! ## What a program has done so far -/

namespace Program

variable {α : Type}

/-- A program has performed the effects of a log and had them answered, and something is left of it. -/
inductive Yields : Program α → List Answered → Program α → Prop where
  | nothing {program : Program α} : Yields program [] program
  | entry {effect : Effect} {next : effect.Reply → Program α} {log : List Answered} {left : Program α}
      (reply : effect.Reply) (further : Yields (next reply) log left) :
      Yields (.act effect next) (⟨effect, reply⟩ :: log) left

end Program

open Classical in
/-- An oracle that answers as a log has it, as long as it is asked what the log says. -/
noncomputable def Oracle.recalling : Oracle (List Answered) where
  answer
    | [], effect => ((Oracle.agreeable.answer 0 effect).1, [])
    | entry :: rest, effect =>
        if same : entry.effect = effect then (same ▸ entry.reply, rest)
        else ((Oracle.agreeable.answer 0 effect).1, rest)

theorem Oracle.recalling_cons (effect : Effect) (reply : effect.Reply) (log : List Answered) :
    Oracle.recalling.answer (⟨effect, reply⟩ :: log) effect = (reply, log) := by
  simp only [recalling, ↓reduceDIte]

/-- **What a program has done so far is the beginning of a play.** Against the oracle that recalls it, the
program does the same, and then what is left of it. -/
theorem Program.Yields.begins {α : Type} {program left : Program α} {log : List Answered}
    (yields : Yields program log left) :
    (program.play Oracle.recalling log).log = log ++ (left.play Oracle.recalling []).log ∧
      (program.play Oracle.recalling log).result = (left.play Oracle.recalling []).result := by
  induction yields with
  | nothing => exact ⟨rfl, rfl⟩
  | @entry effect next log left reply further ih =>
    rw [Program.play_act, Oracle.recalling_cons]
    exact ⟨congrArg (_ :: ·) ih.1, ih.2⟩

namespace World

/-! ## Accounts -/

/-- The rest of a course, and the world at its beginning. -/
abbrev Onwards : Type := World × List (List Deed × World)

/-- What a task does for a program in a course of moves, with `more` to do for the result: the program's
effects with their answers, what is left of the program, and the rest of the course, if the program has
ended.

An operation is answered by the explorer as it is by then, and changes that as the operation does. A call
is answered by what the host does for it: that has an account of its own, and the next effect comes behind
the end of that. Whatever else happens meanwhile, the task does nothing but ask for the pause that it waits
for. -/
inductive Account (hosts : Host → Prop) (t : TaskId) :
    {α : Type} → (α → Job) → Program α → World → List (List Deed × World) →
      List Answered → Program α → Onwards → Prop where
  | ended {α : Type} {more : α → Job} {result : α} {world : World} {path : List (List Deed × World)}
      (goesOn : world.current = some (t, more result)) :
      Account hosts t more (.done result) world path [] (.done result) (world, path)
  | soFar {α : Type} {more : α → Job} {effect : Effect} {next : effect.Reply → Program α} {world : World}
      (faces : world.Faces t ((Program.act effect next).bind more)) :
      Account hosts t more (.act effect next) world [] [] (.act effect next) (world, [])
  | waits {α : Type} {more : α → Job} {effect : Effect} {next : effect.Reply → Program α}
      {world after : World} {deeds : List Deed} {path : List (List Deed × World)} {log : List Answered}
      {left : Program α} {onwards : Onwards}
      (faces : world.Faces t ((Program.act effect next).bind more))
      (asked : ∀ own, .did t own ∈ deeds → ∃ pause, own = .await pause)
      (further : Account hosts t more (.act effect next) after path log left onwards) :
      Account hosts t more (.act effect next) world ((deeds, after) :: path) log left onwards
  | operated {α : Type} {more : α → Job} {op : Op} {next : op.Reply → Program α} {world after : World}
      {path : List (List Deed × World)} {log : List Answered} {left : Program α} {onwards : Onwards}
      (changed : after.explorer = (world.explorer.perform (some t) op).1)
      (further : Account hosts t more (next (world.explorer.perform (some t) op).2) after path log left
        onwards) :
      Account hosts t more (.act (.op op) next) world (([.did t (.op op)], after) :: path)
        (⟨.op op, (world.explorer.perform (some t) op).2⟩ :: log) left onwards
  | answered {α : Type} {more : α → Job} {effect : Effect} {next : effect.Reply → Program α}
      {world after : World} {deeds : List Deed} {path : List (List Deed × World)} {log : List Answered}
      {left : Program α} {onwards : Onwards} (noOp : ∀ op, effect ≠ .op op)
      (noCall : ∀ call, effect ≠ .call call) (own : ∀ own, .did t own ∈ deeds → own = effect)
      (reply : effect.Reply)
      (further : Account hosts t more (next reply) after path log left onwards) :
      Account hosts t more (.act effect next) world ((deeds, after) :: path) (⟨effect, reply⟩ :: log)
        left onwards
  | called {α : Type} {more : α → Job} {call : Call} {next : Except Failure call.Result → Program α}
      {world after settled : World} {path later : List (List Deed × World)} {inner log : List Answered}
      {left : Program α} {onwards : Onwards} {host : Host} (allowed : hosts host)
      (reply : Except Failure call.Result)
      (inside : Account hosts t (fun result => (next result).bind more) (host call).run after path inner
        (.done reply) (settled, later))
      (further : Account hosts t more (next reply) settled later log left onwards) :
      Account hosts t more (.act (.call call) next) world (([.did t (.call call)], after) :: path)
        (⟨.call call, reply⟩ :: log) left onwards
  | calling {α : Type} {more : α → Job} {call : Call} {next : Except Failure call.Result → Program α}
      {world after : World} {path : List (List Deed × World)} {inner : List Answered} {effect : Effect}
      {others : effect.Reply → Program (Except Failure call.Result)} {onwards : Onwards} {host : Host}
      (allowed : hosts host)
      (inside : Account hosts t (fun result => (next result).bind more) (host call).run after path inner
        (.act effect others) onwards) :
      Account hosts t more (.act (.call call) next) world (([.did t (.call call)], after) :: path)
        [] (.act (.call call) next) onwards

namespace Account

variable {hosts : Host → Prop} {t : TaskId} {α : Type} {more : α → Job} {program left : Program α}
  {world : World} {path : List (List Deed × World)} {log : List Answered} {onwards : Onwards}

/-- The log of an account is what the program has done so far. -/
theorem yields (account : Account hosts t more program world path log left onwards) :
    program.Yields log left := by
  induction account with
  | ended | soFar | calling => exact .nothing
  | waits faces asked further ih => exact ih
  | operated changed further ih => exact .entry _ ih
  | answered noOp noCall own reply further ih => exact .entry _ ih
  | called allowed reply inside further _ ih => exact .entry _ ih

/-- Where an account stops: the program has ended, and the task goes on with the result; or the course has
ended. -/
def Stops (t : TaskId) {α : Type} (more : α → Job) (onwards : Onwards) : Program α → Prop
  | .done result => onwards.1.current = some (t, more result)
  | .act .. => onwards.2 = []

/-- The rest of the course comes behind what is accounted for. -/
theorem leads (account : Account hosts t more program world path log left onwards) :
    (∃ first, path = first ++ onwards.2 ∧ onwards.1 = final world first) ∧ Stops t more onwards left := by
  induction account with
  | ended goesOn => exact ⟨⟨[], rfl, rfl⟩, goesOn⟩
  | soFar => exact ⟨⟨[], rfl, rfl⟩, rfl⟩
  | waits _ _ _ ih | operated _ _ ih | answered _ _ _ _ _ ih =>
    obtain ⟨⟨first, same, ends⟩, stops⟩ := ih
    exact ⟨⟨_ :: first, congrArg (_ :: ·) same, ends⟩, stops⟩
  | called _ _ _ _ inner ih =>
    obtain ⟨⟨first, rfl, rfl⟩, -⟩ := inner
    obtain ⟨⟨second, rfl, ends⟩, stops⟩ := ih
    refine ⟨⟨_ :: (first ++ second), congrArg (_ :: ·) (List.append_assoc ..).symm, ?_⟩, stops⟩
    exact ends.trans (final_append ..).symm
  | calling _ _ ih =>
    obtain ⟨⟨first, same, ends⟩, stops⟩ := ih
    exact ⟨⟨_ :: first, congrArg (_ :: ·) same, ends⟩, stops⟩

end Account

/-! ## Every program has an account -/

variable {hosts : Host → Prop} {jobs : Job → Prop} {world after : World} {trace deeds : List Deed}
  {t : TaskId} {path : List (List Deed × World)}

/-- A task has a program to do: it faces the first effect, or goes on with the result. -/
def Attends (world : World) (t : TaskId) {α : Type} (more : α → Job) : Program α → Prop
  | .done result => world.current = some (t, more result)
  | .act effect next => world.Faces t ((Program.act effect next).bind more)

theorem attends_of_current {α : Type} {more : α → Job} {program : Program α}
    (current : world.current = some (t, program.bind more)) : world.Attends t more program := by
  cases program with
  | done result => exact current
  | act effect next => exact .turn current

/-- Only for a pause can a task face an effect that is not its turn. -/
theorem Faces.current {job : Job} (faces : world.Faces t job) (awaits : ∀ pause more, job ≠ .act (.await pause) more) :
    world.current = some (t, job) := by
  cases faces with
  | turn current => exact current
  | pause => exact absurd rfl (awaits _ _)

/-- **Every program has an account.** Whatever course the world takes, what the task does in it for the
program can be told as one effect after the other, up to the end of the program or of the course. -/
theorem Path.account {α : Type} {more : α → Job} {program : Program α}
    (reached : Reached hosts jobs world trace) (course : Path hosts jobs world path)
    (attends : world.Attends t more program) :
    ∃ log left onwards, Account hosts t more program world path log left onwards := by
  -- by the length of the course, for what a call leads to is accounted for first, and then the rest
  induction length : path.length using Nat.strongRecOn
    generalizing α more program world trace path with
  | _ n ih =>
  cases program with
  | done result => exact ⟨_, _, _, .ended attends⟩
  | act effect next =>
  cases course with
  | nil => exact ⟨_, _, _, .soFar attends⟩
  | @cons _ after deeds path moves rest =>
  have shorter : path.length < n := length ▸ Nat.lt_succ_self _
  have onward : ∀ {β : Type} {more' : β → Job} {program' : Program β}, after.Attends t more' program' →
      ∃ log left onwards, Account hosts t more' program' after path log left onwards := fun attends =>
    ih _ shorter (reached.move moves) rest attends rfl
  have faces : world.Faces t ((Program.act effect next).bind more) := attends
  have waiting : after.Faces t ((Program.act effect next).bind more) →
      (∀ own, .did t own ∈ deeds → ∃ pause, own = .await pause) →
      ∃ log left onwards, Account hosts t more (.act effect next) world ((deeds, after) :: path) log left
        onwards := fun stays asked => by
    have attends : after.Attends t more (.act effect next) := stays
    obtain ⟨log, left, onwards, account⟩ := onward attends
    exact ⟨log, left, onwards, .waits faces asked account⟩
  by_cases awaits : ∃ pause, effect = .await pause
  · obtain ⟨pause, rfl⟩ := awaits
    cases Faces.move faces reached.sound moves with
    | waits stays asked => exact waiting stays asked
    | answered reply _ goesOn =>
      obtain ⟨log, left, onwards, account⟩ := onward (attends_of_current goesOn)
      refine ⟨_, left, onwards, .answered (fun _ same => by cases same) (fun _ same => by cases same)
        (fun own did => ?_) reply account⟩
      obtain ⟨_, same⟩ := faces.own reached.sound moves did
      cases same
      rfl
  · have current := faces.current fun pause _ same => by
      cases same
      exact awaits ⟨pause, rfl⟩
    rcases moves.of_current current with ⟨rfl, stays⟩ | ⟨host, allowed, rfl, rfl⟩
    · exact waiting (.turn stays) nofun
    · have own : ∀ own, .did t own ∈ world.deeds → own = effect := fun own did => by
        obtain ⟨_, same⟩ := faces.own reached.sound moves did
        cases same
        rfl
      cases effect with
      | op op =>
        have deeds : world.deeds = [.did t (.op op)] := by
          simp only [World.deeds, current, Program.bind]
        have goesOn : (world.perform host t (.op op) fun reply => (next reply).bind more).current =
            some (t, (next _).bind more) := rfl
        obtain ⟨log, left, onwards, account⟩ := onward (attends_of_current goesOn)
        rw [deeds]
        exact ⟨_, left, onwards, .operated rfl account⟩
      | call call =>
        have deeds : world.deeds = [.did t (.call call)] := by
          simp only [World.deeds, current, Program.bind]
        have inside : (world.perform host t (.call call) fun reply => (next reply).bind more).current =
            some (t, (host call).run.bind fun result => (next result).bind more) := rfl
        obtain ⟨inner, left, ⟨settled, later⟩, account⟩ := onward (attends_of_current inside)
        obtain ⟨⟨first, same, ends⟩, stops⟩ := account.leads
        rw [deeds]
        cases left with
        | act => exact ⟨_, _, _, .calling allowed account⟩
        | done reply =>
          cases same
          cases ends
          obtain ⟨before, behind⟩ := Path.split rest
          obtain ⟨log, left, onwards, further⟩ := ih later.length
            (Nat.lt_of_le_of_lt (by simp) shorter) ((reached.move moves).along before) behind
            (attends_of_current stops) rfl
          exact ⟨_, left, onwards, .called allowed reply account further⟩
      | await pause => exact absurd ⟨pause, rfl⟩ awaits
      | release | setGate | cancel =>
        have attends : (world.perform host t _ fun reply => (next reply).bind more).Attends t more (next _) :=
          attends_of_current rfl
        obtain ⟨log, left, onwards, account⟩ := onward attends
        exact ⟨_, left, onwards, .answered (fun _ same => by cases same) (fun _ same => by cases same) own _
          account⟩

/-! ## The accounts of invocations -/

variable {source name : String} {items : Supply} {args : List String} {mode : Mode}
  {next : Except Failure Unit → Job}

/-- The log of an invocation's account is that of an invocation, if the invocation has ended. -/
theorem Account.invoked {outcome : Except Failure Unit} {log : List Answered} {onwards : Onwards}
    (account : Account hosts t next (invoke source name items args mode).run world path log (.done outcome)
      onwards) :
    Invoked source name items.toList args mode log outcome := by
  have invoked := invoked_invoke Oracle.recalling source name items args mode log
  obtain ⟨told, came⟩ := account.yields.begins
  unfold Run.play at invoked
  rw [told, came] at invoked
  simpa only [Program.play, List.append_nil] using invoked

/-- Otherwise it is the beginning of one, in which the effect comes next that the task faces. -/
theorem Account.invoking {effect : Effect} {rest : effect.Reply → Program (Except Failure Unit)}
    {log : List Answered} {onwards : Onwards}
    (account : Account hosts t next (invoke source name items args mode).run world path log
      (.act effect rest) onwards) :
    ∃ reply further outcome,
      Invoked source name items.toList args mode (log ++ ⟨effect, reply⟩ :: further) outcome := by
  have invoked := invoked_invoke Oracle.recalling source name items args mode log
  obtain ⟨told, -⟩ := account.yields.begins
  unfold Run.play at invoked
  rw [told] at invoked
  exact ⟨_, _, _, invoked⟩

/-- A name that means nothing is noted, and the invocation has ended. -/
theorem steps_of_unknown (host : Host)
    (current : world.current = some (t, (invoke source name items args mode).run.bind next))
    (unknown : (world.explorer.sources source).registry.resolve world.explorer.shared name = none) :
    let now := steps host 2 (world, [])
    now.2 = [.did t (.op (.resolve source name)), .did t (.op (.record (.noted (.unknownAction name))))] ∧
      now.1.current = some (t, next (.ok ())) ∧ now.1.scheduler = world.scheduler ∧
      now.1.explorer = world.explorer.record (some t) (.noted (.unknownAction name)) := by
  have looked := steps_op host 1 [] current
  simp only [perform, Explorer.perform, unknown] at looked
  rw [looked]
  exact ⟨rfl, rfl, rfl, rfl⟩

/-- **An invocation and what follows it.** In every course of moves, whatever hosts and other tasks do, an
invocation has an account. If it has ended by then, its log is that of an invocation, and the task goes on
with the outcome; otherwise the log is the beginning of one. A name that neither table has makes no
difference but for an entry in the journal. -/
theorem invocation_is_followed_up (reached : Reached hosts jobs world trace)
    (course : Path hosts jobs world path)
    (current : world.current = some (t, (invoke source name items args mode).run.bind next)) :
    let program := (invoke source name items args mode).run
    ((∃ log outcome onwards, Account hosts t next program world path log (.done outcome) onwards ∧
        Invoked source name items.toList args mode log outcome ∧
        onwards.1.current = some (t, next outcome)) ∨
      ∃ log effect rest onwards, Account hosts t next program world path log (.act effect rest) onwards ∧
        onwards.2 = [] ∧ ∃ reply further outcome,
          Invoked source name items.toList args mode (log ++ ⟨effect, reply⟩ :: further) outcome) ∧
    ((world.explorer.sources source).registry.resolve world.explorer.shared name = none → ∀ host,
      let now := steps host 2 (world, [])
      now.2 = [.did t (.op (.resolve source name)), .did t (.op (.record (.noted (.unknownAction name))))] ∧
        now.1.current = some (t, next (.ok ())) ∧ now.1.scheduler = world.scheduler ∧
        now.1.explorer = world.explorer.record (some t) (.noted (.unknownAction name))) := by
  intro program
  refine ⟨?_, fun unknown host => steps_of_unknown host current unknown⟩
  obtain ⟨log, left, onwards, account⟩ := course.account reached (attends_of_current current)
  obtain ⟨-, stops⟩ := account.leads
  cases left with
  | done outcome => exact .inl ⟨log, outcome, onwards, account, account.invoked, stops⟩
  | act effect rest => exact .inr ⟨log, effect, rest, onwards, account, stops, account.invoking⟩

/-- An action whose callback fails, after which the source is loaded again. -/
def refreshing : Action where
  name := "refresh"
  options := { reload := true }
  callback := { script := [.fail .value "broken"] }

/-- A task is about to invoke that action. -/
def refresher : World :=
  let source : Source := { registry := { actions := [refreshing] }, root := .node "root" }
  (({ explorer := { sources := fun _ => source } } : World).spawn "first"
    (invoke "files" "refresh" (.many []) [] .normal).run).1

/-- The source is loaded from its root although the callback has failed, and the failure is how the
invocation and its task end. -/
theorem invocation_is_followed_up_of_failing :
    let host := scriptedHost fun _ => {}
    let world := (steps host 1 (refresher, [])).1
    let path := course host 30 world
    let program := (invoke "files" "refresh" (.many []) [] .normal).run
    Reached (fun _ => True) (fun _ => True) world [] ∧ Path (fun _ => True) (fun _ => True) world path ∧
      world.current = some (0, program.bind .done) ∧
      (∃ log left onwards further outcome,
        Account (fun _ => True) 0 .done program world path log left onwards ∧
          Invoked "files" "refresh" [] [] .normal (log ++ further) outcome) ∧
      (final world path).scheduler.ending? 0 = some (.error (.raised .value "broken")) ∧
      (final world path).explorer.journal.head? = some (some 0, .loading "files" (.node "root")) := by
  intro host world path program
  have idle : Reached (fun _ => True) (fun _ => True) refresher [] :=
    Reached.outside (.begin _ (fun _ => rfl) none .zero fun _ => false) (.spawn "first" trivial)
  have reached : Reached (fun _ => True) (fun _ => True) world [] := idle.steps trivial 1
  have takes : Path (fun _ => True) (fun _ => True) world path := path_course trivial 30 _
  have current : world.current = some (0, program.bind .done) :=
    congrArg (fun job => some (0, job)) (Program.bind_done _).symm
  refine ⟨reached, takes, current, ?_, rfl, rfl⟩
  obtain ⟨⟨log, outcome, onwards, account, invoked, -⟩ |
    ⟨log, effect, rest, onwards, account, -, reply, further, outcome, invoked⟩, -⟩ :=
    invocation_is_followed_up reached takes current
  · exact ⟨log, _, onwards, [], outcome, account, (List.append_nil log).symm ▸ invoked⟩
  · exact ⟨log, _, onwards, _, outcome, account, invoked⟩

end World
end ActionFlow

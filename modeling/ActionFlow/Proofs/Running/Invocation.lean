import ActionFlow.Proofs.Running.Play
import ActionFlow.Running

/-!
# The log of an invocation

An invocation looks a name up, gathers items, calls the callback of the action that it found, and then
follows that up as the action's options say. Here its log is described by what was answered, whoever
answered: which calls there are, in which order, and how the end of the whole comes of the ends of its
parts. Whatever is said of invocations in longer logs refers to these descriptions.

## Main results

* `Action.CalledOn`, `FollowedUp`, `Invoked`: the logs of the two parts of an invocation, and of the
  whole.
* `invoked_invoke`: invocations have these logs, against every oracle.
-/

namespace ActionFlow

variable {σ : Type}

/-! ## Descriptions -/

/-- The log of calling an action on given items, and the end of that. The view is told of the items
exactly if they consumed the selection, and the callback is called unless that fails. -/
inductive Action.CalledOn (action : Action) (source : String) (given : List Item)
    (args : List String) (mode : Mode) : List Answered → Except Failure Unit → Prop where
  | refused (consumes : action.options.select = .select) (items : List Item) (failure : Failure) :
      CalledOn action source given args mode
        [⟨.op (.gather source action.options.select given), items⟩,
          ⟨.call (.requestRender source items), .error failure⟩] (.error failure)
  | consuming (consumes : action.options.select = .select) (items : List Item)
      (ending : Except Failure Unit) :
      CalledOn action source given args mode
        [⟨.op (.gather source action.options.select given), items⟩,
          ⟨.call (.requestRender source items), .ok ()⟩,
          ⟨.call (.callback action { source, items, args, mode }), ending⟩] ending
  | sparing (spares : action.options.select ≠ .select) (items : List Item)
      (ending : Except Failure Unit) :
      CalledOn action source given args mode
        [⟨.op (.gather source action.options.select given), items⟩,
          ⟨.call (.callback action { source, items, args, mode }), ending⟩] ending

/-- The log of what follows a callback by an action's options, and the end of that. -/
inductive FollowedUp (options : Options) (source name : String) :
    List Answered → Except Failure Unit → Prop where
  | loaded (reload : options.reload = true) (root : Item) (ending : Except Failure Unit) :
      FollowedUp options source name
        [⟨.op (.record (.noted (.reloading name))), ()⟩, ⟨.op (.rootOf source), root⟩,
          ⟨.call (.load source root), ending⟩] ending
  | rendered (reload : options.reload = false) (render : options.render = true)
      (ending : Except Failure Unit) :
      FollowedUp options source name
        [⟨.op (.record (.noted (.rendering name))), ()⟩, ⟨.call (.render source), ending⟩] ending
  | nothing (reload : options.reload = false) (render : options.render = false) :
      FollowedUp options source name [] (.ok ())

/-- The log of an invocation, and the end of it: if what follows the callback fails, then that failure,
and else whatever calling the action ended with. -/
inductive Invoked (source name : String) (given : List Item) (args : List String) (mode : Mode) :
    List Answered → Except Failure Unit → Prop where
  | unknown :
      Invoked source name given args mode
        [⟨.op (.resolve source name), none⟩, ⟨.op (.record (.noted (.unknownAction name))), ()⟩] (.ok ())
  | known {action : Action} {called tidy : List Answered} {ending last : Except Failure Unit}
      (calls : action.CalledOn source given args mode called ending)
      (follows : FollowedUp action.options source name tidy last) :
      Invoked source name given args mode
        (⟨.op (.resolve source name), some action⟩ :: (called ++ tidy)) (last >>= fun _ => ending)

/-! ## Playing an invocation -/

namespace Action

variable {action : Action} (source : String) (given : List Item) (args : List String) (mode : Mode)

/-- How an action is called that consumes the selection. -/
theorem callOn_of_consumes (consumes : action.options.select = .select) :
    action.callOn source given args mode = (do
      let items ← Run.op (.gather source action.options.select given)
      Run.call (.requestRender source items)
      Run.call (.callback action { source, items, args, mode })) := by
  simp only [callOn, consumes, ↓reduceIte]
  rfl

/-- How an action is called that leaves the selection as it is. -/
theorem callOn_of_spares (spares : action.options.select ≠ .select) :
    action.callOn source given args mode = (do
      let items ← Run.op (.gather source action.options.select given)
      Run.call (.callback action { source, items, args, mode })) := by
  simp only [callOn, spares, ↓reduceIte]

/-- The view is told, and then the callback is called. -/
theorem calledOn_of_gathered (oracle : Oracle σ) (consumes : action.options.select = .select)
    (items : List Item) (state : σ) :
    let rest : Run Unit := do
      Run.call (.requestRender source items)
      Run.call (.callback action { source, items, args, mode })
    action.CalledOn source given args mode
      (⟨.op (.gather source action.options.select given), items⟩ :: (rest.play oracle state).log)
      (rest.play oracle state).result := by
  intro rest
  have told : rest.play oracle state = _ := Run.play_call_bind oracle (.requestRender source items)
    (fun _ => Run.call (.callback action { source, items, args, mode })) state
  rw [told]
  cases (oracle.answer state (.call (.requestRender source items))).1 with
  | error failure => exact .refused consumes items failure
  | ok => exact .consuming consumes items _

theorem calledOn_callOn (oracle : Oracle σ) (action : Action) (state : σ) :
    action.CalledOn source given args mode
      ((action.callOn source given args mode).play oracle state).log
      ((action.callOn source given args mode).play oracle state).result := by
  by_cases consumes : action.options.select = .select
  · rw [callOn_of_consumes source given args mode consumes]
    exact calledOn_of_gathered source given args mode oracle consumes _ _
  · rw [callOn_of_spares source given args mode consumes]
    exact .sparing consumes _ _

end Action

theorem followedUp_followUp (oracle : Oracle σ) (options : Options) (source name : String) (state : σ) :
    FollowedUp options source name ((Action.followUp options source name).play oracle state).log
      ((Action.followUp options source name).play oracle state).result := by
  unfold Action.followUp
  cases reload : options.reload with
  | true => exact .loaded reload _ _
  | false =>
      cases render : options.render with
      | true => exact .rendered reload render _
      | false => exact .nothing reload render

/-- **Invocations have the log of an invocation.** -/
theorem invoked_invoke (oracle : Oracle σ) (source name : String) (items : Supply) (args : List String)
    (mode : Mode) (state : σ) :
    Invoked source name items.toList args mode ((invoke source name items args mode).play oracle state).log
      ((invoke source name items args mode).play oracle state).result := by
  unfold invoke
  rw [Run.play_op_bind]
  cases (oracle.answer state (.op (.resolve source name))).1 with
  | none => exact .unknown
  | some action =>
      have played := Run.play_ensuring_eq oracle (action.callOn source items.toList args mode)
        (Action.followUp action.options source name) (oracle.answer state (.op (.resolve source name))).2
      simp only [Play.behind, played]
      exact .known (Action.calledOn_callOn ..) (followedUp_followUp ..)

end ActionFlow

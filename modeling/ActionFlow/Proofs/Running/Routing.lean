import Mathlib.Data.List.Nodup
import ActionFlow.Proofs.Running.Invocation
import ActionFlow.Proofs.Running.Meaning
import ActionFlow.Proofs.Running.Splicing

/-!
# Routing keeps every item

A condition splits items in two, and its branches may split them further, down to actions that are called
on what arrives. Callbacks may change anything in the explorer, so a condition further down may be answered
by another state than the one above it. Items are not lost by that, nor doubled: a split looks at each item
once, and it is the answers that decide.

The log of a decision tree is described by recursion on the tree, together with the shares of the items
that its actions were called on. What is to be said of the shares then follows from the description alone.

## Main results

* `Branch.Routed`: the log of a decision tree, and who was served what.
* `Branch.routed_runInner`: running a decision tree in an explorer leaves such a log.
* `routing_keeps_items`: every item is handed to one action, in its place, and once.
-/

namespace ActionFlow

variable {σ τ α β : Type}

/-! ## Decision trees -/

/-- A branch of a decision tree: an action, or a condition with two branches. The latter is a decision
tree itself. -/
inductive Branch where
  | action (leaf : Leaf)
  | condition (rule : Rule) (args : List String) (yes no : Branch)

namespace Branch

/-- The expression of a branch. -/
def expr : Branch → Expr
  | action leaf => .leaf leaf
  | condition rule args yes no => .seq [.leaf { name := rule.name, args }, yes.expr, no.expr]

/-- The action at a place. The way there is told by the answers of the conditions that it passes. -/
def leafAt : Branch → List Bool → Option Leaf
  | action leaf, [] => some leaf
  | condition _ _ yes no, truth :: way => (if truth then yes else no).leafAt way
  | _, _ => none

/-- Decision trees pass the check, whatever the names of their actions. -/
theorem check_expr (branch : Branch) : branch.expr.check = .ok () := by
  induction branch with
  | action leaf => exact Expr.check_leaf leaf
  | condition rule args yes no ihYes ihNo =>
      rw [expr, Expr.check_seq, Expr.checkElements_cons_rule (Rule.ofName?_name rule)]
      exact ⟨ihYes, ihNo, rfl⟩

/-- A decision tree has no element at which the barrier could be taken, so it runs on its own as it does
inside another expression. -/
theorem run_condition (rule : Rule) (args : List String) (yes no : Branch) (source : String) (mode : Mode)
    (items : Supply) :
    Expr.run source mode (condition rule args yes no).expr items =
      Expr.runInner source mode (condition rule args yes no).expr items := by
  have passes := (condition rule args yes no).check_expr
  have named := Rule.ofName?_name rule
  rw [expr] at passes ⊢
  rw [Expr.run_seq _ _ _ passes, Expr.runInner_seq]
  refine Expr.runElements_unmarked source mode true items ?_ ?_
  · rw [Expr.closed_cons_rule named]
    rfl
  · rw [Expr.unmarked_cons_rule named]
    rfl

/-- What a decision tree does: it routes the items, and hands each part on to its branch. -/
theorem runInner_condition (rule : Rule) (args : List String) (yes no : Branch) (source : String)
    (mode : Mode) (items : Supply) :
    Expr.runInner source mode (condition rule args yes no).expr items = (do
      let parts ← rule.route source args items
      onPart parts.1 (Expr.runInner source mode yes.expr)
      onPart parts.2 (Expr.runInner source mode no.expr)) := by
  rw [expr, Expr.runInner_seq, Expr.runElements_cons_rule _ _ _ _ (Rule.ofName?_name rule)]
  simp only [Expr.runElements_nil, bind_pure_unit]

end Branch

/-! ## Logs in which nothing fails -/

/-- Whether a log tells of no failure, and of no action but those that leave the selection alone. -/
structure Smooth (source : String) (log : List Answered) : Prop where
  unfailing : ∀ entry ∈ log, entry.failure? = none
  visual : ∀ name found, ⟨.op (.resolve source name), found⟩ ∈ log →
    ∃ action : Action, found = some action ∧ action.options.select = .visual

theorem Smooth.of_subset {source : String} {log more : List Answered} (h : Smooth source more)
    (inside : log ⊆ more) : Smooth source log :=
  ⟨fun entry logged => h.unfailing entry (inside logged), fun name found logged =>
    h.visual name found (inside logged)⟩

/-- Whether one entry tells of nothing else, as a computation. -/
def Answered.isSmooth (entry : Answered) : Bool :=
  entry.failure?.isNone && match entry with
    | ⟨.op (.resolve ..), some action⟩ => action.options.select = .visual
    | ⟨.op (.resolve ..), none⟩ => false
    | _ => true

theorem smooth_of_all {log : List Answered} (h : log.all Answered.isSmooth) (source : String) :
    Smooth source log := by
  have each := List.all_eq_true.mp h
  refine ⟨fun entry logged => ?_, fun name found logged => ?_⟩
  · exact Option.isNone_iff_eq_none.mp (Bool.and_eq_true_iff.mp (each entry logged)).1
  · have passes := (Bool.and_eq_true_iff.mp (each _ logged)).2
    cases found with
    | none => cases passes
    | some action => exact ⟨action, rfl, of_decide_eq_true passes⟩

/-- What ends well has its first part end well. -/
theorem Run.play_bind_of_ok {run : Run α} {next : α → Run β} {oracle : Oracle σ} {state : σ} {final : β}
    (h : ((run >>= next).play oracle state).result = .ok final) :
    ∃ result, (run.play oracle state).result = .ok result ∧ (run >>= next).play oracle state =
      (run.play oracle state).andThen fun _ => (next result).play oracle := by
  rw [play_bind] at h ⊢
  cases ending : (run.play oracle state).result with
  | ok result => exact ⟨result, rfl, by simp only [Play.andThen, ending]⟩
  | error failure =>
      simp only [Play.andThen, ending] at h
      cases h

/-- A run that tells why it fails, and tells of no failure, has ended well. -/
theorem Run.Relays.ok_of_unfailing {run : Run α} (relays : run.Relays) {oracle : Oracle σ} {state : σ}
    (unfailing : ∀ entry ∈ (run.play oracle state).log, entry.failure? = none) :
    ∃ result, (run.play oracle state).result = .ok result := by
  cases ending : (run.play oracle state).result with
  | ok result => exact ⟨result, rfl⟩
  | error failure =>
      obtain ⟨entry, logged, failed⟩ := relays σ oracle state failure ending
      have sound := unfailing entry logged
      rw [failed] at sound
      cases sound

/-- The log of asking a rule about items, one after the other. -/
def Rule.asked (rule : Rule) (source : String) (args : List String) (items : List Item)
    (verdicts : List Bool) : List Answered :=
  List.zipWith (fun item verdict => ⟨.call (.test source rule args item), .ok verdict⟩) items verdicts

/-- The log of routing items by a rule: asking, and then a notice of how many went where. -/
def Rule.routing (rule : Rule) (source : String) (args : List String) (items : List Item)
    (verdicts : List Bool) : List Answered :=
  rule.asked source args items verdicts ++
    [⟨.op (.record (.noted (.routed rule.name (Expr.sortedOut items verdicts true).length
      (Expr.sortedOut items verdicts false).length))), ()⟩]

theorem Rule.play_asking (rule : Rule) (source : String) (args : List String) (oracle : Oracle σ)
    (items : List Item) (state : σ) {verdicts : List Bool}
    (h : ((items.mapM (Run.test source rule args)).play oracle state).result = .ok verdicts) :
    verdicts.length = items.length ∧
      ((items.mapM (Run.test source rule args)).play oracle state).log =
        rule.asked source args items verdicts := by
  induction items generalizing state verdicts with
  | nil =>
      cases h
      exact ⟨rfl, rfl⟩
  | cons item rest ih =>
      rw [List.mapM_cons] at h ⊢
      obtain ⟨verdict, answered, played⟩ := Run.play_bind_of_ok h
      rw [played] at h ⊢
      simp only [Play.andThen] at h ⊢
      obtain ⟨others, answers, played⟩ := Run.play_bind_of_ok h
      rw [played] at h ⊢
      cases h
      obtain ⟨length, log⟩ := ih _ answers
      have first : ((Run.test source rule args item).play oracle state).log =
          [⟨.call (.test source rule args item), .ok verdict⟩] :=
        congrArg (fun reply => [Answered.mk (.call (.test source rule args item)) reply]) answered
      refine ⟨congrArg (· + 1) length, ?_⟩
      show _ ++ (_ ++ []) = _
      rw [first, log, List.append_nil]
      rfl

/-! ## In an explorer -/

/-- An oracle that performs operations on an explorer. All else is answered by another one, which may
change the explorer as it likes. -/
def Oracle.inExplorer (who : Option TaskId) (others : Oracle (Explorer × τ)) : Oracle (Explorer × τ) where
  answer
    | (explorer, rest), .op op => ((explorer.perform who op).2, (explorer.perform who op).1, rest)
    | state, effect => others.answer state effect

/-- Actions that leave the selection alone are called on the items that were given. -/
theorem gathered_in_explorer {who : Option TaskId} {others : Oracle (Explorer × τ)} {run : Run α}
    {state : Explorer × τ} {source : String} {given items : List Item}
    (logged : ⟨.op (.gather source .visual given), items⟩ ∈
      (run.play (others.inExplorer who) state).log) : items = given := by
  obtain ⟨before, effect, same⟩ := Program.exists_answer_of_mem_log logged
  cases same
  rfl

/-! ## Who is served what -/

/-- What an action at a place was called on. -/
structure Share where
  place : List Bool
  leaf : Leaf
  items : List Item

/-- The share as one behind a condition. -/
def Share.under (truth : Bool) (share : Share) : Share := { share with place := truth :: share.place }

/-- The log of an action that is called on items, and called well. -/
def Leaf.Served (leaf : Leaf) (source : String) (mode : Mode) (items : List Item)
    (log : List Answered) : Prop :=
  ∃ (action : Action) (tidy : List Answered), action.options.select = .visual ∧
    FollowedUp action.options source leaf.name tidy (.ok ()) ∧
    log = ⟨.op (.resolve source leaf.name), some action⟩ ::
      ⟨.op (.gather source .visual items), items⟩ ::
      ⟨.call (.callback action { source, items, args := leaf.args, mode }), .ok ()⟩ :: tidy

/-- A branch with no items is passed over. -/
def Handing (reached : List Item → List Answered → List Share → Prop) (part : List Item)
    (log : List Answered) (served : List Share) : Prop :=
  if part = [] then log = [] ∧ served = [] else reached part log served

/-- The log of a branch that given items arrive at, and the shares that they fall into. A condition asks
about one item after the other and notes how many went where; then comes the one branch and after it the
other, each with its part in the order of the whole. -/
def Branch.Routed (source : String) (mode : Mode) :
    Branch → List Item → List Answered → List Share → Prop
  | .action leaf, items, log, served => leaf.Served source mode items log ∧ served = [⟨[], leaf, items⟩]
  | .condition rule args yes no, items, log, served =>
      ∃ (verdicts : List Bool) (yesLog noLog : List Answered) (yesServed noServed : List Share),
        verdicts.length = items.length ∧
        Handing (yes.Routed source mode) (Expr.sortedOut items verdicts true) yesLog yesServed ∧
        Handing (no.Routed source mode) (Expr.sortedOut items verdicts false) noLog noServed ∧
        log = rule.routing source args items verdicts ++ (yesLog ++ noLog) ∧
        served = yesServed.map (Share.under true) ++ noServed.map (Share.under false)

/-! ### Running decision trees -/

/-- What follows a callback, without a failure. -/
theorem FollowedUp.well {options : Options} {source name : String} {log : List Answered}
    {ending : Except Failure Unit} (h : FollowedUp options source name log ending)
    (unfailing : ∀ entry ∈ log, entry.failure? = none) : ending = .ok () := by
  cases h with
  | loaded _ root ending =>
      cases ending with
      | ok => rfl
      | error failure =>
          cases unfailing ⟨.call (.load source root), .error failure⟩ (.tail _ (.tail _ (.head _)))
  | rendered _ _ ending =>
      cases ending with
      | ok => rfl
      | error failure => cases unfailing ⟨.call (.render source), .error failure⟩ (.tail _ (.head _))
  | nothing => rfl

/-- An invocation that finds an action which leaves the selection alone, without a failure. -/
theorem Invoked.served {source : String} {leaf : Leaf} {items : List Item} {mode : Mode}
    {log : List Answered} {ending : Except Failure Unit}
    (h : Invoked source leaf.name items leaf.args mode log ending) (smooth : Smooth source log)
    (gathers : ∀ given got, ⟨.op (.gather source .visual given), got⟩ ∈ log → got = given) :
    ending = .ok () ∧ leaf.Served source mode items log := by
  cases h with
  | unknown =>
      obtain ⟨action, found, -⟩ := smooth.visual leaf.name none (.head _)
      cases found
  | @known action called tidy ending last calls follows =>
      obtain ⟨_, found, visual⟩ := smooth.visual leaf.name (some action) (.head _)
      cases found
      cases calls with
      | refused consumes => rw [visual] at consumes; cases consumes
      | consuming consumes => rw [visual] at consumes; cases consumes
      | sparing _ got =>
          rw [visual] at smooth gathers ⊢
          have same : got = items := gathers items got (.tail _ (.head _))
          subst same
          have well : last = .ok () := follows.well fun entry logged =>
            smooth.unfailing entry (.tail _ (.tail _ (.tail _ logged)))
          subst well
          cases ending with
          | ok => exact ⟨rfl, action, tidy, visual, follows, rfl⟩
          | error failure =>
              cases smooth.unfailing ⟨.call (.callback action _), .error failure⟩
                (.tail _ (.tail _ (.head _)))

/-- The log of a condition that ended well: asking, a notice, and then its branches on their parts. -/
theorem Branch.log_condition {rule : Rule} {args : List String} {yes no : Branch} {source : String}
    {mode : Mode} {items : List Item} {oracle : Oracle σ} {state : σ}
    (well : ((Expr.runInner source mode (condition rule args yes no).expr (.many items)).play
      oracle state).result = .ok ()) :
    ∃ (verdicts : List Bool) (first second : σ), verdicts.length = items.length ∧
      ((Expr.runInner source mode (condition rule args yes no).expr (.many items)).play oracle state).log =
        rule.routing source args items verdicts ++
          (((onPart (Expr.sortedOut items verdicts true) (Expr.runInner source mode yes.expr)).play
              oracle first).log ++
            ((onPart (Expr.sortedOut items verdicts false) (Expr.runInner source mode no.expr)).play
              oracle second).log) := by
  rw [runInner_condition, Rule.route_many] at well ⊢
  simp only [bind_assoc, pure_bind] at well ⊢
  obtain ⟨verdicts, answers, asking⟩ := Run.play_bind_of_ok well
  obtain ⟨length, asked⟩ := rule.play_asking source args oracle items state answers
  rw [asking] at well ⊢
  obtain ⟨⟨⟩, -, noting⟩ := Run.play_bind_of_ok well
  simp only [Play.andThen, noting] at well ⊢
  obtain ⟨⟨⟩, -, split⟩ := Run.play_bind_of_ok well
  rw [split, asked]
  exact ⟨verdicts, _, _, length, (List.append_assoc ..).symm⟩

section Running

variable (who : Option TaskId) (others : Oracle (Explorer × τ)) (source : String) (mode : Mode)

/-- Running a branch on the items of a part, unless there are none. -/
theorem handing_onPart {branch : Branch} {oracle : Oracle σ}
    (h : ∀ items state,
      Smooth source ((Expr.runInner source mode branch.expr (.many items)).play oracle state).log →
      ((Expr.runInner source mode branch.expr (.many items)).play oracle state).result = .ok () ∧
        ∃ served, branch.Routed source mode items
          ((Expr.runInner source mode branch.expr (.many items)).play oracle state).log served)
    {part : List Item} {state : σ}
    (smooth : Smooth source
      ((onPart part (Expr.runInner source mode branch.expr)).play oracle state).log) :
    ∃ served, Handing (branch.Routed source mode) part
      ((onPart part (Expr.runInner source mode branch.expr)).play oracle state).log served := by
  cases part with
  | nil => exact ⟨[], rfl, rfl⟩
  | cons item rest => exact (h (item :: rest) state smooth).2

/-- Running a branch in an explorer, without a failure. -/
theorem Branch.routed_runInner (branch : Branch) (items : List Item) (state : Explorer × τ)
    (smooth : Smooth source ((Expr.runInner source mode branch.expr (.many items)).play
      (others.inExplorer who) state).log) :
    ((Expr.runInner source mode branch.expr (.many items)).play (others.inExplorer who) state).result =
        .ok () ∧
      ∃ served, branch.Routed source mode items
        ((Expr.runInner source mode branch.expr (.many items)).play (others.inExplorer who) state).log
        served := by
  induction branch generalizing items state with
  | action leaf =>
      rw [expr, Expr.runInner_leaf] at smooth ⊢
      have invoked := invoked_invoke (others.inExplorer who) source leaf.name (.many items) leaf.args mode
        state
      obtain ⟨well, served⟩ := invoked.served smooth fun _ _ => gathered_in_explorer
      exact ⟨well, _, served, rfl⟩
  | condition rule args yes no ihYes ihNo =>
      have relays := Expr.relays_runInner source mode (condition rule args yes no).check_expr items
      obtain ⟨⟨⟩, well⟩ := relays.ok_of_unfailing smooth.unfailing
      obtain ⟨verdicts, first, second, length, log⟩ := log_condition well
      refine ⟨well, ?_⟩
      rw [log] at smooth ⊢
      have behind : Smooth source _ :=
        smooth.of_subset (List.subset_append_right _ _)
      obtain ⟨yesServed, handedYes⟩ := handing_onPart source mode ihYes
        (behind.of_subset (List.subset_append_left _ _))
      obtain ⟨noServed, handedNo⟩ := handing_onPart source mode ihNo
        (behind.of_subset (List.subset_append_right _ _))
      exact ⟨_, verdicts, _, _, yesServed, noServed, length, handedYes, handedNo, rfl, rfl⟩

end Running

/-! ## What the shares are -/

namespace Expr

theorem sortedOut_sublist {items : List Item} {verdicts : List Bool}
    (length : verdicts.length = items.length) (truth : Bool) :
    (sortedOut items verdicts truth).Sublist items := by
  have sublist := (List.filter_sublist (p := fun entry : Item × Bool => entry.2 == truth)
    (l := items.zip verdicts)).map (·.1)
  rwa [List.map_fst_zip (Nat.le_of_eq length.symm)] at sublist

theorem sortedOut_perm {items : List Item} {verdicts : List Bool}
    (length : verdicts.length = items.length) :
    (sortedOut items verdicts true ++ sortedOut items verdicts false).Perm items := by
  have both := (List.filter_append_perm (fun entry : Item × Bool => entry.2 == true)
    (items.zip verdicts)).map (·.1)
  rw [List.map_fst_zip (Nat.le_of_eq length.symm), List.map_append] at both
  have others : (fun entry : Item × Bool => !(entry.2 == true)) = fun entry => entry.2 == false := by
    funext entry
    cases entry.2 <;> rfl
  rwa [others] at both

end Expr

/-- What callbacks were called on, in order. -/
def contexts (log : List Answered) : List Context :=
  log.filterMap fun entry => match entry.effect with
    | .call (.callback _ context) => some context
    | _ => none

theorem contexts_append (first second : List Answered) :
    contexts (first ++ second) = contexts first ++ contexts second :=
  List.filterMap_append

/-- A rule calls no callback. -/
theorem contexts_routing (rule : Rule) (source : String) (args : List String) (items : List Item)
    (verdicts : List Bool) : contexts (rule.routing source args items verdicts) = [] := by
  have asked : contexts (rule.asked source args items verdicts) = [] := by
    induction items generalizing verdicts with
    | nil => rfl
    | cons item rest ih =>
        cases verdicts with
        | nil => rfl
        | cons verdict others => exact ih others
  rw [Rule.routing, contexts_append, asked]
  rfl

theorem FollowedUp.contexts_eq_nil {options : Options} {source name : String} {log : List Answered}
    {ending : Except Failure Unit} (h : FollowedUp options source name log ending) :
    contexts log = [] := by
  cases h <;> rfl

/-- What a share is called with. -/
def Share.context (source : String) (mode : Mode) (share : Share) : Context :=
  { source, items := share.items, args := share.leaf.args, mode }

/-- Nobody is served a part without items; others are reached. -/
theorem Handing.elim {reached motive : List Item → List Answered → List Share → Prop} {part : List Item}
    {log : List Answered} {served : List Share} (h : Handing reached part log served)
    (nobody : motive [] [] []) (somebody : part ≠ [] → reached part log served → motive part log served) :
    motive part log served := by
  unfold Handing at h
  split at h
  next none =>
    obtain ⟨rfl, rfl⟩ := h
    exact none ▸ nobody
  next some => exact somebody some h

/-- Going through the log of a branch as it was routed. No action is reached by no items, unless it is
where all begins. -/
theorem Branch.routed_induction {source : String} {mode : Mode}
    {motive : Branch → List Item → List Answered → List Share → Prop}
    (nobody : ∀ branch, motive branch [] [] [])
    (action : ∀ leaf items log, items ≠ [] → leaf.Served source mode items log →
      motive (.action leaf) items log [⟨[], leaf, items⟩])
    (condition : ∀ rule args yes no items verdicts yesLog noLog yesServed noServed,
      verdicts.length = items.length →
      motive yes (Expr.sortedOut items verdicts true) yesLog yesServed →
      motive no (Expr.sortedOut items verdicts false) noLog noServed →
      motive (.condition rule args yes no) items
        (rule.routing source args items verdicts ++ (yesLog ++ noLog))
        (yesServed.map (Share.under true) ++ noServed.map (Share.under false)))
    {branch : Branch} {items : List Item} {log : List Answered} {served : List Share}
    (h : branch.Routed source mode items log served)
    (arrives : ∀ leaf, branch = .action leaf → items ≠ []) : motive branch items log served := by
  induction branch generalizing items log served with
  | action leaf =>
      obtain ⟨serving, rfl⟩ := h
      exact action leaf items log (arrives leaf rfl) serving
  | condition rule args yes no ihYes ihNo =>
      obtain ⟨verdicts, yesLog, noLog, yesServed, noServed, length, handedYes, handedNo, rfl, rfl⟩ := h
      refine condition rule args yes no items verdicts yesLog noLog yesServed noServed length ?_ ?_
      · exact handedYes.elim (nobody yes) fun some reached => ihYes reached fun _ _ => some
      · exact handedNo.elim (nobody no) fun some reached => ihNo reached fun _ _ => some

namespace Branch.Routed

variable {source : String} {mode : Mode} {branch : Branch} {items : List Item} {log : List Answered}
  {served : List Share} (h : branch.Routed source mode items log served)
  (arrives : ∀ leaf, branch = .action leaf → items ≠ [])

include h arrives

/-- Callbacks are called on the shares and on nothing else. -/
theorem contexts_eq : contexts log = served.map (Share.context source mode) := by
  refine routed_induction (motive := fun _ _ log served =>
    contexts log = served.map (Share.context source mode)) ?nobody ?action ?condition h arrives
  case nobody => exact fun _ => rfl
  case action =>
    rintro leaf items log - ⟨action, tidy, -, follows, rfl⟩
    show { source, items, args := leaf.args, mode } :: contexts tidy = _
    rw [follows.contexts_eq_nil]
    rfl
  case condition =>
    intro rule args yes no items verdicts yesLog noLog yesServed noServed _ inYes inNo
    rw [contexts_append, contexts_routing, contexts_append, inYes, inNo, List.map_append, List.map_map,
      List.map_map]
    rfl

/-- The shares make up the items that arrived. -/
theorem perm : (served.flatMap (·.items)).Perm items := by
  refine routed_induction (motive := fun _ items _ served => (served.flatMap (·.items)).Perm items)
    ?nobody ?action ?condition h arrives
  case nobody => exact fun _ => .nil
  case action =>
    intro leaf items log _ _
    rw [List.flatMap_singleton]
  case condition =>
    intro rule args yes no items verdicts yesLog noLog yesServed noServed length inYes inNo
    rw [List.flatMap_append, List.flatMap_map, List.flatMap_map]
    exact (inYes.append inNo).trans (Expr.sortedOut_perm length)

/-- A share belongs to an action of the tree, and is some of the items in their order. -/
theorem of_mem {share : Share} (mem : share ∈ served) :
    branch.leafAt share.place = some share.leaf ∧ share.items ≠ [] ∧ share.items.Sublist items := by
  refine routed_induction (motive := fun branch items _ served => ∀ share ∈ served,
    branch.leafAt share.place = some share.leaf ∧ share.items ≠ [] ∧ share.items.Sublist items)
    ?nobody ?action ?condition h arrives share mem
  case nobody => exact fun _ _ => nofun
  case action =>
    intro leaf items log some _ share mem
    cases List.mem_singleton.mp mem
    exact ⟨rfl, some, .refl items⟩
  case condition =>
    intro rule args yes no items verdicts yesLog noLog yesServed noServed length inYes inNo share mem
    rcases List.mem_append.mp mem with mem | mem
    · obtain ⟨below, inside, rfl⟩ := List.mem_map.mp mem
      obtain ⟨place, some, sublist⟩ := inYes below inside
      exact ⟨place, some, sublist.trans (Expr.sortedOut_sublist length true)⟩
    · obtain ⟨below, inside, rfl⟩ := List.mem_map.mp mem
      obtain ⟨place, some, sublist⟩ := inNo below inside
      exact ⟨place, some, sublist.trans (Expr.sortedOut_sublist length false)⟩

/-- No place has two shares. -/
theorem nodup : (served.map (·.place)).Nodup := by
  refine routed_induction (motive := fun _ _ _ served => (served.map (·.place)).Nodup)
    ?nobody ?action ?condition h arrives
  case nobody => exact fun _ => .nil
  case action => exact fun _ _ _ _ _ => List.nodup_singleton _
  case condition =>
    intro rule args yes no items verdicts yesLog noLog yesServed noServed _ inYes inNo
    have under : ∀ (truth : Bool) (served : List Share),
        (served.map (Share.under truth)).map (·.place) = (served.map (·.place)).map (truth :: ·) := by
      intro truth served
      rw [List.map_map, List.map_map]
      rfl
    rw [List.map_append, under, under]
    refine List.Nodup.append (inYes.map (List.cons_injective)) (inNo.map (List.cons_injective)) ?_
    intro place inYes inNo
    obtain ⟨_, -, rfl⟩ := List.mem_map.mp inYes
    obtain ⟨_, -, same⟩ := List.mem_map.mp inNo
    cases same

end Branch.Routed

/-- **Routing keeps every item.** Let a decision tree run in an explorer which callbacks and rules may
change as they like, also so that conditions further down are answered otherwise than before. If nothing
fails, and the tree's actions leave the selection alone, then the run ends well, on its own as well as
inside another expression. Every condition that it reaches asks its rule about every item that arrived,
once and in order, before either branch begins. The actions' callbacks are called on shares of the items:
no two at one place in the tree, each a row of some of the items in their order. And put together, the
shares are the items, each as often as it was given. -/
theorem routing_keeps_items (who : Option TaskId) (others : Oracle (Explorer × τ)) (source : String)
    (mode : Mode) (rule : Rule) (args : List String) (yes no : Branch) (items : List Item)
    (state : Explorer × τ)
    (smooth : Smooth source ((Expr.runInner source mode (Branch.condition rule args yes no).expr
      (.many items)).play (others.inExplorer who) state).log) :
    let tree := Branch.condition rule args yes no
    let played := (Expr.runInner source mode tree.expr (.many items)).play (others.inExplorer who) state
    (Expr.run source mode tree.expr (.many items)).play (others.inExplorer who) state = played ∧
      played.result = .ok () ∧
      ∃ served, tree.Routed source mode items played.log served ∧
        contexts played.log = served.map (Share.context source mode) ∧
        (served.map (·.place)).Nodup ∧
        (∀ share ∈ served, tree.leafAt share.place = some share.leaf ∧ share.items ≠ [] ∧
          share.items.Sublist items) ∧
        ((contexts played.log).flatMap (·.items)).Perm items := by
  intro tree played
  obtain ⟨well, served, routed⟩ := tree.routed_runInner who others source mode items state smooth
  have arrives : ∀ leaf, tree = .action leaf → items ≠ [] := nofun
  have same := Branch.run_condition rule args yes no source mode (.many items)
  have called := routed.contexts_eq arrives
  refine ⟨by rw [same], well, served, routed, called, routed.nodup arrives,
    fun share mem => routed.of_mem arrives mem, ?_⟩
  rw [called, List.flatMap_map]
  exact routed.perm arrives

/-- An explorer around which callbacks clear the selection, and rules are answered from its state. -/
def Oracle.clearing : Oracle (Explorer × Unit) where
  answer
    | (explorer, rest), .call (.test source rule _ item) =>
        (.ok (explorer.holds source rule item), explorer, rest)
    | (explorer, rest), .call (.callback _ context) =>
        (.ok (), explorer.change context.source .clear, rest)
    | state, effect => ((Oracle.agreeable.answer 0 effect).1, state)

/-- The first action clears the selection that the second condition asks about. -/
theorem routing_keeps_items_of_cleared :
    let leaf := fun name => Branch.action { name }
    let inner := Branch.condition .selected [] (leaf "close") (leaf "open")
    let opening : Action := { name := "open", options := { select := .visual } }
    let source : Source :=
      { registry := { actions := [opening] }, root := .node "a", selection := ⟨[.node "b"]⟩ }
    let items := [Item.node "a", .node "b"]
    let played := (Expr.runInner "files" .normal (Branch.condition .root [] (leaf "open") inner).expr
      (.many items)).play (Oracle.clearing.inExplorer none) ({ sources := fun _ => source }, ())
    Smooth "files" played.log ∧ ((contexts played.log).flatMap (·.items)).Perm items := by
  intro leaf inner opening source items played
  have named : ∀ name, Expr.runInner "files" .normal (leaf name).expr =
      fun items => invoke "files" name items [] .normal := by
    intro name
    funext items
    exact Expr.runInner_leaf "files" .normal items { name }
  have inside : Expr.runInner "files" .normal inner.expr = fun items => (do
      let parts ← Rule.selected.route "files" [] items
      onPart parts.1 fun items => invoke "files" "close" items [] .normal
      onPart parts.2 fun items => invoke "files" "open" items [] .normal) := by
    funext items
    rw [Branch.runInner_condition, named, named]
  have log : played.log =
      [⟨.call (.test "files" .root [] (.node "a")), .ok true⟩,
        ⟨.call (.test "files" .root [] (.node "b")), .ok false⟩,
        ⟨.op (.record (.noted (.routed "root?" 1 1))), ()⟩,
        ⟨.op (.resolve "files" "open"), some opening⟩,
        ⟨.op (.gather "files" .visual [.node "a"]), [.node "a"]⟩,
        ⟨.call (.callback opening { source := "files", items := [.node "a"], args := [], mode := .normal }),
          .ok ()⟩,
        ⟨.call (.test "files" .selected [] (.node "b")), .ok false⟩,
        ⟨.op (.record (.noted (.routed "selected?" 0 1))), ()⟩,
        ⟨.op (.resolve "files" "open"), some opening⟩,
        ⟨.op (.gather "files" .visual [.node "b"]), [.node "b"]⟩,
        ⟨.call (.callback opening { source := "files", items := [.node "b"], args := [], mode := .normal }),
          .ok ()⟩] := by
    show (Run.play _ (Expr.runInner _ _ (Branch.condition .root [] (leaf "open") inner).expr _) _).log = _
    rw [Branch.runInner_condition, named, inside]
    rfl
  have smooth : Smooth "files" played.log := smooth_of_all (by rw [log]; rfl) "files"
  obtain ⟨-, -, -, -, -, -, -, kept⟩ := routing_keeps_items none Oracle.clearing "files" .normal .root []
    (leaf "open") inner items _ smooth
  exact ⟨smooth, kept⟩

end ActionFlow

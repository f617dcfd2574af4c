import ActionFlow.Proofs.Running.Elements
import ActionFlow.Proofs.Running.Play

/-!
# The course of a run

What running an expression does, said by recursion on the expression alone: there is no index, no
place for a key and no program, only a log of effects with their answers, and the way in which the
run ends. Against every oracle, running an expression by walking its elements has exactly this course.

A course that stops because a condition lacks a branch ends in a way of its own, so that it can be
told from a failure that some effect was answered with.

## Main results

* `play_eq_course`, `play_run_eq_outermostCourse`: playing a run of an expression is its course.
* `explained_course`, `whole_course`: a course tells truly why it failed, and that of an expression that
  passes the check never stops for want of a branch.
-/

namespace ActionFlow

variable {σ : Type}

/-! ## Courses -/

/-- How a course ends. -/
inductive Ending where
  /-- Everything was done. -/
  | finished
  /-- A condition was reached that only so many elements follow. -/
  | lacking (router : String) (found : Nat)
  /-- Something failed. -/
  | failed (failure : Failure)
  deriving Repr

/-- What a run with such an ending comes to. -/
def Ending.outcome : Ending → Except Failure Unit
  | finished => .ok ()
  | lacking router found => .error (.malformedExpression router found)
  | failed failure => .error failure

/-- The course of a run: the effects with their answers in order, how the run ends, and the state that
the oracle is left in. -/
structure Course (σ : Type) where
  log : List Answered := []
  ending : Ending := .finished
  state : σ

namespace Course

/-- What a run with such a course comes to. -/
def played (course : Course σ) : Play σ (Except Failure Unit) :=
  ⟨course.log, course.ending.outcome, course.state⟩

/-- Goes on if everything was done. -/
def andThen (first : Course σ) (next : σ → Course σ) : Course σ :=
  match first.ending with
  | .finished => { next first.state with log := first.log ++ (next first.state).log }
  | _ => first

/-- Does something at the end, whatever the ending; only if that fails it takes the ending's place. -/
def closedBy (first : Course σ) (last : σ → Course σ) : Course σ where
  log := first.log ++ (last first.state).log
  ending := match (last first.state).ending with
    | .finished => first.ending
    | other => other
  state := (last first.state).state

/-- The course of a run that is taken as a whole. -/
def ofRun (oracle : Oracle σ) (run : Run Unit) (state : σ) : Course σ :=
  let played := run.play oracle state
  { log := played.log
    ending := match played.result with
      | .ok () => .finished
      | .error failure => .failed failure
    state := played.state }

/-- Goes on with the result of a run, unless that fails. -/
def asking {α : Type} (oracle : Oracle σ) (run : Run α) (next : α → σ → Course σ) (state : σ) :
    Course σ :=
  let played := run.play oracle state
  match played.result with
  | .ok result =>
      { next result played.state with log := played.log ++ (next result played.state).log }
  | .error failure => { log := played.log, ending := .failed failure, state := played.state }

end Course

namespace Expr

/-- The items that were answered with a truth. -/
def sortedOut (items : List Item) (verdicts : List Bool) (truth : Bool) : List Item :=
  ((items.zip verdicts).filter fun entry => entry.2 == truth).map (·.1)

/-- The course of a branch; a branch with no items is passed over. -/
def onBranch (branch : List Item → σ → Course σ) (items : List Item) (state : σ) : Course σ :=
  if items = [] then { state } else branch items state

mutual

/-- The course of an expression that stands inside another one: a leaf is invoked, whatever its name,
and a sequence is gone through without taking the barrier. -/
def course (oracle : Oracle σ) (source : String) (mode : Mode) :
    Expr → List Item → σ → Course σ
  | leaf l, items, state =>
      .ofRun oracle (invoke source l.name (.many items) l.args mode) state
  | seq elements, items, state => courseOf oracle source mode false elements items state

/-- The course of a sequence. `mayTake` tells whether the barrier is to be taken at the next `wait`: in
the outermost sequence, until it has been taken. -/
def courseOf (oracle : Oracle σ) (source : String) (mode : Mode) :
    (mayTake : Bool) → List Expr → List Item → σ → Course σ
  | _, [], _, state => { state }
  | mayTake, seq inside :: rest, items, state =>
      (courseOf oracle source mode false inside items state).andThen
        (courseOf oracle source mode mayTake rest items)
  | mayTake, leaf l :: rest, items, state =>
      if l.name = waitName then
        if mayTake then
          Course.asking oracle (Run.await .barrier) (fun key state =>
            (courseOf oracle source mode false rest items state).closedBy
              (.ofRun oracle (Run.release key))) state
        else courseOf oracle source mode false rest items state
      else
        match Rule.ofName? l.name with
        | none =>
            (Course.ofRun oracle (invoke source l.name (.many items) l.args mode) state).andThen
              (courseOf oracle source mode mayTake rest items)
        | some rule =>
            match rest with
            | yes :: no :: others =>
                Course.asking oracle (items.mapM (Run.test source rule l.args)) (fun verdicts state =>
                  let yesItems := sortedOut items verdicts true
                  let noItems := sortedOut items verdicts false
                  (Course.ofRun oracle
                      (Run.note (.routed rule.name yesItems.length noItems.length)) state).andThen
                    fun state => (onBranch (course oracle source mode yes) yesItems state).andThen
                    fun state => (onBranch (course oracle source mode no) noItems state).andThen
                    (courseOf oracle source mode mayTake others items)) state
            | short => { ending := .lacking l.name short.length, state }

end

/-- The course of an expression on its own. -/
def outermostCourse (oracle : Oracle σ) (source : String) (mode : Mode) :
    Expr → List Item → σ → Course σ
  | leaf l, items, state => course oracle source mode (leaf l) items state
  | seq elements, items, state => courseOf oracle source mode true elements items state

end Expr

/-! ## Playing and courses -/

namespace Course

theorem played_ofRun (oracle : Oracle σ) (run : Run Unit) (state : σ) :
    run.play oracle state = (ofRun oracle run state).played := by
  unfold ofRun
  generalize run.play oracle state = play
  obtain ⟨log, result, after⟩ := play
  cases result <;> rfl

theorem played_andThen {oracle : Oracle σ} {first second : Run Unit} {state : σ}
    {course : Course σ} {next : σ → Course σ} (hfirst : first.play oracle state = course.played)
    (hnext : ∀ state, second.play oracle state = (next state).played) :
    (first >>= fun _ => second).play oracle state = (course.andThen next).played := by
  rw [Run.play_bind, hfirst]
  unfold andThen Play.andThen
  obtain ⟨log, ending, after⟩ := course
  cases ending with
  | finished => simp only [played, Ending.outcome, hnext]
  | lacking | failed => simp [played, Ending.outcome]

theorem played_asking {α : Type} {oracle : Oracle σ} {run : Run α} {next : α → Run Unit}
    {course : α → σ → Course σ}
    (h : ∀ result state, (next result).play oracle state = (course result state).played)
    (state : σ) : (run >>= next).play oracle state = (asking oracle run course state).played := by
  rw [Run.play_bind]
  unfold asking Play.andThen
  generalize run.play oracle state = play
  obtain ⟨log, result, after⟩ := play
  cases result with
  | ok result => simp only [h, played]
  | error failure => simp [played, Ending.outcome]

theorem played_closedBy {oracle : Oracle σ} {body cleanup : Run Unit} {state : σ}
    {course : Course σ} {last : σ → Course σ} (hbody : body.play oracle state = course.played)
    (hlast : ∀ state, cleanup.play oracle state = (last state).played) :
    (Run.ensuring body cleanup).play oracle state = (course.closedBy last).played := by
  rw [Run.play_ensuring, hbody]
  unfold closedBy Play.andThen
  simp only [played, hlast]
  cases (last course.state).ending <;> simp [Ending.outcome]

end Course

namespace Rule

/-- Splitting by a rule asks about every item in order and sorts the items by the answers. -/
theorem split_eq_mapM (rule : Rule) (source : String) (args : List String) (items : List Item) :
    rule.split source args items = (do
      let verdicts ← items.mapM (Run.test source rule args)
      pure (Expr.sortedOut items verdicts true, Expr.sortedOut items verdicts false)) := by
  induction items with
  | nil => simp [split, Expr.sortedOut]
  | cons item rest ih =>
      simp only [split, ih, List.mapM_cons, bind_assoc, pure_bind]
      refine congrArg (_ >>= ·) (funext fun verdict => congrArg (_ >>= ·) (funext fun verdicts => ?_))
      cases verdict <;> simp [Expr.sortedOut]

/-- How a row of items is routed: asking, then a notice of how many items went where. -/
theorem route_many (rule : Rule) (source : String) (args : List String) (items : List Item) :
    rule.route source args (.many items) = (do
      let verdicts ← items.mapM (Run.test source rule args)
      let yes := Expr.sortedOut items verdicts true
      let no := Expr.sortedOut items verdicts false
      Run.note (.routed rule.name yes.length no.length)
      pure (yes, no)) := by
  simp only [route, Supply.members, split_eq_mapM, bind_assoc, pure_bind]

end Rule

namespace Expr

variable (oracle : Oracle σ) (source : String) (mode : Mode)

theorem play_onPart {branch : Expr} {items : List Item}
    (h : ∀ items state, (runInner source mode branch (.many items)).play oracle state =
      (course oracle source mode branch items state).played) (state : σ) :
    (onPart items (runInner source mode branch)).play oracle state =
      (onBranch (course oracle source mode branch) items state).played := by
  cases items with
  | nil => rfl
  | cons item rest => exact h (item :: rest) state

/-- Playing a nested run, and a run of elements, is its course. -/
theorem play_eq_course :
    (∀ (expression : Expr) (items : List Item) (state : σ),
      (runInner source mode expression (.many items)).play oracle state =
        (course oracle source mode expression items state).played) ∧
    ∀ (elements : List Expr) (mayTake : Bool) (items : List Item) (state : σ),
      (runElements source mode mayTake elements (.many items)).play oracle state =
        (courseOf oracle source mode mayTake elements items state).played := by
  refine running_induction ?single ?several ?nil ?nested ?wait ?action ?condition ?short
  case single =>
    intro l items state
    rw [runInner_leaf, course]
    exact Course.played_ofRun _ _ _
  case several =>
    intro elements ih items state
    rw [runInner_seq, course]
    exact ih false items state
  case nil =>
    intro mayTake items state
    rw [runElements_nil, courseOf]
    rfl
  case nested =>
    intro inside rest ihInside ihRest mayTake items state
    rw [runElements_cons_seq, runInner_seq, courseOf]
    exact Course.played_andThen (ihInside false items state) (ihRest mayTake items)
  case wait =>
    intro l rest hwait ih mayTake items state
    cases mayTake with
    | false =>
        rw [runElements_cons_wait _ _ _ hwait]
        simp only [courseOf, hwait, ↓reduceIte, Bool.false_eq_true]
        exact ih false items state
    | true =>
        rw [runElements_cons_outermost_wait _ _ _ hwait]
        simp only [courseOf, hwait, ↓reduceIte]
        exact Course.played_asking (fun key state =>
          Course.played_closedBy (ih false items state) (Course.played_ofRun _ _)) state
  case action =>
    intro l rest hwait hrule ih mayTake items state
    rw [runElements_cons_action _ _ _ _ hwait hrule, runInner_leaf]
    simp only [courseOf, hwait, hrule, ↓reduceIte]
    exact Course.played_andThen (Course.played_ofRun _ _ _) (ih mayTake items)
  case condition =>
    intro l rule yes no others hrule ihYes ihNo ihOthers mayTake items state
    rw [runElements_cons_rule _ _ _ _ hrule, Rule.route_many]
    simp only [courseOf, ne_waitName_of_rule hrule, hrule, ↓reduceIte, bind_assoc, pure_bind]
    exact Course.played_asking (fun verdicts state =>
      Course.played_andThen (Course.played_ofRun _ _ _) fun state =>
        Course.played_andThen (play_onPart _ _ _ ihYes state) fun state =>
          Course.played_andThen (play_onPart _ _ _ ihNo state) (ihOthers mayTake items)) state
  case short =>
    intro l rule short hrule hshort mayTake items state
    rw [runElements_cons_rule_short _ _ _ _ hrule hshort]
    match short, hshort with
    | [], _ | [_], _ => simp only [courseOf, ne_waitName_of_rule hrule, hrule, ↓reduceIte]; rfl

/-! ## Why a course ends -/

end Expr

/-- An action that is invoked fails only as something that it calls does. -/
theorem relays_invoke (source name : String) (items : Supply) (args : List String) (mode : Mode) :
    (invoke source name items args mode).Relays := by
  refine (Run.relays_op _).bind fun found => ?_
  cases found with
  | none => exact Run.relays_op _
  | some action =>
      refine Run.Relays.ensuring ?_ ?_
      · exact (Run.relays_op _).bind fun _ =>
          Run.relays_ite ((Run.relays_call _).bind fun _ => Run.relays_call _) (Run.relays_call _)
      · exact Run.relays_ite
          ((Run.relays_op _).bind fun _ => (Run.relays_op _).bind fun _ => Run.relays_call _)
          (Run.relays_ite ((Run.relays_op _).bind fun _ => Run.relays_call _) (Run.relays_pure _))

namespace Course

/-- Whether the ending of a course has a reason: a branch is lacking only after a condition, and any
other failure is the answer to an effect. -/
def Explained (course : Course σ) : Prop :=
  match course.ending with
  | .finished => True
  | .lacking router found => (Rule.ofName? router).isSome ∧ found < 2
  | .failed failure => ∃ entry ∈ course.log, entry.failure? = some failure

theorem explained_ofRun {oracle : Oracle σ} {run : Run Unit} (h : run.Relays) (state : σ) :
    (ofRun oracle run state).Explained := by
  have relays := h σ oracle state
  unfold ofRun Explained
  generalize run.play oracle state = play at relays
  obtain ⟨log, result, after⟩ := play
  cases result with
  | ok => trivial
  | error failure => exact relays failure rfl

/-- A reason stays one behind a longer log. -/
theorem Explained.prepend {course : Course σ} (h : course.Explained) (log : List Answered) :
    Explained { course with log := log ++ course.log } := by
  unfold Explained at h ⊢
  cases hc : course.ending with
  | finished => trivial
  | lacking => simpa only [hc] using h
  | failed failure =>
      simp only [hc] at h
      obtain ⟨entry, hentry, hfail⟩ := h
      exact ⟨entry, List.mem_append_right _ hentry, hfail⟩

theorem Explained.andThen {first : Course σ} {next : σ → Course σ} (hfirst : first.Explained)
    (hnext : ∀ state, (next state).Explained) : (first.andThen next).Explained := by
  unfold Course.andThen
  split
  · exact (hnext _).prepend _
  · exact hfirst

theorem Explained.asking {α : Type} {oracle : Oracle σ} {run : Run α} {next : α → σ → Course σ}
    (hrun : run.Relays) (hnext : ∀ result state, (next result state).Explained) (state : σ) :
    (asking oracle run next state).Explained := by
  have relays := hrun σ oracle state
  unfold Course.asking
  generalize run.play oracle state = play at relays
  obtain ⟨log, result, after⟩ := play
  cases result with
  | ok result => exact (hnext result after).prepend _
  | error failure => exact relays failure rfl

theorem Explained.closedBy {first : Course σ} {last : σ → Course σ} (hfirst : first.Explained)
    (hlast : ∀ state, (last state).Explained) : (first.closedBy last).Explained := by
  have hlast := hlast first.state
  unfold Course.closedBy Explained at *
  cases hl : (last first.state).ending with
  | lacking => simpa only [hl] using hlast
  | failed failure =>
      simp only [hl] at hlast
      obtain ⟨entry, hentry, hfail⟩ := hlast
      exact ⟨entry, List.mem_append_right _ hentry, hfail⟩
  | finished =>
      cases hf : first.ending with
      | finished => trivial
      | lacking => simpa only [hf] using hfirst
      | failed failure =>
          simp only [hf] at hfirst
          obtain ⟨entry, hentry, hfail⟩ := hfirst
          exact ⟨entry, List.mem_append_left _ hentry, hfail⟩

/-- Whether no branch was lacking. -/
def Whole (course : Course σ) : Prop := ∀ router found, course.ending ≠ .lacking router found

theorem whole_ofRun (oracle : Oracle σ) (run : Run Unit) (state : σ) :
    (ofRun oracle run state).Whole := by
  intro router found h
  unfold ofRun at h
  simp only at h
  split at h <;> cases h

theorem Whole.andThen {first : Course σ} {next : σ → Course σ} (hfirst : first.Whole)
    (hnext : ∀ state, (next state).Whole) : (first.andThen next).Whole := by
  unfold Course.andThen
  split
  · exact hnext _
  · exact hfirst

theorem Whole.asking {α : Type} {oracle : Oracle σ} {run : Run α} {next : α → σ → Course σ}
    (hnext : ∀ result state, (next result state).Whole) (state : σ) :
    (asking oracle run next state).Whole := by
  unfold Course.asking
  simp only
  split
  · exact hnext _ _
  · intro router found h
    cases h

theorem Whole.closedBy {first : Course σ} {last : σ → Course σ} (hfirst : first.Whole)
    (hlast : ∀ state, (last state).Whole) : (first.closedBy last).Whole := by
  intro router found h
  unfold Course.closedBy at h
  simp only at h
  split at h
  · exact hfirst _ _ h
  · exact hlast _ _ _ h

end Course

namespace Expr

variable (oracle : Oracle σ) (source : String) (mode : Mode)

theorem onBranch_induction {motive : Course σ → Prop} {branch : List Item → σ → Course σ}
    (hnone : ∀ state, motive { state }) (hsome : ∀ items state, motive (branch items state))
    (items : List Item) (state : σ) : motive (onBranch branch items state) := by
  unfold onBranch
  split
  · exact hnone state
  · exact hsome items state

/-- Every course has a reason to end as it does. -/
theorem explained_course :
    (∀ (expression : Expr) (items : List Item) (state : σ),
      (course oracle source mode expression items state).Explained) ∧
    ∀ (elements : List Expr) (mayTake : Bool) (items : List Item) (state : σ),
      (courseOf oracle source mode mayTake elements items state).Explained := by
  refine running_induction ?single ?several ?nil ?nested ?wait ?action ?condition ?short
  case single =>
    intro l items state
    exact Course.explained_ofRun (relays_invoke _ _ _ _ _) state
  case several =>
    intro elements ih items state
    exact ih false items state
  case nil =>
    intro mayTake items state
    trivial
  case nested =>
    intro inside rest ihInside ihRest mayTake items state
    exact (ihInside false items state).andThen (ihRest mayTake items)
  case wait =>
    intro l rest hwait ih mayTake items state
    cases mayTake with
    | false =>
        simp only [courseOf, hwait, ↓reduceIte, Bool.false_eq_true]
        exact ih false items state
    | true =>
        simp only [courseOf, hwait, ↓reduceIte]
        exact Course.Explained.asking (Run.relays_await _) (fun key state =>
          (ih false items state).closedBy (Course.explained_ofRun (Run.relays_release key))) state
  case action =>
    intro l rest hwait hrule ih mayTake items state
    simp only [courseOf, hwait, hrule, ↓reduceIte]
    exact (Course.explained_ofRun (relays_invoke _ _ _ _ _) state).andThen (ih mayTake items)
  case condition =>
    intro l rule yes no others hrule ihYes ihNo ihOthers mayTake items state
    simp only [courseOf, ne_waitName_of_rule hrule, hrule, ↓reduceIte]
    refine Course.Explained.asking (Run.Relays.mapM (Run.relays_test _ _ _) _)
      (fun verdicts state => ?_) state
    exact (Course.explained_ofRun (Run.relays_op _) state).andThen fun state =>
      (onBranch_induction (fun _ => trivial) ihYes _ state).andThen fun state =>
        (onBranch_induction (fun _ => trivial) ihNo _ state).andThen (ihOthers mayTake items)
  case short =>
    intro l rule short hrule hshort mayTake items state
    have reason : (Rule.ofName? l.name).isSome ∧ short.length < 2 := ⟨by simp [hrule], hshort⟩
    match short, hshort with
    | [], _ | [_], _ =>
        simp only [courseOf, ne_waitName_of_rule hrule, hrule, ↓reduceIte]
        exact reason

/-- The course of an expression that passes the check never stops for want of a branch. -/
theorem whole_course :
    (∀ (expression : Expr), expression.check = .ok () → ∀ (items : List Item) (state : σ),
      (course oracle source mode expression items state).Whole) ∧
    ∀ (elements : List Expr), checkElements elements = .ok () →
      ∀ (mayTake : Bool) (items : List Item) (state : σ),
        (courseOf oracle source mode mayTake elements items state).Whole := by
  refine running_induction ?single ?several ?nil ?nested ?wait ?action ?condition ?short
  case single =>
    intro l _ items state
    exact Course.whole_ofRun _ _ _
  case several =>
    intro elements ih h items state
    exact ih ((check_seq elements).symm.trans h) false items state
  case nil =>
    intro _ mayTake items state
    exact nofun
  case nested =>
    intro inside rest ihInside ihRest h mayTake items state
    obtain ⟨hinside, hrest⟩ := (checkElements_cons_seq inside rest).mp h
    exact (ihInside hinside false items state).andThen (ihRest hrest mayTake items)
  case wait =>
    intro l rest hwait ih h mayTake items state
    have hrest := (checkElements_cons_plain (hwait ▸ Rule.ofName?_waitName) rest).symm.trans h
    cases mayTake with
    | false =>
        simp only [courseOf, hwait, ↓reduceIte, Bool.false_eq_true]
        exact ih hrest false items state
    | true =>
        simp only [courseOf, hwait, ↓reduceIte]
        exact Course.Whole.asking (fun key state =>
          (ih hrest false items state).closedBy (Course.whole_ofRun _ _)) state
  case action =>
    intro l rest hwait hrule ih h mayTake items state
    have hrest := (checkElements_cons_plain hrule rest).symm.trans h
    simp only [courseOf, hwait, hrule, ↓reduceIte]
    exact (Course.whole_ofRun _ _ state).andThen (ih hrest mayTake items)
  case condition =>
    intro l rule yes no others hrule ihYes ihNo ihOthers h mayTake items state
    obtain ⟨hyes, hno, hothers⟩ := (checkElements_cons_rule hrule yes no others).mp h
    simp only [courseOf, ne_waitName_of_rule hrule, hrule, ↓reduceIte]
    refine Course.Whole.asking (fun verdicts state => ?_) state
    exact (Course.whole_ofRun _ _ state).andThen fun state =>
      (onBranch_induction (fun _ => nofun) (ihYes hyes) _ state).andThen fun state =>
        (onBranch_induction (fun _ => nofun) (ihNo hno) _ state).andThen (ihOthers hothers mayTake items)
  case short =>
    intro l rule short hrule hshort h
    rw [checkElements_cons_rule_short hrule hshort] at h
    cases h

/-- Playing an outermost run of an expression that passes the check is its course. -/
theorem play_run_eq_outermostCourse {expression : Expr} (h : expression.check = .ok ())
    (items : List Item) (state : σ) :
    (run source mode expression (.many items)).play oracle state =
      (outermostCourse oracle source mode expression items state).played := by
  cases expression with
  | leaf l =>
      rw [run_leaf, outermostCourse, ← runInner_leaf]
      exact (play_eq_course oracle source mode).1 _ _ _
  | seq elements =>
      rw [run_seq _ _ _ h, outermostCourse]
      exact (play_eq_course oracle source mode).2 _ _ _ _

theorem explained_outermostCourse (expression : Expr) (items : List Item) (state : σ) :
    (outermostCourse oracle source mode expression items state).Explained := by
  cases expression with
  | leaf l => exact (explained_course oracle source mode).1 (leaf l) items state
  | seq elements => exact (explained_course oracle source mode).2 elements true items state

theorem whole_outermostCourse {expression : Expr} (h : expression.check = .ok ())
    (items : List Item) (state : σ) :
    (outermostCourse oracle source mode expression items state).Whole := by
  cases expression with
  | leaf l => exact (whole_course oracle source mode).1 (leaf l) h items state
  | seq elements =>
      exact (whole_course oracle source mode).2 elements ((check_seq elements).symm.trans h) true
        items state

end Expr
end ActionFlow

import ActionFlow.Running

/-!
# Walking by index, and element by element

A sequence is walked by an index that advances by one or by three, with a place for the key to the
barrier beside the walk. Reasoning about expressions wants neither: it goes through the element list,
and asks what one element does and what the rest does after it. This module gives that second form,
`runElements`, in which the part of a sequence behind the first outermost `wait` is bracketed by
taking the barrier and giving the key back, and shows that both forms are the same program.

## Main results

* `complete_walk`: a complete walk is `runElements`.
* `runInner_seq`, `run_seq`: so are nested and outermost sequences.
* `runElements_cons_seq`, `runElements_cons_wait`, …: how each kind of element runs, one equation
  each.
* `inside_induction`, `run_induction`: what is true inside expressions, and of whole runs, follows from what
  is true of the parts they are put together of.
-/

namespace ActionFlow

/-! ## Walks as programs -/

namespace Walk

variable {α β : Type}

/-- Two walks are the same if they are the same program from every content of the key's place. -/
theorem ext {first second : Walk α}
    (h : ∀ key, first.run.run key = second.run.run key) : first = second :=
  funext h

theorem run_lift (body : Run α) (key : Option PauseId) :
    (lift body).run.run key = body.run.bind fun ending => .done (ending, key) := rfl

/-- Goes on with a walk unless what came before it has failed. -/
def andThen (next : α → Walk β) :
    Except Failure α × Option PauseId → Program (Except Failure β × Option PauseId)
  | (.ok result, key) => (next result).run.run key
  | (.error failure, key) => .done (.error failure, key)

theorem run_bind (walk : Walk α) (next : α → Walk β) (key : Option PauseId) :
    (walk >>= next).run.run key = (walk.run.run key).bind (andThen next) := by
  show Program.bind _ _ = _
  congr 1
  funext ending
  obtain ⟨ending, place⟩ := ending
  cases ending <;> rfl

theorem lift_pure (result : α) : lift (pure result) = pure result := rfl

theorem lift_throw (failure : Failure) : lift (throw failure : Run α) = throw failure := rfl

theorem lift_bind (body : Run α) (next : α → Run β) :
    lift (body >>= next) = lift body >>= fun result => lift (next result) := by
  refine ext fun key => ?_
  rw [run_bind, run_lift, run_lift, ExceptT.run_bind, Program.bind_assoc]
  show (Program.bind body.run _).bind _ = _
  rw [Program.bind_assoc]
  congr 1
  funext ending
  cases ending <;> rfl

/-- Walks that go on in the same way from the same content of the key's place are the same there. -/
theorem run_lift_bind_congr {body : Run α} {first second : α → Walk β} {key : Option PauseId}
    (h : ∀ result, (first result).run.run key = (second result).run.run key) :
    (lift body >>= first).run.run key = (lift body >>= second).run.run key := by
  rw [run_bind, run_bind, run_lift, Program.bind_assoc, Program.bind_assoc]
  congr 1
  funext ending
  cases ending with
  | ok result => exact h result
  | error => rfl

/-- What is done before the barrier is taken stands outside the bracket. -/
theorem complete_lift_bind (body : Run α) (next : α → Walk Unit) :
    (lift body >>= next).complete = body >>= fun result => (next result).complete := by
  refine congrArg ExceptT.mk ?_
  rw [run_bind, run_lift, Program.bind_assoc, Program.bind_assoc]
  show _ = Program.bind body.run _
  congr 1
  funext ending
  cases ending <;> rfl

/-- Taking the barrier opens a bracket that the key's return closes. -/
theorem complete_takeBarrier_bind {next : Walk Unit} {rest : PauseId → Run Unit}
    (h : ∀ key, next.run.run (some key) = (lift (rest key)).run.run (some key)) :
    (takeBarrier >>= fun _ => next).complete = (do
      let key ← Run.await .barrier
      Run.ensuring (rest key) (Run.release key)) := by
  have taking : (takeBarrier >>= fun _ => next).run.run none =
      (Run.await .barrier).run.bind fun
        | .ok key => next.run.run (some key)
        | .error failure => .done (.error failure, none) := by
    refine congrArg (Program.act _) (funext fun reply => ?_)
    cases reply <;> rfl
  refine congrArg ExceptT.mk ?_
  rw [taking, Program.bind_assoc]
  show _ = Program.bind _ _
  congr 1
  funext reply
  cases reply with
  | error => rfl
  | ok key =>
      show (next.run.run (some key)).bind giveBack = (Run.ensuring (rest key) (Run.release key)).run
      rw [h key, run_lift, Program.bind_assoc, Run.run_ensuring]
      rfl

end Walk

/-! ## Element by element -/

namespace Expr

/-- Runs the elements of a sequence one after the other. The barrier may be taken at a `wait` if
`outermost` holds, that is, in the outermost sequence until it has been taken; it is given back when
all the rest of the sequence has ended, however it ended. -/
def runElements (source : String) (mode : Mode) :
    (outermost : Bool) → List Expr → Supply → Run Unit
  | _, [], _ => pure ()
  | outermost, seq inside :: rest, items => do
      runInner source mode (seq inside) items
      runElements source mode outermost rest items
  | outermost, leaf l :: rest, items =>
      if l.name = waitName then
        if outermost then do
          let key ← Run.await .barrier
          Run.ensuring (runElements source mode false rest items) (Run.release key)
        else runElements source mode false rest items
      else
        match Rule.ofName? l.name with
        | none => do
            runInner source mode (leaf l) items
            runElements source mode outermost rest items
        | some rule =>
            match rest with
            | yes :: no :: others => do
                let (yesItems, noItems) ← rule.route source l.args items
                onPart yesItems (runInner source mode yes)
                onPart noItems (runInner source mode no)
                runElements source mode outermost others items
            | short => throw (.malformedExpression l.name short.length)

variable (source : String) (mode : Mode) (outermost : Bool) (items : Supply)

/-! ### Induction -/

/-- Going through an expression as it runs: a sequence element by element, where a condition comes
with its branches, which are expressions of their own. -/
theorem running_induction {inner : Expr → Prop} {ahead : List Expr → Prop}
    (single : ∀ l, inner (leaf l)) (several : ∀ elements, ahead elements → inner (seq elements))
    (nil : ahead [])
    (nested : ∀ inside rest, ahead inside → ahead rest → ahead (seq inside :: rest))
    (wait : ∀ l rest, l.name = waitName → ahead rest → ahead (leaf l :: rest))
    (action : ∀ l rest, l.name ≠ waitName → Rule.ofName? l.name = none → ahead rest →
      ahead (leaf l :: rest))
    (condition : ∀ l rule yes no others, Rule.ofName? l.name = some rule → inner yes → inner no →
      ahead others → ahead (leaf l :: yes :: no :: others))
    (short : ∀ l rule short, Rule.ofName? l.name = some rule → short.length < 2 →
      ahead (leaf l :: short)) :
    (∀ expression, inner expression) ∧ ∀ elements, ahead elements := by
  have both : ∀ n, (∀ expression, sizeOf expression < n → inner expression) ∧
      ∀ elements : List Expr, sizeOf elements < n → ahead elements := by
    intro n
    induction n with
    | zero => exact ⟨fun _ h => absurd h (Nat.not_lt_zero _), fun _ h => absurd h (Nat.not_lt_zero _)⟩
    | succ n ih =>
    obtain ⟨ihInner, ihAhead⟩ := ih
    constructor
    · intro expression hsize
      cases expression with
      | leaf l => exact single l
      | seq elements => exact several _ (ihAhead _ (by simp only [seq.sizeOf_spec] at hsize; omega))
    · intro elements hsize
      match elements with
      | [] => exact nil
      | seq inside :: rest =>
          simp only [List.cons.sizeOf_spec, seq.sizeOf_spec] at hsize
          exact nested _ _ (ihAhead _ (by omega)) (ihAhead _ (by omega))
      | leaf l :: rest =>
          simp only [List.cons.sizeOf_spec] at hsize
          by_cases hwait : l.name = waitName
          · exact wait _ _ hwait (ihAhead _ (by omega))
          · cases hrule : Rule.ofName? l.name with
            | none => exact action _ _ hwait hrule (ihAhead _ (by omega))
            | some rule =>
                match rest with
                | yes :: no :: others =>
                    simp only [List.cons.sizeOf_spec] at hsize
                    exact condition _ _ _ _ _ hrule (ihInner _ (by omega)) (ihInner _ (by omega))
                      (ihAhead _ (by omega))
                | [] | [_] => exact short _ _ _ hrule (by simp)
  exact ⟨fun expression => (both _).1 expression (Nat.lt_succ_self _),
    fun elements => (both _).2 elements (Nat.lt_succ_self _)⟩

/-- Going through a single sequence element by element. -/
@[elab_as_elim]
theorem elements_induction {motive : List Expr → Prop} (nil : motive [])
    (nested : ∀ inside rest, motive rest → motive (seq inside :: rest))
    (wait : ∀ l rest, l.name = waitName → motive rest → motive (leaf l :: rest))
    (action : ∀ l rest, l.name ≠ waitName → Rule.ofName? l.name = none → motive rest →
      motive (leaf l :: rest))
    (condition : ∀ l rule yes no others, Rule.ofName? l.name = some rule → motive others →
      motive (leaf l :: yes :: no :: others))
    (short : ∀ l rule short, Rule.ofName? l.name = some rule → short.length < 2 →
      motive (leaf l :: short))
    (elements : List Expr) : motive elements :=
  (@running_induction (fun _ => True) motive (fun _ => trivial) (fun _ _ => trivial) nil
    (fun inside rest _ => nested inside rest) wait action
    (fun l rule yes no others hrule _ _ => condition l rule yes no others hrule) short).2 elements

/-! ### One equation for each kind of element -/

theorem runElements_nil : runElements source mode outermost [] items = pure () := rfl

theorem runElements_cons_seq (inside rest : List Expr) :
    runElements source mode outermost (seq inside :: rest) items = (do
      runInner source mode (seq inside) items
      runElements source mode outermost rest items) := rfl

/-- Inside, or once the barrier is taken, a `wait` does nothing. -/
theorem runElements_cons_wait {l : Leaf} (h : l.name = waitName) (rest : List Expr) :
    runElements source mode false (leaf l :: rest) items = runElements source mode false rest items := by
  simp [runElements, h]

/-- The first outermost `wait` brackets everything that follows it. -/
theorem runElements_cons_outermost_wait {l : Leaf} (h : l.name = waitName) (rest : List Expr) :
    runElements source mode true (leaf l :: rest) items = (do
      let key ← Run.await .barrier
      Run.ensuring (runElements source mode false rest items) (Run.release key)) := by
  simp [runElements, h]

theorem runElements_cons_action {l : Leaf} (hwait : l.name ≠ waitName)
    (hrule : Rule.ofName? l.name = none) (rest : List Expr) :
    runElements source mode outermost (leaf l :: rest) items = (do
      runInner source mode (leaf l) items
      runElements source mode outermost rest items) := by
  simp [runElements, hwait, hrule]

/-- No rule has the name of the barrier marker. -/
theorem ne_waitName_of_rule {name : String} {rule : Rule} (h : Rule.ofName? name = some rule) :
    name ≠ waitName := by
  rintro rfl
  simp [Rule.ofName?_waitName] at h

theorem runElements_cons_rule {l : Leaf} {rule : Rule} (h : Rule.ofName? l.name = some rule)
    (yes no : Expr) (others : List Expr) :
    runElements source mode outermost (leaf l :: yes :: no :: others) items = (do
      let (yesItems, noItems) ← rule.route source l.args items
      onPart yesItems (runInner source mode yes)
      onPart noItems (runInner source mode no)
      runElements source mode outermost others items) := by
  simp [runElements, ne_waitName_of_rule h, h]

theorem runElements_cons_rule_short {l : Leaf} {rule : Rule} (h : Rule.ofName? l.name = some rule)
    {short : List Expr} (hshort : short.length < 2) :
    runElements source mode outermost (leaf l :: short) items =
      throw (.malformedExpression l.name short.length) := by
  match short, hshort with
  | [], _ => simp [runElements, ne_waitName_of_rule h, h]
  | [_], _ => simp [runElements, ne_waitName_of_rule h, h]

/-! ### The same by index -/

section ByIndex

variable {elements : List Expr} {index : Nat}

theorem walk_ended (h : elements.drop index = []) :
    walk source mode outermost elements items index = pure () := by
  have ended : elements[index]? = none :=
    List.getElem?_eq_none_iff.mpr (List.drop_eq_nil_iff.mp h)
  rw [walk]
  split <;> simp_all

/-- The element at an index, and the rest behind it. -/
theorem getElem?_of_drop {element : Expr} {rest : List Expr}
    (h : elements.drop index = element :: rest) :
    elements[index]? = some element ∧ elements.drop (index + 1) = rest := by
  constructor
  · rw [← List.head?_drop, h]
    rfl
  · rw [← List.drop_drop, h]
    rfl

theorem walk_seq {inside rest : List Expr} (h : elements.drop index = seq inside :: rest) :
    walk source mode outermost elements items index = (do
      Walk.lift (runInner source mode (seq inside) items)
      walk source mode outermost elements items (index + 1)) := by
  have here := (getElem?_of_drop h).1
  rw [walk]
  split <;> simp_all

theorem walk_wait {l : Leaf} {rest : List Expr} (h : elements.drop index = leaf l :: rest)
    (hwait : l.name = waitName) :
    walk source mode outermost elements items index = (do
      if outermost then Walk.takeBarrier
      walk source mode outermost elements items (index + 1)) := by
  have here := (getElem?_of_drop h).1
  rw [walk]
  split <;> simp_all

theorem walk_action {l : Leaf} {rest : List Expr} (h : elements.drop index = leaf l :: rest)
    (hwait : l.name ≠ waitName) (hrule : Rule.ofName? l.name = none) :
    walk source mode outermost elements items index = (do
      Walk.lift (runInner source mode (leaf l) items)
      walk source mode outermost elements items (index + 1)) := by
  have here := (getElem?_of_drop h).1
  rw [walk]
  split <;> simp_all

theorem walk_rule {l : Leaf} {rule : Rule} {yes no : Expr} {others : List Expr}
    (h : elements.drop index = leaf l :: yes :: no :: others)
    (hrule : Rule.ofName? l.name = some rule) :
    walk source mode outermost elements items index = (do
      let (yesItems, noItems) ← Walk.lift (rule.route source l.args items)
      Walk.lift (onPart yesItems (runInner source mode yes))
      Walk.lift (onPart noItems (runInner source mode no))
      walk source mode outermost elements items (index + 3)) := by
  obtain ⟨here, behind⟩ := getElem?_of_drop h
  have hwait := ne_waitName_of_rule hrule
  have branches : (elements.drop (index + 1)).take 2 = [yes, no] := by rw [behind]; rfl
  rw [walk]
  split
  all_goals simp_all only [Option.some.injEq, leaf.injEq, reduceCtorEq, ↓reduceIte]
  split <;> simp_all

theorem walk_rule_short {l : Leaf} {rule : Rule} {short : List Expr}
    (h : elements.drop index = leaf l :: short) (hrule : Rule.ofName? l.name = some rule)
    (hshort : short.length < 2) :
    walk source mode outermost elements items index =
      throw (.malformedExpression l.name short.length) := by
  obtain ⟨here, behind⟩ := getElem?_of_drop h
  have hwait := ne_waitName_of_rule hrule
  have branches : (elements.drop (index + 1)).take 2 = short := by
    rw [behind]
    exact List.take_of_length_le (Nat.le_of_lt hshort)
  rw [walk]
  split
  all_goals simp_all only [Option.some.injEq, leaf.injEq, reduceCtorEq, ↓reduceIte]
  split
  next yes no both =>
    rw [behind, branches] at both
    simp [both] at hshort
  next => rw [behind, branches]

/-- The elements behind a condition and its branches. -/
theorem drop_of_rule {l : Leaf} {yes no : Expr} {others : List Expr}
    (h : elements.drop index = leaf l :: yes :: no :: others) : elements.drop (index + 3) = others := by
  rw [← List.drop_drop, h]
  rfl

/-- A walk in which the barrier is not to be taken, or has been, leaves the key's place alone. -/
theorem run_walk_eq_lift {key : Option PauseId} (h : outermost = false ∨ key.isSome)
    (elements ahead : List Expr) (index : Nat) (hahead : elements.drop index = ahead) :
    (walk source mode outermost elements items index).run.run key =
      (Walk.lift (runElements source mode false ahead items)).run.run key := by
  induction ahead using elements_induction generalizing index with
  | nil => rw [walk_ended _ _ _ _ hahead, runElements_nil, Walk.lift_pure]
  | nested inside rest ih =>
      rw [walk_seq _ _ _ _ hahead, runElements_cons_seq, Walk.lift_bind]
      exact Walk.run_lift_bind_congr fun _ => ih _ (getElem?_of_drop hahead).2
  | wait l rest hwait ih =>
      rw [walk_wait _ _ _ _ hahead hwait, runElements_cons_wait _ _ _ hwait,
        ← ih _ (getElem?_of_drop hahead).2]
      rcases h with rfl | h
      · rfl
      · obtain ⟨key, rfl⟩ := Option.isSome_iff_exists.mp h
        cases outermost <;> rfl
  | action l rest hwait hrule ih =>
      rw [walk_action _ _ _ _ hahead hwait hrule, runElements_cons_action _ _ _ _ hwait hrule,
        Walk.lift_bind]
      exact Walk.run_lift_bind_congr fun _ => ih _ (getElem?_of_drop hahead).2
  | condition l rule yes no others hrule ih =>
      rw [walk_rule _ _ _ _ hahead hrule, runElements_cons_rule _ _ _ _ hrule, Walk.lift_bind]
      refine Walk.run_lift_bind_congr fun _ => ?_
      rw [Walk.lift_bind]
      refine Walk.run_lift_bind_congr fun _ => ?_
      rw [Walk.lift_bind]
      exact Walk.run_lift_bind_congr fun _ => ih _ (drop_of_rule hahead)
  | short l rule short hrule hshort =>
      rw [walk_rule_short _ _ _ _ hahead hrule hshort,
        runElements_cons_rule_short _ _ _ _ hrule hshort, Walk.lift_throw]

/-- A complete walk runs the elements ahead one after the other. -/
theorem complete_walk_drop (elements ahead : List Expr) (index : Nat)
    (hahead : elements.drop index = ahead) :
    (walk source mode outermost elements items index).complete =
      runElements source mode outermost ahead items := by
  induction ahead using elements_induction generalizing index with
  | nil =>
      rw [walk_ended _ _ _ _ hahead, runElements_nil]
      rfl
  | nested inside rest ih =>
      rw [walk_seq _ _ _ _ hahead, runElements_cons_seq, Walk.complete_lift_bind,
        ih _ (getElem?_of_drop hahead).2]
  | wait l rest hwait ih =>
      have behind := (getElem?_of_drop hahead).2
      rw [walk_wait _ _ _ _ hahead hwait]
      cases outermost with
      | false =>
          rw [runElements_cons_wait _ _ _ hwait]
          exact ih _ behind
      | true =>
          rw [runElements_cons_outermost_wait _ _ _ hwait]
          exact Walk.complete_takeBarrier_bind fun key =>
            run_walk_eq_lift _ _ _ _ (.inr rfl) _ _ _ behind
  | action l rest hwait hrule ih =>
      rw [walk_action _ _ _ _ hahead hwait hrule, runElements_cons_action _ _ _ _ hwait hrule,
        Walk.complete_lift_bind, ih _ (getElem?_of_drop hahead).2]
  | condition l rule yes no others hrule ih =>
      rw [walk_rule _ _ _ _ hahead hrule, runElements_cons_rule _ _ _ _ hrule]
      simp only [Walk.complete_lift_bind]
      rw [ih _ (drop_of_rule hahead)]
  | short l rule short hrule hshort =>
      rw [walk_rule_short _ _ _ _ hahead hrule hshort,
        runElements_cons_rule_short _ _ _ _ hrule hshort]
      rfl

end ByIndex

/-- Walking a sequence from its start by index is running its elements one after the other. -/
theorem complete_walk (elements : List Expr) :
    (walk source mode outermost elements items 0).complete =
      runElements source mode outermost elements items :=
  complete_walk_drop source mode outermost items elements _ 0 rfl

theorem runInner_leaf (l : Leaf) :
    runInner source mode (leaf l) items = invoke source l.name items l.args mode := by
  rw [runInner]

theorem runInner_seq (elements : List Expr) :
    runInner source mode (seq elements) items = runElements source mode false elements items := by
  rw [runInner, complete_walk]

theorem run_leaf (l : Leaf) :
    run source mode (leaf l) items = invoke source l.name items l.args mode := rfl

theorem run_seq {elements : List Expr} (h : (seq elements).check = .ok ()) :
    run source mode (seq elements) items = runElements source mode true elements items := by
  rw [run, h]
  exact complete_walk source mode true items elements

/-- An expression that the check refuses is not run at all. -/
theorem run_of_check_error {expression : Expr} {failure : Failure}
    (h : expression.check = .error failure) :
    run source mode expression items = throw failure := by
  simp only [run, h]

/-! ## What all runs have in common -/

section Common

variable {source : String} {mode : Mode}

/-- A part is passed over, or something is run on its items. -/
theorem onPart_induction {motive : Run Unit → Prop} (done : motive (pure ())) {body : Supply → Run Unit}
    (h : ∀ items, motive (body items)) (part : List Item) : motive (onPart part body) := by
  unfold onPart
  split
  · exact done
  · exact h _

/-- What is true of invocations and carries over to what they are put together to is true of whatever
stands inside an expression. -/
theorem inside_induction {motive : Run Unit → Prop} (done : motive (pure ()))
    (fails : ∀ failure, motive (throw failure))
    (andThen : ∀ {first second : Run Unit}, motive first → motive second → motive (do first; second))
    (invokes : ∀ name items args, motive (invoke source name items args mode))
    (routes : ∀ (rule : Rule) (args : List String) (items : Supply)
      {next : List Item × List Item → Run Unit}, (∀ parts, motive (next parts)) →
        motive (rule.route source args items >>= next)) :
    (∀ expression items, motive (runInner source mode expression items)) ∧
      ∀ elements items, motive (runElements source mode false elements items) := by
  refine running_induction ?single ?several ?nil ?nested ?wait ?action ?condition ?short
  case single =>
    intro l items
    rw [runInner_leaf]
    exact invokes _ _ _
  case several =>
    intro elements ih items
    rw [runInner_seq]
    exact ih items
  case nil => exact fun _ => done
  case nested =>
    intro inside rest ihInside ihRest items
    rw [runElements_cons_seq, runInner_seq]
    exact andThen (ihInside items) (ihRest items)
  case wait =>
    intro l rest hwait ih items
    rw [runElements_cons_wait _ _ _ hwait]
    exact ih items
  case action =>
    intro l rest hwait hrule ih items
    rw [runElements_cons_action _ _ _ _ hwait hrule, runInner_leaf]
    exact andThen (invokes _ _ _) (ih items)
  case condition =>
    intro l rule yes no others hrule ihYes ihNo ih items
    rw [runElements_cons_rule _ _ _ _ hrule]
    exact routes rule l.args items fun parts =>
      andThen (onPart_induction done ihYes parts.1) (andThen (onPart_induction done ihNo parts.2) (ih items))
  case short =>
    intro l rule short hrule hshort items
    rw [runElements_cons_rule_short _ _ _ _ hrule hshort]
    exact fails _

/-! What is true of whatever stands inside an expression may carry over to something that is true of whole
runs: to what comes before other elements, and to what is bracketed by the barrier. -/

variable {inside outside : Run Unit → Prop}
  (within : (∀ expression items, inside (runInner source mode expression items)) ∧
    ∀ elements items, inside (runElements source mode false elements items))
  (alone : ∀ {run}, inside run → outside run) (fails : ∀ failure, outside (throw failure))
  (andThen : ∀ {first second : Run Unit}, inside first → outside second → outside (do first; second))
  (routes : ∀ (rule : Rule) (args : List String) (items : Supply)
    {next : List Item × List Item → Run Unit}, (∀ parts, outside (next parts)) →
      outside (rule.route source args items >>= next))
  (brackets : ∀ {body : Run Unit}, inside body → outside (do
    let key ← Run.await .barrier
    Run.ensuring body (Run.release key)))

include within alone fails andThen routes brackets

theorem outermost_induction (elements : List Expr) (items : Supply) :
    outside (runElements source mode true elements items) := by
  obtain ⟨inner, ahead⟩ := within
  have done : inside (pure ()) := ahead [] items
  induction elements using elements_induction with
  | nil => exact alone done
  | nested inside rest ih =>
      rw [runElements_cons_seq]
      exact andThen (inner _ _) ih
  | wait l rest hwait ih =>
      rw [runElements_cons_outermost_wait _ _ _ hwait]
      exact brackets (ahead rest items)
  | action l rest hwait hrule ih =>
      rw [runElements_cons_action _ _ _ _ hwait hrule]
      exact andThen (inner _ _) ih
  | condition l rule yes no others hrule ih =>
      rw [runElements_cons_rule _ _ _ _ hrule]
      exact routes rule l.args items fun parts =>
        andThen (onPart_induction done (inner yes) parts.1)
          (andThen (onPart_induction done (inner no) parts.2) ih)
  | short l rule short hrule hshort =>
      rw [runElements_cons_rule_short _ _ _ _ hrule hshort]
      exact fails _

theorem run_induction (expression : Expr) (items : Supply) : outside (run source mode expression items) := by
  cases passes : expression.check with
  | error failure =>
      rw [run_of_check_error _ _ _ passes]
      exact fails failure
  | ok =>
      cases expression with
      | leaf l =>
          rw [run_leaf, ← runInner_leaf]
          exact alone (within.1 _ _)
      | seq elements =>
          rw [run_seq _ _ _ passes]
          exact outermost_induction within alone fails andThen routes brackets elements items

end Common

end Expr
end ActionFlow

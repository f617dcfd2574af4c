import ActionFlow.Proofs.Running.Invocation
import ActionFlow.Proofs.Running.Meaning
import ActionFlow.Proofs.Running.Routing

/-!
# Who is invoked with what

The log of a run is put together of the logs of its invocations, with what the run does by itself in between:
asking rules, noting what it does, taking the barrier and giving it back. Which leaf is invoked, and what it is
supplied with, is told by the expression: the elements of a sequence are supplied with what the sequence was
supplied with, and the branches of a condition with the items that were answered with yes or no.

Here the logs of expressions are described by recursion on the expression, together with the invocations in
them. Nothing is assumed of the answers, and a run may stop at any time, for something may fail.

## Main results

* `Expr.Serves`: the log of an expression that is supplied with items, and the invocations in it.
* `Expr.leaves_inside`, `Expr.leaves_run`: runs leave such logs, against every oracle.
* `Expr.weaves_serves`: such a log falls into the logs of its invocations and what stands in between, and the
  invocations are supplied with nothing but what the expression was supplied with.
-/

namespace ActionFlow

variable {σ α : Type}

/-- An invocation in a log: the leaf that was invoked, the items that it was supplied with, and what it has
left in the log. -/
structure Invocation where
  leaf : Leaf
  items : List Item
  log : List Answered

/-- Whether it is not by this entry that an invocation looks its action up, gathers items or tells a view. -/
def Answered.isAside : Answered → Bool
  | ⟨.op (.resolve ..), _⟩ | ⟨.op (.gather ..), _⟩ | ⟨.call (.requestRender ..), _⟩ => false
  | _ => true

/-! ## Descriptions of logs -/

/-- A description of logs, with the invocations in them. -/
abbrev Telling : Type := List Answered → List Invocation → Prop

namespace Telling

/-- Nothing is done. -/
def nothing : Telling := fun log served => log = [] ∧ served = []

/-- Nobody is invoked. -/
def aside : Telling := fun log served => log.all Answered.isAside = true ∧ served = []

/-- One thing comes behind another, unless it is not reached. -/
def andThen (first next : Telling) : Telling := fun log served =>
  ∃ front back invoked others, log = front ++ back ∧ served = invoked ++ others ∧ first front invoked ∧
    (next back others ∨ nothing back others)

/-- A leaf is invoked on what it is supplied with. -/
def invoked (source : String) (mode : Mode) (leaf : Leaf) (items : Supply) : Telling := fun log served =>
  served = [⟨leaf, items.toList, log⟩] ∧
    ∃ ending, Invoked source leaf.name items.toList leaf.args mode log ending

/-- Something is done with the items of a part, unless there are none. -/
def onPart (part : List Item) (reached : Supply → Telling) : Telling :=
  if part = [] then nothing else reached (.many part)

end Telling

theorem Telling.andThen_of_first {first : Telling} (next : Telling) {log : List Answered}
    {served : List Invocation} (h : first log served) : first.andThen next log served :=
  ⟨log, [], served, [], (List.append_nil log).symm, (List.append_nil served).symm, h, .inr ⟨rfl, rfl⟩⟩

/-- The items of a supply one by one, and how they are looked up. -/
inductive Supply.Parted : Supply → List Answered → List Item → Prop where
  | many (items : List Item) : Parted (.many items) [] items
  | single (item : Item) (count : Nat) :
      Parted (.single item) [⟨.op (.partsOf item), .some count⟩]
        ((List.range count).map fun index => .part (item.key?.getD "") index)

/-- Items are routed by a rule, and the parts are handed on, unless that is not reached. -/
def Telling.routed (rule : Rule) (source : String) (args : List String) (items : Supply)
    (next : List Item → List Item → Telling) : Telling := fun log served =>
  Telling.aside log served ∨ ∃ parting members verdicts further,
    items.Parted parting members ∧ verdicts.length = members.length ∧
      log = parting ++ rule.routing source args members verdicts ++ further ∧
      next (Expr.sortedOut members verdicts true) (Expr.sortedOut members verdicts false) further served

mutual

/-- The log of an expression that is supplied with items, and the invocations in it. -/
def Expr.Serves (source : String) (mode : Mode) : Expr → Supply → Telling
  | .leaf l, items => .invoked source mode l items
  | .seq elements, items => Expr.ServesAll source mode elements items

/-- The log of a sequence. Every element is supplied with what the sequence is supplied with, and the branches
of a condition with their parts. -/
def Expr.ServesAll (source : String) (mode : Mode) : List Expr → Supply → Telling
  | [], _ => .nothing
  | .seq inside :: rest, items =>
      (Expr.ServesAll source mode inside items).andThen (Expr.ServesAll source mode rest items)
  | .leaf l :: rest, items =>
      if l.name = waitName then
        Telling.aside.andThen ((Expr.ServesAll source mode rest items).andThen .aside)
      else
        match Rule.ofName? l.name with
        | none => (Telling.invoked source mode l items).andThen (Expr.ServesAll source mode rest items)
        | some rule =>
            match rest with
            | yes :: no :: others =>
                .routed rule source l.args items fun yesItems noItems =>
                  (Telling.onPart yesItems (Expr.Serves source mode yes)).andThen
                    ((Telling.onPart noItems (Expr.Serves source mode no)).andThen
                      (Expr.ServesAll source mode others items))
            | _ => .nothing

end

namespace Expr

variable (source : String) (mode : Mode) (items : Supply)

theorem servesAll_cons_wait {l : Leaf} (h : l.name = waitName) (rest : List Expr) :
    ServesAll source mode (.leaf l :: rest) items =
      Telling.aside.andThen ((ServesAll source mode rest items).andThen .aside) := by
  simp [ServesAll, h]

theorem servesAll_cons_action {l : Leaf} (hwait : l.name ≠ waitName) (hrule : Rule.ofName? l.name = none)
    (rest : List Expr) : ServesAll source mode (.leaf l :: rest) items =
      (Telling.invoked source mode l items).andThen (ServesAll source mode rest items) := by
  simp [ServesAll, hwait, hrule]

theorem servesAll_cons_rule {l : Leaf} {rule : Rule} (h : Rule.ofName? l.name = some rule)
    (yes no : Expr) (others : List Expr) :
    ServesAll source mode (.leaf l :: yes :: no :: others) items =
      .routed rule source l.args items fun yesItems noItems =>
        (Telling.onPart yesItems (Serves source mode yes)).andThen
          ((Telling.onPart noItems (Serves source mode no)).andThen (ServesAll source mode others items)) := by
  simp [ServesAll, ne_waitName_of_rule h, h]

theorem servesAll_cons_rule_short {l : Leaf} {rule : Rule} (h : Rule.ofName? l.name = some rule)
    {short : List Expr} (hshort : short.length < 2) :
    ServesAll source mode (.leaf l :: short) items = .nothing := by
  match short, hshort with
  | [], _ | [_], _ => simp [ServesAll, ne_waitName_of_rule h, h]

end Expr

/-! ## Logs of runs -/

namespace Run

/-- A run whose log is as described. -/
def Leaves (oracle : Oracle σ) (run : Run α) (telling : Telling) : Prop :=
  ∀ state, ∃ served, telling (run.play oracle state).log served

variable {oracle : Oracle σ} {run : Run α} {body cleanup : Run Unit} {next : α → Run Unit}
  {first second : Telling}

theorem leaves_pure (result : α) : (pure result : Run α).Leaves oracle .nothing := fun _ => ⟨[], rfl, rfl⟩

theorem leaves_throw (failure : Failure) : (throw failure : Run α).Leaves oracle .nothing :=
  fun _ => ⟨[], rfl, rfl⟩

theorem Leaves.bind (h : run.Leaves oracle first) (rest : ∀ result, (next result).Leaves oracle second) :
    (run >>= next).Leaves oracle (first.andThen second) := by
  intro state
  obtain ⟨invoked, leaves⟩ := h state
  rw [play_bind]
  unfold Play.andThen
  cases (run.play oracle state).result with
  | ok result =>
    obtain ⟨others, more⟩ := rest result (run.play oracle state).state
    exact ⟨_, _, _, _, _, rfl, rfl, leaves, .inl more⟩
  | error => exact ⟨_, _, _, _, _, rfl, rfl, leaves, .inr ⟨rfl, rfl⟩⟩

theorem Leaves.ensuring (h : body.Leaves oracle first) (tidy : cleanup.Leaves oracle second) :
    (Run.ensuring body cleanup).Leaves oracle (first.andThen second) := by
  intro state
  obtain ⟨invoked, leaves⟩ := h state
  obtain ⟨others, more⟩ := tidy (body.play oracle state).state
  rw [play_ensuring_eq]
  exact ⟨_, _, _, _, _, rfl, rfl, leaves, .inl more⟩

theorem Leaves.onPart {reached : Supply → Run Unit} {telling : Supply → Telling}
    (h : ∀ items, (reached items).Leaves oracle (telling items)) (part : List Item) :
    (onPart part reached).Leaves oracle (.onPart part telling) := by
  cases part with
  | nil => exact leaves_pure ()
  | cons item rest => exact h _

/-! ### What a run does by itself -/

/-- A run in whose log nobody is invoked. -/
def StaysAside (oracle : Oracle σ) (run : Run α) : Prop :=
  ∀ state, (run.play oracle state).log.all Answered.isAside = true

theorem StaysAside.leaves (h : run.StaysAside oracle) : run.Leaves oracle .aside :=
  fun state => ⟨[], h state, rfl⟩

theorem StaysAside.bind {β : Type} {next : α → Run β} (h : run.StaysAside oracle)
    (rest : ∀ result, (next result).StaysAside oracle) : (run >>= next).StaysAside oracle := by
  intro state
  rw [play_bind]
  unfold Play.andThen
  rw [List.all_append, h state, Bool.true_and]
  cases (run.play oracle state).result with
  | ok result => exact rest result _
  | error => rfl

theorem staysAside_pure (result : α) : (pure result : Run α).StaysAside oracle := fun _ => rfl

theorem staysAside_await (pause : Pause) : (Run.await pause).StaysAside oracle := fun _ => rfl

theorem staysAside_release (key : PauseId) : (Run.release key).StaysAside oracle := fun _ => rfl

theorem staysAside_asking (rule : Rule) (source : String) (args : List String) (items : List Item) :
    (items.mapM (Run.test source rule args)).StaysAside oracle := by
  induction items with
  | nil => exact staysAside_pure _
  | cons item rest ih =>
    rw [List.mapM_cons]
    have tested : (Run.test source rule args item).StaysAside oracle := fun _ => rfl
    exact tested.bind fun _ => ih.bind fun _ => staysAside_pure _

/-! ### Conditions -/

variable (rule : Rule) (source : String) (args : List String)
  {next : List Item × List Item → Run Unit} {telling : List Item → List Item → Telling}

/-- A row of items is routed: all are asked about, and the parts are handed on; or asking fails. -/
theorem Leaves.route_many (h : ∀ yes no, (next (yes, no)).Leaves oracle (telling yes no)) (items : List Item)
    (state : σ) :
    ∃ served, (Telling.aside ((rule.route source args (.many items) >>= next).play oracle state).log served ∨
      ∃ verdicts further, verdicts.length = items.length ∧
        ((rule.route source args (.many items) >>= next).play oracle state).log =
          rule.routing source args items verdicts ++ further ∧
        telling (Expr.sortedOut items verdicts true) (Expr.sortedOut items verdicts false) further served) := by
  rw [Rule.route_many]
  simp only [bind_assoc, pure_bind]
  have asked : (items.mapM (Run.test source rule args)).StaysAside oracle :=
    staysAside_asking rule source args items
  rw [play_bind]
  unfold Play.andThen
  cases answers : ((items.mapM (Run.test source rule args)).play oracle state).result with
  | error => exact ⟨[], .inl ⟨by simpa using asked state, rfl⟩⟩
  | ok verdicts =>
    obtain ⟨length, log⟩ := rule.play_asking source args oracle items state answers
    obtain ⟨served, handed⟩ := h (Expr.sortedOut items verdicts true) (Expr.sortedOut items verdicts false)
      (oracle.answer ((items.mapM (Run.test source rule args)).play oracle state).state
        (.op (.record (.noted (.routed rule.name (Expr.sortedOut items verdicts true).length
          (Expr.sortedOut items verdicts false).length))))).2
    refine ⟨served, .inr ⟨verdicts, _, length, ?_, handed⟩⟩
    rw [log, Rule.routing, List.append_assoc]
    rfl

/-- A supply is gone through item by item: one item on its own is looked up first. -/
theorem route_members (items : Supply) :
    rule.route source args items = items.members >>= fun members => rule.route source args (.many members) := by
  simp only [Rule.route, Supply.members, pure_bind]

/-- The members of a supply are looked up in the log, or that fails. -/
theorem parted_members (oracle : Oracle σ) (items : Supply) (state : σ) :
    (items.members.play oracle state).log.all Answered.isAside = true ∧
      ∀ members, (items.members.play oracle state).result = .ok members →
        items.Parted (items.members.play oracle state).log members := by
  cases items with
  | many items =>
    refine ⟨rfl, fun members ended => ?_⟩
    cases ended
    exact .many items
  | single item =>
    unfold Supply.members
    simp only [play_op_bind]
    cases (oracle.answer state (.op (.partsOf item))).1 with
    | none => exact ⟨rfl, fun _ ended => nomatch ended⟩
    | some count =>
      refine ⟨rfl, fun members ended => ?_⟩
      cases ended
      exact .single item count

/-- So is any supply. -/
theorem Leaves.route (h : ∀ yes no, (next (yes, no)).Leaves oracle (telling yes no)) (items : Supply) :
    (rule.route source args items >>= next).Leaves oracle (.routed rule source args items telling) := by
  intro state
  obtain ⟨aside, parted⟩ := parted_members oracle items state
  rw [route_members, bind_assoc, play_bind]
  unfold Play.andThen
  cases looked : (items.members.play oracle state).result with
  | error => exact ⟨[], .inl ⟨by rwa [List.append_nil], rfl⟩⟩
  | ok members =>
    obtain ⟨served, stays | ⟨verdicts, further, length, log, handed⟩⟩ :=
      Leaves.route_many rule source args h members (items.members.play oracle state).state
    · exact ⟨served, .inl ⟨(List.all_append ..).trans (by rw [aside, stays.1, Bool.true_and]), stays.2⟩⟩
    · refine ⟨served, .inr ⟨_, members, verdicts, further, parted members looked, length, ?_, handed⟩⟩
      rw [log, List.append_assoc]

end Run

/-! ### Runs of expressions -/

theorem leaves_invoke (oracle : Oracle σ) (source : String) (mode : Mode) (l : Leaf) (items : Supply) :
    (invoke source l.name items l.args mode).Leaves oracle (.invoked source mode l items) := fun state =>
  ⟨_, rfl, _, invoked_invoke oracle source l.name items l.args mode state⟩

namespace Expr

variable (oracle : Oracle σ) (source : String) (mode : Mode)

/-- What stands inside an expression leaves the log of an expression. -/
theorem leaves_inside :
    (∀ expression items, (runInner source mode expression items).Leaves oracle
      (Serves source mode expression items)) ∧
    ∀ elements outermost items, (runElements source mode outermost elements items).Leaves oracle
      (ServesAll source mode elements items) := by
  refine running_induction ?single ?several ?nil ?nested ?wait ?action ?condition ?short
  case single =>
    intro l items
    rw [runInner_leaf]
    exact leaves_invoke oracle source mode l items
  case several =>
    intro elements ih items
    rw [runInner_seq]
    exact ih false items
  case nil => exact fun _ _ => Run.leaves_pure ()
  case nested =>
    intro inside rest ihInside ihRest outermost items
    rw [runElements_cons_seq, runInner_seq, ServesAll]
    exact (ihInside false items).bind fun _ => ihRest outermost items
  case wait =>
    intro l rest hwait ih outermost items
    rw [servesAll_cons_wait _ _ _ hwait]
    cases outermost with
    | false =>
      rw [runElements_cons_wait _ _ _ hwait]
      intro state
      obtain ⟨served, leaves⟩ := ih false items state
      have ended := Telling.andThen_of_first .aside leaves
      exact ⟨served, [], _, [], served, rfl, rfl, ⟨rfl, rfl⟩, .inl ended⟩
    | true =>
      rw [runElements_cons_outermost_wait _ _ _ hwait]
      exact (Run.staysAside_await .barrier).leaves.bind fun key =>
        (ih false items).ensuring (Run.staysAside_release key).leaves
  case action =>
    intro l rest hwait hrule ih outermost items
    rw [runElements_cons_action _ _ _ _ hwait hrule, runInner_leaf, servesAll_cons_action _ _ _ hwait hrule]
    exact (leaves_invoke oracle source mode l items).bind fun _ => ih outermost items
  case condition =>
    intro l rule yes no others hrule ihYes ihNo ih outermost items
    rw [runElements_cons_rule _ _ _ _ hrule, servesAll_cons_rule _ _ _ hrule]
    refine Run.Leaves.route rule source l.args (fun yesItems noItems => ?_) items
    exact (Run.Leaves.onPart ihYes yesItems).bind fun _ =>
      (Run.Leaves.onPart ihNo noItems).bind fun _ => ih outermost items
  case short =>
    intro l rule short hrule hshort outermost items
    rw [runElements_cons_rule_short _ _ _ _ hrule hshort, servesAll_cons_rule_short _ _ _ hrule hshort]
    exact Run.leaves_throw _

/-- **Runs leave the log of their expression**, if it passes the check, and else nothing. -/
theorem leaves_run (expression : Expr) (items : Supply) (state : σ) :
    let log := ((run source mode expression items).play oracle state).log
    ∃ served, (expression.check = .ok () → Serves source mode expression items log served) ∧
      ∀ failure, expression.check = .error failure → Telling.nothing log served := by
  intro log
  cases passes : expression.check with
  | error failure =>
    refine ⟨[], fun ok => (by cases ok), fun _ _ => ⟨?_, rfl⟩⟩
    show ((run source mode expression items).play oracle state).log = []
    rw [run_of_check_error _ _ _ passes]
    rfl
  | ok =>
    have leaves : ∃ served, Serves source mode expression items log served := by
      cases expression with
      | leaf l =>
        have alone := (leaves_inside oracle source mode).1 (leaf l) items state
        rwa [runInner_leaf] at alone
      | seq elements =>
        have outermost := (leaves_inside oracle source mode).2 elements true items state
        rwa [← run_seq _ _ _ passes] at outermost
    obtain ⟨served, serves⟩ := leaves
    exact ⟨served, fun _ => serves, fun _ refused => (by cases refused)⟩

end Expr

/-! ## What such logs are made of -/

/-- What an expression with a supply may hand on: the supply itself, or a row of some of its items, in their
order. -/
def Supply.Yields : Supply → List Item → Prop
  | many items, part => part.Sublist items
  | single item, part => part = [item] ∨ ∃ count, part.Sublist
      ((List.range count).map fun index => .part (item.key?.getD "") index)

theorem Supply.yields_toList (items : Supply) : items.Yields items.toList := by
  cases items with
  | many items => exact .refl items
  | single item => exact .inl rfl

/-- Some of the items of a supply are handed on. -/
theorem Supply.Parted.yields {items : Supply} {log : List Answered} {members part : List Item}
    (parted : items.Parted log members) (sublist : part.Sublist members) : items.Yields part := by
  cases parted with
  | many => exact sublist
  | single item count => exact .inr ⟨count, sublist⟩

/-- What is handed on may be handed on in parts. -/
theorem Supply.Yields.trans {items : Supply} {part less : List Item} (h : items.Yields part)
    (further : (Supply.many part).Yields less) : items.Yields less := by
  have sublist : less.Sublist part := further
  cases items with
  | many => exact sublist.trans h
  | single item =>
    rcases h with rfl | ⟨count, h⟩
    · rcases List.sublist_singleton.mp sublist with rfl | rfl
      · exact .inr ⟨0, .slnil⟩
      · exact .inl rfl
    · exact .inr ⟨count, sublist.trans h⟩

theorem Supply.Parted.all_aside {items : Supply} {log : List Answered} {members : List Item}
    (parted : items.Parted log members) : log.all Answered.isAside = true := by
  cases parted <;> rfl

theorem Rule.all_aside_routing (rule : Rule) (source : String) (args : List String) (items : List Item)
    (verdicts : List Bool) : (rule.routing source args items verdicts).all Answered.isAside = true := by
  have asked : (rule.asked source args items verdicts).all Answered.isAside = true := by
    induction items generalizing verdicts with
    | nil => rfl
    | cons item rest ih =>
      cases verdicts with
      | nil => rfl
      | cons verdict others => exact ih others
  rw [Rule.routing, List.all_append, asked]
  rfl

/-- A log that falls into logs of invocations, and entries in between by which nobody is invoked. Whether
something may be supplied is told by `among`. -/
inductive Woven (source : String) (mode : Mode) (among : List Item → Prop) :
    List Answered → List Invocation → Prop where
  | nil : Woven source mode among [] []
  | aside {entry : Answered} {log : List Answered} {served : List Invocation} (aside : entry.isAside = true)
      (rest : Woven source mode among log served) : Woven source mode among (entry :: log) served
  | invocation {invocation : Invocation} {ending : Except Failure Unit} {log : List Answered}
      {served : List Invocation} (supplied : among invocation.items)
      (invoked : Invoked source invocation.leaf.name invocation.items invocation.leaf.args mode invocation.log
        ending)
      (rest : Woven source mode among log served) :
      Woven source mode among (invocation.log ++ log) (invocation :: served)

namespace Woven

variable {source : String} {mode : Mode} {among others : List Item → Prop} {log more : List Answered}
  {served further : List Invocation}

theorem append (first : Woven source mode among log served) (second : Woven source mode among more further) :
    Woven source mode among (log ++ more) (served ++ further) := by
  induction first with
  | nil => exact second
  | aside stays _ ih => exact .aside stays ih
  | invocation supplied invoked _ ih =>
    rw [List.append_assoc]
    exact .invocation supplied invoked ih

theorem mono (h : Woven source mode among log served) (implies : ∀ items, among items → others items) :
    Woven source mode others log served := by
  induction h with
  | nil => exact .nil
  | aside stays _ ih => exact .aside stays ih
  | invocation supplied invoked _ ih => exact .invocation (implies _ supplied) invoked ih

/-- Everybody is supplied with what may be supplied. -/
theorem supplied (h : Woven source mode among log served) : ∀ invocation ∈ served, among invocation.items := by
  induction h with
  | nil => exact nofun
  | aside _ _ ih => exact ih
  | invocation supplied _ _ ih => exact List.forall_mem_cons.mpr ⟨supplied, ih⟩

theorem of_all_aside (h : log.all Answered.isAside = true) : Woven source mode among log [] := by
  induction log with
  | nil => exact .nil
  | cons entry log ih =>
    obtain ⟨first, rest⟩ := Bool.and_eq_true_iff.mp h
    exact .aside first (ih rest)

end Woven

/-- Whether a description is of logs that fall into logs of invocations. -/
def Telling.Weaves (telling : Telling) (source : String) (mode : Mode) (among : List Item → Prop) : Prop :=
  ∀ log served, telling log served → Woven source mode among log served

namespace Telling

variable {source : String} {mode : Mode} {among : List Item → Prop} {first next : Telling}

theorem weaves_nothing : nothing.Weaves source mode among := by
  rintro log served ⟨rfl, rfl⟩
  exact .nil

theorem weaves_aside : aside.Weaves source mode among := by
  rintro log served ⟨stays, rfl⟩
  exact .of_all_aside stays

theorem Weaves.andThen (h : first.Weaves source mode among) (more : next.Weaves source mode among) :
    (first.andThen next).Weaves source mode among := by
  rintro log served ⟨front, back, invoked, others, rfl, rfl, begins, goesOn | stops⟩
  · exact (h _ _ begins).append (more _ _ goesOn)
  · exact (h _ _ begins).append (weaves_nothing _ _ stops)

theorem weaves_invoked {l : Leaf} {items : Supply} (supplied : among items.toList) :
    (invoked source mode l items).Weaves source mode among := by
  rintro log served ⟨rfl, ending, invoked⟩
  have whole := @Woven.invocation source mode among ⟨l, items.toList, log⟩ ending [] [] supplied invoked .nil
  rwa [List.append_nil] at whole

theorem Weaves.mono {others : List Item → Prop} (h : first.Weaves source mode among)
    (implies : ∀ items, among items → others items) : first.Weaves source mode others :=
  fun _ _ tells => (h _ _ tells).mono implies

theorem Weaves.onPart {part : List Item} {reached : Supply → Telling}
    (h : (reached (.many part)).Weaves source mode among) : (onPart part reached).Weaves source mode among := by
  unfold Telling.onPart
  split
  · exact weaves_nothing
  · exact h

theorem weaves_routed {rule : Rule} {args : List String} {items : Supply}
    {further : List Item → List Item → Telling}
    (h : ∀ yes no : List Item, items.Yields yes → items.Yields no → (further yes no).Weaves source mode among) :
    (routed rule source args items further).Weaves source mode among := by
  rintro log served (stays | ⟨parting, members, verdicts, more, parted, length, rfl, tells⟩)
  · exact weaves_aside _ _ stays
  · have begins : (parting ++ rule.routing source args members verdicts).all Answered.isAside = true := by
      rw [List.all_append, parted.all_aside, Rule.all_aside_routing]
      rfl
    exact (Woven.of_all_aside begins).append (h _ _ (parted.yields (Expr.sortedOut_sublist length true))
      (parted.yields (Expr.sortedOut_sublist length false)) _ _ tells)

end Telling

namespace Expr

variable (source : String) (mode : Mode)

/-- The logs of expressions fall into those of invocations, who are supplied with nothing but what the expression
was supplied with. -/
theorem weaves_serves :
    (∀ (expression : Expr) (items : Supply),
      (Serves source mode expression items).Weaves source mode items.Yields) ∧
    ∀ (elements : List Expr) (items : Supply),
      (ServesAll source mode elements items).Weaves source mode items.Yields := by
  refine running_induction ?single ?several ?nil ?nested ?wait ?action ?condition ?short
  case single => exact fun l items => Telling.weaves_invoked items.yields_toList
  case several => exact fun elements ih items => ih items
  case nil => exact fun items => Telling.weaves_nothing
  case nested =>
    intro inside rest ihInside ihRest items
    rw [ServesAll]
    exact (ihInside items).andThen (ihRest items)
  case wait =>
    intro l rest hwait ih items
    rw [servesAll_cons_wait _ _ _ hwait]
    exact Telling.weaves_aside.andThen ((ih items).andThen Telling.weaves_aside)
  case action =>
    intro l rest hwait hrule ih items
    rw [servesAll_cons_action _ _ _ hwait hrule]
    exact (Telling.weaves_invoked items.yields_toList).andThen (ih items)
  case condition =>
    intro l rule yes no others hrule ihYes ihNo ih items
    rw [servesAll_cons_rule _ _ _ hrule]
    refine Telling.weaves_routed fun yesItems noItems inYes inNo => ?_
    refine (Telling.Weaves.onPart ((ihYes _).mono fun part => inYes.trans)).andThen ?_
    exact (Telling.Weaves.onPart ((ihNo _).mono fun part => inNo.trans)).andThen (ih items)
  case short =>
    intro l rule short hrule hshort items
    rw [servesAll_cons_rule_short _ _ _ hrule hshort]
    exact Telling.weaves_nothing

end Expr

end ActionFlow

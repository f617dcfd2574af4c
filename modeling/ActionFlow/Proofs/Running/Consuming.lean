import ActionFlow.Proofs.Running.Pacts
import ActionFlow.Proofs.Running.Serving

/-!
# What runs do with the selection

An action whose options say so consumes the selection when it is invoked: it is called with the items that
were given to it and those that are selected, the selection is left empty, and the view is told of all these
items. Nothing else that a run does of its own accord touches the selection. What a run has made of it can
therefore be told from its invocations: it is kept up to the first one that finds an action which consumes it,
and empty from there on, even if the view refuses or the callback fails.

A log is read twice for that. Entry by entry it tells what becomes of the selection, whatever program has left
it. As the log of an expression it falls into the logs of invocations, each with what it was supplied with. Both
together account for the selection.

## Main results

* `Tracked`, `Program.Honours.tracked`: what becomes of a selection along a log.
* `Accounted`, `Woven.accounted`: what becomes of it by one invocation after the other.
* `Expr.selection_is_accounted_for`: what is left of the selection, and what the view is told, by whom and
  how often.
-/

namespace ActionFlow

variable {τ α : Type}

/-! ## Selections along logs -/

/-- What is selected in a source. -/
def selected (source : String) (state : Explorer × τ) : Selection Item :=
  (state.1.sources source).selection

/-- Whether nobody but runs touches the selection of a source: neither callbacks, rules, views and loaders,
nor what other tasks do meanwhile. -/
def Oracle.SparesSelection (others : Oracle (Explorer × τ)) (source : String) : Prop :=
  ∀ state effect, selected source (others.answer state effect).2 = selected source state

/-- What merging leaves of a selection. -/
theorem Explorer.selection_gather (explorer : Explorer) (who : Option TaskId) (source : String)
    (policy : SelectPolicy) (given : List Item) :
    ((explorer.perform who (.gather source policy given)).1.sources source).selection =
      policy.remaining (explorer.sources source).selection := by
  simp only [perform, sources_update_self]

/-- Only a policy that consumes the selection leaves another one behind. -/
theorem SelectPolicy.remaining_of_ne {policy : SelectPolicy} (spares : policy ≠ .select)
    (selection : Selection Item) : policy.remaining selection = selection := by
  cases policy with
  | select => exact absurd rfl spares
  | replaceSingle | visual | keep => rfl

/-- A log along which the selection of a source is first one and then another. Merging is answered with what
that comes to, and leaves what the policy leaves; all else leaves the selection as it is. -/
inductive Tracked (source : String) : Selection Item → List Answered → Selection Item → Prop where
  | nil (selection : Selection Item) : Tracked source selection [] selection
  | gather (policy : SelectPolicy) (given : List Item) {initial final : Selection Item} {log : List Answered}
      (rest : Tracked source (policy.remaining initial) log final) :
      Tracked source initial
        (⟨.op (.gather source policy given), policy.merge given initial.items⟩ :: log) final
  | other {entry : Answered} {initial final : Selection Item} {log : List Answered}
      (spares : ∀ policy given, entry.effect ≠ .op (.gather source policy given))
      (rest : Tracked source initial log final) : Tracked source initial (entry :: log) final

namespace Tracked

variable {source : String} {initial final : Selection Item} {entry : Answered} {log quiet : List Answered}

theorem of_other (h : Tracked source initial (entry :: log) final)
    (spares : ∀ policy given, entry.effect ≠ .op (.gather source policy given)) :
    Tracked source initial log final := by
  cases h with
  | gather policy given => exact absurd rfl (spares policy given)
  | other _ rest => exact rest

theorem of_gather {policy : SelectPolicy} {given items : List Item}
    (h : Tracked source initial (⟨.op (.gather source policy given), items⟩ :: log) final) :
    items = policy.merge given initial.items ∧ Tracked source (policy.remaining initial) log final := by
  cases h with
  | gather _ _ rest => exact ⟨rfl, rest⟩
  | other spares => exact absurd rfl (spares policy given)

theorem of_aside (h : Tracked source initial (entry :: log) final) (aside : entry.isAside = true) :
    Tracked source initial log final := by
  refine h.of_other fun policy given same => ?_
  obtain ⟨effect, reply⟩ := entry
  cases same
  cases aside

theorem of_all_aside (aside : quiet.all Answered.isAside = true)
    (h : Tracked source initial (quiet ++ log) final) : Tracked source initial log final := by
  induction quiet with
  | nil => exact h
  | cons entry quiet ih =>
    obtain ⟨first, rest⟩ := Bool.and_eq_true_iff.mp aside
    exact ih rest (h.of_aside first)

end Tracked

/-! ### What runs leave to be tracked -/

/-- What is open to runs: what is plain and about their source, and taking the barrier and giving it back. -/
def Pact.ofRuns (source : String) : Pact where
  allows effect := effect.Plain ∧ effect.Within source ∨ effect = .await .barrier ∨ ∃ key, effect = .release key

theorem allowsPlainOf_ofRuns (source : String) : (Pact.ofRuns source).AllowsPlainOf source :=
  fun _ plain own => .inl ⟨plain, own⟩

theorem allowsBarrier_ofRuns (source : String) : (Pact.ofRuns source).AllowsBarrier :=
  ⟨.inr (.inl rfl), fun key _ => .inr (.inr ⟨key, rfl⟩)⟩

section Tracking

variable (who : Option TaskId) {others : Oracle (Explorer × τ)} {source : String}
  (spares : others.SparesSelection source)

include spares

/-- What becomes of the selection by one effect. -/
theorem Tracked.behind {effect : Effect} (allowed : (Pact.ofRuns source).allows effect) (state : Explorer × τ)
    {log : List Answered} {final : Selection Item}
    (rest : Tracked source (selected source ((others.inExplorer who).answer state effect).2) log final) :
    Tracked source (selected source state)
      (⟨effect, ((others.inExplorer who).answer state effect).1⟩ :: log) final := by
  have kept (other : ∀ op, effect ≠ .op op)
      (same : (others.inExplorer who).answer state effect = others.answer state effect) :
      Tracked source (selected source state)
        (⟨effect, ((others.inExplorer who).answer state effect).1⟩ :: log) final := by
    rw [same, spares] at rest
    exact .other (fun policy given => other _) rest
  rcases allowed with ⟨plain, own⟩ | rfl | ⟨key, rfl⟩
  · cases effect with
    | op op =>
      cases op with
      | gather other policy given =>
        cases own other rfl
        have remains := Explorer.selection_gather state.1 who source policy given
        exact .gather policy given (remains ▸ rest)
      | resolve | rootOf | partsOf | record => exact .other nofun rest
      | register | test | setExpandable | change | keep | keyOf | enter | leave => cases plain
    | call => exact kept nofun rfl
    | await | release | setGate | cancel => cases plain
  · exact kept nofun rfl
  · exact kept nofun rfl

/-- **What becomes of the selection** can be read off the log of every program that does no more than runs do. -/
theorem Program.Honours.tracked {program : Program α} (h : program.Honours (.ofRuns source))
    (state : Explorer × τ) :
    Tracked source (selected source state) (program.play (others.inExplorer who) state).log
      (selected source (program.play (others.inExplorer who) state).state) := by
  induction program generalizing state with
  | done => exact .nil _
  | act effect next ih =>
    exact Tracked.behind who spares h.1 state (ih _ (h.2 _ fun _ _ => trivial) _)

end Tracking

/-! ## Selections by invocations -/

namespace Answered

/-- Whether an action was found that consumes the selection. -/
def consumes : Answered → Bool
  | ⟨.op (.resolve ..), some action⟩ => action.options.select = .select
  | _ => false

/-- The view that was told to render items, and the items, whether it accepted or refused that. -/
def request? : Answered → Option (String × List Item)
  | ⟨.call (.requestRender source items), _⟩ => some (source, items)
  | _ => none

theorem consumes_of_isAside {entry : Answered} (aside : entry.isAside = true) : entry.consumes = false := by
  obtain ⟨effect, reply⟩ := entry
  cases effect with
  | op op =>
    cases op with
    | resolve => cases aside
    | _ => rfl
  | _ => rfl

theorem request?_of_isAside {entry : Answered} (aside : entry.isAside = true) : entry.request? = none := by
  obtain ⟨effect, reply⟩ := entry
  cases effect with
  | call call =>
    cases call with
    | requestRender => cases aside
    | _ => rfl
  | _ => rfl

end Answered

/-- What views were told to render, in order. -/
def requests (log : List Answered) : List (String × List Item) := log.filterMap Answered.request?

/-- Whether an invocation found an action that consumes the selection. -/
def Invocation.consumes (invocation : Invocation) : Bool := invocation.log.any Answered.consumes

/-- What an action is called with that gets given items and a selection. -/
def Selection.joined (selection : Selection Item) (given : List Item) : List Item :=
  uniq (given ++ selection.items)

/-- What the view of a source is told by one invocation after the other. Each that consumes the selection tells
it of what it was supplied with and of what is selected by then, and leaves nothing selected. -/
def tellings (source : String) : Selection Item → List Invocation → List (String × List Item)
  | _, [] => []
  | selection, invocation :: rest =>
      if invocation.consumes then (source, selection.joined invocation.items) :: tellings source {} rest
      else tellings source selection rest

/-- How an invocation begins that consumes a selection: it merges it with what it was supplied with, and has the
view told of that, whatever the view says. -/
def Invocation.Takes (invocation : Invocation) (source : String) (selection : Selection Item) : Prop :=
  ∃ (action : Action) (ending : Except Failure Unit) (rest : List Answered),
    action.options.select = .select ∧ rest.all Answered.isAside = true ∧
    invocation.log = ⟨.op (.resolve source invocation.leaf.name), some action⟩ ::
      ⟨.op (.gather source .select invocation.items), selection.joined invocation.items⟩ ::
      ⟨.call (.requestRender source (selection.joined invocation.items)), ending⟩ :: rest

/-- A log of invocations along which the selection of a source is first one and then another. -/
inductive Accounted (source : String) :
    Selection Item → List Answered → List Invocation → Selection Item → Prop where
  | nil (selection : Selection Item) : Accounted source selection [] [] selection
  | aside {entry : Answered} {initial final : Selection Item} {log : List Answered} {served : List Invocation}
      (aside : entry.isAside = true) (rest : Accounted source initial log served final) :
      Accounted source initial (entry :: log) served final
  | sparing {invocation : Invocation} {initial final : Selection Item} {log : List Answered}
      {served : List Invocation} (spares : invocation.log.countP Answered.consumes = 0)
      (silent : requests invocation.log = []) (rest : Accounted source initial log served final) :
      Accounted source initial (invocation.log ++ log) (invocation :: served) final
  | taking {invocation : Invocation} {initial final : Selection Item} {log : List Answered}
      {served : List Invocation} (takes : invocation.Takes source initial)
      (rest : Accounted source {} log served final) :
      Accounted source initial (invocation.log ++ log) (invocation :: served) final

/-! ### From entries to invocations -/

theorem FollowedUp.all_aside {options : Options} {source name : String} {log : List Answered}
    {ending : Except Failure Unit} (h : FollowedUp options source name log ending) :
    log.all Answered.isAside = true := by
  cases h <;> rfl

theorem countP_of_all_aside {log : List Answered} (aside : log.all Answered.isAside = true) :
    log.countP Answered.consumes = 0 :=
  List.countP_eq_zero.mpr fun entry inside => by
    simp [Answered.consumes_of_isAside (List.all_eq_true.mp aside entry inside)]

theorem requests_of_all_aside {log : List Answered} (aside : log.all Answered.isAside = true) :
    requests log = [] :=
  List.filterMap_eq_nil_iff.mpr fun entry inside =>
    Answered.request?_of_isAside (List.all_eq_true.mp aside entry inside)

section Invoking

variable {source : String} {initial final : Selection Item} {more : List Answered} {mode : Mode}

/-- What an invocation makes of the selection, by the log that it leaves. -/
theorem Invoked.tracked {invocation : Invocation} {ending : Except Failure Unit}
    (h : Invoked source invocation.leaf.name invocation.items invocation.leaf.args mode invocation.log ending)
    (tracked : Tracked source initial (invocation.log ++ more) final) :
    (invocation.log.countP Answered.consumes = 0 ∧ requests invocation.log = [] ∧
        Tracked source initial more final) ∨
      invocation.Takes source initial ∧ Tracked source {} more final := by
  obtain ⟨leaf, items, log⟩ := invocation
  simp only at h tracked ⊢
  cases h with
  | unknown => exact .inl ⟨rfl, rfl, (tracked.of_other nofun).of_other nofun⟩
  | @known action called tidy ending last calls follows =>
    have gathering := tracked.of_other nofun
    have tidied := follows.all_aside
    cases calls with
    | refused consumes got failure =>
      obtain ⟨rfl, behind⟩ := gathering.of_gather
      rw [consumes] at behind ⊢
      exact .inr ⟨⟨action, .error failure, tidy, consumes, tidied, rfl⟩,
        Tracked.of_all_aside tidied (behind.of_other nofun)⟩
    | consuming consumes got ending =>
      obtain ⟨rfl, behind⟩ := gathering.of_gather
      rw [consumes] at behind ⊢
      exact .inr ⟨⟨action, .ok (), _ :: tidy, consumes, by exact tidied, rfl⟩,
        Tracked.of_all_aside tidied ((behind.of_other nofun).of_other nofun)⟩
    | sparing spares got ending =>
      obtain ⟨rfl, behind⟩ := gathering.of_gather
      rw [SelectPolicy.remaining_of_ne spares] at behind
      refine .inl ⟨?_, ?_, Tracked.of_all_aside tidied (behind.of_other nofun)⟩
      · simp [Answered.consumes, spares, countP_of_all_aside tidied]
      · simpa [requests, Answered.request?] using requests_of_all_aside tidied

/-- **From entries to invocations.** A log that is read entry by entry, and falls into logs of invocations,
accounts for the selection by one invocation after the other. -/
theorem Woven.accounted {among : List Item → Prop} {log : List Answered} {served : List Invocation}
    (woven : Woven source mode among log served) (tracked : Tracked source initial log final) :
    Accounted source initial log served final := by
  induction woven generalizing initial with
  | nil =>
    cases tracked
    exact .nil _
  | aside stays _ ih => exact .aside stays (ih (tracked.of_aside stays))
  | invocation _ invoked _ ih =>
    rcases invoked.tracked tracked with ⟨spares, silent, rest⟩ | ⟨takes, rest⟩
    · exact .sparing spares silent (ih rest)
    · exact .taking takes (ih rest)

end Invoking

/-! ### What is told by invocations -/

namespace Invocation

variable {invocation : Invocation} {source : String} {selection : Selection Item}

theorem Takes.countP (takes : invocation.Takes source selection) :
    invocation.log.countP Answered.consumes = 1 := by
  obtain ⟨action, ending, rest, consumes, aside, log⟩ := takes
  rw [log]
  simp [Answered.consumes, consumes, countP_of_all_aside aside]

theorem Takes.requests (takes : invocation.Takes source selection) :
    requests invocation.log = [(source, selection.joined invocation.items)] := by
  obtain ⟨action, ending, rest, consumes, aside, log⟩ := takes
  rw [log]
  exact congrArg (_ :: ·) (requests_of_all_aside aside)

theorem consumes_iff : invocation.consumes = true ↔ 0 < invocation.log.countP Answered.consumes := by
  rw [Invocation.consumes, List.any_eq_true, List.countP_pos_iff]

theorem Takes.consumes (takes : invocation.Takes source selection) : invocation.consumes = true :=
  consumes_iff.mpr (takes.countP ▸ Nat.one_pos)

theorem consumes_eq_false (spares : invocation.log.countP Answered.consumes = 0) : invocation.consumes = false :=
  Bool.eq_false_iff.mpr fun consumes => absurd (consumes_iff.mp consumes) (spares ▸ Nat.lt_irrefl 0)

end Invocation

/-- The first that the view is told of has everything in it that was selected. -/
theorem head?_tellings {source : String} {selection : Selection Item} {served : List Invocation}
    {told : String × List Item} (first : (tellings source selection served).head? = some told) :
    ∃ given, told = (source, selection.joined given) := by
  induction served with
  | nil => cases first
  | cons invocation rest ih =>
    rw [tellings] at first
    split at first
    · exact ⟨invocation.items, (Option.some.inj first).symm⟩
    · exact ih first

namespace Accounted

variable {source : String} {initial final : Selection Item} {log : List Answered} {served : List Invocation}

/-- The selection is kept, unless an invocation consumed it. -/
theorem left (h : Accounted source initial log served final) :
    final = if served.any Invocation.consumes then {} else initial := by
  induction h with
  | nil => rfl
  | aside _ _ ih => exact ih
  | sparing spares _ _ ih => rwa [List.any_cons, Invocation.consumes_eq_false spares, Bool.false_or]
  | taking takes _ ih => rw [List.any_cons, takes.consumes, Bool.true_or, if_pos rfl, ih, ite_self]

/-- Every action that consumes the selection is found by an invocation of its own. -/
theorem found (h : Accounted source initial log served final) :
    log.countP Answered.consumes = served.countP Invocation.consumes := by
  induction h with
  | nil => rfl
  | aside stays _ ih => rw [List.countP_cons_of_neg (by simp [Answered.consumes_of_isAside stays]), ih]
  | sparing spares _ _ ih =>
    rw [List.countP_append, spares, List.countP_cons_of_neg (by simp [Invocation.consumes_eq_false spares]), ih,
      Nat.zero_add]
  | taking takes _ ih =>
    rw [List.countP_append, takes.countP, List.countP_cons_of_pos takes.consumes, ih, Nat.add_comm]

/-- An invocation that consumes the selection takes what the ones before it have left. -/
theorem told (h : Accounted source initial log served final) {earlier later : List Invocation}
    {invocation : Invocation} (split : served = earlier ++ invocation :: later)
    (consumes : invocation.consumes = true) :
    invocation.Takes source (if earlier.any Invocation.consumes then {} else initial) := by
  induction h generalizing earlier with
  | nil => cases List.append_eq_nil_iff.mp split.symm |>.2
  | aside _ _ ih => exact ih split
  | sparing spares _ _ ih =>
    cases earlier with
    | nil =>
      cases split
      cases consumes.symm.trans (Invocation.consumes_eq_false spares)
    | cons first earlier =>
      cases split
      rw [List.any_cons, Invocation.consumes_eq_false spares, Bool.false_or]
      exact ih rfl
  | taking takes _ ih =>
    cases earlier with
    | nil =>
      cases split
      exact takes
    | cons first earlier =>
      cases split
      have taken := ih rfl
      rw [ite_self] at taken
      rwa [List.any_cons, takes.consumes, Bool.true_or, if_pos rfl]

/-- The view is told by these invocations, and by nobody else. -/
theorem telling (h : Accounted source initial log served final) :
    requests log = tellings source initial served := by
  induction h with
  | nil => rfl
  | aside stays _ ih => exact (List.filterMap_cons_none (Answered.request?_of_isAside stays)).trans ih
  | sparing spares silent _ ih =>
    rw [tellings, Invocation.consumes_eq_false spares, if_neg Bool.false_ne_true, ← ih]
    exact (List.filterMap_append ..).trans (congrArg (· ++ _) silent)
  | taking takes _ ih =>
    rw [tellings, takes.consumes, if_pos rfl, ← ih]
    exact (List.filterMap_append ..).trans (congrArg (· ++ _) takes.requests)

end Accounted

theorem length_tellings (source : String) (selection : Selection Item) (served : List Invocation) :
    (tellings source selection served).length = served.countP Invocation.consumes := by
  induction served generalizing selection with
  | nil => rfl
  | cons invocation rest ih =>
    rw [tellings, List.countP_cons]
    split <;> simp [ih]

/-! ## Runs of expressions -/

/-- What a log with its invocations tells of the selection of a source, and of what the view was told. -/
structure TellsOfSelection (source : String) (initial : Selection Item) (log : List Answered)
    (served : List Invocation) (final : Selection Item) : Prop where
  /-- Every action that consumes the selection is found by an invocation of its own. -/
  found : log.countP Answered.consumes = served.countP Invocation.consumes
  /-- The selection is empty if an action was found that consumes it, and else as it was. -/
  left : final = if served.any Invocation.consumes then {} else initial
  /-- The invocation that found such an action gathers at once what it was supplied with itself, and the first one
  what is selected; and the view is told of all that. -/
  told : ∀ {earlier later : List Invocation} {invocation : Invocation}, served = earlier ++ invocation :: later →
    invocation.consumes = true →
      invocation.Takes source (if earlier.any Invocation.consumes then {} else initial)
  /-- The view is not told of anything else. -/
  telling : requests log = tellings source initial served
  /-- It is told as often as such actions were found. -/
  balanced : (requests log).length = log.countP Answered.consumes
  /-- First it is told of everything that was selected. -/
  first : ∀ shown items, (requests log).head? = some (shown, items) →
    shown = source ∧ ∀ item ∈ initial.items, item ∈ items
  /-- A later invocation tells it of nothing but what it was supplied with itself. -/
  own : ∀ {earlier later : List Invocation} {invocation : Invocation}, served = earlier ++ invocation :: later →
    earlier.any Invocation.consumes = true → invocation.consumes = true →
      requests invocation.log = [(source, uniq invocation.items)]

theorem Accounted.tells {source : String} {initial final : Selection Item} {log : List Answered}
    {served : List Invocation} (h : Accounted source initial log served final) :
    TellsOfSelection source initial log served final where
  found := h.found
  left := h.left
  told := h.told
  telling := h.telling
  balanced := by rw [h.telling, length_tellings, h.found]
  first shown items first := by
    obtain ⟨given, same⟩ := head?_tellings (h.telling ▸ first)
    cases same
    exact ⟨rfl, fun item there => mem_uniq.mpr (List.mem_append_right given there)⟩
  own split emptied consumes := by
    have takes := h.told split consumes
    rw [if_pos emptied] at takes
    rw [takes.requests, Selection.joined, List.append_nil]

namespace Expr

/-- **What becomes of a selection is accounted for.** Let neither callbacks nor other tasks touch the
selection of a source. Whatever expression runs there, on whatever items, and however that ends, its log is that
of invocations of its leaves, each supplied with what the expression was supplied with or with the part of it
that conditions have sorted out for it. The selection is left empty if one of them found an action that consumes
it, and is left as it was otherwise. The view is told to render items once for each such invocation, and never
else: by the first one, of what it was supplied with and all that was selected, and by a later one, of what it
was supplied with itself. An expression that the check refuses invokes nothing. -/
theorem selection_is_accounted_for (who : Option TaskId) {others : Oracle (Explorer × τ)} {source : String}
    (spares : others.SparesSelection source) (mode : Mode) (expression : Expr) (items : Supply)
    (state : Explorer × τ) :
    let alone := (run source mode expression items).play (others.inExplorer who) state
    let inside := (runInner source mode expression items).play (others.inExplorer who) state
    (∃ served, TellsOfSelection source (selected source state) alone.log served (selected source alone.state) ∧
      (∀ invocation ∈ served, items.Yields invocation.items) ∧
      (expression.check = .ok () → Serves source mode expression items alone.log served) ∧
      ∀ failure, expression.check = .error failure → Telling.nothing alone.log served) ∧
    ∃ served, TellsOfSelection source (selected source state) inside.log served (selected source inside.state) ∧
      (∀ invocation ∈ served, items.Yields invocation.items) ∧
      Serves source mode expression items inside.log served := by
  intro alone inside
  have plain := allowsPlainOf_ofRuns source
  have trackedAlone := Program.Honours.tracked who spares
    (honours_run plain (allowsBarrier_ofRuns source) mode expression items) state
  have trackedInside := Program.Honours.tracked who spares
    ((honours_inside plain mode).1 expression items) state
  have weaves := (weaves_serves source mode).1 expression items
  obtain ⟨served, serves, refused⟩ := leaves_run (others.inExplorer who) source mode expression items state
  obtain ⟨invoked, leaves'⟩ := (leaves_inside (others.inExplorer who) source mode).1 expression items state
  have woven : Woven source mode items.Yields alone.log served := by
    cases passes : expression.check with
    | error failure => exact Telling.weaves_nothing _ _ (refused failure passes)
    | ok => exact weaves _ _ (serves passes)
  have woven' : Woven source mode items.Yields inside.log invoked := weaves _ _ leaves'
  exact ⟨⟨served, (woven.accounted trackedAlone).tells, woven.supplied, serves, refused⟩,
    ⟨invoked, (woven'.accounted trackedInside).tells, woven'.supplied, leaves'⟩⟩

end Expr

/-- An oracle around an explorer that rules are answered from; all else is answered as the agreeable one does, and
nothing is changed. -/
def Oracle.watching : Oracle (Explorer × Unit) where
  answer
    | (explorer, rest), .call (.test source rule _ item) =>
        (.ok (explorer.holds source rule item), explorer, rest)
    | state, effect => ((Oracle.agreeable.answer 0 effect).1, state)

/-- Behind a marker an action that consumes the selection is invoked on the root, and again on what is not the
root, in a sequence inside. -/
theorem selection_is_accounted_for_of_moving :
    let moving : Action := { name := "move", options := { select := .select } }
    let source : Source := { registry := { actions := [moving] }, root := .node "a",
                             selection := ⟨[.node "b", .node "c"]⟩ }
    let move := Expr.leaf { name := "move" }
    let expression := Expr.seq [.leaf { name := "wait" }, .leaf { name := "root?" }, move, .seq [move]]
    let items : Supply := .many [.node "a", .node "d"]
    let played := (expression.run "files" .normal items).play (Oracle.watching.inExplorer none)
      ({ sources := fun _ => source }, ())
    Oracle.watching.SparesSelection "files" ∧ selected "files" played.state = {} ∧
      requests played.log = [("files", [.node "a", .node "b", .node "c"]), ("files", [.node "d"])] ∧
      ∃ served, expression.Serves "files" .normal items played.log served ∧
        tellings "files" source.selection served = requests played.log ∧
        served.countP Invocation.consumes = 2 := by
  intro moving source move expression items played
  have spares : Oracle.watching.SparesSelection "files" := fun state effect => by
    cases effect with
    | call call => cases call <;> rfl
    | _ => rfl
  let calling (given items : List Item) : List Answered :=
    [⟨.op (.resolve "files" "move"), some moving⟩, ⟨.op (.gather "files" .select given), items⟩,
      ⟨.call (.requestRender "files" items), .ok ()⟩,
      ⟨.call (.callback moving { source := "files", items, args := [], mode := .normal }), .ok ()⟩]
  have first : Expr.runInner "files" .normal move = fun items => invoke "files" "move" items [] .normal := by
    funext items
    exact Expr.runInner_leaf "files" .normal items { name := "move" }
  have second : Expr.runInner "files" .normal (.seq [move]) = fun items =>
      (do invoke "files" "move" items [] .normal; pure ()) := by
    funext items
    rw [Expr.runInner_seq, Expr.runElements_cons_action _ _ _ _ (by decide) rfl, Expr.runInner_leaf]
    rfl
  have log : played.log =
      ⟨.await .barrier, .ok 0⟩ :: ⟨.call (.test "files" .root [] (.node "a")), .ok true⟩ ::
        ⟨.call (.test "files" .root [] (.node "d")), .ok false⟩ ::
        ⟨.op (.record (.noted (.routed "root?" 1 1))), ()⟩ ::
        (calling [.node "a"] [.node "a", .node "b", .node "c"] ++
          (calling [.node "d"] [.node "d"] ++ [⟨.release 0, .ok ()⟩])) := by
    show (Run.play _ (Expr.run _ _ _ _) _).log = _
    rw [Expr.run_seq _ _ _ rfl, Expr.runElements_cons_outermost_wait _ _ _ rfl,
      Expr.runElements_cons_rule _ _ _ _ rfl, first, second]
    rfl
  have told : requests played.log =
      [("files", [.node "a", .node "b", .node "c"]), ("files", [.node "d"])] := by
    rw [log]
    rfl
  obtain ⟨⟨served, tells, -, serves, -⟩, -⟩ :=
    Expr.selection_is_accounted_for none spares .normal expression items ({ sources := fun _ => source }, ())
  have twice : served.countP Invocation.consumes = 2 := by
    rw [← tells.found, ← tells.balanced]
    exact congrArg List.length told
  have emptied := tells.left
  rw [if_pos (List.any_eq_true.mpr (List.countP_pos_iff.mp (twice ▸ Nat.two_pos)))] at emptied
  exact ⟨spares, emptied, told, served, serves rfl, tells.telling.symm, twice⟩

end ActionFlow

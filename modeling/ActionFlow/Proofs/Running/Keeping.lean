import ActionFlow.Proofs.Running.Aloof
import ActionFlow.Script

/-!
# Sources keep to themselves

Several sources share a table of actions, a barrier and the items. What a run does of its own accord is
about its own source all the same: it looks names up for that source, merges with its selection, asks its
rules, and calls its view, its loader and its callbacks. What callbacks do is up to them; a callback that
touches nothing but the source that it was given keeps to that source.

Two explorers may then agree on one source, and on what was done for it, whatever else they show. What is
done for the source is answered alike in both, and what is done for another one makes no difference.

## Main results

* `Expr.serves_run`, `serves_invoke`: what runs and invocations do themselves is about their source.
* `Explorer.perform_plain`: such an operation reads nothing else, and changes nothing but the selection.
* `Expr.keeps_run`, `keeps_invoke`: runs without a marker, and invocations, keep to their source.
* `Explorer.SameFor`: explorers that are the same for one source and its tasks.
* `servedAlone`: in all this, every source is on its own.
-/

namespace ActionFlow

/-! ## Keeping to a source -/

namespace Effect

/-- What a run of a source does itself: plain effects about that source, and taking the barrier and giving
it back. -/
def StepOf (source : String) (effect : Effect) : Prop :=
  effect.Plain ∧ effect.Within source ∨ effect = .await .barrier ∨ ∃ key, effect = .release key

/-- Whether an effect leaves alone what sources share: the items, the shared table, gates, the barrier with
the keys to it, and other tasks. -/
def Private : Effect → Prop
  | op (.setExpandable ..) | op (.register none _) | op (.keep ..) | op (.keyOf _) => False
  | await .barrier | release _ | setGate .. | cancel _ => False
  | _ => True

/-- Whether an effect touches nothing but a source. -/
def KeepsTo (source : String) (effect : Effect) : Prop := effect.Within source ∧ effect.Private

theorem Plain.private {effect : Effect} (h : effect.Plain) : effect.Private := by
  cases effect with
  | op op =>
      cases op with
      | resolve | gather | rootOf | partsOf | record => trivial
      | test | change | setExpandable | register | keep | keyOf | enter | leave => cases h
  | call => trivial
  | await | release | setGate | cancel => cases h

end Effect

/-- What a run of a source may do itself. -/
def Pact.serves (source : String) : Pact where
  allows := Effect.StepOf source

/-- Touching nothing but a source. -/
def Pact.keepsTo (source : String) : Pact where
  allows := Effect.KeepsTo source

section Runs

variable (source : String) (mode : Mode) (items : Supply)

theorem Pact.servesPlain : (Pact.serves source).AllowsPlainOf source := fun _ plain within =>
  .inl ⟨plain, within⟩

theorem Pact.keepsPlain : (Pact.keepsTo source).AllowsPlainOf source := fun _ plain within =>
  ⟨within, plain.private⟩

/-- **What a run does itself** is about its source, whatever it is answered. -/
theorem Expr.serves_run (expression : Expr) :
    (Expr.run source mode expression items).Honours (.serves source) :=
  honours_run (Pact.servesPlain source) ⟨.inr (.inl rfl), fun key _ => .inr (.inr ⟨key, rfl⟩)⟩ mode expression
    items

theorem Expr.serves_runInner (expression : Expr) :
    (Expr.runInner source mode expression items).Honours (.serves source) :=
  (honours_inside (Pact.servesPlain source) mode).1 expression items

theorem serves_invoke (name : String) (args : List String) :
    (invoke source name items args mode).Honours (.serves source) :=
  Run.honours_invoke (Pact.servesPlain source) name items args mode

/-- A run without a marker touches nothing but its source. -/
theorem Expr.keeps_run {expression : Expr} (h : expression.markless) :
    (Expr.run source mode expression items).Honours (.keepsTo source) :=
  honours_markless (Pact.keepsPlain source) mode items h

/-- What runs inside another expression touches nothing but its source. -/
theorem Expr.keeps_runInner (expression : Expr) :
    (Expr.runInner source mode expression items).Honours (.keepsTo source) :=
  (honours_inside (Pact.keepsPlain source) mode).1 expression items

theorem keeps_invoke (name : String) (args : List String) :
    (invoke source name items args mode).Honours (.keepsTo source) :=
  Run.honours_invoke (Pact.keepsPlain source) name items args mode

end Runs

namespace Explorer

variable {explorer other after : Explorer} {source : String} {who : Option TaskId}

/-! ## What a run reads and changes -/

/-- Two explorers agree on a source, and on what all sources share. -/
structure AgreesOn (explorer : Explorer) (source : String) (other : Explorer) : Prop where
  own : other.sources source = explorer.sources source
  shared : other.shared = explorer.shared
  traits : other.traits = explorer.traits

/-- Nothing has changed but the selection of a source, and the journal. -/
structure OnlySelects (explorer : Explorer) (source : String) (after : Explorer) : Prop where
  others : ∀ other, other ≠ source → after.sources other = explorer.sources other
  own : ∃ selection, after.sources source = { explorer.sources source with selection }
  shared : after.shared = explorer.shared
  traits : after.traits = explorer.traits
  keys : after.keys = explorer.keys
  depth : after.depth = explorer.depth
  journal : ∃ notes, after.journal = notes ++ explorer.journal

theorem onlySelects_self (explorer : Explorer) (source : String) : explorer.OnlySelects source explorer :=
  ⟨fun _ _ => rfl, ⟨_, rfl⟩, rfl, rfl, rfl, rfl, ⟨[], rfl⟩⟩

theorem onlySelects_record (explorer : Explorer) (source : String) (who : Option TaskId) (event : Event) :
    explorer.OnlySelects source (explorer.record who event) :=
  { onlySelects_self explorer source with journal := ⟨[(who, event)], rfl⟩ }

/-- **What a run reads and changes.** An operation that a run performs for its source is answered by that
source and by what all sources share, and changes nothing but the selection of the source. -/
theorem perform_plain {op : Op} (plain : (Effect.op op).Plain) (within : (Effect.op op).Within source) :
    (∀ {other who'}, explorer.AgreesOn source other →
      (other.perform who' op).2 = (explorer.perform who op).2) ∧
      explorer.OnlySelects source (explorer.perform who op).1 := by
  cases op with
  | resolve own name =>
      cases within own rfl
      refine ⟨fun agrees => ?_, onlySelects_self explorer source⟩
      simp only [perform, agrees.own, agrees.shared]
      rfl
  | gather own policy given =>
      cases within own rfl
      refine ⟨fun agrees => ?_, { onlySelects_self explorer source with others := ?_, own := ?_ }⟩
      · simp only [perform, agrees.own]
        rfl
      · intro other different
        simp only [perform, sources_update_of_ne different]
      · refine ⟨policy.remaining (explorer.sources source).selection, ?_⟩
        simp only [perform, sources_update_self]
  | rootOf own =>
      cases within own rfl
      refine ⟨fun agrees => ?_, onlySelects_self explorer source⟩
      simp only [perform, agrees.own]
      rfl
  | partsOf item =>
      refine ⟨fun agrees => ?_, onlySelects_self explorer source⟩
      simp only [perform, agrees.traits]
      rfl
  | record event =>
      exact ⟨fun _ => rfl, onlySelects_record explorer source who event⟩
  | test | change | setExpandable | register | keep | keyOf | enter | leave => cases plain

/-- A rule asks about its own source. -/
theorem holds_congr (agrees : explorer.AgreesOn source other) (rule : Rule) (item : Item) :
    other.holds source rule item = explorer.holds source rule item := by
  cases rule <;> simp only [holds, agrees.own, agrees.traits]

/-! ## Explorers that are the same for a source -/

/-- What some of the tasks wrote into the journal. -/
def eventsOf (explorer : Explorer) (mine : TaskId → Bool) : List (Option TaskId × Event) :=
  explorer.journal.filter fun entry => entry.1.any mine

/-- Two explorers are the same for a source and its tasks. -/
structure SameFor (explorer : Explorer) (source : String) (mine : TaskId → Bool) (other : Explorer) : Prop
    extends explorer.AgreesOn source other where
  depth : ∀ t, mine t → other.depth (some t) = explorer.depth (some t)
  events : other.eventsOf mine = explorer.eventsOf mine

namespace SameFor

variable {mine : TaskId → Bool}

theorem refl (explorer : Explorer) (source : String) (mine : TaskId → Bool) :
    explorer.SameFor source mine explorer := ⟨⟨rfl, rfl, rfl⟩, fun _ _ => rfl, rfl⟩

variable (h : explorer.SameFor source mine other)

include h

theorem symm : other.SameFor source mine explorer :=
  ⟨⟨h.own.symm, h.shared.symm, h.traits.symm⟩, fun t own => (h.depth t own).symm, h.events.symm⟩

theorem trans {third : Explorer} (h' : other.SameFor source mine third) :
    explorer.SameFor source mine third :=
  ⟨⟨h'.own.trans h.own, h'.shared.trans h.shared, h'.traits.trans h.traits⟩,
    fun t own => (h'.depth t own).trans (h.depth t own), h'.events.trans h.events⟩

theorem record (who : Option TaskId) (event : Event) :
    (explorer.record who event).SameFor source mine (other.record who event) where
  own := h.own
  shared := h.shared
  traits := h.traits
  depth := h.depth
  events := by
    have events := h.events
    simp only [eventsOf, Explorer.record, List.filter_cons] at events ⊢
    rw [events]

theorem update (own : String) (f : Source → Source) :
    (explorer.update own f).SameFor source mine (other.update own f) where
  own := by
    by_cases same : source = own
    · subst same
      rw [sources_update_self, sources_update_self, h.own]
    · rw [sources_update_of_ne same, sources_update_of_ne same, h.own]
  shared := h.shared
  traits := h.traits
  depth := h.depth
  events := h.events

theorem setExpandable (item : Item) (truth : Bool) :
    (explorer.setExpandable item truth).1.SameFor source mine (other.setExpandable item truth).1 := by
  simp only [Explorer.setExpandable, h.traits]
  split
  · exact { h with traits := rfl }
  · exact h

theorem register {table : Option String} (within : ∀ own, table = some own → own = source)
    (registration : Registration) :
    (other.register who table registration).2 = (explorer.register who table registration).2 ∧
      (explorer.register who table registration).1.SameFor source mine
        (other.register who table registration).1 := by
  cases table with
  | none =>
      simp only [Explorer.register, h.shared]
      split
      · exact ⟨rfl, h⟩
      · refine ⟨rfl, record ?_ _ _⟩
        exact { h with shared := rfl }
  | some own =>
      cases within own rfl
      simp only [Explorer.register, h.own]
      split
      · exact ⟨rfl, h⟩
      · exact ⟨rfl, (h.update _ _).record _ _⟩

theorem change (own : String) (change : Change) :
    (explorer.change own change).SameFor source mine (other.change own change) := by
  unfold Explorer.change
  cases change <;> exact h.update own _

/-- How deep its callbacks are inside each other is counted for each task. -/
theorem amendDepth (depth : Nat) :
    { explorer with depth := amend explorer.depth who depth }.SameFor source mine
      { other with depth := amend other.depth who depth } := by
  refine { h with depth := fun t own => ?_ }
  simp only [amend]
  split
  · rfl
  · exact h.depth t own

theorem enter {t : TaskId} (own : mine t) : (other.enter (some t)).2 = (explorer.enter (some t)).2 ∧
    (explorer.enter (some t)).1.SameFor source mine (other.enter (some t)).1 := by
  simp only [Explorer.enter, h.depth t own]
  split
  · exact ⟨rfl, h.amendDepth _⟩
  · exact ⟨rfl, h⟩

theorem leave {t : TaskId} (own : mine t) :
    (explorer.leave (some t)).SameFor source mine (other.leave (some t)) := by
  simp only [Explorer.leave, h.depth t own]
  exact h.amendDepth _

/-- **What is done for the source** by one of its tasks is answered alike, and done alike. -/
theorem perform {t : TaskId} (own : mine t) {op : Op} (keeps : (Effect.op op).KeepsTo source) :
    (other.perform (some t) op).2 = (explorer.perform (some t) op).2 ∧
      (explorer.perform (some t) op).1.SameFor source mine (other.perform (some t) op).1 := by
  obtain ⟨within, alone⟩ := keeps
  cases op with
  | resolve | rootOf =>
      cases within _ rfl
      refine ⟨?_, h⟩
      simp only [Explorer.perform, h.own, h.shared]
      rfl
  | gather _ policy given =>
      cases within _ rfl
      refine ⟨?_, h.update source fun s => { s with selection := policy.remaining s.selection }⟩
      simp only [Explorer.perform, h.own]
      rfl
  | test _ rule item =>
      cases within _ rfl
      exact ⟨holds_congr h.toAgreesOn rule item, h⟩
  | partsOf item =>
      refine ⟨?_, h⟩
      simp only [Explorer.perform, h.traits]
      rfl
  | record event => exact ⟨rfl, h.record _ event⟩
  | change _ change => exact ⟨rfl, h.change _ change⟩
  | register table registration => exact h.register within registration
  | enter => exact h.enter own
  | leave => exact ⟨rfl, h.leave own⟩
  | setExpandable | keep | keyOf => cases alone

end SameFor

/-! ## What is done elsewhere -/

section Elsewhere

variable {mine : TaskId → Bool} (explorer)

theorem sameFor_record (others : ¬ who.any mine) (event : Event) :
    explorer.SameFor source mine (explorer.record who event) :=
  { SameFor.refl explorer source mine with events := List.filter_cons_of_neg others }

theorem sameFor_update {own : String} (elsewhere : own ≠ source) (f : Source → Source) :
    explorer.SameFor source mine (explorer.update own f) :=
  { SameFor.refl explorer source mine with own := sources_update_of_ne elsewhere.symm explorer f }

theorem sameFor_amendDepth (others : ¬ who.any mine) (depth : Nat) :
    explorer.SameFor source mine { explorer with depth := amend explorer.depth who depth } := by
  refine { SameFor.refl explorer source mine with depth := fun t own => amend_of_ne ?_ _ _ }
  rintro rfl
  exact others own

theorem sameFor_enter (others : ¬ who.any mine) : explorer.SameFor source mine (explorer.enter who).1 := by
  unfold enter
  split
  · exact explorer.sameFor_amendDepth others _
  · exact SameFor.refl explorer source mine

/-- **What is done for another source** by others makes no difference. -/
theorem sameFor_perform {own : String} (elsewhere : own ≠ source) (others : ¬ who.any mine) {op : Op}
    (keeps : (Effect.op op).KeepsTo own) : explorer.SameFor source mine (explorer.perform who op).1 := by
  obtain ⟨within, alone⟩ := keeps
  have same := SameFor.refl explorer source mine
  cases op with
  | resolve | rootOf | test | partsOf => exact same
  | gather _ policy given =>
      cases within _ rfl
      exact explorer.sameFor_update elsewhere fun s => { s with selection := policy.remaining s.selection }
  | record event => exact explorer.sameFor_record others event
  | change _ change =>
      cases within _ rfl
      simp only [Explorer.perform, Explorer.change]
      cases change <;> exact explorer.sameFor_update elsewhere _
  | register table registration =>
      cases table with
      | none => cases alone
      | some _ =>
          cases within _ rfl
          simp only [Explorer.perform, register]
          split
          · exact same
          · exact (explorer.sameFor_update elsewhere _).trans (sameFor_record _ others _)
  | enter => exact explorer.sameFor_enter others
  | leave => exact explorer.sameFor_amendDepth others _
  | setExpandable | keep | keyOf => cases alone

variable {explorer}

/-- **What is done from outside** is done alike. -/
theorem SameFor.outside (h : explorer.SameFor source mine other) (others : ¬ who.any mine) (op : Op) :
    (explorer.perform who op).1.SameFor source mine (other.perform who op).1 := by
  have apart (first : explorer.SameFor source mine (explorer.perform who op).1)
      (second : other.SameFor source mine (other.perform who op).1) :
      (explorer.perform who op).1.SameFor source mine (other.perform who op).1 :=
    (first.symm.trans h).trans second
  cases op with
  | resolve | rootOf | test | partsOf | keyOf => exact h
  | keep =>
      exact { own := h.own, shared := h.shared, traits := h.traits, depth := h.depth, events := h.events }
  | gather own policy given =>
      exact h.update own fun s => { s with selection := policy.remaining s.selection }
  | record event => exact h.record _ event
  | change own change => exact h.change own change
  | setExpandable item truth => exact h.setExpandable item truth
  | register table registration =>
      by_cases within : ∀ own, table = some own → own = source
      · exact (h.register within registration).2
      · obtain ⟨own, named, elsewhere⟩ : ∃ own, table = some own ∧ own ≠ source := by simpa using within
        subst named
        have keeps : (Effect.op (.register (some own) registration)).KeepsTo own :=
          ⟨fun _ same => (Option.some.inj same).symm, trivial⟩
        exact apart (explorer.sameFor_perform elsewhere others keeps)
          (other.sameFor_perform elsewhere others keeps)
  | enter => exact apart (explorer.sameFor_enter others) (other.sameFor_enter others)
  | leave => exact apart (explorer.sameFor_amendDepth others _) (other.sameFor_amendDepth others _)

end Elsewhere
end Explorer

/-! ## How a source is served -/

/-- A source is served on its own. Whatever runs and invocations perform for it is a step of that source; no
such step depends on anything but the source and what is shared, or changes more than the selection of the
source; and a rule is asked about the source alone. -/
structure ServedAlone (source : String) : Prop where
  run : ∀ mode expression items, (Expr.run source mode expression items).Honours (.serves source)
  inside : ∀ mode expression items, (Expr.runInner source mode expression items).Honours (.serves source)
  invoke : ∀ name items args mode, (invoke source name items args mode).Honours (.serves source)
  answers : ∀ {op : Op}, (Effect.op op).StepOf source → ∀ {explorer other : Explorer} {who who'},
    explorer.AgreesOn source other → (other.perform who' op).2 = (explorer.perform who op).2
  selects : ∀ {op : Op}, (Effect.op op).StepOf source → ∀ (explorer : Explorer) who,
    explorer.OnlySelects source (explorer.perform who op).1
  tests : ∀ (view : View) rule item, (view.test source rule item).Honours (.keepsTo source)
  holds : ∀ {explorer other : Explorer}, explorer.AgreesOn source other → ∀ rule item,
    other.holds source rule item = explorer.holds source rule item

/-- Steps that are operations are plain. -/
theorem Effect.StepOf.of_op {source : String} {op : Op} (step : (Effect.op op).StepOf source) :
    (Effect.op op).Plain ∧ (Effect.op op).Within source := by
  rcases step with own | barrier | ⟨key, release⟩
  · exact own
  · cases barrier
  · cases release

theorem View.keeps_test (view : View) (source : String) (rule : Rule) (item : Item) :
    (view.test source rule item).Honours (.keepsTo source) := by
  have asked : (Run.op (.test source rule item)).Honours (.keepsTo source) :=
    Run.honours_op _ ⟨fun _ same => (Option.some.inj same).symm, trivial⟩
  unfold View.test
  split
  · exact (Run.honours_failIf _).bind fun _ => asked
  · exact (Run.honours_pure ()).bind fun _ => asked

/-- **Every source is served on its own.** -/
theorem servedAlone (source : String) : ServedAlone source where
  run mode expression items := Expr.serves_run source mode items expression
  inside mode expression items := Expr.serves_runInner source mode items expression
  invoke name items args mode := serves_invoke source mode items name args
  answers step _ _ _ _ agrees :=
    have ⟨plain, within⟩ := step.of_op
    (Explorer.perform_plain plain within).1 agrees
  selects step _ _ :=
    have ⟨plain, within⟩ := step.of_op
    (Explorer.perform_plain plain within).2
  tests view rule item := view.keeps_test source rule item
  holds agrees rule item := Explorer.holds_congr agrees rule item

end ActionFlow

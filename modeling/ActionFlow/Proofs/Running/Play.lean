import ActionFlow.Program

/-!
# Playing a program against an oracle

A program is a tree over the answers to its effects. An oracle answers each effect from a state of its
own; it stands for the explorer and for whatever callbacks, rules, views and the barrier do, also when
they fail. Playing a program against it follows one branch of the tree and leaves a log.

## Main results

* `play_bind`, `play_ensuring`: a composed program is played one part after the other.
* `Relays`: a run that fails only as an effect of its own was answered.
-/

namespace ActionFlow

/-! ## Oracles and logs -/

/-- Whoever answers effects, from a state of its own. -/
structure Oracle (σ : Type) where
  answer : σ → (effect : Effect) → effect.Reply × σ

/-- An effect and its answer. -/
structure Answered where
  effect : Effect
  reply : effect.Reply

/-- The failure that an operation was answered with. -/
def Op.failure? : (op : Op) → op.Reply → Option Failure
  | .register .., .error failure | .setExpandable .., .error failure | .enter, .error failure =>
      some failure
  | _, _ => none

/-- The failure that an effect was answered with. -/
def Answered.failure? : Answered → Option Failure
  | ⟨.call _, .error failure⟩ | ⟨.await _, .error failure⟩ | ⟨.release _, .error failure⟩ =>
      some failure
  | ⟨.op op, reply⟩ => op.failure? reply
  | _ => none

/-- An oracle under which nothing fails. -/
def Oracle.Obliging {σ : Type} (oracle : Oracle σ) : Prop :=
  ∀ state effect, Answered.failure? ⟨effect, (oracle.answer state effect).1⟩ = none

/-- What playing a program comes to: the effects with their answers in order, the result, and the state
that the oracle is left in. -/
structure Play (σ α : Type) where
  log : List Answered
  result : α
  state : σ

variable {σ α β : Type}

/-- Goes on playing; the logs are put together. -/
def Play.andThen (first : Play σ α) (next : α → σ → Play σ β) : Play σ β :=
  { next first.result first.state with
    log := first.log ++ (next first.result first.state).log }

/-- A play with one more entry in front of its log. -/
def Play.behind (play : Play σ α) (entry : Answered) : Play σ α :=
  { play with log := entry :: play.log }

namespace Program

/-- Plays a program against an oracle. -/
def play (oracle : Oracle σ) : Program α → σ → Play σ α
  | done result, state => ⟨[], result, state⟩
  | act effect next, state =>
      let (reply, after) := oracle.answer state effect
      let rest := (next reply).play oracle after
      { rest with log := ⟨effect, reply⟩ :: rest.log }

/-- The first effect of a program and its answer are the first entry of the log. -/
theorem play_act (oracle : Oracle σ) (effect : Effect) (next : effect.Reply → Program α) (state : σ) :
    (act effect next).play oracle state =
      ((next (oracle.answer state effect).1).play oracle (oracle.answer state effect).2).behind
        ⟨effect, (oracle.answer state effect).1⟩ := rfl

/-- A composed program is played one part after the other. -/
theorem play_bind (oracle : Oracle σ) (program : Program α) (next : α → Program β) (state : σ) :
    (program.bind next).play oracle state =
      (program.play oracle state).andThen fun result => (next result).play oracle := by
  induction program generalizing state with
  | done => rfl
  | act effect rest ih =>
      simp only [bind, play, ih]
      rfl

/-- What stands in a log is what the oracle answered. -/
theorem exists_answer_of_mem_log {oracle : Oracle σ} {program : Program α} {state : σ}
    {entry : Answered} (h : entry ∈ (program.play oracle state).log) :
    ∃ before effect, entry = ⟨effect, (oracle.answer before effect).1⟩ := by
  induction program generalizing state with
  | done => cases h
  | act effect next ih =>
      rcases List.mem_cons.mp h with rfl | h
      · exact ⟨state, effect, rfl⟩
      · exact ih _ h

end Program

/-! ## Playing runs -/

namespace Run

/-- What a run comes to when it is played. -/
def play (oracle : Oracle σ) (run : Run α) (state : σ) : Play σ (Except Failure α) :=
  Program.play oracle run.run state

/-- The second run is played if the first has not failed. -/
theorem play_bind (oracle : Oracle σ) (run : Run α) (next : α → Run β) (state : σ) :
    (run >>= next).play oracle state = (run.play oracle state).andThen fun
      | .ok result => (next result).play oracle
      | .error failure => fun state => ⟨[], .error failure, state⟩ := by
  show Program.play oracle (Program.bind run.run _) state = _
  rw [Program.play_bind]
  show Play.andThen _ _ = Play.andThen _ _
  congr 1
  funext ending
  cases ending <;> rfl

/-- What an operation is answered with is the first entry of the log. -/
theorem play_op_bind (oracle : Oracle σ) (op : Op) (next : op.Reply → Run β) (state : σ) :
    (Run.op op >>= next).play oracle state =
      ((next (oracle.answer state (.op op)).1).play oracle (oracle.answer state (.op op)).2).behind
        ⟨.op op, (oracle.answer state (.op op)).1⟩ := rfl

/-- So is what a call is answered with; if that is a failure, nothing comes behind it. -/
theorem play_call_bind (oracle : Oracle σ) (called : Call) (next : called.Result → Run β) (state : σ) :
    (Run.call called >>= next).play oracle state =
      match (oracle.answer state (.call called)).1 with
      | .ok reply =>
          ((next reply).play oracle (oracle.answer state (.call called)).2).behind
            ⟨.call called, .ok reply⟩
      | .error failure =>
          ⟨[⟨.call called, .error failure⟩], .error failure, (oracle.answer state (.call called)).2⟩ := by
  rw [play_bind]
  show Play.andThen ⟨[⟨.call called, (oracle.answer state (.call called)).1⟩],
    (oracle.answer state (.call called)).1, (oracle.answer state (.call called)).2⟩ _ = _
  generalize (oracle.answer state (.call called)).1 = reply
  cases reply <;> rfl

/-- A cleanup is played after whatever ending. -/
theorem play_ensuring (oracle : Oracle σ) (body : Run α) (cleanup : Run Unit) (state : σ) :
    (ensuring body cleanup).play oracle state = (body.play oracle state).andThen fun ending state =>
      (cleanup.play oracle state).andThen fun
        | .ok _ => fun state => ⟨[], ending, state⟩
        | .error failure => fun state => ⟨[], .error failure, state⟩ := by
  unfold play
  rw [run_ensuring, Program.play_bind]
  congr 1
  funext ending state
  rw [Program.play_bind]
  congr 1
  funext outcome
  cases outcome <;> rfl

/-- The log of a cleanup stands behind that of the body, and the body's ending behind the cleanup. -/
theorem play_ensuring_eq (oracle : Oracle σ) (body : Run α) (cleanup : Run Unit) (state : σ) :
    (ensuring body cleanup).play oracle state =
      ⟨(body.play oracle state).log ++ (cleanup.play oracle (body.play oracle state).state).log,
        (cleanup.play oracle (body.play oracle state).state).result >>= fun _ =>
          (body.play oracle state).result,
        (cleanup.play oracle (body.play oracle state).state).state⟩ := by
  rw [play_ensuring]
  simp only [Play.andThen]
  generalize cleanup.play oracle (body.play oracle state).state = last
  obtain ⟨log, result, after⟩ := last
  cases result <;> exact congrArg (Play.mk · _ _) (congrArg _ (List.append_nil log))

/-! ### Failures come from answers -/

/-- A run that fails only with a failure that one of its effects was answered with. -/
def Relays (run : Run α) : Prop :=
  ∀ (σ : Type) (oracle : Oracle σ) (state : σ) (failure : Failure),
    (run.play oracle state).result = .error failure →
      ∃ entry ∈ (run.play oracle state).log, entry.failure? = some failure

theorem relays_pure (result : α) : (pure result : Run α).Relays := by
  intro σ oracle state failure h
  cases h

theorem Relays.bind {run : Run α} {next : α → Run β} (hrun : run.Relays)
    (hnext : ∀ result, (next result).Relays) : (run >>= next).Relays := by
  intro σ oracle state failure h
  rw [play_bind] at h ⊢
  unfold Play.andThen at h ⊢
  cases hr : (run.play oracle state).result with
  | error found =>
      simp only [hr, Except.error.injEq] at h
      obtain ⟨entry, hentry, hfail⟩ := hrun σ oracle state found hr
      exact ⟨entry, List.mem_append_left _ hentry, h ▸ hfail⟩
  | ok result =>
      simp only [hr] at h ⊢
      obtain ⟨entry, hentry, hfail⟩ := hnext result σ oracle _ failure h
      exact ⟨entry, List.mem_append_right _ hentry, hfail⟩

theorem relays_ite {condition : Prop} [Decidable condition] {yes no : Run α} (hyes : yes.Relays)
    (hno : no.Relays) : (if condition then yes else no).Relays := by
  split <;> assumption

theorem Relays.mapM {γ : Type} {f : γ → Run α} (h : ∀ x, (f x).Relays) (xs : List γ) :
    (xs.mapM f).Relays := by
  induction xs with
  | nil =>
      rw [List.mapM_nil]
      exact relays_pure _
  | cons x rest ih =>
      rw [List.mapM_cons]
      exact (h x).bind fun _ => ih.bind fun _ => relays_pure _

theorem Relays.ensuring {body : Run α} {cleanup : Run Unit} (hbody : body.Relays)
    (hcleanup : cleanup.Relays) : (body.ensuring cleanup).Relays := by
  intro σ oracle state failure h
  rw [play_ensuring] at h ⊢
  unfold Play.andThen at h ⊢
  cases hc : (cleanup.play oracle (body.play oracle state).state).result with
  | error found =>
      simp only [hc, Except.error.injEq] at h
      obtain ⟨entry, hentry, hfail⟩ := hcleanup σ oracle _ found hc
      exact ⟨entry, by simp [hentry], h ▸ hfail⟩
  | ok =>
      simp only [hc] at h
      obtain ⟨entry, hentry, hfail⟩ := hbody σ oracle state failure h
      exact ⟨entry, by simp [hentry], hfail⟩

theorem relays_op (op : Op) : (Run.op op).Relays := by
  intro σ oracle state failure h
  cases h

theorem relays_call (called : Call) : (Run.call called).Relays := by
  intro σ oracle state failure h
  exact ⟨_, List.mem_singleton.mpr rfl, by
    show Answered.failure? ⟨.call called, _⟩ = _
    have reply : (oracle.answer state (.call called)).1 = .error failure := h
    rw [reply]
    rfl⟩

theorem relays_test (source : String) (rule : Rule) (args : List String) (item : Item) :
    (Run.test source rule args item).Relays :=
  relays_call _

theorem relays_await (pause : Pause) : (Run.await pause).Relays := by
  intro σ oracle state failure h
  exact ⟨_, List.mem_singleton.mpr rfl, by
    show Answered.failure? ⟨.await pause, _⟩ = _
    have reply : (oracle.answer state (.await pause)).1 = .error failure := h
    rw [reply]
    rfl⟩

theorem relays_release (key : PauseId) : (Run.release key).Relays := by
  intro σ oracle state failure h
  exact ⟨_, List.mem_singleton.mpr rfl, by
    show Answered.failure? ⟨.release key, _⟩ = _
    have reply : (oracle.answer state (.release key)).1 = .error failure := h
    rw [reply]
    rfl⟩

end Run
end ActionFlow

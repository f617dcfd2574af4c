import ActionFlow.Proofs.Logging.SetUp

/-!
# One set-up at a time

The log can be set up again and again, foreign handlers can join at any time, and a call of the set-up can fail
or find that there is nothing for it to do. However these things follow each other, the log answers to one call
at a time: the last one that took hold. Its handler is the only one that writes, it stands before all
foreign ones, and the level of the log is the one that goes with it. None of this depends on how settings are
read, nor on what a renderer makes of a record, as long as that is a line at least.

## Main results

* `Log.answersTo_after`: after any history, the log answers to the last call that took hold.
* `Log.emit_eq_flatten`: the lines that a record causes, one writing after the other.
* `Log.length_writings_le`, `Log.writings_of_written`: how often a record is written.
* `log_answers_to_one_call`: handlers, records and levels over all histories.
-/

namespace ActionFlow

theorem Text.lineEnds_pos {text : List Char} (h : '\n' ∈ text) : 0 < Text.lineEnds text := by
  fun_induction Text.lineEnds text with
  | case1 => cases h
  | case2 rest ih => exact Nat.succ_pos _
  | case3 c rest _ hc ih => exact Nat.succ_pos _
  | case4 c rest _ hc ih =>
      rcases List.mem_cons.mp h with rfl | h
      · exact absurd rfl hc
      · exact ih h

namespace Logging

variable {read : Settings.Reader} {log : Log} {request : Request} {memory : Settings.Memory}

/-! ## Histories -/

/-- Something that happens to the log. -/
inductive Happening where
  | setUp (request : Request)
  | addSilent
  | record (level : Int) (event : String)

namespace Log

/-- The log after something has happened to it; records leave it as it is. -/
def step (read : Settings.Reader) (log : Log) : Happening → Log
  | .setUp request => (log.configure request read).2
  | .addSilent => log.addSilent
  | .record _ _ => log

/-- The log after one thing has happened after the other. -/
def after (read : Settings.Reader) (log : Log) (history : List Happening) : Log := history.foldl (step read) log

/-- Whether a call takes hold: it succeeds, and it is forced or finds no handlers. -/
def takesHold (read : Settings.Reader) (log : Log) (request : Request) : Bool :=
  (log.configure request read).1.isOk && (request.force || log.handlers.isEmpty)

/-- The call that takes hold, if that is what happens. -/
def taking? (read : Settings.Reader) (log : Log) : Happening → Option Request
  | .setUp request => if log.takesHold read request then some request else none
  | .addSilent | .record _ _ => none

/-- The calls that take hold in a history, in their order. -/
def takings (read : Settings.Reader) (log : Log) : List Happening → List Request
  | [] => []
  | happening :: rest => (log.taking? read happening).toList ++ (log.step read happening).takings read rest

/-- Whether the log answers to a call. It has the level for which the call asks, and in front of foreign
handlers one that writes as the call asks. Before there is a call, it is as at the start, foreign handlers
apart. -/
inductive AnswersTo (read : Settings.Reader) (log : Log) (memory : Settings.Memory) : Option Request → Prop
  | nobody (level : log.level = initialLevel) (silent : ∀ handler ∈ log.handlers, handler = .silent) :
      AnswersTo read log memory none
  | call {request : Request} {settings : Settings} {renderer : Renderer} {others : List Handler}
      (found : request.settingsFrom read memory = .ok settings)
      (renders : request.AsksRenderer settings renderer)
      (resolved : request.AsksLevel settings (.ok log.level))
      (handlers : log.handlers = .written renderer :: others)
      (silent : ∀ handler ∈ others, handler = .silent) :
      AnswersTo read log memory (some request)

variable {next : Log} {call : Option Request} {result : Except Failure Unit}

theorem AnswersTo.of_same (h : log.AnswersTo read memory call) (handlers : next.handlers = log.handlers)
    (level : next.level = log.level) : next.AnswersTo read memory call := by
  cases h with
  | nobody start silent => exact .nobody (level.trans start) (handlers ▸ silent)
  | call found renders resolved here silent =>
      exact .call found renders (level ▸ resolved) (handlers.trans here) silent

theorem silent_concat {others : List Handler} (silent : ∀ handler ∈ others, handler = .silent) :
    ∀ handler ∈ others ++ [.silent], handler = .silent := by
  intro handler inside
  rcases List.mem_append.mp inside with inside | inside
  · exact silent handler inside
  · exact List.mem_singleton.mp inside

/-- Foreign handlers go behind all others. -/
theorem AnswersTo.addSilent (h : log.AnswersTo read memory call) :
    log.addSilent.AnswersTo read memory call := by
  cases h with
  | nobody start silent => exact .nobody start (silent_concat silent)
  | @call request settings renderer others found renders resolved here silent =>
      have behind : log.addSilent.handlers = .written renderer :: (others ++ [.silent]) := by
        rw [Log.addSilent, here, List.cons_append]
      exact .call found renders resolved behind (silent_concat silent)

/-- The log answers to a call that takes hold, and to the same call as before if none does. -/
theorem AnswersTo.step (h : log.AnswersTo read memory call) (recalls : log.memory.Recalls read memory)
    (happening : Happening) :
    (log.step read happening).AnswersTo read memory ((log.taking? read happening).or call) := by
  cases happening with
  | addSilent => exact h.addSilent
  | record => exact h
  | setUp request =>
      have outcome := log.setsUp_configure read request
      show (log.configure request read).2.AnswersTo read memory
        ((if log.takesHold read request then some request else none).or call)
      unfold takesHold
      generalize (log.configure request read).1 = result at outcome ⊢
      generalize (log.configure request read).2 = next at outcome ⊢
      cases outcome with
      | refused => exact h.of_same rfl rfl
      | passed _ _ _ unforced taken =>
          have stays : (request.force || log.handlers.isEmpty) = false := by simp [unforced, taken]
          rw [stays, Bool.and_false]
          exact h.of_same rfl rfl
      | installed _ found renders resolved takes =>
          have acts : (request.force || log.handlers.isEmpty) = true := by simpa using takes
          rw [acts]
          exact .call (Request.settingsFrom_of_recalls recalls request ▸ found) renders resolved rfl nofun

theorem recalls_step (read : Settings.Reader) (log : Log) (happening : Happening) :
    (log.step read happening).memory.Recalls read log.memory := by
  cases happening with
  | addSilent => exact .inl rfl
  | record => exact .inl rfl
  | setUp request => exact (log.setsUp_configure read request).recalls

/-- **The log answers to the last call that took hold**, after any history. -/
theorem answersTo_after (history : List Happening) (h : log.AnswersTo read memory call)
    (recalls : log.memory.Recalls read memory) :
    (log.after read history).AnswersTo read memory ((log.takings read history).getLast?.or call) ∧
      (log.after read history).memory.Recalls read memory := by
  induction history generalizing log call with
  | nil => exact ⟨h, recalls⟩
  | cons happening rest ih =>
      have single : (log.taking? read happening).toList.getLast? = log.taking? read happening := by
        cases log.taking? read happening <;> rfl
      rw [takings, List.getLast?_append, single, Option.or_assoc]
      exact ih (h.step recalls happening) ((log.recalls_step read happening).trans recalls)

end Log

/-! ## Records -/

/-- What a handler writes of a record, if it writes. -/
def Handler.writing? (style : Style) (level : Int) (event : String) : Handler → Option (List Line)
  | .written renderer => some (style.lines renderer level event)
  | .silent => none

@[simp] theorem Handler.writing?_silent (style : Style) (level : Int) (event : String) :
    Handler.writing? style level event .silent = none := rfl

@[simp] theorem Handler.writing?_written (style : Style) (level : Int) (event : String) (renderer : Renderer) :
    Handler.writing? style level event (.written renderer) = some (style.lines renderer level event) := rfl

namespace Log

/-- The writings of a record, each with its lines: one for every handler that writes, and that of the last
resort if there are no handlers. -/
def writings (log : Log) (style : Style) (level : Int) (event : String) : List (List Line) :=
  if level ≤ 0 ∨ level < log.level then []
  else if log.handlers.isEmpty then
    if level < initialLevel then [] else [lastResort level event]
  else log.handlers.filterMap (Handler.writing? style level event)

variable {next : Log} {call : Option Request} {style : Style} {level : Int} {event : String}

/-- **The lines that a record causes** are those of its writings. -/
theorem emit_eq_flatten (log : Log) (style : Style) (level : Int) (event : String) :
    log.emit level event style = (log.writings style level event).flatten := by
  unfold emit writings
  split
  · rfl
  · split
    · unfold lastResort
      split <;> simp
    · rw [List.flatMap_def]
      induction log.handlers with
      | nil => rfl
      | cons handler rest ih => cases handler <;> simp [Handler.lines, List.filterMap_cons, ih]

/-- A writing has lines, be the event the empty text. -/
theorem ne_nil_of_mem_writings {lines : List Line} (h : lines ∈ log.writings style level event) :
    lines ≠ [] := by
  have console : ∀ count, 0 < count → List.replicate count Line.console ≠ [] := fun count positive => by
    simpa using Nat.ne_of_gt positive
  unfold writings at h
  split at h
  · cases h
  · split at h
    · split at h
      · cases h
      next above =>
        cases List.mem_singleton.mp h
        rw [lastResort, if_neg above]
        exact console _ (Text.lineEnds_pos (by simp))
    · obtain ⟨handler, -, writes⟩ := List.mem_filterMap.mp h
      cases handler with
      | silent => cases writes
      | written renderer =>
          cases writes
          exact style.speaks renderer level event

/-- Foreign handlers write nothing. -/
theorem filterMap_of_silent {others : List Handler} (silent : ∀ handler ∈ others, handler = .silent) :
    others.filterMap (Handler.writing? style level event) = [] := by
  rw [List.filterMap_eq_nil_iff]
  intro handler inside
  rw [silent handler inside]
  rfl

/-- With one handler that can write at most, a record is written once at most. -/
theorem length_writings_le (silent : ∀ handler ∈ log.handlers.tail, handler = .silent) :
    (log.writings style level event).length ≤ 1 := by
  unfold writings
  split
  · exact Nat.zero_le _
  · split
    · split
      · exact Nat.zero_le _
      · exact Nat.le_refl _
    · cases handlers : log.handlers with
      | nil => exact Nat.zero_le _
      | cons first others =>
          rw [handlers] at silent
          have nothing : others.filterMap (Handler.writing? style level event) = [] :=
            filterMap_of_silent silent
          cases first with
          | written renderer => simp [nothing]
          | silent => simp [List.filterMap_cons, nothing]

/-- A record that is not dropped is written by the one handler that writes. -/
theorem writings_of_written {renderer : Renderer} {others : List Handler}
    (handlers : log.handlers = .written renderer :: others)
    (silent : ∀ handler ∈ others, handler = .silent) (positive : 0 < level)
    (enabled : log.level ≤ level) :
    log.writings style level event = [style.lines renderer level event] := by
  have kept : ¬(level ≤ 0 ∨ level < log.level) := by omega
  have nothing : others.filterMap (Handler.writing? style level event) = [] := filterMap_of_silent silent
  rw [writings, if_neg kept, handlers]
  simp [nothing]

/-! ## Answering to a call -/

theorem AnswersTo.silent_tail (h : log.AnswersTo read memory call) :
    ∀ handler ∈ log.handlers.tail, handler = .silent := by
  cases h with
  | nobody _ silent => exact fun handler inside => silent handler (List.mem_of_mem_tail inside)
  | call _ _ _ handlers silent =>
      rw [handlers]
      exact silent

theorem AnswersTo.first (h : log.AnswersTo read memory call) {renderer : Renderer}
    (installed : .written renderer ∈ log.handlers) :
    ∃ others, log.handlers = .written renderer :: others ∧ ∀ handler ∈ others, handler = .silent := by
  cases h with
  | nobody _ silent => cases silent _ installed
  | @call _ _ other others _ _ _ handlers silent =>
      rw [handlers] at installed
      rcases List.mem_cons.mp installed with same | behind
      · exact ⟨others, same ▸ handlers, silent⟩
      · cases silent _ behind

end Log

open Log in
/-- **The log answers to one call.** However settings are read and records are written, it starts without
handlers, and calls of the set-up, whether they fail or not, foreign handlers and records follow in any order. At
any time there is one handler that writes at most, and it comes first. It writes as the last call asks that took
hold, being forced or finding no handlers, and the level is the one for which the same call asks: by itself, or
else by the settings, and always the one for debugging if it is for that. A record is written once at most, and
it is written once if there is that handler and the record is not below the level. A call that is not forced and
finds handlers changes neither them nor the level. A call fails exactly if there are no settings for it or no
level can be made of what it asks for, and then it changes nothing. -/
theorem log_answers_to_one_call (read : Settings.Reader) (style : Style) (configured : Bool)
    (memory : Settings.Memory) (history : List Happening) :
    let start : Log := { configured, memory }
    let now := start.after read history
    -- The handlers and the level, and the call to which they go back.
    (∀ handler ∈ now.handlers.tail, handler = .silent) ∧
    now.AnswersTo read memory (start.takings read history).getLast? ∧
    -- Records, as they are written at this time.
    (∀ level event, now.emit level event style = (now.writings style level event).flatten ∧
      (∀ lines ∈ now.writings style level event, lines ≠ []) ∧
      (now.writings style level event).length ≤ 1 ∧
      ∀ renderer, .written renderer ∈ now.handlers → 0 < level → now.level ≤ level →
        now.writings style level event = [style.lines renderer level event]) ∧
    -- One more call.
    ∀ request, let next := (now.configure request read).2
      (request.force = false → now.handlers ≠ [] →
        next.handlers = now.handlers ∧ next.level = now.level) ∧
      ∀ failure, ((now.configure request read).1 = .error failure ↔ request.FailsWith read memory failure) ∧
        ((now.configure request read).1 = .error failure → next.handlers = now.handlers ∧
          next.level = now.level ∧ next.configured = now.configured) := by
  intro start now
  have fresh : start.AnswersTo read memory none := .nobody rfl nofun
  obtain ⟨answers, recalls⟩ := answersTo_after history fresh (.inl rfl)
  rw [Option.or_none] at answers
  refine ⟨answers.silent_tail, answers, fun level event => ⟨emit_eq_flatten now style level event,
    fun _ => ne_nil_of_mem_writings, length_writings_le answers.silent_tail, ?_⟩,
    fun request => ⟨configure_of_found, fun failure => ⟨?_, fun refused => ?_⟩⟩⟩
  · intro renderer installed positive enabled
    obtain ⟨others, handlers, silent⟩ := answers.first installed
    exact writings_of_written handlers silent positive enabled
  · rw [configure_eq_error_iff, Request.FailsWith, Request.FailsWith, Request.settingsFrom_of_recalls recalls]
  · rw [configure_of_refused refused]
    exact ⟨rfl, rfl, rfl⟩

/-- A call without a usable level, a foreign handler, a call that finds it and one that is forced, another
foreign handler, and a call each that is not forced and that fails. -/
def turbulent : List Happening :=
  [.setUp { level := .list [] }, .addSilent, .setUp { level := .int 10 },
    .setUp { json := .bool true, force := true }, .addSilent, .record 20 "quiet",
    .setUp { debug := .bool true }, .setUp { level := .list [], force := true }]

open Log in
/-- The log answers to the call that was forced: its handler writes as it says, and the level, which it leaves
open, is that of the environment. -/
theorem log_answers_to_one_call_of_turbulent :
    let memory : Settings.Memory := { environment := [("TREEACTIONS_LOG_LEVEL", "error")] }
    let now := ({ memory } : Log).after Settings.read turbulent
    now.handlers = [.written .json, .silent] ∧ now.level = 40 ∧
      now.AnswersTo Settings.read memory (some { json := .bool true, force := true }) ∧
      now.writings .usual 50 "late" = [[.json "late" "critical"]] ∧
      (now.configure { level := .int 10 }).2.level = 40 ∧
      Request.FailsWith Settings.read { level := .list [], force := true } memory .lacking ∧
      (now.configure { level := .list [], force := true }).2.handlers = now.handlers := by
  intro memory now
  obtain ⟨-, answers, records, calls⟩ :=
    log_answers_to_one_call Settings.read .usual false memory turbulent
  have handlers : now.handlers = [.written .json, .silent] := rfl
  have level : now.level = 40 := rfl
  have installed : .written .json ∈ now.handlers := handlers ▸ List.mem_cons_self
  have found : now.handlers ≠ [] := handlers ▸ List.cons_ne_nil _ _
  obtain ⟨-, -, -, written⟩ := records 50 "late"
  obtain ⟨unforced, -⟩ := calls { level := .int 10 }
  obtain ⟨-, failing⟩ := calls { level := .list [], force := true }
  obtain ⟨fails, kept⟩ := failing .lacking
  exact ⟨handlers, level, answers, written .json installed (by decide) (level ▸ by decide),
    (unforced rfl found).2.trans level, fails.mp rfl, (kept rfl).1⟩

end Logging
end ActionFlow

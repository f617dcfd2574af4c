import ActionFlow.Logging

/-!
# Calls of the set-up

A call of the set-up says what it wants, and leaves the rest to the settings. It can fail, for the settings or
for a level that is none, and then nothing happens but that settings may have been read and are
remembered. It can find handlers that it is not to replace, and leaves them and the level alone. Or it takes
hold, and then handler and level are both its own. All of this is so whoever reads the settings.

## Main results

* `Request.asksLevel_iff`: the level for which a call asks, by itself or by the settings.
* `Log.setsUp_configure`: what a call can come to.
* `Log.configure_of_found`, `Log.configure_of_refused`: the two ways in which it changes nothing.
* `Log.configure_eq_error_iff`: when it fails.
-/

namespace ActionFlow

/-! ## Settings that are remembered -/

namespace Settings.Memory

variable {read : Reader}

/-- What was read once is not read again. -/
theorem get_get (memory : Memory) : (memory.get read).2.get read = memory.get read := by
  cases remembered : memory.remembered with
  | some settings => simp [get, remembered]
  | none =>
      cases found : read [] memory.environment with
      | ok settings => simp [get, remembered, found]
      | error failure => simp [get, remembered, found]

@[simp] theorem environment_get (memory : Memory) : (memory.get read).2.environment = memory.environment := by
  unfold get
  split
  · rfl
  · split <;> rfl

/-- Whether a memory is the same as it was, but that settings may have been read since. -/
def Recalls (read : Reader) (memory earlier : Memory) : Prop := memory = earlier ∨ memory = (earlier.get read).2

theorem Recalls.trans {memory earlier first : Memory} (recalls : memory.Recalls read earlier)
    (before : earlier.Recalls read first) : memory.Recalls read first := by
  rcases before with rfl | rfl
  · exact recalls
  · rw [Recalls, get_get, or_self] at recalls
    exact .inr recalls

end Settings.Memory

namespace Logging

/-! ## What a call asks for -/

namespace Request

variable {read : Settings.Reader} {request : Request} {settings : Settings} {memory : Settings.Memory}

/-- The settings that a call goes by: what it gives, completed by the environment, or those that are
remembered. -/
def settingsFrom (read : Settings.Reader) (request : Request) (memory : Settings.Memory) :
    Except Failure Settings :=
  match request.settings with
  | some given => read given memory.environment
  | none => (memory.get read).1

/-- Whether a call is for debugging: by what it says itself, or else by the settings. -/
def Debugs (request : Request) (settings : Settings) : Prop :=
  request.debug ≠ .null ∧ request.debug.truthy = true ∨ request.debug = .null ∧ settings.debug = true

/-- The level that a call asks for, if there is one: that for debugging, or else its own, or else that of the
settings. -/
inductive AsksLevel (request : Request) (settings : Settings) : Except Failure Int → Prop
  | debugging (debugs : request.Debugs settings) : AsksLevel request settings (.ok 10)
  | own (plain : ¬request.Debugs settings) (given : request.level ≠ .null) :
      AsksLevel request settings (resolveLevel request.level false)
  | fallback (plain : ¬request.Debugs settings) (left : request.level = .null) :
      AsksLevel request settings (resolveLevel (.text settings.logLevel) false)

/-- The renderer that a call asks for, by what it says itself, or else by the settings. -/
inductive AsksRenderer (request : Request) (settings : Settings) : Renderer → Prop
  | own (given : request.json ≠ .null) :
      AsksRenderer request settings (if request.json.truthy then .json else .console)
  | fallback (left : request.json = .null) :
      AsksRenderer request settings (if settings.logJson then .json else .console)

/-- How a call fails: there are no settings, or no level can be made of what it asks for. -/
def FailsWith (read : Settings.Reader) (request : Request) (memory : Settings.Memory) (failure : Failure) :
    Prop :=
  request.settingsFrom read memory = .error failure ∨
    ∃ settings, request.settingsFrom read memory = .ok settings ∧ request.AsksLevel settings (.error failure)

/-- Reading the settings makes no difference to the settings of a call. -/
theorem settingsFrom_of_recalls {earlier : Settings.Memory} (recalls : memory.Recalls read earlier)
    (request : Request) : request.settingsFrom read memory = request.settingsFrom read earlier := by
  rcases recalls with rfl | rfl
  · rfl
  · unfold settingsFrom
    cases request.settings with
    | some given => rw [Settings.Memory.environment_get]
    | none => rw [Settings.Memory.get_get]

theorem givenOr_of_ne {value : Value} (given : value ≠ .null) (setting : Bool) :
    givenOr value setting = value.truthy := by
  cases value with
  | null => exact absurd rfl given
  | _ => rfl

theorem debugs_iff : request.Debugs settings ↔ givenOr request.debug settings.debug = true := by
  by_cases left : request.debug = .null
  · simp [Debugs, left, givenOr]
  · simp [Debugs, left, givenOr_of_ne left]

/-- The level that a call asks for is the one that the set-up finds. -/
theorem asksLevel_iff {answer : Except Failure Int} :
    request.AsksLevel settings answer ↔
      answer = resolveLevel (match request.level with | .null => .text settings.logLevel | given => given)
        (givenOr request.debug settings.debug) := by
  have asked : ∀ value : Value, value ≠ .null →
      (match value with | .null => .text settings.logLevel | given => given) = value := by
    intro value given
    cases value with
    | null => exact absurd rfl given
    | _ => rfl
  constructor
  · rintro (debugs | ⟨plain, given⟩ | ⟨plain, left⟩)
    · rw [debugs_iff.mp debugs]
      rfl
    · rw [asked _ given, Bool.eq_false_iff.mpr (mt debugs_iff.mpr plain)]
    · rw [left, Bool.eq_false_iff.mpr (mt debugs_iff.mpr plain)]
  · rintro rfl
    by_cases debugs : request.Debugs settings
    · rw [debugs_iff.mp debugs]
      exact .debugging debugs
    · rw [Bool.eq_false_iff.mpr (mt debugs_iff.mpr debugs)]
      by_cases left : request.level = .null
      · rw [left]
        exact .fallback debugs left
      · rw [asked _ left]
        exact .own debugs left

theorem asksLevel (request : Request) (settings : Settings) :
    request.AsksLevel settings
      (resolveLevel (match request.level with | .null => .text settings.logLevel | given => given)
        (givenOr request.debug settings.debug)) := asksLevel_iff.mpr rfl

/-- A call that finds settings and a level does not fail. -/
theorem not_failsWith {level : Int} (found : request.settingsFrom read memory = .ok settings)
    (resolved : request.AsksLevel settings (.ok level)) (failure : Failure) :
    ¬request.FailsWith read memory failure := by
  rintro (unread | ⟨others, alike, unresolved⟩)
  · cases found.symm.trans unread
  · cases found.symm.trans alike
    cases (asksLevel_iff.mp resolved).trans (asksLevel_iff.mp unresolved).symm

theorem FailsWith.unique {failure other : Failure} (h : request.FailsWith read memory failure)
    (h' : request.FailsWith read memory other) : failure = other := by
  rcases h with unread | ⟨settings, found, unresolved⟩
  · rcases h' with alike | ⟨_, found, -⟩
    · exact Except.error.inj (unread.symm.trans alike)
    · cases unread.symm.trans found
  · rcases h' with unread | ⟨_, alike, different⟩
    · cases found.symm.trans unread
    · cases found.symm.trans alike
      exact Except.error.inj ((asksLevel_iff.mp unresolved).trans (asksLevel_iff.mp different).symm)

theorem asksRenderer (request : Request) (settings : Settings) :
    request.AsksRenderer settings
      (if givenOr request.json settings.logJson then .json else .console) := by
  by_cases left : request.json = .null
  · rw [left]
    exact .fallback left
  · rw [givenOr_of_ne left]
    exact .own left

end Request

/-! ## What a call comes to -/

/-- What can come of a call. Whatever it is, the settings are remembered if they had to be read. -/
inductive Log.SetsUp (read : Settings.Reader) (log : Log) (request : Request) :
    Except Failure Unit → Log → Prop
  | refused {failure : Failure} {memory : Settings.Memory} (recalls : memory.Recalls read log.memory)
      (fails : request.FailsWith read log.memory failure) :
      SetsUp read log request (.error failure) { log with memory }
  | passed {settings : Settings} {level : Int} {memory : Settings.Memory}
      (recalls : memory.Recalls read log.memory)
      (found : request.settingsFrom read log.memory = .ok settings)
      (resolved : request.AsksLevel settings (.ok level))
      (unforced : request.force = false) (taken : log.handlers ≠ []) :
      SetsUp read log request (.ok ()) { log with memory, configured := true }
  | installed {settings : Settings} {renderer : Renderer} {level : Int} {memory : Settings.Memory}
      (recalls : memory.Recalls read log.memory)
      (found : request.settingsFrom read log.memory = .ok settings)
      (renders : request.AsksRenderer settings renderer)
      (resolved : request.AsksLevel settings (.ok level))
      (takes : request.force = true ∨ log.handlers = []) :
      SetsUp read log request (.ok ())
        { handlers := [.written renderer], level, configured := true, memory }

variable {read : Settings.Reader} {log : Log} {request : Request} {memory : Settings.Memory}

theorem Log.settingsFor_cases (read : Settings.Reader) (log : Log) (request : Request) :
    ∃ memory, memory.Recalls read log.memory ∧
      log.settingsFor request read = (request.settingsFrom read log.memory, { log with memory }) := by
  unfold Log.settingsFor Request.settingsFrom
  cases request.settings with
  | some given => exact ⟨log.memory, .inl rfl, rfl⟩
  | none => exact ⟨(log.memory.get read).2, .inr rfl, rfl⟩

/-- **What a call of the set-up can come to.** -/
theorem Log.setsUp_configure (read : Settings.Reader) (log : Log) (request : Request) :
    log.SetsUp read request (log.configure request read).1 (log.configure request read).2 := by
  obtain ⟨memory, recalls, same⟩ := log.settingsFor_cases read request
  unfold Log.configure
  rw [same]
  cases found : request.settingsFrom read log.memory with
  | error failure => exact .refused recalls (.inl found)
  | ok settings =>
      -- From here on only the level can fail, and it is resolved before anything is changed.
      have asks := request.asksLevel settings
      have renders := request.asksRenderer settings
      dsimp only
      generalize resolveLevel _ _ = answer at asks ⊢
      cases answer with
      | error failure => exact .refused recalls (.inr ⟨settings, found, asks⟩)
      | ok level =>
          dsimp only
          by_cases takes : request.force = true ∨ log.handlers = []
          · have acts : (!log.handlers.isEmpty && !request.force) = false := by
              rcases takes with forced | none
              · simp [forced]
              · simp [none]
            have kept : (if request.force then [] else log.handlers) = [] := by
              rcases takes with forced | none
              · simp [forced]
              · simp [none]
            simp only [acts, kept]
            exact .installed recalls found renders asks takes
          · obtain ⟨unforced, taken⟩ := not_or.mp takes
            have stays : (!log.handlers.isEmpty && !request.force) = true := by simp [unforced, taken]
            simp only [stays]
            exact .passed recalls found asks (Bool.eq_false_iff.mpr unforced) taken

namespace Log

variable {result : Except Failure Unit} {next : Log}

theorem SetsUp.recalls (h : log.SetsUp read request result next) : next.memory.Recalls read log.memory := by
  cases h <;> assumption

/-- A call that is not forced and finds handlers leaves them and the level as they are. -/
theorem configure_of_found (unforced : request.force = false) (taken : log.handlers ≠ []) :
    (log.configure request read).2.handlers = log.handlers ∧
      (log.configure request read).2.level = log.level := by
  have outcome := log.setsUp_configure read request
  generalize (log.configure request read).1 = result at outcome
  generalize (log.configure request read).2 = next at outcome ⊢
  cases outcome with
  | refused => exact ⟨rfl, rfl⟩
  | passed => exact ⟨rfl, rfl⟩
  | installed _ _ _ _ takes =>
      rcases takes with forced | none
      · cases unforced.symm.trans forced
      · exact absurd none taken

/-- **A call that fails** leaves everything as it is but what is remembered of the settings. -/
theorem configure_of_refused {failure : Failure} (refused : (log.configure request read).1 = .error failure) :
    (log.configure request read).2 = { log with memory := (log.configure request read).2.memory } := by
  have outcome := log.setsUp_configure read request
  rw [refused] at outcome
  generalize (log.configure request read).2 = next at outcome ⊢
  cases outcome
  rfl

theorem configure_eq_error_iff {failure : Failure} :
    (log.configure request read).1 = .error failure ↔ request.FailsWith read log.memory failure := by
  have outcome := log.setsUp_configure read request
  generalize (log.configure request read).1 = result at outcome ⊢
  generalize (log.configure request read).2 = next at outcome
  cases outcome with
  | refused _ fails =>
      exact ⟨fun same => Except.error.inj same ▸ fails, fun h => congrArg _ (fails.unique h)⟩
  | passed _ found resolved => exact iff_of_false nofun (Request.not_failsWith found resolved failure)
  | installed _ found _ resolved =>
      exact iff_of_false nofun (Request.not_failsWith found resolved failure)

end Log

end Logging
end ActionFlow

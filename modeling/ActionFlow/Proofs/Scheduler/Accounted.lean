import ActionFlow.Proofs.Scheduler.Keyed

/-!
# What became of the keys

A trace says what was done so far: which effects the tasks performed, which keys were taken, and which
requests within a limit of time failed. This module ties the trace to the scheduler. A key that was
taken opens the barrier until somebody gives it back; and what a helper got for a request that failed
was given back by then, unless the request was cut short.

## Main results

* `Accounted`: the invariant.
* `Accounted.carry`, `Accounted.note`: what may happen without touching it.
* `Accounted.tell_took`, `Accounted.tell_quit`: how a request comes to its end.
-/

namespace ActionFlow

/-- Something that was done. -/
inductive Deed where
  /-- A task performed an effect. -/
  | did (task : TaskId) (effect : Effect)
  /-- A task got the barrier with a key. -/
  | took (task : TaskId) (key : PauseId)
  /-- A task's request for the barrier within a limit of time failed; `cut` tells whether it was
  cancelled while it waited for its helper to end. -/
  | quit (task : TaskId) (key : PauseId) (helper : TaskId) (failure : Failure) (cut : Bool)

namespace Scheduler

variable {κ : Type}

/-- The trace tells what became of the keys. -/
structure Accounted (s : Scheduler κ) (hand : Hand) (trace : List Deed) : Prop where
  tookKey : ∀ {t key}, .took t key ∈ trace → key < s.waits
  tookOne : ∀ {t t' key}, .took t key ∈ trace → .took t' key ∈ trace → t = t'
  tookDone : ∀ {t key t' aim}, .took t key ∈ trace → s.Asks hand t' aim → aim.key? ≠ some key
  /-- A key that was taken opens the barrier until it is given back. -/
  tookOpens : ∀ {t key}, .took t key ∈ trace →
    key ∈ s.keys ∨ ∃ t', .did t' (.release key) ∈ trace
  quitHelper : ∀ {t key h failure cut}, .quit t key h failure cut ∈ trace →
    s.helper? h = some (key, t) ∧ s.Doomed h ∧ failure.Excused
  quitDone : ∀ {t key h failure cut t' aim}, .quit t key h failure cut ∈ trace →
    s.Asks hand t' aim → aim.key? ≠ some key
  quitFree : ∀ {t key h failure}, .quit t key h failure false ∈ trace → s.Got h →
    s.holder ≠ some key
  /-- The barrier stays with a request that was cut short after its helper had got it. -/
  quitHeld : ∀ {t key h failure}, .quit t key h failure true ∈ trace → s.Got h →
    s.holder = some key ∧ key ∉ s.keys

/-- Nothing was told of a key. -/
def Untold (trace : List Deed) (key : PauseId) : Prop :=
  (∀ t, .took t key ∉ trace) ∧ ∀ t h failure cut, .quit t key h failure cut ∉ trace

namespace Accounted

variable {s s' : Scheduler κ} {hand hand' : Hand} {trace : List Deed} {t : TaskId}

/-! ## What leaves everything alone -/

/-- Requests may be dropped, new ones may be for keys that nothing was told of, and helpers may be
added. -/
theorem carry (h : s.Accounted hand trace)
    (helper : ∀ t, s.helper? t ≠ none → s'.helper? t = s.helper? t)
    (got : ∀ t, s.helper? t ≠ none → (s'.Got t ↔ s.Got t))
    (doomed : ∀ t, s.helper? t ≠ none → s.Doomed t → s'.Doomed t)
    (holder : s'.holder = s.holder) (keys : s'.keys = s.keys) (waits : s.waits ≤ s'.waits)
    (asks : ∀ t aim, s'.Asks hand' t aim →
      s.Asks hand t aim ∨ ∃ key, aim.key? = some key ∧ Untold trace key) :
    s'.Accounted hand' trace := by
  have known : ∀ {t key h' failure cut}, .quit t key h' failure cut ∈ trace → s.helper? h' ≠ none := by
    intro t key h' failure cut quit
    simp [(h.quitHelper quit).1]
  constructor
  case tookKey =>
    intro t key took
    exact Nat.lt_of_lt_of_le (h.tookKey took) waits
  case tookOne => exact h.tookOne
  case tookDone =>
    intro t key t' aim took asking named
    rcases asks t' aim asking with was | ⟨new, newly, untold⟩
    · exact h.tookDone took was named
    · cases newly.symm.trans named
      exact untold.1 t took
  case tookOpens =>
    rw [keys]
    exact h.tookOpens
  case quitHelper =>
    intro t key h' failure cut quit
    obtain ⟨helps, quitter, excused⟩ := h.quitHelper quit
    exact ⟨(helper h' (known quit)).trans helps, doomed h' (known quit) quitter, excused⟩
  case quitDone =>
    intro t key h' failure cut t' aim quit asking named
    rcases asks t' aim asking with was | ⟨new, newly, untold⟩
    · exact h.quitDone quit was named
    · cases newly.symm.trans named
      exact untold.2 t h' failure cut quit
  case quitFree =>
    intro t key h' failure quit has
    rw [holder]
    exact h.quitFree quit ((got h' (known quit)).mp has)
  case quitHeld =>
    intro t key h' failure quit has
    rw [holder, keys]
    exact h.quitHeld quit ((got h' (known quit)).mp has)

/-- Requests may be dropped, and helpers may be added. -/
theorem frame (h : s.Accounted hand trace)
    (helper : ∀ t, s.helper? t ≠ none → s'.helper? t = s.helper? t)
    (got : ∀ t, s.helper? t ≠ none → (s'.Got t ↔ s.Got t))
    (doomed : ∀ t, s.helper? t ≠ none → s.Doomed t → s'.Doomed t)
    (holder : s'.holder = s.holder) (keys : s'.keys = s.keys) (waits : s.waits ≤ s'.waits)
    (asks : ∀ t aim, s'.Asks hand' t aim → s.Asks hand t aim) : s'.Accounted hand' trace :=
  h.carry helper got doomed holder keys waits fun t aim asking => .inl (asks t aim asking)

theorem frame_of_quiet (h : s.Accounted hand trace) (quiet : Quiet s s')
    (asks : ∀ t aim, s'.Asks hand' t aim → s.Asks hand t aim) : s'.Accounted hand' trace :=
  h.frame (fun t _ => quiet.helper t) quiet.got quiet.doomed quiet.holder quiet.keys quiet.waits asks

/-- What the task whose turn it is still follows up may be dropped. -/
theorem letGo {aim : Option Aim} (h : s.Accounted (some (t, aim)) trace) :
    s.Accounted (some (t, none)) trace :=
  h.frame (fun _ _ => rfl) (fun _ _ => Iff.rfl) (fun _ _ => id) rfl rfl (Nat.le_refl _)
    (fun _ _ ⟨body, named, asks⟩ => ⟨body, named, asks.imp_right nofun⟩)

theorem mem_append_deed {deed last : Deed} : deed ∈ trace ++ [last] ↔ deed ∈ trace ∨ deed = last := by
  rw [List.mem_append, List.mem_singleton]

/-- An effect is performed. -/
theorem note (h : s.Accounted hand trace) (task : TaskId) (effect : Effect) :
    s.Accounted hand (trace ++ [.did task effect]) := by
  constructor
  case tookKey => simpa [mem_append_deed] using @h.tookKey
  case tookOne => simpa [mem_append_deed] using @h.tookOne
  case tookDone => simpa [mem_append_deed] using @h.tookDone
  case tookOpens =>
    intro t key took
    rcases h.tookOpens ((mem_append_deed.mp took).resolve_right nofun) with opens | ⟨t', released⟩
    · exact .inl opens
    · exact .inr ⟨t', mem_append_deed.mpr (.inl released)⟩
  case quitHelper => simpa [mem_append_deed] using @h.quitHelper
  case quitDone => simpa [mem_append_deed] using @h.quitDone
  case quitFree => simpa [mem_append_deed] using @h.quitFree
  case quitHeld => simpa [mem_append_deed] using @h.quitHeld

/-- The number of the next wait does not occur in the trace as a key. -/
theorem fresh (h : s.Accounted hand trace) (keyed : s.Keyed hand) : Untold trace s.waits := by
  refine ⟨fun t took => Nat.lt_irrefl _ (h.tookKey took), fun t helper failure cut quit => ?_⟩
  exact Nat.lt_irrefl _ (keyed.helperKey (h.quitHelper quit).1)

/-! ## The stations of a request -/

/-- A request for a key that has not come to an end yet. -/
theorem ask (h : s.Accounted hand trace) {aim : Aim} {key : PauseId} (quiet : Quiet s s')
    (asks : ∀ t' aim', s'.Asks none t' aim' → s.Asks hand t' aim' ∨ aim' = aim)
    (named : aim.key? = some key) (untold : Untold trace key) : s'.Accounted none trace := by
  refine h.carry (fun t _ => quiet.helper t) quiet.got quiet.doomed quiet.holder quiet.keys
    quiet.waits ?_
  intro t' aim' asking
  rcases asks t' aim' asking with was | rfl
  · exact .inl was
  · exact .inr ⟨key, named, untold⟩

/-- The task whose turn it is takes the barrier with a key. -/
theorem tell_took {aim : Option Aim} (h : s.Accounted (some (t, aim)) trace) (s' : Scheduler κ)
    {key : PauseId} (tasks : s'.task = s.task) (numbered : key < s'.waits) (waits : s.waits ≤ s'.waits)
    (free : s.holder = none ∨ s.holder = some key)
    (unasked : ∀ t' aim', s.Asks (some (t, none)) t' aim' → aim'.key? ≠ some key)
    (untold : Untold trace key) (holder : s'.holder = some key) (keys : s'.keys = s.keys ++ [key]) :
    s'.Accounted (some (t, none)) (trace ++ [.took t key]) := by
  have h := h.letGo
  have toldQuit : ∀ {t' key' h' failure cut},
      .quit t' key' h' failure cut ∈ trace ++ [.took t key] → .quit t' key' h' failure cut ∈ trace :=
    fun quit => (mem_append_deed.mp quit).resolve_right nofun
  constructor
  case tookKey =>
    intro t' key' took
    rcases mem_append_deed.mp took with told | ⟨⟨⟩⟩
    · exact Nat.lt_of_lt_of_le (h.tookKey told) waits
    · exact numbered
  case tookOne =>
    intro t₁ t₂ key' took₁ took₂
    rcases mem_append_deed.mp took₁ with told₁ | ⟨⟨⟩⟩
    · rcases mem_append_deed.mp took₂ with told₂ | ⟨⟨⟩⟩
      · exact h.tookOne told₁ told₂
      · exact absurd told₁ (untold.1 t₁)
    · rcases mem_append_deed.mp took₂ with told₂ | ⟨⟨⟩⟩
      · exact absurd told₂ (untold.1 t₂)
      · rfl
  case tookDone =>
    intro t' key' t'' aim' took asking
    rw [asks_of_tasks tasks] at asking
    rcases mem_append_deed.mp took with told | ⟨⟨⟩⟩
    · exact h.tookDone told asking
    · exact unasked t'' aim' asking
  case tookOpens =>
    intro t' key' took
    rw [keys, List.mem_append, List.mem_singleton]
    rcases mem_append_deed.mp took with told | ⟨⟨⟩⟩
    · rcases h.tookOpens told with opens | ⟨t'', released⟩
      · exact .inl (.inl opens)
      · exact .inr ⟨t'', mem_append_deed.mpr (.inl released)⟩
    · exact .inl (.inr rfl)
  case quitHelper =>
    intro t' key' h' failure cut quit
    rw [helper_of_tasks tasks, doomed_of_tasks tasks]
    exact h.quitHelper (toldQuit quit)
  case quitDone =>
    intro t' key' h' failure cut t'' aim' quit asking
    exact h.quitDone (toldQuit quit) ((asks_of_tasks tasks).mp asking)
  case quitFree =>
    intro t' key' h' failure quit has held
    cases holder.symm.trans held
    exact untold.2 t' h' failure false (toldQuit quit)
  case quitHeld =>
    intro t' key' h' failure quit has
    have held := (h.quitHeld (toldQuit quit) ((got_of_tasks tasks).mp has)).1
    rcases free with free | mine
    · cases free.symm.trans held
    · cases mine.symm.trans held
      exact absurd (toldQuit quit) (untold.2 t' h' failure true)

/-- A helper that is not called off takes the free barrier, and ends. -/
theorem helperTakes (h : s.Accounted none trace) {key : PauseId} {caller helper : TaskId}
    (moves : Moves s s' helper (.finished (.ok ()))) (helps : s.helper? helper = some (key, caller))
    (calm : ¬ s.Doomed helper) (free : s.holder = none) (keyed : s.Keyed none)
    (holder : s'.holder = some key) (keys : s'.keys = s.keys) : s'.Accounted none trace := by
  have asks : ∀ {t aim}, s'.Asks none t aim → s.Asks none t aim := moves.asks_of_helper (by simp [helps])
  -- The helper of a request that failed does not end well any more, so it is another helper's turn.
  have got : ∀ {t key' h' failure cut}, .quit t key' h' failure cut ∈ trace → s'.Got h' → s.Got h' := by
    intro t key' h' failure cut quit has
    rcases moves.got_iff.mp has with had | rfl
    · exact had
    · exact absurd (h.quitHelper quit).2.1 calm
  constructor
  case tookKey =>
    intro t key' took
    exact Nat.lt_of_lt_of_le (h.tookKey took) moves.waits
  case tookOne => exact h.tookOne
  case tookDone =>
    intro t key' t' aim took asking
    exact h.tookDone took (asks asking)
  case tookOpens =>
    rw [keys]
    exact h.tookOpens
  case quitHelper =>
    intro t key' h' failure cut quit
    rw [moves.helper]
    exact (h.quitHelper quit).imp_right (And.imp_left moves.doomed_of_finished)
  case quitDone =>
    intro t key' h' failure cut t' aim quit asking
    exact h.quitDone quit (asks asking)
  case quitFree =>
    intro t key' h' failure quit has held
    cases holder.symm.trans held
    obtain ⟨byQuitter, doomed, -⟩ := h.quitHelper quit
    cases keyed.helperOne byQuitter helps
    exact calm doomed
  case quitHeld =>
    intro t key' h' failure quit has
    cases free.symm.trans (h.quitHeld quit (got quit has)).1

/-- What was kept for a request is given back. -/
theorem setFree (h : s.Accounted hand trace) {key : PauseId} (held : s.holder = some key)
    (unquit : ∀ t h failure cut, .quit t key h failure cut ∉ trace) :
    { s with holder := none }.Accounted hand trace :=
  { h with
    quitFree := nofun
    quitHeld := fun {t' key' h' failure} quit got => by
      have other := (h.quitHeld quit got).1
      rw [held] at other
      cases other
      exact absurd quit (unquit _ _ _ _) }

/-- The key that opens the barrier is given back. -/
theorem spend (h : s.Accounted hand trace) {key : PauseId} (held : s.holder = some key)
    (opens : s.keys = [key]) (t : TaskId) :
    { s with holder := none, keys := [] }.Accounted hand (trace ++ [Deed.did t (.release key)]) := by
  have h := h.note t (.release key)
  exact { h with
    tookOpens := fun {t' key'} took => by
      rcases h.tookOpens took with member | released
      · rw [opens, List.mem_singleton] at member
        exact .inr ⟨t, by simp [member]⟩
      · exact .inr released
    quitFree := nofun
    quitHeld := fun {t' key' h' failure} quit got => by
      obtain ⟨same, shut⟩ := h.quitHeld quit got
      rw [held] at same
      cases same
      exact absurd (opens ▸ List.mem_singleton_self _) shut }

/-- A request fails. -/
theorem tell_quit (h : s.Accounted hand trace) {key : PauseId} {helper : TaskId} {failure : Failure}
    {cut : Bool} (helps : s.helper? helper = some (key, t)) (doomed : s.Doomed helper)
    (excused : failure.Excused) (unasked : ∀ t' aim', s.Asks hand t' aim' → aim'.key? ≠ some key)
    (freed : cut = false → s.Got helper → s.holder ≠ some key)
    (held : cut = true → s.Got helper → s.holder = some key ∧ key ∉ s.keys) :
    s.Accounted hand (trace ++ [.quit t key helper failure cut]) := by
  constructor
  case tookKey =>
    intro t' key' took
    exact h.tookKey ((mem_append_deed.mp took).resolve_right nofun)
  case tookOne =>
    intro t₁ t₂ key' took₁ took₂
    exact h.tookOne ((mem_append_deed.mp took₁).resolve_right nofun)
      ((mem_append_deed.mp took₂).resolve_right nofun)
  case tookDone =>
    intro t' key' t'' aim took
    exact h.tookDone ((mem_append_deed.mp took).resolve_right nofun)
  case tookOpens =>
    intro t' key' took
    rcases h.tookOpens ((mem_append_deed.mp took).resolve_right nofun) with opens | ⟨t'', released⟩
    · exact .inl opens
    · exact .inr ⟨t'', mem_append_deed.mpr (.inl released)⟩
  case quitHelper =>
    intro t' key' h' failure' cut' quit
    rcases mem_append_deed.mp quit with told | ⟨⟨⟩⟩
    · exact h.quitHelper told
    · exact ⟨helps, doomed, excused⟩
  case quitDone =>
    intro t' key' h' failure' cut' t'' aim quit asking
    rcases mem_append_deed.mp quit with told | ⟨⟨⟩⟩
    · exact h.quitDone told asking
    · exact unasked t'' aim asking
  case quitFree =>
    intro t' key' h' failure' quit
    rcases mem_append_deed.mp quit with told | ⟨⟨⟩⟩
    · exact h.quitFree told
    · exact freed rfl
  case quitHeld =>
    intro t' key' h' failure' quit
    rcases mem_append_deed.mp quit with told | ⟨⟨⟩⟩
    · exact h.quitHeld told
    · exact held rfl

end Accounted
end Scheduler
end ActionFlow

import ActionFlow.Proofs.Scheduler.Procession
import ActionFlow.Proofs.World.Abandoned
import ActionFlow.Proofs.World.Alert

/-!
# First come, first served

If turns are taken in the order in which they were queued, requests for the barrier are granted in the
order in which they were made. Requests that were given up, because the limit of time was reached or the
task was cancelled, are left out, and nobody else notices: neither does a later request come before an
earlier one, nor is anybody left waiting for a barrier that is free.

## Main results

* `InTurn`: the worlds that can be reached while the turns keep their order, with the requests that were
  made.
* `Served.shift`: every step grants requests in order.
* `first_come_first_served`: what holds in all these worlds.
-/

namespace ActionFlow

/-- Who was granted which key, if somebody was. -/
def Deed.taken? : Deed → Option (TaskId × PauseId)
  | .took t key => some (t, key)
  | .did .. | .quit .. => none

/-- Who was granted which keys, in order. -/
def takings (trace : List Deed) : List (TaskId × PauseId) := trace.filterMap Deed.taken?

theorem mem_takings {trace : List Deed} {t : TaskId} {key : PauseId} :
    (t, key) ∈ takings trace ↔ .took t key ∈ trace := by
  unfold takings
  rw [List.mem_filterMap]
  constructor
  · rintro ⟨deed, done, taken⟩
    cases deed with
    | took t own =>
      cases taken
      exact done
    | did | quit => cases taken
  · exact fun took => ⟨_, took, rfl⟩

theorem map_takings (trace : List Deed) : (takings trace).map (·.2) = grants trace := by
  unfold takings grants
  rw [List.map_filterMap]
  congr 1
  funext deed
  cases deed <;> rfl

namespace Scheduler

variable {κ : Type} {s s' : Scheduler κ} {hand hand' : Hand} {t : TaskId} {key : PauseId}
  {trace deeds : List Deed} {calls requests : List (TaskId × PauseId)}

/-! ## Who was called off -/

/-- Whether a helper was called off: in line, or by the end that it has come to. -/
def CalledOff (s : Scheduler κ) (helper : TaskId) : Prop :=
  (∃ wait, s.status? helper = some (.waiting wait) ∧ wait.signal = .cancelled) ∨
    ∃ failure, s.status? helper = some (.finished (.error failure))

/-- Whether a task is still waiting for the barrier with a key, and has not given that up: it is in line
and was not called off there, or the helper that it watches was not. -/
inductive Pending (s : Scheduler κ) (t : TaskId) (key : PauseId) : Prop where
  | inLine {wait : Wait} (waits : s.status? t = some (.waiting wait)) (aims : wait.aim = .line key)
      (kept : wait.signal ≠ .cancelled)
  | helped {wait : Wait} {helper : TaskId} {limit : Value} (waits : s.status? t = some (.waiting wait))
      (aims : wait.aim = .watch key helper limit) (kept : ¬ s.CalledOff helper)

theorem standing_of_waiting {wait : Wait} (waits : s.status? t = some (.waiting wait))
    (aims : wait.aim = .line key) (kept : wait.signal ≠ .cancelled) : s.standing? t = some key := by
  obtain ⟨task, ht, status⟩ := task_of_status waits
  simp only [standing?, stake?_of_task ht, Task.stake?, status, Wait.stake?, aims, kept, ↓reduceIte,
    Option.bind_some, Stake.standing?]

/-- Who is in line, and was not called off there, may still come to the barrier. -/
theorem racer_of_inLine (sound : s.Sound hand trace) {wait : Wait}
    (waits : s.status? t = some (.waiting wait)) (aims : wait.aim = .line key)
    (kept : wait.signal ≠ .cancelled) : key ∈ s.racers [] := by
  have inLine : t ∈ s.line := sound.orderly.inLine.mpr ⟨wait, key, waits, aims⟩
  refine List.mem_append_left _ (List.mem_filterMap.mpr ⟨t, inLine, ?_⟩)
  exact standing_of_waiting waits aims kept

/-- The barrier is kept for a request that nobody has given up, or else the request may still come to
it. -/
theorem Pending.waiting (pending : s.Pending t key) (sound : s.Sound hand trace) (alert : s.Alert hand) :
    key ∈ s.holder.toList.filter (fun key => decide (key ∉ grants trace)) ++ s.racers [] := by
  cases pending with
  | inLine waits aims kept => exact List.mem_append_right _ (racer_of_inLine sound waits aims kept)
  | @helped wait helper limit waits aims kept =>
    have body : s.helper? t = none := by
      cases helps : s.helper? t with
      | none => rfl
      | some own => cases (sound.orderly.helperWaits helps waits).symm.trans aims
    have asks : s.Asks hand t wait.aim := ⟨body, by rw [aims]; nofun, .inl ⟨wait, waits, rfl⟩⟩
    have named : wait.aim.key? = some key := by rw [aims]; rfl
    have watched : wait.aim.helper? = some helper := by rw [aims]; rfl
    have helps := sound.keyed.caller asks named watched
    obtain ⟨task, ht, role⟩ := Option.bind_eq_some_iff.mp helps
    have known := status_of_task ht
    cases status : task.status with
    | queued =>
      rw [status] at known
      have comes : s.coming? (.resume helper) = some key := by
        simp only [coming?, stake?_of_task ht, Task.stake?, status, role, Option.map_some,
          Option.bind_some, Stake.coming?]
      have due := alert.wakeful.ready (.inl known)
      exact List.mem_append_right _ (List.mem_append_right _ (List.mem_filterMap.mpr ⟨_, due, comes⟩))
    | running =>
      rw [status] at known
      obtain ⟨⟨own, aim⟩, held, same⟩ := Option.map_eq_some_iff.mp (alert.wakeful.running known)
      cases same
      cases helps.symm.trans (sound.keyed.inHand held)
    | waiting own =>
      rw [status] at known
      have aimed := sound.orderly.helperWaits helps known
      refine List.mem_append_right _ (racer_of_inLine sound known aimed fun cancelled => ?_)
      exact kept (.inl ⟨own, known, cancelled⟩)
    | finished ending =>
      rw [status] at known
      cases ending with
      | error failure => exact absurd (.inr ⟨failure, known⟩) kept
      | ok =>
        have held := sound.keyed.kept asks named watched known
        have new : key ∉ grants trace := fun granted => by
          obtain ⟨taker, took⟩ := mem_grants.mp granted
          exact sound.accounted.tookDone took asks named
        refine List.mem_append_left _ (List.mem_filter.mpr ⟨?_, decide_eq_true new⟩)
        rw [held]
        exact List.mem_singleton_self key

/-! ## The order of service -/

/-- Requests were granted in the order in which they were made, and are going to be. `dealt` are turns
that are taken before those that are queued. -/
structure Served (s : Scheduler κ) (dealt : List Turn) (calls : List (TaskId × PauseId))
    (trace : List Deed) : Prop where
  enlisted : s.Enlisted calls
  procession : (entered s.holder (grants trace) ++ s.racers dealt).Sublist (calls.map (·.2))
  called : ∀ {t key}, .took t key ∈ trace → (t, key) ∈ calls

theorem fades_spawnBody (unknown : s.helper? s.size = none) (resume : Except Failure PauseId → κ) :
    Fades s (s.spawn (.body resume)).1 := by
  have stake : ∀ t, (s.spawn (.body resume)).1.stake? t = if t = s.size then none else s.stake? t :=
    fun t => (stake?_setTask { s with size := s.size + 1 } s.size t { role := .body resume }).trans rfl
  refine ⟨fun {t _} has => ?_, fun t => ?_, ⟨[.resume s.size], ?_, fun turn member => ?_⟩,
    Nat.le_refl _, rfl⟩
  · rw [stake] at has
    split at has
    · cases has
    · exact has
  · rw [helper?_spawn]
    split
    next same => exact (same ▸ unknown).symm
    next => rfl
  · simp only [spawn, turns_push]
    rfl
  · cases List.mem_singleton.mp member
    simp only [coming?, stake, ↓reduceIte, Option.bind_none]

theorem recedes_release {hand : Hand} (sound : s.Sound hand trace) (key : PauseId) :
    Recedes s (s.release key).1 := by
  rcases release_eq sound.keyed key with ⟨-, -, -, released⟩ | ⟨-, released⟩
  · have latch := latch_wakeFirst { s with holder := none, keys := [] }
    have line : (s.release key).1.line = s.line := by
      rw [released]
      exact congrArg Latch.line latch
    have free : (s.release key).1.holder = none := by
      rw [released]
      exact congrArg Latch.holder latch
    exact ⟨fades_release s key, line ▸ List.Sublist.refl _, .inr free⟩
  · rw [released]
    exact recedes_of_latch (fades_self s) rfl

/-- Who was called off in line is granted nothing. -/
theorem kept_of_took {turn : Turn} (took : .took t key ∈ s.deedsOfTurn turn) {wait : Wait}
    {own : PauseId} (waits : s.status? t = some (.waiting wait)) (aims : wait.aim = .line own) :
    wait.signal ≠ .cancelled := by
  intro cancelled
  cases turn with
  | signal => cases took
  | resume other =>
    unfold deedsOfTurn at took
    cases ht : s.task other with
    | none => simp [ht] at took
    | some task =>
      simp only [ht] at took
      unfold deedsOfHandover at took
      split at took
      next granted went =>
        cases List.mem_singleton.mp took
        have status : task.status = .waiting wait :=
          Option.some.inj ((status_of_task ht).symm.trans waits)
        simp only [takeTurn, ht, status, resumeWaiting, aims, cancelled, decide_true, Bool.or_true,
          ↓reduceIte] at went
        cases role : task.role <;> simp [role, goOn] at went
      next =>
        unfold Task.deedsOfFailure at took
        split at took <;> simp at took
      next => cases took

/-- Who is granted a key in a turn has asked for it. -/
theorem called_of_took (enlisted : s.Enlisted calls) (sound : s.Sound none trace) {turn : Turn}
    (took : .took t key ∈ s.deedsOfTurn turn) : (t, key) ∈ calls := by
  obtain ⟨aim, asks, named⟩ := asks_of_deed took (.inl rfl)
  cases watched : aim.helper? with
  | some helper => exact enlisted.helper (sound.keyed.caller asks named watched)
  | none =>
    obtain ⟨body, -, ⟨wait, waits, rfl⟩ | held⟩ := asks
    · cases aims : wait.aim with
      | line own =>
        rw [aims] at named
        cases named
        exact enlisted.standing body (standing_of_waiting waits aims (kept_of_took took waits aims))
      | gate | time =>
        rw [aims] at named
        cases named
      | watch | leave =>
        rw [aims] at watched
        cases watched
    · cases held

namespace Served

variable {dealt : List Turn}

/-- The order is kept by whatever lets through only who is the first. -/
theorem advance (h : s.Served dealt calls trace) (enlisted : s'.Enlisted (calls ++ requests))
    (advances : Advances s (grants trace) dealt (requests.map (·.2)) s' (grants deeds))
    (called : ∀ t key, .took t key ∈ deeds → (t, key) ∈ calls ++ requests) :
    s'.Served [] (calls ++ requests) (trace ++ deeds) where
  enlisted := enlisted
  procession := by
    rw [grants_append, List.map_append]
    exact advances.procession.trans (h.procession.append_right _)
  called took := by
    rcases List.mem_append.mp took with before | now
    · exact List.mem_append_left _ (h.called before)
    · exact called _ _ now

/-- Nobody is let through, and nobody asks. -/
theorem recede (h : s.Served [] calls trace) (recedes : Recedes s s')
    (untaken : ∀ deed ∈ deeds, deed.granted? = none) : s'.Served [] (calls ++ []) (trace ++ deeds) := by
  have nothing : grants deeds = [] := List.filterMap_eq_nil_iff.mpr untaken
  refine h.advance ?_ (nothing ▸ recedes.advances) fun t key took => ?_
  · rw [List.append_nil]
    exact h.enlisted.keeps recedes.fades.keeps
  · cases untaken _ took

theorem untaken_nil : ∀ deed ∈ ([] : List Deed), deed.granted? = none := fun _ member =>
  absurd member List.not_mem_nil

theorem untaken_did (t : TaskId) (effect : Effect) :
    ∀ deed ∈ [Deed.did t effect], deed.granted? = none := fun _ member => by
  cases List.mem_singleton.mp member
  rfl

theorem setResume (h : s.Served [] calls trace) (body : s.helper? t = none)
    (next : Except Failure PauseId → κ) : (s.setResume t next).Served [] calls trace := by
  have recedes : Recedes s (s.setResume t next) :=
    recedes_of_latch (fades_setResume body next) (latch_setResume s t next)
  have kept := h.recede recedes untaken_nil
  rwa [List.append_nil, List.append_nil] at kept

theorem await (h : s.Served [] calls trace) (sound : s.Sound (some (t, none)) trace) (pause : Pause) :
    (s.await t pause).1.Served [] (calls ++ (s.requested pause).map fun key => (t, key))
      (trace ++ .did t (.await pause) :: deedsOfAwait t pause (s.await t pause).2) := by
  have advances := advances_await sound h.enlisted.alone pause
  refine h.advance (h.enlisted.await sound pause) ?_ fun taker key took => ?_
  · have granted : grants (.did t (.await pause) :: deedsOfAwait t pause (s.await t pause).2) =
        grantedAt pause (s.await t pause).2 := by
      rw [deedsOfAwait_eq]
      exact grants_map_took t _
    simpa [granted, Function.comp_def] using advances
  · rw [deedsOfAwait_eq] at took
    obtain ⟨granted, rfl⟩ : key ∈ grantedAt pause (s.await t pause).2 ∧ t = taker := by
      simpa using took
    cases grantedAt_await granted
    refine List.mem_append_right _ (List.mem_map.mpr ⟨s.waits, ?_, rfl⟩)
    cases pause with
    | gate | sleep => cases granted
    | barrier => exact List.mem_singleton_self _

theorem nextTurn {turn : Turn} (h : s.Served [] calls trace) (next : s.nextTurn? = some (turn, s')) :
    s'.Served [turn] calls trace where
  enlisted := h.enlisted.keeps (keeps_nextTurn next)
  procession := by
    rw [racers_nextTurn next, show s'.holder = s.holder from congrArg Latch.holder (latch_nextTurn next)]
    exact h.procession
  called := h.called

theorem takeTurn {turn : Turn} (h : s.Served [turn] calls trace) (sound : s.Sound none trace)
    (due : s.Due turn) : (s.takeTurn turn).1.Served [] (calls ++ []) (trace ++ s.deedsOfTurn turn) := by
  refine h.advance ?_ (advances_takeTurn sound due) fun t key took => ?_
  · rw [List.append_nil]
    exact h.enlisted.keeps (keeps_takeTurn s turn)
  · rw [List.append_nil]
    exact called_of_took h.enlisted sound took

/-- **Every step** grants requests in the order in which they were made. -/
theorem shift (h : s.Served [] calls trace) (sound : s.Sound hand trace)
    (shifts : Shift s hand requests deeds s' hand') :
    s'.Served [] (calls ++ requests) (trace ++ deeds) := by
  cases shifts with
  | stay t effect => exact h.recede (recedes_of_latch (fades_self s) rfl) (untaken_did t _)
  | setGate t gate opened =>
    exact h.recede (recedes_of_latch (fades_setGate s gate opened) (latch_setGate s gate opened))
      (untaken_did t _)
  | cancel t other name =>
    exact h.recede (recedes_of_latch (fades_cancel s other) (latch_cancel s other)) (untaken_did t _)
  | release t key => exact h.recede (recedes_release sound key) (untaken_did t _)
  | await t pause next =>
    have same : (s.setResume t next).requested pause = s.requested pause := by
      unfold Scheduler.setResume
      split <;> rfl
    rw [← same]
    exact (h.setResume (sound.keyed.inHand rfl) next).await (sound.setResume next) pause
  | finish t ending =>
    exact h.recede (recedes_of_latch (fades_finish s t ending) (latch_finish s t ending)) untaken_nil
  | turn next =>
    obtain ⟨sound, due⟩ := sound.nextTurn next
    exact (h.nextTurn next).takeTurn sound due

end Served

/-- In the order of the keys, what was granted lies before whatever is still waiting. -/
theorem Served.granted_before (h : s.Served [] calls trace) (sound : s.Sound hand trace)
    (alert : s.Alert hand) (pending : s.Pending t key) {own : PauseId} (granted : own ∈ grants trace) :
    own < key := by
  have ordered := (List.pairwise_map.mpr h.enlisted.ordered).sublist h.procession
  unfold entered at ordered
  rw [List.append_assoc] at ordered
  exact (List.pairwise_append.mp ordered).2.2 own granted key (pending.waiting sound alert)

/-- A request is told by its key. -/
theorem eq_of_key (ordered : calls.Pairwise fun first second => first.2 < second.2)
    {call other : TaskId × PauseId} (made : call ∈ calls) (made' : other ∈ calls)
    (same : call.2 = other.2) : call = other := by
  obtain ⟨i, hi, rfl⟩ := List.getElem_of_mem made
  obtain ⟨j, hj, rfl⟩ := List.getElem_of_mem made'
  have lower := List.pairwise_iff_getElem.mp ordered
  rcases Nat.lt_trichotomy i j with before | rfl | after
  · exact absurd same (Nat.ne_of_lt (lower i j hi hj before))
  · rfl
  · exact absurd same (Nat.ne_of_gt (lower j i hj hi after))

theorem sublist_of_keys (ordered : calls.Pairwise fun first second => first.2 < second.2)
    {some : List (TaskId × PauseId)} (keys : (some.map (·.2)).Sublist (calls.map (·.2)))
    (made : ∀ call ∈ some, call ∈ calls) : some.Sublist calls := by
  obtain ⟨part, fewer, same⟩ := List.sublist_map_iff.mp keys
  have length : some.length = part.length := by simpa using congrArg List.length same
  suffices some = part from this ▸ fewer
  refine List.ext_getElem length fun i h h' => ?_
  refine eq_of_key ordered (made _ (List.getElem_mem h)) (fewer.subset (List.getElem_mem h')) ?_
  have own : (some.map (·.2))[i]? = (part.map (·.2))[i]? := congrArg (·[i]?) same
  simpa [h, h'] using own

/-- Keys were granted in the order of the requests. -/
theorem Served.inOrder (h : s.Served [] calls trace) : (takings trace).Sublist calls := by
  refine sublist_of_keys h.enlisted.ordered ?_ fun (t, key) taken => h.called (mem_takings.mp taken)
  rw [map_takings]
  exact ((granted_sublist_entered ..).trans (List.sublist_append_left ..)).trans h.procession

end Scheduler

namespace World

variable {hosts : Host → Prop} {jobs : Job → Prop} {world after : World}
  {calls : List (TaskId × PauseId)} {trace : List Deed}

/-! ## Worlds in which turns keep their order -/

/-- What may be done to a world from outside. -/
inductive Outside (jobs : Job → Prop) : World → World → Prop where
  /-- A task is started. -/
  | spawn {world : World} (name : String) {job : Job} (allowed : jobs job) :
      Outside jobs world (world.spawn name job).1
  /-- The explorer changes. Keys are put aside by tasks only. -/
  | explore {world : World} {explorer : Explorer} (same : explorer.keys = world.explorer.keys) :
      Outside jobs world { world with explorer }
  /-- A gate is opened or closed. -/
  | setGate {world : World} (gate : String) (opened : Bool) :
      Outside jobs world (world.setGate gate opened)
  /-- A task is cancelled. -/
  | cancel {world : World} (t : TaskId) :
      Outside jobs world { world with scheduler := world.scheduler.cancel t }
  /-- Time passes. -/
  | setClock {world : World} (time : Binary64) : Outside jobs world (world.setClock time)

theorem Outside.move (acts : Outside jobs world after) : Move hosts jobs world [] after := by
  cases acts with
  | spawn name allowed => exact .spawn name allowed
  | explore same => exact .explore same
  | setGate gate opened => exact .setGate gate opened
  | cancel t => exact .cancel t
  | setClock time => exact .setClock time

/-- The worlds that can be reached while turns are taken in the order in which they were queued, with the
requests for the barrier that were made, in order, and with their traces. -/
inductive InTurn (hosts : Host → Prop) (jobs : Job → Prop) :
    World → List (TaskId × PauseId) → List Deed → Prop where
  /-- At first there are no tasks, and no key is put aside. -/
  | begin (explorer : Explorer) (none : ∀ hold, explorer.keys hold = none) (limit : Option Value)
      (clock : Binary64) (opened : String → Bool) :
      InTurn hosts jobs { explorer, scheduler := { limit, clock, opened } } [] []
  | step {host : Host} {world after : World} {calls : List (TaskId × PauseId)} {trace : List Deed}
      (reached : InTurn hosts jobs world calls trace) (allowed : hosts host)
      (steps : world.step host = some after) :
      InTurn hosts jobs after (calls ++ world.requests) (trace ++ world.deeds)
  | outside {world after : World} {calls : List (TaskId × PauseId)} {trace : List Deed}
      (reached : InTurn hosts jobs world calls trace) (acts : Outside jobs world after) :
      InTurn hosts jobs after calls trace

theorem InTurn.reached (inTurn : InTurn hosts jobs world calls trace) : Reached hosts jobs world trace := by
  induction inTurn with
  | begin explorer none limit clock opened => exact .begin explorer none limit clock opened
  | step _ allowed steps ih => exact ih.move (.step allowed steps)
  | outside _ acts ih => exact ih.outside acts.move

/-- What is done from outside lets nobody through, and asks for nothing. -/
theorem Outside.recedes (acts : Outside jobs world after) (sound : world.Sound trace) :
    Scheduler.Recedes world.scheduler after.scheduler := by
  cases acts with
  | spawn name allowed =>
    exact Scheduler.recedes_of_latch (Scheduler.fades_spawnBody (Scheduler.Sound.helper_of_size sound) _)
      rfl
  | explore same => exact Scheduler.recedes_of_latch (Scheduler.fades_self _) rfl
  | setGate gate opened =>
    exact Scheduler.recedes_of_latch (Scheduler.fades_setGate _ gate opened)
      (Scheduler.latch_setGate _ gate opened)
  | cancel t =>
    exact Scheduler.recedes_of_latch (Scheduler.fades_cancel _ t) (Scheduler.latch_cancel _ t)
  | setClock time =>
    exact Scheduler.recedes_of_latch (Scheduler.fades_of_same rfl rfl (Nat.le_refl _) rfl) rfl

/-- In all these worlds requests are granted in order. -/
theorem InTurn.served (inTurn : InTurn hosts jobs world calls trace) :
    world.scheduler.Served [] calls trace := by
  induction inTurn with
  | begin explorer none limit clock opened =>
    refine ⟨⟨nofun, nofun, fun _ _ => rfl, fun called => ?_, .nil⟩, List.Sublist.refl [], fun took => ?_⟩
    · exact absurd called List.not_mem_nil
    · exact absurd took List.not_mem_nil
  | step reached allowed steps ih => exact ih.shift reached.reached.sound (shift_step steps)
  | outside reached acts ih =>
    have kept := ih.recede (acts.recedes reached.reached.sound) Scheduler.Served.untaken_nil
    rwa [List.append_nil, List.append_nil] at kept

/-- **First come, first served.** Tasks may ask for the barrier, with or without a limit of time, give it
back, be cancelled and run into the limit in any order, under any hosts and with any jobs. Then keys are
granted in the order in which they were asked for, and only to those who asked. Once a request was
granted, nobody who asked earlier is still waiting without having given up. And when it is nobody's turn,
no turn is queued, and nobody holds the barrier, then nobody waits for it. -/
theorem first_come_first_served (inTurn : InTurn hosts jobs world calls trace) :
    (calls.Pairwise fun first second => first.2 < second.2) ∧ (takings trace).Sublist calls ∧
      (∀ earlier call later, calls = earlier ++ call :: later → call ∈ takings trace →
        ∀ t key, (t, key) ∈ earlier → ¬ world.scheduler.Pending t key) ∧
      (world.current = none → world.scheduler.turns = [] → world.scheduler.holder = none →
        ∀ t wait, world.scheduler.status? t = some (.waiting wait) → wait.aim.key? = none) := by
  have served := inTurn.served
  have sound := inTurn.reached.sound
  have alert := inTurn.reached.alert
  have ordered := served.enlisted.ordered
  refine ⟨ordered, served.inOrder, ?_, fun idle quiet free t wait waits => ?_⟩
  · rintro earlier ⟨taker, own⟩ later rfl taken t key before pending
    have granted : own ∈ grants trace := mem_grants.mpr ⟨taker, mem_takings.mp taken⟩
    have lower := served.granted_before sound alert pending granted
    have higher := (List.pairwise_append.mp ordered).2.2 _ before _ (List.mem_cons_self ..)
    exact Nat.lt_asymm lower higher
  · have nobody : world.hand = none := by simp only [hand, idle, Option.map_none]
    unfold World.Sound at sound
    rw [nobody] at sound alert
    exact alert.attended.nobody_waits alert.wakeful sound quiet free waits

/-! ## A request that is given up between two others -/

/-- Takes at most a number of steps under a host, and keeps account of the requests. -/
def stepsInTurn (host : Host) : Nat → World × List (TaskId × PauseId) × List Deed →
    World × List (TaskId × PauseId) × List Deed
  | 0, now => now
  | n + 1, (world, calls, trace) =>
      match world.step host with
      | some after => stepsInTurn host n (after, calls ++ world.requests, trace ++ world.deeds)
      | none => (world, calls, trace)

/-- Whether a world with its account can be reached while turns keep their order. -/
def AtTurn (hosts : Host → Prop) (jobs : Job → Prop)
    (now : World × List (TaskId × PauseId) × List Deed) : Prop :=
  InTurn hosts jobs now.1 now.2.1 now.2.2

theorem InTurn.steps (inTurn : InTurn hosts jobs world calls trace) {host : Host} (allowed : hosts host)
    (n : Nat) : AtTurn hosts jobs (stepsInTurn host n (world, calls, trace)) := by
  induction n generalizing world calls trace with
  | zero => exact inTurn
  | succ n ih =>
      unfold stepsInTurn
      split
      next after same => exact ih (inTurn.step allowed same)
      next => exact inTurn

/-- Three tasks have asked for the barrier within ten seconds; the first has got it. -/
def threeAsked : World × List (TaskId × PauseId) × List Deed :=
  let begin : World := { scheduler := { limit := some (.int 10) } }
  let first := (begin.spawn "first" (holdUntil "gate").run).1
  let second := (first.spawn "second" (holdUntil "gate").run).1
  stepsInTurn silence 40 ((second.spawn "third" (holdUntil "gate").run).1, [], [])

/-- The second task was cancelled. -/
def secondGone : World × List (TaskId × PauseId) × List Deed :=
  let cancelled := { threeAsked.1 with scheduler := threeAsked.1.scheduler.cancel 1 }
  stepsInTurn silence 40 (cancelled, threeAsked.2.1, threeAsked.2.2)

/-- The first task gave the barrier back. -/
def firstDone : World × List (TaskId × PauseId) × List Deed :=
  stepsInTurn silence 40 (secondGone.1.setGate "gate" true, secondGone.2.1, secondGone.2.2)

theorem atTurn_threeAsked : AtTurn (· = silence) Keeps threeAsked := by
  have begun : InTurn (· = silence) Keeps { scheduler := { limit := some (.int 10) } } [] [] :=
    .begin {} (fun _ => rfl) (some (.int 10)) .zero fun _ => false
  have first := begun.outside (.spawn "first" ⟨"gate", rfl⟩)
  have second := first.outside (.spawn "second" ⟨"gate", rfl⟩)
  have third := second.outside (.spawn "third" ⟨"gate", rfl⟩)
  exact third.steps rfl 40

theorem atTurn_secondGone : AtTurn (· = silence) Keeps secondGone :=
  (atTurn_threeAsked.outside (.cancel 1)).steps rfl 40

theorem atTurn_firstDone : AtTurn (· = silence) Keeps firstDone :=
  (atTurn_secondGone.outside (.setGate "gate" true)).steps rfl 40

/-- The third task was granted its key after the first, and nobody waits any more. -/
theorem third_served_after_first :
    InTurn (· = silence) Keeps firstDone.1 firstDone.2.1 firstDone.2.2 ∧
      firstDone.2.1 = [(0, 1), (1, 3), (2, 5)] ∧ takings firstDone.2.2 = [(0, 1), (2, 5)] ∧
      ¬ firstDone.1.scheduler.Pending 1 3 ∧
      ∀ t wait, firstDone.1.scheduler.status? t = some (.waiting wait) → wait.aim.key? = none := by
  have served := first_come_first_served atTurn_firstDone
  have calls : firstDone.2.1 = [(0, 1), (1, 3), (2, 5)] := by decide +kernel
  have taken : takings firstDone.2.2 = [(0, 1), (2, 5)] := by decide +kernel
  have last : (2, 5) ∈ takings firstDone.2.2 := by decide +kernel
  have idle : firstDone.1.current.isNone := by decide +kernel
  have quiet : firstDone.1.scheduler.turns = [] := by decide +kernel
  have free : firstDone.1.scheduler.holder = none := by decide +kernel
  have passed := served.2.2.1 [(0, 1), (1, 3)] (2, 5) [] calls last 1 3
    (List.mem_cons_of_mem _ (List.mem_singleton_self _))
  exact ⟨atTurn_firstDone, calls, taken, passed,
    served.2.2.2 (Option.isNone_iff_eq_none.mp idle) quiet free⟩

end World
end ActionFlow

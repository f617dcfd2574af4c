import ActionFlow.Proofs.Scheduler.Resting
import ActionFlow.Proofs.World.Hosts
import ActionFlow.Proofs.World.Reached

/-!
# Worlds whose tasks honour a pact

If the hosts and the jobs honour a pact, then so does every task at every time: what it has still to do
and what it rests with. Some tasks may be excepted, and a pact about a key goes on as long as nobody else
is granted that key and nobody puts it aside.

## Main results

* `Honours`: what all tasks have still to do honours a pact.
* `Honours.move`: every move keeps that.
-/

namespace ActionFlow

/-- Only `keep` puts a key aside. -/
theorem Explorer.keys_perform (explorer : Explorer) (who : Option TaskId) {op : Op}
    (other : ∀ hold key, op ≠ .keep hold key) : (explorer.perform who op).1.keys = explorer.keys := by
  cases op with
  | keep hold key => exact absurd rfl (other hold key)
  | setExpandable item truth =>
      simp only [perform, setExpandable]
      split <;> rfl
  | enter =>
      simp only [perform, enter]
      split <;> rfl
  | register table registration =>
      simp only [perform, register]
      split
      · rfl
      · cases table <;> rfl
  | change source change => cases change <;> rfl
  | resolve | gather | test | rootOf | partsOf | record | keyOf | leave => rfl

namespace World

/-- Everybody who is not excepted honours a pact, and no other keys are put aside than one may be told
by the pact. -/
structure Honours (world : World) (pact : Pact) (excepted : TaskId → Prop) : Prop where
  aside : ∀ {hold key}, world.explorer.keys hold = some key → pact.learns key
  current : ∀ {t job}, world.current = some (t, job) → ¬ excepted t → job.Honours pact
  /-- Who has asked for the barrier may be told a key in answer. -/
  resting : ∀ {t rest}, world.scheduler.rest? t = some rest → ¬ excepted t → ∀ answer,
    (∀ key, rest.2 = true → answer = .ok key → pact.learns key) → (rest.1 answer).Honours pact

/-- What a pact has to say for the tasks to be held to it while something is done: who is not excepted
may be told the keys that he is granted, and all may be told the keys that are put aside. -/
structure Fair (pact : Pact) (excepted : TaskId → Prop) (deeds : List Deed) : Prop where
  took : ∀ {t key}, .took t key ∈ deeds → ¬ excepted t → pact.learns key
  kept : ∀ {t hold key}, .did t (.op (.keep hold key)) ∈ deeds → pact.learns key

/-- What a task does is what it was about to do. -/
theorem Move.current_of_did {hosts : Host → Prop} {jobs : Job → Prop} {world after : World}
    {deeds : List Deed} {t : TaskId} {effect : Effect} (moves : Move hosts jobs world deeds after)
    (did : .did t effect ∈ deeds) :
    ∃ next, world.current = some (t, .act effect next) := by
  cases moves with
  | step =>
    unfold World.deeds at did
    split at did
    next t' pause next current =>
      rcases List.mem_cons.mp did with same | member
      · cases same
        exact ⟨next, current⟩
      · exact absurd member (Scheduler.did_notMem_deedsOfAwait _ _ _ _ _)
    next t' effect' next _ current =>
      cases List.mem_singleton.mp did
      exact ⟨next, current⟩
    next => cases did
    next =>
      split at did
      · exact absurd did (Scheduler.did_notMem_deedsOfTurn _ _ _ _)
      · cases did
  | spawn | explore | setGate | cancel | setClock | reorder => cases did

/-- At first nobody has anything to do. -/
theorem honours_begin {explorer : Explorer} {pact : Pact}
    (aside : ∀ {hold key}, explorer.keys hold = some key → pact.learns key) (limit : Option Value)
    (clock : Binary64) (opened : String → Bool) (excepted : TaskId → Prop) :
    Honours { explorer, scheduler := { limit, clock, opened } } pact excepted :=
  ⟨aside, nofun, fun rests => by simp [Scheduler.rest?] at rests⟩

namespace Honours

variable {world after : World} {pact : Pact} {excepted : TaskId → Prop} {deeds : List Deed}
  {t : TaskId}

/-- More tasks may be excepted. -/
theorem except (h : world.Honours pact excepted) {more : TaskId → Prop}
    (implies : ∀ t, excepted t → more t) : world.Honours pact more where
  aside := h.aside
  current now others := h.current now fun was => others (implies _ was)
  resting rests others := h.resting rests fun was => others (implies _ was)

/-- Nobody puts more aside, nobody comes to rest who does not honour the pact, and nobody goes on who
does not. -/
theorem frame (h : world.Honours pact excepted) (keys : after.explorer.keys = world.explorer.keys)
    (resting : ∀ t rest, after.scheduler.rest? t = some rest → ¬ excepted t →
      world.scheduler.rest? t = some rest ∨ ∀ answer,
        (∀ key, rest.2 = true → answer = .ok key → pact.learns key) → (rest.1 answer).Honours pact)
    (current : ∀ t job, after.current = some (t, job) → ¬ excepted t → job.Honours pact) :
    after.Honours pact excepted where
  aside put := h.aside (keys ▸ put)
  current := current _ _
  resting rests others := by
    rcases resting _ _ rests others with before | honours
    · exact h.resting before others
    · exact honours

/-- A task goes on behind an effect that lets nobody rest. -/
theorem goesOn (h : world.Honours pact excepted) (after : World) {effect : Effect}
    {next : effect.Reply → Job} (current : world.current = some (t, .act effect next))
    {reply : effect.Reply} (expected : ¬ excepted t → pact.Expects effect reply)
    (keys : after.explorer.keys = world.explorer.keys)
    (rested : Scheduler.Rested world.scheduler after.scheduler) :
    (after.continueWith t (next reply)).Honours pact excepted := by
  refine h.frame keys (fun t rest rests _ => .inl (rested t rest rests)) fun t' job same others => ?_
  cases same
  exact (h.current current others).2 reply (expected others)

/-- A task asks for a pause. -/
theorem await {host : Host} {pause : Pause} {next : Except Failure PauseId → Job}
    (h : world.Honours pact excepted) (current : world.current = some (t, .act (.await pause) next))
    (running : world.scheduler.status? t = some .running) (fair : Fair pact excepted world.deeds) :
    (world.perform host t (.await pause) next).Honours pact excepted := by
  have deeds : world.deeds = .did t (.await pause) ::
      Scheduler.deedsOfAwait t pause ((world.scheduler.setResume t next).await t pause).2 := by
    simp only [World.deeds, current]
  have rests : ∀ other rest,
      ((world.scheduler.setResume t next).await t pause).1.rest? other = some rest →
      ¬ excepted other → world.scheduler.rest? other = some rest ∨ ∀ answer,
        (∀ key, rest.2 = true → answer = .ok key → pact.learns key) →
          (rest.1 answer).Honours pact := by
    intro other rest rests others
    rcases Scheduler.rest?_of_await rests with before | ⟨rfl, resumes, asked⟩
    · exact .inl (Scheduler.rested_setResume running next _ _ before)
    · refine .inr fun answer learns => ?_
      rw [Scheduler.resume?_setResume _ _ _ resumes]
      refine (h.current current others).2 answer fun key taught => ?_
      cases pause with
      | barrier => exact learns key (asked rfl) taught
      | gate | sleep => cases taught
  rw [deeds] at fair
  simp only [World.perform]
  generalize (world.scheduler.setResume t next).await t pause = result at rests fair ⊢
  obtain ⟨scheduler, answer⟩ := result
  cases answer with
  | none => exact h.frame rfl rests fun _ _ current => by cases current
  | some answer =>
    refine h.frame ?_ ?_ fun other job same others => ?_
    · cases pause <;> cases answer <;> rfl
    · cases pause <;> cases answer <;> exact rests
    · cases same
      refine (h.current current others).2 answer fun key taught => ?_
      cases pause with
      | barrier =>
        have taught : answer = .ok key := taught
        exact fair.took (by simp [taught, Scheduler.deedsOfAwait]) others
      | gate | sleep => cases taught

/-- What a task puts aside may be told. -/
theorem keep {hold : String} {key : PauseId} {next : Unit → Job} {host : Host}
    (h : world.Honours pact excepted) (current : world.current = some (t, .act (.op (.keep hold key)) next))
    (fair : Fair pact excepted world.deeds) :
    (world.perform host t (.op (.keep hold key)) next).Honours pact excepted where
  aside {hold' key'} put := by
    have deeds : world.deeds = [.did t (.op (.keep hold key))] := by simp only [World.deeds, current]
    have learns : pact.learns key := fair.kept (deeds ▸ List.mem_singleton_self _)
    by_cases same : hold' = hold
    · have put : some key = some key' := by
        simpa [World.perform, Explorer.perform, continueWith, same] using put
      exact Option.some.inj put ▸ learns
    · have put : world.explorer.keys hold' = some key' := by
        simpa [World.perform, Explorer.perform, continueWith, amend_of_ne same] using put
      exact h.aside put
  current {t' job} same others := by
    cases same
    exact (h.current current others).2 () fun _ taught => by cases taught
  resting := h.resting

theorem perform {host : Host} (h : world.Honours pact excepted) (honours : host.Honours pact)
    {effect : Effect} {next : effect.Reply → Job} (current : world.current = some (t, .act effect next))
    (running : world.scheduler.status? t = some .running) (fair : Fair pact excepted world.deeds) :
    (world.perform host t effect next).Honours pact excepted := by
  cases effect with
  | op op =>
    by_cases keeps : ∃ hold key, op = .keep hold key
    · obtain ⟨hold, key, rfl⟩ := keeps
      exact h.keep current fair
    · have keys : (world.explorer.perform (some t) op).1.keys = world.explorer.keys :=
        world.explorer.keys_perform (some t) fun hold key same => keeps ⟨hold, key, same⟩
      refine h.goesOn { world with explorer := (world.explorer.perform (some t) op).1 } current ?_ keys
        (Scheduler.rested_self _)
      intro _ key taught
      cases op with
      | keyOf hold => exact h.aside taught
      | _ => cases taught
  | call call =>
    refine h.frame rfl (fun t rest rests _ => .inl rests) fun t' job same others => ?_
    cases same
    exact Program.Honours.bind (honours call) fun reply => (h.current current others).2 reply nofun
  | setGate gate opened =>
    exact h.goesOn (world.setGate gate opened) current nofun rfl
      (Scheduler.unmoved_setGate _ gate opened).rested
  | cancel name =>
    refine h.goesOn (world.cancel name) current nofun ?_ ?_
    · unfold World.cancel
      split <;> rfl
    · unfold World.cancel
      split
      · exact (Scheduler.unmoved_cancel _ _).rested
      · exact Scheduler.rested_self _
  | release key =>
    refine h.goesOn (world.release (some t) key).1 current nofun ?_ ?_
    · unfold World.release
      split <;> rfl
    · rw [scheduler_release]
      exact (Scheduler.unmoved_release _ _).rested
  | await pause => exact h.await current running fair

/-- A turn is taken. -/
theorem takeTurn (h : world.Honours pact excepted) (idle : world.current = none) (turn : Turn)
    (fair : Fair pact excepted (world.scheduler.deedsOfTurn turn)) :
    (world.takeTurn turn).Honours pact excepted := by
  have rested := Scheduler.rested_takeTurn world.scheduler turn
  have goes : ∀ t handover, (world.scheduler.takeTurn turn).2 = some (t, handover) → ¬ excepted t →
      handover.job.Honours pact := by
    intro t handover taken others
    obtain ⟨rfl, aimed, rests, granted⟩ := Scheduler.rest?_of_takeTurn taken
    refine h.resting rests others handover.answer fun key asked answer => ?_
    exact fair.took (Scheduler.took_mem_deedsOfTurn taken (granted key asked answer)) others
  unfold World.takeTurn
  generalize world.scheduler.takeTurn turn = result at rested goes ⊢
  obtain ⟨scheduler, taken⟩ := result
  cases taken with
  | none =>
    refine h.frame rfl (fun t rest rests _ => .inl (rested t rest rests)) fun t job same => ?_
    cases idle.symm.trans same
  | some taken =>
    obtain ⟨t, handover⟩ := taken
    refine h.frame ?_ ?_ fun t' job same => ?_
    · simp only
      cases handover.granted <;> rfl
    · simp only
      cases handover.granted <;> exact fun t rest rests _ => .inl (rested t rest rests)
    · cases same
      exact goes t handover rfl

/-- A step under a host that honours the pact. -/
theorem step {host : Host} {trace : List Deed} (h : world.Honours pact excepted)
    (sound : world.Sound trace) (honours : host.Honours pact)
    (fair : Fair pact excepted world.deeds) (steps : world.step host = some after) :
    after.Honours pact excepted := by
  unfold World.step at steps
  split at steps
  next t effect next current =>
    cases steps
    exact h.perform honours current (sound.running current) fair
  next t ending current =>
    cases steps
    exact h.frame rfl (fun t' rest rests _ => .inl (Scheduler.rested_finish _ t ending t' rest rests))
      fun _ _ current => by cases current
  next idle =>
    obtain ⟨⟨turn, scheduler⟩, next, rfl⟩ := Option.map_eq_some_iff.mp steps
    have deeds : world.deeds = scheduler.deedsOfTurn turn := by simp only [World.deeds, idle, next]
    have dealt : { world with scheduler }.Honours pact excepted :=
      { h with resting := fun rests => h.resting ((Scheduler.unmoved_nextTurn next).rested _ _ rests) }
    exact dealt.takeTurn idle turn (deeds ▸ fair)

variable {hosts : Host → Prop} {jobs : Job → Prop}

/-- **Pacts are kept.** Every move keeps all tasks to the pact that the hosts and the jobs honour. -/
theorem move {trace : List Deed} (h : world.Honours pact excepted) (sound : world.Sound trace)
    (hosts_honour : ∀ host, hosts host → host.Honours pact)
    (jobs_honour : ∀ job, jobs job → job.Honours pact) (fair : Fair pact excepted deeds)
    (moves : Move hosts jobs world deeds after) : after.Honours pact excepted := by
  cases moves with
  | step allowed steps => exact h.step sound (hosts_honour _ allowed) fair steps
  | spawn name allowed =>
    refine h.frame rfl (fun t rest rests _ => ?_) fun t job current => h.current current
    rcases Scheduler.rest?_spawn rests with rfl | before
    · refine .inr fun answer _ => ?_
      cases answer with
      | ok => exact jobs_honour _ allowed
      | error => trivial
    · exact .inl before
  | explore same => exact { h with aside := fun put => h.aside (same ▸ put) }
  | setGate gate opened =>
    exact { h with resting := fun rests => h.resting ((Scheduler.unmoved_setGate _ gate opened).rested _ _ rests) }
  | cancel t => exact { h with resting := fun rests => h.resting ((Scheduler.unmoved_cancel _ t).rested _ _ rests) }
  | setClock time => exact { h with }
  | reorder same => exact { h with }

/-- Who is not excepted does nothing but what the pact allows. -/
theorem allows {effect : Effect} (h : world.Honours pact excepted)
    (moves : Move hosts jobs world deeds after) (did : .did t effect ∈ deeds) (others : ¬ excepted t) :
    pact.allows effect := by
  obtain ⟨next, current⟩ := moves.current_of_did did
  exact (h.current current others).1

end Honours
end World
end ActionFlow

import ActionFlow.Proofs.Scheduler.Stakes

/-!
# The procession to the barrier

Requests for the barrier go through it one after another. Those that were granted come first; then the
one that the barrier is kept for, if its helper has got it and its caller has not come to its turn; then
those in line, from the first on; and then those whose helpers are still on their way to the line, in the
order of their turns. Who was called off is left out.

Whatever the scheduler does takes requests out of this procession or moves its ends; only a new request
joins it, and it joins it at the end.

## Main results

* `Advances.procession`: what keeping the order means for the procession.
* `advances_await`, `advances_takeTurn`: asking for a pause, and taking the next turn, keep the order.
-/

namespace ActionFlow

variable {κ : Type}

/-- The key that was granted, if one was. -/
def Deed.granted? : Deed → Option PauseId
  | .took _ key => some key
  | .did .. | .quit .. => none

/-- The keys that were granted, in order. -/
def grants (trace : List Deed) : List PauseId := trace.filterMap Deed.granted?

theorem mem_grants {trace : List Deed} {key : PauseId} :
    key ∈ grants trace ↔ ∃ t, .took t key ∈ trace := by
  unfold grants
  rw [List.mem_filterMap]
  constructor
  · rintro ⟨deed, done, granted⟩
    cases deed with
    | took t own =>
      cases granted
      exact ⟨t, done⟩
    | did | quit => cases granted
  · rintro ⟨t, took⟩
    exact ⟨_, took, rfl⟩

theorem grants_append (trace deeds : List Deed) :
    grants (trace ++ deeds) = grants trace ++ grants deeds := List.filterMap_append

theorem grants_map_took (t : TaskId) (keys : List PauseId) : grants (keys.map (.took t)) = keys := by
  rw [grants, List.filterMap_map]
  exact List.filterMap_some

namespace Scheduler

variable {s s' : Scheduler κ} {t : TaskId}

/-! ## The order of those who come -/

theorem filterMap_sublist {α β : Type} {f g : α → Option β} (list : List α)
    (fewer : ∀ a ∈ list, ∀ b, g a = some b → f a = some b) :
    (list.filterMap g).Sublist (list.filterMap f) := by
  induction list with
  | nil => exact .slnil
  | cons first rest ih =>
      have ih := ih fun a member => fewer a (List.mem_cons_of_mem _ member)
      cases last : g first with
      | none =>
          rw [List.filterMap_cons_none last]
          exact ih.trans ((List.sublist_cons_self ..).filterMap f)
      | some b =>
          rw [List.filterMap_cons_some last,
            List.filterMap_cons_some (fewer first (List.mem_cons_self ..) b last)]
          exact ih.cons_cons b

/-- The keys that may still come to the barrier, in order: those in line, and those on the way there.
`dealt` are turns that are taken before those that are queued. -/
def racers (s : Scheduler κ) (dealt : List Turn) : List PauseId :=
  s.line.filterMap s.standing? ++ (dealt ++ s.turns).filterMap s.coming?

theorem Fades.racers (h : Fades s s') {dealt dealt' : List Turn} (line : s'.line.Sublist s.line)
    (fewer : dealt'.Sublist dealt) : (s'.racers dealt').Sublist (s.racers dealt) := by
  obtain ⟨more, turns, stay⟩ := h.turns
  have idle : more.filterMap s'.coming? = [] := List.filterMap_eq_nil_iff.mpr stay
  have comes : (dealt' ++ s'.turns).filterMap s'.coming? = (dealt' ++ s.turns).filterMap s'.coming? := by
    rw [turns, ← List.append_assoc, List.filterMap_append, idle, List.append_nil]
  unfold Scheduler.racers
  rw [comes]
  refine List.Sublist.append ?_ ?_
  · exact (line.filterMap _).trans (filterMap_sublist _ fun _ _ _ => h.standing)
  · exact ((fewer.append_right _).filterMap _).trans (filterMap_sublist _ fun _ _ _ => h.coming)

theorem racers_of_same {dealt dealt' : List Turn} (task : s'.task = s.task) (line : s'.line = s.line)
    (turns : ∃ reminders, dealt' ++ s'.turns = dealt ++ s.turns ++ reminders ∧
      ∀ turn ∈ reminders, s.coming? turn = none) : s'.racers dealt' = s.racers dealt := by
  have stake : s'.stake? = s.stake? := by
    funext t
    simp only [stake?, task]
  have standing : s'.standing? = s.standing? := by
    funext t
    simp only [standing?, stake]
  have coming : s'.coming? = s.coming? := by
    funext turn
    cases turn <;> simp only [coming?, stake]
  obtain ⟨reminders, same, idle⟩ := turns
  have idle : reminders.filterMap s.coming? = [] := List.filterMap_eq_nil_iff.mpr idle
  have comes : (dealt ++ s.turns ++ reminders).filterMap s.coming? =
      (dealt ++ s.turns).filterMap s.coming? := by
    rw [List.filterMap_append, idle, List.append_nil]
  rw [racers, racers, line, standing, coming, same, comes]

/-- Dealing the next turn changes nothing about the order. -/
theorem racers_nextTurn {turn : Turn} (next : s.nextTurn? = some (turn, s')) :
    s'.racers [turn] = s.racers [] := by
  unfold nextTurn? at next
  split at next
  next first rest round =>
    cases next
    exact racers_of_same rfl rfl ⟨[], by simp [turns, round], nofun⟩
  next round =>
    simp only at next
    split at next
    next => cases next
    next first rest queued =>
      cases next
      refine racers_of_same rfl rfl ⟨(s.timers.filter (isDue s.clock)).map fun timer =>
        Turn.signal timer.task timer.wait, by simp [turns, round, queued], fun turn member => ?_⟩
      obtain ⟨timer, -, rfl⟩ := List.mem_map.mp member
      rfl

/-- While the barrier can be had at once, nobody in line is still to come to it. -/
theorem standing_of_isFree (free : s.isFree) : s.line.filterMap s.standing? = [] := by
  unfold isFree at free
  rw [Bool.and_eq_true, List.all_eq_true] at free
  refine List.filterMap_eq_nil_iff.mpr fun t member => ?_
  have calledOff := free.2 t member
  unfold standing? stake?
  cases ht : s.task t with
  | none => rfl
  | some task =>
    rw [ht] at calledOff
    obtain ⟨role, status, asked⟩ := task
    cases status with
    | waiting wait =>
      have cancelled : wait.signal = .cancelled := by simpa using calledOff
      simp only [Option.bind_some, Task.stake?, Wait.stake?, cancelled, ↓reduceIte]
      split <;> rfl
    | queued | running | finished => simp at calledOff

/-- A task that joins the line comes behind those who are there and before those on the way. -/
theorem racers_join {task : Task κ} (ht : s.task t = some task) (outside : t ∉ s.line)
    (key : PauseId) : (({ s with line := s.line ++ [t] }.suspend t (.line key)).racers []).Sublist
      (s.line.filterMap s.standing? ++ key :: s.turns.filterMap s.coming?) := by
  let waiting := { s with line := s.line ++ [t], waits := s.waits + 1 }.setTask t
    (task.inLine s.waits key)
  have rests := fades_join ht (s.line ++ [t]) key
  have stake : ∀ other, waiting.stake? other =
      if other = t then some (.standing key) else s.stake? other := fun other =>
    stake?_join s t other task (s.line ++ [t]) s.waits key
  have line : ({ s with line := s.line ++ [t] }.suspend t (.line key)).line = waiting.line :=
    congrArg Latch.line (latch_suspend _ t _)
  refine (rests.racers (line ▸ List.Sublist.refl _) (List.Sublist.refl [])).trans ?_
  have mine : waiting.standing? t = some key := by
    simp only [standing?, stake, ↓reduceIte]
    rfl
  have before : (s.line.filterMap waiting.standing?).Sublist (s.line.filterMap s.standing?) :=
    filterMap_sublist _ fun other member own stands => by
      have different : other ≠ t := fun same => outside (same ▸ member)
      simpa only [standing?, stake, if_neg different] using stands
  have behind : (s.turns.filterMap waiting.coming?).Sublist (s.turns.filterMap s.coming?) := by
    refine filterMap_sublist _ fun turn _ own comes => ?_
    cases turn with
    | signal => cases comes
    | resume other =>
      simp only [coming?, stake] at comes ⊢
      split at comes
      · cases comes
      · exact comes
  have racing : waiting.racers [] =
      s.line.filterMap waiting.standing? ++ key :: s.turns.filterMap waiting.coming? := by
    unfold racers
    rw [show waiting.line = s.line ++ [t] from rfl, List.filterMap_append,
      List.filterMap_cons_some mine, List.append_assoc]
    rfl
  rw [racing]
  exact before.append (behind.cons_cons key)

/-! ## What lets nobody through -/

/-- Nobody joins the line, and the barrier is freed at most. -/
structure Recedes (s s' : Scheduler κ) : Prop where
  fades : Fades s s'
  line : s'.line.Sublist s.line
  holder : s'.holder = s.holder ∨ s'.holder = none

theorem Recedes.trans {s'' : Scheduler κ} (first : Recedes s s') (second : Recedes s' s'') :
    Recedes s s'' where
  fades := first.fades.trans second.fades
  line := second.line.trans first.line
  holder := by
    rcases second.holder with same | free
    · rw [same]
      exact first.holder
    · exact .inr free

theorem recedes_of_latch (h : Fades s s') (latch : s'.latch = s.latch) : Recedes s s' where
  fades := h
  line := (show s'.line = s.line from congrArg Latch.line latch) ▸ List.Sublist.refl _
  holder := .inl (congrArg Latch.holder latch)

theorem recedes_goOn (s : Scheduler κ) (t : TaskId) (role : Role κ) (answer : Except Failure PauseId) :
    Recedes s (s.goOn t role answer).1 :=
  recedes_of_latch (fades_goOn s t role answer) (latch_goOn s t role answer)

theorem recedes_unlock {freed : Scheduler κ} (h : s.unlock = .ok freed) : Recedes s freed := by
  have fades := fades_unlock h
  unfold unlock at h
  split at h
  · cases h
    have latch := latch_wakeFirst { s with holder := none }
    have line : { s with holder := none }.wakeFirst.line = s.line := congrArg Latch.line latch
    exact ⟨fades, by simp only [line, List.Sublist.refl], .inr (congrArg Latch.holder latch)⟩
  · cases h

theorem recedes_abandon (s : Scheduler κ) (t : TaskId) (key : PauseId) (helper : TaskId)
    (why : Failure) : Recedes s (s.abandon t key helper why) :=
  recedes_of_latch (fades_abandon s t key helper why) (latch_abandon s t key helper why)

/-! ## Who was let through -/

/-- The keys that the barrier was held for up to now, in order: those that were granted, and the one that
it is kept for until it is granted. -/
def entered (holder : Option PauseId) (granted : List PauseId) : List PauseId :=
  granted ++ holder.toList.filter fun key => decide (key ∉ granted)

section Entered

variable {granted : List PauseId} {key : PauseId}

theorem granted_sublist_entered (holder : Option PauseId) (granted : List PauseId) :
    granted.Sublist (entered holder granted) := List.sublist_append_left ..

theorem entered_none : entered none granted = granted := List.append_nil _

theorem entered_of_mem (member : key ∈ granted) : entered (some key) granted = granted := by
  simp [entered, member]

theorem entered_of_not_mem (new : key ∉ granted) : entered (some key) granted = granted ++ [key] := by
  simp [entered, new]

/-- Whether or not the key that the barrier is held with has been granted, it is the last. -/
theorem entered_fresh {fresh : List PauseId} (only : fresh = [] ∨ fresh = [key]) :
    (entered (some key) (granted ++ fresh)).Sublist (granted ++ [key]) := by
  rcases only with rfl | rfl
  · rw [List.append_nil]
    by_cases member : key ∈ granted
    · rw [entered_of_mem member]
      exact List.sublist_append_left ..
    · simp only [entered_of_not_mem member, List.Sublist.refl]
  · simp only [entered_of_mem (show key ∈ granted ++ [key] by simp), List.Sublist.refl]

end Entered

/-- Who is let through is the first of those who may come to the barrier, and requests are new ones that
join them at the end. -/
def Advances (s : Scheduler κ) (granted : List PauseId) (dealt : List Turn) (requests : List PauseId)
    (s' : Scheduler κ) (fresh : List PauseId) : Prop :=
  ∃ entering, (entered s'.holder (granted ++ fresh)).Sublist (entered s.holder granted ++ entering) ∧
    (entering ++ s'.racers []).Sublist (s.racers dealt ++ requests)

section Advances

variable {granted fresh requests : List PauseId} {dealt : List Turn} {key : PauseId}

/-- **The procession.** Those let through and those who may still come, taken together, only become fewer,
apart from new requests at the end. -/
theorem Advances.procession (h : Advances s granted dealt requests s' fresh) :
    (entered s'.holder (granted ++ fresh) ++ s'.racers []).Sublist
      (entered s.holder granted ++ s.racers dealt ++ requests) := by
  obtain ⟨entering, through, coming⟩ := h
  have first := through.append_right (s'.racers [])
  have second := coming.append_left (entered s.holder granted)
  rw [List.append_assoc] at first
  rw [List.append_assoc]
  exact first.trans second

/-- Nobody is let through, and those who may come are the same, or fewer. -/
theorem advances_of_racers (holder : s'.holder = s.holder ∨ s'.holder = none)
    (racers : (s'.racers []).Sublist (s.racers dealt ++ requests)) :
    Advances s granted dealt requests s' [] := by
  refine ⟨[], ?_, racers⟩
  rw [List.append_nil, List.append_nil]
  rcases holder with same | free
  · simp only [same, List.Sublist.refl]
  · rw [free, entered_none]
    exact granted_sublist_entered ..

theorem Recedes.advances (h : Recedes s s') : Advances s granted dealt [] s' [] := by
  refine advances_of_racers h.holder ?_
  rw [List.append_nil]
  exact h.fades.racers h.line (List.nil_sublist dealt)

/-- The first of those who may come takes the free barrier. -/
theorem advances_take (free : s.holder = none)
    (first : (key :: s'.racers []).Sublist (s.racers dealt ++ requests)) (held : s'.holder = some key)
    (only : fresh = [] ∨ fresh = [key]) : Advances s granted dealt requests s' fresh := by
  refine ⟨[key], ?_, first⟩
  rw [free, entered_none, held]
  exact entered_fresh only

/-- What is kept for a request is granted. -/
theorem advances_kept (h : Fades s s') (line : s'.line = s.line) (kept : s.holder = some key)
    (held : s'.holder = some key) (new : key ∉ granted) : Advances s granted dealt [] s' [key] := by
  refine ⟨[], ?_, ?_⟩
  · simp only [held, kept, entered_of_not_mem new, entered_of_mem (show key ∈ granted ++ [key] by simp),
      List.append_nil, List.Sublist.refl]
  · rw [List.append_nil]
    exact h.racers (line ▸ List.Sublist.refl _) (List.nil_sublist dealt)

end Advances

/-! ## Every turn -/

/-- Whether what a turn comes to keeps the order. -/
def Proceeds (s : Scheduler κ) (granted : List PauseId) (dealt : List Turn)
    (result : Scheduler κ × Option (Handover κ)) : Prop :=
  Advances s granted dealt [] result.1 (grantedIn result.2)

section Turns

variable {granted : List PauseId} {dealt : List Turn} {key : PauseId} {task : Task κ} {trace : List Deed}

theorem Recedes.proceeds (h : Recedes s s') : Proceeds s granted dealt (s', none) := h.advances

/-- A task goes on without the barrier. -/
theorem Recedes.goOn (h : Recedes s s') (t : TaskId) (role : Role κ) (answer : Except Failure PauseId) :
    Proceeds s granted dealt (s'.goOn t role answer) := by
  have none : grantedIn (s'.goOn t role answer).2 = [] := by cases role <;> rfl
  unfold Proceeds
  rw [none]
  exact (h.trans (recedes_goOn s' t role answer)).advances

theorem grantedIn_goOnWith (s : Scheduler κ) (t : TaskId) (role : Role κ) (key : PauseId) :
    grantedIn (s.goOnWith t role key).2 = [] ∨ grantedIn (s.goOnWith t role key).2 = [key] := by
  cases role with
  | body => exact .inr rfl
  | helper => exact .inl rfl

theorem around_goOnWith (s : Scheduler κ) (t : TaskId) (role : Role κ) (key : PauseId) :
    (s.goOnWith t role key).1.line = s.line ∧ (s.goOnWith t role key).1.holder = s.holder := by
  cases role with
  | body => exact ⟨rfl, rfl⟩
  | helper =>
    have latch := latch_finish s t (.ok ())
    exact ⟨congrArg Latch.line latch, congrArg Latch.holder latch⟩

/-- The first in line takes the free barrier. -/
theorem racers_first {rest : List TaskId} (line : s.line = t :: rest) (stands : s.standing? t = some key)
    (h : Fades s s') (left : s'.line = rest) : (key :: s'.racers []).Sublist (s.racers dealt) := by
  have fewer : Fades { s with line := rest } s' := h.of_same rfl rfl rfl rfl
  have behind := fewer.racers (left ▸ List.Sublist.refl _) (List.nil_sublist dealt)
  have whole : s.racers dealt = key :: { s with line := rest }.racers dealt := by
    unfold racers
    rw [line, List.filterMap_cons_some stands]
    rfl
  rw [whole]
  exact behind.cons_cons key

/-- What comes to the first in line in its turn. -/
theorem proceeds_first {rest : List TaskId} (free : s.holder = none) (line : s.line = t :: rest)
    (stands : s.standing? t = some key) (h : Fades s s') (left : s'.line = rest) (role : Role κ) :
    Proceeds s granted dealt ((s'.take key).goOnWith t role key) := by
  obtain ⟨stays, held⟩ := around_goOnWith (s'.take key) t role key
  have taking : Fades s ((s'.take key).goOnWith t role key).1 :=
    h.trans ((fades_goOnWith (s'.take key) t role key).of_same rfl rfl rfl rfl)
  refine advances_take free ?_ held (grantedIn_goOnWith (s'.take key) t role key)
  rw [List.append_nil]
  exact racers_first line stands taking (stays.trans left)

/-- What was kept for a task comes to it in its turn. -/
theorem proceeds_kept (h : Fades s s') (line : s'.line = s.line) (kept : s.holder = some key)
    (held : s'.holder = some key) (new : key ∉ granted) (t : TaskId)
    (resume : Except Failure PauseId → κ) :
    Proceeds s granted dealt (s'.goOnWith t (.body resume) key) :=
  advances_kept (h.trans (fades_goOnWith s' t (.body resume) key)) line kept held new

theorem racers_coming {turn : Turn} (comes : s.coming? turn = some key) :
    s.racers [turn] = s.line.filterMap s.standing? ++ key :: s.turns.filterMap s.coming? := by
  unfold racers
  rw [List.singleton_append, List.filterMap_cons_some comes]

/-- The first turn of a task keeps the order. -/
theorem proceeds_resumeQueued (ht : s.task t = some task) (queued : task.status = .queued)
    (outside : t ∉ s.line) (thrown : Bool) :
    Proceeds s granted [.resume t] ((s.start t task).resumeQueued t task.role thrown) := by
  have start := fades_start ht
  have standing : ((s.start t task).line.filterMap (s.start t task).standing?).Sublist
      (s.line.filterMap s.standing?) := filterMap_sublist _ fun _ _ _ => start.standing
  have coming : ((s.start t task).turns.filterMap (s.start t task).coming?).Sublist
      (s.turns.filterMap s.coming?) := filterMap_sublist _ fun _ _ _ => start.coming
  unfold resumeQueued
  split
  next => exact (recedes_of_latch start rfl).goOn t _ _
  next =>
    cases role : task.role with
    | body resume =>
      exact (recedes_of_latch (start.trans (fades_tick _)) rfl).advances
    | helper key caller =>
      have comes : s.coming? (.resume t) = some key := by
        simp only [coming?, stake?_of_task ht, Task.stake?, queued, role, Role.helper?, Option.map_some,
          Option.bind_some, Stake.coming?]
      simp only
      split
      next free =>
        have taking : Fades (s.start t task) (((s.start t task).take key).finish t (.ok ())) :=
          (fades_finish _ _ _).of_same rfl rfl rfl rfl
        have latch := latch_finish ((s.start t task).take key) t (.ok ())
        have held : (((s.start t task).take key).finish t (.ok ())).holder = some key :=
          congrArg Latch.holder latch
        have line : (((s.start t task).take key).finish t (.ok ())).line = s.line :=
          congrArg Latch.line latch
        have unheld : s.holder = none :=
          Option.isNone_iff_eq_none.mp (Bool.and_eq_true _ _ ▸ free).1
        have behind := taking.racers (line ▸ List.Sublist.refl _) (List.Sublist.refl [])
        have alone : (s.start t task).racers [] = (s.start t task).turns.filterMap (s.start t task).coming? := by
          unfold racers
          rw [standing_of_isFree free]
          rfl
        refine advances_take unheld ?_ held (.inl rfl)
        rw [racers_coming comes, List.append_nil]
        rw [alone] at behind
        exact ((behind.trans coming).cons_cons key).trans (List.sublist_append_right ..)
      next =>
        have joined := racers_join (task_start s t task) outside key
        refine advances_of_racers (.inl (congrArg Latch.holder (latch_suspend _ t _))) ?_
        rw [racers_coming comes, List.append_nil]
        exact joined.trans (standing.append (coming.cons_cons key))

/-- The turn of a task after a wait keeps the order. -/
theorem proceeds_resumeWaiting (h : s.Sound none trace) (ht : s.task t = some task) {wait : Wait}
    (waiting : task.status = .waiting wait) (settled : wait.signal ≠ .pending) :
    Proceeds s (grants trace) dealt ((s.start t task).resumeWaiting t task.role wait
      (task.cancelAsked || decide (wait.signal = .cancelled))) := by
  have status : s.status? t = some (.waiting wait) :=
    (status_of_task ht).trans (congrArg some waiting)
  have asks : task.role.helper? = none → wait.aim.key? ≠ none → s.Asks none t wait.aim :=
    fun body aims => ⟨(helper_of_task ht).trans body, aims, .inl ⟨wait, status, rfl⟩⟩
  -- What a wait leaves behind at gates and with timers is no concern of the barrier.
  have tidied : ∀ timers atGates line, line.Sublist s.line →
      Recedes s { s.start t task with timers, atGates, line } := fun _ _ _ fewer =>
    ⟨(fades_start ht).trans (fades_of_same rfl rfl (Nat.le_refl s.waits) rfl), fewer, .inl rfl⟩
  have same := List.Sublist.refl s.line
  unfold resumeWaiting
  simp only
  split
  next => exact (tidied _ _ _ same).goOn t _ _
  next => exact (tidied _ _ _ same).goOn t _ _
  next key aims =>
    split
    next =>
      refine Recedes.goOn ?_ t _ _
      have left := tidied (s.timers.filter fun timer => timer.wait ≠ wait.id) s.atGates (s.line.erase t)
        List.erase_sublist
      split
      next => exact left.trans (recedes_of_latch (fades_wakeFirst _) (latch_wakeFirst _))
      next => exact left
    next calm =>
      have met : wait.signal = .met := by
        cases signal : wait.signal with
        | pending => exact absurd signal settled
        | met => rfl
        | cancelled => simp [signal] at calm
      obtain ⟨free, first⟩ := h.orderly.woken status aims met
      obtain ⟨rest, line⟩ := List.head?_eq_some_iff.mp first
      have stands : s.standing? t = some key := by
        simp only [standing?, stake?_of_task ht, Task.stake?, waiting, Wait.stake?, aims, met, reduceCtorEq,
          ↓reduceIte, Option.bind_some, Stake.standing?]
      have left := tidied (s.timers.filter fun timer => timer.wait ≠ wait.id) s.atGates (s.line.erase t)
        List.erase_sublist
      exact proceeds_first free line stands left.fades (by simp [line]) task.role
  next key helper limit aims =>
    split
    next => exact ((tidied _ _ _ same).trans (recedes_abandon _ _ _ _ _)).proceeds
    next =>
      split
      next ended =>
        have got : s.Got helper := by
          have status := ending?_eq_some_iff.mp ended
          have status : (s.start t task).status? helper = _ := status
          rw [start, status?_setTask] at status
          split at status
          · cases status
          · exact status
        cases role : task.role with
        | helper own caller =>
          have aimed := h.orderly.helperWaits ((helper_of_task ht).trans (by rw [role]; rfl)) status
          cases aimed.symm.trans aims
        | body resume =>
          have asks := asks (by rw [role]; rfl) (by rw [aims]; exact Option.some_ne_none _)
          have kept := h.keyed.kept asks (by rw [aims]; rfl) (by rw [aims]; rfl) got
          refine proceeds_kept (tidied _ _ _ same).fades rfl kept kept (fun granted => ?_) t resume
          obtain ⟨taker, took⟩ := mem_grants.mp granted
          exact h.accounted.tookDone took asks (by rw [aims]; rfl)
      next => exact (tidied _ _ _ same).goOn t _ _
      next => exact ((tidied _ _ _ same).trans (recedes_abandon _ _ _ _ _)).proceeds
  next key helper why aims =>
    split
    next => exact (tidied _ _ _ same).goOn t _ _
    next =>
      split
      next =>
        split
        next freed freeing => exact ((tidied _ _ _ same).trans (recedes_unlock freeing)).goOn t _ _
        next => exact (tidied _ _ _ same).goOn t _ _
      next => exact (tidied _ _ _ same).goOn t _ _

/-- The trace tells which key was granted in a turn. -/
theorem grants_deedsOfTurn (s : Scheduler κ) (turn : Turn) :
    grants (s.deedsOfTurn turn) = grantedIn ((s.takeTurn turn).2.map (·.2)) := by
  rcases deedsOfTurn_cases s turn with ⟨t, key, granted, only⟩ | ⟨granted, quits⟩
  · rw [granted, only]
    rfl
  · rw [granted]
    refine List.filterMap_eq_nil_iff.mpr fun deed told => ?_
    obtain ⟨t, key, helper, failure, cut, rfl⟩ := quits deed told
    rfl

/-- **Every turn keeps the order.** -/
theorem advances_takeTurn (h : s.Sound none trace) {turn : Turn} (due : s.Due turn) :
    Advances s (grants trace) [turn] [] (s.takeTurn turn).1 (grants (s.deedsOfTurn turn)) := by
  rw [grants_deedsOfTurn]
  cases turn with
  | signal t id =>
    have settles : Recedes s (s.settle t .met) :=
      recedes_of_latch (fades_settle s t .met) (latch_settle s t .met)
    have stays : Recedes s s := recedes_of_latch (fades_self s) rfl
    unfold takeTurn
    simp only
    split
    · split
      · exact settles.advances
      · exact stays.advances
    · exact stays.advances
  | resume t =>
    cases ht : s.task t with
    | none =>
      have same : s.takeTurn (.resume t) = (s, none) := by simp only [takeTurn, ht]
      rw [same]
      exact (recedes_of_latch (fades_self s) rfl).advances
    | some task =>
      have went : ∀ result : Scheduler κ × Option (Handover κ),
          s.takeTurn (.resume t) = (result.1, result.2.map fun handover => (t, handover)) →
          Proceeds s (grants trace) [.resume t] result →
          Advances s (grants trace) [.resume t] [] (s.takeTurn (.resume t)).1
            (grantedIn ((s.takeTurn (.resume t)).2.map (·.2))) := by
        rintro ⟨after, handover⟩ same proceeds
        rw [same]
        cases handover <;> exact proceeds
      obtain ⟨-, ready⟩ := id due
      have known := status_of_task ht
      cases status : task.status with
      | queued =>
        have outside : t ∉ s.line := h.orderly.notMem_line known (by simp [status])
        exact went _ (by simp only [takeTurn, ht, status])
          (proceeds_resumeQueued ht status outside task.cancelAsked)
      | waiting wait =>
        have settled : wait.signal ≠ .pending := by
          rcases ready with queued | ⟨other, waits, settled⟩
          · rw [known, status] at queued
            cases queued
          · rw [known, status] at waits
            cases waits
            exact settled
        exact went _ (by simp only [takeTurn, ht, status]) (proceeds_resumeWaiting h ht status settled)
      | running | finished =>
        unfold Ready at ready
        rw [known, status] at ready
        simp at ready

/-! ## Asking for the barrier -/

/-- Where there are no helpers, nobody is on the way to the line. -/
theorem coming_of_unhelped (unhelped : ∀ helper, s.helper? helper = none) :
    s.turns.filterMap s.coming? = [] := by
  refine List.filterMap_eq_nil_iff.mpr fun turn _ => ?_
  cases turn with
  | signal => rfl
  | resume t =>
    unfold coming?
    cases ht : s.task t with
    | none => simp only [stake?, ht, Option.bind_none]
    | some task =>
      have body : task.role.helper? = none := (helper_of_task ht).symm.trans (unhelped t)
      have standing : ∀ wait : Wait, wait.stake?.bind Stake.coming? = none := fun wait => by
        unfold Wait.stake?
        split
        · split <;> rfl
        all_goals rfl
      simp only [stake?_of_task ht, Task.stake?, body, Option.map_none]
      split
      · rfl
      · exact standing _
      all_goals rfl

/-- A new helper comes behind everybody else. -/
theorem racers_spawn (noTurn : .resume s.size ∉ s.turns) (key : PauseId) (caller : TaskId) :
    ((s.spawn (.helper key caller)).1.racers []).Sublist (s.racers [] ++ [key]) := by
  let helped := (s.spawn (.helper key caller)).1
  have stake : ∀ t, helped.stake? t = if t = s.size then some (.coming key) else s.stake? t := fun t =>
    (stake?_setTask { s with size := s.size + 1 } s.size t { role := .helper key caller }).trans rfl
  have turns : helped.turns = s.turns ++ [.resume s.size] := by
    simp only [helped, spawn, turns_push]
    rfl
  have standing : (s.line.filterMap helped.standing?).Sublist (s.line.filterMap s.standing?) := by
    refine filterMap_sublist _ fun t _ own stands => ?_
    simp only [standing?, stake] at stands ⊢
    split at stands
    · cases stands
    · exact stands
  have coming : (s.turns.filterMap helped.coming?).Sublist (s.turns.filterMap s.coming?) := by
    refine filterMap_sublist _ fun turn member own comes => ?_
    cases turn with
    | signal => cases comes
    | resume t =>
      have older : t ≠ s.size := by
        rintro rfl
        exact noTurn member
      simpa only [coming?, stake, if_neg older] using comes
  have last : helped.coming? (.resume s.size) = some key := by
    simp only [coming?, stake, ↓reduceIte]
    rfl
  have racing : helped.racers [] =
      s.line.filterMap helped.standing? ++ (s.turns.filterMap helped.coming? ++ [key]) := by
    unfold racers
    rw [List.nil_append, turns, List.filterMap_append, List.filterMap_cons_some last]
    rfl
  rw [racing, ← List.append_assoc]
  exact (standing.append coming).append_right [key]

/-- **Every request joins the procession at its end.** -/
theorem advances_await (h : s.Sound (some (t, none)) trace)
    (unhelped : s.limit = none → ∀ helper, s.helper? helper = none) (pause : Pause) :
    Advances s (grants trace) [] (s.requested pause) (s.await t pause).1
      (grantedAt pause (s.await t pause).2) := by
  have running := h.orderly.inHand rfl
  have body := h.keyed.inHand rfl
  have outside := h.orderly.notMem_line running nofun
  obtain ⟨task, ht, -⟩ := task_of_status running
  have ticked : Recedes s { s with waits := s.waits + 1 } :=
    recedes_of_latch (fades_tick s) rfl
  cases pause with
  | gate name =>
    unfold await
    simp only
    split
    · exact ticked.advances
    · refine Recedes.advances (recedes_of_latch ?_ (latch_suspend _ t _))
      exact (fades_suspend _ t fun _ same => by cases same).of_same rfl rfl rfl rfl
  | sleep span =>
    unfold await
    simp only
    split
    · exact (recedes_of_latch (fades_yieldTurn body) (latch_yieldTurn s t)).advances
    · refine Recedes.advances (recedes_of_latch ?_ (latch_suspend _ t _))
      exact (fades_suspend _ t fun _ same => by cases same).of_same rfl rfl rfl rfl
  | barrier =>
    unfold await
    simp only
    split
    next unlimited =>
      have nobody := coming_of_unhelped (unhelped unlimited)
      split
      next free =>
        have unheld : s.holder = none := Option.isNone_iff_eq_none.mp (Bool.and_eq_true _ _ ▸ free).1
        have empty : s.racers [] = [] := by
          unfold racers
          rw [standing_of_isFree free, List.nil_append, List.nil_append, nobody]
        have fewer := ticked.fades.racers ticked.line (List.Sublist.refl [])
        rw [empty] at fewer
        refine advances_take unheld ?_ rfl (.inr rfl)
        rw [empty]
        exact fewer.cons_cons s.waits
      next =>
        have joined := racers_join ht outside s.waits
        rw [nobody] at joined
        have alone : s.racers [] = s.line.filterMap s.standing? := by
          unfold racers
          rw [List.nil_append, nobody, List.append_nil]
        refine advances_of_racers (.inl (congrArg Latch.holder (latch_suspend _ t _))) ?_
        rw [alone]
        exact joined
    next limit _ =>
      have noTurn : .resume s.size ∉ s.turns := h.orderly.noTurn fun ready => by
        rcases ready with queued | ⟨wait, waits, -⟩
        · exact Nat.lt_irrefl _ (h.orderly.known queued)
        · exact Nat.lt_irrefl _ (h.orderly.known waits)
      have joins : ∀ {s' : Scheduler κ}, Recedes (s.spawn (.helper s.waits t)).1 s' →
          Advances s (grants trace) [] [s.waits] s' [] := fun recedes =>
        advances_of_racers recedes.holder
          ((recedes.fades.racers recedes.line (List.Sublist.refl [])).trans (racers_spawn noTurn s.waits t))
      split
      next =>
        exact joins (recedes_of_latch (fades_tick _) rfl)
      next =>
        refine joins (recedes_of_latch ?_ (latch_suspend _ t _))
        exact (fades_suspend _ t fun _ same => by cases same).of_same rfl rfl rfl rfl

end Turns

end Scheduler
end ActionFlow

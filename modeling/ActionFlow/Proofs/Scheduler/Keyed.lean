import ActionFlow.Proofs.Scheduler.Orderly

/-!
# Keys and who asks for them

Every request for the barrier has a key of its own, which is the number of the wait that the request
began with. With a limit of time two tasks are after one key: a helper gets the barrier, and the caller
takes it over or gives it back. What the helper got is kept for the caller until its turn comes.

## Main results

* `Keyed`: the invariant that ties the holder of the barrier to the keys, the requests and the helpers.
* `Quiet`: what may change without touching the helpers and the barrier; `Keyed.frame`: that keeps it.
* `Keyed.spawnHelper`, `Keyed.ask`, `Keyed.take`, `Keyed.helperTakes`, `Keyed.setFree`: the stations of a
  request.
-/

namespace ActionFlow

/-- Whether a failure is one that a request for the barrier is meant to end with. -/
def Failure.Excused (failure : Failure) : Prop :=
  failure = .cancelled ∨ ∃ limit, failure = .timedOut limit

namespace Scheduler

variable {κ : Type}

/-- Whether a task that is no helper asks for a key, be it in the turn after its wait. -/
def Asks (s : Scheduler κ) (hand : Hand) (t : TaskId) (aim : Aim) : Prop :=
  s.helper? t = none ∧ aim.key? ≠ none ∧
    ((∃ wait, s.status? t = some (.waiting wait) ∧ wait.aim = aim) ∨ hand = some (t, some aim))

/-- Whether a helper has got the barrier. -/
def Got (s : Scheduler κ) (h : TaskId) : Prop := s.status? h = some (.finished (.ok ()))

theorem Got.doomed {s : Scheduler κ} {h : TaskId} (got : s.Got h) : s.Doomed h := .inl ⟨_, got⟩

/-- The barrier, the keys, the requests and the helpers go together. -/
structure Keyed (s : Scheduler κ) (hand : Hand) : Prop where
  inHand : ∀ {t aim}, hand = some (t, aim) → s.helper? t = none
  helperKey : ∀ {h key t}, s.helper? h = some (key, t) → key < s.waits
  helperOne : ∀ {h h' key t t'}, s.helper? h = some (key, t) → s.helper? h' = some (key, t') →
    h = h'
  caller : ∀ {t aim key h}, s.Asks hand t aim → aim.key? = some key → aim.helper? = some h →
    s.helper? h = some (key, t)
  leaving : ∀ {t key h why}, s.Asks hand t (.leave key h why) → s.Doomed h ∧ why.Excused
  askKey : ∀ {t aim key}, s.Asks hand t aim → aim.key? = some key → key < s.waits
  askOne : ∀ {t t' aim aim' key}, s.Asks hand t aim → s.Asks hand t' aim' → aim.key? = some key →
    aim'.key? = some key → t = t'
  /-- Nobody stands in line for a key that is asked for without a limit of time. -/
  askAlone : ∀ {t key h t'}, s.Asks hand t (.line key) → s.helper? h ≠ some (key, t')
  holderKey : ∀ {key}, s.holder = some key → key < s.waits
  opening : s.keys = [] ∨ ∃ key, s.holder = some key ∧ s.keys = [key]
  shut : ∀ {t aim key}, s.Asks hand t aim → aim.key? = some key → key ∉ s.keys
  /-- What a helper got is kept for its caller. -/
  kept : ∀ {t aim key h}, s.Asks hand t aim → aim.key? = some key → aim.helper? = some h →
    s.Got h → s.holder = some key
  origin : ∀ {h key t}, s.helper? h = some (key, t) → s.holder = some key → s.Got h

/-- The helpers and the barrier are left as they are, except that helpers may come to be certain not to
end well. -/
structure Quiet (s s' : Scheduler κ) : Prop where
  helper : ∀ t, s'.helper? t = s.helper? t
  got : ∀ t, s.helper? t ≠ none → (s'.Got t ↔ s.Got t)
  doomed : ∀ t, s.helper? t ≠ none → s.Doomed t → s'.Doomed t
  holder : s'.holder = s.holder
  keys : s'.keys = s.keys
  waits : s.waits ≤ s'.waits

/-! ## What shows of a change -/

section SameTasks

variable {s s' : Scheduler κ} (tasks : s'.task = s.task) {t : TaskId}

include tasks

theorem helper_of_tasks : s'.helper? t = s.helper? t := by
  simp only [helper?, tasks]

theorem asks_of_tasks {hand : Hand} {aim : Aim} : s'.Asks hand t aim ↔ s.Asks hand t aim := by
  simp only [Asks, status?, helper?, tasks]

theorem got_of_tasks : s'.Got t ↔ s.Got t := by
  simp only [Got, status?, tasks]

theorem doomed_of_tasks : s'.Doomed t ↔ s.Doomed t := by
  simp only [Doomed, asked, status?, tasks]

end SameTasks

/-- Who asks for something also asked for it before, if its status is the same and the turn is not its
own. -/
theorem Asks.of_status {s s' : Scheduler κ} {hand hand' : Hand} {t : TaskId} {aim : Aim}
    (asks : s'.Asks hand' t aim) (helper : s'.helper? t = s.helper? t)
    (status : s'.status? t = s.status? t) (elsewhere : hand' ≠ some (t, some aim)) :
    s.Asks hand t aim := by
  obtain ⟨body, named, waits | holds⟩ := asks
  · obtain ⟨wait, waiting, aims⟩ := waits
    exact ⟨helper ▸ body, named, .inl ⟨wait, status ▸ waiting, aims⟩⟩
  · exact absurd holds elsewhere

/-- A new helper is sent out for a new key, and everything else is left as it is. -/
structure Sends (s s' : Scheduler κ) (caller : TaskId) : Prop where
  unknown : s.helper? s.size = none
  others : ∀ t, t ≠ s.size → s'.status? t = s.status? t ∧ s'.asked t = s.asked t
  helper : ∀ t, s'.helper? t = if t = s.size then some (s.waits, caller) else s.helper? t
  holder : s'.holder = s.holder
  keys : s'.keys = s.keys
  waits : s'.waits = s.waits + 1

namespace Sends

variable {s s' : Scheduler κ} {caller t : TaskId}

theorem older (sends : Sends s s' caller) (helps : s.helper? t ≠ none) : t ≠ s.size := by
  rintro rfl
  exact helps sends.unknown

theorem helped (sends : Sends s s' caller) {helps : PauseId × TaskId} (h : s'.helper? t = some helps) :
    t = s.size ∧ (s.waits, caller) = helps ∨ t ≠ s.size ∧ s.helper? t = some helps := by
  rw [sends.helper] at h
  split at h
  next same => exact .inl ⟨same, Option.some.inj h⟩
  next different => exact .inr ⟨different, h⟩

theorem got_iff (sends : Sends s s' caller) (helps : s.helper? t ≠ none) : s'.Got t ↔ s.Got t := by
  unfold Got
  rw [(sends.others t (sends.older helps)).1]

theorem doomed_iff (sends : Sends s s' caller) (helps : s.helper? t ≠ none) :
    s'.Doomed t ↔ s.Doomed t := by
  unfold Doomed
  rw [(sends.others t (sends.older helps)).1, (sends.others t (sends.older helps)).2]

/-- A new helper asks for nothing by itself. -/
theorem asks (sends : Sends s s' caller) {hand : Hand} {aim : Aim} (asks : s'.Asks hand t aim) :
    s.Asks hand t aim := by
  obtain ⟨body, named, asked⟩ := asks
  rw [sends.helper] at body
  split at body
  next => cases body
  next different =>
    rw [(sends.others t different).1] at asked
    exact ⟨body, named, asked⟩

end Sends

namespace Moves

variable {s s' : Scheduler κ} {t : TaskId} {status : Status}

/-- Going on with a task leaves the helpers alone, if it is none itself or neither gets the barrier by
that nor may end well again. -/
theorem quiet_of_own (moves : Moves s s' t status)
    (got : s.helper? t ≠ none → (s'.Got t ↔ s.Got t))
    (doomed : s.helper? t ≠ none → s.Doomed t → s'.Doomed t)
    (holder : s'.holder = s.holder) (keys : s'.keys = s.keys) : Quiet s s' := by
  constructor
  case helper => exact moves.helper
  case got =>
    intro other helper
    by_cases same : other = t
    · exact same ▸ got (same ▸ helper)
    · unfold Got
      rw [moves.status, if_neg same]
  case doomed =>
    intro other helper was
    by_cases same : other = t
    · exact same ▸ doomed (same ▸ helper) (same ▸ was)
    · unfold Doomed
      rw [moves.status, if_neg same, moves.asked other same]
      exact was
  case holder => exact holder
  case keys => exact keys
  case waits => exact moves.waits

/-- Going on with a task that is no helper leaves the helpers alone. -/
theorem quiet (moves : Moves s s' t status) (body : s.helper? t = none)
    (holder : s'.holder = s.holder) (keys : s'.keys = s.keys) : Quiet s s' :=
  moves.quiet_of_own (absurd body) (absurd body) holder keys

/-- A task that is made to wait or to end otherwise than well has not got the barrier. -/
theorem not_got (moves : Moves s s' t status) (unwell : status ≠ .finished (.ok ())) : ¬ s'.Got t := by
  unfold Got
  rw [moves.status, if_pos rfl]
  exact fun same => unwell (Option.some.inj same)

/-- Nobody asks for more than before if the task, in case it waits now, did so before with the same
aim. -/
theorem asks_of_aim (moves : Moves s s' t status) {hand hand' : Hand} {other : TaskId} {aim : Aim}
    (aims : ∀ wait, status = .waiting wait →
      ∃ before, s.status? t = some (.waiting before) ∧ before.aim = wait.aim)
    (hands : ∀ own, hand' = some own → hand = some own) (asks : s'.Asks hand' other aim) :
    s.Asks hand other aim := by
  obtain ⟨body, named, ⟨wait, waiting, own⟩ | held⟩ := asks
  · refine ⟨moves.helper other ▸ body, named, .inl ?_⟩
    rcases moves.status_cases waiting with ⟨rfl, now⟩ | ⟨-, was⟩
    · obtain ⟨before, was, same⟩ := aims wait now
      exact ⟨before, was, same.trans own⟩
    · exact ⟨wait, was, own⟩
  · exact ⟨moves.helper other ▸ body, named, .inr (hands _ held)⟩

/-- The other tasks ask for what they asked for before. -/
theorem asks (moves : Moves s s' t status) {hand hand' : Hand} {other : TaskId} {aim : Aim}
    (asks : s'.Asks hand' other aim) (different : other ≠ t)
    (onlyHand : ∀ t' aim, hand' = some (t', aim) → t' = t) : s.Asks hand other aim := by
  refine asks.of_status (moves.helper other) ((moves.status other).trans (if_neg different)) ?_
  intro own
  exact different (onlyHand other _ own)

/-- Going on with a helper makes nobody ask for anything. -/
theorem asks_of_helper (moves : Moves s s' t status) (helps : s.helper? t ≠ none) {other : TaskId}
    {aim : Aim} (asks : s'.Asks none other aim) : s.Asks none other aim := by
  refine moves.asks asks ?_ nofun
  rintro rfl
  exact helps (moves.helper other ▸ asks.1)

/-- What helpers have got when one of them ends well. -/
theorem got_iff (moves : Moves s s' t (.finished (.ok ()))) {other : TaskId} :
    s'.Got other ↔ s.Got other ∨ other = t := by
  unfold Got
  rw [moves.status]
  by_cases same : other = t
  · simp [same]
  · simp [same]

/-- Who has ended does not end well any more. -/
theorem doomed_of_finished {ending : Except Failure Unit} (moves : Moves s s' t (.finished ending))
    {other : TaskId} (doomed : s.Doomed other) : s'.Doomed other := by
  unfold Doomed
  by_cases same : other = t
  · exact .inl ⟨ending, (moves.status other).trans (if_pos same)⟩
  · rw [moves.status, if_neg same, moves.asked other same]
    exact doomed

end Moves

namespace Keyed

variable {s s' : Scheduler κ} {hand hand' : Hand} {t : TaskId}

/-- Only the holder's key opens the barrier. -/
theorem holder_of_mem (h : s.Keyed hand) {key : PauseId} (member : key ∈ s.keys) :
    s.holder = some key := by
  rcases h.opening with closed | ⟨own, held, keys⟩
  · simp [closed] at member
  · rw [keys, List.mem_singleton] at member
    rw [held, member]

/-- While nobody holds the barrier no key opens it. -/
theorem keys_eq_nil (h : s.Keyed hand) (free : s.holder = none) : s.keys = [] := by
  rcases h.opening with closed | ⟨key, held, -⟩
  · exact closed
  · rw [free] at held
    cases held

/-- The number of the next wait is nobody's key. -/
theorem fresh (h : s.Keyed hand) :
    (∀ t aim, s.Asks hand t aim → aim.key? ≠ some s.waits) ∧ (∀ h t, s.helper? h ≠ some (s.waits, t)) ∧
      s.waits ∉ s.keys ∧ s.holder ≠ some s.waits := by
  refine ⟨fun t aim asks named => ?_, fun helper t helps => ?_, fun member => ?_, fun held => ?_⟩
  · exact Nat.lt_irrefl _ (h.askKey asks named)
  · exact Nat.lt_irrefl _ (h.helperKey helps)
  · exact Nat.lt_irrefl _ (h.holderKey (h.holder_of_mem member))
  · exact Nat.lt_irrefl _ (h.holderKey held)

/-! ## What leaves everything alone -/

/-- Requests may be dropped. -/
theorem frame (h : s.Keyed hand) (quiet : Quiet s s')
    (inHand : ∀ t aim, hand' = some (t, aim) → s.helper? t = none)
    (asks : ∀ t aim, s'.Asks hand' t aim → s.Asks hand t aim) : s'.Keyed hand' := by
  obtain ⟨helper, got, doomed, holder, keys, waits⟩ := quiet
  have helped : ∀ {t helps}, s'.helper? t = some helps → s.helper? t = some helps := by
    intro t helps has
    exact (helper t).symm.trans has
  constructor
  case inHand =>
    intro t aim own
    exact (helper t).trans (inHand t aim own)
  case helperKey =>
    intro h' key t helps
    exact Nat.lt_of_lt_of_le (h.helperKey (helped helps)) waits
  case helperOne =>
    intro h₁ h₂ key t₁ t₂ helps₁ helps₂
    exact h.helperOne (helped helps₁) (helped helps₂)
  case caller =>
    intro t aim key h' asking named follows
    exact (helper h').trans (h.caller (asks t aim asking) named follows)
  case leaving =>
    intro t key h' why left
    have was := asks t _ left
    have byCaller := h.caller was rfl rfl
    exact (h.leaving was).imp_left (doomed h' (by simp [byCaller]))
  case askKey =>
    intro t aim key asking named
    exact Nat.lt_of_lt_of_le (h.askKey (asks t aim asking) named) waits
  case askOne =>
    intro t₁ t₂ aim₁ aim₂ key asking₁ asking₂
    exact h.askOne (asks t₁ aim₁ asking₁) (asks t₂ aim₂ asking₂)
  case askAlone =>
    intro t key h' t' asking helps
    exact h.askAlone (asks t _ asking) (helped helps)
  case holderKey =>
    intro key held
    exact Nat.lt_of_lt_of_le (h.holderKey (holder ▸ held)) waits
  case opening =>
    rw [holder, keys]
    exact h.opening
  case shut =>
    intro t aim key asking named
    rw [keys]
    exact h.shut (asks t aim asking) named
  case kept =>
    intro t aim key h' asking named follows has
    have was := asks t aim asking
    have byCaller := h.caller was named follows
    rw [holder]
    exact h.kept was named follows ((got h' (by simp [byCaller])).mp has)
  case origin =>
    intro h' key t helps held
    have was := helped helps
    exact (got h' (by simp [was])).mpr (h.origin was (holder ▸ held))

/-- What the task whose turn it is still follows up may be dropped. -/
theorem letGo {aim : Option Aim} (h : s.Keyed (some (t, aim))) : s.Keyed (some (t, none)) :=
  h.frame ⟨fun _ => rfl, fun _ _ => Iff.rfl, fun _ _ => id, rfl, rfl, Nat.le_refl _⟩
    (fun _ _ same => by cases same; exact h.inHand rfl)
    (fun _ _ ⟨body, named, asks⟩ => ⟨body, named, asks.imp_right nofun⟩)

/-! ## The stations of a request -/

/-- A helper is sent out for a new key. -/
theorem spawnHelper (h : s.Keyed hand) {caller : TaskId} (sends : Sends s s' caller)
    (inHand : ∀ aim, hand ≠ some (s.size, aim)) : s'.Keyed hand := by
  obtain ⟨-, unhelped, -, unheld⟩ := h.fresh
  have grown : s.waits < s'.waits := sends.waits ▸ Nat.lt_succ_self _
  constructor
  case inHand =>
    intro t aim own
    rw [sends.helper, if_neg]
    · exact h.inHand own
    · rintro rfl
      exact inHand aim own
  case helperKey =>
    intro h' key t helps
    rcases sends.helped helps with ⟨-, same⟩ | ⟨-, was⟩
    · cases same
      exact grown
    · exact Nat.lt_trans (h.helperKey was) grown
  case helperOne =>
    intro h₁ h₂ key t₁ t₂ helps₁ helps₂
    rcases sends.helped helps₁ with ⟨new₁, same₁⟩ | ⟨-, was₁⟩
    · cases same₁
      rcases sends.helped helps₂ with ⟨new₂, -⟩ | ⟨-, was₂⟩
      · rw [new₁, new₂]
      · exact absurd was₂ (unhelped h₂ t₂)
    · rcases sends.helped helps₂ with ⟨-, same₂⟩ | ⟨-, was₂⟩
      · cases same₂
        exact absurd was₁ (unhelped h₁ t₁)
      · exact h.helperOne was₁ was₂
  case caller =>
    intro t aim key h' asking named follows
    have was := h.caller (sends.asks asking) named follows
    rw [sends.helper, if_neg (sends.older (by simp [was]))]
    exact was
  case leaving =>
    intro t key h' why left
    have was := sends.asks left
    have byCaller := h.caller was rfl rfl
    exact (h.leaving was).imp_left (sends.doomed_iff (by simp [byCaller])).mpr
  case askKey =>
    intro t aim key asking named
    exact Nat.lt_trans (h.askKey (sends.asks asking) named) grown
  case askOne =>
    intro t₁ t₂ aim₁ aim₂ key asking₁ asking₂
    exact h.askOne (sends.asks asking₁) (sends.asks asking₂)
  case askAlone =>
    intro t key h' t' asking helps
    have was := sends.asks asking
    rcases sends.helped helps with ⟨-, same⟩ | ⟨-, helped⟩
    · cases same
      exact Nat.lt_irrefl _ (h.askKey was rfl)
    · exact h.askAlone was helped
  case holderKey =>
    intro key held
    exact Nat.lt_trans (h.holderKey (sends.holder ▸ held)) grown
  case opening =>
    rw [sends.holder, sends.keys]
    exact h.opening
  case shut =>
    intro t aim key asking named
    rw [sends.keys]
    exact h.shut (sends.asks asking) named
  case kept =>
    intro t aim key h' asking named follows has
    have was := sends.asks asking
    have byCaller := h.caller was named follows
    rw [sends.holder]
    exact h.kept was named follows ((sends.got_iff (by simp [byCaller])).mp has)
  case origin =>
    intro h' key t helps held
    rw [sends.holder] at held
    rcases sends.helped helps with ⟨-, same⟩ | ⟨-, was⟩
    · cases same
      exact absurd held unheld
    · exact (sends.got_iff (by simp [was])).mpr (h.origin was held)

/-- The task whose turn it is asks for a key that nobody else asks for. -/
theorem ask (h : s.Keyed hand) {aim : Aim} {key : PauseId} (quiet : Quiet s s')
    (body : s.helper? t = none)
    (asks : ∀ t' aim', s'.Asks none t' aim' → t' ≠ t ∧ s.Asks hand t' aim' ∨ t' = t ∧ aim' = aim)
    (named : aim.key? = some key) (numbered : key < s'.waits)
    (unasked : ∀ t' aim', t' ≠ t → s.Asks hand t' aim' → aim'.key? ≠ some key) (shut : key ∉ s.keys)
    (caller : ∀ h, aim.helper? = some h → s.helper? h = some (key, t) ∧
      (s.Got h → s.holder = some key))
    (alone : aim = .line key → ∀ h t', s.helper? h ≠ some (key, t'))
    (leaving : ∀ h why, aim = .leave key h why → s.Doomed h ∧ why.Excused) : s'.Keyed none := by
  -- Whoever asks for something now asked for it before, or it is the new request.
  obtain ⟨helper, got, doomed, holder, keys, waits⟩ := quiet
  have helped : ∀ {t helps}, s'.helper? t = some helps → s.helper? t = some helps := by
    intro t helps has
    exact (helper t).symm.trans has
  constructor
  case inHand => exact nofun
  case helperKey =>
    intro h' key' t' helps
    exact Nat.lt_of_lt_of_le (h.helperKey (helped helps)) waits
  case helperOne =>
    intro h₁ h₂ key' t₁ t₂ helps₁ helps₂
    exact h.helperOne (helped helps₁) (helped helps₂)
  case caller =>
    intro t' aim' key' h' asking named' follows
    rw [helper]
    rcases asks t' aim' asking with ⟨-, was⟩ | ⟨rfl, rfl⟩
    · exact h.caller was named' follows
    · cases named.symm.trans named'
      exact (caller h' follows).1
  case leaving =>
    intro t' key' h' why left
    rcases asks t' _ left with ⟨-, was⟩ | ⟨rfl, rfl⟩
    · have byCaller := h.caller was rfl rfl
      exact (h.leaving was).imp_left (doomed h' (by simp [byCaller]))
    · cases named
      have byCaller := (caller h' rfl).1
      exact (leaving h' why rfl).imp_left (doomed h' (by simp [byCaller]))
  case askKey =>
    intro t' aim' key' asking named'
    rcases asks t' aim' asking with ⟨-, was⟩ | ⟨rfl, rfl⟩
    · exact Nat.lt_of_lt_of_le (h.askKey was named') waits
    · cases named.symm.trans named'
      exact numbered
  case askOne =>
    intro t₁ t₂ aim₁ aim₂ key' asking₁ asking₂ named₁ named₂
    rcases asks t₁ aim₁ asking₁ with ⟨different₁, was₁⟩ | ⟨mine₁, rfl⟩
    · rcases asks t₂ aim₂ asking₂ with ⟨-, was₂⟩ | ⟨-, rfl⟩
      · exact h.askOne was₁ was₂ named₁ named₂
      · cases named.symm.trans named₂
        exact absurd named₁ (unasked t₁ aim₁ different₁ was₁)
    · cases named.symm.trans named₁
      rcases asks t₂ aim₂ asking₂ with ⟨different₂, was₂⟩ | ⟨mine₂, -⟩
      · exact absurd named₂ (unasked t₂ aim₂ different₂ was₂)
      · rw [mine₁, mine₂]
  case askAlone =>
    intro t' key' h' t'' left
    rw [helper]
    rcases asks t' _ left with ⟨-, was⟩ | ⟨rfl, rfl⟩
    · exact h.askAlone was
    · cases named
      exact alone rfl h' t''
  case holderKey =>
    intro key' held
    exact Nat.lt_of_lt_of_le (h.holderKey (holder ▸ held)) waits
  case opening =>
    rw [holder, keys]
    exact h.opening
  case shut =>
    intro t' aim' key' asking named'
    rw [keys]
    rcases asks t' aim' asking with ⟨-, was⟩ | ⟨rfl, rfl⟩
    · exact h.shut was named'
    · cases named.symm.trans named'
      exact shut
  case kept =>
    intro t' aim' key' h' asking named' follows has
    rw [holder]
    rcases asks t' aim' asking with ⟨-, was⟩ | ⟨rfl, rfl⟩
    · have byCaller := h.caller was named' follows
      exact h.kept was named' follows ((got h' (by simp [byCaller])).mp has)
    · cases named.symm.trans named'
      obtain ⟨byCaller, kept⟩ := caller h' follows
      exact kept ((got h' (by simp [byCaller])).mp has)
  case origin =>
    intro h' key' t' helps held
    have was := helped helps
    exact (got h' (by simp [was])).mpr (h.origin was (holder ▸ held))

/-- The task whose turn it is takes the barrier with its key, whether the barrier is free or was kept for
it. The key opens the barrier from then on. -/
theorem take {aim : Option Aim} (h : s.Keyed (some (t, aim))) (s' : Scheduler κ) {key : PauseId}
    (tasks : s'.task = s.task) (numbered : key < s'.waits) (waits : s.waits ≤ s'.waits)
    (free : s.holder = none ∨ s.holder = some key) (shut : key ∉ s.keys)
    (unasked : ∀ t' aim', s.Asks (some (t, none)) t' aim' → aim'.key? ≠ some key)
    (origin : ∀ h t', s.helper? h = some (key, t') → s.Got h)
    (holder : s'.holder = some key) (keys : s'.keys = s.keys ++ [key]) :
    s'.Keyed (some (t, none)) := by
  -- What opened the barrier before would be this very key, which does not open it yet.
  have onlyKey : s'.keys = [key] := by
    rcases h.opening with closed | ⟨own, held, opens⟩
    · rw [keys, closed]
      rfl
    · rcases free with free | mine
      · cases free.symm.trans held
      · cases mine.symm.trans held
        simp [opens] at shut
  have h := h.letGo
  constructor
  case inHand =>
    intro t' aim' own
    rw [helper_of_tasks tasks]
    exact h.inHand own
  case helperKey =>
    intro h' key' t' helps
    rw [helper_of_tasks tasks] at helps
    exact Nat.lt_of_lt_of_le (h.helperKey helps) waits
  case helperOne => simpa only [helper_of_tasks tasks] using @h.helperOne
  case caller => simpa only [helper_of_tasks tasks, asks_of_tasks tasks] using @h.caller
  case leaving => simpa only [asks_of_tasks tasks, doomed_of_tasks tasks] using @h.leaving
  case askKey =>
    intro t' aim' key' asking named
    exact Nat.lt_of_lt_of_le (h.askKey ((asks_of_tasks tasks).mp asking) named) waits
  case askOne => simpa only [asks_of_tasks tasks] using @h.askOne
  case askAlone => simpa only [asks_of_tasks tasks, helper_of_tasks tasks] using @h.askAlone
  case holderKey =>
    intro key' held
    cases holder.symm.trans held
    exact numbered
  case opening => exact .inr ⟨key, holder, onlyKey⟩
  case shut =>
    intro t' aim' key' asking named member
    rw [onlyKey, List.mem_singleton] at member
    exact unasked t' aim' ((asks_of_tasks tasks).mp asking) (member ▸ named)
  case kept =>
    intro t' aim' key' h' asking named follows has
    have held := h.kept ((asks_of_tasks tasks).mp asking) named follows ((got_of_tasks tasks).mp has)
    rcases free with free | mine
    · cases free.symm.trans held
    · cases mine.symm.trans held
      exact holder
  case origin =>
    intro h' key' t' helps held
    cases holder.symm.trans held
    rw [helper_of_tasks tasks] at helps
    exact (got_of_tasks tasks).mpr (origin h' t' helps)

/-- A helper that is not called off takes the free barrier, and ends. -/
theorem helperTakes (h : s.Keyed none) {key : PauseId} {caller helper : TaskId}
    (moves : Moves s s' helper (.finished (.ok ()))) (helps : s.helper? helper = some (key, caller))
    (free : s.holder = none) (holder : s'.holder = some key) (keys : s'.keys = s.keys) :
    s'.Keyed none := by
  have closed := h.keys_eq_nil free
  have asks : ∀ {t aim}, s'.Asks none t aim → s.Asks none t aim := moves.asks_of_helper (by simp [helps])
  constructor
  case inHand => exact nofun
  case helperKey =>
    intro h' key' t' helps'
    rw [moves.helper] at helps'
    exact Nat.lt_of_lt_of_le (h.helperKey helps') moves.waits
  case helperOne => simpa only [moves.helper] using @h.helperOne
  case caller =>
    intro t' aim' key' h' asking named follows
    rw [moves.helper]
    exact h.caller (asks asking) named follows
  case leaving =>
    intro t' key' h' why left
    exact (h.leaving (asks left)).imp_left moves.doomed_of_finished
  case askKey =>
    intro t' aim' key' asking named
    exact Nat.lt_of_lt_of_le (h.askKey (asks asking) named) moves.waits
  case askOne =>
    intro t₁ t₂ aim₁ aim₂ key' asking₁ asking₂
    exact h.askOne (asks asking₁) (asks asking₂)
  case askAlone =>
    intro t' key' h' t'' asking
    rw [moves.helper]
    exact h.askAlone (asks asking)
  case holderKey =>
    intro key' held
    cases holder.symm.trans held
    exact Nat.lt_of_lt_of_le (h.helperKey helps) moves.waits
  case opening => exact .inl (keys.trans closed)
  case shut =>
    intro t' aim' key' _ _ member
    simp [keys, closed] at member
  case kept =>
    intro t' aim' key' h' asking named follows has
    rcases moves.got_iff.mp has with had | rfl
    · cases free.symm.trans (h.kept (asks asking) named follows had)
    · cases helps.symm.trans (h.caller (asks asking) named follows)
      exact holder
  case origin =>
    -- Only one helper is sent out for a key, so it is this one that has got the barrier.
    intro h' key' t' helps' held
    cases holder.symm.trans held
    rw [moves.helper] at helps'
    exact moves.got_iff.mpr (.inr (h.helperOne helps' helps))

/-- The barrier becomes free, and opens to no key: the key of its holder is given back, or the task whose
turn it is gives back what was kept for it. -/
theorem setFree (h : s.Keyed hand) {key : PauseId} (held : s.holder = some key)
    (unasked : ∀ t aim, s.Asks hand t aim → aim.key? ≠ some key) {keys : List PauseId}
    (closed : keys = []) : { s with holder := none, keys }.Keyed hand :=
  { h with
    holderKey := nofun
    opening := .inl closed
    shut := by simp [closed]
    kept := fun asks named helps got =>
      absurd (h.kept asks named helps got) fun held' =>
        unasked _ _ asks (named.trans (held'.symm.trans held))
    origin := nofun }

end Keyed
end Scheduler
end ActionFlow

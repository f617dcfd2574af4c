import ActionFlow.Explorer

/-!
# Resolution over a history of registrations

Actions are registered one after the other, some for the table of a source and some for the shared one, and
some registrations are refused. Whatever the order, what a name means to a source is settled by the first
registration of that name in its own table that was not refused, or else by the first one in the shared table.
An action is known by the registration that made it, so an action that stays the same is told from one that
merely looks the same.

## Main results

* `get?_register`: a registration adds its action behind what is there, and never in its place.
* `get?_table_after`: what a table holds after a history is the first thing that it was offered.
* `nodup_names_merged`: the merged table has every name once.
* `resolution_follows_history`: what names mean over a history, in both tables and in the merged one.
-/

namespace ActionFlow

/-! ## One registration -/

/-- The action that a registration offers under a name, if it is for that name and its options can be
declared. -/
def Registration.offer? (registration : Registration) (name : String) : Option Action :=
  if registration.name = name then registration.action.toOption else none

namespace Registry

variable {registry after own shared : Registry} {registration : Registration} {action : Action}

theorem name_of_action (h : registration.action = .ok action) : action.name = registration.name := by
  unfold Registration.action at h
  cases declared : Options.declare registration.options with
  | error failure =>
      rw [declared] at h
      cases h
  | ok options =>
      rw [declared] at h
      cases h
      rfl

/-- What comes of a registration whose options can be declared. -/
theorem register_of_action (h : registration.action = .ok action) :
    registry.register registration = match registry.add action with
      | .ok after => (after, .ok action)
      | .error failure => (registry, .error failure) := by
  simp only [register, h]
  cases added : registry.add action with
  | ok after =>
      simp only [bind, Except.bind, added]
      rfl
  | error failure => simp only [bind, Except.bind, added]

/-- One whose options cannot be declared is refused. -/
theorem register_of_undeclared {failure : Failure} (h : registration.action = .error failure) :
    registry.register registration = (registry, .error failure) := by
  simp only [register, h]
  rfl

/-- **A registration adds its action** behind what is there, and never in its place. -/
theorem get?_register (registry : Registry) (registration : Registration) (name : String) :
    (registry.register registration).1.get? name =
      (registry.get? name).or (registration.offer? name) := by
  unfold Registration.offer?
  cases declared : registration.action with
  | error failure =>
      rw [register_of_undeclared declared]
      simp [Except.toOption]
  | ok action =>
      have named := name_of_action declared
      rw [register_of_action declared]
      cases added : registry.add action with
      | error failure =>
          have taken := (add_eq_error_iff.mp added).1
          rw [contains_eq_isSome_get?, named] at taken
          by_cases same : registration.name = name
          · obtain ⟨found, there⟩ := Option.isSome_iff_exists.mp (same ▸ taken)
            simp [there]
          · simp [same]
      | ok after =>
          rw [get?_add added name, named]
          by_cases same : registration.name = name
          · subst same
            have free : registry.get? registration.name = none := by
              unfold add at added
              split at added
              · cases added
              · rename_i untaken
                rwa [named, contains_eq_isSome_get?, Bool.not_eq_true, Option.isSome_eq_false_iff,
                  Option.isNone_iff_eq_none] at untaken
            simp [free, Except.toOption]
          · simp [same, Ne.symm same]

/-- A registration is refused exactly if its options cannot be declared or its name is taken. -/
theorem refused_register_iff (registry : Registry) (registration : Registration) :
    (∃ failure, (registry.register registration).2 = .error failure) ↔
      (∃ failure, registration.action = .error failure) ∨ (registry.get? registration.name).isSome := by
  cases declared : registration.action with
  | error failure =>
      rw [register_of_undeclared declared]
      exact iff_of_true ⟨failure, rfl⟩ (.inl ⟨failure, rfl⟩)
  | ok action =>
      have named := name_of_action declared
      rw [register_of_action declared, ← contains_eq_isSome_get?, ← named]
      cases added : registry.add action with
      | error failure =>
          have taken := (add_eq_error_iff.mp added).1
          exact iff_of_true ⟨failure, rfl⟩ (.inr taken)
      | ok after =>
          have free : ¬registry.contains action.name = true := by
            intro taken
            simp [add, taken] at added
          refine iff_of_false (by simp) ?_
          rintro (⟨failure, undeclared⟩ | taken)
          · cases undeclared
          · exact free taken

/-! ## Names of tables -/

/-- No name is taken twice by a registration. -/
theorem nodup_names_register (h : registry.names.Nodup) (registration : Registration) :
    (registry.register registration).1.names.Nodup := by
  cases declared : registration.action with
  | error failure => rwa [register_of_undeclared declared]
  | ok action =>
      rw [register_of_action declared]
      cases added : registry.add action with
      | error failure => exact h
      | ok after =>
          unfold add at added
          split at added
          · cases added
          · rename_i free
            cases added
            have absent : action.name ∉ registry.names := by simpa [names, contains] using free
            simp only [names, List.map_append, List.map_cons, List.map_nil]
            refine List.nodup_append.mpr ⟨h, by simp, ?_⟩
            rintro name there _ mine rfl
            cases List.mem_singleton.mp mine
            exact absent there

/-- The merged table has the shared names in their place, then those of the source alone. -/
theorem names_merged (own shared : Registry) :
    (own.merged shared).map (·.name) =
      shared.names ++ own.names.filter fun name => !shared.contains name := by
  simp only [merged, names, List.map_append, List.map_map, List.filter_map, Function.comp_def,
    name_of_replacing]

/-- **The merged table has every name once.** -/
theorem nodup_names_merged (h : own.names.Nodup) (h' : shared.names.Nodup) :
    ((own.merged shared).map (·.name)).Nodup := by
  rw [names_merged]
  refine List.nodup_append.mpr ⟨h', h.filter _, ?_⟩
  rintro name mine _ others rfl
  have absent := (List.mem_filter.mp others).2
  simp [names, contains] at mine absent
  obtain ⟨action, there, named⟩ := mine
  exact absent action there named

end Registry

/-! ## Histories -/

/-- A registration that is tried, for the table of a source or for the shared one. It comes with its
callback, or it is written in front of the callback, which it hands back. -/
inductive Attempt where
  | direct (table : Option String) (registration : Registration)
  | decorating (table : Option String) (name description : String) (options : Options.Changes)
      (callback : Callback)

namespace Attempt

/-- The table that is to take the action: a source's own one, or the shared one. -/
def table : Attempt → Option String
  | direct table _ => table
  | decorating table .. => table

/-- What is asked for; it is the same wherever the callback is written. -/
def registration : Attempt → Registration
  | direct _ registration => registration
  | decorating _ name description options callback => { name, description, options, callback }

/-- The action that an attempt offers to a table under a name. -/
def offer? (attempt : Attempt) (table : Option String) (name : String) : Option Action :=
  if attempt.table = table then attempt.registration.offer? name else none

end Attempt

/-- Attempts one after the other, each with the task that makes it, if it is one. -/
abbrev History : Type := List (Option TaskId × Attempt)

/-- Where an action comes from: from the registration at an index of a history, for a table. -/
structure Origin where
  table : Option String
  index : Nat
  deriving DecidableEq, Repr

namespace History

/-- The first registration of a history that offers a table an action of a name. -/
def first? (history : History) (table : Option String) (name : String) : Option Nat :=
  history.findIdx? fun attempt => (attempt.2.offer? table name).isSome

/-- Where the action comes from that a name means to a source: from its own table, or else from the shared
one. -/
def origin? (history : History) (source name : String) : Option Origin :=
  ((history.first? (some source) name).map (Origin.mk (some source))).or
    ((history.first? none name).map (Origin.mk none))

/-- The action that comes from there. -/
def made? (history : History) (name : String) (origin : Origin) : Option Action :=
  history[origin.index]?.bind fun attempt => attempt.2.offer? origin.table name

variable {history : History} {table : Option String} {source name : String} {index : Nat}

theorem findSome?_eq_made? {α β : Type} (items : List α) (f : α → Option β) :
    items.findSome? f =
      (items.findIdx? fun item => (f item).isSome).bind fun index => items[index]?.bind f := by
  induction items with
  | nil => rfl
  | cons first rest ih =>
      rw [List.findSome?_cons, List.findIdx?_cons]
      cases found : f first with
      | some result => simp [found]
      | none =>
          simp only [Option.isSome_none, Bool.false_eq_true, ↓reduceIte, ih, Option.bind_map]
          rfl

/-- What was the first stays the first, whatever comes later. -/
theorem first?_append (history later : History) (table : Option String) (name : String) :
    (history ++ later).first? table name =
      (history.first? table name).or ((later.first? table name).map (· + history.length)) :=
  List.findIdx?_append

theorem first?_append_of_some (h : history.first? table name = some index) (later : History) :
    (history ++ later).first? table name = some index := by
  rw [first?_append, h]
  rfl

/-- Who has an own action of a name does not look further. -/
theorem origin?_of_own (h : history.first? (some source) name = some index) :
    history.origin? source name = some ⟨some source, index⟩ := by
  simp only [origin?, h, Option.map_some, Option.some_or]

/-- Without one, it is the shared table that counts. -/
theorem origin?_of_shared (h : history.first? (some source) name = none) :
    history.origin? source name = (history.first? none name).map (Origin.mk none) := by
  simp only [origin?, h, Option.map_none, Option.none_or]

theorem first?_of_origin?_own (h : history.origin? source name = some ⟨some source, index⟩) :
    history.first? (some source) name = some index := by
  cases first : history.first? (some source) name with
  | some other =>
      cases (origin?_of_own first).symm.trans h
      rfl
  | none =>
      rw [origin?_of_shared first] at h
      obtain ⟨_, -, same⟩ := Option.map_eq_some_iff.mp h
      cases same

/-- How the origin of a name may change: from nothing, or from the shared table to the source's own. -/
theorem origin?_append_cases (history later : History) (source name : String) :
    history.origin? source name = none ∨
      (history ++ later).origin? source name = history.origin? source name ∨
      ∃ index own, history.origin? source name = some ⟨none, index⟩ ∧
        (history ++ later).origin? source name = some ⟨some source, own⟩ := by
  cases first : history.first? (some source) name with
  | some index =>
      rw [origin?_of_own first, origin?_of_own (first?_append_of_some first later)]
      exact .inr (.inl rfl)
  | none =>
      rw [origin?_of_shared first]
      cases shared : history.first? none name with
      | none => exact .inl rfl
      | some index =>
          refine .inr ?_
          cases afterwards : (history ++ later).first? (some source) name with
          | none =>
              rw [origin?_of_shared afterwards, first?_append_of_some shared later]
              exact .inl rfl
          | some own => exact .inr ⟨index, own, rfl, origin?_of_own afterwards⟩

/-- The action that was made first is still there later. -/
theorem made?_append (h : history.first? table name = some index) (later : History) :
    (history ++ later).made? name ⟨table, index⟩ = history.made? name ⟨table, index⟩ := by
  have inside : index < history.length := (List.findIdx?_eq_some_iff_findIdx_eq.mp h).1
  simp only [made?, List.getElem?_append_left inside]

/-- The first offer is one. -/
theorem made?_isSome (h : history.first? table name = some index) :
    (history.made? name ⟨table, index⟩).isSome := by
  obtain ⟨inside, offered, -⟩ := List.findIdx?_eq_some_iff_getElem.mp h
  simpa [made?, inside] using offered

end History

namespace Explorer

/-- The table of a source, or the shared one. -/
def table (explorer : Explorer) : Option String → Registry
  | some source => (explorer.sources source).registry
  | none => explorer.shared

/-- Tries a registration. -/
def attempt (explorer : Explorer) (who : Option TaskId) (attempt : Attempt) :
    Explorer × Except Failure Unit :=
  explorer.register who attempt.table attempt.registration

/-- Tries the registrations of a history one after the other. -/
def after (explorer : Explorer) (history : History) : Explorer :=
  history.foldl (fun now attempt => (now.attempt attempt.1 attempt.2).1) explorer

/-- The action that a name means to a source. -/
def resolve (explorer : Explorer) (source name : String) : Option Action :=
  (explorer.table (some source)).resolve (explorer.table none) name

/-- The actions of a source and the shared ones, in one table. -/
def merged (explorer : Explorer) (source : String) : List Action :=
  (explorer.table (some source)).merged (explorer.table none)

variable {explorer : Explorer} {who : Option TaskId}

/-- The explorer with another table in the place of one. -/
def withTable (explorer : Explorer) (table : Option String) (registry : Registry) : Explorer :=
  match table with
  | some source => explorer.update source fun s => { s with registry }
  | none => { explorer with shared := registry }

theorem table_withTable (explorer : Explorer) (target table : Option String) (registry : Registry) :
    (explorer.withTable target registry).table table =
      if target = table then registry else explorer.table table := by
  cases target with
  | none => cases table <;> rfl
  | some source =>
      cases table with
      | none => rfl
      | some other =>
          by_cases same : source = other
          · subst same
            simp [withTable, Explorer.table]
          · simp [withTable, Explorer.table, sources_update_of_ne (Ne.symm same), same]

/-- What comes of an attempt: its table refuses it and nothing changes, or the table takes the action. -/
theorem attempt_cases (explorer : Explorer) (who : Option TaskId) (attempt : Attempt) :
    (∃ failure, (explorer.table attempt.table).register attempt.registration =
        (explorer.table attempt.table, .error failure) ∧
      explorer.attempt who attempt = (explorer, .error failure)) ∨
    ∃ registry action, (explorer.table attempt.table).register attempt.registration =
        (registry, .ok action) ∧
      explorer.attempt who attempt = ((explorer.withTable attempt.table registry).record who
        (.noted (.registered registry.table action.name)), .ok ()) := by
  unfold Explorer.attempt
  generalize attempt.table = target, attempt.registration = registration
  rcases tried : (explorer.table target).register registration with ⟨registry, outcome⟩
  cases outcome with
  | error failure =>
      refine .inl ⟨failure, Registry.register_of_error tried ▸ rfl, ?_⟩
      cases target <;> simp_all [register, table]
  | ok action =>
      refine .inr ⟨registry, action, rfl, ?_⟩
      cases target <;> simp_all [register, table, withTable]

/-- An attempt is made on one table, and leaves every other one as it is. -/
theorem table_attempt (explorer : Explorer) (who : Option TaskId) (attempt : Attempt)
    (table : Option String) :
    (explorer.attempt who attempt).1.table table =
      if attempt.table = table then ((explorer.table table).register attempt.registration).1
      else explorer.table table := by
  rcases attempt_cases explorer who attempt with ⟨failure, refused, same⟩ | ⟨registry, action, taken, same⟩
  · rw [same]
    split
    next here => rw [← here, refused]
    next => rfl
  · rw [same]
    refine (table_withTable explorer attempt.table table registry).trans ?_
    split
    next here => rw [← here, taken]
    next => rfl

/-- Whether an attempt is refused is for its table to say. -/
theorem refused_attempt_iff (explorer : Explorer) (who : Option TaskId) (attempt : Attempt) :
    (∃ failure, (explorer.attempt who attempt).2 = .error failure) ↔
      ∃ failure, ((explorer.table attempt.table).register attempt.registration).2 = .error failure := by
  rcases attempt_cases explorer who attempt with ⟨failure, refused, same⟩ | ⟨registry, action, taken, same⟩
  · rw [refused, same]
    exact iff_of_true ⟨failure, rfl⟩ ⟨failure, rfl⟩
  · rw [taken, same]
    exact iff_of_false nofun nofun

/-- A refused attempt leaves the explorer as it is. -/
theorem attempt_of_refused {attempt : Attempt} {failure : Failure}
    (h : (explorer.attempt who attempt).2 = .error failure) :
    (explorer.attempt who attempt).1 = explorer := by
  rcases attempt_cases explorer who attempt with ⟨failure, -, same⟩ | ⟨registry, action, -, same⟩
  · rw [same]
  · rw [same] at h
    cases h

/-- **What a table holds** after a history is the first thing that it was offered, unless it had
something before. -/
theorem get?_table_after (explorer : Explorer) (history : History) (table : Option String)
    (name : String) :
    ((explorer.after history).table table).get? name =
      ((explorer.table table).get? name).or (history.findSome? fun attempt =>
        attempt.2.offer? table name) := by
  induction history generalizing explorer with
  | nil => simp [after]
  | cons first rest ih =>
      have step : ((explorer.attempt first.1 first.2).1.table table).get? name =
          ((explorer.table table).get? name).or (first.2.offer? table name) := by
        rw [table_attempt]
        unfold Attempt.offer?
        split
        next => exact Registry.get?_register ..
        next => simp
      show (((explorer.attempt first.1 first.2).1.after rest).table table).get? name = _
      rw [ih, step, List.findSome?_cons, Option.or_assoc]
      cases first.2.offer? table name <;> simp

/-- No table gets a name twice. -/
theorem nodup_names_after {table : Option String} (h : (explorer.table table).names.Nodup)
    (history : History) : ((explorer.after history).table table).names.Nodup := by
  induction history generalizing explorer with
  | nil => exact h
  | cons first rest ih =>
      have stays : ((explorer.attempt first.1 first.2).1.table table).names.Nodup := by
        rw [table_attempt]
        split
        next => exact Registry.nodup_names_register h _
        next => exact h
      exact ih stays

/-- Nothing is registered yet. -/
def Blank (explorer : Explorer) : Prop := ∀ table, (explorer.table table).actions = []

theorem Blank.get?_after (blank : explorer.Blank) (history : History) (table : Option String)
    (name : String) : ((explorer.after history).table table).get? name =
      ((history.first? table name).map (Origin.mk table)).bind (history.made? name) := by
  rw [get?_table_after, Registry.get?, blank table, History.findSome?_eq_made?, Option.bind_map]
  rfl

/-- What a name means to a source is where it comes from. -/
theorem Blank.resolve_after (blank : explorer.Blank) (history : History) (source name : String) :
    (explorer.after history).resolve source name =
      (history.origin? source name).bind (history.made? name) := by
  unfold resolve Registry.resolve History.origin?
  rw [blank.get?_after, blank.get?_after]
  cases first : history.first? (some source) name with
  | none => simp
  | some index =>
      -- What was made first is there, so the shared table is not asked.
      obtain ⟨action, made⟩ := Option.isSome_iff_exists.mp (History.made?_isSome first)
      simp [made]

end Explorer

/-! ## What names mean over a history -/

/-- **Resolution follows the history.** At first nothing is registered; then registrations are tried in any
order, for any tables and by anybody. -/
theorem resolution_follows_history {explorer : Explorer} (blank : explorer.Blank)
    (history later : History) (source name : String) :
    let now := explorer.after history
    let afterwards := explorer.after (history ++ later)
    let was := history.origin? source name
    let is := (history ++ later).origin? source name
    -- The action is that of the first registration for the source's own table, or else for the shared one.
    now.resolve source name = was.bind (history.made? name) ∧
    -- It is the one of that name in the merged table, which has every name once.
    (now.merged source).find? (fun action => action.name = name) = now.resolve source name ∧
    ((now.merged source).map (·.name)).Nodup ∧
    -- It may appear, or give way to an own one of the source, and otherwise stays; an own one stays for ever.
    (was = none ∨ is = was ∨ ∃ index own, was = some ⟨none, index⟩ ∧ is = some ⟨some source, own⟩) ∧
    (∀ own, was = some ⟨some source, own⟩ →
      is = was ∧ afterwards.resolve source name = now.resolve source name) ∧
    ∀ who attempt,
      -- What is registered for another source makes no difference.
      (∀ other, attempt.table = some other → other ≠ source →
        (now.attempt who attempt).1.resolve source name = now.resolve source name) ∧
      -- An attempt is refused if it cannot be declared or comes too late, and then nothing changes.
      ((∃ failure, (now.attempt who attempt).2 = .error failure) ↔
        (∃ failure, attempt.registration.action = .error failure) ∨
          (history.first? attempt.table attempt.registration.name).isSome) ∧
      ∀ failure, (now.attempt who attempt).2 = .error failure → (now.attempt who attempt).1 = now := by
  intro now afterwards was is
  have found : now.resolve source name = was.bind (history.made? name) :=
    blank.resolve_after history source name
  have nodup (table : Option String) : (now.table table).names.Nodup := by
    refine Explorer.nodup_names_after ?_ history
    rw [Registry.names, blank table]
    exact List.nodup_nil
  refine ⟨found, Registry.resolve_eq_find?_merged .., Registry.nodup_names_merged (nodup _) (nodup _),
    History.origin?_append_cases history later source name, fun own made => ?_,
    fun who attempt => ⟨fun other table different => ?_, ?_, fun _ => Explorer.attempt_of_refused⟩⟩
  · have first := History.first?_of_origin?_own made
    have still : is = was :=
      (History.origin?_of_own (History.first?_append_of_some first later)).trans made.symm
    refine ⟨still, ?_⟩
    calc afterwards.resolve source name
        = is.bind ((history ++ later).made? name) := blank.resolve_after (history ++ later) source name
      _ = (history ++ later).made? name ⟨some source, own⟩ := by rw [still, made, Option.bind_some]
      _ = history.made? name ⟨some source, own⟩ := History.made?_append first later
      _ = now.resolve source name := by rw [found, made, Option.bind_some]
  · have elsewhere : attempt.table ≠ some source := by
      rw [table]
      exact fun same => different (Option.some.inj same)
    have unshared : attempt.table ≠ none := by simp [table]
    simp only [Explorer.resolve, Explorer.table_attempt, elsewhere, unshared, ↓reduceIte]
  · rw [Explorer.refused_attempt_iff, Registry.refused_register_iff, blank.get?_after]
    cases first : history.first? attempt.table attempt.registration.name with
    | none => simp
    | some index => simp [History.made?_isSome first]

/-- A source's own `open` behind a shared one, and another shared one that comes too late. -/
def shadowing : History :=
  [(none, .direct none { name := "open", description := "shared" }),
    (some 0, .direct none { name := "open", description := "too late" }),
    (none, .decorating (some "files") "open" "own" {} {})]

/-- The source `files` passes from the shared action to its own one, and keeps that. -/
theorem resolution_follows_history_of_shadowing :
    let later : History := [(none, .direct (some "files") { name := "open" })]
    (History.origin? (shadowing.take 2) "files" "open" = some ⟨none, 0⟩) ∧
      shadowing.origin? "files" "open" = some ⟨some "files", 2⟩ ∧
      (shadowing ++ later).origin? "files" "open" = some ⟨some "files", 2⟩ ∧
      ((({} : Explorer).after (shadowing ++ later)).resolve "files" "open").map (·.description) = some "own" ∧
      ((({} : Explorer).after (shadowing ++ later)).resolve "other" "open").map (·.description) =
        some "shared" := by
  intro later
  have blank : ({} : Explorer).Blank := by
    intro table
    cases table <;> rfl
  obtain ⟨-, -, -, -, stays, -⟩ := resolution_follows_history blank shadowing later "files" "open"
  obtain ⟨same, resolves⟩ := stays 2 rfl
  refine ⟨rfl, rfl, same.trans rfl, ?_, rfl⟩
  rw [resolves]
  rfl

end ActionFlow

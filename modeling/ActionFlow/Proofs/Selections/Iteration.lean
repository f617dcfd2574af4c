import ActionFlow.Proofs.Selections.Tables

/-!
# Going through a selection

A loop over a selection goes through the things that are inside when it starts. While it goes on, its body and
anybody else may do to the selection what they like: the loop has its row of things for itself, so it meets
each of them once and in order, whether it is still inside or not, and none that came in meanwhile. What is
done on the way is a history like any other. All of this is the same for a selection and for the table in which
it is kept.

## Main results

* `Loop.run_visits`: what a loop has visited and what is to come are the row that it started with.
* `Loop.exists_run`: a loop with a body of its own is a run up to the end.
* `Selection.forEach_discard`, `Selection.forEach_readd`: emptying a selection, and turning it over once.
* `Table.forEach_discard`, `Table.forEach_readd`: the same for tables.
* `selection_keeps_insertions`: the table of a selection over its whole history, and loops over it.
-/

namespace ActionFlow

/-! ## Loops -/

/-- A loop over what is held, as it stands. -/
structure Loop (α σ : Type) where
  visited : List α := []
  coming : List α
  held : σ

/-- A move while a loop is on: the loop visits its next thing, or something is done to what is held. -/
inductive Loop.Move (α : Type) where
  | next
  | handle (handling : Handling α)

namespace Loop

variable {α σ : Type} (handle : σ → Handling α → σ)

/-- What was done to what is held, among some moves. -/
def handlings (moves : List (Move α)) : List (Handling α) :=
  moves.filterMap fun
    | .next => none
    | .handle handling => some handling

/-- Makes a move; a loop that is over has no next thing. -/
def move (loop : Loop α σ) : Move α → Loop α σ
  | .next =>
      match loop.coming with
      | [] => loop
      | x :: rest => { loop with visited := loop.visited ++ [x], coming := rest }
  | .handle handling => { loop with held := handle loop.held handling }

/-- Makes moves one after the other. -/
def run (loop : Loop α σ) (moves : List (Move α)) : Loop α σ := moves.foldl (move handle) loop

theorem run_append (loop : Loop α σ) (moves later : List (Move α)) :
    loop.run handle (moves ++ later) = (loop.run handle moves).run handle later := List.foldl_append

theorem move_visits (loop : Loop α σ) (move : Move α) :
    (loop.move handle move).visited ++ (loop.move handle move).coming = loop.visited ++ loop.coming := by
  cases move with
  | next => cases h : loop.coming <;> simp [Loop.move, h]
  | handle handling => rfl

/-- **A loop visits what it started with**, whatever is done to the rest meanwhile. -/
theorem run_visits (loop : Loop α σ) (moves : List (Move α)) :
    (loop.run handle moves).visited ++ (loop.run handle moves).coming = loop.visited ++ loop.coming := by
  induction moves generalizing loop with
  | nil => rfl
  | cons first rest ih => exact (ih (loop.move handle first)).trans (move_visits handle loop first)

/-- Visiting makes no difference to what is held. -/
theorem run_held (loop : Loop α σ) (moves : List (Move α)) :
    (loop.run handle moves).held = (handlings moves).foldl handle loop.held := by
  induction moves generalizing loop with
  | nil => rfl
  | cons first rest ih =>
      refine (ih (loop.move handle first)).trans ?_
      cases first with
      | next => cases h : loop.coming <;> simp [Loop.move, h, handlings]
      | handle handling => rfl

/-- Doing something to what is held leaves the loop where it is. -/
theorem run_handle (loop : Loop α σ) (history : List (Handling α)) :
    loop.run handle (history.map .handle) = { loop with held := history.foldl handle loop.held } := by
  induction history generalizing loop with
  | nil => rfl
  | cons first rest ih => exact ih (loop.move handle (.handle first))

/-- **A loop with a body** is a run up to the end. -/
theorem exists_run (body : α → σ → List (Handling α)) (visited coming : List α) (held : σ) :
    ∃ moves, run handle { visited, coming, held } moves =
      { visited := visited ++ coming
        coming := []
        held := coming.foldl (fun now x => (body x now).foldl handle now) held } := by
  induction coming generalizing visited held with
  | nil => exact ⟨[], by rw [List.append_nil]; rfl⟩
  | cons x rest ih =>
      obtain ⟨moves, further⟩ := ih (visited ++ [x]) ((body x held).foldl handle held)
      refine ⟨.next :: (body x held).map .handle ++ moves, ?_⟩
      calc run handle { visited, coming := x :: rest, held } (.next :: (body x held).map .handle ++ moves)
          = (run handle { visited := visited ++ [x], coming := rest, held }
              ((body x held).map .handle)).run handle moves := run_append ..
        _ = _ := by rw [run_handle, further, List.append_assoc]; rfl

end Loop

/-! ## Two loops -/

namespace Selection

variable {α : Type} [DecidableEq α]

theorem foldl_discard_items (xs : List α) (selection : Selection α) :
    (xs.foldl discard selection).items = selection.items.filter (· ∉ xs) := by
  induction xs generalizing selection with
  | nil => exact (List.filter_eq_self.mpr fun _ _ => rfl).symm
  | cons x rest ih =>
      rw [List.foldl_cons, ih, discard, List.filter_filter]
      apply List.filter_congr
      intro y _
      simp [Bool.and_comm]

/-- **Discarding whatever is visited** empties a selection. -/
theorem forEach_discard (selection : Selection α) :
    (selection.forEach fun x now => now.discard x) = (selection.items, {}) := by
  have emptied : (selection.items.foldl discard selection).items = [] := by
    rw [foldl_discard_items]
    simp
  exact Prod.ext rfl (congrArg Selection.mk emptied)

/-- Who stands first and is discarded and added again stands last. -/
theorem readd_first {x : α} {rest : List α} (h : (x :: rest).Nodup) :
    (discard ⟨x :: rest⟩ x).add x = ⟨rest ++ [x]⟩ := by
  obtain ⟨absent, -⟩ := List.nodup_cons.mp h
  have others : (x :: rest).filter (· ≠ x) = rest := by
    rw [List.filter_cons_of_neg (by simp), List.filter_eq_self]
    intro y inside
    simpa using fun same : y = x => absent (same ▸ inside)
  rw [discard, add, others, if_neg absent]

theorem foldl_readd (xs ys : List α) (h : (xs ++ ys).Nodup) :
    xs.foldl (fun now x => (now.discard x).add x) ⟨xs ++ ys⟩ = (⟨ys ++ xs⟩ : Selection α) := by
  induction xs generalizing ys with
  | nil => simp
  | cons x rest ih =>
      rw [List.cons_append] at h ⊢
      have turned : (rest ++ (ys ++ [x])).Nodup := by
        rw [← List.append_assoc]
        exact (List.perm_append_singleton x (rest ++ ys)).nodup_iff.mpr h
      rw [List.foldl_cons, readd_first h, List.append_assoc, ih _ turned, List.append_assoc]
      rfl

/-- **Discarding and adding again whatever is visited** leaves everybody in his place. -/
theorem forEach_readd {selection : Selection α} (h : selection.items.Nodup) :
    (selection.forEach fun x now => (now.discard x).add x) = (selection.items, selection) := by
  have turned := foldl_readd selection.items [] (by rwa [List.append_nil])
  rw [List.append_nil, List.nil_append] at turned
  exact Prod.ext rfl turned

end Selection

namespace Table

variable {α κ : Type} [DecidableEq α] [DecidableEq κ] {identity : α → κ} {selection : Selection α}

/-- Doing the same to one thing after the other, in a table as in its selection. -/
theorem foldl_tableOf (kept : (tableOf identity selection).Kept identity) (each : α → List (Handling α))
    (own : ∀ x, ∀ handling ∈ each x, ∀ y ∈ handling.thing?, y = x) :
    (tableOf identity selection).values.foldl (fun now x => now.after identity (each x))
        (tableOf identity selection) =
      tableOf identity (selection.items.foldl (fun now x => now.after (each x)) selection) := by
  have apart : (tableOf identity selection).ToldApart identity (selection.items.flatMap each) := by
    refine toldApart_of_injective (fun x y hx hy => kept.eq_of_identity hx hy) (fun _ inside => inside) ?_
    intro handling inside y thing
    obtain ⟨x, there, inside⟩ := List.mem_flatMap.mp inside
    rw [own x handling inside y thing, values_tableOf]
    exact there
  have whole := after_tableOf apart
  rw [Table.after, Selection.after, List.foldl_flatMap, List.foldl_flatMap] at whole
  rw [values_tableOf]
  exact whole

/-- **Discarding whatever is visited** empties the table of a selection. -/
theorem forEach_discard (kept : (tableOf identity selection).Kept identity) :
    ((tableOf identity selection).forEach fun x now => now.pop (identity x)) = (selection.items, []) := by
  have emptied := foldl_tableOf kept (fun x => [.discard x]) (by simp [Handling.thing?])
  refine Prod.ext (values_tableOf selection) (emptied.trans ?_)
  exact congrArg (tableOf identity) (congrArg Prod.snd (Selection.forEach_discard selection))

/-- **Discarding and adding again whatever is visited** leaves the table of a selection as it is. -/
theorem forEach_readd (kept : (tableOf identity selection).Kept identity) (h : selection.items.Nodup) :
    ((tableOf identity selection).forEach fun x now => keepLast identity (now.pop (identity x)) x) =
      (selection.items, tableOf identity selection) := by
  have turned := foldl_tableOf kept (fun x => [.discard x, .add x]) (by simp [Handling.thing?])
  refine Prod.ext (values_tableOf selection) (turned.trans ?_)
  exact congrArg (tableOf identity) (congrArg Prod.snd (Selection.forEach_readd h))

end Table

/-! ## Selections over their whole history -/

open Selection in
/-- What a table holds after a history, and how it answers: whatever was put in and not taken out since, each
thing once and under its own identity, in the order in which the things came in the last time. -/
structure Table.Holds {α κ : Type} [DecidableEq κ] (identity : α → κ) (history : List (Handling α))
    (table : Table κ α) : Prop where
  kept : table.Kept identity
  mem_iff : ∀ x, x ∈ table.values ↔ Inside history x
  cameIn : ∀ x ∈ table.values, ∃! index, CameIn history x index
  inOrder : table.values.Pairwise fun x y => ∀ i j, CameIn history x i → CameIn history y j → i < j
  nodup : table.values.Nodup
  has_iff : ∀ x, table.Tells identity x → (table.has identity x = true ↔ Inside history x)
  size_eq : table.size = table.values.length
  holdsAny_iff : table.holdsAny = true ↔ ∃ x, Inside history x

namespace Table

variable {α κ : Type} [DecidableEq α] [DecidableEq κ] {identity : α → κ} {history : List (Handling α)}

/-- **What a table holds** can be told from its history. -/
theorem holds_after (apart : ToldApart identity [] history) :
    (after identity [] history).Holds identity history := by
  have same : after identity [] history = tableOf identity (Selection.after {} history) :=
    @after_tableOf _ _ _ _ identity {} history apart
  have values : (after identity [] history).values = (Selection.after {} history).items := by
    rw [same, values_tableOf]
  have mem_iff : ∀ x, x ∈ (after identity [] history).values ↔ Selection.Inside history x := fun x => by
    rw [values, Selection.mem_after_iff]
  refine ⟨kept_nil.after history, mem_iff, fun x inside => ?_, ?_, ?_, fun x told => ?_,
    (List.length_map _).symm, ?_⟩
  · exact Selection.existsUnique_cameIn ((mem_iff x).mp inside)
  · exact values ▸ Selection.pairwise_cameIn history
  · exact values ▸ Selection.nodup_items_after history
  · rw [same] at told ⊢
    rw [has_tableOf told, Selection.contains, decide_eq_true_iff, Selection.mem_after_iff]
  · rw [holdsAny, Bool.not_eq_true', List.isEmpty_eq_false_iff_exists_mem]
    constructor
    · rintro ⟨entry, there⟩
      exact ⟨entry.2, (mem_iff _).mp (List.mem_map_of_mem there)⟩
    · rintro ⟨x, inside⟩
      obtain ⟨entry, there, -⟩ := List.mem_map.mp ((mem_iff x).mpr inside)
      exact ⟨entry, there⟩

end Table

open Selection in
/-- **A selection keeps its insertions in their order.** It is kept in a table, by identities that tell apart
what is there together. It starts with the things of a list, and then things are added, discarded and cleared
in any order. The table is that of the selection all the time, and answers what the selection answers. Inside
is what was put in and not taken out since, each thing once, in the order in which they came in the last time.
A thing that is there is not moved by adding it again, and what is done to one thing is nothing to another,
however alike they look. A loop visits what was inside at its start, each thing once and in order, whatever is
done meanwhile, and leaves what that makes of the table. -/
theorem selection_keeps_insertions {α κ : Type} [DecidableEq α] [DecidableEq κ] (identity : α → κ)
    (first : List α) (history : List (Handling α))
    (apart : Table.ToldApart identity [] (first.map .add ++ history)) :
    let now := (ofList first).after history
    let table := (Table.ofList identity first).after identity history
    -- What is inside, and in which order.
    table.Holds identity (first.map .add ++ history) ∧
    -- The table and the selection.
    table = tableOf identity now ∧ table.values = now.items ∧ table.size = now.size ∧
    (∀ x, table.Tells identity x → table.has identity x = now.contains x) ∧
    (∀ handling : Handling α, (∀ x ∈ handling.thing?, table.Tells identity x) →
      table.handle identity handling = tableOf identity (now.handle handling)) ∧
    -- What one more thing done to it changes.
    (∀ x, table.Tells identity x →
      (table.handle identity (.add x)).values =
        (if x ∈ table.values then table.values else table.values ++ [x]) ∧
      (table.handle identity (.discard x)).values = table.values.erase x ∧
      ∀ y, y ≠ x → (y ∈ (table.handle identity (.add x)).values ↔ y ∈ table.values) ∧
        (y ∈ (table.handle identity (.discard x)).values ↔ y ∈ table.values)) ∧
    table.handle identity .clear = [] ∧
    -- Going through it.
    (∀ moves,
      let loop := (Loop.mk [] table.values table).run (Table.handle identity) moves
      loop.visited ++ loop.coming = table.values ∧
        loop.held = table.after identity (Loop.handlings moves) ∧
        (table.ToldApart identity (Loop.handlings moves) →
          loop.held = tableOf identity (now.after (Loop.handlings moves)))) ∧
    (∀ body : α → Table κ α → List (Handling α),
      let through := table.forEach fun x held => held.after identity (body x held)
      through.1 = table.values ∧ ∃ moves,
        (Loop.mk [] table.values table).run (Table.handle identity) moves = ⟨table.values, [], through.2⟩) ∧
    (table.forEach fun x held => held.handle identity (.discard x)) = (table.values, []) ∧
    (table.forEach fun x held => (held.handle identity (.discard x)).handle identity (.add x)) =
      (table.values, table) ∧
    (∀ body, (now.forEach body).1 = table.values) ∧
    (now.forEach fun x selection => selection.discard x) = (table.values, {}) ∧
    (now.forEach fun x selection => (selection.discard x).add x) = (table.values, now) := by
  intro now table
  -- The whole history is that of a table, and of a selection, that are empty at first.
  have now_eq : now = after {} (first.map .add ++ history) := by rw [after_append, ← ofList_eq_after]
  have table_eq : table = Table.after identity [] (first.map .add ++ history) := by
    rw [Table.after_append, ← Table.ofList_eq_after]
  have same : table = tableOf identity now := by
    rw [table_eq, now_eq]
    exact @Table.after_tableOf _ _ _ _ identity {} _ apart
  have holds : table.Holds identity (first.map .add ++ history) := table_eq ▸ Table.holds_after apart
  have nodup : now.items.Nodup := now_eq ▸ nodup_items_after _
  clear_value table
  subst same
  have values := @Table.values_tableOf _ _ identity now
  have handled : ∀ handling : Handling α, (∀ x ∈ handling.thing?, (tableOf identity now).Tells identity x) →
      ((tableOf identity now).handle identity handling).values = (now.handle handling).items :=
    fun handling told => by rw [Table.handle_tableOf told, Table.values_tableOf]
  refine ⟨holds, rfl, values, List.length_map _, fun x => Table.has_tableOf, fun _ => Table.handle_tableOf,
    fun x told => ?_, rfl, fun moves => ⟨Loop.run_visits .., Loop.run_held .., fun apart => ?_⟩,
    fun body => ⟨rfl, Loop.exists_run (Table.handle identity) body [] _ _⟩, ?_, ?_, fun _ => values.symm, ?_, ?_⟩
  · have added := handled (.add x) fun y here => Option.some.inj here ▸ told
    have discarded := handled (.discard x) fun y here => Option.some.inj here ▸ told
    rw [added, discarded, values]
    refine ⟨add_items now x, discard_items nodup x, fun y other => ⟨?_, ?_⟩⟩
    · simp [mem_handle_iff, Handling.TakesOut, other.symm]
    · simp [mem_handle_iff, Handling.TakesOut, other]
  · exact (Loop.run_held ..).trans (Table.after_tableOf apart)
  · rw [values]
    exact Table.forEach_discard holds.kept
  · rw [values]
    exact Table.forEach_readd holds.kept nodup
  · rw [values]
    exact forEach_discard now
  · rw [values]
    exact forEach_readd nodup

open Selection in
/-- Two things look alike. One of them goes out and comes in again, behind a third thing; the other one is added
twice and stays where it is, and then it goes, too. A fourth one comes in that has got the same identity. A
loop visits the three that are in the table, although it is cleared at once, and something is added. -/
theorem selection_keeps_insertions_of_alike :
    let identity : Nat × String → Nat := fun thing => thing.1 % 4
    let first : List (Nat × String) := [(0, "a"), (1, "a"), (2, "b")]
    let history : List (Handling (Nat × String)) := [.discard (0, "a"), .add (1, "a"), .add (0, "a"),
      .discard (1, "a"), .add (5, "a"), .discard (3, "b"), .add (2, "b")]
    let table := (Table.ofList identity first).after identity history
    let moves := [.next, .handle .clear, .next, .handle (.add (1, "a")), .next]
    let loop := (Loop.mk [] table.values table).run (Table.handle identity) moves
    Table.ToldApart identity [] (first.map .add ++ history) ∧
      table = [(2, (2, "b")), (0, (0, "a")), (1, (5, "a"))] ∧
      Inside (first.map .add ++ history) (5, "a") ∧ ¬Inside (first.map .add ++ history) (1, "a") ∧
      (∀ i j, CameIn (first.map .add ++ history) (2, "b") i →
        CameIn (first.map .add ++ history) (0, "a") j → i < j) ∧
      loop.visited ++ loop.coming = [(2, "b"), (0, "a"), (5, "a")] ∧ loop.held = [(1, (1, "a"))] ∧
      (table.forEach fun x held => (held.handle identity (.discard x)).handle identity (.add x)) =
        (table.values, table) := by
  intro identity first history table moves loop
  have apart : Table.ToldApart identity [] (first.map .add ++ history) := by decide
  have whole : table = [(2, (2, "b")), (0, (0, "a")), (1, (5, "a"))] := by decide
  obtain ⟨holds, -, -, -, -, -, -, -, loops, -, -, turned, -⟩ :=
    selection_keeps_insertions identity first history apart
  obtain ⟨visits, held, -⟩ := loops moves
  change table.Holds identity _ at holds
  change loop.visited ++ loop.coming = table.values at visits
  change loop.held = table.after identity (Loop.handlings moves) at held
  refine ⟨apart, whole, (holds.mem_iff (5, "a")).mp (whole ▸ by decide),
    mt (holds.mem_iff (1, "a")).mpr (whole ▸ by decide), ?_, visits.trans (whole ▸ rfl),
    held.trans (whole ▸ rfl), turned⟩
  have ordered := holds.inOrder
  rw [whole] at ordered
  exact (List.pairwise_cons.mp ordered).1 (0, "a") (by decide)

end ActionFlow

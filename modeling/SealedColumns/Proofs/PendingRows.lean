import SealedColumns.Proofs.Buffered
import SealedColumns.Proofs.ColumnIndex
import SealedColumns.Proofs.Stream

/-!
The rows that wait on the handle of a buffering client. They come from one execution, under the
columns that are kept with them, and each has a value for each column; fetches only take rows
away. The count stays behind when rows are fetched or given up, so there are never more rows than
it says. All rows that are fetched at once are counted anew.
-/

namespace SealedColumns

open Sql (Bindings Cell)

variable {database : Type}

/-! The rows of one execution. -/

/-- Rows under the names, with a value for each, counted as they came. -/
structure ResultSet.Whole (names : List String) (results : ResultSet) : Prop where
  header_eq : results.header = some (.ofNames names)
  rows : ∀ row ∈ results.rows,
    row.header = .ofNames names ∧ row.values.length = names.length
  affected_eq : results.affected = results.rows.length

theorem ResultSet.whole_setNames (names : List String) :
    (ResultSet.empty.setNames names).Whole names where
  header_eq := rfl
  rows := nofun
  affected_eq := rfl

theorem ResultSet.Whole.addValues {names : List String} {results : ResultSet}
    (whole : results.Whole names) {values : List Value} (wide : values.length = names.length) :
    (results.addValues values).Whole names := by
  constructor
  · exact (header_addValues results values).trans whole.header_eq
  · intro row member
    rcases mem_rows_addValues member with old | ⟨header, shared, rfl⟩
    · exact whole.rows row old
    · cases whole.header_eq.symm.trans shared
      exact ⟨rfl, wide⟩
  · simp [ResultSet.addValues, whole.header_eq, whole.affected_eq]

namespace Engine

/-- A query gives a cell for each column that the statement was prepared with. -/
def FillsRows (engine : Engine database) : Prop :=
  ∀ {db left last : database} {sql : String} {names : List String} {bindings : Bindings}
    {rows : List (Except EngineFault (List Cell))},
    engine.prepare db sql = (.ok names, left) → engine.query left sql bindings = (.ok rows, last) →
      ∀ cells, .ok cells ∈ rows → cells.length = names.length

theorem whole_gather {names : List String} {results gathered : ResultSet}
    {rows : List (Except EngineFault (List Cell))} (whole : results.Whole names)
    (wide : ∀ cells, .ok cells ∈ rows → cells.length = names.length)
    (done : gather results rows = .ok gathered) : gathered.Whole names := by
  fun_induction gather results rows with
  | case1 results =>
      cases done
      exact whole
  | case2 => contradiction
  | case3 results cells rest ih =>
      have filled : (cells.map Cell.toValue).length = names.length := by
        rw [List.length_map]
        exact wide cells List.mem_cons_self
      exact ih (whole.addValues filled)
        (fun later member => wide later (List.mem_cons_of_mem _ member)) done

/-- The handle once a statement is done: it holds the rows of a query, or none. -/
theorem executed_of_ok {engine : Engine database} {db last : database}
    {handle after : BufferedHandle} {params : Parameters} {answer : Bool}
    (fills : engine.FillsRows)
    (done : engine.executeHandle db handle params = (.ok answer, after, last)) :
    after.pending = [] ∨ ∃ names results, ResultSet.Whole names results
      ∧ after = ⟨handle.sql, results.names?, results.rows, results.affected⟩ := by
  unfold executeHandle at done
  cases bound : Bindings.ofParams params with
  | error fault => simp [bound] at done
  | ok bindings =>
      rw [bound] at done
      cases prepared : engine.prepare db handle.sql with
      | mk reply left =>
          rw [prepared] at done
          cases reply with
          | error fault => simp at done
          | ok names =>
              cases names with
              | nil =>
                  dsimp only at done
                  split at done
                  · simp at done
                  · cases done
                    exact Or.inl rfl
              | cons name rest =>
                  cases queried : engine.query left handle.sql bindings with
                  | mk reply last =>
                      dsimp only at done
                      rw [queried] at done
                      cases reply with
                      | error fault => simp at done
                      | ok rows =>
                          dsimp only at done
                          split at done
                          · simp at done
                          · next results read =>
                            cases done
                            have whole := whole_gather (ResultSet.whole_setNames _)
                              (fills prepared queried) read
                            exact Or.inr ⟨name :: rest, results, whole, rfl⟩

/-- An engine of fixed rows fills them if they are as wide as its columns. -/
theorem fillsRows_answering {names : List String} {rows : List (List Cell)}
    (wide : ∀ cells ∈ rows, cells.length = names.length) : (answering names rows).FillsRows := by
  intro _ _ _ _ prepared bindings given asked queried cells member
  cases asked
  have same : given = rows.map .ok := by
    simp only [answering] at queried
    split at queried <;> cases queried
    rfl
  rw [same] at member
  obtain ⟨kept, inside, answered⟩ := List.mem_map.mp member
  cases answered
  exact wide _ inside

end Engine

/-! The handle. -/

namespace BufferedHandle

/-- Waiting rows bear the names that are kept with them and have a value for each, and no more
    of them wait than were counted. -/
structure Consistent (handle : BufferedHandle) : Prop where
  whole : handle.pending ≠ [] → ∃ names, handle.columns = some names ∧ ∀ row ∈ handle.pending,
    row.header = .ofNames names ∧ row.values.length = names.length
  counted : handle.pending.length ≤ handle.affected

theorem consistent_of_drained {handle : BufferedHandle} (drained : handle.pending = []) :
    handle.Consistent where
  whole waiting := absurd drained waiting
  counted := by rw [drained]; exact Nat.zero_le _

theorem consistent_of_whole {names : List String} {results : ResultSet}
    (whole : results.Whole names) (sql : String) :
    Consistent ⟨sql, results.names?, results.rows, results.affected⟩ where
  whole _ := ⟨names, congrArg (Option.map Header.names) whole.header_eq, whole.rows⟩
  counted := Nat.le_of_eq whole.affected_eq.symm

theorem Consistent.execute {engine : Engine database} {handle : BufferedHandle}
    (fills : engine.FillsRows) (before : handle.Consistent) (db : database) (params : Parameters) :
    (engine.client.execute db handle params).2.1.Consistent := by
  have executes := engine.executes db handle params
  cases outcome : engine.client.execute db handle params with
  | mk reply rest =>
      rw [outcome] at executes
      cases reply with
      | error cause =>
          rw [executes.of_error]
          cases engine.begun? db handle params with
          | none => exact before
          | some names => exact consistent_of_drained rfl
      | ok answer =>
          rcases Engine.executed_of_ok fills outcome with drained | ⟨names, results, whole, same⟩
          · exact consistent_of_drained drained
          · rw [same]
            exact consistent_of_whole whole handle.sql

theorem Consistent.fetch {handle : BufferedHandle} (before : handle.Consistent) :
    handle.fetch.2.Consistent := by
  rw [fetch_eq]
  constructor
  · intro waiting
    have waited : handle.pending ≠ [] := fun drained => waiting (congrArg List.tail drained)
    obtain ⟨names, kept, rows⟩ := before.whole waited
    exact ⟨names, kept, fun row member => rows row (List.mem_of_mem_tail member)⟩
  · exact Nat.le_trans (by simp) before.counted

theorem Reachable.consistent {engine : Engine database} (fills : engine.FillsRows)
    {handle : BufferedHandle} (reachable : handle.Reachable engine) : handle.Consistent := by
  induction reachable with
  | @prepared db sql handle done =>
      change (engine.prepareHandle db sql).1 = _ at done
      unfold Engine.prepareHandle at done
      split at done
      · contradiction
      · cases done
        exact consistent_of_drained rfl
  | executed db params _ ih => exact ih.execute fills db params
  | fetched _ _ ih => exact ih.fetch
  | fetchedRest => exact consistent_of_drained rfl

end BufferedHandle

/-! All waiting rows at once. -/

theorem ResultSet.affected_foldl_addRow (results : ResultSet) (rows : List Row) :
    (rows.foldl addRow results).affected = results.affected + rows.length := by
  induction rows generalizing results with
  | nil => rfl
  | cons row rest ih =>
      rw [List.foldl_cons, ih, addRow, List.length_cons, Nat.add_right_comm, Nat.add_assoc]

theorem BufferedHandle.affected_fetchRest (handle : BufferedHandle) :
    handle.fetchRest.1.affected = handle.pending.length := by
  unfold fetchRest
  rw [ResultSet.affected_foldl_addRow]
  cases handle.columns <;> exact Nat.zero_add _

/-- Whatever the engine answers, rows that wait bear the names that are kept with them, have a value
    for each, and are indexed by the last place of each name; no more wait than were counted. Fetched
    at once, they are those rows in order and counted. -/
theorem BufferedHandle.Reachable.rows_whole {engine : Engine database} (fills : engine.FillsRows)
    {handle : BufferedHandle} (reachable : handle.Reachable engine) :
    (handle.pending ≠ [] → ∃ names, handle.columns = some names ∧ ∀ row ∈ handle.pending,
      row.header.names = names ∧ row.values.length = names.length
        ∧ ∀ name position, lastPosition? name row.header.indexed = some position ↔
          LastColumn name names position)
    ∧ handle.pending.length ≤ handle.affected
    ∧ ∀ db, ∃ results, (engine.client.fetchRest db handle).1 = .ok results
      ∧ results.rows = handle.pending ∧ results.affected = handle.pending.length := by
  have consistent := reachable.consistent fills
  refine ⟨fun waiting => ?_, consistent.counted, fun db => ?_⟩
  · obtain ⟨names, kept, rows⟩ := consistent.whole waiting
    refine ⟨names, kept, fun row member => ?_⟩
    obtain ⟨bears, wide⟩ := rows row member
    rw [bears]
    exact ⟨rfl, wide, fun name position => lastColumn_iff⟩
  · exact ⟨_, rfl, handle.rows_fetchRest, handle.affected_fetchRest⟩

/-- Two columns of one name, and two rows of which one has been fetched. -/
def twins : Engine Unit := .answering ["id", "id"] [[.integer 1, .integer 2], [.integer 3, .integer 4]]

def halfFetched : BufferedHandle :=
  ⟨"SELECT id, id FROM t", some ["id", "id"], [.ofNames ["id", "id"] [.int 3, .int 4]], 2⟩

theorem halfFetched_rows_whole :
    twins.FillsRows ∧ halfFetched.Reachable twins
      ∧ (∃ names, halfFetched.columns = some names
        ∧ ∀ row ∈ halfFetched.pending, row.values.length = names.length)
      ∧ halfFetched.pending.length ≤ 2
      ∧ ∃ results, (twins.client.fetchRest () halfFetched).1 = .ok results
        ∧ results.rows = [.ofNames ["id", "id"] [.int 3, .int 4]] ∧ results.affected = 1 := by
  have fills : twins.FillsRows := Engine.fillsRows_answering (by decide)
  have reachable : halfFetched.Reachable twins :=
    .fetched () (.executed () .empty
      (.prepared (show (twins.client.prepare () "SELECT id, id FROM t").1 = .ok _ from rfl)))
  obtain ⟨whole, counted, together⟩ := reachable.rows_whole fills
  obtain ⟨names, kept, rows⟩ := whole (List.cons_ne_nil _ _)
  exact ⟨fills, reachable, ⟨names, kept, fun row member => (rows row member).2.1⟩, counted,
    together ()⟩

end SealedColumns

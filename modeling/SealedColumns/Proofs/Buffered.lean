import SealedColumns.Client.Buffered

/-!
What an execution makes of the handle of a buffering client. Nothing is touched as long
as the statement is not run: while parameters are converted and the engine prepares it.
Once it is run, the rows of the execution before are given up at once, and its columns
too if the statement yields none; the count is kept until the engine is done.
-/

namespace SealedColumns

open Sql (Bindings Cell)

variable {database : Type}

/-- The columns of the statement, if an execution gets as far as running it. -/
def Engine.begun? (engine : Engine database) (db : database) (handle : BufferedHandle)
    (params : Parameters) : Option (List String) :=
  match Bindings.ofParams params, (engine.prepare db handle.sql).1 with
  | .ok _, .ok names => some names
  | _, _ => none

namespace BufferedHandle

/-- What is left of an earlier execution once a statement with the columns is run. -/
def givenUp (handle : BufferedHandle) (names : List String) : BufferedHandle :=
  { handle with
    pending := []
    columns := if names = [] then none else handle.columns }

theorem givenUp_eq_iff (handle : BufferedHandle) (names : List String) :
    handle.givenUp names = handle ↔
      handle.pending = [] ∧ (names = [] → handle.columns = none) := by
  cases handle with
  | mk sql columns pending affected =>
      by_cases rowless : names = []
      · simp [givenUp, rowless, eq_comm, and_comm]
      · simp [givenUp, rowless, eq_comm]

/-- The four ways an execution can go, by what it makes of the handle. -/
inductive Executes (handle : BufferedHandle) (begun : Option (List String)) :
    Except Error Bool → BufferedHandle → Prop where
  | refused (cause : Error) (unbegun : begun = none) :
      Executes handle begun (.error cause) handle
  | broken (cause : Error) (names : List String) (run : begun = some names) :
      Executes handle begun (.error cause) (handle.givenUp names)
  | counted (count : Nat) (run : begun = some []) :
      Executes handle begun (.ok true) { handle.givenUp [] with affected := count }
  | gathered (names : List String) (results : ResultSet) (run : begun = some names)
      (named : results.names? = some names) :
      Executes handle begun (.ok true)
        ⟨handle.sql, results.names?, results.rows, results.affected⟩

end BufferedHandle

namespace Engine

theorem header_gather {results gathered : ResultSet}
    {rows : List (Except EngineFault (List Cell))} (done : gather results rows = .ok gathered) :
    gathered.header = results.header := by
  fun_induction gather results rows with
  | case1 results => cases done; rfl
  | case2 => contradiction
  | case3 results cells rest ih => rw [ih done, ResultSet.header_addValues]

theorem executes (engine : Engine database) (db : database) (handle : BufferedHandle)
    (params : Parameters) :
    handle.Executes (engine.begun? db handle params)
      (engine.client.execute db handle params).1
      (engine.client.execute db handle params).2.1 := by
  change handle.Executes _ (engine.executeHandle db handle params).1
    (engine.executeHandle db handle params).2.1
  unfold executeHandle begun?
  cases Bindings.ofParams params with
  | error fault => exact .refused _ rfl
  | ok bindings =>
      dsimp only
      cases engine.prepare db handle.sql with
      | mk answer left =>
          cases answer with
          | error fault => exact .refused _ rfl
          | ok names =>
              -- From here on the statement is run, and what was left before is given up.
              cases names with
              | nil =>
                  dsimp only
                  cases engine.execute left handle.sql bindings with
                  | mk answer after =>
                      cases answer with
                      | error fault => exact .broken _ [] rfl
                      | ok count => exact .counted count rfl
              | cons name rest =>
                  dsimp only
                  cases engine.query left handle.sql bindings with
                  | mk answer after =>
                      cases answer with
                      | error fault => exact .broken _ (name :: rest) rfl
                      | ok rows =>
                          dsimp only
                          cases read : gather (ResultSet.empty.setNames (name :: rest)) rows with
                          | error fault => exact .broken _ (name :: rest) rfl
                          | ok results =>
                              refine .gathered (name :: rest) results rfl ?_
                              rw [ResultSet.names?, header_gather read]
                              rfl

/-- An engine that knows one query, which has no parameters and gives fixed rows. -/
def answering (names : List String) (rows : List (List Cell)) : Engine Unit where
  prepare _ _ := (.ok names, ())
  execute _ _ _ := (.ok 0, ())
  query _ _ bindings :=
    match bindings.entries with
    | [] => (.ok (rows.map .ok), ())
    | (key, _) :: _ => (.error (.unknownParameter key), ())

end Engine

namespace BufferedHandle

/-- The handles that the operations of the client lead to, whatever the engine answers and
    whoever else changes the database. -/
inductive Reachable (engine : Engine database) : BufferedHandle → Prop where
  | prepared {db : database} {sql : String} {handle : BufferedHandle}
      (done : (engine.client.prepare db sql).1 = .ok handle) : Reachable engine handle
  | executed {handle : BufferedHandle} (db : database) (params : Parameters)
      (before : Reachable engine handle) :
      Reachable engine (engine.client.execute db handle params).2.1
  | fetched {handle : BufferedHandle} (db : database) (before : Reachable engine handle) :
      Reachable engine (engine.client.fetch db handle).2.1
  | fetchedRest {handle : BufferedHandle} (db : database) (before : Reachable engine handle) :
      Reachable engine (engine.client.fetchRest db handle).2.1

/-- Rows are only kept together with the names of their columns. -/
def Named (handle : BufferedHandle) : Prop := handle.columns = none → handle.pending = []

theorem Executes.named {handle after : BufferedHandle} {begun : Option (List String)}
    {result : Except Error Bool} (executes : handle.Executes begun result after)
    (named : handle.Named) : after.Named := by
  cases executes with
  | refused => exact named
  | broken | counted => exact fun _ => rfl
  | gathered names results run present =>
      intro absent
      rw [present] at absent
      contradiction

theorem Reachable.named {engine : Engine database} {handle : BufferedHandle}
    (reachable : handle.Reachable engine) : handle.Named := by
  induction reachable with
  | @prepared db sql handle done =>
      change (engine.prepareHandle db sql).1 = _ at done
      unfold Engine.prepareHandle at done
      split at done
      · contradiction
      · cases done
        exact fun _ => rfl
  | executed db params before ih => exact (engine.executes db _ params).named ih
  | @fetched handle db before ih =>
      -- A fetch leaves the columns alone and no more rows than there were.
      intro absent
      cases handle with
      | mk sql columns pending affected =>
          cases pending with
          | nil => rfl
          | cons row rest => exact absurd (ih absent) (List.cons_ne_nil row rest)
  | fetchedRest => exact fun _ => rfl

theorem Executes.of_error {handle after : BufferedHandle} {begun : Option (List String)}
    {cause : Error} (executes : handle.Executes begun (.error cause) after) :
    after = begun.elim handle handle.givenUp := by
  cases executes with
  | refused _ unbegun => rw [unbegun]; rfl
  | broken _ names run => rw [run]; rfl

/-- An execution that fails keeps the count of the one before. It keeps the handle as it is
    exactly if the statement was not run, or there was nothing to give up; if the statement
    was run then there are no more rows to fetch, whatever the count says. -/
theorem failed_execution_keeps_handle_iff {engine : Engine database} {db : database}
    {handle : BufferedHandle} {params : Parameters} {cause : Error}
    (reachable : handle.Reachable engine)
    (failed : (engine.client.execute db handle params).1 = .error cause) :
    let after := (engine.client.execute db handle params).2.1
    (after = handle ↔ ∀ names, engine.begun? db handle params = some names →
        if names = [] then handle.columns = none else handle.pending = [])
      ∧ after.sql = handle.sql
      ∧ (∀ later, engine.client.affected later after = engine.client.affected later handle)
      ∧ ∀ names, engine.begun? db handle params = some names →
          after.columns = (if names = [] then none else handle.columns)
            ∧ ∀ later, (engine.client.fetch later after).1 = .ok none := by
  intro after
  have executes := engine.executes db handle params
  rw [failed] at executes
  have left : after = (engine.begun? db handle params).elim handle handle.givenUp :=
    executes.of_error
  cases begun : engine.begun? db handle params with
  | none =>
      rw [begun, Option.elim_none] at left
      simp [left]
  | some names =>
      rw [begun, Option.elim_some] at left
      have kept : after = handle ↔
          if names = [] then handle.columns = none else handle.pending = [] := by
        rw [left, givenUp_eq_iff]
        split
        · next rowless =>
            -- Without columns there were no rows either.
            exact ⟨fun same => same.2 rowless,
              fun absent => ⟨reachable.named absent, fun _ => absent⟩⟩
        · next columned =>
            exact ⟨fun same => same.1,
              fun drained => ⟨drained, fun rowless => absurd rowless columned⟩⟩
      refine ⟨?_, by rw [left]; rfl, fun later => by rw [left]; rfl, ?_⟩
      · rw [kept]
        constructor
        · rintro same _ ⟨⟩
          exact same
        · intro same
          exact same names rfl
      · rintro _ ⟨⟩
        rw [left]
        exact ⟨rfl, fun later => rfl⟩

/-- A handle that holds the one row of its last execution. -/
def holding : BufferedHandle :=
  ⟨"SELECT 1 AS a", some ["a"], [.ofNames ["a"] [.int 1]], 1⟩

def oneRow : Engine Unit := .answering ["a"] [[.integer 1]]

theorem reachable_holding : holding.Reachable oneRow :=
  .executed () .empty
    (.prepared (show (oneRow.client.prepare () "SELECT 1 AS a").1 = .ok _ from rfl))

def strayParameter : Parameters := NameMap.empty.insert "nope" (.int 1)

theorem strayParameter_gives_up_row :
    holding.Reachable oneRow
      ∧ oneRow.begun? () holding strayParameter = some ["a"]
      ∧ (oneRow.client.execute () holding strayParameter).2.1 ≠ holding := by
  refine ⟨reachable_holding, rfl, fun kept => ?_⟩
  have drained := (failed_execution_keeps_handle_iff reachable_holding
    (show (oneRow.client.execute () holding strayParameter).1 = .error _ from rfl)).1.mp
      kept ["a"] rfl
  simp [holding] at drained

/-- The row of the execution before is gone, and its count is still told. -/
theorem count_outlives_rows :
    holding.Reachable oneRow
      ∧ (oneRow.client.execute () holding strayParameter).1
          = .error (.engine (.unknownParameter ":nope"))
      ∧ (oneRow.client.fetch () holding).1 = .ok (some (.ofNames ["a"] [.int 1]))
      ∧ (oneRow.client.fetch ()
          (oneRow.client.execute () holding strayParameter).2.1).1 = .ok none
      ∧ oneRow.client.affected ()
          (oneRow.client.execute () holding strayParameter).2.1 = 1 :=
  ⟨reachable_holding, rfl, rfl, rfl, rfl⟩

end BufferedHandle

end SealedColumns

import SealedColumns.Statement

/-!
The operations on a prepared statement as data, and runs of them.
-/

namespace SealedColumns

inductive Operation where
  | encryptColumns (columns : List String) (cipher : Option Cipher)
  | withCipher (cipher : Option Cipher)
  | withLayout (layout : RowLayout)
  | execute (params : Parameters)
  | fetch (columns : Option (List String)) (layout : Option RowLayout)
  | fetchAs (columns : Option (List String))
  | fetchRest (columns : Option (List String)) (layout : Option RowLayout)
  | fetchRestAs
  | close

inductive Answer (α : Type) where
  | changed
  | executed (done : Bool)
  | row (row : Option ShapedRow)
  | read (read : Option α)
  | rows (rows : RowSet)
  | reads (reads : List α)

namespace Statement

variable {state handle α β : Type}

def Step.map (f : α → β) (step : Step state handle α) : Step state handle β :=
  { step with result := step.result.map f }

def perform [OfRow α] (client : Client state handle) (world : World state)
    (statement : Statement handle) : Operation → Step state handle (Answer α)
  | .encryptColumns columns cipher =>
      ⟨.ok .changed, statement.encryptColumns columns cipher, world, []⟩
  | .withCipher cipher => ⟨.ok .changed, statement.withCipher cipher, world, []⟩
  | .withLayout layout => ⟨.ok .changed, statement.withLayout layout, world, []⟩
  | .execute params => (statement.execute client world params).map .executed
  | .fetch columns layout => (statement.fetch client world columns layout).map .row
  | .fetchAs columns => (statement.fetchAs client world columns).map .read
  | .fetchRest columns layout =>
      (statement.fetchRest client world columns layout).map .rows
  | .fetchRestAs => (statement.fetchRestAs client world).map .reads
  | .close => ⟨.ok .changed, statement.close, world, []⟩

/-- The steps of a run, each from what the one before left behind. -/
def run [OfRow α] (client : Client state handle) (world : World state)
    (statement : Statement handle) : List Operation → List (Step state handle (Answer α))
  | [] => []
  | operation :: rest =>
      let step := statement.perform client world operation
      step :: run client step.world step.statement rest

end Statement

end SealedColumns

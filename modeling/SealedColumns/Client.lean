import SealedColumns.Error
import SealedColumns.Parameters
import SealedColumns.Row.ResultSet

/-!
The database client below prepared statements. It has a state of its own and one
handle for each statement; a call may change both, whether it fails or not.
-/

namespace SealedColumns

structure Client (state handle : Type) where
  prepare : state → String → Except Error handle × state
  execute : state → handle → Parameters → Except Error Bool × handle × state
  fetch : state → handle → Except Error (Option Row) × handle × state
  fetchRest : state → handle → Except Error ResultSet × handle × state
  affected : state → handle → Nat

/-- Everything that statements share and change: the client's state and the number
    of the next draw. -/
structure World (state : Type) where
  client : state
  draws : Nat

end SealedColumns

import SealedColumns.Parameters

/-!
What an operation does besides giving its result, in order: the calls to cipher
and client and the events that are logged. Events tell counts and column names,
never a value.
-/

namespace SealedColumns

inductive Event where
  | preparing (placeholders renamed : Nat)
  | executing (params encrypted : Nat)
  | decrypted (column : String)
  | opened (path : String) (hasCipher : Bool)
  deriving DecidableEq

def Event.text : Event → String
  | .preparing placeholders renamed =>
      s!"DEBUG preparing statement placeholders={placeholders} rewritten={renamed}"
  | .executing params encrypted =>
      s!"DEBUG executing statement params={params} encrypted={encrypted}"
  | .decrypted column => "TRACE decrypted column column=" ++ column
  | .opened path hasCipher =>
      "DEBUG opened sqlite connection db_path=" ++ path ++ " cipher="
        ++ (if hasCipher then "true" else "false")

inductive CipherCall where
  | encrypt (plaintext : String)
  | decrypt (ciphertext : String)
  deriving DecidableEq

inductive ClientCall where
  | prepare (sql : String)
  | execute (params : Parameters)
  | fetch
  | fetchRest

inductive Action where
  | event (event : Event)
  | cipher (call : CipherCall)
  | client (call : ClientCall) (succeeded : Bool)

abbrev Trace := List Action

namespace Trace

def events (trace : Trace) : List Event :=
  trace.filterMap fun
    | .event event => some event
    | _ => none

def cipherCalls (trace : Trace) : List CipherCall :=
  trace.filterMap fun
    | .cipher call => some call
    | _ => none

def clientCalls (trace : Trace) : List ClientCall :=
  trace.filterMap fun
    | .client call _ => some call
    | _ => none

/-- The calls that the client answered without an error. -/
def answeredCalls (trace : Trace) : List ClientCall :=
  trace.filterMap fun
    | .client call true => some call
    | _ => none

end Trace

end SealedColumns

import SealedColumns.Cipher
import SealedColumns.Sql.Fault

/-!
What can go wrong between a caller and a database, by cause. An error that a
client raised while preparing or executing is wrapped; one that it raised while
fetching is handed on as it is.
-/

namespace SealedColumns

/-- Faults told by a database engine. A command may be faulty at a place. -/
inductive EngineFault where
  | cannotOpen (path : String)
  | nulInPath (position : Nat)
  | command (fault : Sql.Fault) (place : Option Sql.Place)
  | severalStatements
  | unknownParameter (key : String)
  | noStatement
  deriving DecidableEq

def EngineFault.message : EngineFault → String
  | .cannotOpen path => "unable to open database file: " ++ path
  | .nulInPath position => s!"nul byte found in provided data at position: {position}"
  | .command fault none => fault.message
  | .command fault (some place) =>
      fault.message ++ " in " ++ place.text ++ s!" at offset {place.offset}"
  | .severalStatements => "Multiple statements provided"
  | .unknownParameter key => "Invalid parameter name: " ++ key
  | .noStatement => "bad parameter or other API misuse"

inductive FetchFault where
  | notExecuted
  | closed
  | reported (reason : String)
  deriving DecidableEq

def FetchFault.message : FetchFault → String
  | .notExecuted => "statement has not been executed"
  | .closed => "statement is closed"
  | .reported reason => reason

inductive ConfigurationFault where
  | noCipher (column : String)
  | reported (reason : String)
  deriving DecidableEq

def ConfigurationFault.message : ConfigurationFault → String
  | .noCipher column =>
      "column `" ++ column ++ "` holds encrypted data but no cipher is configured"
  | .reported reason => reason

inductive ParameterFault where
  | binary (key : String)
  | boundTwice (key : String)
  | reported (reason : String)
  deriving DecidableEq

def ParameterFault.message : ParameterFault → String
  | .binary key => "value bound to `" ++ key ++ "` is binary and cannot be encrypted"
  | .boundTwice key => "`" ++ key ++ "` is bound both with and without the `:` prefix"
  | .reported reason => reason

inductive OtherFault where
  | closed
  | missingColumn (name : String)
  | reported (reason : String)
  deriving DecidableEq

def OtherFault.message : OtherFault → String
  | .closed => "statement is closed"
  | .missingColumn name => "missing column " ++ name
  | .reported reason => reason

inductive Error where
  | engine (fault : EngineFault)
  | preparation (cause : Error)
  | execution (cause : Error)
  | fetch (fault : FetchFault)
  | encryption (column : String) (cause : CipherFault)
  | decryption (column : String) (cause : CipherFault)
  | configuration (fault : ConfigurationFault)
  | parameter (fault : ParameterFault)
  | other (fault : OtherFault)

namespace Error

def message : Error → String
  | engine fault => fault.message
  | preparation cause => "Preparation error: " ++ cause.message
  | execution cause => "SQL execution error: " ++ cause.message
  | fetch fault => "Fetch error: " ++ fault.message
  | encryption column cause =>
      "Encryption error on `" ++ column ++ "`: " ++ cause.message
  | decryption column cause =>
      "Decryption error on `" ++ column ++ "`: " ++ cause.message
  | configuration fault => "Configuration error: " ++ fault.message
  | parameter fault => "Parameter conversion error: " ++ fault.message
  | other fault => "Other database error: " ++ fault.message

end Error

end SealedColumns

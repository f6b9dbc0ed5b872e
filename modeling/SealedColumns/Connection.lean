import SealedColumns.Statement

/-!
Connections give their cipher and row layout to the statements prepared on them.
Settings say with which of both a connection to a database file is opened.
-/

namespace SealedColumns

structure Connection where
  cipher : Option Cipher
  layout : RowLayout

namespace Connection

def fresh : Connection := ⟨none, .standard⟩

/-- Statements prepared before keep the cipher they have. -/
def withCipher (connection : Connection) (cipher : Option Cipher) : Connection :=
  { connection with cipher }

def withLayout (connection : Connection) (layout : RowLayout) : Connection :=
  { connection with layout }

def prepare {state handle : Type} (connection : Connection) (client : Client state handle)
    (world : World state) (sql : String) : Statement.Preparation state handle :=
  Statement.prepare client world sql connection.cipher connection.layout

/-- `client` is how the client shows itself. -/
def inspect (connection : Connection) (client : String) : String :=
  Text.record "Connection"
    [("client", client),
     ("has_cipher", if connection.cipher.isSome then "true" else "false"),
     ("default_fetch_mode", connection.layout.inspect)]

end Connection

structure ConnectionSettings where
  path : String
  layout : RowLayout
  cipher : Option Cipher

namespace ConnectionSettings

def forPath (path : String) : ConnectionSettings := ⟨path, .standard, none⟩

def withLayout (settings : ConnectionSettings) (layout : RowLayout) :
    ConnectionSettings :=
  { settings with layout }

def withCipher (settings : ConnectionSettings) (cipher : Cipher) : ConnectionSettings :=
  { settings with cipher := some cipher }

def connection (settings : ConnectionSettings) : Connection :=
  ⟨settings.cipher, settings.layout⟩

def openedEvent (settings : ConnectionSettings) : Event :=
  .opened settings.path settings.cipher.isSome

def inspect (settings : ConnectionSettings) : String :=
  Text.record "ConnectionOptions"
    [("db_path", Text.quoted settings.path),
     ("default_fetch_mode", settings.layout.inspect),
     ("has_cipher", if settings.cipher.isSome then "true" else "false")]

end ConnectionSettings

end SealedColumns

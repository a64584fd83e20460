import SchemaPlan.Catalog.Rows
import SchemaPlan.Config.Settings

set_option autoImplicit false

/-!
# Servers

The servers that a run can reach, by what they answer: whether a login is
accepted, what the catalog says, and which statements are refused.  What is
asked of them is kept in order.
-/

namespace SchemaPlan

/-- What a client says to log in. -/
structure Login where
  host : String
  tcpPort : UInt16
  user : String
  password : String
  database : String
  deriving DecidableEq, Repr, Inhabited

/-- Where a server listens if nothing else is set. -/
def Login.standardTcpPort : UInt16 := 3306

/-- The login of a connection. -/
def Connection.login (connection : Connection) : Login :=
  ⟨connection.host, connection.tcpPort.getD Login.standardTcpPort, connection.user,
    connection.password, connection.name⟩

/-- The parts of the catalog, each asked for by a query of its own. -/
inductive CatalogPart
  | schemata | tables | columns
  deriving DecidableEq, Repr

/-- How the servers behave.  A database that is not listed has no entry in the
catalog, but that does not keep a client from logging in. -/
structure Server where
  /-- Whether a login is accepted. -/
  accepts : Login → Bool
  /-- The catalog's entry of a database. -/
  entry? : Login → Option CatalogEntry
  /-- Whether a query of the catalog fails. -/
  failsQuery : CatalogPart → Bool
  /-- The refusal of a statement, given how many came before it. -/
  refuses? : Nat → String → Option Refusal

/-- A server that cannot be reached. -/
def Server.unreachable : Server :=
  ⟨fun _ => false, fun _ => none, fun _ => false, fun _ _ => none⟩

instance : Inhabited Server := ⟨.unreachable⟩

end SchemaPlan

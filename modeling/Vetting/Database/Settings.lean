import Vetting.Configuration.Settings
import Vetting.Database.Fault
import Vetting.Width

/-!
Contract: settings of a database that stands for itself.

Owns: reading them from an environment when nothing else is configured.

Does not own: the settings of the application, which may have no database.
-/

namespace Vetting.DatabaseSettings

/-- A number of connections, or its default. -/
private def connections (environment : Environment) (key : String) (default : Nat) :
    Except DatabaseFault Nat :=
  (environment.numberOr key default (Width.greatestNat 32)).mapError fun _ =>
    .configuration (key ++ " no es un entero: '" ++ (environment.text? key).getD "" ++ "'")

/-- Any address is taken, even an empty one. -/
def readAlone (environment : Environment) : Except DatabaseFault DatabaseSettings := do
  let some url := environment.text? urlKey
    | throw (.configuration (ConfigurationFault.missing urlKey).message)
  let minConnections ← connections environment minKey 2
  let maxConnections ← connections environment maxKey 16
  return { url, minConnections, maxConnections }

end Vetting.DatabaseSettings

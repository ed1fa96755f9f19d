import Vetting.Json.Fault
import Vetting.Text.Blank
import Vetting.Text.LetterCase
import Vetting.Workflow.Fault

/-!
Contract: why the work of a database fails.

Owns:
- the causes that the engine tells apart, and their wording;
- the faults that a database client reports, and the cause that each one is;
- which causes may pass when the work is repeated.

Does not own: the repetition itself.
-/

namespace Vetting

/-- Why the work of a database fails. -/
inductive DatabaseFault where
  | uniqueViolation (detail : String)
  | checkViolation (detail : String)
  | foreignKeyViolation (detail : String)
  | notFound
  | serializationConflict
  | transient (detail : String)
  /-- A row that stands for nothing. -/
  | corrupt (detail : String)
  | configuration (detail : String)
  | unknown (detail : String)
deriving DecidableEq, Inhabited

namespace DatabaseFault

/-- The name of the cause. -/
def name : DatabaseFault → String
  | .uniqueViolation _ => "UniqueViolation"
  | .checkViolation _ => "CheckViolation"
  | .foreignKeyViolation _ => "ForeignKeyViolation"
  | .notFound => "NotFound"
  | .serializationConflict => "SerializationConflict"
  | .transient _ => "TransientIo"
  | .corrupt _ => "Corrupt"
  | .configuration _ => "Config"
  | .unknown _ => "Unknown"

def message : DatabaseFault → String
  | .uniqueViolation detail => "unique violation: " ++ detail
  | .checkViolation detail => "check violation: " ++ detail
  | .foreignKeyViolation detail => "foreign key violation: " ++ detail
  | .notFound => "not found"
  | .serializationConflict => "serialization conflict (retryable)"
  | .transient detail => "transient IO / connection pool error: " ++ detail
  | .corrupt detail => "corrupt row: " ++ detail
  | .configuration detail => "configuration: " ++ detail
  | .unknown detail => "unknown database error: " ++ detail

/-- The cause of a name; an unknown one if there is no such name. -/
def named (name detail : String) : DatabaseFault :=
  ([uniqueViolation detail, checkViolation detail, foreignKeyViolation detail, notFound,
    serializationConflict, transient detail, corrupt detail, configuration detail].find?
      fun fault => fault.name == name).getD (.unknown detail)

/-- A JSON document in a row that cannot be read. -/
def ofDocument (fault : Json.Fault) : DatabaseFault := .corrupt ("json: " ++ fault.message)

/-- What the fault means to the engine. -/
def toEngineFault (fault : DatabaseFault) : EngineFault := .storage fault.message

/-- What a message says if the fault may pass, whatever the case of its letters. -/
def passingMarks : List String := [
  "deadlock detected", "could not serialize access", "terminating connection",
  "connection closed", "connection refused", "timeout"]

/-- Whether the fault may pass when the work is repeated. -/
def mayPass : DatabaseFault → Bool
  | .serializationConflict | .transient _ => true
  | .unknown detail => passingMarks.any fun mark =>
      Text.occursIn mark.toList (Text.lowerCase detail).toList
  | _ => false

end DatabaseFault

/-- What a database client reports. -/
inductive ClientFault where
  /-- There is no such record. -/
  | missing
  /-- The server refuses a statement under a condition of the given name. -/
  | refused (condition message : String)
  | unreadable (detail : String)
  | unwritable (detail : String)
  | brokenTransactions
  | failedRollback (rollback commit : String)
  /-- A transaction is used in a way of the given name that is no fault of the server. -/
  | misused (way : String)
deriving DecidableEq, Inhabited

namespace ClientFault

/-- The cause that a report is. -/
def toDatabaseFault : ClientFault → DatabaseFault
  | .missing => .notFound
  | .refused "UniqueViolation" message => .uniqueViolation message
  | .refused "CheckViolation" message => .checkViolation message
  | .refused "ForeignKeyViolation" message => .foreignKeyViolation message
  | .refused "SerializationFailure" _ => .serializationConflict
  | .refused "ClosedConnection" message => .transient message
  | .refused condition message =>
    .unknown ("db error kind " ++ condition ++ ": " ++ message)
  | .unreadable detail => .corrupt ("deser: " ++ detail)
  | .unwritable detail => .unknown ("ser: " ++ detail)
  | .brokenTransactions => .transient "broken transaction manager"
  | .failedRollback rollback commit =>
    .unknown ("rollback=" ++ rollback ++ "; commit=" ++ commit)
  | .misused way => .unknown ("unhandled diesel error: " ++ way)

/-- The report of a name; a name that stands for nothing else is a condition. -/
def named (name message : String) : ClientFault :=
  match name with
  | "NotFound" => .missing
  | "Deserialization" => .unreadable message
  | "Serialization" => .unwritable message
  | "BrokenTransactionManager" => .brokenTransactions
  | "RollbackErrorOnCommit" => .failedRollback "Record not found" message
  | "RollbackTransaction" | "AlreadyInTransaction" | "NotInTransaction" => .misused name
  | _ => .refused name message

end ClientFault

end Vetting

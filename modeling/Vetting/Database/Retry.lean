import Vetting.Database.Fault

/-!
Contract: repeating the work of a database.

Owns:
- how often work is repeated that fails for a reason that may pass.

Does not own: what the work is, and how long to wait in between.

Work that succeeds, and work that fails for a reason that stays, is not repeated.
After the last repetition its result stands, whatever it is.
-/

namespace Vetting.Database

variable {α : Type} {m : Type → Type} [Monad m]

/-- Carries out work, and again up to a number of times as long as its fault may pass. -/
def repeating (work : m (Except DatabaseFault α)) : Nat → m (Except DatabaseFault α)
  | 0 => work
  | times + 1 => do
    match ← work with
    | .error fault =>
      if fault.mayPass then repeating work times else return .error fault
    | .ok result => return .ok result

/-- How often work is repeated. -/
def repetitions : Nat := 3

/-- Carries out work with the usual number of repetitions. -/
def persistently (work : m (Except DatabaseFault α)) : m (Except DatabaseFault α) :=
  repeating work repetitions

end Vetting.Database

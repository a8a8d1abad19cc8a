import DirectoryGateway.Text.Blank
import DirectoryGateway.Text.Integer

/-!
# Backoff schedules as text

A schedule is written as delays in milliseconds with commas between them; a blank text is the schedule without
delays. All delays together stay below the time that a request may take, so that a listing that uses them up still
has time to say so.
-/

namespace DirectoryGateway.Settings

open DirectoryGateway.Text

/-- The longest delay of a schedule, in milliseconds. -/
def maxDelay : Nat := 60000

/-- How long a request may take, in seconds. -/
def requestSeconds : Nat := 60

inductive BackoffFault where
  | unreadable (part : String) (fault : IntegerFault)
  | tooLong (delay : Nat)
  | totalTooLong (total : Nat)
  deriving Repr, DecidableEq

def BackoffFault.message : BackoffFault → String
  | .unreadable part fault =>
    "BACKOFF_SCHEDULE_MS entries must be integers, got '" ++ part ++ "': " ++ fault.message
  | .tooLong delay =>
    "BACKOFF_SCHEDULE_MS entries must not exceed " ++ toString maxDelay ++ ", got " ++ toString delay
  | .totalTooLong total =>
    "BACKOFF_SCHEDULE_MS delays total " ++ toString total ++ "ms, must be below the " ++
      toString requestSeconds ++ "s request timeout"

def readDelay (part : List Char) : Except BackoffFault Nat :=
  match readNat maxWord64 (trim part) with
  | .error fault => .error (.unreadable (String.ofList (trim part)) fault)
  | .ok delay => if delay ≤ maxDelay then .ok delay else .error (.tooLong delay)

/-- Reads delays up to the first one with a fault. -/
def readDelays : List (List Char) → Except BackoffFault (List Nat)
  | [] => .ok []
  | part :: parts =>
    match readDelay part with
    | .error fault => .error fault
    | .ok delay =>
      match readDelays parts with
      | .error fault => .error fault
      | .ok delays => .ok (delay :: delays)

/-- Reads a schedule. The total counts only when every delay is in order. -/
def readBackoff (text : String) : Except BackoffFault (List Nat) :=
  if blank text then .ok []
  else
    match readDelays (splitAt ',' text.toList) with
    | .error fault => .error fault
    | .ok delays =>
      let total := delays.foldr (· + ·) 0
      if total < 1000 * requestSeconds then .ok delays else .error (.totalTooLong total)

end DirectoryGateway.Settings

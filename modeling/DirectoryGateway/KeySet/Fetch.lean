import DirectoryGateway.KeySet.Resolve
import DirectoryGateway.Remote.Answer
import DirectoryGateway.Telemetry.Ledger
import DirectoryGateway.Text.Address

/-!
# Fetching the key set

The key set is asked for once, in limited time, and a limited number of redirections is followed. Every fetch is counted,
by whether it gave a key set; whether that can be resolved is another matter.
-/

namespace DirectoryGateway.KeySet

open DirectoryGateway.Remote (Answer)
open DirectoryGateway.Text (Address Destination Server)

/-! ### Faults -/

inductive FetchFault where
  /-- No answer, or too many redirections. -/
  | transport
  | status (code : Nat)
  | parse
  deriving Repr, DecidableEq

namespace FetchFault

def label : FetchFault → String
  | .transport => "Transport"
  | .status _ => "Status"
  | .parse => "Parse"

/-- The wording of a status that tells no success; the other faults are worded by those who find them. -/
def message? : FetchFault → Option String
  | .status code => some ("key set endpoint returned HTTP " ++ toString code)
  | _ => none

/-- The form in which a fault ends the program. -/
def diagnostic : FetchFault → String
  | .status code => "Status(" ++ toString code ++ ")"
  | f => f.label

end FetchFault

inductive Fault where
  | fetch (fault : FetchFault)
  | resolve (fault : ResolveFault)
  deriving Repr, DecidableEq

namespace Fault

def label : Fault → String
  | .fetch f => f.label
  | .resolve f => f.label

def message? : Fault → Option String
  | .fetch f => f.message?
  | .resolve f => some f.message

def diagnostic : Fault → String
  | .fetch f => f.diagnostic
  | .resolve f => f.diagnostic

end Fault

/-! ### Fetching -/

def maxRedirections : Nat := 10

def isRedirection (status : Nat) : Bool :=
  [301, 302, 303, 307, 308].contains status

/-- What an answer says that sends nowhere else. -/
def readAnswer (a : Answer) : Except FetchFault JwkSet :=
  if a.isSuccess then
    match JwkSet.read? a.body with
    | some set => .ok set
    | none => .error .parse
  else .error (.status a.status)

def redirection? (a : Answer) : Option String :=
  if isRedirection a.status then a.header? "location" else none

/-- A fetch that is over: its result, and what was asked for on the way. -/
structure Fetch where
  result : Except FetchFault JwkSet
  targets : List String

/-- Where an answer sends from an address; one that sends nowhere stands for itself. -/
def destination? (address : Address) (a : Answer) : Option Destination :=
  match (redirection? a).map address.follow with
  | some .nowhere => none
  | place => place

/-- An answer of the server, or none, and the milliseconds until it has come. -/
structure Reply where
  answer : Option Answer
  delay : Nat
  deriving Repr, DecidableEq

/-- The answer, if it has come before so many milliseconds are over and can be read. -/
def Reply.within (r : Reply) (time : Nat) : Option Answer :=
  if r.delay < time then r.answer.bind Answer.received? else none

/-- What other servers answer in the end to a request that is sent on to them, with so many more redirections to follow
and so many milliseconds left. -/
abbrev Elsewhere := (left time : Nat) → Option Answer

def Elsewhere.ask (e : Elsewhere) (left time : Nat) : Except FetchFault JwkSet :=
  match e left time with
  | some a => readAnswer a
  | none => .error .transport

/-- Asks at an address, with the replies of its server to this and later requests; `left` redirections may still be
followed, and `time` milliseconds are left. -/
def fetchFrom (elsewhere : Elsewhere) (left time : Nat) (address : Address) : List Reply → Fetch
  | [] => ⟨.error .transport, [address.location.target]⟩
  | reply :: replies =>
    match reply.within time with
    | none => ⟨.error .transport, [address.location.target]⟩
    | some a =>
      match destination? address a, left with
      | none, _ => ⟨readAnswer a, [address.location.target]⟩
      | some (.here there), left + 1 =>
        let later := fetchFrom elsewhere left (time - reply.delay) { address with location := there } replies
        ⟨later.result, address.location.target :: later.targets⟩
      | some .elsewhere, left + 1 => ⟨elsewhere.ask left (time - reply.delay), [address.location.target]⟩
      -- One redirection too many.
      | _, _ => ⟨.error .transport, [address.location.target]⟩

/-- Fetches from an address in so many milliseconds, with the replies of all servers. What is no address cannot be asked
at. -/
def fetch (elsewhere : Elsewhere) (time : Nat) (text : String) (replies : Server → List Reply) : Fetch :=
  match Address.read? text with
  | some address => fetchFrom elsewhere maxRedirections time address (replies address.server)
  | none => ⟨.error .transport, []⟩

def Fetch.note (f : Fetch) : Telemetry.Note :=
  match f.result with
  | .ok _ => .keySetFetch "success"
  | .error _ => .keySetFetch "error"

def Fetch.resolve (f : Fetch) : Except Fault KeyMap :=
  match f.result with
  | .error fault => .error (.fetch fault)
  | .ok set => set.resolve.mapError .resolve

end DirectoryGateway.KeySet

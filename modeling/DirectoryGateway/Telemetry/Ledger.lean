import DirectoryGateway.Decimal.Binary64
import DirectoryGateway.Telemetry.Endpoint

/-!
# The ledger of counters and timers

A ledger maps each counter to its value and each timer to the histogram of its durations. `Ledger.note` enters
one observation. Durations are whole nanoseconds, and are compared and summed up as seconds in double precision; they
are summed up when the ledger is written, in blocks.
-/

namespace DirectoryGateway.Telemetry

open DirectoryGateway.Decimal

/-! ### Series -/

inductive Counter where
  | requests (method : String) (endpoint : Endpoint) (status : Nat)
  /-- Provider calls that came to an end. -/
  | providerCalls (operation outcome : String)
  | pages (operation : String)
  /-- Throttled page calls that a listing waits for. -/
  | retries (operation : String)
  | keySetFetches (status : String)
  deriving Repr, DecidableEq

inductive Timer where
  | requests (method : String) (endpoint : Endpoint) (status : StatusClass)
  | providerCalls (operation : String)
  deriving Repr, DecidableEq

/-- The upper bounds of a timer's buckets, in milliseconds. -/
def Timer.limits : Timer → List Nat
  | .requests .. => [5, 10, 25, 50, 100, 200, 500, 1000, 2500, 5000, 15000]
  | .providerCalls _ => [10, 25, 50, 100, 200, 500, 1000, 2000, 5000, 10000]

/-- A limit in seconds. -/
def boundOf (millis : Nat) : Binary64 :=
  .ofRatio ⟨millis, 1000⟩

def Timer.bounds (t : Timer) : List Binary64 :=
  t.limits.map boundOf

/-! ### Histograms -/

/-- The durations of one timer: for each bound how many did not exceed it, how many there were, the sum of those that
are summed up, in seconds, and the others, the latest first. -/
structure Histogram where
  within : List Nat
  count : Nat
  sum : Binary64
  recent : List Nat
  deriving Repr, DecidableEq

def Histogram.empty (bounds : List Binary64) : Histogram :=
  ⟨bounds.map fun _ => 0, 0, ⟨0, 0⟩, []⟩

/-- A duration in seconds: the whole seconds and the rest are rounded each on its own. -/
def seconds (nanos : Nat) : Binary64 :=
  Binary64.add (Binary64.ofRatio ⟨nanos / 1000000000, 1⟩)
    (Binary64.ofRatio ⟨nanos % 1000000000, 1000000000⟩)

def Histogram.record (bounds : List Binary64) (nanos : Nat) (h : Histogram) : Histogram :=
  { h with
    within := List.zipWith (fun bound n => if seconds nanos ≤ bound then n + 1 else n) bounds h.within
    count := h.count + 1
    recent := nanos :: h.recent }

/-- How many durations are summed up at a time. -/
def blockSize : Nat := 64

/-- Durations in blocks; `fuel` bounds their number. -/
def blocks : (fuel : Nat) → List Nat → List (List Nat)
  | _, [] => []
  | 0, _ => []
  | fuel + 1, durations => durations.take blockSize :: blocks fuel (durations.drop blockSize)

/-- The sum of a block, rounded after each addition. -/
def blockSum (durations : List Nat) : Binary64 :=
  durations.foldl (fun sum nanos => sum.add (seconds nanos)) ⟨0, 0⟩

/-- Sums up all durations, the latest block first. -/
def Histogram.settle (h : Histogram) : Histogram :=
  { h with
    sum := (blocks h.recent.length h.recent.reverse).reverse.foldl
      (fun sum block => sum.add (blockSum block)) h.sum
    recent := [] }

/-- The durations of two timers together, all of them summed up. -/
def Histogram.join (h k : Histogram) : Histogram :=
  ⟨List.zipWith (· + ·) h.within k.within, h.count + k.count, h.settle.sum.add k.settle.sum, []⟩

/-! ### Observations -/

inductive Note where
  | request (method path : String) (status nanos : Nat)
  | providerCall (operation outcome : String) (nanos : Nat)
  | page (operation : String)
  | retry (operation : String)
  | keySetFetch (status : String)
  deriving Repr, DecidableEq

def Note.counter : Note → Counter
  | .request method path status _ => .requests method (.ofPath path) status
  | .providerCall operation outcome _ => .providerCalls operation outcome
  | .page operation => .pages operation
  | .retry operation => .retries operation
  | .keySetFetch status => .keySetFetches status

/-- The timer that an observation goes to, and the duration. -/
def Note.timing? : Note → Option (Timer × Nat)
  | .request method path status nanos =>
    some (.requests method (.ofPath path) (.ofStatus status), nanos)
  | .providerCall operation _ nanos => some (.providerCalls operation, nanos)
  | _ => none

/-! ### The ledger -/

/-- All counters and timers that were observed, each once. -/
structure Ledger where
  counters : List (Counter × Nat)
  timers : List (Timer × Histogram)
  deriving Repr, DecidableEq

namespace Ledger

def empty : Ledger :=
  ⟨[], []⟩

def raise (c : Counter) : List (Counter × Nat) → List (Counter × Nat)
  | [] => [(c, 1)]
  | (d, n) :: rest => if d = c then (d, n + 1) :: rest else (d, n) :: raise c rest

def time (t : Timer) (nanos : Nat) : List (Timer × Histogram) → List (Timer × Histogram)
  | [] => [(t, (Histogram.empty t.bounds).record t.bounds nanos)]
  | (u, h) :: rest =>
    if u = t then (u, h.record u.bounds nanos) :: rest else (u, h) :: time t nanos rest

def note (n : Note) (l : Ledger) : Ledger :=
  ⟨raise n.counter l.counters,
    match n.timing? with
    | some (t, nanos) => time t nanos l.timers
    | none => l.timers⟩

def noteAll (notes : List Note) (l : Ledger) : Ledger :=
  notes.foldl (fun l n => l.note n) l

def settle (l : Ledger) : Ledger :=
  { l with timers := l.timers.map fun t => (t.1, t.2.settle) }

def value (l : Ledger) (c : Counter) : Nat :=
  (l.counters.lookup c).getD 0

def histogram? (l : Ledger) (t : Timer) : Option Histogram :=
  l.timers.lookup t

end Ledger

/-! ### Installing the ledger -/

inductive InstallFault where
  | alreadyInstalled
  deriving Repr, DecidableEq

def InstallFault.message : InstallFault → String
  | .alreadyInstalled =>
    "Failed to install Prometheus recorder: failed to install exporter as global recorder: " ++
      "attempted to set a recorder after the metrics system was already initialized"

/-- A program has one ledger, which is installed once. -/
def install : Option Ledger → Except InstallFault Ledger
  | none => .ok .empty
  | some _ => .error .alreadyInstalled

end DirectoryGateway.Telemetry

import DirectoryGateway.Telemetry.Ledger

/-!
# The text form of a ledger

The exposition format that metrics are scraped in: one line a sample, with the labels in braces, and a line
for the type of each family. Lines are sorted, so the text depends on the observations alone.
-/

namespace DirectoryGateway.Telemetry

open DirectoryGateway.Decimal

/-! ### Labels -/

structure Label where
  name : String
  value : String
  deriving Repr, DecidableEq

/-- Escapes a label value. A backslash waits for the character after it: a second one completes an escaped
backslash, a double quote swallows it, and before anything else it is written escaped. -/
def escapeFrom : (held : Bool) → List Char → List Char
  | held, [] => if held then ['\\', '\\'] else []
  | held, c :: cs =>
    if c = '\n' then '\\' :: 'n' :: escapeFrom held cs
    else if c = '"' then '\\' :: '"' :: escapeFrom false cs
    else if c = '\\' then
      if held then '\\' :: '\\' :: escapeFrom false cs else escapeFrom true cs
    else if held then '\\' :: '\\' :: c :: escapeFrom false cs
    else c :: escapeFrom false cs

def Label.text (l : Label) : String :=
  l.name ++ "=\"" ++ String.ofList (escapeFrom false l.value.toList) ++ "\""

def labelsText (ls : List Label) : String :=
  "\x7b" ++ String.intercalate "," (ls.map Label.text) ++ "\x7d"

/-! ### Families -/

def Counter.family : Counter → String
  | .requests .. => "gw_http_requests_total"
  | .providerCalls .. => "gw_provider_calls_total"
  | .pages _ => "gw_listing_pages_total"
  | .retries _ => "gw_listing_throttle_retries_total"
  | .keySetFetches _ => "gw_jwks_fetch_total"

def Counter.labels : Counter → List Label
  | .requests method endpoint status =>
    [⟨"method", method⟩, ⟨"endpoint", endpoint.label⟩, ⟨"status_code", toString status⟩]
  | .providerCalls operation outcome => [⟨"operation", operation⟩, ⟨"outcome", outcome⟩]
  | .pages operation => [⟨"operation", operation⟩]
  | .retries operation => [⟨"operation", operation⟩]
  | .keySetFetches status => [⟨"status", status⟩]

def Timer.family : Timer → String
  | .requests .. => "gw_http_request_duration_seconds"
  | .providerCalls _ => "gw_provider_call_duration_seconds"

def Timer.labels : Timer → List Label
  | .requests method endpoint status =>
    [⟨"method", method⟩, ⟨"endpoint", endpoint.label⟩, ⟨"status", status.label⟩]
  | .providerCalls operation => [⟨"operation", operation⟩]

/-! ### Samples -/

def sampleLine (name : String) (labels : List Label) (value : String) : String :=
  name ++ labelsText labels ++ " " ++ value

def counterLine (c : Counter) (n : Nat) : String :=
  sampleLine c.family c.labels (toString n)

/-- The lines of a histogram: its buckets, the one without a bound, sum and count. -/
def timerLines (t : Timer) (h : Histogram) : List String :=
  let bucket (bound : String) (n : Nat) :=
    sampleLine (t.family ++ "_bucket") (t.labels ++ [⟨"le", bound⟩]) (toString n)
  List.zipWith (fun bound n => bucket bound.text n) t.bounds h.within ++
    [bucket "+Inf" h.count,
      sampleLine (t.family ++ "_sum") t.labels h.sum.text,
      sampleLine (t.family ++ "_count") t.labels (toString h.count)]

def typeLine (family kind : String) : String :=
  "# TYPE " ++ family ++ " " ++ kind

/-! ### Series -/

def Counter.series (c : Counter) : String :=
  c.family ++ labelsText c.labels

def Timer.series (t : Timer) : String :=
  t.family ++ labelsText t.labels

/-- Adds a counter to others; it replaces one of the same series. -/
def joinCounter (c : Counter × Nat) : List (Counter × Nat) → List (Counter × Nat)
  | [] => [c]
  | d :: rest => if d.1.series = c.1.series then (d.1, c.2) :: rest else d :: joinCounter c rest

/-- Adds a timer to others; its durations go to one of the same series. -/
def joinTimer (t : Timer × Histogram) : List (Timer × Histogram) → List (Timer × Histogram)
  | [] => [t]
  | u :: rest => if u.1.series = t.1.series then (u.1, u.2.join t.2) :: rest else u :: joinTimer t rest

/-- A ledger in which every series occurs once. Labels that differ may be written alike. -/
def Ledger.joined (l : Ledger) : Ledger :=
  ⟨l.counters.foldl (fun cs c => joinCounter c cs) [], l.timers.foldl (fun ts t => joinTimer t ts) []⟩

/-! ### The whole text -/

def sortLines (lines : List String) : List String :=
  lines.mergeSort fun a b => decide (a ≤ b)

namespace Ledger

def counterLines (l : Ledger) : List String :=
  sortLines (l.joined.counters.map fun c => counterLine c.1 c.2)

def lines (l : Ledger) : List String :=
  let l := l.settle.joined
  sortLines
    ((l.counters.map fun c => typeLine c.1.family "counter").eraseDups ++
      (l.timers.map fun t => typeLine t.1.family "histogram").eraseDups ++
      (l.counters.map fun c => counterLine c.1 c.2) ++
      l.timers.flatMap fun t => timerLines t.1 t.2)

def text (l : Ledger) : String :=
  String.join (l.lines.map (· ++ "\n"))

end Ledger

end DirectoryGateway.Telemetry

import DirectoryGateway.Json.Reader
import DirectoryGateway.Json.Sound
import DirectoryGateway.Text.Integer

/-!
# Attempts at reading a value

A reader that tries to hold a value, and may leave it there when that fails, must know where it stands. An attempt stops
behind the value, or at the fault: at a string that is no text, at a number out of range, or where the nesting becomes
too deep. The lists and records around a fault are still closed where the bytes allow it.
-/

namespace DirectoryGateway.Json

/-- How an attempt ends: whether it reached the end of what it was to read, and what bytes are left. -/
structure Stop where
  ok : Bool
  rest : List UInt8
  deriving Repr, DecidableEq

def Stop.at (rest : List UInt8) : Stop :=
  ⟨false, rest⟩

/-! ### Strings -/

/-- Takes a trailing surrogate off the front; in its absence the byte that should have begun it is lost. -/
def tryTrail : List UInt8 → Stop
  | s :: u :: rest =>
    if s = backslash then
      if u = 'u'.toUInt8 then
        match rest with
        | a :: b :: c :: d :: rest =>
          match hexUnit a b c d with
          | some m => ⟨0xDC00 ≤ m && m ≤ 0xDFFF, rest⟩
          | none => .at rest
        | _ => .at []
      else .at rest
    else .at (u :: rest)
  | bytes => .at (bytes.drop 1)

/-- Takes what follows the backslash of an escape off the front. -/
def tryEscape : List UInt8 → Stop
  | [] => .at []
  | e :: rest =>
    if e = 'u'.toUInt8 then
      match rest with
      | a :: b :: c :: d :: rest =>
        match hexUnit a b c d with
        | some n =>
          if 0xDC00 ≤ n ∧ n ≤ 0xDFFF then .at rest
          else if 0xD800 ≤ n ∧ n ≤ 0xDBFF then tryTrail rest
          else ⟨true, rest⟩
        | none => .at rest
      | _ => .at []
    else ⟨(escapeValue e).isSome, rest⟩

/-- Goes through a string up to its closing quote; `fuel` bounds its length. -/
def tryContent : (fuel : Nat) → List UInt8 → Stop
  | 0, bytes => .at bytes
  | _, [] => .at []
  | fuel + 1, b :: rest =>
    if b = quote then ⟨true, rest⟩
    else if b = backslash then
      let s := tryEscape rest
      if s.ok then tryContent fuel s.rest else s
    else if b.toNat < 32 then .at rest
    else tryContent fuel rest

/-- Reads a string after its opening quote: its text, if it is one, and what is left. -/
def tryText (bytes : List UInt8) : Option String × List UInt8 :=
  let s := tryContent bytes.length bytes
  -- What was passed, without the closing quote.
  (if s.ok then decode? (bytes.take (bytes.length - s.rest.length - 1)) else none, s.rest)

/-! ### Numbers -/

/-- The digits of an exponent that are not reached when its value passes the largest one. -/
def unreached (limit : Nat) (n : Nat) : List Nat → List Nat
  | [] => []
  | d :: ds => if limit < 10 * n + d then ds else unreached limit (10 * n + d) ds

/-- Reads a number. One that is out of range is read to its end, unless its exponent is out of range too. -/
def tryNumber (bytes : List UInt8) : Stop :=
  match readNumber bytes with
  | none => .at []
  | some (n, rest) =>
    if n.double?.isSome then ⟨true, rest⟩
    else
      let digits := digitList (n.exponent.getD 0).natAbs
      .at ((unreached Text.maxInt32 0 digits).map (fun d => UInt8.ofNat (48 + d)) ++ rest)

def tryScalar (bytes : List UInt8) : Stop :=
  match bytes with
  | [] => .at []
  | b :: rest =>
    if b = quote then
      let (content, rest) := tryText rest
      ⟨content.isSome, rest⟩
    else if b = '-'.toUInt8 ∨ (digit? b).isSome then tryNumber bytes
    else
      match readScalar bytes with
      | some (_, rest) => ⟨true, rest⟩
      | none => .at bytes

/-! ### Lists and records -/

/-- Closes a list after an attempt at its items; a comma is lost. -/
def closeList (s : Stop) : Stop :=
  match skipBlanks s.rest with
  | [] => .at []
  | b :: rest =>
    if b = ']'.toUInt8 then ⟨s.ok, rest⟩
    else if b = ','.toUInt8 then .at (skipBlanks rest)
    else .at (b :: rest)

def closeRecord (s : Stop) : Stop :=
  match skipBlanks s.rest with
  | [] => .at []
  | b :: rest => if b = '\x7d'.toUInt8 then ⟨s.ok, rest⟩ else .at (b :: rest)

/-- Goes on to the next part of a list or record that is closed by `close`: what it begins with, or nothing at the end.
Parts but for the first come after a comma. -/
def nextPart (close : UInt8) (first : Bool) (bytes : List UInt8) : Except Stop (List UInt8) :=
  match skipBlanks bytes with
  | [] => .error (.at [])
  | b :: rest =>
    if b = close then .error ⟨true, b :: rest⟩
    else if first then .ok (b :: rest)
    else if b = ','.toUInt8 then
      match skipBlanks rest with
      | [] => .error (.at [])
      | c :: after => if c = close then .error (.at (c :: after)) else .ok (c :: after)
    else .error (.at (b :: rest))

def tryColon (bytes : List UInt8) : Stop :=
  match skipBlanks bytes with
  | [] => .at []
  | b :: rest => if b = ':'.toUInt8 then ⟨true, rest⟩ else .at (b :: rest)

/-- Reads a key and its colon: the text of the key, unless there is a fault, and what is left. -/
def tryKey : List UInt8 → Option String × List UInt8
  | [] => (none, [])
  | b :: rest =>
    if b = quote then
      match tryText rest with
      | (some name, rest) =>
        let s := tryColon rest
        (if s.ok then some name else none, s.rest)
      | (none, rest) => (none, rest)
    else (none, b :: rest)

mutual

/-- Reads a value, after blanks, in which lists and records may still stand in one another `depth` times; `fuel` bounds
the number of parts. -/
def tryValue : (fuel depth : Nat) → List UInt8 → Stop
  | 0, _, bytes => .at bytes
  | fuel + 1, depth, bytes =>
    match skipBlanks bytes with
    | [] => .at []
    | b :: rest =>
      if b = '['.toUInt8 then
        if depth = 0 then .at (b :: rest) else closeList (tryItems fuel (depth - 1) true rest)
      else if b = '\x7b'.toUInt8 then
        if depth = 0 then .at (b :: rest) else closeRecord (tryFields fuel (depth - 1) true rest)
      else tryScalar (b :: rest)

def tryItems : (fuel depth : Nat) → (first : Bool) → List UInt8 → Stop
  | 0, _, _, bytes => .at bytes
  | fuel + 1, depth, first, bytes =>
    match nextPart ']'.toUInt8 first bytes with
    | .error s => s
    | .ok part =>
      let s := tryValue fuel depth part
      if s.ok then tryItems fuel depth false s.rest else s

def tryFields : (fuel depth : Nat) → (first : Bool) → List UInt8 → Stop
  | 0, _, _, bytes => .at bytes
  | fuel + 1, depth, first, bytes =>
    match nextPart '\x7d'.toUInt8 first bytes with
    | .error s => s
    | .ok part =>
      match tryKey part with
      | (none, rest) => .at rest
      | (some _, rest) =>
        let s := tryValue fuel depth rest
        if s.ok then tryFields fuel depth false s.rest else s

end

/-- Tries to hold a value inside a record that is a whole document. -/
def attempt (bytes : List UInt8) : Stop :=
  -- The record around the value takes up one level.
  tryValue (2 * bytes.length + 2) (maxDepth - 1) bytes

end DirectoryGateway.Json

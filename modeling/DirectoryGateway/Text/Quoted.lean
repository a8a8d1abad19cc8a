import DirectoryGateway.Text.Escaped

/-!
# Quoted text

The form in which messages and diagnostic texts show a string: between double quotes, with the quote,
the backslash and the usual control characters escaped, and every hidden character by its number.
-/

namespace DirectoryGateway.Text

/-- Lower-case hexadecimal digits of a number, without leading zeros. -/
def hexDigits (n : Nat) : List Char :=
  Nat.toDigits 16 n

def quoteChar (c : Char) : List Char :=
  match c with
  | '"' => ['\\', '"']
  | '\\' => ['\\', '\\']
  | '\n' => ['\\', 'n']
  | '\r' => ['\\', 'r']
  | '\t' => ['\\', 't']
  | '\x00' => ['\\', '0']
  | c => if isHidden c then ['\\', 'u', '\x7b'] ++ hexDigits c.toNat ++ ['\x7d'] else [c]

def quoted (s : String) : String :=
  String.ofList ('"' :: s.toList.flatMap quoteChar ++ ['"'])

/-- Named texts behind a label: label, opening brace, each name with its quoted text, closing brace. -/
def quotedRecord (label : String) (parts : List (String × String)) : String :=
  label ++ " \x7b " ++ String.intercalate ", " (parts.map fun p => p.1 ++ ": " ++ quoted p.2) ++ " \x7d"

end DirectoryGateway.Text

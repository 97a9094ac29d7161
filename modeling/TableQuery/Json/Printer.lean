import TableQuery.Json.Basic
import TableQuery.Double.Layout
import TableQuery.Text.Numeral

namespace TableQuery.Json

/-- A hexadecimal digit in lower case. -/
def hexDigit (n : Nat) : Char :=
  Nat.digitChar n

/-- One character inside quotes. Only the quote, the backslash and the control characters below
the blank are escaped. -/
def escaped (c : Char) : List Char :=
  match c with
  | '"' => ['\\', '"']
  | '\\' => ['\\', '\\']
  | '\n' => ['\\', 'n']
  | '\r' => ['\\', 'r']
  | '\t' => ['\\', 't']
  | '\x08' => ['\\', 'b']
  | '\x0c' => ['\\', 'f']
  | c =>
    if c.toNat < 32 then ['\\', 'u', '0', '0', hexDigit (c.toNat / 16), hexDigit (c.toNat % 16)]
    else [c]

def quoted (s : String) : List Char :=
  '"' :: s.toList.flatMap escaped ++ ['"']

mutual

/-- The characters of a value without blanks. -/
def characters : Json → List Char
  | null => "null".toList
  | bool b => (if b then "true" else "false").toList
  | int n => Text.intCharacters n
  | real x => x.jsonText.toList
  | text s => quoted s
  | list items => '[' :: itemCharacters items ++ [']']
  | object fields => '\x7b' :: fieldCharacters fields ++ ['\x7d']

def itemCharacters : List Json → List Char
  | [] => []
  | [item] => item.characters
  | item :: next :: rest => item.characters ++ ',' :: itemCharacters (next :: rest)

def fieldCharacters : List (String × Json) → List Char
  | [] => []
  | [(key, value)] => quoted key ++ ':' :: value.characters
  | (key, value) :: next :: rest =>
    quoted key ++ ':' :: value.characters ++ ',' :: fieldCharacters (next :: rest)

end

/-- The compact text of a value, keys in their order. -/
def compact (j : Json) : String :=
  String.ofList j.characters

example : compact (.object [("a", .list [.int 1, .null]), ("b", .text "x")]) =
    "\x7b\"a\":[1,null],\"b\":\"x\"\x7d" := by decide +kernel

end TableQuery.Json

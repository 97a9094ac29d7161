import TableQuery.Text.Unprintable

namespace TableQuery.Text

/-- One character of a quoted text. Characters that cannot be seen show their code point. -/
def quotedCharacter (c : Char) : List Char :=
  match c with
  | '"' => ['\\', '"']
  | '\\' => ['\\', '\\']
  | '\n' => ['\\', 'n']
  | '\r' => ['\\', 'r']
  | '\t' => ['\\', 't']
  | c =>
    if c.toNat = 0 then ['\\', '0']
    else if isUnprintable c then
      '\\' :: 'u' :: '\x7b' :: Nat.toDigits 16 c.toNat ++ ['\x7d']
    else [c]

/-- A text in a message, between quotes. -/
def quoted (s : String) : String :=
  String.ofList ('"' :: s.toList.flatMap quotedCharacter ++ ['"'])

example : quoted "a\n\"é" = "\"a\\n\\\"é\"" := by decide +kernel

end TableQuery.Text

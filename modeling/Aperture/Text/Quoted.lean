import Aperture.Text.Plain

/-!
# Quoted text

A text between double quotes. Quotes, backslashes, line feeds, carriage returns, tabs and the null
character have a short escape; any other character that does not show as itself is written
`\u{hex}`; all other characters stand for themselves.
-/

namespace Aperture.Text

/-- The escape of one character inside quotes. -/
def escape (c : Char) : List Char :=
  match c with
  | '"' => ['\\', '"']
  | '\\' => ['\\', '\\']
  | '\n' => ['\\', 'n']
  | '\r' => ['\\', 'r']
  | '\t' => ['\\', 't']
  | '\x00' => ['\\', '0']
  | c =>
    if isPlain c then [c]
    else ['\\', 'u', '\x7b'] ++ Nat.toDigits 16 c.toNat ++ ['\x7d']

/-- A text between double quotes. -/
def quoted (s : String) : String :=
  String.ofList ('"' :: s.toList.flatMap escape ++ ['"'])

example : quoted "1 \"2\" 3" = "\"1 \\\"2\\\" 3\"" := by decide +kernel

example : quoted "\x01\x7f\u200b" = "\"\\u\x7b1\x7d\\u\x7b7f\x7d\\u\x7b200b\x7d\"" := by
  decide +kernel

end Aperture.Text

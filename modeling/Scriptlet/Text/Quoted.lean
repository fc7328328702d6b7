import Scriptlet.Text.Visible

/-!
# Quoted text

Text between double quotes with escapes, in which every character can be told: quotes, backslashes
and the common controls have escapes of two characters, and other characters that are not visible on
their own are written by their code point in hexadecimal.
-/

namespace Scriptlet.Text

/-- A character as it stands between quotes. -/
def escaped (c : Char) : String :=
  match c with
  | '\x00' => "\\0"
  | '\t' => "\\t"
  | '\r' => "\\r"
  | '\n' => "\\n"
  | '\\' => "\\\\"
  | '"' => "\\\""
  | _ =>
      if isVisible c then String.ofList [c]
      else "\\u\x7b" ++ String.ofList (Nat.toDigits 16 c.toNat) ++ "\x7d"

/-- A text in double quotes. -/
def quoted (text : String) : String := "\"" ++ String.join (text.toList.map escaped) ++ "\""

end Scriptlet.Text

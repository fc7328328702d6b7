/-!
# Lines

Cutting a stream of bytes into lines, and reading a line as text.
-/

namespace Scriptlet.Text

/-- The byte that ends a line. -/
def lineFeed : UInt8 := 10

/-- The byte that may stand before the end of a line without being part of it. -/
def carriageReturn : UInt8 := 13

/-- Drops one carriage return from the end of a line that is held in reverse. -/
def dropReturn : List UInt8 → List UInt8
  | [] => []
  | byte :: rest => if byte = carriageReturn then rest else byte :: rest

/-- The lines of a stream, given the bytes of the current line in reverse. Each line feed ends a
line; what follows the last one is a line if it is not empty, and keeps a carriage return. -/
def linesAfter (current : List UInt8) : List UInt8 → List (List UInt8)
  | [] => if current.isEmpty then [] else [current.reverse]
  | byte :: rest =>
      if byte = lineFeed then (dropReturn current).reverse :: linesAfter [] rest
      else linesAfter (byte :: current) rest

/-- The lines of a stream of bytes. -/
def lines (bytes : List UInt8) : List (List UInt8) := linesAfter [] bytes

/-- The text that bytes encode in UTF-8. -/
def decode? (bytes : List UInt8) : Option String := String.fromUTF8? ⟨bytes.toArray⟩

/-- The message for bytes that encode no text. -/
def undecodableMessage : String := "stream did not contain valid UTF-8"

end Scriptlet.Text

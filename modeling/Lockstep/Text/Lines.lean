/-
Lockstep.Text.Lines — a stream of bytes as lines of text.

A line ends at a line feed, which is not part of it; a carriage return right before that line feed
is dropped too.  Bytes after the last line feed form a line of their own, unless there are none.
-/
namespace Lockstep.Text

/-- A line without the carriage return that stood before its line feed. -/
def dropReturn (line : List UInt8) : List UInt8 :=
  match line.reverse with
  | 13 :: rest => rest.reverse
  | _ => line

/-- The lines of a stream, given the bytes of the current line in reverse. -/
def splitLinesFrom : List UInt8 → List UInt8 → List (List UInt8)
  | [], [] => []
  | cur, [] => [cur.reverse]
  | cur, b :: bs =>
    if b = 10 then dropReturn cur.reverse :: splitLinesFrom [] bs
    else splitLinesFrom (b :: cur) bs

def splitLines (bs : List UInt8) : List (List UInt8) := splitLinesFrom [] bs

def decode? (bs : List UInt8) : Option String := String.fromUTF8? ⟨bs.toArray⟩

end Lockstep.Text

/-
Lockstep.Text.Clip — a text cut to a number of bytes, without splitting a character.
-/
namespace Lockstep.Text

/-- The last place between two characters, or at either end, with at most so many bytes in front of
it: the search goes down from there one byte at a time. -/
def lastBoundary (s : String) : Nat → s.Pos
  | 0 => s.startPos
  | n + 1 =>
    if h : String.Pos.Raw.IsValid s ⟨n + 1⟩ then ⟨⟨n + 1⟩, h⟩ else lastBoundary s n

/-- The beginning of `s` up to the last place with at most `room` bytes in front of it, or all of
`s` if it has no more than that. -/
def clip (room : Nat) (s : String) : String :=
  if s.utf8ByteSize ≤ room then s else (s.sliceTo (lastBoundary s room)).copy

end Lockstep.Text

/-
Lockstep.Text.Replace — replacing what is found in a text, from left to right.

A finder looks at the text from some place on and at the character in front of that place, and tells
how many characters it has found there, at least one, and what to put in their place.  What it has
found is passed over as a whole, and where it finds nothing one character stays as it is.
-/
namespace Lockstep.Text

/-- What stands at a place of a text, with the character in front: its length and its replacement. -/
abbrev Finder := Option Char → List Char → Option (Nat × List Char)

/-- A text with everything that is found replaced, given the character in front of it and the number
of characters of it that belong to what was found last. -/
def replaceFrom (find? : Finder) : Option Char → Nat → List Char → List Char
  | _, _, [] => []
  | _, rest + 1, c :: cs => replaceFrom find? (some c) rest cs
  | before, 0, c :: cs =>
    match find? before (c :: cs) with
    | some (length, new) => new ++ replaceFrom find? (some c) (length - 1) cs
    | none => c :: replaceFrom find? (some c) 0 cs

def replaceAll (find? : Finder) (cs : List Char) : List Char := replaceFrom find? none 0 cs

end Lockstep.Text

/-
Lockstep.Text.Radix — numbers as text.

Hexadecimal digits are lower case.  A width counts the digits alone, and a number that needs more
digits than its width is written in full.
-/
namespace Lockstep.Text

/-- The digits of `n` in base `b`, most significant first. -/
def digits (b n : Nat) : String := String.ofList (Nat.toDigits b n)

/-- `s` with copies of `c` put in front until it has `width` characters. -/
def padLeft (c : Char) (width : Nat) (s : String) : String :=
  String.ofList (List.replicate (width - s.length) c) ++ s

def padRight (width : Nat) (s : String) : String :=
  s ++ String.ofList (List.replicate (width - s.length) ' ')

def blanks (n : Nat) : String := String.ofList (List.replicate n ' ')

def hexDigits (width n : Nat) : String := padLeft '0' width (digits 16 n)

/-- The shortest hexadecimal form, such as `0x2a`. -/
def hex (n : Nat) : String := "0x" ++ digits 16 n

/-- The form of an address: eight hexadecimal digits, such as `0x80000000`. -/
def hex8 (n : Nat) : String := "0x" ++ hexDigits 8 n

/-- The form of a write mask: at least four binary digits, such as `0b0011`. -/
def bin4 (n : Nat) : String := "0b" ++ padLeft '0' 4 (digits 2 n)

def hexBytes (bs : List UInt8) : String := String.join (bs.map fun b => hexDigits 2 b.toNat)

end Lockstep.Text

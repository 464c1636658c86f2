/-
Lockstep.Text.Numeral — reading numbers.

A numeral is an optional sign and one or more digits, with nothing before, between or after.
Unsigned numerals take a plus sign only.  A numeral whose value leaves the given range is refused,
however it is written; leading zeros are free.
-/
namespace Lockstep.Text

/-- The value of a digit in base `b` (at most 16), or nothing if `c` is none. -/
def digitValue? (b : Nat) (c : Char) : Option Nat :=
  let v := c.toNat
  let d :=
    if 48 ≤ v ∧ v ≤ 57 then some (v - 48)
    else if 97 ≤ v ∧ v ≤ 102 then some (v - 87)
    else if 65 ≤ v ∧ v ≤ 70 then some (v - 55)
    else none
  d.filter (· < b)

/-- The value of a run of digits that continues the value `acc`. -/
def digitsValue? (b : Nat) : Nat → List Char → Option Nat
  | acc, [] => some acc
  | acc, c :: cs => (digitValue? b c).bind fun d => digitsValue? b (acc * b + d) cs

/-- One or more digits in base `b`. -/
def readDigits? (b : Nat) : List Char → Option Nat
  | [] => none
  | cs => digitsValue? b 0 cs

/-- An unsigned numeral in base `b` with a value below `limit`. -/
def readNat? (b limit : Nat) (cs : List Char) : Option Nat :=
  (match cs with
   | '+' :: rest => readDigits? b rest
   | _ => readDigits? b cs).filter (· < limit)

/-- A signed decimal numeral from `-bound` to `bound - 1`. -/
def readInt? (bound : Nat) (cs : List Char) : Option Int :=
  match cs with
  | '-' :: rest => ((readDigits? 10 rest).filter (· ≤ bound)).map fun n => -(n : Int)
  | '+' :: rest => ((readDigits? 10 rest).filter (· < bound)).map fun n => (n : Int)
  | _ => ((readDigits? 10 cs).filter (· < bound)).map fun n => (n : Int)

end Lockstep.Text

/-
Lockstep.Proofs.Text.Radix — numbers written with a fixed number of digits.

A number that has no more digits than the width is written with exactly that many
(`length_hexDigits`), and the zeros in front leave it the value that it has (`digits_hexDigits`).
Of two runs of digits side by side the first one counts by as many places as the second one has
(`Digits.append`), so that the bytes of a word, side by side, are the digits of the word
(`digits_flatMap_hexDigits`).
-/
import Lockstep.Proofs.Text.Numeral

namespace Lockstep.Text

variable {b n m width : Nat} {cs ds : List Char}

/-! ## Runs side by side -/

theorem Digits.append (first : Digits b cs n) (later : Digits b ds m) :
    Digits b (cs ++ ds) (n * b ^ ds.length + m) := by
  obtain ⟨some, es, high, rfl⟩ := first
  obtain ⟨-, fs, low, rfl⟩ := later
  refine ⟨List.append_ne_nil_of_left_ne_nil some ds, es ++ fs, List.rel_append high low, ?_⟩
  rw [List.reverse_append, Nat.ofDigits_append, List.length_reverse, low.length_eq]
  ring

/-- Leading zeros are free. -/
theorem Digits.zeros (base : 0 < b) (run : Digits b cs n) (count : Nat) :
    Digits b (List.replicate count '0' ++ cs) n := by
  induction count with
  | zero => exact run
  | succ count ih =>
    have zero : Digits b ['0'] 0 := ⟨by simp, [0], .cons (digit_digitChar base) .nil, rfl⟩
    rw [List.replicate_succ, List.cons_append]
    simpa using zero.append ih

/-! ## Fixed widths -/

theorem toList_hexDigits (width n : Nat) :
    (hexDigits width n).toList =
      List.replicate (width - (Nat.toDigits 16 n).length) '0' ++ Nat.toDigits 16 n := by
  simp [hexDigits, padLeft, digits]

theorem digits_hexDigits (width n : Nat) : Digits 16 (hexDigits width n).toList n := by
  rw [toList_hexDigits]
  exact (digits_toDigits (by decide) n).zeros (by decide) _

theorem length_hexDigits (some : 0 < width) (fits : n < 16 ^ width) :
    (hexDigits width n).toList.length = width := by
  have short := (Nat.length_toDigits_le_iff (by decide) some).mpr fits
  rw [toList_hexDigits, List.length_append, List.length_replicate]
  omega

/-- The value of bytes, the most significant one first. -/
def bytesValue (bs : List UInt8) : Nat := bs.foldl (fun value b => value * 256 + b.toNat) 0

theorem bytesValue_concat (bs : List UInt8) (b : UInt8) :
    bytesValue (bs ++ [b]) = bytesValue bs * 256 + b.toNat := by
  rw [bytesValue, List.foldl_append]
  rfl

theorem length_byte (b : UInt8) : (hexDigits 2 b.toNat).toList.length = 2 :=
  length_hexDigits (by decide) b.toNat_lt

/-- Bytes side by side, each with two digits, are the digits of their value. -/
theorem digits_flatMap_hexDigits {bs : List UInt8} (some : bs ≠ []) :
    Digits 16 (bs.flatMap fun b => (hexDigits 2 b.toNat).toList) (bytesValue bs) := by
  induction bs using List.reverseRecOn with
  | nil => exact absurd rfl some
  | append_singleton bs b ih =>
    have last := digits_hexDigits 2 b.toNat
    rw [List.flatMap_append, List.flatMap_singleton, bytesValue_concat]
    by_cases single : bs = []
    · subst single
      simpa [bytesValue] using last
    · have both := (ih single).append last
      rwa [length_byte] at both

/-! ## Bytes -/

/-- Each digit takes one byte. -/
theorem Digits.utf8ByteSize (small : b ≤ 16) (run : Digits b cs n) :
    (String.ofList cs).utf8ByteSize = cs.length := by
  have narrow : ∀ c ∈ cs, c.utf8Size = 1 := run.forall fun c d digit => by
    have place := digit.toNat small
    have few : d < 16 := Nat.lt_of_lt_of_le digit.1 small
    have value : c.val.toNat = c.toNat := rfl
    have limit : (127 : UInt32).toNat = 127 := rfl
    rw [Char.utf8Size_eq_one_iff, UInt32.le_iff_toNat_le, value, limit]
    split_ifs at place <;> omega
  clear run
  induction cs with
  | nil => rfl
  | cons c cs ih =>
    obtain ⟨first, others⟩ := List.forall_mem_cons.mp narrow
    rw [String.ofList_cons, String.utf8ByteSize_append, String.utf8ByteSize_singleton, first,
      ih others, List.length_cons, Nat.add_comm]

theorem utf8ByteSize_hexDigits (some : 0 < width) (fits : n < 16 ^ width) :
    (hexDigits width n).utf8ByteSize = width := by
  have size := (digits_hexDigits width n).utf8ByteSize (by decide)
  rwa [String.ofList_toList, length_hexDigits some fits] at size

/-- A number takes as many bytes as it has digits. -/
theorem utf8ByteSize_digits_le (base : 1 < b) (small : b ≤ 16) (some : 0 < width)
    (fits : n < b ^ width) : (digits b n).utf8ByteSize ≤ width := by
  rw [digits, (digits_toDigits base n).utf8ByteSize small]
  exact (Nat.length_toDigits_le_iff base some).mpr fits

end Lockstep.Text

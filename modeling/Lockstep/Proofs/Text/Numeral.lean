/-
Lockstep.Proofs.Text.Numeral — which texts are read as numbers, and as which ones.

A run of digits has the value that its digits have in the positional system (`Digits`), and a numeral
may have a plus sign in front of them (`Numeral`).  Reading accepts the numerals with a value in
range and nothing else (`readNat?_eq_some_iff`), and what is written is read back
(`digits_toDigits`, `readInt?_toString`).
-/
import Lockstep.Proofs.Text.Blank
import Lockstep.Text.Numeral
import Lockstep.Text.Radix
import Mathlib.Data.List.Forall2
import Mathlib.Data.Nat.Digits.Defs

namespace Lockstep.Text

variable {b limit n : Nat} {cs : List Char}

/-! ## Digits -/

/-- The character is the digit of value `d` in base `b`, of either case. -/
def Digit (b : Nat) (c : Char) (d : Nat) : Prop :=
  d < b ∧ (c = d.digitChar ∨ c = d.digitChar.toUpper)

theorem toNat_digitChar :
    ∀ d < 16, d.digitChar.toNat = if d < 10 then 48 + d else 87 + d := by
  decide

theorem toNat_toUpper_digitChar :
    ∀ d < 16, d.digitChar.toUpper.toNat = if d < 10 then 48 + d else 55 + d := by
  decide

theorem digitValue?_eq_some_iff (small : b ≤ 16) {c : Char} {d : Nat} :
    digitValue? b c = some d ↔ Digit b c d := by
  rw [digitValue?, Option.filter_eq_some_iff, decide_eq_true_iff, Digit, and_comm]
  refine and_congr_right fun inside => ?_
  have few : d < 16 := Nat.lt_of_lt_of_le inside small
  rw [← Char.toNat_inj, ← Char.toNat_inj, toNat_digitChar d few, toNat_toUpper_digitChar d few]
  split_ifs <;> grind

/-- The code point of a digit lies in one of three ranges. -/
theorem Digit.toNat (small : b ≤ 16) {c : Char} {d : Nat} (digit : Digit b c d) :
    if d < 10 then c.toNat = 48 + d else c.toNat = 87 + d ∨ c.toNat = 55 + d := by
  obtain ⟨inside, shape⟩ := digit
  have few : d < 16 := Nat.lt_of_lt_of_le inside small
  rw [← Char.toNat_inj, ← Char.toNat_inj, toNat_digitChar d few, toNat_toUpper_digitChar d few]
    at shape
  split_ifs at shape ⊢ <;> omega

theorem Digit.isDigit {c : Char} {d : Nat} (digit : Digit 10 c d) : c.isDigit := by
  have place := digit.toNat (by decide)
  rw [if_pos digit.1] at place
  have low : '0'.toNat = 48 := rfl
  have high : '9'.toNat = 57 := rfl
  have inside : d < 10 := digit.1
  rw [Char.isDigit_iff_toNat]
  omega

theorem Digit.not_blank (small : b ≤ 16) {c : Char} {d : Nat} (digit : Digit b c d) :
    isBlank c = false := by
  have place := digit.toNat small
  have few : d < 16 := Nat.lt_of_lt_of_le digit.1 small
  simp only [isBlank, Bool.or_eq_false_iff, Bool.and_eq_false_iff, decide_eq_false_iff_not,
    beq_eq_false_iff_ne]
  split_ifs at place <;> omega

theorem Digit.ne_plus {c : Char} {d : Nat} (small : b ≤ 16) (digit : Digit b c d) : c ≠ '+' := by
  rintro rfl
  have read := (digitValue?_eq_some_iff small).mpr digit
  rw [show digitValue? b '+' = none from rfl] at read
  cases read

theorem digit_digitChar {d : Nat} (inside : d < b) : Digit b d.digitChar d := ⟨inside, .inl rfl⟩

/-! ## Runs of digits -/

/-- The text is one or more digits in base `b`, with the value `n` in the positional system. -/
def Digits (b : Nat) (cs : List Char) (n : Nat) : Prop :=
  cs ≠ [] ∧ ∃ ds, List.Forall₂ (Digit b) cs ds ∧ n = Nat.ofDigits b ds.reverse

/-- What holds of every digit holds of every character of a run of digits. -/
theorem Digits.forall {p : Char → Prop} (run : Digits b cs n) (each : ∀ c d, Digit b c d → p c) :
    ∀ c ∈ cs, p c := by
  obtain ⟨-, ds, digits, -⟩ := run
  have both := digits.imp fun c d digit => And.intro (each c d digit) digit
  exact ((List.forall₂_and_left cs ds).mp both).1

theorem Digits.solid (small : b ≤ 16) (run : Digits b cs n) : Solid cs :=
  run.forall fun _ _ digit => digit.not_blank small

theorem not_digits_plus (small : b ≤ 16) : ¬ Digits b ('+' :: cs) n := by
  rintro ⟨-, ds, digits, -⟩
  cases digits with
  | cons first _ => exact first.ne_plus small rfl

/-- Reading a run of digits moves the value in front of it up by as many places. -/
theorem digitsValue?_eq_some_iff (small : b ≤ 16) {acc : Nat} :
    digitsValue? b acc cs = some n ↔
      ∃ ds, List.Forall₂ (Digit b) cs ds ∧ n = b ^ ds.length * acc + Nat.ofDigits b ds.reverse := by
  induction cs generalizing acc with
  | nil =>
    rw [digitsValue?, Option.some.injEq]
    constructor
    · rintro rfl
      exact ⟨[], .nil, by simp⟩
    · rintro ⟨ds, none, rfl⟩
      cases none
      simp
  | cons c cs ih =>
    rw [digitsValue?, Option.bind_eq_some_iff]
    -- the first digit goes in front of the value of the others
    have place (d : Nat) (ds : List Nat) :
        b ^ (d :: ds).length * acc + Nat.ofDigits b (d :: ds).reverse =
          b ^ ds.length * (acc * b + d) + Nat.ofDigits b ds.reverse := by
      rw [Nat.ofDigits_reverse_cons, List.length_cons, Nat.pow_succ]
      ring
    constructor
    · rintro ⟨d, first, later⟩
      obtain ⟨ds, digits, rfl⟩ := ih.mp later
      exact ⟨d :: ds, .cons ((digitValue?_eq_some_iff small).mp first) digits, (place d ds).symm⟩
    · rintro ⟨ds, digits, rfl⟩
      cases digits with
      | cons first digits =>
        exact ⟨_, (digitValue?_eq_some_iff small).mpr first, ih.mpr ⟨_, digits, place _ _⟩⟩

theorem readDigits?_eq_some_iff (small : b ≤ 16) : readDigits? b cs = some n ↔ Digits b cs n := by
  cases cs with
  | nil => simp [readDigits?, Digits]
  | cons c cs =>
    rw [readDigits?, digitsValue?_eq_some_iff small, Digits, and_iff_right (List.cons_ne_nil c cs)]
    · simp
    · intro empty
      cases empty

/-- What is written is read back: the written form of a number is a run of digits with its value. -/
theorem digits_toDigits (base : 1 < b) (n : Nat) : Digits b (Nat.toDigits b n) n := by
  refine ⟨Nat.toDigits_ne_nil, ?_⟩
  induction n using Nat.strong_induction_on with
  | _ n ih =>
    by_cases single : n < b
    · rw [Nat.toDigits_of_lt_base single]
      exact ⟨[n], .cons (digit_digitChar single) .nil, by simp⟩
    · have large : b ≤ n := Nat.le_of_not_lt single
      obtain ⟨ds, digits, value⟩ := ih (n / b) (Nat.div_lt_self (by omega) base)
      have last : n % b < b := Nat.mod_lt n (by omega)
      rw [Nat.toDigits_of_base_le base large]
      refine ⟨ds ++ [n % b], List.rel_append digits (.cons (digit_digitChar last) .nil), ?_⟩
      rw [List.reverse_append, List.reverse_singleton, List.singleton_append, Nat.ofDigits_cons,
        ← value]
      exact (Nat.mod_add_div n b).symm

theorem toList_hex (n : Nat) : (hex n).toList = '0' :: 'x' :: Nat.toDigits 16 n := by
  simp [hex, digits]

/-! ## Numerals -/

/-- The text is a run of digits in base `b`, perhaps behind a plus sign. -/
def Numeral (b : Nat) (cs : List Char) (n : Nat) : Prop :=
  Digits b cs n ∨ ∃ digits, cs = '+' :: digits ∧ Digits b digits n

theorem readNat?_eq_some_iff (small : b ≤ 16) :
    readNat? b limit cs = some n ↔ Numeral b cs n ∧ n < limit := by
  rw [readNat?.eq_def, Option.filter_eq_some_iff, decide_eq_true_iff, Numeral]
  refine and_congr_left fun _ => ?_
  split
  · next digits =>
    rw [readDigits?_eq_some_iff small]
    constructor
    · exact fun run => .inr ⟨digits, rfl, run⟩
    · rintro (run | ⟨_, same, run⟩)
      · exact absurd run (not_digits_plus small)
      · cases same
        exact run
  · next signless =>
    rw [readDigits?_eq_some_iff small]
    refine (or_iff_left ?_).symm
    rintro ⟨digits, rfl, -⟩
    exact signless digits rfl

/-- A numeral has one value. -/
theorem Numeral.unique {m : Nat} (small : b ≤ 16) (h : Numeral b cs n) (h' : Numeral b cs m) :
    n = m := by
  have first : readNat? b (n + m + 1) cs = some n :=
    (readNat?_eq_some_iff small).mpr ⟨h, by omega⟩
  rw [(readNat?_eq_some_iff small).mpr ⟨h', by omega⟩] at first
  exact (Option.some.inj first).symm

theorem Numeral.solid (small : b ≤ 16) (h : Numeral b cs n) : Solid cs := by
  rcases h with run | ⟨digits, rfl, run⟩
  · exact run.solid small
  · exact List.forall_mem_cons.mpr ⟨by decide, run.solid small⟩

theorem numeral_toDigits (base : 1 < b) (n : Nat) : Numeral b (Nat.toDigits b n) n :=
  .inl (digits_toDigits base n)

/-! ## Signed numbers -/

theorem toList_toString_int (n : Int) :
    (toString n).toList =
      if 0 ≤ n then Nat.toDigits 10 n.toNat else '-' :: Nat.toDigits 10 (-n).toNat := by
  rw [Int.toString_eq_repr, Int.repr_eq_if]
  split
  · exact Nat.toList_repr
  · rw [String.toList_append, Nat.toList_repr]
    rfl

/-- A number in range is read back from its written form. -/
theorem readInt?_toString {bound : Nat} {n : Int} (low : -bound ≤ n) (high : n < bound) :
    readInt? bound (toString n).toList = some n := by
  have digits (m : Nat) : readDigits? 10 (Nat.toDigits 10 m) = some m :=
    (readDigits?_eq_some_iff (by decide)).mpr (digits_toDigits (by decide) m)
  rw [toList_toString_int]
  split
  · next positive =>
    have run := (digits_toDigits (b := 10) (by decide) n.toNat).forall
      (p := fun c => c.isDigit) fun _ _ digit => digit.isDigit
    have inside : n.toNat < bound := by omega
    have value : ((n.toNat : Nat) : Int) = n := Int.toNat_of_nonneg positive
    rw [readInt?.eq_def]
    split
    -- neither sign is a digit
    · next signed => simp [signed] at run
    · next signed => simp [signed] at run
    · simp [digits, Option.filter, inside, value]
  · next negative =>
    have inside : (-n).toNat ≤ bound := by omega
    have value : -max (-n) 0 = n := by omega
    simp [readInt?, digits, Option.filter, inside, value]

end Lockstep.Text

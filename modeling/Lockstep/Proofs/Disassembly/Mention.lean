/-
Lockstep.Proofs.Disassembly.Mention — what is found in the text of an operand.

An operand is a register, a number, a register with an offset or a row of letters, and it ends where
the text ends or at a comma (`Ends`).  A register with an offset is found to be a memory operand, any
other register is found by itself, and nothing is found anywhere inside a number or inside letters.
-/
import Lockstep.Disassembly.Annotation
import Lockstep.Proofs.Text.Numeral

namespace Lockstep.Disassembly

variable {before : Option Char} {cs rest : List Char}

/-! ## Numbers and names -/

/-- An operand ends where the text ends, or at a comma. -/
def Ends (rest : List Char) : Prop := ∀ c ∈ rest.head?, c = ','

theorem digitRun?_append {ds : List Char} (long : ds ≠ []) (digits : ∀ c ∈ ds, c.isDigit)
    (stop : ∀ c ∈ rest.head?, c.isDigit = false) : digitRun? (ds ++ rest) = some (ds, rest) := by
  have none : rest.takeWhile Char.isDigit = [] ∧ rest.dropWhile Char.isDigit = rest := by
    cases rest with
    | nil => exact ⟨rfl, rfl⟩
    | cons c rest => simp [stop c rfl]
  rw [digitRun?, List.takeWhile_append_of_pos digits, List.dropWhile_append_of_pos digits, none.1,
    none.2, List.append_nil]
  cases ds with
  | nil => exact absurd rfl long
  | cons d ds => rfl

theorem digitRun?_of_stop (stop : ∀ c ∈ cs.head?, c.isDigit = false) : digitRun? cs = none := by
  cases cs with
  | nil => rfl
  | cons c cs => simp [digitRun?, stop c rfl]

/-- There is no memory operand where the number, if any, is not followed by a parenthesis. -/
theorem memoryMention?_of_ends (apart : ∀ run, offset? before cs = some run → Ends run.2) :
    memoryMention? before cs = none := by
  rw [memoryMention?]
  split
  · next offset cs' found =>
    have comma := apart _ found '(' rfl
    cases comma
  · rfl

theorem memoryMention?_of_other {c : Char} (sign : c ≠ '-') (other : c.isDigit = false) :
    memoryMention? before (c :: cs) = none := by
  have none : offset? before (c :: cs) = none := by
    rw [offset?.eq_def]
    split
    · next same =>
      cases same
      exact absurd rfl sign
    · rw [digitRun?_of_stop (by simpa using other), ite_self]
  exact memoryMention?_of_ends (by simp [none])

theorem registerMention?_of_other {c : Char} (other : c ≠ 'x') :
    registerMention? before (c :: cs) = none := by
  have none : registerName? (c :: cs) = none := by
    rw [registerName?.eq_def]
    split
    · next same =>
      cases same
      exact absurd rfl other
    · rfl
  rw [registerMention?, none]

theorem isDigit_of_mem (n : Nat) : ∀ c ∈ Nat.toDigits 10 n, c.isDigit :=
  fun _ inside => Nat.isDigit_of_mem_toDigits (by decide) (by decide) inside

theorem Ends.not_digit (ends : Ends rest) : ∀ c ∈ rest.head?, c.isDigit = false := by
  intro c first
  rw [ends c first]
  rfl

theorem toList_registerText (r : RegisterNumber) :
    (registerText r).toList = 'x' :: Nat.toDigits 10 r.val := by
  simp [registerText]

theorem registerName?_registerText (r : RegisterNumber)
    (stop : ∀ c ∈ rest.head?, c.isDigit = false) :
    registerName? ((registerText r).toList ++ rest) = some ((registerText r).toList, rest) := by
  rw [toList_registerText, List.cons_append, registerName?,
    digitRun?_append Nat.toDigits_ne_nil (isDigit_of_mem _) stop]
  rfl

/-- No sign is a digit. -/
theorem offset?_of_digit {c : Char} (digit : c.isDigit) :
    offset? before (c :: cs) = if bounds before then digitRun? (c :: cs) else none := by
  rw [offset?.eq_def]
  split
  · next same =>
    cases same
    simp at digit
  · rfl

theorem offset?_digits {ds : List Char} (long : ds ≠ []) (digits : ∀ c ∈ ds, c.isDigit)
    (stop : ∀ c ∈ rest.head?, c.isDigit = false) :
    offset? before (ds ++ rest) = if bounds before then some (ds, rest) else none := by
  rw [← digitRun?_append long digits stop]
  obtain ⟨d, tail, rfl⟩ := List.exists_cons_of_ne_nil long
  exact offset?_of_digit (digits d List.mem_cons_self)

/-- A number that begins a word is found as it is written. -/
theorem offset?_toString (n : Int) (start : bounds before)
    (stop : ∀ c ∈ rest.head?, c.isDigit = false) :
    offset? before ((toString n).toList ++ rest) = some ((toString n).toList, rest) := by
  rw [Text.toList_toString_int]
  split
  · rw [offset?_digits Nat.toDigits_ne_nil (isDigit_of_mem n.toNat) stop, if_pos start]
  · rw [List.cons_append, offset?, digitRun?_append Nat.toDigits_ne_nil (isDigit_of_mem _) stop]
    rfl

/-! ## Operands -/

theorem mention?_register (r : RegisterNumber) (start : bounds before) (ends : Ends rest) :
    mention? before ((registerText r).toList ++ rest) =
      some (.register (registerText r).toList) := by
  have apart : bounds rest.head? := by
    cases first : rest.head? with
    | none => rfl
    | some c =>
      rw [ends c first]
      rfl
  have memory : memoryMention? before ((registerText r).toList ++ rest) = none := by
    rw [toList_registerText]
    exact memoryMention?_of_other (by decide) (by decide)
  rw [mention?, memory, Option.none_or, registerMention?,
    registerName?_registerText r ends.not_digit]
  simp [start, apart]

theorem mention?_memory (n : Int) (r : RegisterNumber) (start : bounds before) :
    mention? before ((toString n).toList ++ '(' :: ((registerText r).toList ++ ')' :: rest)) =
      some (.memory (toString n).toList (registerText r).toList) := by
  have base : registerName? ((registerText r).toList ++ ')' :: rest) = _ :=
    registerName?_registerText r (by simp)
  rw [mention?, memoryMention?, offset?_toString n start (by simp)]
  simp only [base, Option.some_or]

theorem mention?_digits {ds : List Char} (long : ds ≠ []) (digits : ∀ c ∈ ds, c.isDigit)
    (ends : Ends rest) : mention? before (ds ++ rest) = none := by
  have memory : memoryMention? before (ds ++ rest) = none := by
    refine memoryMention?_of_ends fun run found => ?_
    rw [offset?_digits long digits ends.not_digit, Option.ite_none_right_eq_some] at found
    cases found.2
    exact ends
  obtain ⟨d, tail, rfl⟩ := List.exists_cons_of_ne_nil long
  have register : registerMention? before (d :: tail ++ rest) = none := by
    refine registerMention?_of_other ?_
    rintro rfl
    simpa using digits 'x' List.mem_cons_self
  rw [mention?, memory, register, Option.none_or]

/-- Nothing is found in a number that is an operand of its own. -/
theorem mention?_number {n : Int} {back : List Char} (long : back ≠ [])
    (inside : back <:+ (toString n).toList) (ends : Ends rest) :
    mention? before (back ++ rest) = none := by
  rw [Text.toList_toString_int] at inside
  split at inside
  · exact mention?_digits long (fun c mem => isDigit_of_mem _ c (inside.subset mem)) ends
  · rcases List.suffix_cons_iff.mp inside with rfl | inside
    · have memory : memoryMention? before ('-' :: Nat.toDigits 10 (-n).toNat ++ rest) = none := by
        refine memoryMention?_of_ends fun run found => ?_
        rw [List.cons_append, offset?,
          digitRun?_append Nat.toDigits_ne_nil (isDigit_of_mem _) ends.not_digit] at found
        cases found
        exact ends
      rw [mention?, memory, List.cons_append, registerMention?_of_other (by decide), Option.none_or]
    · exact mention?_digits long (fun c mem => isDigit_of_mem _ c (inside.subset mem)) ends

/-- Letters of both cases come after the digits. -/
theorem not_digit_of_alpha {c : Char} (letter : c.isAlpha) : c.isDigit = false := by
  rw [Bool.eq_false_iff, ne_eq, Char.isDigit_iff_toNat]
  rintro ⟨-, low⟩
  have low : c.val.toNat ≤ 57 := low
  rcases Bool.or_eq_true_iff.mp letter with upper | lower
  · have high : 65 ≤ c.val.toNat := (of_decide_eq_true upper).1
    omega
  · have high : 97 ≤ c.val.toNat := of_decide_eq_true (Bool.and_eq_true_iff.mp lower).1
    omega

/-- Nothing is found in letters, unless a digit stands behind them. -/
theorem mention?_letters {back : List Char} (long : back ≠ []) (letters : ∀ c ∈ back, c.isAlpha)
    (stop : ∀ c ∈ rest.head?, c.isDigit = false) : mention? before (back ++ rest) = none := by
  obtain ⟨c, tail, rfl⟩ := List.exists_cons_of_ne_nil long
  obtain ⟨letter, letters⟩ := List.forall_mem_cons.mp letters
  have next : ∀ d ∈ (tail ++ rest).head?, d.isDigit = false := by
    cases tail with
    | nil => exact stop
    | cons d tail =>
      intro _ first
      cases first
      exact not_digit_of_alpha (letters d List.mem_cons_self)
  have memory : memoryMention? before (c :: (tail ++ rest)) = none :=
    memoryMention?_of_other (by rintro rfl; cases letter) (not_digit_of_alpha letter)
  have register : registerMention? before (c :: (tail ++ rest)) = none := by
    by_cases x : c = 'x'
    · subst x
      rw [registerMention?, registerName?, digitRun?_of_stop next]
      rfl
    · exact registerMention?_of_other x
  rw [List.cons_append, mention?, memory, register, Option.none_or]

theorem mention?_of_other {c : Char} (sign : c ≠ '-') (letter : c ≠ 'x')
    (other : c.isDigit = false) : mention? before (c :: cs) = none := by
  rw [mention?, memoryMention?_of_other sign other, registerMention?_of_other letter,
    Option.none_or]

end Lockstep.Disassembly

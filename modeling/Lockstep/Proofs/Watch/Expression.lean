/-
Lockstep.Proofs.Watch.Expression — which texts the standard evaluator accepts, and what they stand
for.

An operand is a hexadecimal numeral behind `0x` or `0X`, a run of decimal digits, or a name
(`Stands`), with white space around it (`Denotes`).  A literal is its own value, and a name has the
word that the machine state holds where it refers to (`Operand.Gives`).  The evaluator reads the
first two characters to tell the three apart, and no text is an operand in two ways
(`Stands.unique`), so what it finds is the value of what the text denotes
(`valueOf?_eq_some_iff`).  Names never begin with a digit, so the text `0`, which a look-up would
take for register 0, is a numeral.
-/
import Lockstep.Console.Loop
import Lockstep.Proofs.Machine.Lookup

namespace Lockstep.Expression

open Text (Blank Solid Digits Numeral)
open Source (Names)

/-! ## Operands -/

/-- A single operand. -/
inductive Operand where
  | literal (w : Word)
  | source (r : Source)

/-- The text stands for the operand. -/
inductive Stands : List Char → Operand → Prop where
  | hexadecimal {x : Char} {digits : List Char} {n : Nat} (mark : x = 'x' ∨ x = 'X')
    (value : Numeral 16 digits n) (inside : n < 2 ^ 32) :
    Stands ('0' :: x :: digits) (.literal (UInt32.ofNat n))
  | decimal {cs : List Char} {n : Nat} (value : Digits 10 cs n) (inside : n < 2 ^ 32) :
    Stands cs (.literal (UInt32.ofNat n))
  | source {cs : List Char} {r : Source} (name : Names cs r) : Stands cs (.source r)

/-- The operand has the word as its value in a machine state. -/
inductive Operand.Gives (s : MachineState) : Operand → Word → Prop where
  | literal (w : Word) : Gives s (.literal w) w
  | source {r : Source} {v : Word} (held : s.Holds r v) : Gives s (.source r) v

variable {cs : List Char} {o o' : Operand} {s : MachineState} {v : Word}

theorem Stands.solid (h : Stands cs o) : Solid cs := by
  cases h with
  | hexadecimal mark value =>
    have digits := value.solid (by decide)
    rcases mark with rfl | rfl <;>
      exact List.forall_mem_cons.mpr ⟨by decide, List.forall_mem_cons.mpr ⟨by decide, digits⟩⟩
  | decimal value => exact value.solid (by decide)
  | source name => exact name.solid

theorem isDigit_of_digits {n : Nat} (run : Digits 10 cs n) : ∀ c ∈ cs, c.isDigit = true :=
  run.forall fun _ _ digit => digit.isDigit

/-- The letter of a hexadecimal mark is no decimal digit. -/
theorem not_digits_mark {x : Char} (mark : x = 'x' ∨ x = 'X') {n : Nat} :
    ¬ Digits 10 ('0' :: x :: cs) n := by
  intro run
  have digit := isDigit_of_digits run x (by simp)
  rcases mark with rfl | rfl <;> simp at digit

/-- No text stands for two operands. -/
theorem Stands.unique (h : Stands cs o) (h' : Stands cs o') : o = o' := by
  -- A numeral is told from a name by its first character, and the two kinds of numerals by the
  -- second one.
  have apart {cs : List Char} {r : Source} (name : Names cs r) {rest : List Char} {c : Char}
      (digit : c.isDigit = true) : cs ≠ c :: rest := by
    rintro rfl
    obtain ⟨_, _, same, other⟩ := name.starts
    cases same
    rw [digit] at other
    cases other
  have run {cs : List Char} {r : Source} (name : Names cs r) {n : Nat} : ¬ Digits 10 cs n := by
    intro digits
    obtain ⟨c, rest, rfl, -⟩ := name.starts
    exact apart name (isDigit_of_digits digits c List.mem_cons_self) rfl
  cases h with
  | hexadecimal mark value inside =>
    cases h' with
    | hexadecimal _ value' _ => rw [value.unique (by decide) value']
    | decimal value' => exact absurd value' (not_digits_mark mark)
    | source name => exact absurd rfl (apart name (by decide))
  | decimal value inside =>
    cases h' with
    | hexadecimal mark _ _ => exact absurd value (not_digits_mark mark)
    | decimal value' => rw [Numeral.unique (by decide) (.inl value) (.inl value')]
    | source name => exact absurd value (run name)
  | source name =>
    cases h' with
    | hexadecimal _ _ _ => exact absurd rfl (apart name (by decide))
    | decimal value' => exact absurd value' (run name)
    | source name' => rw [name.unique name']

/-- The evaluator finds the value of what a text stands for. -/
theorem valueOf?_eq_some_iff : valueOf? s cs = some v ↔ ∃ o, Stands cs o ∧ o.Gives s v := by
  constructor
  · intro read
    rw [valueOf?.eq_def] at read
    split at read
    · obtain ⟨n, value, rfl⟩ := Option.map_eq_some_iff.mp read
      obtain ⟨value, inside⟩ := (Text.readNat?_eq_some_iff (by decide)).mp value
      exact ⟨_, .hexadecimal (.inl rfl) value inside, .literal _⟩
    · obtain ⟨n, value, rfl⟩ := Option.map_eq_some_iff.mp read
      obtain ⟨value, inside⟩ := (Text.readNat?_eq_some_iff (by decide)).mp value
      exact ⟨_, .hexadecimal (.inr rfl) value inside, .literal _⟩
    · next c rest _ _ =>
      split at read
      · next digit =>
        obtain ⟨n, value, rfl⟩ := Option.map_eq_some_iff.mp read
        obtain ⟨run | ⟨_, plus, _⟩, inside⟩ := (Text.readNat?_eq_some_iff (by decide)).mp value
        · exact ⟨_, .decimal run inside, .literal _⟩
        · cases plus
          simp at digit
      · next other =>
        rcases MachineState.lookup?_eq_some_iff.mp read with ⟨r, name, held⟩ | ⟨zero, -⟩
        · exact ⟨_, .source name, .source held⟩
        · cases zero
          simp at other
    · have nothing : Source.ofName? "" = none := by decide
      simp [MachineState.lookup?, nothing] at read
  · rintro ⟨o, stands, gives⟩
    cases stands with
    | hexadecimal mark value inside =>
      have read : Text.readNat? 16 wordLimit _ = some _ :=
        (Text.readNat?_eq_some_iff (by decide)).mpr ⟨value, inside⟩
      cases gives
      rcases mark with rfl | rfl <;> simp [valueOf?, read]
    | decimal run inside =>
      have digits := isDigit_of_digits run
      have read : Text.readNat? 10 wordLimit cs = some _ :=
        (Text.readNat?_eq_some_iff (by decide)).mpr ⟨.inl run, inside⟩
      cases gives
      rw [valueOf?.eq_def]
      split
      · exact absurd run (not_digits_mark (.inl rfl))
      · exact absurd run (not_digits_mark (.inr rfl))
      · next c rest _ _ =>
        rw [if_pos (digits c List.mem_cons_self), read]
        rfl
      · exact absurd rfl run.1
    | source name =>
      obtain - | held := gives
      obtain ⟨c, rest, rfl, other⟩ := name.starts
      have found := MachineState.lookup?_eq_some_iff.mpr (.inl ⟨_, name, held⟩)
      rw [valueOf?.eq_def]
      split
      · next same =>
        cases same
        simp at other
      · next same =>
        cases same
        simp at other
      · next same =>
        cases same
        rw [if_neg (by simp [other]), found]
      · contradiction

/-- A plus sign and leading zeros belong to a number behind `x` as well. -/
example : valueOf? { MachineState.zero with gpr := .set .zero .t0 42 } "$x+05".toList = some 42 := by
  decide

/-! ## Texts -/

/-- The text is one that stands for the operand, with white space around it. -/
def Denotes (text : String) (o : Operand) : Prop :=
  ∃ before cs after, Blank before ∧ Blank after ∧ text.toList = before ++ cs ++ after ∧ Stands cs o

theorem denotes_iff {text : String} : Denotes text o ↔ Stands (Text.trim text.toList) o := by
  constructor
  · rintro ⟨before, cs, after, front, back, split, stands⟩
    rwa [split, Text.trim_padded front stands.solid.trimmed back]
  · intro stands
    obtain ⟨before, after, front, back, split⟩ := Text.exists_padding text.toList
    exact ⟨before, _, after, front, back, split, stands⟩

theorem standard_eq_some_iff {text : String} :
    Evaluator.standard text s = some v ↔ ∃ o, Denotes text o ∧ o.Gives s v := by
  simp only [denotes_iff]
  exact valueOf?_eq_some_iff

theorem Stands.denotes {text : String} (h : Stands text.toList o) : Denotes text o :=
  ⟨[], text.toList, [], Text.blank_nil, Text.blank_nil, by simp, h⟩

theorem denotes_decimal (w : Word) : Denotes (toString w.toNat) (.literal w) := by
  refine Stands.denotes ?_
  have run := Text.digits_toDigits (b := 10) (by decide) w.toNat
  have stands := Stands.decimal run w.toNat_lt
  rw [UInt32.ofNat_toNat] at stands
  rw [Nat.toString_eq_ofList_toDigits, String.toList_ofList]
  exact stands

theorem denotes_hex (w : Word) : Denotes (Text.hex w.toNat) (.literal w) := by
  refine Stands.denotes ?_
  have value := Text.numeral_toDigits (b := 16) (by decide) w.toNat
  have stands := Stands.hexadecimal (.inl rfl) value w.toNat_lt
  rw [UInt32.ofNat_toNat] at stands
  rw [Text.toList_hex]
  exact stands

/-! ## The evaluator as a whole -/

/-- The evaluator knows single operands and nothing else. -/
structure KnowsOperands (eval : Evaluator) : Prop where
  /-- What a text is evaluated to is the value of what it denotes. -/
  value : ∀ text s v, eval text s = some v ↔ ∃ o, Denotes text o ∧ o.Gives s v
  /-- No text stands for two things. -/
  unique : ∀ text o o', Denotes text o → Denotes text o' → o = o'
  /-- Both forms in which a word is printed have that word as their value. -/
  printed : ∀ w, ∃ hex decimal,
    Console.resultLine w = "Result: " ++ hex ++ " (" ++ decimal ++ ")\n" ∧
      ∀ s, eval hex s = some w ∧ eval decimal s = some w
  /-- Only one `$` is dropped, and register 0 has no other name. -/
  nameless : ∀ s, eval "$$0" s = none ∧ eval "zero" s = none

theorem standard_knows_operands : KnowsOperands Evaluator.standard where
  value _ _ _ := standard_eq_some_iff
  unique _ _ _ h h' := (denotes_iff.mp h).unique (denotes_iff.mp h')
  printed w := by
    refine ⟨Text.hex w.toNat, toString w.toNat, ?_, fun s => ⟨?_, ?_⟩⟩
    · have both : Entry.bothBases w = Text.hex w.toNat ++ " (" ++ toString w.toNat ++ ")" := rfl
      rw [Console.resultLine, both]
      simp only [String.append_assoc]
      rfl
    · exact standard_eq_some_iff.mpr ⟨_, denotes_hex w, .literal w⟩
    · exact standard_eq_some_iff.mpr ⟨_, denotes_decimal w, .literal w⟩
  nameless s := by
    have marks : Source.ofName? "$$0" = none := by decide
    have word : Source.ofName? "zero" = none := by decide
    constructor
    · have unknown : s.lookup? "$$0" = none := by rw [MachineState.lookup?, marks]; rfl
      exact unknown
    · have unknown : s.lookup? "zero" = none := by rw [MachineState.lookup?, word]; rfl
      exact unknown

/-- Every spelling of a register gives what the register holds. -/
example : ["pc", "a0", " $a0 ", "x10", "$0", "mtvec", "x16", "t6"].map
    (Evaluator.standard · ⟨.set .zero .a0 42, 0x80000004, .set .zero .mtvec 0x100, 0⟩) =
      [some 0x80000004, some 42, some 42, some 42, some 0, some 0x100, none, none] := by
  decide

end Lockstep.Expression

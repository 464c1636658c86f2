/-
Lockstep.Proofs.Disassembly.TraceLine — a trace line tells the address and the bits of its
instruction, and the ring keeps it whole.

The address has eight digits and each byte of the instruction two, and the blanks behind the bytes
make up for those that a short instruction lacks.  So the text always begins in the same column
(`textColumn`), and what stands in front of it is read back by column (`lineAddr?`, `lineBits?`).
No text is longer than its mnemonic and the widest forms of its operands (`Shows.size_le`), which
leaves every line within the width of a record (`Lossless`).
-/
import Lockstep.Disassembly.TraceLine
import Lockstep.Proofs.Disassembly.Annotation
import Lockstep.Proofs.Text.Radix
import Lockstep.Proofs.Trace.Ring

namespace Lockstep.Disassembly

variable {gpr : Registers}

/-! ## Columns -/

/-- The bytes of an instruction as a trace line shows them, most significant first. -/
def shownBytes (w : Word) : List UInt8 := ((Word.bytes w).take (lengthOf w)).reverse

/-- The column in which the text of an instruction begins. -/
def textColumn : Nat := 25

/-- The address that a trace line tells in its columns 2 to 9. -/
def lineAddr? (line : String) : Option Nat := Text.readDigits? 16 ((line.toList.drop 2).take 8)

/-- The digits of the instruction in a trace line, between the address and the text. -/
def lineDigits (line : String) : List Char :=
  ((line.toList.take textColumn).drop 11).filter (· ≠ ' ')

/-- How many bits of its instruction a trace line tells, and their value. -/
def lineBits? (line : String) : Option (Nat × Nat) :=
  (Text.readDigits? 16 (lineDigits line)).map fun n => (4 * (lineDigits line).length, n)

/-- Instructions are four bytes long if the low two bits are set. -/
theorem lengthOf_eq (w : Word) : lengthOf w = if w &&& 3 = 3 then 4 else 2 := by
  have low : (w &&& 3).toNat = w.toNat % 4 := by
    rw [UInt32.toNat_and]
    exact Nat.and_two_pow_sub_one_eq_mod w.toNat 2
  have same : w &&& 3 = 3 ↔ w.toNat % 4 = 3 := by
    rw [← UInt32.toNat_inj, low]
    rfl
  simp only [lengthOf, same]

theorem lengthOf_cases (w : Word) : lengthOf w = 4 ∨ lengthOf w = 2 := by
  rw [lengthOf]
  split
  · exact .inl rfl
  · exact .inr rfl

theorem length_shownBytes (w : Word) : (shownBytes w).length = lengthOf w := by
  rcases lengthOf_cases w with length | length <;> simp [shownBytes, length, Word.bytes]

/-- The bytes that are shown are the low bits of the word, all of them if there are four. -/
theorem bytesValue_shownBytes (w : Word) :
    Text.bytesValue (shownBytes w) = w.toNat % 2 ^ (8 * lengthOf w) := by
  have bound := w.toNat_lt
  rcases lengthOf_cases w with length | length <;>
    simp [shownBytes, length, Word.bytes, Text.bytesValue, Word.byte, Nat.shiftRight_eq_div_pow] <;>
    omega

theorem toList_byteColumn (w : Word) :
    (byteColumn w).toList =
      (shownBytes w).flatMap fun b => ' ' :: (Text.hexDigits 2 b.toNat).toList := by
  rw [byteColumn, String.toList_join, List.flatMap_map]
  simp only [String.toList_append]
  rfl

theorem toList_gap (w : Word) : (gap w).toList = List.replicate ((4 - lengthOf w) * 3 + 2) ' ' := by
  simp [gap, Text.blanks]

theorem length_byteColumn (w : Word) : (byteColumn w).toList.length = 3 * lengthOf w := by
  simp only [toList_byteColumn, List.length_flatMap, List.length_cons, Text.length_byte,
    List.map_const', List.sum_replicate_nat, length_shownBytes, Nat.mul_comm]

/-- The address and the colon behind it. -/
def addressPart (pc : Addr) : List Char := (Text.hex8 pc.toNat).toList ++ [':']

/-- The columns of the bytes, with the blanks behind them. -/
def bytesPart (w : Word) : List Char := (byteColumn w).toList ++ (gap w).toList

theorem toList_traceLine (pc : Addr) (w : Word) (gpr : Registers) :
    (traceLine pc w gpr).toList =
      addressPart pc ++ bytesPart w ++ (annotatedText gpr w).toList := by
  simp [traceLine, addressPart, bytesPart]

theorem addressPart_eq (pc : Addr) :
    addressPart pc = ['0', 'x'] ++ ((Text.hexDigits 8 pc.toNat).toList ++ [':']) := by
  simp [addressPart, Text.hex8]

theorem length_address (pc : Addr) : (Text.hexDigits 8 pc.toNat).toList.length = 8 :=
  Text.length_hexDigits (by decide) pc.toNat_lt

theorem length_addressPart (pc : Addr) : (addressPart pc).length = 11 := by
  rw [addressPart_eq, List.length_append, List.length_append, length_address]
  rfl

theorem length_bytesPart (w : Word) : (bytesPart w).length = 14 := by
  have cases := lengthOf_cases w
  rw [bytesPart, List.length_append, length_byteColumn, toList_gap, List.length_replicate]
  omega

/-- Without the blanks there are the digits of the bytes. -/
theorem filter_bytesPart (w : Word) :
    (bytesPart w).filter (· ≠ ' ') =
      (shownBytes w).flatMap fun b => (Text.hexDigits 2 b.toNat).toList := by
  rw [bytesPart, List.filter_append, toList_gap, List.filter_replicate_of_neg (by simp),
    List.append_nil, toList_byteColumn]
  induction shownBytes w with
  | nil => rfl
  | cons b bs ih =>
    have solid := (Text.digits_hexDigits 2 b.toNat).solid (by decide)
    have kept : (Text.hexDigits 2 b.toNat).toList.filter (· ≠ ' ') =
        (Text.hexDigits 2 b.toNat).toList := by
      refine List.filter_eq_self.mpr fun c mem => decide_eq_true ?_
      rintro rfl
      exact absurd (solid _ mem) (by decide)
    simp only [List.flatMap_cons, List.filter_append, ih]
    rw [List.filter_cons_of_neg (by simp), kept]

/-! ## Reading back -/

section Read

variable (pc : Addr) (w : Word) (gpr : Registers)

/-- In front of the text there are as many characters as columns. -/
theorem length_front : (addressPart pc ++ bytesPart w).length = textColumn := by
  rw [List.length_append, length_addressPart, length_bytesPart]
  rfl

/-- The text begins in its column. -/
theorem drop_traceLine :
    (traceLine pc w gpr).toList.drop textColumn = (annotatedText gpr w).toList := by
  rw [toList_traceLine]
  exact List.drop_left' (length_front pc w)

theorem lineAddr?_traceLine : lineAddr? (traceLine pc w gpr) = some pc.toNat := by
  rw [lineAddr?, toList_traceLine, addressPart_eq, List.append_assoc, List.append_assoc,
    List.append_assoc, List.drop_left' (by rfl), List.take_left' (length_address pc),
    Text.readDigits?_eq_some_iff (by decide)]
  exact Text.digits_hexDigits 8 pc.toNat

theorem lineDigits_traceLine :
    lineDigits (traceLine pc w gpr) =
      (shownBytes w).flatMap fun b => (Text.hexDigits 2 b.toNat).toList := by
  rw [lineDigits, toList_traceLine, List.take_left' (length_front pc w),
    List.drop_left' (length_addressPart pc), filter_bytesPart]

theorem lineBits?_traceLine :
    lineBits? (traceLine pc w gpr) =
      some (8 * lengthOf w, w.toNat % 2 ^ (8 * lengthOf w)) := by
  have some : shownBytes w ≠ [] := by
    have cases := lengthOf_cases w
    have length := length_shownBytes w
    rintro none
    rw [none, List.length_nil] at length
    omega
  have run := Text.digits_flatMap_hexDigits some
  have two : (lineDigits (traceLine pc w gpr)).length = 2 * lengthOf w := by
    simp only [lineDigits_traceLine, List.length_flatMap, Text.length_byte, List.map_const',
      List.sum_replicate_nat, length_shownBytes, Nat.mul_comm]
  rw [bytesValue_shownBytes, ← lineDigits_traceLine pc w gpr,
    ← Text.readDigits?_eq_some_iff (by decide)] at run
  rw [lineBits?, run, two, Option.map_some, ← Nat.mul_assoc]

end Read

/-! ## The size of a line -/

/-- The most bytes that an operand takes when it is shown. -/
def Operand.room : Operand → Nat
  | register _ => 15
  | number _ => 11
  | memory _ _ => 41
  | accesses _ => 4

theorem size_registerText (r : RegisterNumber) : (registerText r).utf8ByteSize ≤ 3 := by
  revert r
  decide

theorem size_shown (w : Word) : (shown w).utf8ByteSize ≤ 12 := by
  have digits : (Text.digits 16 w.toNat).utf8ByteSize ≤ 8 :=
    Text.utf8ByteSize_digits_le (by decide) (by decide) (by decide) w.toNat_lt
  have less : "<".utf8ByteSize = 1 := rfl
  have zero : "0x".utf8ByteSize = 2 := rfl
  have greater : ">".utf8ByteSize = 1 := rfl
  rw [shown, Text.hex]
  simp only [String.utf8ByteSize_append]
  omega

theorem size_number {n : Int} (narrow : -offsetBound ≤ n ∧ n < offsetBound) :
    (toString n).utf8ByteSize ≤ 11 := by
  have digits (m : Nat) (few : m < 10 ^ 10) : (Text.digits 10 m).utf8ByteSize ≤ 10 :=
    Text.utf8ByteSize_digits_le (by decide) (by decide) (by decide) few
  have minus : "-".utf8ByteSize = 1 := rfl
  rw [offsetBound] at narrow
  have written : toString n =
      if 0 ≤ n then Text.digits 10 n.toNat else "-" ++ Text.digits 10 (-n).toNat := by
    rw [← String.toList_inj, Text.toList_toString_int]
    split <;> simp [Text.digits]
  rw [written]
  split
  · have bound := digits n.toNat (by omega)
    omega
  · have bound := digits (-n).toNat (by omega)
    rw [String.utf8ByteSize_append]
    omega

theorem size_accesses (s : AccessSet) : s.text.utf8ByteSize ≤ 4 := by
  obtain ⟨input, output, read, write⟩ := s
  cases input <;> cases output <;> cases read <;> cases write <;> decide

theorem Shows.size_le {op : Operand} {text : String} (shows : Shows gpr op text)
    (narrow : op.Narrow) : text.utf8ByteSize ≤ op.room := by
  have opens : "(".utf8ByteSize = 1 := rfl
  have closes : ")".utf8ByteSize = 1 := rfl
  have amounts : ")=".utf8ByteSize = 2 := rfl
  cases shows with
  | value r has =>
    have name := size_registerText r
    have value := size_shown (gpr.get ⟨r.val, has⟩)
    simp only [String.utf8ByteSize_append, Operand.room]
    omega
  | noValue r lacks =>
    have name := size_registerText r
    simp only [Operand.room]
    omega
  | address offset base has addr sum =>
    have number := size_number narrow
    have name := size_registerText base
    have value := size_shown (gpr.get ⟨base.val, has⟩)
    have address := size_shown addr
    simp only [String.utf8ByteSize_append, Operand.room]
    omega
  | noAddress offset base lacks =>
    have number := size_number narrow
    have name := size_registerText base
    simp only [String.utf8ByteSize_append, Operand.room]
    omega
  | number n => exact size_number narrow
  | accesses s => exact size_accesses s

/-- Each operand comes with a blank or a comma and a blank. -/
theorem size_assembled (mnemonic : String) (texts : List String) :
    (assembled mnemonic texts).utf8ByteSize ≤
      mnemonic.utf8ByteSize + (texts.map fun text => text.utf8ByteSize + 2).sum := by
  have comma : ", ".utf8ByteSize = 2 := rfl
  have blank : " ".utf8ByteSize = 1 := rfl
  have joined (text : String) (texts : List String) :
      (", ".intercalate (text :: texts)).utf8ByteSize + 2 =
        ((text :: texts).map fun text => text.utf8ByteSize + 2).sum := by
    induction texts generalizing text with
    | nil => simp
    | cons next texts ih =>
      rw [String.intercalate_cons_cons, List.map_cons, List.sum_cons, ← ih next,
        String.utf8ByteSize_append, String.utf8ByteSize_append, comma]
      omega
  cases texts with
  | nil => exact Nat.le_add_right _ _
  | cons text texts =>
    have operands := joined text texts
    show (mnemonic ++ " " ++ ", ".intercalate (text :: texts)).utf8ByteSize ≤ _
    rw [String.utf8ByteSize_append, String.utf8ByteSize_append, ← operands]
    omega

theorem size_mnemonic (i : Instruction) :
    0 < i.mnemonic.utf8ByteSize ∧ i.mnemonic.utf8ByteSize ≤ 6 := by
  cases i with
  | upper op | branch op | load op | store op | immediate op | shift op | register op | system op =>
    cases op <;> exact ⟨Nat.le_of_ble_eq_true rfl, Nat.le_of_ble_eq_true rfl⟩
  | _ => exact ⟨Nat.le_of_ble_eq_true rfl, Nat.le_of_ble_eq_true rfl⟩

theorem room_operands (i : Instruction) :
    (i.operands.map fun op => op.room + 2).sum ≤ 60 := by
  cases i <;> simp [Instruction.operands, Operand.room]

theorem Shows.sum_le {ops : List Operand} {texts : List String}
    (shows : List.Forall₂ (Shows gpr) ops texts) (narrow : ∀ op ∈ ops, op.Narrow) :
    (texts.map fun text => text.utf8ByteSize + 2).sum ≤ (ops.map fun op => op.room + 2).sum := by
  induction shows with
  | nil => exact Nat.le_refl _
  | cons first others ih =>
    obtain ⟨narrow, rest⟩ := List.forall_mem_cons.mp narrow
    have size := first.size_le narrow
    have sizes := ih rest
    simp only [List.map_cons, List.sum_cons]
    omega

/-- The text of an instruction is its mnemonic with what its operands show. -/
theorem exists_shown (gpr : Registers) (w : Word) :
    ∃ texts, List.Forall₂ (Shows gpr) (decode w).operands texts ∧
      annotatedText gpr w = assembled (decode w).mnemonic texts := by
  have faithful : Faithful gpr (decode w) (annotatedText gpr w) := annotate_render (decode_fits w)
  exact faithful.shows

/-- Every annotated text is short. -/
theorem size_annotatedText (gpr : Registers) (w : Word) :
    (annotatedText gpr w).utf8ByteSize ≤ 66 := by
  obtain ⟨texts, shows, written⟩ := exists_shown gpr w
  have mnemonic := (size_mnemonic (decode w)).2
  have operands := Shows.sum_le shows (decode_narrow w)
  have room := room_operands (decode w)
  have all := size_assembled (decode w).mnemonic texts
  rw [written]
  omega

theorem size_address (pc : Addr) : (Text.hex8 pc.toNat).utf8ByteSize = 10 := by
  rw [Text.hex8, String.utf8ByteSize_append,
    Text.utf8ByteSize_hexDigits (by decide) pc.toNat_lt]
  rfl

theorem size_byteColumn (w : Word) : (byteColumn w).utf8ByteSize = 3 * lengthOf w := by
  have column : byteColumn w =
      String.join ((shownBytes w).map fun b => " " ++ Text.hexDigits 2 b.toNat) := rfl
  rw [column, ← length_shownBytes]
  induction shownBytes w with
  | nil => rfl
  | cons b bs ih =>
    have blank : " ".utf8ByteSize = 1 := rfl
    have byte : (Text.hexDigits 2 b.toNat).utf8ByteSize = 2 :=
      Text.utf8ByteSize_hexDigits (by decide) b.toNat_lt
    rw [List.map_cons, String.join_cons, String.utf8ByteSize_append, String.utf8ByteSize_append, ih,
      blank, byte, List.length_cons]
    ring

theorem size_gap (w : Word) : (gap w).utf8ByteSize = (4 - lengthOf w) * 3 + 2 := by
  rcases lengthOf_cases w with length | length <;> rw [gap, length] <;> rfl

/-- A line is the longer the longer its text is. -/
theorem size_traceLine (pc : Addr) (w : Word) (gpr : Registers) :
    (traceLine pc w gpr).utf8ByteSize = textColumn + (annotatedText gpr w).utf8ByteSize := by
  have colon : ":".utf8ByteSize = 1 := rfl
  have cases := lengthOf_cases w
  rw [traceLine, String.utf8ByteSize_append, String.utf8ByteSize_append,
    String.utf8ByteSize_append, String.utf8ByteSize_append, size_address, size_byteColumn, size_gap,
    colon, textColumn]
  omega

theorem size_traceLine_le (pc : Addr) (w : Word) (gpr : Registers) :
    (traceLine pc w gpr).utf8ByteSize ≤ Platform.recordBytes := by
  have text := size_annotatedText gpr w
  rw [size_traceLine, textColumn, Platform.recordBytes]
  omega

/-! ## Trace lines -/

/-- Texts begin with a letter of the mnemonic. -/
theorem head?_annotatedText (gpr : Registers) (w : Word) :
    ∃ c, (annotatedText gpr w).toList.head? = some c ∧ c.isAlpha := by
  obtain ⟨texts, -, written⟩ := exists_shown gpr w
  have letters := (decode w).mnemonic_letters
  have some : (decode w).mnemonic.toList ≠ [] := by
    intro none
    have size := (size_mnemonic (decode w)).1
    rw [String.toList_eq_nil_iff.mp none] at size
    exact absurd size (by decide)
  obtain ⟨c, rest, split⟩ := List.exists_cons_of_ne_nil some
  have begins : (assembled (decode w).mnemonic texts).toList.head? = .some c := by
    cases texts with
    | nil => rw [assembled, split]; rfl
    | cons text texts =>
      rw [toList_assembled _ (List.cons_ne_nil _ _), split]
      rfl
  refine ⟨c, ?_, letters c (by simp [split])⟩
  rw [written, begins]

/-- A trace line keeps the address and the bits of its instruction, and the ring keeps the line. -/
structure Lossless (pc : Addr) (w : Word) (gpr : Registers) : Prop where
  /-- The address has eight digits, and each byte, most significant first, has two. -/
  layout : ∃ address bytes,
    (traceLine pc w gpr).toList =
      ['0', 'x'] ++ address ++ [':'] ++ bytes.flatMap (' ' :: ·) ++
        List.replicate ((4 - lengthOf w) * 3 + 2) ' ' ++ (annotatedText gpr w).toList ∧
      (address.length = 8 ∧ Text.Digits 16 address pc.toNat) ∧
      List.Forall₂ (fun digits b => digits.length = 2 ∧ Text.Digits 16 digits b.toNat) bytes
        (shownBytes w)
  /-- Instructions are four bytes long if the low two bits are set, and two bytes else. -/
  length : (shownBytes w).length = if w &&& 3 = 3 then 4 else 2
  /-- The text of the instruction begins in a fixed column, and not with a blank. -/
  text : (traceLine pc w gpr).toList.drop textColumn = (annotatedText gpr w).toList ∧
    ∃ c, (traceLine pc w gpr).toList[textColumn]? = some c ∧ c.isAlpha
  address : lineAddr? (traceLine pc w gpr) = some pc.toNat
  bits : lineBits? (traceLine pc w gpr) = some (8 * lengthOf w, w.toNat % 2 ^ (8 * lengthOf w))
  size : (traceLine pc w gpr).utf8ByteSize ≤ Platform.recordBytes
  pushed : ∀ r : Ring, (r.push (traceLine pc w gpr)).records.getLast? = some (traceLine pc w gpr)

/-- Whatever word is traced and whatever the registers hold, nothing of the line is lost. -/
theorem trace_line_is_lossless (pc : Addr) (w : Word) (gpr : Registers) : Lossless pc w gpr := by
  have fits := size_traceLine_le pc w gpr
  have text := drop_traceLine pc w gpr
  refine ⟨⟨_, (shownBytes w).map fun b => (Text.hexDigits 2 b.toNat).toList, ?_,
    ⟨length_address pc, Text.digits_hexDigits 8 pc.toNat⟩, ?_⟩, ?_, ⟨text, ?_⟩,
    lineAddr?_traceLine pc w gpr, lineBits?_traceLine pc w gpr, fits,
    fun r => r.getLast?_records_push fits⟩
  · rw [toList_traceLine, addressPart_eq, bytesPart, toList_byteColumn, toList_gap,
      List.flatMap_map]
    simp only [List.append_assoc]
  · exact List.forall₂_map_left_iff.mpr (List.forall₂_same.mpr fun b _ =>
      ⟨Text.length_byte b, Text.digits_hexDigits 2 b.toNat⟩)
  · rw [length_shownBytes, lengthOf_eq]
  · rw [← List.head?_drop, text]
    exact head?_annotatedText gpr w

-- A word whose low two bits are not both set shows two bytes, and the text keeps its column.
example : traceLine 0x80000002 0xdead4501 .zero = "0x80000002: 45 01        unimp" := by
  decide +kernel

end Lockstep.Disassembly

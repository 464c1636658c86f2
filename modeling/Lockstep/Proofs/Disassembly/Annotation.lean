/-
Lockstep.Proofs.Disassembly.Annotation — annotated instructions show the values of their registers,
and without these they read as before.

The annotation finds its way through a text of which it knows nothing.  On the text of an
instruction it is right all the same, operand by operand: what it finds in the text of an operand
depends on that operand alone (`Annotates`), and it replaces it by what the operand shows (`Shows`).
Taking the values out again also goes operand by operand (`Shows.plain`), as no other part of a text
has the characters with which a value begins (`Bare`).
-/
import Lockstep.Proofs.Disassembly.Mention
import Lockstep.Proofs.Text.Replace

namespace Lockstep.Disassembly

open Text (replaceFrom replaceAll Rewrites)

variable {before : Option Char} {cs rest : List Char}

/-! ## The values shown -/

/-- A value as it is shown. -/
def shown (w : Word) : String := "<" ++ Text.hex w.toNat ++ ">"

theorem toList_shown (w : Word) : (shown w).toList = valueMark w := by
  simp [shown, valueMark]

theorem valueNamed?_registerText (gpr : Registers) (r : RegisterNumber) :
    valueNamed? gpr (registerText r).toList =
      if has : r.val < 16 then some (gpr.get ⟨r.val, has⟩) else none := by
  have read : Text.readNat? 10 UInt64.size (Nat.toDigits 10 r.val) = some r.val :=
    (Text.readNat?_eq_some_iff (by decide)).mpr
      ⟨Text.numeral_toDigits (by decide) r.val, Nat.lt_trans r.isLt (by decide)⟩
  rw [valueNamed?, toList_registerText, List.tail_cons, read, Option.bind_some, Register.ofNat?]
  split <;> rfl

/-- The address is the sum in 32 bits, whatever the sign of the offset. -/
theorem toNat_effectiveAddr (v : Word) (n : Int) :
    ((effectiveAddr v n).toNat : Int) = (v.toNat + n) % 2 ^ 32 := by
  rw [effectiveAddr, UInt32.toNat_add, UInt32.ofInt, UInt32.toNat_ofNat']
  omega

/-- The offset of an operand, if any, is a signed number of 32 bits. -/
def Operand.Fits : Operand → Prop
  | memory offset _ => -offsetBound ≤ offset ∧ offset < offsetBound
  | _ => True

/-- How an operand is shown: registers that the guest has with their values, and memory operands on
one of them with the address that they amount to. -/
inductive Shows (gpr : Registers) : Operand → String → Prop
  | value (r : RegisterNumber) (has : r.val < 16) :
      Shows gpr (.register r) (registerText r ++ shown (gpr.get ⟨r.val, has⟩))
  | noValue (r : RegisterNumber) (lacks : 16 ≤ r.val) : Shows gpr (.register r) (registerText r)
  | address (offset : Int) (base : RegisterNumber) (has : base.val < 16) (addr : Addr)
      (sum : (addr.toNat : Int) = ((gpr.get ⟨base.val, has⟩).toNat + offset) % 2 ^ 32) :
      Shows gpr (.memory offset base) (toString offset ++ "(" ++ registerText base ++
        shown (gpr.get ⟨base.val, has⟩) ++ ")=" ++ shown addr)
  | noAddress (offset : Int) (base : RegisterNumber) (lacks : 16 ≤ base.val) :
      Shows gpr (.memory offset base) (toString offset ++ "(" ++ registerText base ++ ")")
  | number (n : Int) : Shows gpr (.number n) (toString n)
  | accesses (s : AccessSet) : Shows gpr (.accesses s) s.text

variable {gpr : Registers}

theorem shows_register (gpr : Registers) (r : RegisterNumber) :
    ∃ text, Shows gpr (.register r) text ∧
      text.toList = Mention.annotated gpr (.register (registerText r).toList) := by
  rw [Mention.annotated, valueNamed?_registerText]
  by_cases has : r.val < 16
  · refine ⟨_, .value r has, ?_⟩
    rw [dif_pos has, String.toList_append, toList_shown]
  · refine ⟨_, .noValue r (Nat.le_of_not_lt has), ?_⟩
    rw [dif_neg has]
    rfl

theorem shows_memory (gpr : Registers) {offset : Int} {base : RegisterNumber}
    (fits : (Operand.memory offset base).Fits) :
    ∃ text, Shows gpr (.memory offset base) text ∧ text.toList =
      Mention.annotated gpr (.memory (toString offset).toList (registerText base).toList) := by
  rw [Mention.annotated, valueNamed?_registerText, Text.readInt?_toString fits.1 fits.2]
  by_cases has : base.val < 16
  · refine ⟨_, .address offset base has _ (toNat_effectiveAddr _ offset), ?_⟩
    simp [dif_pos has, toList_shown]
  · refine ⟨_, .noAddress offset base (Nat.le_of_not_lt has), ?_⟩
    simp [dif_neg has, Mention.text]

/-! ## Texts -/

theorem annotations_none (nothing : mention? before cs = none) :
    annotations gpr before cs = none := by
  rw [annotations, nothing, Option.map_none]

theorem annotations_some {m : Mention} (found : mention? before cs = some m) :
    annotations gpr before cs = some (m.text.length, m.annotated gpr) := by
  rw [annotations, found, Option.map_some]

theorem AccessSet.text_letters (s : AccessSet) : ∀ c ∈ s.text.toList, c.isAlpha := by
  obtain ⟨input, output, read, write⟩ := s
  cases input <;> cases output <;> cases read <;> cases write <;> simp [AccessSet.text]

theorem Instruction.mnemonic_letters (i : Instruction) : ∀ c ∈ i.mnemonic.toList, c.isAlpha := by
  cases i with
  | upper op => cases op <;> simp [mnemonic, UpperOp.text]
  | jal => simp [mnemonic]
  | jalr => simp [mnemonic]
  | branch op => cases op <;> simp [mnemonic, BranchOp.text]
  | load op => cases op <;> simp [mnemonic, LoadOp.text]
  | store op => cases op <;> simp [mnemonic, StoreOp.text]
  | immediate op => cases op <;> simp [mnemonic, ImmediateOp.text]
  | shift op => cases op <;> simp [mnemonic, ShiftOp.text]
  | register op => cases op <;> simp [mnemonic, RegisterOp.text]
  | fence => simp [mnemonic]
  | system op => cases op <;> simp [mnemonic, SystemOp.text]
  | unimplemented => simp [mnemonic]

theorem replaceFrom_letters {letters : List Char} (alpha : ∀ c ∈ letters, c.isAlpha)
    (stop : ∀ c ∈ rest.head?, c.isDigit = false) :
    replaceFrom (annotations gpr) before 0 (letters ++ rest) =
      letters ++ replaceFrom (annotations gpr) (letters.getLast?.or before) 0 rest :=
  Text.replaceFrom_untouched fun _ _ long inside =>
    annotations_none (mention?_letters long (fun c mem => alpha c (inside.subset mem)) stop)

/-- Neither commas nor blanks are annotated. -/
theorem replaceFrom_separator :
    replaceFrom (annotations gpr) before 0 (", ".toList ++ rest) =
      ", ".toList ++ replaceFrom (annotations gpr) (some ' ') 0 rest := by
  have comma : mention? before (',' :: ' ' :: rest) = none :=
    mention?_of_other (by decide) (by decide) rfl
  have blank : mention? (some ',') (' ' :: rest) = none :=
    mention?_of_other (by decide) (by decide) rfl
  exact (Text.replaceFrom_none (annotations_none comma)).trans
    (congrArg (',' :: ·) (Text.replaceFrom_none (annotations_none blank)))

/-- Behind a blank, the text of an operand is annotated on its own. -/
def Annotates (gpr : Registers) (plain text : List Char) : Prop :=
  ∀ rest, Ends rest → ∃ after, replaceFrom (annotations gpr) (some ' ') 0 (plain ++ rest) =
    text ++ replaceFrom (annotations gpr) after 0 rest

theorem annotates_mention {m : Mention}
    (found : ∀ rest, Ends rest → mention? (some ' ') (m.text ++ rest) = some m)
    (long : m.text ≠ []) : Annotates gpr m.text (m.annotated gpr) := fun rest ends =>
  ⟨_, Text.replaceFrom_found long (annotations_some (found rest ends))⟩

/-- Every operand is annotated on its own. -/
theorem annotate_operand (gpr : Registers) {op : Operand} (fits : op.Fits) :
    ∃ text, Shows gpr op text ∧ Annotates gpr op.plain.toList text.toList := by
  cases op with
  | register r =>
    obtain ⟨text, shows, written⟩ := shows_register gpr r
    refine ⟨text, shows, ?_⟩
    have plain : (Operand.register r).plain.toList =
        Mention.text (.register (registerText r).toList) := rfl
    rw [written, plain]
    refine annotates_mention (fun rest ends => mention?_register r (by decide) ends) ?_
    simp [Mention.text, toList_registerText]
  | number n =>
    exact ⟨toString n, .number n, fun rest ends => ⟨_, Text.replaceFrom_untouched
      fun _ _ long inside => annotations_none (mention?_number long inside ends)⟩⟩
  | memory offset base =>
    obtain ⟨text, shows, written⟩ := shows_memory gpr fits
    refine ⟨text, shows, ?_⟩
    have plain : (Operand.memory offset base).plain.toList =
        Mention.text (.memory (toString offset).toList (registerText base).toList) := by
      simp [Operand.plain, Mention.text]
    rw [written, plain]
    refine annotates_mention (fun rest _ => ?_) (by simp [Mention.text])
    simpa [Mention.text] using mention?_memory offset base (by decide)
  | accesses s =>
    exact ⟨s.text, .accesses s, fun rest ends =>
      ⟨_, replaceFrom_letters s.text_letters ends.not_digit⟩⟩

theorem annotate_operands {plains texts : List (List Char)}
    (each : List.Forall₂ (Annotates gpr) plains texts) :
    replaceFrom (annotations gpr) (some ' ') 0 (", ".toList.intercalate plains) =
      ", ".toList.intercalate texts := by
  induction each with
  | nil => rfl
  | cons first others ih =>
    cases others with
    | nil =>
      obtain ⟨after, written⟩ := first [] (by simp [Ends])
      simpa [replaceFrom] using written
    | cons second others =>
      rw [List.intercalate_cons_cons, List.intercalate_cons_cons, List.append_assoc,
        List.append_assoc]
      obtain ⟨after, written⟩ := first (", ".toList ++ _) (by simp [Ends])
      rw [written, replaceFrom_separator, ih]

/-- A mnemonic with texts of operands behind it. -/
def assembled (mnemonic : String) (operands : List String) : String :=
  match operands with
  | [] => mnemonic
  | ops => mnemonic ++ " " ++ ", ".intercalate ops

theorem Instruction.render_eq (write : Operand → String) (i : Instruction) :
    i.render write = assembled i.mnemonic (i.operands.map write) := by
  rw [render, assembled.eq_def]
  cases i.operands <;> rfl

theorem toList_assembled (mnemonic : String) {operands : List String} (several : operands ≠ []) :
    (assembled mnemonic operands).toList = mnemonic.toList ++ " ".toList ++
      ", ".toList.intercalate (operands.map String.toList) := by
  obtain ⟨op, ops, rfl⟩ := List.exists_cons_of_ne_nil several
  simp [assembled, String.toList_intercalate]

theorem annotate_assembled {mnemonic : String} {plains texts : List String}
    (letters : ∀ c ∈ mnemonic.toList, c.isAlpha)
    (each : List.Forall₂ (fun plain text => Annotates gpr plain.toList text.toList) plains texts) :
    annotate gpr (assembled mnemonic plains) = assembled mnemonic texts := by
  rw [annotate, ← String.toList_inj, String.toList_ofList, replaceAll]
  cases each with
  | nil =>
    have alone : replaceFrom (annotations gpr) none 0 (mnemonic.toList ++ []) = _ :=
      replaceFrom_letters letters (by simp)
    simpa [replaceFrom, assembled] using alone
  | @cons plain text plains texts first others =>
    have blank (before : Option Char) (rest : List Char) :
        replaceFrom (annotations gpr) before 0 (" ".toList ++ rest) =
          " ".toList ++ replaceFrom (annotations gpr) (some ' ') 0 rest :=
      Text.replaceFrom_none (annotations_none (mention?_of_other (by decide) (by decide) rfl))
    have operands := annotate_operands (List.forall₂_map_left_iff.mpr
      (List.forall₂_map_right_iff.mpr (List.Forall₂.cons first others)))
    rw [toList_assembled _ (List.cons_ne_nil _ _), toList_assembled _ (List.cons_ne_nil _ _),
      List.append_assoc, replaceFrom_letters letters (by simp), blank, operands, List.append_assoc]

theorem exists_annotated (gpr : Registers) {ops : List Operand} (fits : ∀ op ∈ ops, op.Fits) :
    ∃ texts, List.Forall₂
      (fun op text => Shows gpr op text ∧ Annotates gpr op.plain.toList text.toList) ops texts := by
  induction ops with
  | nil => exact ⟨[], .nil⟩
  | cons op ops ih =>
    obtain ⟨first, others⟩ := List.forall_mem_cons.mp fits
    obtain ⟨text, annotated⟩ := annotate_operand gpr first
    obtain ⟨texts, all⟩ := ih others
    exact ⟨text :: texts, .cons annotated all⟩

/-! ## Taking the values out -/

def isHexDigit (c : Char) : Bool := (Text.digitValue? 16 c).isSome

/-- A mark: the opening, hexadecimal digits and the closing `>`. -/
def markOf (opening : List Char) : Text.Finder := fun _ cs =>
  let behind := cs.drop opening.length
  let digits := behind.takeWhile isHexDigit
  if opening <+: cs ∧ digits ≠ [] ∧ (behind.drop digits.length).head? = some '>' then
    some (opening.length + digits.length + 1, [])
  else none

/-- A text without the marks of an opening. -/
def erase (opening : String) : List Char → List Char := replaceAll (markOf opening.toList)

theorem markOf_looksAhead (opening : List Char) : Text.LooksAhead (markOf opening) :=
  fun _ _ _ => rfl

theorem erase_untouched {opening : String} {c : Char} (first : opening.toList.head? = some c)
    (free : c ∉ cs) : Rewrites (erase opening) cs cs := by
  refine Text.replaceAll_untouched (markOf_looksAhead _) fun d inside rest => ?_
  have different : ¬opening.toList <+: d :: rest := by
    intro front
    obtain ⟨tail, rest'⟩ := List.head?_eq_some_iff.mp first
    rw [rest', List.cons_prefix_cons] at front
    exact free (front.1 ▸ inside)
  rw [markOf, if_neg (by tauto)]

theorem isHexDigit_of_mem (n : Nat) : ∀ c ∈ Nat.toDigits 16 n, isHexDigit c := by
  refine (Text.digits_toDigits (by decide) n).forall fun c d digit => ?_
  rw [isHexDigit, (Text.digitValue?_eq_some_iff (by decide)).mpr digit]
  rfl

/-- A mark is erased as a whole. -/
theorem erase_mark (opening : String) (n : Nat) :
    Rewrites (erase opening) (opening.toList ++ (Nat.toDigits 16 n ++ ['>'])) [] := by
  refine Text.replaceAll_found (markOf_looksAhead _) (by simp) fun rest => ?_
  have digits : (Nat.toDigits 16 n ++ '>' :: rest).takeWhile isHexDigit = Nat.toDigits 16 n := by
    rw [List.takeWhile_append_of_pos (isHexDigit_of_mem n)]
    simp [show isHexDigit '>' = false from rfl]
  simp [markOf, digits, Nat.add_assoc]

/-- A value that is shown is a mark behind whatever else stands in front of it. -/
theorem erase_shown (front opening : String) (opens : opening = front ++ "<0x") (w : Word) :
    Rewrites (erase opening) (front.toList ++ (shown w).toList) [] := by
  have mark := erase_mark opening w.toNat
  subst opens
  simpa [toList_shown, valueMark, Text.toList_hex] using mark

/-- Taking out the addresses first and then the values. -/
def unannotated : List Char → List Char := erase "<0x" ∘ erase "=<0x"

/-- The text holds nothing that belongs to the opening of a mark. -/
def Bare (cs : List Char) : Prop := '=' ∉ cs ∧ '<' ∉ cs

theorem Bare.append {ds : List Char} (h : Bare cs) (h' : Bare ds) : Bare (cs ++ ds) := by
  simp only [Bare, List.mem_append, not_or]
  exact ⟨⟨h.1, h'.1⟩, h.2, h'.2⟩

theorem Bare.of_forall {p : Char → Bool} (each : ∀ c ∈ cs, p c) (equals : p '=' = false)
    (less : p '<' = false) : Bare cs :=
  ⟨fun inside => Bool.false_ne_true (equals ▸ each _ inside),
    fun inside => Bool.false_ne_true (less ▸ each _ inside)⟩

theorem bare_digits (n : Nat) : Bare (Nat.toDigits 10 n) := .of_forall (isDigit_of_mem n) rfl rfl

theorem bare_registerText (r : RegisterNumber) : Bare (registerText r).toList := by
  have x : Bare ['x'] := by simp [Bare]
  rw [toList_registerText]
  exact x.append (bare_digits r.val)

theorem bare_int (n : Int) : Bare (toString n).toList := by
  have sign : Bare ['-'] := by simp [Bare]
  rw [Text.toList_toString_int]
  split
  · exact bare_digits n.toNat
  · exact sign.append (bare_digits (-n).toNat)

theorem Bare.unannotated (bare : Bare cs) : Rewrites unannotated cs cs :=
  (erase_untouched rfl bare.1).comp (erase_untouched rfl bare.2)

theorem unannotated_shown (w : Word) : Rewrites unannotated (shown w).toList [] := by
  have noEquals : '=' ∉ (shown w).toList := by
    have digits := Bare.of_forall (isHexDigit_of_mem w.toNat) rfl rfl
    simpa [toList_shown, valueMark, Text.toList_hex] using digits.1
  have value := erase_shown "" "<0x" rfl w
  exact (erase_untouched rfl noEquals).comp (by simpa using value)

theorem unannotated_address (a : Addr) : Rewrites unannotated ("=".toList ++ (shown a).toList) [] :=
  (erase_shown "=" "=<0x" rfl a).comp fun _ => rfl

/-- Without the values, an operand reads as before. -/
theorem Shows.plain {op : Operand} {text : String} (shows : Shows gpr op text) :
    Rewrites unannotated text.toList op.plain.toList := by
  have opens : Rewrites unannotated "(".toList "(".toList := Bare.unannotated (by simp [Bare])
  have close : Rewrites unannotated ")".toList ")".toList := Bare.unannotated (by simp [Bare])
  cases shows with
  | value r has =>
    have name := (bare_registerText r).unannotated
    simpa [Operand.plain] using name.append (unannotated_shown (gpr.get ⟨r.val, has⟩))
  | noValue r lacks => exact (bare_registerText r).unannotated
  | address offset base has addr sum =>
    have front := ((bare_int offset).unannotated.append opens).append
      (bare_registerText base).unannotated
    have value := unannotated_shown (gpr.get ⟨base.val, has⟩)
    simpa [Operand.plain] using
      ((front.append value).append close).append (unannotated_address addr)
  | noAddress offset base lacks =>
    have front := ((bare_int offset).unannotated.append opens).append
      (bare_registerText base).unannotated
    simpa [Operand.plain] using front.append close
  | number n => exact (bare_int n).unannotated
  | accesses s => exact (Bare.of_forall s.text_letters rfl rfl).unannotated

theorem unannotated_assembled {mnemonic : String} {plains texts : List String}
    (bare : Bare mnemonic.toList)
    (each : List.Forall₂ (fun text plain => Rewrites unannotated text.toList plain.toList)
      texts plains) :
    unannotated (assembled mnemonic texts).toList = (assembled mnemonic plains).toList := by
  refine Rewrites.whole ?_ rfl
  have front := bare.unannotated
  have blank : Rewrites unannotated " ".toList " ".toList := Bare.unannotated (by simp [Bare])
  have comma : Rewrites unannotated ", ".toList ", ".toList := Bare.unannotated (by simp [Bare])
  cases each with
  | nil => exact front
  | cons first others =>
    rw [toList_assembled _ (List.cons_ne_nil _ _), toList_assembled _ (List.cons_ne_nil _ _)]
    have operands := comma.intercalate (List.forall₂_map_left_iff.mpr
      (List.forall₂_map_right_iff.mpr (List.Forall₂.cons first others)))
    exact (front.append blank).append operands

/-! ## Annotated instructions -/

/-- The text shows each operand of the instruction with its values, and without these it is the plain
text of the instruction. -/
structure Faithful (gpr : Registers) (i : Instruction) (text : String) : Prop where
  shows : ∃ texts, List.Forall₂ (Shows gpr) i.operands texts ∧ text = assembled i.mnemonic texts
  plain : unannotated text.toList = (i.render Operand.plain).toList

theorem annotate_render {i : Instruction} (fits : ∀ op ∈ i.operands, op.Fits) :
    Faithful gpr i (annotate gpr (i.render Operand.plain)) := by
  obtain ⟨texts, all⟩ := exists_annotated gpr fits
  have shows : List.Forall₂ (Shows gpr) i.operands texts := all.imp fun _ _ both => both.1
  have written : annotate gpr (i.render Operand.plain) = assembled i.mnemonic texts := by
    rw [Instruction.render_eq]
    exact annotate_assembled i.mnemonic_letters
      (List.forall₂_map_left_iff.mpr (all.imp fun _ _ both => both.2))
  refine ⟨⟨texts, shows, written⟩, ?_⟩
  rw [written, Instruction.render_eq]
  exact unannotated_assembled (.of_forall i.mnemonic_letters rfl rfl)
    (List.forall₂_map_right_iff.mpr (shows.flip.imp fun _ _ shown => shown.plain))

/-- The numbers of an operand, also those that are not annotated, are signed numbers of 32 bits. -/
def Operand.Narrow : Operand → Prop
  | number n | memory n _ => -offsetBound ≤ n ∧ n < offsetBound
  | _ => True

theorem Operand.Narrow.fits {op : Operand} (narrow : op.Narrow) : op.Fits := by
  cases op with
  | memory offset base => exact narrow
  | _ => trivial

theorem narrow_signed {width : Nat} (few : width ≤ 32) (n : Nat) :
    -offsetBound ≤ signed width n ∧ signed width n < offsetBound := by
  have low := BitVec.le_toInt (BitVec.ofNat width n)
  have high := BitVec.toInt_lt (x := BitVec.ofNat width n)
  have bound : (2 : Int) ^ (width - 1) ≤ 2 ^ 31 := by
    exact_mod_cast Nat.pow_le_pow_right (by decide) (by omega)
  rw [signed, offsetBound]
  omega

theorem bits_lt {count : Nat} (few : count < 32) (w : Word) (low : Nat) :
    bits w low count < offsetBound := by
  have high := (w.toBitVec.extractLsb' low count).isLt
  have bound : 2 ^ count ≤ 2 ^ 31 := Nat.pow_le_pow_right (by decide) (by omega)
  rw [bits, offsetBound]
  omega

/-- No instruction has more than 21 bits for a number. -/
theorem decode_narrow (w : Word) : ∀ op ∈ (decode w).operands, op.Narrow := by
  unfold decode
  extract_lets rd rs1 rs2 function upper decoded
  have each : ∀ i, decoded = some i → ∀ op ∈ i.operands, op.Narrow := by
    subst decoded
    split
    -- the cases with a further choice, by the function code or the whole word
    all_goals try split
    all_goals
      simp [Instruction.operands, Operand.Narrow, immI, immS, immB, immJ, narrow_signed,
        bits_lt]
  cases found : decoded with
  | none => simp [Instruction.operands]
  | some i => exact each i found

theorem decode_fits (w : Word) : ∀ op ∈ (decode w).operands, op.Fits :=
  fun op mem => (decode_narrow w op mem).fits

/-- Annotating instructions is faithful, whatever word is decoded and whatever the registers hold. -/
theorem annotation_is_faithful (gpr : Registers) (w : Word) :
    Faithful gpr (decode w) (annotatedText gpr w) :=
  annotate_render (decode_fits w)

example : annotatedText (Registers.zero.set 2 0x80000010) 0xffc12883 =
    "lw x17, -4(x2<0x80000010>)=<0x8000000c>" := by
  decide +kernel

end Lockstep.Disassembly

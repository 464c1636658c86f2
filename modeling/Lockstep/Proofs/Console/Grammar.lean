/-
Lockstep.Proofs.Console.Grammar — the grammar of the console: what a line denotes, and how a command
is written.

A line that is not blank is laid out as a word and, behind white space, an argument (`LaidOut`).  The
two denote a command or an error (`Denotes`), and a line is read as just that (`parse_iff_denotes`),
whatever the white space is.  The written form of a command is laid out as the parts that denote it
(`exists_written`), provided that the command can be written: its texts are trimmed and not empty and
its counts are in range (`Shaped`).  Every command on a line is of that shape (`Denotes.shaped`).
-/
import Lockstep.Console.Command
import Lockstep.Proofs.Text.Blank
import Lockstep.Proofs.Text.Numeral

namespace Lockstep.Console

open Text (Blank Solid Trimmed)

/-! ## The layout of a line -/

/-- The line is the word and, behind white space, the argument, with white space around both.  There
may be no argument; it is then empty. -/
structure LaidOut (line word arg : String) : Prop where
  word_ne : word ≠ ""
  solid : Solid word.toList
  trimmed : Trimmed arg.toList
  layout : ∃ before gap after, Blank before ∧ Blank gap ∧ Blank after ∧
    (arg = "" ∨ gap ≠ []) ∧ line.toList = before ++ word.toList ++ gap ++ arg.toList ++ after

variable {line word arg : String}

theorem LaidOut.trim_of_alone (h : LaidOut line word "") :
    Text.trim line.toList = word.toList := by
  obtain ⟨before, gap, after, front, between, back, -, split⟩ := h.layout
  rw [split, String.toList_empty, List.append_nil, List.append_assoc]
  refine Text.trim_padded front h.solid.trimmed fun c inside => ?_
  exact (List.mem_append.mp inside).elim (between c) (back c)

/-- The word and the argument are what a line is split into. -/
theorem LaidOut.splitWord (h : LaidOut line word arg) :
    Command.splitWord (Text.trim line.toList) = (word.toList, arg.toList) := by
  by_cases alone : arg = ""
  · subst alone
    rw [h.trim_of_alone, Command.splitWord, Text.cutAtBlank?_eq_none_iff.mpr h.solid,
      String.toList_empty]
  · obtain ⟨before, gap, after, front, between, back, apart, split⟩ := h.layout
    obtain ⟨b, gap, rfl⟩ := List.exists_cons_of_ne_nil (apart.resolve_left alone)
    have core : Text.trim line.toList = word.toList ++ b :: (gap ++ arg.toList) := by
      have trimmed := h.solid.trimmed.around h.trimmed (by simpa using h.word_ne)
        (by simpa using alone) (b :: gap)
      have around := Text.trim_padded front trimmed back
      rw [← List.append_assoc, ← List.append_assoc, ← split] at around
      rw [around, List.append_assoc, List.cons_append]
    have cut : Text.cutAtBlank? (word.toList ++ b :: (gap ++ arg.toList)) =
        some (word.toList, gap ++ arg.toList) :=
      Text.cutAtBlank?_eq_some_iff.mpr ⟨b, between b List.mem_cons_self, h.solid, rfl⟩
    have rest : Text.trim (gap ++ arg.toList) = arg.toList := by
      have ahead : Blank gap := fun c inside => between c (List.mem_cons_of_mem b inside)
      simpa using Text.trim_padded ahead h.trimmed Text.blank_nil
    rw [core, Command.splitWord, cut]
    simp only [rest]

/-- A line is laid out in one way only. -/
theorem LaidOut.unique {word' arg' : String} (h : LaidOut line word arg)
    (h' : LaidOut line word' arg') : word = word' ∧ arg = arg' := by
  have same := h.splitWord.symm.trans h'.splitWord
  rw [Prod.mk.injEq, String.toList_inj, String.toList_inj] at same
  exact same

/-- A line that is not blank is laid out in some way. -/
theorem exists_laidOut (some : ¬ Blank line.toList) : ∃ word arg, LaidOut line word arg := by
  obtain ⟨before, after, front, back, split⟩ := Text.exists_padding line.toList
  have core : Text.trim line.toList ≠ [] := fun empty => some (Text.trim_eq_nil_iff.mp empty)
  cases cut : Text.cutAtBlank? (Text.trim line.toList) with
  | none =>
    refine ⟨String.ofList (Text.trim line.toList), "", ?_, ?_, ?_, before, [], after, front, ?_, back,
      .inl rfl, ?_⟩
    · simpa using core
    · simpa using Text.cutAtBlank?_eq_none_iff.mp cut
    · simpa using Text.trimmed_nil
    · exact Text.blank_nil
    · simpa using split
  | some parts =>
    obtain ⟨word, rest⟩ := parts
    obtain ⟨b, blank, solid, here⟩ := Text.cutAtBlank?_eq_some_iff.mp cut
    obtain ⟨ahead, behind, between, last, inner⟩ := Text.exists_padding rest
    refine ⟨String.ofList word, String.ofList (Text.trim rest), ?_, ?_, ?_, before, b :: ahead,
      behind ++ after, front, ?_, ?_, .inr (List.cons_ne_nil b ahead), ?_⟩
    · -- the core does not start with white space
      rintro empty
      have none : word = [] := by simpa using empty
      subst none
      have first := (Text.trimmed_trim line.toList).front b (by simp [here])
      simp [blank] at first
    · simpa using solid
    · simpa using Text.trimmed_trim rest
    · exact List.forall_mem_cons.mpr ⟨blank, between⟩
    · exact fun c inside => (List.mem_append.mp inside).elim (last c) (back c)
    · rw [split, here, String.toList_ofList, String.toList_ofList]
      conv_lhs => rw [inner]
      simp

/-! ## Commands -/

namespace Command

/-- The words that commands start with. -/
def words : List String := ["help", "c", "q", "si", "info", "x", "p", "w", "d"]

/-- The text is a count: an unsigned decimal numeral in range. -/
def IsCount (text : String) (n : Nat) : Prop := Text.Numeral 10 text.toList n ∧ n < countLimit

/-- What a word and its argument denote by the grammar of the console. -/
inductive Denotes : String → String → Except ParseError Command → Prop where
  | help : Denotes "help" "" (.ok (.help none))
  | helpAbout {arg : String} (given : arg ≠ "") : Denotes "help" arg (.ok (.help (some arg)))
  | continue (arg : String) : Denotes "c" arg (.ok .continue)
  | quit (arg : String) : Denotes "q" arg (.ok .quit)
  | stepOnce : Denotes "si" "" (.ok (.step 1))
  | step {arg : String} {n : Nat} (counts : IsCount arg n) : Denotes "si" arg (.ok (.step n))
  | stepBadly {arg : String} (given : arg ≠ "") (bad : ∀ n, ¬ IsCount arg n) :
    Denotes "si" arg (.error (.badCount arg))
  | showRegisters : Denotes "info" "r" (.ok .showRegisters)
  | showWatches : Denotes "info" "w" (.ok .showWatches)
  | showOther {arg : String} (other : arg ≠ "r" ∧ arg ≠ "w") :
    Denotes "info" arg (.error (.usage "info [r | w]"))
  | examine {arg count expr : String} {n : Nat} (parts : LaidOut arg count expr) (given : expr ≠ "")
    (counts : IsCount count n) : Denotes "x" arg (.ok (.examine n expr))
  | examineBadly {arg count expr : String} (parts : LaidOut arg count expr) (given : expr ≠ "")
    (bad : ∀ n, ¬ IsCount count n) : Denotes "x" arg (.error (.badCount count))
  | examineNothing {arg : String} (alone : Solid arg.toList) :
    Denotes "x" arg (.error (.usage "x [N] [EXPR]"))
  | print {arg : String} (given : arg ≠ "") : Denotes "p" arg (.ok (.print arg))
  | printNothing : Denotes "p" "" (.error (.usage "No expression provided"))
  | watch {arg : String} (given : arg ≠ "") : Denotes "w" arg (.ok (.watch arg))
  | watchNothing : Denotes "w" "" (.error (.usage "No expression provided"))
  | delete {arg : String} {n : Nat} (counts : IsCount arg n) : Denotes "d" arg (.ok (.delete n))
  | deleteBadly {arg : String} (given : arg ≠ "") (bad : ∀ n, ¬ IsCount arg n) :
    Denotes "d" arg (.error (.badCount arg))
  | deleteNothing : Denotes "d" "" (.error (.usage "d [N]"))
  | unknown {word : String} (arg : String) (other : word ∉ words) :
    Denotes word arg (.error (.unknown word))

theorem IsCount.read {text : String} {n : Nat} (h : IsCount text n) :
    count text.toList = .ok n := by
  rw [count, (Text.readNat?_eq_some_iff (by decide)).mpr h]

theorem IsCount.ne_empty {text : String} {n : Nat} (h : IsCount text n) : text ≠ "" := by
  rintro rfl
  have read := h.read
  cases read

theorem isCount_iff {text : String} {n : Nat} : count text.toList = .ok n ↔ IsCount text n := by
  refine ⟨fun read => ?_, IsCount.read⟩
  rw [count] at read
  split at read
  · next m value =>
    cases read
    exact (Text.readNat?_eq_some_iff (by decide)).mp value
  · cases read

theorem count_of_bad {text : String} (bad : ∀ n, ¬ IsCount text n) :
    count text.toList = .error (.badCount text) := by
  have none : Text.readNat? 10 countLimit text.toList = none :=
    Option.eq_none_iff_forall_ne_some.mpr fun n read =>
      bad n ((Text.readNat?_eq_some_iff (by decide)).mp read)
  rw [count, none, String.ofList_toList]

theorem examineOf_of_laidOut {count expr : String} (trimmed : Trimmed arg.toList)
    (parts : LaidOut arg count expr) (given : expr ≠ "") :
    examineOf arg.toList = (Command.count count.toList).map fun n => examine n expr := by
  have split := parts.splitWord
  rw [trimmed.trim_eq, splitWord] at split
  rw [examineOf]
  cases cut : Text.cutAtBlank? arg.toList with
  | none =>
    rw [cut] at split
    have empty : [] = expr.toList := (Prod.mk.inj split).2
    exact absurd (by simpa using empty.symm) given
  | some pair =>
    obtain ⟨n, rest⟩ := pair
    rw [cut] at split
    obtain ⟨rfl, same⟩ := Prod.mk.inj split
    dsimp only
    rw [same, String.ofList_toList]

theorem exists_parts (split : ¬ Solid arg.toList) (trimmed : Trimmed arg.toList) :
    ∃ count expr, LaidOut arg count expr ∧ expr ≠ "" := by
  have some : ¬ Blank arg.toList := by
    intro blank
    rw [← Text.trim_eq_nil_iff, trimmed.trim_eq] at blank
    exact split (by simp [blank, Solid])
  obtain ⟨count, expr, parts⟩ := exists_laidOut some
  refine ⟨count, expr, parts, ?_⟩
  rintro rfl
  have one := parts.trim_of_alone
  rw [trimmed.trim_eq] at one
  exact split (one ▸ parts.solid)

/-- The command that is made of a word and its argument is what they denote. -/
theorem Denotes.made {r : Except ParseError Command} (h : Denotes word arg r)
    (trimmed : Trimmed arg.toList) : ofParts word.toList arg.toList = r := by
  -- an argument that is given is the argument of the second clause for its word
  have cons (given : arg ≠ "") : ∃ c cs, arg.toList = c :: cs ∧ String.ofList (c :: cs) = arg := by
    obtain ⟨c, cs, shape⟩ := List.exists_cons_of_ne_nil (l := arg.toList) (by simpa using given)
    exact ⟨c, cs, shape, by rw [← shape, String.ofList_toList]⟩
  cases h with
  | help | stepOnce | showRegisters | showWatches | printNothing | watchNothing | deleteNothing =>
    rfl
  | «continue» | quit => simp [ofParts]
  | helpAbout given | print given | watch given =>
    obtain ⟨c, cs, shape, same⟩ := cons given
    simp [ofParts, shape, same]
  | step counts | delete counts =>
    obtain ⟨c, cs, shape, same⟩ := cons counts.ne_empty
    rw [shape]
    have read := counts.read
    rw [shape] at read
    simp [ofParts, read, Except.map]
  | stepBadly given bad | deleteBadly given bad =>
    obtain ⟨c, cs, shape, same⟩ := cons given
    have read := count_of_bad bad
    rw [shape] at read
    simp [ofParts, shape, read, Except.map]
  | showOther other =>
    have notR : arg.toList ≠ ['r'] := fun same => other.1 (String.toList_inj.mp same)
    have notW : arg.toList ≠ ['w'] := fun same => other.2 (String.toList_inj.mp same)
    simp [ofParts, notR, notW, usageInfo]
  | examine parts given counts =>
    simp [ofParts, examineOf_of_laidOut trimmed parts given, counts.read, Except.map]
  | examineBadly parts given bad =>
    simp [ofParts, examineOf_of_laidOut trimmed parts given, count_of_bad bad, Except.map]
  | examineNothing alone =>
    simp [ofParts, examineOf, Text.cutAtBlank?_eq_none_iff.mpr alone, usageExamine]
  | unknown _ other =>
    rw [ofParts.eq_def, String.ofList_toList]
    split <;> simp_all [words]

/-- Every word and argument denote something. -/
theorem exists_denotes (word : String) (trimmed : Trimmed arg.toList) :
    ∃ r, Denotes word arg r := by
  by_cases known : word ∈ words
  · simp only [words, List.mem_cons, List.not_mem_nil, or_false] at known
    rcases known with rfl | rfl | rfl | rfl | rfl | rfl | rfl | rfl | rfl
    · by_cases alone : arg = ""
      · exact alone ▸ ⟨_, .help⟩
      · exact ⟨_, .helpAbout alone⟩
    · exact ⟨_, .continue arg⟩
    · exact ⟨_, .quit arg⟩
    · by_cases alone : arg = ""
      · exact alone ▸ ⟨_, .stepOnce⟩
      · by_cases counts : ∃ n, IsCount arg n
        · exact ⟨_, .step counts.choose_spec⟩
        · exact ⟨_, .stepBadly alone (not_exists.mp counts)⟩
    · by_cases registers : arg = "r"
      · exact registers ▸ ⟨_, .showRegisters⟩
      · by_cases watches : arg = "w"
        · exact watches ▸ ⟨_, .showWatches⟩
        · exact ⟨_, .showOther ⟨registers, watches⟩⟩
    · by_cases alone : Solid arg.toList
      · exact ⟨_, .examineNothing alone⟩
      · obtain ⟨count, expr, parts, given⟩ := exists_parts alone trimmed
        by_cases counts : ∃ n, IsCount count n
        · exact ⟨_, .examine parts given counts.choose_spec⟩
        · exact ⟨_, .examineBadly parts given (not_exists.mp counts)⟩
    · by_cases alone : arg = ""
      · exact alone ▸ ⟨_, .printNothing⟩
      · exact ⟨_, .print alone⟩
    · by_cases alone : arg = ""
      · exact alone ▸ ⟨_, .watchNothing⟩
      · exact ⟨_, .watch alone⟩
    · by_cases alone : arg = ""
      · exact alone ▸ ⟨_, .deleteNothing⟩
      · by_cases counts : ∃ n, IsCount arg n
        · exact ⟨_, .delete counts.choose_spec⟩
        · exact ⟨_, .deleteBadly alone (not_exists.mp counts)⟩
  · exact ⟨_, .unknown arg known⟩

/-- A word and an argument denote one thing, which is made of them. -/
theorem denotes_iff {r : Except ParseError Command} (trimmed : Trimmed arg.toList) :
    Denotes word arg r ↔ ofParts word.toList arg.toList = r := by
  constructor
  · exact fun h => h.made trimmed
  · rintro rfl
    obtain ⟨r, h⟩ := exists_denotes word trimmed
    rw [h.made trimmed]
    exact h

/-! ## Lines -/

theorem parse_of_blank (blank : Blank line.toList) : parse line = .ok none := by
  rw [parse, Text.trim_eq_nil_iff.mpr blank]
  rfl

theorem parse_of_laidOut (h : LaidOut line word arg) :
    parse line = (ofParts word.toList arg.toList).map some := by
  obtain ⟨c, cs, shape⟩ :=
    List.exists_cons_of_ne_nil (l := word.toList) (by simpa using h.word_ne)
  rw [parse, h.splitWord, shape]

theorem parse_eq_none_iff : parse line = .ok none ↔ Blank line.toList := by
  refine ⟨fun nothing => ?_, parse_of_blank⟩
  by_contra some
  obtain ⟨word, arg, h⟩ := exists_laidOut some
  rw [parse_of_laidOut h] at nothing
  cases made : ofParts word.toList arg.toList <;> simp [made, Except.map] at nothing

/-- A line is read as what its word and its argument denote. -/
theorem parse_iff_denotes {r : Except ParseError Command} (h : LaidOut line word arg) :
    parse line = r.map some ↔ Denotes word arg r := by
  rw [parse_of_laidOut h, denotes_iff h.trimmed]
  cases made : ofParts word.toList arg.toList <;> cases r <;> simp [Except.map]

theorem exists_laidOut_of_parse (something : parse line ≠ .ok none) :
    ∃ word arg, LaidOut line word arg :=
  exists_laidOut fun blank => something (parse_of_blank blank)

theorem parse_eq_unknown_iff :
    parse line = .error (.unknown word) ↔ ∃ arg, LaidOut line word arg ∧ word ∉ words := by
  constructor
  · intro read
    obtain ⟨first, arg, h⟩ := exists_laidOut_of_parse (show parse line ≠ .ok none by simp [read])
    have denotes := (parse_iff_denotes (r := .error (.unknown word)) h).mp read
    cases denotes with
    | unknown _ other => exact ⟨arg, h, other⟩
  · rintro ⟨arg, h, other⟩
    exact (parse_iff_denotes (r := .error (.unknown word)) h).mpr (.unknown arg other)

/-! ## Written commands -/

/-- The text can be written as an argument: it is not empty, and trimmed. -/
def IsArgument (text : String) : Prop := text ≠ "" ∧ Trimmed text.toList

/-- The command can be written: its texts are arguments and its counts are in range. -/
def Shaped : Command → Prop
  | help none | .continue | quit | showRegisters | showWatches => True
  | help (some text) | print text | watch text => IsArgument text
  | step n | delete n => n < countLimit
  | examine n text => n < countLimit ∧ IsArgument text

/-- What a word and its argument denote can be written. -/
theorem Denotes.shaped {c : Command} (h : Denotes word arg (.ok c)) (trimmed : Trimmed arg.toList) :
    c.Shaped := by
  cases h with
  | help | «continue» | quit | showRegisters | showWatches => trivial
  | stepOnce => exact (by decide : 1 < countLimit)
  | helpAbout given | print given | watch given => exact ⟨given, trimmed⟩
  | step counts | delete counts => exact counts.2
  | examine parts given counts => exact ⟨counts.2, given, parts.trimmed⟩

theorem laidOut_alone (some : word ≠ "") (solid : Solid word.toList) : LaidOut word word "" :=
  ⟨some, solid, Text.trimmed_nil, [], [], [], Text.blank_nil, Text.blank_nil, Text.blank_nil,
    .inl rfl, by simp⟩

theorem laidOut_pair (written : line = word ++ " " ++ arg) (some : word ≠ "")
    (solid : Solid word.toList) (given : IsArgument arg) : LaidOut line word arg :=
  ⟨some, solid, given.2, [], [' '], [], Text.blank_nil, by decide, Text.blank_nil,
    .inr (by simp), by simp [written]⟩

theorem solid_toString (n : Nat) : Solid (toString n).toList := by
  rw [Nat.toString_eq_ofList_toDigits, String.toList_ofList]
  exact (Text.digits_toDigits (by decide) n).solid (by decide)

theorem isCount_toString {n : Nat} (small : n < countLimit) : IsCount (toString n) n := by
  refine ⟨?_, small⟩
  rw [Nat.toString_eq_ofList_toDigits, String.toList_ofList]
  exact Text.numeral_toDigits (by decide) n

/-- The written form of a command is laid out as parts that denote it. -/
theorem exists_written {c : Command} (shaped : c.Shaped) :
    ∃ word arg, LaidOut c.text word arg ∧ Denotes word arg (.ok c) := by
  have counted (n : Nat) : IsArgument (toString n) := ⟨by simp, (solid_toString n).trimmed⟩
  cases c with
  | help about =>
    cases about with
    | none => exact ⟨"help", "", laidOut_alone (by decide) (by decide), .help⟩
    | some about =>
      exact ⟨"help", about, laidOut_pair rfl (by decide) (by decide) shaped, .helpAbout shaped.1⟩
  | «continue» => exact ⟨"c", "", laidOut_alone (by decide) (by decide), .continue ""⟩
  | quit => exact ⟨"q", "", laidOut_alone (by decide) (by decide), .quit ""⟩
  | step n =>
    exact ⟨"si", toString n, laidOut_pair rfl (by decide) (by decide) (counted n),
      .step (isCount_toString shaped)⟩
  | showRegisters =>
    exact ⟨"info", "r", laidOut_pair rfl (by decide) (by decide) ⟨by decide, Solid.trimmed (by decide)⟩,
      .showRegisters⟩
  | showWatches =>
    exact ⟨"info", "w", laidOut_pair rfl (by decide) (by decide) ⟨by decide, Solid.trimmed (by decide)⟩,
      .showWatches⟩
  | examine n expr =>
    obtain ⟨small, given⟩ := shaped
    have parts : LaidOut (toString n ++ " " ++ expr) (toString n) expr :=
      laidOut_pair rfl (by simp) (solid_toString n) given
    have written : (Command.examine n expr).text = "x" ++ " " ++ (toString n ++ " " ++ expr) := by
      simp only [← String.append_assoc]
      rfl
    have both : IsArgument (toString n ++ " " ++ expr) := by
      refine ⟨by simp, ?_⟩
      rw [String.toList_append, String.toList_append]
      exact (counted n).2.around given.2 (by simp) (by simpa using given.1) [' ']
    exact ⟨"x", _, laidOut_pair written (by decide) (by decide) both,
      .examine parts given.1 (isCount_toString small)⟩
  | print expr => exact ⟨"p", expr, laidOut_pair rfl (by decide) (by decide) shaped, .print shaped.1⟩
  | watch expr => exact ⟨"w", expr, laidOut_pair rfl (by decide) (by decide) shaped, .watch shaped.1⟩
  | delete n =>
    exact ⟨"d", toString n, laidOut_pair rfl (by decide) (by decide) (counted n),
      .delete (isCount_toString shaped)⟩

theorem parse_text {c : Command} (shaped : c.Shaped) : parse c.text = .ok (some c) := by
  obtain ⟨word, arg, h, denotes⟩ := exists_written shaped
  exact (parse_iff_denotes (r := .ok c) h).mpr denotes

theorem shaped_of_parse {c : Command} (read : parse line = .ok (some c)) : c.Shaped := by
  obtain ⟨word, arg, h⟩ := exists_laidOut_of_parse (show parse line ≠ .ok none by simp [read])
  exact ((parse_iff_denotes (r := .ok c) h).mp read).shaped h.trimmed

/-! ## The grammar as a whole -/

/-- Lines are read by the grammar, and commands are written so that they are read back. -/
structure FollowsGrammar : Prop where
  /-- There is nothing on blank lines, and on no others. -/
  nothing : ∀ line, parse line = .ok none ↔ Blank line.toList
  /-- Any other line has a word and an argument, and only one of each. -/
  parts : ∀ line, ¬ Blank line.toList → ∃! parts : String × String, LaidOut line parts.1 parts.2
  /-- The two decide what is read. -/
  denotes : ∀ line word arg, LaidOut line word arg → ∀ r : Except ParseError Command,
    parse line = r.map some ↔ Denotes word arg r
  /-- The white space around and between them does not matter. -/
  layout : ∀ line line' word arg, LaidOut line word arg → LaidOut line' word arg →
    parse line = parse line'
  unknown : ∀ line word, parse line = .error (.unknown word) ↔
    ∃ arg, LaidOut line word arg ∧ word ∉ words
  counts : ∀ (text : String) n, count text.toList = .ok n ↔ Text.Numeral 10 text.toList n ∧ n < 2 ^ 64
  /-- A command that can be written is read back from its written form. -/
  written : ∀ c : Command, c.Shaped → parse c.text = .ok (some c)
  /-- What is read can be written. -/
  shaped : ∀ line c, parse line = .ok (some c) → c.Shaped ∧ parse c.text = .ok (some c)

theorem lines_follow_grammar : FollowsGrammar where
  nothing _ := parse_eq_none_iff
  parts line some := by
    obtain ⟨word, arg, h⟩ := exists_laidOut some
    refine ⟨(word, arg), h, fun other h' => ?_⟩
    obtain ⟨sameWord, sameArg⟩ := h'.unique h
    exact Prod.ext sameWord sameArg
  denotes _ _ _ h _ := parse_iff_denotes h
  layout _ _ _ _ h h' := by rw [parse_of_laidOut h, parse_of_laidOut h']
  unknown _ _ := parse_eq_unknown_iff
  counts _ _ := isCount_iff
  written _ shaped := parse_text shaped
  shaped _ _ read := ⟨shaped_of_parse read, parse_text (shaped_of_parse read)⟩

/-- White space of any kind and number, and a plus sign in front of a count. -/
example : parse "\t x  +4 \u00a0 $a0 + 1 " = .ok (some (.examine 4 "$a0 + 1")) := by
  decide +kernel

end Command

end Lockstep.Console

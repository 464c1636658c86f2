/-
Lockstep.Proofs.Symbols.Load — the functions that are loaded are the function symbols of the file.

A text stands at an offset of a string table if its bytes and a zero byte do (`Elf.Stands`), and that
is when a name is read there (`nameAt?_eq_some_iff`).  A symbol table has a function for each of its
symbols of the function kind, in table order, if all of them have names
(`SymbolTable.functions_of_named`); if not, the first one without a name is the reason
(`SymbolTable.functions_of_firstUnnamed`).  So a call trace is loaded from what the reader delivers of
a file (`SourceFile.Delivers`), and symbols of other kinds have no part in it
(`CallTrace.LoadsExactly`).  The tables of files of the 32-bit class are never in danger of a search
that cannot tell (`CallTrace.lookup_of_bits32`).
-/
import Lockstep.Symbols.Load
import Lockstep.Proofs.Symbols.Lookup
import Mathlib.Algebra.Group.Nat.Defs
import Mathlib.Data.List.Forall2

namespace Lockstep

/-- The bytes of a text are those that it is decoded from. -/
theorem Text.decode?_eq_some_iff {bytes : List UInt8} {s : String} :
    decode? bytes = some s ↔ bytes = s.toUTF8.data.toList := by
  rw [decode?, String.fromUTF8?]
  constructor
  · intro decoded
    split at decoded
    · cases decoded
      rfl
    · cases decoded
  · rintro rfl
    exact dif_pos s.isValidUTF8

namespace Elf

/-! ## Names -/

/-- The text stands at the offset of the string table, up to a zero byte. -/
def Stands (strings : Bytes) (off : Nat) (name : String) : Prop :=
  ∃ front back, strings.toList = front ++ name.toUTF8.data.toList ++ 0 :: back ∧
    front.length = off ∧ 0 ∉ name.toUTF8.data.toList

theorem nameAt?_eq_some_iff {strings : Bytes} {off : Nat} {name : String} :
    nameAt? strings off = some name ↔ Stands strings off name := by
  have rest : (strings.extract off strings.size).toList = strings.toList.drop off := by
    rw [Array.toList_extract, List.extract_eq_take_drop]
    exact List.take_of_length_le (by simp)
  simp only [nameAt?, rest]
  constructor
  · intro read
    split at read
    · next inside =>
      split at read
      · next ended =>
        obtain ⟨bytes, back, split, clean⟩ := List.eq_append_cons_of_mem ended
        have taken : (strings.toList.drop off).takeWhile (· ≠ 0) = bytes := by
          rw [split, List.takeWhile_append_of_pos]
          · simp
          · intro b mem
            simpa using fun zero : b = 0 => clean (zero ▸ mem)
        rw [taken, Text.decode?_eq_some_iff] at read
        subst read
        refine ⟨strings.toList.take off, back, ?_, ?_, clean⟩
        · rw [List.append_assoc, ← split, List.take_append_drop]
        · rw [List.length_take, Array.length_toList, Nat.min_eq_left inside]
      · cases read
    · cases read
  · rintro ⟨front, back, split, rfl, clean⟩
    have inside : front.length ≤ strings.size := by
      rw [← Array.length_toList, split]
      simp
    have behind : strings.toList.drop front.length = name.toUTF8.data.toList ++ 0 :: back := by
      rw [split, List.append_assoc, List.drop_left]
    have taken : (name.toUTF8.data.toList ++ 0 :: back).takeWhile (· ≠ 0) =
        name.toUTF8.data.toList := by
      rw [List.takeWhile_append_of_pos]
      · simp
      · intro b mem
        simpa using fun zero : b = 0 => clean (zero ▸ mem)
    rw [if_pos inside, behind, if_pos (by simp), taken, Text.decode?_eq_some_iff]

/-! ## Functions -/

namespace Symbol

/-- The symbol is of the function kind. -/
def IsFunction (s : Symbol) : Prop := s.kind = functionKind

instance : DecidablePred IsFunction := fun s => inferInstanceAs (Decidable (s.kind = functionKind))

/-- The function has the name of the symbol, its value modulo 2³² and its whole size. -/
structure Describes (strings : Bytes) (s : Symbol) (f : FunctionSymbol) : Prop where
  name : Stands strings s.name f.name
  addr : f.addr.toNat = s.value % 2 ^ 32
  size : f.size.toNat = s.size

/-- The functions are no larger than the symbols that they are taken from. -/
theorem size_lt_of_describes {strings : Bytes} {ss : List Symbol} {fs : List FunctionSymbol}
    {bound : Nat} (described : List.Forall₂ (Describes strings) ss fs)
    (narrow : ∀ s ∈ ss, s.size < bound) : ∀ f ∈ fs, f.size.toNat < bound := by
  induction described with
  | nil => nofun
  | cons here later ih =>
    rw [List.forall_mem_cons] at narrow ⊢
    exact ⟨here.size ▸ narrow.1, ih narrow.2⟩

end Symbol

namespace SymbolTable

deriving instance DecidableEq for SymbolTable

variable {t : SymbolTable} {s : Symbol}

/-- A text stands where the symbol says that its name does. -/
def IsNamed (t : SymbolTable) (s : Symbol) : Prop := ∃ name, Stands t.strings s.name name

theorem isNamed_iff : t.IsNamed s ↔ (nameAt? t.strings s.name).isSome = true := by
  simp only [IsNamed, Option.isSome_iff_exists, nameAt?_eq_some_iff]

instance (t : SymbolTable) : DecidablePred t.IsNamed := fun _ => decidable_of_iff' _ isNamed_iff

/-- The symbol is the first one in table order that is a function without a name. -/
def FirstUnnamed (t : SymbolTable) (s : Symbol) : Prop :=
  ∃ front back, t.symbols = front ++ s :: back ∧ s.IsFunction ∧ ¬ t.IsNamed s ∧
    ∀ e ∈ front, e.IsFunction → t.IsNamed e

/-- A symbol with a name is a function; its size is whole if it has 64 bits. -/
theorem function_of_named (named : t.IsNamed s) :
    ∃ f, t.function s = .ok f ∧ (s.size < 2 ^ 64 → s.Describes t.strings f) := by
  obtain ⟨name, stands⟩ := named
  refine ⟨⟨name, .ofNat s.value, .ofNat s.size⟩, ?_, fun narrow => ⟨stands, ?_, ?_⟩⟩
  · rw [function, nameAt?_eq_some_iff.mpr stands]
  · exact UInt32.toNat_ofNat'
  · exact UInt64.toNat_ofNat_of_lt' narrow

theorem function_of_unnamed (unnamed : ¬ t.IsNamed s) : t.function s = .error (.name s.name) := by
  rw [isNamed_iff, Option.not_isSome_iff_eq_none] at unnamed
  rw [function, unnamed]

/-- Symbols that all have names are functions one by one. -/
theorem mapM_of_named {ss : List Symbol} (named : ∀ s ∈ ss, t.IsNamed s)
    (narrow : ∀ s ∈ ss, s.size < 2 ^ 64) :
    ∃ fs, ss.mapM t.function = .ok fs ∧ List.Forall₂ (Symbol.Describes t.strings) ss fs := by
  induction ss with
  | nil => exact ⟨[], rfl, .nil⟩
  | cons s ss ih =>
    rw [List.forall_mem_cons] at named narrow
    obtain ⟨f, here, described⟩ := function_of_named named.1
    obtain ⟨fs, later, all⟩ := ih named.2 narrow.2
    refine ⟨f :: fs, ?_, .cons (described narrow.1) all⟩
    rw [List.mapM_cons, here, later]
    rfl

/-- A walk through symbols stops at the first one without a name. -/
theorem mapM_of_unnamed {front back : List Symbol} (named : ∀ e ∈ front, t.IsNamed e)
    (unnamed : ¬ t.IsNamed s) :
    (front ++ s :: back).mapM t.function = .error (.name s.name) := by
  induction front with
  | nil =>
    rw [List.nil_append, List.mapM_cons, function_of_unnamed unnamed]
    rfl
  | cons e front ih =>
    rw [List.forall_mem_cons] at named
    obtain ⟨f, here, -⟩ := function_of_named named.1
    rw [List.cons_append, List.mapM_cons, here, ih named.2]
    rfl

/-- The symbols of the function kind, in table order. -/
def functionSymbols (t : SymbolTable) : List Symbol := t.symbols.filter fun s => s.IsFunction

theorem mem_functionSymbols : s ∈ t.functionSymbols ↔ s ∈ t.symbols ∧ s.IsFunction := by
  simp [functionSymbols]

theorem functions_eq (t : SymbolTable) : t.functions = t.functionSymbols.mapM t.function := rfl

theorem functions_of_named (named : ∀ s ∈ t.symbols, s.IsFunction → t.IsNamed s)
    (narrow : ∀ s ∈ t.symbols, s.size < 2 ^ 64) :
    ∃ fs, t.functions = .ok fs ∧
      List.Forall₂ (Symbol.Describes t.strings) t.functionSymbols fs := by
  refine mapM_of_named (fun s mem => ?_) fun s mem => ?_
  · exact named s (mem_functionSymbols.mp mem).1 (mem_functionSymbols.mp mem).2
  · exact narrow s (mem_functionSymbols.mp mem).1

theorem functions_of_firstUnnamed (first : t.FirstUnnamed s) :
    t.functions = .error (.name s.name) := by
  obtain ⟨front, back, split, kind, unnamed, before⟩ := first
  have here : t.functionSymbols =
      front.filter (fun s => s.IsFunction) ++ s :: back.filter fun s => s.IsFunction := by
    rw [functionSymbols, split, List.filter_append, List.filter_cons_of_pos (by simpa using kind)]
  rw [functions_eq, here]
  refine mapM_of_unnamed (fun e mem => ?_) unnamed
  obtain ⟨listed, kind⟩ := List.mem_filter.mp mem
  exact before e listed (by simpa using kind)

/-- Either all functions have names, or there is a first one that has none. -/
theorem named_or_firstUnnamed (t : SymbolTable) :
    (∀ s ∈ t.symbols, s.IsFunction → t.IsNamed s) ∨ ∃ s, t.FirstUnnamed s := by
  cases found : t.symbols.find? fun s => s.IsFunction ∧ ¬ t.IsNamed s with
  | none =>
    refine .inl fun s mem kind => ?_
    have none := List.find?_eq_none.mp found s mem
    simpa [kind] using none
  | some s =>
    obtain ⟨here, front, back, split, before⟩ := List.find?_eq_some_iff_append.mp found
    obtain ⟨kind, unnamed⟩ : s.IsFunction ∧ ¬ t.IsNamed s := by simpa using here
    refine .inr ⟨s, front, back, split, kind, unnamed, fun e mem kind => ?_⟩
    simpa [kind] using before e mem

end SymbolTable

/-! ## Sizes -/

/-- A number of so many bytes is less than that many bytes can hold. -/
theorem number?_lt {file : Bytes} {off count n : Nat} (read : number? file off count = some n) :
    n < 256 ^ count := by
  induction count generalizing off n with
  | zero =>
    obtain rfl : 0 = n := by simpa [number?] using read
    rw [pow_zero]
    exact Nat.one_pos
  | succ count ih =>
    rw [number?] at read
    split at read
    · next b rest _ later =>
      obtain rfl : b.toNat + 256 * rest = n := by simpa using read
      have small : rest < 256 ^ count := ih later
      have byte : b.toNat < 256 := b.toNat_lt
      rw [pow_succ]
      omega
    · cases read

/-- The number of bytes of an address or a size. -/
def Class.addressSize : Class → Nat
  | .bits32 => 4
  | .bits64 => 8

/-- A size is as wide as the class says. -/
theorem size_lt_of_mem_symbols {c : Class} {table : Bytes} {s : Symbol} (mem : s ∈ symbols c table) :
    s.size < 256 ^ c.addressSize := by
  obtain ⟨i, -, read⟩ := List.mem_filterMap.mp mem
  simp only [symbolAt?, Option.bind_eq_bind, Option.bind_eq_some_iff, Option.some.injEq] at read
  obtain ⟨_, _, _, _, _, _, size, field, rfl⟩ := read
  cases c <;> exact number?_lt field

/-- The symbols of a symbol table are those in the bytes of its section. -/
theorem symbols_of_symbolTable? {c : Class} {sections : List SectionHeader} {file : Bytes}
    {t : SymbolTable} (found : symbolTable? c sections file = some (some t)) :
    ∃ table, t.symbols = symbols c table := by
  unfold symbolTable? at found
  split at found
  · cases found
  · simp only [Option.bind_eq_bind, Option.bind_eq_some_iff] at found
    obtain ⟨table, _, _, _, _, _, accepted⟩ := found
    split at accepted
    · simp only [Option.some.injEq] at accepted
      exact ⟨table, by rw [← accepted]⟩
    · cases accepted

/-- An acceptable file has the class that its identification announces. -/
theorem class?_of_open? {file : Bytes} {c : Class} {sections : List SectionHeader}
    (opened : open? file = some (c, sections)) : class? file = some c := by
  simp only [open?, Option.bind_eq_bind, Option.bind_eq_some_iff] at opened
  obtain ⟨c', announced, _, _, _, _, accepted⟩ := opened
  split at accepted
  · simp only [Option.some.injEq, Prod.mk.injEq] at accepted
    rw [announced, accepted.1]
  · cases accepted

end Elf

/-! ## Files -/

/-- The reader accepts the file and finds this symbol table in it, if any. -/
def SourceFile.Delivers (file : SourceFile) (table : Option Elf.SymbolTable) : Prop :=
  ∃ bytes c sections, file.contents? = some bytes ∧
    Elf.open? bytes.toArray = some (c, sections) ∧
    Elf.symbolTable? c sections bytes.toArray = some table

namespace CallTrace

open Elf (Symbol SymbolTable)

variable {file : SourceFile} {t : SymbolTable} {logsCalls : Bool}

theorem size_lt_of_delivers (delivered : file.Delivers (some t)) :
    ∀ s ∈ t.symbols, s.size < 2 ^ 64 := by
  obtain ⟨bytes, c, sections, -, -, found⟩ := delivered
  obtain ⟨table, symbols⟩ := Elf.symbols_of_symbolTable? found
  intro s mem
  rw [symbols] at mem
  refine Nat.lt_of_lt_of_le (Elf.size_lt_of_mem_symbols mem) ?_
  cases c <;> decide

/-- A file without a symbol table gives a trace without functions. -/
theorem ofElf_of_bare (delivered : file.Delivers none) :
    (ofElf file logsCalls).1 = .ok (ofSymbols [] logsCalls) := by
  obtain ⟨bytes, c, sections, contents, opened, bare⟩ := delivered
  simp only [ofElf, contents, opened, bare]

/-- A file with a symbol table gives a trace of its functions, if it has names for them. -/
theorem ofElf_of_delivers (delivered : file.Delivers (some t)) :
    (ofElf file logsCalls).1 = t.functions.map fun fs => ofSymbols fs logsCalls := by
  obtain ⟨bytes, c, sections, contents, opened, found⟩ := delivered
  simp only [ofElf, contents, opened, found]
  cases t.functions <;> rfl

/-- What a call trace owes to the file that it is loaded from. -/
structure LoadsExactly (file : SourceFile) (logsCalls : Bool) : Prop where
  /-- It fails at the first function that has no name, and tells where the name should be. -/
  failed : ∀ t, file.Delivers (some t) → ∀ reason,
    (ofElf file logsCalls).1 = .error reason ↔
      ∃ s, t.FirstUnnamed s ∧ reason = .name s.name ∧
        reason.text = "fail to get name at st_name=" ++ toString s.name
  /-- If all functions have names, it has exactly the functions of the table, in table order, and is
  outside of all calls. -/
  loaded : ∀ t, file.Delivers (some t) → (∀ s ∈ t.symbols, s.IsFunction → t.IsNamed s) →
    ∃ trace, (ofElf file logsCalls).1 = .ok trace ∧ trace.depth = 0 ∧
      List.Forall₂ (Symbol.Describes t.strings) t.functionSymbols trace.symbols
  /-- A file whose table has other symbols besides the same functions gives the same trace, or fails
  for the same reason. -/
  spared : ∀ t file' t', file.Delivers (some t) → file'.Delivers (some t') →
    t'.strings = t.strings → t'.functionSymbols = t.functionSymbols →
    (ofElf file' logsCalls).1 = (ofElf file logsCalls).1
  /-- Without a symbol table no address has a name. -/
  bare : file.Delivers none →
    ∃ trace, (ofElf file logsCalls).1 = .ok trace ∧ ∀ a, trace.lookup a = .ok "???"

/-- A call trace is loaded with exactly the functions of the symbol table that the reader finds in a
file; symbols of other kinds have no part in it. -/
theorem functions_are_loaded (file : SourceFile) (logsCalls : Bool) :
    LoadsExactly file logsCalls where
  failed t delivered reason := by
    rw [ofElf_of_delivers delivered]
    constructor
    · intro failed
      rcases t.named_or_firstUnnamed with named | ⟨s, first⟩
      · obtain ⟨fs, told, -⟩ := Elf.SymbolTable.functions_of_named named
          (size_lt_of_delivers delivered)
        rw [told] at failed
        cases failed
      · rw [Elf.SymbolTable.functions_of_firstUnnamed first] at failed
        cases failed
        exact ⟨s, first, rfl, rfl⟩
    · rintro ⟨s, first, rfl, -⟩
      rw [Elf.SymbolTable.functions_of_firstUnnamed first]
      rfl
  loaded t delivered named := by
    obtain ⟨fs, told, described⟩ := Elf.SymbolTable.functions_of_named named
      (size_lt_of_delivers delivered)
    refine ⟨ofSymbols fs logsCalls, ?_, rfl, described⟩
    rw [ofElf_of_delivers delivered, told]
    rfl
  spared t file' t' delivered delivered' strings functions := by
    have walk : t'.function = t.function := by
      funext s
      rw [Elf.SymbolTable.function, Elf.SymbolTable.function, strings]
    rw [ofElf_of_delivers delivered, ofElf_of_delivers delivered', t.functions_eq, t'.functions_eq,
      functions, walk]
  bare delivered := ⟨ofSymbols [] logsCalls, ofElf_of_bare delivered, fun _ => rfl⟩

/-- The fields of a record, each with its width in bytes and its lowest byte first. -/
def fields (widths : List (Nat × Nat)) : List UInt8 :=
  widths.flatMap fun (width, n) => (List.range width).map fun i => .ofNat (n / 256 ^ i)

/-- A file of the 64-bit class with three symbols: one of another kind, whose name is nowhere, and
the functions `f` and `g`. -/
def sample : SourceFile := ⟨"guest.elf", some <|
  [0x7f, 0x45, 0x4c, 0x46, 2, 1, 1] ++ List.replicate 9 0 ++
  fields [(2, 2), (2, 243), (4, 1), (8, 0), (8, 0), (8, 141), (4, 0), (2, 64), (2, 56), (2, 0),
    (2, 64), (2, 2), (2, 0)] ++
  -- the symbols at 64, the names at 136
  fields [(4, 99), (1, 0), (3, 0), (8, 0), (8, 0)] ++
  fields [(4, 1), (1, 18), (3, 0), (8, 0x180000000), (8, 0x200000000)] ++
  fields [(4, 3), (1, 2), (3, 0), (8, 0x80000010), (8, 4)] ++
  [0, 0x66, 0, 0x67, 0] ++
  -- the headers of the two sections at 141
  fields [(4, 0), (4, 2), (8, 0), (8, 0), (8, 64), (8, 72), (4, 1), (4, 0), (8, 8), (8, 24)] ++
  fields [(4, 0), (4, 3), (8, 0), (8, 0), (8, 136), (8, 5), (4, 0), (4, 0), (8, 1), (8, 0)]⟩

def sampleTable : SymbolTable where
  symbols := [⟨99, 0, 0, 0⟩, ⟨1, 2, 0x180000000, 0x200000000⟩, ⟨3, 2, 0x80000010, 4⟩]
  strings := #[0, 0x66, 0, 0x67, 0]

theorem sample_delivers : sample.Delivers (some sampleTable) :=
  ⟨_, .bits64, [⟨2, 64, 72, 1, 0, 24⟩, ⟨3, 136, 5, 0, 0, 0⟩], rfl, by decide +kernel,
    by decide +kernel⟩

/-- The nameless symbol of the file is passed over, and the function `f` starts at the lower half of
its value. -/
theorem functions_are_loaded_sample :
    sample.Delivers (some sampleTable) ∧
      (∀ s ∈ sampleTable.symbols, s.IsFunction → sampleTable.IsNamed s) ∧
      ∃ trace, (ofElf sample false).1 = .ok trace ∧ trace.depth = 0 ∧
        List.Forall₂ (Symbol.Describes #[0, 0x66, 0, 0x67, 0])
          [⟨1, 2, 0x180000000, 0x200000000⟩, ⟨3, 2, 0x80000010, 4⟩] trace.symbols := by
  have named : ∀ s ∈ sampleTable.symbols, s.IsFunction → sampleTable.IsNamed s := by
    decide +kernel
  exact ⟨sample_delivers, named,
    (functions_are_loaded sample false).loaded sampleTable sample_delivers named⟩

/-! ## Files of the 32-bit class -/

/-- A file that a trace is loaded from is accepted by the reader. -/
theorem exists_delivers {trace : CallTrace} (loaded : (ofElf file logsCalls).1 = .ok trace) :
    ∃ table, file.Delivers table := by
  unfold ofElf at loaded
  split at loaded
  · cases loaded
  · next bytes contents =>
    simp only at loaded
    split at loaded
    · cases loaded
    · next c sections opened =>
      split at loaded
      · cases loaded
      · next found => exact ⟨none, bytes, c, sections, contents, opened, found⟩
      · next t found => exact ⟨some t, bytes, c, sections, contents, opened, found⟩

/-- In a table from a file of the 32-bit class, every address is looked up by its name. -/
theorem lookup_of_bits32 {bytes : List UInt8} {trace : CallTrace}
    (contents : file.contents? = some bytes) (narrow : Elf.class? bytes.toArray = some .bits32)
    (loaded : (ofElf file logsCalls).1 = .ok trace) (a : Addr) :
    trace.lookup a = .ok (trace.nameOf a) := by
  have small : ∀ f ∈ trace.symbols, f.size.toNat < 2 ^ 32 := by
    obtain ⟨_ | t, delivered⟩ := exists_delivers loaded
    · rw [ofElf_of_bare delivered] at loaded
      cases loaded
      nofun
    · rw [ofElf_of_delivers delivered] at loaded
      rcases t.named_or_firstUnnamed with named | ⟨s, first⟩
      · obtain ⟨fs, told, described⟩ := Elf.SymbolTable.functions_of_named named
          (size_lt_of_delivers delivered)
        rw [told] at loaded
        cases loaded
        obtain ⟨bytes', c, sections, contents', opened, found⟩ := delivered
        obtain rfl : bytes = bytes' := Option.some.inj (contents.symm.trans contents')
        obtain rfl : c = .bits32 :=
          Option.some.inj ((Elf.class?_of_open? opened).symm.trans narrow)
        obtain ⟨table, symbols⟩ := Elf.symbols_of_symbolTable? found
        refine Elf.Symbol.size_lt_of_describes described fun s mem => ?_
        exact Elf.size_lt_of_mem_symbols (symbols ▸ (Elf.SymbolTable.mem_functionSymbols.mp mem).1)
      · rw [Elf.SymbolTable.functions_of_firstUnnamed first] at loaded
        cases loaded
  refine lookup_of_decides (decides_of_bounded (fun f mem => ?_) a)
  have size := small f mem
  have addr : f.addr.toNat < 2 ^ 32 := f.addr.toNat_lt
  rw [FunctionSymbol.limit, UInt64.size]
  omega

end CallTrace

end Lockstep

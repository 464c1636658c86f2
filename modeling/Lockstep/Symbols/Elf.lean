/-
Lockstep.Symbols.Elf — reading the symbol table of an ELF file with little-endian fields, in the
32-bit and the 64-bit class.

A file is accepted if its identification, its header and the tables that the header announces are
there and have entries of the right size.  The symbol table is that of the first section of the
symbol-table kind; a last entry that is cut off is left out.
-/
import Lockstep.Text.Lines

namespace Lockstep.Elf

/-- The two widths of addresses and offsets. -/
inductive Class where
  | bits32
  | bits64
deriving DecidableEq, Repr

abbrev Bytes := Array UInt8

/-- The little-endian number in the `count` bytes from an offset on, if the file holds them. -/
def number? (file : Bytes) (off : Nat) : Nat → Option Nat
  | 0 => some 0
  | count + 1 =>
    match file[off]?, number? file (off + 1) count with
    | some b, some rest => some (b.toNat + 256 * rest)
    | _, _ => none

/-- Whether a range lies in a file. -/
def holds (file : Bytes) (off length : Nat) : Bool := off + length ≤ file.size

def range? (file : Bytes) (off length : Nat) : Option Bytes :=
  if holds file off length then some (file.extract off (off + length)) else none

/-- A field of a record, by its offset and width in either class. -/
structure Place where
  off32 : Nat
  width32 : Nat
  off64 : Nat
  width64 : Nat

namespace Class

/-- A field of the record that starts at `base`. -/
def field? (c : Class) (file : Bytes) (base : Nat) (p : Place) : Option Nat :=
  match c with
  | .bits32 => number? file (base + p.off32) p.width32
  | .bits64 => number? file (base + p.off64) p.width64

/-- The size of the file header. -/
def headerSize : Class → Nat
  | .bits32 => 52
  | .bits64 => 64

/-- The size of a section header. -/
def sectionSize : Class → Nat
  | .bits32 => 40
  | .bits64 => 64

/-- The size of a program header. -/
def segmentSize : Class → Nat
  | .bits32 => 32
  | .bits64 => 56

/-- The size of a symbol. -/
def symbolSize : Class → Nat
  | .bits32 => 16
  | .bits64 => 24

end Class

/-- The class that an identification announces, if it is one of a little-endian ELF file. -/
def class? (file : Bytes) : Option Class :=
  if file.extract 0 4 = #[0x7f, 0x45, 0x4c, 0x46] ∧ file[5]? = some 1 ∧ file[6]? = some 1 then
    match (file[4]? : Option UInt8) with
    | some 1 => some .bits32
    | some 2 => some .bits64
    | _ => none
  else none

/-- What the file header says about the two tables of headers. -/
structure Header where
  segmentOffset : Nat
  sectionOffset : Nat
  segmentSize : Nat
  segmentCount : Nat
  sectionSize : Nat
  sectionCount : Nat
deriving DecidableEq, Repr

/-- The file header. -/
def header? (c : Class) (file : Bytes) : Option Header :=
  if holds file 0 c.headerSize then do
    some
      { segmentOffset := ← c.field? file 0 ⟨28, 4, 32, 8⟩
        sectionOffset := ← c.field? file 0 ⟨32, 4, 40, 8⟩
        segmentSize := ← c.field? file 0 ⟨42, 2, 54, 2⟩
        segmentCount := ← c.field? file 0 ⟨44, 2, 56, 2⟩
        sectionSize := ← c.field? file 0 ⟨46, 2, 58, 2⟩
        sectionCount := ← c.field? file 0 ⟨48, 2, 60, 2⟩ }
  else none

/-- A section header. -/
structure SectionHeader where
  kind : Nat
  offset : Nat
  size : Nat
  link : Nat
  info : Nat
  entrySize : Nat
deriving DecidableEq, Repr

def symbolTableKind : Nat := 2

/-- The section header at an offset. -/
def sectionAt? (c : Class) (file : Bytes) (off : Nat) : Option SectionHeader :=
  if holds file off c.sectionSize then do
    some
      { kind := ← c.field? file off ⟨4, 4, 4, 4⟩
        offset := ← c.field? file off ⟨16, 4, 24, 8⟩
        size := ← c.field? file off ⟨20, 4, 32, 8⟩
        link := ← c.field? file off ⟨24, 4, 40, 4⟩
        info := ← c.field? file off ⟨28, 4, 44, 4⟩
        entrySize := ← c.field? file off ⟨36, 4, 56, 8⟩ }
  else none

/-- The section headers.  A count of zero stands for the count that section 0 gives as its size. -/
def sections? (c : Class) (h : Header) (file : Bytes) : Option (List SectionHeader) :=
  if h.sectionOffset = 0 then some []
  else if h.sectionSize ≠ c.sectionSize then none
  else do
    let count ←
      if h.sectionCount = 0 then (sectionAt? c file h.sectionOffset).map (·.size)
      else some h.sectionCount
    if holds file h.sectionOffset (count * c.sectionSize) then
      (List.range count).mapM fun i => sectionAt? c file (h.sectionOffset + i * c.sectionSize)
    else none

/-- The count of program headers that stands for the count that section 0 gives as its info. -/
def extendedCount : Nat := 0xffff

/-- Whether the program headers lie in the file. -/
def segmentsFit (c : Class) (h : Header) (file : Bytes) : Bool :=
  if h.segmentOffset = 0 then true
  else
    let count? :=
      if h.segmentCount = extendedCount then (sectionAt? c file h.sectionOffset).map (·.info)
      else some h.segmentCount
    match count? with
    | none => false
    | some count =>
      h.segmentSize == c.segmentSize && holds file h.segmentOffset (count * c.segmentSize)

/-- The class and the sections of an acceptable file. -/
def open? (file : Bytes) : Option (Class × List SectionHeader) := do
  let c ← class? file
  let h ← header? c file
  let sections ← sections? c h file
  if segmentsFit c h file then some (c, sections) else none

/-- An entry of the symbol table. -/
structure Symbol where
  /-- Where the name starts in the string table. -/
  name : Nat
  kind : Nat
  value : Nat
  size : Nat
deriving DecidableEq, Repr

def functionKind : Nat := 2

/-- The symbol at an offset. -/
def symbolAt? (c : Class) (file : Bytes) (off : Nat) : Option Symbol := do
  some
    { name := ← c.field? file off ⟨0, 4, 0, 4⟩
      kind := (← c.field? file off ⟨12, 1, 4, 1⟩) % 16
      value := ← c.field? file off ⟨4, 4, 8, 8⟩
      size := ← c.field? file off ⟨8, 4, 16, 8⟩ }

def symbols (c : Class) (table : Bytes) : List Symbol :=
  (List.range (table.size / c.symbolSize)).filterMap fun i => symbolAt? c table (i * c.symbolSize)

/-- A symbol table with the string table that its names are in. -/
structure SymbolTable where
  symbols : List Symbol
  strings : Bytes

/-- The symbol table of a file; the inner choice is empty if the file has none. -/
def symbolTable? (c : Class) (sections : List SectionHeader) (file : Bytes) :
    Option (Option SymbolTable) :=
  match sections.find? fun s => s.kind == symbolTableKind with
  | none => some none
  | some s => do
    let table ← range? file s.offset s.size
    let names ← sections[s.link]?
    let strings ← range? file names.offset names.size
    if s.entrySize = c.symbolSize then some (some ⟨symbols c table, strings⟩) else none

/-- The text that starts at an offset of a string table and runs up to a zero byte. -/
def nameAt? (strings : Bytes) (off : Nat) : Option String :=
  if off ≤ strings.size then
    let rest := (strings.extract off strings.size).toList
    if 0 ∈ rest then Text.decode? (rest.takeWhile (· ≠ 0)) else none
  else none

end Lockstep.Elf

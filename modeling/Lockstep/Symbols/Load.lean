/-
Lockstep.Symbols.Load — the functions of a guest program, taken from its ELF file.

Only symbols of the function kind count; the names of others are never looked at.
-/
import Lockstep.Symbols.Elf
import Lockstep.Symbols.Table

namespace Lockstep

/-- A file that a session is started with: the name it was given under and its contents, or nothing
if it cannot be read. -/
structure SourceFile where
  name : String
  contents? : Option (List UInt8)
deriving DecidableEq, Repr

/-- Why the functions of a guest program could not be loaded. -/
inductive SymbolFailure where
  | unreadable (file : String)
  | malformed
  | symbolTable
  /-- The name of a function is not in the string table. -/
  | name (offset : Nat)
deriving DecidableEq, Repr

/-- The text of such a failure. -/
def SymbolFailure.text : SymbolFailure → String
  | .unreadable file => "reading ELF file " ++ file
  | .malformed => "parsing ELF file"
  | .symbolTable => "reading symbol table(SHT_SYMTAB) from ELF"
  | .name offset => s!"fail to get name at st_name={offset}"

namespace Elf

/-- The function that a symbol names. -/
def SymbolTable.function (t : SymbolTable) (s : Symbol) : Except SymbolFailure FunctionSymbol :=
  match nameAt? t.strings s.name with
  | some name => .ok ⟨name, UInt32.ofNat s.value, UInt64.ofNat s.size⟩
  | none => .error (.name s.name)

def SymbolTable.functions (t : SymbolTable) : Except SymbolFailure (List FunctionSymbol) :=
  (t.symbols.filter fun s => s.kind == functionKind).mapM t.function

end Elf

namespace CallTrace

/-- A call trace for the guest program in an ELF file, with what the log says about it. -/
def ofElf (file : SourceFile) (logsCalls : Bool) : Except SymbolFailure CallTrace × List Entry :=
  match file.contents? with
  | none => (.error (.unreadable file.name), [])
  | some bytes =>
    let bytes := bytes.toArray
    match Elf.open? bytes with
    | none => (.error .malformed, [])
    | some (c, sections) =>
      match Elf.symbolTable? c sections bytes with
      | none => (.error .symbolTable, [])
      | some none => (.ok (ofSymbols [] logsCalls), [.noSymbolTable, .symbolsLoaded 0 file.name])
      | some (some table) =>
        match table.functions with
        | .error e => (.error e, [])
        | .ok fs => (.ok (ofSymbols fs logsCalls), [.symbolsLoaded fs.length file.name])

end CallTrace

end Lockstep

/-
Lockstep.Word — the guest's machine word and its view as four bytes.

Words and addresses are 32 bits wide and wrap.  A word is stored least significant byte first;
an address names a byte, and `Word.align` and `Word.lane` split it into the word that holds that
byte and the byte's place in it.
-/
namespace Lockstep

/-- A machine word of the guest. -/
abbrev Word := UInt32

/-- An address in the guest's address space. -/
abbrev Addr := UInt32

namespace Word

/-- Byte `i` of a word, counted from the least significant one. -/
def byte (w : Word) (i : Nat) : UInt8 := UInt8.ofNat (w.toNat >>> (8 * i))

def bytes (w : Word) : List UInt8 := [byte w 0, byte w 1, byte w 2, byte w 3]

/-- The word whose bytes, least significant first, are the four given ones. -/
def ofBytes (b₀ b₁ b₂ b₃ : UInt8) : Word :=
  UInt32.ofNat (b₀.toNat + 256 * (b₁.toNat + 256 * (b₂.toNat + 256 * b₃.toNat)))

/-- The address of the first byte of the word that holds the byte at `a`. -/
def align (a : Addr) : Addr := a &&& 0xfffffffc

/-- The place of the byte at `a` in its word, from 0 to 3. -/
def lane (a : Addr) : Nat := a.toNat % 4

/-- The word seen from byte `lane a` on: the byte at `a` becomes the lowest one. -/
def fromLane (w : Word) (a : Addr) : Word := w >>> UInt32.ofNat (8 * lane a)

end Word

/-- The byte lanes that a write mask selects, lowest first.  Only the low four bits of a mask
name lanes. -/
def strobedLanes (mask : UInt8) : List Nat := [0, 1, 2, 3].filter fun i => mask.toNat.testBit i

/-- The little-endian bytes of a list of words, one word after the other. -/
def bytesOfWords (ws : List Word) : List UInt8 := ws.flatMap Word.bytes

end Lockstep

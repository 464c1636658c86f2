/-
Lockstep.Proofs.Toy.Memory — the memory of the toy reference model and the bus.

The reference model has a memory of its own, which answers for the addresses of guest memory and for
nothing else.  Where a device covers a word the bus asks the device; everywhere else it reads and
writes what the reference model would read and write in guest memory, or it finds nothing
(`Bus.readEnds`, `Bus.writeEnds`).
-/
import Lockstep.Proofs.Bus.Access
import Lockstep.Proofs.Bus.Address
import Lockstep.Toy.Reference

namespace Lockstep

open Outcome

open Toy (Reference)

variable {δ : Type}

/-- The reference model takes an image that fits. -/
theorem Toy.Reference.copy_of_fits {r : Reference} {bytes : List UInt8}
    (fits : bytes.length ≤ r.memory.size) :
    r.copy Platform.resetVector bytes =
      .ok { r with memory := r.memory.overlay (.ofBytes 0 bytes) } := by
  have place : (Platform.resetVector - Platform.memoryBase).toNat = 0 := rfl
  simp [Reference.copy, place, fits, Memory.splice_eq_overlay]

namespace Bus

/-- Guest memory is made of whole words and does not go past the end of the address space. -/
structure Sized (b : Bus δ) : Prop where
  whole : b.memory.size % 4 = 0
  fits : b.memory.size ≤ 0x80000000

theorem Sized.of_sameLayout {b c : Bus δ} (h : b.Sized) (same : SameLayout b c) : c.Sized :=
  ⟨by rw [same.size]; exact h.whole, by rw [same.size]; exact h.fits⟩

/-- The reference model finds a word of guest memory at its offset. -/
theorem offset?_of_inMemory {b : Bus δ} (sized : b.Sized) {a : Addr}
    (inside : b.inMemory (Word.align a) = true) :
    Reference.offset? b.memory a = some (offset (Word.align a)) := by
  have held := (inMemory_iff sized.fits _).mp inside
  rw [Word.toNat_align] at held
  have low : Platform.memoryBase ≤ a := by
    rw [UInt32.le_iff_toNat_le]
    show 0x80000000 ≤ a.toNat
    omega
  have place : (Word.align (a - Platform.memoryBase)).toNat = offset (Word.align a) := by
    rw [Word.toNat_align, UInt32.toNat_sub_of_le _ _ low, offset_eq, Word.toNat_align]
    show a.toNat - 0x80000000 - (a.toNat - 0x80000000) % 4 = _
    rw [if_pos held.1]
    omega
  simp only [Reference.offset?]
  rw [place, if_pos ⟨low, word_fits sized.whole inside⟩]

/-! ## Reads -/

variable [Peripheral δ]

/-- How a read of the bus comes out: a device answers it, or guest memory as the reference model
would answer it, or nothing. -/
inductive ReadEnds (b : Bus δ) (a : Addr) : Prop where
  | device {w : Word} {ms : List (Mapping δ)} (covered : b.isIntercepted a = true)
    (ends : (b.read a).Ends (.ok w) (b.accessed ms)) (layout : SameLayout b (b.accessed ms))
  | memory (inside : b.inMemory (Word.align a) = true)
    (ends : (b.read a).Ends (.ok (Reference.loadWord b.memory a)) b)
  | nowhere (ends : (b.read a).Ends (.error ⟨a⟩) b)

/-- A word of guest memory that no device covers is read as the reference model reads it. -/
theorem ends_read_of_inMemory {b : Bus δ} (sized : b.Sized) {a : Addr}
    (free : b.isIntercepted a = false) (inside : b.inMemory (Word.align a) = true) :
    (b.read a).Ends (.ok (Reference.loadWord b.memory a)) b := by
  obtain ⟨w, word⟩ : ∃ w, b.memory.readWord? (offset (Word.align a)) = some w := by
    rw [← Option.isSome_iff_exists, Memory.isSome_readWord?]
    exact decide_eq_true (word_fits sized.whole inside)
  have loaded : Reference.loadWord b.memory a = Word.fromLane w a := by
    simp [Reference.loadWord, offset?_of_inMemory sized inside, word]
  rw [read_of_free free, loaded]
  exact ⟨readMemory_of_word inside word, state_readMemory b a⟩

theorem readEnds {b : Bus δ} (sized : b.Sized) (a : Addr) : b.ReadEnds a := by
  by_cases covered : b.isIntercepted a = true
  · obtain ⟨ms, w, state, result, layout⟩ := read_of_device covered
    exact .device covered ⟨result, state⟩ layout
  · have free : b.isIntercepted a = false := by simpa using covered
    have same := read_of_free free
    have state := state_readMemory b a
    rcases inside : b.inMemory (Word.align a) with _ | _
    · have result := (result_readMemory b a).resolve_right fun held => by simp [inside] at held
      refine .nowhere ?_
      rw [same]
      exact ⟨result.2, state⟩
    · exact .memory inside (ends_read_of_inMemory sized free inside)

/-! ## Writes -/

/-- How a write to the bus comes out: a device takes it, or guest memory as the reference model
would take it, or nothing. -/
inductive WriteEnds (b : Bus δ) (a : Addr) (mask : UInt8) (data : Word) : Prop where
  | device {ms : List (Mapping δ)} (ends : (b.write a mask data).Ends (.ok ()) (b.accessed ms))
    (layout : SameLayout b (b.accessed ms))
  | memory
    (ends : (b.write a mask data).Ends (.ok ())
      (b.withMemory (Reference.storeWord b.memory a mask data)))
    (size : (Reference.storeWord b.memory a mask data).size = b.memory.size)
  | nowhere (ends : (b.write a mask data).Ends (.error ⟨a⟩) b)

omit [Peripheral δ] in
theorem size_storeWord (m : Memory) (a : Addr) (mask : UInt8) (data : Word) :
    (Reference.storeWord m a mask data).size = m.size := by
  unfold Reference.storeWord
  split
  · exact Memory.size_writeLanes _ _ _ _
  · rfl

theorem writeEnds {b : Bus δ} (sized : b.Sized) (a : Addr) (mask : UInt8) (data : Word) :
    b.WriteEnds a mask data := by
  by_cases empty : (strobedLanes mask).isEmpty = true
  · -- No lane is written on either side.
    obtain ⟨state, result⟩ := write_of_empty empty b a data
    have lanes : strobedLanes mask = [] := List.isEmpty_iff.mp empty
    have stored : Reference.storeWord b.memory a mask data = b.memory := by
      unfold Reference.storeWord
      rw [lanes]
      split <;> rfl
    refine .memory ⟨result, ?_⟩ (size_storeWord _ _ _ _)
    rw [state, stored]
    rfl
  · have some : (strobedLanes mask).isEmpty = false := by simpa using empty
    by_cases covered : b.isIntercepted a = true
    · obtain ⟨ms, state, result, layout⟩ := write_of_device covered some data
      exact .device ⟨result, state⟩ layout
    · have free : b.isIntercepted a = false := by simpa using covered
      have same : b.write a mask data = b.writeMemory a mask data := write_of_free free some
      rcases inside : b.inMemory (Word.align a) with _ | _
      · have written := writeMemory_spec b a mask data
        rw [inside, if_neg Bool.false_ne_true] at written
        refine .nowhere ?_
        rw [same]
        exact ⟨written.2, written.1⟩
      · have fits := word_fits sized.whole inside
        obtain ⟨result, state⟩ := writeMemory_of_fits mask data inside fits
        have stored : Reference.storeWord b.memory a mask data =
            b.memory.overlay (.ofLanes (offset (Word.align a)) data (strobedLanes mask)) := by
          simp only [Reference.storeWord, offset?_of_inMemory sized inside,
            Memory.writeLanes_of_fits fits]
        refine .memory ⟨?_, ?_⟩ (size_storeWord _ _ _ _)
        · rw [same, result]
        · rw [same, state, stored]

end Bus

end Lockstep

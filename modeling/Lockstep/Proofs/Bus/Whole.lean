/-
Lockstep.Proofs.Bus.Whole — guest memory of whole words, and the range that reports name.

The range is told by its first and its last address, and the last one comes from wrapping sums,
while the bus finds out by a wrapping difference whether an address lies in guest memory.  The two
agree up to the very last address there is (`Bus.inMemory_iff_range`).  If guest memory is made of
whole words, then no access crashes: each gets its answer where something answers, and is refused
elsewhere.
-/
import Lockstep.Proofs.Bus.Bounds

namespace Lockstep

open Outcome

variable {δ : Type}

/-! ## The range of guest memory -/

/-- The last address is the one before the first if there is no guest memory, and it does not wrap
if guest memory takes all addresses from its first one on. -/
theorem Platform.toNat_lastAddr {size : Nat} (fits : size ≤ 0x80000000) :
    (Platform.lastAddr size).toNat = 0x7fffffff + size := by
  have base : Platform.memoryBase.toNat = 0x80000000 := rfl
  rw [Platform.lastAddr, UInt32.toNat_sub, UInt32.toNat_add, UInt32.toNat_ofNat', base,
    UInt32.toNat_one]
  omega

namespace Bus

variable {b : Bus δ} {addr : Addr}

/-- Guest memory is the range that is reported. -/
theorem inMemory_iff_range (fits : b.memory.size ≤ 0x80000000) (a : Addr) :
    b.inMemory a = true ↔ Platform.memoryBase ≤ a ∧ a ≤ Platform.lastAddr b.memorySize := by
  have base : Platform.memoryBase.toNat = 0x80000000 := rfl
  rw [inMemory_iff fits, UInt32.le_iff_toNat_le, UInt32.le_iff_toNat_le, memorySize,
    Platform.toNat_lastAddr fits, base]
  omega

/-- A word lies in guest memory if any byte of it does. -/
theorem inMemory_align (whole : b.memory.size % 4 = 0) (a : Addr) :
    b.inMemory (Word.align a) = b.inMemory a := by
  have aligned := Word.toNat_align a
  have bound := a.toNat_lt
  rw [Bool.eq_iff_iff, inMemory, inMemory, decide_eq_true_iff, decide_eq_true_iff, offset_eq,
    offset_eq]
  split <;> split <;> omega

/-! ## Accesses to whole words -/

theorem endures_of_whole (whole : b.memory.size % 4 = 0) (x : Access) : b.endures x = true := by
  cases x with
  | read addr =>
    rcases inside : b.inMemory (Word.align addr) with _ | _
    · simp [endures, inside]
    · simp [endures, word_fits whole inside]
  | write addr mask data =>
    rcases inside : b.inMemory (Word.align addr) with _ | _
    · simp [endures, inside]
    · have ends := word_fits whole inside
      have lanes : ∀ i ∈ strobedLanes mask, offset (Word.align addr) + i < b.memory.size := by
        intro i lane
        have low := (mem_strobedLanes.mp lane).1
        omega
      simpa [endures, inside] using .inr lanes

section Access

variable [Peripheral δ]

/-- A read gets a word where something answers. -/
theorem ends_read_of_answers (whole : b.memory.size % 4 = 0) (there : b.answers addr = true) :
    ∃ w c, (b.read addr).Ends (.ok w) c ∧ b.SameLayout c := by
  have result := result_read (endures_of_whole whole (.read addr))
  rw [if_pos there] at result
  obtain ⟨w, result⟩ := result
  exact ⟨w, _, ⟨result, rfl⟩, b.sameLayout_make (.read addr)⟩

theorem ends_read_of_nowhere (nowhere : b.answers addr = false) :
    (b.read addr).Ends (.error ⟨addr⟩) b := by
  have ends := read_cases b addr
  rw [nowhere, if_neg Bool.false_ne_true] at ends
  exact ⟨ends.1, ends.2⟩

/-- A write is taken where something answers, and also if it selects no byte. -/
theorem ends_write_of_answers (whole : b.memory.size % 4 = 0) {mask : UInt8}
    (there : ((strobedLanes mask).isEmpty || b.answers addr) = true) (data : Word) :
    ∃ c, (b.write addr mask data).Ends (.ok ()) c ∧ b.SameLayout c := by
  have ends := write_cases b addr mask data
  rw [if_pos there] at ends
  have ok : (b.write addr mask data).isOk = true :=
    isOk_make.trans (endures_of_whole whole (.write addr mask data))
  rw [ok] at ends
  exact ⟨_, ⟨ends.resolve_right (by simp), rfl⟩, b.sameLayout_make (.write addr mask data)⟩

theorem ends_write_of_nowhere {mask : UInt8} (some : (strobedLanes mask).isEmpty = false)
    (nowhere : b.answers addr = false) (data : Word) :
    (b.write addr mask data).Ends (.error ⟨addr⟩) b := by
  have ends := write_cases b addr mask data
  rw [some, nowhere, Bool.or_false, if_neg Bool.false_ne_true] at ends
  exact ⟨ends.1, ends.2⟩

end Access

end Bus

end Lockstep

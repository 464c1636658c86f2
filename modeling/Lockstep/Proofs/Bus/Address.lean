/-
Lockstep.Proofs.Bus.Address — addresses, words and offsets.

Addresses wrap at 32 bits, and so do the offsets into guest memory and into devices that are made
of them.  Here they are told by numbers that do not wrap: the address of a word is a multiple of
four (`Word.toNat_align`), a device covers an interval (`Mapping.covers_iff`), and so does guest
memory, unless it goes past the end of the address space (`Bus.inMemory_iff`).  A word that begins
in guest memory lies in it as a whole if memory is made of whole words (`Bus.word_fits`).
-/
import Lockstep.Bus.Basic

namespace Lockstep

/-- The address of a word is the one of a byte, rounded down to a multiple of four. -/
theorem Word.toNat_align (a : Addr) : (Word.align a).toNat = a.toNat - a.toNat % 4 := by
  have words : a.toNat - a.toNat % 4 = (a.toNat >>> 2) <<< 2 := by
    rw [Nat.shiftRight_eq_div_pow, Nat.shiftLeft_eq]
    omega
  have ones : (0xfffffffc : Nat) = (2 ^ 30 - 1) <<< 2 := rfl
  rw [Word.align, UInt32.toNat_and, words]
  show a.toNat &&& 0xfffffffc = _
  rw [ones]
  apply Nat.eq_of_testBit_eq
  intro i
  simp only [Nat.testBit_and, Nat.testBit_shiftLeft, Nat.testBit_two_pow_sub_one,
    Nat.testBit_shiftRight]
  by_cases high : 2 ≤ i
  · have place : 2 + (i - 2) = i := by omega
    by_cases low : i - 2 < 30
    · simp [high, low, place]
    · have past : a.toNat.testBit i = false := by
        apply Nat.testBit_lt_two_pow
        calc a.toNat < 2 ^ 32 := a.toNat_lt
          _ ≤ 2 ^ i := Nat.pow_le_pow_right (by omega) (by omega)
      simp [past, place]
  · simp [high]

variable {δ : Type}

/-- A device covers the addresses from its base on. -/
theorem Mapping.covers_iff (m : Mapping δ) (a : Addr) :
    m.covers a = true ↔ m.base.toNat ≤ a.toNat ∧ a.toNat < m.base.toNat + m.size := by
  simp only [Mapping.covers, Bool.and_eq_true, decide_eq_true_eq, UInt32.le_iff_toNat_le]
  constructor
  · rintro ⟨low, high⟩
    rw [UInt32.toNat_sub_of_le _ _ low] at high
    omega
  · rintro ⟨low, high⟩
    rw [UInt32.toNat_sub_of_le _ _ low]
    omega

namespace Bus

/-- Addresses before guest memory have the offsets from 2³¹ on. -/
theorem offset_eq (a : Addr) :
    offset a = if 0x80000000 ≤ a.toNat then a.toNat - 0x80000000 else a.toNat + 0x80000000 := by
  unfold offset
  rw [UInt32.toNat_sub, show Platform.memoryBase.toNat = 0x80000000 from rfl]
  have bound := a.toNat_lt
  split <;> omega

theorem offset_of_le {a : Addr} (h : 0x80000000 ≤ a.toNat) : offset a = a.toNat - 0x80000000 := by
  rw [offset_eq, if_pos h]

/-- Guest memory is an interval of addresses. -/
theorem inMemory_iff {b : Bus δ} (fits : b.memory.size ≤ 0x80000000) (a : Addr) :
    b.inMemory a = true ↔ 0x80000000 ≤ a.toNat ∧ a.toNat < 0x80000000 + b.memory.size := by
  simp only [inMemory, decide_eq_true_eq, offset_eq]
  split <;> omega

/-- Below the clock there are no devices, but for those that are added. -/
theorem isIntercepted_new (m : Memory) (serial : Serial) (clock : Clock) {a : Addr}
    (below : a.toNat < 0xa0000048) : (new m serial clock : Bus δ).isIntercepted a = false := by
  rw [← Bool.not_eq_true]
  intro covered
  have aligned := Word.toNat_align a
  have serialBase : Platform.serialBase.toNat = 0xa00003f8 := rfl
  have clockBase : Platform.clockBase.toNat = 0xa0000048 := rfl
  simp only [isIntercepted, new, List.any_cons, List.any_nil, Bool.or_false, Bool.or_eq_true,
    Mapping.covers_iff] at covered
  omega

/-- The offset of a word is a multiple of four. -/
theorem offset_align_mod (a : Addr) : offset (Word.align a) % 4 = 0 := by
  rw [offset_eq, Word.toNat_align]
  split <;> omega

/-- A word that begins in guest memory ends there. -/
theorem word_fits {b : Bus δ} (whole : b.memory.size % 4 = 0) {a : Addr}
    (inside : b.inMemory (Word.align a) = true) :
    offset (Word.align a) + 4 ≤ b.memory.size := by
  have begins : offset (Word.align a) < b.memory.size := of_decide_eq_true inside
  have aligned := offset_align_mod a
  omega

end Bus

end Lockstep

/-
Lockstep.Proofs.Bus.Overlay — guest memory with some of its bytes written over.

What a strobed write does to guest memory is told by the bytes that it puts in place
(`Memory.writeLanes_of_ok`), and such overlays compose: the later one wins byte by byte
(`Memory.overlay_overlay`).  So what is written twice in a row might as well be written once
(`Memory.overlay_overlay_self`), also a whole row of writes (`Memory.foldl_overlay_self`).  Copying
consecutive bytes is an overlay as well (`Memory.splice_eq_overlay`).
-/
import Lockstep.Bus.Memory

namespace Lockstep

/-- A mask selects the lanes of its low four bits. -/
theorem mem_strobedLanes {mask : UInt8} {i : Nat} :
    i ∈ strobedLanes mask ↔ i < 4 ∧ mask.toNat.testBit i = true := by
  have lanes : i ∈ [0, 1, 2, 3] ↔ i < 4 := by
    simp
    omega
  rw [strobedLanes, List.mem_filter, lanes]

/-- The lanes of a mask go up. -/
theorem pairwise_strobedLanes (mask : UInt8) : (strobedLanes mask).Pairwise (· < ·) :=
  List.Pairwise.filter _ (by decide)

theorem isEmpty_strobedLanes_iff {mask : UInt8} :
    (strobedLanes mask).isEmpty = true ↔ ∀ i < 4, mask.toNat.testBit i = false := by
  simp [List.eq_nil_iff_forall_not_mem, mem_strobedLanes]

theorem isEmpty_strobedLanes_iff_and {mask : UInt8} :
    (strobedLanes mask).isEmpty = true ↔ mask &&& 15 = 0 := by
  have low : (mask &&& 15).toNat = mask.toNat % 2 ^ 4 := by
    rw [UInt8.toNat_and]
    exact Nat.and_two_pow_sub_one_eq_mod mask.toNat 4
  rw [isEmpty_strobedLanes_iff, ← UInt8.toNat_inj, low]
  constructor
  · intro none
    refine Nat.eq_of_testBit_eq fun i => ?_
    rw [Nat.testBit_mod_two_pow]
    by_cases inside : i < 4
    · simp [none i inside]
    · simp [inside]
  · intro zero i inside
    have bit := Nat.testBit_mod_two_pow mask.toNat 4 i
    rw [zero] at bit
    simpa [inside] using bit.symm

/-- The bytes that a write puts in place, by offset. -/
abbrev Overlay := Nat → Option UInt8

namespace Overlay

/-- Nothing is written. -/
def empty : Overlay := fun _ => none

/-- The bytes of two writes, the second one done on top of the first. -/
def under (g h : Overlay) : Overlay := fun i => (h i).or (g i)

/-- The bytes of a word that go to the given lanes at an offset. -/
def ofLanes (off : Nat) (data : Word) (lanes : List Nat) : Overlay := fun i =>
  if off ≤ i ∧ i - off ∈ lanes then some (Word.byte data (i - off)) else none

/-- Consecutive bytes from an offset on. -/
def ofBytes (off : Nat) (bytes : List UInt8) : Overlay := fun i =>
  if off ≤ i then bytes[i - off]? else none

@[simp] theorem ofLanes_nil (off : Nat) (data : Word) : ofLanes off data [] = empty := by
  funext i
  simp [ofLanes, empty]

/-- Bytes on top of no more bytes than they are cover them. -/
theorem ofBytes_under_of_le {lower upper : List UInt8} (h : lower.length ≤ upper.length)
    (off : Nat) : (ofBytes off lower).under (ofBytes off upper) = ofBytes off upper := by
  funext i
  simp only [under, ofBytes]
  by_cases before : off ≤ i
  · by_cases inside : i - off < upper.length
    · simp [before, inside]
    · have past : lower.length ≤ i - off := by omega
      simp [before, inside, past]
  · simp [before]

end Overlay

namespace Memory

/-- Guest memory with bytes written over; those past the end are dropped. -/
def overlay (m : Memory) (g : Overlay) : Memory := ⟨m.bytes.mapIdx fun i b => (g i).getD b⟩

@[simp] theorem size_zero (size : Nat) : (zero size).size = size := by simp [zero, Memory.size]

@[simp] theorem size_overlay (m : Memory) (g : Overlay) : (m.overlay g).size = m.size := by
  simp [overlay, size]

@[simp] theorem getElem?_overlay (m : Memory) (g : Overlay) (i : Nat) :
    (m.overlay g).bytes[i]? = m.bytes[i]?.map fun b => (g i).getD b := by
  simp [overlay]

@[simp] theorem overlay_empty (m : Memory) : m.overlay .empty = m := by
  obtain ⟨bytes⟩ := m
  simp only [overlay, mk.injEq]
  apply Array.ext
  · simp
  · intro i _ _
    simp [Overlay.empty]

theorem overlay_overlay (m : Memory) (g h : Overlay) :
    (m.overlay g).overlay h = m.overlay (g.under h) := by
  obtain ⟨bytes⟩ := m
  simp only [overlay, Array.mapIdx_mapIdx, mk.injEq]
  congr 1
  funext i b
  rw [Function.comp_apply, Overlay.under]
  cases h i <;> rfl

/-- The second of two equal writes changes nothing. -/
theorem overlay_overlay_self (m : Memory) (g : Overlay) :
    (m.overlay g).overlay g = m.overlay g := by
  rw [overlay_overlay]
  congr 1
  funext i
  exact Option.or_self

/-- Writes in a row amount to one. -/
theorem foldl_overlay {ι : Type} (f : ι → Overlay) (l : List ι) :
    ∃ g : Overlay, ∀ m : Memory, l.foldl (fun m i => m.overlay (f i)) m = m.overlay g := by
  induction l with
  | nil => exact ⟨.empty, fun m => (overlay_empty m).symm⟩
  | cons i l ih =>
    obtain ⟨g, whole⟩ := ih
    exact ⟨(f i).under g, fun m => by rw [List.foldl_cons, whole, overlay_overlay]⟩

/-- The second of two equal rows of writes changes nothing. -/
theorem foldl_overlay_self {ι : Type} (f : ι → Overlay) (l : List ι) (m : Memory) :
    l.foldl (fun m i => m.overlay (f i)) (l.foldl (fun m i => m.overlay (f i)) m) =
      l.foldl (fun m i => m.overlay (f i)) m := by
  obtain ⟨g, whole⟩ := foldl_overlay f l
  rw [whole, whole, overlay_overlay_self]

@[simp] theorem size_writeLanes (m : Memory) (off : Nat) (data : Word) (lanes : List Nat) :
    (m.writeLanes off data lanes).1.size = m.size := by
  induction lanes generalizing m with
  | nil => rfl
  | cons i lanes ih =>
    rw [writeLanes]
    split
    · next inside => exact (ih _).trans (Array.size_set inside)
    · rfl

/-- A copy puts its bytes in place one after the other. -/
theorem splice_eq_overlay (m : Memory) (off : Nat) (bytes : List UInt8) :
    m.splice off bytes = m.overlay (.ofBytes off bytes) := by
  induction bytes generalizing m off with
  | nil =>
    have nothing : Overlay.ofBytes off [] = .empty := by
      funext i
      simp [Overlay.ofBytes, Overlay.empty]
    rw [nothing, overlay_empty]
    rfl
  | cons b bytes ih =>
    rw [splice, ih]
    refine congrArg Memory.mk (Array.ext_getElem? fun i => ?_)
    simp only [Array.getElem?_mapIdx, Array.getElem?_setIfInBounds, Overlay.ofBytes]
    -- Before the segment, at its first byte, or behind that byte.
    rcases Nat.lt_trichotomy i off with before | rfl | behind
    · simp [show ¬ off ≤ i by omega, show ¬ off + 1 ≤ i by omega, show off ≠ i by omega]
    · by_cases inside : i < m.bytes.size <;> simp [inside, show ¬ i + 1 ≤ i by omega]
    · have place : i - off = i - (off + 1) + 1 := by omega
      simp [show off ≤ i by omega, show off + 1 ≤ i by omega, show off ≠ i by omega, place]

/-- The bytes of a range are the ones in guest memory. -/
theorem getElem?_of_slice? {m : Memory} {off length : Nat} {bytes : List UInt8}
    (h : m.slice? off length = some bytes) {i : Nat} (inside : i < length) :
    bytes[i]? = m.bytes[off + i]? := by
  unfold slice? at h
  split at h
  · cases h
    simp only [Array.getElem?_toList, Array.getElem?_extract]
    rw [if_pos (by omega)]
  · cases h

/-- Bytes that were put in place are there. -/
theorem slice?_overlay_ofBytes {m : Memory} {off : Nat} {bytes : List UInt8}
    (fits : off + bytes.length ≤ m.size) :
    (m.overlay (.ofBytes off bytes)).slice? off bytes.length = some bytes := by
  obtain ⟨found, sliced⟩ : ∃ found,
      (m.overlay (.ofBytes off bytes)).slice? off bytes.length = some found := by
    have fits : off + bytes.length ≤ (m.overlay (.ofBytes off bytes)).size := by simpa using fits
    exact ⟨_, if_pos fits⟩
  have length : found.length = bytes.length := by
    unfold slice? at sliced
    split at sliced
    · cases sliced
      simp
      omega
    · cases sliced
  rw [sliced]
  refine congrArg some (List.ext_getElem? fun i => ?_)
  by_cases inside : i < bytes.length
  · have held : off + i < m.bytes.size := by
      unfold size at fits
      omega
    rw [getElem?_of_slice? sliced inside]
    simp [Overlay.ofBytes, held, inside]
  · rw [List.getElem?_eq_none (by omega), List.getElem?_eq_none (by omega)]

/-- A word is there when all its bytes are. -/
theorem isSome_readWord? (m : Memory) (off : Nat) :
    (m.readWord? off).isSome = decide (off + 4 ≤ m.size) := by
  unfold readWord?
  split
  · next fits => exact (decide_eq_true fits).symm
  · next short => exact (decide_eq_false short).symm

/-- A strobed write is whole when each of its lanes lies in guest memory. -/
theorem writeLanes_ok (m : Memory) (off : Nat) (data : Word) (lanes : List Nat) :
    (m.writeLanes off data lanes).2 = lanes.all fun i => decide (off + i < m.size) := by
  induction lanes generalizing m with
  | nil => rfl
  | cons i lanes ih =>
    rw [writeLanes, List.all_cons]
    split
    · next inside =>
      have size : (⟨m.bytes.set (off + i) (Word.byte data i)⟩ : Memory).size = m.size :=
        Array.size_set inside
      rw [ih, size, show (decide (off + i < m.size)) = true from decide_eq_true inside,
        Bool.true_and]
    · next outside =>
      rw [show (decide (off + i < m.size)) = false from decide_eq_false outside, Bool.false_and]

/-- A lane that is written before the others is written with them. -/
theorem overlay_ofLanes_cons {m : Memory} {off i : Nat} (data : Word) (lanes : List Nat)
    (inside : off + i < m.bytes.size) :
    (⟨m.bytes.set (off + i) (Word.byte data i)⟩ : Memory).overlay (.ofLanes off data lanes) =
      m.overlay (.ofLanes off data (i :: lanes)) := by
  simp only [overlay, mk.injEq]
  apply Array.ext
  · simp
  · intro j hj _
    simp only [Array.getElem_mapIdx, Array.getElem_set, Overlay.ofLanes, List.mem_cons]
    -- The first lane and the others get their bytes from the same word.
    by_cases here : off + i = j
    · subst here
      by_cases again : i ∈ lanes <;> simp [again]
    · have same : (off ≤ j ∧ (j - off = i ∨ j - off ∈ lanes)) ↔ off ≤ j ∧ j - off ∈ lanes := by
        constructor
        · rintro ⟨low, first | later⟩
          · omega
          · exact ⟨low, later⟩
        · exact fun ⟨low, later⟩ => ⟨low, .inr later⟩
      simp only [if_neg here, same]

/-- A whole strobed write puts the bytes of its lanes in place. -/
theorem writeLanes_of_ok {m : Memory} {off : Nat} {data : Word} {lanes : List Nat}
    (ok : (m.writeLanes off data lanes).2 = true) :
    (m.writeLanes off data lanes).1 = m.overlay (.ofLanes off data lanes) := by
  induction lanes generalizing m with
  | nil =>
    rw [Overlay.ofLanes_nil, overlay_empty]
    rfl
  | cons i lanes ih =>
    rw [writeLanes] at ok ⊢
    split at ok
    · next inside => rw [dif_pos inside, ih ok, overlay_ofLanes_cons data lanes inside]
    · cases ok

/-- Lanes that lie past the end of guest memory put nothing in place. -/
theorem overlay_ofLanes_of_past {m : Memory} {off : Nat} (data : Word) {lanes : List Nat}
    (past : ∀ i ∈ lanes, m.size ≤ off + i) : m.overlay (.ofLanes off data lanes) = m := by
  obtain ⟨bytes⟩ := m
  simp only [overlay, mk.injEq]
  apply Array.ext
  · simp
  · intro j _ inside
    simp only [Array.getElem_mapIdx, Overlay.ofLanes]
    split
    · next lane =>
      have outside : bytes.size ≤ off + (j - off) := past _ lane.2
      omega
    · rfl

/-- A strobed write that goes up through its lanes puts in place what lies in guest memory, whether
or not it is whole. -/
theorem writeLanes_of_ascending (m : Memory) (off : Nat) (data : Word) {lanes : List Nat}
    (up : lanes.Pairwise (· < ·)) :
    (m.writeLanes off data lanes).1 = m.overlay (.ofLanes off data lanes) := by
  induction lanes generalizing m with
  | nil =>
    rw [Overlay.ofLanes_nil, overlay_empty]
    rfl
  | cons i lanes ih =>
    obtain ⟨above, rest⟩ := List.pairwise_cons.mp up
    rw [writeLanes]
    split
    · next inside => rw [ih _ rest, overlay_ofLanes_cons data lanes inside]
    · next outside =>
      have past : ∀ j ∈ i :: lanes, m.size ≤ off + j := by
        intro j mem
        have size : m.size = m.bytes.size := rfl
        rcases List.mem_cons.mp mem with rfl | later
        · omega
        · have higher := above j later
          omega
      exact (overlay_ofLanes_of_past data past).symm

/-- A strobed write to a word that lies in guest memory as a whole is whole. -/
theorem writeLanes_of_fits {m : Memory} {off : Nat} (fits : off + 4 ≤ m.size) (mask : UInt8)
    (data : Word) :
    m.writeLanes off data (strobedLanes mask) =
      (m.overlay (.ofLanes off data (strobedLanes mask)), true) := by
  have ok : (m.writeLanes off data (strobedLanes mask)).2 = true := by
    rw [writeLanes_ok, List.all_eq_true]
    intro i lane
    have low := (mem_strobedLanes.mp lane).1
    exact decide_eq_true (by omega)
  exact Prod.ext (writeLanes_of_ok ok) ok

end Memory

end Lockstep

/-
Lockstep.Proofs.Monitor.Transparency — what a monitor remembers of reads and writes makes no
difference to guest memory.

Beside the monitor there is a plain one, which remembers no read and no write and puts each of them
to the bus (`Monitor.plainRead`, `Monitor.plainWrite`).  As long as no device is concerned, the two
give the same answers, leave the same guest memory and latch the same fault, whatever is fetched,
shown, read and written within a step and however the enable window is opened and closed
(`Monitor.memos_transparent`).

What carries it: a remembered read is what guest memory holds, and a remembered write is one that
guest memory holds already or that was refused already (`Monitor.IsCurrent`).  A write that goes
through may change what was read, but only in its own word, and the read of that word is forgotten.
-/
import Lockstep.Proofs.Bus.Address
import Lockstep.Proofs.Monitor.Memos
import Lockstep.Proofs.Monitor.Run
import Lockstep.Scripted.Session

namespace Lockstep

open Outcome

variable {δ : Type}

/-! ## Guest memory by words -/

/-- A word is read as before if none of its bytes is written over. -/
theorem Memory.readWord?_overlay {m : Memory} {g : Overlay} {off : Nat}
    (h : ∀ i, off ≤ i → i < off + 4 → g i = none) :
    (m.overlay g).readWord? off = m.readWord? off := by
  have size : (m.overlay g).bytes.size = m.bytes.size := m.size_overlay g
  unfold readWord?
  by_cases fits : off + 4 ≤ m.bytes.size
  · have fits' : off + 4 ≤ (m.overlay g).bytes.size := by omega
    rw [dif_pos fits, dif_pos fits']
    simp only [overlay, Array.getElem_mapIdx]
    rw [h off (by omega) (by omega), h (off + 1) (by omega) (by omega),
      h (off + 2) (by omega) (by omega), h (off + 3) (by omega) (by omega)]
    rfl
  · have short : ¬ off + 4 ≤ (m.overlay g).bytes.size := by omega
    rw [dif_neg fits, dif_neg short]

namespace Bus

/-- Two words of guest memory lie apart. -/
theorem offset_apart {a c : Addr} (h : Word.align a ≠ Word.align c) :
    offset (Word.align a) + 4 ≤ offset (Word.align c) ∨
      offset (Word.align c) + 4 ≤ offset (Word.align a) := by
  have differ : (Word.align a).toNat ≠ (Word.align c).toNat :=
    fun same => h (UInt32.toNat_inj.mp same)
  have places : offset (Word.align a) ≠ offset (Word.align c) := by
    have bound := (Word.align a).toNat_lt
    have bound' := (Word.align c).toNat_lt
    rw [offset_eq, offset_eq]
    split <;> split <;> omega
  have whole := offset_align_mod a
  have whole' := offset_align_mod c
  omega

/-- What a read finds where there is no device. -/
def held (b : Bus δ) (addr : Addr) : Except BusFault Word :=
  if b.inMemory (Word.align addr) then
    .ok (Word.fromLane ((b.memory.readWord? (offset (Word.align addr))).getD 0) addr)
  else .error ⟨addr⟩

/-- How a write comes out where there is no device. -/
def taken (b : Bus δ) (addr : Addr) (mask : UInt8) : Except BusFault Unit :=
  if (strobedLanes mask).isEmpty || b.inMemory (Word.align addr) then .ok () else .error ⟨addr⟩

/-- The bus with a write done to guest memory. -/
def stored (b : Bus δ) (addr : Addr) (mask : UInt8) (data : Word) : Bus δ :=
  b.withMemory (b.memory.overlay (b.overlayOf (.write addr mask data)))

theorem sameLayout_stored (b : Bus δ) (addr : Addr) (mask : UInt8) (data : Word) :
    SameLayout b (b.stored addr mask data) :=
  ⟨Memory.size_overlay _ _, fun _ => rfl⟩

theorem taken_of_sameLayout {b c : Bus δ} (h : SameLayout b c) (addr : Addr) (mask : UInt8) :
    c.taken addr mask = b.taken addr mask := by
  rw [taken, h.inMemory]
  rfl

/-- A write done once more changes nothing. -/
theorem stored_stored (b : Bus δ) (addr : Addr) (mask : UInt8) (data : Word) :
    (b.stored addr mask data).stored addr mask data = b.stored addr mask data := by
  have layout := b.sameLayout_stored addr mask data
  have memory : (b.stored addr mask data).memory =
      b.memory.overlay (b.overlayOf (.write addr mask data)) := rfl
  rw [stored, layout.overlayOf, memory, Memory.overlay_overlay_self]
  rfl

/-- A write changes what is read from its own word alone. -/
theorem held_stored {b : Bus δ} {addr a : Addr} (h : Word.align a ≠ Word.align addr)
    (mask : UInt8) (data : Word) : (b.stored addr mask data).held a = b.held a := by
  have word : (b.stored addr mask data).memory.readWord? (offset (Word.align a)) =
      b.memory.readWord? (offset (Word.align a)) := by
    refine Memory.readWord?_overlay fun i low high => ?_
    have apart := offset_apart h
    simp only [overlayOf]
    split
    · rfl
    · refine if_neg ?_
      rintro ⟨begins, lane⟩
      have inner := (mem_strobedLanes.mp lane).1
      omega
  rw [held, word, (b.sameLayout_stored addr mask data).inMemory]
  rfl

section Make

variable [Peripheral δ] {b : Bus δ} (whole : b.memory.size % 4 = 0) {addr : Addr}
  (free : b.isIntercepted addr = false)

include whole free

/-- Where there is no device, a read finds what guest memory holds. -/
theorem ends_read_of_free : (b.read addr).Ends (b.held addr) b := by
  rw [read_of_free free]
  refine ⟨?_, state_readMemory b addr⟩
  rcases inside : b.inMemory (Word.align addr) with _ | _
  · rw [held, inside]
    exact ((result_readMemory b addr).resolve_right fun there => by simp [inside] at there).2
  · have there := b.memory.isSome_readWord? (offset (Word.align addr))
    rw [decide_eq_true (word_fits whole inside), Option.isSome_iff_exists] at there
    obtain ⟨w, word⟩ := there
    rw [held, if_pos inside, word]
    exact readMemory_of_word inside word

/-- Where there is no device, a write goes to guest memory. -/
theorem ends_write_of_free (mask : UInt8) (data : Word) :
    (b.write addr mask data).Ends (b.taken addr mask) (b.stored addr mask data) := by
  by_cases empty : (strobedLanes mask).isEmpty = true
  · have lanes : strobedLanes mask = [] := List.isEmpty_iff.mp empty
    have nothing : b.overlayOf (.write addr mask data) = .empty := by
      rw [overlayOf, lanes, Overlay.ofLanes_nil, ite_self]
    obtain ⟨state, result⟩ := write_of_empty empty b addr data
    refine ⟨?_, ?_⟩
    · rw [result, taken, empty]
      rfl
    · rw [state, stored, nothing, Memory.overlay_empty]
      rfl
  · have some : (strobedLanes mask).isEmpty = false := by simpa using empty
    rw [write_of_free free some, taken, some, Bool.false_or]
    rcases inside : b.inMemory (Word.align addr) with _ | _
    · have refused := writeMemory_spec b addr mask data
      rw [inside, if_neg Bool.false_ne_true] at refused
      have nothing : b.overlayOf (.write addr mask data) = .empty := by
        simp [overlayOf, inside]
      refine ⟨refused.2, ?_⟩
      rw [refused.1, stored, nothing, Memory.overlay_empty]
      rfl
    · obtain ⟨result, state⟩ := writeMemory_of_fits mask data inside (word_fits whole inside)
      have lanes : b.overlayOf (.write addr mask data) =
          .ofLanes (offset (Word.align addr)) data (strobedLanes mask) := by
        simp [overlayOf, free, inside]
      refine ⟨result, ?_⟩
      rw [state, stored, lanes]

end Make

end Bus

/-! ## What happens within a step -/

/-- What happens to a monitor within a step, as far as the bus is concerned. -/
inductive Move where
  | transfer (t : Transfer)
  | showPc (pc : Addr)
  /-- The enable window is opened or closed. -/
  | setEnable (level : Bool)
deriving DecidableEq

/-- The address that a transfer goes to, while `pc` is shown. -/
def Transfer.addr (pc : Addr) : Transfer → Addr
  | .fetch => pc
  | .read addr => addr
  | .write w => w.1

/-- No transfer in a row of moves goes to a device; at the beginning `pc` is shown. -/
def Bus.IsSpared (b : Bus δ) : Addr → List Move → Prop
  | _, [] => True
  | pc, .transfer t :: xs => b.isIntercepted (t.addr pc) = false ∧ IsSpared b pc xs
  | _, .showPc pc :: xs => IsSpared b pc xs
  | pc, .setEnable _ :: xs => IsSpared b pc xs

theorem Bus.IsSpared.of_sameLayout {b c : Bus δ} (layout : b.SameLayout c) {pc : Addr}
    {xs : List Move} (h : b.IsSpared pc xs) : c.IsSpared pc xs := by
  induction xs generalizing pc with
  | nil => trivial
  | cons x xs ih =>
    cases x with
    | transfer t => exact ⟨(layout.devices _).trans h.1, ih h.2⟩
    | showPc later =>
      have rest : b.IsSpared later xs := h
      exact ih rest
    | setEnable level =>
      have rest : b.IsSpared pc xs := h
      exact ih rest

namespace Monitor

section Plain

variable [Peripheral δ]

/-- A read by a monitor that remembers no read. -/
def plainRead (m : Monitor δ) (addr : Addr) : Outcome (Monitor δ) Word :=
  if !m.enabled && m.bus.isIntercepted addr then .logged (.readIgnored addr) 0 m
  else m.access (m.bus.read addr) 0 fun _ n => n

/-- A write by a monitor that remembers neither reads nor writes. -/
def plainWrite (m : Monitor δ) (addr : Addr) (mask : UInt8) (data : Word) :
    Outcome (Monitor δ) Unit :=
  if !m.enabled then .logged (.writeIgnored addr) () m
  else m.access (m.bus.write addr mask data) () fun _ n => n

theorem plainWrite_of_enabled {m : Monitor δ} (opened : m.enabled = true) (addr : Addr)
    (mask : UInt8) (data : Word) :
    m.plainWrite addr mask data = m.access (m.bus.write addr mask data) () fun _ n => n := by
  rw [plainWrite, opened]
  rfl

/-- What a monitor does at a move. -/
def make : Move → Action (Monitor δ) Word
  | .transfer t => fun m => m.respond t.callback
  | .showPc pc => fun m => m.respond (.showPc pc)
  | .setEnable level => fun m => .pure 0 (m.setEnable level)

/-- What a plain monitor does at a move. -/
def makePlain : Move → Action (Monitor δ) Word
  | .transfer (.read addr) => fun m => m.plainRead addr
  | .transfer (.write w) => fun m => (m.plainWrite w.1 w.2.1 w.2.2).map fun _ => 0
  | x => make x

omit [Peripheral δ] in
/-- Moves in a row, with their answers. -/
def inRow (f : Move → Action (Monitor δ) Word) : List Move → Action (Monitor δ) (List Word)
  | [] => return []
  | x :: xs => do
    let w ← f x
    return w :: (← inRow f xs)

end Plain

/-- The monitor without its memory of reads and writes. -/
def forgetful (m : Monitor δ) : Monitor δ := { m with readMemo := none, writeMemo := none }

theorem unseen_forgetful : Unseen fun m : Monitor δ => m.forgetful where
  bus _ := rfl
  shown _ := rfl
  fault _ := rfl
  outOfBound _ _ := rfl
  withBus _ _ := rfl
  latch _ _ := rfl

/-- What the monitor remembers is what guest memory would do again: the read gives the same word,
and the write changes nothing and latches no fault. -/
structure IsCurrent (m : Monitor δ) : Prop where
  read : ∀ addr data, m.readMemo = some (addr, data) → m.bus.held addr = .ok data
  write : ∀ addr mask data, m.writeMemo = some (addr, mask, data) →
    m.bus.stored addr mask data = m.bus ∧
      (m.bus.taken addr mask = .ok () ∨ m.fault.isSome = true)

theorem isCurrent_beginStep (m : Monitor δ) : m.beginStep.IsCurrent := ⟨nofun, nofun⟩

/-- What a monitor remembers stays current while the bus stays as it is. -/
theorem IsCurrent.of_same {m n : Monitor δ} (current : m.IsCurrent) (bus : n.bus = m.bus)
    (read : n.readMemo = m.readMemo) (write : n.writeMemo = m.writeMemo)
    (fault : m.fault.isSome = true → n.fault.isSome = true) : n.IsCurrent := by
  refine ⟨fun addr data memo => ?_, fun addr mask data memo => ?_⟩
  · rw [bus]
    exact current.read addr data (read ▸ memo)
  · rw [bus]
    obtain ⟨same, ends⟩ := current.write addr mask data (write ▸ memo)
    exact ⟨same, ends.imp_right fault⟩

/-! ## One access -/

/-- The monitor after a fault was reported: the first one is kept. -/
def raised (m : Monitor δ) (f : BusFault) : Monitor δ :=
  { m with fault := m.fault.or (some (m.outOfBound f.addr)) }

theorem isSome_fault_raised (m : Monitor δ) (f : BusFault) :
    (m.raised f).fault.isSome = true := by
  simp [raised]

theorem raised_of_pending {m : Monitor δ} (h : m.fault.isSome = true) (f : BusFault) :
    m.raised f = m := by
  obtain ⟨o, pending⟩ := Option.isSome_iff_exists.mp h
  have kept : m.fault.or (some (m.outOfBound f.addr)) = m.fault := by
    rw [pending]
    rfl
  rw [raised, kept]

theorem ends_raise (m : Monitor δ) (f : BusFault) :
    (m.raise (m.outOfBound f.addr)).Ends () (m.raised f) := by
  unfold raise
  rcases pending : m.fault with _ | o
  · rw [raised, pending]
    exact .logged _ _ _
  · rw [raised_of_pending (by simp [pending])]
    exact .pure _ _

section Access

variable {α : Type} {m : Monitor δ} {o : Outcome (Bus δ) (Except BusFault α)} {fallback : α}
  {remember : α → Monitor δ → Monitor δ} {b : Bus δ}

/-- An access that reaches nothing leaves the first fault latched. -/
theorem ends_access_of_refused {f : BusFault} (h : o.Ends (.error f) b) :
    (m.access o fallback remember).Ends fallback ((m.withBus b).raised f) :=
  (h.within m.withBus).next ((ends_raise _ f).map _)

end Access

/-! ## One move -/

section Move

variable [Peripheral δ] {m : Monitor δ}

/-- A fetch does not look at what is remembered of reads and writes. -/
theorem fetch_forgetful (m : Monitor δ) : m.forgetful.fetch = m.fetch.within forgetful :=
  unseen_forgetful.fetch m (fun _ => rfl) fun _ _ => rfl

/-- A plain monitor does not look at what it might remember. -/
theorem makePlain_forgetful (m : Monitor δ) (x : Move) :
    (makePlain x).run m.forgetful = ((makePlain x).run m).within forgetful := by
  cases x with
  | showPc pc | setEnable level => rfl
  | transfer t =>
    cases t with
    | fetch => exact fetch_forgetful m
    | read addr =>
      show m.forgetful.plainRead addr = (m.plainRead addr).within forgetful
      have ignored : (!m.forgetful.enabled && m.forgetful.bus.isIntercepted addr) =
          (!m.enabled && m.bus.isIntercepted addr) := rfl
      rw [plainRead, plainRead, ignored]
      split
      · rfl
      · exact unseen_forgetful.access fun _ _ => rfl
    | write w =>
      have plain : m.forgetful.plainWrite w.1 w.2.1 w.2.2 =
          (m.plainWrite w.1 w.2.1 w.2.2).within forgetful := by
        have closed : m.forgetful.enabled = m.enabled := rfl
        rw [plainWrite, plainWrite, closed]
        split
        · rfl
        · exact unseen_forgetful.access fun _ _ => rfl
      exact congrArg (fun o => o.map fun _ => (0 : Word)) plain

variable (current : m.IsCurrent)

include current

omit [Peripheral δ] in
/-- A write that goes through leaves a current memory of itself and of what was read elsewhere. -/
theorem isCurrent_wrote (addr : Addr) (mask : UInt8) (data : Word) {n : Monitor δ}
    (bus : n.bus = m.bus.stored addr mask data) (read : n.readMemo = m.readMemoAfterWrite addr)
    (write : n.writeMemo = some (addr, mask, data))
    (ends : m.bus.taken addr mask = .ok () ∨ n.fault.isSome = true) : n.IsCurrent := by
  refine ⟨fun addr' data' memo => ?_, fun addr' mask' data' memo => ?_⟩
  · rw [read, readMemoAfterWrite, Option.filter_eq_some_iff, decide_eq_true_iff] at memo
    rw [bus, Bus.held_stored memo.2]
    exact current.read addr' data' memo.1
  · rw [write] at memo
    cases memo
    rw [bus, Bus.taken_of_sameLayout (m.bus.sameLayout_stored _ _ _)]
    exact ⟨Bus.stored_stored _ _ _ _, ends⟩

variable (whole : m.bus.memory.size % 4 = 0)

include whole

theorem fetch_keeps (free : m.bus.isIntercepted m.shown.pc = false) :
    ∃ w n, m.fetch.Ends w n ∧ n.IsCurrent ∧ n.bus = m.bus ∧ n.shown = m.shown := by
  rcases m.fetch_cases with ⟨inst, _, same⟩ | ⟨_, same⟩
  · exact ⟨inst, m, same ▸ .pure inst m, current, rfl, rfl⟩
  · have ends := Bus.ends_read_of_free whole free
    rw [same]
    rcases found : m.bus.held m.shown.pc with f | w
    · rw [found] at ends
      exact ⟨_, _, ends_access_of_refused ends,
        current.of_same rfl rfl rfl fun _ => isSome_fault_raised _ f, rfl, rfl⟩
    · rw [found] at ends
      exact ⟨_, _, ends_access ends, current.of_same rfl rfl rfl id, rfl, rfl⟩

/-- A read gives what a plain monitor reads. -/
theorem read_plain {addr : Addr} (free : m.bus.isIntercepted addr = false) :
    ∃ w n, (m.read addr).Ends w n ∧ (m.forgetful.plainRead addr).Ends w n.forgetful ∧
      n.IsCurrent ∧ n.bus = m.bus ∧ n.shown = m.shown := by
  have ends := Bus.ends_read_of_free whole free
  have plain : m.forgetful.plainRead addr =
      m.forgetful.access (m.bus.read addr) 0 fun _ n => n := by
    have free' : m.forgetful.bus.isIntercepted addr = false := free
    rw [plainRead, free', Bool.and_false]
    rfl
  rcases m.read_cases addr with ⟨data, memo, same⟩ | ⟨_, ignored, _⟩ | ⟨_, _, same⟩
  · -- What is remembered is what the bus holds.
    rw [current.read addr data memo] at ends
    refine ⟨data, m, same ▸ .pure data m, ?_, current, rfl, rfl⟩
    rw [plain]
    exact ends_access ends
  · rw [free, Bool.and_false] at ignored
    cases ignored
  · have fresh : m.forgetful.plainRead addr = (m.read addr).within forgetful := by
      rw [plain, same]
      exact unseen_forgetful.access fun _ _ => rfl
    rw [fresh]
    rcases found : m.bus.held addr with f | w
    · rw [found] at ends
      have refused : (m.read addr).Ends 0 ((m.withBus m.bus).raised f) := by
        rw [same]
        exact ends_access_of_refused ends
      exact ⟨_, _, refused, refused.within forgetful,
        current.of_same rfl rfl rfl fun _ => isSome_fault_raised _ f, rfl, rfl⟩
    · rw [found] at ends
      have answered : (m.read addr).Ends w { m with readMemo := some (addr, w) } := by
        rw [same]
        exact ends_access ends
      refine ⟨_, _, answered, answered.within forgetful, ⟨fun addr' w' memo => ?_, current.write⟩,
        rfl, rfl⟩
      obtain ⟨rfl, rfl⟩ := Prod.mk.inj (Option.some.inj memo)
      exact found

/-- A write that is dropped as a repeated one leaves a plain monitor as it is: it is in place
already, or a fault is latched already. -/
theorem plainWrite_of_repeated {addr : Addr} (free : m.bus.isIntercepted addr = false)
    {mask : UInt8} {data : Word} (opened : m.enabled = true)
    (memo : m.writeMemo = some (addr, mask, data)) :
    (m.forgetful.plainWrite addr mask data).Ends () m.forgetful := by
  have ends := Bus.ends_write_of_free whole free mask data
  obtain ⟨still, already⟩ := current.write addr mask data memo
  rw [still] at ends
  rw [plainWrite_of_enabled (m := m.forgetful) opened]
  rcases came : m.bus.taken addr mask with f | ⟨⟩
  · rw [came] at ends already
    have kept : (m.forgetful.withBus m.bus).raised f = m.forgetful.withBus m.bus :=
      raised_of_pending (m := m.forgetful.withBus m.bus) (already.resolve_left nofun) f
    have refused : (m.forgetful.access (m.bus.write addr mask data) () fun _ n => n).Ends ()
        ((m.forgetful.withBus m.bus).raised f) := ends_access_of_refused ends
    rwa [kept] at refused
  · rw [came] at ends
    exact ends_access ends

/-- A write leaves what a plain monitor leaves. -/
theorem write_plain {addr : Addr} (free : m.bus.isIntercepted addr = false) (mask : UInt8)
    (data : Word) :
    ∃ n, (m.write addr mask data).Ends () n ∧
      (m.forgetful.plainWrite addr mask data).Ends () n.forgetful ∧ n.IsCurrent ∧
      m.bus.SameLayout n.bus ∧ n.shown = m.shown := by
  rcases m.write_cases addr mask data with ⟨closed, same⟩ | ⟨opened, memo, same⟩ |
    ⟨opened, _, same⟩
  · have plain : m.forgetful.plainWrite addr mask data =
        .logged (.writeIgnored addr) () m.forgetful := by
      have closed' : m.forgetful.enabled = false := closed
      rw [plainWrite, closed']
      rfl
    rw [same, plain]
    exact ⟨m, .logged _ _ _, .logged _ _ _, current, .refl _, rfl⟩
  · rw [same]
    exact ⟨m, .pure () m, plainWrite_of_repeated current whole free opened memo, current, .refl _,
      rfl⟩
  · have ends := Bus.ends_write_of_free whole free mask data
    have fresh : m.forgetful.plainWrite addr mask data =
        (m.write addr mask data).within forgetful := by
      rw [plainWrite_of_enabled (m := m.forgetful) opened, same]
      exact unseen_forgetful.access (m := m.wrote addr mask data) fun _ _ => rfl
    have layout := m.bus.sameLayout_stored addr mask data
    rw [fresh]
    rcases came : m.bus.taken addr mask with f | ⟨⟩
    · rw [came] at ends
      have refused : (m.write addr mask data).Ends ()
          (((m.wrote addr mask data).withBus (m.bus.stored addr mask data)).raised f) := by
        rw [same]
        exact ends_access_of_refused ends
      exact ⟨_, refused, refused.within forgetful,
        isCurrent_wrote current addr mask data rfl rfl rfl (.inr (isSome_fault_raised _ f)),
        layout, rfl⟩
    · rw [came] at ends
      have written : (m.write addr mask data).Ends ()
          ((m.wrote addr mask data).withBus (m.bus.stored addr mask data)) := by
        rw [same]
        exact ends_access ends
      exact ⟨_, written, written.within forgetful,
        isCurrent_wrote current addr mask data rfl rfl rfl (.inl came), layout, rfl⟩

/-- A plain monitor gives the same answer to a move and is left the same. -/
theorem make_plain {x : Move} {xs : List Move} (spared : m.bus.IsSpared m.shown.pc (x :: xs)) :
    ∃ w n, ((make x).run m).Ends w n ∧ ((makePlain x).run m.forgetful).Ends w n.forgetful ∧
      n.IsCurrent ∧ m.bus.SameLayout n.bus ∧ n.bus.IsSpared n.shown.pc xs := by
  cases x with
  | showPc pc =>
    exact ⟨0, m.showPc pc, .pure 0 _, .pure 0 _, current.of_same rfl rfl rfl id, .refl _, spared⟩
  | setEnable level =>
    exact ⟨0, m.setEnable level, .pure 0 _, .pure 0 _, current.of_same rfl rfl rfl id, .refl _,
      spared⟩
  | transfer t =>
    obtain ⟨free, rest⟩ := spared
    cases t with
    | fetch =>
      obtain ⟨w, n, fetched, current', bus, shown⟩ := fetch_keeps current whole free
      have plain : m.forgetful.fetch.Ends w n.forgetful := by
        rw [fetch_forgetful]
        exact fetched.within forgetful
      exact ⟨w, n, fetched, plain, current', bus ▸ .refl _, by rwa [bus, shown]⟩
    | read addr =>
      obtain ⟨w, n, read, plain, current', bus, shown⟩ := read_plain current whole free
      exact ⟨w, n, read, plain, current', bus ▸ .refl _, by rwa [bus, shown]⟩
    | write w =>
      obtain ⟨n, written, plain, current', layout, shown⟩ :=
        write_plain current whole free w.2.1 w.2.2
      exact ⟨0, n, written.map _, plain.map _, current', layout,
        by rw [shown]; exact rest.of_sameLayout layout⟩

end Move

/-! ## A whole step -/

section InRow

variable [Peripheral δ] {m : Monitor δ}

omit [Peripheral δ] in
/-- Moves in a row end as the first one does and the others from there. -/
theorem ends_inRow {f : Move → Action (Monitor δ) Word} {x : Move} {xs : List Move} {w : Word}
    {ws : List Word} {n k : Monitor δ} (first : ((f x).run m).Ends w n)
    (rest : ((inRow f xs).run n).Ends ws k) : ((inRow f (x :: xs)).run m).Ends (w :: ws) k :=
  first.bind (rest.bind (.pure _ _))

/-- A plain monitor gives the same answers to moves in a row and is left the same. -/
theorem inRow_plain (current : m.IsCurrent) (whole : m.bus.memory.size % 4 = 0) {xs : List Move}
    (spared : m.bus.IsSpared m.shown.pc xs) :
    ∃ ws n, ((inRow make xs).run m).Ends ws n ∧
      ((inRow makePlain xs).run m.forgetful).Ends ws n.forgetful ∧
      n.IsCurrent ∧ m.bus.SameLayout n.bus := by
  induction xs generalizing m with
  | nil => exact ⟨[], m, .pure [] m, .pure [] _, current, .refl _⟩
  | cons x xs ih =>
    obtain ⟨w, n, made, plain, current', layout, spared'⟩ := make_plain current whole spared
    have whole' : n.bus.memory.size % 4 = 0 := by rw [layout.size]; exact whole
    obtain ⟨ws, k, later, plainLater, current'', layout'⟩ := ih current' whole' spared'
    exact ⟨w :: ws, k, ends_inRow made later, ends_inRow plain plainLater, current'',
      layout.trans layout'⟩

/-- On its way through moves in a row a monitor remembers only what is current. -/
theorem reaches_inRow (current : m.IsCurrent) (whole : m.bus.memory.size % 4 = 0) {x : Move}
    {before after : List Move} (spared : m.bus.IsSpared m.shown.pc (before ++ x :: after)) :
    ∃ ws n, ((inRow make before).run m).Ends ws n ∧ n.IsCurrent ∧
      n.bus.memory.size % 4 = 0 ∧ n.bus.IsSpared n.shown.pc (x :: after) := by
  induction before generalizing m with
  | nil => exact ⟨[], m, .pure [] m, current, whole, spared⟩
  | cons y before ih =>
    obtain ⟨w, n, made, _, current', layout, spared'⟩ := make_plain current whole spared
    have whole' : n.bus.memory.size % 4 = 0 := by rw [layout.size]; exact whole
    obtain ⟨ws, k, later, rest⟩ := ih current' whole' spared'
    exact ⟨w :: ws, k, ends_inRow made later, rest⟩

/-- Within a step in which no transfer goes to a device, a monitor gives the answers that a plain
one gives and leaves the same guest memory and the same latched fault.  At each move on the way it
does what a plain monitor would do there: a read is as recent as guest memory, and a write that is
dropped would have changed nothing. -/
theorem memos_transparent (m : Monitor δ) (whole : m.bus.memory.size % 4 = 0) (xs : List Move)
    (spared : m.bus.IsSpared m.shown.pc xs) :
    (∃ ws n k, ((inRow make xs).run m.beginStep).Ends ws n ∧
      ((inRow makePlain xs).run m.beginStep).Ends ws k ∧
      n.bus.memory = k.bus.memory ∧ n.fault = k.fault) ∧
    ∀ before x after, xs = before ++ x :: after →
      ∃ ws n, ((inRow make before).run m.beginStep).Ends ws n ∧
        ((make x).run n).result = ((makePlain x).run n).result ∧
        ((make x).run n).state.bus.memory = ((makePlain x).run n).state.bus.memory ∧
        ((make x).run n).state.fault = ((makePlain x).run n).state.fault := by
  have current := m.isCurrent_beginStep
  constructor
  · obtain ⟨ws, n, made, plain, _, _⟩ := inRow_plain current whole spared
    exact ⟨ws, n, n.forgetful, made, plain, rfl, rfl⟩
  · rintro before x after rfl
    obtain ⟨ws, n, made, current', whole', spared'⟩ := reaches_inRow current whole spared
    obtain ⟨w, k, ends, plain, _⟩ := make_plain current' whole' spared'
    rw [makePlain_forgetful] at plain
    have result : ((makePlain x).run n).result = .ok w := plain.result
    have state : ((makePlain x).run n).state.forgetful = k.forgetful := plain.state
    have memory : ((makePlain x).run n).state.forgetful.bus.memory = k.forgetful.bus.memory := by
      rw [state]
    have fault : ((makePlain x).run n).state.forgetful.fault = k.forgetful.fault := by
      rw [state]
    refine ⟨ws, n, made, ends.result.trans result.symm, ?_, ?_⟩
    · rw [ends.state]
      exact memory.symm
    · rw [ends.state]
      exact fault.symm

/-- Words are written and read across one another, a write comes again behind another one, and a
write past the end of guest memory comes twice. -/
theorem memos_transparent_overlapping :
    let m := Scripted.monitor []
    let xs : List Move :=
      [ .setEnable true, .showPc 0x80000000, .transfer .fetch,
        .transfer (.write (0x80000002, 6, 0xaabbccdd)), .transfer (.read 0x80000001),
        .transfer (.write (0x80000003, 1, 0x11223344)), .transfer (.read 0x80000001),
        .transfer (.write (0x80000003, 1, 0x11223344)), .transfer (.read 0x80000004),
        .transfer (.write (0x80000002, 6, 0xaabbccdd)), .transfer (.read 0x80000003),
        .transfer (.write (0x80000014, 15, 1)), .transfer (.write (0x80000014, 15, 1)),
        .setEnable false, .transfer (.write (0x80000000, 15, 1)), .transfer (.read 0x80000003) ]
    (m.bus.memory.size % 4 = 0 ∧ m.bus.IsSpared m.shown.pc xs) ∧
      ∃ ws n k, ((inRow make xs).run m.beginStep).Ends ws n ∧
        ((inRow makePlain xs).run m.beginStep).Ends ws k ∧
        n.bus.memory = k.bus.memory ∧ n.fault = k.fault := by
  intro m xs
  have whole : m.bus.memory.size % 4 = 0 := by decide +kernel
  have spared : m.bus.IsSpared m.shown.pc xs :=
    ⟨rfl, rfl, rfl, rfl, rfl, rfl, rfl, rfl, rfl, rfl, rfl, rfl, rfl, trivial⟩
  exact ⟨⟨whole, spared⟩, (memos_transparent m whole xs spared).1⟩

end InRow

end Monitor

end Lockstep

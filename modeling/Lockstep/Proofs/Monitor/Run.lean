/-
Lockstep.Proofs.Monitor.Run — what a program of callbacks comes to.

A program that is made of parts ends as its last part ends (`Program.ends_bind`), and each
callback that shows something ends with the monitor changed in that alone.  Fetches, reads and
writes that the monitor does not remember end as the bus answers them: with its word, or with a
latched fault (`Monitor.ends_fetch`, `Monitor.ends_read`, `Monitor.ends_write`).
-/
import Lockstep.Dut
import Lockstep.Proofs.Monitor.Traffic

namespace Lockstep

open Outcome

variable {δ α β : Type} [Peripheral δ]

namespace Program

variable {x : Program α} {f : α → Program β} {a : α} {b : β} {m n : Monitor δ}

theorem ends_pure (a : α) (m : Monitor δ) : ((pure a : Program α).run m).Ends a m := .pure a m

/-- A program that goes on after another one ends as it ends from there. -/
theorem ends_bind {k : Monitor δ} (h : (x.run m).Ends a n) (hf : ((f a).run n).Ends b k) :
    ((x >>= f).run m).Ends b k := by
  induction x generalizing m with
  | done a' =>
    obtain ⟨result, state⟩ := h
    cases result
    cases state
    exact hf
  | call c next ih =>
    obtain ⟨w, n', answered, rest⟩ := h.of_bind
    exact answered.next ((ih w ⟨rest.result, rest.state⟩).after _)
  | look next ih => exact ih m.shown h
  | bus r next ih =>
    obtain ⟨reply, n', answered, rest⟩ := h.of_bind
    exact answered.next ((ih reply ⟨rest.result, rest.state⟩).after _)

theorem ends_tell {c : Callback} {w : Word} (h : (m.respond c).Ends w n) :
    ((tell c).run m).Ends () n := h.next ((Outcome.Ends.pure () n).after _)

theorem ends_callback {c : Callback} {w : Word} (h : (m.respond c).Ends w n) :
    ((callback c).run m).Ends w n := h.next ((Outcome.Ends.pure w n).after _)

theorem ends_tellAll_nil (m : Monitor δ) : ((tellAll []).run m).Ends () m := .pure () m

theorem ends_tellAll_cons {c : Callback} {cs : List Callback} {w : Word} {k : Monitor δ}
    (h : (m.respond c).Ends w n) (hf : ((tellAll cs).run n).Ends () k) :
    ((tellAll (c :: cs)).run m).Ends () k := h.next (hf.after _)

end Program

namespace Monitor

variable {m : Monitor δ}

/-! ## Accesses that are not remembered -/

/-- The monitor with a fault latched. -/
def latched (m : Monitor δ) (f : BusFault) : Monitor δ :=
  { m with fault := some (m.outOfBound f.addr) }

section Access

omit [Peripheral δ]

variable {o : Outcome (Bus δ) (Except BusFault α)} {fallback : α}
  {remember : α → Monitor δ → Monitor δ} {b : Bus δ}

theorem ends_access {a : α} (h : o.Ends (.ok a) b) :
    (m.access o fallback remember).Ends a (remember a (m.withBus b)) :=
  (h.within m.withBus).next (.pure _ _)

/-- A fault is latched if none is pending. -/
theorem ends_access_of_fault {f : BusFault} (h : o.Ends (.error f) b) (clear : m.fault = none) :
    (m.access o fallback remember).Ends fallback ((m.withBus b).latched f) := by
  have raised : ((m.withBus b).raise ((m.withBus b).outOfBound f.addr)).Ends ()
      ((m.withBus b).latched f) := by
    have pending : (m.withBus b).fault = none := clear
    unfold raise
    rw [pending]
    exact .logged _ _ _
  exact (h.within m.withBus).next (raised.map _)

end Access

section Fetch

variable (forgot : m.fetchMemo = none)

include forgot

theorem fetch_of_forgot :
    m.fetch = m.access (m.bus.read m.shown.pc) 0 fun inst n =>
      { n with fetchMemo := some (m.shown.pc, inst) } := by
  rcases m.fetch_cases with ⟨_, known, _⟩ | ⟨_, same⟩
  · rw [forgot] at known
    cases known
  · exact same

theorem ends_fetch {w : Word} {b : Bus δ} (h : (m.bus.read m.shown.pc).Ends (.ok w) b) :
    m.fetch.Ends w { m with bus := b, fetchMemo := some (m.shown.pc, w) } := by
  rw [fetch_of_forgot forgot]
  exact ends_access h

theorem ends_fetch_of_fault {f : BusFault} {b : Bus δ}
    (h : (m.bus.read m.shown.pc).Ends (.error f) b) (clear : m.fault = none) :
    m.fetch.Ends 0 ((m.withBus b).latched f) := by
  rw [fetch_of_forgot forgot]
  exact ends_access_of_fault h clear

end Fetch

section Read

variable (opened : m.enabled = true) (forgot : m.readMemo = none) {addr : Addr}

include opened forgot

theorem read_of_forgot :
    m.read addr = m.access (m.bus.read addr) 0 fun data n =>
      { n with readMemo := some (addr, data) } := by
  rcases m.read_cases addr with ⟨_, known, _⟩ | ⟨_, ignored, _⟩ | ⟨_, _, same⟩
  · rw [forgot] at known
    cases known
  · rw [opened] at ignored
    cases ignored
  · exact same

theorem ends_read {w : Word} {b : Bus δ} (h : (m.bus.read addr).Ends (.ok w) b) :
    (m.read addr).Ends w { m with bus := b, readMemo := some (addr, w) } := by
  rw [read_of_forgot opened forgot]
  exact ends_access h

theorem ends_read_of_fault {f : BusFault} {b : Bus δ} (h : (m.bus.read addr).Ends (.error f) b)
    (clear : m.fault = none) :
    (m.read addr).Ends 0 ((m.withBus b).latched f) := by
  rw [read_of_forgot opened forgot]
  exact ends_access_of_fault h clear

end Read

section Write

variable (opened : m.enabled = true) (forgot : m.writeMemo = none) {addr : Addr} {mask : UInt8}
  {data : Word}

/-- The monitor behind a write that it did not remember, but for the bus. -/
def wrote (m : Monitor δ) (addr : Addr) (mask : UInt8) (data : Word) : Monitor δ :=
  { m with writeMemo := some (addr, mask, data), readMemo := m.readMemoAfterWrite addr }

include opened forgot

theorem write_of_forgot :
    m.write addr mask data =
      (m.wrote addr mask data).access (m.bus.write addr mask data) () fun _ n => n := by
  rcases m.write_cases addr mask data with ⟨closed, _⟩ | ⟨_, known, _⟩ | ⟨_, _, same⟩
  · rw [opened] at closed
    cases closed
  · rw [forgot] at known
    cases known
  · exact same

theorem ends_write {b : Bus δ} (h : (m.bus.write addr mask data).Ends (.ok ()) b) :
    (m.write addr mask data).Ends () ((m.wrote addr mask data).withBus b) := by
  rw [write_of_forgot opened forgot]
  exact ends_access h

theorem ends_write_of_fault {f : BusFault} {b : Bus δ}
    (h : (m.bus.write addr mask data).Ends (.error f) b) (clear : m.fault = none) :
    (m.write addr mask data).Ends ()
      (((m.wrote addr mask data).withBus b).latched f) := by
  rw [write_of_forgot opened forgot]
  exact ends_access_of_fault h clear

end Write

end Monitor

end Lockstep

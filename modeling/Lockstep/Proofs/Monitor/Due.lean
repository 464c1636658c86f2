/-
Lockstep.Proofs.Monitor.Due — which reports of faults are due to what a monitor is given.

A history is any row of what a monitor is given: callbacks, requests to its bus, new steps, moves of
the enable window and takings of the fault (`MonitorInput`).  It tells what is shown, whether the
window is open and what was written last in the step (`Situation`), and so where each fetch, read or
write goes that is made.  One that reaches neither guest memory nor a device is to be reported
(`Bus.report?`), and the report to be kept is the first one since a fault was taken
(`Bus.FirstReport`).

A write that was made already in the step is not made again, even if it went nowhere.  Its fault has
been reported by then, or another one was pending before it; so what goes unreported is at most a
fault that was taken within the step (`Bus.firstReport_or_taken`).
-/
import Lockstep.Monitor.Callback
import Lockstep.Proofs.Bus.Whole
import Lockstep.Proofs.Rows
import Mathlib.Data.List.Induction

namespace Lockstep

variable {δ : Type}

/-! ## Histories -/

/-- What a monitor is given. -/
inductive MonitorInput where
  | callback (c : Callback)
  /-- A request is put to its bus. -/
  | request (r : Bus.Request)
  | beginStep
  /-- The enable window is opened or closed. -/
  | setEnable (level : Bool)
  | takeFault
deriving DecidableEq

/-- What decides which accesses are made, and where a fetch goes. -/
structure Situation where
  /-- The program counter shown. -/
  pc : Addr
  opened : Bool
  /-- The last write of the step, of those behind the open window. -/
  written : Option (Addr × UInt8 × Word)
deriving DecidableEq

namespace Situation

def initial : Situation := ⟨0, false, none⟩

/-- The situation after one more input. -/
def after (s : Situation) : MonitorInput → Situation
  | .callback (.showPc pc) => { s with pc := pc }
  | .callback (.write addr mask data) =>
    if s.opened then { s with written := some (addr, mask, data) } else s
  | .beginStep => { s with written := none }
  | .setEnable level => { s with opened := level }
  | _ => s

theorem after_write (s : Situation) (addr : Addr) (mask : UInt8) (data : Word) :
    s.after (.callback (.write addr mask data)) =
      if s.opened then { s with written := some (addr, mask, data) } else s := rfl

def of (history : List MonitorInput) : Situation := history.foldl after initial

theorem of_concat (history : List MonitorInput) (x : MonitorInput) :
    of (history ++ [x]) = (of history).after x := by
  rw [of, List.foldl_append]
  rfl

/-- The address that a fetch, a read or a write goes to.  A write is made behind the open window if
it selects a byte, unless it is the last one of the step once more. -/
def target? (s : Situation) : MonitorInput → Option Addr
  | .callback .fetch => some s.pc
  | .callback (.read addr) => some addr
  | .callback (.write addr mask data) =>
    if s.opened = true ∧ mask &&& 15 ≠ 0 ∧ s.written ≠ some (addr, mask, data) then some addr
    else none
  | _ => none

theorem target?_write_of_closed {s : Situation} (closed : s.opened = false) (addr : Addr)
    (mask : UInt8) (data : Word) : s.target? (.callback (.write addr mask data)) = none :=
  if_neg fun made => Bool.false_ne_true (closed.symm.trans made.1)

theorem target?_write_of_written {s : Situation} {addr : Addr} {mask : UInt8} {data : Word}
    (written : s.written = some (addr, mask, data)) :
    s.target? (.callback (.write addr mask data)) = none :=
  if_neg fun made => made.2.2 written

/-- A write is noted when it is made behind the open window. -/
theorem write_of_written {s : Situation} {x : MonitorInput} {w : Addr × UInt8 × Word}
    (before : s.written ≠ some w) (written : (s.after x).written = some w) :
    s.opened = true ∧ x = .callback (.write w.1 w.2.1 w.2.2) := by
  cases x with
  | callback c =>
    cases c with
    | write addr mask data =>
      rw [after_write] at written
      split at written
      · next opened =>
        cases written
        exact ⟨opened, rfl⟩
      · exact absurd written before
    | _ => exact absurd written before
  | beginStep => cases written
  | _ => exact absurd written before

end Situation

/-- A fault was taken within the current step. -/
def TakenInStep (history : List MonitorInput) : Prop :=
  ∃ before later, history = before ++ .takeFault :: later ∧ .beginStep ∉ later

namespace Bus

variable {b : Bus δ} {history : List MonitorInput} {x : MonitorInput} {o : OutOfBound}

/-- The report that is due to an input: its access reaches neither guest memory nor a device. -/
def report? (b : Bus δ) (s : Situation) (x : MonitorInput) : Option OutOfBound :=
  ((s.target? x).filter fun addr => !b.answers addr).map fun addr =>
    ⟨addr, Platform.memoryBase, Platform.lastAddr b.memorySize, s.pc⟩

theorem report?_of_none {s : Situation} (idle : s.target? x = none) : b.report? s x = none := by
  rw [report?, idle]
  rfl

theorem report?_of_answers {s : Situation} {addr : Addr} (target : s.target? x = some addr)
    (there : b.answers addr = true) : b.report? s x = none := by
  simp [report?, target, there]

theorem report?_of_nowhere {s : Situation} {addr : Addr} (target : s.target? x = some addr)
    (nowhere : b.answers addr = false) :
    b.report? s x =
      some ⟨addr, Platform.memoryBase, Platform.lastAddr b.memorySize, s.pc⟩ := by
  simp [report?, target, nowhere]

theorem report?_eq_some_iff {s : Situation} :
    b.report? s x = some o ↔ ∃ addr, s.target? x = some addr ∧ b.answers addr = false ∧
      o = ⟨addr, Platform.memoryBase, Platform.lastAddr b.memorySize, s.pc⟩ := by
  constructor
  · intro due
    obtain ⟨addr, found, rfl⟩ := Option.map_eq_some_iff.mp due
    obtain ⟨target, nowhere⟩ := Option.filter_eq_some_iff.mp found
    exact ⟨addr, target, by simpa using nowhere, rfl⟩
  · rintro ⟨addr, target, nowhere, rfl⟩
    exact report?_of_nowhere target nowhere

/-- The address that is reported lies outside the range that is reported, for guest memory of whole
words. -/
theorem outside_of_report {s : Situation} (fits : b.memory.size ≤ 0x80000000)
    (whole : b.memory.size % 4 = 0) (due : b.report? s x = some o) :
    o.left = Platform.memoryBase ∧ o.right = Platform.lastAddr b.memorySize ∧
      b.answers o.addr = false ∧ ¬(o.left ≤ o.addr ∧ o.addr ≤ o.right) := by
  obtain ⟨addr, _, nowhere, rfl⟩ := report?_eq_some_iff.mp due
  refine ⟨rfl, rfl, nowhere, fun within => ?_⟩
  have inside := (inMemory_iff_range fits addr).mpr within
  rw [answers, inMemory_align whole, inside, Bool.or_true] at nowhere
  cases nowhere

/-- No report is due to a write that selects no byte, or that goes where something answers. -/
theorem report?_of_taken {addr : Addr} {mask : UInt8}
    (taken : ((strobedLanes mask).isEmpty || b.answers addr) = true) (s : Situation)
    (data : Word) : b.report? s (.callback (.write addr mask data)) = none := by
  rcases Bool.or_eq_true_iff.mp taken with empty | there
  · refine report?_of_none (if_neg fun made => made.2.1 ?_)
    exact isEmpty_strobedLanes_iff_and.mp empty
  · by_cases made : s.opened = true ∧ mask &&& 15 ≠ 0 ∧ s.written ≠ some (addr, mask, data)
    · exact report?_of_answers (if_pos made) there
    · exact report?_of_none (if_neg made)

/-- No report is due since a fault was taken. -/
def Clear (b : Bus δ) (history : List MonitorInput) : Prop :=
  ∀ before x later, history = before ++ x :: later → .takeFault ∉ later →
    b.report? (.of before) x = none

/-- The first report that is due since a fault was taken. -/
def FirstReport (b : Bus δ) (history : List MonitorInput) (o : OutOfBound) : Prop :=
  ∃ before x later, history = before ++ x :: later ∧ .takeFault ∉ later ∧ b.Clear before ∧
    b.report? (.of before) x = some o

theorem clear_nil (b : Bus δ) : b.Clear [] := by
  intro before x later split
  simp at split

theorem not_firstReport_nil (b : Bus δ) (o : OutOfBound) : ¬b.FirstReport [] o := by
  rintro ⟨before, x, later, split, -⟩
  simp at split

theorem clear_concat :
    b.Clear (history ++ [x]) ↔
      x = .takeFault ∨ b.Clear history ∧ b.report? (.of history) x = none := by
  constructor
  · intro clear
    by_cases taken : x = .takeFault
    · exact .inl taken
    · refine .inr ⟨fun before y later split untaken => ?_, clear history x [] rfl (by simp)⟩
      refine clear before y (later ++ [x]) (by rw [split, List.append_assoc, List.cons_append]) ?_
      simpa [untaken] using Ne.symm taken
  · rintro clear before y later split untaken
    rcases concat_eq_append_cons_iff.mp split with ⟨rfl, rfl, -⟩ | ⟨rest, rfl, rfl⟩
    · rcases clear with rfl | ⟨-, silent⟩
      · rfl
      · exact silent
    · rw [List.mem_append, not_or] at untaken
      rcases clear with rfl | ⟨clear, -⟩
      · exact absurd List.mem_cons_self untaken.2
      · exact clear before y rest rfl untaken.1

/-- One more input has its report kept if none is pending, and takes the pending one if it takes the
fault. -/
theorem firstReport_concat :
    b.FirstReport (history ++ [x]) o ↔
      x ≠ .takeFault ∧ (b.FirstReport history o ∨
        b.Clear history ∧ b.report? (.of history) x = some o) := by
  constructor
  · rintro ⟨before, y, later, split, untaken, clear, due⟩
    rcases concat_eq_append_cons_iff.mp split with ⟨rfl, rfl, -⟩ | ⟨rest, rfl, rfl⟩
    · refine ⟨?_, .inr ⟨clear, due⟩⟩
      rintro rfl
      cases due
    · rw [List.mem_append, not_or] at untaken
      refine ⟨?_, .inl ⟨before, y, rest, rfl, untaken.1, clear, due⟩⟩
      rintro rfl
      exact untaken.2 List.mem_cons_self
  · rintro ⟨untaken, ⟨before, y, later, rfl, untaken', clear, due⟩ | ⟨clear, due⟩⟩
    · refine ⟨before, y, later ++ [x], by rw [List.append_assoc, List.cons_append], ?_, clear, due⟩
      simpa [untaken'] using Ne.symm untaken
    · exact ⟨history, x, [], rfl, by simp, clear, due⟩

theorem clear_or_firstReport (b : Bus δ) (history : List MonitorInput) :
    b.Clear history ∨ ∃ o, b.FirstReport history o := by
  induction history using List.reverseRecOn with
  | nil => exact .inl b.clear_nil
  | append_singleton history x ih =>
    by_cases taken : x = .takeFault
    · exact .inl (clear_concat.mpr (.inl taken))
    · rcases ih with clear | ⟨o, first⟩
      · rcases due : b.report? (.of history) x with _ | o
        · exact .inl (clear_concat.mpr (.inr ⟨clear, due⟩))
        · exact .inr ⟨o, firstReport_concat.mpr ⟨taken, .inr ⟨clear, due⟩⟩⟩
      · exact .inr ⟨o, firstReport_concat.mpr ⟨taken, .inl first⟩⟩

/-- A report goes on to be the first one until the fault is taken. -/
theorem FirstReport.append {later : List MonitorInput} (first : b.FirstReport history o)
    (untaken : .takeFault ∉ later) : b.FirstReport (history ++ later) o := by
  obtain ⟨before, x, rest, rfl, untaken', clear, due⟩ := first
  refine ⟨before, x, rest ++ later, by rw [List.append_assoc, List.cons_append], ?_, clear, due⟩
  simp [untaken, untaken']

/-- A write that was noted and goes nowhere was reported, or a fault has been taken since. -/
theorem firstReport_or_taken {addr : Addr} {mask : UInt8} {data : Word}
    (selects : mask &&& 15 ≠ 0) (nowhere : b.answers addr = false)
    (written : (Situation.of history).written = some (addr, mask, data)) :
    (∃ o, b.FirstReport history o) ∨ TakenInStep history := by
  induction history using List.reverseRecOn with
  | nil => cases written
  | append_singleton history x ih =>
    rw [Situation.of_concat] at written
    by_cases taken : x = .takeFault
    · exact .inr ⟨history, [], by rw [taken], nofun⟩
    by_cases same : (Situation.of history).written = some (addr, mask, data)
    · rcases ih same with ⟨o, first⟩ | ⟨before, later, rfl, within⟩
      · exact .inl ⟨o, firstReport_concat.mpr ⟨taken, .inl first⟩⟩
      · refine .inr ⟨before, later ++ [x], by rw [List.append_assoc, List.cons_append], ?_⟩
        have begun : x ≠ .beginStep := by
          rintro rfl
          cases written
        simpa [within] using begun.symm
    · obtain ⟨opened, rfl⟩ := Situation.write_of_written same written
      have target : (Situation.of history).target? (.callback (.write addr mask data)) =
          some addr := if_pos ⟨opened, selects, same⟩
      have due := report?_of_nowhere target nowhere
      rcases b.clear_or_firstReport history with clear | ⟨o, first⟩
      · exact .inl ⟨_, firstReport_concat.mpr ⟨taken, .inr ⟨clear, due⟩⟩⟩
      · exact .inl ⟨o, firstReport_concat.mpr ⟨taken, .inl first⟩⟩

end Bus

end Lockstep

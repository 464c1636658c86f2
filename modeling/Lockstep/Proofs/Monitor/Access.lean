/-
Lockstep.Proofs.Monitor.Access — which callbacks go through to the bus.

A fetch, a read or a write goes through as one access of the bus, unless the monitor remembers it
from earlier in the step or the enable window forbids it; no other callback does
(`Monitor.access?`).  The bus is changed by that access alone, and nothing else is dispatched to a
device (`through_respond`).  So a list of callbacks asks for a skip exactly if one of them reaches a
device (`skip_tellAll`), and touches the devices only then (`mappings_tellAll`).
-/
import Lockstep.Dut
import Lockstep.Proofs.Bus.Dispatch
import Lockstep.Proofs.Monitor.Traffic

namespace Lockstep

open Outcome

variable {δ : Type}

namespace Monitor

/-! ## The access of a callback -/

/-- The access to the bus by which a callback is answered, if it goes through. -/
def access? (m : Monitor δ) : Callback → Option Bus.Access
  | .fetch => if m.fetchMemo.map (·.1) = some m.shown.pc then none else some (.read m.shown.pc)
  | .read addr =>
    if m.readMemo.map (·.1) = some addr then none
    else if !m.enabled && m.bus.isIntercepted addr then none
    else some (.read addr)
  | .write addr mask data =>
    if !m.enabled then none
    else if m.writeMemo = some (addr, mask, data) then none
    else some (.write addr mask data)
  | _ => none

/-- The callback reaches a device. -/
def reachesDevice (m : Monitor δ) (c : Callback) : Bool := (m.access? c).any m.bus.reaches

/-! ## What goes through changes the bus -/

section Respond

variable [Peripheral δ]

/-- The bus after the access of a callback, if there is one. -/
def busAfter (m : Monitor δ) (c : Callback) : Bus δ :=
  (m.access? c).elim m.bus fun x => (m.bus.make x).state

/-- The bus of a monitor, and whether its enable window is open. -/
def window (m : Monitor δ) : Bus δ × Bool := (m.bus, m.enabled)

omit [Peripheral δ] in
theorem window_access {α : Type} {m : Monitor δ} {o : Outcome (Bus δ) (Except BusFault α)}
    {fallback : α} {remember : α → Monitor δ → Monitor δ}
    (hr : ∀ a m, (remember a m).window = m.window) :
    (m.access o fallback remember).state.window = (o.state, m.enabled) :=
  look_access window (fun _ _ => rfl) hr

omit [Peripheral δ] in
/-- What happens to the skip in an access of a monitor happens on its bus. -/
theorem skips_access {m : Monitor δ} {o : Outcome (Bus δ) (Except BusFault α)} {fallback : α}
    {remember : α → Monitor δ → Monitor δ} : (m.access o fallback remember).skips = o.skips := by
  have same : (o.within m.withBus).collect Event.skip? = o.skips := rfl
  rw [access, Outcome.skips]
  rcases result : (o.within m.withBus).result with c | r
  · rw [collect_bind_of_error _ result, same]
  · rw [collect_bind_of_ok _ result, same]
    cases r with
    | ok a => exact List.append_nil _
    | error f =>
      -- What is latched then is told to the log, but no device hears of it.
      have untold : ∀ n : Monitor δ, (n.raise (n.outOfBound f.addr)).collect Event.skip? = [] := by
        intro n
        rw [raise]
        cases n.fault <;> rfl
      exact (congrArg (o.skips ++ ·) (untold _)).trans (List.append_nil _)

/-- An outcome of a monitor comes from an access of its bus, or from none: the access makes the bus
what it is afterwards and does all that happens to the skip, and the enable window stays as it is. -/
structure Through {α : Type} (m : Monitor δ) (x : Option Bus.Access)
    (o : Outcome (Monitor δ) α) : Prop where
  window : o.state.window = (x.elim m.bus fun x => (m.bus.make x).state, m.enabled)
  skips : o.skips = x.elim [] fun x => (m.bus.make x).skips

theorem Through.access {α : Type} {m n : Monitor δ} {x : Bus.Access}
    {o : Outcome (Bus δ) (Except BusFault α)} {fallback : α}
    {remember : α → Monitor δ → Monitor δ} (enabled : n.enabled = m.enabled)
    (state : o.state = (m.bus.make x).state) (skips : o.skips = (m.bus.make x).skips)
    (hr : ∀ a m, (remember a m).window = m.window) :
    Through m (some x) (n.access o fallback remember) where
  window := by rw [window_access hr, enabled, state]; rfl
  skips := by rw [skips_access, skips]; rfl

/-- A callback does to the bus what its access does, if it goes through. -/
theorem through_respond (m : Monitor δ) (c : Callback) :
    Through m (m.access? c) (m.respond c) := by
  cases c with
  | fetch =>
    rcases m.fetch_cases with ⟨inst, known, same⟩ | ⟨missed, same⟩
    · have none : m.access? .fetch = none := if_pos (by rw [known]; rfl)
      rw [respond, same, none]
      exact ⟨rfl, rfl⟩
    · have through : m.access? .fetch = some (.read m.shown.pc) := if_neg missed
      rw [respond, same, through]
      exact .access rfl rfl rfl fun _ _ => rfl
  | read addr =>
    rcases m.read_cases addr with ⟨data, known, same⟩ | ⟨missed, ignored, same⟩ |
      ⟨missed, open', same⟩
    · have none : m.access? (.read addr) = none := if_pos (by rw [known]; rfl)
      rw [respond, same, none]
      exact ⟨rfl, rfl⟩
    · have none : m.access? (.read addr) = none := by rw [access?, if_neg missed, if_pos ignored]
      rw [respond, same, none]
      exact ⟨rfl, rfl⟩
    · have through : m.access? (.read addr) = some (.read addr) := by
        rw [access?, if_neg missed, open']
        rfl
      rw [respond, same, through]
      exact .access rfl rfl rfl fun _ _ => rfl
  | write addr mask data =>
    rcases m.write_cases addr mask data with ⟨closed, same⟩ | ⟨opened, known, same⟩ |
      ⟨opened, missed, same⟩
    · have none : m.access? (.write addr mask data) = none := by rw [access?, closed]; rfl
      rw [respond, same, none]
      exact ⟨rfl, rfl⟩
    · have none : m.access? (.write addr mask data) = none := by
        rw [access?, opened, if_pos known]
        rfl
      rw [respond, same, none]
      exact ⟨rfl, rfl⟩
    · have through : m.access? (.write addr mask data) = some (.write addr mask data) := by
        rw [access?, opened, if_neg missed]
        rfl
      have made : Through m (some (.write addr mask data)) (m.write addr mask data) := by
        rw [same]
        exact .access rfl rfl rfl fun _ _ => rfl
      rw [respond, through]
      exact ⟨made.window, made.skips⟩
  | showCsr index value =>
    simp only [respond, showCsr]
    split <;> exact ⟨rfl, rfl⟩
  | ebreak =>
    simp only [respond, ebreak]
    split <;> exact ⟨rfl, rfl⟩
  | invalid =>
    simp only [respond, invalid]
    split <;> exact ⟨rfl, rfl⟩
  | jump rd site target base =>
    refine ⟨?_, (isQuiet_jump m rd site target base).skips_eq_nil⟩
    simp only [respond, jump]
    split
    · rfl
    · split <;> rfl
  | showPc | showInst | showRegisters | interrupt => exact ⟨rfl, rfl⟩

/-- A callback changes the bus by its access alone, and it does not open or close the window. -/
theorem window_respond (m : Monitor δ) (c : Callback) :
    (m.respond c).state.window = (m.busAfter c, m.enabled) := (m.through_respond c).window

/-- A callback is dispatched to a device exactly if it goes through to the bus and reaches one
there. -/
theorem skips_respond (m : Monitor δ) (c : Callback) :
    (m.respond c).skips = if m.reachesDevice c then [true] else [] := by
  rw [(m.through_respond c).skips, reachesDevice]
  cases m.access? c with
  | none => rfl
  | some x => exact Bus.skips_make m.bus x

theorem bus_respond (m : Monitor δ) (c : Callback) : (m.respond c).state.bus = m.busAfter c :=
  congrArg Prod.fst (m.window_respond c)

theorem enabled_respond (m : Monitor δ) (c : Callback) : (m.respond c).state.enabled = m.enabled :=
  congrArg Prod.snd (m.window_respond c)

theorem sameLayout_respond (m : Monitor δ) (c : Callback) :
    m.bus.SameLayout (m.respond c).state.bus := by
  rw [bus_respond, busAfter]
  cases m.access? c with
  | none => exact .refl _
  | some x => exact Bus.sameLayout_make _ _

/-- A callback asks for a skip exactly if it reaches a device. -/
theorem skip_respond (m : Monitor δ) (c : Callback) :
    (m.respond c).state.bus.skip = (m.bus.skip || m.reachesDevice c) := by
  rw [bus_respond, busAfter, reachesDevice]
  cases m.access? c with
  | none => exact (Bool.or_false _).symm
  | some x => exact Bus.skip_make _ _

/-- A callback that reaches no device leaves the devices alone. -/
theorem mappings_respond {m : Monitor δ} {c : Callback} (h : m.reachesDevice c = false) :
    (m.respond c).state.bus.mappings = m.bus.mappings := by
  rw [bus_respond, busAfter]
  rw [reachesDevice] at h
  cases access : m.access? c with
  | none => rfl
  | some x =>
    rw [access] at h
    exact Bus.mappings_make h

end Respond

end Monitor

/-! ## Callbacks in a row -/

namespace Program

variable [Peripheral δ]

/-- The first of several callbacks is followed by the others unless it crashes. -/
theorem state_tellAll_cons (c : Callback) (cs : List Callback) (m : Monitor δ) :
    ((tellAll (c :: cs)).run m).state =
      if (m.respond c).isOk then ((tellAll cs).run (m.respond c).state).state
      else (m.respond c).state := by
  rw [tellAll, run]
  rcases h : (m.respond c).result with e | w
  · rw [bind_of_error h, isOk_eq_false_iff.mpr ⟨e, h⟩]
    rfl
  · rw [bind_of_ok h, isOk_iff.mpr ⟨w, h⟩]
    rfl

theorem isOk_tellAll_cons (c : Callback) (cs : List Callback) (m : Monitor δ) :
    ((tellAll (c :: cs)).run m).isOk =
      ((m.respond c).isOk && ((tellAll cs).run (m.respond c).state).isOk) := by
  rw [tellAll, run]
  rcases h : (m.respond c).result with e | w
  · rw [bind_of_error h, isOk_eq_false_iff.mpr ⟨e, h⟩]
    rfl
  · rw [bind_of_ok h, isOk_iff.mpr ⟨w, h⟩]
    rfl

/-- What callbacks in two rows do is what the second row does behind the first, unless that
crashes. -/
theorem state_tellAll_append (cs ds : List Callback) (m : Monitor δ) :
    ((tellAll (cs ++ ds)).run m).state =
      if ((tellAll cs).run m).isOk then ((tellAll ds).run ((tellAll cs).run m).state).state
      else ((tellAll cs).run m).state := by
  induction cs generalizing m with
  | nil => rfl
  | cons c cs ih =>
    rw [List.cons_append, state_tellAll_cons, isOk_tellAll_cons, state_tellAll_cons, ih]
    cases (m.respond c).isOk <;> rfl

theorem isOk_tellAll_append (cs ds : List Callback) (m : Monitor δ) :
    ((tellAll (cs ++ ds)).run m).isOk =
      (((tellAll cs).run m).isOk && ((tellAll ds).run ((tellAll cs).run m).state).isOk) := by
  induction cs generalizing m with
  | nil => rfl
  | cons c cs ih =>
    rw [List.cons_append, isOk_tellAll_cons, isOk_tellAll_cons, state_tellAll_cons, ih]
    cases (m.respond c).isOk <;> rfl

/-- What every callback keeps, callbacks in a row keep. -/
theorem tellAll_keeps {P : Monitor δ → Prop} (step : ∀ m c, P m → P (m.respond c).state)
    (cs : List Callback) {m : Monitor δ} (h : P m) : P ((tellAll cs).run m).state := by
  induction cs generalizing m with
  | nil => exact h
  | cons c cs ih =>
    rw [state_tellAll_cons]
    split
    · exact ih (step m c h)
    · exact step m c h

/-- One of the callbacks in a row is made and reaches a device. -/
def ReachesDevice (m : Monitor δ) (cs : List Callback) : Prop :=
  ∃ before c after, cs = before ++ c :: after ∧ ((tellAll before).run m).isOk = true ∧
    ((tellAll before).run m).state.reachesDevice c = true

theorem not_reachesDevice_nil (m : Monitor δ) : ¬ReachesDevice m [] := by
  rintro ⟨before, c, after, split, _⟩
  simp at split

theorem reachesDevice_cons (m : Monitor δ) (c : Callback) (cs : List Callback) :
    ReachesDevice m (c :: cs) ↔
      m.reachesDevice c = true ∨
        (m.respond c).isOk = true ∧ ReachesDevice (m.respond c).state cs := by
  constructor
  · rintro ⟨before, d, after, split, ok, reached⟩
    rcases before with _ | ⟨first, before⟩
    · obtain ⟨rfl, -⟩ := List.cons.inj split
      exact .inl reached
    · obtain ⟨rfl, rest⟩ := List.cons.inj split
      rw [isOk_tellAll_cons, Bool.and_eq_true_iff] at ok
      rw [state_tellAll_cons, if_pos ok.1] at reached
      exact .inr ⟨ok.1, before, d, after, rest, ok.2, reached⟩
  · rintro (reached | ⟨ok, before, d, after, rfl, ok', reached⟩)
    · exact ⟨[], c, cs, rfl, rfl, reached⟩
    · refine ⟨c :: before, d, after, rfl, ?_, ?_⟩
      · rw [isOk_tellAll_cons, ok, ok']
        rfl
      · rwa [state_tellAll_cons, if_pos ok]

/-- Callbacks in a row ask for a skip exactly if one of them reaches a device. -/
theorem skip_tellAll (cs : List Callback) (m : Monitor δ) :
    ((tellAll cs).run m).state.bus.skip = true ↔ m.bus.skip = true ∨ ReachesDevice m cs := by
  induction cs generalizing m with
  | nil => exact (or_iff_left (not_reachesDevice_nil m)).symm
  | cons c cs ih =>
    rw [state_tellAll_cons, reachesDevice_cons]
    split
    · next ok => rw [ih, Monitor.skip_respond, Bool.or_eq_true_iff, or_assoc, and_iff_right ok]
    · next crashed =>
      rw [Monitor.skip_respond, Bool.or_eq_true_iff]
      simp only [crashed, Bool.false_eq_true, false_and, or_false]

/-- Callbacks in a row of which none reaches a device leave the devices alone. -/
theorem mappings_tellAll {cs : List Callback} {m : Monitor δ} (h : ¬ReachesDevice m cs) :
    ((tellAll cs).run m).state.bus.mappings = m.bus.mappings := by
  induction cs generalizing m with
  | nil => rfl
  | cons c cs ih =>
    rw [reachesDevice_cons, not_or, Bool.not_eq_true] at h
    have alone := Monitor.mappings_respond h.1
    rw [state_tellAll_cons]
    split
    · next ok => rw [ih fun later => h.2 ⟨ok, later⟩, alone]
    · exact alone

end Program

end Lockstep

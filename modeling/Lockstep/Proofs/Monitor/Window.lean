/-
Lockstep.Proofs.Monitor.Window — what a hardware model can do to the bus while the enable window is
closed.

Writes do nothing then, and reads go to guest memory only, which they leave as it is.  A fetch does
not look at the window: one at a program counter among the devices reaches the device, unless its
word is remembered.  So the bus is as before, whatever is called, as long as no such fetch is made
(`bus_of_closed`), and guest memory is as before in any case.
-/
import Lockstep.Proofs.Monitor.Access
import Lockstep.Scripted.Session

namespace Lockstep

variable {δ : Type}

namespace Monitor

/-- A fetch would go to a device. -/
def FetchesDevice (m : Monitor δ) : Prop :=
  m.bus.isIntercepted m.shown.pc = true ∧ m.fetchMemo.map (·.1) ≠ some m.shown.pc

/-- Behind a closed window, a callback that goes through to a device is a fetch. -/
theorem reachesDevice_of_closed {m : Monitor δ} (closed : m.enabled = false) (c : Callback) :
    m.reachesDevice c = true ↔ c = .fetch ∧ m.FetchesDevice := by
  cases c with
  | fetch =>
    simp only [reachesDevice, access?, FetchesDevice, true_and]
    by_cases known : m.fetchMemo.map (·.1) = some m.shown.pc
    · simp [known]
    · simp [known, Bus.reaches]
  | read addr =>
    simp only [reachesDevice, access?, closed, Bool.not_false, Bool.true_and, reduceCtorEq,
      false_and, iff_false, Bool.not_eq_true]
    split
    · rfl
    · split
      · rfl
      · next free => simpa [Bus.reaches] using free
  | write addr mask data => simp [reachesDevice, access?, closed]
  | _ => simp [reachesDevice, access?]

/-- Behind a closed window, what goes through is a read. -/
theorem access?_of_closed {m : Monitor δ} (closed : m.enabled = false) {c : Callback}
    {x : Bus.Access} (h : m.access? c = some x) : ∃ addr, x = .read addr := by
  cases c with
  | fetch =>
    simp only [access?, Option.ite_none_left_eq_some, Option.some.injEq] at h
    exact ⟨_, h.2.symm⟩
  | read addr =>
    simp only [access?, Option.ite_none_left_eq_some, Option.some.injEq] at h
    exact ⟨_, h.2.2.symm⟩
  | write addr mask data => simp [access?, closed] at h
  | _ => cases h

variable [Peripheral δ]

theorem memory_respond_of_closed {m : Monitor δ} (closed : m.enabled = false) (c : Callback) :
    (m.respond c).state.bus.memory = m.bus.memory := by
  rw [bus_respond, busAfter]
  rcases access : m.access? c with _ | x
  · rfl
  · obtain ⟨addr, rfl⟩ := access?_of_closed closed access
    exact Bus.memory_make_read _ _

/-- Behind a closed window, a callback that reaches no device leaves the whole bus alone. -/
theorem bus_respond_of_closed {m : Monitor δ} (closed : m.enabled = false) {c : Callback}
    (h : m.reachesDevice c = false) : (m.respond c).state.bus = m.bus := by
  rw [bus_respond, busAfter]
  rw [reachesDevice] at h
  rcases access : m.access? c with _ | x
  · rfl
  · obtain ⟨addr, rfl⟩ := access?_of_closed closed access
    rw [access] at h
    exact Bus.state_make_read h

end Monitor

namespace Program

variable [Peripheral δ]

theorem enabled_tellAll (cs : List Callback) (m : Monitor δ) :
    ((tellAll cs).run m).state.enabled = m.enabled :=
  tellAll_keeps (P := fun n => n.enabled = m.enabled)
    (fun n c h => (n.enabled_respond c).trans h) cs rfl

theorem memory_tellAll_of_closed {m : Monitor δ} (closed : m.enabled = false)
    (cs : List Callback) : ((tellAll cs).run m).state.bus.memory = m.bus.memory :=
  (tellAll_keeps (P := fun n => n.enabled = false ∧ n.bus.memory = m.bus.memory)
    (fun n c h => ⟨(n.enabled_respond c).trans h.1,
      (Monitor.memory_respond_of_closed h.1 c).trans h.2⟩) cs ⟨closed, rfl⟩).2

theorem bus_tellAll_of_closed {m : Monitor δ} (closed : m.enabled = false) {cs : List Callback}
    (h : ¬ReachesDevice m cs) : ((tellAll cs).run m).state.bus = m.bus := by
  induction cs generalizing m with
  | nil => rfl
  | cons c cs ih =>
    rw [reachesDevice_cons, not_or, Bool.not_eq_true] at h
    have alone := Monitor.bus_respond_of_closed closed h.1
    rw [state_tellAll_cons]
    split
    · next ok =>
      rw [ih ((m.enabled_respond c).trans closed) fun later => h.2 ⟨ok, later⟩, alone]
    · exact alone

/-- One of the callbacks in a row is a fetch that goes to a device. -/
def FetchesDevice (m : Monitor δ) (cs : List Callback) : Prop :=
  ∃ before after, cs = before ++ .fetch :: after ∧ ((tellAll before).run m).isOk = true ∧
    ((tellAll before).run m).state.FetchesDevice

/-- Behind a closed window, a device is reached exactly if a fetch goes to one. -/
theorem reachesDevice_of_closed {m : Monitor δ} (closed : m.enabled = false)
    (cs : List Callback) : ReachesDevice m cs ↔ FetchesDevice m cs := by
  have still : ∀ before c, ((tellAll before).run m).state.reachesDevice c = true ↔
      c = .fetch ∧ ((tellAll before).run m).state.FetchesDevice := fun before c =>
    Monitor.reachesDevice_of_closed ((enabled_tellAll before m).trans closed) c
  constructor
  · rintro ⟨before, c, after, rfl, ok, reached⟩
    obtain ⟨rfl, fetches⟩ := (still before c).mp reached
    exact ⟨before, after, rfl, ok, fetches⟩
  · rintro ⟨before, after, rfl, ok, fetches⟩
    exact ⟨before, .fetch, after, rfl, ok, (still before .fetch).mpr ⟨rfl, fetches⟩⟩

/-- While the enable window is closed, no callbacks change guest memory.  The devices and the
pending skip stay as they are, too, unless a fetch goes to a device; such a fetch asks for a
skip. -/
theorem closed_window_keeps_bus {m : Monitor δ} (closed : m.enabled = false)
    (cs : List Callback) :
    ∀ t, ((tellAll cs).run m).state = t →
      t.bus.memory = m.bus.memory ∧
      (¬FetchesDevice m cs → t.bus = m.bus) ∧
      (FetchesDevice m cs → t.bus.skip = true) := by
  rintro t rfl
  rw [← reachesDevice_of_closed closed]
  exact ⟨memory_tellAll_of_closed closed cs, bus_tellAll_of_closed closed,
    fun reached => (skip_tellAll cs m).mpr (.inr reached)⟩

/-- A model that reads and writes the serial line and writes guest memory behind a closed window,
and then fetches from guest memory. -/
theorem closed_window_keeps_bus_scripted :
    (Scripted.monitor [97]).enabled = false ∧
      ∀ t, ((tellAll [.read Platform.serialBase, .write Platform.serialBase 1 98,
          .write Platform.memoryBase 15 1, .showPc Platform.memoryBase, .fetch]).run
          (Scripted.monitor [97])).state = t →
        t.bus = (Scripted.monitor [97]).bus := by
  refine ⟨rfl, fun t h => ?_⟩
  obtain ⟨-, alone, skips⟩ := closed_window_keeps_bus rfl _ t h
  refine alone fun reached => absurd (skips reached) ?_
  subst h
  decide +kernel

/-- A fetch from the serial line takes a byte of its input and asks for a skip, although the window
is closed. -/
theorem closed_window_open_to_fetch :
    (Scripted.monitor [97]).enabled = false ∧
      (Scripted.monitor [97]).bus.skip = false ∧ (Scripted.monitor [97]).bus.serialInput = [97] ∧
      ∀ t, ((tellAll [.showPc Platform.serialBase, .fetch]).run (Scripted.monitor [97])).state = t →
        t.bus.skip = true ∧ t.bus.serialInput = [] := by
  refine ⟨rfl, rfl, rfl, ?_⟩
  rintro t rfl
  decide +kernel

end Program

end Lockstep

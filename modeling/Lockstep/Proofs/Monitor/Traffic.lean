/-
Lockstep.Proofs.Monitor.Traffic — what the monitor does with a fetch, a read and a write.

Each of them is answered at once, from what the monitor remembers or because the enable window is
closed, or it goes through as one access of the bus (`fetch_cases`, `read_cases`, `write_cases`).
Everything about the bus traffic of a hardware model is read off these.
-/
import Lockstep.Proofs.Outcome
import Lockstep.Monitor.Basic

namespace Lockstep.Monitor

open Outcome

variable {δ : Type}

theorem isOk_raise (m : Monitor δ) (o : OutOfBound) : (m.raise o).isOk = true := by
  unfold raise
  cases m.fault <;> rfl

/-! ## An access of the bus -/

section Access

variable {α : Type} {m : Monitor δ} {o : Outcome (Bus δ) (Except BusFault α)} {fallback : α}
  {remember : α → Monitor δ → Monitor δ}

/-- What neither a latched fault nor a remembered answer changes is as the bus left it. -/
theorem look_access {τ : Type} (look : Monitor δ → τ)
    (hf : ∀ (m : Monitor δ) f, look { m with fault := f } = look m)
    (hr : ∀ a m, look (remember a m) = look m) :
    look (m.access o fallback remember).state = look (m.withBus o.state) := by
  unfold access
  rcases h : (o.within m.withBus).result with c | r
  · rw [bind_of_error h]
    rfl
  · rw [bind_of_ok h]
    cases r with
    | ok a => exact hr a _
    | error f =>
      simp only [raise, Outcome.map]
      split
      · rfl
      · exact hf _ _

theorem isOk_access : (m.access o fallback remember).isOk = o.isOk := by
  unfold access
  rcases h : (o.within m.withBus).result with c | r
  · rw [bind_of_error h]
    exact (isOk_eq_false_iff.mpr ⟨c, h⟩).symm
  · rw [bind_of_ok h]
    refine Eq.trans ?_ (isOk_iff.mpr ⟨r, h⟩ : o.isOk = true).symm
    cases r with
    | ok a => rfl
    | error f => exact (isOk_map _ _).trans (isOk_raise _ _)

theorem state_access_of_ok {a : α} (h : o.result = .ok (.ok a)) :
    (m.access o fallback remember).state = remember a (m.withBus o.state) := by
  rw [access, bind_of_ok (o := o.within m.withBus) h]
  rfl

/-- A change of the monitor of which an access of the bus takes no notice. -/
structure Unseen (f : Monitor δ → Monitor δ) : Prop where
  bus : ∀ m, (f m).bus = m.bus
  shown : ∀ m, (f m).shown = m.shown
  fault : ∀ m, (f m).fault = m.fault
  outOfBound : ∀ m addr, (f m).outOfBound addr = m.outOfBound addr
  withBus : ∀ m b, (f m).withBus b = f (m.withBus b)
  latch : ∀ (m : Monitor δ) o, { f m with fault := o } = f { m with fault := o }

namespace Unseen

variable {f : Monitor δ → Monitor δ} (unseen : Unseen f)

include unseen

theorem raise (m : Monitor δ) (o : OutOfBound) : (f m).raise o = (m.raise o).within f := by
  unfold Monitor.raise
  rw [unseen.fault]
  rcases m.fault with _ | pending
  · simp only [unseen.latch]
    rfl
  · rfl

/-- The access comes out the same, and leaves the monitor with the same change. -/
theorem access {remember' : α → Monitor δ → Monitor δ}
    (h : ∀ a n, remember' a (f n) = f (remember a n)) :
    (f m).access o fallback remember' = (m.access o fallback remember).within f := by
  unfold Monitor.access
  rcases result : o.result with c | r
  · rw [bind_of_error (o := o.within (f m).withBus) result,
      bind_of_error (o := o.within m.withBus) result]
    simp only [within, unseen.withBus]
  · rw [bind_of_ok (o := o.within (f m).withBus) result,
      bind_of_ok (o := o.within m.withBus) result]
    cases r with
    | ok a => simp only [within, unseen.withBus, Outcome.pure, h]
    | error e =>
      simp only [within, unseen.withBus, unseen.outOfBound, unseen.raise]
      rfl

end Unseen

end Access

/-! ## Fetches, reads and writes -/

variable [Peripheral δ] (m : Monitor δ)

/-- A fetch is answered with the remembered word, or it goes through. -/
theorem fetch_cases :
    (∃ inst, m.fetchMemo = some (m.shown.pc, inst) ∧ m.fetch = .pure inst m) ∨
      (m.fetchMemo.map (·.1) ≠ some m.shown.pc ∧
        m.fetch = m.access (m.bus.read m.shown.pc) 0 fun inst n =>
          { n with fetchMemo := some (m.shown.pc, inst) }) := by
  simp only [fetch]
  rcases m.fetchMemo with _ | ⟨last, inst⟩
  · exact .inr ⟨nofun, rfl⟩
  · by_cases same : last = m.shown.pc
    · exact .inl ⟨inst, by rw [same], if_pos same⟩
    · exact .inr ⟨fun h => same (Option.some.inj h), if_neg same⟩

/-- A fetch takes no notice of a change that spares the remembered fetch. -/
theorem Unseen.fetch {f : Monitor δ → Monitor δ} (unseen : Unseen f)
    (memo : ∀ m, (f m).fetchMemo = m.fetchMemo)
    (keep : ∀ (m : Monitor δ) x, { f m with fetchMemo := x } = f { m with fetchMemo := x }) :
    (f m).fetch = m.fetch.within f := by
  have fresh :
      ((f m).access (m.bus.read m.shown.pc) 0 fun inst n =>
        { n with fetchMemo := some (m.shown.pc, inst) }) =
      (m.access (m.bus.read m.shown.pc) 0 fun inst n =>
        { n with fetchMemo := some (m.shown.pc, inst) }).within f :=
    unseen.access fun _ n => keep n _
  simp only [Monitor.fetch, memo, unseen.shown, unseen.bus]
  rcases m.fetchMemo with _ | ⟨last, inst⟩
  · exact fresh
  · by_cases same : last = m.shown.pc
    · simp only [if_pos same]
      rfl
    · simp only [if_neg same]
      exact fresh

/-- A read is answered with the remembered word, or ignored behind a closed window, or it goes
through. -/
theorem read_cases (addr : Addr) :
    (∃ data, m.readMemo = some (addr, data) ∧ m.read addr = .pure data m) ∨
      (m.readMemo.map (·.1) ≠ some addr ∧ (!m.enabled && m.bus.isIntercepted addr) = true ∧
        m.read addr = .logged (.readIgnored addr) 0 m) ∨
      (m.readMemo.map (·.1) ≠ some addr ∧ (!m.enabled && m.bus.isIntercepted addr) = false ∧
        m.read addr = m.access (m.bus.read addr) 0 fun data n =>
          { n with readMemo := some (addr, data) }) := by
  have fresh : (m.readMemo.map (·.1) ≠ some addr ∧ m.read addr = m.readFresh addr) ∨
      ∃ data, m.readMemo = some (addr, data) ∧ m.read addr = .pure data m := by
    simp only [read]
    rcases m.readMemo with _ | ⟨last, data⟩
    · exact .inl ⟨nofun, rfl⟩
    · by_cases same : last = addr
      · exact .inr ⟨data, by rw [same], if_pos same⟩
      · exact .inl ⟨fun h => same (Option.some.inj h), if_neg same⟩
  rcases fresh with ⟨missed, same⟩ | known
  · rw [same, readFresh]
    rcases ignored : !m.enabled && m.bus.isIntercepted addr with _ | _
    · exact .inr (.inr ⟨missed, rfl, rfl⟩)
    · exact .inr (.inl ⟨missed, rfl, rfl⟩)
  · exact .inl known

/-- A write is ignored behind a closed window, or it is the remembered one, or it goes through. -/
theorem write_cases (addr : Addr) (mask : UInt8) (data : Word) :
    (m.enabled = false ∧ m.write addr mask data = .logged (.writeIgnored addr) () m) ∨
      (m.enabled = true ∧ m.writeMemo = some (addr, mask, data) ∧
        m.write addr mask data = .pure () m) ∨
      (m.enabled = true ∧ m.writeMemo ≠ some (addr, mask, data) ∧
        m.write addr mask data =
          { m with
            writeMemo := some (addr, mask, data),
            readMemo := m.readMemoAfterWrite addr }.access
              (m.bus.write addr mask data) () fun _ n => n) := by
  rw [write]
  rcases opened : m.enabled with _ | _
  · exact .inl ⟨rfl, rfl⟩
  · by_cases known : m.writeMemo = some (addr, mask, data)
    · exact .inr (.inl ⟨rfl, known, if_pos known⟩)
    · exact .inr (.inr ⟨rfl, known, if_neg known⟩)

end Lockstep.Monitor

/-
Lockstep.Proofs.Monitor.Account — what a hardware model has told its monitor, read off its
callbacks.

An account is the state shown, the first halt and the last interrupt.  `Account.absorb` says what a
single callback adds to it, without a monitor, a bus or a memo; `account_run` says that a program of
callbacks leaves the monitor with exactly the account that its callbacks add up to.  Accounts add
up: what a list of callbacks tells can be told from what it tells on its own
(`Account.foldl_absorb`), the halt of before winning over a later one and the later interrupt over
that of before.  So the halt is the one that was reported first
(`Account.halt_ofCallbacks_eq_some_iff`).
-/
import Lockstep.Proofs.Monitor.Log
import Lockstep.Dut

namespace Lockstep

/-! ## Accounts -/

/-- What a hardware model has told: the state that it shows, how it halted first and the interrupt
that it took last. -/
structure Account where
  shown : MachineState
  halt : Option Halt
  interrupt : Option Word
deriving DecidableEq

namespace Callback

/-- The halt that a callback reports, of a model that shows a state. -/
def halt? (shown : MachineState) : Callback → Option Halt
  | .ebreak => some (.ebreak shown.pc (shown.gpr.get .a0))
  | .invalid => some (.invalid shown.pc)
  | _ => none

/-- The callback reports a halt. -/
def isHalt : Callback → Bool
  | .ebreak | .invalid => true
  | _ => false

theorem isSome_halt? (c : Callback) (shown : MachineState) :
    (c.halt? shown).isSome = c.isHalt := by
  cases c <;> rfl

end Callback

namespace Account

/-- The account of a model that shows a state and has told nothing else. -/
def ofShown (s : MachineState) : Account := ⟨s, none, none⟩

/-- The account with the state shown changed. -/
def shows (a : Account) (s : MachineState) : Account := { a with shown := s }

/-- The account after a halt, which counts if it is the first one. -/
def halts (a : Account) (h : Halt) : Account := { a with halt := a.halt.or (some h) }

/-- The account after one more callback. -/
def absorb (a : Account) : Callback → Account
  | .showPc pc => a.shows { a.shown with pc := pc }
  | .showInst inst => a.shows { a.shown with inst := inst }
  | .showRegisters gpr => a.shows { a.shown with gpr := gpr }
  | .showCsr index value =>
    match Csr.ofIndex? index with
    | some c => a.shows (a.shown.setCsr c value)
    | none => a
  | .ebreak => a.halts (.ebreak a.shown.pc (a.shown.gpr.get .a0))
  | .invalid => a.halts (.invalid a.shown.pc)
  | .interrupt no => { a with interrupt := some no }
  | .fetch | .read _ | .write _ _ _ | .jump _ _ _ _ => a

/-- What a list of callbacks tells, of a model that showed `s` before them. -/
def ofCallbacks (s : MachineState) (cs : List Callback) : Account := cs.foldl absorb (ofShown s)

/-- The account that follows on an earlier one. -/
def following (a b : Account) : Account := ⟨b.shown, a.halt.or b.halt, b.interrupt.or a.interrupt⟩

theorem absorb_following (a b : Account) (c : Callback) :
    (a.following b).absorb c = a.following (b.absorb c) := by
  cases c with
  | showCsr index value =>
    simp only [absorb, following]
    cases Csr.ofIndex? index <;> rfl
  | ebreak => simp [absorb, halts, following]
  | invalid => simp [absorb, halts, following]
  | _ => rfl

/-- What callbacks add up to is what they tell on their own, following what was told before. -/
theorem foldl_absorb (a : Account) (cs : List Callback) :
    cs.foldl absorb a = a.following (ofCallbacks a.shown cs) := by
  have general : ∀ (cs : List Callback) (b : Account),
      cs.foldl absorb (a.following b) = a.following (cs.foldl absorb b) := by
    intro cs
    induction cs with
    | nil => exact fun b => rfl
    | cons c cs ih => intro b; rw [List.foldl_cons, absorb_following, ih, List.foldl_cons]
  have start : a.following (ofShown a.shown) = a := by
    obtain ⟨shown, halt, interrupt⟩ := a
    simp [following, ofShown]
  rw [ofCallbacks, ← general cs, start]

/-! ## The first halt -/

theorem ofCallbacks_cons (s : MachineState) (c : Callback) (cs : List Callback) :
    ofCallbacks s (c :: cs) =
      ((ofShown s).absorb c).following (ofCallbacks ((ofShown s).absorb c).shown cs) :=
  foldl_absorb ((ofShown s).absorb c) cs

theorem halt_ofCallbacks_cons (s : MachineState) (c : Callback) (cs : List Callback) :
    (ofCallbacks s (c :: cs)).halt =
      (c.halt? s).or (ofCallbacks ((ofShown s).absorb c).shown cs).halt := by
  have first : ((ofShown s).absorb c).halt = c.halt? s := by
    cases c with
    | showCsr index value =>
      simp only [absorb]
      cases Csr.ofIndex? index <;> rfl
    | _ => rfl
  rw [ofCallbacks_cons, following, first]

/-- The halt that callbacks tell of is the one that is reported first, with what the model shows at
that callback. -/
theorem halt_ofCallbacks_eq_some_iff {s : MachineState} {cs : List Callback} {h : Halt} :
    (ofCallbacks s cs).halt = some h ↔
      ∃ before c after, cs = before ++ c :: after ∧ (∀ c' ∈ before, c'.isHalt = false) ∧
        c.halt? (ofCallbacks s before).shown = some h := by
  induction cs generalizing s with
  | nil => simp [ofCallbacks, ofShown]
  | cons c cs ih =>
    rw [halt_ofCallbacks_cons]
    rcases reported : c.halt? s with _ | first
    · rw [Option.none_or, ih]
      constructor
      · rintro ⟨before, c', after, rfl, quiet, told⟩
        refine ⟨c :: before, c', after, rfl, ?_, ?_⟩
        · rw [List.forall_mem_cons]
          exact ⟨by rw [← c.isSome_halt? s, reported]; rfl, quiet⟩
        · rw [ofCallbacks_cons]
          exact told
      · rintro ⟨_ | ⟨c₀, before⟩, c', after, split, quiet, told⟩
        · cases split
          cases reported.symm.trans told
        · cases split
          rw [ofCallbacks_cons] at told
          exact ⟨before, c', after, rfl, fun c'' mem => quiet c'' (List.mem_cons_of_mem _ mem), told⟩
    · rw [Option.some_or]
      constructor
      · rintro ⟨⟩
        exact ⟨[], c, cs, rfl, by simp, reported⟩
      · rintro ⟨_ | ⟨c₀, before⟩, c', after, split, quiet, told⟩
        · cases split
          exact reported.symm.trans told
        · -- The callback that reports a halt is none of those before the first one.
          cases split
          have silent := quiet c List.mem_cons_self
          rw [← c.isSome_halt? s, reported] at silent
          cases silent

end Account

/-! ## The monitor keeps the account -/

namespace Monitor

variable {δ : Type}

/-- The account that a monitor holds. -/
def account (m : Monitor δ) : Account := ⟨m.shown, m.halt, m.interrupt⟩

theorem account_traceTrap (m : Monitor δ) : m.traceTrap.state.account = m.account := by
  unfold traceTrap
  split <;> rfl

theorem account_jump (m : Monitor δ) (rd : Nat) (site target : Addr) (base : Word) :
    (m.jump rd site target base).state.account = m.account := by
  unfold jump
  split
  · rfl
  · simp only
    split <;> rfl

section Access

variable [Peripheral δ]

theorem account_fetch (m : Monitor δ) : m.fetch.state.account = m.account := by
  rcases m.fetch_cases with ⟨_, _, same⟩ | ⟨_, same⟩ <;> rw [same]
  · rfl
  · exact look_access account (fun _ _ => rfl) fun _ _ => rfl

theorem account_read (m : Monitor δ) (addr : Addr) : (m.read addr).state.account = m.account := by
  rcases m.read_cases addr with ⟨_, _, same⟩ | ⟨_, _, same⟩ | ⟨_, _, same⟩ <;> rw [same]
  · rfl
  · rfl
  · exact look_access account (fun _ _ => rfl) fun _ _ => rfl

theorem account_write (m : Monitor δ) (addr : Addr) (mask : UInt8) (data : Word) :
    (m.write addr mask data).state.account = m.account := by
  rcases m.write_cases addr mask data with ⟨_, same⟩ | ⟨_, _, same⟩ | ⟨_, _, same⟩ <;> rw [same]
  · rfl
  · rfl
  · exact look_access account (fun _ _ => rfl) fun _ _ => rfl

/-- An answered callback is absorbed. -/
theorem account_respond_of_ok {m : Monitor δ} {c : Callback} {w : Word}
    (h : (m.respond c).result = .ok w) :
    (m.respond c).state.account = m.account.absorb c := by
  cases c with
  | fetch => exact account_fetch m
  | read addr => exact account_read m addr
  | write addr mask data => exact account_write m addr mask data
  | jump rd site target base => exact account_jump m rd site target base
  | showCsr index value =>
    simp only [respond, showCsr, Account.absorb]
    cases Csr.ofIndex? index <;> rfl
  | ebreak =>
    simp only [respond, ebreak, Account.absorb, Account.halts]
    cases hh : m.halt <;> simp [account, Outcome.map, Outcome.pure, Outcome.logged, hh]
  | invalid =>
    simp only [respond, invalid, Account.absorb, Account.halts]
    cases hh : m.halt <;> simp [account, Outcome.map, Outcome.pure, Outcome.logged, hh]
  | showPc | showInst | showRegisters | interrupt => rfl

/-- A callback that crashes tells nothing. -/
theorem account_respond_of_error {m : Monitor δ} {c : Callback} {e : Crash}
    (h : (m.respond c).result = .error e) : (m.respond c).state.account = m.account := by
  cases c with
  | fetch => exact account_fetch m
  | read addr => exact account_read m addr
  | write addr mask data => exact account_write m addr mask data
  | jump rd site target base => exact account_jump m rd site target base
  | showCsr index value =>
    simp only [respond, showCsr] at h
    cases hi : Csr.ofIndex? index <;>
      simp [hi, Outcome.map, Outcome.pure, Outcome.logged, Except.map] at h
  | ebreak =>
    simp only [respond, ebreak] at h
    cases hh : m.halt <;>
      simp [hh, Outcome.map, Outcome.pure, Outcome.logged, Except.map] at h
  | invalid =>
    simp only [respond, invalid] at h
    cases hh : m.halt <;>
      simp [hh, Outcome.map, Outcome.pure, Outcome.logged, Except.map] at h
  | showPc | showInst | showRegisters | interrupt => simp [respond, Outcome.pure] at h

end Access

end Monitor

/-! ## Programs -/

namespace Program

variable {δ : Type} [Peripheral δ] {α : Type}

/-- The callbacks of a program that begins with a callback. -/
theorem callbacks_call (c : Callback) (next : Word → Program α) (m : Monitor δ) :
    ((Program.call c next).run m).callbacks =
      match (m.respond c).result with
      | .ok w => c :: ((next w).run (m.respond c).state).callbacks
      | .error _ => [] := by
  have silent := (Monitor.logsOnly_respond m c).collect_eq_nil (p := Event.callback?) fun _ => rfl
  rw [run, Outcome.callbacks, Outcome.collect_bind_of_nil _ silent]
  cases (m.respond c).result <;> simp [Event.callback?]

/-- The callbacks of a program that begins with a request to the bus. -/
theorem callbacks_bus (r : Bus.Request) (next : Bus.Reply → Program α) (m : Monitor δ) :
    ((Program.bus r next).run m).callbacks =
      match (m.bus.respond r).result with
      | .ok a => ((next a).run (m.withBus (m.bus.respond r).state)).callbacks
      | .error _ => [] := by
  have silent := ((Bus.logsOnly_respond m.bus r).within m.withBus).collect_eq_nil
    (p := Event.callback?) fun _ => rfl
  rw [run, Outcome.callbacks, Outcome.collect_bind_of_nil _ silent]
  simp only [Outcome.within]
  cases (m.bus.respond r).result <;> simp [Event.callback?]

/-- A program leaves its monitor with the account that its callbacks add up to. -/
theorem account_run (x : Program α) (m : Monitor δ) :
    (x.run m).state.account = (x.run m).callbacks.foldl Account.absorb m.account := by
  induction x generalizing m with
  | done a => rfl
  | call c next ih =>
    rw [callbacks_call, run]
    rcases h : (m.respond c).result with e | w
    · rw [Outcome.bind_of_error h]
      exact Monitor.account_respond_of_error h
    · rw [Outcome.bind_of_ok h, List.foldl_cons, ← Monitor.account_respond_of_ok h]
      exact ih w _
  | look next ih => exact ih m.shown m
  | bus r next ih =>
    rw [callbacks_bus, run]
    rcases h : (m.bus.respond r).result with e | a
    · rw [Outcome.bind_of_error (o := (m.bus.respond r).within m.withBus) h]
      rfl
    · rw [Outcome.bind_of_ok (o := (m.bus.respond r).within m.withBus) h]
      exact ih a _

/-- A filter for something else than log entries and the doings of the hardware model finds nothing
in a program. -/
theorem collect_run_eq_nil {γ : Type} {p : Event → Option γ} (hl : ∀ entry, p (.log entry) = none)
    (hd : ∀ call, p (.dut call) = none) (x : Program α) (m : Monitor δ) :
    (x.run m).collect p = [] := by
  induction x generalizing m with
  | done a => rfl
  | call c next ih =>
    refine Outcome.collect_bind_eq_nil _ ?_ fun w m => ?_
    · exact (Monitor.logsOnly_respond m c).collect_eq_nil hl
    · simpa [hd] using ih w m
  | look next ih => exact ih m.shown m
  | bus r next ih =>
    refine Outcome.collect_bind_eq_nil _ ?_ fun a m => ?_
    · exact ((Bus.logsOnly_respond m.bus r).within _).collect_eq_nil hl
    · simpa [hd] using ih a m

end Program

end Lockstep

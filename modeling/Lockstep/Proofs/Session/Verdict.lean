/-
Lockstep.Proofs.Session.Verdict — what the verdict on a session means.

The verdict is good exactly when the guest halted with code 0 in some step (`good_iff_haltsWell`),
and no later request changes it (`isBad_of_good`, `isBad_of_terminal`).  A step halts the
guest with the halt that its monitor holds: the first one that the hardware model reported in the
step, unless one was pending at its beginning (`halts_iff`).  Only the first step can begin so, with
a halt that the hardware model reported during its reset; whether the verdict is what the steps by
themselves promise comes down to that halt (`haltsWell_iff_promise`,
`haltsWell_iff_promise_of_pending`).
-/
import Lockstep.Proofs.Session.History
import Lockstep.Scripted.Session

namespace Lockstep.Session

open Outcome

variable {δ D R : Type}

/-! ## A good verdict -/

theorem isBad_eq_false_iff {s : Session δ D R} :
    s.isBad = false ↔
      (s.status.state = .ended ∨ s.status.state = .quit) ∧ s.status.haltCode = 0 :=
  Status.isBad_eq_false_iff

variable [ReferenceModel R] [Peripheral δ] [Dut D]

/-- The guest halts with code 0 in one of the steps. -/
def HaltsWell (l : List (Session δ D R)) : Prop := ∃ g ∈ l, ∃ pc, g.Halts pc 0

theorem haltsWell_singleton {g : Session δ D R} : HaltsWell [g] ↔ ∃ pc, g.Halts pc 0 := by
  simp [HaltsWell]

/-- The verdict is good when the guest halted with code 0. -/
theorem good_iff_haltsWell {s : Session δ D R} (isFresh : s.status = .fresh) (patience : Nat)
    (rs : List Request) :
    ((serveAll patience rs).run s).state.isBad = false ↔ HaltsWell (steps patience rs s) := by
  rw [isBad_eq_false_iff]
  constructor
  · rintro ⟨_, zero⟩
    have other : ((serveAll patience rs).run s).state.status.haltCode ≠ 1 := by
      rw [zero]
      decide
    rcases follows_serveAll isFresh patience rs with follows | ⟨_, _, _, _, _, _, one⟩
    · obtain ⟨g, mem, pc, halts⟩ := follows.halts_of_code other
      exact ⟨g, mem, pc, zero ▸ halts⟩
    · exact absurd one other
  · rintro ⟨g, mem, pc, halts⟩
    rcases follows_serveAll isFresh patience rs with follows | ⟨l, u, whole, crash, went, _⟩
    · exact follows.of_halts mem halts
    · rw [whole] at mem
      rcases List.mem_append.mp mem with before | last
      · exact absurd (went g before) halts.not_went
      · rw [List.mem_singleton.mp last] at halts
        exact absurd halts.1 crash

/-! ## What the steps by themselves promise -/

/-- The first halt that the hardware model reports in the next step is one of its own with code 0,
the value of register 10 at that time. -/
def ReportsSuccess (s : Session δ D R) : Prop := ∃ pc, s.told.halt = some (.ebreak pc 0)

/-- Some step reports success and is checked, and all steps before it are checked as well, report no
invalid instruction and meet no watchpoint that cannot be evaluated. -/
def PromiseSuccess (l : List (Session δ D R)) : Prop :=
  ∃ before g after, l = before ++ g :: after ∧ g.Checked ∧ g.ReportsSuccess ∧
    ∀ s ∈ before, s.Checked ∧ (∀ pc, s.told.halt ≠ some (.invalid pc)) ∧ s.settled.failure? = none

theorem promiseSuccess_singleton {g : Session δ D R} :
    PromiseSuccess [g] ↔ g.Checked ∧ g.ReportsSuccess := by
  constructor
  · rintro ⟨before, u, after, split, checked, reports, _⟩
    have mem : u ∈ [g] := split ▸ List.mem_append_right before List.mem_cons_self
    rw [List.mem_singleton.mp mem] at checked reports
    exact ⟨checked, reports⟩
  · rintro ⟨checked, reports⟩
    exact ⟨[], g, [], rfl, checked, reports, fun _ h => nomatch h⟩

section Requests

variable {patience : Nat} {rs : List Request} {s : Session δ D R} (isFresh : s.status = .fresh)

include isFresh

/-- A step that begins without a pending halt of the guest's own holds what it reports. -/
theorem pending_or_told (quiet : ∀ pc code, s.monitor.halt ≠ some (.ebreak pc code))
    {l l' : List (Session δ D R)} {g : Session δ D R} (split : steps patience rs s = l ++ g :: l')
    (checked : g.Checked) : g.monitor.halt.or g.told.halt = g.told.halt := by
  rcases List.eq_nil_or_concat l with rfl | ⟨front, v, rfl⟩
  · have same : g.monitor = s.monitor := monitor_of_head (by rw [split]; rfl)
    rcases pending : s.monitor.halt with _ | ⟨pc, code⟩ | pc
    · rw [same, pending]
      rfl
    · exact absurd pending (quiet pc code)
    · -- An invalid instruction that is pending gives the step up.
      have given : g.settled.pair.monitor.halt = some (.invalid pc) := by
        refine (halt_settled g).trans ?_
        rw [same, pending]
        rfl
      exact absurd given (checked.2.1.2 pc)
  · have clear := (split_steps split).1.isClear (went_of_split isFresh split) (by simp)
    rw [clear.halt]
    rfl

/-- Without a pending halt of the guest's own, steps keep their promise. -/
theorem haltsWell_iff_promise (quiet : ∀ pc code, s.monitor.halt ≠ some (.ebreak pc code)) :
    HaltsWell (steps patience rs s) ↔ PromiseSuccess (steps patience rs s) := by
  constructor
  · rintro ⟨g, mem, pc, halts⟩
    obtain ⟨l, l', split⟩ := List.append_of_mem mem
    have told := pending_or_told isFresh quiet split halts.checked
    have success := (halts_iff halts.checked).mp halts
    refine ⟨l, g, l', split, halts.checked, ⟨pc, told ▸ success⟩, fun u mem => ?_⟩
    have went := went_of_split isFresh split u mem
    refine ⟨went.checked, fun pc invalid => ?_, went.2.2⟩
    obtain ⟨front, back, rfl⟩ := List.append_of_mem mem
    rw [List.append_assoc, List.cons_append] at split
    have given : u.settled.pair.monitor.halt = some (.invalid pc) :=
      (halt_settled u).trans ((pending_or_told isFresh quiet split went.checked).trans invalid)
    exact went.checked.2.1.2 pc given
  · rintro ⟨l, g, l', split, checked, ⟨pc, told⟩, _⟩
    have mem : g ∈ steps patience rs s := split ▸ List.mem_append_right l List.mem_cons_self
    refine ⟨g, mem, pc, (halts_iff checked).mpr ?_⟩
    rw [pending_or_told isFresh quiet split checked, told]

/-- With a halt of the guest's own pending from before the first step, the promise is kept when that
step is not checked, or when the pending code and the report of the step tell the same. -/
theorem haltsWell_iff_promise_of_pending {pc₀ : Addr} {code₀ : Word}
    (pending : s.monitor.halt = some (.ebreak pc₀ code₀)) :
    (HaltsWell (steps patience rs s) ↔ PromiseSuccess (steps patience rs s)) ↔
    ∀ g, (steps patience rs s).head? = some g → g.Checked → (code₀ = 0 ↔ g.ReportsSuccess) := by
  rcases whole : steps patience rs s with _ | ⟨g, rest⟩
  · -- No step is executed, so nothing halts and nothing is promised.
    simp [HaltsWell, PromiseSuccess]
  have held : g.monitor.halt.or g.told.halt = some (.ebreak pc₀ code₀) := by
    have same : g.monitor = s.monitor := monitor_of_head (by rw [whole]; rfl)
    rw [same, pending]
    rfl
  -- Whether or not the first step is checked, it is the only one.
  have alone : rest = [] := last_of_not_went isFresh (l := []) whole fun went =>
    ((halts_iff went.checked).mpr held).not_went went
  have halts : (∃ pc, g.Halts pc 0) ↔ g.Checked ∧ code₀ = 0 := by
    constructor
    · rintro ⟨pc, halts⟩
      exact ⟨halts.checked, ((halts_iff halts.checked).mpr held).code_unique halts⟩
    · rintro ⟨checked, rfl⟩
      exact ⟨pc₀, (halts_iff checked).mpr held⟩
  rw [alone, haltsWell_singleton, promiseSuccess_singleton, halts, and_congr_right_iff]
  simp

end Requests

/-! ## The verdict stays -/

/-- Requests to a session that has come to its end leave the code with which the guest halted, and
at most the operator quits. -/
theorem serveAll_of_terminal {s : Session δ D R} (terminal : s.status.state.isTerminal = true)
    (patience : Nat) (rs : List Request) :
    ((serveAll patience rs).run s).state.status.haltCode = s.status.haltCode ∧
      (((serveAll patience rs).run s).state.status.state = s.status.state ∨
        ((serveAll patience rs).run s).state.status.state = .quit) := by
  have traverses := serveAll_traverses patience rs s
  rcases hr : ((serveAll patience rs).run s).result with c | replies
  · obtain ⟨l, u, _, path, running, _, _⟩ := traverses.crashes c hr
    rcases (path.of_terminal terminal).2.2 with h | h
    · rw [← h, running] at terminal
      cases terminal
    · rw [running] at h
      cases h
  · exact ((traverses.arrives replies hr).of_terminal terminal).2

/-- A good verdict stays good. -/
theorem isBad_of_good {s : Session δ D R} (good : s.isBad = false) (patience : Nat)
    (rs : List Request) : ((serveAll patience rs).run s).state.isBad = false := by
  obtain ⟨state, zero⟩ := isBad_eq_false_iff.mp good
  have terminal : s.status.state.isTerminal = true := by
    rcases state with h | h <;> rw [h] <;> rfl
  obtain ⟨code, stays⟩ := serveAll_of_terminal terminal patience rs
  refine isBad_eq_false_iff.mpr ⟨?_, code.trans zero⟩
  rcases stays with same | quit
  · rw [same]
    exact state
  · exact .inr quit

/-- A session that has come to its end with another code than 0 never gets a good verdict. -/
theorem isBad_of_terminal {s : Session δ D R} (terminal : s.status.state.isTerminal = true)
    (nonzero : s.status.haltCode ≠ 0) (patience : Nat) (rs : List Request) :
    ((serveAll patience rs).run s).state.isBad = true := by
  obtain ⟨code, _⟩ := serveAll_of_terminal terminal patience rs
  rw [← Bool.not_eq_false, isBad_eq_false_iff, code]
  exact fun good => nonzero good.2

/-- A session that was aborted keeps a code that tells of failure. -/
theorem haltCode_of_aborted {s : Session δ D R} (isFresh : s.status = .fresh) {patience : Nat}
    {rs : List Request} (h : ((serveAll patience rs).run s).state.status.state = .aborted) :
    ((serveAll patience rs).run s).state.status.haltCode = 1 := by
  rcases follows_serveAll isFresh patience rs with follows | ⟨_, _, _, _, _, _, one⟩
  · exact follows.code_of_aborted h
  · exact one

/-- A good verdict is what the steps by themselves promise, for every session but those in which the
hardware model reported a halt of the guest during its reset: there it is the promise only if the
first step is not checked, or if that halt and the first step tell the same.  Whatever is requested
later, a good verdict stays good, and a session that was aborted or that ended with another code
than 0 never gets one. -/
theorem verdict_keeps_promise_iff {dut : D} {model : R} {bus : Bus δ} {setup : Setup}
    {s₀ : Session δ D R} (up : (start dut model bus setup).result = .ok (.ok s₀)) (e : Evaluator)
    (patience : Nat) (rs : List Request) :
    ∀ t, ((serveAll patience rs).run (s₀.withEvaluator e)).state = t →
      ((t.isBad = false ↔ PromiseSuccess (steps patience rs (s₀.withEvaluator e))) ↔
        ∀ pc code, s₀.monitor.halt = some (.ebreak pc code) →
          ∀ g, (steps patience rs (s₀.withEvaluator e)).head? = some g → g.Checked →
            (code = 0 ↔ g.ReportsSuccess)) ∧
      ∀ patience' rs' u, ((serveAll patience' rs').run t).state = u →
        (t.isBad = false → u.isBad = false) ∧
        (t.state = .aborted ∨ (t.state = .ended ∧ t.status.haltCode ≠ 0) → u.isBad = true) := by
  have isFresh := status_of_start up e
  rintro t rfl
  refine ⟨?_, ?_⟩
  · rw [good_iff_haltsWell isFresh]
    by_cases quiet : ∀ pc code, (s₀.withEvaluator e).monitor.halt ≠ some (.ebreak pc code)
    · refine iff_of_true (haltsWell_iff_promise isFresh quiet) fun pc code pending => ?_
      exact absurd pending (quiet pc code)
    · obtain ⟨pc, code, pending⟩ : ∃ pc code,
          (s₀.withEvaluator e).monitor.halt = some (.ebreak pc code) := by
        simpa using quiet
      rw [haltsWell_iff_promise_of_pending isFresh pending]
      constructor
      · intro h pc' code' pending'
        have same := pending.symm.trans pending'
        cases same
        exact h
      · exact fun h => h pc code pending
  · rintro patience' rs' u rfl
    refine ⟨fun good => isBad_of_good good patience' rs', fun closed => ?_⟩
    rcases closed with aborted | ⟨ended, nonzero⟩
    · refine isBad_of_terminal (congrArg RunState.isTerminal aborted) ?_ patience' rs'
      rw [haltCode_of_aborted isFresh aborted]
      decide
    · exact isBad_of_terminal (congrArg RunState.isTerminal ended) nonzero patience' rs'

/-- A guest that halts itself with code 0 in its first step keeps the promise. -/
theorem verdict_keeps_promise_ebreak :
    ∃ s₀, (Scripted.start [] [[[.call .ebreak]]] []).result = .ok (.ok s₀) ∧
      s₀.monitor.halt = none ∧
      ∃ t, ((serveAll 0 [.run none, .run (some 1)]).run (s₀.withEvaluator .standard)).state = t ∧
        (t.isBad = false ↔
          PromiseSuccess (steps 0 [.run none, .run (some 1)] (s₀.withEvaluator .standard))) := by
  have up : (Scripted.start [] [[[.call .ebreak]]] []).result = .ok (.ok _) := rfl
  refine ⟨_, up, rfl, _, rfl, ?_⟩
  have keeps := verdict_keeps_promise_iff up .standard 0 [.run none, .run (some 1)] _ rfl
  exact keeps.1.mpr fun pc code pending => nomatch pending

/-- A hardware model that reports a halt of the guest while it is reset, and nothing after that,
gets a good verdict for its first step. -/
theorem verdict_of_halt_in_reset :
    ∃ s₀, (Scripted.start [[.call .ebreak]] [] []).result = .ok (.ok s₀) ∧
      ¬ (((serveAll 0 [.run (some 1)]).run (s₀.withEvaluator .standard)).state.isBad = false ↔
        PromiseSuccess (steps 0 [.run (some 1)] (s₀.withEvaluator .standard))) := by
  obtain ⟨s₀, up, good, quiet⟩ : ∃ s₀,
      (Scripted.start [[.call .ebreak]] [] []).result = .ok (.ok s₀) ∧
      ((serveAll 0 [.run (some 1)]).run (s₀.withEvaluator .standard)).state.isBad = false ∧
      ∀ g ∈ steps 0 [.run (some 1)] (s₀.withEvaluator .standard), g.told.halt = none :=
    ⟨_, rfl, by decide +kernel, by decide +kernel⟩
  refine ⟨s₀, up, fun keeps => ?_⟩
  obtain ⟨l, g, l', split, _, ⟨pc, told⟩, _⟩ := keeps.mp good
  have mem : g ∈ steps 0 [.run (some 1)] (s₀.withEvaluator .standard) := by
    rw [split]
    exact List.mem_append_right l List.mem_cons_self
  exact nomatch (quiet g mem).symm.trans told

end Lockstep.Session

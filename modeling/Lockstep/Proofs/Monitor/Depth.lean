/-
Lockstep.Proofs.Monitor.Depth — how deep the calls are after a history of jumps.

A history is any row of jumps, of registers that are shown and of new steps (`TraceInput`).  It tells
which of its jumps are followed (`accepted`): all but those that come from the same site as the jump
before them in the same step.  It also tells which of them are returns, since those go where the
registers shown last point to (`Jump.of`).  A call counts 1, a return -1 and any other jump 0.  As a
return at depth 0 stays there, the depth is the greatest sum that the last counts have, however many
of them are taken (`isGreatest_concat`).  A history comes to its end as long as the functions that the
log has to name can be told (`CallTrace.CanName`); at the first jump where they cannot, the monitor
crashes.
-/
import Lockstep.Scripted.Session
import Lockstep.Proofs.Symbols.Lookup
import Mathlib.Algebra.Ring.Int.Defs
import Mathlib.Data.Int.Order.Basic
import Mathlib.Data.List.Induction
import Mathlib.Data.List.Infix
import Mathlib.Order.Bounds.Defs

namespace Lockstep

open Outcome

/-! ## Sums of the last counts -/

/-- The sums of the last so many of the counts, from none of them to all. -/
def suffixSums (counts : List Int) : Set Int := { n | ∃ last, last <:+ counts ∧ last.sum = n }

theorem isGreatest_nil : IsGreatest (suffixSums []) 0 := by
  refine ⟨⟨[], List.nil_suffix, rfl⟩, ?_⟩
  rintro _ ⟨last, ending, rfl⟩
  rw [List.suffix_nil.mp ending]
  exact Int.le_refl 0

/-- One more count takes the greatest sum up or down, but not below 0. -/
theorem isGreatest_concat {counts : List Int} {n : Int} (greatest : IsGreatest (suffixSums counts) n)
    (c : Int) : IsGreatest (suffixSums (counts ++ [c])) (max (n + c) 0) := by
  obtain ⟨⟨longest, ending, rfl⟩, bound⟩ := greatest
  -- the row of the greatest sum takes the new count in, unless having none at all is better then
  constructor
  · rcases Int.le_total (longest.sum + c) 0 with low | high
    · exact ⟨[], List.nil_suffix, (Int.max_eq_right low).symm⟩
    · refine ⟨longest ++ [c], List.suffix_concat_iff.mpr (.inr ⟨longest, rfl, ending⟩), ?_⟩
      rw [List.sum_append, List.sum_singleton, Int.max_eq_left high]
  · rintro _ ⟨last, ending', rfl⟩
    rcases List.suffix_concat_iff.mp ending' with rfl | ⟨last, rfl, within⟩
    · exact Int.le_max_right _ 0
    · have below : last.sum ≤ longest.sum := bound ⟨last, within, rfl⟩
      rw [List.sum_append, List.sum_singleton]
      exact Int.le_trans (Int.add_le_add_right below c) (Int.le_max_left _ 0)

/-! ## Jumps -/

/-- What a jump is to the trace of calls. -/
inductive Jump where
  | call (target : Addr)
  | ret (site : Addr)
  | other
deriving DecidableEq, Repr

namespace Jump

/-- A jump that links to register 1 is a call, and one that links to none and goes where register 1
points is a return. -/
def of (rd : Nat) (site target : Addr) (base ra : Word) : Jump :=
  if rd = 1 then call target else if rd = 0 ∧ base = ra then ret site else other

/-- By how much the calls get deeper. -/
def count : Jump → Int
  | call _ => 1
  | ret _ => -1
  | other => 0

/-- The address whose function the log names. -/
def named? : Jump → Option Addr
  | call target => some target
  | ret site => some site
  | other => none

end Jump

namespace CallTrace

/-- The search for the function that the log names for a jump, if it logs any, comes to its end. -/
def CanName (t : CallTrace) (j : Jump) : Prop :=
  t.logsCalls = true → ∀ a, j.named? = some a → t.Decides a

/-- The trace at another depth. -/
def atDepth (t : CallTrace) (n : Nat) : CallTrace := { t with depth := n }

/-- The trace after a jump. -/
def follow (t : CallTrace) (j : Jump) : CallTrace := t.atDepth (t.depth + j.count).toNat

variable {t u : CallTrace}

/-- A jump is followed if and only if the function that the log names for it can be told. -/
theorem ends_traceJump_iff {rd : Nat} {site target : Addr} {base ra : Word} :
    (Monitor.traceJump t rd site target base ra).Ends () u ↔
      t.CanName (.of rd site target base ra) ∧ u = t.follow (.of rd site target base ra) := by
  unfold Monitor.traceJump Jump.of
  split
  · have deeper : t.follow (.call target) = { t with depth := t.depth + 1 } := by
      simp only [follow, atDepth, Jump.count]
      congr 1
    rw [ends_call_iff, deeper]
    simp [CanName, Jump.named?]
  · split
    · have back : t.follow (.ret site) = t.left := by
        simp only [follow, atDepth, left, Jump.count]
        congr 1
        omega
      rw [ends_ret_iff, back]
      simp [CanName, Jump.named?]
    · have still : t.follow .other = t := by simp [follow, atDepth, Jump.count]
      rw [still]
      simp only [CanName, Jump.named?, reduceCtorEq, false_imp_iff, implies_true, true_and]
      exact ⟨fun ended => ended.state.symm, fun same => ⟨rfl, same.symm⟩⟩

end CallTrace

/-! ## Histories -/

/-- What the trace of calls depends on: jumps, the general registers and the steps. -/
inductive TraceInput where
  | jump (rd : Nat) (site target : Addr) (base : Word)
  | showRegisters (gpr : Registers)
  | beginStep
deriving DecidableEq

namespace TraceInput

/-- The site that is remembered from now on, or that none is. -/
def site? : TraceInput → Option (Option Addr)
  | jump _ site _ _ => some (some site)
  | showRegisters _ => none
  | beginStep => some none

def registers? : TraceInput → Option Registers
  | showRegisters gpr => some gpr
  | jump _ _ _ _ | beginStep => none

end TraceInput

namespace Monitor

variable {δ : Type} {m u v : Monitor δ} {t : CallTrace} {history : List TraceInput} {x : TraceInput}
  {j : Jump}

def handle (m : Monitor δ) : TraceInput → Outcome (Monitor δ) Unit
  | .jump rd site target base => m.jump rd site target base
  | .showRegisters gpr => .pure () (m.showRegisters gpr)
  | .beginStep => .pure () m.beginStep

def handleAll (m : Monitor δ) : List TraceInput → Outcome (Monitor δ) Unit
  | [] => .pure () m
  | x :: history => (m.handle x).bind fun _ m => m.handleAll history

theorem handleAll_concat (m : Monitor δ) (history : List TraceInput) (x : TraceInput) :
    m.handleAll (history ++ [x]) = (m.handleAll history).bind fun _ u => u.handle x := by
  induction history generalizing m with
  | nil =>
    exact (Outcome.bind_pure (m.handle x)).trans
      (Outcome.pure_bind () m fun _ u => u.handle x).symm
  | cons y history ih =>
    simp only [List.cons_append, handleAll, ih]
    rw [Outcome.bind_assoc]

/-- The site of the last jump since the latest new step. -/
def lastSite (m : Monitor δ) (history : List TraceInput) : Option Addr :=
  (history.reverse.findSome? TraceInput.site?).getD m.jumpMemo

/-- The registers that were shown last. -/
def lastRegisters (m : Monitor δ) (history : List TraceInput) : Registers :=
  (history.reverse.findSome? TraceInput.registers?).getD m.shown.gpr

theorem lastSite_concat (m : Monitor δ) (history : List TraceInput) (x : TraceInput) :
    m.lastSite (history ++ [x]) = x.site?.getD (m.lastSite history) := by
  rw [lastSite, List.reverse_append, List.reverse_singleton, List.singleton_append,
    List.findSome?_cons]
  cases x.site? <;> rfl

theorem lastRegisters_concat (m : Monitor δ) (history : List TraceInput) (x : TraceInput) :
    m.lastRegisters (history ++ [x]) = x.registers?.getD (m.lastRegisters history) := by
  rw [lastRegisters, List.reverse_append, List.reverse_singleton, List.singleton_append,
    List.findSome?_cons]
  cases x.registers? <;> rfl

/-- The jump that is accepted of an input behind a history: none if the last jump of the step was
from the same site. -/
def accepted? (m : Monitor δ) (history : List TraceInput) : TraceInput → Option Jump
  | .jump rd site target base =>
    if m.lastSite history = some site then none
    else some (.of rd site target base ((m.lastRegisters history).get .ra))
  | .showRegisters _ | .beginStep => none

/-- The jumps that are accepted of the inputs behind a history, in order. -/
def acceptedFrom (m : Monitor δ) (history : List TraceInput) : List TraceInput → List Jump
  | [] => []
  | x :: more => (m.accepted? history x).toList ++ m.acceptedFrom (history ++ [x]) more

/-- The jumps that are accepted of a history, in order. -/
def accepted (m : Monitor δ) (history : List TraceInput) : List Jump := m.acceptedFrom [] history

theorem acceptedFrom_concat (before history : List TraceInput) (x : TraceInput) :
    m.acceptedFrom before (history ++ [x]) =
      m.acceptedFrom before history ++ (m.accepted? (before ++ history) x).toList := by
  induction history generalizing before with
  | nil => simp [acceptedFrom]
  | cons y history ih => simp [acceptedFrom, ih]

theorem accepted_concat (m : Monitor δ) (history : List TraceInput) (x : TraceInput) :
    m.accepted (history ++ [x]) = m.accepted history ++ (m.accepted? history x).toList :=
  acceptedFrom_concat [] history x

/-! ## One input -/

/-- The site of a jump is remembered, whatever comes of the jump. -/
theorem jumpMemo_jump (m : Monitor δ) (rd : Nat) (site target : Addr) (base : Word) :
    (m.jump rd site target base).state.jumpMemo = some site := by
  unfold jump
  split
  · assumption
  · cases m.calls <;> rfl

/-- A jump is ignored if and only if the last one was from the same site. -/
theorem jump_eq_pure_iff {rd : Nat} {site target : Addr} {base : Word} :
    m.jump rd site target base = .pure () m ↔ m.jumpMemo = some site := by
  constructor
  · intro ignored
    have memo := jumpMemo_jump m rd site target base
    rwa [ignored] at memo
  · exact fun again => if_pos again

/-- A jump that is not ignored is followed, if the function that the log names for it can be
told. -/
theorem ends_jump_iff {rd : Nat} {site target : Addr} {base : Word} (known : m.calls = some t)
    (fresh : m.jumpMemo ≠ some site) :
    (m.jump rd site target base).Ends () v ↔
      t.CanName (.of rd site target base (m.shown.gpr.get .ra)) ∧
        v = { m with
          jumpMemo := some site
          calls := some (t.follow (.of rd site target base (m.shown.gpr.get .ra))) } := by
  simp only [jump, if_neg fresh, known]
  constructor
  · intro ended
    obtain ⟨u, followed, rfl⟩ := ended.of_within
    obtain ⟨told, rfl⟩ := CallTrace.ends_traceJump_iff.mp followed
    exact ⟨told, rfl⟩
  · rintro ⟨told, rfl⟩
    exact (CallTrace.ends_traceJump_iff.mpr ⟨told, rfl⟩).within _

/-- What a monitor has of a history that it has handled. -/
structure Stands (m : Monitor δ) (t : CallTrace) (history : List TraceInput) (u : Monitor δ) :
    Prop where
  /-- It remembers the site of the last jump of the step. -/
  site : u.jumpMemo = m.lastSite history
  /-- It shows the registers that were shown last. -/
  registers : u.shown.gpr = m.lastRegisters history
  /-- The depth is the greatest sum that the last counts have. -/
  depth : ∃ n : Nat, u.calls = some (t.atDepth n) ∧
    IsGreatest (suffixSums ((m.accepted history).map Jump.count)) n

theorem stands_nil (known : m.calls = some t) (outside : t.depth = 0) : m.Stands t [] m where
  site := rfl
  registers := rfl
  depth := ⟨0, by rw [known, CallTrace.atDepth, ← outside], isGreatest_nil⟩

/-- An input of which no jump is accepted is handled, and leaves the depth as it is. -/
theorem Stands.ignore (stands : m.Stands t history u) (ignored : m.accepted? history x = none) :
    ∃ v, u.handle x = .pure () v ∧ m.Stands t (history ++ [x]) v := by
  have same : m.accepted (history ++ [x]) = m.accepted history := by
    rw [accepted_concat, ignored, Option.toList_none, List.append_nil]
  have depth := same ▸ stands.depth
  cases x with
  | jump rd site target base =>
    have again : m.lastSite history = some site := by
      by_contra other
      rw [accepted?, if_neg other] at ignored
      cases ignored
    refine ⟨u, jump_eq_pure_iff.mpr (stands.site.trans again), ?_, ?_, depth⟩
    · rw [lastSite_concat, stands.site, again]
      rfl
    · rw [lastRegisters_concat, stands.registers]
      rfl
  | showRegisters gpr =>
    refine ⟨u.showRegisters gpr, rfl, ?_, ?_, depth⟩
    · rw [lastSite_concat]
      exact stands.site
    · rw [lastRegisters_concat]
      rfl
  | beginStep =>
    refine ⟨u.beginStep, rfl, ?_, ?_, depth⟩
    · rw [lastSite_concat]
      rfl
    · rw [lastRegisters_concat]
      exact stands.registers

/-- An input of which a jump is accepted is handled if the function of that jump can be told. -/
theorem Stands.accept (stands : m.Stands t history u) (taken : m.accepted? history x = some j) :
    ((∃ v, (u.handle x).Ends () v) ↔ t.CanName j) ∧
      ∀ v, (u.handle x).Ends () v → m.Stands t (history ++ [x]) v := by
  cases x with
  | showRegisters | beginStep => cases taken
  | jump rd site target base =>
    have fresh : m.lastSite history ≠ some site := by
      intro again
      rw [accepted?, if_pos again] at taken
      cases taken
    have which : .of rd site target base (u.shown.gpr.get .ra) = j := by
      rw [accepted?, if_neg fresh, ← stands.registers] at taken
      exact Option.some.inj taken
    obtain ⟨n, known, greatest⟩ := stands.depth
    have ends (v : Monitor δ) : (u.handle (.jump rd site target base)).Ends () v ↔
        t.CanName j ∧
          v = { u with jumpMemo := some site, calls := some (t.atDepth (n + j.count).toNat) } := by
      subst which
      exact ends_jump_iff known (stands.site ▸ fresh)
    refine ⟨⟨fun ⟨v, ended⟩ => ((ends v).mp ended).1, fun told => ⟨_, (ends _).mpr ⟨told, rfl⟩⟩⟩,
      fun v ended => ?_⟩
    obtain ⟨-, rfl⟩ := (ends v).mp ended
    refine ⟨?_, ?_, (n + j.count).toNat, rfl, ?_⟩
    · rw [lastSite_concat]
      rfl
    · rw [lastRegisters_concat]
      exact stands.registers
    · rw [accepted_concat, taken, List.map_append, Int.ofNat_toNat]
      exact isGreatest_concat greatest j.count

/-- An input is handled if the function of the jump that is accepted of it can be told, and the
monitor then has it of its history too. -/
theorem Stands.handle (stands : m.Stands t history u) (x : TraceInput) :
    ((∃ v, (u.handle x).Ends () v) ↔ ∀ j ∈ m.accepted? history x, t.CanName j) ∧
      ∀ v, (u.handle x).Ends () v → m.Stands t (history ++ [x]) v := by
  cases taken : m.accepted? history x with
  | none =>
    obtain ⟨v, handled, stands'⟩ := stands.ignore taken
    rw [handled]
    refine ⟨⟨fun _ => nofun, fun _ => ⟨v, .pure () v⟩⟩, ?_⟩
    rintro _ ⟨-, rfl⟩
    exact stands'
  | some j =>
    obtain ⟨ends, after⟩ := stands.accept taken
    refine ⟨ends.trans ⟨fun told => ?_, fun all => all j rfl⟩, after⟩
    rintro _ ⟨⟩
    exact told

/-! ## All inputs of a history -/

/-- A monitor that has handled a history has all of it. -/
theorem stands_of_handleAll (known : m.calls = some t) (outside : t.depth = 0)
    (ended : (m.handleAll history).Ends () u) : m.Stands t history u := by
  induction history using List.reverseRecOn generalizing u with
  | nil =>
    obtain ⟨-, rfl⟩ := ended
    exact stands_nil known outside
  | append_singleton history x ih =>
    rw [handleAll_concat] at ended
    obtain ⟨⟨⟩, v, before, last⟩ := ended.of_bind
    exact ((ih before).handle x).2 u last

/-- A history is handled if the functions of all accepted jumps can be told. -/
theorem ends_handleAll_iff (known : m.calls = some t) (outside : t.depth = 0)
    (history : List TraceInput) :
    (∃ u, (m.handleAll history).Ends () u) ↔ ∀ j ∈ m.accepted history, t.CanName j := by
  induction history using List.reverseRecOn with
  | nil => exact ⟨fun _ => nofun, fun _ => ⟨m, .pure () m⟩⟩
  | append_singleton history x ih =>
    simp only [handleAll_concat, accepted_concat, List.forall_mem_append, Option.mem_toList]
    constructor
    · rintro ⟨v, ended⟩
      obtain ⟨⟨⟩, u, before, last⟩ := ended.of_bind
      have step := ((stands_of_handleAll known outside before).handle x).1
      exact ⟨ih.mp ⟨u, before⟩, step.mp ⟨v, last⟩⟩
    · rintro ⟨all, told⟩
      obtain ⟨u, before⟩ := ih.mpr all
      have step := ((stands_of_handleAll known outside before).handle x).1
      obtain ⟨v, last⟩ := step.mpr told
      exact ⟨v, before.next last⟩

/-- What the trace of calls owes to a history of jumps, registers and steps. -/
structure CountsCalls (m : Monitor δ) (t : CallTrace) (history : List TraceInput) : Prop where
  /-- The registers are those that were shown last. -/
  shown : ∀ u, (m.handleAll history).Ends () u → u.shown.gpr = m.lastRegisters history
  /-- A jump is ignored exactly if the last one since the latest new step was from the same site. -/
  ignored : ∀ before rd site target base later u,
    history = before ++ .jump rd site target base :: later → (m.handleAll before).Ends () u →
      (u.jump rd site target base = .pure () u ↔ m.lastSite before = some site)
  /-- The history is handled to its end exactly if the log can name the functions of all accepted
  jumps. -/
  ends : (∃ u, (m.handleAll history).Ends () u) ↔ ∀ j ∈ m.accepted history, t.CanName j
  /-- The depth is the greatest sum of the last so many of the accepted counts. -/
  depth : ∀ u, (m.handleAll history).Ends () u →
    ∃ n : Nat, u.calls = some (t.atDepth n) ∧
      IsGreatest (suffixSums ((m.accepted history).map Jump.count)) n

/-- From depth 0, the depth after a history is the greatest sum of the last so many of the counts of
its accepted jumps, as far as the log can name their functions. -/
theorem depth_is_greatest_sum (known : m.calls = some t) (outside : t.depth = 0)
    (history : List TraceInput) : CountsCalls m t history where
  shown _ ended := (stands_of_handleAll known outside ended).registers
  ignored before rd site target base _ u _ ended := by
    rw [jump_eq_pure_iff, (stands_of_handleAll known outside ended).site]
  ends := ends_handleAll_iff known outside history
  depth _ ended := (stands_of_handleAll known outside ended).depth

/-- A return at depth 0 is lost; two calls from one site count once in a step and again in the
next. -/
theorem depth_is_greatest_sum_twice :
    let t := CallTrace.ofSymbols [] true
    let m := { Scripted.monitor [] with calls := some t }
    let history : List TraceInput :=
      [.jump 0 4 0 0, .jump 1 8 64 0, .jump 1 8 64 0, .beginStep, .jump 1 8 64 0]
    m.calls = some t ∧ t.depth = 0 ∧ CountsCalls m t history ∧
      (m.accepted history).map Jump.count = [-1, 1, 1] ∧
        (m.handleAll history).Ends () (m.handleAll history).state ∧
          (m.handleAll history).state.calls = some (t.atDepth 2) :=
  ⟨rfl, rfl, depth_is_greatest_sum rfl rfl _, rfl, ⟨rfl, rfl⟩, rfl⟩

/-- Two calls into the midst of a function whose end is past all numbers are accepted and count 1
each.  Where calls are logged, the monitor crashes at the first and stays at depth 0, which is not
the greatest sum. -/
theorem uncounted_past_last_number :
    let t := CallTrace.ofSymbols [⟨"w", 1, 0xffffffffffffffff⟩, ⟨"x", 2, 8⟩] true
    let m := { Scripted.monitor [] with calls := some t }
    let history : List TraceInput := [.jump 1 0 2 0, .jump 1 4 2 0]
    (m.accepted history).map Jump.count = [1, 1] ∧
      (m.handleAll history).result = .error (.functionEnd 1) ∧
        (m.handleAll history).state.calls = some (t.atDepth 0) ∧
          ¬ IsGreatest (suffixSums [1, 1]) 0 :=
  ⟨rfl, rfl, rfl, fun greatest => absurd (greatest.2 ⟨[1, 1], List.suffix_rfl, rfl⟩) (by decide)⟩

end Monitor

end Lockstep

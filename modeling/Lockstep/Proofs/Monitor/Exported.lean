/-
Lockstep.Proofs.Monitor.Exported — exported functions reach the monitor of the innermost open scope.

Which monitor an exported function reaches can be read off the script: it is that of the innermost
scope around the call.  So a script comes down to a row of deeds, each with the monitor that it is
about (`Script.deeds`), and doing the script, with its one place for the installed monitor that is
replaced and put back, is doing these deeds in order (`Board.flat_run`).  The numbers of a call are
taken as words modulo 2³² and as indices that no negative number is (`ExportedCall.effect`).
-/
import Lockstep.Monitor.Exported
import Lockstep.Proofs.Outcome
import Mathlib.Algebra.Group.Nat.Defs
import Mathlib.Algebra.Group.Int.Defs

namespace Lockstep

open Outcome

variable {δ α : Type}

namespace ExportedCall

/-! ## Numbers -/

/-- A signed number as a word is the number modulo 2³². -/
theorem word_eq (n : Int32) : word n = .ofInt n.toInt := by
  have signed : n.toInt = if 2 * n.toBitVec.toNat < 2 ^ 32 then (n.toBitVec.toNat : Int)
      else n.toBitVec.toNat - (2 ^ 32 : Nat) := n.toBitVec.toInt_eq_toNat_cond
  have bits : (word n).toNat = n.toBitVec.toNat := rfl
  have small := n.toBitVec.isLt
  rw [← UInt32.toNat_inj, UInt32.ofInt, UInt32.toNat_ofNat', bits, signed]
  split <;> omega

/-- A number that is not negative is its own index, and a negative one is an index past 2⁶³. -/
theorem index_eq (n : Int32) :
    (index n : Int) = if 0 ≤ n.toInt then n.toInt else 2 ^ 64 + n.toInt := by
  have extended : n.toInt64.toInt = n.toInt := n.toInt_toInt64
  have signed : n.toInt64.toInt = if 2 * n.toInt64.toBitVec.toNat < 2 ^ 64
      then (n.toInt64.toBitVec.toNat : Int)
      else n.toInt64.toBitVec.toNat - (2 ^ 64 : Nat) := n.toInt64.toBitVec.toInt_eq_toNat_cond
  have bits : index n = n.toInt64.toBitVec.toNat := rfl
  have small := n.toInt64.toBitVec.isLt
  rw [bits, ← extended, signed]
  split <;> split <;> omega

/-! ## Effects -/

variable [Peripheral δ]

/-- What the function does to a monitor, by the numbers that it is called with.  Words are taken
modulo 2³².  A control register has no negative index, and a jump with a negative register is neither
a call nor a return. -/
def effect (m : Monitor δ) : ExportedCall → Outcome (Monitor δ) Word
  | .fetch => m.fetch
  | .showPc pc => .pure 0 (m.showPc (.ofInt pc.toInt))
  | .showInst inst => .pure 0 (m.showInst (.ofInt inst.toInt))
  | .showRegisters gpr => .pure 0 (m.showRegisters ⟨gpr.map fun n => .ofInt n.toInt⟩)
  | .showCsr index value =>
    if 0 ≤ index.toInt then
      (m.showCsr index.toInt.toNat (.ofInt value.toInt)).map fun _ => 0
    else .logged (.noCsr (2 ^ 64 + index.toInt).toNat) 0 m
  | .read addr => m.read (.ofInt addr.toInt)
  | .write addr mask data =>
    (m.write (.ofInt addr.toInt) mask (.ofInt data.toInt)).map fun _ => 0
  | .ebreak => m.ebreak.map fun _ => 0
  | .invalid => m.invalid.map fun _ => 0
  | .interrupt no => .pure 0 (m.takeTrap (.ofInt no.toInt))
  | .jump rd site target base =>
    if 0 ≤ rd.toInt then
      (m.jump rd.toInt.toNat (.ofInt site.toInt) (.ofInt target.toInt) (.ofInt base.toInt)).map
        fun _ => 0
    else .pure 0 { m with jumpMemo := some (.ofInt site.toInt) }

omit [Peripheral δ] in
/-- There are fewer control registers than an index past 2⁶³. -/
theorem showCsr_of_far {i : Nat} (far : 2 ^ 63 ≤ i) (m : Monitor δ) (value : Word) :
    m.showCsr i value = .logged (.noCsr i) () m := by
  obtain ⟨past, rfl⟩ : ∃ past, i = past + 4 := ⟨i - 4, by omega⟩
  rfl

omit [Peripheral δ] in
/-- A jump with a register past all registers is only remembered. -/
theorem jump_of_far {rd : Nat} (far : 2 ^ 63 ≤ rd) (m : Monitor δ) (site target : Addr)
    (base : Word) : m.jump rd site target base = .pure () { m with jumpMemo := some site } := by
  have link : rd ≠ 1 := by omega
  have none : rd ≠ 0 := by omega
  unfold Monitor.jump
  split
  · next again => rw [← again]
  · simp only
    split
    · rfl
    · next t calls =>
      rw [Monitor.traceJump, if_neg link, if_neg fun h => none h.1]
      simp only [within, Outcome.pure, calls]

/-- The callback that an exported function makes has that effect. -/
theorem respond_callback (c : ExportedCall) (m : Monitor δ) :
    m.respond c.callback = c.effect m := by
  cases c with
  | showPc pc => simp only [callback, Monitor.respond, effect, word_eq]
  | showInst inst => simp only [callback, Monitor.respond, effect, word_eq]
  | interrupt no => simp only [callback, Monitor.respond, effect, word_eq]
  | showRegisters gpr =>
    have words : gpr.map word = gpr.map fun n => .ofInt n.toInt := by
      simp only [show word = fun n => .ofInt n.toInt from funext word_eq]
    simp only [callback, Monitor.respond, effect, words]
  | read addr => simp only [callback, Monitor.respond, effect, word_eq]
  | write addr mask data => simp only [callback, Monitor.respond, effect, word_eq]
  | showCsr i value =>
    have least := i.le_toInt
    have place := index_eq i
    simp only [callback, Monitor.respond, effect, word_eq]
    split at place
    · next positive =>
      have same : index i = i.toInt.toNat := by omega
      rw [if_pos positive, same]
    · next negative =>
      have same : index i = (2 ^ 64 + i.toInt).toNat := by omega
      rw [if_neg negative, same, showCsr_of_far (by omega)]
      rfl
  | jump rd site target base =>
    have least := rd.le_toInt
    have place := index_eq rd
    simp only [callback, Monitor.respond, effect, word_eq]
    split at place
    · next positive =>
      have same : index rd = rd.toInt.toNat := by omega
      rw [if_pos positive, same]
    · next negative =>
      rw [if_neg negative, jump_of_far (by omega)]
      rfl
  | fetch | ebreak | invalid => rfl

end ExportedCall

/-! ## Deeds -/

mutual

/-- The answers that are given, without the scopes that they are given in. -/
def ScriptAnswer.leaves : ScriptAnswer → List ScriptAnswer
  | .scope answers => ScriptAnswer.allLeaves answers
  | .none => [.none]
  | .word w => [.word w]
  | .busy => [.busy]
  | .reply r => [.reply r]

/-- The same for a row of answers. -/
def ScriptAnswer.allLeaves : List ScriptAnswer → List ScriptAnswer
  | [] => []
  | answer :: answers => answer.leaves ++ ScriptAnswer.allLeaves answers

end

/-- One thing that a script does, with the monitor that it is about. -/
inductive Deed (δ : Type) where
  /-- An exported function is called while the scope of this monitor is the innermost open one. -/
  | exported (innermost : Option Nat) (c : ExportedCall)
  /-- A monitor in use is asked for something. -/
  | refused
  /-- A monitor is asked for something directly; where there is none, the answer is `absent`. -/
  | direct (monitor : Nat) (absent : ScriptAnswer)
    (act : Monitor δ → Outcome (Monitor δ) ScriptAnswer)

section Run

variable [Peripheral δ]

namespace Deed

/-- What the deed does to a row of monitors. -/
def perform (ms : Array (Monitor δ)) : Deed δ → Outcome (Array (Monitor δ)) ScriptAnswer
  | exported innermost c =>
    ((Board.call ⟨ms, innermost⟩ c).map (Board.answer c)).within Board.monitors
  | refused => .pure .busy ms
  | direct i absent act => (Board.onMonitor ⟨ms, none⟩ i absent act).within Board.monitors

def performAll : List (Deed δ) → Array (Monitor δ) →
    Outcome (Array (Monitor δ)) (List ScriptAnswer)
  | [], ms => .pure [] ms
  | d :: ds, ms => (d.perform ms).bind fun answer ms => (performAll ds ms).map (answer :: ·)

theorem performAll_append (ds ds' : List (Deed δ)) (ms : Array (Monitor δ)) :
    performAll (ds ++ ds') ms =
      (performAll ds ms).bind fun as ms => (performAll ds' ms).map (as ++ ·) := by
  induction ds generalizing ms with
  | nil =>
    rw [List.nil_append, performAll, pure_bind]
    obtain ⟨result, state, events⟩ := performAll ds' ms
    cases result <;> rfl
  | cons d ds ih =>
    rw [List.cons_append, performAll, performAll, Outcome.bind_assoc]
    congr 1
    funext a ms
    rw [ih, map_bind, bind_map]
    congr 1
    funext as ms
    rw [map_map]
    rfl

/-- A monitor can be asked directly unless it is in use. -/
def ask (opened : List Nat) (i : Nat) (absent : ScriptAnswer)
    (act : Monitor δ → Outcome (Monitor δ) ScriptAnswer) : Deed δ :=
  if i ∈ opened then refused else direct i absent act

end Deed

open Deed (ask perform performAll)

/-- The deeds of a script in order, while these scopes are open, the innermost one first. -/
def Script.deeds : Script → List Nat → List (Deed δ)
  | .done, _ => []
  | .call c rest, opened => .exported opened.head? c :: rest.deeds opened
  | .scope i body rest, opened =>
    if i ∈ opened then .refused :: rest.deeds opened
    else body.deeds (i :: opened) ++ rest.deeds opened
  | .direct i c rest, opened =>
    ask opened i (Board.answer c 0) (fun m => (m.respond c.callback).map (Board.answer c)) ::
      rest.deeds opened
  | .bus i request rest, opened =>
    ask opened i (.reply .done) (fun m => ((m.bus.respond request).within m.withBus).map .reply) ::
      rest.deeds opened
  | .setRegister i r value rest, opened =>
    ask opened i .none (fun m => .pure .none (m.showRegister r value)) :: rest.deeds opened

namespace Board

variable {b : Board δ} {opened : List Nat}

omit [Peripheral δ] in
theorem installed_onMonitor (b : Board δ) (i : Nat) (absent : α)
    (act : Monitor δ → Outcome (Monitor δ) α) :
    (b.onMonitor i absent act).state.installed = b.installed := by
  unfold onMonitor
  split <;> rfl

theorem installed_call (b : Board δ) (c : ExportedCall) :
    (b.call c).state.installed = b.installed := by
  unfold call
  split
  · rfl
  · exact installed_onMonitor b _ 0 _

/-- A script that comes to its end leaves the monitor installed that was before it. -/
theorem installed_run {script : Script} {answers : List ScriptAnswer} {t : Board δ}
    (ended : (run script opened b).Ends answers t) : t.installed = b.installed := by
  induction script generalizing opened b answers t with
  | done => exact congrArg installed ended.state.symm
  | call c rest ih =>
    obtain ⟨w, u, called, followed⟩ := ended.of_bind
    obtain ⟨answers, followed, -⟩ := followed.of_map
    rw [ih followed, ← called.state, installed_call]
  | scope i body rest _ ih =>
    unfold run at ended
    split at ended
    · obtain ⟨answers, followed, -⟩ := ended.of_map
      exact ih followed
    · obtain ⟨inner, u, -, followed⟩ := ended.of_bind
      obtain ⟨answers, followed, -⟩ := followed.of_map
      -- the rest begins with the monitor put back
      have kept := ih followed
      exact kept
  | direct i c rest ih | bus i request rest ih | setRegister i r value rest ih =>
    unfold run at ended
    split at ended
    · obtain ⟨answers, followed, -⟩ := ended.of_map
      exact ih followed
    · obtain ⟨a, u, asked, followed⟩ := ended.of_bind
      obtain ⟨answers, followed, -⟩ := followed.of_map
      rw [ih followed, ← asked.state, installed_onMonitor]

/-! ## A script in a row -/

/-- The outcome of a script with the answers in a row, without their scopes, and with no place for an
installed monitor. -/
def flat (o : Outcome (Board δ) (List ScriptAnswer)) :
    Outcome (Array (Monitor δ)) (List ScriptAnswer) :=
  (o.map ScriptAnswer.allLeaves).within monitors

omit [Peripheral δ] in
/-- What an item does comes in front of what the rest of the script does. -/
theorem flat_bind {o : Outcome (Board δ) α} {g : α → ScriptAnswer}
    {f : Board δ → Outcome (Board δ) (List ScriptAnswer)}
    {f' : Array (Monitor δ) → Outcome (Array (Monitor δ)) (List ScriptAnswer)}
    (follows : flat (f o.state) = f' o.state.monitors) :
    flat (o.bind fun a b => (f b).map (g a :: ·)) =
      ((o.map fun a => (g a).leaves).within monitors).bind fun as ms =>
        (f' ms).map (as ++ ·) := by
  obtain ⟨result, state, events⟩ := o
  cases result with
  | error c => rfl
  | ok a =>
    have shown : f' state.monitors = flat (f state) := follows.symm
    simp only [Outcome.bind, Outcome.map, within, Except.map, shown]
    simp only [flat, Outcome.map, within]
    cases (f state).result <;> rfl

/-- An item with an answer of its own is one deed. -/
theorem flat_bind_leaf {o : Outcome (Board δ) α} {g : α → ScriptAnswer} {d : Deed δ}
    {ds : List (Deed δ)} {f : Board δ → Outcome (Board δ) (List ScriptAnswer)}
    (leaf : ∀ a, (g a).leaves = [g a])
    (here : d.perform b.monitors = (o.map g).within monitors)
    (follows : flat (f o.state) = performAll ds o.state.monitors) :
    flat (o.bind fun a b => (f b).map (g a :: ·)) = performAll (d :: ds) b.monitors := by
  rw [flat_bind follows, performAll, here]
  simp only [leaf]
  obtain ⟨result, state, events⟩ := o
  cases result <;> rfl

omit [Peripheral δ] in
theorem map_onMonitor {β : Type} (b : Board δ) (i : Nat) (absent : α)
    (act : Monitor δ → Outcome (Monitor δ) α) (g : α → β) :
    ((b.onMonitor i absent act).map g).within monitors =
      (onMonitor ⟨b.monitors, none⟩ i (g absent) fun m => (act m).map g).within monitors := by
  simp only [onMonitor]
  cases b.monitors[i]? <;> rfl

/-- A monitor that is asked directly is in use, or is the only one that the item is about. -/
theorem flat_ask {rest : Script} {act : Monitor δ → Outcome (Monitor δ) α} {g : α → ScriptAnswer}
    (i : Nat) (absent : α) (leaf : ∀ a, (g a).leaves = [g a])
    (follows : ∀ t : Board δ, t.installed = b.installed →
      flat (run rest opened t) = performAll (rest.deeds opened) t.monitors) :
    flat (if i ∈ opened then (run rest opened b).map (.busy :: ·)
      else (b.onMonitor i absent act).bind fun a b => (run rest opened b).map (g a :: ·)) =
      performAll (ask opened i (g absent) (fun m => (act m).map g) :: rest.deeds opened)
        b.monitors := by
  unfold ask
  split
  · rw [← pure_bind () b fun _ b => (run rest opened b).map (.busy :: ·)]
    exact flat_bind_leaf (g := fun _ => .busy) (fun _ => rfl) rfl (follows b rfl)
  · exact flat_bind_leaf leaf (map_onMonitor b i absent act g).symm
      (follows _ (installed_onMonitor b i absent act))

omit [Peripheral δ] in
theorem leaves_answer (c : ExportedCall) (w : Word) : (answer c w).leaves = [answer c w] := by
  unfold answer
  split <;> rfl

/-- Doing a script is doing its deeds in order, each on the monitor that it is about. -/
theorem flat_run {script : Script} (cell : b.installed = opened.head?) :
    flat (run script opened b) = performAll (script.deeds opened) b.monitors := by
  induction script generalizing opened b with
  | done => rfl
  | call c rest ih =>
    have here : (Deed.exported opened.head? c).perform b.monitors =
        ((b.call c).map (answer c)).within monitors := by
      rw [← cell]
      rfl
    exact flat_bind_leaf (leaves_answer c) here (ih ((installed_call b c).trans cell))
  | scope i body rest ihBody ih =>
    rw [run, Script.deeds]
    split
    · rw [← pure_bind () b fun _ b => (run rest opened b).map (.busy :: ·)]
      exact flat_bind_leaf (g := fun _ => .busy) (fun _ => rfl) rfl (ih cell)
    · rw [Deed.performAll_append, ← ihBody (b := ⟨b.monitors, some i⟩) rfl]
      exact flat_bind (g := .scope) (f := fun t => run rest opened ⟨t.monitors, b.installed⟩)
        (ih cell)
  | direct i c rest ih =>
    exact flat_ask i 0 (leaves_answer c) fun t same => ih (same.trans cell)
  | bus i request rest ih =>
    exact flat_ask i .done (g := .reply) (fun _ => rfl) fun t same => ih (same.trans cell)
  | setRegister i r value rest ih =>
    exact flat_ask i () (g := fun _ => .none) (fun _ => rfl) fun t same => ih (same.trans cell)

/-! ## Calls -/

/-- What a call of an exported function does to a row of monitors. -/
structure Reaches (c : ExportedCall) (ms : Array (Monitor δ)) : Prop where
  /-- It has its effect on the installed monitor, with the answer and the log of that monitor. -/
  reached : ∀ i m, ms[i]? = some m →
    call ⟨ms, some i⟩ c = (c.effect m).within fun m' => ⟨ms.setIfInBounds i m', some i⟩
  /-- It leaves all others as they are. -/
  spared : ∀ i j, j ≠ i → (call ⟨ms, some i⟩ c).state.monitors[j]? = ms[j]?
  /-- Where none is installed, it leaves a log entry and gives zero. -/
  stray : call ⟨ms, none⟩ c = .logged (.strayCallback c.callback.name) 0 ⟨ms, none⟩

theorem reaches (c : ExportedCall) (ms : Array (Monitor δ)) : Reaches c ms where
  reached i m found := by
    simp only [call, onMonitor, found, c.respond_callback]
    rfl
  spared i j apart := by
    simp only [call, onMonitor]
    cases ms[i]? with
    | none => rfl
    | some m => exact Array.getElem?_setIfInBounds_ne apart.symm
  stray := rfl

/-- Where the exported functions that a script calls go, while these scopes are open. -/
structure ReachesInnermost (script : Script) (opened : List Nat) (ms : Array (Monitor δ)) :
    Prop where
  /-- The script does its deeds in order, each call on the monitor of the innermost scope around
  it. -/
  course : flat (run script opened ⟨ms, opened.head?⟩) = performAll (script.deeds opened) ms
  /-- Each call has its effect on that monitor alone, or on none if no scope is open. -/
  calls : ∀ (c : ExportedCall) (ns : Array (Monitor δ)), Reaches c ns
  /-- In the end the monitor is installed that was before. -/
  restored : ∀ answers t, (run script opened ⟨ms, opened.head?⟩).Ends answers t →
    t.installed = opened.head?

/-- However scopes are nested and whatever is called inside and between them, each exported function
reaches the monitor of the innermost open scope, and only that one. -/
theorem callbacks_reach_innermost (script : Script) (opened : List Nat)
    (ms : Array (Monitor δ)) : ReachesInnermost script opened ms where
  course := flat_run rfl
  calls := reaches
  restored _ _ ended := installed_run ended

/-- Behind an inner scope the outer monitor is the target again, and behind that one there is none. -/
example (c : ExportedCall) :
    (Script.scope 0 (.call c (.scope 1 (.call c .done) (.call c .done))) (.call c .done)).deeds [] =
      ([.exported (some 0) c, .exported (some 1) c, .exported (some 0) c, .exported none c] :
        List (Deed δ)) := rfl

end Board

end Run

end Lockstep

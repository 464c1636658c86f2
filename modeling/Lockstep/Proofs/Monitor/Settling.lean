/-
Lockstep.Proofs.Monitor.Settling — what settling passes do to the bus.

A hardware model that settles makes the same fetches, reads and writes once more.  What it makes of
guest memory and of the pending skip does not depend on what the monitor remembers, and is the same
after a second pass (`settled_tellAll`).  The devices are the same, too, if the pass is repeatable;
otherwise the second pass reaches a device again (`second_pass_keeps_bus`).
-/
import Lockstep.Proofs.Monitor.Account
import Lockstep.Proofs.Monitor.Memos
import Lockstep.Proofs.Monitor.Window

namespace Lockstep

open Outcome

variable {δ : Type}

namespace Monitor

/-- What a monitor remembers of the bus traffic of the step. -/
def memos (m : Monitor δ) : Memos := ⟨m.fetchMemo.map (·.1), m.readMemo.map (·.1), m.writeMemo⟩

/-- A transfer that is remembered does not go through. -/
theorem access?_of_has {m : Monitor δ} {t : Transfer} (h : m.memos.has m.shown.pc t = true) :
    m.access? t.callback = none := by
  cases t with
  | fetch =>
    rw [Memos.has, decide_eq_true_iff] at h
    exact if_pos h
  | read addr =>
    rw [Memos.has, decide_eq_true_iff] at h
    exact if_pos h
  | write w =>
    rw [Memos.has, decide_eq_true_iff] at h
    rw [Transfer.callback, access?]
    split
    · rfl
    · exact if_pos h

/-- While the enable window is open, any other transfer does. -/
theorem access?_of_missed {m : Monitor δ} (opened : m.enabled = true) {t : Transfer}
    (h : m.memos.has m.shown.pc t = false) :
    m.access? t.callback = some (t.access m.shown.pc) := by
  cases t with
  | fetch =>
    rw [Memos.has, decide_eq_false_iff_not] at h
    exact if_neg h
  | read addr =>
    rw [Memos.has, decide_eq_false_iff_not] at h
    rw [Transfer.callback, access?, opened, Bool.not_true, Bool.false_and]
    exact if_neg h
  | write w =>
    rw [Memos.has, decide_eq_false_iff_not] at h
    rw [Transfer.callback, access?, opened]
    exact if_neg h

theorem memos_raise (m : Monitor δ) (o : OutOfBound) : (m.raise o).state.memos = m.memos := by
  unfold raise
  cases m.fault <;> rfl

section Access

variable {α : Type} {m : Monitor δ} {o : Outcome (Bus δ) (Except BusFault α)} {fallback : α}
  {remember : α → Monitor δ → Monitor δ}

theorem memos_access_of_fault {f : BusFault} (h : o.result = .ok (.error f)) :
    (m.access o fallback remember).state.memos = m.memos := by
  rw [access, bind_of_ok (o := o.within m.withBus) h]
  exact memos_raise _ _

end Access

variable [Peripheral δ]

theorem shown_callback (m : Monitor δ) (t : Transfer) :
    (m.respond t.callback).state.shown = m.shown := by
  refine congrArg Account.shown (?_ : (m.respond t.callback).state.account = m.account)
  cases t with
  | fetch => exact account_fetch m
  | read addr => exact account_read m addr
  | write w => exact account_write m _ _ _

/-- A transfer that is remembered changes nothing. -/
theorem respond_of_has {m : Monitor δ} (opened : m.enabled = true) {t : Transfer}
    (h : m.memos.has m.shown.pc t = true) : ∃ w, m.respond t.callback = .pure w m := by
  cases t with
  | fetch =>
    rw [Memos.has, decide_eq_true_iff] at h
    rcases m.fetch_cases with ⟨inst, _, same⟩ | ⟨missed, _⟩
    · exact ⟨inst, same⟩
    · exact absurd h missed
  | read addr =>
    rw [Memos.has, decide_eq_true_iff] at h
    rcases m.read_cases addr with ⟨data, _, same⟩ | ⟨missed, _⟩ | ⟨missed, _⟩
    · exact ⟨data, same⟩
    · exact absurd h missed
    · exact absurd h missed
  | write w =>
    rw [Memos.has, decide_eq_true_iff] at h
    rcases m.write_cases w.1 w.2.1 w.2.2 with ⟨closed, _⟩ | ⟨_, _, same⟩ | ⟨_, missed, _⟩
    · exact absurd opened (by simp [closed])
    · exact ⟨0, congrArg (fun o => o.map fun _ => (0 : Word)) same⟩
    · exact absurd h missed

/-- Any other fetch goes through. -/
theorem fetch_of_missed {m : Monitor δ} (h : m.fetchMemo.map (·.1) ≠ some m.shown.pc) :
    m.fetch = m.access (m.bus.read m.shown.pc) 0 fun inst n =>
      { n with fetchMemo := some (m.shown.pc, inst) } := by
  rcases m.fetch_cases with ⟨_, known, _⟩ | ⟨_, same⟩
  · exact absurd (by rw [known]; rfl) h
  · exact same

/-- So does any other read, while the enable window is open. -/
theorem read_of_missed {m : Monitor δ} (opened : m.enabled = true) {addr : Addr}
    (h : m.readMemo.map (·.1) ≠ some addr) :
    m.read addr = m.access (m.bus.read addr) 0 fun data n =>
      { n with readMemo := some (addr, data) } := by
  rcases m.read_cases addr with ⟨_, known, _⟩ | ⟨_, ignored, _⟩ | ⟨_, _, same⟩
  · exact absurd (by rw [known]; rfl) h
  · simp [opened] at ignored
  · exact same

/-- So does any other write. -/
theorem write_of_missed {m : Monitor δ} (opened : m.enabled = true) {w : Addr × UInt8 × Word}
    (h : m.writeMemo ≠ some w) :
    m.write w.1 w.2.1 w.2.2 =
      { m with writeMemo := some w, readMemo := m.readMemoAfterWrite w.1 }.access
        (m.bus.write w.1 w.2.1 w.2.2) () fun _ n => n := by
  rcases m.write_cases w.1 w.2.1 w.2.2 with ⟨closed, _⟩ | ⟨_, known, _⟩ | ⟨_, _, same⟩
  · simp [opened] at closed
  · exact absurd known h
  · exact same

/-- A transfer that goes through comes to its end unless it runs over the end of guest memory. -/
theorem isOk_of_missed {m : Monitor δ} (opened : m.enabled = true) {t : Transfer}
    (h : m.memos.has m.shown.pc t = false) :
    (m.respond t.callback).isOk = m.bus.endures (t.access m.shown.pc) := by
  cases t with
  | fetch =>
    rw [Memos.has, decide_eq_false_iff_not] at h
    rw [Transfer.callback, respond, fetch_of_missed h, isOk_access, Transfer.access, ← Bus.isOk_make,
      Bus.make, isOk_map]
  | read addr =>
    rw [Memos.has, decide_eq_false_iff_not] at h
    rw [Transfer.callback, respond, read_of_missed opened h, isOk_access, Transfer.access,
      ← Bus.isOk_make, Bus.make, isOk_map]
  | write w =>
    rw [Memos.has, decide_eq_false_iff_not] at h
    rw [Transfer.callback, respond, isOk_map, write_of_missed opened h, isOk_access,
      Transfer.access, ← Bus.isOk_make, Bus.make]

/-- What is remembered after a transfer that went through. -/
theorem memos_of_missed {m : Monitor δ} (opened : m.enabled = true) {t : Transfer}
    (h : m.memos.has m.shown.pc t = false) (ok : m.bus.endures (t.access m.shown.pc) = true) :
    (m.respond t.callback).state.memos = m.memos.note m.bus.answers m.shown.pc t := by
  cases t with
  | fetch =>
    rw [Memos.has, decide_eq_false_iff_not] at h
    have answer := Bus.result_read ok
    rw [Transfer.callback, respond, fetch_of_missed h, Memos.note]
    split at answer
    · next answers =>
      obtain ⟨inst, result⟩ := answer
      rw [state_access_of_ok result, if_pos answers]
      rfl
    · next silent => rw [memos_access_of_fault answer, if_neg silent]
  | read addr =>
    rw [Memos.has, decide_eq_false_iff_not] at h
    have answer := Bus.result_read ok
    rw [Transfer.callback, respond, read_of_missed opened h, Memos.note]
    split at answer
    · next answers =>
      obtain ⟨data, result⟩ := answer
      rw [state_access_of_ok result, if_pos answers]
      rfl
    · next silent => rw [memos_access_of_fault answer, if_neg silent]
  | write w =>
    rw [Memos.has, decide_eq_false_iff_not] at h
    rw [Transfer.callback, respond, Memos.note, if_neg h]
    refine Eq.trans (b := memos { m with
      writeMemo := some w, readMemo := m.readMemoAfterWrite w.1 }) ?_ ?_
    · rw [Outcome.map, write_of_missed opened h]
      exact look_access memos (fun _ _ => rfl) fun _ _ => rfl
    · simp only [memos, readMemoAfterWrite, Option.filter_map]
      rfl

/-! ## One transfer -/

/-- What is remembered has been done: making it again would come to its end, and it would change
neither guest memory nor the pending skip. -/
def Remembers (m : Monitor δ) : Prop :=
  ∀ t, m.memos.has m.shown.pc t = true →
    m.bus.endures (t.access m.shown.pc) = true ∧
    m.bus.memory.overlay (m.bus.overlayOf (t.access m.shown.pc)) = m.bus.memory ∧
    (m.bus.reaches (t.access m.shown.pc) = true → m.bus.skip = true)

omit [Peripheral δ] in
theorem remembers_beginStep (m : Monitor δ) : m.beginStep.Remembers := by
  rintro (_ | addr | w) known <;> simp [Memos.has, memos, beginStep] at known

/-- A monitor has gone through transfers, all of which came to their end, and is as they left it. -/
structure Settled (m : Monitor δ) (ts : List Transfer) (n : Monitor δ) : Prop where
  opened : n.enabled = true
  shown : n.shown = m.shown
  layout : m.bus.SameLayout n.bus
  remembers : n.Remembers
  memos : n.memos = Memos.noteAll m.bus.answers m.shown.pc m.memos ts
  memory : n.bus.memory =
    ts.foldl (fun memory t => memory.overlay (m.bus.overlayOf (t.access m.shown.pc))) m.bus.memory
  skip : n.bus.skip = (m.bus.skip || ts.any fun t => m.bus.reaches (t.access m.shown.pc))

theorem isOk_callback {m : Monitor δ} (opened : m.enabled = true) (sound : m.Remembers)
    (t : Transfer) :
    (m.respond t.callback).isOk = m.bus.endures (t.access m.shown.pc) := by
  rcases known : m.memos.has m.shown.pc t with _ | _
  · exact isOk_of_missed opened known
  · obtain ⟨w, same⟩ := respond_of_has opened known
    rw [same, (sound t known).1]
    rfl

omit [Peripheral δ] in
theorem overlayOf_of_ne_write (b : Bus δ) (pc : Addr) {t : Transfer} (h : ∀ w, t ≠ .write w) :
    b.overlayOf (t.access pc) = .empty := by
  cases t with
  | fetch | read => rfl
  | write w => exact absurd rfl (h w)

omit [Peripheral δ] in
/-- What was remembered before a transfer and still is leaves guest memory alone. -/
theorem overlay_of_has_note {m : Monitor δ} (sound : m.Remembers) {t u : Transfer} (ne : t ≠ u)
    (known : (m.memos.note m.bus.answers m.shown.pc t).has m.shown.pc u = true) :
    (m.bus.memory.overlay (m.bus.overlayOf (t.access m.shown.pc))).overlay
        (m.bus.overlayOf (u.access m.shown.pc)) =
      m.bus.memory.overlay (m.bus.overlayOf (t.access m.shown.pc)) := by
  cases u with
  | fetch | read => exact Memory.overlay_empty _
  | write w =>
    have other : ∀ w', t ≠ .write w' := by
      rintro w' rfl
      rw [Memos.has, decide_eq_true_iff, Memos.written_note] at known
      exact ne (congrArg Transfer.write (Option.some.inj known))
    rw [overlayOf_of_ne_write _ _ other, Memory.overlay_empty]
    exact (sound _ (Memos.has_of_has_note known ne)).2.1

/-- What a transfer does to guest memory and to the pending skip does not depend on whether it is
remembered. -/
theorem settled_callback {m : Monitor δ} (opened : m.enabled = true) (sound : m.Remembers)
    {t : Transfer} (ok : m.bus.endures (t.access m.shown.pc) = true) :
    m.Settled [t] (m.respond t.callback).state := by
  rcases known : m.memos.has m.shown.pc t with _ | _
  · have bus : (m.respond t.callback).state.bus = (m.bus.make (t.access m.shown.pc)).state := by
      rw [bus_respond, busAfter, access?_of_missed opened known, Option.elim_some]
    have shown := shown_callback m t
    have memos := memos_of_missed opened known ok
    have layout := m.sameLayout_respond t.callback
    have memory := Bus.memory_make ok
    have skip := Bus.skip_make m.bus (t.access m.shown.pc)
    rw [← bus] at memory skip
    refine ⟨(m.enabled_respond t.callback).trans opened, shown, layout, ?_, memos, memory,
      by simpa using skip⟩
    intro u known'
    rw [shown, memos] at known'
    rw [shown, layout.endures, layout.overlayOf, layout.reaches, memory, skip]
    by_cases same : t = u
    · subst same
      exact ⟨ok, Memory.overlay_overlay_self _ _, fun reached => by rw [reached, Bool.or_true]⟩
    · obtain ⟨endures, -, skipped⟩ := sound u (Memos.has_of_has_note known' same)
      refine ⟨endures, overlay_of_has_note sound same known', fun reached => ?_⟩
      rw [skipped reached, Bool.true_or]
  · obtain ⟨w, same⟩ := respond_of_has opened known
    rw [same]
    obtain ⟨-, memory, skip⟩ := sound t known
    refine ⟨opened, rfl, .refl _, sound, (Memos.note_of_has known).symm, memory.symm, ?_⟩
    rcases reached : m.bus.reaches (t.access m.shown.pc) with _ | _
    · simp [reached, Outcome.pure]
    · simp [Outcome.pure, skip reached]

/-! ## A pass of transfers -/

namespace Settled

variable {m n p : Monitor δ} {ts us : List Transfer}

omit [Peripheral δ] in
theorem nil (opened : m.enabled = true) (sound : m.Remembers) : m.Settled [] m :=
  ⟨opened, rfl, .refl _, sound, rfl, rfl, (Bool.or_false _).symm⟩

omit [Peripheral δ] in
theorem trans (h : m.Settled ts n) (h' : n.Settled us p) : m.Settled (ts ++ us) p where
  opened := h'.opened
  shown := h'.shown.trans h.shown
  layout := h.layout.trans h'.layout
  remembers := h'.remembers
  memos := by
    have answers : n.bus.answers = m.bus.answers := funext h.layout.answers
    rw [h'.memos, h.memos, Memos.noteAll_append, h.shown, answers]
  memory := by
    have overlays : n.bus.overlayOf = m.bus.overlayOf := funext h.layout.overlayOf
    rw [h'.memory, h.memory, List.foldl_append, h.shown, overlays]
  skip := by
    have reaches : n.bus.reaches = m.bus.reaches := funext h.layout.reaches
    rw [h'.skip, h.skip, List.any_append, Bool.or_assoc, h.shown, reaches]

end Settled

/-- None of the transfers would run over the end of guest memory. -/
def enduresAll (m : Monitor δ) (ts : List Transfer) : Bool :=
  ts.all fun t => m.bus.endures (t.access m.shown.pc)

omit [Peripheral δ] in
theorem Settled.enduresAll {m n : Monitor δ} {ts : List Transfer} (h : m.Settled ts n)
    (us : List Transfer) : n.enduresAll us = m.enduresAll us := by
  have endures : n.bus.endures = m.bus.endures := funext h.layout.endures
  rw [Monitor.enduresAll, Monitor.enduresAll, endures, h.shown]

end Monitor

namespace Program

variable [Peripheral δ]

open Monitor (Remembers Settled)

/-- The program of a pass. -/
abbrev pass (ts : List Transfer) : Program Unit := tellAll (ts.map Transfer.callback)

theorem isOk_pass {m : Monitor δ} (opened : m.enabled = true) (sound : m.Remembers)
    (ts : List Transfer) : ((pass ts).run m).isOk = m.enduresAll ts := by
  induction ts generalizing m with
  | nil => rfl
  | cons t ts ih =>
    have first := Monitor.isOk_callback opened sound t
    rw [pass, List.map_cons, isOk_tellAll_cons, first, Monitor.enduresAll, List.all_cons]
    rcases ok : m.bus.endures (t.access m.shown.pc) with _ | _
    · rfl
    · have settled := Monitor.settled_callback opened sound ok
      rw [Bool.true_and, Bool.true_and]
      exact (ih settled.opened settled.remembers).trans (settled.enduresAll ts)

theorem settled_pass {m : Monitor δ} (opened : m.enabled = true) (sound : m.Remembers)
    {ts : List Transfer} (ok : m.enduresAll ts = true) : m.Settled ts ((pass ts).run m).state := by
  induction ts generalizing m with
  | nil => exact .nil opened sound
  | cons t ts ih =>
    rw [Monitor.enduresAll, List.all_cons, Bool.and_eq_true_iff] at ok
    have settled := Monitor.settled_callback opened sound ok.1
    rw [pass, List.map_cons, state_tellAll_cons, Monitor.isOk_callback opened sound, ok.1, if_pos rfl]
    exact settled.trans
      (ih settled.opened settled.remembers ((settled.enduresAll ts).trans ok.2))

/-- A pass reaches a device where it misses a transfer with one. -/
theorem reachesDevice_pass {m : Monitor δ} (opened : m.enabled = true) (sound : m.Remembers)
    {ts : List Transfer} (ok : m.enduresAll ts = true) :
    ReachesDevice m (ts.map Transfer.callback) ↔
      ∃ t, m.bus.reaches (t.access m.shown.pc) = true ∧
        Memos.Missed m.bus.answers m.shown.pc m.memos ts t := by
  -- What is reached at a transfer of the pass, behind those before it.
  have there : ∀ before t after, ts = before ++ t :: after →
      ((pass before).run m).isOk = true ∧
      (((pass before).run m).state.reachesDevice t.callback = true ↔
        m.bus.reaches (t.access m.shown.pc) = true ∧
          (Memos.noteAll m.bus.answers m.shown.pc m.memos before).has m.shown.pc t = false) := by
    intro before t after split
    have ok' : m.enduresAll before = true := by
      rw [split, Monitor.enduresAll, List.all_append, Bool.and_eq_true_iff] at ok
      exact ok.1
    have settled := settled_pass opened sound ok'
    refine ⟨(isOk_pass opened sound before).trans ok', ?_⟩
    rw [← settled.memos, ← settled.shown, ← settled.layout.reaches, Monitor.reachesDevice]
    rcases known : ((pass before).run m).state.memos.has ((pass before).run m).state.shown.pc t
      with _ | _
    · rw [Monitor.access?_of_missed settled.opened known]
      simp
    · rw [Monitor.access?_of_has known]
      simp
  constructor
  · rintro ⟨before, c, after, split, ok', reached⟩
    obtain ⟨us, vs, rfl, rfl, rest⟩ := List.map_eq_append_iff.mp split
    obtain ⟨t, vs, rfl, rfl, rfl⟩ := List.map_eq_cons_iff.mp rest
    obtain ⟨device, missed⟩ := (there us t vs rfl).2.mp reached
    exact ⟨t, device, us, vs, rfl, missed⟩
  · rintro ⟨t, device, before, after, rfl, missed⟩
    obtain ⟨ok', reached⟩ := there before t after rfl
    exact ⟨before.map Transfer.callback, t.callback, after.map Transfer.callback, by simp, ok',
      reached.mpr ⟨device, missed⟩⟩

/-- A second pass leaves guest memory and the pending skip as the first one left them, and comes to
its end if that does.  It leaves the devices as they are, too, if the pass is repeatable, and
otherwise it makes a transfer with a device once more. -/
theorem second_pass_keeps_bus (m : Monitor δ) (opened : m.enabled = true) (ts : List Transfer) :
    ∀ once twice, (pass ts).run m.beginStep = once → (pass (ts ++ ts)).run m.beginStep = twice →
      twice.isOk = once.isOk ∧
      twice.state.bus.memory = once.state.bus.memory ∧
      twice.state.bus.skip = once.state.bus.skip ∧
      (Memos.Repeatable m.bus ts ∨ once.isOk = false →
        twice.state.bus.mappings = once.state.bus.mappings) ∧
      (once.isOk = true →
        (ReachesDevice once.state (ts.map Transfer.callback) ↔ ¬Memos.Repeatable m.bus ts)) := by
  rintro once twice rfl rfl
  have sound := m.remembers_beginStep
  rw [pass, List.map_append, isOk_tellAll_append, state_tellAll_append]
  rw [isOk_pass (m := m.beginStep) opened sound]
  rcases ok : m.beginStep.enduresAll ts with _ | _
  · simp
  · have first := settled_pass (m := m.beginStep) opened sound ok
    have ok' := (first.enduresAll ts).trans ok
    have second := settled_pass first.opened first.remembers ok'
    have whole := first.trans second
    have again : ReachesDevice ((pass ts).run m.beginStep).state (ts.map Transfer.callback) ↔
        ¬Memos.Repeatable m.bus ts := by
      have reaches : _ = m.bus.reaches := funext first.layout.reaches
      have answers : _ = m.bus.answers := funext first.layout.answers
      rw [reachesDevice_pass first.opened first.remembers ok', first.memos, reaches, answers,
        first.shown]
      exact Memos.missed_again_iff
    refine ⟨?_, ?_, ?_, ?_, fun _ => again⟩
    · rw [isOk_pass first.opened first.remembers, ok']
      rfl
    · rw [if_pos rfl, whole.memory, first.memory, List.foldl_append, Memory.foldl_overlay_self]
    · rw [if_pos rfl, whole.skip, first.skip, List.any_append, Bool.or_self]
    · rintro (repeatable | crashed)
      · rw [if_pos rfl]
        exact mappings_tellAll fun reached => again.mp reached repeatable
      · cases crashed

/-- A pass that reads the serial line and writes guest memory can be made twice. -/
theorem second_pass_keeps_bus_scripted :
    ((Scripted.monitor [97, 98]).setEnable true).enabled = true ∧
      ∀ once twice,
        (pass [.read Platform.serialBase, .write (Platform.memoryBase, 15, 1)]).run
          ((Scripted.monitor [97, 98]).setEnable true).beginStep = once →
        (pass ([.read Platform.serialBase, .write (Platform.memoryBase, 15, 1)] ++
            [.read Platform.serialBase, .write (Platform.memoryBase, 15, 1)])).run
          ((Scripted.monitor [97, 98]).setEnable true).beginStep = twice →
        twice.state.bus.memory = once.state.bus.memory ∧
          twice.state.bus.mappings = once.state.bus.mappings := by
  refine ⟨rfl, fun once twice h h' => ?_⟩
  obtain ⟨-, memory, -, devices, -⟩ := second_pass_keeps_bus _ rfl _ once twice h h'
  refine ⟨memory, devices (.inl ⟨?_, ?_, ?_⟩)⟩
  · intro w mem _ w' mem'
    simp only [List.mem_cons, reduceCtorEq, Transfer.write.injEq, List.not_mem_nil, or_false,
      false_or] at mem mem'
    rw [mem, mem']
  · intro addr mem _ addr' mem' _
    simp only [List.mem_cons, reduceCtorEq, Transfer.read.injEq, List.not_mem_nil, or_false] at mem mem'
    rw [mem, mem']
  · intro addr mem _ w before after split _ same
    have mem' : .write w ∈ before ++ Transfer.write w :: after := by simp
    rw [← split] at mem'
    simp only [List.mem_cons, reduceCtorEq, Transfer.read.injEq, Transfer.write.injEq,
      List.not_mem_nil, or_false, false_or] at mem mem'
    subst mem mem'
    exact absurd same (by decide)

/-- Two bytes sent to the serial line in one pass are sent again by a second pass. -/
theorem second_pass_sends_again :
    ((pass [.write (Platform.serialBase, 1, 97), .write (Platform.serialBase, 1, 98)]).run
        ((Scripted.monitor []).setEnable true).beginStep).state.bus.serialOutput = [97, 98] ∧
      ((pass ([.write (Platform.serialBase, 1, 97), .write (Platform.serialBase, 1, 98)] ++
          [.write (Platform.serialBase, 1, 97), .write (Platform.serialBase, 1, 98)])).run
        ((Scripted.monitor []).setEnable true).beginStep).state.bus.serialOutput =
          [97, 98, 97, 98] := by
  decide +kernel

end Program

end Lockstep

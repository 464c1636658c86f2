/-
Lockstep.Proofs.Session.Boot — how the start of a session comes out.

A start calls the reference model at three places and in one order: it initialises the model, copies
the image to it and forces the registers of the hardware model onto it.  `start_starts` tells how
far it comes: it may fail before any call, or with the copy of the image, or else the session is up
(`Starts`).  The image is as long as what was loaded, and it is copied as it stands in guest memory
after the reset.
-/
import Lockstep.Session.Boot
import Lockstep.Proofs.Reference.Replay
import Lockstep.Proofs.Session.Settle

namespace Lockstep.Session

open Outcome

variable {δ D R : Type} [ReferenceModel R]

/-- The reference model has to get `n` bytes once the image is loaded. -/
def IsImageSize (bus : Bus δ) (setup : Setup) (n : Nat) : Prop :=
  ∃ b, (loadImage bus setup.image).1 = .ok (n, b)

/-- How a start comes out, with the calls to the reference model up to there.  The image that is
copied to it has the size that `sized` asks for. -/
inductive Starts (model : R) (channel : Int) (sized : Nat → Prop) :
    Outcome (Rig δ D) (Except BootFailure (Session δ D R)) → Prop where
  /-- It fails or crashes before the reference model is brought up. -/
  | early (o : Outcome (Rig δ D) (Except BootFailure (Session δ D R)))
    (failed : ∀ s, o.result ≠ .ok (.ok s)) (other : ∀ f, o.result ≠ .ok (.error (.reference f)))
    (calls : o.referenceCalls = []) : Starts model channel sized o
  /-- The reference model refuses the image, or the copy of it crashes. -/
  | refused (o : Outcome (Rig δ D) (Except BootFailure (Session δ D R))) (image : List UInt8)
    (e : CopyFailure) (size : sized image.length)
    (view : o.state.monitor.bus.view? Platform.resetVector image.length = some image)
    (copy : ReferenceModel.copyMemory (ReferenceModel.init model channel) Platform.resetVector
      image .toReference = .error e)
    (result : o.result = match e with
      | .unsupported => .ok (.error (.reference .unsupportedCopy))
      | .crash c => .error c)
    (calls : o.referenceCalls =
      [.init channel, .copyMemory Platform.resetVector image .toReference]) :
    Starts model channel sized o
  /-- The session is up. -/
  | up (o : Outcome (Rig δ D) (Except BootFailure (Session δ D R))) (image : List UInt8) (m : R)
    (size : sized image.length)
    (view : o.state.monitor.bus.view? Platform.resetVector image.length = some image)
    (copy : ReferenceModel.copyMemory (ReferenceModel.init model channel) Platform.resetVector
      image .toReference = .ok m)
    (result : o.result =
      .ok (.ok (fresh o.state ((⟨m, .zero⟩ : Tracked R).force o.state.monitor.shown).1)))
    (calls : o.referenceCalls =
      [.init channel, .copyMemory Platform.resetVector image .toReference,
        .copyRegisters o.state.monitor.shown .toReference]) :
    Starts model channel sized o

namespace Starts

variable {model : R} {channel : Int} {sized : Nat → Prop}

/-- A start that fails for another reason than the reference model. -/
theorem of_failure {e : BootFailure} (other : ∀ f, e ≠ .reference f) (r : Rig δ D) :
    Starts model channel sized (.pure (.error e) r) :=
  .early _ (fun s => by simp [Outcome.pure]) (fun f => by simpa [Outcome.pure] using other f) rfl

/-- What calls the reference model only behind a beginning without calls starts like the rest. -/
theorem of_bind {α : Type} {o : Outcome (Rig δ D) α}
    {f : α → Rig δ D → Outcome (Rig δ D) (Except BootFailure (Session δ D R))}
    (silent : o.referenceCalls = [])
    (h : ∀ a, o.result = .ok a → Starts model channel sized (f a o.state)) :
    Starts model channel sized (o.bind f) := by
  rcases hr : o.result with c | a
  · rw [bind_of_error hr]
    exact .early _ (fun s => by simp) (fun f => by simp) silent
  · have next : (o.bind f).referenceCalls = (f a o.state).referenceCalls := by
      rw [Outcome.referenceCalls, collect_bind_of_ok _ hr, ← Outcome.referenceCalls, silent,
        List.nil_append]
    have same := bind_of_ok hr f
    have result : (o.bind f).result = (f a o.state).result := by rw [same]
    have state : (o.bind f).state = (f a o.state).state := by rw [same]
    cases h a hr with
    | early failed other calls =>
      exact .early _ (result ▸ failed) (result ▸ other) (next.trans calls)
    | refused image e size view copy res calls =>
      rw [← state] at view
      exact .refused _ image e size view copy (result.trans res) (next.trans calls)
    | up image m size view copy res calls =>
      rw [← state] at view res calls
      exact .up _ image m size view copy (result.trans res) (next.trans calls)

end Starts

/-! ## The reference model is brought up -/

omit [ReferenceModel R] in
theorem length_of_view? {b : Bus δ} {addr : Addr} {length : Nat} {image : List UInt8}
    (h : b.view? addr length = some image) : image.length = length := by
  unfold Bus.view? at h
  split at h
  · unfold Memory.slice? at h
    split at h
    · cases h
      simp
      omega
    · cases h
  · cases h

/-- The last part of a start: the reference model is brought up with the image. -/
def bootRest (model : R) (channel : Int) (size : Nat) :
    Action (Rig δ D) (Except BootFailure (Session δ D R)) := do
  match ← bootReference model channel size with
  | .error e => return .error e
  | .ok m =>
    Action.log .welcome
    return .ok (fresh (← Action.get) m)

theorem bootRest_starts (model : R) (channel : Int) {sized : Nat → Prop} {size : Nat}
    (h : sized size) (r : Rig δ D) :
    Starts model channel sized ((bootRest model channel size).run r) := by
  rw [bootRest, Action.run_bind]
  rcases viewed : r.monitor.bus.view? Platform.resetVector size with _ | image
  · have outside : (bootReference model channel size).run r =
        .pure (.error (.imageOutside size)) r := by
      simp only [Action.run, bootReference, viewed]
    rw [outside, Outcome.pure_bind]
    exact .of_failure (by simp) r
  · have length := length_of_view? viewed
    have same : r.monitor.bus.view? Platform.resetVector image.length = some image :=
      length ▸ viewed
    rcases copied : ReferenceModel.copyMemory (ReferenceModel.init model channel)
      Platform.resetVector image .toReference with e | m
    · refine .refused _ image e (length ▸ h) ?_ copied ?_ ?_ <;>
        cases e <;>
        simp only [Action.run, bootReference, viewed, Checker.start, Tracked.init,
          Tracked.copyMemory, copied, Except.map] <;>
        first
          | exact same
          | rfl
    · refine .up _ image m (length ▸ h) ?_ copied ?_ ?_ <;>
        simp only [Action.run, bootReference, viewed, Checker.start, Tracked.init,
          Tracked.copyMemory, copied, Except.map]
      · exact same
      · rfl
      · rfl

/-! ## The whole start -/

/-- Loading the image leaves log entries, and where it fails the reference model has no part in
it. -/
theorem bootImage_silent (image : Option SourceFile) (r : Rig δ D) :
    ((bootImage image).run r).referenceCalls = [] ∧
      ∀ f, ((bootImage image).run r).result ≠ .ok (.error (.reference f)) := by
  have causes : ∀ f, (loadImage r.monitor.bus image).1 ≠ .error (.reference f) := by
    intro f
    unfold loadImage
    split
    · simp
    · split
      · simp
      · split
        · simp
        · split <;> simp
  simp only [Action.run, bootImage]
  rcases loaded : loadImage r.monitor.bus image with ⟨e | ⟨size, b⟩, entries⟩
  · refine ⟨(LogsOnly.entries _ _ entries).collect_eq_nil fun _ => rfl, fun f h => causes f ?_⟩
    rw [loaded]
    simpa using h
  · exact ⟨(LogsOnly.entries _ _ entries).collect_eq_nil fun _ => rfl, fun f h => by simp at h⟩

/-- An image that was loaded has its size. -/
theorem isImageSize_of_bootImage {setup : Setup} {r : Rig δ D} {size : Nat}
    (h : ((bootImage setup.image).run r).result = .ok (.ok size)) :
    IsImageSize r.monitor.bus setup size := by
  simp only [Action.run, bootImage] at h
  rcases loaded : loadImage r.monitor.bus setup.image with ⟨e | ⟨size', b⟩, entries⟩
  · rw [loaded] at h
    cases h
  · rw [loaded] at h
    cases h
    exact ⟨b, congrArg Prod.fst loaded⟩

/-- The functions of the guest program are loaded without the reference model as well. -/
theorem bootSymbols_silent (elf : Option SourceFile) (logsCalls : Bool) (r : Rig δ D) :
    ((bootSymbols elf logsCalls).run r).referenceCalls = [] ∧
      ∀ f, ((bootSymbols elf logsCalls).run r).result ≠ .ok (.error (.reference f)) := by
  have causes : ∀ f, (loadSymbols elf logsCalls).1 ≠ .error (.reference f) := by
    intro f
    unfold loadSymbols
    split
    · simp
    · rename_i file
      intro h
      have same : (((CallTrace.ofElf file logsCalls).1.map some).mapError BootFailure.symbols) =
          .error (.reference f) := h
      generalize (CallTrace.ofElf file logsCalls).1 = loaded at same
      rcases loaded with e | t <;> cases same
  simp only [Action.run, bootSymbols]
  rcases loaded : loadSymbols elf logsCalls with ⟨e | calls, entries⟩
  · refine ⟨(LogsOnly.entries _ _ entries).collect_eq_nil fun _ => rfl, fun f h => causes f ?_⟩
    rw [loaded]
    simpa using h
  · exact ⟨(LogsOnly.entries _ _ entries).collect_eq_nil fun _ => rfl, fun f h => by simp at h⟩

variable [Peripheral δ] [Dut D]

omit [ReferenceModel R] in
theorem referenceCalls_bootReset (r : Rig δ D) : (bootReset.run r).referenceCalls = [] := by
  have reset : ∀ r : Rig δ D, (Rig.reset.run r).referenceCalls = [] := fun r =>
    Rig.collect_reset_eq_nil (fun _ => rfl) (fun _ => rfl) r
  have shown : (Rig.onMonitor (Action.modify fun m => m.showPc Platform.resetVector)).run r =
      .pure () (r.withMonitor (r.monitor.showPc Platform.resetVector)) := rfl
  rw [bootReset, Action.run_bind, shown, Outcome.pure_bind]
  exact reset _

theorem start_starts (dut : D) (model : R) (bus : Bus δ) (setup : Setup) :
    Starts model setup.channel (IsImageSize bus setup) (start dut model bus setup) := by
  let r : Rig δ D := ⟨dut, Monitor.new bus setup.memorySize⟩
  obtain ⟨silent, causes⟩ := bootImage_silent setup.image r
  refine Starts.of_bind silent fun loaded hl => ?_
  rcases loaded with e | size
  · exact .of_failure (fun f hf => causes f (hf ▸ hl)) _
  · obtain ⟨silent, causes⟩ := bootSymbols_silent setup.elf setup.logsCalls
      ((bootImage setup.image).run r).state
    refine Starts.of_bind silent fun symbols hs => ?_
    rcases symbols with e | ⟨⟩
    · exact .of_failure (fun f hf => causes f (hf ▸ hs)) _
    · exact Starts.of_bind (referenceCalls_bootReset _) fun _ _ =>
        bootRest_starts model setup.channel (isImageSize_of_bootImage hl) _

/-- A session that is up is fresh: the reference model has taken the image, as it stands in guest
memory, and the registers of the hardware model. -/
theorem up_of_start {dut : D} {model : R} {bus : Bus δ} {setup : Setup} {s : Session δ D R}
    (up : (start dut model bus setup).result = .ok (.ok s)) :
    ∃ image m, ReferenceModel.copyMemory (ReferenceModel.init model setup.channel)
        Platform.resetVector image .toReference = .ok m ∧
      s = fresh s.toRig ((⟨m, .zero⟩ : Tracked R).force s.dutState).1 ∧
      IsImageSize bus setup image.length ∧
      s.monitor.bus.view? Platform.resetVector image.length = some image ∧
      (start dut model bus setup).referenceCalls =
        [.init setup.channel, .copyMemory Platform.resetVector image .toReference,
          .copyRegisters s.dutState .toReference] := by
  cases start_starts dut model bus setup with
  | early failed _ _ => exact absurd up (failed s)
  | refused image e _ _ copy result _ =>
    rw [up] at result
    cases e <;> cases result
  | up image m size view copy result calls =>
    rw [up] at result
    cases result
    exact ⟨image, m, copy, rfl, size, view, calls⟩

/-- A session that is up has the rig that its start has left. -/
theorem toRig_of_start {dut : D} {model : R} {bus : Bus δ} {setup : Setup} {s : Session δ D R}
    (up : (start dut model bus setup).result = .ok (.ok s)) :
    s.toRig = (start dut model bus setup).state := by
  cases start_starts dut model bus setup with
  | early failed _ _ => exact absurd up (failed s)
  | refused image e _ _ copy result _ =>
    rw [up] at result
    cases e <;> cases result
  | up image m size view copy result calls =>
    rw [up] at result
    cases result
    rfl

/-- A session begins stopped, whichever evaluator it is given. -/
theorem status_of_start {dut : D} {model : R} {bus : Bus δ} {setup : Setup} {s : Session δ D R}
    (up : (start dut model bus setup).result = .ok (.ok s)) (e : Evaluator) :
    (s.withEvaluator e).status = .fresh := by
  obtain ⟨_, _, _, whole, _⟩ := up_of_start up
  rw [whole]
  rfl

/-! ## A start that succeeds -/

omit [ReferenceModel R] [Peripheral δ] [Dut D] in
theorem bootImage_ends {image : Option SourceFile} {r : Rig δ D} {n : Nat} {b : Bus δ}
    (loaded : (loadImage r.monitor.bus image).1 = .ok (n, b)) :
    ((bootImage image).run r).Ends (.ok n) (r.withMonitor (r.monitor.withBus b)) := by
  simp only [Action.run, bootImage]
  rcases whole : loadImage r.monitor.bus image with ⟨result, entries⟩
  rw [whole] at loaded
  cases loaded
  exact ⟨rfl, rfl⟩

/-- The monitor with a trace of calls, or without. -/
def tracing (m : Monitor δ) (calls : Option CallTrace) : Monitor δ := { m with calls := calls }

omit [ReferenceModel R] [Peripheral δ] [Dut D] in
theorem bootSymbols_ends {elf : Option SourceFile} {logsCalls : Bool} {calls : Option CallTrace}
    (symbols : (loadSymbols elf logsCalls).1 = .ok calls) (r : Rig δ D) :
    ((bootSymbols elf logsCalls).run r).Ends (.ok ())
      (r.withMonitor (tracing r.monitor calls)) := by
  simp only [Action.run, bootSymbols]
  rcases whole : loadSymbols elf logsCalls with ⟨result, entries⟩
  rw [whole] at symbols
  cases symbols
  exact ⟨rfl, rfl⟩

omit [Peripheral δ] [Dut D] in
theorem bootRest_ends {model m : R} {channel : Int} {r : Rig δ D} {n : Nat} {image : List UInt8}
    (viewed : r.monitor.bus.view? Platform.resetVector n = some image)
    (copied : ReferenceModel.copyMemory (ReferenceModel.init model channel) Platform.resetVector
      image .toReference = .ok m) :
    ((bootRest model channel n).run r).Ends
      (.ok (fresh r ((⟨m, .zero⟩ : Tracked R).force r.monitor.shown).1)) r := by
  have started : ((bootReference model channel n).run r).Ends
      (.ok ((⟨m, .zero⟩ : Tracked R).force r.monitor.shown).1) r := by
    simp only [Action.run, bootReference, viewed, Checker.start, Tracked.init,
      Tracked.copyMemory, copied, Except.map]
    exact ⟨rfl, rfl⟩
  have welcomed : ((Action.log .welcome).run r).Ends () r := .logged _ _ _
  have looked : (Action.get.run r).Ends r r := .pure _ _
  exact started.bind (welcomed.bind (looked.bind (.pure _ _)))

/-- A start whose image and symbols can be loaded, and whose reference model takes the image, is
up once the hardware model has been reset. -/
theorem start_ends {dut : D} {model m : R} {bus b : Bus δ} {setup : Setup} {n : Nat}
    {calls : Option CallTrace} {r : Rig δ D} {image : List UInt8}
    (loaded : (loadImage bus setup.image).1 = .ok (n, b))
    (symbols : (loadSymbols setup.elf setup.logsCalls).1 = .ok calls)
    (reset : (bootReset.run ⟨dut, tracing (Monitor.new b setup.memorySize) calls⟩).Ends () r)
    (viewed : r.monitor.bus.view? Platform.resetVector n = some image)
    (copied : ReferenceModel.copyMemory (ReferenceModel.init model setup.channel)
      Platform.resetVector image .toReference = .ok m) :
    (start dut model bus setup).Ends
      (.ok (fresh r ((⟨m, .zero⟩ : Tracked R).force r.monitor.shown).1)) r :=
  (bootImage_ends (r := ⟨dut, Monitor.new bus setup.memorySize⟩) loaded).bind
    ((bootSymbols_ends symbols _).bind (reset.bind (bootRest_ends viewed copied)))

/-- A session is up only if the symbols could be loaded. -/
theorem symbols_of_start {dut : D} {model : R} {bus : Bus δ} {setup : Setup} {s : Session δ D R}
    (up : (start dut model bus setup).result = .ok (.ok s)) :
    ∃ calls, (loadSymbols setup.elf setup.logsCalls).1 = .ok calls := by
  have ends : (start dut model bus setup).Ends (.ok s) (start dut model bus setup).state :=
    ⟨up, rfl⟩
  obtain ⟨loaded, r, _, ends⟩ := ends.of_bind
  rcases loaded with e | n
  · cases ends.result
  · obtain ⟨symbols, _, told, ends⟩ := ends.of_bind
    rcases symbols with e | ⟨⟩
    · cases ends.result
    · rcases whole : loadSymbols setup.elf setup.logsCalls with ⟨e | calls, entries⟩
      · have failed := told.result
        simp only [bootSymbols, whole] at failed
        cases failed
      · exact ⟨calls, rfl⟩

end Lockstep.Session

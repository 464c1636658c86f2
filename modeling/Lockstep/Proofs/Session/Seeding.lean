/-
Lockstep.Proofs.Session.Seeding — which part of what was loaded the reference model gets.

Loading writes the built-in program and, if there is one, the user's image on top of it
(`imageOverlay`, `loadImage_spec`).  The reference model gets the first bytes of guest memory: as
many as the built-in program claims for itself, or as many as the user's image has.  So it gets all
that was loaded unless the user's image is shorter than the built-in program, whose end is then
loaded but not copied (`covered_iff`).  What is copied is what guest memory holds when the first
step begins (`reference_seeded_iff`).
-/
import Lockstep.Proofs.Bus.Access
import Lockstep.Proofs.Session.History
import Lockstep.Scripted.Session

namespace Lockstep.Session

variable {δ D R : Type}

/-! ## What is loaded -/

/-- The bytes of the user's image, if one was asked for and can be read. -/
def userBytes? (image : Option SourceFile) : Option (List UInt8) := image.bind (·.contents?)

/-- What loading the image writes to guest memory, by offset: the built-in program, with the user's
image on top of it. -/
def imageOverlay (image : Option SourceFile) : Overlay :=
  match userBytes? image with
  | none => .ofBytes 0 Platform.builtinImage
  | some bytes => (Overlay.ofBytes 0 Platform.builtinImage).under (.ofBytes 0 bytes)

/-- A byte is loaded if it lies in the built-in program or in the user's image. -/
theorem isSome_imageOverlay (image : Option SourceFile) (i : Nat) :
    (imageOverlay image i).isSome = true ↔
      i < Platform.builtinImage.length ∨ ∃ bytes, userBytes? image = some bytes ∧
        i < bytes.length := by
  unfold imageOverlay
  rcases userBytes? image with _ | bytes
  · simp [Overlay.ofBytes]
  · simp [Overlay.ofBytes, Overlay.under, or_comm]

/-- What is loaded, and how many bytes the reference model has to get: those of the user's image,
or as many as the built-in program claims for itself. -/
structure Loads (b : Bus δ) (image : Option SourceFile) (n : Nat) (b' : Bus δ) : Prop where
  bus : b' = b.withMemory (b.memory.overlay (imageOverlay image))
  fits : Platform.builtinImage.length ≤ b.memory.size
  size : n = match userBytes? image with
    | none => min Platform.builtinImageSize b.memory.size
    | some bytes => bytes.length

theorem loadImage_spec {b b' : Bus δ} {image : Option SourceFile} {n : Nat}
    (h : (loadImage b image).1 = .ok (n, b')) : Loads b image n b' := by
  unfold loadImage at h
  split at h
  · cases h
  · rename_i b₁ builtin
    obtain ⟨_, fits, rfl⟩ := Bus.load_eq_ok_iff.mp builtin
    have base : Bus.offset Platform.resetVector = 0 := rfl
    rw [base, Nat.zero_add] at fits
    rcases image with _ | ⟨name, _ | bytes⟩
    · simp only [Except.ok.injEq, Prod.mk.injEq] at h
      obtain ⟨rfl, rfl⟩ := h
      exact ⟨rfl, fits, by simp [userBytes?, Bus.memorySize, Bus.withMemory]⟩
    · cases h
    · simp only at h
      split at h
      · cases h
      · rename_i b₂ user
        simp only [Except.ok.injEq, Prod.mk.injEq] at h
        obtain ⟨rfl, rfl⟩ := h
        obtain ⟨_, _, rfl⟩ := Bus.load_eq_ok_iff.mp user
        refine ⟨?_, fits, rfl⟩
        simp only [Bus.withMemory, base, Memory.overlay_overlay]
        rfl

/-- A user's image that fits and is at least as long as the built-in program is loaded in place of
it. -/
theorem loadImage_of_long {b : Bus δ} {image : Option SourceFile} {bytes : List UInt8}
    (user : userBytes? image = some bytes) (long : Platform.builtinImage.length ≤ bytes.length)
    (fits : bytes.length ≤ b.memory.size) :
    (loadImage b image).1 =
      .ok (bytes.length, b.withMemory (b.memory.overlay (.ofBytes 0 bytes))) := by
  have nonempty : 0 < Platform.builtinImage.length := by decide
  have base : Bus.offset Platform.resetVector = 0 := rfl
  have room (b' : Bus δ) (size : b'.memory.size = b.memory.size) {l : List UInt8}
      (short : l.length ≤ b.memory.size) :
      b'.load Platform.resetVector l = .ok (b'.withMemory (b'.memory.overlay (.ofBytes 0 l))) := by
    refine Bus.load_eq_ok_iff.mpr ⟨decide_eq_true ?_, ?_, rfl⟩
    · rw [base, size]
      omega
    · rw [base, size]
      omega
  rcases image with _ | ⟨name, contents⟩
  · cases user
  obtain rfl : contents = some bytes := user
  have first := room b rfl (Nat.le_trans long fits)
  have second := room (b.withMemory (b.memory.overlay (.ofBytes 0 Platform.builtinImage)))
    (Memory.size_overlay _ _) fits
  unfold loadImage
  simp only [first, second]
  simp only [Bus.withMemory, Memory.overlay_overlay, Overlay.ofBytes_under_of_le long]

/-! ## What is copied -/

/-- The reference model gets all that was loaded if no user's image was loaded, or one that is at
least as long as the built-in program. -/
theorem covered_iff {b b' : Bus δ} {image : Option SourceFile} {n : Nat}
    (h : Loads b image n b') :
    (∀ i, (imageOverlay image i).isSome = true → i < n) ↔
      ∀ bytes, userBytes? image = some bytes → Platform.builtinImage.length ≤ bytes.length := by
  have size := h.size
  simp only [isSome_imageOverlay]
  rcases user : userBytes? image with _ | bytes
  · -- The built-in program claims more than it needs, and guest memory holds what it needs.
    have claims : Platform.builtinImage.length ≤ Platform.builtinImageSize := by decide
    have fits := h.fits
    simp only [user] at size
    constructor
    · nofun
    · rintro - i (builtin | ⟨_, none, _⟩)
      · rw [size, Nat.lt_min]
        omega
      · cases none
  · simp only [user] at size
    subst size
    constructor
    · intro covered bytes' same
      cases same
      by_contra short
      exact Nat.lt_irrefl _ (covered bytes.length (.inl (by omega)))
    · rintro long i (builtin | ⟨_, same, inside⟩)
      · exact Nat.lt_of_lt_of_le builtin (long bytes rfl)
      · cases same
        exact inside

variable [ReferenceModel R] [Peripheral δ] [Dut D]

/-- What the reference model of a session has got: the first bytes of guest memory, in one copy to
the reset vector, as they stand when the first step begins.  All bytes that were loaded are among
them exactly if no user's image was loaded, or one that is at least as long as the built-in
program. -/
theorem reference_seeded_iff {dut : D} {model : R} {bus : Bus δ} {setup : Setup}
    {s : Session δ D R} (up : (start dut model bus setup).result = .ok (.ok s)) :
    ∃ (loaded : Bus δ) (copied : List UInt8),
      (loadImage bus setup.image).1 = .ok (copied.length, loaded) ∧
      loaded.memory = bus.memory.overlay (imageOverlay setup.image) ∧
      (start dut model bus setup).referenceCalls =
        [.init setup.channel, .copyMemory Platform.resetVector copied .toReference,
          .copyRegisters s.dutState .toReference] ∧
      (∀ e patience rs g, (steps patience rs (s.withEvaluator e)).head? = some g →
        ∀ i < copied.length,
          g.monitor.bus.memory.bytes[Bus.offset Platform.resetVector + i]? = copied[i]?) ∧
      ((∀ i, (imageOverlay setup.image i).isSome = true → i < copied.length) ↔
        ∀ bytes, userBytes? setup.image = some bytes →
          Platform.builtinImage.length ≤ bytes.length) := by
  obtain ⟨copied, m, _, _, ⟨loaded, sized⟩, viewed, calls⟩ := up_of_start up
  have loads := loadImage_spec sized
  refine ⟨loaded, copied, sized, congrArg Bus.memory loads.bus, calls, ?_, covered_iff loads⟩
  intro e patience rs g head i inside
  have same : g.monitor = (s.withEvaluator e).monitor := monitor_of_head head
  rw [same]
  exact (Bus.getElem?_of_view? viewed inside).symm

/-- A user's image as long as the built-in program covers it, and all bytes are copied. -/
theorem reference_seeded_iff_long :
    ∃ s₀, (Scripted.startWith (List.replicate 20 7)).result = .ok (.ok s₀) ∧
      ∃ copied, .copyMemory Platform.resetVector copied .toReference ∈
          (Scripted.startWith (List.replicate 20 7)).referenceCalls ∧
        ∀ i, (imageOverlay (Scripted.setupWith (List.replicate 20 7)).image i).isSome = true →
          i < copied.length := by
  obtain ⟨s₀, up⟩ : ∃ s₀, (Scripted.startWith (List.replicate 20 7)).result = .ok (.ok s₀) :=
    ⟨_, rfl⟩
  obtain ⟨_, copied, _, _, calls, _, covered⟩ := reference_seeded_iff up
  refine ⟨s₀, up, copied, ?_, covered.mpr ?_⟩
  · rw [Scripted.startWith, calls]
    simp
  · intro bytes user
    cases user
    decide

/-- With a user's image of one instruction the second instruction of the built-in program is loaded
behind it, but not copied. -/
theorem end_of_builtin_not_seeded :
    ∃ s₀, (Scripted.startWith [0x93, 0, 0, 0]).result = .ok (.ok s₀) ∧
      s₀.monitor.bus.memory.bytes[4]? = some 0x93 ∧
      ¬ ∃ copied, .copyMemory Platform.resetVector copied .toReference ∈
          (Scripted.startWith [0x93, 0, 0, 0]).referenceCalls ∧
        ∀ i, (imageOverlay (Scripted.setupWith [0x93, 0, 0, 0]).image i).isSome = true →
          i < copied.length := by
  obtain ⟨s₀, up, behind, calls⟩ : ∃ s₀,
      (Scripted.startWith [0x93, 0, 0, 0]).result = .ok (.ok s₀) ∧
        s₀.monitor.bus.memory.bytes[4]? = some 0x93 ∧
        (Scripted.startWith [0x93, 0, 0, 0]).referenceCalls =
          [.init Platform.defaultChannel,
            .copyMemory Platform.resetVector [0x93, 0, 0, 0] .toReference,
            .copyRegisters s₀.dutState .toReference] :=
    ⟨_, rfl, by decide +kernel, by decide +kernel⟩
  refine ⟨s₀, up, behind, ?_⟩
  rintro ⟨copied, mem, covered⟩
  rw [calls] at mem
  have short : copied = [0x93, 0, 0, 0] := by simpa using mem
  have loaded : (imageOverlay (Scripted.setupWith [0x93, 0, 0, 0]).image 4).isSome = true := by
    decide
  have inside := covered 4 loaded
  rw [short] at inside
  exact absurd inside (by decide)

end Lockstep.Session

/-
Lockstep.Proofs.Text.Replace — replacing chunk by chunk.

What is found at a place is replaced and passed over as a whole, so replacing goes on behind it as it
would at the beginning of a text, but for the character in front (`replaceFrom_found`).  With a finder
that does not look at that character, the parts of a text are therefore rewritten each on its own
(`Rewrites`), if nothing is found across their border.
-/
import Lockstep.Text.Replace
import Mathlib.Data.List.Forall2

namespace Lockstep.Text

variable {find? : Finder} {before : Option Char} {chunk new rest cs : List Char}

/-! ## Chunks -/

/-- The chunk is rewritten on its own, whatever stands behind it. -/
def Rewrites (f : List Char → List Char) (chunk new : List Char) : Prop :=
  ∀ rest, f (chunk ++ rest) = new ++ f rest

namespace Rewrites

variable {f g : List Char → List Char} {chunk' new' : List Char}

theorem append (h : Rewrites f chunk new) (h' : Rewrites f chunk' new') :
    Rewrites f (chunk ++ chunk') (new ++ new') := by
  intro rest
  rw [List.append_assoc, h, h', List.append_assoc]

theorem comp (h : Rewrites f chunk chunk') (h' : Rewrites g chunk' new) :
    Rewrites (g ∘ f) chunk new := by
  intro rest
  rw [Function.comp_apply, h, h', Function.comp_apply]

theorem whole (h : Rewrites f chunk new) (empty : f [] = []) : f chunk = new := by
  simpa [empty] using h []

/-- Texts with a separator between them are rewritten each on its own. -/
theorem intercalate {sep : List Char} {chunks news : List (List Char)}
    (between : Rewrites f sep sep) (each : List.Forall₂ (Rewrites f) chunks news) :
    Rewrites f (sep.intercalate chunks) (sep.intercalate news) := by
  induction each with
  | nil => exact fun _ => rfl
  | cons first others ih =>
    cases others with
    | nil => simpa using first
    | cons second others =>
      rw [List.intercalate_cons_cons, List.intercalate_cons_cons]
      exact (first.append between).append ih

end Rewrites

/-! ## One place -/

theorem replaceFrom_none {c : Char} (nothing : find? before (c :: cs) = none) :
    replaceFrom find? before 0 (c :: cs) = c :: replaceFrom find? (some c) 0 cs := by
  rw [replaceFrom, nothing]

theorem replaceFrom_skip (chunk : List Char) (before : Option Char) :
    replaceFrom find? before chunk.length (chunk ++ rest) =
      replaceFrom find? (chunk.getLast?.or before) 0 rest := by
  induction chunk generalizing before with
  | nil => rfl
  | cons c chunk ih =>
    rw [List.length_cons, List.cons_append, replaceFrom, ih, List.getLast?_cons]
    cases chunk.getLast? <;> rfl

/-- What is found is replaced, and what is behind it comes next. -/
theorem replaceFrom_found (long : chunk ≠ [])
    (found : find? before (chunk ++ rest) = some (chunk.length, new)) :
    replaceFrom find? before 0 (chunk ++ rest) =
      new ++ replaceFrom find? chunk.getLast? 0 rest := by
  obtain ⟨c, tail, rfl⟩ := List.exists_cons_of_ne_nil long
  rw [List.cons_append] at found ⊢
  rw [replaceFrom, found]
  dsimp only
  rw [List.length_cons, Nat.add_sub_cancel, replaceFrom_skip, List.getLast?_cons]
  cases tail.getLast? <;> rfl

/-- A chunk stays as it is if nothing is found at any place in it. -/
theorem replaceFrom_untouched
    (nothing : ∀ before back, back ≠ [] → back <:+ chunk → find? before (back ++ rest) = none) :
    replaceFrom find? before 0 (chunk ++ rest) =
      chunk ++ replaceFrom find? (chunk.getLast?.or before) 0 rest := by
  induction chunk generalizing before with
  | nil => rfl
  | cons c chunk ih =>
    have here : find? before (c :: (chunk ++ rest)) = none :=
      nothing before _ (List.cons_ne_nil c chunk) (List.suffix_refl _)
    have later := fun before back some inside =>
      nothing before back some (List.IsSuffix.trans inside (List.suffix_cons c chunk))
    rw [List.cons_append, replaceFrom_none here, ih later, List.getLast?_cons]
    cases chunk.getLast? <;> rfl

/-! ## Finders that look ahead only -/

/-- The finder does not look at the character in front. -/
def LooksAhead (find? : Finder) : Prop := ∀ before after cs, find? before cs = find? after cs

theorem LooksAhead.replaceFrom (ahead : LooksAhead find?) (before after : Option Char) (n : Nat) :
    replaceFrom find? before n cs = replaceFrom find? after n cs := by
  cases cs with
  | nil => cases n <;> rfl
  | cons c cs =>
    cases n with
    | zero => rw [Text.replaceFrom, Text.replaceFrom, ahead before after]
    | succ n => rw [Text.replaceFrom, Text.replaceFrom]

theorem replaceAll_found (ahead : LooksAhead find?) (long : chunk ≠ [])
    (found : ∀ rest, find? none (chunk ++ rest) = some (chunk.length, new)) :
    Rewrites (replaceAll find?) chunk new := by
  intro rest
  rw [replaceAll, replaceFrom_found long (found rest), ahead.replaceFrom _ none]
  rfl

theorem replaceAll_untouched (ahead : LooksAhead find?)
    (nothing : ∀ c ∈ chunk, ∀ cs, find? none (c :: cs) = none) :
    Rewrites (replaceAll find?) chunk chunk := by
  intro rest
  refine (replaceFrom_untouched fun before back some inside => ?_).trans
    (congrArg (chunk ++ ·) (ahead.replaceFrom _ none 0))
  obtain ⟨c, back, rfl⟩ := List.exists_cons_of_ne_nil some
  rw [ahead before none]
  exact nothing c (inside.subset List.mem_cons_self) _

end Lockstep.Text

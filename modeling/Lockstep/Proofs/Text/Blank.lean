/-
Lockstep.Proofs.Text.Blank — trimming and cutting texts at white space.

A trimmed text has no white space at either end (`Trimmed`).  Every text is its trimmed core with
white space around it, and there is but one such core (`exists_padding`, `trim_padded`), so what is
read off the trimmed text does not depend on the white space around it.  A cut leaves a word without
white space in front of the first blank (`cutAtBlank?_eq_some_iff`).
-/
import Lockstep.Text.Blank
import Mathlib.Data.List.DropRight

namespace Lockstep.Text

variable {cs before after : List Char}

/-- All characters are white space. -/
def Blank (cs : List Char) : Prop := ∀ c ∈ cs, isBlank c

/-- No character is white space. -/
def Solid (cs : List Char) : Prop := ∀ c ∈ cs, isBlank c = false

instance (cs : List Char) : Decidable (Blank cs) := List.decidableBAll _ cs

instance (cs : List Char) : Decidable (Solid cs) := List.decidableBAll _ cs

/-- There is no white space at either end. -/
structure Trimmed (cs : List Char) : Prop where
  front : ∀ c ∈ cs.head?, isBlank c = false
  back : ∀ c ∈ cs.getLast?, isBlank c = false

theorem Solid.trimmed (solid : Solid cs) : Trimmed cs where
  front c first := solid c (List.mem_of_mem_head? first)
  back c last := solid c (List.mem_of_mem_getLast? last)

/-- Whatever stands between two trimmed texts, the ends are theirs. -/
theorem Trimmed.around {ds : List Char} (first : Trimmed cs) (last : Trimmed ds) (front : cs ≠ [])
    (back : ds ≠ []) (between : List Char) : Trimmed (cs ++ between ++ ds) where
  front c inside := by
    rw [List.append_assoc, List.head?_append_of_ne_nil cs front] at inside
    exact first.front c inside
  back c inside := by
    rw [List.getLast?_append_of_ne_nil _ back] at inside
    exact last.back c inside

theorem blank_nil : Blank [] := List.forall_mem_nil _

theorem trimmed_nil : Trimmed [] := Solid.trimmed (List.forall_mem_nil _)

/-! ## Trimming -/

theorem trimFront_blank_append (blank : Blank before) : trimFront (before ++ cs) = trimFront cs :=
  List.dropWhile_append_of_pos blank

theorem trimBack_append_blank (blank : Blank after) : trimBack (cs ++ after) = trimBack cs := by
  rw [trimBack, trimBack, List.reverse_append,
    List.dropWhile_append_of_pos fun c inside => blank c (List.mem_reverse.mp inside)]

theorem Trimmed.trimFront_append (h : Trimmed cs) (some : cs ≠ []) :
    trimFront (cs ++ after) = cs ++ after := by
  cases cs with
  | nil => exact absurd rfl some
  | cons c cs => exact List.dropWhile_cons_of_neg (by simp [h.front c rfl])

theorem Trimmed.trimBack_eq (h : Trimmed cs) : trimBack cs = cs := by
  refine List.rdropWhile_eq_self_iff.mpr fun some => ?_
  simp [h.back _ (List.getLast?_eq_some_getLast some)]

/-- The trimmed core of a text is what is left of it without the white space around it. -/
theorem trim_padded (front : Blank before) (core : Trimmed cs) (back : Blank after) :
    trim (before ++ cs ++ after) = cs := by
  rw [trim, List.append_assoc, trimFront_blank_append front]
  by_cases empty : cs = []
  · subst empty
    rw [List.nil_append, trimFront, List.dropWhile_eq_nil_iff.mpr back]
    rfl
  · rw [core.trimFront_append empty, trimBack_append_blank back, core.trimBack_eq]

theorem Trimmed.trim_eq (h : Trimmed cs) : trim cs = cs := by
  simpa using trim_padded blank_nil h blank_nil

/-- White space behind the core is all that trimming at the end takes away. -/
theorem trim_append_back (cs : List Char) :
    trim cs ++ (trimFront cs).rtakeWhile isBlank = trimFront cs :=
  List.rdropWhile_append_rtakeWhile

theorem trimmed_trim (cs : List Char) : Trimmed (trim cs) where
  front c first := by
    -- what starts the core also starts the text without the white space in front
    have same : (trimFront cs).head? = some c := by
      rw [← trim_append_back, List.head?_append, first]
      rfl
    have stopped := List.head?_dropWhile_not isBlank cs
    rw [show cs.dropWhile isBlank = trimFront cs from rfl, same] at stopped
    exact Bool.eq_false_iff.mpr (by simpa using stopped)
  back c last := by
    have some : trim cs ≠ [] := by
      intro empty
      simp [empty] at last
    rw [← (List.getLast_eq_iff_getLast?_eq_some some).mpr last]
    exact Bool.eq_false_iff.mpr (List.rdropWhile_last_not isBlank (trimFront cs) some)

/-- Every text is its trimmed core with white space around it. -/
theorem exists_padding (cs : List Char) :
    ∃ before after, Blank before ∧ Blank after ∧ cs = before ++ trim cs ++ after := by
  refine ⟨cs.takeWhile isBlank, (trimFront cs).rtakeWhile isBlank, ?_, ?_, ?_⟩
  · exact fun c inside => List.mem_takeWhile_imp inside
  · exact fun c inside => List.mem_rtakeWhile_imp inside
  · rw [List.append_assoc, trim_append_back]
    exact List.takeWhile_append_dropWhile.symm

theorem trim_eq_nil_iff : trim cs = [] ↔ Blank cs := by
  constructor
  · intro empty
    obtain ⟨before, after, front, back, split⟩ := exists_padding cs
    rw [empty, List.append_nil] at split
    rw [split]
    exact fun c inside => (List.mem_append.mp inside).elim (front c) (back c)
  · intro blank
    simpa using trim_padded blank trimmed_nil blank_nil

/-! ## Cutting -/

theorem cutAtBlank?_eq_some_iff {word rest : List Char} :
    cutAtBlank? cs = some (word, rest) ↔
      ∃ c, isBlank c ∧ Solid word ∧ cs = word ++ c :: rest := by
  constructor
  · intro cut
    cases left : cs.dropWhile (fun c => !isBlank c) with
    | nil => simp [cutAtBlank?, left] at cut
    | cons c rest =>
      simp only [cutAtBlank?, left, Option.some.injEq, Prod.mk.injEq] at cut
      obtain ⟨rfl, rfl⟩ := cut
      have stopped := List.head?_dropWhile_not (fun c => !isBlank c) cs
      rw [left] at stopped
      refine ⟨c, by simpa using stopped, fun d inside => ?_, ?_⟩
      · simpa using List.mem_takeWhile_imp inside
      · rw [← left]
        exact List.takeWhile_append_dropWhile.symm
  · rintro ⟨c, blank, solid, rfl⟩
    have passed : ∀ d ∈ word, (!isBlank d) = true := fun d inside => by simp [solid d inside]
    rw [cutAtBlank?, List.dropWhile_append_of_pos passed, List.takeWhile_append_of_pos passed]
    simp [blank]

theorem cutAtBlank?_eq_none_iff : cutAtBlank? cs = none ↔ Solid cs := by
  cases left : cs.dropWhile (fun c => !isBlank c) with
  | nil =>
    have solid := List.dropWhile_eq_nil_iff.mp left
    simpa [cutAtBlank?, left, Solid] using solid
  | cons c rest =>
    have stays : ¬ Solid cs := by
      intro solid
      have gone : cs.dropWhile (fun c => !isBlank c) = [] :=
        List.dropWhile_eq_nil_iff.mpr fun d inside => by simp [solid d inside]
      rw [left] at gone
      cases gone
    simp [cutAtBlank?, left, stays]

end Lockstep.Text

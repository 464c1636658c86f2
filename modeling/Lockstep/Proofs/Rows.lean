/-
Lockstep.Proofs.Rows — a place in a row that has one more item at its end.

Histories, paths and other rows grow at their end, and what is said of each place of one is proved
by induction from there: a place is the last one, or it is a place in the row before
(`concat_eq_append_cons_iff`).
-/
import Mathlib.Data.List.Induction

namespace Lockstep

/-- A row with one more item is split at that item, or at one before it. -/
theorem concat_eq_append_cons_iff {α : Type} {row before later : List α} {last x : α} :
    row ++ [last] = before ++ x :: later ↔
      (row = before ∧ last = x ∧ later = []) ∨
        ∃ rest, later = rest ++ [last] ∧ row = before ++ x :: rest := by
  constructor
  · intro split
    rcases List.eq_nil_or_concat later with rfl | ⟨rest, last', rfl⟩
    · obtain ⟨rfl, same⟩ := List.append_inj' split rfl
      cases same
      exact .inl ⟨rfl, rfl, rfl⟩
    · rw [List.concat_eq_append, ← List.cons_append, ← List.append_assoc] at split
      obtain ⟨rfl, same⟩ := List.append_inj' split rfl
      cases same
      exact .inr ⟨rest, List.concat_eq_append, rfl⟩
  · rintro (⟨rfl, rfl, rfl⟩ | ⟨rest, rfl, rfl⟩)
    · rfl
    · rw [List.append_assoc, List.cons_append]

end Lockstep

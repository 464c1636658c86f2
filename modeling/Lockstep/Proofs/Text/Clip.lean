/-
Lockstep.Proofs.Text.Clip — a clipped text is the longest beginning of the text that fits.

The search for the place of the cut gives a place between two characters or an end of the text, in
range by its type, and the last one with so many bytes in front of it.  Places in a text and ways to
split it into two are the same thing (`String.Pos.Splits`), and of two places the later one has the
longer beginning in front of it.
-/
import Lockstep.Text.Clip
import Mathlib.Tactic.ByContra

namespace Lockstep.Text

variable {room : Nat} {s t : String}

/-! ## The place of the cut -/

theorem byteIdx_lastBoundary_le (s : String) (n : Nat) :
    (lastBoundary s n).offset.byteIdx ≤ n := by
  induction n with
  | zero => exact Nat.le_refl 0
  | succ n ih =>
    rw [lastBoundary]
    split
    · exact Nat.le_refl (n + 1)
    · exact Nat.le_succ_of_le ih

/-- No place behind the one that is found has so few bytes in front of it. -/
theorem le_lastBoundary {n : Nat} (p : s.Pos) (near : p.offset.byteIdx ≤ n) :
    p ≤ lastBoundary s n := by
  induction n with
  | zero =>
    rw [String.Pos.le_iff, String.Pos.Raw.le_iff]
    exact Nat.le_trans near (Nat.zero_le _)
  | succ n ih =>
    rw [lastBoundary]
    split
    · rw [String.Pos.le_iff, String.Pos.Raw.le_iff]
      exact near
    · next split =>
      refine ih ?_
      by_contra far
      have last : p.offset.byteIdx = n + 1 := Nat.le_antisymm near (Nat.lt_of_not_le far)
      have here : p.offset = ⟨n + 1⟩ := String.Pos.Raw.ext last
      exact split (here ▸ p.isValid)

/-! ## The text in front of it -/

/-- The longest beginning of a text that takes at most so many bytes. -/
structure LongestWithin (room : Nat) (s t : String) : Prop where
  begins : ∃ rest, s = t ++ rest
  fits : t.utf8ByteSize ≤ room
  longest : ∀ u rest, s = u ++ rest → u.utf8ByteSize ≤ room → ∃ more, t = u ++ more

/-- There is but one longest beginning. -/
theorem LongestWithin.unique {t' : String} (h : LongestWithin room s t)
    (h' : LongestWithin room s t') : t = t' := by
  obtain ⟨rest, split⟩ := h.begins
  obtain ⟨rest', split'⟩ := h'.begins
  obtain ⟨more, longer⟩ := h'.longest t rest split h.fits
  obtain ⟨more', longer'⟩ := h.longest t' rest' split' h'.fits
  have around : t = t ++ (more ++ more') := by rw [← String.append_assoc, ← longer, ← longer']
  obtain ⟨-, rfl⟩ := String.append_eq_empty_iff.mp (String.append_eq_left_iff.mp around.symm)
  rw [longer', String.append_empty]

/-- A text that fits is its own longest beginning. -/
theorem longestWithin_self (fits : s.utf8ByteSize ≤ room) : LongestWithin room s s :=
  ⟨⟨"", String.append_empty.symm⟩, fits, fun _ rest split _ => ⟨rest, split⟩⟩

theorem LongestWithin.eq_of_fits (h : LongestWithin room s t) (fits : s.utf8ByteSize ≤ room) :
    t = s :=
  h.unique (longestWithin_self fits)

/-- A clipped text is the longest beginning of the text that takes at most so many bytes. -/
theorem longestWithin_clip (room : Nat) (s : String) : LongestWithin room s (clip room s) := by
  by_cases fits : s.utf8ByteSize ≤ room
  · rw [clip, if_pos fits]
    exact longestWithin_self fits
  · rw [clip, if_neg fits]
    have cut := (lastBoundary s room).splits
    have size : (s.sliceTo (lastBoundary s room)).copy.utf8ByteSize =
        (lastBoundary s room).offset.byteIdx := by
      rw [cut.offset_eq_rawEndPos]
      rfl
    refine ⟨⟨_, cut.eq_append⟩, size ▸ byteIdx_lastBoundary_le s room, fun u rest split small => ?_⟩
    -- the place behind `u`
    have place : String.Pos.Raw.IsValid s u.rawEndPos :=
      String.Pos.Raw.isValid_iff_exists_append.mpr ⟨u, rest, split, rfl⟩
    have before := le_lastBoundary ⟨u.rawEndPos, place⟩ small
    have here : String.Pos.Splits (⟨u.rawEndPos, place⟩ : s.Pos) u rest := ⟨split, rfl⟩
    obtain ⟨more, longer, -⟩ := (here.le_iff_exists_eq_append cut).mp before
    exact ⟨more, longer⟩

/-- The second letter with an accent takes bytes four and five, so it is left out as a whole. -/
example : clip 4 "aéé" = "aé" := by
  decide +kernel

end Lockstep.Text

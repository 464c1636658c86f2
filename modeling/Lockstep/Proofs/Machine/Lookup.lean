/-
Lockstep.Proofs.Machine.Lookup — which names registers have.

A register is called by its calling-convention name, by `x` and its number, or by the name of a
control register, and the program counter `pc` (`BareName`); each of these can have one `$` in front,
and register 0 is `$0` (`Names`).  Looking a name up finds just what the name refers to
(`ofName?_eq_some_iff`), but for the text `0`, which no evaluator takes for a name; and the value
that is found is the one that the state holds there (`lookup?_eq_some_iff`).
-/
import Lockstep.Machine.Lookup
import Lockstep.Proofs.Text.Numeral

namespace Lockstep

namespace Register

theorem ofName?_eq_some_iff {s : String} {r : Register} : ofName? s = some r ↔ s = r.name := by
  have found : ∀ r : Register, ofName? r.name = some r := by decide
  refine ⟨fun h => ?_, fun h => h ▸ found r⟩
  have same := List.find?_some h
  exact (eq_of_beq same).symm

theorem bareName_of_ne {r : Register} (other : r ≠ zero) : r.bareName = r.name := if_neg other

theorem ofBareName?_eq_some_iff {s : String} {r : Register} :
    ofBareName? s = some r ↔ s = r.bareName := by
  have found : ∀ r : Register, ofBareName? r.bareName = some r := by decide
  refine ⟨fun h => ?_, fun h => h ▸ found r⟩
  have same := List.find?_some h
  exact (eq_of_beq same).symm

end Register

theorem Csr.ofName?_eq_some_iff {s : String} {c : Csr} : Csr.ofName? s = some c ↔ s = c.name := by
  refine ⟨fun h => ?_, fun h => ?_⟩
  · have same := List.find?_some h
    exact (eq_of_beq same).symm
  · subst h
    cases c <;> decide

namespace Source

/-! ## Names -/

/-- The text refers to the source, without a `$` in front. -/
inductive BareName : List Char → Source → Prop where
  | pc : BareName "pc".toList .pc
  | gpr {r : Register} (other : r ≠ Register.zero) : BareName r.name.toList (.gpr r)
  | numbered {digits : List Char} {n : Nat} (value : Text.Numeral 10 digits n) (inside : n < 16) :
    BareName ('x' :: digits) (.gpr ⟨n, inside⟩)
  | csr (c : Csr) : BareName c.name.toList (.csr c)

/-- The text refers to the source, with or without a `$` in front. -/
inductive Names : List Char → Source → Prop where
  | zero : Names "$0".toList (.gpr Register.zero)
  | bare {cs : List Char} {r : Source} (name : BareName cs r) : Names cs r
  | marked {cs : List Char} {r : Source} (name : BareName cs r) : Names ('$' :: cs) r

variable {cs : List Char} {r : Source}

/-- No name begins with a digit. -/
theorem BareName.starts (name : BareName cs r) :
    ∃ c rest, cs = c :: rest ∧ c.isDigit = false := by
  cases name with
  | pc => exact ⟨_, _, rfl, by decide⟩
  | gpr distinct =>
    have letters : ∀ g : Register, g ≠ Register.zero →
        g.name.toList.head?.any (fun c => !c.isDigit) := by
      decide
    obtain ⟨c, first, letter⟩ := (Option.any_eq_true _ _).mp (letters _ distinct)
    obtain ⟨rest, shape⟩ := List.head?_eq_some_iff.mp first
    exact ⟨c, rest, shape, by simpa using letter⟩
  | numbered value inside => exact ⟨_, _, rfl, by decide⟩
  | csr c => cases c <;> exact ⟨_, _, rfl, by decide⟩

theorem Names.starts (name : Names cs r) :
    ∃ c rest, cs = c :: rest ∧ c.isDigit = false := by
  cases name with
  | zero => exact ⟨_, _, rfl, by decide⟩
  | bare name => exact name.starts
  | marked name => exact ⟨_, _, rfl, by decide⟩

theorem BareName.solid (name : BareName cs r) : Text.Solid cs := by
  cases name with
  | pc => decide
  | gpr _ =>
    have solid : ∀ g : Register, Text.Solid g.name.toList := by decide
    exact solid _
  | numbered value _ => exact List.forall_mem_cons.mpr ⟨by decide, value.solid (by decide)⟩
  | csr c => cases c <;> decide

theorem Names.solid (name : Names cs r) : Text.Solid cs := by
  cases name with
  | zero => decide
  | bare name => exact name.solid
  | marked name => exact List.forall_mem_cons.mpr ⟨by decide, name.solid⟩

theorem ofNumber?_of_numeral {n : Nat} (value : Text.Numeral 10 cs n) (inside : n < 16) :
    ofNumber? cs = some (some (.gpr ⟨n, inside⟩)) := by
  have fits : n < numberLimit := Nat.lt_of_lt_of_le inside (by decide)
  rw [ofNumber?, (Text.readNat?_eq_some_iff (by decide)).mpr ⟨value, fits⟩, Option.map_some,
    Register.ofNat?, dif_pos inside]
  rfl

theorem numeral_of_ofNumber? (found : ofNumber? cs = some (some r)) :
    ∃ n, ∃ inside : n < 16, Text.Numeral 10 cs n ∧ r = .gpr ⟨n, inside⟩ := by
  obtain ⟨n, read, choice⟩ := Option.map_eq_some_iff.mp found
  obtain ⟨value, -⟩ := (Text.readNat?_eq_some_iff (by decide)).mp read
  obtain ⟨g, same, rfl⟩ := Option.map_eq_some_iff.mp choice
  rw [Register.ofNat?] at same
  split at same
  · next inside =>
    cases same
    exact ⟨n, inside, value, rfl⟩
  · cases same

/-- No calling-convention name starts with `x`. -/
theorem ofBareName?_numbered : Register.ofBareName? (String.ofList ('x' :: cs)) = none := by
  refine Option.eq_none_iff_forall_ne_some.mpr fun g found => ?_
  have apart : ∀ g : Register, g.bareName.toList.head? ≠ some 'x' := by decide
  refine apart g ?_
  rw [← Register.ofBareName?_eq_some_iff.mp found, String.toList_ofList]
  rfl

/-- Without its `$`, register 0 is `0`. -/
theorem ofBare?_eq_some_iff :
    ofBare? cs = some r ↔ (BareName cs r ∧ r ≠ .pc) ∨ (cs = ['0'] ∧ r = .gpr Register.zero) := by
  constructor
  · intro found
    rw [ofBare?.eq_def] at found
    cases named : Register.ofBareName? (String.ofList cs) with
    | some g =>
      simp only [named, Option.some.injEq] at found
      subst found
      have same := Register.ofBareName?_eq_some_iff.mp named
      have text : cs = g.bareName.toList := by rw [← same, String.toList_ofList]
      by_cases zero : g = Register.zero
      · subst zero
        exact .inr ⟨text, rfl⟩
      · rw [Register.bareName, if_neg zero] at text
        exact .inl ⟨text ▸ .gpr zero, by simp⟩
    | none =>
      simp only [named] at found
      split at found
      · next choice numbered =>
        subst found
        split at numbered
        · obtain ⟨n, inside, value, rfl⟩ := numeral_of_ofNumber? numbered
          exact .inl ⟨.numbered value inside, by simp⟩
        · cases numbered
      · obtain ⟨c, control, rfl⟩ := Option.map_eq_some_iff.mp found
        have text : cs = c.name.toList := by
          rw [← Csr.ofName?_eq_some_iff.mp control, String.toList_ofList]
        exact .inl ⟨text ▸ .csr c, by simp⟩
  · rintro (⟨name, other⟩ | ⟨rfl, rfl⟩)
    · cases name with
      | pc => exact absurd rfl other
      | gpr distinct =>
        have named := Register.ofBareName?_eq_some_iff.mpr (Register.bareName_of_ne distinct).symm
        simp only [ofBare?.eq_def, String.ofList_toList, named]
      | numbered value inside =>
        simp only [ofBare?, ofBareName?_numbered, ofNumber?_of_numeral value inside]
      | csr c => cases c <;> decide
    · decide

/-! ## Looking up -/

theorem ofName?_gpr :
    ∀ g : Register, g ≠ Register.zero → ofName? g.name = some (.gpr g) ∧
      ofName? (String.ofList ('$' :: g.name.toList)) = some (.gpr g) := by
  decide

/-- A number behind `x` is no name of the calling convention, so the number is looked up. -/
theorem ofName?_numbered {n : Nat} (value : Text.Numeral 10 cs n) (inside : n < 16) :
    ofName? (String.ofList ('x' :: cs)) = some (.gpr ⟨n, inside⟩) ∧
      ofName? (String.ofList ('$' :: 'x' :: cs)) = some (.gpr ⟨n, inside⟩) := by
  have found := ofBare?_eq_some_iff.mpr (.inl ⟨.numbered value inside, by simp⟩)
  have apart : ∀ g : Register,
      g.name.toList.head? ≠ some 'x' ∧ g.name.toList.take 2 ≠ ['$', 'x'] := by
    decide
  constructor
  · have unnamed : Register.ofName? (String.ofList ('x' :: cs)) = none := by
      refine Option.eq_none_iff_forall_ne_some.mpr fun g named => (apart g).1 ?_
      rw [← Register.ofName?_eq_some_iff.mp named, String.toList_ofList]
      rfl
    rw [ofName?, if_neg (by simp [← String.toList_inj]), unnamed, String.toList_ofList]
    exact found
  · have unnamed : Register.ofName? (String.ofList ('$' :: 'x' :: cs)) = none := by
      refine Option.eq_none_iff_forall_ne_some.mpr fun g named => (apart g).2 ?_
      rw [← Register.ofName?_eq_some_iff.mp named, String.toList_ofList]
      rfl
    rw [ofName?, if_neg (by simp [← String.toList_inj]), unnamed, String.toList_ofList]
    exact found

/-- Looking up a name finds what it refers to; of the other texts, only `0` is found. -/
theorem ofName?_eq_some_iff :
    ofName? (String.ofList cs) = some r ↔ Names cs r ∨ (cs = ['0'] ∧ r = .gpr Register.zero) := by
  constructor
  · intro found
    rw [ofName?] at found
    split at found
    · next counter =>
      cases found
      simp only [Bool.or_eq_true, beq_iff_eq, ← String.toList_inj, String.toList_ofList] at counter
      rcases counter with rfl | rfl
      · exact .inl (.bare .pc)
      · exact .inl (.marked .pc)
    · cases named : Register.ofName? (String.ofList cs) with
      | some g =>
        simp only [named, Option.some.injEq] at found
        subst found
        have text : cs = g.name.toList := by
          rw [← Register.ofName?_eq_some_iff.mp named, String.toList_ofList]
        by_cases zero : g = Register.zero
        · subst zero
          exact .inl (text ▸ .zero)
        · exact .inl (text ▸ .bare (.gpr zero))
      | none =>
        simp only [named, String.toList_ofList] at found
        split at found
        · next rest =>
          rcases ofBare?_eq_some_iff.mp found with ⟨name, -⟩ | ⟨rfl, rfl⟩
          · exact .inl (.marked name)
          · exact .inl .zero
        · exact (ofBare?_eq_some_iff.mp found).imp_left fun h => .bare h.1
  · rintro (name | ⟨rfl, rfl⟩)
    · cases name with
      | zero => decide
      | bare name =>
        cases name with
        | pc => decide
        | gpr distinct =>
          rw [String.ofList_toList]
          exact (ofName?_gpr _ distinct).1
        | numbered value inside => exact (ofName?_numbered value inside).1
        | csr c => cases c <;> decide
      | marked name =>
        cases name with
        | pc => decide
        | gpr distinct => exact (ofName?_gpr _ distinct).2
        | numbered value inside => exact (ofName?_numbered value inside).2
        | csr c => cases c <;> decide
    · decide

/-- No name refers to two sources. -/
theorem Names.unique {r' : Source} (name : Names cs r) (name' : Names cs r') : r = r' := by
  have found := ofName?_eq_some_iff.mpr (.inl name)
  rw [ofName?_eq_some_iff.mpr (.inl name')] at found
  exact (Option.some.inj found).symm

end Source

/-! ## Values -/

namespace MachineState

/-- A machine state holds a word where a name refers to. -/
inductive Holds (s : MachineState) : Source → Word → Prop where
  | pc : Holds s .pc s.pc
  | gpr (r : Register) : Holds s (.gpr r) (s.gpr.get r)
  | csr (c : Csr) : Holds s (.csr c) (s.csr.get c)

theorem holds_iff {s : MachineState} {r : Source} {v : Word} : s.Holds r v ↔ s.read r = v := by
  constructor
  · rintro (_ | _ | _) <;> rfl
  · rintro rfl
    cases r with
    | pc => exact .pc
    | gpr r => exact .gpr r
    | csr c => exact .csr c

/-- The look-up finds the words that names refer to, and behind `0` register 0. -/
theorem lookup?_eq_some_iff {s : MachineState} {cs : List Char} {v : Word} :
    s.lookup? (String.ofList cs) = some v ↔
      (∃ r, Source.Names cs r ∧ s.Holds r v) ∨ (cs = ['0'] ∧ s.gpr.get Register.zero = v) := by
  simp only [lookup?, Option.map_eq_some_iff, Source.ofName?_eq_some_iff, holds_iff, or_and_right,
    exists_or, and_assoc]
  refine or_congr_right ?_
  constructor
  · rintro ⟨_, zero, rfl, value⟩
    exact ⟨zero, value⟩
  · rintro ⟨zero, value⟩
    exact ⟨_, zero, rfl, value⟩

end MachineState

end Lockstep

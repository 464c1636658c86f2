/-
Lockstep.Proofs.Machine.Agreement — what the comparison of two machine states finds.

The registers that take part are ranked (`Field.rank`): the general ones by their number, and the
control registers after them in their own order.  The comparison finds the difference of lowest rank
(`firstMismatch?_eq_some_iff`), and it finds none exactly when the two states agree
(`firstMismatch?_eq_none_iff`).  The control registers are told from one another by reading and
setting them (`CsrFile.get_set`, `CsrFile.ext_get`).
-/
import Lockstep.Machine.State

namespace Lockstep

/-! ## The order of comparison -/

namespace Field

/-- The place of a register in the order of comparison. -/
def rank : Field → Nat
  | .gpr r => r.val
  | .csr c => 16 + c.index.val

theorem mem_all (f : Field) : f ∈ all := by
  cases f with
  | gpr r => exact List.mem_append_left _ (List.mem_map_of_mem (List.mem_finRange r))
  | csr c => exact List.mem_append_right _ (List.mem_map_of_mem (by cases c <;> decide))

/-- The list of compared registers goes up by rank. -/
theorem pairwise_rank_all : all.Pairwise fun f g => f.rank < g.rank := by decide

end Field

/-! ## Control registers -/

namespace CsrFile

theorem get_set (csr : CsrFile) (c c' : Csr) (w : Word) :
    (csr.set c w).get c' = if c = c' then w else csr.get c' := by
  show (csr.values.set c.index.val w c.index.isLt)[c'.index.val] =
    if c = c' then w else csr.values[c'.index.val]
  rw [Vector.getElem_set]
  cases c <;> cases c' <;> rfl

/-- Control registers are the same when none of them tells them apart. -/
theorem ext_get {a b : CsrFile} (h : ∀ c, a.get c = b.get c) : a = b := by
  obtain ⟨as⟩ := a
  obtain ⟨bs⟩ := b
  refine congrArg mk (Vector.ext fun i hi => ?_)
  match i, hi with
  | 0, _ => exact h .mstatus
  | 1, _ => exact h .mtvec
  | 2, _ => exact h .mepc
  | 3, _ => exact h .mcause

end CsrFile

/-! ## Agreement -/

namespace MachineState

/-- Two states agree in all registers that take part in the comparison. -/
def Agree (a b : MachineState) : Prop := a.gpr = b.gpr ∧ a.csr = b.csr

instance (a b : MachineState) : Decidable (Agree a b) :=
  inferInstanceAs (Decidable (a.gpr = b.gpr ∧ a.csr = b.csr))

theorem Agree.refl (a : MachineState) : Agree a a := ⟨rfl, rfl⟩

/-- States agree when no compared register tells them apart. -/
theorem agree_iff_get {a b : MachineState} : Agree a b ↔ ∀ f, a.get f = b.get f := by
  constructor
  · rintro ⟨hg, hc⟩ f
    cases f with
    | gpr r => exact congrArg (·.get r) hg
    | csr c => exact congrArg (·.get c) hc
  · intro h
    have hg : a.gpr.values = b.gpr.values := by
      apply Vector.ext
      exact fun i hi => h (.gpr ⟨i, hi⟩)
    have hc : a.csr = b.csr := CsrFile.ext_get fun c => h (.csr c)
    obtain ⟨⟨_⟩, _, _, _⟩ := a
    obtain ⟨⟨_⟩, _, _, _⟩ := b
    subst hg hc
    exact ⟨rfl, rfl⟩

/-- A report that names the first register, in the order of comparison, in which two states differ,
with the values on both sides. -/
structure FirstDifference (dut reference : MachineState) (m : Mismatch) : Prop where
  dut_eq : m.dut = dut.get m.field
  reference_eq : m.reference = reference.get m.field
  differ : dut.get m.field ≠ reference.get m.field
  before : ∀ f : Field, f.rank < m.field.rank → dut.get f = reference.get f

theorem firstMismatch?_eq_none_iff {a b : MachineState} :
    a.firstMismatch? b = none ↔ Agree a b := by
  rw [firstMismatch?, Option.map_eq_none_iff, List.find?_eq_none, agree_iff_get]
  constructor
  · intro h f
    simpa using h f (Field.mem_all f)
  · intro h f _
    simpa using h f

theorem firstMismatch?_eq_some_iff {a b : MachineState} {m : Mismatch} :
    a.firstMismatch? b = some m ↔ FirstDifference a b m := by
  rw [firstMismatch?, Option.map_eq_some_iff]
  constructor
  · rintro ⟨f, found, rfl⟩
    obtain ⟨differ, passed, rest, split, equal⟩ := List.find?_eq_some_iff_append.mp found
    have sorted := Field.pairwise_rank_all
    rw [split, List.pairwise_append, List.pairwise_cons] at sorted
    refine ⟨rfl, rfl, by simpa using differ, fun g lower => ?_⟩
    -- A register of lower rank stands in front of `f`, among those that were passed over.
    have placed : g ∈ passed ++ f :: rest := split ▸ Field.mem_all g
    rcases List.mem_append.mp placed with before | after
    · simpa using equal g before
    · rcases List.mem_cons.mp after with rfl | later
      · exact absurd lower (Nat.lt_irrefl _)
      · exact absurd lower (Nat.lt_asymm (sorted.2.1.1 g later))
  · intro h
    obtain ⟨passed, rest, split⟩ := List.append_of_mem (Field.mem_all m.field)
    have sorted := Field.pairwise_rank_all
    rw [split, List.pairwise_append] at sorted
    refine ⟨m.field, List.find?_eq_some_iff_append.mpr ⟨?_, passed, rest, split, ?_⟩, ?_⟩
    · simpa using h.differ
    · intro g before
      simpa using h.before g (sorted.2.2 g before m.field List.mem_cons_self)
    · rw [← h.dut_eq, ← h.reference_eq]

end MachineState

end Lockstep

/-
Lockstep.Proofs.Symbols.Lookup — which function an address belongs to, and when a search can tell.

A function holds its start and the addresses from there on up to its size
(`FunctionSymbol.Holds`), whatever number its end is.  An address has the name of the first function
of the table that holds it (`CallTrace.nameOf`).  A search goes through the table up to that function
(`FunctionSymbol.Met`), and each function that it meets has to decide whether the address is its own:
it can if it starts there, or if its end is a 64-bit number (`FunctionSymbol.Decides`).  So a search
finds the name if all that it meets decide, and crashes at the first that does not
(`FunctionSymbol.StopsAt`).  Calls and returns are followed as far as their names are found, or need
not be (`CallTrace.FollowsExactly`).
-/
import Lockstep.Symbols.Table
import Lockstep.Proofs.Outcome

namespace Lockstep

namespace FunctionSymbol

/-! ## One function -/

/-- The address is the start of the function, or lies between its start and its end. -/
def Holds (f : FunctionSymbol) (a : Addr) : Prop :=
  a = f.addr ∨ (f.addr.toNat ≤ a.toNat ∧ a.toNat < f.addr.toNat + f.size.toNat)

instance (f : FunctionSymbol) (a : Addr) : Decidable (f.Holds a) :=
  inferInstanceAs (Decidable (_ ∨ _))

/-- It can be told whether the function holds the address: it starts there, or its end is a 64-bit
number. -/
def Decides (f : FunctionSymbol) (a : Addr) : Prop := a = f.addr ∨ f.limit < UInt64.size

variable {f g : FunctionSymbol} {fs : List FunctionSymbol} {a : Addr}

theorem covers_of_decides (told : f.Decides a) : f.covers a = .ok (decide (f.Holds a)) := by
  by_cases start : a = f.addr
  · simp [covers, Holds, start]
  · have fits : f.limit < UInt64.size := told.resolve_left start
    have between : f.Holds a ↔ f.addr ≤ a ∧ a.toNat < f.limit := by
      rw [Holds, UInt32.le_iff_toNat_le, limit]
      exact or_iff_right start
    rw [covers, if_neg start, if_pos fits]
    simp [between]

theorem covers_of_not_decides (untold : ¬ f.Decides a) :
    f.covers a = .error (.functionEnd f.addr) := by
  obtain ⟨start, past⟩ := not_or.mp untold
  rw [covers, if_neg start, if_neg past]

/-! ## A table of functions -/

/-- A search of the table for the address gets to the function: none of those in front of it holds
the address. -/
def Met (a : Addr) (fs : List FunctionSymbol) (f : FunctionSymbol) : Prop :=
  ∃ front back, fs = front ++ f :: back ∧ ∀ g ∈ front, ¬ g.Holds a

/-- The function is the first that a search gets to and that cannot decide. -/
def StopsAt (a : Addr) (fs : List FunctionSymbol) (f : FunctionSymbol) : Prop :=
  ∃ front back, fs = front ++ f :: back ∧ (∀ g ∈ front, ¬ g.Holds a ∧ g.Decides a) ∧ ¬ f.Decides a

/-- A search gets to the first function, and past it if that does not hold the address. -/
theorem met_cons : Met a (g :: fs) f ↔ f = g ∨ (¬ g.Holds a ∧ Met a fs f) := by
  constructor
  · rintro ⟨front, back, split, apart⟩
    rcases List.cons_eq_append_iff.mp split with ⟨rfl, here⟩ | ⟨front, rfl, later⟩
    · exact .inl (List.cons.inj here).1
    · exact .inr ⟨apart g List.mem_cons_self, front, back, later,
        fun h mem => apart h (List.mem_cons_of_mem g mem)⟩
  · rintro (rfl | ⟨apart, front, back, rfl, before⟩)
    · exact ⟨[], fs, rfl, by simp⟩
    · exact ⟨g :: front, back, rfl, by simpa [apart] using before⟩

theorem StopsAt.cons (apart : ¬ g.Holds a) (told : g.Decides a) (stops : StopsAt a fs f) :
    StopsAt a (g :: fs) f := by
  obtain ⟨front, back, rfl, passed, untold⟩ := stops
  exact ⟨g :: front, back, rfl, by simpa [apart, told] using passed, untold⟩

/-- A search of functions that all decide finds the first one that holds the address. -/
theorem firstCovering?_of_decides (told : ∀ f, Met a fs f → f.Decides a) :
    firstCovering? a fs = .ok (fs.find? fun f => f.Holds a) := by
  induction fs with
  | nil => rfl
  | cons g fs ih =>
    have here : g.Decides a := told g (met_cons.mpr (.inl rfl))
    rw [firstCovering?, covers_of_decides here]
    by_cases held : g.Holds a
    · simp [held]
    · simpa [held] using ih fun f met => told f (met_cons.mpr (.inr ⟨held, met⟩))

/-- A search crashes at the first function that cannot decide. -/
theorem firstCovering?_of_stopsAt (stops : StopsAt a fs f) :
    firstCovering? a fs = .error (.functionEnd f.addr) := by
  obtain ⟨front, back, rfl, passed, untold⟩ := stops
  induction front with
  | nil => rw [List.nil_append, firstCovering?, covers_of_not_decides untold]
  | cons g front ih =>
    obtain ⟨apart, told⟩ := passed g List.mem_cons_self
    rw [List.cons_append, firstCovering?, covers_of_decides told, decide_eq_false apart]
    exact ih fun h mem => passed h (List.mem_cons_of_mem g mem)

/-- Either all functions that a search gets to can decide, or there is a first that cannot. -/
theorem decides_or_stopsAt (a : Addr) (fs : List FunctionSymbol) :
    (∀ f, Met a fs f → f.Decides a) ∨ ∃ f, StopsAt a fs f := by
  induction fs with
  | nil =>
    refine .inl ?_
    rintro f ⟨front, back, split, -⟩
    simp at split
  | cons g fs ih =>
    by_cases told : g.Decides a
    · by_cases held : g.Holds a
      · refine .inl fun f met => ?_
        rcases met_cons.mp met with rfl | ⟨apart, -⟩
        · exact told
        · exact absurd held apart
      · refine ih.imp (fun all f met => ?_) fun ⟨f, stops⟩ => ⟨f, stops.cons held told⟩
        rcases met_cons.mp met with rfl | ⟨-, met⟩
        · exact told
        · exact all f met
    · exact .inr ⟨g, [], fs, rfl, by simp, told⟩

end FunctionSymbol

namespace CallTrace

open FunctionSymbol (Met StopsAt)

/-! ## Looking up an address -/

/-- The name of the first function that holds the address. -/
def nameOf (t : CallTrace) (a : Addr) : String :=
  ((t.symbols.find? fun f => f.Holds a).map (·.name)).getD unknown

/-- All functions that a search for the address gets to can decide about it. -/
def Decides (t : CallTrace) (a : Addr) : Prop := ∀ f, Met a t.symbols f → f.Decides a

variable {t : CallTrace} {a : Addr} {f : FunctionSymbol}

/-- Functions that all end at a 64-bit number decide about every address. -/
theorem decides_of_bounded (bounded : ∀ f ∈ t.symbols, f.limit < UInt64.size) (a : Addr) :
    t.Decides a := fun f ⟨front, _, split, _⟩ =>
  .inr (bounded f (split ▸ List.mem_append_right front List.mem_cons_self))

theorem lookup_of_decides (told : t.Decides a) : t.lookup a = .ok (t.nameOf a) := by
  rw [lookup, FunctionSymbol.firstCovering?_of_decides told, nameOf]
  cases t.symbols.find? fun f => f.Holds a <;> rfl

theorem lookup_of_stopsAt (stops : StopsAt a t.symbols f) :
    t.lookup a = .error (.functionEnd f.addr) := by
  rw [lookup, FunctionSymbol.firstCovering?_of_stopsAt stops]
  rfl

/-- A name is found if and only if all functions that the search gets to decide, and then it is that
of the address. -/
theorem lookup_eq_ok_iff {name : String} :
    t.lookup a = .ok name ↔ t.Decides a ∧ name = t.nameOf a := by
  rcases FunctionSymbol.decides_or_stopsAt a t.symbols with told | ⟨f, stops⟩
  · rw [lookup_of_decides told, Except.ok.injEq]
    exact ⟨fun same => ⟨told, same.symm⟩, fun ⟨_, same⟩ => same.symm⟩
  · have crashed := lookup_of_stopsAt stops
    obtain ⟨front, back, split, passed, untold⟩ := stops
    have met : Met a t.symbols f := ⟨front, back, split, fun g mem => (passed g mem).1⟩
    rw [crashed]
    exact ⟨nofun, fun ⟨told, _⟩ => absurd (told f met) untold⟩

/-- A search crashes if and only if there is a first function that it gets to and that cannot
decide. -/
theorem lookup_eq_error_iff {c : Crash} :
    t.lookup a = .error c ↔ ∃ f, StopsAt a t.symbols f ∧ c = .functionEnd f.addr := by
  constructor
  · intro crashed
    rcases FunctionSymbol.decides_or_stopsAt a t.symbols with told | ⟨f, stops⟩
    · rw [lookup_of_decides told] at crashed
      cases crashed
    · rw [lookup_of_stopsAt stops, Except.error.injEq] at crashed
      exact ⟨f, stops, crashed.symm⟩
  · rintro ⟨f, stops, rfl⟩
    exact lookup_of_stopsAt stops

/-! ## Calls and returns -/

/-- The log names the function at an address if the search for it comes to its end, or nothing is
logged. -/
theorem logNamed_of_decides (entry : String → Entry) (told : t.logsCalls = true → t.Decides a) :
    t.logNamed a entry =
      ⟨.ok (), t, if t.logsCalls then #[.log (entry (t.nameOf a))] else #[]⟩ := by
  cases logged : t.logsCalls with
  | false => simp [logNamed, logged, Outcome.pure]
  | true => simp [logNamed, logged, lookup_of_decides (told logged), Outcome.logged]

theorem logNamed_of_stopsAt (entry : String → Entry) (logged : t.logsCalls = true)
    (stops : StopsAt a t.symbols f) : t.logNamed a entry = .crash (.functionEnd f.addr) t := by
  rw [logNamed, if_pos logged, lookup_of_stopsAt stops]

/-- The log names a function if and only if nothing is logged or the search for it comes to its
end. -/
theorem ends_logNamed_iff {u : CallTrace} {entry : String → Entry} :
    (t.logNamed a entry).Ends () u ↔ (t.logsCalls = true → t.Decides a) ∧ u = t := by
  by_cases told : t.logsCalls = true → t.Decides a
  · rw [logNamed_of_decides entry told]
    exact ⟨fun ended => ⟨told, ended.state.symm⟩, fun ⟨_, same⟩ => ⟨rfl, same.symm⟩⟩
  · obtain ⟨logged, untold⟩ := Classical.not_imp.mp told
    obtain ⟨f, stops⟩ := (FunctionSymbol.decides_or_stopsAt a t.symbols).resolve_left untold
    rw [logNamed_of_stopsAt entry logged stops]
    exact ⟨fun ended => absurd ended.result nofun, fun ⟨all, _⟩ => absurd all told⟩

theorem ends_call_iff {site target : Addr} {u : CallTrace} :
    (t.call site target).Ends () u ↔
      (t.logsCalls = true → t.Decides target) ∧ u = { t with depth := t.depth + 1 } := by
  constructor
  · intro ended
    obtain ⟨⟨⟩, u, named, counted⟩ := ended.of_bind
    obtain ⟨told, rfl⟩ := ends_logNamed_iff.mp named
    exact ⟨told, counted.state.symm⟩
  · rintro ⟨told, rfl⟩
    exact (ends_logNamed_iff.mpr ⟨told, rfl⟩).next (.pure () _)

theorem ends_ret_iff {site : Addr} {u : CallTrace} :
    (t.ret site).Ends () u ↔ (t.logsCalls = true → t.Decides site) ∧ u = t.left :=
  ends_logNamed_iff (t := t.left)

/-- What look-ups, calls and returns do with a table of functions. -/
structure FollowsExactly (t : CallTrace) : Prop where
  /-- A look-up finds the name of the address if all functions that it gets to decide. -/
  named : ∀ a name, t.lookup a = .ok name ↔ t.Decides a ∧ name = t.nameOf a
  /-- It crashes if one of them does not, at the first such one. -/
  crashed : ∀ a c, t.lookup a = .error c ↔ ∃ f, StopsAt a t.symbols f ∧ c = .functionEnd f.addr
  /-- A call goes one level down, whether it is logged or not. -/
  call : ∀ site target, (t.logsCalls = true → t.Decides target) →
    t.call site target = ⟨.ok (), { t with depth := t.depth + 1 },
      if t.logsCalls then #[.log (.called site t.depth (t.nameOf target) target)] else #[]⟩
  /-- A return goes one level up, if there is one. -/
  ret : ∀ site, (t.logsCalls = true → t.Decides site) →
    t.ret site = ⟨.ok (), { t with depth := t.depth - 1 },
      if t.logsCalls then #[.log (.returned site (t.depth - 1) (t.nameOf site))] else #[]⟩
  /-- A call that is logged crashes with the look-up of its target, and is not counted. -/
  callCrashed : ∀ site target f, t.logsCalls = true → StopsAt target t.symbols f →
    t.call site target = .crash (.functionEnd f.addr) t
  /-- A return that is logged crashes with the look-up of its site, and is counted. -/
  retCrashed : ∀ site f, t.logsCalls = true → StopsAt site t.symbols f →
    t.ret site = .crash (.functionEnd f.addr) { t with depth := t.depth - 1 }

/-- An address has the name of the first function that holds it, in every table, and a search for it
finds that name if and only if all functions that it gets to start there or end at a 64-bit
number. -/
theorem functions_are_named (t : CallTrace) : t.FollowsExactly where
  named _ _ := lookup_eq_ok_iff
  crashed _ _ := lookup_eq_error_iff
  call site target told := by
    rw [call, logNamed_of_decides _ told, Outcome.bind_of_ok rfl]
    simp [Outcome.pure]
  ret site told := by
    have left : t.left.logsCalls = true → t.left.Decides site := told
    rw [ret, logNamed_of_decides _ left]
    rfl
  callCrashed site target f logged stops := by
    rw [call, logNamed_of_stopsAt _ logged stops]
    rfl
  retCrashed site f logged stops := by
    have left : StopsAt site t.left.symbols f := stops
    rw [ret, logNamed_of_stopsAt (t := t.left) _ logged left]
    rfl

/-- A function of almost all numbers there are: its end is past them, and a search for an address in
its midst crashes, though it is the first function that holds the address. -/
theorem lookup_past_last_number :
    let t := ofSymbols [⟨"w", 1, 0xffffffffffffffff⟩, ⟨"x", 2, 8⟩] true
    t.nameOf 2 = "w" ∧ t.lookup 2 = .error (.functionEnd 1) ∧
      t.call 0 2 = .crash (.functionEnd 1) t ∧ t.ret 2 = .crash (.functionEnd 1) t :=
  ⟨by decide +kernel, rfl, rfl, rfl⟩

end CallTrace

end Lockstep

/-
Lockstep.Proofs.Monitor.Memos — what a monitor remembers of the bus traffic of a step.

It remembers the last fetch, the last read and the last write, one of each (`Memos`), and a write to
the word that was read last makes it forget that read.  So a transfer that is followed by another one
of its kind is not remembered when it comes again.  Which transfers with a device are remembered all
through a second pass is told by the pass itself (`Repeatable`), and if it is not repeatable, the
second pass makes at least one of them again (`missed_again_iff`).
-/
import Mathlib.Tactic.ByContra
import Lockstep.Proofs.Bus.Access
import Lockstep.Monitor.Callback

namespace Lockstep

/-- A callback that may go through to the bus. -/
inductive Transfer where
  | fetch
  | read (addr : Addr)
  /-- Write a word to an address, as far as the mask in between selects its bytes. -/
  | write (w : Addr × UInt8 × Word)
deriving DecidableEq

namespace Transfer

/-- The callback of a transfer. -/
def callback : Transfer → Callback
  | .fetch => .fetch
  | .read addr => .read addr
  | .write w => .write w.1 w.2.1 w.2.2

/-- The access by which a transfer goes through, while `pc` is shown. -/
def access (pc : Addr) : Transfer → Bus.Access
  | .fetch => .read pc
  | .read addr => .read addr
  | .write w => .write w.1 w.2.1 w.2.2

end Transfer

/-- What a monitor remembers of a step: where it fetched and read last, and what it wrote last. -/
structure Memos where
  fetched : Option Addr
  read : Option Addr
  written : Option (Addr × UInt8 × Word)
deriving DecidableEq

namespace Memos

/-- Nothing is remembered. -/
def empty : Memos := ⟨none, none, none⟩

/-- A transfer is remembered, while `pc` is shown. -/
def has (pc : Addr) (k : Memos) : Transfer → Bool
  | .fetch => k.fetched = some pc
  | .read addr => k.read = some addr
  | .write w => k.written = some w

section Note

variable (answers : Addr → Bool) (pc : Addr)

/-- What is remembered after one more transfer.  Something that nothing answers for is not. -/
def note (k : Memos) : Transfer → Memos
  | .fetch => if answers pc then { k with fetched := some pc } else k
  | .read addr => if answers addr then { k with read := some addr } else k
  | .write w =>
    if k.written = some w then k
    else
      { k with
        written := some w, read := k.read.filter fun addr => Word.align addr ≠ Word.align w.1 }

/-- What is remembered after several transfers. -/
def noteAll (k : Memos) (ts : List Transfer) : Memos := ts.foldl (note answers pc) k

@[simp] theorem noteAll_nil (k : Memos) : noteAll answers pc k [] = k := rfl

@[simp] theorem noteAll_cons (k : Memos) (t : Transfer) (ts : List Transfer) :
    noteAll answers pc k (t :: ts) = noteAll answers pc (note answers pc k t) ts := rfl

theorem noteAll_append (k : Memos) (ts us : List Transfer) :
    noteAll answers pc k (ts ++ us) = noteAll answers pc (noteAll answers pc k ts) us :=
  List.foldl_append

variable {answers pc}

/-- What is remembered already changes nothing. -/
theorem note_of_has {k : Memos} {t : Transfer} (h : k.has pc t = true) :
    note answers pc k t = k := by
  cases t with
  | fetch =>
    rw [has, decide_eq_true_iff] at h
    simp [note, ← h]
  | read addr =>
    rw [has, decide_eq_true_iff] at h
    simp [note, ← h]
  | write w =>
    rw [has, decide_eq_true_iff] at h
    exact if_pos h

/-! ## A transfer that is forgotten -/

/-- Other transfers do not bring back what is forgotten. -/
theorem has_note_of_ne {k : Memos} {t u : Transfer} (h : k.has pc t = false) (ne : u ≠ t) :
    (note answers pc k u).has pc t = false := by
  cases u with
  | fetch =>
    simp only [note]
    split
    · cases t with
      | fetch => exact absurd rfl ne
      | read | write => exact h
    · exact h
  | read addr =>
    simp only [note]
    split
    · cases t with
      | read addr' => simpa [has] using fun same => ne (congrArg Transfer.read same)
      | fetch | write => exact h
    · exact h
  | write w =>
    simp only [note]
    split
    · exact h
    · cases t with
      | fetch => exact h
      | read addr =>
        have unread : k.read ≠ some addr := by simpa [has] using h
        simp [has, Option.filter_eq_some_iff, unread]
      | write w' => simpa [has] using fun same => ne (congrArg Transfer.write same)

/-- What is remembered after another transfer was so before. -/
theorem has_of_has_note {k : Memos} {t u : Transfer}
    (h : (note answers pc k u).has pc t = true) (ne : u ≠ t) : k.has pc t = true := by
  by_contra forgotten
  rw [Bool.not_eq_true] at forgotten
  rw [has_note_of_ne forgotten ne] at h
  cases h

theorem has_noteAll_of_not_mem {k : Memos} {t : Transfer} (h : k.has pc t = false)
    {ts : List Transfer} (absent : t ∉ ts) : (noteAll answers pc k ts).has pc t = false := by
  induction ts generalizing k with
  | nil => exact h
  | cons u ts ih =>
    rw [List.mem_cons, not_or] at absent
    exact ih (has_note_of_ne h (Ne.symm absent.1)) absent.2

variable (answers pc) in
/-- A transfer is among others and not remembered when it is made. -/
def Missed (k : Memos) (ts : List Transfer) (t : Transfer) : Prop :=
  ∃ before after, ts = before ++ t :: after ∧ (noteAll answers pc k before).has pc t = false

/-- A forgotten transfer is missed where it is made first. -/
theorem missed_of_mem {k : Memos} {t : Transfer} (h : k.has pc t = false) {ts : List Transfer}
    (mem : t ∈ ts) : Missed answers pc k ts t := by
  obtain ⟨before, after, split, absent⟩ := List.eq_append_cons_of_mem mem
  exact ⟨before, after, split, has_noteAll_of_not_mem h absent⟩

/-- A transfer that both rounds forget at the same place is missed in the second round. -/
theorem missed_again {k : Memos} {ts before after : List Transfer} {t u : Transfer} (mem : t ∈ ts)
    (split : ts = before ++ u :: after)
    (first : (noteAll answers pc k (before ++ [u])).has pc t = false)
    (second : (noteAll answers pc (noteAll answers pc k ts) (before ++ [u])).has pc t = false) :
    Missed answers pc (noteAll answers pc k ts) ts t := by
  have whole : ts = (before ++ [u]) ++ after := by simpa using split
  by_cases later : t ∈ after
  · have missed : Missed answers pc _ after t := missed_of_mem second later
    obtain ⟨between, rest, rfl, missed⟩ := missed
    refine ⟨(before ++ [u]) ++ between, rest, by simp [whole], ?_⟩
    rwa [noteAll_append]
  · refine missed_of_mem ?_ mem
    have forgotten : (noteAll answers pc _ after).has pc t = false :=
      has_noteAll_of_not_mem first later
    rwa [← noteAll_append, ← whole] at forgotten

/-! ## The write that is remembered -/

/-- The last write of several transfers. -/
def lastWrite : List Transfer → Option (Addr × UInt8 × Word)
  | [] => none
  | .write w :: ts => (lastWrite ts).or (some w)
  | _ :: ts => lastWrite ts

theorem written_note (k : Memos) (t : Transfer) :
    (note answers pc k t).written =
      match t with
      | .write w => some w
      | _ => k.written := by
  cases t with
  | fetch =>
    simp only [note]
    split <;> rfl
  | read addr =>
    simp only [note]
    split <;> rfl
  | write w =>
    simp only [note]
    split
    · assumption
    · rfl

/-- The last write is remembered; without one, that of before. -/
theorem written_noteAll (k : Memos) (ts : List Transfer) :
    (noteAll answers pc k ts).written = (lastWrite ts).or k.written := by
  induction ts generalizing k with
  | nil => rfl
  | cons t ts ih =>
    rw [noteAll_cons, ih, written_note]
    cases t with
    | write w => rw [lastWrite, Option.or_assoc, Option.some_or]
    | fetch | read => rfl

theorem mem_of_lastWrite {ts : List Transfer} {w : Addr × UInt8 × Word}
    (h : lastWrite ts = some w) : .write w ∈ ts := by
  induction ts with
  | nil => cases h
  | cons t ts ih =>
    cases t with
    | write w' =>
      rw [lastWrite, Option.or_eq_some_iff] at h
      rcases h with later | ⟨-, same⟩
      · exact List.mem_cons_of_mem _ (ih later)
      · rw [Option.some.inj same]
        exact List.mem_cons_self
    | fetch | read => exact List.mem_cons_of_mem _ (ih h)

/-- If all writes are the same one, that one is remembered. -/
theorem written_noteAll_of_sole {k : Memos} {ts : List Transfer} {w : Addr × UInt8 × Word}
    (sole : ∀ w', .write w' ∈ ts → w' = w) (h : k.written = some w ∨ .write w ∈ ts) :
    (noteAll answers pc k ts).written = some w := by
  induction ts generalizing k with
  | nil => simpa using h
  | cons t ts ih =>
    refine ih (fun w' later => sole w' (List.mem_cons_of_mem _ later)) ?_
    rw [written_note]
    cases t with
    | write w' =>
      rw [sole w' List.mem_cons_self]
      exact .inl rfl
    | fetch | read => simpa using h

/-- A write that goes through makes the monitor forget a read of the same word. -/
theorem has_read_note_write {k : Memos} {w : Addr × UInt8 × Word} {addr : Addr}
    (missed : k.has pc (.write w) = false) (same : Word.align addr = Word.align w.1) :
    (note answers pc k (.write w)).has pc (.read addr) = false := by
  have fresh : k.written ≠ some w := by simpa [has] using missed
  simp [note, has, fresh, Option.filter_eq_some_iff, same]

end Note

/-! ## Passes that can be repeated -/

variable {δ : Type}

/-- The transfers with devices of a pass are remembered to its end: if a word of a device is written,
or written and read, then that is the only write of the pass; if a device is read, then that is the
only read that is answered, and it does not stop before a write to the same word. -/
structure Repeatable (b : Bus δ) (ts : List Transfer) : Prop where
  write : ∀ w, .write w ∈ ts →
    b.reaches (.write w.1 w.2.1 w.2.2) = true ∨
      (∃ addr, .read addr ∈ ts ∧ b.isIntercepted addr = true ∧
        Word.align addr = Word.align w.1) →
    ∀ w', .write w' ∈ ts → w' = w
  read : ∀ addr, .read addr ∈ ts → b.isIntercepted addr = true →
    ∀ addr', .read addr' ∈ ts → b.answers addr' = true → addr' = addr
  order : ∀ addr, .read addr ∈ ts → b.isIntercepted addr = true →
    ∀ w before after, ts = before ++ .write w :: after → .write w ∉ before →
      Word.align addr = Word.align w.1 → .read addr ∈ after

section Repeat

variable {b : Bus δ} {pc : Addr} {ts : List Transfer}

/-- What is remembered after a pass that began with nothing. -/
abbrev afterPass (b : Bus δ) (pc : Addr) (ts : List Transfer) : Memos :=
  noteAll b.answers pc empty ts

theorem answers_of_isIntercepted {addr : Addr} (h : b.isIntercepted addr = true) :
    b.answers addr = true := by
  rw [Bus.answers, h, Bool.true_or]

/-- A write to be written again, behind another one in between, is missed. -/
theorem write_missed {w w' : Addr × UInt8 × Word} (mem : .write w ∈ ts) (mem' : .write w' ∈ ts)
    (ne : w' ≠ w) : Missed b.answers pc (afterPass b pc ts) ts (.write w) := by
  obtain ⟨before, after, split⟩ := List.append_of_mem mem'
  have evicted : ∀ k, (noteAll b.answers pc k (before ++ [.write w'])).has pc (.write w) = false := by
    intro k
    rw [noteAll_append, noteAll_cons, noteAll_nil, has, written_note]
    simpa using ne
  exact missed_again mem split (evicted _) (evicted _)

/-- So is a read behind another one that is answered. -/
theorem read_missed {addr addr' : Addr} (mem : .read addr ∈ ts) (mem' : .read addr' ∈ ts)
    (answered : b.answers addr' = true) (ne : addr' ≠ addr) :
    Missed b.answers pc (afterPass b pc ts) ts (.read addr) := by
  obtain ⟨before, after, split⟩ := List.append_of_mem mem'
  have evicted : ∀ k, (noteAll b.answers pc k (before ++ [.read addr'])).has pc (.read addr) =
      false := by
    intro k
    rw [noteAll_append, noteAll_cons, noteAll_nil, note, if_pos answered, has]
    simpa using ne
  exact missed_again mem split (evicted _) (evicted _)

/-- So is a read when there is a write to its word and another write as well. -/
theorem read_missed_of_writes {addr : Addr} {w w' : Addr × UInt8 × Word} (mem : .read addr ∈ ts)
    (written : .write w ∈ ts) (same : Word.align addr = Word.align w.1) (written' : .write w' ∈ ts)
    (ne : w' ≠ w) : Missed b.answers pc (afterPass b pc ts) ts (.read addr) := by
  have again : Missed b.answers pc (afterPass b pc ts) ts (.write w) :=
    write_missed written written' ne
  obtain ⟨before, after, split, missed⟩ := again
  have missedFirst : (noteAll b.answers pc empty before).has pc (.write w) = false := by
    rw [has, decide_eq_false_iff_not, written_noteAll, empty, Option.or_none]
    intro last
    rw [has, decide_eq_false_iff_not, written_noteAll, last] at missed
    exact missed rfl
  refine missed_again mem split ?_ ?_
  · rw [noteAll_append, noteAll_cons, noteAll_nil]
    exact has_read_note_write missedFirst same
  · rw [noteAll_append, noteAll_cons, noteAll_nil]
    exact has_read_note_write missed same

/-- So is a read that is not made again behind the first write to its word. -/
theorem read_missed_of_order {addr : Addr} {w : Addr × UInt8 × Word} {before after : List Transfer}
    (mem : .read addr ∈ ts) (split : ts = before ++ .write w :: after)
    (first : .write w ∉ before) (same : Word.align addr = Word.align w.1)
    (absent : .read addr ∉ after) :
    Missed b.answers pc (afterPass b pc ts) ts (.read addr) := by
  refine missed_of_mem ?_ mem
  rw [afterPass, split, noteAll_append, noteAll_cons]
  refine has_noteAll_of_not_mem (has_read_note_write ?_ same) absent
  rw [has, decide_eq_false_iff_not, written_noteAll, empty, Option.or_none]
  exact fun last => first (mem_of_lastWrite last)

/-- A pass whose second round misses no transfer with a device can be repeated. -/
theorem repeatable_of_kept
    (kept : ∀ t, b.reaches (t.access pc) = true → ¬Missed b.answers pc (afterPass b pc ts) ts t) :
    Repeatable b ts where
  write w mem concerned w' mem' := by
    by_contra ne
    rcases concerned with reached | ⟨addr, read, device, same⟩
    · exact kept (.write w) reached (write_missed mem mem' ne)
    · exact kept (.read addr) device (read_missed_of_writes read mem same mem' ne)
  read addr mem device addr' mem' answered := by
    by_contra ne
    exact kept (.read addr) device (read_missed mem mem' answered ne)
  order addr mem device w before after split first same := by
    by_contra absent
    exact kept (.read addr) device (read_missed_of_order mem split first same absent)

/-! ## What such a pass keeps in mind -/

theorem fetch_kept (device : b.isIntercepted pc = true) :
    ¬Missed b.answers pc (afterPass b pc ts) ts .fetch := by
  have keeps : ∀ {k : Memos} (us : List Transfer), k.fetched = some pc →
      (noteAll b.answers pc k us).fetched = some pc := by
    intro k us h
    induction us generalizing k with
    | nil => exact h
    | cons u us ih =>
      refine ih ?_
      cases u with
      | fetch => rw [note, if_pos (answers_of_isIntercepted device)]
      | read addr =>
        rw [note]
        split <;> exact h
      | write w =>
        rw [note]
        split <;> exact h
  rintro ⟨before, after, split, missed⟩
  rw [has, decide_eq_false_iff_not] at missed
  refine missed (keeps before ?_)
  rw [afterPass, split, noteAll_append, noteAll_cons]
  refine keeps after ?_
  rw [note, if_pos (answers_of_isIntercepted device)]

theorem write_kept (h : Repeatable b ts) {w : Addr × UInt8 × Word}
    (reached : b.reaches (.write w.1 w.2.1 w.2.2) = true) :
    ¬Missed b.answers pc (afterPass b pc ts) ts (.write w) := by
  rintro ⟨before, after, split, missed⟩
  have mem : .write w ∈ ts := by simp [split]
  have sole := h.write w mem (.inl reached)
  rw [has, decide_eq_false_iff_not] at missed
  refine missed (written_noteAll_of_sole (fun w' earlier => sole w' ?_) (.inl ?_))
  · rw [split]
    exact List.mem_append_left _ earlier
  · exact written_noteAll_of_sole sole (.inr mem)

/-- A read is remembered, and so are the writes of the pass to its word. -/
def Holds (ts : List Transfer) (addr : Addr) (k : Memos) : Prop :=
  k.read = some addr ∧
    ∀ w, .write w ∈ ts → Word.align addr = Word.align w.1 → k.written = some w

section Read

variable {addr : Addr} (h : Repeatable b ts) (mem : .read addr ∈ ts)
  (device : b.isIntercepted addr = true)

include h mem device

theorem Holds.note {k : Memos} (holds : Holds ts addr k) {t : Transfer} (ht : t ∈ ts) :
    Holds ts addr (note b.answers pc k t) := by
  cases t with
  | fetch =>
    rw [Memos.note]
    split <;> exact holds
  | read addr' =>
    rw [Memos.note]
    split
    · next answered =>
      rw [h.read addr mem device addr' ht answered]
      exact ⟨rfl, holds.2⟩
    · exact holds
  | write w =>
    by_cases same : Word.align addr = Word.align w.1
    · rw [Memos.note, if_pos (holds.2 w ht same)]
      exact holds
    · refine ⟨?_, fun w' mem' same' => ?_⟩
      · rw [Memos.note]
        split
        · exact holds.1
        · exact Option.filter_eq_some_iff.mpr ⟨holds.1, by simpa using same⟩
      · rw [written_note]
        exact congrArg some (h.write w' mem' (.inr ⟨addr, mem, device, same'⟩) w ht)

theorem Holds.noteAll {k : Memos} (holds : Holds ts addr k) {us : List Transfer}
    (sub : us ⊆ ts) : Holds ts addr (noteAll b.answers pc k us) := by
  induction us generalizing k with
  | nil => exact holds
  | cons u us ih =>
    rw [List.cons_subset] at sub
    exact ih (Holds.note h mem device holds sub.1) sub.2

/-- A repeatable pass ends with its read of a device in mind. -/
theorem holds_afterPass : Holds ts addr (afterPass b pc ts) := by
  have answered := answers_of_isIntercepted device
  -- What is noted last of the read is kept; before it, the writes to its word must have been noted.
  have finish : ∀ before after, ts = before ++ .read addr :: after →
      (∀ w, .write w ∈ ts → Word.align addr = Word.align w.1 → .write w ∈ before) →
      Holds ts addr (afterPass b pc ts) := by
    intro before after split noted
    have whole : afterPass b pc ts =
        Memos.noteAll b.answers pc
          (Memos.note b.answers pc (Memos.noteAll b.answers pc empty before) (.read addr)) after := by
      rw [afterPass, split, noteAll_append, noteAll_cons]
    rw [whole]
    refine Holds.noteAll h mem device ⟨?_, fun w written same => ?_⟩ ?_
    · rw [Memos.note, if_pos answered]
    · rw [written_note]
      refine written_noteAll_of_sole (fun w' earlier => ?_) (.inr (noted w written same))
      exact h.write w written (.inr ⟨addr, mem, device, same⟩) w' (by simp [split, earlier])
    · intro t later
      simp [split, later]
  by_cases written : ∃ w, .write w ∈ ts ∧ Word.align addr = Word.align w.1
  · obtain ⟨w, written, same⟩ := written
    obtain ⟨before, after, split, first⟩ := List.eq_append_cons_of_mem written
    obtain ⟨between, rest, rfl⟩ :=
      List.append_of_mem (h.order addr mem device w before after split first same)
    refine finish (before ++ .write w :: between) rest (by simp [split]) fun w' written' same' => ?_
    rw [h.write w written (.inr ⟨addr, mem, device, same⟩) w' written']
    simp
  · obtain ⟨before, after, split⟩ := List.append_of_mem mem
    exact finish before after split fun w mem' same => absurd ⟨w, mem', same⟩ written

theorem read_kept : ¬Missed b.answers pc (afterPass b pc ts) ts (.read addr) := by
  rintro ⟨before, after, split, missed⟩
  have sub : before ⊆ ts := split ▸ List.subset_append_left before _
  have start : Holds ts addr (afterPass b pc ts) := holds_afterPass h mem device
  have holds : Holds ts addr (Memos.noteAll b.answers pc (afterPass b pc ts) before) :=
    Holds.noteAll h mem device start sub
  rw [has, holds.1, decide_eq_false_iff_not] at missed
  exact missed rfl

end Read

/-- The second round of a pass misses a transfer with a device exactly if the pass is not
repeatable. -/
theorem missed_again_iff :
    (∃ t, b.reaches (t.access pc) = true ∧ Missed b.answers pc (afterPass b pc ts) ts t) ↔
      ¬Repeatable b ts := by
  constructor
  · rintro ⟨t, reached, missed⟩ h
    cases t with
    | fetch => exact fetch_kept reached missed
    | read addr =>
      have mem : .read addr ∈ ts := by
        obtain ⟨before, after, split, _⟩ := missed
        simp [split]
      exact read_kept h mem reached missed
    | write w => exact write_kept h reached missed
  · intro not
    by_contra none
    exact not (repeatable_of_kept fun t reached missed => none ⟨t, reached, missed⟩)

end Repeat

end Memos

end Lockstep

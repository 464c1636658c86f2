/-
Lockstep.Proofs.Console.Fold — the console carries out the commands on its lines, one after the
other, and does nothing else.

What lines amount to is the list of their commands up to the first one to quit (`script`).  Whatever
the input, the console leaves the session that these commands leave, and calls the hardware model
and the reference model as they do (`lines_perform`).  A line without a command leaves the session
as it is, a command that looks at the session does so too, and one for the watchpoints changes
nothing else (`line_of_none`, `execute_looks`, `execute_watches`).  So inputs can be joined where
the first one does not quit (`mainLoop_folds_commands`).
-/
import Lockstep.Console.Loop
import Lockstep.Proofs.Matching
import Lockstep.Proofs.Session.Finished

namespace Lockstep

open Outcome

/-- An event is a call between the tool, the hardware model and the reference model. -/
def Event.isCall : Event → Bool
  | .log _ => false
  | .dut _ | .reference _ => true

/-- Two outcomes come to the same: they leave the same state and the same calls, and crash for the
same reason if they crash. -/
abbrev Outcome.Performs {σ α β : Type} (o : Outcome σ α) (o' : Outcome σ β) : Prop :=
  o.Matches Event.isCall Eq (fun _ _ => True) o'

namespace Outcome.Performs

variable {σ α β γ : Type}

/-- An answer made of another one leaves the same. -/
theorem answering {o : Outcome σ α} {o' : Outcome σ β}
    (h : o.Performs o') (g : α → γ) : (o.bind fun a s => Outcome.pure (g a) s).Performs o' := by
  have ended : (o.bind fun a s => Outcome.pure (g a) s).Performs
      (o'.bind fun a s => Outcome.pure a s) :=
    h.bind fun _ _ _ _ _ same => .pure trivial same
  rwa [bind_pure] at ended

/-- Two outcomes that come to the same as a third one come to the same. -/
theorem of_common {o : Outcome σ α} {o' : Outcome σ β}
    {p : Outcome σ γ} (h : o.Performs p) (h' : o'.Performs p) : o.Performs o' := by
  refine ⟨?_, h.state.trans h'.state.symm, h.events.trans h'.events.symm⟩
  rcases h.result with ⟨a, c, ok, done, _⟩ | ⟨crash, error, crashed⟩
  · rcases h'.result with ⟨b, _, ok', _, _⟩ | ⟨_, _, crashed⟩
    · exact .inl ⟨a, b, ok, ok', trivial⟩
    · rw [done] at crashed
      cases crashed
  · rcases h'.result with ⟨_, _, _, done, _⟩ | ⟨crash', error', crashed'⟩
    · rw [crashed] at done
      cases done
    · rw [crashed] at crashed'
      cases crashed'
      exact .inr ⟨crash, error, error'⟩

end Outcome.Performs

/-! ## Lines of an input -/

namespace Text

/-- An input that is made of whole lines: each of them ends with a line feed. -/
def IsWhole (input : List UInt8) : Prop := input = [] ∨ input.getLast? = some 10

instance (input : List UInt8) : Decidable (IsWhole input) := inferInstanceAs (Decidable (_ ∨ _))

theorem splitLinesFrom_append (input rest : List UInt8) (cur : List UInt8)
    (h : input.getLast? = some 10) :
    splitLinesFrom cur (input ++ rest) = splitLinesFrom cur input ++ splitLinesFrom [] rest := by
  induction input generalizing cur with
  | nil => cases h
  | cons b bs ih =>
    rcases bs with _ | ⟨b', bs⟩
    · obtain rfl : b = 10 := by simpa using h
      simp [splitLinesFrom]
    · have last : (b' :: bs).getLast? = some 10 := by simpa using h
      rw [List.cons_append, splitLinesFrom, splitLinesFrom]
      split
      · rw [ih [] last, List.cons_append]
      · exact ih (b :: cur) last

/-- The lines of two inputs in a row are those of the first and those of the second. -/
theorem splitLines_append {input : List UInt8} (whole : IsWhole input) (rest : List UInt8) :
    splitLines (input ++ rest) = splitLines input ++ splitLines rest := by
  rcases whole with rfl | last
  · rfl
  · exact splitLinesFrom_append input rest [] last

end Text

namespace Console

/-! ## What lines amount to -/

/-- The command on a line, if there is one. -/
def commandOf? (text : String) : Option Command :=
  match Command.parse text with
  | .ok c => c
  | .error _ => none

/-- Commands up to the first one that ends the console, and with it. -/
def upToQuit : List Command → List Command
  | [] => []
  | c :: cs => if goesOn c then c :: upToQuit cs else [c]

/-- The commands that lines amount to. -/
def script (texts : List String) : List Command := upToQuit (texts.filterMap commandOf?)

/-- Lines as far as they are text. -/
def readable : List (List UInt8) → List String
  | [] => []
  | bytes :: rest =>
    match Text.decode? bytes with
    | none => []
    | some text => text :: readable rest

/-- The lines of an input as far as they are text. -/
def texts (input : List UInt8) : List String := readable (Text.splitLines input)

/-- All lines of an input are text. -/
def IsText (input : List UInt8) : Prop :=
  ∀ bytes ∈ Text.splitLines input, (Text.decode? bytes).isSome = true

instance (input : List UInt8) : Decidable (IsText input) :=
  inferInstanceAs (Decidable (∀ bytes ∈ Text.splitLines input, _))

/-- The command only looks at the session. -/
def Command.looks : Command → Bool
  | .help _ | .showRegisters | .showWatches | .examine _ _ | .print _ => true
  | .continue | .quit | .step _ | .watch _ | .delete _ => false

/-- The command concerns the watchpoints. -/
def Command.watches : Command → Bool
  | .watch _ | .delete _ => true
  | _ => false

theorem goesOn_eq_false_iff {c : Command} : goesOn c = false ↔ c = .quit := by
  cases c <;> simp [goesOn]

theorem upToQuit_append {cs : List Command} (going : .quit ∉ cs) (ds : List Command) :
    upToQuit (cs ++ ds) = upToQuit cs ++ upToQuit ds := by
  induction cs with
  | nil => rfl
  | cons c cs ih =>
    have goes : goesOn c = true := by
      rw [← Bool.not_eq_false, goesOn_eq_false_iff]
      rintro rfl
      exact going List.mem_cons_self
    rw [List.cons_append, upToQuit, upToQuit, if_pos goes, if_pos goes,
      ih fun later => going (List.mem_cons_of_mem _ later), List.cons_append]

theorem script_append {texts : List String} (going : .quit ∉ texts.filterMap commandOf?)
    (later : List String) : script (texts ++ later) = script texts ++ script later := by
  rw [script, List.filterMap_append, upToQuit_append going]
  rfl

theorem readable_append {ls : List (List UInt8)}
    (text : ∀ bytes ∈ ls, (Text.decode? bytes).isSome = true) (later : List (List UInt8)) :
    readable (ls ++ later) = readable ls ++ readable later := by
  induction ls with
  | nil => rfl
  | cons bytes ls ih =>
    obtain ⟨t, decoded⟩ := Option.isSome_iff_exists.mp (text bytes List.mem_cons_self)
    rw [List.cons_append, readable, readable, decoded]
    simp only [List.cons_append]
    rw [ih fun bytes mem => text bytes (List.mem_cons_of_mem _ mem)]

/-! ## Carrying out commands -/

variable {δ D R : Type} [Peripheral δ] [Dut D] [ReferenceModel R]

/-- Carry out commands in order. -/
def executeAll (patience : Nat) : List Command → Action (Session δ D R) Unit
  | [] => return ()
  | c :: cs => do
    let _ ← execute patience c
    executeAll patience cs

/-- A command that only looks leaves the session as it is. -/
theorem execute_looks {c : Command} (h : c.looks = true) (patience : Nat) (s : Session δ D R) :
    ∃ out, ((execute patience c).run s).Answers out s := by
  have looked : (Action.get.run s).Answers s s := .pure s s
  cases c with
  | help about => exact ⟨_, .pure _ s⟩
  | showRegisters =>
    have logged : ((Action.logAll (s.dutState.dump "dut")).run s).Answers () s :=
      ⟨rfl, rfl, .entries _ s _⟩
    exact ⟨_, looked.bind (logged.bind (.pure _ s))⟩
  | showWatches => exact ⟨_, looked.bind (.pure _ s)⟩
  | examine n expr =>
    cases value : s.evaluate expr with
    | some addr =>
      refine ⟨String.join ((s.examine addr n).map examineLine), looked.bind ?_⟩
      rw [value]
      exact .pure _ s
    | none =>
      refine ⟨invalidLine expr, looked.bind ?_⟩
      rw [value]
      exact .pure _ s
  | print expr =>
    cases value : s.evaluate expr with
    | some w =>
      refine ⟨resultLine w, looked.bind ?_⟩
      rw [value]
      exact .pure _ s
    | none =>
      refine ⟨invalidLine expr, looked.bind ?_⟩
      rw [value]
      exact .pure _ s
  | «continue» | quit | step | watch | delete => cases h

/-- A command for the watchpoints changes nothing else. -/
theorem execute_watches {c : Command} (h : c.watches = true) (patience : Nat)
    (s : Session δ D R) :
    ∃ out watches, ((execute patience c).run s).Answers out { s with watches := watches } := by
  cases c with
  | watch expr =>
    obtain ⟨a, watches, watched⟩ := s.watch_answers expr
    rcases a with f | _ | no
    · exact ⟨_, watches, watched.bind (.pure _ _)⟩
    · exact ⟨_, watches, watched.bind (.pure _ _)⟩
    · exact ⟨_, watches, watched.bind (.pure _ _)⟩
  | delete no =>
    have deleted : ((Session.unwatch no).run s).Answers (s.watches.delete no).1
        { s with watches := (s.watches.delete no).2 } := .pure _ _
    cases found : (s.watches.delete no).1 with
    | true =>
      rw [found] at deleted
      exact ⟨_, _, deleted.bind (.pure _ _)⟩
    | false =>
      rw [found] at deleted
      exact ⟨_, _, deleted.bind (.pure _ _)⟩
  | help | «continue» | quit | step | showRegisters | showWatches | examine | print => cases h

/-- A line without a command leaves the session as it is, and the console goes on. -/
theorem line_of_none {text : String} (h : commandOf? text = none) (patience : Nat)
    (s : Session δ D R) : ∃ out, ((line patience text).run s).Answers (out, true) s := by
  unfold commandOf? at h
  unfold line
  cases parsed : Command.parse text with
  | ok c =>
    rw [parsed] at h
    subst h
    exact ⟨_, .pure _ s⟩
  | error e =>
    cases e with
    | badCount text =>
      have logged : ((Action.log (.rejected (.badCount text))).run s).Answers () s :=
        .logged _ () s
      exact ⟨_, logged.bind (.pure _ s)⟩
    | unknown word => exact ⟨_, .pure _ s⟩
    | usage text => exact ⟨_, .pure _ s⟩

/-- Any other line is carried out as its command. -/
theorem line_of_some {text : String} {c : Command} (h : commandOf? text = some c) (patience : Nat)
    (s : Session δ D R) :
    (line patience text).run s =
      ((execute patience c).run s).bind fun out => Outcome.pure (out, goesOn c) := by
  have parsed : Command.parse text = .ok (some c) := by
    unfold commandOf? at h
    cases parsed : Command.parse text with
    | ok c' =>
      rw [parsed] at h
      have same : c' = some c := h
      rw [same]
    | error e =>
      rw [parsed] at h
      cases h
  rw [line, parsed]
  rfl

/-! ## The console -/

/-- The console leaves what the commands on its lines leave. -/
theorem lines_perform (patience : Nat) (ls : List (List UInt8)) (s : Session δ D R) :
    ((lines patience ls).run s).Performs ((executeAll patience (script (readable ls))).run s) := by
  induction ls generalizing s with
  | nil => exact .pure trivial rfl
  | cons bytes rest ih =>
    rw [lines, readable]
    cases decoded : Text.decode? bytes with
    | none => exact .pure trivial rfl
    | some text =>
      -- What follows behind a line on which the console goes on.
      have later (out : String) (t : Session δ D R) :
          (((lines patience rest).run t).bind fun r t =>
            Outcome.pure (out ++ prompt ++ r.1, r.2) t).Performs
            ((executeAll patience (script (readable rest))).run t) :=
        Outcome.Performs.answering (ih t) fun r => (out ++ prompt ++ r.1, r.2)
      cases command : commandOf? text with
      | none =>
        obtain ⟨out, answered⟩ := line_of_none command patience s
        have same : script (text :: readable rest) = script (readable rest) := by
          rw [script, List.filterMap_cons_none command]
          rfl
        rw [same, Action.run_bind]
        exact .behind (.of_answers answered fun _ => rfl) (later out s)
      | some c =>
        have first : script (text :: readable rest) =
            if goesOn c then c :: script (readable rest) else [c] := by
          rw [script, List.filterMap_cons_some command]
          rfl
        have executed : ((execute patience c).run s).Performs ((execute patience c).run s) :=
          .refl _ (fun _ => trivial) rfl
        rw [first, Action.run_bind, line_of_some command, Outcome.bind_assoc]
        cases goes : goesOn c with
        | true =>
          refine executed.bind ?_
          rintro out _ t _ _ rfl
          rw [Outcome.pure_bind]
          exact later out t
        | false =>
          refine executed.bind ?_
          rintro out _ t _ _ rfl
          exact .pure trivial rfl

/-- The console does not stop before a line on which it goes on: where all lines are text, it ends
because the operator quit or the input ended. -/
theorem lines_over {ls : List (List UInt8)}
    (text : ∀ bytes ∈ ls, (Text.decode? bytes).isSome = true) {patience : Nat} {s t : Session δ D R}
    {r : String × Ending} (ends : ((lines patience ls).run s).Ends r t) : r.2 = .over := by
  induction ls generalizing s t r with
  | nil =>
    have answer : (.ok ("", .over) : Except Crash (String × Ending)) = .ok r := ends.result
    cases answer
    rfl
  | cons bytes rest ih =>
    obtain ⟨text', decoded⟩ := Option.isSome_iff_exists.mp (text bytes List.mem_cons_self)
    rw [lines, decoded] at ends
    obtain ⟨⟨out, more⟩, u, _, next⟩ := ends.of_bind
    cases more with
    | false =>
      have answer : (.ok (out, .over) : Except Crash (String × Ending)) = .ok r := next.result
      cases answer
      rfl
    | true =>
      obtain ⟨⟨later, ending⟩, _, ended, last⟩ := next.of_bind
      have answer : (.ok (out ++ prompt ++ later, ending) : Except Crash (String × Ending)) =
          .ok r := last.result
      cases answer
      exact ih (r := (later, ending)) (fun bytes mem => text bytes (List.mem_cons_of_mem _ mem))
        ended

theorem mainLoop_performs (patience : Nat) (input : List UInt8) (s : Session δ D R) :
    ((mainLoop patience input).run s).Performs
      ((executeAll patience (script (texts input))).run s) :=
  Outcome.Performs.answering (lines_perform patience _ s) fun r => (prompt ++ r.1, r.2)

theorem mainLoop_over {input : List UInt8} (text : IsText input) {patience : Nat}
    {s : Session δ D R} {r : String × Ending}
    (ended : ((mainLoop patience input).run s).result = .ok r) : r.2 = .over := by
  have ends : ((mainLoop patience input).run s).Ends r _ := ⟨ended, rfl⟩
  obtain ⟨⟨out, ending⟩, _, done, last⟩ := ends.of_bind
  have answer : (.ok (prompt ++ out, ending) : Except Crash (String × Ending)) = .ok r :=
    last.result
  cases answer
  exact lines_over (r := (out, ending)) text done

/-- To carry out commands and then others is to carry out all of them. -/
theorem executeAll_append (patience : Nat) (cs ds : List Command) (s : Session δ D R) :
    (executeAll patience (cs ++ ds)).run s =
      ((executeAll patience cs).run s).bind fun _ => (executeAll patience ds).run := by
  induction cs generalizing s with
  | nil =>
    have idle : (executeAll patience []).run s = .pure () s := rfl
    rw [idle, Outcome.pure_bind, List.nil_append]
  | cons c cs ih =>
    rw [List.cons_append, executeAll, executeAll, Action.run_bind, Action.run_bind,
      Outcome.bind_assoc]
    exact Outcome.bind_congr fun _ _ => ih _

/-- The console twice, where the first input does not quit, is the console on both inputs. -/
theorem mainLoop_joined {input : List UInt8} (whole : Text.IsWhole input) (text : IsText input)
    (going : .quit ∉ (texts input).filterMap commandOf?) (patience : Nat) (later : List UInt8)
    (s : Session δ D R) :
    (Action.run (do
      let _ ← mainLoop patience input
      mainLoop patience later) s).Performs ((mainLoop patience (input ++ later)).run s) := by
  have joined : script (texts (input ++ later)) = script (texts input) ++ script (texts later) := by
    rw [texts, Text.splitLines_append whole, readable_append text]
    exact script_append going _
  have twice : (Action.run (do
      let _ ← mainLoop patience input
      mainLoop patience later) s).Performs
      ((executeAll patience (script (texts (input ++ later)))).run s) := by
    rw [joined, executeAll_append]
    refine (mainLoop_performs patience input s).bind ?_
    rintro _ _ t _ _ rfl
    exact mainLoop_performs patience later t
  exact Outcome.Performs.of_common twice (mainLoop_performs patience (input ++ later) s)

/-- The console is a fold over its lines.  Whatever the input, it leaves what its commands leave,
carried out in order up to the first one to quit, and it ends because the operator quit or the input
ended, unless a line is no text.  A line without a command, be it empty, unknown, misused or with a
malformed count, leaves the session as it is and the console goes on; so does a command that looks
at the session, and one for the watchpoints changes nothing but these.  Two inputs of which the
first does not quit may be fed in a row or at once. -/
theorem mainLoop_folds_commands (patience : Nat) (s : Session δ D R) :
    (∀ input, ((mainLoop patience input).run s).Performs
        ((executeAll patience (script (texts input))).run s) ∧
      (IsText input → ∀ r, ((mainLoop patience input).run s).result = .ok r → r.2 = .over)) ∧
    (∀ text, commandOf? text = none →
      ∃ out, ((line patience text).run s).Answers (out, true) s) ∧
    (∀ text c, commandOf? text = some c → c.looks = true →
      ∃ out, ((line patience text).run s).Answers (out, true) s) ∧
    (∀ text c, commandOf? text = some c → c.watches = true →
      ∃ out watches, ((line patience text).run s).Answers (out, true)
        { s with watches := watches }) ∧
    ∀ input later, Text.IsWhole input → IsText input →
      .quit ∉ (texts input).filterMap commandOf? →
      (Action.run (do
        let _ ← mainLoop patience input
        mainLoop patience later) s).Performs ((mainLoop patience (input ++ later)).run s) := by
  refine ⟨fun input => ⟨mainLoop_performs patience input s, fun text r => mainLoop_over text⟩,
    fun text h => line_of_none h patience s, ?looks, ?watches,
    fun input later whole text going => mainLoop_joined whole text going patience later s⟩
  case looks =>
    intro text c command looks
    obtain ⟨out, executed⟩ := execute_looks looks patience s
    have goes : goesOn c = true := by
      cases c <;> first | rfl | cases looks
    rw [line_of_some command, goes]
    exact ⟨out, executed.bind (.pure _ s)⟩
  case watches =>
    intro text c command watches
    obtain ⟨out, left, executed⟩ := execute_watches watches patience s
    have goes : goesOn c = true := by
      cases c <;> first | rfl | cases watches
    rw [line_of_some command, goes]
    exact ⟨out, left, executed.bind (.pure _ _)⟩

/-- Lines that set a watchpoint, look at the registers and step, among lines without a command. -/
def wholeLines : List UInt8 := "w pc\nfoo\n\nsi 2x\ninfo r\nsi\n".toUTF8.data.toList

/-- The operator steps once, in a console of its own or in one with what follows. -/
theorem mainLoop_folds_commands_scripted :
    ∃ s, (Scripted.start [] [] []).result = .ok (.ok s) ∧
      ((mainLoop 9 wholeLines).run s).Performs
        ((executeAll 9 [.watch "pc", .showRegisters, .step 1]).run s) ∧
      (∀ r, ((mainLoop 9 wholeLines).run s).result = .ok r → r.2 = .over) ∧
      (∃ out, ((line 9 "si 2x").run s).Answers (out, true) s) ∧
      (∃ out, ((line 9 "info r").run s).Answers (out, true) s) ∧
      (∃ out watches, ((line 9 "w pc").run s).Answers (out, true) { s with watches := watches }) ∧
      ∀ later, (Action.run (do
        let _ ← mainLoop 9 wholeLines
        mainLoop 9 later) s).Performs ((mainLoop 9 (wholeLines ++ later)).run s) := by
  obtain ⟨s, up⟩ : ∃ s, (Scripted.start [] [] []).result = .ok (.ok s) := ⟨_, rfl⟩
  have text : IsText wholeLines := by decide +kernel
  have commands : (texts wholeLines).filterMap commandOf? =
      [.watch "pc", .showRegisters, .step 1] := by decide +kernel
  obtain ⟨folds, idle, looks, watches, joined⟩ := mainLoop_folds_commands 9 s
  obtain ⟨performs, ends⟩ := folds wholeLines
  rw [script, commands] at performs
  refine ⟨s, up, performs, ends text, idle "si 2x" (by decide +kernel),
    looks "info r" .showRegisters (by decide +kernel) rfl,
    watches "w pc" (.watch "pc") (by decide +kernel) rfl, fun later => ?_⟩
  refine joined wholeLines later (by decide) text ?_
  rw [commands]
  decide

end Console

end Lockstep

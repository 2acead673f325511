import Mathlib.Logic.Function.Basic
import TrustRules.Proofs.Rule.Written
import TrustRules.Proofs.Trust.Commands
import TrustRules.Proofs.Trust.Printouts
import TrustRules.Trust

/-!
# Sessions with a server

A server stores one rule text for each trust and is reached by commands alone.
It may refuse any command, and refusing changes nothing.  Main statement: in
every sequence of calls, what is read of a trust is what the last call that
applied rules to it had written.
-/

namespace TrustRules

/-! ## Servers -/

/-- The answers that a server with these texts may give, and the texts it then has. -/
inductive Responds (stored : String → Option String) :
    String → Except Failure String → (String → Option String) → Prop where
  | applied (trust text reply : String) :
      Responds stored (Command.apply trust text) (.ok reply)
        (Function.update stored trust (some text))
  | refused (trust text : String) (failure : Failure) :
      Responds stored (Command.apply trust text) (.error failure) stored
  | printed {trust text : String} (found : stored trust = some text) :
      Responds stored (Command.read trust) (.ok (Trust.printed trust text)) stored
  | unread (trust : String) (failure : Failure) :
      Responds stored (Command.read trust) (.error failure) stored

/-- A shell behind which such a server stands; the texts are a view of its state. -/
structure IsServer {State : Type} (shell : Shell State)
    (stored : State → String → Option String) : Prop where
  apply : ∀ state trust text,
    Responds (stored state) (Command.apply trust text)
      (shell.execute state (Command.apply trust text)).1
      (stored (shell.execute state (Command.apply trust text)).2)
  read : ∀ state trust,
    Responds (stored state) (Command.read trust)
      (shell.execute state (Command.read trust)).1
      (stored (shell.execute state (Command.read trust)).2)

namespace Responds

variable {stored after : String → Option String} {answer : Except Failure String}

/-- A command that applies rules stores them for its trust and for no other. -/
theorem of_apply {trust text : String}
    (responds : Responds stored (Command.apply trust text) answer after) :
    (∃ reply, answer = .ok reply ∧ after = Function.update stored trust (some text)) ∨
      ∃ failure, answer = .error failure ∧ after = stored := by
  generalize same : Command.apply trust text = command at responds
  cases responds with
  | applied other otherText reply =>
      obtain ⟨rfl, rfl⟩ := Command.apply_inj same
      exact .inl ⟨reply, rfl, rfl⟩
  | refused other otherText failure => exact .inr ⟨failure, rfl, rfl⟩
  | printed found => exact absurd same (Command.apply_ne_read _ _ _)
  | unread other failure => exact absurd same (Command.apply_ne_read _ _ _)

/-- A command that reads prints the text of its own trust and stores nothing. -/
theorem of_read {trust : String} (responds : Responds stored (Command.read trust) answer after) :
    after = stored ∧
      ((∃ text, stored trust = some text ∧ answer = .ok (Trust.printed trust text)) ∨
        ∃ failure, answer = .error failure) := by
  generalize same : Command.read trust = command at responds
  cases responds with
  | applied other text reply => exact absurd same.symm (Command.apply_ne_read _ _ _)
  | refused other text failure => exact absurd same.symm (Command.apply_ne_read _ _ _)
  | printed found =>
      obtain rfl := Command.read_inj same
      exact ⟨rfl, .inl ⟨_, found, rfl⟩⟩
  | unread other failure => exact ⟨rfl, .inr ⟨failure, rfl⟩⟩

end Responds

/-! ## Turns -/

/-- The same shell, which also keeps its commands with the answers to them. -/
def Shell.observed {State : Type} (shell : Shell State) :
    Shell (State × List (String × Except Failure String)) :=
  shell.noting Prod.mk

/-- One call of a session, with its answer and the commands executed for it. -/
structure Turn where
  call : Call
  answer : Except Failure Answer
  /-- The commands, each with the answer of the shell. -/
  executed : List (String × Except Failure String)

namespace Call

variable {State : Type}

/-- Carry out a call and keep what happened. -/
def turn (shell : Shell State) (ending : LineEnding) (call : Call) (state : State) :
    Turn × State :=
  let outcome := call.run shell.observed ending (state, [])
  (⟨call, outcome.1.value, outcome.2.2⟩, outcome.2.1)

/-- Carry out calls one after the other and keep what happened in each. -/
def turns (shell : Shell State) (ending : LineEnding) : List Call → State → List Turn
  | [], _ => []
  | call :: rest, state =>
      let first := call.turn shell ending state
      first.1 :: turns shell ending rest first.2

/-- Observing a shell changes neither answers nor states. -/
theorem run_observed (shell : Shell State) (ending : LineEnding) (call : Call) (state : State)
    (log : List (String × Except Failure String)) :
    (call.run shell.observed ending (state, log)).1 = (call.run shell ending state).1 ∧
      (call.run shell.observed ending (state, log)).2.1 = (call.run shell ending state).2 := by
  cases call with
  | read trust =>
      simp only [run, Trust.read, Shell.observed, Shell.noting]
      rcases shell.execute state (Command.read trust) with ⟨failure | output, after⟩
      · exact ⟨rfl, rfl⟩
      · exact ⟨rfl, rfl⟩
  | apply trust set =>
      simp only [run, Trust.apply]
      cases (set.write ending).value with
      | error failure => exact ⟨rfl, rfl⟩
      | ok text =>
          simp only [Shell.observed, Shell.noting]
          rcases shell.execute state (Command.apply trust text) with ⟨failure | output, after⟩
          · exact ⟨rfl, rfl⟩
          · exact ⟨rfl, rfl⟩

/-- The turns of a session are its calls with their answers. -/
theorem turns_runAll (shell : Shell State) (ending : LineEnding) (calls : List Call)
    (state : State) :
    (turns shell ending calls state).map Turn.call = calls ∧
      (turns shell ending calls state).map Turn.answer =
        (runAll shell ending calls state).1.map Logged.value := by
  induction calls generalizing state with
  | nil => exact ⟨rfl, rfl⟩
  | cons call rest ih =>
      obtain ⟨sameAnswer, sameState⟩ := run_observed shell ending call state []
      obtain ⟨calls, answers⟩ := ih (call.run shell ending state).2
      have next : (call.turn shell ending state).2 = (call.run shell ending state).2 := sameState
      have answer : (call.turn shell ending state).1.answer =
          (call.run shell ending state).1.value := congrArg Logged.value sameAnswer
      rw [turns, runAll]
      dsimp only
      rw [List.map_cons, List.map_cons, List.map_cons, next, calls, answers, answer]
      exact ⟨rfl, rfl⟩

/-! ## One turn -/

/-- A rule set that cannot be written executes nothing. -/
theorem turn_apply_of_error {shell : Shell State} {ending : LineEnding} {trust : String}
    {set : RuleSet} {failure : Failure} (flawed : (set.write ending).value = .error failure)
    (state : State) :
    (Call.apply trust set).turn shell ending state =
      (⟨.apply trust set, .error failure, []⟩, state) := by
  simp only [turn, run, Trust.apply, flawed]
  rfl

/-- A rule set that can be written executes one command, whose failure is the answer. -/
theorem turn_apply_of_ok {shell : Shell State} {ending : LineEnding} {trust text : String}
    {set : RuleSet} (written : (set.write ending).value = .ok text) (state : State) :
    (Call.apply trust set).turn shell ending state =
      let reply := shell.execute state (Command.apply trust text)
      (⟨.apply trust set, reply.1.map fun _ => .applied, [(Command.apply trust text, reply.1)]⟩,
        reply.2) := by
  simp only [turn, run, Trust.apply, written, Shell.observed, Shell.noting]
  rcases shell.execute state (Command.apply trust text) with ⟨failure | output, after⟩
  · rfl
  · rfl

/-- A call that reads executes one command and looks for the rules in its output. -/
theorem turn_read (shell : Shell State) (ending : LineEnding) (trust : String) (state : State) :
    (Call.read trust).turn shell ending state =
      let reply := shell.execute state (Command.read trust)
      (⟨.read trust, reply.1.bind fun output => (Trust.ofOutput trust output).value.map .reading,
        [(Command.read trust, reply.1)]⟩, reply.2) := by
  simp only [turn, run, Trust.read, Shell.observed, Shell.noting]
  rcases shell.execute state (Command.read trust) with ⟨failure | output, after⟩
  · rfl
  · rfl

end Call

/-! ## Sessions -/

namespace Turn

/-- The rule set that a turn applied to this trust, if it did. -/
def applied? (trust : String) (turn : Turn) : Option RuleSet :=
  match turn.call, turn.answer with
  | .apply target set, .ok _ => if target = trust then some set else none
  | _, _ => none

/-- The rule set that the last of several turns applied to this trust. -/
def lastApplied? (trust : String) (turns : List Turn) : Option RuleSet :=
  (turns.filterMap (applied? trust)).getLast?

theorem lastApplied?_append_singleton (trust : String) (turns : List Turn) (turn : Turn) :
    lastApplied? trust (turns ++ [turn]) =
      (turn.applied? trust).or (lastApplied? trust turns) := by
  rw [lastApplied?, List.filterMap_append, List.getLast?_append, lastApplied?]
  cases applied : turn.applied? trust with
  | none => simp [applied]
  | some set => simp [applied]

/--
A turn does what is expected after the turns before it.  Rules with a flaw are
refused without a command; any other call executes one command and passes its
failure on; and what is read is the text of the rules applied last.
-/
def Sound (ending : LineEnding) (before : List Turn) (turn : Turn) : Prop :=
  match turn.call with
  | .apply trust set =>
      (∀ front rule rest failure, set.rules = front ++ rule :: rest →
          (∀ earlier ∈ front, earlier.check = .ok ()) → rule.check = .error failure →
          turn.executed = [] ∧ turn.answer = .error failure) ∧
        ((∀ rule ∈ set.rules, rule.check = .ok ()) →
          ∃ text reply, (set.write ending).value = .ok text ∧
            turn.executed = [(Command.apply trust text, reply)] ∧
            turn.answer = reply.map fun _ => .applied)
  | .read trust =>
      ∃ reply, turn.executed = [(Command.read trust, reply)] ∧
        (∀ failure, reply = .error failure → turn.answer = .error failure) ∧
        ∀ output, reply = .ok output →
          ∃ set text, lastApplied? trust before = some set ∧
            (set.write ending).value = .ok text ∧
            turn.answer = .ok (.reading (Reading.ofText text))

/-- The stored texts are those of the rule sets that were applied last. -/
def Agree (ending : LineEnding) (stored : String → Option String) (turns : List Turn) : Prop :=
  ∀ trust, stored trust =
    (lastApplied? trust turns).bind fun set => (set.write ending).value.toOption

end Turn

theorem Trust.value_ofOutput_printed (trust text : String) :
    (Trust.ofOutput trust (Trust.printed trust text)).value = .ok (Reading.ofText text) := by
  rw [Trust.ofOutput, Trust.get?_printed]
  rfl

namespace RuleSet

/-- The first rule that cannot be written is the one whose failure writing reports. -/
theorem value_write_of_error (ending : LineEnding) {set : RuleSet} {front rest : List Rule}
    {rule : Rule} {failure : Failure} (parts : set.rules = front ++ rule :: rest)
    (before : ∀ earlier ∈ front, earlier.check = .ok ()) (flawed : rule.check = .error failure) :
    (set.write ending).value = .error failure := by
  have first : front.findSome? Rule.failure? = none := by
    rw [List.findSome?_eq_none_iff]
    intro earlier mem
    rw [Rule.failure?_eq_none_iff, ← Rule.check_eq_ok_iff]
    exact before earlier mem
  have isFailure : rule.failure? = some failure := by
    rw [Rule.check_eq] at flawed
    cases found : rule.failure? with
    | none => rw [found] at flawed; cases flawed
    | some other =>
        rw [found] at flawed
        cases flawed
        rfl
  rw [value_write, parts, List.findSome?_append, first, Option.none_or, List.findSome?_cons,
    isFailure]

end RuleSet

namespace Call

variable {State : Type} {shell : Shell State} {stored : State → String → Option String}

/-- A turn that applies nothing keeps what was applied last. -/
theorem agree_append_of_none {ending : LineEnding} {texts : String → Option String}
    {before : List Turn} (agree : Turn.Agree ending texts before) {turn : Turn}
    (none : ∀ trust, turn.applied? trust = none) : Turn.Agree ending texts (before ++ [turn]) := by
  intro trust
  rw [Turn.lastApplied?_append_singleton, none, Option.none_or]
  exact agree trust

/-- One turn that applies rules is sound, and the server agrees with it afterwards. -/
theorem sound_turn_apply (server : IsServer shell stored) (ending : LineEnding) (trust : String)
    (set : RuleSet) {state : State} {before : List Turn}
    (agree : Turn.Agree ending (stored state) before) :
    ((Call.apply trust set).turn shell ending state).1.Sound ending before ∧
      Turn.Agree ending (stored ((Call.apply trust set).turn shell ending state).2)
        (before ++ [((Call.apply trust set).turn shell ending state).1]) := by
  cases written : (set.write ending).value with
  | error failure =>
      rw [turn_apply_of_error written]
      refine ⟨⟨fun front rule rest first parts earlier flawed => ?_, fun valid => ?_⟩, ?_⟩
      · rw [RuleSet.value_write_of_error ending parts earlier flawed, Except.error.injEq] at written
        exact ⟨rfl, congrArg Except.error written.symm⟩
      · have shaped : ∀ rule ∈ set.rules, rule.WellShaped :=
          fun rule mem => rule.check_eq_ok_iff.1 (valid rule mem)
        rw [RuleSet.value_write_eq_ok_iff.2 ⟨shaped, rfl⟩] at written
        cases written
      · exact agree_append_of_none agree fun _ => rfl
  | ok text =>
      rw [turn_apply_of_ok written]
      refine ⟨⟨fun front rule rest first parts earlier flawed => ?_, fun _ => ?_⟩, ?_⟩
      · rw [RuleSet.value_write_of_error ending parts earlier flawed] at written
        cases written
      · exact ⟨text, _, written, rfl, rfl⟩
      · rcases (server.apply state trust text).of_apply with
          ⟨reply, answer, after⟩ | ⟨failure, answer, after⟩
        · dsimp only
          rw [answer, after]
          intro other
          rw [Turn.lastApplied?_append_singleton]
          by_cases same : trust = other
          · subst same
            have applied : Turn.applied? trust
                ⟨.apply trust set, (Except.ok reply).map fun _ => .applied,
                  [(Command.apply trust text, .ok reply)]⟩ = some set := if_pos rfl
            rw [applied, Option.some_or, Option.bind_some, written, Function.update_self]
            rfl
          · have kept : Turn.applied? other
                ⟨.apply trust set, (Except.ok reply).map fun _ => .applied,
                  [(Command.apply trust text, .ok reply)]⟩ = none := if_neg same
            rw [kept, Option.none_or, Function.update_of_ne (Ne.symm same)]
            exact agree other
        · dsimp only
          rw [answer, after]
          exact agree_append_of_none agree fun _ => rfl

/-- One turn that reads is sound, and the server agrees with it afterwards. -/
theorem sound_turn_read (server : IsServer shell stored) (ending : LineEnding) (trust : String)
    {state : State} {before : List Turn} (agree : Turn.Agree ending (stored state) before) :
    ((Call.read trust).turn shell ending state).1.Sound ending before ∧
      Turn.Agree ending (stored ((Call.read trust).turn shell ending state).2)
        (before ++ [((Call.read trust).turn shell ending state).1]) := by
  obtain ⟨kept, answers⟩ := (server.read state trust).of_read
  rw [turn_read]
  constructor
  · refine ⟨_, rfl, fun failure refused => ?_, fun output printed => ?_⟩
    · dsimp only at refused ⊢
      rw [refused]
      rfl
    · dsimp only at printed ⊢
      rcases answers with ⟨text, found, answer⟩ | ⟨failure, refused⟩
      · rw [agree trust] at found
        obtain ⟨set, isLast, text?⟩ := Option.bind_eq_some_iff.1 found
        have written : (set.write ending).value = .ok text := by
          cases value : (set.write ending).value with
          | error failure => rw [value] at text?; cases text?
          | ok other =>
              rw [value] at text?
              exact congrArg Except.ok (Option.some.inj text?)
        refine ⟨set, text, isLast, written, ?_⟩
        rw [answer]
        exact congrArg (Except.map Answer.reading) (Trust.value_ofOutput_printed trust text)
      · rw [refused] at printed
        cases printed
  · dsimp only
    rw [kept]
    exact agree_append_of_none agree fun _ => rfl

/-- From agreement on, every turn of a session is sound after the turns before it. -/
theorem sound_turns (server : IsServer shell stored) (ending : LineEnding) (calls : List Call)
    {state : State} {earlier : List Turn} (agree : Turn.Agree ending (stored state) earlier) :
    ∀ before turn after, turns shell ending calls state = before ++ turn :: after →
      turn.Sound ending (earlier ++ before) := by
  induction calls generalizing state earlier with
  | nil =>
      intro before turn after parts
      rw [turns] at parts
      exact absurd parts.symm (by simp)
  | cons call rest ih =>
      have step : (call.turn shell ending state).1.Sound ending earlier ∧
          Turn.Agree ending (stored (call.turn shell ending state).2)
            (earlier ++ [(call.turn shell ending state).1]) := by
        cases call with
        | read trust => exact sound_turn_read server ending trust agree
        | apply trust set => exact sound_turn_apply server ending trust set agree
      intro before turn after parts
      rw [turns] at parts
      cases before with
      | nil =>
          rw [List.nil_append, List.cons.injEq] at parts
          rw [List.append_nil, ← parts.1]
          exact step.1
      | cons first before =>
          rw [List.cons_append, List.cons.injEq] at parts
          have later := ih step.2 before turn after parts.2
          rw [parts.1, List.append_assoc, List.singleton_append] at later
          exact later

/--
Every session with a server that starts out empty is sound turn by turn, and
its turns are the calls with the answers that they return.
-/
theorem sound_session (server : IsServer shell stored) (ending : LineEnding) (calls : List Call)
    (start : State) (empty : ∀ trust, stored start trust = none) :
    (turns shell ending calls start).map Turn.call = calls ∧
      (turns shell ending calls start).map Turn.answer =
        (runAll shell ending calls start).1.map Logged.value ∧
      ∀ before turn after, turns shell ending calls start = before ++ turn :: after →
        turn.Sound ending before := by
  obtain ⟨sameCalls, sameAnswers⟩ := turns_runAll shell ending calls start
  have agree : Turn.Agree ending (stored start) [] := by
    intro trust
    rw [empty]
    rfl
  exact ⟨sameCalls, sameAnswers, sound_turns server ending calls agree⟩

/-! ## A server in memory -/

/-- A server that keeps its texts in memory and refuses commands by a given pattern. -/
def memoryShell : Shell ((String → Option String) × List Bool) where
  execute state command :=
    if state.2.headD false then (.error (.command "refused"), (state.1, state.2.tail))
    else
      match Command.applied? command with
      | some (trust, text) =>
          (.ok "", (Function.update state.1 trust (some text), state.2.tail))
      | none =>
          match (Command.requested? command).bind fun trust =>
            (state.1 trust).map (Trust.printed trust) with
          | some output => (.ok output, (state.1, state.2.tail))
          | none => (.error (.command "not found"), (state.1, state.2.tail))

theorem isServer_memoryShell : IsServer memoryShell Prod.fst where
  apply state trust text := by
    simp only [memoryShell, Command.applied?_apply]
    split
    · exact .refused trust text _
    · exact .applied trust text ""
  read state trust := by
    simp only [memoryShell, Command.applied?_read, Command.requested?_read, Option.bind_some]
    split
    · exact .unread trust _
    · cases found : state.1 trust with
      | none => exact .unread trust _
      | some text => exact .printed found

/-- Reads before and after calls that are refused, invalid or carried out. -/
def sessionExample : List Call :=
  [.read "o'Brien\r\n", .apply "o'Brien\r\n" ⟨[.custom "'" "''; \x7d"]⟩,
    .read "o'Brien\r\n", .apply "x" ⟨[.templated "a" .mapClaims, .templated "" .custom]⟩,
    .apply "o'Brien\r\n" ⟨[]⟩, .read "o'Brien\r\n", .read "x"]

theorem sound_sessionExample :
    IsServer memoryShell Prod.fst ∧
      ∀ before turn after,
        turns memoryShell .crlf sessionExample (fun _ => none, [false, false, false, true]) =
          before ++ turn :: after →
        turn.Sound .crlf before := by
  obtain ⟨_, _, sound⟩ := sound_session isServer_memoryShell .crlf sessionExample
    (fun _ => none, [false, false, false, true]) fun _ => rfl
  exact ⟨isServer_memoryShell, sound⟩

end Call

end TrustRules

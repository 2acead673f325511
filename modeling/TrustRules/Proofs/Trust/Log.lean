import Mathlib.Data.List.Forall2
import Mathlib.Data.List.TakeWhile
import TrustRules.Event.Json
import TrustRules.Proofs.Reading.Log
import TrustRules.Proofs.Trust.Sessions

/-!
# Logs of sessions

Each call of a session logs its own events, and how many depends on the point
where it fails.  Main statement: the log tells of each call how far it came, and
of a session which calls succeeded and which outputs were without rules.
-/

namespace TrustRules

/-! ## The log of a written rule set -/

namespace RuleSet

/-- What is logged while these rules are written: the name and the template of templated ones. -/
def ruleEvents (rules : List Rule) : List Event :=
  (rules.filter (!·.isCustom)).map fun rule => .ruleWritten rule.name rule.template.identifier

theorem ruleEvents_cons (ending : LineEnding) (rule : Rule) (rest : List Rule) :
    ruleEvents (rule :: rest) = (rule.write ending).events ++ ruleEvents rest := by
  rw [ruleEvents, List.filter_cons, Rule.write]
  cases rule.isCustom <;> rfl

/-- Rules either can all be written, or a first one cannot. -/
theorem all_ok_or_first_error (rules : List Rule) :
    (∀ rule ∈ rules, rule.check = .ok ()) ∨
      ∃ front rule rest failure, rules = front ++ rule :: rest ∧
        (∀ earlier ∈ front, earlier.check = .ok ()) ∧ rule.check = .error failure := by
  simp only [Rule.check_eq_ok_iff_failure?, Rule.check_eq_error_iff]
  cases first : rules.findSome? Rule.failure? with
  | none => exact .inl (List.findSome?_eq_none_iff.1 first)
  | some failure =>
      obtain ⟨front, rule, rest, parts, flawed, before⟩ := List.findSome?_eq_some_iff.1 first
      exact .inr ⟨front, rule, rest, failure, parts, before, flawed⟩

/-- Rules are logged as long as they can be written. -/
theorem events_writeRules (ending : LineEnding) (rules : List Rule) :
    (writeRules ending rules).events = ruleEvents (rules.takeWhile (·.failure?.isNone)) := by
  induction rules with
  | nil => rfl
  | cons rule rest ih =>
      rw [writeRules, Rule.check_eq]
      cases flawed : rule.failure? with
      | some failure =>
          rw [List.takeWhile_cons_of_neg (by simp [flawed])]
          rfl
      | none =>
          rw [List.takeWhile_cons_of_pos (by simp [flawed]), ruleEvents_cons ending, ← ih]

theorem events_write_of_error (ending : LineEnding) {set : RuleSet} {front rest : List Rule}
    {rule : Rule} {failure : Failure} (parts : set.rules = front ++ rule :: rest)
    (before : ∀ earlier ∈ front, earlier.check = .ok ()) (flawed : rule.check = .error failure) :
    (set.write ending).events = ruleEvents front := by
  have written := value_write_of_error ending parts before flawed
  have passed : ∀ earlier ∈ front, earlier.failure?.isNone = true := by
    intro earlier mem
    rw [(earlier.check_eq_ok_iff_failure?).1 (before earlier mem)]
    rfl
  rw [Rule.check_eq_error_iff] at flawed
  have logged := events_writeRules ending set.rules
  rw [parts, List.takeWhile_append_of_pos passed, List.takeWhile_cons_of_neg (by simp [flawed]),
    List.append_nil, ← parts] at logged
  rw [write] at written ⊢
  cases value : (writeRules ending set.rules).value with
  | error other => exact logged
  | ok chars => simp [value] at written

theorem events_write_of_ok {ending : LineEnding} {set : RuleSet} {text : String}
    (written : (set.write ending).value = .ok text) :
    (set.write ending).events =
      ruleEvents set.rules ++ [.textWritten set.size text.utf8ByteSize] := by
  have passed : ∀ rule ∈ set.rules, rule.failure?.isNone = true := by
    intro rule mem
    rw [(rule.failure?_eq_none_iff).2 ((value_write_eq_ok_iff.1 written).1 rule mem)]
    rfl
  have logged := events_writeRules ending set.rules
  rw [List.takeWhile_eq_self_iff.2 passed] at logged
  rw [write] at written ⊢
  cases value : (writeRules ending set.rules).value with
  | error other => simp [value] at written
  | ok chars =>
      simp only [value, Except.ok.injEq] at written ⊢
      rw [written, logged]

end RuleSet

/-! ## The log of a turn -/

/--
The log of a turn tells how far it came.  While rules are written, the templated
ones before the first flaw are logged; a text that is written whole is logged
with its length, whatever the shell answers; and what succeeded is logged last.
-/
def Turn.IsLog (ending : LineEnding) (turn : Turn) (events : List Event) : Prop :=
  match turn.call with
  | .apply trust set =>
      (∃ front rule rest failure, set.rules = front ++ rule :: rest ∧
          (∀ earlier ∈ front, earlier.check = .ok ()) ∧ rule.check = .error failure ∧
          turn.executed = [] ∧ turn.answer = .error failure ∧
          events = RuleSet.ruleEvents front) ∨
        (∀ rule ∈ set.rules, rule.check = .ok ()) ∧
          ∃ text reply, (set.write ending).value = .ok text ∧
            turn.executed = [(Command.apply trust text, reply)] ∧
            turn.answer = reply.map (fun _ => .applied) ∧
            events = RuleSet.ruleEvents set.rules ++
              .textWritten set.size text.utf8ByteSize ::
                if reply.isOk then [.trustApplied trust set.size] else []
  | .read trust =>
      ∃ reply, turn.executed = [(Command.read trust, reply)] ∧
        ((∃ failure, reply = .error failure ∧ turn.answer = .error failure ∧ events = []) ∨
          ∃ output, reply = .ok output ∧
            ((∃ failure, turn.answer = .error failure ∧ events = [.rulesMissing trust output]) ∨
              ∃ text, (Printout.ofText output).get? Command.rulesKey = some text ∧
                turn.answer = .ok (.reading (Reading.ofText text)) ∧
                events = (Reading.logged text).events ++
                  [.trustRead trust (Reading.ofText text).set.size
                    (Reading.ofText text).skipped.length]))

namespace Call

variable {State : Type} (shell : Shell State) (ending : LineEnding)

theorem events_run_apply_of_error {trust : String} {set : RuleSet} {failure : Failure}
    (flawed : (set.write ending).value = .error failure) (state : State) :
    ((apply trust set).run shell ending state).1.events = (set.write ending).events := by
  simp only [run, Trust.apply, flawed]

theorem events_run_apply_of_ok {trust text : String} {set : RuleSet}
    (written : (set.write ending).value = .ok text) (state : State) :
    ((apply trust set).run shell ending state).1.events =
      (set.write ending).events ++
        if (shell.execute state (Command.apply trust text)).1.isOk then
          [.trustApplied trust set.size] else [] := by
  simp only [run, Trust.apply, written]
  rcases shell.execute state (Command.apply trust text) with ⟨failure | output, after⟩
  · exact (List.append_nil _).symm
  · rfl

theorem isLog_turn_apply (trust : String) (set : RuleSet) (state : State) :
    ((apply trust set).turn shell ending state).1.IsLog ending
      ((apply trust set).run shell ending state).1.events := by
  rcases RuleSet.all_ok_or_first_error set.rules with
    valid | ⟨front, rule, rest, failure, parts, before, flawed⟩
  · have shaped : ∀ rule ∈ set.rules, rule.WellShaped :=
      fun rule mem => rule.check_eq_ok_iff.1 (valid rule mem)
    obtain ⟨text, written⟩ : ∃ text, (set.write ending).value = .ok text :=
      ⟨_, RuleSet.value_write_eq_ok_iff.2 ⟨shaped, rfl⟩⟩
    rw [turn_apply_of_ok written, events_run_apply_of_ok shell ending written,
      RuleSet.events_write_of_ok written, List.append_assoc, List.singleton_append]
    exact .inr ⟨valid, text, _, written, rfl, rfl, rfl⟩
  · have refused := RuleSet.value_write_of_error ending parts before flawed
    rw [turn_apply_of_error refused, events_run_apply_of_error shell ending refused,
      RuleSet.events_write_of_error ending parts before flawed]
    exact .inl ⟨front, rule, rest, failure, parts, before, flawed, rfl, rfl, rfl⟩

theorem isLog_turn_read (trust : String) (state : State) :
    ((read trust).turn shell ending state).1.IsLog ending
      ((read trust).run shell ending state).1.events := by
  rw [turn_read]
  refine ⟨_, rfl, ?_⟩
  simp only [run, Trust.read]
  rcases shell.execute state (Command.read trust) with ⟨failure | output, after⟩
  · exact .inl ⟨failure, rfl, rfl, rfl⟩
  · refine .inr ⟨output, rfl, ?_⟩
    dsimp only [Except.bind]
    rw [Trust.ofOutput]
    cases (Printout.ofText output).get? Command.rulesKey with
    | none => exact .inl ⟨_, rfl, rfl⟩
    | some text => exact .inr ⟨text, rfl, rfl, rfl⟩

theorem isLog_turn (call : Call) (state : State) :
    (call.turn shell ending state).1.IsLog ending (call.run shell ending state).1.events := by
  cases call with
  | read trust => exact isLog_turn_read shell ending trust state
  | apply trust set => exact isLog_turn_apply shell ending trust set state

/-- A text that the shell refuses was written all the same, and is logged with its bytes. -/
example :
    ((apply "t" ⟨[.templated "ä" .mapClaims]⟩).run memoryShell .lf
      (fun _ => none, [true])).1.events =
      [.ruleWritten "ä" "MapClaims", .textWritten 1 45] := by
  decide +kernel

theorem isLog_turns (calls : List Call) (state : State) :
    List.Forall₂ (Turn.IsLog ending) (turns shell ending calls state)
      ((runAll shell ending calls state).1.map Logged.events) := by
  induction calls generalizing state with
  | nil => exact .nil
  | cons call rest ih =>
      have next : (call.turn shell ending state).2 = (call.run shell ending state).2 :=
        (run_observed shell ending call state []).2
      have later := ih (call.run shell ending state).2
      rw [turns, runAll]
      dsimp only
      rw [List.map_cons, next]
      exact .cons (isLog_turn shell ending call state) later

end Call

/-! ## The log of a session -/

namespace Event

/-- The event has this level, activity and phase. -/
def isOf (level activity phase : String) (event : Event) : Bool :=
  event.level = level && event.activity = activity && event.phase = phase

/-- Events of one activity are not of another one. -/
theorem filter_isOf_of_other {activity other : String} (differ : other ≠ activity)
    (level phase : String) {events : List Event} (all : ∀ event ∈ events, event.activity = other) :
    events.filter (isOf level activity phase) = [] := by
  rw [List.filter_eq_nil_iff]
  intro event mem
  simp [isOf, all event mem, differ]

end Event

namespace Turn

/-- What is logged of a turn that applied its rules. -/
def appliedEvent? (turn : Turn) : Option Event :=
  match turn.call, turn.answer with
  | .apply trust set, .ok _ => some (.trustApplied trust set.size)
  | _, _ => none

/-- What is logged of a turn that read rules. -/
def readEvent? (turn : Turn) : Option Event :=
  match turn.call, turn.answer with
  | .read trust, .ok (.reading reading) =>
      some (.trustRead trust reading.set.size reading.skipped.length)
  | _, _ => none

/-- What is logged of a turn whose command printed something, but no rules. -/
def missingEvent? (turn : Turn) : Option Event :=
  match turn.call, turn.answer, turn.executed with
  | .read trust, .error _, [(_, .ok output)] => some (.rulesMissing trust output)
  | _, _, _ => none

/-- What is logged of a turn about its trust: one event at most. -/
def trustEvent? (turn : Turn) : Option Event :=
  (turn.appliedEvent?.or turn.readEvent?).or turn.missingEvent?

end Turn

theorem RuleSet.activity_of_mem_ruleEvents {rules : List Rule} {event : Event}
    (mem : event ∈ ruleEvents rules) : event.activity = "Serialize" := by
  obtain ⟨rule, -, rfl⟩ := List.mem_map.1 mem
  rfl

namespace Turn

variable {ending : LineEnding}

/-- All other events of a turn are about rules that are written or read. -/
theorem IsLog.filter_eq {turn : Turn} {events : List Event} (log : turn.IsLog ending events)
    (level phase : String) :
    events.filter (Event.isOf level "Issuance" phase) =
      turn.trustEvent?.toList.filter (Event.isOf level "Issuance" phase) := by
  obtain ⟨call, answer, executed⟩ := turn
  cases call with
  | apply trust set =>
      have quiet (rules : List Rule) :
          (RuleSet.ruleEvents rules).filter (Event.isOf level "Issuance" phase) = [] :=
        Event.filter_isOf_of_other (by decide) level phase fun _ mem =>
          RuleSet.activity_of_mem_ruleEvents mem
      rcases log with ⟨front, rule, rest, failure, -, -, -, -, answered, rfl⟩ |
        ⟨-, text, reply, -, -, answered, rfl⟩
      · dsimp only at answered
        rw [quiet, answered]
        rfl
      · have written : Event.isOf level "Issuance" phase
            (.textWritten set.size text.utf8ByteSize) = false := by
          simp [Event.isOf, Event.activity]
        dsimp only at answered
        rw [List.filter_append, quiet, List.nil_append,
          List.filter_cons_of_neg (by rw [written]; exact Bool.false_ne_true), answered]
        cases reply <;> rfl
  | read trust =>
      obtain ⟨reply, ran, ⟨failure, rfl, answered, rfl⟩ | ⟨output, rfl, outcome⟩⟩ := log
      · dsimp only at ran answered
        rw [ran, answered]
        rfl
      · rcases outcome with ⟨failure, answered, rfl⟩ | ⟨text, -, answered, rfl⟩
        · dsimp only at ran answered
          rw [ran, answered]
          rfl
        · have quiet : (Reading.logged text).events.filter
              (Event.isOf level "Issuance" phase) = [] :=
            Event.filter_isOf_of_other (by decide) level phase fun _ mem =>
              Reading.activity_of_mem_logged mem
          dsimp only at ran answered
          rw [List.filter_append, quiet, ran, answered]
          rfl

/-- The event about the trust is of three kinds, by the call and its answer. -/
theorem filter_trustEvent? (turn : Turn) :
    turn.trustEvent?.toList.filter (Event.isOf "INFO" "Issuance" "Apply") =
        turn.appliedEvent?.toList ∧
      turn.trustEvent?.toList.filter (Event.isOf "INFO" "Issuance" "Read") =
        turn.readEvent?.toList ∧
      turn.trustEvent?.toList.filter (Event.isOf "DEBUG" "Issuance" "Read") =
        turn.missingEvent?.toList := by
  -- by the call, its answer, and whether exactly one command was executed and with what reply
  obtain ⟨_ | _, _ | _ | _, _ | ⟨⟨_, _ | _⟩, _ | _⟩⟩ := turn <;> exact ⟨rfl, rfl, rfl⟩

/-- What is kept of a whole log is what is kept of each turn's event about the trust. -/
theorem filter_flatten_logs {level phase : String} {view : Turn → Option Event}
    (kept : ∀ turn : Turn,
      turn.trustEvent?.toList.filter (Event.isOf level "Issuance" phase) = (view turn).toList)
    {turns : List Turn} {logs : List (List Event)}
    (each : List.Forall₂ (IsLog ending) turns logs) :
    logs.flatten.filter (Event.isOf level "Issuance" phase) = turns.filterMap view := by
  induction each with
  | nil => rfl
  | @cons turn events rest others log _ ih =>
      rw [List.flatten_cons, List.filter_append, log.filter_eq, kept, ih]
      cases seen : view turn with
      | none => rw [List.filterMap_cons_none seen]; rfl
      | some event => rw [List.filterMap_cons_some seen]; rfl

end Turn

/-- The log of a session agrees with its turns; it holds one list of events for each call. -/
structure IsSessionLog (ending : LineEnding) (turns : List Turn) (logs : List (List Event)) :
    Prop where
  /-- The log of each call tells how far it came. -/
  each : List.Forall₂ (Turn.IsLog ending) turns logs
  /-- Applied rules are reported if and only if the call succeeded. -/
  applied : logs.flatten.filter (Event.isOf "INFO" "Issuance" "Apply") =
    turns.filterMap Turn.appliedEvent?
  /-- Rules that were read are reported if and only if the call succeeded. -/
  read : logs.flatten.filter (Event.isOf "INFO" "Issuance" "Read") =
    turns.filterMap Turn.readEvent?
  /-- An output is kept if and only if there was one and its call failed. -/
  missing : logs.flatten.filter (Event.isOf "DEBUG" "Issuance" "Read") =
    turns.filterMap Turn.missingEvent?

/--
With any shell, the events of a session are a log of its turns, and these are
the calls with the answers that they return.
-/
theorem Call.isSessionLog_runAll {State : Type} (shell : Shell State) (ending : LineEnding)
    (calls : List Call) (start : State) :
    (turns shell ending calls start).map Turn.call = calls ∧
      (turns shell ending calls start).map Turn.answer =
        (runAll shell ending calls start).1.map Logged.value ∧
      IsSessionLog ending (turns shell ending calls start)
        ((runAll shell ending calls start).1.map Logged.events) := by
  obtain ⟨sameCalls, sameAnswers⟩ := turns_runAll shell ending calls start
  have each := isLog_turns shell ending calls start
  exact ⟨sameCalls, sameAnswers, each,
    Turn.filter_flatten_logs (fun turn => turn.filter_trustEvent?.1) each,
    Turn.filter_flatten_logs (fun turn => turn.filter_trustEvent?.2.1) each,
    Turn.filter_flatten_logs (fun turn => turn.filter_trustEvent?.2.2) each⟩

end TrustRules

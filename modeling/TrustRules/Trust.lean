import TrustRules.Command
import TrustRules.Printout
import TrustRules.Reading
import TrustRules.Rule.Printer

/-!
# Rules of a trust

A trust's rules are read and replaced through a shell that runs commands.  The
shell is a parameter: it answers each command with an output or a failure, and
what it does may depend on all that happened before, which is its state.
-/

namespace TrustRules

/-- Something that runs commands. -/
structure Shell (State : Type) where
  /-- The answer to a command, and the state after it. -/
  execute : State → String → Except Failure String × State

/-- The same shell, which also keeps a note on each command and its answer. -/
def Shell.noting {State Note : Type} (shell : Shell State)
    (note : String → Except Failure String → Note) : Shell (State × List Note) where
  execute state command :=
    let answer := shell.execute state.1 command
    (answer.1, (answer.2, state.2 ++ [note command answer.1]))

/-- The same shell, which also keeps the commands that it was given. -/
def Shell.recorded {State : Type} (shell : Shell State) : Shell (State × List String) :=
  shell.noting fun command _ => command

/-- What is asked of a trust. -/
inductive Call where
  /-- Read the rules of a trust. -/
  | read (trust : String)
  /-- Replace the rules of a trust. -/
  | apply (trust : String) (set : RuleSet)
  deriving DecidableEq, Repr

/-- What a call that succeeds returns. -/
inductive Answer where
  | reading (reading : Reading)
  | applied
  deriving DecidableEq, Repr

namespace Trust

/-- The rules in the output of the command that reads them. -/
def ofOutput (trust output : String) : Logged (Except Failure Reading) :=
  match (Printout.ofText output).get? Command.rulesKey with
  | none =>
      { value := .error (.missingKey Command.rulesKey)
        events := [.rulesMissing trust output] }
  | some text =>
      let read := Reading.logged text
      { value := .ok read.value
        events :=
          read.events ++
            [.trustRead trust read.value.set.size read.value.skipped.length] }

/-- Read the rules of a trust. -/
def read {State : Type} (shell : Shell State) (trust : String) (state : State) :
    Logged (Except Failure Reading) × State :=
  match shell.execute state (Command.read trust) with
  | (.error failure, after) => (⟨.error failure, []⟩, after)
  | (.ok output, after) => (ofOutput trust output, after)

/--
Replace the rules of a trust.  A rule set with a rule of a wrong shape is
refused before the shell hears of it.
-/
def apply {State : Type} (shell : Shell State) (ending : LineEnding) (trust : String)
    (set : RuleSet) (state : State) : Logged (Except Failure Unit) × State :=
  let written := set.write ending
  match written.value with
  | .error failure => (⟨.error failure, written.events⟩, state)
  | .ok text =>
      match shell.execute state (Command.apply trust text) with
      | (.error failure, after) => (⟨.error failure, written.events⟩, after)
      | (.ok _, after) =>
          (⟨.ok (), written.events ++ [.trustApplied trust set.size]⟩, after)

end Trust

namespace Call

/-- Carry out a call. -/
def run {State : Type} (shell : Shell State) (ending : LineEnding) (call : Call)
    (state : State) : Logged (Except Failure Answer) × State :=
  match call with
  | .read trust =>
      let outcome := Trust.read shell trust state
      (⟨outcome.1.value.map .reading, outcome.1.events⟩, outcome.2)
  | .apply trust set =>
      let outcome := Trust.apply shell ending trust set state
      (⟨outcome.1.value.map fun _ => .applied, outcome.1.events⟩, outcome.2)

/-- Carry out calls one after the other. -/
def runAll {State : Type} (shell : Shell State) (ending : LineEnding) :
    List Call → State → List (Logged (Except Failure Answer)) × State
  | [], state => ([], state)
  | call :: rest, state =>
      let first := call.run shell ending state
      let others := runAll shell ending rest first.2
      (first.1 :: others.1, others.2)

end Call

end TrustRules

import TrustRules.Proofs.Reading.Blocks

/-!
# Readings by runs of lines

A run is a part of the lines of a text that holds no blank line and is as long
as it can be.  Main statement: the blocks of a text are its runs from left to
right, each joined with line feeds and trimmed, without those of which nothing
is left.  So the separators, which take two line ends at a time, are found in
such a way that any number of blank lines between two runs counts like one.
-/

namespace TrustRules

open Text

namespace Block

/-! ## Runs -/

/-- Consecutive lines of a text with the lines before and after them. -/
structure Run where
  before : List (List Char)
  lines : List (List Char)
  after : List (List Char)
  deriving DecidableEq, Repr

namespace Run

variable {run : Run} {line : List Char} {ls : List (List Char)}

/-- The text of the lines. -/
def text (run : Run) : List Char :=
  ['\n'].intercalate run.lines

/-- No line of a run is blank, but the lines next to it are, as far as there are any. -/
structure IsIn (ls : List (List Char)) (run : Run) : Prop where
  whole : ls = run.before ++ (run.lines ++ run.after)
  nonempty : run.lines ≠ []
  solid : ∀ l ∈ run.lines, isBlankLine l = false
  start : ∀ l ∈ run.before.getLast?, isBlankLine l = true
  stop : ∀ l ∈ run.after.head?, isBlankLine l = true

/-- The same lines with one more line before them. -/
def behind (line : List Char) (run : Run) : Run :=
  { run with before := line :: run.before }

/-- One more line leaves a run a run if it is blank, or if it does not stand next to it. -/
theorem isIn_behind_iff :
    (run.behind line).IsIn (line :: ls) ↔
      run.IsIn ls ∧ (run.before = [] → isBlankLine line = true) := by
  obtain ⟨before, inner, after⟩ := run
  constructor
  · rintro ⟨whole, nonempty, solid, start, stop⟩
    refine ⟨⟨List.tail_eq_of_cons_eq whole, nonempty, solid, ?_, stop⟩, ?_⟩
    · intro l last
      exact start l (List.mem_getLast?_cons last)
    · rintro rfl
      exact start line rfl
  · rintro ⟨⟨whole, nonempty, solid, start, stop⟩, alone⟩
    refine ⟨congrArg (line :: ·) whole, nonempty, solid, fun l last => ?_, stop⟩
    cases before with
    | nil =>
        obtain rfl : line = l := Option.some.inj last
        exact alone rfl
    | cons first before =>
        refine start l ?_
        rwa [behind, List.getLast?_cons_cons] at last

end Run

/-- The run at the front of some lines: they are taken up to the first blank one. -/
def frontRun? (ls : List (List Char)) : Option Run :=
  let inner := ls.takeWhile (!isBlankLine ·)
  if inner = [] then none else some ⟨[], inner, ls.dropWhile (!isBlankLine ·)⟩

theorem frontRun?_eq_some_iff {ls : List (List Char)} {run : Run} :
    frontRun? ls = some run ↔ run.before = [] ∧ run.IsIn ls := by
  constructor
  · intro isFront
    obtain ⟨nonempty, found⟩ := Option.ite_none_left_eq_some.1 isFront
    obtain rfl := Option.some.inj found
    refine ⟨rfl, List.takeWhile_append_dropWhile.symm, nonempty, fun l mem => ?_, by simp, ?_⟩
    · simpa using List.all_eq_true.1 List.all_takeWhile l mem
    · intro l first
      have failed := List.head?_dropWhile_not (!isBlankLine ·) ls
      rw [Option.mem_def.1 first] at failed
      simpa using failed
  · obtain ⟨before, inner, after⟩ := run
    rintro ⟨rfl, rfl, nonempty, solid, -, stop⟩
    have passed : ∀ l ∈ inner, (!isBlankLine l) = true := by
      intro l mem
      rw [solid l mem, Bool.not_false]
    have reached : after.takeWhile (!isBlankLine ·) = [] ∧
        after.dropWhile (!isBlankLine ·) = after := by
      cases after with
      | nil => exact ⟨rfl, rfl⟩
      | cons next others =>
          have blank := stop next rfl
          exact ⟨List.takeWhile_cons_of_neg (by simp [blank]),
            List.dropWhile_cons_of_neg (by simp [blank])⟩
    rw [frontRun?, List.nil_append, List.takeWhile_append_of_pos passed,
      List.dropWhile_append_of_pos passed, reached.1, reached.2, List.append_nil,
      if_neg nonempty]

/-- The runs that start in some lines; with the first line only a fresh one may start. -/
def runsFrom (fresh : Bool) : List (List Char) → List Run
  | [] => []
  | line :: rest =>
      (if fresh then (frontRun? (line :: rest)).toList else []) ++
        (runsFrom (isBlankLine line) rest).map (Run.behind line)

/-- The runs of some lines, from left to right. -/
def runs (ls : List (List Char)) : List Run :=
  runsFrom true ls

theorem mem_runsFrom_iff {fresh : Bool} {ls : List (List Char)} {run : Run} :
    run ∈ runsFrom fresh ls ↔ run.IsIn ls ∧ (run.before = [] → fresh = true) := by
  induction ls generalizing fresh run with
  | nil =>
      refine iff_of_false List.not_mem_nil ?_
      rintro ⟨⟨whole, nonempty, -⟩, -⟩
      rw [List.nil_eq_append_iff, List.append_eq_nil_iff] at whole
      exact nonempty whole.2.1
  | cons line rest ih =>
      rw [runsFrom, List.mem_append, List.mem_ite_nil_right, Option.mem_toList,
        frontRun?_eq_some_iff, List.mem_map]
      -- a run at the front is the one that starts with `line`, any other one starts in `rest`
      constructor
      · rintro (⟨isFresh, -, isIn⟩ | ⟨inner, mem, rfl⟩)
        · exact ⟨isIn, fun _ => isFresh⟩
        · exact ⟨Run.isIn_behind_iff.2 (ih.1 mem), fun front => nomatch front⟩
      · rintro ⟨isIn, mayStart⟩
        obtain ⟨before, inner, after⟩ := run
        cases before with
        | nil => exact .inl ⟨mayStart rfl, rfl, isIn⟩
        | cons first before =>
            obtain rfl : line = first := (List.cons.inj isIn.whole).1
            exact .inr ⟨⟨before, inner, after⟩, ih.2 (Run.isIn_behind_iff.1 isIn), rfl⟩

/-- The runs of some lines are all runs in them. -/
theorem mem_runs_iff {ls : List (List Char)} {run : Run} : run ∈ runs ls ↔ run.IsIn ls := by
  rw [runs, mem_runsFrom_iff]
  exact and_iff_left fun _ => rfl

/-- The runs of some lines come in the order in which they start. -/
theorem runsFrom_ordered (fresh : Bool) (ls : List (List Char)) :
    (runsFrom fresh ls).Pairwise fun first second =>
      first.before.length < second.before.length := by
  induction ls generalizing fresh with
  | nil => exact .nil
  | cons line rest ih =>
      have later : ((runsFrom (isBlankLine line) rest).map (Run.behind line)).Pairwise
          fun first second => first.before.length < second.before.length :=
        (ih _).map _ fun _ _ => Nat.succ_lt_succ
      rw [runsFrom, List.pairwise_append]
      refine ⟨?_, later, ?_⟩
      · cases fresh <;> cases frontRun? (line :: rest) <;> simp
      · intro front inFront inner mem
        rw [List.mem_ite_nil_right, Option.mem_toList, frontRun?_eq_some_iff] at inFront
        obtain ⟨inner, -, rfl⟩ := List.mem_map.1 mem
        rw [inFront.2.1]
        exact Nat.succ_pos _

/-! ## Runs and blocks -/

theorem lines_runsFrom_true (ls : List (List Char)) :
    (runsFrom true ls).map Run.lines =
      [ls.takeWhile (!isBlankLine ·)].filter (!·.isEmpty) ++
        (runsFrom false ls).map Run.lines := by
  cases ls with
  | nil => rfl
  | cons line rest =>
      have front : (frontRun? (line :: rest)).toList.map Run.lines =
          [(line :: rest).takeWhile (!isBlankLine ·)].filter (!·.isEmpty) := by
        rw [frontRun?, List.filter_singleton]
        cases (line :: rest).takeWhile (!isBlankLine ·) <;> rfl
      rw [runsFrom, runsFrom, if_pos rfl, List.map_append, front]
      rfl

/-- Between the blank lines stand the runs, and pieces without lines. -/
theorem exists_splitOnP_eq (ls : List (List Char)) :
    ∃ others, ls.splitOnP isBlankLine = ls.takeWhile (!isBlankLine ·) :: others ∧
      (runsFrom false ls).map Run.lines = others.filter (!·.isEmpty) := by
  induction ls with
  | nil => exact ⟨[], rfl, rfl⟩
  | cons line rest ih =>
      obtain ⟨others, parts, inOthers⟩ := ih
      have later (fresh : Bool) : ((runsFrom fresh rest).map (Run.behind line)).map Run.lines =
          (runsFrom fresh rest).map Run.lines := by
        rw [List.map_map]
        rfl
      rw [List.splitOnP_cons_eq_if_modifyHead, runsFrom, if_neg Bool.false_ne_true,
        List.nil_append, later, parts]
      cases blank : isBlankLine line with
      | true =>
          refine ⟨rest.takeWhile (!isBlankLine ·) :: others, ?_, ?_⟩
          · rw [if_pos rfl, List.takeWhile_cons_of_neg (by simp [blank])]
          · rw [lines_runsFrom_true, inOthers, ← List.filter_append, List.singleton_append]
      | false =>
          refine ⟨others, ?_, inOthers⟩
          rw [if_neg Bool.false_ne_true, List.modifyHead_cons,
            List.takeWhile_cons_of_pos (by simp [blank])]

theorem lines_runs (ls : List (List Char)) :
    (runs ls).map Run.lines = (ls.splitOnP isBlankLine).filter (!·.isEmpty) := by
  obtain ⟨others, parts, inOthers⟩ := exists_splitOnP_eq ls
  rw [runs, lines_runsFrom_true, inOthers, parts, ← List.filter_append, List.singleton_append]

/-- The blocks of some lines by their runs. -/
def ofRuns (ls : List (List Char)) : List (List Char) :=
  ((runs ls).map fun run => trim run.text).filter (!·.isEmpty)

theorem trimmed_filter (pieces : List (List (List Char))) :
    trimmed ((pieces.filter (!·.isEmpty)).map ['\n'].intercalate) =
      trimmed (pieces.map ['\n'].intercalate) := by
  induction pieces with
  | nil => rfl
  | cons piece rest ih =>
      cases piece with
      | nil =>
          rw [List.filter_cons_of_neg (by simp), ih, List.map_cons, trimmed_cons,
            List.intercalate_nil, trimmed_blank (by simp), List.nil_append]
      | cons line piece =>
          rw [List.filter_cons_of_pos (by simp), List.map_cons, trimmed_cons, ih, List.map_cons,
            ← trimmed_cons]

theorem ofText_eq_ofRuns (s : List Char) : ofText s = ofRuns (lines s) := by
  rw [ofText_eq_ofLines, ofLines, ← trimmed_filter, ← lines_runs, trimmed, List.map_map,
    List.map_map]
  rfl

theorem length_ofRuns (ls : List (List Char)) :
    (ofRuns ls).length = (runs ls).countP fun run => !(trim run.text).isEmpty := by
  rw [ofRuns, ← List.countP_eq_length_filter, List.countP_map]
  rfl

end Block

/-! ## The blocks of a reading -/

/-- The block that is about to be read, with its place. -/
def Event.block? : Event → Option (Nat × String)
  | .block place text => some (place, text)
  | _ => none

theorem Clause.no_block_in_events (clause : Clause) :
    clause.events.filterMap Event.block? = [] := by
  cases clause <;> simp [Clause.events, Event.block?, List.filterMap_map, Function.comp_def]

/-- While a block is read, no other one is. -/
theorem Block.blocks_of_read (place : Nat) (block : List Char) :
    (Block.read place block).events.filterMap Event.block? = [(place, String.ofList block)] := by
  have clauses : ((Block.clauses block).flatMap fun clause => clause.2.events).filterMap
      Event.block? = [] := by
    rw [List.filterMap_flatMap, List.flatMap_eq_nil_iff]
    exact fun clause _ => clause.2.no_block_in_events
  have custom (rule : Rule) : (if rule.isCustom then [Event.assumedCustom rule.name]
      else []).filterMap Event.block? = [] := by
    split <;> rfl
  have skipped (diagnostics : List Diagnostic) :
      (diagnostics.map Event.skipped).filterMap Event.block? = [] := by
    simp [List.filterMap_map, Function.comp_def, Event.block?]
  simp only [Block.read, List.filterMap_append, List.filterMap_cons, Event.block?, clauses,
    custom, skipped, List.append_nil]

namespace Reading

theorem blocks_of_ofPieces (place : Nat) (pieces : List (List Char)) :
    (ofPieces place pieces).events.filterMap Event.block? =
      ((Block.trimmed pieces).zipIdx place).map fun block => (block.2, String.ofList block.1) := by
  induction pieces generalizing place with
  | nil => rfl
  | cons piece rest ih =>
      cases blank : allBlank piece with
      | true =>
          rw [trimmed_cons_of_blank blank, ← ih place]
          simp only [ofPieces, blank, if_true]
          rfl
      | false =>
          rw [trimmed_cons_of_not_blank blank, List.zipIdx_cons, List.map_cons, ← ih (place + 1)]
          simp only [ofPieces, blank, Bool.false_eq_true, if_false]
          rw [List.filterMap_append, Block.blocks_of_read]
          rfl

/--
The blocks that are read from a text, and turned into its rules, are the runs
of its lines from left to right, joined and trimmed, without the empty ones.
-/
theorem blocks_are_runs (text : String) :
    (∀ run, run ∈ Block.runs (lines text.toList) ↔ run.IsIn (lines text.toList)) ∧
      (Block.runs (lines text.toList)).Pairwise
        (fun first second => first.before.length < second.before.length) ∧
      (logged text).events.filterMap Event.block? =
        (Block.ofRuns (lines text.toList)).zipIdx.map
          (fun block => (block.2, String.ofList block.1)) ∧
      (ofText text).set.rules = (Block.ofRuns (lines text.toList)).map Block.rule ∧
      (ofText text).set.size =
        (Block.runs (lines text.toList)).countP fun run => !(trim run.text).isEmpty := by
  have rules := rules_ofText text
  rw [Block.ofText_eq_ofRuns] at rules
  refine ⟨fun run => Block.mem_runs_iff, Block.runsFrom_ordered true _, ?_, rules, ?_⟩
  · rw [logged, List.filterMap_append, blocks_of_ofPieces, ← Block.ofText_eq_trimmed,
      Block.ofText_eq_ofRuns]
    exact List.append_nil _
  · rw [RuleSet.size, rules, List.length_map, Block.length_ofRuns]

end Reading

end TrustRules

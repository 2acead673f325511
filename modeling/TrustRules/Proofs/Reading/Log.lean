import TrustRules.Event.Json
import TrustRules.Proofs.Block.Separators
import TrustRules.Proofs.Reading.Diagnostics
import TrustRules.Proofs.Reading.Runs

/-!
# Logs of readings

While a text is read, each of its blocks is announced, then what its lines state
is logged, and then what could not be used is.  Main statement: the log of a
reading agrees with the reading, block by block and as a whole.
-/

namespace TrustRules

open Text

/-! ## The place of an event -/

namespace Event

/-- The name that a name line states. -/
def nameLine? : Event → Option String
  | .nameLine name => some name
  | _ => none

/--
The events with the place of the block that was announced last, the event itself
included.  An empty block has no place.
-/
def placed (current : Option Nat) : List Event → List (Option Nat × Event)
  | [] => []
  | event :: rest =>
      let here := if event.phase = "Block" then event.block?.map Prod.fst else current
      (here, event) :: placed here rest

/-- What a view shows of an event, together with the place of the event. -/
def shown {α : Type} (view : Event → Option α) (event : Option Nat × Event) :
    Option (Option Nat × α) :=
  (view event.2).map (event.1, ·)

/-- The events of the block with this place: from its announcement to the next one. -/
def inBlock (place : Nat) (events : List Event) : List Event :=
  ((placed none events).filter fun event => event.1 = some place).map Prod.snd

/-- What a view shows of the events of a block is what it shows in the place of the block. -/
theorem filterMap_inBlock {α : Type} (view : Event → Option α) (place : Nat)
    (events : List Event) :
    (inBlock place events).filterMap view =
      (((placed none events).filterMap (shown view)).filter fun item =>
        item.1 = some place).map Prod.snd := by
  rw [inBlock, List.filterMap_map]
  induction placed none events with
  | nil => rfl
  | cons event rest ih =>
      by_cases here : event.1 = some place
      · cases seen : view event.2 <;>
          simpa [shown, here, seen, Function.comp_def] using ih
      · cases seen : view event.2 <;>
          simpa [shown, here, seen, Function.comp_def] using ih

theorem map_snd_placed (current : Option Nat) (events : List Event) :
    (placed current events).map Prod.snd = events := by
  induction events generalizing current with
  | nil => rfl
  | cons event rest ih => rw [placed, List.map_cons, ih]

/-- As long as no block is announced, the place stays the same. -/
theorem placed_append_of_no_block (current : Option Nat) {events : List Event}
    (none : ∀ event ∈ events, event.phase ≠ "Block") (rest : List Event) :
    placed current (events ++ rest) = events.map (current, ·) ++ placed current rest := by
  induction events with
  | nil => rfl
  | cons event events ih =>
      rw [List.forall_mem_cons] at none
      rw [List.cons_append, placed, if_neg none.1, ih none.2]
      rfl

/-- What comes before has an influence on the place only. -/
theorem exists_placed_append (current : Option Nat) (first rest : List Event) :
    ∃ here, placed current (first ++ rest) = placed current first ++ placed here rest := by
  induction first generalizing current with
  | nil => exact ⟨current, rfl⟩
  | cons event first ih =>
      obtain ⟨here, parts⟩ :=
        ih (if event.phase = "Block" then event.block?.map Prod.fst else current)
      exact ⟨here, congrArg (_ :: ·) parts⟩

end Event

/-! ## The log of a block -/

/-- What a clause logs tells of reading: no warning, and neither a block nor its kind. -/
theorem Clause.of_mem_events {clause : Clause} {event : Event} (mem : event ∈ clause.events) :
    event.activity = "Parse" ∧ event.level ≠ "WARN" ∧ event.phase ≠ "Block" ∧
      event.phase ≠ "Classify" := by
  cases clause with
  | name value =>
      rw [List.mem_singleton.1 mem]
      simp [Event.activity, Event.level, Event.phase]
  | template value =>
      rw [List.mem_singleton.1 mem]
      simp [Event.activity, Event.level, Event.phase]
  | condition text =>
      obtain ⟨key, -, rfl⟩ := List.mem_map.1 mem
      simp [Event.activity, Event.level, Event.phase]
  | action text =>
      obtain ⟨key, -, rfl⟩ := List.mem_map.1 mem
      simp [Event.activity, Event.level, Event.phase]
  | unrecognized text => cases mem

/-- A clause logs a name exactly if it states one. -/
theorem Clause.nameLines_events (clause : Clause) :
    clause.events.filterMap Event.nameLine? =
      (clause.name?.map (String.ofList ∘ bare)).toList := by
  cases clause with
  | name value => rfl
  | template value => rfl
  | condition text => simp [events, name?, Event.nameLine?, List.filterMap_map, Function.comp_def]
  | action text => simp [events, name?, Event.nameLine?, List.filterMap_map, Function.comp_def]
  | unrecognized text => rfl

namespace Block

variable (place : Nat) (block : List Char)

theorem events_read :
    (read place block).events =
      .block place (String.ofList block) :: ((Clause.ofText block).flatMap Clause.events ++
        ((if (rule block).isCustom then [.assumedCustom (rule block).name] else []) ++
          (diagnostics place block).map .skipped)) := by
  rw [read, ← map_snd_clauses, List.flatMap_map, List.append_assoc]
  rfl

/-- While a block is read, nothing but this is logged. -/
theorem activity_of_mem_read {event : Event} (mem : event ∈ (read place block).events) :
    event.activity = "Parse" := by
  rw [events_read, List.mem_cons, List.mem_append, List.mem_append, List.mem_flatMap] at mem
  rcases mem with rfl | ⟨clause, -, isEvent⟩ | custom | skipped
  · rfl
  · exact (Clause.of_mem_events isEvent).1
  · rw [List.mem_ite_nil_right, List.mem_singleton] at custom
    rw [custom.2]
    rfl
  · obtain ⟨diagnostic, -, rfl⟩ := List.mem_map.1 skipped
    rfl

/-- Of the events of a block, a filter that no clause passes keeps others only. -/
theorem filter_read {p : Event → Bool}
    (other : ∀ clause : Clause, ∀ event ∈ clause.events, p event = false) :
    (read place block).events.filter p =
      [Event.block place (String.ofList block)].filter p ++
        ((if (rule block).isCustom then [.assumedCustom (rule block).name] else []).filter p ++
          ((diagnostics place block).map Event.skipped).filter p) := by
  have none : ((Clause.ofText block).flatMap Clause.events).filter p = [] := by
    rw [List.filter_eq_nil_iff]
    intro event mem
    obtain ⟨clause, -, isEvent⟩ := List.mem_flatMap.1 mem
    rw [other clause event isEvent]
    exact Bool.false_ne_true
  rw [events_read, ← List.singleton_append, List.filter_append, List.filter_append, none,
    List.nil_append, List.filter_append]

/-- The warnings of a block are its diagnostics. -/
theorem warnings_read :
    (read place block).events.filter (fun event => event.level = "WARN") =
      (diagnostics place block).map .skipped := by
  rw [filter_read _ _ fun _ _ mem => decide_eq_false (Clause.of_mem_events mem).2.1]
  split <;> simp [Event.level, List.filter_map, Function.comp_def]

/-- A block is announced once. -/
theorem blocks_read :
    (read place block).events.filter (fun event => event.phase = "Block") =
      [.block place (String.ofList block)] := by
  rw [filter_read _ _ fun _ _ mem => decide_eq_false (Clause.of_mem_events mem).2.2.1]
  split <;> simp [Event.phase, List.filter_map, Function.comp_def]

/-- A block is classified if its rule is custom, by the name of this rule. -/
theorem classified_read :
    (read place block).events.filter (fun event => event.phase = "Classify") =
      if (rule block).isCustom then [.assumedCustom (rule block).name] else [] := by
  rw [filter_read _ _ fun _ _ mem => decide_eq_false (Clause.of_mem_events mem).2.2.2]
  split <;> simp [Event.phase, List.filter_map, Function.comp_def]

/-- The names that a block logs are those that it states, so the last one is that of its rule. -/
theorem nameLines_read :
    ((read place block).events.filterMap Event.nameLine?).getLast? = statedName? block := by
  have names : ((Clause.ofText block).flatMap Clause.events).filterMap Event.nameLine? =
      ((Clause.ofText block).filterMap Clause.name?).map (String.ofList ∘ bare) := by
    rw [List.filterMap_flatMap, List.map_filterMap, List.filterMap_eq_flatMap_toList]
    exact List.flatMap_congr fun clause _ => clause.nameLines_events
  have others : ((if (rule block).isCustom then [Event.assumedCustom (rule block).name]
      else []) ++ (diagnostics place block).map Event.skipped).filterMap Event.nameLine? = [] := by
    rw [List.filterMap_append]
    split <;> simp [Event.nameLine?, List.filterMap_map, Function.comp_def]
  rw [events_read, List.filterMap_cons_none rfl, List.filterMap_append, names, others,
    List.append_nil, statedName?_eq, List.getLast?_map]

/-- All events of a block have its place. -/
theorem placed_read_append (current : Option Nat) (rest : List Event) :
    Event.placed current ((read place block).events ++ rest) =
      (read place block).events.map (some place, ·) ++ Event.placed (some place) rest := by
  have isBlock : (Event.block place (String.ofList block)).phase = "Block" := rfl
  have announced := blocks_read place block
  rw [events_read, List.filter_cons_of_pos rfl, List.cons.injEq,
    List.filter_eq_nil_iff] at announced
  have none (event : Event) (mem : event ∈ _) : event.phase ≠ "Block" :=
    fun isBlock => announced.2 event mem (decide_eq_true isBlock)
  rw [events_read, List.cons_append, Event.placed, if_pos isBlock, Event.block?, Option.map_some,
    Event.placed_append_of_no_block _ none]
  rfl

end Block

/-! ## The log of a text -/

/-- Of the items of a list, one has a given place, if any has it. -/
theorem flatMap_zipIdx_at {α β : Type} (f : α × Nat → List β) (xs : List α) (start place : Nat) :
    ((xs.zipIdx start).flatMap fun x => if x.2 = start + place then f x else []) =
      (xs[place]?.toList).flatMap fun x => f (x, start + place) := by
  induction xs generalizing start place with
  | nil => rfl
  | cons x xs ih =>
      rw [List.zipIdx_cons, List.flatMap_cons]
      cases place with
      | zero =>
          have others : ((xs.zipIdx (start + 1)).flatMap fun y =>
              if y.2 = start + 0 then f y else []) = [] := by
            rw [List.flatMap_eq_nil_iff]
            intro y mem
            exact if_neg (Nat.ne_of_gt (List.le_snd_of_mem_zipIdx mem))
          rw [others, if_pos (Nat.add_zero start).symm, List.append_nil]
          exact (List.append_nil _).symm
      | succ place =>
          have later := ih (start + 1) place
          rw [Nat.succ_add_eq_add_succ] at later
          rw [if_neg (by simp), later]
          rfl

/-- The results for the items of one kind are the results for all items, the others without any. -/
theorem map_filter_eq_flatMap {α β : Type} (p : α → Bool) (f : α → β) (xs : List α) :
    (xs.filter p).map f = xs.flatMap fun x => if p x then [f x] else [] := by
  induction xs with
  | nil => rfl
  | cons x xs ih =>
      rw [List.flatMap_cons, ← ih, List.filter_cons]
      split <;> rfl

namespace Reading

variable {α : Type} {view : Event → Option α}

/--
What a view shows of the pieces of a text is what it shows of each block, in the
place of this block.
-/
theorem filterMap_placed_ofPieces (blind : view .emptyBlock = none) (current : Option Nat)
    (place : Nat) (pieces : List (List Char)) :
    (Event.placed current (ofPieces place pieces).events).filterMap (Event.shown view) =
      ((Block.trimmed pieces).zipIdx place).flatMap fun block =>
        ((Block.read block.2 block.1).events.filterMap view).map (some block.2, ·) := by
  induction pieces generalizing current place with
  | nil => rfl
  | cons piece rest ih =>
      cases blank : allBlank piece with
      | true =>
          have isBlock : Event.emptyBlock.phase = "Block" := rfl
          rw [trimmed_cons_of_blank blank, ← ih none place]
          simp only [ofPieces, blank, if_true]
          rw [Event.placed, List.filterMap_cons_none (by rw [Event.shown, blind]; rfl),
            if_pos isBlock]
          rfl
      | false =>
          rw [trimmed_cons_of_not_blank blank, List.zipIdx_cons, List.flatMap_cons,
            ← ih (some place) (place + 1)]
          simp only [ofPieces, blank, Bool.false_eq_true, if_false]
          rw [Block.placed_read_append, List.filterMap_append, List.filterMap_map,
            List.map_filterMap]
          rfl

theorem events_logged (text : String) :
    (logged text).events = (ofPieces 0 (Block.pieces text.toList)).events ++
      [.textRead (ofText text).set.size (ofText text).skipped.length] := rfl

theorem activity_of_mem_ofPieces {place : Nat} {pieces : List (List Char)} {event : Event}
    (mem : event ∈ (ofPieces place pieces).events) : event.activity = "Parse" := by
  induction pieces generalizing place with
  | nil => cases mem
  | cons piece rest ih =>
      cases blank : allBlank piece with
      | true =>
          simp only [ofPieces, blank, if_true] at mem
          rcases List.mem_cons.1 mem with rfl | later
          · rfl
          · exact ih later
      | false =>
          simp only [ofPieces, blank, Bool.false_eq_true, if_false] at mem
          rcases List.mem_append.1 mem with inBlock | later
          · exact Block.activity_of_mem_read _ _ inBlock
          · exact ih later

/-- While a text is read, nothing but this is logged. -/
theorem activity_of_mem_logged {text : String} {event : Event}
    (mem : event ∈ (logged text).events) : event.activity = "Parse" := by
  rw [events_logged, List.mem_append, List.mem_singleton] at mem
  rcases mem with inPieces | rfl
  · exact activity_of_mem_ofPieces inPieces
  · rfl

/-- The same of a whole text, as far as the view does not show how the reading ends. -/
theorem filterMap_placed_logged (blind : view .emptyBlock = none)
    (ended : ∀ rules unused, view (.textRead rules unused) = none) (text : String) :
    (Event.placed none (logged text).events).filterMap (Event.shown view) =
      (Block.ofText text.toList).zipIdx.flatMap fun block =>
        ((Block.read block.2 block.1).events.filterMap view).map (some block.2, ·) := by
  obtain ⟨here, parts⟩ := Event.exists_placed_append none
    (ofPieces 0 (Block.pieces text.toList)).events
    [.textRead (ofText text).set.size (ofText text).skipped.length]
  have last : (Event.placed here
      [.textRead (ofText text).set.size (ofText text).skipped.length]).filterMap
        (Event.shown view) = [] :=
    List.filterMap_cons_none (by rw [Event.shown, ended]; rfl)
  rw [events_logged, parts, List.filterMap_append, last, List.append_nil,
    filterMap_placed_ofPieces blind, ← Block.ofText_eq_trimmed]

/-- What a view shows of the log of a text is what it shows of its blocks, in order. -/
theorem filterMap_logged (blind : view .emptyBlock = none)
    (ended : ∀ rules unused, view (.textRead rules unused) = none) (text : String) :
    (logged text).events.filterMap view =
      (Block.ofText text.toList).zipIdx.flatMap fun block =>
        (Block.read block.2 block.1).events.filterMap view := by
  have views := congrArg (List.map Prod.snd) (filterMap_placed_logged blind ended text)
  have events := Event.map_snd_placed none (logged text).events
  rw [List.map_filterMap, List.map_flatMap] at views
  rw [← events, List.filterMap_map]
  simpa [Event.shown, Function.comp_def] using views

/-- The same for the events that pass a filter. -/
theorem filter_logged {p : Event → Bool} (blind : p .emptyBlock = false)
    (ended : ∀ rules unused, p (.textRead rules unused) = false) (text : String) :
    (logged text).events.filter p =
      (Block.ofText text.toList).zipIdx.flatMap fun block =>
        (Block.read block.2 block.1).events.filter p := by
  have kept := @filterMap_logged Event (Option.guard p) (by simp [Option.guard, blind])
    (fun rules unused => by simp [Option.guard, ended]) text
  simpa only [List.filterMap_eq_filter] using kept

/-- What a view shows between the announcements of two blocks is what it shows of the first. -/
theorem filterMap_inBlock_logged (blind : view .emptyBlock = none)
    (ended : ∀ rules unused, view (.textRead rules unused) = none) {text : String} {place : Nat}
    {block : List Char} (isBlock : (Block.ofText text.toList)[place]? = some block) :
    (Event.inBlock place (logged text).events).filterMap view =
      (Block.read place block).events.filterMap view := by
  have one (item : List Char × Nat) :
      ((((Block.read item.2 item.1).events.filterMap view).map (some item.2, ·)).filter
        fun shown => shown.1 = some place).map Prod.snd =
      if item.2 = 0 + place then (Block.read item.2 item.1).events.filterMap view else [] := by
    rw [Nat.zero_add]
    split
    · next here => simp [here, List.filter_map, Function.comp_def]
    · next other => simp [other, List.filter_map, Function.comp_def]
  rw [Event.filterMap_inBlock, filterMap_placed_logged blind ended, List.filter_flatMap,
    List.map_flatMap]
  simp only [one]
  rw [flatMap_zipIdx_at, isBlock, Nat.zero_add]
  exact List.flatMap_singleton _ _

/-! ## What the log tells -/

/-- The log of a text agrees with what was read from it. -/
structure IsLog (text : String) (read : Reading) (events : List Event) : Prop where
  /-- The blocks are announced in the order of their rules. -/
  places : (events.filterMap Event.block?).map Prod.fst = List.range read.set.size
  /-- What is announced for a custom rule is its body. -/
  bodies : ∀ place block rule, (place, block) ∈ events.filterMap Event.block? →
    read.set.rules[place]? = some rule → rule.isCustom = true → rule.body = some block
  /-- Empty blocks included, there is one more than separators are found in the text. -/
  blocks : events.countP (fun event => event.phase = "Block") =
    (Block.separatorPattern.search text.toList).length + 1
  /-- The warnings are the diagnostics, in their order. -/
  warnings : events.filter (fun event => event.level = "WARN") = read.skipped.map .skipped
  /-- A diagnostic is logged behind the announcement of its own block and before the next one. -/
  within : ∀ event ∈ Event.placed none events, ∀ diagnostic,
    event.2 = .skipped diagnostic → event.1 = some diagnostic.block
  /-- Custom rules are classified as such, and no others are. -/
  classified : events.filter (fun event => event.phase = "Classify") =
    (read.set.rules.filter Rule.isCustom).map fun rule => .assumedCustom rule.name
  /-- A rule has the name that is logged last in its block. -/
  names : ∀ (place : Nat) (rule : Rule), read.set.rules[place]? = some rule → rule.name ≠ "" →
    ((Event.inBlock place events).filterMap Event.nameLine?).getLast? = some rule.name
  last : events.getLast? = some (.textRead read.set.size read.skipped.length)

theorem blocks_logged (text : String) :
    (logged text).events.filterMap Event.block? =
      (Block.ofText text.toList).zipIdx.map fun block => (block.2, String.ofList block.1) := by
  rw [filterMap_logged rfl (fun _ _ => rfl), List.map_eq_flatMap]
  exact List.flatMap_congr fun block _ => Block.blocks_of_read block.2 block.1

/-- Every piece of a text is announced, as a block or as an empty one. -/
theorem countP_blocks_ofPieces (place : Nat) (pieces : List (List Char)) :
    (ofPieces place pieces).events.countP (fun event => event.phase = "Block") =
      pieces.length := by
  induction pieces generalizing place with
  | nil => rfl
  | cons piece rest ih =>
      cases blank : allBlank piece with
      | true =>
          simp only [ofPieces, blank, if_true]
          rw [List.countP_cons_of_pos rfl, ih, List.length_cons]
      | false =>
          simp only [ofPieces, blank, Bool.false_eq_true, if_false]
          rw [List.countP_append, ih, List.countP_eq_length_filter, Block.blocks_read,
            List.length_singleton, List.length_cons, Nat.add_comm]

/-- A warning stands in the place of its block. -/
theorem place_of_skipped {text : String} {event : Option Nat × Event} {diagnostic : Diagnostic}
    (mem : event ∈ Event.placed none (logged text).events)
    (isSkipped : event.2 = .skipped diagnostic) : event.1 = some diagnostic.block := by
  have views := @filterMap_placed_logged Event
    (Option.guard fun event => event.level = "WARN") rfl (fun _ _ => rfl) text
  have seen : (event.1, Event.skipped diagnostic) ∈
      (Event.placed none (logged text).events).filterMap
        (Event.shown (Option.guard fun event => event.level = "WARN")) := by
    refine List.mem_filterMap.2 ⟨event, mem, ?_⟩
    rw [Event.shown, isSkipped]
    rfl
  rw [views] at seen
  obtain ⟨⟨block, place⟩, -, inBlock⟩ := List.mem_flatMap.1 seen
  rw [List.filterMap_eq_filter, Block.warnings_read, List.map_map] at inBlock
  obtain ⟨reported, isReported, same⟩ := List.mem_map.1 inBlock
  obtain ⟨here, isEvent⟩ := Prod.mk.inj same
  obtain rfl := Event.skipped.inj isEvent
  rw [← here, (Block.mem_diagnostics_iff.1 isReported).2.1]

theorem isLog_logged (text : String) : IsLog text (ofText text) (logged text).events where
  places := by
    rw [blocks_logged, List.map_map, RuleSet.size, rules_ofText, List.length_map,
      List.range_eq_range', ← List.zipIdx_map_snd]
    rfl
  bodies := by
    intro place block rule announced isRule custom
    rw [blocks_logged] at announced
    obtain ⟨⟨found, counted⟩, isBlock, same⟩ := List.mem_map.1 announced
    obtain ⟨rfl, rfl⟩ := Prod.mk.inj same
    rw [getElem?_rules_ofText (List.mk_mem_zipIdx_iff_getElem?.1 isBlock)] at isRule
    obtain rfl := Option.some.inj isRule
    rw [Block.isCustom_rule] at custom
    rw [Block.rule_eq_custom custom]
    rfl
  blocks := by
    rw [events_logged, List.countP_append, countP_blocks_ofPieces, Block.length_pieces]
    rfl
  warnings := by
    rw [filter_logged rfl (fun _ _ => rfl), skipped_ofText, List.map_flatMap]
    exact List.flatMap_congr fun block _ => Block.warnings_read block.2 block.1
  within := fun _ mem _ isSkipped => place_of_skipped mem isSkipped
  classified := by
    rw [filter_logged rfl (fun _ _ => rfl), rules_ofText, List.filter_map, List.map_map,
      map_filter_eq_flatMap]
    conv_rhs => rw [← List.zipIdx_map_fst 0 (Block.ofText text.toList), List.flatMap_map]
    exact List.flatMap_congr fun block _ => Block.classified_read block.2 block.1
  names := by
    intro place rule isRule named
    rw [rules_ofText, List.getElem?_map] at isRule
    obtain ⟨block, isBlock, rfl⟩ := Option.map_eq_some_iff.1 isRule
    rw [filterMap_inBlock_logged rfl (fun _ _ => rfl) isBlock, Block.nameLines_read]
    rw [Block.name_rule] at named ⊢
    cases stated : Block.statedName? block with
    | none => rw [stated] at named; exact absurd rfl named
    | some name => rfl
  last := by
    rw [events_logged, List.getLast?_concat]

end Reading

end TrustRules

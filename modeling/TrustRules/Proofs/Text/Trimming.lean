import Mathlib.Data.List.DropRight
import TrustRules.Text.Blank
import TrustRules.Text.Break

/-!
# Trimmed texts

A text is firm when trimming leaves it as it is.  Every text is its firm core
with droppable characters at both ends, and the core is determined by that.
All facts about trimmed lines, blocks and values follow from these two.
-/

namespace TrustRules.Text

/-! ## Deciding over a text -/

/-- A property of the characters of a text is decided on these characters alone. -/
instance decidableForallMemText (s : List Char) (p : Char → Prop) [DecidablePred p] :
    Decidable (∀ c ∈ s, p c) :=
  List.decidableBAll p s

instance decidableForallMemEnd (s : Option Char) (p : Char → Prop) [DecidablePred p] :
    Decidable (∀ c ∈ s, p c) :=
  decidable_of_iff (∀ c ∈ s.toList, p c) (by simp)

/-! ## Firm texts -/

/-- A text at neither end of which `p` holds. -/
def Firm (p : Char → Bool) (s : List Char) : Prop :=
  (∀ c ∈ s.head?, p c = false) ∧ ∀ c ∈ s.getLast?, p c = false

instance (p : Char → Bool) (s : List Char) : Decidable (Firm p s) :=
  inferInstanceAs (Decidable (_ ∧ _))

/-- A text is firm if its front starts firmly and its back ends firmly. -/
theorem firm_append {p : Char → Bool} {front back : List Char}
    (start : ∀ c ∈ front.head?, p c = false) (stop : ∀ c ∈ back.getLast?, p c = false)
    (someFront : front ≠ []) (someBack : back ≠ []) : Firm p (front ++ back) := by
  constructor
  · obtain ⟨c, rest, rfl⟩ := List.exists_cons_of_ne_nil someFront
    exact start
  · intro c here
    cases last : back.getLast? with
    | none => exact absurd (List.getLast?_eq_none_iff.1 last) someBack
    | some d =>
        rw [List.getLast?_append, last, Option.some_or, Option.mem_some_iff] at here
        rw [← here]
        exact stop d last

/-- Between two firm texts anything may stand. -/
theorem Firm.append_append {p : Char → Bool} {front back : List Char} (start : Firm p front)
    (stop : Firm p back) (someFront : front ≠ []) (someBack : back ≠ []) (s : List Char) :
    Firm p (front ++ s ++ back) := by
  refine firm_append ?_ stop.2 (List.append_ne_nil_of_left_ne_nil someFront s) someBack
  obtain ⟨c, rest, rfl⟩ := List.exists_cons_of_ne_nil someFront
  exact start.1

/-- A text is firm for less if it is firm for more. -/
theorem Firm.mono {p q : Char → Bool} {s : List Char} (firm : Firm q s)
    (less : ∀ c ∈ s, p c = true → q c = true) : Firm p s := by
  have kept : ∀ c ∈ s, q c = false → p c = false := by
    intro c mem stays
    cases drops : p c with
    | false => rfl
    | true => rw [less c mem drops] at stays; cases stays
  refine ⟨fun c here => ?_, fun c here => ?_⟩
  · exact kept c (List.mem_of_mem_head? here) (firm.1 c here)
  · exact kept c (List.mem_of_mem_getLast? here) (firm.2 c here)

/-! ## The core of a text -/

theorem dropWhile_eq_self {p : Char → Bool} {s : List Char}
    (stays : ∀ c ∈ s.head?, p c = false) : s.dropWhile p = s := by
  cases s with
  | nil => rfl
  | cons c s => exact List.dropWhile_cons_of_neg (by simp [stays c rfl])

/-- Dropping at both ends is dropping in front and then at the end. -/
theorem strip_eq (p : Char → Bool) (s : List Char) : strip p s = (s.dropWhile p).rdropWhile p := rfl

theorem rdropWhile_append_of_all {p : Char → Bool} {s t : List Char}
    (drops : ∀ c ∈ t, p c = true) : (s ++ t).rdropWhile p = s.rdropWhile p := by
  have reversed : ∀ c ∈ t.reverse, p c = true := fun c mem => drops c (List.mem_reverse.1 mem)
  rw [List.rdropWhile, List.reverse_append, List.dropWhile_append_of_pos reversed, List.rdropWhile]

theorem rdropWhile_eq_self {p : Char → Bool} {s : List Char}
    (stays : ∀ c ∈ s.getLast?, p c = false) : s.rdropWhile p = s := by
  refine List.rdropWhile_eq_self_iff.2 fun some => ?_
  rw [stays _ (List.getLast?_eq_some_getLast some)]
  exact Bool.false_ne_true

/-- What stays at the front was not to be dropped. -/
theorem not_of_mem_head?_dropWhile {p : Char → Bool} {s : List Char} :
    ∀ c ∈ (s.dropWhile p).head?, p c = false := by
  intro c first
  have stays := List.head?_dropWhile_not p s
  rw [Option.mem_def.1 first] at stays
  exact stays

/-- What is dropped at the end, put back. -/
theorem exists_append_of_rdropWhile (p : Char → Bool) (s : List Char) :
    ∃ back, s = s.rdropWhile p ++ back ∧ (∀ c ∈ back, p c = true) ∧
      ∀ c ∈ (s.rdropWhile p).getLast?, p c = false := by
  refine ⟨s.rtakeWhile p, List.rdropWhile_append_rtakeWhile.symm,
    fun c mem => List.mem_rtakeWhile_imp mem, fun c last => ?_⟩
  obtain ⟨some, rfl⟩ := List.mem_getLast?_eq_getLast last
  exact Bool.eq_false_iff.2 (List.rdropWhile_last_not p s some)

/-- Nothing is left exactly when every character goes. -/
theorem strip_eq_nil_iff {p : Char → Bool} {s : List Char} :
    strip p s = [] ↔ ∀ c ∈ s, p c = true := by
  rw [strip_eq, List.rdropWhile_eq_nil_iff]
  refine ⟨fun drops c mem => ?_, fun drops c mem => ?_⟩
  · rw [← List.takeWhile_append_dropWhile (p := p) (l := s)] at mem
    rcases List.mem_append.1 mem with early | late
    · exact List.mem_takeWhile_imp early
    · exact drops c late
  · exact drops c ((List.dropWhile_suffix p).subset mem)

/-- A text is its core between two droppable ends. -/
theorem exists_append_strip_append (p : Char → Bool) (s : List Char) :
    ∃ front back, s = front ++ strip p s ++ back ∧
      (∀ c ∈ front, p c = true) ∧ (∀ c ∈ back, p c = true) ∧ Firm p (strip p s) := by
  obtain ⟨back, whole, drops, last⟩ := exists_append_of_rdropWhile p (s.dropWhile p)
  refine ⟨s.takeWhile p, back, ?_, ?_, drops, ?_, last⟩
  · rw [List.append_assoc, strip_eq, ← whole, List.takeWhile_append_dropWhile]
  · exact fun c mem => List.all_eq_true.1 List.all_takeWhile c mem
  · intro c first
    refine not_of_mem_head?_dropWhile c (s := s) ?_
    rw [whole, List.head?_append, ← strip_eq, Option.mem_def.1 first, Option.some_or]
    rfl

/-- The core is the only firm text between two droppable ends. -/
theorem strip_append_append {p : Char → Bool} {front s back : List Char}
    (before : ∀ c ∈ front, p c = true) (firm : Firm p s) (after : ∀ c ∈ back, p c = true) :
    strip p (front ++ s ++ back) = s := by
  cases s with
  | nil =>
      refine strip_eq_nil_iff.2 fun c mem => ?_
      rcases List.mem_append.1 mem with early | late
      · exact before c (by simpa using early)
      · exact after c late
  | cons c s =>
      have first : p c ≠ true := by simp [firm.1 c (by simp)]
      rw [strip_eq, List.append_assoc, List.dropWhile_append_of_pos before, List.cons_append,
        List.dropWhile_cons_of_neg first, ← List.cons_append,
        rdropWhile_append_of_all after, rdropWhile_eq_self firm.2]

theorem firm_strip (p : Char → Bool) (s : List Char) : Firm p (strip p s) := by
  obtain ⟨_, _, _, _, _, firm⟩ := exists_append_strip_append p s
  exact firm

theorem strip_eq_self {p : Char → Bool} {s : List Char} (firm : Firm p s) : strip p s = s := by
  simpa using @strip_append_append p [] s [] (by simp) firm (by simp)

theorem strip_cons {p : Char → Bool} {c : Char} {s : List Char} (drops : p c = true)
    (firm : Firm p s) : strip p (c :: s) = s := by
  have before : ∀ d ∈ [c], p d = true := by
    intro d mem
    rwa [List.mem_singleton.1 mem]
  have after : ∀ d ∈ ([] : List Char), p d = true := fun d mem => absurd mem List.not_mem_nil
  simpa using strip_append_append before firm after

/-- Droppable characters around a text do not change its core. -/
theorem strip_around {p : Char → Bool} {front back : List Char} (s : List Char)
    (before : ∀ c ∈ front, p c = true) (after : ∀ c ∈ back, p c = true) :
    strip p (front ++ s ++ back) = strip p s := by
  obtain ⟨left, right, whole, leftDrops, rightDrops, firm⟩ := exists_append_strip_append p s
  have regrouped : front ++ (left ++ strip p s ++ right) ++ back =
      (front ++ left) ++ strip p s ++ (right ++ back) := by
    simp only [List.append_assoc]
  rw [← whole] at regrouped
  rw [regrouped]
  refine strip_append_append ?_ firm ?_
  · intro c mem
    rcases List.mem_append.1 mem with early | late
    · exact before c early
    · exact leftDrops c late
  · intro c mem
    rcases List.mem_append.1 mem with early | late
    · exact rightDrops c early
    · exact after c late

theorem strip_append {p : Char → Bool} {back : List Char} (s : List Char)
    (after : ∀ c ∈ back, p c = true) : strip p (s ++ back) = strip p s := by
  simpa using @strip_around p [] back s (by simp) after

theorem strip_isInfix (p : Char → Bool) (s : List Char) : strip p s <:+: s := by
  obtain ⟨front, back, whole, _⟩ := exists_append_strip_append p s
  exact ⟨front, back, whole.symm⟩

/-! ## Blanks and wrappings -/

theorem isWrapping_of_isBlank {c : Char} (blank : isBlank c = true) : isWrapping c = true := by
  simp [isWrapping, blank]

/-- A value without blanks and without double quotes at its ends has no blanks there. -/
theorem Firm.isBlank_of_isWrapping {s : List Char} (firm : Firm isWrapping s) : Firm isBlank s :=
  firm.mono fun _ _ blank => isWrapping_of_isBlank blank

/-- Without double quotes, blanks are all that wraps a value. -/
theorem Firm.isWrapping_of_isBlank {s : List Char} (firm : Firm isBlank s)
    (unquoted : '"' ∉ s) : Firm isWrapping s := by
  refine firm.mono fun c mem wraps => ?_
  have other : (c == '"') = false := by
    rw [beq_eq_false_iff_ne]
    rintro rfl
    exact unquoted mem
  simpa [isWrapping, other] using wraps

theorem allBlank_iff {s : List Char} : allBlank s = true ↔ ∀ c ∈ s, isBlank c = true := by
  simp [allBlank]

theorem allBlank_append (s t : List Char) : allBlank (s ++ t) = (allBlank s && allBlank t) :=
  List.all_append

/-- A text is trimmed away whole exactly when it is all blank. -/
theorem trim_eq_nil_iff {s : List Char} : trim s = [] ↔ allBlank s = true :=
  strip_eq_nil_iff.trans allBlank_iff.symm

/-- Trimming a text that is not all blank leaves something. -/
theorem trim_ne_nil {s : List Char} (blank : allBlank s = false) : trim s ≠ [] := by
  intro empty
  rw [trim_eq_nil_iff.1 empty] at blank
  cases blank

/-- What trimming leaves is not blank. -/
theorem allBlank_eq_false_of_firm {s : List Char} (firm : Firm isBlank s) (some : s ≠ []) :
    allBlank s = false := by
  cases blank : allBlank s with
  | false => rfl
  | true =>
      have core : trim s = s := strip_eq_self firm
      exact absurd (core.symm.trans (trim_eq_nil_iff.2 blank)) some

theorem allBlank_trim (s : List Char) : allBlank (trim s) = allBlank s := by
  cases blank : allBlank s with
  | true => rw [trim_eq_nil_iff.2 blank]; rfl
  | false => exact allBlank_eq_false_of_firm (firm_strip isBlank s) (trim_ne_nil blank)

end TrustRules.Text

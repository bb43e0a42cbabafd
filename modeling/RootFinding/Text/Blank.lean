/-!
# Blank characters

White space in the sense of Unicode, and the ways in which text sheds it: at its ends, everywhere,
or just one line end behind it. Numerals are surrounded by a smaller class, which leaves out the
four information separators.
-/

namespace RootFinding

namespace Text

/-- The blank characters, as inclusive ranges of code points. -/
def blankRanges : List (Nat × Nat) :=
  [(0x09, 0x0D), (0x1C, 0x20), (0x85, 0x85), (0xA0, 0xA0), (0x1680, 0x1680), (0x2000, 0x200A),
    (0x2028, 0x2029), (0x202F, 0x202F), (0x205F, 0x205F), (0x3000, 0x3000)]

/-- White space in the sense of Unicode. -/
def isBlank (c : Char) : Bool :=
  blankRanges.any fun range => range.1 ≤ c.toNat && c.toNat ≤ range.2

/-- The blanks that may surround a numeral: all but the four information separators. -/
def isNumeralBlank (c : Char) : Bool :=
  isBlank c && !(0x1C ≤ c.toNat && c.toNat ≤ 0x1F)

/-- The text without the characters of a class at either end. -/
def trimmedBy (inClass : Char → Bool) (text : List Char) : List Char :=
  ((text.dropWhile inClass).reverse.dropWhile inClass).reverse

/-- The text without the blanks at its ends. -/
def trimmed (text : String) : String :=
  String.ofList (trimmedBy isBlank text.toList)

/-- The text without a line end behind it. -/
def withoutLineEnd (text : List Char) : List Char :=
  if text.getLast? = some '\n' then text.dropLast else text

/-- The text without its blanks. -/
def withoutBlanks (text : List Char) : List Char :=
  text.filter fun c => !isBlank c

/-- The text with every comma as a decimal point. -/
def pointed (text : List Char) : List Char :=
  text.map fun c => if c = ',' then '.' else c

/-- The text without its blanks, and with every comma as a decimal point. -/
def condensed (text : List Char) : List Char :=
  (text.filter fun c => !isBlank c).map fun c => if c = ',' then '.' else c

/-- Every blank of the character type is a blank here. -/
theorem isBlank_of_isWhitespace (c : Char) (blank : c.isWhitespace = true) : isBlank c = true := by
  simp only [Char.isWhitespace, Bool.or_eq_true, decide_eq_true_eq] at blank
  rcases blank with ((rfl | rfl) | rfl) | rfl <;> decide

theorem not_isBlank_of_mem_condensed
    {text : List Char}
    {c : Char}
    (member : c ∈ condensed text) :
    isBlank c = false := by
  obtain ⟨source, kept, rfl⟩ := List.mem_map.1 member
  have notBlank := (List.mem_filter.1 kept).2
  split
  · decide
  · simpa using notBlank

theorem withoutBlanks_cons_of_blank
    {c : Char}
    (blank : isBlank c = true)
    (rest : List Char) :
    withoutBlanks (c :: rest) = withoutBlanks rest := by
  simp [withoutBlanks, blank]

theorem withoutBlanks_cons_of_solid
    {c : Char}
    (solid : isBlank c = false)
    (rest : List Char) :
    withoutBlanks (c :: rest) = c :: withoutBlanks rest := by
  simp [withoutBlanks, solid]

theorem withoutBlanks_dropWhile (text : List Char) :
    withoutBlanks (text.dropWhile isBlank) = withoutBlanks text := by
  induction text with
  | nil => rfl
  | cons c rest inductionHypothesis =>
      by_cases blank : isBlank c = true
      · rw [List.dropWhile_cons_of_pos blank, inductionHypothesis,
          withoutBlanks_cons_of_blank blank]
      · rw [List.dropWhile_cons_of_neg blank]

theorem withoutBlanks_reverse (text : List Char) :
    withoutBlanks text.reverse = (withoutBlanks text).reverse := by
  simp [withoutBlanks]

/-- The blanks at the ends of a text are among those that are left out anyway. -/
theorem withoutBlanks_trimmedBy (text : List Char) :
    withoutBlanks (trimmedBy isBlank text) = withoutBlanks text := by
  rw [trimmedBy, withoutBlanks_reverse, withoutBlanks_dropWhile, withoutBlanks_reverse,
    withoutBlanks_dropWhile, List.reverse_reverse]

/-- A text is condensed as well when its commas go first. -/
theorem condensed_eq_withoutBlanks_pointed (text : List Char) :
    condensed text = withoutBlanks (pointed text) := by
  have kept (c : Char) : isBlank (if c = ',' then '.' else c) = isBlank c := by
    split
    · subst c
      decide
    · rfl
  simp only [condensed, withoutBlanks, pointed, List.filter_map, Function.comp_def, kept]

end Text

end RootFinding

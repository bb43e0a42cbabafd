import RootFinding.Formula.Lexeme
import RootFinding.Proofs.Grammar.Derivation

/-!
# Plainly written expressions

The grammar of expressions with the blanks in it that a formula may have too:

```text
expression := [sign gaps] term {gaps sign gaps term}
term       := factor {gaps '*' gaps factor}
factor     := number | '(' gaps '-' gaps number gaps ')' | 'x' digits
```

A gap is a space, a tab or a form feed, and between parentheses an end of a line as well; no gap
stands inside a number or a variable. A whole number has no zeros in front of it that are not needed
and is not too long to be read as an integer. The grammar mentions no reader.
-/

namespace RootFinding

namespace Grammar

open Lexeme

/-- Blanks that part words at a depth of open parentheses. -/
def AreGaps (depth : Nat) (text : List Char) : Prop :=
  ∀ c ∈ text, (isGap c || (endsLine c && 0 < depth)) = true

/-- Gaps are made of blanks. -/
theorem AreGaps.isBlank
    {depth : Nat}
    {text : List Char}
    (areGaps : AreGaps depth text)
    {c : Char}
    (member : c ∈ text) :
    Text.isBlank c = true := by
  have isGap := areGaps c member
  simp only [Lexeme.isGap, endsLine, Bool.or_eq_true, Bool.and_eq_true, decide_eq_true_eq] at isGap
  rcases isGap with ((rfl | rfl) | formFeed) | ⟨rfl | rfl, _⟩
  · decide
  · decide
  · rw [show c = '\x0c' from Char.toNat_inj.mp formFeed]
    decide
  · decide
  · decide

/-- The text is a number that a formula may have, and it stands for `digits · 10 ^ -decimals`. -/
inductive WritesNumber : List Char → (digits decimals : Nat) → Prop where
  | whole
      {text : List Char}
      (digits : IsDigits text)
      (plain : isPlainInteger text = true) :
      WritesNumber text (Text.digitsValue text) 0
  | pointed
      {whole decimals : List Char}
      (digits : IsDigits (whole ++ decimals)) :
      WritesNumber (whole ++ '.' :: decimals)
        (Text.digitsValue (whole ++ decimals)) decimals.length

/-- A plainly written number is a number. -/
theorem WritesNumber.derives
    {text : List Char}
    {digits decimals : Nat}
    (number : WritesNumber text digits decimals) :
    DerivesNumber text digits decimals := by
  cases number with
  | whole digits _ => exact .whole digits
  | pointed digits => exact .pointed digits

/-- The text is a plainly written factor. -/
inductive WritesFactor : List Char → Factor → Prop where
  | number
      {text : List Char}
      {digits decimals : Nat}
      (number : WritesNumber text digits decimals) :
      WritesFactor text (.literal false digits decimals)
  | negated
      {beforeSign beforeNumber text behind : List Char}
      {digits decimals : Nat}
      (gapsBeforeSign : AreGaps 1 beforeSign)
      (gapsBeforeNumber : AreGaps 1 beforeNumber)
      (number : WritesNumber text digits decimals)
      (gapsBehind : AreGaps 1 behind) :
      WritesFactor ('(' :: (beforeSign ++ '-' :: (beforeNumber ++ (text ++ (behind ++ [')'])))))
        (.literal true digits decimals)
  | variable
      {text : List Char}
      {index : Fin variableLimit}
      (digits : IsDigits text)
      (value : Text.digitsValue text = index.val + 1) :
      WritesFactor ('x' :: text) (.variable index)

/-- The text is a plainly written term. -/
inductive WritesTerm : List Char → List Factor → Prop where
  | single
      {text : List Char}
      {factor : Factor}
      (only : WritesFactor text factor) :
      WritesTerm text [factor]
  | product
      {text before behind rest : List Char}
      {factor : Factor}
      {factors : List Factor}
      (first : WritesFactor text factor)
      (gapsBefore : AreGaps 0 before)
      (gapsBehind : AreGaps 0 behind)
      (later : WritesTerm rest factors) :
      WritesTerm (text ++ (before ++ '*' :: (behind ++ rest))) (factor :: factors)

/-- The text is a plainly written sum of terms behind a sign that was read before. -/
inductive WritesSum : (negative : Bool) → List Char → List SignedTerm → Prop where
  | last
      {negative : Bool}
      {text : List Char}
      {factors : List Factor}
      (only : WritesTerm text factors) :
      WritesSum negative text [{ negative, factors }]
  | signed
      {negative sign : Bool}
      {text before behind rest : List Char}
      {factors : List Factor}
      {terms : List SignedTerm}
      (first : WritesTerm text factors)
      (gapsBefore : AreGaps 0 before)
      (gapsBehind : AreGaps 0 behind)
      (later : WritesSum sign rest terms) :
      WritesSum negative (text ++ (before ++ signCharacter sign :: (behind ++ rest)))
        ({ negative, factors } :: terms)

/-- The text is a plainly written expression; its first sign may be left out. -/
inductive WritesExpression : List Char → List SignedTerm → Prop where
  | unsigned
      {text : List Char}
      {terms : List SignedTerm}
      (sum : WritesSum false text terms) :
      WritesExpression text terms
  | signed
      {negative : Bool}
      {gaps text : List Char}
      {terms : List SignedTerm}
      (areGaps : AreGaps 0 gaps)
      (sum : WritesSum negative text terms) :
      WritesExpression (signCharacter negative :: (gaps ++ text)) terms

end Grammar

end RootFinding

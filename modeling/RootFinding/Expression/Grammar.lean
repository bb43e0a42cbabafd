import RootFinding.Expression.Basic
import RootFinding.Expression.Token
import RootFinding.Text.Digit

/-!
# The grammar of expressions

```text
expression := [sign] term {sign term}
term       := factor {'*' factor}
factor     := number | '(' '-' number ')' | 'x' digits
```

Each recognizer returns what it read and the words that follow, with a proof that fewer words
follow; that proof carries the recursion. What was read is then turned into terms: literals are
multiplied into the coefficient, the first two variables are kept and later ones are dropped.
-/

namespace RootFinding

/-- Variables are numbered from 1 to this. -/
def variableLimit : Nat := 10

/-- Variable numbers with more digits than this are refused unread. -/
def variableDigitLimit : Nat := 4300

/-- Why text is no expression. -/
inductive GrammarError where
  | unexpectedCharacter (character : Char)
  | empty
  | unexpectedToken (token : Token)
  | unexpectedEnd
  | malformedNumber (text : List Char)
  | unnumberedVariable
  | variableOutOfRange (digits : List Char)
  | tooManyDigits (count : Nat)
  | positiveParenthesis
  | parenthesisWithoutNumber
  | unmatchedParenthesis
  deriving Repr, DecidableEq

/-- A factor of a term as written; a literal is `digits · 10 ^ -decimals`. -/
inductive Factor where
  | literal (negated : Bool) (digits decimals : Nat)
  | variable (index : Fin variableLimit)
  deriving Repr, DecidableEq

/-- A term as written, with the sign in front of it. -/
structure SignedTerm where
  negative : Bool
  factors : List Factor
  deriving Repr, DecidableEq

/-- What a recognizer returns: what it read, and fewer words than it was given. -/
abbrev Recognized (α : Type) (words : List Token) : Type :=
  Except GrammarError (α × { rest : List Token // rest.length < words.length })

namespace Factor

/-- The literal that a run of digits and points stands for. -/
def ofNumber (negated : Bool) (text : List Char) : Except GrammarError Factor :=
  if 1 < text.count '.' || text = ['.'] then .error (.malformedNumber text)
  else
    let whole := text.takeWhile Char.isDigit
    let decimals := (text.dropWhile Char.isDigit).drop 1
    .ok (.literal negated (Text.digitsValue (whole ++ decimals)) decimals.length)

/-- The variable that a run of digits names. -/
def ofVariable (digits : List Char) : Except GrammarError Factor :=
  if digits.isEmpty then .error .unnumberedVariable
  else if variableDigitLimit < digits.length then .error (.tooManyDigits digits.length)
  else
    let number := Text.digitsValue digits
    if inside : 1 ≤ number ∧ number ≤ variableLimit then
      .ok (.variable ⟨number - 1, by omega⟩)
    else .error (.variableOutOfRange digits)

def recognize : (words : List Token) → Recognized Factor words
  | .number text :: rest => do
      let factor ← ofNumber false text
      return (factor, ⟨rest, Nat.lt_succ_self _⟩)
  | .variable digits :: rest => do
      let factor ← ofVariable digits
      return (factor, ⟨rest, Nat.lt_succ_self _⟩)
  | .opening :: .minus :: .number text :: .closing :: rest => do
      let factor ← ofNumber true text
      return (factor, ⟨rest, by simp only [List.length_cons]; omega⟩)
  | .opening :: .minus :: .number text :: _ => do
      let _ ← ofNumber true text
      .error .unmatchedParenthesis
  | .opening :: .minus :: _ => .error .parenthesisWithoutNumber
  | .opening :: _ => .error .positiveParenthesis
  | [] => .error .unexpectedEnd
  | token :: _ => .error (.unexpectedToken token)

def recognizeProduct (words : List Token) : Recognized (List Factor) words := do
  let (factor, ⟨rest, shorter⟩) ← recognize words
  match following : rest with
  | .times :: more =>
      let (others, ⟨after, shorterYet⟩) ← recognizeProduct more
      return (factor :: others, ⟨after, by
        simp only [following, List.length_cons] at shorter
        omega⟩)
  | _ => return ([factor], ⟨rest, shorter⟩)
termination_by words.length
decreasing_by
  simp only [following, List.length_cons] at shorter
  omega

/-- The index of the variable that a factor names. -/
def index? : Factor → Option (Fin variableLimit)
  | .literal _ _ _ => none
  | .variable index => some index

/-- The value that a literal stands for. -/
def literal? {K : Type} [Arithmetic K] : Factor → Option K
  | .literal negated digits decimals =>
      let size : K := OfScientific.ofScientific digits true decimals
      some (if negated then -size else size)
  | .variable _ => none

end Factor

namespace SignedTerm

/-- Whether a word is a sign, and if so whether it is the minus sign. -/
def sign? : Token → Option Bool
  | .plus => some false
  | .minus => some true
  | _ => none

/-- Read the signed terms up to the end of the words. -/
def recognizeSum (negative : Bool) (words : List Token) :
    Except GrammarError (List SignedTerm) := do
  let (factors, ⟨rest, _shorter⟩) ← Factor.recognizeProduct words
  match _following : rest with
  | [] => return [{ negative, factors }]
  | token :: more =>
      match sign? token with
      | some sign =>
          let others ← recognizeSum sign more
          return { negative, factors } :: others
      | none => .error (.unexpectedToken token)
termination_by words.length
decreasing_by
  simp only [_following, List.length_cons] at _shorter
  omega

/-- The signed terms of a whole expression. -/
def ofTokens : List Token → Except GrammarError (List SignedTerm)
  | [] => .error .empty
  | .plus :: rest => recognizeSum false rest
  | .minus :: rest => recognizeSum true rest
  | words => recognizeSum false words

/-- The signed terms of a typed expression. -/
def ofText (text : String) : Except GrammarError (List SignedTerm) :=
  match Token.ofText text with
  | .ok words => ofTokens words
  | .error character => .error (.unexpectedCharacter character)

/--
The term that is evaluated: the literals multiplied from left to right and then by the sign, and
the first two variables.
-/
def toTerm {K : Type} [Arithmetic K] (written : SignedTerm) : Term K (Fin variableLimit) where
  coefficient :=
    let sign : K := if written.negative then -1.0 else 1.0
    let literals := written.factors.filterMap Factor.literal?
    sign * literals.foldl (fun product size => product * size) 1.0
  monomial := .ofList (written.factors.filterMap Factor.index?)

end SignedTerm

/-- The expression that a text stands for. -/
def Expression.ofText {K : Type} [Arithmetic K] (text : String) :
    Except GrammarError (Expression K (Fin variableLimit)) := do
  let written ← SignedTerm.ofText text
  return written.map SignedTerm.toTerm

end RootFinding

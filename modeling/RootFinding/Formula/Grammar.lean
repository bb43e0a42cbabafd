import RootFinding.Formula.Basic
import RootFinding.Formula.Lexeme

/-!
# The grammar of formulas

```text
sum     := product {('+' | '-') product}
product := unary {('*' | '/') unary}
unary   := ('+' | '-') unary | power
power   := atom ['**' unary]
atom    := numeral | name | '(' sum ')'
```

Operations of one line group to the left; a power reaches further than the sign before it. Every
recognizer comes with a proof that it leaves no more lexemes than it was given, and fewer where it
recognized a formula, so the recursion ends.
-/

namespace RootFinding

namespace Formula

/-- A formula and fewer lexemes than were given. -/
abbrev Recognized (lexemes : List Lexeme) : Type :=
  Option (Formula × { rest : List Lexeme // rest.length < lexemes.length })

/-- A formula and no more lexemes than were given. -/
abbrev Continued (lexemes : List Lexeme) : Type :=
  Option (Formula × { rest : List Lexeme // rest.length ≤ lexemes.length })

/-- The operation that a lexeme adds or subtracts by. -/
def additive? : Lexeme → Option Operation
  | .plus => some .sum
  | .minus => some .difference
  | _ => none

/-- The operation that a lexeme multiplies or divides by. -/
def multiplicative? : Lexeme → Option Operation
  | .times => some .product
  | .divide => some .quotient
  | _ => none

mutual

def sum? (lexemes : List Lexeme) : Recognized lexemes :=
  match product? lexemes with
  | none => none
  | some (first, ⟨rest, shorter⟩) =>
      match sumFrom? first rest with
      | none => none
      | some (whole, ⟨after, noLonger⟩) => some (whole, ⟨after, by omega⟩)
termination_by (lexemes.length, 4)

/-- Recognize the terms of a sum after its first ones. -/
def sumFrom? (left : Formula) (lexemes : List Lexeme) : Continued lexemes :=
  match lexemes with
  | [] => some (left, ⟨[], Nat.le_refl _⟩)
  | lexeme :: rest =>
      match additive? lexeme with
      | none => some (left, ⟨lexeme :: rest, Nat.le_refl _⟩)
      | some kind =>
          match product? rest with
          | none => none
          | some (right, ⟨after, _shorter⟩) =>
              match sumFrom? (.operation kind left right) after with
              | none => none
              | some (whole, ⟨last, noLonger⟩) =>
                  some (whole, ⟨last, by simp only [List.length_cons]; omega⟩)
termination_by (lexemes.length, 4)

def product? (lexemes : List Lexeme) : Recognized lexemes :=
  match unary? lexemes with
  | none => none
  | some (first, ⟨rest, shorter⟩) =>
      match productFrom? first rest with
      | none => none
      | some (whole, ⟨after, noLonger⟩) => some (whole, ⟨after, by omega⟩)
termination_by (lexemes.length, 3)

/-- Recognize the factors of a product after its first ones. -/
def productFrom? (left : Formula) (lexemes : List Lexeme) : Continued lexemes :=
  match lexemes with
  | [] => some (left, ⟨[], Nat.le_refl _⟩)
  | lexeme :: rest =>
      match multiplicative? lexeme with
      | none => some (left, ⟨lexeme :: rest, Nat.le_refl _⟩)
      | some kind =>
          match unary? rest with
          | none => none
          | some (right, ⟨after, _shorter⟩) =>
              match productFrom? (.operation kind left right) after with
              | none => none
              | some (whole, ⟨last, noLonger⟩) =>
                  some (whole, ⟨last, by simp only [List.length_cons]; omega⟩)
termination_by (lexemes.length, 3)

/-- Recognize a power behind any number of signs. -/
def unary? (lexemes : List Lexeme) : Recognized lexemes :=
  match lexemes with
  | .plus :: rest =>
      match unary? rest with
      | none => none
      | some (operand, ⟨after, shorter⟩) =>
          some (operand, ⟨after, by simp only [List.length_cons]; omega⟩)
  | .minus :: rest =>
      match unary? rest with
      | none => none
      | some (operand, ⟨after, shorter⟩) =>
          some (.negation operand, ⟨after, by simp only [List.length_cons]; omega⟩)
  | others => power? others
termination_by (lexemes.length, 2)

/-- Recognize an atom and the power it is raised to. -/
def power? (lexemes : List Lexeme) : Recognized lexemes :=
  match atom? lexemes with
  | none => none
  | some (base, ⟨.power :: rest, _shorter⟩) =>
      match unary? rest with
      | none => none
      | some (exponent, ⟨after, shorterYet⟩) =>
          some (.operation .power base exponent, ⟨after, by
            simp only [List.length_cons] at _shorter
            omega⟩)
  | some (base, rest) => some (base, rest)
termination_by (lexemes.length, 1)
decreasing_by
  · exact Prod.Lex.right _ (by decide)
  · apply Prod.Lex.left
    simp only [List.length_cons] at _shorter
    omega

/-- Recognize a numeral, a name or a sum in parentheses. -/
def atom? (lexemes : List Lexeme) : Recognized lexemes :=
  match lexemes with
  | .numeral digits exponent :: rest => some (.numeral digits exponent, ⟨rest, Nat.lt_succ_self _⟩)
  | .name characters :: rest => some (.name characters, ⟨rest, Nat.lt_succ_self _⟩)
  | .opening :: rest =>
      match sum? rest with
      | some (inner, ⟨.closing :: after, shorter⟩) =>
          some (inner, ⟨after, by simp only [List.length_cons] at shorter ⊢; omega⟩)
      | _ => none
  | _ => none
termination_by (lexemes.length, 0)

end

def ofText? (text : List Char) : Option Formula :=
  match Lexeme.ofText? text with
  | none => none
  | some lexemes =>
      match sum? lexemes with
      | some (formula, ⟨[], _⟩) => some formula
      | _ => none

end Formula

end RootFinding

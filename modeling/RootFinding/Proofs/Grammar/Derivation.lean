import Mathlib.Data.List.Forall2
import RootFinding.Expression.Grammar

/-!
# Derivations

The grammar of expressions on bare characters, without words in between:

```text
expression := [sign] term {sign term}
term       := factor {'*' factor}
factor     := number | '(' '-' number ')' | 'x' digits
```

A number is a run of the digits 0 to 9 with at most one point in it and at least one digit. Digits
after `x` may begin with zeros, and their value is from 1 to the number of variables. A derivation
relates a text to the signed terms that are written in it, and `Denotes` says which coefficient and
which variables a written term stands for. Neither mentions a reader.
-/

namespace RootFinding

namespace Grammar

/-- The text is made of the digits 0 to 9 alone, and there is one. -/
structure IsDigits (text : List Char) : Prop where
  nonempty : text ≠ []
  plain : ∀ c ∈ text, c.isDigit = true

/-- The text is a number that stands for `digits · 10 ^ -decimals`. -/
inductive DerivesNumber : List Char → (digits decimals : Nat) → Prop where
  | whole
      {text : List Char}
      (digits : IsDigits text) :
      DerivesNumber text (Text.digitsValue text) 0
  | pointed
      {whole decimals : List Char}
      (digits : IsDigits (whole ++ decimals)) :
      DerivesNumber (whole ++ '.' :: decimals)
        (Text.digitsValue (whole ++ decimals)) decimals.length

/-- The text is a factor. -/
inductive DerivesFactor : List Char → Factor → Prop where
  | number
      {text : List Char}
      {digits decimals : Nat}
      (number : DerivesNumber text digits decimals) :
      DerivesFactor text (.literal false digits decimals)
  | negated
      {text : List Char}
      {digits decimals : Nat}
      (number : DerivesNumber text digits decimals) :
      DerivesFactor ('(' :: '-' :: (text ++ [')'])) (.literal true digits decimals)
  | variable
      {text : List Char}
      {index : Fin variableLimit}
      (digits : IsDigits text)
      (value : Text.digitsValue text = index.val + 1) :
      DerivesFactor ('x' :: text) (.variable index)

/-- The text is a term, a product of factors. -/
inductive DerivesTerm : List Char → List Factor → Prop where
  | single
      {text : List Char}
      {factor : Factor}
      (only : DerivesFactor text factor) :
      DerivesTerm text [factor]
  | product
      {text rest : List Char}
      {factor : Factor}
      {factors : List Factor}
      (first : DerivesFactor text factor)
      (later : DerivesTerm rest factors) :
      DerivesTerm (text ++ '*' :: rest) (factor :: factors)

def signCharacter (negative : Bool) : Char :=
  if negative then '-' else '+'

/-- The text is a sum of terms behind a sign that was read before. -/
inductive DerivesSum : (negative : Bool) → List Char → List SignedTerm → Prop where
  | last
      {negative : Bool}
      {text : List Char}
      {factors : List Factor}
      (only : DerivesTerm text factors) :
      DerivesSum negative text [{ negative, factors }]
  | signed
      {negative sign : Bool}
      {text rest : List Char}
      {factors : List Factor}
      {terms : List SignedTerm}
      (first : DerivesTerm text factors)
      (later : DerivesSum sign rest terms) :
      DerivesSum negative (text ++ signCharacter sign :: rest)
        ({ negative, factors } :: terms)

/-- The text is an expression; its first sign may be left out. -/
inductive DerivesExpression : List Char → List SignedTerm → Prop where
  | unsigned
      {text : List Char}
      {terms : List SignedTerm}
      (sum : DerivesSum false text terms) :
      DerivesExpression text terms
  | signed
      {negative : Bool}
      {text : List Char}
      {terms : List SignedTerm}
      (sum : DerivesSum negative text terms) :
      DerivesExpression (signCharacter negative :: text) terms

/-- `product` times the literals among the factors, from left to right. -/
def productFrom {K : Type} [Arithmetic K] (product : K) : List Factor → K
  | [] => product
  | .literal false digits decimals :: rest =>
      productFrom (product * OfScientific.ofScientific digits true decimals) rest
  | .literal true digits decimals :: rest =>
      productFrom (product * -OfScientific.ofScientific digits true decimals) rest
  | .variable _ :: rest =>
      productFrom product rest

/-- The variables among the factors, from left to right. -/
def variableIndices : List Factor → List (Fin variableLimit)
  | [] => []
  | .literal _ _ _ :: rest => variableIndices rest
  | .variable index :: rest => index :: variableIndices rest

/--
The written term stands for the term: its coefficient is the sign times the product of the
literals, and its variables are the first two that were written.
-/
structure Denotes {K : Type} [Arithmetic K]
    (written : SignedTerm)
    (term : Term K (Fin variableLimit)) :
    Prop where
  coefficient_eq :
    term.coefficient =
      (if written.negative then -1.0 else 1.0) * productFrom 1.0 written.factors
  variables_eq :
    term.monomial.toList = (variableIndices written.factors).take 2

/-- A monomial is determined by the variables that it multiplies. -/
private theorem monomial_eq_ofList
    {ι : Type}
    (monomial : Monomial ι)
    (indices : List ι)
    (same : monomial.toList = indices.take 2) :
    monomial = .ofList indices := by
  rw [← Monomial.toList_ofList] at same
  rcases indices with _ | ⟨first, _ | ⟨second, rest⟩⟩ <;>
    cases monomial <;>
    simp_all [Monomial.ofList, Monomial.toList]

/-- Multiplying the literals up is multiplying them in the order of the text. -/
private theorem foldl_literals_eq_productFrom {K : Type} [Arithmetic K]
    (factors : List Factor)
    (product : K) :
    (factors.filterMap Factor.literal?).foldl (fun total size => total * size) product =
      productFrom product factors := by
  induction factors generalizing product with
  | nil =>
      rfl
  | cons factor rest inductionHypothesis =>
      cases factor with
      | literal negated digits decimals =>
          cases negated <;>
            simp [Factor.literal?, productFrom, inductionHypothesis]
      | «variable» index =>
          simpa [Factor.literal?, productFrom, List.filterMap_cons]
            using inductionHypothesis product

/-- The variables of a term are those of its factors, in the order of the text. -/
theorem filterMap_index?_eq_variableIndices
    (factors : List Factor) :
    factors.filterMap Factor.index? = variableIndices factors := by
  induction factors with
  | nil =>
      rfl
  | cons factor rest inductionHypothesis =>
      cases factor <;>
        simpa [Factor.index?, variableIndices, List.filterMap_cons] using inductionHypothesis

/-- A written term stands for the one term that it is turned into. -/
theorem denotes_iff {K : Type} [Arithmetic K]
    {written : SignedTerm}
    {term : Term K (Fin variableLimit)} :
    Denotes written term ↔ term = written.toTerm := by
  constructor
  · intro denotes
    obtain ⟨coefficient, monomial⟩ := term
    have sameVariables :=
      monomial_eq_ofList monomial (variableIndices written.factors) denotes.variables_eq
    have sameCoefficient := denotes.coefficient_eq
    dsimp only at sameCoefficient
    simp only [SignedTerm.toTerm, sameCoefficient, sameVariables,
      foldl_literals_eq_productFrom, filterMap_index?_eq_variableIndices]
  · intro same
    subst term
    refine ⟨?_, ?_⟩
    · simp only [SignedTerm.toTerm, foldl_literals_eq_productFrom]
    · simp only [SignedTerm.toTerm, Monomial.toList_ofList, filterMap_index?_eq_variableIndices]

/-- Written terms stand for the expression made of their terms in order, and for no other. -/
theorem forall₂_denotes_iff {K : Type} [Arithmetic K]
    {written : List SignedTerm}
    {expression : Expression K (Fin variableLimit)} :
    List.Forall₂ Denotes written expression ↔
      expression = written.map SignedTerm.toTerm := by
  induction written generalizing expression with
  | nil =>
      simp
  | cons first rest inductionHypothesis =>
      cases expression with
      | nil =>
          simp
      | cons term terms =>
          simp [denotes_iff, inductionHypothesis]

end Grammar

end RootFinding

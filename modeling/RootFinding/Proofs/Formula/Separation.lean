import Mathlib.Data.List.Chain
import RootFinding.Formula.Grammar

/-!
# Operands are kept apart

A numeral or a name is never followed by another one in a formula: there is no operation that is
left unwritten. So the words of a text that is read as a formula tell where one operand ends and the
next begins, also where only a blank stands between them.
-/

namespace RootFinding

namespace Lexeme

/-- A numeral or a name. -/
def isOperand : Lexeme → Bool
  | .numeral _ _ => true
  | .name _ => true
  | _ => false

/-- No two operands stand side by side. -/
def Separated (lexemes : List Lexeme) : Prop :=
  lexemes.IsChain fun first second => first.isOperand = false ∨ second.isOperand = false

theorem Separated.tail
    {lexeme : Lexeme}
    {rest : List Lexeme}
    (separated : Separated (lexeme :: rest)) :
    Separated rest :=
  List.IsChain.tail separated

/-- Behind an operand there is no other one. -/
theorem Separated.not_isOperand
    {lexeme next : Lexeme}
    {rest : List Lexeme}
    (separated : Separated (lexeme :: next :: rest))
    (operand : lexeme.isOperand = true) :
    next.isOperand = false := by
  rcases (List.isChain_cons_cons.mp separated).1 with other | other
  · rw [operand] at other
    cases other
  · exact other

/-- A word between two lists keeps their operands apart. -/
theorem Separated.append_cons
    {first later : List Lexeme}
    {between : Lexeme}
    (separated : Separated first)
    (other : between.isOperand = false)
    (separatedLater : Separated later) :
    Separated (first ++ between :: later) := by
  refine List.isChain_append.mpr ⟨separated, ?_, fun _ _ next isNext => ?_⟩
  · exact List.isChain_cons.mpr ⟨fun _ _ => .inl other, separatedLater⟩
  · rw [List.head?_cons, Option.mem_some_iff] at isNext
    subst next
    exact .inr other

end Lexeme

namespace Formula

open Lexeme

/-- What stands in front of `rest` in a list keeps its operands apart. -/
def SeparatesUpTo (lexemes rest : List Lexeme) : Prop :=
  ∃ taken, lexemes = taken ++ rest ∧ Separated taken

/-- Nothing stands in front of `rest`, or first a word that is no operand. -/
def ContinuesUpTo (lexemes rest : List Lexeme) : Prop :=
  lexemes = rest ∨
    ∃ between more,
      lexemes = between :: more ∧ between.isOperand = false ∧ SeparatesUpTo more rest

section Steps

variable {lexeme between : Lexeme} {lexemes more rest : List Lexeme}

theorem separatesUpTo_single : SeparatesUpTo (lexeme :: rest) rest :=
  ⟨[lexeme], rfl, List.isChain_singleton _⟩

theorem SeparatesUpTo.cons
    (later : SeparatesUpTo more rest)
    (other : between.isOperand = false) :
    SeparatesUpTo (between :: more) rest := by
  obtain ⟨taken, rfl, separated⟩ := later
  exact ⟨between :: taken, rfl, List.isChain_cons.mpr ⟨fun _ _ => .inl other, separated⟩⟩

/-- A separated stretch can be carried on. -/
theorem SeparatesUpTo.continued
    (first : SeparatesUpTo lexemes more)
    (later : ContinuesUpTo more rest) :
    SeparatesUpTo lexemes rest := by
  rcases later with rfl | ⟨between, more, rfl, other, ⟨takenLater, rfl, separatedLater⟩⟩
  · exact first
  · obtain ⟨taken, rfl, separated⟩ := first
    exact ⟨taken ++ between :: takenLater, by simp, separated.append_cons other separatedLater⟩

/-- A separated stretch may end with what is no operand. -/
theorem SeparatesUpTo.closed
    (first : SeparatesUpTo lexemes (between :: rest))
    (other : between.isOperand = false) :
    SeparatesUpTo lexemes rest :=
  first.continued (.inr ⟨between, rest, rfl, other, [], rfl, List.isChain_nil⟩)

theorem not_isOperand_of_additive?
    {kind : Operation}
    (additive : additive? lexeme = some kind) :
    lexeme.isOperand = false := by
  unfold additive? at additive
  split at additive <;> first | rfl | cases additive

theorem not_isOperand_of_multiplicative?
    {kind : Operation}
    (multiplicative : multiplicative? lexeme = some kind) :
    lexeme.isOperand = false := by
  unfold multiplicative? at multiplicative
  split at multiplicative <;> first | rfl | cases multiplicative

end Steps

-- One theorem for each recognizer, which calls the others as the recognizer does.
mutual

/-- What is read as a sum has no two operands next to each other; so every layer below. -/
theorem separatesUpTo_of_sum?
    (lexemes : List Lexeme)
    {formula : Formula}
    {rest : { rest : List Lexeme // rest.length < lexemes.length }}
    (read : sum? lexemes = some (formula, rest)) :
    SeparatesUpTo lexemes rest.val := by
  rw [sum?] at read
  split at read
  · cases read
  · rename_i first after shorter firstRead
    split at read
    · cases read
    · rename_i whole last noLonger laterRead
      cases read
      exact (separatesUpTo_of_product? lexemes firstRead).continued
        (continuesUpTo_of_sumFrom? first after laterRead)
termination_by (lexemes.length, 4)

/-- What a sum is carried on with has no two operands next to each other. -/
theorem continuesUpTo_of_sumFrom?
    (left : Formula)
    (lexemes : List Lexeme)
    {formula : Formula}
    {rest : { rest : List Lexeme // rest.length ≤ lexemes.length }}
    (read : sumFrom? left lexemes = some (formula, rest)) :
    ContinuesUpTo lexemes rest.val := by
  cases lexemes with
  | nil =>
      rw [sumFrom?] at read
      cases read
      exact .inl rfl
  | cons lexeme more =>
      rw [sumFrom?] at read
      split at read
      · cases read
        exact .inl rfl
      · rename_i kind additive
        split at read
        · cases read
        · rename_i right after shorter rightRead
          split at read
          · cases read
          · rename_i whole last noLonger laterRead
            cases read
            have first := separatesUpTo_of_product? more rightRead
            have later := continuesUpTo_of_sumFrom? (.operation kind left right) after laterRead
            exact .inr
              ⟨lexeme, more, rfl, not_isOperand_of_additive? additive, first.continued later⟩
termination_by (lexemes.length, 4)
decreasing_by
  · subst_vars
    exact Prod.Lex.left _ _ (Nat.lt_succ_self _)
  · subst_vars
    exact Prod.Lex.left _ _ (Nat.lt_succ_of_lt ‹_›)

theorem separatesUpTo_of_product?
    (lexemes : List Lexeme)
    {formula : Formula}
    {rest : { rest : List Lexeme // rest.length < lexemes.length }}
    (read : product? lexemes = some (formula, rest)) :
    SeparatesUpTo lexemes rest.val := by
  rw [product?] at read
  split at read
  · cases read
  · rename_i first after shorter firstRead
    split at read
    · cases read
    · rename_i whole last noLonger laterRead
      cases read
      exact (separatesUpTo_of_unary? lexemes firstRead).continued
        (continuesUpTo_of_productFrom? first after laterRead)
termination_by (lexemes.length, 3)

theorem continuesUpTo_of_productFrom?
    (left : Formula)
    (lexemes : List Lexeme)
    {formula : Formula}
    {rest : { rest : List Lexeme // rest.length ≤ lexemes.length }}
    (read : productFrom? left lexemes = some (formula, rest)) :
    ContinuesUpTo lexemes rest.val := by
  cases lexemes with
  | nil =>
      rw [productFrom?] at read
      cases read
      exact .inl rfl
  | cons lexeme more =>
      rw [productFrom?] at read
      split at read
      · cases read
        exact .inl rfl
      · rename_i kind multiplicative
        split at read
        · cases read
        · rename_i right after shorter rightRead
          split at read
          · cases read
          · rename_i whole last noLonger laterRead
            cases read
            have first := separatesUpTo_of_unary? more rightRead
            have later :=
              continuesUpTo_of_productFrom? (.operation kind left right) after laterRead
            exact .inr ⟨lexeme, more, rfl, not_isOperand_of_multiplicative? multiplicative,
              first.continued later⟩
termination_by (lexemes.length, 3)
decreasing_by
  · subst_vars
    exact Prod.Lex.left _ _ (Nat.lt_succ_self _)
  · subst_vars
    exact Prod.Lex.left _ _ (Nat.lt_succ_of_lt ‹_›)

theorem separatesUpTo_of_unary?
    (lexemes : List Lexeme)
    {formula : Formula}
    {rest : { rest : List Lexeme // rest.length < lexemes.length }}
    (read : unary? lexemes = some (formula, rest)) :
    SeparatesUpTo lexemes rest.val := by
  unfold unary? at read
  split at read
  · rename_i more
    split at read
    · cases read
    · rename_i operand after shorter operandRead
      cases read
      exact (separatesUpTo_of_unary? more operandRead).cons rfl
  · rename_i more
    split at read
    · cases read
    · rename_i operand after shorter operandRead
      cases read
      exact (separatesUpTo_of_unary? more operandRead).cons rfl
  · exact separatesUpTo_of_power? lexemes read
termination_by (lexemes.length, 2)
decreasing_by
  · subst_vars
    exact Prod.Lex.left _ _ (Nat.lt_succ_self _)
  · subst_vars
    exact Prod.Lex.left _ _ (Nat.lt_succ_self _)
  · exact Prod.Lex.right _ (by decide)

theorem separatesUpTo_of_power?
    (lexemes : List Lexeme)
    {formula : Formula}
    {rest : { rest : List Lexeme // rest.length < lexemes.length }}
    (read : power? lexemes = some (formula, rest)) :
    SeparatesUpTo lexemes rest.val := by
  unfold power? at read
  split at read
  · cases read
  · rename_i base more shorter baseRead
    split at read
    · cases read
    · rename_i exponent after shorterYet exponentRead
      cases read
      exact (separatesUpTo_of_atom? lexemes baseRead).continued
        (.inr ⟨_, more, rfl, rfl, separatesUpTo_of_unary? more exponentRead⟩)
  · rename_i base after notPower baseRead
    cases read
    exact separatesUpTo_of_atom? lexemes baseRead
termination_by (lexemes.length, 1)
decreasing_by
  · exact Prod.Lex.right _ (by decide)
  · exact Prod.Lex.left _ _ (Nat.lt_of_succ_lt ‹_›)
  · exact Prod.Lex.right _ (by decide)

/-- An atom has no two operands next to each other, parentheses included. -/
theorem separatesUpTo_of_atom?
    (lexemes : List Lexeme)
    {formula : Formula}
    {rest : { rest : List Lexeme // rest.length < lexemes.length }}
    (read : atom? lexemes = some (formula, rest)) :
    SeparatesUpTo lexemes rest.val := by
  unfold atom? at read
  split at read
  · cases read
    exact separatesUpTo_single
  · cases read
    exact separatesUpTo_single
  · rename_i more
    split at read
    · rename_i inner after shorter innerRead
      cases read
      exact ((separatesUpTo_of_sum? more innerRead).closed rfl).cons rfl
    · cases read
  · cases read
termination_by (lexemes.length, 0)
decreasing_by
  subst_vars
  exact Prod.Lex.left _ _ (Nat.lt_succ_self _)

end

/-- The words of a text that is read as a formula have no two operands side by side. -/
theorem exists_separated_of_ofText?
    {text : List Char}
    {formula : Formula}
    (read : ofText? text = some formula) :
    ∃ lexemes rest,
      Lexeme.ofText? text = some lexemes ∧ sum? lexemes = some (formula, ⟨[], rest⟩) ∧
        Separated lexemes := by
  unfold ofText? at read
  split at read
  · cases read
  · rename_i lexemes cutting
    split at read
    · rename_i whole rest recognized
      cases read
      obtain ⟨taken, parts, separated⟩ := separatesUpTo_of_sum? lexemes recognized
      rw [List.append_nil] at parts
      subst taken
      exact ⟨lexemes, rest, cutting, recognized, separated⟩
    · cases read

end Formula

end RootFinding

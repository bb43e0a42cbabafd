import RootFinding.Text.Blank

/-!
# Tokens

The words of an expression: runs of digits and points, variables with their digits, and single
signs. Blanks are gone and commas are points before the words are cut, so a blank inside a number
joins its parts.
-/

namespace RootFinding

/-- One word of an expression. -/
inductive Token where
  | number (text : List Char)
  | variable (digits : List Char)
  | plus
  | minus
  | times
  | opening
  | closing
  deriving Repr, DecidableEq

namespace Token

/-- Digits and points make up numbers. -/
def isNumeric (c : Char) : Bool :=
  c.isDigit || c = '.'

/-- The sign that a character stands for. -/
def sign? : Char → Option Token
  | '+' => some .plus
  | '-' => some .minus
  | '*' => some .times
  | '(' => some .opening
  | ')' => some .closing
  | _ => none

def characters : Token → List Char
  | .number text => text
  | .variable digits => 'x' :: digits
  | .plus => ['+']
  | .minus => ['-']
  | .times => ['*']
  | .opening => ['(']
  | .closing => [')']

theorem characters_of_sign {c : Char} {word : Token} (sign : sign? c = some word) :
    word.characters = [c] := by
  unfold sign? at sign
  split at sign <;> cases sign <;> rfl

/-- Cut condensed text into its words, or return the first character that starts none. -/
def cut (text : List Char) : Except Char (List Token) :=
  match text with
  | [] => .ok []
  | c :: rest =>
      if isNumeric c then do
        let words ← cut (rest.dropWhile isNumeric)
        return .number (c :: rest.takeWhile isNumeric) :: words
      else if c = 'x' then do
        let words ← cut (rest.dropWhile Char.isDigit)
        return .variable (rest.takeWhile Char.isDigit) :: words
      else
        match sign? c with
        | some word => do
            let words ← cut rest
            return word :: words
        | none => .error c
termination_by text.length
decreasing_by
  · exact Nat.lt_succ_of_le (List.dropWhile_suffix _).sublist.length_le
  · exact Nat.lt_succ_of_le (List.dropWhile_suffix _).sublist.length_le
  · exact Nat.lt_succ_self _

/-- The words of a text, put together again, are the text. -/
theorem flatMap_characters_cut
    {text : List Char}
    {words : List Token}
    (cutting : cut text = .ok words) :
    words.flatMap characters = text := by
  fun_induction cut text generalizing words with
  | case1 =>
      cases cutting
      rfl
  | case2 c rest numeric inductionHypothesis =>
      cases later : cut (rest.dropWhile isNumeric) with
      | error character =>
          rw [later] at cutting
          cases cutting
      | ok following =>
          rw [later] at cutting
          cases cutting
          simp [characters, inductionHypothesis later]
  | case3 rest notNumeric inductionHypothesis =>
      cases later : cut (rest.dropWhile Char.isDigit) with
      | error character =>
          rw [later] at cutting
          cases cutting
      | ok following =>
          rw [later] at cutting
          cases cutting
          simp [characters, inductionHypothesis later]
  | case4 c rest notNumeric notVariable word sign inductionHypothesis =>
      cases later : cut rest with
      | error character =>
          rw [later] at cutting
          cases cutting
      | ok following =>
          rw [later] at cutting
          cases cutting
          simp [characters_of_sign sign, inductionHypothesis later]
  | case5 => cases cutting

/-- The words of an expression as it was typed. -/
def ofText (text : String) : Except Char (List Token) :=
  cut (Text.condensed text.toList)

end Token

end RootFinding

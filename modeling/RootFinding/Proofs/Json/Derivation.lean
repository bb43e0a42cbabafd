import RootFinding.Proofs.Json.Number
import RootFinding.Proofs.Json.Record

/-!
# Documents and what they spell

The grammar of the documents that are accepted, on bare characters:

```text
document := blank value blank
value    := word | ['-'] number | '"' {unit} '"'
          | '[' blank [items] ']' | '{' blank [members] '}'
items    := value blank [',' blank items]
members  := member blank [',' blank members]
member   := '"' {unit} '"' blank ':' blank value
number   := whole ['.' digits] [('e' | 'E') ['+' | '-'] digits]
```

A derivation relates a text to the value that it spells, and no reader is mentioned. How long a
number and how deep a list may be is not a matter of the grammar.
-/

namespace RootFinding

namespace JsonValue

open Grammar

/-- The text is made of blanks alone. -/
def IsBlank (text : List Char) : Prop :=
  ∀ c ∈ text, isSpace c = true

/-- The text is a unit of a string. -/
inductive SpellsUnit : List Char → Nat → Prop where
  | plain
      {c : Char}
      (printable : 0x20 ≤ c.toNat)
      (notQuote : c ≠ '"')
      (notBackslash : c ≠ '\\') :
      SpellsUnit [c] c.toNat
  | escaped
      {letter character : Char}
      (known : escape? letter = some character) :
      SpellsUnit ['\\', letter] character.toNat
  | coded
      {a b c d : Char}
      {unit : Nat}
      (known : codeUnit? a b c d = some unit) :
      SpellsUnit ['\\', 'u', a, b, c, d] unit

/-- The text is a run of units. -/
inductive SpellsUnits : List Char → List Nat → Prop where
  | nil : SpellsUnits [] []
  | cons
      {text rest : List Char}
      {unit : Nat}
      {units : List Nat}
      (first : SpellsUnit text unit)
      (later : SpellsUnits rest units) :
      SpellsUnits (text ++ rest) (unit :: units)

/-- The text is a fraction, or nothing. -/
inductive SpellsFraction : (text decimals : List Char) → Prop where
  | absent : SpellsFraction [] []
  | present
      {decimals : List Char}
      (digits : IsDigits decimals) :
      SpellsFraction ('.' :: decimals) decimals

/-- The text is an exponent with its mark, or nothing. -/
inductive SpellsPower : List Char → Int → Prop where
  | absent : SpellsPower [] 0
  | unsigned
      {mark : Char}
      {text : List Char}
      (isMark : mark = 'e' ∨ mark = 'E')
      (digits : IsDigits text) :
      SpellsPower (mark :: text) (Text.digitsValue text)
  | positive
      {mark : Char}
      {text : List Char}
      (isMark : mark = 'e' ∨ mark = 'E')
      (digits : IsDigits text) :
      SpellsPower (mark :: '+' :: text) (Text.digitsValue text)
  | negative
      {mark : Char}
      {text : List Char}
      (isMark : mark = 'e' ∨ mark = 'E')
      (digits : IsDigits text) :
      SpellsPower (mark :: '-' :: text) (-(Text.digitsValue text : Int))

/-- The text is a number behind its sign, a double if it has a fraction or an exponent. -/
inductive SpellsNumber (negative : Bool) : List Char → JsonValue → Prop where
  | integer
      {whole : List Char}
      (isWhole : IsWhole whole) :
      SpellsNumber negative whole
        (.integer (if negative then -(Text.digitsValue whole : Int) else Text.digitsValue whole))
  | double
      {whole fraction decimals mark : List Char}
      {exponent : Int}
      (isWhole : IsWhole whole)
      (spellsFraction : SpellsFraction fraction decimals)
      (spellsPower : SpellsPower mark exponent)
      (scaled : fraction ++ mark ≠ []) :
      SpellsNumber negative (whole ++ (fraction ++ mark))
        (.number
          (Numeral.finite negative (Text.digitsValue (whole ++ decimals))
            (exponent - decimals.length)).toDouble)

/-- The text is a word or a number. -/
inductive SpellsScalar : List Char → JsonValue → Prop where
  | null : SpellsScalar "null".toList .null
  | isTrue : SpellsScalar "true".toList (.boolean true)
  | isFalse : SpellsScalar "false".toList (.boolean false)
  | undefined : SpellsScalar "NaN".toList (.number (0.0 / 0.0))
  | infinite : SpellsScalar "Infinity".toList (.number (1.0 / 0.0))
  | negativeInfinite : SpellsScalar "-Infinity".toList (.number (-(1.0 / 0.0)))
  | number
      {text : List Char}
      {value : JsonValue}
      (unsigned : SpellsNumber false text value) :
      SpellsScalar text value
  | negated
      {text : List Char}
      {value : JsonValue}
      (unsigned : SpellsNumber true text value) :
      SpellsScalar ('-' :: text) value

mutual

/-- The text spells the value. -/
inductive Spells : List Char → JsonValue → Prop where
  | scalar
      {text : List Char}
      {value : JsonValue}
      (scalar : SpellsScalar text value) :
      Spells text value
  | text
      {body : List Char}
      {units : List Nat}
      (spelled : SpellsUnits body units) :
      Spells ('"' :: (body ++ ['"'])) (ofPoints (joinedPairs units))
  | emptyList
      {blank : List Char}
      (isBlank : IsBlank blank) :
      Spells ('[' :: (blank ++ [']'])) (.list [])
  | list
      {blank body : List Char}
      {items : List JsonValue}
      (isBlank : IsBlank blank)
      (spelled : SpellsItems body items) :
      Spells ('[' :: (blank ++ (body ++ [']']))) (.list items)
  | emptyRecord
      {blank : List Char}
      (isBlank : IsBlank blank) :
      Spells ('\x7b' :: (blank ++ ['\x7d'])) (.record [])
  | record
      {blank body : List Char}
      {members : List (String × JsonValue)}
      (isBlank : IsBlank blank)
      (spelled : SpellsMembers body members) :
      Spells ('\x7b' :: (blank ++ (body ++ ['\x7d']))) (.record (laidOver [] members))

/-- The text spells items with commas between them. -/
inductive SpellsItems : List Char → List JsonValue → Prop where
  | last
      {text behind : List Char}
      {item : JsonValue}
      (spelled : Spells text item)
      (isBlank : IsBlank behind) :
      SpellsItems (text ++ behind) [item]
  | more
      {text behind between rest : List Char}
      {item : JsonValue}
      {items : List JsonValue}
      (spelled : Spells text item)
      (isBlank : IsBlank behind)
      (isBlankBetween : IsBlank between)
      (later : SpellsItems rest items) :
      SpellsItems (text ++ (behind ++ ',' :: (between ++ rest))) (item :: items)

/-- The text spells members with commas between them, in the order of the text. -/
inductive SpellsMembers : List Char → List (String × JsonValue) → Prop where
  | last
      {text behind : List Char}
      {member : String × JsonValue}
      (spelled : SpellsMember text member)
      (isBlank : IsBlank behind) :
      SpellsMembers (text ++ behind) [member]
  | more
      {text behind between rest : List Char}
      {member : String × JsonValue}
      {members : List (String × JsonValue)}
      (spelled : SpellsMember text member)
      (isBlank : IsBlank behind)
      (isBlankBetween : IsBlank between)
      (later : SpellsMembers rest members) :
      SpellsMembers (text ++ (behind ++ ',' :: (between ++ rest))) (member :: members)

/-- The text spells a key and its value. -/
inductive SpellsMember : List Char → String × JsonValue → Prop where
  | entry
      {body behind between text : List Char}
      {units : List Nat}
      {value : JsonValue}
      (key : SpellsUnits body units)
      (isBlank : IsBlank behind)
      (isBlankBetween : IsBlank between)
      (spelled : Spells text value) :
      SpellsMember ('"' :: (body ++ '"' :: (behind ++ ':' :: (between ++ text))))
        (pointsText (joinedPairs units), value)

end

/-- The text is a value with blanks around it. -/
inductive SpellsDocument : List Char → JsonValue → Prop where
  | padded
      {before text behind : List Char}
      {value : JsonValue}
      (isBlank : IsBlank before)
      (spelled : Spells text value)
      (isBlankBehind : IsBlank behind) :
      SpellsDocument (before ++ (text ++ behind)) value

end JsonValue

end RootFinding

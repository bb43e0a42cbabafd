/-!
# Small letters

Words of the letters a to z are looked up without regard to case. Only A to Z are lowered: of all
other characters just the Kelvin sign and the capital I with a dot have lower forms among those
letters, and neither a k nor an i before a combining dot occurs in a word that is looked up.
-/

namespace RootFinding

namespace Text

/-- The text with A to Z lowered. -/
def lowered (text : String) : String :=
  String.ofList (text.toList.map Char.toLower)

/-- Some part of the text is exactly the given word. -/
def occursIn (word : List Char) : List Char → Bool
  | [] => word.isEmpty
  | c :: rest => word.isPrefixOf (c :: rest) || occursIn word rest

end Text

end RootFinding

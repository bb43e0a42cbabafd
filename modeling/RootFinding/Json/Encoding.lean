import RootFinding.Json.Reader

/-!
# Encodings of documents

A document arrives as bytes. It starts with a character of one byte, so the zeros among its first
bytes tell how wide its units are and which end comes first. Without zeros it is UTF-8, where a
byte order mark in front is dropped.
-/

namespace RootFinding

namespace JsonValue

/-- How the characters of a document are spread over bytes. -/
inductive Encoding where
  | bytes
  | pairs (bigEndian : Bool)
  | quadruples (bigEndian : Bool)
  deriving Repr, DecidableEq

namespace Encoding

/-- The encoding that the first bytes of a document tell. -/
def ofBytes : List UInt8 → Encoding
  | 0 :: 0 :: _ :: _ :: _ => .quadruples true
  | 0 :: _ :: _ :: _ :: _ => .pairs true
  | _ :: 0 :: 0 :: 0 :: _ => .quadruples false
  | _ :: 0 :: _ :: _ :: _ => .pairs false
  | [0, _] => .pairs true
  | [_, 0] => .pairs false
  | _ => .bytes

/-- The number that bytes spell, the most significant of them first. -/
def spelled (digits : List UInt8) : Nat :=
  digits.foldl (fun value digit => value * 0x100 + digit.toNat) 0

/-- The units of two bytes each, unless a byte is left over. -/
def pairUnits? (bigEndian : Bool) : List UInt8 → Option (List Nat)
  | [] => some []
  | a :: b :: rest =>
      let unit := if bigEndian then [a, b] else [b, a]
      (pairUnits? bigEndian rest).map (spelled unit :: ·)
  | _ => none

/-- The units of four bytes each, unless bytes are left over. -/
def quadrupleUnits? (bigEndian : Bool) : List UInt8 → Option (List Nat)
  | [] => some []
  | a :: b :: c :: d :: rest =>
      let unit := if bigEndian then [a, b, c, d] else [d, c, b, a]
      (quadrupleUnits? bigEndian rest).map (spelled unit :: ·)
  | _ => none

/-- The characters of a document without its byte order mark. -/
def unmarked : List Char → List Char
  | '\uFEFF' :: rest => rest
  | characters => characters

/-- The characters that bytes hold in an encoding. -/
def decode? (content : ByteArray) : Encoding → Option (List Char)
  | .bytes => (String.fromUTF8? content).map fun text => unmarked text.toList
  | .pairs bigEndian =>
      (pairUnits? bigEndian content.toList).map fun units => (joinedPairs units).map pointChar
  | .quadruples bigEndian => do
      let points ← quadrupleUnits? bigEndian content.toList
      if points.all (· < 0x110000) then return points.map pointChar else none

end Encoding

/-- The characters of a document, in the encoding that its first bytes tell. -/
def decoded? (content : ByteArray) : Option (List Char) :=
  (Encoding.ofBytes content.toList).decode? content

end JsonValue

end RootFinding

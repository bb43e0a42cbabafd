/-!
# JSON values

A document as a tree. Integers are unbounded and kept apart from doubles, since a reader may accept
one and refuse the other. A record holds each key once, in the order in which keys first came up.
A document may spell half of a surrogate pair, which is no character: a string with one is kept as
its code points, since it can be passed on but has no encoding.
-/

namespace RootFinding

inductive JsonValue where
  | null
  | boolean (value : Bool)
  | integer (value : Int)
  | number (value : Float)
  | text (value : String)
  | brokenText (points : List Nat)
  | list (items : List JsonValue)
  | record (members : List (String × JsonValue))

namespace JsonValue

/-- Set a key: in its place if it is there, else at the end. -/
def insertMember (key : String) (value : JsonValue) :
    List (String × JsonValue) → List (String × JsonValue)
  | [] => [(key, value)]
  | (other, old) :: rest =>
      if other = key then (key, value) :: rest else (other, old) :: insertMember key value rest

def member? (key : String) (members : List (String × JsonValue)) : Option JsonValue :=
  (members.find? fun entry => entry.1 = key).map (·.2)

theorem member?_insertMember_self
    (key : String)
    (value : JsonValue)
    (members : List (String × JsonValue)) :
    member? key (insertMember key value members) = some value := by
  induction members with
  | nil => simp [insertMember, member?]
  | cons first rest inductionHypothesis =>
      obtain ⟨other, old⟩ := first
      by_cases same : other = key
      · simp [insertMember, member?, same]
      · simpa [insertMember, member?, same] using inductionHypothesis

/-- Setting a key leaves the others alone. -/
theorem member?_insertMember_of_ne
    {key other : String}
    (different : other ≠ key)
    (value : JsonValue)
    (members : List (String × JsonValue)) :
    member? other (insertMember key value members) = member? other members := by
  induction members with
  | nil => simp [insertMember, member?, Ne.symm different]
  | cons first rest inductionHypothesis =>
      obtain ⟨name, old⟩ := first
      by_cases same : name = key
      · subst same
        simp [insertMember, member?, Ne.symm different]
      · by_cases found : name = other
        · subst found
          simp [insertMember, member?, same]
        · simpa [insertMember, member?, same, found] using inductionHypothesis

/-- Setting a key that is there changes no key. -/
theorem map_fst_insertMember
    {key : String}
    {members : List (String × JsonValue)}
    (present : key ∈ members.map (·.1))
    (value : JsonValue) :
    (insertMember key value members).map (·.1) = members.map (·.1) := by
  induction members with
  | nil => simp at present
  | cons first rest inductionHypothesis =>
      obtain ⟨name, old⟩ := first
      by_cases same : name = key
      · simp [insertMember, same]
      · have later : key ∈ rest.map (·.1) := by
          simpa [Ne.symm same] using present
        simpa [insertMember, same] using inductionHypothesis later

/-- The member of a value that is a record. -/
def get? (key : String) : JsonValue → Option JsonValue
  | record members => member? key members
  | _ => none

/-- Half of a surrogate pair. -/
def isHalf (point : Nat) : Bool :=
  0xD800 ≤ point && point ≤ 0xDFFF

/-- The character that stands for what is none. -/
def replacement : Char := Char.ofNat 0xFFFD

/-- The character of a code point; half of a surrogate pair is replaced. -/
def pointChar (point : Nat) : Char :=
  if isHalf point then replacement else Char.ofNat point

/-- The text of code points, with the replacement character for each half of a surrogate pair. -/
def pointsText (points : List Nat) : String :=
  String.ofList (points.map pointChar)

def ofPoints (points : List Nat) : JsonValue :=
  if points.any isHalf then brokenText points else text (pointsText points)

mutual

/-- Whether every value that holds no others passes a test, and every key passes its own. -/
def allParts (onScalar : JsonValue → Bool) (onKey : String → Bool) : JsonValue → Bool
  | list items => allItems onScalar onKey items
  | record members => allMembers onScalar onKey members
  | value => onScalar value

/-- The same for the items of a list. -/
def allItems (onScalar : JsonValue → Bool) (onKey : String → Bool) : List JsonValue → Bool
  | [] => true
  | item :: rest => item.allParts onScalar onKey && allItems onScalar onKey rest

/-- The same for the members of a record. -/
def allMembers (onScalar : JsonValue → Bool) (onKey : String → Bool) :
    List (String × JsonValue) → Bool
  | [] => true
  | (key, value) :: rest =>
      onKey key && value.allParts onScalar onKey && allMembers onScalar onKey rest

end

/-- Calls stand one inside another at most this deep, and every level of nesting takes one. -/
def callLimit : Nat := 1000

/-- The levels of nesting that there is room for where nothing is said of the calls around. -/
def usualRoom : Nat := callLimit - 50

mutual

/-- Lists and records are nested at most `levels` deep. -/
def nestsWithin : (levels : Nat) → JsonValue → Bool
  | 0, list _ | 0, record _ => false
  | levels + 1, list items => itemsNestWithin levels items
  | levels + 1, record members => membersNestWithin levels members
  | _, _ => true

/-- The same for each item of a list. -/
def itemsNestWithin (levels : Nat) : List JsonValue → Bool
  | [] => true
  | item :: rest => item.nestsWithin levels && itemsNestWithin levels rest

/-- The same for the value of each member of a record. -/
def membersNestWithin (levels : Nat) : List (String × JsonValue) → Bool
  | [] => true
  | (_, value) :: rest => value.nestsWithin levels && membersNestWithin levels rest

end

/-- No string in the value holds half of a surrogate pair, so the value has an encoding. -/
def isEncodable (value : JsonValue) : Bool :=
  value.allParts
    (fun
      | brokenText _ => false
      | _ => true)
    fun _ => true

end JsonValue

end RootFinding

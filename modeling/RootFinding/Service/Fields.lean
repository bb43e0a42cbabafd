import RootFinding.Decimal.Numeral
import RootFinding.Json.Value
import RootFinding.Service.NumberText

/-!
# Fields of a request body

A body is a record whose fields are converted one by one: numbers are taken from numerals and truth
values too, strings from nothing else. All faults of a body are reported together, each with the
place where it is, its kind and the value that is at fault.
-/

namespace RootFinding

inductive FaultKind where
  | missing
  | recordExpected
  | listExpected
  | textExpected
  | numberExpected
  | numberUnreadable
  | integerExpected
  | integerUnreadable
  | integerTooLong
  | integerFractional
  | notFinite
  deriving Repr, DecidableEq

/-- The name under which a kind of fault is reported. -/
def FaultKind.name : FaultKind → String
  | .missing => "missing"
  | .recordExpected => "model_attributes_type"
  | .listExpected => "list_type"
  | .textExpected => "string_type"
  | .numberExpected => "float_type"
  | .numberUnreadable => "float_parsing"
  | .integerExpected => "int_type"
  | .integerUnreadable => "int_parsing"
  | .integerTooLong => "int_parsing_size"
  | .integerFractional => "int_from_float"
  | .notFinite => "finite_number"

/--
A fault, at a field or at an item of a list that is its value, or at the whole body. A field that is
missing is a fault of the whole body too.
-/
structure Fault where
  field : Option String
  index : Option Nat
  kind : FaultKind
  value : JsonValue

namespace Fault

/-- The value of a fault is reported with it, which no undefined or infinite number allows. -/
def isShowable (fault : Fault) : Bool :=
  fault.value.allParts
    (fun
      | .number value => value.isFinite
      | .brokenText _ => false
      | _ => true)
    fun key => !key.toList.contains JsonValue.replacement

end Fault

/-- A value, or the faults that keep it from being one. -/
abbrev Checked (α : Type) : Type :=
  Except (List Fault) α

namespace Field

/-- Both values, or the faults of both. -/
def both {α β : Type} : Checked α → Checked β → Checked (α × β)
  | .ok a, .ok b => .ok (a, b)
  | .error faults, .ok _ => .error faults
  | .ok _, .error faults => .error faults
  | .error first, .error second => .error (first ++ second)

/-- Doubles of this size and above are not taken as integers. -/
def wideDouble : Float := 9.223372036854775808e18

/-- An integer; a double is one if it has no fraction and fits 64 bits. -/
def integer : JsonValue → Except FaultKind Int
  | .integer value => .ok value
  | .boolean value => .ok (if value then 1 else 0)
  | .number value =>
      let size := value.abs.toUInt64
      if !value.isFinite then .error .notFinite
      else if wideDouble.le value.abs then .error .integerTooLong
      else if !(size.toFloat == value.abs) then .error .integerFractional
      else .ok (if value.lt 0.0 then -(size.toNat : Int) else size.toNat)
  | .text value =>
      match NumberText.integer value with
      | .ok value => .ok value
      | .error .unreadable => .error .integerUnreadable
      | .error .tooLong => .error .integerTooLong
  | .brokenText _ => .error .integerUnreadable
  | _ => .error .integerExpected

def number : JsonValue → Except FaultKind Float
  | .number value => .ok value
  | .boolean value => .ok (if value then 1.0 else 0.0)
  | .integer value =>
      match Numeral.doubleOfInt? value with
      | some double => .ok double
      | none => .error .numberExpected
  | .text value =>
      match NumberText.numeral? value with
      | some numeral => .ok numeral.toDouble
      | none => .error .numberUnreadable
  | .brokenText _ => .error .numberUnreadable
  | _ => .error .numberExpected

/-- A string; half of a surrogate pair is replaced. -/
def text : JsonValue → Except FaultKind String
  | .text value => .ok value
  | .brokenText points => .ok (JsonValue.pointsText points)
  | _ => .error .textExpected

/-- The items of a list, each converted; every item that cannot be is a fault. -/
def items {α : Type} (convert : JsonValue → Except FaultKind α) (field : String) :
    (index : Nat) → List JsonValue → Checked (List α)
  | _, [] => .ok []
  | index, value :: rest =>
      let first : Checked α :=
        (convert value).mapError fun kind =>
          [{ field := some field, index := some index, kind, value }]
      (both first (items convert field (index + 1) rest)).map fun (a, others) => a :: others

/-- A field that is converted as a whole. -/
def single {α : Type}
    (convert : JsonValue → Except FaultKind α)
    (field : String)
    (value : JsonValue) :
    Checked α :=
  (convert value).mapError fun kind => [{ field := some field, index := none, kind, value }]

def list {α : Type}
    (convert : JsonValue → Except FaultKind α)
    (field : String) :
    JsonValue → Checked (List α)
  | .list values => items convert field 0 values
  | value => .error [{ field := some field, index := none, kind := .listExpected, value }]

/-- A field that has to be there. -/
def required {α : Type}
    (convert : String → JsonValue → Checked α)
    (members : List (String × JsonValue))
    (field : String) :
    Checked α :=
  match JsonValue.member? field members with
  | some value => convert field value
  | none =>
      .error [{ field := some field, index := none, kind := .missing, value := .record members }]

/-- A field that may be left out or null. -/
def optional {α : Type}
    (convert : String → JsonValue → Checked α)
    (members : List (String × JsonValue))
    (field : String) :
    Checked (Option α) :=
  match JsonValue.member? field members with
  | none | some .null => .ok none
  | some value => (convert field value).map some

end Field

end RootFinding

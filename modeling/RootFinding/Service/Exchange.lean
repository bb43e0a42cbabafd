import RootFinding.Json.Encoding
import RootFinding.Service.Fields

/-!
# Requests and responses

A request carries a document, or something that cannot be read as one. A response is a status and a
body, which has to have an encoding: where it would quote half of a surrogate pair, the request
fails instead.
-/

namespace RootFinding

/-- What a request carries. -/
inductive RequestBody where
  | absent
  | document (value : JsonValue)
  | malformed
  | unreadable

/-- What a response carries. -/
inductive ResponseBody where
  | document (members : List (String × JsonValue))
  | detail (message : String)
  | plain (message : String)
  | faults (faults : List Fault)
  | malformedDocument

structure Response where
  status : Nat
  body : ResponseBody

namespace RequestBody

/-- The body that bytes are, read with room for so many levels of nesting. -/
def ofBytes (content : ByteArray) (room : Nat := JsonValue.usualRoom) : RequestBody :=
  if content.isEmpty then .absent
  else
    match JsonValue.decoded? content with
    | none => .unreadable
    | some characters =>
        match JsonValue.read room characters with
        | .ok value => .document value
        | .error .malformed => .malformed
        | .error .tooManyDigits | .error .tooDeep => .unreadable

end RequestBody

namespace Response

/-- A refusal with a reason. -/
def refusal (status : Nat) (message : String) : Response where
  status
  body := .detail message

/-- The answer when something failed that no endpoint accounts for. -/
def internalError : Response where
  status := 500
  body := .plain "Internal Server Error"

/--
The answer when a solve failed for another reason than its request. That reason stands behind these
words in an answer; it is left out here.
-/
def solverError : Response :=
  refusal 500 "Solver error"

def success (members : List (String × JsonValue)) : Response where
  status := 200
  body := .document members

/-- The answer to a body with faults, if they can be shown. -/
def ofFaults (faults : List Fault) : Response :=
  if faults.all Fault.isShowable then { status := 422, body := .faults faults } else internalError

/-- The answer without its body. -/
def headOnly (response : Response) : Response :=
  { response with body := .plain "" }

/-- The replacement character occurs in a text. -/
def holdsReplacement (text : String) : Bool :=
  text.toList.contains JsonValue.replacement

/-- A text of the response holds the replacement character. -/
def quotesReplacement (response : Response) : Bool :=
  match response.body with
  | .detail message => holdsReplacement message
  | .document members =>
      members.any fun
        | (_, .text value) => holdsReplacement value
        | _ => false
  | _ => false

/--
The answer to a request of a given document, which fails if it would quote half of a surrogate pair
out of it.
-/
def encoded (document : JsonValue) (response : Response) : Response :=
  if !document.isEncodable && response.quotesReplacement then internalError else response

end Response

end RootFinding

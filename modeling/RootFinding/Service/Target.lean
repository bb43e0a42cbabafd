import RootFinding.Json.Reader
import RootFinding.Text.Blank

/-!
# Request targets

A target names a path, perhaps behind a scheme and a host, and may carry a query and a fragment,
which no endpoint looks at. Dots that stand for segments are resolved before escapes of single bytes
are. A path that no route has is looked up again without the slashes at its end.
-/

namespace RootFinding

namespace Target

/-- Targets are not longer than this. -/
def lengthLimit : Nat := 65536

/-- A target can be asked for: it is not too long and holds no control characters. -/
def isAllowed (target : String) : Bool :=
  target.length ≤ lengthLimit && target.toList.all fun c => 0x20 ≤ c.toNat && c.toNat ≠ 0x7F

/-- The target without its query and its fragment. -/
def withoutQuery (target : List Char) : List Char :=
  target.takeWhile fun c => c ≠ '?' && c ≠ '#'

/-- The target from its host on. -/
def withoutScheme (target : List Char) : List Char :=
  let scheme := (target.takeWhile (· ≠ ':')).map Char.toLower
  let rest := (target.dropWhile (· ≠ ':')).drop 1
  if scheme ∈ ["http".toList, "https".toList] && rest.take 2 = ['/', '/'] then rest else target

/-- The target from its path on; a name of a host stands between two slashes and the next one. -/
def withoutHost : List Char → List Char
  | '/' :: '/' :: rest => rest.dropWhile (· ≠ '/')
  | target => target

/-- The segments that are left when dots stand for the segment itself and the one before it. -/
def withoutDots : (seen : List (List Char)) → List (List Char) → List (List Char)
  | seen, [] => seen.reverse
  | seen, ['.'] :: rest => withoutDots seen rest
  | seen, ['.', '.'] :: rest =>
      withoutDots (if seen = [[]] then seen else seen.drop 1) rest
  | seen, segment :: rest => withoutDots (segment :: seen) rest

/-- The bytes of a text in which two hexadecimal digits behind a percent sign spell a byte. -/
def unescaped : List Char → List UInt8
  | '%' :: high :: low :: rest =>
      match JsonValue.hexValue? high, JsonValue.hexValue? low with
      | some high, some low => UInt8.ofNat (high * 16 + low) :: unescaped rest
      | _, _ => '%'.toString.toUTF8.toList ++ unescaped (high :: low :: rest)
  | c :: rest => c.toString.toUTF8.toList ++ unescaped rest
  | [] => []

/-- The path of a target; it starts with one slash. -/
def path? (target : String) : Option String :=
  let relative := (withoutHost (withoutScheme (withoutQuery target.toList))).dropWhile (· = '/')
  let segments := withoutDots [] (('/' :: relative).splitOn '/')
  String.fromUTF8? ⟨(unescaped (['/'].intercalate segments)).toArray⟩

/-- The path without the slashes at its end. -/
def withoutLastSlashes (path : String) : String :=
  String.ofList (path.toList.reverse.dropWhile (· = '/')).reverse

/-- The path by which a route is found: a line end behind it does not count. -/
def key (path : String) : String :=
  String.ofList (Text.withoutLineEnd path.toList)

end Target

end RootFinding

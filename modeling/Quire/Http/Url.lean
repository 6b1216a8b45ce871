import Quire.Text.Cut

/-! Addresses of services.

An endpoint is the address that a service's own addresses begin with. Segments are added to its
path; what would change the meaning of a segment is written in percent notation. -/
namespace Quire.Http.Url

/-- A byte in percent notation. -/
def percent (b : UInt8) : String :=
  let digit (n : Nat) : Char := (Nat.digitChar n).toUpper
  String.ofList ['%', digit (b.toNat / 16), digit (b.toNat % 16)]

/-- The text in which every byte stands for itself or in percent notation. -/
def encode (isPlain : Char → Bool) (s : String) : String :=
  String.join (s.toUTF8.data.toList.map fun b =>
    if b.toNat < 0x80 && isPlain (Char.ofNat b.toNat) then (Char.ofNat b.toNat).toString
    else percent b)

/-- A segment of a path: neither controls nor the characters that end it. -/
def segment (s : String) : String :=
  encode (fun c => 0x20 < c.toNat && c.toNat < 0x7F && ! "\"<>`#?\x7b\x7d/%\\".toList.contains c) s

/-- A parameter's name or value: letters, digits and `*-._` stand for themselves, and a plus sign
for a blank. -/
def parameter (s : String) : String :=
  "+".intercalate <| (Text.cut ' ' s).map <|
    encode fun c => c.isAlphanum || "*-._".toList.contains c

/-- Parameters as they stand in an address. -/
def query (fields : List (String × String)) : String :=
  "&".intercalate (fields.map fun (name, value) => parameter name ++ "=" ++ parameter value)

/-- Why an endpoint is of no use. -/
inductive Fault
  /-- It is no address. -/
  | invalid
  /-- Its path cannot be continued. -/
  | closed
  deriving DecidableEq, Repr

/-- The scheme of an address, and what follows its colon. -/
def scheme? (s : String) : Option (String × String) :=
  let head := s.toList.takeWhile (· != ':')
  match head, s.toList.drop head.length with
  | first :: _, _ :: rest =>
    if first.isAlpha && head.all (fun c => c.isAlphanum || "+-.".toList.contains c) then
      some (Text.asciiLower (String.ofList head), String.ofList rest)
    else none
  | _, _ => none

/-- A host, perhaps with a colon and a number below 2^16 behind it; the host is not empty and free
of what ends it. -/
def isAuthority (s : String) : Bool :=
  let afterUser := ((Text.cut '@' s).getLast?).getD ""
  let host := afterUser.toList.takeWhile (· != ':')
  let behind := (afterUser.toList.drop host.length).drop 1
  let bracketed := Text.startsWith "[" afterUser
  let number := behind.foldl (fun n c => n * 10 + (c.toNat - 48)) 0
  ! host.isEmpty && (bracketed || ((behind.all Char.isDigit && number < 65536) &&
    host.all fun c => 0x20 < c.toNat && ! "<>^|%[]\\".toList.contains c))

/-- An endpoint in three parts: what stands before the path, the path, and what follows it. -/
def split (endpoint : String) : Except Fault (String × String × String) :=
  match scheme? endpoint with
  | none => .error .invalid
  | some (scheme, rest) =>
    let ends (c : Char) : Bool := c == '?' || c == '#'
    if ["http", "https", "ws", "wss", "ftp"].contains scheme then
      let body := rest.toList.dropWhile (· == '/')
      let authority := body.takeWhile fun c => ! (c == '/' || ends c)
      let after := body.drop authority.length
      let path := after.takeWhile fun c => ! ends c
      if isAuthority (String.ofList authority) then
        .ok (scheme ++ "://" ++ String.ofList authority, String.ofList path,
          String.ofList (after.drop path.length))
      else .error .invalid
    else if Text.startsWith "/" rest || scheme == "file" then
      let path := rest.toList.takeWhile fun c => ! ends c
      .ok (scheme ++ ":", String.ofList path, String.ofList (rest.toList.drop path.length))
    else .error .closed

/-- The endpoint with further segments at the end of its path. -/
def extend (endpoint : String) (segments : List String) : Except Fault String := do
  let (front, path, back) ← split endpoint
  let path := if Text.endsWith "/" path then String.ofList path.toList.dropLast else path
  let named := segments.filter fun s => s != "." && s != ".."
  .ok (front ++ path ++ String.join (named.map fun s => "/" ++ segment s) ++ back)

end Quire.Http.Url

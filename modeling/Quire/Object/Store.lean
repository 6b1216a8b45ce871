import Quire.Text.Cut
import Quire.Failure.Provider

/-! Objects in memory, by key.

An object is written from a stream of chunks, and only if none of them fails. Keys are kept in
ascending order. A store's objects have addresses, from which the keys can be read back. -/
namespace Quire

/-- Chunks of bytes as they arrive; a failure stands where it arises. -/
abbrev ByteStream := List (Except StorageError ByteArray)

namespace ByteStream

def ofBytes (bytes : ByteArray) : ByteStream := [.ok bytes]

/-- Everything after what is there already, or the first failure. -/
def collectFrom (buffer : ByteArray) : ByteStream → Except StorageError ByteArray
  | [] => .ok buffer
  | .ok chunk :: rest => collectFrom (buffer ++ chunk) rest
  | .error e :: _ => .error e

def collect (s : ByteStream) : Except StorageError ByteArray := collectFrom ByteArray.empty s

end ByteStream

/-- How a store's objects are addressed: `scheme://bucket/key`. -/
structure Bucket where
  scheme : String
  name : String
  deriving DecidableEq, Repr

namespace Bucket

def uri (b : Bucket) (key : String) : String := b.scheme ++ "://" ++ b.name ++ "/" ++ key

/-- The key of an address in this bucket. -/
def key? (b : Bucket) (uri : String) : Option String := do
  let rest ← Text.dropStart? (b.scheme ++ "://") uri
  let rest ← Text.dropStart? b.name rest
  Text.dropStart? "/" rest

end Bucket

structure StoredObject where
  data : ByteArray
  contentType : String

/-- A bucket's objects in ascending order of their keys. -/
structure ObjectStore where
  bucket : Bucket
  objects : List (String × StoredObject)

namespace ObjectStore

def empty (bucketName : String) : ObjectStore := ⟨⟨"mem", bucketName⟩, []⟩

def find? (s : ObjectStore) (key : String) : Option StoredObject :=
  (s.objects.find? fun (k, _) => k == key).map Prod.snd

def contains (s : ObjectStore) (key : String) : Bool := (s.find? key).isSome

/-- The objects with one put in its place. -/
def place (key : String) (o : StoredObject) :
    List (String × StoredObject) → List (String × StoredObject)
  | [] => [(key, o)]
  | (k, old) :: rest =>
    if key < k then (key, o) :: (k, old) :: rest
    else if k < key then (k, old) :: place key o rest
    else (key, o) :: rest

def insert (s : ObjectStore) (key contentType : String) (data : ByteArray) : ObjectStore :=
  { s with objects := place key ⟨data, contentType⟩ s.objects }

/-- Writes an object, unless its stream fails. -/
def put (s : ObjectStore) (key : String) (body : ByteStream) (contentType : String) :
    Except StorageError ObjectStore := do
  return s.insert key contentType (← body.collect)

def get (s : ObjectStore) (key : String) : Except StorageError ByteArray :=
  match s.find? key with
  | some o => .ok o.data
  | none => .error (.notFound key)

/-- Removes an object; a key that is not there is no failure. -/
def delete (s : ObjectStore) (key : String) : ObjectStore :=
  { s with objects := s.objects.filter fun (k, _) => k != key }

def keys (s : ObjectStore) : List String := s.objects.map Prod.fst

/-- The keys that begin alike. -/
def list (s : ObjectStore) (start : String) : List String := s.keys.filter (Text.startsWith start)

end ObjectStore
end Quire

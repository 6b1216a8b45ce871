import Quire.Object.Store
import Quire.Environment
import Quire.Time.Instant

/-! Reading uploaded files.

A file is read through a reference that is valid for a while: as a stream, or at once into a
buffer of bounded size. -/
namespace Quire.Upload

/-- A handle on an uploaded file. -/
structure Reference where
  location : String
  /-- The size that was recorded when the reference was made. -/
  size : Nat
  expiresAt : Instant
  deriving DecidableEq, Repr

/-- How many bytes a chunk has at most. -/
def chunkSize : Nat := 64 * 1024

/-- Bytes in chunks, the last one perhaps shorter; `left` bounds the number of chunks. -/
def chunksFrom (bytes : ByteArray) (start : Nat) : (left : Nat) → ByteStream
  | 0 => []
  | left + 1 =>
    if bytes.size ≤ start then []
    else .ok (bytes.extract start (start + chunkSize)) ::
      chunksFrom bytes (start + chunkSize) left

def chunks (bytes : ByteArray) : ByteStream :=
  chunksFrom bytes 0 (bytes.size / chunkSize + 1)

/-- A stream gathered behind what is in the buffer, as long as it stays within the limit. -/
def gather (limit : Nat) (buffer : ByteArray) : ByteStream → Except StorageError ByteArray
  | [] => .ok buffer
  | .error e :: _ => .error e
  | .ok chunk :: rest =>
    if limit < buffer.size + chunk.size then .error (.tooLarge (buffer.size + chunk.size) limit)
    else gather limit (buffer ++ chunk) rest

/-- The whole file of a reference. A file whose recorded size is beyond the limit is not
opened. -/
def readAll {m : Type → Type v} [Monad m] (openStream : m (Except StorageError ByteStream))
    (reference : Reference) (limit : Nat) : m (Except StorageError ByteArray) := do
  if limit < reference.size then return .error (.tooLarge reference.size limit)
  match ← openStream with
  | .error e => return .error e
  | .ok stream => return gather limit ByteArray.empty stream

/-- The largest capacity that a buffer is made with. -/
def maxCapacity : Nat := 0x7FFFFFFFFFFFFFFF

/-- The same, with the buffer that the bytes go to: it is made for the recorded size as soon as the
file is open. None if no buffer is so large, and then the run is broken off. -/
def readAll? {m : Type → Type v} [Monad m] (openStream : m (Except StorageError ByteStream))
    (reference : Reference) (limit : Nat) : m (Option (Except StorageError ByteArray)) := do
  if reference.size ≤ limit && maxCapacity < reference.size then
    match ← openStream with
    | .error e => return some (.error e)
    | .ok _ => return none
  return some (← readAll openStream reference limit)

/-! ### Files under a root -/

/-- The place of a storage path under a root. A path that could lead out of it leads nowhere. -/
def resolve (root path : String) : Except StorageError String :=
  let inside := (Path.components path).all fun
    | .normal _ | .current => true
    | _ => false
  if inside && path != "" then .ok (Path.join root path) else .error (.notFound path)

/-- What a directory counts as its size. -/
def directorySize : Nat := 4096

variable {δ : Type}

/-- The size of what is found at a place. -/
def entrySize (databaseSize : δ → Nat) : Entry δ → Nat
  | .bytes content => content.size
  | .database d => databaseSize d
  | .directory _ => directorySize

/-- A reference to the file of a storage path. -/
def reference (e : Environment δ) (databaseSize : δ → Nat) (root path : String) (ttl : Span)
    (now : Instant) : Except StorageError Reference := do
  let place ← resolve root path
  match e.find place with
  | .ok e => .ok ⟨place, entrySize databaseSize e, now.after ttl⟩
  | .error .notFound => .error (.notFound path)
  | .error fault => .error (.unreadable place fault)

/-- The content of a reference that has not expired. -/
def openStream (e : Environment δ) (r : Reference) (now : Instant) :
    Except StorageError ByteStream :=
  if ! now.before r.expiresAt then
    .error (.stream s!"reference to '{r.location}' expired at {r.expiresAt.message}")
  else match e.find r.location with
    | .ok (.bytes content) => .ok (chunks content)
    | .ok (.database _) => .ok []
    | .ok (.directory _) => .ok [.error (.unreadable r.location .isDirectory)]
    | .error fault => .error (.unreadable r.location fault)

end Quire.Upload

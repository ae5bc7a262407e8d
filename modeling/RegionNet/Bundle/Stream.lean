import RegionNet.Bytes
import RegionNet.Files.Tree
import RegionNet.Error

namespace RegionNet.Bundle

/-!
# Checkpoint streams

A saved network is a directory, the bundle. Each region keeps its state in flat files of the
bundle named `label.region.stream`. A `Streams` value stands for one region's streams under one
label, opened either for reading or for writing, and one stream at a time: asking for a second
stream while one is open is refused.

Opening a stream for writing creates its file empty; the bytes written reach the file through a
buffer, when it is flushed, when the writer is finished, or when a write does not fit the
buffer. Opening a stream for reading takes the file's bytes; a missing file is a bad checkpoint,
and a directory opens but fails every read.
-/

/-- Whether a bundle's streams are read or written. -/
inductive StreamMode where
  | read
  | write
  deriving DecidableEq, Repr

/-- The name of a mode. -/
def StreamMode.name : StreamMode → String
  | .read => "Read"
  | .write => "Write"

/-- The streams of one region in a bundle, under a label. -/
structure Streams where
  bundlePath : String
  label : String
  region : String
  mode : StreamMode
  deriving DecidableEq, Repr

/-- What a read of an opened stream gives: its bytes, or the error every read gives. -/
abbrev Contents := Except Files.IoError Bytes

namespace Streams

/-- The file of a stream: `label.region.stream` inside the bundle. -/
def path (s : Streams) (stream : String) : String :=
  Files.joinPath s.bundlePath s!"{s.label}.{s.region}.{stream}"

/-- Whether a stream's file exists. -/
def present (s : Streams) (fs : Files.FileSystem) (stream : String) : Bool :=
  fs.isFile (s.path stream)

/-- Refuse a stream asked for against the mode. -/
def checkMode (s : Streams) (wanted : StreamMode) (stream : String) : Except EngineError Unit :=
  if s.mode = wanted then .ok ()
  else .error (.wrongStreamMode
    s!"{wanted.name} stream '{stream}' requested from a {s.mode.name} bundle")

/-- Refuse a stream while another one is open. -/
def checkFree (s : Streams) (held : Option String) (stream : String) : Except EngineError Unit :=
  match held with
  | some current => .error (.streamAlreadyOpen
      s!"'{stream}' requested while '{current}' is open for region '{s.region}'")
  | none => .ok ()

/-- Open a stream for writing: its file is created empty, or emptied. -/
def create (s : Streams) (fs : Files.FileSystem) (stream : String) :
    Except EngineError Files.FileSystem := do
  s.checkMode .write stream
  match fs.write (s.path stream) ByteArray.empty with
  | .ok fs => pure fs
  | .error e => throw (.io e.message)

/-- Open a stream for reading. -/
def openRead (s : Streams) (fs : Files.FileSystem) (stream : String) :
    Except EngineError Contents := do
  s.checkMode .read stream
  match fs.node (s.path stream) with
  | .ok (.file bytes) => pure (.ok bytes.data)
  | .ok (.dir _) => pure (.error .isDirectory)
  | .error .notFound => throw (.badCheckpoint s!"missing stream {s.path stream}")
  | .error e => throw (.io e.message)

/-- Write a whole stream at once: create it, then fill it. -/
def writeAll (s : Streams) (fs : Files.FileSystem) (stream : String) (bytes : Bytes) :
    Except EngineError Files.FileSystem := do
  let fs ← s.create fs stream
  match fs.write (s.path stream) ⟨bytes⟩ with
  | .ok fs => pure fs
  | .error e => throw (.io e.message)

end Streams

/-- Append bytes to a file, if it is still there. -/
def appendTo (fs : Files.FileSystem) (path : String) (bytes : Bytes) : Files.FileSystem :=
  if bytes.isEmpty then fs
  else match fs.node path with
    | .ok (.file old) => (fs.write path (old ++ ⟨bytes⟩)).toOption.getD fs
    | _ => fs

/-- The buffer size of a stream writer. -/
def bufferCapacity : Nat := 8192

/-- A stream opened for writing, with the bytes not yet in its file. -/
structure Writer where
  path : String
  stream : String
  pending : Bytes := #[]
  deriving DecidableEq, Repr

namespace Writer

/-- Move the buffered bytes into the file. -/
def flush (w : Writer) (fs : Files.FileSystem) : Writer × Files.FileSystem :=
  ({ w with pending := #[] }, appendTo fs w.path w.pending)

/-- Write bytes: they are buffered when they fit; a write as large as the buffer goes to the
file directly, after what was buffered. -/
def write (w : Writer) (fs : Files.FileSystem) (bytes : Bytes) : Writer × Files.FileSystem :=
  let (w, fs) := if w.pending.size + bytes.size > bufferCapacity then w.flush fs else (w, fs)
  if bytes.size ≥ bufferCapacity then (w, appendTo fs w.path bytes)
  else ({ w with pending := w.pending ++ bytes }, fs)

end Writer

/-- A stream opened for reading, with the position of the next read. -/
structure Reader where
  stream : String
  contents : Contents
  position : Nat := 0
  deriving Repr

/-- Read the rest of a stream as text. -/
def Reader.readText (r : Reader) : Reader × Except Files.IoError String :=
  match r.contents with
  | .error e => (r, .error e)
  | .ok bytes =>
    let rest := bytes.extract r.position bytes.size
    let r := { r with position := bytes.size }
    match Bytes.toString? rest with
    | some s => (r, .ok s)
    | none => (r, .error .invalidUtf8)

/-- A `Streams` value in use, with the stream it has open. -/
structure Handle where
  streams : Streams
  held : Option String := none
  deriving DecidableEq, Repr

namespace Handle

/-- Open a stream for writing; the handle holds it until the writer is dropped. -/
def openWrite (h : Handle) (fs : Files.FileSystem) (stream : String) :
    Except EngineError (Handle × Files.FileSystem × Writer) := do
  h.streams.checkMode .write stream
  h.streams.checkFree h.held stream
  let fs ← h.streams.create fs stream
  return ({ h with held := some stream }, fs, { path := h.streams.path stream, stream })

/-- Open a stream for reading; the handle holds it until the reader is dropped. -/
def openRead (h : Handle) (fs : Files.FileSystem) (stream : String) :
    Except EngineError (Handle × Reader) := do
  h.streams.checkMode .read stream
  h.streams.checkFree h.held stream
  let contents ← h.streams.openRead fs stream
  return ({ h with held := some stream }, { stream, contents })

/-- Let go of the open stream. -/
def release (h : Handle) : Handle := { h with held := none }

end Handle

end RegionNet.Bundle

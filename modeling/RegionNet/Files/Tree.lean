import RegionNet.Files.Error
import RegionNet.Files.Path

namespace RegionNet.Files

/-!
# A file tree

Files and directories as a value. A directory keeps its entries in creation order; a path is
resolved against a working directory. The operations fail as an operating system does: a missing
component is `notFound`, a file where a directory is needed `notDirectory`, a directory where a
file is needed `isDirectory`.
-/

/-- A file with its bytes, or a directory with its named entries. -/
inductive Node where
  | file (bytes : ByteArray)
  | dir (entries : List (String × Node))

namespace Node

/-- The node at a path below this one. -/
def get : Node → List String → Except IoError Node
  | n, [] => .ok n
  | .file _, _ :: _ => .error .notDirectory
  | .dir cs, c :: rest =>
    match cs.lookup c with
    | some n => n.get rest
    | none => .error .notFound

/-- Entries with the entry of a name set (or removed for `none`); a new entry goes last. -/
def setEntry (cs : List (String × Node)) (name : String) : Option Node → List (String × Node)
  | none => cs.filter (·.1 != name)
  | some n => if cs.any (·.1 == name) then cs.map fun (k, v) => if k == name then (k, n) else (k, v)
    else cs ++ [(name, n)]

/-- Change the entry `name` of the directory at `parent`; the change sees the present entry. -/
def update : Node → List String → String → (Option Node → Except IoError (Option Node)) →
    Except IoError Node
  | .file _, _, _, _ => .error .notDirectory
  | .dir cs, [], name, f => do
    let r ← f (cs.lookup name)
    return .dir (setEntry cs name r)
  | .dir cs, c :: rest, name, f =>
    match cs.lookup c with
    | some child => do
      let child' ← child.update rest name f
      return .dir (setEntry cs c (some child'))
    | none => .error .notFound

/-- Create the directories along a path below a directory's entries, keeping those that exist:
a file on the way is `notDirectory`, a file at the end `alreadyExists`. -/
def makeDirs (cs : List (String × Node)) : List String → Except IoError (List (String × Node))
  | [] => .ok cs
  | c :: rest =>
    match cs.lookup c with
    | some (.file _) => .error (if rest.isEmpty then .alreadyExists else .notDirectory)
    | some (.dir sub) => return setEntry cs c (some (.dir (← makeDirs sub rest)))
    | none => return setEntry cs c (some (.dir (← makeDirs [] rest)))

/-- Whether a node is a directory. -/
def isDir : Node → Bool
  | .dir _ => true
  | .file _ => false

end Node

/-- A file tree with a working directory. -/
structure FileSystem where
  root : Node := .dir []
  cwd : List String := []

namespace FileSystem

/-- The absolute components of a path. -/
def absolute (fs : FileSystem) (path : String) : List String := resolve fs.cwd path

/-- The node at a path. -/
def node (fs : FileSystem) (path : String) : Except IoError Node :=
  -- the empty path names nothing
  if path.isEmpty then .error .notFound else fs.root.get (fs.absolute path)

/-- Whether a path names anything. -/
def pathExists (fs : FileSystem) (path : String) : Bool := (fs.node path).toOption.isSome

/-- Whether a path names a file. -/
def isFile (fs : FileSystem) (path : String) : Bool :=
  match fs.node path with
  | .ok (.file _) => true
  | _ => false

/-- Whether a path names a directory. -/
def isDir (fs : FileSystem) (path : String) : Bool :=
  match fs.node path with
  | .ok (.dir _) => true
  | _ => false

/-- Change the entry named by a path. -/
def alter (fs : FileSystem) (path : String) (f : Option Node → Except IoError (Option Node)) :
    Except IoError FileSystem := do
  let comps := fs.absolute path
  match comps.getLast? with
  | none => throw .invalidInput
  | some name =>
    let root ← fs.root.update comps.dropLast name f
    return { fs with root }

/-- The bytes of a file. -/
def read (fs : FileSystem) (path : String) : Except IoError ByteArray := do
  match ← fs.node path with
  | .file b => return b
  | .dir _ => throw .isDirectory

/-- The text of a file, which must be UTF-8. -/
def readText (fs : FileSystem) (path : String) : Except IoError String := do
  let b ← fs.read path
  match String.fromUTF8? b with
  | some s => return s
  | none => throw .invalidUtf8

/-- Create or truncate a file with bytes. -/
def write (fs : FileSystem) (path : String) (bytes : ByteArray) : Except IoError FileSystem :=
  fs.alter path fun
    | some (.dir _) => throw .isDirectory
    | _ => pure (some (.file bytes))

/-- Create one directory; its parent must exist. -/
def createDir (fs : FileSystem) (path : String) : Except IoError FileSystem :=
  fs.alter path fun
    | some _ => throw .alreadyExists
    | none => pure (some (.dir []))

/-- Create a directory and every missing parent. -/
def createDirAll (fs : FileSystem) (path : String) : Except IoError FileSystem :=
  match fs.root with
  | .dir cs => return { fs with root := .dir (← Node.makeDirs cs (fs.absolute path)) }
  | .file _ => if (fs.absolute path).isEmpty then pure fs else throw .notDirectory

/-- Remove a file. -/
def removeFile (fs : FileSystem) (path : String) : Except IoError FileSystem :=
  fs.alter path fun
    | some (.file _) => pure none
    | some (.dir _) => throw .isDirectory
    | none => throw .notFound

/-- Remove a directory and everything in it. -/
def removeDirAll (fs : FileSystem) (path : String) : Except IoError FileSystem :=
  fs.alter path fun
    | some (.dir _) => pure none
    | some (.file _) => throw .notDirectory
    | none => throw .notFound

/-- Move a file or directory to a new path, replacing a file or an empty directory there. -/
def rename (fs : FileSystem) (src dst : String) : Except IoError FileSystem := do
  let moved ← fs.node src
  match fs.node dst, moved with
  | .ok (.dir (_ :: _)), .dir _ => throw .directoryNotEmpty
  | .ok (.dir _), .file _ => throw .isDirectory
  | .ok (.file _), .dir _ => throw .notDirectory
  | _, _ => pure ()
  let fs ← fs.alter src fun _ => pure none
  fs.alter dst fun _ => pure (some moved)

/-- The names in a directory, in creation order. -/
def listDir (fs : FileSystem) (path : String) : Except IoError (List String) := do
  match ← fs.node path with
  | .dir cs => return cs.map (·.1)
  | .file _ => throw .notDirectory

/-- Write a file, creating the directories above it first. -/
def writeCreating (fs : FileSystem) (path : String) (bytes : ByteArray) :
    Except IoError FileSystem := do
  let parent := (fs.absolute path).dropLast
  let fs ← fs.createDirAll ("/" ++ "/".intercalate parent)
  fs.write path bytes

/-- Make a directory the working directory; it must exist. -/
def changeDir (fs : FileSystem) (path : String) : Except IoError FileSystem := do
  match ← fs.node path with
  | .dir _ => return { fs with cwd := fs.absolute path }
  | .file _ => throw .notDirectory

/-- Empty directories nested along a path, the innermost being the working directory. -/
def nested (path : List String) : FileSystem :=
  ⟨path.foldr (fun name inner => .dir [(name, inner)]) (.dir []), path⟩

/-- The absolute path of a relative one, as shown from the root. -/
def display (fs : FileSystem) (path : String) : String := "/" ++ "/".intercalate (fs.absolute path)

end FileSystem

end RegionNet.Files

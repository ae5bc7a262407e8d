namespace RegionNet.Files

/-!
# I/O errors

The ways a file operation fails, each with the text the operating system or the reader gives
for it.
-/

/-- A failed file operation. -/
inductive IoError where
  /-- A path component does not exist. -/
  | notFound
  /-- A file operation met a directory. -/
  | isDirectory
  /-- A directory operation met a file. -/
  | notDirectory
  /-- The path already exists. -/
  | alreadyExists
  /-- A directory to be replaced still has entries. -/
  | directoryNotEmpty
  /-- A read ended before the bytes it needed. -/
  | unexpectedEnd
  /-- Text read from a file is not UTF-8. -/
  | invalidUtf8
  /-- The operation is not allowed on that path. -/
  | invalidInput
  deriving DecidableEq, Repr

/-- The text of an I/O error. -/
def IoError.message : IoError → String
  | .notFound => "No such file or directory (os error 2)"
  | .isDirectory => "Is a directory (os error 21)"
  | .notDirectory => "Not a directory (os error 20)"
  | .alreadyExists => "File exists (os error 17)"
  | .directoryNotEmpty => "Directory not empty (os error 39)"
  | .unexpectedEnd => "failed to fill whole buffer"
  | .invalidUtf8 => "stream did not contain valid UTF-8"
  | .invalidInput => "Invalid argument (os error 22)"

end RegionNet.Files

namespace RegionNet.Files

/-!
# Path texts

Paths are texts with `/` between components, as the caller wrote them; they are shown as given.
Joining follows the usual rule: an absolute second path replaces the first, otherwise a `/` is
put between them unless the first already ends in one.
-/

/-- Join a path onto a base path. -/
def joinPath (base rel : String) : String :=
  if rel.toList.head? = some '/' then rel
  else if base.isEmpty then rel
  else if base.toList.getLast? = some '/' then base ++ rel
  else base ++ "/" ++ rel

/-- The components of a path, without empty and `.` components. -/
def components (path : String) : List String :=
  ((path.toList.splitOn '/').map String.ofList).filter fun c => !c.isEmpty && c != "."

/-- The last component of a path, unless it is `..` or there is none. -/
def fileName (path : String) : Option String :=
  match (components path).getLast? with
  | some ".." => none
  | other => other

/-- The path with its last component replaced. -/
def withFileName (path name : String) : String :=
  let trimmed := (path.toList.reverse.dropWhile (· == '/'))
  match trimmed.dropWhile (· != '/') with
  | [] => name
  | _ :: parent => String.ofList parent.reverse ++ "/" ++ name

/-- Resolve a path against a working directory (as components) into absolute components;
`..` steps up one component. -/
def resolve (cwd : List String) (path : String) : List String :=
  let start := if path.toList.head? = some '/' then [] else cwd
  (components path).foldl (fun acc c => if c == ".." then acc.dropLast else acc ++ [c]) start

end RegionNet.Files

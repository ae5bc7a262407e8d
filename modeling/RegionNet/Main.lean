import RegionNet.Runner

/-!
# The `nupic-run` command

The command reads the files a run may look at into a file tree (the settings files it searches
for, the bundle it loads, and what lies at the path it saves to), runs the tool on that tree,
prints what the tool printed, and writes back the bundle it saved.
-/

namespace RegionNet.Command

open Files

/-- What a path holds on disk. -/
inductive OnDisk where
  | file (bytes : ByteArray)
  | dir
  | absent

/-- Look at a path on disk; reading a directory fails with code 21. -/
def look (path : String) : IO OnDisk := do
  try
    return .file (← IO.FS.readBinFile path)
  catch e =>
    match e with
    | .inappropriateType _ 21 _ => return .dir
    | _ => return .absent

/-- Copy what lies at a path on disk into the tree. -/
def place (fs : FileSystem) (path : String) : IO FileSystem := do
  match ← look path with
  | .file bytes => return (fs.writeCreating path bytes).toOption.getD fs
  | .dir => return (fs.createDirAll path).toOption.getD fs
  | .absent => return fs

/-- Copy a bundle into the tree: its structure file and the streams of the regions it names. -/
def placeBundle (fs : FileSystem) (path : String) : IO FileSystem := do
  let fs ← place fs path
  let file := joinPath path Description.fileName
  let fs ← place fs file
  match fs.readText file with
  | .error _ => return fs
  | .ok text =>
    match Description.parse text with
    | .error _ => return fs
    | .ok d =>
      d.regions.foldlM (fun fs r =>
        ["main", "aux"].foldlM (fun fs stream =>
          place fs (joinPath path s!"{d.label}.{r.name}.{stream}")) fs) fs

/-- The environment variables the tool reads. -/
def environmentNames : List String :=
  ["NUPIC_CONFIG_PATH", "NUPIC_LOG_LEVEL", "NUPIC_LOG_FORMAT", "NUPIC_MODULE_PATH",
   "NUPIC_BUNDLE_EXTENSION", "NUPIC_CHECKPOINT_LABEL", "NUPIC_MAX_PHASE_JUMP", "NUPIC_DEBUG"]

/-- Write a node of the tree to disk at a path. -/
partial def writeOut (path : String) : Node → IO Unit
  | .file bytes => IO.FS.writeBinFile path bytes
  | .dir entries => do
    IO.FS.createDirAll path
    for (name, child) in entries do
      writeOut (joinPath path name) child

/-- Run the tool on the files it may look at. -/
def runCommand (args : List String) : IO UInt32 := do
  let env ← environmentNames.filterMapM fun n => do
    return (← IO.getEnv n).map (n, ·)
  let cwd := components (← IO.currentDir).toString
  let mut fs := FileSystem.nested cwd
  let options := (Runner.parseArgs {} args).toOption.getD {}
  for dir in Config.searchDirectories cwd do
    fs ← place fs ("/" ++ "/".intercalate (dir ++ [Config.configFileName]))
  for path in options.config.toList ++ (env.lookup "NUPIC_CONFIG_PATH").toList do
    fs ← place fs path
  for path in options.bundle.toList do
    fs ← placeBundle fs path
  for path in options.save.toList do
    fs ← placeBundle fs path
  -- staging directories are named with a random number in place of the process number
  let tag ← IO.rand 1 999999
  let outcome := Runner.run { args, env, files := fs, processId := tag }
  IO.print outcome.stdout
  IO.eprint outcome.stderr
  if outcome.status == 0 then
    for path in options.save.toList do
      if let .ok node := outcome.files.node path then
        if let .dir := ← look path then IO.FS.removeDirAll path
        writeOut path node
  return outcome.status.toUInt32

end RegionNet.Command

/-- The command's entry point. -/
def main (args : List String) : IO UInt32 := RegionNet.Command.runCommand args

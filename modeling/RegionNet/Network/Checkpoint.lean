import RegionNet.Network.Layout
import RegionNet.Network.Description

namespace RegionNet

/-!
# Saving and loading networks

A network is saved to a bundle: a directory holding every region's streams, named
`<label>.<region>.<stream>`, and the structure file `network.json`, written last. The bundle's
path must carry the configured extension, and an existing path is replaced only when it already
holds a saved network. The new bundle is written into a staging directory next to the path and
moved into place only once complete; an old bundle is moved aside first and put back if the move
fails, so a failed save leaves the path as it was.

Loading fills an empty network from a bundle: regions are restored from their streams in order,
then linked as saved. A load that fails empties the network again.
-/

/-- Whether a path holds a saved network: a directory with a structure file. -/
def Files.FileSystem.holdsBundle (fs : Files.FileSystem) (path : String) : Bool :=
  fs.isDir path && fs.isFile (Files.joinPath path Description.fileName)

namespace Op

/-- Change the files; a failure is an I/O error. -/
def changeFiles (f : Files.FileSystem → Except Files.IoError Files.FileSystem) : Op Unit := do
  match f (← get).files with
  | .ok fs => modify fun s => { s with files := fs }
  | .error e => throw (.io e.message)

/-- Remove a directory tree if possible; a failure is ignored. -/
def discardTree (path : String) : Op Unit :=
  modify fun s => { s with files := (s.files.removeDirAll path).toOption.getD s.files }

/-- A fresh path next to `path`: its name with a tag, the process number and a count of the
paths named so far. -/
def siblingPath (path tag : String) : Op String := do
  let s ← get
  set { s with saves := s.saves + 1 }
  let name := (Files.fileName path).getD ""
  return Files.withFileName path s!"{name}.{tag}-{s.processId}-{s.saves}"

/-- The description of the network as saved under a label. -/
def describe (n : Network) (label : String) : Description where
  version := Description.formatVersion
  label := label
  regions := n.regions.items.map fun r =>
    { name := r.name, nodeType := r.typeName, dims := r.dims.axes, phases := r.phases }
  links := n.links.map fun l =>
    { policyType := l.policyType, params := l.params, srcRegion := l.endpoints.srcRegion,
      srcOutput := l.endpoints.srcOutput, destRegion := l.endpoints.destRegion,
      destInput := l.endpoints.destInput }

/-- Write every region's streams into a directory, then the structure file. -/
def writeBundle (dir label : String) : Op Unit := do
  let n ← network
  for r in n.regions.items do
    let streams : Bundle.Streams := { bundlePath := dir, label, region := r.name, mode := .write }
    for (stream, bytes) in ← lift r.impl.streams do
      let fs ← lift (streams.writeAll (← get).files stream bytes)
      modify fun s => { s with files := fs }
  let text := (describe n label).text
  changeFiles fun fs => fs.write (Files.joinPath dir Description.fileName) text.toUTF8

/-- Move a complete bundle from `staging` to `path`, keeping an old bundle at `path` aside
until the new one is in place. -/
def replaceBundle (staging path : String) : Op Unit := do
  if !(← get).files.pathExists path then
    tryCatch (changeFiles fun fs => fs.rename staging path) fun e => do
      discardTree staging
      throw e
  else
    let previous ← siblingPath path "old"
    tryCatch (changeFiles fun fs => fs.rename path previous) fun e => do
      discardTree staging
      throw e
    tryCatch (changeFiles fun fs => fs.rename staging path) fun e => do
      changeFiles fun fs => fs.rename previous path
      discardTree staging
      throw e
    discardTree previous

/-- Save the network to a bundle under a label. -/
def saveWithLabel (path label : String) : Op Unit := do
  let ext := (← get).host.config.network.bundleExtension
  if !path.endsWith ext then
    throw (.invalidParameter s!"bundle path {path} must end with '{ext}'")
  if label.isEmpty || label.contains '/' || label.contains '\\' then
    throw (.invalidParameter s!"bad checkpoint label '{label}'")
  let fs := (← get).files
  if fs.pathExists path && !fs.holdsBundle path then
    throw (.badCheckpoint s!"refusing to overwrite {path}: not a saved network")
  let staging ← siblingPath path "tmp"
  if (← get).files.pathExists staging then changeFiles fun fs => fs.removeDirAll staging
  changeFiles fun fs => fs.createDirAll staging
  tryCatch (writeBundle staging label) fun e => do
    discardTree staging
    throw e
  replaceBundle staging path
  match (← network).state with
  | .initialized | .ready => setState .serialized
  | _ => pure ()

/-- Save the network to a bundle under the configured label. -/
def save (path : String) : Op Unit := do
  saveWithLabel path (← get).host.config.network.checkpointLabel

/-- Read and check the structure file of a bundle. -/
def readDescription (path : String) : Op Description := do
  let fs := (← get).files
  let file := Files.joinPath path Description.fileName
  if !fs.isFile file then throw (.badCheckpoint s!"{path} has no {Description.fileName}")
  let text ← match fs.readText file with
    | .ok t => pure t
    | .error e => throw (.io e.message)
  let d ← match Description.parse text with
    | .ok d => pure d
    | .error e => throw (.serialization e.message)
  if d.version ≠ Description.formatVersion then
    throw (.badCheckpoint
      s!"{file} is version {d.version}, expected {Description.formatVersion}")
  return d

/-- Restore a saved region from the bundle's streams and add it. -/
def restoreRegion (path label : String) (saved : RegionRecord) : Op Unit := do
  validateRegionName saved.name
  if (← network).regions.contains saved.name then
    throw (.badCheckpoint s!"region '{saved.name}' appears more than once")
  let streams : Bundle.Streams := { bundlePath := path, label, region := saved.name, mode := .read }
  let restored := (← get).host.factory.restore saved.nodeType saved.name
    (streams.openRead (← get).files)
  let made ← stepFactory restored
  let r := Region.new saved.name saved.nodeType made.spec made.impl made.module
  let dims : Dimensions := ⟨saved.dims⟩
  let r ← if dims.isSpecified then lift (r.setDimensions dims .explicit) else pure r
  addRegionValue { r with phases := if saved.phases.isEmpty then [0] else saved.phases }

/-- Rebuild the regions and links a bundle describes. -/
def loadDescription (path : String) : Op Unit := do
  let d ← readDescription path
  for saved in d.regions do
    restoreRegion path d.label saved
  for l in d.links do
    discard (connect l.srcRegion l.srcOutput l.destRegion l.destInput l.policyType l.params)
  resetTopology

/-- Fill an empty network from a bundle; a failed load leaves it empty. -/
def load (path : String) : Op Unit := do
  let n ← network
  if !n.regions.isEmpty || !n.links.isEmpty then
    throw (.invalidState s!"{networkName n.id} must be empty to load {path}")
  tryCatch (loadDescription path) fun e => do
    modifyNetwork fun n => { n with links := [], regions := .empty }
    resetTopology
    throw e

end Op

end RegionNet

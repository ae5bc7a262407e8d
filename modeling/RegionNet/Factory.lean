import RegionNet.Region.Basic
import RegionNet.Config.Settings
import RegionNet.Files.Path

namespace RegionNet

/-!
# Region types

A factory knows region types by name. A built-in type has a plain name; any other name is a
module's name, the separator, and a type the module declares. A module is found by a loader: a
module name resolves to a path under the first search path, and loading the module runs its
declarations, which must not repeat a name. Declarations of types and loaded modules are kept;
declarations are kept per type name.

Regions hold on to the declaration of their type and to the module it came from; the caches can
be emptied only when no region holds any of them.
-/

/-- What a module declares: region types by short name, in order. -/
abbrev ModuleTypes := List (String × RegionKind)

/-- Finds modules by name and loads them. -/
structure ModuleLoader where
  searchPaths : List String := []
  /-- The modules that can be loaded, by name. -/
  modules : List (String × ModuleTypes) := []

namespace ModuleLoader

/-- The path of a module: its name under the first search path (or the working directory). -/
def resolve (l : ModuleLoader) (module : String) : Option String :=
  if (l.modules.lookup module).isSome then some (Files.joinPath (l.searchPaths.headD ".") module)
  else none

/-- The declarations of the module at a path, found by the path's last component. -/
def load (l : ModuleLoader) (path : String) : Except EngineError ModuleTypes :=
  match (Files.fileName path).bind fun n => l.modules.lookup n with
  | some m => .ok m
  | none => .error (.unknownRegionType s!"no module at {path}")

end ModuleLoader

/-- Run a module's declarations; a name declared twice is refused. -/
def registerAll (types : ModuleTypes) : Except EngineError ModuleTypes :=
  types.foldlM (fun (done : ModuleTypes) (n, k) =>
    if (done.lookup n).isSome then .error (.duplicateName s!"region type '{n}'")
    else .ok (done ++ [(n, k)])) []

/-- The region factory. -/
structure Factory where
  builtins : List (String × RegionKind)
  /-- Types of loaded modules by full name, with the path of their module. -/
  moduleTypes : List (String × RegionKind × String) := []
  specCache : List (String × RegionSpec) := []
  /-- The paths of loaded modules. -/
  moduleCache : List String := []
  loader : ModuleLoader := {}
  separator : Char := '.'

/-- A region made by a factory: its implementation, its type's declaration and its module. -/
structure Made where
  impl : Implementation
  spec : RegionSpec
  module : Option String

namespace Factory

/-- A factory knowing the reference type, with the module settings. -/
def new (settings : Config.ModuleSettings) : Factory :=
  { builtins := [(Reference.typeName, .reference)], loader := { searchPaths := settings.searchPaths },
    separator := settings.separator }

/-- Add a built-in type; its name must be new and must not hold the separator. -/
def registerBuiltin (f : Factory) (name : String) (kind : RegionKind) : Except EngineError Factory :=
  if name.contains f.separator then
    .error (.invalidName
      s!"built-in type '{name}' contains the module separator '{f.separator}'")
  else if (f.builtins.lookup name).isSome then .error (.duplicateName s!"region type '{name}'")
  else .ok { f with builtins := f.builtins ++ [(name, kind)] }

/-- The module part of a type name: what stands before the first separator. -/
def modulePart (f : Factory) (typeName : String) : Option String :=
  let cs := typeName.toList
  if cs.contains f.separator then some (String.ofList (cs.takeWhile (· ≠ f.separator))) else none

/-- Load a module: run its declarations and record its types under their full names. -/
def loadModule (f : Factory) (module path : String) : Except EngineError Factory := do
  let types ← registerAll (← f.loader.load path)
  let full := types.map fun (n, k) => (module ++ f.separator.toString ++ n, k, path)
  let kept := f.moduleTypes.filter fun (n, _) => (full.lookup n).isNone
  return { f with moduleTypes := kept ++ full, moduleCache := f.moduleCache ++ [path] }

/-- The kind a type name stands for and its module, loading the module when needed. A loaded
module stays loaded even when the name then turns out unknown. -/
def resolve (f : Factory) (typeName : String) :
    Factory × Except EngineError (RegionKind × Option String) :=
  match f.builtins.lookup typeName with
  | some k => (f, .ok (k, none))
  | none =>
    let unknown : EngineError := .unknownRegionType typeName
    match f.modulePart typeName with
    | none => (f, .error unknown)
    | some module =>
      let loaded : Except EngineError Factory :=
        if (f.moduleTypes.lookup typeName).isSome then .ok f
        else match f.loader.resolve module with
          | none => .error unknown
          | some path => if f.moduleCache.contains path then .ok f else f.loadModule module path
      match loaded with
      | .error e => (f, .error e)
      | .ok f =>
        match f.moduleTypes.lookup typeName with
        | some (k, path) => if f.moduleCache.contains path then (f, .ok (k, some path))
          else (f, .error unknown)
        | none => (f, .error unknown)

/-- The declaration of a type, kept after its first use. -/
def getSpec (f : Factory) (typeName : String) : Factory × Except EngineError RegionSpec :=
  match f.specCache.lookup typeName with
  | some s => (f, .ok s)
  | none =>
    match f.resolve typeName with
    | (f, .error e) => (f, .error e)
    | (f, .ok (k, _)) => ({ f with specCache := f.specCache ++ [(typeName, k.spec)] }, .ok k.spec)

/-- Resolve a type and its declaration, then build an implementation; a failure of the build
is wrapped with the type name. -/
def build (f : Factory) (typeName : String)
    (make : RegionKind → RegionSpec → Except EngineError Implementation) :
    Factory × Except EngineError Made :=
  match f.resolve typeName with
  | (f, .error e) => (f, .error e)
  | (f, .ok (k, module)) =>
    match f.getSpec typeName with
    | (f, .error e) => (f, .error e)
    | (f, .ok spec) =>
      match make k spec with
      | .ok impl => (f, .ok ⟨impl, spec, module⟩)
      | .error e => (f, .error e)

/-- Make a fresh region of a type from a parameter text. -/
def create (f : Factory) (typeName params : String) : Factory × Except EngineError Made :=
  f.build typeName fun k spec => do
    let values ← ParameterMap.ofText params spec typeName
    match k.create values typeName with
    | .ok impl => pure impl
    | .error e => throw (.constructionFailed typeName e)

/-- Restore a region of a type from the streams `openStream` opens. -/
def restore (f : Factory) (typeName regionName : String)
    (openStream : String → Except EngineError Bundle.Contents) : Factory × Except EngineError Made :=
  f.build typeName fun k _ =>
    match k.restore openStream regionName typeName with
    | .ok impl => .ok impl
    | .error e => .error (.constructionFailed typeName e)

/-- Empty the caches, unless a region still holds a cached declaration (its type is among
`heldTypes`) or a loaded module (among `heldModules`). -/
def cleanup (f : Factory) (heldTypes heldModules : List String) : Except EngineError Factory :=
  let specs := (f.specCache.filter fun (n, _) => heldTypes.contains n).length
  let modules := (f.moduleCache.filter heldModules.contains).length
  if specs > 0 || modules > 0 then .error (.outstandingReferences specs modules)
  else .ok { f with moduleTypes := [], specCache := [], moduleCache := [] }

end Factory

end RegionNet

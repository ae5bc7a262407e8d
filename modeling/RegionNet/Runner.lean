import RegionNet.Network.Workspace
import RegionNet.Config.Load
import RegionNet.Logging.DebugFlags
import RegionNet.Decimal.Text

namespace RegionNet.Runner

/-!
# The network runner

`nupic-run <network.nta> [--iterations N] [--config <path>] [--save <out.nta>]` loads a saved
network, runs it for a number of iterations (one by default), prints every region's outputs and
optionally saves the advanced network. Settings come from `--config`, or else from the settings
file found by searching (built-in defaults when there is none or it cannot be read).

The runner is a function from what it is given (arguments, environment, files) to what it
leaves (exit status, the two output texts, files). A usage error exits with status 2 and the
usage text on the error stream; any other failure exits with status 1 and the failure with the
chain of its causes.
-/

open Files

/-- What a run of the tool is given. -/
structure Invocation where
  args : List String
  env : Config.Environment
  files : FileSystem
  /-- The number of the process, part of the names of staging directories. -/
  processId : Nat := 0

/-- What a run of the tool leaves. -/
structure Outcome where
  status : Nat
  stdout : String
  stderr : String
  files : FileSystem

/-- The options of a run. -/
structure Options where
  bundle : Option String := none
  iterations : Nat := 1
  config : Option String := none
  save : Option String := none
  deriving DecidableEq, Repr

/-- The usage text, followed by the help on debug flags. -/
def usageText : String :=
  "Usage: nupic-run <network.nta> [--iterations N] [--config <path>] [--save <out.nta>]\n\n" ++
  "Defaults:\n- iterations: 1\n- config: nupic_engine.toml if found, built-in defaults otherwise\n\n" ++
  Logging.debugFlagsHelp

/-- An unsigned 64-bit count: an optional `+`, then decimal digits. -/
def parseCount (s : String) : Option Nat :=
  let digits := if s.startsWith "+" then s.drop 1 else s.toSlice
  if digits.isEmpty || !digits.all Char.isDigit then none
  else
    let n := digits.foldl (fun acc c => acc * 10 + (c.toNat - '0'.toNat)) 0
    if n < wordSize then some n else none

/-- Read the arguments into options; a usage error carries the line printed before the usage
text, if any. -/
def parseArgs (o : Options) : List String → Except (Option String) Options
  | [] => .ok o
  | ["--iterations"] | ["--config"] | ["--save"] => .error none
  | "--iterations" :: v :: rest =>
    match parseCount v with
    | some n => parseArgs { o with iterations := n } rest
    | none => .error (some s!"Bad iteration count: {v}")
  | "--config" :: v :: rest => parseArgs { o with config := some v } rest
  | "--save" :: v :: rest => parseArgs { o with save := some v } rest
  | "-h" :: _ | "--help" :: _ => .error none
  | arg :: rest =>
    if arg.startsWith "--debug-" then parseArgs o rest
    else if arg.startsWith "--" then .error (some s!"Unknown argument: {arg}")
    else if o.bundle.isSome then .error (some "Only one bundle may be given")
    else parseArgs { o with bundle := some arg } rest

/-- A failure as the tool reports it: its text and its causes' texts, outermost first. -/
structure Failure where
  text : String
  causes : List String := []

/-- The texts of the errors below an engine error. -/
def engineCauses : EngineError → List String
  | .constructionFailed _ c => c.message :: engineCauses c
  | .runFailed _ _ c => c.message :: engineCauses c
  | .io d => [d]
  | _ => []

/-- An engine error as a failure. -/
def ofEngine (e : EngineError) : Failure := ⟨e.message, engineCauses e⟩

/-- A settings error as a failure. -/
def ofConfig (e : Config.ConfigError) : Failure :=
  match e with
  | .io io => ⟨e.message, [io.message]⟩
  | _ => ⟨e.message, []⟩

/-- A failure described by a context text. -/
def Failure.within (f : Failure) (context : String) : Failure := ⟨context, f.text :: f.causes⟩

/-- A text with a first-line prefix and every further line indented. -/
def indented (first rest text : String) : String :=
  match text.splitOn "\n" with
  | [] => first
  | line :: more => first ++ line ++ String.join (more.map fun l => "\n" ++ rest ++ l)

/-- A cause number right-aligned in five columns, then a colon. -/
def causeNumber (n : Nat) : String :=
  let digits := toString n
  String.ofList (List.replicate (5 - digits.length) ' ') ++ digits ++ ": "

/-- The report of a failure: the text, then the causes, one indented cause alone or numbered
causes. -/
def Failure.report (f : Failure) : String :=
  let causes := match f.causes with
    | [] => ""
    | [c] => "\n\nCaused by:\n" ++ indented "    " "    " c
    | cs => "\n\nCaused by:" ++
        String.join ((List.range cs.length).zip cs |>.map fun (n, c) =>
          "\n" ++ indented (causeNumber n) "       " c)
  "Error: " ++ f.text ++ causes ++ "\n"

/-- The elements of an output as the tool prints them. -/
def renderData (b : Buffer) : Except EngineError String := do
  let list (xs : List String) := "[" ++ ", ".intercalate xs ++ "]"
  match b.elementType with
  | .real64 =>
    let xs ← liftData (b.read .real64)
    return list (xs.map fun | .double x => Decimal.write64 .debug x | _ => "")
  | .real32 =>
    let xs ← liftData (b.read .real32)
    return list (xs.map fun | .single x => Decimal.write32 .debug x | _ => "")
  | .int32 | .uint32 =>
    let xs ← liftData (b.read b.elementType)
    return list (xs.map fun | .integer n => toString n | _ => "")
  | t => return s!"<{b.count} elements of {t.name}>"

/-- The lines printed for every region's outputs, up to the first that cannot be printed. -/
def outputLines (n : Network) : String × Option EngineError :=
  let outputs := n.regions.items.flatMap fun r => r.outputs.items.map fun o => (r.name, o)
  outputs.foldl (fun (text, failed) (r, o) =>
    match failed with
    | some _ => (text, failed)
    | none =>
      match renderData o.data with
      | .ok s => (text ++ s!"   {r}.{o.name} {s}\n", none)
      | .error e => (text, some e)) ("", none)

/-- Stop with status 1, reporting a failure after what was printed. -/
def fail (stdout : String) (files : FileSystem) (f : Failure) : Outcome :=
  { status := 1, stdout, stderr := f.report, files }

/-- Stop with a usage error. -/
def usage (note : Option String) (files : FileSystem) : Outcome :=
  { status := 2, stdout := "", stderr := (note.map (· ++ "\n")).getD "" ++ usageText ++ "\n", files }

/-- The settings of a run. -/
def settings (inv : Invocation) (o : Options) : Except Failure Config.EngineConfig :=
  match o.config with
  | some path =>
    match Config.loadFile inv.files inv.env path [] with
    | .ok c => .ok c
    | .error e => .error ((ofConfig e).within s!"Failed to load config {path}")
  | none => .ok ((Config.loadFound inv.files inv.env []).toOption.getD {})

/-- Run the loaded network, print its outputs, save it if asked, and stop the host. -/
def advance (o : Options) (w : Workspace) (n : Network) : Outcome :=
  match w.runOn n (Op.run o.iterations) with
  | (.error e, w) => fail "" w.files (ofEngine e)
  | (.ok (), w) =>
    let n := w.network.getD n
    let (lines, failed) := outputLines n
    let stdout := s!"After {n.iteration} iteration(s):\n" ++ lines
    match failed with
    | some e => fail stdout w.files (ofEngine e)
    | none =>
      let saved : Except EngineError String × Workspace := match o.save with
        | none => (.ok "", w)
        | some path =>
          match w.runOn n (Op.save path) with
          | (.ok (), w) => (.ok s!"Saved to {path}\n", w)
          | (.error e, w) => (.error e, w)
      match saved with
      | (.error e, w) => fail stdout w.files (ofEngine e)
      | (.ok note, w) =>
        let stdout := stdout ++ note
        match w.dropNetwork.stopHost with
        | .error e => fail stdout w.files (ofEngine e)
        | .ok w => { status := 0, stdout, stderr := "", files := w.files }

/-- Load the bundle with the settings and carry on. -/
def launch (inv : Invocation) (o : Options) (bundle : String) (config : Config.EngineConfig) :
    Outcome :=
  let w : Workspace := { host := (Host.new config).start, files := inv.files,
                         processId := inv.processId }
  match w.newNetwork with
  | (.error e, w) => fail "" w.files (ofEngine e)
  | (.ok n, w) =>
    match w.runOn n (Op.load bundle) with
    | (.error e, w) => fail "" w.files ((ofEngine e).within s!"Failed to load {bundle}")
    | (.ok (), w) => advance o w (w.network.getD n)

/-- One run of the tool. -/
def run (inv : Invocation) : Outcome :=
  match parseArgs {} inv.args with
  | .error note => usage note inv.files
  | .ok o =>
    match o.bundle with
    | none => usage none inv.files
    | some bundle =>
      match settings inv o with
      | .error f => fail "" inv.files f
      | .ok config => launch inv o bundle config

/-- Without arguments the tool only prints its usage. -/
theorem run_without_arguments (env : Config.Environment) (fs : FileSystem) (pid : Nat) :
    (run ⟨[], env, fs, pid⟩).status = 2 := by
  simp [run, parseArgs, usage]

end RegionNet.Runner

import RegionNet.Network.Workspace

namespace RegionNet.Snapshot

/-!
# Snapshots

JSON pictures of engine values, for inspecting a network from outside: errors, buffers,
parameter values, declarations, link policies, regions, links and the network's state.
Floating-point values are shown as the hexadecimal digits of their bits, so that a snapshot
is exact.
-/

/-- An error of the data layer: its kind under `Types`, and its text; a panic as a panic. -/
def dataError : DataError → Json
  | .panicked message => Json.obj [("error", .string "Panic"), ("message", .string message)]
  | e => Json.obj [("error", .string ("Types." ++ e.kind)), ("message", .string e.message)]

/-- An engine error: kind, text and category, and for a wrapping error the error it wraps. -/
def engineError : EngineError → Json
  | .data (.panicked message) => dataError (.panicked message)
  | e@(.constructionFailed _ c) | e@(.runFailed _ _ c) =>
    Json.obj [("error", .string e.kind), ("message", .string e.message),
      ("category", .string e.category.name), ("source", engineError c)]
  | e => Json.obj [("error", .string e.kind), ("message", .string e.message),
      ("category", .string e.category.name)]

/-- A success as `ok`, a failure as its error. -/
def result {α : Type} (f : α → Json) : Except EngineError α → Json
  | .ok a => Json.obj [("ok", f a)]
  | .error e => engineError e

/-- One element: an integer, or the bits of a floating-point value. -/
def element : Element → Json
  | .integer n => Json.int n
  | .single x => .string x.bitsHex
  | .double x => .string x.bitsHex

/-- A buffer: type, count, ownership and elements (`null` when they cannot be viewed). -/
def buffer (b : Buffer) : Json :=
  Json.obj [("type", .string b.elementType.name), ("count", Json.nat b.count),
    ("ownership", .string b.ownership.name),
    ("values", match b.read b.elementType with
      | .ok xs => .array (xs.map element)
      | .error _ => .null)]

/-- A parameter value with its type. -/
def parameterValue : ParameterValue → Json
  | .integer t n => Json.obj [("type", .string t.name), ("value", Json.int n)]
  | .real32 x => Json.obj [("type", .string "Real32"), ("bits", .string x.bitsHex)]
  | .real64 x => Json.obj [("type", .string "Real64"), ("bits", .string x.bitsHex)]
  | .text s => Json.obj [("type", .string "String"), ("value", .string s)]
  | .array b => Json.obj [("type", .string "Array"), ("elem", .string b.elementType.name),
      ("values", match b.read b.elementType with
        | .ok xs => .array (xs.map element)
        | .error _ => .null)]

/-- A declared parameter. -/
def parameterSpec (name : String) (p : ParameterSpec) : Json :=
  Json.obj [("name", .string name), ("type", .string p.dataType.name), ("count", Json.nat p.count),
    ("default", .string p.defaultValue), ("access", .string p.access.name),
    ("is_string", .bool p.isString), ("is_array", .bool p.isArray)]

/-- A region type's declaration. -/
def spec (s : RegionSpec) : Json :=
  Json.obj [("description", .string s.description), ("single_node_only", .bool s.singleNodeOnly),
    ("parameters", .array (s.parameters.entries.map fun (n, p) => parameterSpec n p)),
    ("inputs", .array (s.inputs.entries.map fun (n, i) => Json.obj [("name", .string n),
      ("type", .string i.dataType.name), ("count", Json.nat i.count), ("required", .bool i.required),
      ("region_level", .bool i.regionLevel), ("is_default", .bool i.isDefault)])),
    ("outputs", .array (s.outputs.entries.map fun (n, o) => Json.obj [("name", .string n),
      ("type", .string o.dataType.name), ("count", Json.nat o.count),
      ("region_level", .bool o.regionLevel), ("is_default", .bool o.isDefault)])),
    ("commands", Json.strings s.commands.names),
    ("default_input", result .string s.defaultInput),
    ("default_output", result .string s.defaultOutput)]

open Link in
/-- A link policy's state. -/
def policy (p : LinkPolicy) : Json :=
  Json.obj [("type", .string p.typeName), ("src", Json.nats p.src.axes),
    ("dest", Json.nats p.dest.axes), ("initialized", .bool p.ready)]

/-- Link numbers as names. -/
def linkNames (ids : List Nat) : Json := Json.strings (ids.map linkName)

/-- Where a region's dimensions came from. -/
def source : DimensionSource → Json
  | .unset => .string "Unset"
  | .explicit => .string "Explicit"
  | .induced link => Json.obj [("Induced", .string link)]

/-- A region with its ports. -/
def region (r : Region) : Json :=
  Json.obj [("name", .string r.name), ("type", .string r.typeName), ("dims", Json.nats r.dims.axes),
    ("dimension_info", .string r.dimensionInfo), ("source", source r.source),
    ("node_count", Json.nat r.nodeCount), ("phases", Json.nats r.phases),
    ("initialized", .bool r.initialized), ("has_outgoing_links", .bool r.hasOutgoingLinks),
    ("outgoing_link_count", Json.nat r.outgoingLinkCount),
    ("input_names", Json.strings r.inputs.names),
    ("inputs", .array (r.inputs.items.map fun i => Json.obj [("name", .string i.name),
      ("type", .string i.data.elementType.name), ("region_level", .bool i.regionLevel),
      ("required", .bool i.required), ("initialized", .bool i.initialized),
      ("links", linkNames i.links), ("splitter_map", .array (i.splitterMap.map Json.nats)),
      ("data", buffer i.data)])),
    ("outputs", .array (r.outputs.items.map fun o => Json.obj [("name", .string o.name),
      ("type", .string o.data.elementType.name), ("region_level", .bool o.regionLevel),
      ("links", linkNames o.links), ("per_node", result Json.nat (r.elementCount o.name)),
      ("data", buffer o.data)])),
    ("compute_calls", Json.nat r.computeCalls), ("execute_calls", Json.nat r.executeCalls)]

/-- A link of a network. -/
def link (n : Network) (l : Link) : Json :=
  Json.obj [("id", .string (linkName l.id)), ("display", .string l.display),
    ("policy_type", .string l.policyType), ("params", .string l.params),
    ("src_region", .string l.endpoints.srcRegion), ("src_output", .string l.endpoints.srcOutput),
    ("dest_region", .string l.endpoints.destRegion), ("dest_input", .string l.endpoints.destInput),
    ("initialized", .bool l.isInitialized), ("offset", Json.nat l.offset),
    ("policy", policy l.policy), ("splitter_map", .array (l.routes.map Json.nats)),
    ("found", .bool (n.link l.id).toOption.isSome)]

/-- A network's state in brief. -/
def network (n : Network) : Json :=
  Json.obj [("state", .string n.state.name), ("iteration", Json.nat n.iteration),
    ("regions", Json.strings n.regions.names), ("link_count", Json.nat n.links.length),
    ("order", Json.strings n.order)]

/-- A workspace's state in brief: its network, whether the host runs, and how many networks
live. -/
def workspace (w : Workspace) : List (String × Json) :=
  [("net", Json.optional network w.network), ("runtime_initialized", .bool w.host.running),
   ("live_networks", Json.nat w.host.live.length)]

end RegionNet.Snapshot

import RegionNet.Network.Basic
import RegionNet.Json.Schema

namespace RegionNet

/-!
# The structure file of a saved network

A saved network's bundle holds `network.json`: the format version (2), the label its region
streams are saved under, each region (name, type, dimensions, phases) in order, and each link
(policy type and parameters, endpoints) in order. It is written as indented JSON and read back
by a schema: fields may come in any order, unknown fields are skipped, a link's parameters may
be left out, and every other field is required.
-/

/-- A saved region. -/
structure RegionRecord where
  name : String
  nodeType : String
  dims : List Nat
  phases : List Nat
  deriving DecidableEq, Repr

/-- A saved link. -/
structure LinkRecord where
  policyType : String
  params : String
  srcRegion : String
  srcOutput : String
  destRegion : String
  destInput : String
  deriving DecidableEq, Repr

/-- The contents of a structure file. -/
structure Description where
  version : Nat
  label : String
  regions : List RegionRecord
  links : List LinkRecord
  deriving DecidableEq, Repr

namespace Description

/-- The version written and the only one read. -/
def formatVersion : Nat := 2

/-- The name of the structure file inside a bundle. -/
def fileName : String := "network.json"

/-- The JSON value of a saved region, members in declaration order. -/
def regionJson (r : RegionRecord) : Json :=
  .object [("name", .string r.name), ("node_type", .string r.nodeType),
    ("dimensions", Json.nats r.dims), ("phases", Json.nats r.phases)]

/-- The JSON value of a saved link, members in declaration order. -/
def linkJson (l : LinkRecord) : Json :=
  .object [("policy_type", .string l.policyType), ("params", .string l.params),
    ("src_region", .string l.srcRegion), ("src_output", .string l.srcOutput),
    ("dest_region", .string l.destRegion), ("dest_input", .string l.destInput)]

/-- The JSON value of a description, members in declaration order. -/
def toJson (d : Description) : Json :=
  .object [("version", Json.nat d.version), ("label", .string d.label),
    ("regions", .array (d.regions.map regionJson)), ("links", .array (d.links.map linkJson))]

/-- The text of the structure file. -/
def text (d : Description) : String := d.toJson.renderPretty

open JsonText in
/-- The schema of a saved region. -/
def regionShape : Shape :=
  .record "RegionDescription" [⟨"name", [], .text, none⟩, ⟨"node_type", [], .text, none⟩,
    ⟨"dimensions", [], .sequence Shape.count, none⟩,
    ⟨"phases", [], .sequence (.unsigned 32 "u32"), none⟩] false

open JsonText in
/-- The schema of a saved link. -/
def linkShape : Shape :=
  .record "LinkDescription" [⟨"policy_type", [], .text, none⟩,
    ⟨"params", [], .text, some (.string "")⟩, ⟨"src_region", [], .text, none⟩,
    ⟨"src_output", [], .text, none⟩, ⟨"dest_region", [], .text, none⟩,
    ⟨"dest_input", [], .text, none⟩] false

open JsonText in
/-- The schema of the structure file. -/
def shape : Shape :=
  .record "NetworkDescription" [⟨"version", [], .unsigned 32 "u32", none⟩,
    ⟨"label", [], .text, none⟩, ⟨"regions", [], .sequence regionShape, none⟩,
    ⟨"links", [], .sequence linkShape, none⟩] false

/-- A text member of a value read by a schema. -/
def textOf (j : Json) (key : String) : String := ((j.field? key).bind Json.str?).getD ""

/-- A list of unsigned integers of `bits` bits of a value read by a schema. -/
def natsOf (bits : Nat) (j : Json) (key : String) : List Nat :=
  (((j.field? key).bind Json.arr?).getD []).filterMap (Json.unsigned? bits)

/-- The description held by a value read by `shape`: its numbers at the widths the schema reads
them, 32 bits for the version and the phases, 64 for the dimensions. -/
def ofJson (j : Json) : Description where
  version := ((j.field? "version").bind (Json.unsigned? 32)).getD 0
  label := textOf j "label"
  regions := (((j.field? "regions").bind Json.arr?).getD []).map fun r =>
    { name := textOf r "name", nodeType := textOf r "node_type",
      dims := natsOf 64 r "dimensions", phases := phaseSet (natsOf 32 r "phases") }
  links := (((j.field? "links").bind Json.arr?).getD []).map fun l =>
    { policyType := textOf l "policy_type", params := textOf l "params",
      srcRegion := textOf l "src_region", srcOutput := textOf l "src_output",
      destRegion := textOf l "dest_region", destInput := textOf l "dest_input" }

/-- Read the text of a structure file. -/
def parse (text : String) : Except JsonText.Error Description := ofJson <$> shape.read text

end Description

end RegionNet

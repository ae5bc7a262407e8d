import RegionNet.Proofs.ReadingShapes
import RegionNet.Network.Description

namespace RegionNet

/-!
# The structure file reads back

A saved network's structure file is a description written as indented JSON
(`Description.text`) and read by the description's schema (`Description.parse`). This module
shows that what is written is read back as the same description (`parse_text`), as long as the
numbers fit the widths the schema reads (32 bits for the version and the phases, 64 for the
dimensions) and every region's phases are a phase set, which is what the reader makes of them.
-/

namespace Description

open JsonText

/-- A description whose text reads back: its numbers fit the widths its schema reads, and each
region's phases are already a phase set. -/
structure Readable (d : Description) : Prop where
  version : d.version < pow2 32
  dims : ∀ r ∈ d.regions, ∀ n ∈ r.dims, n < pow2 64
  phases : ∀ r ∈ d.regions, ∀ p ∈ r.phases, p < pow2 32
  phaseSets : ∀ r ∈ d.regions, phaseSet r.phases = r.phases

section Shapes

variable {level : Nat}

/-- A list of naturals of a width is read back as a sequence of that width. -/
theorem readsBack_nats {bits : Nat} {label : String} {xs : List Nat}
    (fits : ∀ n ∈ xs, n < pow2 bits) (word : bits ≤ 64) :
    ReadsBack (.sequence (.unsigned bits label)) level (Json.nats xs) 1 := by
  refine readsBack_sequence fun x member => ?_
  obtain ⟨n, inList, rfl⟩ := List.mem_map.mp member
  exact readsBack_unsigned (fits n inList) word

theorem readsBack_region {r : RegionRecord} (dims : ∀ n ∈ r.dims, n < pow2 64)
    (phases : ∀ p ∈ r.phases, p < pow2 32) : ReadsBack regionShape level (regionJson r) 2 := by
  refine readsBack_record (by decide) ?_
  refine .cons ⟨rfl, rfl, readsBack_text.mono (by decide)⟩ <|
    .cons ⟨rfl, rfl, readsBack_text.mono (by decide)⟩ <|
    .cons ⟨rfl, rfl, readsBack_nats dims (by decide)⟩ <|
    .cons ⟨rfl, rfl, readsBack_nats phases (by decide)⟩ .nil

theorem readsBack_link {l : LinkRecord} : ReadsBack linkShape level (linkJson l) 1 := by
  refine readsBack_record (by decide) ?_
  refine .cons ⟨rfl, rfl, readsBack_text⟩ <| .cons ⟨rfl, rfl, readsBack_text⟩ <|
    .cons ⟨rfl, rfl, readsBack_text⟩ <| .cons ⟨rfl, rfl, readsBack_text⟩ <|
    .cons ⟨rfl, rfl, readsBack_text⟩ <| .cons ⟨rfl, rfl, readsBack_text⟩ .nil

theorem readsBack_description {d : Description} (readable : d.Readable) :
    ReadsBack shape level d.toJson 4 := by
  have regions : ReadsBack (.sequence regionShape) (level + 1)
      (.array (d.regions.map regionJson)) 3 := by
    refine readsBack_sequence fun x member => ?_
    obtain ⟨r, inList, rfl⟩ := List.mem_map.mp member
    exact readsBack_region (readable.dims r inList) (readable.phases r inList)
  have links : ReadsBack (.sequence linkShape) (level + 1)
      (.array (d.links.map linkJson)) 2 := by
    refine readsBack_sequence fun x member => ?_
    obtain ⟨l, _, rfl⟩ := List.mem_map.mp member
    exact readsBack_link
  refine readsBack_record (by decide) ?_
  refine .cons ⟨rfl, rfl, (readsBack_unsigned readable.version (by decide)).mono (by decide)⟩ <|
    .cons ⟨rfl, rfl, readsBack_text.mono (by decide)⟩ <| .cons ⟨rfl, rfl, regions⟩ <|
    .cons ⟨rfl, rfl, links.mono (by decide)⟩ .nil

end Shapes

section Values

/-- A list of integers of a width written as numbers is read back at that width. -/
theorem filterMap_unsigned?_nats {bits : Nat} {xs : List Nat} (fits : ∀ n ∈ xs, n < pow2 bits) :
    (xs.map Json.nat).filterMap (Json.unsigned? bits) = xs := by
  rw [List.filterMap_map]
  calc xs.filterMap (Json.unsigned? bits ∘ Json.nat)
      _ = xs.filterMap some :=
        List.filterMap_congr fun n member => Json.unsigned?_nat (fits n member)
      _ = xs := List.filterMap_some

/-- A member is found under the first key that matches. -/
theorem field?_object_cons (k key : String) (v : Json) (ms : List (String × Json)) :
    (Json.object ((k, v) :: ms)).field? key =
      if k = key then some v else (Json.object ms).field? key := by
  by_cases same : k = key <;> simp [Json.field?, same]

theorem ofJson_toJson {d : Description} (readable : d.Readable) : ofJson d.toJson = d := by
  obtain ⟨version, label, regions, links⟩ := d
  simp only [ofJson, toJson, field?_object_cons, String.reduceEq, if_true, if_false,
    Option.bind_some, Json.arr?, Option.getD_some, List.map_map, Description.mk.injEq]
  refine ⟨by simp [Json.unsigned?_nat readable.version], rfl, ?_, ?_⟩
  · -- each region's members are read back; its phases are a phase set already
    refine (List.map_congr_left fun r member => ?_).trans (List.map_id _)
    obtain ⟨name, nodeType, dims, phases⟩ := r
    have normal : phaseSet phases = phases := readable.phaseSets _ member
    simp only [Function.comp_apply, id_eq, regionJson, textOf, natsOf, field?_object_cons,
      String.reduceEq, if_true, if_false, Option.bind_some, Json.str?, Json.arr?, Option.getD_some,
      Json.nats, filterMap_unsigned?_nats (readable.dims _ member),
      filterMap_unsigned?_nats (readable.phases _ member), normal]
  · refine (List.map_congr_left fun l _ => ?_).trans (List.map_id _)
    simp only [Function.comp_apply, id_eq, linkJson, textOf, field?_object_cons,
      String.reduceEq, if_true, if_false, Option.bind_some, Json.str?, Option.getD_some]

end Values

/-- The text of a description whose numbers fit and whose phases are phase sets is read back as
that description. -/
theorem parse_text {d : Description} (readable : d.Readable) : parse d.text = .ok d := by
  have read := read_renderPretty (@readsBack_description 0 d readable) (by decide)
  rw [parse, text, read]
  exact congrArg Except.ok (ofJson_toJson readable)

end Description

end RegionNet

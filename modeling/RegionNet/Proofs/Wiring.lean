import RegionNet.Proofs.Reachable

namespace RegionNet

/-!
# Wiring

A link is named in three places: the network's list of links, the output it leaves and the
input it enters. What a caller may rely on is `Network.Integrity`: every link joins ports that
exist; every port lists, once each, exactly the links at it; no two links join the same ports;
link numbers are apart and below the next number; an input lists its links in increasing number.

The form every operation keeps is `Network.Wired`. Regions are stored apart under their own
names, ports under theirs, and each port lists the numbers of the links at it in the order of
the network's links (`leaving`, `entering`), which are numbered increasingly. Since entries of
one name then agree by construction, storing a port or a region back under its name touches
nothing else.

What the wiring reads of a network is little: the names and links of ports (`Region.plugs`) and
the number and ends of links (`Link.plug`). Operations that keep those keep the wiring
(`Wired.of_plugs_eq`); the others (a region added or dropped, a link attached or detached) are
taken one by one, a side of the port lists at a time (`OutputsList`, `InputsList`).
-/

namespace Collection

variable {α β γ : Type}

/-- The collection with every item under `key` replaced by `x`. -/
def store (c : Collection α) (key : String) (x : α) : Collection α :=
  ⟨c.entries.map fun (k, y) => if k == key then (k, x) else (k, y)⟩

/-- Entries that agree on keys and on views that may read the key give lookups that agree on
those views. -/
theorem find?_of_map_eq_map
    {c : Collection α}
    {d : Collection γ}
    {f : String → α → β}
    {g : String → γ → β}
    (same : c.entries.map (fun e => (e.1, f e.1 e.2)) = d.entries.map (fun e => (e.1, g e.1 e.2)))
    {k : String}
    {x : α}
    (found : c.find? k = some x) :
    ∃ y, d.find? k = some y ∧ g k y = f k x := by
  have searched := congrArg (List.find? (fun e => e.1 == k)) same
  simp only [List.find?_map, Function.comp_def] at searched
  simp only [find?, Option.map_eq_some_iff] at found
  obtain ⟨e, first, rfl⟩ := found
  have key : e.1 = k := by simpa using List.find?_some first
  rw [first] at searched
  obtain ⟨e', first', agree⟩ := Option.map_eq_some_iff.mp searched.symm
  obtain ⟨sameKey, sameView⟩ := Prod.mk.inj agree
  refine ⟨e'.2, by simp [find?, first'], ?_⟩
  rw [sameKey] at sameView
  rw [← key]
  exact sameView

/-- Entries that agree on keys and on `f` give lookups that agree on `f`. -/
theorem find?_of_map_eq
    {c d : Collection α}
    {f : α → β}
    (same : c.entries.map (fun e => (e.1, f e.2)) = d.entries.map (fun e => (e.1, f e.2)))
    {k : String}
    {x : α}
    (found : c.find? k = some x) :
    ∃ y, d.find? k = some y ∧ f y = f x :=
  find?_of_map_eq_map (f := fun _ => f) (g := fun _ => f) same found

/-- An entry of one of two collections that agree on keys and `f` has a partner in the other. -/
theorem mem_of_map_eq
    {c d : Collection α}
    {f : α → β}
    (same : c.entries.map (fun e => (e.1, f e.2)) = d.entries.map (fun e => (e.1, f e.2)))
    {e : String × α}
    (member : e ∈ c.entries) :
    ∃ e' ∈ d.entries, e'.1 = e.1 ∧ f e'.2 = f e.2 := by
  have image : (e.1, f e.2) ∈ d.entries.map (fun e => (e.1, f e.2)) :=
    same ▸ List.mem_map_of_mem member
  obtain ⟨e', member', agree⟩ := List.mem_map.mp image
  exact ⟨e', member', (Prod.mk.inj agree).1, (Prod.mk.inj agree).2⟩

/-- An item found under a name is stored under it. -/
theorem mem_of_find?
    {c : Collection α}
    {k : String}
    {x : α}
    (found : c.find? k = some x) :
    (k, x) ∈ c.entries := by
  simp only [find?, Option.map_eq_some_iff] at found
  obtain ⟨e, first, rfl⟩ := found
  have key : e.1 = k := by simpa using List.find?_some first
  rw [← key]
  exact List.mem_of_find?_eq_some first

/-- Something is found under exactly the names of the entries. -/
theorem isSome_find?_iff {c : Collection α} {k : String} : (c.find? k).isSome ↔ k ∈ c.names := by
  simp [find?, names, List.find?_isSome]

variable {c : Collection α} {key : String} {x : α}

/-- Storing keeps the names. -/
@[simp] theorem names_store : (c.store key x).names = c.names := by
  simp only [names, store, List.map_map]
  refine List.map_congr_left fun e _ => ?_
  obtain ⟨k, y⟩ := e
  by_cases stored : k = key <;> simp [stored]

/-- An entry after storing is the stored item under its key, or an entry under another key. -/
theorem mem_store {e : String × α} (member : e ∈ (c.store key x).entries) :
    (e.1 = key ∧ e.2 = x ∧ ∃ y, (key, y) ∈ c.entries) ∨ (e.1 ≠ key ∧ e ∈ c.entries) := by
  simp only [store, List.mem_map] at member
  obtain ⟨⟨k, y⟩, present, rfl⟩ := member
  by_cases stored : k = key
  · subst stored
    simp only [BEq.rfl, ↓reduceIte, true_and, ne_eq, not_true_eq_false, false_and, or_false]
    exact ⟨y, present⟩
  · simp [stored, present]

/-- Storing changes only what is found under the key. -/
theorem find?_store (name : String) :
    (c.store key x).find? name = (c.find? name).map fun y => if name = key then x else y := by
  let g : String × α → String × α := fun (k, y) => if k == key then (k, x) else (k, y)
  have keyKept : ∀ e, (g e).1 = e.1 := by
    rintro ⟨k, y⟩
    simp only [g]
    split <;> rfl
  have valueOf : ∀ e, (g e).2 = if e.1 = key then x else e.2 := by
    rintro ⟨k, y⟩
    by_cases stored : k = key <;> simp [g, stored]
  show ((c.entries.map g).find? (·.1 == name)).map (·.2) = _
  rw [List.find?_map]
  have samePredicate : ((fun e : String × α => e.1 == name) ∘ g) = (·.1 == name) := by
    funext e
    simp [keyKept]
  rw [samePredicate]
  cases first : c.entries.find? (·.1 == name) with
  | none => simp [find?, first]
  | some e =>
      have key' : e.1 = name := by simpa using List.find?_some first
      simp [find?, first, valueOf, key']

end Collection

/-- What the wiring reads of an input: its name and links. -/
def Input.plug (i : Input) : String × List Nat := (i.name, i.links)

/-- What the wiring reads of an output: its name and links. -/
def Output.plug (o : Output) : String × List Nat := (o.name, o.links)

/-- What the wiring reads of a link: its number and its ends. -/
def Link.plug (l : Link) : Nat × Endpoints := (l.id, l.endpoints)

namespace Region

/-- What the wiring reads of a region: its name, and the plug of every port under its key. -/
def plugs (r : Region) :
    String × List (String × String × List Nat) × List (String × String × List Nat) :=
  (r.name, r.inputs.entries.map (fun e => (e.1, e.2.plug)),
    r.outputs.entries.map (fun e => (e.1, e.2.plug)))

/-- Every port entry is stored under its own name. -/
structure PortsNamed (r : Region) : Prop where
  inputs : ∀ p ∈ r.inputs.entries, p.2.name = p.1
  outputs : ∀ p ∈ r.outputs.entries, p.2.name = p.1

variable {r r' : Region}

/-- Regions with the same plugs find inputs with the same plugs. -/
theorem input_of_plugs_eq
    (same : r.plugs = r'.plugs)
    {k : String}
    {i : Input}
    (found : r.input k = .ok i) :
    ∃ i', r'.input k = .ok i' ∧ i'.plug = i.plug := by
  unfold input at found
  split at found
  · rename_i located
    cases found
    obtain ⟨i', located', agree⟩ :=
      Collection.find?_of_map_eq (Prod.mk.inj (Prod.mk.inj same).2).1 located
    exact ⟨i', by simp [input, located'], agree⟩
  · cases found

/-- Regions with the same plugs find outputs with the same plugs. -/
theorem output_of_plugs_eq
    (same : r.plugs = r'.plugs)
    {k : String}
    {o : Output}
    (found : r.output k = .ok o) :
    ∃ o', r'.output k = .ok o' ∧ o'.plug = o.plug := by
  unfold output at found
  split at found
  · rename_i located
    cases found
    obtain ⟨o', located', agree⟩ :=
      Collection.find?_of_map_eq (Prod.mk.inj (Prod.mk.inj same).2).2 located
    exact ⟨o', by simp [output, located'], agree⟩
  · cases found

/-- An input entry of a region has a partner with the same key and plug in a region with the
same plugs. -/
theorem mem_inputs_of_plugs_eq
    (same : r.plugs = r'.plugs)
    {e : String × Input}
    (member : e ∈ r.inputs.entries) :
    ∃ e' ∈ r'.inputs.entries, e'.1 = e.1 ∧ e'.2.plug = e.2.plug :=
  Collection.mem_of_map_eq (Prod.mk.inj (Prod.mk.inj same).2).1 member

/-- An output entry of a region has a partner with the same key and plug in a region with the
same plugs. -/
theorem mem_outputs_of_plugs_eq
    (same : r.plugs = r'.plugs)
    {e : String × Output}
    (member : e ∈ r.outputs.entries) :
    ∃ e' ∈ r'.outputs.entries, e'.1 = e.1 ∧ e'.2.plug = e.2.plug :=
  Collection.mem_of_map_eq (Prod.mk.inj (Prod.mk.inj same).2).2 member

/-- Port names are read off the plugs. -/
theorem PortsNamed.of_plugs_eq
    (named : r.PortsNamed)
    (same : r'.plugs = r.plugs) :
    r'.PortsNamed where
  inputs := by
    intro p member
    obtain ⟨p', member', key, plugged⟩ := mem_inputs_of_plugs_eq same member
    simp only [Input.plug, Prod.mk.injEq] at plugged
    rw [← plugged.1, named.inputs p' member', key]
  outputs := by
    intro p member
    obtain ⟨p', member', key, plugged⟩ := mem_outputs_of_plugs_eq same member
    simp only [Output.plug, Prod.mk.injEq] at plugged
    rw [← plugged.1, named.outputs p' member', key]

/-- Something is found under exactly the names of the inputs. -/
theorem input_isOk_iff {k : String} : (∃ i, r.input k = .ok i) ↔ k ∈ r.inputs.names := by
  rw [← Collection.isSome_find?_iff]
  unfold input
  cases r.inputs.find? k <;> simp

/-- Something is found under exactly the names of the outputs. -/
theorem output_isOk_iff {k : String} : (∃ o, r.output k = .ok o) ↔ k ∈ r.outputs.names := by
  rw [← Collection.isSome_find?_iff]
  unfold output
  cases r.outputs.find? k <;> simp

section Store

variable {i : Input} {o : Output}

/-- Replacing an input stores it under its name. -/
theorem setInput_eq (r : Region) (i : Input) :
    r.setInput i = { r with inputs := r.inputs.store i.name i } := rfl

/-- Replacing an output stores it under its name. -/
theorem setOutput_eq (r : Region) (o : Output) :
    r.setOutput o = { r with outputs := r.outputs.store o.name o } := rfl

@[simp] theorem setInput_name : (r.setInput i).name = r.name := rfl

@[simp] theorem setInput_outputs : (r.setInput i).outputs = r.outputs := rfl

@[simp] theorem setOutput_name : (r.setOutput o).name = r.name := rfl

@[simp] theorem setOutput_inputs : (r.setOutput o).inputs = r.inputs := rfl

@[simp] theorem names_setInput : (r.setInput i).inputs.names = r.inputs.names := by
  simp [setInput_eq]

@[simp] theorem names_setOutput : (r.setOutput o).outputs.names = r.outputs.names := by
  simp [setOutput_eq]

/-- Storing an input under its own name keeps the ports named. -/
theorem PortsNamed.setInput (named : r.PortsNamed) : (r.setInput i).PortsNamed where
  inputs := by
    intro p member
    rw [setInput_eq] at member
    rcases Collection.mem_store member with ⟨key, rfl, -⟩ | ⟨-, old⟩
    · exact key.symm
    · exact named.inputs p old
  outputs := named.outputs

/-- Storing an output under its own name keeps the ports named. -/
theorem PortsNamed.setOutput (named : r.PortsNamed) : (r.setOutput o).PortsNamed where
  inputs := named.inputs
  outputs := by
    intro p member
    rw [setOutput_eq] at member
    rcases Collection.mem_store member with ⟨key, rfl, -⟩ | ⟨-, old⟩
    · exact key.symm
    · exact named.outputs p old

end Store

/-- The port entry found under a name in a region with named ports is stored under it and
carries that name. -/
theorem output_named
    (named : r.PortsNamed)
    {k : String}
    {o : Output}
    (found : r.output k = .ok o) :
    (k, o) ∈ r.outputs.entries ∧ o.name = k := by
  unfold Region.output at found
  split at found
  · rename_i located
    cases found
    have stored := Collection.mem_of_find? located
    exact ⟨stored, named.outputs _ stored⟩
  · cases found

/-- The input found under a name in a region with named ports is stored under it and carries
that name. -/
theorem input_named
    (named : r.PortsNamed)
    {k : String}
    {i : Input}
    (found : r.input k = .ok i) :
    (k, i) ∈ r.inputs.entries ∧ i.name = k := by
  unfold Region.input at found
  split at found
  · rename_i located
    cases found
    have stored := Collection.mem_of_find? located
    exact ⟨stored, named.inputs _ stored⟩
  · cases found

end Region

namespace Network

/-!
## The invariant
-/

/-- The numbers of the links of `links` that leave an output, in order. -/
def leaving (links : List Link) (region output : String) : List Nat :=
  (links.filter fun l => l.endpoints.srcRegion == region && l.endpoints.srcOutput == output).map
    (·.id)

/-- The numbers of the links of `links` that enter an input, in order. -/
def entering (links : List Link) (region input : String) : List Nat :=
  (links.filter fun l => l.endpoints.destRegion == region && l.endpoints.destInput == input).map
    (·.id)

/-- Every output entry lists the links of `links` that leave it. -/
def OutputsList (regions : Collection Region) (links : List Link) : Prop :=
  ∀ e ∈ regions.entries, ∀ p ∈ e.2.outputs.entries, p.2.links = leaving links e.1 p.1

/-- Every input entry lists the links of `links` that enter it. -/
def InputsList (regions : Collection Region) (links : List Link) : Prop :=
  ∀ e ∈ regions.entries, ∀ p ∈ e.2.inputs.entries, p.2.links = entering links e.1 p.1

/-- A link's two ends exist: its source region has its output, its destination region its
input. -/
def Joins (n : Network) (l : Link) : Prop :=
  (∃ src o, n.region l.endpoints.srcRegion = .ok src ∧ src.output l.endpoints.srcOutput = .ok o) ∧
    ∃ dest i, n.region l.endpoints.destRegion = .ok dest ∧ dest.input l.endpoints.destInput = .ok i

/--
Referential integrity of a network's links: every link joins ports that exist; an output (an
input) lists a link number once, and exactly when a link of the network leaves (enters) it, so
in no other port's list; no two links join the same four ends; link numbers are apart and below
the next number; and every input lists its links in increasing number, the order they were made.
-/
structure Integrity (n : Network) : Prop where
  ends : ∀ l ∈ n.links, n.Joins l
  outputsList : ∀ e ∈ n.regions.entries, ∀ p ∈ e.2.outputs.entries, p.2.links.Nodup ∧
    ∀ id, id ∈ p.2.links ↔
      ∃ l ∈ n.links, l.id = id ∧ l.endpoints.srcRegion = e.1 ∧ l.endpoints.srcOutput = p.1
  inputsList : ∀ e ∈ n.regions.entries, ∀ p ∈ e.2.inputs.entries, p.2.links.Nodup ∧
    ∀ id, id ∈ p.2.links ↔
      ∃ l ∈ n.links, l.id = id ∧ l.endpoints.destRegion = e.1 ∧ l.endpoints.destInput = p.1
  endpointsApart : (n.links.map (·.endpoints)).Nodup
  numbersApart : n.linkIds.Nodup
  below : ∀ l ∈ n.links, l.id < n.nextLink
  inputsIncreasing : ∀ e ∈ n.regions.entries, ∀ p ∈ e.2.inputs.entries,
    p.2.links.Pairwise (· < ·)

/-- Regions are stored apart under their own names, and their ports under theirs. -/
structure Stored (regions : Collection Region) : Prop where
  distinct : regions.names.Nodup
  named : ∀ e ∈ regions.entries, e.2.name = e.1
  portsNamed : ∀ e ∈ regions.entries, e.2.PortsNamed

/--
The wiring every operation keeps. Regions are stored apart under their own names and ports under
theirs; each port lists the links at it in the order of the network's links, which are numbered
increasingly and below the next number; every link joins ports that exist, and no two the same.
-/
structure Wired (n : Network) : Prop extends Stored n.regions where
  outputs : OutputsList n.regions n.links
  inputs : InputsList n.regions n.links
  ends : ∀ l ∈ n.links, n.Joins l
  endpointsApart : (n.links.map (·.endpoints)).Nodup
  increasing : n.linkIds.Pairwise (· < ·)
  below : ∀ id ∈ n.linkIds, id < n.nextLink

section Lists

variable {links : List Link} {region port : String} {id : Nat}

/-- A number leaves an output exactly when a link with it does. -/
theorem mem_leaving :
    id ∈ leaving links region port ↔
      ∃ l ∈ links, l.id = id ∧ l.endpoints.srcRegion = region ∧ l.endpoints.srcOutput = port := by
  simp only [leaving, List.mem_map, List.mem_filter, Bool.and_eq_true, beq_iff_eq]
  constructor
  · rintro ⟨l, ⟨member, src, out⟩, rfl⟩
    exact ⟨l, member, rfl, src, out⟩
  · rintro ⟨l, member, rfl, src, out⟩
    exact ⟨l, ⟨member, src, out⟩, rfl⟩

/-- A number enters an input exactly when a link with it does. -/
theorem mem_entering :
    id ∈ entering links region port ↔
      ∃ l ∈ links, l.id = id ∧ l.endpoints.destRegion = region ∧ l.endpoints.destInput = port := by
  simp only [entering, List.mem_map, List.mem_filter, Bool.and_eq_true, beq_iff_eq]
  constructor
  · rintro ⟨l, ⟨member, dest, inp⟩, rfl⟩
    exact ⟨l, member, rfl, dest, inp⟩
  · rintro ⟨l, member, rfl, dest, inp⟩
    exact ⟨l, ⟨member, dest, inp⟩, rfl⟩

/-- The links leaving an output are among all links, in order. -/
theorem leaving_sublist : (leaving links region port).Sublist (links.map (·.id)) :=
  (List.filter_sublist).map _

/-- The links entering an input are among all links, in order. -/
theorem entering_sublist : (entering links region port).Sublist (links.map (·.id)) :=
  (List.filter_sublist).map _

/-- Which links leave an output reads only the links' plugs. -/
theorem leaving_eq_plugs :
    leaving links region port =
      ((links.map Link.plug).filter fun q => q.2.srcRegion == region && q.2.srcOutput == port).map
        (·.1) := by
  simp [leaving, List.filter_map, Function.comp_def, Link.plug]

/-- Which links enter an input reads only the links' plugs. -/
theorem entering_eq_plugs :
    entering links region port =
      ((links.map Link.plug).filter fun q => q.2.destRegion == region && q.2.destInput == port).map
        (·.1) := by
  simp [entering, List.filter_map, Function.comp_def, Link.plug]

end Lists

/-- A wired network has referential integrity. -/
theorem Wired.integrity {n : Network} (wired : n.Wired) : n.Integrity where
  ends := wired.ends
  outputsList := by
    intro e member p port
    rw [wired.outputs e member p port]
    exact ⟨(wired.increasing.sublist leaving_sublist).imp Nat.ne_of_lt,
      fun _ => mem_leaving⟩
  inputsList := by
    intro e member p port
    rw [wired.inputs e member p port]
    exact ⟨(wired.increasing.sublist entering_sublist).imp Nat.ne_of_lt,
      fun _ => mem_entering⟩
  endpointsApart := wired.endpointsApart
  numbersApart := wired.increasing.imp Nat.ne_of_lt
  below := fun l member => wired.below l.id (List.mem_map_of_mem member)
  inputsIncreasing := by
    intro e member p port
    rw [wired.inputs e member p port]
    exact wired.increasing.sublist entering_sublist

/-!
## What the wiring reads
-/

/-- What the wiring reads of the regions: each region's plugs under its key. -/
def regionPlugs (n : Network) :
    List (String × String × List (String × String × List Nat) ×
      List (String × String × List Nat)) :=
  n.regions.entries.map (fun e => (e.1, e.2.plugs))

variable {m n : Network}

/-- Networks whose regions have the same plugs find regions with the same plugs. -/
theorem region_of_plugs_eq
    (same : m.regionPlugs = n.regionPlugs)
    {name : String}
    {r : Region}
    (found : m.region name = .ok r) :
    ∃ r', n.region name = .ok r' ∧ r'.plugs = r.plugs := by
  unfold region at found
  split at found
  · rename_i located
    cases found
    obtain ⟨r', located', agree⟩ := Collection.find?_of_map_eq same located
    exact ⟨r', by simp [region, located'], agree⟩
  · cases found

/-- A link among links with the same plugs has a partner with its plug. -/
theorem mem_links_of_plugs_eq
    {links links' : List Link}
    (same : links.map Link.plug = links'.map Link.plug)
    {l : Link}
    (member : l ∈ links) :
    ∃ l' ∈ links', l'.plug = l.plug := by
  have image : l.plug ∈ links'.map Link.plug := same ▸ List.mem_map_of_mem member
  exact List.mem_map.mp image

/-- Whether a link joins existing ports reads only its ends. -/
theorem joins_of_endpoints_eq
    {l l' : Link}
    (same : l'.endpoints = l.endpoints)
    (joins : n.Joins l) :
    n.Joins l' := by
  unfold Joins
  rw [same]
  exact joins

/-- Networks whose regions have the same plugs join the same links. -/
theorem Joins.of_plugs_eq
    (same : m.regionPlugs = n.regionPlugs)
    {l : Link}
    (joins : n.Joins l) :
    m.Joins l := by
  obtain ⟨⟨src, o, srcFound, outputFound⟩, ⟨dest, i, destFound, inputFound⟩⟩ := joins
  obtain ⟨src', srcFound', srcPlugs⟩ := region_of_plugs_eq same.symm srcFound
  obtain ⟨dest', destFound', destPlugs⟩ := region_of_plugs_eq same.symm destFound
  obtain ⟨o', outputFound', -⟩ := Region.output_of_plugs_eq srcPlugs.symm outputFound
  obtain ⟨i', inputFound', -⟩ := Region.input_of_plugs_eq destPlugs.symm inputFound
  exact ⟨⟨src', o', srcFound', outputFound'⟩, ⟨dest', i', destFound', inputFound'⟩⟩

/-- Networks that agree on the plugs of their regions and links are wired alike, when the next
number does not go down. -/
theorem Wired.of_plugs_eq
    (wired : n.Wired)
    (sameRegions : m.regionPlugs = n.regionPlugs)
    (sameLinks : m.links.map Link.plug = n.links.map Link.plug)
    (next : n.nextLink ≤ m.nextLink) :
    m.Wired where
  distinct := by
    have keys := congrArg (List.map Prod.fst) sameRegions
    simp only [regionPlugs, List.map_map, Function.comp_def] at keys
    simpa [Collection.names, keys] using wired.distinct
  named := by
    intro e member
    obtain ⟨e', member', key, agree⟩ := Collection.mem_of_map_eq sameRegions member
    rw [← key, ← wired.named e' member']
    exact (Prod.mk.inj agree).1.symm
  portsNamed := by
    intro e member
    obtain ⟨e', member', -, agree⟩ := Collection.mem_of_map_eq sameRegions member
    exact (wired.portsNamed e' member').of_plugs_eq agree.symm
  outputs := by
    intro e member p port
    obtain ⟨e', member', key, agree⟩ := Collection.mem_of_map_eq sameRegions member
    obtain ⟨p', port', portKey, plugged⟩ := Region.mem_outputs_of_plugs_eq agree.symm port
    simp only [Output.plug, Prod.mk.injEq] at plugged
    rw [← plugged.2, wired.outputs e' member' p' port', key, portKey, leaving_eq_plugs,
      leaving_eq_plugs, sameLinks]
  inputs := by
    intro e member p port
    obtain ⟨e', member', key, agree⟩ := Collection.mem_of_map_eq sameRegions member
    obtain ⟨p', port', portKey, plugged⟩ := Region.mem_inputs_of_plugs_eq agree.symm port
    simp only [Input.plug, Prod.mk.injEq] at plugged
    rw [← plugged.2, wired.inputs e' member' p' port', key, portKey, entering_eq_plugs,
      entering_eq_plugs, sameLinks]
  ends := by
    intro l member
    obtain ⟨l', member', plugged⟩ := mem_links_of_plugs_eq sameLinks member
    simp only [Link.plug, Prod.mk.injEq] at plugged
    exact joins_of_endpoints_eq plugged.2.symm ((wired.ends l' member').of_plugs_eq sameRegions)
  endpointsApart := by
    have ends := congrArg (List.map Prod.snd) sameLinks
    simp only [List.map_map, Function.comp_def, Link.plug] at ends
    rw [ends]
    exact wired.endpointsApart
  increasing := by
    have numbers := congrArg (List.map Prod.fst) sameLinks
    simp only [List.map_map, Function.comp_def, Link.plug] at numbers
    simpa only [linkIds, numbers] using wired.increasing
  below := by
    have numbers := congrArg (List.map Prod.fst) sameLinks
    simp only [List.map_map, Function.comp_def, Link.plug] at numbers
    intro id member
    have := wired.below id (by simpa only [linkIds, numbers] using member)
    omega

/-!
## Storing a region back
-/

section Regions

/-- The network with a region stored back under its own name. -/
def replaceRegion (n : Network) (r : Region) : Network :=
  { n with regions := ⟨n.regions.entries.map fun (k, x) => if k == r.name then (k, r) else (k, x)⟩ }

variable {r : Region}

/-- Replacing a region stores it under its name. -/
theorem replaceRegion_regions : (n.replaceRegion r).regions = n.regions.store r.name r := rfl

@[simp] theorem replaceRegion_links : (n.replaceRegion r).links = n.links := rfl

@[simp] theorem replaceRegion_state : (n.replaceRegion r).state = n.state := rfl

@[simp] theorem replaceRegion_order : (n.replaceRegion r).order = n.order := rfl

@[simp] theorem replaceRegion_nextLink : (n.replaceRegion r).nextLink = n.nextLink := rfl

/-- A region found under a name is stored under it. -/
theorem mem_of_region
    {name : String}
    (found : n.region name = .ok r) :
    (name, r) ∈ n.regions.entries := by
  unfold region at found
  split at found
  · rename_i located
    cases found
    exact Collection.mem_of_find? located
  · cases found

/-- Among regions stored apart, every entry is the one found under its name. -/
theorem region_of_mem
    (distinct : n.regions.names.Nodup)
    {e : String × Region}
    (member : e ∈ n.regions.entries) :
    n.region e.1 = .ok e.2 := by
  obtain ⟨e', first⟩ : ∃ e', n.regions.entries.find? (·.1 == e.1) = some e' :=
    Option.isSome_iff_exists.mp (List.find?_isSome.mpr ⟨e, member, by simp⟩)
  have key : e'.1 = e.1 := by simpa using List.find?_some first
  have same : e' = e :=
    List.inj_on_of_nodup_map distinct (List.mem_of_find?_eq_some first) member key
  simp [region, Collection.find?, first, same]

/-- Among regions stored apart, the only entry under a found region's name is that region. -/
theorem eq_of_region
    (distinct : n.regions.names.Nodup)
    {name : String}
    {x : Region}
    (found : n.region name = .ok r)
    (member : (name, x) ∈ n.regions.entries) :
    x = r := by
  have again := region_of_mem distinct member
  rw [found] at again
  exact (Except.ok.inj again).symm

/-- Storing a region changes only what is found under its name. -/
theorem region_replaceRegion
    (name : String) :
    (n.replaceRegion r).region name =
      match n.region name with
      | .ok x => .ok (if name = r.name then r else x)
      | .error e => .error e := by
  unfold region
  rw [replaceRegion_regions, Collection.find?_store]
  cases n.regions.find? name <;> rfl

/-- A stored region is found under its own name again. -/
theorem region_replaceRegion_self
    {old : Region}
    (found : n.region r.name = .ok old) :
    (n.replaceRegion r).region r.name = .ok r := by
  rw [region_replaceRegion, found]
  simp

/-- Storing a region leaves the regions under other names as they were. -/
theorem region_replaceRegion_of_ne
    {name : String}
    (other : name ≠ r.name) :
    (n.replaceRegion r).region name = n.region name := by
  rw [region_replaceRegion]
  cases n.region name <;> simp [other]

/-- Storing back a region that agrees with the stored one on `f` keeps every region's `f`. -/
theorem map_replaceRegion
    {β : Type}
    (f : Region → β)
    (distinct : n.regions.names.Nodup)
    {old : Region}
    (found : n.region r.name = .ok old)
    (same : f r = f old) :
    (n.replaceRegion r).regions.entries.map (fun e => (e.1, f e.2)) =
      n.regions.entries.map (fun e => (e.1, f e.2)) := by
  simp only [replaceRegion, List.map_map]
  refine List.map_congr_left fun e member => ?_
  by_cases key : e.1 = r.name
  · have stored : e.2 = old := by
      have atKey := region_of_mem distinct member
      rw [key, found] at atKey
      exact (Except.ok.inj atKey).symm
    simp [key, same, stored]
  · simp [key]

/-- Storing back a region with the plugs of the stored one keeps the wiring. -/
theorem Wired.replaceRegion
    (wired : n.Wired)
    {old : Region}
    (found : n.region r.name = .ok old)
    (same : r.plugs = old.plugs) :
    (n.replaceRegion r).Wired :=
  wired.of_plugs_eq (map_replaceRegion Region.plugs wired.distinct found same) rfl le_rfl

/-- A region found after storing one is the stored one under its name, else the one found
before. -/
theorem region_replaceRegion_eq_ok
    {name : String}
    {x : Region}
    (found : (n.replaceRegion r).region name = .ok x) :
    ∃ y, n.region name = .ok y ∧ x = if name = r.name then r else y := by
  rw [region_replaceRegion] at found
  split at found
  · rename_i y before
    exact ⟨y, before, (Except.ok.inj found).symm⟩
  · cases found

/-- Storing a region with the port names of the stored one keeps every link joined. -/
theorem Joins.replaceRegion
    {l : Link}
    (joins : n.Joins l)
    {old : Region}
    (found : n.region r.name = .ok old)
    (sameInputs : r.inputs.names = old.inputs.names)
    (sameOutputs : r.outputs.names = old.outputs.names) :
    (n.replaceRegion r).Joins l := by
  -- a region looked up is the stored one or unchanged; the stored one has the old port names
  have moved : ∀ {name : String} {x : Region}, n.region name = .ok x →
      ∃ y, (n.replaceRegion r).region name = .ok y ∧ y.inputs.names = x.inputs.names ∧
        y.outputs.names = x.outputs.names := by
    intro name x located
    by_cases atKey : name = r.name
    · subst atKey
      rw [found] at located
      cases located
      exact ⟨r, region_replaceRegion_self found, sameInputs, sameOutputs⟩
    · exact ⟨x, by rw [region_replaceRegion_of_ne atKey, located], rfl, rfl⟩
  obtain ⟨⟨src, o, srcFound, outputFound⟩, ⟨dest, i, destFound, inputFound⟩⟩ := joins
  obtain ⟨src', srcFound', -, srcOutputs⟩ := moved srcFound
  obtain ⟨dest', destFound', destInputs, -⟩ := moved destFound
  have hasOutput := Region.output_isOk_iff.mp ⟨o, outputFound⟩
  have hasInput := Region.input_isOk_iff.mp ⟨i, inputFound⟩
  obtain ⟨o', outputFound'⟩ := Region.output_isOk_iff.mpr (srcOutputs ▸ hasOutput)
  obtain ⟨i', inputFound'⟩ := Region.input_isOk_iff.mpr (destInputs ▸ hasInput)
  exact ⟨⟨src', o', srcFound', outputFound'⟩, ⟨dest', i', destFound', inputFound'⟩⟩

end Regions

/-!
## One side of the port lists at a time

Attaching or detaching a link changes the links and two port lists. The lists of outputs and of
inputs are followed separately: each is carried from the old links to the new ones while the
region holding the changed port is stored back, and the other side is carried unchanged.
-/

section Sides

variable {regions : Collection Region} {links links' : List Link}

/-- Storing a region whose outputs are those of every region stored under its name keeps the
output lists. -/
theorem OutputsList.store_of_outputs
    {x : Region}
    (listed : OutputsList regions links)
    (sameOutputs : ∀ y, (x.name, y) ∈ regions.entries → y.outputs = x.outputs) :
    OutputsList (regions.store x.name x) links := by
  intro e member p port
  rcases Collection.mem_store member with ⟨key, value, y, stored⟩ | ⟨-, old⟩
  · rw [value, ← sameOutputs y stored] at port
    rw [key]
    exact listed (x.name, y) stored p port
  · exact listed e old p port

/-- Storing a region whose inputs are those of every region stored under its name keeps the
input lists. -/
theorem InputsList.store_of_inputs
    {x : Region}
    (listed : InputsList regions links)
    (sameInputs : ∀ y, (x.name, y) ∈ regions.entries → y.inputs = x.inputs) :
    InputsList (regions.store x.name x) links := by
  intro e member p port
  rcases Collection.mem_store member with ⟨key, value, y, stored⟩ | ⟨-, old⟩
  · rw [value, ← sameInputs y stored] at port
    rw [key]
    exact listed (x.name, y) stored p port
  · exact listed e old p port

/--
Storing, into a stored region, an output that lists the links of `links'` leaving it carries the
output lists over to `links'`, when the links leaving every other output are the same in both.
-/
theorem OutputsList.setOutput
    {r : Region}
    {o : Output}
    (listed : OutputsList regions links)
    (stored : (r.name, r) ∈ regions.entries)
    (self : o.links = leaving links' r.name o.name)
    (others : ∀ region port, (region ≠ r.name ∨ port ≠ o.name) →
      leaving links' region port = leaving links region port) :
    OutputsList (regions.store r.name (r.setOutput o)) links' := by
  intro e member p port
  rcases Collection.mem_store member with ⟨key, value, -⟩ | ⟨other, old⟩
  · rw [value, Region.setOutput_eq] at port
    rcases Collection.mem_store port with ⟨portKey, portValue, -⟩ | ⟨portOther, portOld⟩
    · rw [portValue, key, portKey, self]
    · rw [key, others _ _ (.inr portOther)]
      exact listed _ stored p portOld
  · rw [others _ _ (.inl other)]
    exact listed e old p port

/--
Storing, into a stored region, an input that lists the links of `links'` entering it carries the
input lists over to `links'`, when the links entering every other input are the same in both.
-/
theorem InputsList.setInput
    {r : Region}
    {i : Input}
    (listed : InputsList regions links)
    (stored : (r.name, r) ∈ regions.entries)
    (self : i.links = entering links' r.name i.name)
    (others : ∀ region port, (region ≠ r.name ∨ port ≠ i.name) →
      entering links' region port = entering links region port) :
    InputsList (regions.store r.name (r.setInput i)) links' := by
  intro e member p port
  rcases Collection.mem_store member with ⟨key, value, -⟩ | ⟨other, old⟩
  · rw [value, Region.setInput_eq] at port
    rcases Collection.mem_store port with ⟨portKey, portValue, -⟩ | ⟨portOther, portOld⟩
    · rw [portValue, key, portKey, self]
    · rw [key, others _ _ (.inr portOther)]
      exact listed _ stored p portOld
  · rw [others _ _ (.inl other)]
    exact listed e old p port

/-- Changing only the links, the output lists carry over when no output's links change. -/
theorem OutputsList.of_leaving
    (listed : OutputsList regions links)
    (same : ∀ region port, leaving links' region port = leaving links region port) :
    OutputsList regions links' := by
  intro e member p port
  rw [same]
  exact listed e member p port

/-- Changing only the links, the input lists carry over when no input's links change. -/
theorem InputsList.of_entering
    (listed : InputsList regions links)
    (same : ∀ region port, entering links' region port = entering links region port) :
    InputsList regions links' := by
  intro e member p port
  rw [same]
  exact listed e member p port

end Sides

section Changes

variable {l : Link} {region port : String}

/-- A link added at the end leaves its own output after the others. -/
theorem leaving_append :
    leaving (n.links ++ [l]) region port =
      leaving n.links region port ++
        if l.endpoints.srcRegion = region ∧ l.endpoints.srcOutput = port then [l.id] else [] := by
  by_cases from_ : l.endpoints.srcRegion = region ∧ l.endpoints.srcOutput = port
  · simp [leaving, List.filter_append, from_]
  · have refused : (l.endpoints.srcRegion == region && l.endpoints.srcOutput == port) = false := by
      simpa using from_
    simp [leaving, List.filter_append, refused, from_]

/-- A link added at the end enters its own input after the others. -/
theorem entering_append :
    entering (n.links ++ [l]) region port =
      entering n.links region port ++
        if l.endpoints.destRegion = region ∧ l.endpoints.destInput = port then [l.id] else [] := by
  by_cases into : l.endpoints.destRegion = region ∧ l.endpoints.destInput = port
  · simp [entering, List.filter_append, into]
  · have refused : (l.endpoints.destRegion == region && l.endpoints.destInput == port) = false := by
      simpa using into
    simp [entering, List.filter_append, refused, into]

/-- Dropping the links of one number drops that number from every output's list. -/
theorem leaving_filter (id : Nat) :
    leaving (n.links.filter (·.id != id)) region port =
      (leaving n.links region port).filter (· != id) := by
  simp only [leaving, List.filter_map, List.filter_filter, Function.comp_def]
  congr 2
  funext x
  exact Bool.and_comm _ _

/-- Dropping the links of one number drops that number from every input's list. -/
theorem entering_filter (id : Nat) :
    entering (n.links.filter (·.id != id)) region port =
      (entering n.links region port).filter (· != id) := by
  simp only [entering, List.filter_map, List.filter_filter, Function.comp_def]
  congr 2
  funext x
  exact Bool.and_comm _ _

/-- Storing a region with named ports under its own name keeps the regions stored. -/
theorem Stored.store
    {regions : Collection Region}
    {x : Region}
    (stored : Stored regions)
    (portsNamed : x.PortsNamed) :
    Stored (regions.store x.name x) where
  distinct := by simpa using stored.distinct
  named := by
    intro e member
    rcases Collection.mem_store member with ⟨key, value, -⟩ | ⟨-, old⟩
    · rw [key, value]
    · exact stored.named e old
  portsNamed := by
    intro e member
    rcases Collection.mem_store member with ⟨-, value, -⟩ | ⟨-, old⟩
    · rw [value]
      exact portsNamed
    · exact stored.portsNamed e old

/-- Among regions stored apart, two regions stored under one name are the same. -/
theorem Stored.eq_of_mem
    {regions : Collection Region}
    (stored : Stored regions)
    {k : String}
    {x y : Region}
    (first : (k, x) ∈ regions.entries)
    (second : (k, y) ∈ regions.entries) :
    x = y :=
  (Prod.mk.inj (List.inj_on_of_nodup_map stored.distinct first second rfl)).2

/--
Attaching a link under the next number between ports that exist and that no link joins yet,
listed last at its output and at its input, keeps the wiring.
-/
theorem Wired.attach
    (wired : n.Wired)
    {src dest : Region}
    {o : Output}
    {i : Input}
    (numbered : l.id = n.nextLink)
    (fresh : l.endpoints ∉ n.links.map (·.endpoints))
    (srcFound : n.region l.endpoints.srcRegion = .ok src)
    (outputFound : src.output l.endpoints.srcOutput = .ok o)
    (destFound : (n.replaceRegion (src.setOutput (o.addLink l.id))).region
      l.endpoints.destRegion = .ok dest)
    (inputFound : dest.input l.endpoints.destInput = .ok i)
    {m : Network}
    (regions : m.regions = ((n.replaceRegion (src.setOutput (o.addLink l.id))).replaceRegion
      (dest.setInput (i.addLink l.id))).regions)
    (links : m.links = n.links ++ [l])
    (next : n.nextLink < m.nextLink) :
    m.Wired := by
  -- the output: found under its names, listing the links leaving it, none numbered `l.id`
  have srcStored := mem_of_region srcFound
  have srcNamed : src.name = l.endpoints.srcRegion := wired.named _ srcStored
  obtain ⟨outputStored, outputNamed⟩ :=
    Region.output_named (wired.portsNamed _ srcStored) outputFound
  have outputListed : o.links = leaving n.links l.endpoints.srcRegion l.endpoints.srcOutput :=
    wired.outputs _ srcStored _ outputStored
  have outputFresh : l.id ∉ o.links := fun listed => by
    have := wired.below _ (leaving_sublist.subset (outputListed ▸ listed))
    omega
  have outputAdded : o.addLink l.id = { o with links := o.links ++ [l.id] } := by
    simp [Output.addLink, outputFresh]
  -- after the output is stored back, outputs list the new links and inputs the old ones
  set n₂ := n.replaceRegion (src.setOutput (o.addLink l.id)) with n₂_eq
  have stored₂ : Stored n₂.regions :=
    wired.toStored.store (wired.portsNamed _ srcStored).setOutput
  have outputs₂ : OutputsList n₂.regions (n.links ++ [l]) := by
    refine OutputsList.setOutput wired.outputs (srcNamed ▸ srcStored) ?_ ?_
    · simp only [outputAdded, leaving_append, srcNamed, outputNamed, outputListed, and_self,
        ↓reduceIte]
    · intro region port other
      have apart : ¬(l.endpoints.srcRegion = region ∧ l.endpoints.srcOutput = port) := by
        rintro ⟨rfl, rfl⟩
        simp [srcNamed, outputAdded, outputNamed] at other
      simp [leaving_append, apart]
  have inputs₂ : InputsList n₂.regions n.links := by
    refine InputsList.store_of_inputs wired.inputs fun y stored => ?_
    rw [Region.setOutput_name, srcNamed] at stored
    rw [wired.eq_of_mem stored srcStored]
    rfl
  -- the input: found in `n₂` under its names, listing the links entering it
  have destStored := mem_of_region destFound
  have destNamed : dest.name = l.endpoints.destRegion := stored₂.named _ destStored
  obtain ⟨inputStored, inputNamed⟩ :=
    Region.input_named (stored₂.portsNamed _ destStored) inputFound
  have inputListed : i.links = entering n.links l.endpoints.destRegion l.endpoints.destInput :=
    inputs₂ _ destStored _ inputStored
  have inputFresh : l.id ∉ i.links := fun listed => by
    have := wired.below _ (entering_sublist.subset (inputListed ▸ listed))
    omega
  have inputAdded : i.addLink l.id = { i with links := i.links ++ [l.id] } := by
    simp [Input.addLink, inputFresh]
  have stored₃ : Stored m.regions := by
    rw [regions]
    exact stored₂.store (stored₂.portsNamed _ destStored).setInput
  have inputs₃ : InputsList m.regions m.links := by
    rw [regions, links]
    refine InputsList.setInput inputs₂ (destNamed ▸ destStored) ?_ ?_
    · simp only [inputAdded, entering_append, destNamed, inputNamed, inputListed, and_self,
        ↓reduceIte]
    · intro region port other
      have apart : ¬(l.endpoints.destRegion = region ∧ l.endpoints.destInput = port) := by
        rintro ⟨rfl, rfl⟩
        simp [destNamed, inputAdded, inputNamed] at other
      simp [entering_append, apart]
  have outputs₃ : OutputsList m.regions m.links := by
    rw [regions, links]
    refine OutputsList.store_of_outputs outputs₂ fun y stored => ?_
    rw [Region.setInput_name, destNamed] at stored
    rw [stored₂.eq_of_mem stored destStored]
    rfl
  -- every link, the new one included, joins ports that exist in `n` and so after both stores
  have destBefore : ∃ y, n.region l.endpoints.destRegion = .ok y ∧ y.inputs = dest.inputs := by
    obtain ⟨y, before, chosen⟩ := region_replaceRegion_eq_ok destFound
    refine ⟨y, before, ?_⟩
    by_cases atSrc : l.endpoints.destRegion = (src.setOutput (o.addLink l.id)).name
    · rw [if_pos atSrc] at chosen
      rw [Region.setOutput_name, srcNamed] at atSrc
      rw [atSrc, srcFound] at before
      rw [← Except.ok.inj before, chosen]
      rfl
    · rw [if_neg atSrc] at chosen
      rw [chosen]
  obtain ⟨y, yFound, yInputs⟩ := destBefore
  obtain ⟨i', inputFound'⟩ : ∃ i', y.input l.endpoints.destInput = .ok i' :=
    Region.input_isOk_iff.mpr (yInputs ▸ Region.input_isOk_iff.mp ⟨i, inputFound⟩)
  have joinsNew : n.Joins l := ⟨⟨src, o, srcFound, outputFound⟩, ⟨y, i', yFound, inputFound'⟩⟩
  have carried : ∀ x, n.Joins x → m.Joins x := by
    intro x joins
    have joins₂ : n₂.Joins x :=
      joins.replaceRegion (show n.region (src.setOutput (o.addLink l.id)).name = .ok src from
        srcNamed ▸ srcFound) rfl (by simp)
    have joins₃ := joins₂.replaceRegion (show n₂.region (dest.setInput (i.addLink l.id)).name =
      .ok dest from destNamed ▸ destFound) (by simp) rfl
    unfold Joins region at joins₃ ⊢
    rw [regions]
    exact joins₃
  refine ⟨stored₃, outputs₃, inputs₃, ?_, ?_, ?_, ?_⟩
  · intro x member
    rw [links] at member
    rcases List.mem_append.mp member with old | added
    · exact carried x (wired.ends x old)
    · rw [List.mem_singleton.mp added]
      exact carried l joinsNew
  · rw [links, List.map_append, List.map_singleton]
    exact wired.endpointsApart.append (List.nodup_singleton _)
      (List.disjoint_singleton.mpr fresh)
  · rw [linkIds, links, List.map_append, List.map_singleton, List.pairwise_append]
    refine ⟨wired.increasing, List.pairwise_singleton _ _, fun a old b added => ?_⟩
    rw [List.mem_singleton.mp added, numbered]
    exact wired.below a old
  · intro id member
    rw [linkIds, links, List.map_append, List.map_singleton, List.mem_append,
      List.mem_singleton] at member
    rcases member with old | rfl
    · have := wired.below id old
      omega
    · omega

/-- In a wired network, two links of one number are the same link. -/
theorem Wired.eq_of_id_eq
    (wired : n.Wired)
    {x y : Link}
    (first : x ∈ n.links)
    (second : y ∈ n.links)
    (same : x.id = y.id) :
    x = y :=
  List.inj_on_of_nodup_map (wired.increasing.imp Nat.ne_of_lt) first second same

/-- In a wired network, a link's number leaves no output but its own. -/
theorem Wired.not_mem_leaving
    (wired : n.Wired)
    (member : l ∈ n.links)
    (other : region ≠ l.endpoints.srcRegion ∨ port ≠ l.endpoints.srcOutput) :
    l.id ∉ leaving n.links region port := by
  intro listed
  obtain ⟨x, present, numbered, src, out⟩ := mem_leaving.mp listed
  obtain rfl := wired.eq_of_id_eq present member numbered
  rcases other with other | other
  · exact other src.symm
  · exact other out.symm

/-- In a wired network, a link's number enters no input but its own. -/
theorem Wired.not_mem_entering
    (wired : n.Wired)
    (member : l ∈ n.links)
    (other : region ≠ l.endpoints.destRegion ∨ port ≠ l.endpoints.destInput) :
    l.id ∉ entering n.links region port := by
  intro listed
  obtain ⟨x, present, numbered, dest, inp⟩ := mem_entering.mp listed
  obtain rfl := wired.eq_of_id_eq present member numbered
  rcases other with other | other
  · exact other dest.symm
  · exact other inp.symm

/-- The links a link's number is dropped from keep every other port's list. -/
theorem filter_ne_of_not_mem {ids : List Nat} {id : Nat} (missing : id ∉ ids) :
    ids.filter (· != id) = ids :=
  List.filter_eq_self.mpr fun x member => by
    have : x ≠ id := fun same => missing (same ▸ member)
    simpa using this

/--
Detaching a link, dropped from the network's links and from the lists of the two ports it
joins, keeps the wiring.
-/
theorem Wired.detach
    (wired : n.Wired)
    (member : l ∈ n.links)
    {src dest : Region}
    {o : Output}
    {i : Input}
    (srcFound : n.region l.endpoints.srcRegion = .ok src)
    (outputFound : src.output l.endpoints.srcOutput = .ok o)
    (destFound : (n.replaceRegion (src.setOutput (o.removeLink l.id))).region
      l.endpoints.destRegion = .ok dest)
    (inputFound : dest.input l.endpoints.destInput = .ok i)
    {m : Network}
    (regions : m.regions = ((n.replaceRegion (src.setOutput (o.removeLink l.id))).replaceRegion
      (dest.setInput (i.removeLink l.id))).regions)
    (links : m.links = n.links.filter (·.id != l.id))
    (next : n.nextLink ≤ m.nextLink) :
    m.Wired := by
  set kept := n.links.filter (·.id != l.id) with kept_eq
  -- the output: found under its names, listing the links leaving it
  have srcStored := mem_of_region srcFound
  have srcNamed : src.name = l.endpoints.srcRegion := wired.named _ srcStored
  obtain ⟨outputStored, outputNamed⟩ :=
    Region.output_named (wired.portsNamed _ srcStored) outputFound
  have outputListed : o.links = leaving n.links l.endpoints.srcRegion l.endpoints.srcOutput :=
    wired.outputs _ srcStored _ outputStored
  -- after the output is stored back, outputs list the kept links and inputs all of them
  set n₂ := n.replaceRegion (src.setOutput (o.removeLink l.id)) with n₂_eq
  have stored₂ : Stored n₂.regions :=
    wired.toStored.store (wired.portsNamed _ srcStored).setOutput
  have outputs₂ : OutputsList n₂.regions kept := by
    refine OutputsList.setOutput wired.outputs (srcNamed ▸ srcStored) ?_ ?_
    · simp only [Output.removeLink, kept_eq, leaving_filter, srcNamed, outputNamed, outputListed]
    · intro region port other
      rw [kept_eq, leaving_filter, filter_ne_of_not_mem (wired.not_mem_leaving member ?_)]
      simpa [srcNamed, Output.removeLink, outputNamed] using other
  have inputs₂ : InputsList n₂.regions n.links := by
    refine InputsList.store_of_inputs wired.inputs fun y stored => ?_
    rw [Region.setOutput_name, srcNamed] at stored
    rw [wired.eq_of_mem stored srcStored]
    rfl
  -- the input: found in `n₂` under its names, listing the links entering it
  have destStored := mem_of_region destFound
  have destNamed : dest.name = l.endpoints.destRegion := stored₂.named _ destStored
  obtain ⟨inputStored, inputNamed⟩ :=
    Region.input_named (stored₂.portsNamed _ destStored) inputFound
  have inputListed : i.links = entering n.links l.endpoints.destRegion l.endpoints.destInput :=
    inputs₂ _ destStored _ inputStored
  have stored₃ : Stored m.regions := by
    rw [regions]
    exact stored₂.store (stored₂.portsNamed _ destStored).setInput
  have inputs₃ : InputsList m.regions m.links := by
    rw [regions, links]
    refine InputsList.setInput inputs₂ (destNamed ▸ destStored) ?_ ?_
    · simp only [Input.removeLink, Input.teardown, kept_eq, entering_filter, destNamed,
        inputNamed, inputListed]
    · intro region port other
      rw [kept_eq, entering_filter, filter_ne_of_not_mem (wired.not_mem_entering member ?_)]
      simpa [destNamed, Input.removeLink, Input.teardown, inputNamed] using other
  have outputs₃ : OutputsList m.regions m.links := by
    rw [regions, links]
    refine OutputsList.store_of_outputs outputs₂ fun y stored => ?_
    rw [Region.setInput_name, destNamed] at stored
    rw [stored₂.eq_of_mem stored destStored]
    rfl
  -- the links kept join ports that exist in `n`, and so after both stores
  have carried : ∀ x, n.Joins x → m.Joins x := by
    intro x joins
    have joins₂ : n₂.Joins x :=
      joins.replaceRegion (show n.region (src.setOutput (o.removeLink l.id)).name = .ok src from
        srcNamed ▸ srcFound) rfl (by simp)
    have joins₃ := joins₂.replaceRegion (show n₂.region (dest.setInput (i.removeLink l.id)).name =
      .ok dest from destNamed ▸ destFound) (by simp) rfl
    unfold Joins region at joins₃ ⊢
    rw [regions]
    exact joins₃
  have sublist : m.links.Sublist n.links := links ▸ List.filter_sublist
  refine ⟨stored₃, outputs₃, inputs₃, ?_, ?_, ?_, ?_⟩
  · exact fun x present => carried x (wired.ends x (sublist.subset present))
  · exact wired.endpointsApart.sublist (sublist.map _)
  · exact wired.increasing.sublist (sublist.map _)
  · intro id present
    have := wired.below id ((sublist.map _).subset present)
    omega

/-- The network with a region added at the end. -/
def appendRegion (n : Network) (r : Region) : Network :=
  { n with regions := ⟨n.regions.entries ++ [(r.name, r)]⟩ }

/-- The network with the regions of one name dropped. -/
def dropRegion (n : Network) (name : String) : Network :=
  { n with regions := ⟨n.regions.entries.filter (·.1 != name)⟩ }

/-- A region is found only under a name of the regions. -/
theorem mem_names_of_region {name : String} {r : Region} (found : n.region name = .ok r) :
    name ∈ n.regions.names := by
  unfold region at found
  split at found
  · rename_i located
    exact Collection.isSome_find?_iff.mp (by simp [located])
  · cases found

/-- In a wired network, no link leaves or enters a region of a name that is not taken. -/
theorem Wired.unlinked_of_not_mem
    (wired : n.Wired)
    {name : String}
    (missing : name ∉ n.regions.names)
    {x : Link}
    (member : x ∈ n.links) :
    x.endpoints.srcRegion ≠ name ∧ x.endpoints.destRegion ≠ name := by
  obtain ⟨⟨src, -, srcFound, -⟩, ⟨dest, -, destFound, -⟩⟩ := wired.ends x member
  exact ⟨fun same => missing (same ▸ mem_names_of_region srcFound),
    fun same => missing (same ▸ mem_names_of_region destFound)⟩

/-- Adding a region at the end leaves what is found under the names already taken. -/
theorem region_appendRegion_of_ok
    {r x : Region}
    {name : String}
    (found : n.region name = .ok x) :
    (n.appendRegion r).region name = .ok x := by
  unfold region at found ⊢
  split at found
  · rename_i located
    cases found
    simp only [Collection.find?, Option.map_eq_some_iff] at located
    obtain ⟨e, first, rfl⟩ := located
    simp [appendRegion, Collection.find?, List.find?_append, first]
  · cases found

/-- Dropping the regions of one name leaves what is found under the other names. -/
theorem region_dropRegion_of_ne
    {name other : String}
    (apart : other ≠ name) :
    (n.dropRegion name).region other = n.region other := by
  have sameSearch : (n.dropRegion name).regions.find? other = n.regions.find? other := by
    simp only [dropRegion, Collection.find?, List.find?_filter]
    congr 1
    refine List.find?_congr fun e _ => ?_
    by_cases key : e.1 = other
    · simp [key, apart]
    · simp [key]
  simp only [region, sameSearch]

/--
Adding a region under a new name, with its ports under their own names and listing no links,
keeps the wiring.
-/
theorem Wired.appendRegion
    (wired : n.Wired)
    {r : Region}
    (fresh : r.name ∉ n.regions.names)
    (portsNamed : r.PortsNamed)
    (noInputs : ∀ p ∈ r.inputs.entries, p.2.links = [])
    (noOutputs : ∀ p ∈ r.outputs.entries, p.2.links = []) :
    (n.appendRegion r).Wired := by
  -- no link reaches the new region, so its empty lists are the links at its ports
  have unreached := fun x member => wired.unlinked_of_not_mem fresh (x := x) member
  have placed : ∀ e ∈ (n.appendRegion r).regions.entries,
      e ∈ n.regions.entries ∨ e = (r.name, r) := by
    intro e member
    simp only [Network.appendRegion, List.mem_append, List.mem_singleton] at member
    exact member
  refine ⟨⟨?_, ?_, ?_⟩, ?_, ?_, ?_, wired.endpointsApart, wired.increasing, wired.below⟩
  · show ((n.regions.entries ++ [(r.name, r)]).map (·.1)).Nodup
    rw [List.map_append, List.map_singleton]
    exact wired.distinct.append (List.nodup_singleton _) (List.disjoint_singleton.mpr fresh)
  · intro e member
    rcases placed e member with old | rfl
    · exact wired.named e old
    · rfl
  · intro e member
    rcases placed e member with old | rfl
    · exact wired.portsNamed e old
    · exact portsNamed
  · intro e member p port
    rcases placed e member with old | rfl
    · exact wired.outputs e old p port
    · rw [noOutputs p port, eq_comm, List.eq_nil_iff_forall_not_mem]
      intro id listed
      obtain ⟨x, present, -, src, -⟩ := mem_leaving.mp listed
      exact (unreached x present).1 src
  · intro e member p port
    rcases placed e member with old | rfl
    · exact wired.inputs e old p port
    · rw [noInputs p port, eq_comm, List.eq_nil_iff_forall_not_mem]
      intro id listed
      obtain ⟨x, present, -, dest, -⟩ := mem_entering.mp listed
      exact (unreached x present).2 dest
  · intro x member
    obtain ⟨⟨src, o, srcFound, outputFound⟩, ⟨dest, i, destFound, inputFound⟩⟩ :=
      wired.ends x member
    exact ⟨⟨src, o, region_appendRegion_of_ok srcFound, outputFound⟩,
      ⟨dest, i, region_appendRegion_of_ok destFound, inputFound⟩⟩

/-- Dropping the regions of a name that no link leaves or enters keeps the wiring. -/
theorem Wired.dropRegion
    (wired : n.Wired)
    {name : String}
    (unlinked : ∀ x ∈ n.links, x.endpoints.srcRegion ≠ name ∧ x.endpoints.destRegion ≠ name) :
    (n.dropRegion name).Wired := by
  have kept : ∀ e ∈ (n.dropRegion name).regions.entries, e ∈ n.regions.entries :=
    fun e member => List.mem_of_mem_filter member
  refine ⟨⟨?_, fun e member => wired.named e (kept e member),
    fun e member => wired.portsNamed e (kept e member)⟩,
    fun e member => wired.outputs e (kept e member),
    fun e member => wired.inputs e (kept e member), ?_,
    wired.endpointsApart, wired.increasing, wired.below⟩
  · exact wired.distinct.sublist (List.filter_sublist.map _)
  · intro x member
    obtain ⟨⟨src, o, srcFound, outputFound⟩, ⟨dest, i, destFound, inputFound⟩⟩ :=
      wired.ends x member
    obtain ⟨srcApart, destApart⟩ := unlinked x member
    exact ⟨⟨src, o, by rw [region_dropRegion_of_ne srcApart]; exact srcFound, outputFound⟩,
      ⟨dest, i, by rw [region_dropRegion_of_ne destApart]; exact destFound, inputFound⟩⟩

/-- A network without regions and links is wired. -/
theorem Wired.of_empty (noRegions : n.regions.entries = []) (noLinks : n.links = []) : n.Wired :=
  ⟨⟨by simp [Collection.names, noRegions], by simp [noRegions], by simp [noRegions]⟩,
    by simp [OutputsList, noRegions], by simp [InputsList, noRegions], by simp [noLinks],
    by simp [noLinks], by simp [linkIds, noLinks], by simp [linkIds, noLinks]⟩

/-- The network with its topology forgotten: data released, induced dimensions and routing
dropped, no order, unconfigured. -/
def resetTopology (n : Network) : Network :=
  let forget (r : Region) : Region :=
    let r := r.teardown
    match r.source with
    | .induced _ => { r with dims := .unspecified, source := .unset }
    | _ => r
  { n with regions := ⟨n.regions.entries.map fun (k, r) => (k, forget r)⟩,
           links := n.links.map Link.reset, order := [], state := .unconfigured }

/-- Releasing a region's data keeps its plugs. -/
theorem Region.plugs_teardown (r : Region) : r.teardown.plugs = r.plugs := by
  simp [Region.teardown, Region.plugs, Input.plug, Output.plug, Input.teardown, Output.teardown,
    Function.comp_def]

/-- Forgetting the topology keeps the wiring. -/
theorem Wired.resetTopology (wired : n.Wired) : n.resetTopology.Wired := by
  refine wired.of_plugs_eq ?_ ?_ le_rfl
  · simp only [regionPlugs, Network.resetTopology, List.map_map]
    refine List.map_congr_left fun e _ => ?_
    obtain ⟨k, r⟩ := e
    simp only [Function.comp_apply, Prod.mk.injEq, true_and]
    -- forgetting induced dimensions does not touch the ports
    split
    · exact Region.plugs_teardown r
    · exact Region.plugs_teardown r
  · simp [Network.resetTopology, Function.comp_def, Link.plug, Link.reset]

end Changes

end Network

end RegionNet

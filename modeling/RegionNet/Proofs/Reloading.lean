import RegionNet.Proofs.SavedStates
import RegionNet.Proofs.StructureFile
import RegionNet.Proofs.Saving
import RegionNet.Proofs.CollectionIndex

namespace RegionNet

/-!
# Reading a saved bundle

A bundle is a directory holding each region's streams, under names made of the label, the region
and the stream, and then the structure file. This module reads such a directory the way a load
does. A name read in the directory finds the last file written under it
(`Files.Node.lookup_withFiles`). The names a save gives the streams of reference regions differ
from each other and from the structure file's (`streamFileName_eq_iff`), so each stream reads
back as it was written (`lookup_reverse_referenceFiles`). The structure file is read, parsed and
its version checked (`readDescription_run`), and each stream opens with the bytes written
(`openRead_bundleFile`).
-/

namespace Files.Node

/-- In a directory with files written one after another, a name finds the last file written under
it, or else what was there before. -/
theorem lookup_withFiles (cs : List (String × Node)) (files : List (String × ByteArray))
    (f : String) :
    (withFiles cs files).lookup f = ((files.reverse.lookup f).map Node.file).or (cs.lookup f) := by
  induction files generalizing cs with
  | nil => simp
  | cons entry rest ih =>
    obtain ⟨n, bytes⟩ := entry
    rw [withFiles_cons, ih, lookup_setEntry, List.reverse_cons, List.lookup_append]
    by_cases named : f = n
    · subst named
      cases rest.reverse.lookup f <;> simp
    · have unnamed : (f == n) = false := by simpa using named
      simp [named, List.lookup, unnamed]

end Files.Node

/-- A list looked up from its end finds the last entry of a name. -/
theorem lookup_reverse_of_last {α : Type} {pre later : List (String × α)} {f : String} {b : α}
    (unnamed : ∀ p ∈ later, p.1 ≠ f) :
    (pre ++ (f, b) :: later).reverse.lookup f = some b := by
  have missing : later.reverse.lookup f = none :=
    List.lookup_eq_none_iff.mpr fun p member => by
      simpa using (unnamed p (List.mem_reverse.mp member)).symm
  rw [List.reverse_append, List.reverse_cons, List.append_assoc, List.lookup_append, missing,
    Option.none_or, List.singleton_append, List.lookup_cons_self]

section Names

/-- The characters of a stream's file name. -/
theorem streamFileName_toList (label region stream : String) :
    (streamFileName label region stream).toList =
      label.toList ++ '.' :: region.toList ++ '.' :: stream.toList := by
  show (label ++ "." ++ region ++ "." ++ stream).toList = _
  simp

/-- Of two lists with a common end, the end of the one with the shorter end ends the other's. -/
theorem suffix_of_append_eq {xs ys u v : List Char} (same : xs ++ u = ys ++ v)
    (shorter : u.length ≤ v.length) : u <:+ v :=
  List.suffix_of_suffix_length_le (List.suffix_append xs u) (same ▸ List.suffix_append ys v)
    shorter

/-- The streams a reference region saves. -/
def ReferenceStream (stream : String) : Prop := stream = "main" ∨ stream = "aux"

/-- The files of two streams of a reference region under a label are the same only for the same
region and stream. -/
theorem streamFileName_eq_iff {label a b s s' : String} (named : ReferenceStream s)
    (named' : ReferenceStream s') :
    streamFileName label a s = streamFileName label b s' ↔ a = b ∧ s = s' := by
  constructor
  · intro same
    have chars := congrArg String.toList same
    simp only [streamFileName_toList, List.append_assoc, List.cons_append,
      List.append_cancel_left_eq, List.cons.injEq, true_and] at chars
    -- the two names end in their streams: the same stream, or one would end the other
    rcases named with rfl | rfl <;> rcases named' with rfl | rfl
    · exact ⟨String.toList_inj.mp (List.append_cancel_right chars), rfl⟩
    · exact absurd (suffix_of_append_eq chars.symm (by decide)) (by decide)
    · exact absurd (suffix_of_append_eq chars (by decide)) (by decide)
    · exact ⟨String.toList_inj.mp (List.append_cancel_right chars), rfl⟩
  · rintro ⟨rfl, rfl⟩
    rfl

/-- No stream of a reference region is saved under the structure file's name. -/
theorem streamFileName_ne_fileName {label region stream : String} (named : ReferenceStream stream) :
    streamFileName label region stream ≠ Description.fileName := by
  intro same
  have json : Description.fileName.toList = "network".toList ++ '.' :: "json".toList := by decide
  have chars := congrArg String.toList same
  rw [streamFileName_toList, json] at chars
  -- the name would end in the stream where the structure file's ends in its extension
  rcases named with rfl | rfl
  · exact absurd (suffix_of_append_eq chars (by decide)) (by decide)
  · exact absurd (suffix_of_append_eq chars (by decide)) (by decide)

end Names

section Files

/-- The files a region's streams are saved to under a label; none when they cannot be had. -/
def Region.savedFiles (r : Region) (label : String) : List (String × ByteArray) :=
  (r.streamFiles label).toOption.getD []

/-- Every file a region saves is one of its streams, named after the label and the region. -/
theorem Region.mem_savedFiles {r : Region} {label : String} {p : String × ByteArray}
    (member : p ∈ r.savedFiles label) :
    ∃ stream, ReferenceStream stream ∧ p.1 = streamFileName label r.name stream := by
  unfold savedFiles streamFiles at member
  cases saved : r.impl.streams with
  | error e => simp [saved, Except.map, Except.toOption] at member
  | ok ys =>
    simp only [saved, Except.map, Except.toOption, Option.getD_some, List.mem_map] at member
    obtain ⟨entry, inStreams, rfl⟩ := member
    exact ⟨entry.1, Implementation.streams_named saved entry inStreams, rfl⟩

/-- A region whose streams can be had saves them under their files. -/
theorem Region.streamFiles_eq {r : Region} {label : String} {ys : List (String × Bytes)}
    (saved : r.impl.streams = .ok ys) : r.streamFiles label = .ok (r.savedFiles label) := by
  simp [savedFiles, streamFiles, saved, Except.map, Except.toOption]

/-- The files of a bundle whose regions' streams can all be had: each region's files in the
order of the regions, then the structure file. -/
theorem Network.bundleFiles_eq {n : Network} {label : String}
    (saved : ∀ r ∈ n.regions.items, ∃ ys, r.impl.streams = .ok ys) :
    n.bundleFiles label = .ok ((n.regions.items.map (·.savedFiles label)).flatten ++
      [(Description.fileName, (Op.describe n label).text.toUTF8)]) := by
  have each := mapM_except_eq_ok_map (f := (·.streamFiles label)) n.regions.items
    fun r member => by
      obtain ⟨ys, streams⟩ := saved r member
      exact Region.streamFiles_eq streams
  simp [bundleFiles, each, bind, Except.bind, pure, Except.pure]

/-- The files of a reference region: its record, then its auxiliary stream. -/
theorem Region.savedFiles_reference {r : Region} {label : String} {st : Reference.State}
    (impl : r.impl = .reference st) :
    r.savedFiles label = [(streamFileName label r.name "main", ⟨Reference.encode st⟩),
      (streamFileName label r.name "aux", ⟨Bytes.ofString Reference.auxText⟩)] := by
  simp [savedFiles, streamFiles, impl, Implementation.streams, Reference.streams, Except.map,
    Except.toOption]

/-- No file that regions of other names save is named after a region's stream. -/
theorem savedFiles_apart {rs : List Region} {label region stream : String}
    (named : ReferenceStream stream) (others : region ∉ rs.map (·.name)) :
    ∀ p ∈ (rs.map (·.savedFiles label)).flatten,
      p.1 ≠ streamFileName label region stream := by
  intro p member same
  obtain ⟨files, inFiles, inList⟩ := List.mem_flatten.mp member
  obtain ⟨r, inRegions, rfl⟩ := List.mem_map.mp inFiles
  obtain ⟨stream', named', atFile⟩ := Region.mem_savedFiles inList
  have sameRegion := ((streamFileName_eq_iff named' named).mp (atFile.symm.trans same)).1
  exact others (List.mem_map.mpr ⟨r, inRegions, sameRegion⟩)

/-- A reference region's streams are its record and its auxiliary stream. -/
theorem Reference.mem_streams_named {st : Reference.State} {stream : String} {bytes : Bytes}
    (streamed : (stream, bytes) ∈ Reference.streams st) : ReferenceStream stream := by
  simp only [Reference.streams, List.mem_cons, Prod.mk.injEq, List.not_mem_nil, or_false]
    at streamed
  rcases streamed with ⟨rfl, -⟩ | ⟨rfl, -⟩
  · exact .inl rfl
  · exact .inr rfl

/-- Among the files of regions under names that differ, followed by files of other names, a
reference region's stream is found, read from the end, with the bytes it saves. -/
theorem lookup_reverse_referenceFiles {rs : List Region} {label : String} {later}
    (apart : (rs.map (·.name)).Nodup) {r : Region} (member : r ∈ rs) {st : Reference.State}
    (impl : r.impl = .reference st) {stream : String} {bytes : Bytes}
    (streamed : (stream, bytes) ∈ Reference.streams st)
    (unnamed : ∀ p ∈ later, p.1 ≠ streamFileName label r.name stream) :
    ((rs.map (·.savedFiles label)).flatten ++ later).reverse.lookup
      (streamFileName label r.name stream) = some ⟨bytes⟩ := by
  obtain ⟨pre, post, rfl⟩ := List.append_of_mem member
  have others : r.name ∉ post.map (·.name) := by
    rw [List.map_append, List.map_cons] at apart
    exact (List.nodup_cons.mp (List.nodup_append.mp apart).2.1).1
  have named := Reference.mem_streams_named streamed
  -- after the stream stand the region's other streams, the files of later regions, and the rest
  have after : ∀ p ∈ (post.map (·.savedFiles label)).flatten ++ later,
      p.1 ≠ streamFileName label r.name stream := by
    intro p inAfter
    rcases List.mem_append.mp inAfter with inPost | inLater
    · exact savedFiles_apart named others p inPost
    · exact unnamed p inLater
  simp only [List.map_append, List.map_cons, List.flatten_append, List.flatten_cons,
    Region.savedFiles_reference impl, List.append_assoc, List.cons_append, List.nil_append]
  simp only [Reference.streams, List.mem_cons, Prod.mk.injEq, List.not_mem_nil, or_false]
    at streamed
  rcases streamed with ⟨rfl, rfl⟩ | ⟨rfl, rfl⟩
  · apply lookup_reverse_of_last
    intro p inAfter
    rcases List.mem_cons.mp inAfter with rfl | inRest
    · intro same
      exact absurd ((streamFileName_eq_iff (.inr rfl) (.inl rfl)).mp same).2 (by decide)
    · exact after p inRest
  · rw [← List.singleton_append, ← List.append_assoc]
    exact lookup_reverse_of_last after

end Files

section Reading

open Files

variable {d name : String} {files : List (String × ByteArray)}

/-- A file of a bundle directory is read with the bytes last written under its name. -/
theorem node_bundleFile {fs : FileSystem} {f : String} {b : ByteArray} (atDir : DirPrefix d)
    (plainName : PlainName name) (plainFile : PlainName f)
    (bundle : fs.root.get (fs.absolute d ++ [name]) = .ok (.dir (Node.withFiles [] files)))
    (last : files.reverse.lookup f = some b) :
    fs.node (joinPath (d ++ name) f) = .ok (.file b) := by
  have joined : joinPath (d ++ name) f = d ++ name ++ "/" ++ f :=
    joinPath_of_plain (dirPart_ne_empty plainName) (getLast?_dirPart plainName) plainFile
  have named : joinPath (d ++ name) f ≠ "" := by
    rw [joined]
    exact dirPart_ne_empty plainFile
  rw [FileSystem.node_eq_get named, FileSystem.absolute, resolve_joinPath fs.cwd atDir plainName
    plainFile, ← List.singleton_append, ← List.append_assoc]
  change fs.root.get (fs.absolute d ++ [name] ++ [f]) = _
  rw [Node.get_concat bundle]
  simp [Node.get, Node.lookup_withFiles, last]

/-- The UTF-8 bytes of a text read back as the text. -/
theorem fromUTF8?_toByteArray (s : String) : String.fromUTF8? s.toByteArray = some s := by
  simp [String.fromUTF8?, s.isValidUTF8, String.fromUTF8]

/-- The structure file of a bundle, holding the text of a description that reads back and is of
the current version, is read as that description, and the session stays as it was. -/
theorem readDescription_run {t : Session} {desc : Description} (atDir : DirPrefix d)
    (plainName : PlainName name)
    (bundle : t.files.root.get (t.files.absolute d ++ [name]) =
      .ok (.dir (Node.withFiles [] files)))
    (last : files.reverse.lookup Description.fileName = some desc.text.toUTF8)
    (readable : desc.Readable) (current : desc.version = Description.formatVersion) :
    EStateM.run (Op.readDescription (d ++ name)) t = .ok desc t := by
  have found := node_bundleFile atDir plainName Op.plainName_description bundle last
  have isFile : t.files.isFile (joinPath (d ++ name) Description.fileName) = true := by
    simp [FileSystem.isFile, found]
  have text : t.files.readText (joinPath (d ++ name) Description.fileName) = .ok desc.text := by
    simp [FileSystem.readText, FileSystem.read, found, bind, Except.bind, pure, Except.pure,
      fromUTF8?_toByteArray]
  simp [Op.readDescription, EStateM.run_bind, isFile, text, Description.parse_text readable,
    current]

/-- The streams a load opens for a region of a bundle under a label. -/
def Bundle.Streams.reading (path label region : String) : Bundle.Streams :=
  { bundlePath := path, label, region, mode := .read }

/-- A stream of a bundle opens with the bytes last written under its file. -/
theorem openRead_bundleFile {fs : FileSystem} {label region stream : String} {bytes : Bytes}
    (atDir : DirPrefix d) (plainName : PlainName name)
    (plainFile : PlainName (streamFileName label region stream))
    (bundle : fs.root.get (fs.absolute d ++ [name]) = .ok (.dir (Node.withFiles [] files)))
    (last : files.reverse.lookup (streamFileName label region stream) = some ⟨bytes⟩) :
    (Bundle.Streams.reading (d ++ name) label region).openRead fs stream = .ok (.ok bytes) := by
  have found := node_bundleFile atDir plainName plainFile bundle last
  have path : (Bundle.Streams.reading (d ++ name) label region).path stream =
      joinPath (d ++ name) (streamFileName label region stream) := rfl
  have mode : (Bundle.Streams.reading (d ++ name) label region).checkMode .read stream = .ok () :=
    rfl
  simp [Bundle.Streams.openRead, mode, path, found, bind, Except.bind, pure, Except.pure]

end Reading

section Restoring

/-- A factory that makes the reference type, as the built-in of its name, and keeps no other
declaration for it. -/
structure Factory.MakesReference (f : Factory) : Prop where
  builtin : f.builtins.lookup Reference.typeName = some .reference
  cached : ∀ spec, f.specCache.lookup Reference.typeName = some spec → spec = Reference.spec

/-- A new factory makes the reference type. -/
theorem Factory.makesReference_new (settings : Config.ModuleSettings) :
    (Factory.new settings).MakesReference where
  builtin := by simp [Factory.new]
  cached := by simp [Factory.new]

/-- A factory that makes the reference type restores a region of it from streams its state is
restored from, with the reference declaration and no module; it keeps making the type. -/
theorem Factory.restore_reference {f : Factory} (makes : f.MakesReference) {regionName : String}
    {openStream : String → Except EngineError Bundle.Contents} {st : Reference.State}
    (restored : Reference.restore openStream regionName = .ok st) :
    ∃ f', f'.MakesReference ∧
      f.restore Reference.typeName regionName openStream =
        (f', .ok ⟨.reference st, Reference.spec, none⟩) := by
  have made : RegionKind.reference.restore openStream regionName Reference.typeName =
      .ok (.reference st) := by
    simp [RegionKind.restore, restored, Functor.map, Except.map]
  cases cached : f.specCache.lookup Reference.typeName with
  | some spec =>
    obtain rfl := makes.cached spec cached
    refine ⟨f, makes, ?_⟩
    simp [Factory.restore, Factory.build, Factory.resolve, Factory.getSpec, makes.builtin, cached,
      made]
  | none =>
    -- the declaration is kept from now on
    refine ⟨{ f with specCache := f.specCache ++ [(Reference.typeName, Reference.spec)] },
      ⟨makes.builtin, fun spec found => ?_⟩, ?_⟩
    · simp [List.lookup_append, cached] at found
      exact found.symm
    · simp [Factory.restore, Factory.build, Factory.resolve, Factory.getSpec, makes.builtin,
        cached, made, RegionKind.spec]

/-- The reference type is not limited to one node. -/
theorem Reference.spec_singleNodeOnly : Reference.spec.singleNodeOnly = false := rfl

/-- The region a load rebuilds from a saved reference region's record and its restored state: a
new region of the reference declaration, with the saved dimensions made explicit when they are
specified, and the saved phases, or phase 0 if none were saved. -/
def RegionRecord.reloaded (saved : RegionRecord) (impl : Implementation) : Region :=
  let fresh := Region.new saved.name saved.nodeType Reference.spec impl none
  let placed : Region := if (⟨saved.dims⟩ : Dimensions).isSpecified then
      { fresh with dims := ⟨saved.dims⟩, source := .explicit } else fresh
  { placed with phases := if saved.phases.isEmpty then [0] else saved.phases }

/-- A saved reference region under a valid name not yet taken, whose state its streams restore,
is rebuilt and added after the regions there; the factory keeps making the type. -/
theorem restoreRegion_run {u : Session} {path label : String} {saved : RegionRecord}
    {st : Reference.State} (nonempty : saved.name ≠ "") (noSlash : '/' ∉ saved.name.toList)
    (noBackslash : '\\' ∉ saved.name.toList)
    (absent : u.network.regions.contains saved.name = false)
    (typed : saved.nodeType = Reference.typeName) (makes : u.host.factory.MakesReference)
    (restored : Reference.restore ((Bundle.Streams.reading path label saved.name).openRead u.files)
      saved.name = .ok st) :
    ∃ f, f.MakesReference ∧ EStateM.run (Op.restoreRegion path label saved) u =
      .ok () { u with
        host := { u.host with factory := f }
        network := { u.network with
          regions := ⟨u.network.regions.entries ++
            [(saved.name, saved.reloaded (.reference st))]⟩ } } := by
  obtain ⟨f, makes', made⟩ := Factory.restore_reference makes restored
  refine ⟨f, makes', ?_⟩
  obtain ⟨name, nodeType, dims, phases⟩ := saved
  subst typed
  simp only at nonempty noSlash noBackslash absent made ⊢
  -- the streams the load opens are those of the region in the bundle
  have opened : u.host.factory.restore Reference.typeName name
      (({ bundlePath := path, label, region := name, mode := .read } : Bundle.Streams).openRead
        u.files) = (f, .ok ⟨.reference st, Reference.spec, none⟩) := made
  simp [Op.restoreRegion, Op.validateRegionName, EStateM.run_bind, String.contains_char_eq,
    nonempty, noSlash, noBackslash, Op.network_run, absent, opened, Op.stepFactory, Op.lift]
  -- a reference region takes any dimensions
  by_cases specified : (⟨dims⟩ : Dimensions).isSpecified = true
  · simp [specified, Region.setDimensions, Region.new, Reference.spec_singleNodeOnly,
      Op.addRegionValue, Op.modifyNetwork, RegionRecord.reloaded]
  · simp [specified, Region.new, Op.addRegionValue, Op.modifyNetwork, RegionRecord.reloaded]

/-- What a save records of a region. -/
def Region.record (r : Region) : RegionRecord :=
  { name := r.name, nodeType := r.typeName, dims := r.dims.axes, phases := r.phases }

@[simp] theorem Region.record_name (r : Region) : r.record.name = r.name := rfl

@[simp] theorem Region.record_nodeType (r : Region) : r.record.nodeType = r.typeName := rfl

@[simp] theorem Region.record_dims (r : Region) : r.record.dims = r.dims.axes := rfl

@[simp] theorem Region.record_phases (r : Region) : r.record.phases = r.phases := rfl

/-- A region as a load can rebuild it: of the reference type and declaration, under a name a
region may have, with phases, and with a state whose record reads back and carries the type's
cookie. -/
structure Region.Reloadable (r : Region) : Prop where
  nonempty : r.name ≠ ""
  noSlash : '/' ∉ r.name.toList
  noBackslash : '\\' ∉ r.name.toList
  typed : r.typeName = Reference.typeName
  declared : r.spec = Reference.spec
  phased : r.phases ≠ []
  state : ∃ st, r.impl = .reference st ∧ st.Recordable ∧ st.cookie = Reference.cookie

/-- Saved reference regions restored one after another, under names apart from each other and
from the regions there, are added rebuilt in their order; the factory keeps making the type. -/
theorem restoreRegions_run {path label : String} {rs : List Region}
    (reloadable : ∀ r ∈ rs, r.Reloadable) :
    ∀ {u : Session}, (u.network.regions.names ++ rs.map (·.name)).Nodup →
      u.host.factory.MakesReference →
      (∀ r ∈ rs, ∀ st, r.impl = .reference st →
        Reference.restore ((Bundle.Streams.reading path label r.name).openRead u.files) r.name =
          .ok st) →
      ∃ f, f.MakesReference ∧
        EStateM.run (forIn (rs.map Region.record) PUnit.unit fun saved _ => do
          Op.restoreRegion path label saved
          pure (ForInStep.yield PUnit.unit)) u =
        .ok () { u with
          host := { u.host with factory := f }
          network := { u.network with
            regions := ⟨u.network.regions.entries ++
              rs.map fun r => (r.name, r.record.reloaded r.impl)⟩ } } := by
  induction rs with
  | nil =>
    intro u _ makes _
    exact ⟨u.host.factory, makes, by simp⟩
  | cons r rest ih =>
    intro u apart makes restores
    have first := reloadable r List.mem_cons_self
    obtain ⟨st, impl, -, -⟩ := first.state
    have absent : u.network.regions.contains r.name = false := by
      rw [Bool.eq_false_iff, ne_eq, Collection.contains_iff]
      intro present
      exact (List.nodup_append.mp apart).2.2 r.name present r.name (by simp) rfl
    obtain ⟨f₁, makes₁, ran₁⟩ :=
      @restoreRegion_run u path label r.record st first.nonempty
        first.noSlash first.noBackslash absent first.typed makes
        (restores r List.mem_cons_self st impl)
    -- the rest is restored from the session with the first region added
    have apart₁ : ({ u.network.regions with entries := u.network.regions.entries ++
        [(r.name, r.record.reloaded r.impl)] } : Collection Region).names ++ rest.map (·.name) =
        u.network.regions.names ++ (r :: rest).map (·.name) := by
      simp [Collection.names]
    obtain ⟨f, makes', ran⟩ :=
      @ih (fun x member => reloadable x (List.mem_cons_of_mem r member))
        { u with
          host := { u.host with factory := f₁ }
          network := { u.network with
            regions := ⟨u.network.regions.entries ++ [(r.name, r.record.reloaded r.impl)]⟩ } }
        (by rw [apart₁]; exact apart) makes₁
        (fun x member => restores x (List.mem_cons_of_mem r member))
    refine ⟨f, makes', ?_⟩
    rw [← impl] at ran₁
    rw [List.map_cons, List.forIn_cons, EStateM.run_bind, EStateM.run_bind, ran₁]
    simpa using ran

end Restoring

end RegionNet

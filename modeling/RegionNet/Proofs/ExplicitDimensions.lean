import RegionNet.Proofs.Integrity

set_option mvcgen.warning false

namespace RegionNet

open Std.Do

/-!
# Explicit dimensions stay set

A region's dimensions come from one of three places: none yet, set explicitly, or induced through
a link. Only induction and forgetting the topology change dimensions other than the region's own
setting; forgetting clears only induced dimensions, and induction writes only into a region whose
dimensions at the link's end are not specified. Explicit dimensions that are specified are
therefore kept by every command but setting that region's dimensions and removing it
(`Network.Pinned`, `Command.keeps_pinned`). Explicit dimensions that are not specified, such as
`Dimensions.dontcare`, are kept by every command that does not induce.
-/

namespace Region

/-- A region's name with its dimensions and where they came from. -/
def dimensioned (r : Region) : String × Dimensions × DimensionSource := (r.name, r.dims, r.source)

variable {r r' : Region}

@[simp] theorem setInput_dimensioned (i : Input) : (r.setInput i).dimensioned = r.dimensioned := rfl

@[simp] theorem setOutput_dimensioned (o : Output) :
    (r.setOutput o).dimensioned = r.dimensioned := rfl

@[simp] theorem init_dimensioned : r.init.dimensioned = r.dimensioned := rfl

@[simp] theorem teardown_dimensioned : r.teardown.dimensioned = r.dimensioned := rfl

/-- Setting dimensions keeps the name and sets the dimensions and their source. -/
theorem setDimensions_eq_ok {dims : Dimensions} {source : DimensionSource}
    (set : r.setDimensions dims source = .ok r') :
    r'.name = r.name ∧ r'.dims = dims ∧ r'.source = source := by
  unfold setDimensions at set
  split at set
  · cases set
  · cases set
    exact ⟨rfl, rfl, rfl⟩

/-- Computing keeps a region's name and dimensions. -/
theorem compute_dimensioned (computed : r.compute = .ok r') : r'.dimensioned = r.dimensioned := by
  obtain ⟨impl, io, -, rfl⟩ := compute_eq_ok computed
  rfl

/-- Sizing all outputs keeps a region's name and dimensions. -/
theorem sizeOutputs_dimensioned : r.sizeOutputs.1.dimensioned = r.dimensioned := by
  obtain ⟨outputs, sized⟩ := sizeOutputs_outputs (r := r)
  rw [sized]
  rfl

/-- Setting a parameter keeps a region's name and dimensions. -/
theorem setParameter_dimensioned {name : String} {v : ParameterValue}
    (set : r.setParameter name v = .ok r') :
    r'.dimensioned = r.dimensioned := by
  obtain ⟨impl, rfl⟩ := setParameter_eq_ok set
  rfl

/-- Running a command keeps a region's name and dimensions. -/
theorem executeCommand_dimensioned (args : List String) :
    (r.executeCommand args).1.dimensioned = r.dimensioned := by
  obtain ⟨impl, executeCalls, ran⟩ := executeCommand_fst (r := r) args
  rw [ran]
  rfl

end Region

namespace Collection

/--
The region under `name` is there with dimensions `dims` set explicitly; so is every region
stored under that name or named so.
-/
structure Pinned (regions : Collection Region) (name : String) (dims : Dimensions) : Prop where
  present : name ∈ regions.names
  pinned : ∀ e ∈ regions.entries, (e.1 = name ∨ e.2.name = name) →
    e.2.dims = dims ∧ e.2.source = .explicit

variable {regions : Collection Region} {name : String} {dims : Dimensions}

namespace Pinned

/-- A region stored under some name, if of the pinned name, has the pinned dimensions. -/
theorem fits
    (pinned : regions.Pinned name dims)
    {k : String}
    {old r : Region}
    (stored : (k, old) ∈ regions.entries)
    (same : r.dimensioned = old.dimensioned) :
    r.name = name → r.dims = dims ∧ r.source = .explicit := by
  intro named
  simp only [Region.dimensioned, Prod.mk.injEq] at same
  obtain ⟨sameName, sameDims, sameSource⟩ := same
  rw [sameDims, sameSource]
  exact pinned.pinned _ stored (.inr (sameName ▸ named))

/-- A collection with a pinned region is not empty. -/
theorem isEmpty_eq_false (pinned : regions.Pinned name dims) : regions.isEmpty = false := by
  obtain ⟨e, stored, -⟩ := List.mem_map.mp pinned.present
  simp only [isEmpty, List.isEmpty_eq_false_iff]
  exact List.ne_nil_of_mem stored

/-- Storing a region keeps pinned dimensions when the region, of the pinned name, has them. -/
theorem store
    (pinned : regions.Pinned name dims)
    {r : Region}
    (fits : r.name = name → r.dims = dims ∧ r.source = .explicit) :
    (regions.store r.name r).Pinned name dims where
  present := by simpa using pinned.present
  pinned := by
    intro e stored named
    rcases mem_store stored with ⟨key, rfl, -⟩ | ⟨-, before⟩
    · -- the stored region sits under its own name
      exact fits (named.elim (key ▸ ·) (·))
    · exact pinned.pinned e before named

/-- Adding a region of another name keeps pinned dimensions. -/
theorem append (pinned : regions.Pinned name dims) {r : Region} (other : r.name ≠ name) :
    (⟨regions.entries ++ [(r.name, r)]⟩ : Collection Region).Pinned name dims where
  present := by
    simp only [names, List.map_append, List.mem_append]
    exact .inl pinned.present
  pinned := by
    intro e stored named
    rcases List.mem_append.mp stored with before | added
    · exact pinned.pinned e before named
    · rw [List.mem_singleton] at added
      subst added
      exact (other (or_self_iff.mp named)).elim

/-- Dropping the regions of another name keeps pinned dimensions. -/
theorem filter (pinned : regions.Pinned name dims) {k : String} (other : k ≠ name) :
    (⟨regions.entries.filter (·.1 != k)⟩ : Collection Region).Pinned name dims where
  present := by
    obtain ⟨⟨key, r⟩, stored, rfl⟩ := List.mem_map.mp pinned.present
    exact List.mem_map.mpr ⟨(key, r), List.mem_filter.mpr ⟨stored, by simpa using other.symm⟩, rfl⟩
  pinned := fun e stored => pinned.pinned e (List.mem_filter.mp stored).1

/-- Changing every region in a way that keeps its name and dimensions keeps pinned dimensions. -/
theorem map
    (pinned : regions.Pinned name dims)
    (f : Region → Region)
    (same : ∀ r, (f r).dimensioned = r.dimensioned) :
    (⟨regions.entries.map fun (k, r) => (k, f r)⟩ : Collection Region).Pinned name dims where
  present := by simpa [names, Function.comp_def] using pinned.present
  pinned := by
    intro e stored named
    obtain ⟨⟨k, r⟩, before, rfl⟩ := List.mem_map.mp stored
    have kept := same r
    simp only [Region.dimensioned, Prod.mk.injEq] at kept
    obtain ⟨sameName, sameDims, sameSource⟩ := kept
    rw [sameDims, sameSource]
    exact pinned.pinned _ before (by rwa [sameName] at named)

end Pinned

end Collection

/-- A link end showing unknown dimensions lies on a region of unknown dimensions: a region-level
port shows one node. -/
theorem unknown_of_shown
    {r : Region}
    {regionLevel : Bool}
    {d : Dimensions}
    (shown : d = if regionLevel then Dimensions.ones 1 else r.dims)
    (unknown : d.isSpecified = false) :
    r.dims.isSpecified = false := by
  subst shown
  split at unknown
  · cases unknown
  · exact unknown

namespace Network

variable {n : Network} {name : String} {dims : Dimensions}

/-- The region under a pinned name has the pinned dimensions, set explicitly. -/
theorem region_of_pinned (pinned : n.regions.Pinned name dims) :
    ∃ r, n.region name = .ok r ∧ r.dims = dims ∧ r.source = .explicit := by
  obtain ⟨r, found⟩ := region_isOk_iff.mpr pinned.present
  exact ⟨r, found, pinned.pinned _ (mem_of_region found) (.inl rfl)⟩

/-- In a wired network a region with explicit dimensions pins them. -/
theorem pinned_of_region
    (wired : n.Wired)
    {r : Region}
    (found : n.region name = .ok r)
    (explicit : r.source = .explicit) :
    n.regions.Pinned name r.dims where
  present := mem_names_of_region found
  pinned := by
    rintro ⟨k, x⟩ stored named
    -- in a wired network both say that `k` is the name
    have atName : k = name := by
      rcases named with key | named
      · exact key
      · exact (wired.named _ stored).symm.trans named
    subst atName
    obtain rfl := wired.toStored.eq_of_mem stored (mem_of_region found)
    exact ⟨rfl, explicit⟩

/-- A region of a wired network found under a name, given dimensions, keeps that name. -/
theorem Wired.setDimensions_name
    (wired : n.Wired)
    {k : String}
    {old r : Region}
    {newDims : Dimensions}
    {source : DimensionSource}
    (found : n.region k = .ok old)
    (set : old.setDimensions newDims source = .ok r) :
    r.name = k :=
  (Region.setDimensions_eq_ok set).1.trans (wired.named _ (mem_of_region found))
end Network

namespace Collection.Pinned

variable {n : Network} {name : String} {dims : Dimensions}

/-- A region made from one found under some name, with its name and dimensions, if of the pinned
name has the pinned dimensions. -/
theorem fitsFound
    {k : String}
    {old r : Region}
    (found : n.region k = .ok old)
    (pinned : n.regions.Pinned name dims)
    (same : r.dimensioned = old.dimensioned) :
    r.name = name → r.dims = dims ∧ r.source = .explicit :=
  pinned.fits (Network.mem_of_region found) same

/-- Adding a region under a new name keeps pinned dimensions. -/
theorem appendRegion
    (pinned : n.regions.Pinned name dims)
    {r : Region}
    {k : String}
    (named : r.name = k)
    (fresh : ¬n.regions.contains k = true) :
    (n.appendRegion r).regions.Pinned name dims :=
  pinned.append fun atName => Collection.not_mem_names fresh (named ▸ atName ▸ pinned.present)

/-- A region written with new dimensions, whose dimensions were unknown, is not the pinned one
when the pinned dimensions are specified. -/
theorem fitsUnknown
    (specified : dims.isSpecified = true)
    (pinned : n.regions.Pinned name dims)
    {k : String}
    {target r : Region}
    {newDims : Dimensions}
    {source : DimensionSource}
    (found : n.region k = .ok target)
    (unknown : target.dims.isSpecified = false)
    (set : target.setDimensions newDims source = .ok r) :
    r.name = name → r.dims = dims ∧ r.source = .explicit := by
  intro named
  have kept := pinned.pinned _ (Network.mem_of_region found)
    (.inr ((Region.setDimensions_eq_ok set).1 ▸ named))
  rw [kept.1, specified] at unknown
  cases unknown

/-- Induction into a link's destination, whose end showed unknown dimensions, writes a region that
is not pinned. -/
theorem fitsInducedDestination
    (specified : dims.isSpecified = true)
    (pinned : n.regions.Pinned name dims)
    {k input : String}
    {dest target r : Region}
    {sd dd newDims : Dimensions}
    {source : DimensionSource}
    (shown : destinationDimensions dest input = .ok dd)
    (found : n.region k = .ok dest)
    (differ : ¬(sd.isSpecified == dd.isSpecified) = true)
    (known : sd.isSpecified = true)
    (again : n.region k = .ok target)
    (set : target.setDimensions newDims source = .ok r) :
    r.name = name → r.dims = dims ∧ r.source = .explicit := by
  have unknown : dd.isSpecified = false := by simpa [known] using differ
  obtain rfl : target = dest := Except.ok.inj (again.symm.trans found)
  obtain ⟨_, -, port⟩ := destinationDimensions_eq_ok shown
  exact pinned.fitsUnknown specified found (unknown_of_shown port unknown) set

/-- Induction into a link's source, whose end showed unknown dimensions, writes a region that is
not pinned. -/
theorem fitsInducedSource
    (specified : dims.isSpecified = true)
    (pinned : n.regions.Pinned name dims)
    {k output : String}
    {src target r : Region}
    {sd newDims : Dimensions}
    {source : DimensionSource}
    (shown : sourceDimensions src output = .ok sd)
    (found : n.region k = .ok src)
    (unknown : ¬sd.isSpecified = true)
    (again : n.region k = .ok target)
    (set : target.setDimensions newDims source = .ok r) :
    r.name = name → r.dims = dims ∧ r.source = .explicit := by
  obtain rfl : target = src := Except.ok.inj (again.symm.trans found)
  obtain ⟨_, -, port⟩ := sourceDimensions_eq_ok shown
  exact pinned.fitsUnknown specified found (unknown_of_shown port (by simpa using unknown)) set

/-- Forgetting the topology clears induced dimensions only, so it keeps pinned ones. -/
theorem resetTopology (pinned : n.regions.Pinned name dims) :
    n.resetTopology.regions.Pinned name dims where
  present := by simpa using pinned.present
  pinned := by
    intro e stored named
    obtain ⟨⟨k, r⟩, before, rfl⟩ := List.mem_map.mp stored
    have forgotten := pinned.pinned _ before
    -- a region of the pinned name was set explicitly, so it is only torn down
    cases source : r.source <;> simp_all [Region.teardown]



end Collection.Pinned


namespace Op

variable {pinnedName : String} {dims : Dimensions} (specified : dims.isSpecified = true)

/-- What a triple promises of every outcome holds of the session an operation leaves. -/
theorem leaves_of_triple
    {α : Type}
    {x : Op α}
    {P Q : Session → Prop}
    (spec : ⦃fun s => ⌜P s⌝⦄ x ⦃always Q⦄)
    {s : Session}
    (holds : P s) :
    Q (x.leaves s) := by
  have kept := run_of_triple spec holds
  unfold leaves
  split <;> simp_all

/-- What keeps pinned dimensions from any network keeps them from a wired one. -/
theorem pinned_of_wired
    {α : Type}
    {x : Op α}
    (spec : ⦃fun s => ⌜s.network.regions.Pinned pinnedName dims⌝⦄ x
      ⦃always (·.network.regions.Pinned pinnedName dims)⦄) :
    ⦃fun s => ⌜s.network.Wired ∧ s.network.regions.Pinned pinnedName dims⌝⦄ x
    ⦃always (·.network.regions.Pinned pinnedName dims)⦄ := by
  intro s held
  exact spec s held.2

theorem putRegion_pinned (r : Region) :
    ⦃fun s => ⌜s.network.regions.Pinned pinnedName dims ∧
      (r.name = pinnedName → r.dims = dims ∧ r.source = .explicit)⌝⦄
    putRegion r
    ⦃always (·.network.regions.Pinned pinnedName dims)⦄ := by
  mvcgen [putRegion_spec]
  exact Collection.Pinned.store ‹_ ∧ _›.1 ‹_ ∧ _›.2

theorem resetTopology_pinned :
    ⦃fun s => ⌜s.network.regions.Pinned pinnedName dims⌝⦄ resetTopology
    ⦃always (·.network.regions.Pinned pinnedName dims)⦄ := by
  mvcgen [-resetTopology_keeps, resetTopology_spec]
  exact Collection.Pinned.resetTopology ‹_›

theorem stepLink_pinned {α : Type} (r : Link × Except EngineError α) :
    ⦃fun s => ⌜s.network.regions.Pinned pinnedName dims⌝⦄ stepLink r
    ⦃always (·.network.regions.Pinned pinnedName dims)⦄ := by
  mvcgen [stepLink, -stepLink_keeps, lift]

theorem eachRegion_pinned (f : Region → Region) (same : ∀ r, (f r).dimensioned = r.dimensioned) :
    ⦃fun s => ⌜s.network.regions.Pinned pinnedName dims⌝⦄ eachRegion f
    ⦃always (·.network.regions.Pinned pinnedName dims)⦄ := by
  mvcgen [eachRegion, -eachRegion_keeps]
  exact Collection.Pinned.map ‹_› f same

theorem connect_pinned (src out dest inp policyType params : String) :
    ⦃fun s => ⌜s.network.regions.Pinned pinnedName dims⌝⦄ connect src out dest inp policyType params
    ⦃always (·.network.regions.Pinned pinnedName dims)⦄ := by
  mvcgen [connect, -connect_keeps, -resetTopology_keeps, resetTopology_pinned, putRegion_pinned,
    region, lift]
  all_goals exact ⟨‹_›, Collection.Pinned.fitsFound ‹_› ‹_› (by rfl)⟩

theorem detachLink_pinned (id : Nat) :
    ⦃fun s => ⌜s.network.regions.Pinned pinnedName dims⌝⦄ detachLink id
    ⦃always (·.network.regions.Pinned pinnedName dims)⦄ := by
  mvcgen [detachLink, -detachLink_keeps, putRegion_pinned, link, lift]
  all_goals exact ⟨‹_›, Collection.Pinned.fits ‹_› (Collection.mem_of_find? ‹_›) (by rfl)⟩

theorem disconnect_pinned (src out dest inp : String) :
    ⦃fun s => ⌜s.network.regions.Pinned pinnedName dims⌝⦄ disconnect src out dest inp
    ⦃always (·.network.regions.Pinned pinnedName dims)⦄ := by
  mvcgen [disconnect, -disconnect_keeps, -detachLink_keeps, -resetTopology_keeps, detachLink_pinned,
    resetTopology_pinned, region, lift]

theorem removeRegion_pinned {k : String} (other : k ≠ pinnedName) :
    ⦃fun s => ⌜s.network.regions.Pinned pinnedName dims⌝⦄ removeRegion k
    ⦃always (·.network.regions.Pinned pinnedName dims)⦄ := by
  have detached := @detachLink_pinned pinnedName dims
  mvcgen [removeRegion, -removeRegion_keeps, -detachLink_keeps, -resetTopology_keeps,
    detached, resetTopology_pinned, region, lift] invariants
  · always (·.network.regions.Pinned pinnedName dims)
  exact Collection.Pinned.filter ‹_› other

theorem addRegion_pinned (k typeName params : String) :
    ⦃fun s => ⌜s.network.regions.Pinned pinnedName dims⌝⦄ addRegion k typeName params
    ⦃always (·.network.regions.Pinned pinnedName dims)⦄ := by
  mvcgen [addRegion, -addRegion_keeps, -resetTopology_keeps, checkNewRegion, validateRegionName,
    stepFactory, lift, addRegionValue_spec, resetTopology_pinned]
  exact Collection.Pinned.appendRegion ‹_› rfl ‹_›

theorem setPhases_pinned (k : String) (phases : List UInt32) :
    ⦃fun s => ⌜s.network.regions.Pinned pinnedName dims⌝⦄ setPhases k phases
    ⦃always (·.network.regions.Pinned pinnedName dims)⦄ := by
  mvcgen [setPhases, -setPhases_keeps, region, lift, putRegion_pinned]
  all_goals exact ⟨‹_›, Collection.Pinned.fitsFound ‹_› ‹_› (by rfl)⟩

theorem setParameter_pinned (k param : String) (v : ParameterValue) :
    ⦃fun s => ⌜s.network.regions.Pinned pinnedName dims⌝⦄ setParameter k param v
    ⦃always (·.network.regions.Pinned pinnedName dims)⦄ := by
  mvcgen [setParameter, -setParameter_keeps, region, lift, putRegion_pinned]
  all_goals exact ⟨‹_›, Collection.Pinned.fitsFound ‹_› ‹_› (Region.setParameter_dimensioned ‹_›)⟩

theorem executeCommand_pinned (k : String) (args : List String) :
    ⦃fun s => ⌜s.network.regions.Pinned pinnedName dims⌝⦄ executeCommand k args
    ⦃always (·.network.regions.Pinned pinnedName dims)⦄ := by
  mvcgen [executeCommand, -executeCommand_keeps, region, lift, stepRegion, putRegion_pinned]
  all_goals exact ⟨‹_›, Collection.Pinned.fitsFound ‹_› ‹_› (Region.executeCommand_dimensioned _)⟩

theorem addCallback_pinned (k : String) :
    ⦃fun s => ⌜s.network.regions.Pinned pinnedName dims⌝⦄ addCallback k
    ⦃always (·.network.regions.Pinned pinnedName dims)⦄ := by
  mvcgen [addCallback, -addCallback_keeps, lift]

theorem removeCallback_pinned (k : String) :
    ⦃fun s => ⌜s.network.regions.Pinned pinnedName dims⌝⦄ removeCallback k
    ⦃always (·.network.regions.Pinned pinnedName dims)⦄ := by
  mvcgen [removeCallback, -removeCallback_keeps, lift]

theorem addRegionFromBundle_pinned (k typeName : String) (newDims : Dimensions) (path label : String) :
    ⦃fun s => ⌜s.network.regions.Pinned pinnedName dims⌝⦄
    addRegionFromBundle k typeName newDims path label
    ⦃always (·.network.regions.Pinned pinnedName dims)⦄ := by
  mvcgen [addRegionFromBundle, -addRegionFromBundle_keeps, -resetTopology_keeps, checkNewRegion,
    validateRegionName, stepFactory, lift, addRegionValue_spec, resetTopology_pinned, region]
  obtain ⟨named, -, -⟩ := Region.setDimensions_eq_ok ‹_›
  exact Collection.Pinned.appendRegion ‹_› named ‹_›

theorem setRegionDimensions_pinned {k : String} (other : k ≠ pinnedName) (newDims : Dimensions) :
    ⦃fun s => ⌜s.network.Wired ∧ s.network.regions.Pinned pinnedName dims⌝⦄
    setRegionDimensions k newDims
    ⦃always (·.network.regions.Pinned pinnedName dims)⦄ := by
  mvcgen [setRegionDimensions, -setRegionDimensions_keeps, -resetTopology_keeps, region, lift,
    putRegion_pinned, resetTopology_pinned]
  -- the region set is the one of its own name, not the pinned one
  all_goals first
    | exact ‹_ ∧ _›.2
    | exact ⟨‹_ ∧ _›.2, fun named =>
        (other ((Network.Wired.setDimensions_name ‹_ ∧ _›.1 ‹_› ‹_›).symm.trans named)).elim⟩

section Checkpoint

theorem changeFiles_pinned (f : Files.FileSystem → Except Files.IoError Files.FileSystem) :
    ⦃fun s => ⌜s.network.regions.Pinned pinnedName dims⌝⦄ changeFiles f
    ⦃always (·.network.regions.Pinned pinnedName dims)⦄ := by
  mvcgen [changeFiles, -changeFiles_keeps]

theorem discardTree_pinned (path : String) :
    ⦃fun s => ⌜s.network.regions.Pinned pinnedName dims⌝⦄ discardTree path
    ⦃always (·.network.regions.Pinned pinnedName dims)⦄ := by
  mvcgen [discardTree, -discardTree_keeps]

theorem siblingPath_pinned (path tag : String) :
    ⦃fun s => ⌜s.network.regions.Pinned pinnedName dims⌝⦄ siblingPath path tag
    ⦃always (·.network.regions.Pinned pinnedName dims)⦄ := by
  mvcgen [siblingPath, -siblingPath_keeps]

theorem writeBundle_pinned (dir label : String) :
    ⦃fun s => ⌜s.network.regions.Pinned pinnedName dims⌝⦄ writeBundle dir label
    ⦃always (·.network.regions.Pinned pinnedName dims)⦄ := by
  have changed := @changeFiles_pinned pinnedName dims
  mvcgen [writeBundle, -writeBundle_keeps, -changeFiles_keeps, changed, lift] invariants
  · always (·.network.regions.Pinned pinnedName dims)
  · always (·.network.regions.Pinned pinnedName dims)

theorem replaceBundle_pinned (staging path : String) :
    ⦃fun s => ⌜s.network.regions.Pinned pinnedName dims⌝⦄ replaceBundle staging path
    ⦃always (·.network.regions.Pinned pinnedName dims)⦄ := by
  have changed := @changeFiles_pinned pinnedName dims
  have discarded := @discardTree_pinned pinnedName dims
  have sibling := @siblingPath_pinned pinnedName dims
  mvcgen [replaceBundle, -replaceBundle_keeps, -changeFiles_keeps, -discardTree_keeps,
    -siblingPath_keeps, changed, discarded, sibling]

theorem saveWithLabel_pinned (path label : String) :
    ⦃fun s => ⌜s.network.regions.Pinned pinnedName dims⌝⦄ saveWithLabel path label
    ⦃always (·.network.regions.Pinned pinnedName dims)⦄ := by
  have sibling := @siblingPath_pinned pinnedName dims
  have changed := @changeFiles_pinned pinnedName dims
  have written := @writeBundle_pinned pinnedName dims
  have discarded := @discardTree_pinned pinnedName dims
  have replaced := @replaceBundle_pinned pinnedName dims
  mvcgen [saveWithLabel, -saveWithLabel_keeps, setState, -siblingPath_keeps, -changeFiles_keeps,
    -writeBundle_keeps, -discardTree_keeps, -replaceBundle_keeps, sibling, changed, written,
    discarded, replaced]

theorem save_pinned (path : String) :
    ⦃fun s => ⌜s.network.regions.Pinned pinnedName dims⌝⦄ save path
    ⦃always (·.network.regions.Pinned pinnedName dims)⦄ := by
  mvcgen [save, -save_keeps, -saveWithLabel_keeps, saveWithLabel_pinned]

/-- Loading needs an empty network, so a network with a pinned region refuses it unchanged. -/
theorem load_pinned (path : String) :
    ⦃fun s => ⌜s.network.regions.Pinned pinnedName dims⌝⦄ load path
    ⦃always (·.network.regions.Pinned pinnedName dims)⦄ := by
  mvcgen [load, -load_keeps, -loadDescription_keeps]
  rename_i pinned _ refused
  simp [pinned.isEmpty_eq_false] at refused

end Checkpoint

section Layout

include specified in
theorem induceThrough_pinned (id : Nat) :
    ⦃fun s => ⌜s.network.regions.Pinned pinnedName dims⌝⦄ induceThrough id
    ⦃always (·.network.regions.Pinned pinnedName dims)⦄ := by
  have linked := @stepLink_pinned pinnedName dims
  mvcgen [induceThrough, -induceThrough_keeps, -stepLink_keeps, stepLink, link, region, lift,
    putRegion_pinned]
  -- the region written had unknown dimensions at the link's end, so it is not the pinned one
  · exact ⟨‹_›, Collection.Pinned.fitsInducedDestination specified ‹_› ‹_› ‹_› ‹_› ‹_› ‹_› ‹_›⟩
  · exact ⟨‹_›, Collection.Pinned.fitsInducedSource specified ‹_› ‹_› ‹_› ‹_› ‹_› ‹_›⟩

include specified in
/-- Each pass keeps pinned dimensions, so every number of passes does. -/
theorem induceAll_pinned (fuel : Nat) :
    ⦃fun s => ⌜s.network.regions.Pinned pinnedName dims⌝⦄ induceAll fuel
    ⦃always (·.network.regions.Pinned pinnedName dims)⦄ := by
  have induced := @induceThrough_pinned pinnedName dims specified
  induction fuel with
  | zero => mvcgen [induceAll, -induceAll_keeps]
  | succ fuel inductionHypothesis =>
    mvcgen [induceAll, -induceAll_keeps, -induceThrough_keeps, induced] invariants
    · always (·.network.regions.Pinned pinnedName dims)

theorem routeLink_pinned (id : Nat) :
    ⦃fun s => ⌜s.network.regions.Pinned pinnedName dims⌝⦄ routeLink id
    ⦃always (·.network.regions.Pinned pinnedName dims)⦄ := by
  mvcgen [routeLink, -routeLink_keeps, stepLink, -stepLink_keeps, link, region, lift]

include specified in
theorem propagate_pinned :
    ⦃fun s => ⌜s.network.regions.Pinned pinnedName dims⌝⦄ propagate
    ⦃always (·.network.regions.Pinned pinnedName dims)⦄ := by
  have reset := @resetTopology_pinned pinnedName dims
  have induced := @induceAll_pinned pinnedName dims specified
  have routed := @routeLink_pinned pinnedName dims
  mvcgen [propagate, -propagate_keeps, -resetTopology_keeps, -induceAll_keeps, -routeLink_keeps,
    reset, induced, routed, lift, setState] invariants
  · always (·.network.regions.Pinned pinnedName dims)

theorem layoutInput_pinned (regionName inputName : String) (counts : List Nat) :
    ⦃fun s => ⌜s.network.regions.Pinned pinnedName dims⌝⦄ layoutInput regionName inputName counts
    ⦃always (·.network.regions.Pinned pinnedName dims)⦄ := by
  have stored := @putRegion_pinned pinnedName dims
  mvcgen [layoutInput, -layoutInput_keeps, region, lift, stored] invariants
  · always (·.network.regions.Pinned pinnedName dims)
  -- the region found at the start is stored back with the input laid out or released
  all_goals exact ⟨‹_›, Collection.Pinned.fitsFound ‹_› ‹_› (by rfl)⟩

theorem layoutInputs_pinned (k : String) :
    ⦃fun s => ⌜s.network.regions.Pinned pinnedName dims⌝⦄ layoutInputs k
    ⦃always (·.network.regions.Pinned pinnedName dims)⦄ := by
  have laid := @layoutInput_pinned pinnedName dims
  mvcgen [layoutInputs, -layoutInputs_keeps, -layoutInput_keeps, laid, sourceCounts, region, link,
    lift, List.mapM_eq_reverse_foldlM_cons] invariants
  · always (·.network.regions.Pinned pinnedName dims)
  · always (·.network.regions.Pinned pinnedName dims)
  · always (·.network.regions.Pinned pinnedName dims)

theorem checkRequiredInputs_pinned :
    ⦃fun s => ⌜s.network.regions.Pinned pinnedName dims⌝⦄ checkRequiredInputs
    ⦃always (·.network.regions.Pinned pinnedName dims)⦄ := by
  mvcgen [checkRequiredInputs, -checkRequiredInputs_keeps] invariants
  · always (·.network.regions.Pinned pinnedName dims)
  · always (·.network.regions.Pinned pinnedName dims)

include specified in
theorem setUp_pinned :
    ⦃fun s => ⌜s.network.regions.Pinned pinnedName dims⌝⦄ setUp
    ⦃always (·.network.regions.Pinned pinnedName dims)⦄ := by
  have propagated := @propagate_pinned pinnedName dims specified
  have checked := @checkRequiredInputs_pinned pinnedName dims
  have laid := @layoutInputs_pinned pinnedName dims
  have stored := @putRegion_pinned pinnedName dims
  mvcgen [setUp, -setUp_keeps, -propagate_keeps, -checkRequiredInputs_keeps, -layoutInputs_keeps,
    propagated, checked, laid, region, lift, stepRegion, stored, setState] invariants
  · always (·.network.regions.Pinned pinnedName dims)
  · always (·.network.regions.Pinned pinnedName dims)
  · always (·.network.regions.Pinned pinnedName dims)
  · always (·.network.regions.Pinned pinnedName dims)
  · always (·.network.regions.Pinned pinnedName dims)
  · always (·.network.regions.Pinned pinnedName dims)
  -- regions are stored back sized or initialized
  all_goals first
    | exact ⟨‹_›, Collection.Pinned.fitsFound ‹_› ‹_› Region.sizeOutputs_dimensioned⟩
    | exact ⟨‹_›, Collection.Pinned.fitsFound ‹_› ‹_› Region.init_dimensioned⟩

end Layout

section Run

theorem consolidate_pinned (i : Input) :
    ⦃fun s => ⌜s.network.regions.Pinned pinnedName dims⌝⦄ consolidate i
    ⦃always (·.network.regions.Pinned pinnedName dims)⦄ := by
  mvcgen [consolidate, -consolidate_keeps, lift] invariants
  · always (·.network.regions.Pinned pinnedName dims)

theorem computeRegion_pinned (k : String) :
    ⦃fun s => ⌜s.network.regions.Pinned pinnedName dims⌝⦄ computeRegion k
    ⦃always (·.network.regions.Pinned pinnedName dims)⦄ := by
  have merged := @consolidate_pinned pinnedName dims
  have stored := @putRegion_pinned pinnedName dims
  mvcgen [computeRegion, -computeRegion_keeps, -consolidate_keeps, merged, region, lift, stored,
    List.mapM_eq_reverse_foldlM_cons] invariants
  · always (·.network.regions.Pinned pinnedName dims)
  · always (·.network.regions.Pinned pinnedName dims)
  -- each input is stored back with its merged data, then the region with what it computed
  all_goals first
    | exact ⟨‹_›, Collection.Pinned.fitsFound ‹_› ‹_› (by rfl)⟩
    | exact ⟨‹_›, Collection.Pinned.fitsFound ‹_› ‹_› (Region.compute_dimensioned ‹_›)⟩

theorem iterate_pinned (order : List String) :
    ⦃fun s => ⌜s.network.regions.Pinned pinnedName dims⌝⦄ iterate order
    ⦃always (·.network.regions.Pinned pinnedName dims)⦄ := by
  have computed := @computeRegion_pinned pinnedName dims
  mvcgen [iterate, -iterate_keeps, -computeRegion_keeps, computed, region, lift, setState]
    invariants
  · always (·.network.regions.Pinned pinnedName dims)
  · always (·.network.regions.Pinned pinnedName dims)

include specified in
theorem run_pinned (count : Nat) :
    ⦃fun s => ⌜s.network.regions.Pinned pinnedName dims⌝⦄ run count
    ⦃always (·.network.regions.Pinned pinnedName dims)⦄ := by
  have setUp := @setUp_pinned pinnedName dims specified
  have iterated := @iterate_pinned pinnedName dims
  mvcgen [run, -run_keeps, -setUp_keeps, -iterate_keeps, setUp, iterated] invariants
  · always (·.network.regions.Pinned pinnedName dims)
  · always (·.network.regions.Pinned pinnedName dims)
  · always (·.network.regions.Pinned pinnedName dims)

end Run

end Op

namespace Command

/-- Whether a command leaves a region's own dimensions to the rest: all but setting that region's
dimensions and removing it do. -/
def spares : Command → String → Bool
  | setRegionDimensions k _, name => k != name
  | removeRegion k, name => k != name
  | _, _ => true

/-- Whether a command may work out dimensions by induction. -/
def induces : Command → Bool
  | propagate | setUp | run _ => true
  | _ => false

variable {pinnedName : String} {dims : Dimensions}

/-- Every command that spares a region keeps its explicit dimensions, whether it succeeds or fails,
so long as they are specified or the command does not induce. -/
theorem op_pinned
    (c : Command)
    (spared : c.spares pinnedName = true)
    (settled : dims.isSpecified = true ∨ c.induces = false) :
    ⦃fun s => ⌜s.network.Wired ∧ s.network.regions.Pinned pinnedName dims⌝⦄ c.op
    ⦃Op.always (·.network.regions.Pinned pinnedName dims)⦄ := by
  cases c with
  | addRegion k typeName params => exact Op.pinned_of_wired (Op.addRegion_pinned k typeName params)
  | addRegionFromBundle k typeName newDims path label =>
    exact Op.pinned_of_wired
      (Op.discard_triple (Op.addRegionFromBundle_pinned k typeName newDims path label))
  | removeRegion k =>
    exact Op.pinned_of_wired (Op.removeRegion_pinned (by simpa [spares] using spared))
  | connect src out dest inp policyType params =>
    exact Op.pinned_of_wired
      (Op.discard_triple (Op.connect_pinned src out dest inp policyType params))
  | disconnect src out dest inp => exact Op.pinned_of_wired (Op.disconnect_pinned src out dest inp)
  | setRegionDimensions k newDims =>
    exact Op.setRegionDimensions_pinned (by simpa [spares] using spared) newDims
  | setPhases k phases => exact Op.pinned_of_wired (Op.setPhases_pinned k phases)
  | setMinEnabled phase =>
    mvcgen [op, Op.setMinEnabled]
    exact ‹_ ∧ _›.2
  | setMaxEnabled phase =>
    mvcgen [op, Op.setMaxEnabled]
    exact ‹_ ∧ _›.2
  | propagate =>
    exact Op.pinned_of_wired (Op.propagate_pinned (settled.resolve_right (by simp [induces])))
  | setUp => exact Op.pinned_of_wired (Op.setUp_pinned (settled.resolve_right (by simp [induces])))
  | run count =>
    exact Op.pinned_of_wired (Op.run_pinned (settled.resolve_right (by simp [induces])) count)
  | setParameter k param value => exact Op.pinned_of_wired (Op.setParameter_pinned k param value)
  | executeCommand k args =>
    exact Op.pinned_of_wired (Op.discard_triple (Op.executeCommand_pinned k args))
  | saveWithLabel path label => exact Op.pinned_of_wired (Op.saveWithLabel_pinned path label)
  | save path => exact Op.pinned_of_wired (Op.save_pinned path)
  | load path => exact Op.pinned_of_wired (Op.load_pinned path)
  | addCallback k => exact Op.pinned_of_wired (Op.addCallback_pinned k)
  | removeCallback k => exact Op.pinned_of_wired (Op.removeCallback_pinned k)
  | enableProfiling =>
    exact Op.pinned_of_wired (Op.eachRegion_pinned (fun r => { r with profiling := true }) fun _ => rfl)
  | disableProfiling =>
    exact Op.pinned_of_wired
      (Op.eachRegion_pinned (fun r => { r with profiling := false }) fun _ => rfl)
  | resetProfiling => exact Op.pinned_of_wired (Op.eachRegion_pinned Region.resetProfiling fun _ => rfl)

/-- Commands that spare a region keep its pinned dimensions through a whole run: each keeps the
wiring and, from a wired network, the pinned dimensions. -/
theorem leavesAll_pinned
    {cs : List Command}
    {s : Session}
    (wired : s.network.Wired)
    (pinned : s.network.regions.Pinned pinnedName dims)
    (spared : ∀ c ∈ cs, c.spares pinnedName = true)
    (settled : dims.isSpecified = true ∨ ∀ c ∈ cs, c.induces = false) :
    (leavesAll cs s).network.regions.Pinned pinnedName dims := by
  induction cs generalizing s with
  | nil => exact pinned
  | cons c rest inductionHypothesis =>
    have first : c ∈ c :: rest := List.mem_cons_self
    have later : ∀ {x}, x ∈ rest → x ∈ c :: rest := List.mem_cons_of_mem c
    have kept := Op.leaves_of_triple
      (c.op_pinned (spared c first) (settled.imp id fun quiet => quiet c first)) ⟨wired, pinned⟩
    exact inductionHypothesis (Op.leaves_of_keeps c.op_wired wired) kept
      (fun x member => spared x (later member))
      (settled.imp id fun quiet x member => quiet x (later member))

end Command

/--
Explicit dimensions stay set. In a wired network (every reachable one is), a region whose
dimensions were set explicitly keeps them, still explicit, through any commands that neither set
that region's dimensions nor remove it, whether each succeeds or fails: provided the dimensions
are specified, or no command among them induces dimensions.
-/
theorem explicit_dimensions_stay
    {s : Session}
    (wired : s.network.Wired)
    {name : String}
    {r : Region}
    (found : s.network.region name = .ok r)
    (explicit : r.source = .explicit)
    {cs : List Command}
    (spared : ∀ c ∈ cs, c.spares name = true)
    (settled : r.dims.isSpecified = true ∨ ∀ c ∈ cs, c.induces = false) :
    ∃ r', (Command.leavesAll cs s).network.region name = .ok r' ∧
      r'.dims = r.dims ∧ r'.source = .explicit :=
  Network.region_of_pinned (Command.leavesAll_pinned wired
    (Network.pinned_of_region wired found explicit) spared settled)

/-- A probe region with explicit dimensions keeps them through adding, linking, propagating,
setting up, running, editing and removing another region, and saving. -/
theorem probe_dimensions_stay :
    let r : Region := { Region.new "A" "Probe" {} (.probe .plain 0) none with
      dims := ⟨[2]⟩, source := .explicit, phases := [0] }
    let n : Network := ({ id := 0 } : Network).appendRegion r
    let s : Session := { host := Host.new {}, files := {}, network := n }
    let cs := [Command.addRegion "B" "TestNode" "", .connect "A" "" "B" "" "UniformLink" "",
      .propagate, .setUp, .run 2, .setRegionDimensions "B" ⟨[0]⟩, .removeRegion "B",
      .save "net.nta"]
    s.network.Wired ∧ s.network.region "A" = .ok r ∧ r.source = .explicit ∧
      (∀ c ∈ cs, c.spares "A" = true) ∧
      (r.dims.isSpecified = true ∨ ∀ c ∈ cs, c.induces = false) ∧
      ∃ r', (Command.leavesAll cs s).network.region "A" = .ok r' ∧
        r'.dims = r.dims ∧ r'.source = .explicit := by
  intro r n s cs
  have blank : r.Blank := (Region.blank_new "A" "Probe" {} (.probe .plain 0) none).of_ports rfl rfl
  have wired : s.network.Wired :=
    Network.Wired.appendBlank (Network.Wired.of_empty rfl rfl) List.not_mem_nil blank
  have found : s.network.region "A" = .ok r := rfl
  have spared : ∀ c ∈ cs, c.spares "A" = true := by decide
  have settled : r.dims.isSpecified = true ∨ ∀ c ∈ cs, c.induces = false := .inl (by decide)
  exact ⟨wired, found, rfl, spared, settled, explicit_dimensions_stay wired found rfl spared settled⟩

/-- Explicit dimensions that are not specified do not stay: a region set to `dontcare`, fed by a
link from a region of two nodes, takes two nodes by induction on propagating, no longer explicit. -/
theorem explicit_dontcare_overwritten :
    let a : Region := { Region.new "A" "TestNode" Reference.spec (.probe .plain 0) none with
      dims := ⟨[2]⟩, source := .explicit, phases := [0] }
    let b : Region := { Region.new "B" "TestNode" Reference.spec (.probe .plain 0) none with
      dims := .dontcare, source := .explicit, phases := [0] }
    let n : Network := (({ id := 0 } : Network).appendRegion a).appendRegion b
    let s : Session := { host := Host.new {}, files := {}, network := n }
    let s' := Command.leavesAll [.connect "A" "" "B" "" "UniformLink" "", .propagate] s
    s.network.region "B" = .ok b ∧ b.source = .explicit ∧
      (s'.network.region "B").toOption.map (fun r => (r.dims, r.source == .explicit)) =
        some (⟨[2]⟩, false) := by
  intro a b n s s'
  exact ⟨rfl, rfl, by decide +kernel⟩

end RegionNet

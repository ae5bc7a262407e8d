import RegionNet.Proofs.Declared
import RegionNet.Proofs.Inducing
import RegionNet.Proofs.Halving
import RegionNet.Proofs.Phases
import RegionNet.Proofs.StructureFile

set_option mvcgen.warning false

namespace RegionNet

open Std.Do

/-!
# Region numbers fit their words

A saved network records each region's dimensions and phases, and its structure file reads them
back as 64-bit and 32-bit words (`Description.Readable`). This module shows that the numbers of
every reachable network fit those widths (`Reachable.wordSized`), so that the description of a
reachable network reads back (`Reachable.readable`).

Dimensions are given in three ways. Set explicitly, they are checked first: their node count
must fit a word, and no axis is longer than the node count. Induced through a link, they come
from a policy made from its text, whose layout passed the parameter check: the windows over an
axis are no more than its nodes, the wide length worked out for a number of windows is a checked
word, halving shortens an axis and doubling panics past a word. Restored from a bundle, they are
read as 64-bit words. Phases are 32-bit arguments or read as 32-bit words, and every region keeps
them as a phase set.
-/

namespace Dimensions

/-- Dimensions whose axes are 64-bit words. -/
def Words (d : Dimensions) : Prop := ∀ n ∈ d.axes, n < wordSize

theorem words_unspecified : unspecified.Words := by
  intro n member
  simp [unspecified] at member

theorem words_ones (rank : Nat) : (ones rank).Words := by
  intro n member
  obtain ⟨-, rfl⟩ := List.mem_replicate.mp member
  decide

/-- Dimensions that pass the check have axes that are words: a specified axis is no longer than
the node count, which must fit a word, and unknown dimensions have no axis but `0`. -/
theorem words_of_validate {d : Dimensions} (validated : d.validate = .ok ()) : d.Words := by
  intro n member
  unfold validate at validated
  split at validated
  · rename_i specified
    simp only [checkedCount, specified, Bool.not_true, Bool.false_eq_true, ↓reduceIte] at validated
    split at validated
    · rename_i fits
      obtain ⟨axis, below, rfl⟩ := List.getElem_of_mem member
      have atAxis := getD_le_product specified axis
      rw [List.getD_eq_getElem _ _ below] at atAxis
      omega
    · cases validated
  · split at validated
    · rename_i unknown
      simp only [isUnspecified, isDontcare, Bool.or_eq_true, List.isEmpty_iff, beq_iff_eq]
        at unknown
      rcases unknown with empty | zero
      · simp [empty] at member
      · rw [zero, List.mem_singleton] at member
        subst member
        decide
    · cases validated

end Dimensions

namespace Link

namespace Window

variable {w : Window}

/-- A run of valid windows holds no more windows than nodes: the last starts inside the run,
a stride of at least one node after the one before. -/
theorem run_le (valid : w.Valid) {len R : Nat} (ran : w.run len = some R) : R ≤ len := by
  obtain ⟨-, lastInside, -, -⟩ := run_spec valid ran
  have strides : R - 1 ≤ (R - 1) * w.stride := Nat.le_mul_of_pos_right _ valid.stride_pos
  omega

/-- Valid windows over an axis are no more than its nodes. -/
theorem windowsOver_le (valid : w.Valid) {wide narrow : Nat}
    (laidOut : w.windowsOver wide = some narrow) : narrow ≤ wide := by
  by_cases spanned : w.span = 0
  · unfold windowsOver at laidOut
    simp only [spanned, ↓reduceIte] at laidOut
    exact run_le valid laidOut
  · -- whole spans hold no more windows than nodes, and so does the shorter last span
    obtain ⟨P, T, per, rfl, tail⟩ := windowsOver_of_spanned spanned laidOut
    have full : P ≤ w.span := run_le valid per
    have rest : T ≤ wide % w.span := by
      rcases tail with ⟨-, rfl⟩ | ⟨-, ran⟩
      · exact Nat.zero_le _
      · exact run_le valid ran
    calc wide / w.span * P + T
        _ ≤ wide / w.span * w.span + wide % w.span :=
          Nat.add_le_add (Nat.mul_le_mul_left _ full) rest
        _ = wide := Nat.div_add_mod' wide w.span

/-- The wide length worked out for a number of windows is a checked word. -/
theorem wideFor_lt {narrow wide : Nat} (worked : w.wideFor narrow = some wide) :
    wide < wordSize := by
  unfold wideFor at worked
  split at worked
  · cases worked
  · split at worked
    · simp only [bind, Option.bind_eq_some_iff] at worked
      obtain ⟨covered, -, added⟩ := worked
      exact (checkedAdd_eq_some added).2
    · simp only [bind, Option.bind_eq_some_iff] at worked
      obtain ⟨P, -, divided⟩ := worked
      split at divided
      · cases divided
      · exact (checkedMul_eq_some divided).2

end Window

/-- The end a checked uniform layout works out from word dimensions has word dimensions: along
each axis, the windows over a known wide side, or the checked wide length for a known narrow
side. -/
theorem UniformParams.induce_words
    {p : UniformParams}
    (checked : p.validate = .ok ())
    {known induced : Dimensions}
    {towardDest : Bool}
    (words : known.Words)
    (worked : p.induce known towardDest = .ok induced) :
    induced.Words := by
  obtain ⟨ranked, each⟩ := induce_eq_ok worked
  intro n member
  obtain ⟨axis, below, rfl⟩ := List.getElem_of_mem member
  have inKnown : axis < known.rank := by
    simp only [Dimensions.rank] at ranked ⊢
    omega
  obtain ⟨w, found, value⟩ := each axis inKnown
  rw [List.getD_eq_getElem _ _ below] at value
  split at value
  · have knownWord : known.axes.getD axis 0 < wordSize := by
      rw [List.getD_eq_getElem _ _ inKnown]
      exact words _ (List.getElem_mem inKnown)
    exact Nat.lt_of_le_of_lt
      (Window.windowsOver_le (windowFor_valid checked inKnown found).1 value) knownWord
  · exact Window.wideFor_lt value

namespace LinkPolicy

variable {p : LinkPolicy} {dims : Dimensions}

/-- Told word source dimensions, a policy with a checked layout keeps word destination
dimensions or works them out: halving shortens every axis. -/
theorem setSource_dest_words (laidOut : p.kind.CheckedLayout) (srcWords : dims.Words)
    (destWords : p.dest.Words) : (p.setSource dims).1.dest.Words := by
  unfold setSource
  dsimp only
  split
  · split
    · rename_i params uniform
      split
      · rename_i induced worked
        exact UniformParams.induce_words (laidOut params uniform).1 srcWords worked
      · exact destWords
    · split
      · exact destWords
      · intro n member
        obtain ⟨d, inDims, rfl⟩ := List.mem_map.mp member
        exact Nat.lt_of_le_of_lt (Nat.div_le_self d 2) (srcWords d inDims)
  · exact destWords

/-- Told word destination dimensions, a policy with a checked layout keeps word source
dimensions or works them out: doubling an axis past a word panics. -/
theorem setDestination_src_words (laidOut : p.kind.CheckedLayout) (destWords : dims.Words)
    (srcWords : p.src.Words) : (p.setDestination dims).1.src.Words := by
  unfold setDestination
  dsimp only
  split
  · split
    · rename_i params uniform
      split
      · rename_i induced worked
        exact UniformParams.induce_words (laidOut params uniform).1 destWords worked
      · exact srcWords
    · split
      · rename_i axes doubled
        by_cases fits : ∀ d ∈ dims.axes, 2 * d < wordSize
        · simp only [mapM_double_eq, if_pos fits, liftData, Except.ok.injEq] at doubled
          subst doubled
          intro n member
          obtain ⟨d, inDims, rfl⟩ := List.mem_map.mp member
          exact fits d inDims
        · simp only [mapM_double_eq, if_neg fits, liftData, reduceCtorEq] at doubled
      · exact srcWords
  · exact srcWords

end LinkPolicy

/-- A link whose policy was made from its text, reset and told word source dimensions, works
out word destination dimensions. -/
theorem induced_dest_words {l : Link} (made : l.fresh.Made) {sd : Dimensions} (words : sd.Words) :
    (l.reset.policy.setSource sd).1.dest.Words := by
  have untold : l.reset.policy.dest = .unspecified := by
    show l.fresh.dest = _
    rw [made.untold]
  exact LinkPolicy.setSource_dest_words made.laidOut words
    (untold ▸ Dimensions.words_unspecified)

/-- A link whose policy was made from its text, reset and told word destination dimensions,
works out word source dimensions. -/
theorem induced_src_words {l : Link} (made : l.fresh.Made) {dd : Dimensions} (words : dd.Words) :
    (l.reset.policy.setDestination dd).1.src.Words := by
  have untold : l.reset.policy.src = .unspecified := by
    show l.fresh.src = _
    rw [made.untold]
  exact LinkPolicy.setDestination_src_words made.laidOut words
    (untold ▸ Dimensions.words_unspecified)

end Link

/-- A saved region whose numbers fit the widths they are read at, with a phase set. -/
structure RegionRecord.WordSized (saved : RegionRecord) : Prop where
  dims : ∀ n ∈ saved.dims, n < pow2 64
  phases : ∀ p ∈ saved.phases, p < pow2 32
  normal : phaseSet saved.phases = saved.phases

namespace Description

/-- The regions of a description that reads back have word-sized numbers. -/
theorem Readable.region {d : Description} (readable : d.Readable) {saved : RegionRecord}
    (member : saved ∈ d.regions) : saved.WordSized :=
  ⟨readable.dims saved member, readable.phases saved member, readable.phaseSets saved member⟩

/-- A list of integers read at a width holds integers below its bound. -/
theorem natsOf_lt {bits : Nat} {j : Json} {key : String} {n : Nat} (member : n ∈ natsOf bits j key) :
    n < pow2 bits := by
  obtain ⟨x, -, read⟩ := List.mem_filterMap.mp member
  exact Json.unsigned?_lt read

/-- Whatever value a description is read from, its numbers fit the widths they are read at and
its phases are phase sets. -/
theorem ofJson_readable (j : Json) : (ofJson j).Readable where
  version := by
    simp only [ofJson]
    cases read : (j.field? "version").bind (Json.unsigned? 32) with
    | none => exact (by decide : 0 < pow2 32)
    | some v =>
        obtain ⟨field, -, word⟩ := Option.bind_eq_some_iff.mp read
        simpa using Json.unsigned?_lt word
  dims := by
    intro r member n inDims
    obtain ⟨x, -, rfl⟩ := List.mem_map.mp member
    exact natsOf_lt inDims
  phases := by
    intro r member p inPhases
    obtain ⟨x, -, rfl⟩ := List.mem_map.mp member
    exact natsOf_lt (mem_phaseSet.mp inPhases)
  phaseSets := by
    intro r member
    obtain ⟨x, -, rfl⟩ := List.mem_map.mp member
    exact phaseSet_phaseSet _

/-- A structure file that is read gives a description that reads back. -/
theorem readable_of_parse {text : String} {d : Description} (parsed : parse text = .ok d) :
    d.Readable := by
  unfold parse at parsed
  cases read : shape.read text with
  | error e => simp [read, Functor.map, Except.map] at parsed
  | ok j =>
      simp only [read, Functor.map, Except.map, Except.ok.injEq] at parsed
      exact parsed ▸ ofJson_readable j

end Description

namespace Region

/-- A region whose numbers fit the widths its saved record is read at: dimensions of 64-bit axes
and a set of 32-bit phases. -/
structure WordSized (r : Region) : Prop where
  dims : r.dims.Words
  phases : ∀ p ∈ r.phases, p < pow2 32
  normal : phaseSet r.phases = r.phases

variable {r r' : Region}

/-- Word-sized numbers read only the dimensions and the phases. -/
theorem WordSized.of_numbers (sized : r.WordSized) (dims : r'.dims = r.dims)
    (phases : r'.phases = r.phases) : r'.WordSized where
  dims := dims ▸ sized.dims
  phases := phases ▸ sized.phases
  normal := phases ▸ sized.normal

/-- A region given word dimensions keeps word-sized numbers. -/
theorem WordSized.setDimensions (sized : r.WordSized) {dims : Dimensions} {source : DimensionSource}
    (words : dims.Words) (set : r.setDimensions dims source = .ok r') : r'.WordSized := by
  unfold Region.setDimensions at set
  split at set
  · cases set
  · cases set
    exact ⟨words, sized.phases, sized.normal⟩

/-- A region given a phase set of 32-bit phases keeps word-sized numbers. -/
theorem WordSized.withPhases (sized : r.WordSized) {phases : List Nat}
    (words : ∀ p ∈ phases, p < pow2 32) (normal : phaseSet phases = phases) :
    ({ r with phases } : Region).WordSized :=
  ⟨sized.dims, words, normal⟩

/-- The phase set of 32-bit phases holds 32-bit phases. -/
theorem phaseSet_words (phases : List UInt32) : ∀ p ∈ phaseSet (phases.map UInt32.toNat), p < pow2 32 := by
  intro p member
  obtain ⟨u, -, rfl⟩ := List.mem_map.mp (mem_phaseSet.mp member)
  exact u.toNat_lt

/-- A region that runs in phase 0 only keeps word-sized numbers. -/
theorem WordSized.inPhaseZero (sized : r.WordSized) : ({ r with phases := [0] } : Region).WordSized :=
  sized.withPhases (by simp [pow2]) (by simp [phaseSet, List.eraseDups_cons])

/-- A region restored from a saved record with word-sized numbers runs in its phases, or in
phase 0 when it had none, and keeps word-sized numbers. -/
theorem WordSized.restoredPhases (sized : r.WordSized) {saved : RegionRecord}
    (savedSized : saved.WordSized) :
    ({ r with phases := if saved.phases.isEmpty then [0] else saved.phases } : Region).WordSized := by
  split
  · exact sized.inPhaseZero
  · exact sized.withPhases savedSized.phases savedSized.normal

/-- A new region has one node or unknown dimensions, and no phases. -/
theorem wordSized_new (name typeName : String) (spec : RegionSpec) (impl : Implementation)
    (module : Option String) : (Region.new name typeName spec impl module).WordSized where
  dims := by
    unfold Region.new
    split
    rename_i made
    -- a single-node type starts with one node, any other with unknown dimensions
    split at made
    · cases made
      exact Dimensions.words_ones 1
    · cases made
      exact Dimensions.words_unspecified
  phases := by simp [Region.new]
  normal := by simp [Region.new, phaseSet]

/-- Forgetting a region's data and induced dimensions keeps word-sized numbers. -/
theorem WordSized.forget (sized : r.WordSized) :
    (match r.teardown.source with
      | .induced _ => { r.teardown with dims := .unspecified, source := .unset }
      | _ => r.teardown).WordSized := by
  split
  · exact ⟨Dimensions.words_unspecified, sized.phases, sized.normal⟩
  · exact sized.of_numbers rfl rfl

/-- Computing keeps word-sized numbers. -/
theorem WordSized.compute (sized : r.WordSized) (computed : r.compute = .ok r') : r'.WordSized := by
  obtain ⟨impl, io, -, rfl⟩ := compute_eq_ok computed
  exact sized.of_numbers rfl rfl

/-- Sizing outputs keeps word-sized numbers. -/
theorem WordSized.sizeOutputs (sized : r.WordSized) : r.sizeOutputs.1.WordSized := by
  obtain ⟨outputs, sizedOutputs⟩ := sizeOutputs_outputs (r := r)
  rw [sizedOutputs]
  exact sized.of_numbers rfl rfl

/-- Setting a parameter keeps word-sized numbers. -/
theorem WordSized.setParameter (sized : r.WordSized) {name : String} {v : ParameterValue}
    (set : r.setParameter name v = .ok r') : r'.WordSized := by
  obtain ⟨impl, rfl⟩ := setParameter_eq_ok set
  exact sized.of_numbers rfl rfl

/-- Running a command keeps word-sized numbers. -/
theorem WordSized.executeCommand (sized : r.WordSized) (args : List String) :
    (r.executeCommand args).1.WordSized := by
  obtain ⟨impl, executeCalls, ran⟩ := executeCommand_fst (r := r) args
  rw [ran]
  exact sized.of_numbers rfl rfl

end Region

namespace Network

variable {m n : Network} {name : String} {r old : Region}

/-- Every region of a network has word-sized numbers. -/
def WordSized (n : Network) : Prop := ∀ r ∈ n.regions.items, r.WordSized

/-- Word-sized numbers read only the regions. -/
theorem WordSized.of_regions (sized : n.WordSized) (regions : m.regions = n.regions) :
    m.WordSized := fun r member => sized r (regions ▸ member)

theorem WordSized.region (sized : n.WordSized) (found : n.region name = .ok r) : r.WordSized :=
  forall_region sized found

theorem WordSized.find (sized : n.WordSized) (found : n.regions.find? name = some r) :
    r.WordSized :=
  forall_find sized found

theorem WordSized.replaceRegion (sized : n.WordSized) (stored : r.WordSized) :
    (n.replaceRegion r).WordSized :=
  forall_replaceRegion sized stored

/-- Storing back, over a region found, one with its dimensions and phases keeps word-sized
numbers. -/
theorem WordSized.storeBack (sized : n.WordSized) (found : n.region name = .ok old)
    (dims : r.dims = old.dims) (phases : r.phases = old.phases) : (n.replaceRegion r).WordSized :=
  sized.replaceRegion ((sized.region found).of_numbers dims phases)

/-- A region made from one found, with its dimensions and phases, may be stored in a network with
word-sized numbers. -/
theorem WordSized.withFound (sized : n.WordSized) (found : n.region name = .ok old)
    (dims : r.dims = old.dims) (phases : r.phases = old.phases) : n.WordSized ∧ r.WordSized :=
  ⟨sized, (sized.region found).of_numbers dims phases⟩

/-- A region made from one found among the entries, with its dimensions and phases, may be stored
in a network with word-sized numbers. -/
theorem WordSized.withFind (sized : n.WordSized) (found : n.regions.find? name = some old)
    (dims : r.dims = old.dims) (phases : r.phases = old.phases) : n.WordSized ∧ r.WordSized :=
  ⟨sized, (sized.find found).of_numbers dims phases⟩

theorem WordSized.appendRegion (sized : n.WordSized) (added : r.WordSized) :
    (n.appendRegion r).WordSized :=
  forall_appendRegion sized added

theorem WordSized.resetTopology (sized : n.WordSized) : n.resetTopology.WordSized :=
  forall_mapRegions sized fun _ kept => kept.forget

theorem WordSized.dropRegion (sized : n.WordSized) (name : String) : (n.dropRegion name).WordSized :=
  forall_dropRegion sized name

theorem WordSized.of_empty (noRegions : n.regions.entries = []) : n.WordSized :=
  forall_of_empty noRegions

/-- A link leaving a region with word-sized numbers shows word dimensions: the region's, or one
node at a region-level port. -/
theorem WordSized.sourceDimensions (sized : n.WordSized) (found : n.region name = .ok r)
    {output : String} {sd : Dimensions} (shown : RegionNet.sourceDimensions r output = .ok sd) :
    sd.Words := by
  obtain ⟨o, -, rfl⟩ := sourceDimensions_eq_ok shown
  split
  · exact Dimensions.words_ones 1
  · exact (sized.region found).dims

/-- A link entering a region with word-sized numbers shows word dimensions. -/
theorem WordSized.destinationDimensions (sized : n.WordSized) (found : n.region name = .ok r)
    {input : String} {dd : Dimensions} (shown : RegionNet.destinationDimensions r input = .ok dd) :
    dd.Words := by
  obtain ⟨i, -, rfl⟩ := destinationDimensions_eq_ok shown
  split
  · exact Dimensions.words_ones 1
  · exact (sized.region found).dims

section Induced

variable (table : n.LinkTable) (sized : n.WordSized) {id : Nat} {l l' : Link}
  (linked : n.link id = .ok l) {k : String} {target : Region} {source : DimensionSource}
  (found : (n.replaceLink l').region k = .ok target)

include table sized linked found

/-- The region at the destination of a link whose source showed word dimensions, given the
dimensions the link's reset policy works out, keeps word-sized numbers, in a network whose links
changed only. -/
theorem WordSized.induceDestination {src : Region} {sd : Dimensions}
    (srcFound : n.region l.endpoints.srcRegion = .ok src)
    (shown : RegionNet.sourceDimensions src l.endpoints.srcOutput = .ok sd)
    (set : target.setDimensions (l.reset.policy.setSource sd).1.dest source = .ok r) :
    (n.replaceLink l').WordSized ∧ r.WordSized := by
  have stored : (n.replaceLink l').WordSized := sized.of_regions rfl
  have words := Link.induced_dest_words (table.made_of_found linked rfl)
    (sized.sourceDimensions srcFound shown)
  exact ⟨stored, (stored.region found).setDimensions words set⟩

/-- The region at the source of a link whose destination showed word dimensions, given the
dimensions the link's reset policy works out, keeps word-sized numbers, in a network whose links
changed only. -/
theorem WordSized.induceSource {dest : Region} {dd : Dimensions}
    (destFound : n.region l.endpoints.destRegion = .ok dest)
    (shown : RegionNet.destinationDimensions dest l.endpoints.destInput = .ok dd)
    (set : target.setDimensions (l.reset.policy.setDestination dd).1.src source = .ok r) :
    (n.replaceLink l').WordSized ∧ r.WordSized := by
  have stored : (n.replaceLink l').WordSized := sized.of_regions rfl
  have words := Link.induced_src_words (table.made_of_found linked rfl)
    (sized.destinationDimensions destFound shown)
  exact ⟨stored, (stored.region found).setDimensions words set⟩

end Induced

end Network

namespace Op

/-!
## Storing regions and editing the topology
-/

theorem putRegion_wordSized (r : Region) :
    ⦃fun s => ⌜s.network.WordSized ∧ r.WordSized⌝⦄ putRegion r ⦃always (·.network.WordSized)⦄ := by
  mvcgen [putRegion_spec]
  obtain ⟨sized, stored⟩ := ‹_ ∧ _›
  exact sized.replaceRegion stored

theorem resetTopology_wordSized :
    ⦃fun s => ⌜s.network.WordSized⌝⦄ resetTopology ⦃always (·.network.WordSized)⦄ := by
  mvcgen [-resetTopology_keeps, resetTopology_spec]
  exact Network.WordSized.resetTopology ‹_›

theorem eachRegion_wordSized (f : Region → Region) (keeps : ∀ r, r.WordSized → (f r).WordSized) :
    ⦃fun s => ⌜s.network.WordSized⌝⦄ eachRegion f ⦃always (·.network.WordSized)⦄ := by
  mvcgen [eachRegion, -eachRegion_keeps]
  exact Network.forall_mapRegions ‹_› keeps

theorem addRegion_wordSized (name typeName params : String) :
    ⦃fun s => ⌜s.network.WordSized⌝⦄ addRegion name typeName params
    ⦃always (·.network.WordSized)⦄ := by
  mvcgen [addRegion, -addRegion_keeps, -resetTopology_keeps, checkNewRegion, validateRegionName,
    stepFactory, lift, addRegionValue_spec, resetTopology_spec]
  all_goals first
    | exact ‹_›
    | exact (Network.WordSized.appendRegion ‹_›
        (Region.wordSized_new _ _ _ _ _).inPhaseZero).resetTopology

theorem addRegionFromBundle_wordSized (name typeName : String) (dims : Dimensions)
    (path label : String) :
    ⦃fun s => ⌜s.network.WordSized⌝⦄ addRegionFromBundle name typeName dims path label
    ⦃always (·.network.WordSized)⦄ := by
  mvcgen [addRegionFromBundle, -addRegionFromBundle_keeps, -resetTopology_keeps, checkNewRegion,
    validateRegionName, stepFactory, lift, addRegionValue_spec, resetTopology_spec, region]
  -- the region restored has checked dimensions and runs in phase 0
  all_goals first
    | exact ‹_›
    | exact (Network.WordSized.appendRegion ‹_› ((Region.wordSized_new _ _ _ _ _).setDimensions
        (Dimensions.words_of_validate (liftData_eq_ok.mp ‹_›)) ‹_›).inPhaseZero).resetTopology

theorem connect_wordSized (src out dest inp policyType params : String) :
    ⦃fun s => ⌜s.network.WordSized⌝⦄ connect src out dest inp policyType params
    ⦃always (·.network.WordSized)⦄ := by
  mvcgen [connect, -connect_keeps, -resetTopology_keeps, resetTopology_spec, putRegion_wordSized,
    region, lift]
  -- the two ends are stored back with one more link at their ports
  all_goals first
    | exact ‹_›
    | exact Network.WordSized.resetTopology ‹_›
    | exact Network.WordSized.withFound ‹_› ‹_› (by rfl) (by rfl)

theorem detachLink_wordSized (id : Nat) :
    ⦃fun s => ⌜s.network.WordSized⌝⦄ detachLink id ⦃always (·.network.WordSized)⦄ := by
  mvcgen [detachLink, -detachLink_keeps, putRegion_wordSized, link, lift]
  -- the ends are stored back with one link fewer at their ports
  all_goals first
    | exact ‹_›
    | exact Network.WordSized.withFind ‹_› ‹_› (by rfl) (by rfl)

theorem removeRegion_wordSized (name : String) :
    ⦃fun s => ⌜s.network.WordSized⌝⦄ removeRegion name ⦃always (·.network.WordSized)⦄ := by
  mvcgen [removeRegion, -removeRegion_keeps, -detachLink_keeps, -resetTopology_keeps,
    detachLink_wordSized, resetTopology_spec, region, lift] invariants
  · always (·.network.WordSized)
  all_goals first
    | exact ‹_›
    | exact (Network.WordSized.dropRegion ‹_› name).resetTopology

theorem disconnect_wordSized (src out dest inp : String) :
    ⦃fun s => ⌜s.network.WordSized⌝⦄ disconnect src out dest inp
    ⦃always (·.network.WordSized)⦄ := by
  mvcgen [disconnect, -disconnect_keeps, -detachLink_keeps, -resetTopology_keeps,
    detachLink_wordSized, resetTopology_wordSized, region, lift]

theorem setRegionDimensions_wordSized (name : String) (dims : Dimensions) :
    ⦃fun s => ⌜s.network.WordSized⌝⦄ setRegionDimensions name dims
    ⦃always (·.network.WordSized)⦄ := by
  mvcgen [setRegionDimensions, -setRegionDimensions_keeps, -resetTopology_keeps, region, lift,
    putRegion_spec, resetTopology_spec]
  -- the dimensions were checked before the region took them
  all_goals first
    | exact ‹_›
    | exact (Network.WordSized.replaceRegion ‹_› ((Network.WordSized.region ‹_› ‹_›).setDimensions
        (Dimensions.words_of_validate (liftData_eq_ok.mp ‹_›)) ‹_›)).resetTopology

theorem setPhases_wordSized (name : String) (phases : List UInt32) :
    ⦃fun s => ⌜s.network.WordSized⌝⦄ setPhases name phases ⦃always (·.network.WordSized)⦄ := by
  mvcgen [setPhases, -setPhases_keeps, region, lift, putRegion_wordSized]
  all_goals first
    | exact ‹_›
    | exact ⟨‹_›, (Network.WordSized.region ‹_› ‹_›).withPhases (Region.phaseSet_words phases)
        (phaseSet_phaseSet _)⟩

theorem setParameter_wordSized (name param : String) (v : ParameterValue) :
    ⦃fun s => ⌜s.network.WordSized⌝⦄ setParameter name param v ⦃always (·.network.WordSized)⦄ := by
  mvcgen [setParameter, -setParameter_keeps, region, lift, putRegion_spec]
  all_goals first
    | exact ‹_›
    | exact Network.WordSized.replaceRegion ‹_› ((Network.WordSized.region ‹_› ‹_›).setParameter ‹_›)

theorem executeCommand_wordSized (name : String) (args : List String) :
    ⦃fun s => ⌜s.network.WordSized⌝⦄ executeCommand name args ⦃always (·.network.WordSized)⦄ := by
  mvcgen [executeCommand, -executeCommand_keeps, region, lift, stepRegion, putRegion_spec]
  all_goals first
    | exact ‹_›
    | exact Network.WordSized.replaceRegion ‹_› ((Network.WordSized.region ‹_› ‹_›).executeCommand _)

theorem addCallback_wordSized (name : String) :
    ⦃fun s => ⌜s.network.WordSized⌝⦄ addCallback name ⦃always (·.network.WordSized)⦄ := by
  mvcgen [addCallback, -addCallback_keeps, lift]

theorem removeCallback_wordSized (name : String) :
    ⦃fun s => ⌜s.network.WordSized⌝⦄ removeCallback name ⦃always (·.network.WordSized)⦄ := by
  mvcgen [removeCallback, -removeCallback_keeps, lift]

/-!
## Propagating and setting up
-/

theorem induceThrough_wordSized (id : Nat) :
    ⦃fun s => ⌜s.network.LinkTable ∧ s.network.WordSized⌝⦄ induceThrough id
    ⦃always (·.network.WordSized)⦄ := by
  mvcgen [induceThrough, -induceThrough_keeps, stepLink, -stepLink_keeps, link, region, lift,
    putRegion_wordSized]
  -- the region at the unknown end takes the dimensions the link's policy worked out
  all_goals first
    | exact ‹_ ∧ _›.2
    | exact Network.WordSized.induceDestination ‹_ ∧ _›.1 ‹_ ∧ _›.2 ‹_› ‹_› ‹_› ‹_› ‹_›
    | exact Network.WordSized.induceSource ‹_ ∧ _›.1 ‹_ ∧ _›.2 ‹_› ‹_› ‹_› ‹_› ‹_›

/-- Each pass keeps the link table and word-sized numbers, so every number of passes does. -/
theorem induceAll_wordSized (fuel : Nat) :
    ⦃fun s => ⌜s.network.LinkTable ∧ s.network.WordSized⌝⦄ induceAll fuel
    ⦃always fun s => s.network.LinkTable ∧ s.network.WordSized⦄ := by
  have induced := fun id => always_and (induceThrough_keeps id) (induceThrough_wordSized id)
  induction fuel with
  | zero => mvcgen [induceAll, -induceAll_keeps]
  | succ fuel inductionHypothesis =>
      mvcgen [induceAll, -induceAll_keeps, -induceThrough_keeps, induced] invariants
      · always fun s => s.network.LinkTable ∧ s.network.WordSized

theorem routeLink_wordSized (id : Nat) :
    ⦃fun s => ⌜s.network.WordSized⌝⦄ routeLink id ⦃always (·.network.WordSized)⦄ := by
  mvcgen [routeLink, -routeLink_keeps, stepLink, -stepLink_keeps, link, region, lift]

theorem propagate_wordSized :
    ⦃fun s => ⌜s.network.LinkTable ∧ s.network.WordSized⌝⦄ propagate
    ⦃always (·.network.WordSized)⦄ := by
  have reset := always_and resetTopology_keeps
    (triple_of_imp resetTopology_wordSized fun _ held => held.2)
  mvcgen [propagate, -propagate_keeps, -resetTopology_keeps, -induceAll_keeps, -routeLink_keeps,
    reset, induceAll_wordSized, routeLink_wordSized, lift, setState] invariants
  · always (·.network.WordSized)
  -- the order is set between forgetting the topology and inducing, keeping the links
  all_goals first
    | exact fun _ sized => sized
    | exact ‹_ ∧ _›.2
    | obtain ⟨table, sized⟩ := ‹_ ∧ _›
      exact ⟨table.of_links_eq rfl le_rfl, sized⟩

theorem layoutInput_wordSized_from {n : Network} (sized : n.WordSized)
    (regionName inputName : String) (counts : List Nat) :
    ⦃fun s => ⌜s.network = n⌝⦄ layoutInput regionName inputName counts
    ⦃always (·.network.WordSized)⦄ := by
  mvcgen [layoutInput, -layoutInput_keeps, region, lift, putRegion_wordSized] invariants
  · post⟨fun _ s => ⌜s.network.regions = n.regions⌝, fun _ s => ⌜s.network.WordSized⌝⟩
  all_goals subst n
  -- links are stored back with new offsets, then the region with the input laid out or released
  all_goals first
    | exact sized
    | rfl
    | exact sized.of_regions ‹_›
    | exact ‹_›
    | exact ⟨sized.of_regions ‹_›, (sized.region ‹_›).of_numbers (by rfl) (by rfl)⟩

theorem layoutInputs_wordSized (name : String) :
    ⦃fun s => ⌜s.network.WordSized⌝⦄ layoutInputs name ⦃always (·.network.WordSized)⦄ := by
  have laid := fun regionName inputName counts =>
    of_from fun _ sized => layoutInput_wordSized_from sized regionName inputName counts
  mvcgen [layoutInputs, -layoutInputs_keeps, -layoutInput_keeps, laid, sourceCounts, region, link,
    lift, List.mapM_eq_reverse_foldlM_cons] invariants
  · always (·.network.WordSized)
  · always (·.network.WordSized)
  · always (·.network.WordSized)

theorem checkRequiredInputs_wordSized :
    ⦃fun s => ⌜s.network.WordSized⌝⦄ checkRequiredInputs ⦃always (·.network.WordSized)⦄ := by
  mvcgen [checkRequiredInputs, -checkRequiredInputs_keeps] invariants
  · always (·.network.WordSized)
  · always (·.network.WordSized)

theorem setUp_wordSized :
    ⦃fun s => ⌜s.network.LinkTable ∧ s.network.WordSized⌝⦄ setUp ⦃always (·.network.WordSized)⦄ := by
  mvcgen [setUp, -setUp_keeps, -propagate_keeps, -checkRequiredInputs_keeps, -layoutInputs_keeps,
    propagate_wordSized, checkRequiredInputs_wordSized, layoutInputs_wordSized, region, lift,
    stepRegion, putRegion_wordSized, setState] invariants
  · always (·.network.WordSized)
  · always (·.network.WordSized)
  · always (·.network.WordSized)
  · always (·.network.WordSized)
  · always (·.network.WordSized)
  · always (·.network.WordSized)
  -- regions are stored back sized or initialized
  all_goals first
    | exact ‹_›
    | exact ‹_ ∧ _›.2
    | exact ⟨‹_›, (Network.WordSized.region ‹_› ‹_›).sizeOutputs⟩
    | exact Network.WordSized.withFound ‹_› ‹_› (by rfl) (by rfl)

/-!
## Running
-/

theorem consolidate_wordSized (i : Input) :
    ⦃fun s => ⌜s.network.WordSized⌝⦄ consolidate i ⦃always (·.network.WordSized)⦄ := by
  mvcgen [consolidate, -consolidate_keeps, lift] invariants
  · always (·.network.WordSized)

theorem computeRegion_wordSized (name : String) :
    ⦃fun s => ⌜s.network.WordSized⌝⦄ computeRegion name ⦃always (·.network.WordSized)⦄ := by
  mvcgen [computeRegion, -computeRegion_keeps, -consolidate_keeps, consolidate_wordSized, region,
    lift, putRegion_wordSized, List.mapM_eq_reverse_foldlM_cons] invariants
  · always (·.network.WordSized)
  · always (·.network.WordSized)
  -- each input is stored back with its merged data, then the region with what it computed
  all_goals first
    | exact ‹_›
    | exact Network.WordSized.withFound ‹_› ‹_› (by rfl) (by rfl)
    | exact ⟨‹_›, (Network.WordSized.region ‹_› ‹_›).compute ‹_›⟩

theorem iterate_wordSized (order : List String) :
    ⦃fun s => ⌜s.network.WordSized⌝⦄ iterate order ⦃always (·.network.WordSized)⦄ := by
  mvcgen [iterate, -iterate_keeps, -computeRegion_keeps, computeRegion_wordSized, region, lift,
    setState] invariants
  · always (·.network.WordSized)
  · always (·.network.WordSized)

theorem run_wordSized (count : Nat) :
    ⦃fun s => ⌜s.network.LinkTable ∧ s.network.WordSized⌝⦄ run count
    ⦃always (·.network.WordSized)⦄ := by
  mvcgen [run, -run_keeps, -setUp_keeps, -iterate_keeps, setUp_wordSized, iterate_wordSized]
    invariants
  · always (·.network.WordSized)
  · always (·.network.WordSized)
  · always (·.network.WordSized)
  all_goals exact ‹_ ∧ _›.2

/-!
## Saving and loading
-/

theorem saveWithLabel_wordSized (path label : String) :
    ⦃fun s => ⌜s.network.WordSized⌝⦄ saveWithLabel path label ⦃always (·.network.WordSized)⦄ := by
  have changed := changeFiles_network Network.WordSized
  have discarded := discardTree_network Network.WordSized
  have named := siblingPath_network Network.WordSized
  have written := writeBundle_network Network.WordSized
  have replaced := replaceBundle_network Network.WordSized
  mvcgen [saveWithLabel, -saveWithLabel_keeps, setState, -siblingPath_keeps, -changeFiles_keeps,
    -writeBundle_keeps, -discardTree_keeps, -replaceBundle_keeps, named, changed, written,
    discarded, replaced]

theorem save_wordSized (path : String) :
    ⦃fun s => ⌜s.network.WordSized⌝⦄ save path ⦃always (·.network.WordSized)⦄ := by
  mvcgen [save, -save_keeps, -saveWithLabel_keeps, saveWithLabel_wordSized]

/-- A description read from a bundle reads back. -/
theorem readDescription_readable (path : String) :
    ⦃fun s => ⌜s.network.WordSized⌝⦄ readDescription path
    ⦃post⟨fun d s => ⌜s.network.WordSized ∧ d.Readable⌝, fun _ s => ⌜s.network.WordSized⌝⟩⦄ := by
  mvcgen [readDescription, -readDescription_keeps]
  all_goals first
    | exact ‹_›
    | exact ⟨‹_›, Description.readable_of_parse ‹_›⟩

theorem restoreRegion_wordSized (path label : String) (saved : RegionRecord) :
    ⦃fun s => ⌜s.network.WordSized ∧ saved.WordSized⌝⦄ restoreRegion path label saved
    ⦃always (·.network.WordSized)⦄ := by
  mvcgen [restoreRegion, -restoreRegion_keeps, validateRegionName, lift, stepFactory,
    addRegionValue_spec]
  -- the region is new, with the dimensions it was saved with when they are specified, and runs
  -- in the phases it was saved with
  all_goals first
    | exact ‹_ ∧ _›.1
    | obtain ⟨sized, savedSized⟩ := ‹_ ∧ _›
      first
        | exact sized.appendRegion (((Region.wordSized_new _ _ _ _ _).setDimensions
            (show Dimensions.Words ⟨saved.dims⟩ from savedSized.dims) ‹_›).restoredPhases savedSized)
        | exact sized.appendRegion ((Region.wordSized_new _ _ _ _ _).restoredPhases savedSized)

theorem loadDescription_wordSized (path : String) :
    ⦃fun s => ⌜s.network.WordSized⌝⦄ loadDescription path ⦃always (·.network.WordSized)⦄ := by
  mvcgen [loadDescription, discard_eq, -loadDescription_keeps, -readDescription_keeps,
    -restoreRegion_keeps, -connect_keeps, -resetTopology_keeps, readDescription_readable,
    restoreRegion_wordSized, connect_wordSized, resetTopology_wordSized] invariants
  · always (·.network.WordSized)
  · always (·.network.WordSized)
  -- each region restored is one the description lists
  all_goals first
    | exact ‹_ ∧ _›.1
    | obtain ⟨-, readable⟩ := ‹_ ∧ _›
      rename_i listed _ _ _
      exact ⟨‹_›, readable.region (by rw [listed]; simp)⟩

/-- Loading keeps word-sized numbers; a failed load empties the network. -/
theorem load_wordSized (path : String) :
    ⦃fun s => ⌜s.network.WordSized⌝⦄ load path ⦃always (·.network.WordSized)⦄ := by
  mvcgen [load, -load_keeps, -loadDescription_keeps, -resetTopology_keeps, loadDescription_wordSized,
    resetTopology_spec]
  all_goals first
    | exact id
    | exact Network.WordSized.resetTopology (Network.WordSized.of_empty (by rfl))

end Op

namespace Command

/-- Every command keeps word-sized numbers in a network with a link table, whether it succeeds or
fails. -/
theorem op_wordSized (c : Command) :
    ⦃fun s => ⌜s.network.LinkTable ∧ s.network.WordSized⌝⦄ c.op
    ⦃Op.always (·.network.WordSized)⦄ := by
  -- only setting up, which induces dimensions through links, needs the link table
  have fromSized : ∀ s : Session, s.network.LinkTable ∧ s.network.WordSized →
      s.network.WordSized := fun _ held => held.2
  cases c with
  | addRegion name typeName params =>
      exact Op.triple_of_imp (Op.addRegion_wordSized name typeName params) fromSized
  | addRegionFromBundle name typeName dims path label =>
      exact Op.triple_of_imp
        (Op.discard_triple (Op.addRegionFromBundle_wordSized name typeName dims path label))
        fromSized
  | removeRegion name => exact Op.triple_of_imp (Op.removeRegion_wordSized name) fromSized
  | connect src out dest inp policyType params =>
      exact Op.triple_of_imp
        (Op.discard_triple (Op.connect_wordSized src out dest inp policyType params)) fromSized
  | disconnect src out dest inp =>
      exact Op.triple_of_imp (Op.disconnect_wordSized src out dest inp) fromSized
  | setRegionDimensions name dims =>
      exact Op.triple_of_imp (Op.setRegionDimensions_wordSized name dims) fromSized
  | setPhases name phases => exact Op.triple_of_imp (Op.setPhases_wordSized name phases) fromSized
  | setMinEnabled phase =>
      mvcgen [op, Op.setMinEnabled]
      exact ‹_ ∧ _›.2
  | setMaxEnabled phase =>
      mvcgen [op, Op.setMaxEnabled]
      exact ‹_ ∧ _›.2
  | propagate => exact Op.propagate_wordSized
  | setUp => exact Op.setUp_wordSized
  | run count => exact Op.run_wordSized count
  | setParameter name param value =>
      exact Op.triple_of_imp (Op.setParameter_wordSized name param value) fromSized
  | executeCommand name args =>
      exact Op.triple_of_imp (Op.discard_triple (Op.executeCommand_wordSized name args)) fromSized
  | saveWithLabel path label =>
      exact Op.triple_of_imp (Op.saveWithLabel_wordSized path label) fromSized
  | save path => exact Op.triple_of_imp (Op.save_wordSized path) fromSized
  | load path => exact Op.triple_of_imp (Op.load_wordSized path) fromSized
  | addCallback name => exact Op.triple_of_imp (Op.addCallback_wordSized name) fromSized
  | removeCallback name => exact Op.triple_of_imp (Op.removeCallback_wordSized name) fromSized
  | enableProfiling =>
      exact Op.triple_of_imp (Op.eachRegion_wordSized (fun r => { r with profiling := true })
        fun _ kept => kept.of_numbers rfl rfl) fromSized
  | disableProfiling =>
      exact Op.triple_of_imp (Op.eachRegion_wordSized (fun r => { r with profiling := false })
        fun _ kept => kept.of_numbers rfl rfl) fromSized
  | resetProfiling =>
      exact Op.triple_of_imp (Op.eachRegion_wordSized Region.resetProfiling
        fun _ kept => kept.of_numbers rfl rfl) fromSized

end Command

/-- Every region of a reachable network has word-sized numbers. -/
theorem Reachable.wordSized {s : Session} (reachable : Reachable s) : s.network.WordSized := by
  induction reachable with
  | fresh empty => exact Network.WordSized.of_empty (by rw [empty]; rfl)
  | command c before sized => exact Op.leaves_of_triple c.op_wordSized ⟨before.linkTable, sized⟩
  | environment _ same sized => exact sized.of_regions (by rw [same])

/-- The description of a network with word-sized numbers reads back. -/
theorem Network.WordSized.describe_readable {n : Network} (sized : n.WordSized) (label : String) :
    (Op.describe n label).Readable where
  version := by
    show Description.formatVersion < pow2 32
    decide
  dims := by
    intro saved member
    obtain ⟨r, inItems, rfl⟩ := List.mem_map.mp member
    exact (sized r inItems).dims
  phases := by
    intro saved member
    obtain ⟨r, inItems, rfl⟩ := List.mem_map.mp member
    exact (sized r inItems).phases
  phaseSets := by
    intro saved member
    obtain ⟨r, inItems, rfl⟩ := List.mem_map.mp member
    exact (sized r inItems).normal

/-- The description of a reachable network, saved under any label, reads back. -/
theorem Reachable.readable {s : Session} (reachable : Reachable s) (label : String) :
    (Op.describe s.network label).Readable :=
  reachable.wordSized.describe_readable label

end RegionNet

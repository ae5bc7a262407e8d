import RegionNet.Proofs.Routing
import RegionNet.Proofs.Coverage

set_option mvcgen.warning false

namespace RegionNet

open Std.Do

/-!
# The link table

A network numbers its links apart, each below the next number it will hand out, and every link
keeps the policy it was made with: told nothing, with a layout that passed the parameter check
(`Network.LinkTable`). Routing and propagation rely on it: a link is found under its number,
storing it back touches no other link, a reset gives it a policy that still has to be told both
ends, and the dimensions it induces come from checked windows.

This module shows that every operation on a network keeps the table, whether it succeeds or
fails: each operation gets a triple with the table as precondition and as both postconditions,
built by the verification condition generator from the triples of the steps it makes.
-/

namespace Link

/-- A policy made from its text is told nothing yet. -/
theorem BuiltinPolicy.create_untold
    {k : BuiltinPolicy}
    {params : String}
    {p : LinkPolicy}
    (made : k.create params = .ok p) :
    p = { kind := p.kind } := by
  cases k with
  | uniform =>
      simp only [BuiltinPolicy.create, LinkPolicy.uniform, bind, Except.bind] at made
      split at made
      · cases made
      · cases made
        rfl
  | halving =>
      simp only [BuiltinPolicy.create, LinkPolicy.halving] at made
      split at made
      · cases made
      · cases made
        rfl

/-- A policy as made from its text: told nothing yet, with a layout that passed the check. -/
structure LinkPolicy.Made (p : LinkPolicy) : Prop where
  untold : p = { kind := p.kind }
  laidOut : p.kind.CheckedLayout

/-- A new link has the number it was given and keeps the policy made from its text. -/
theorem new_eq_ok
    {id : Nat}
    {policyType params : String}
    {k : BuiltinPolicy}
    {e : Endpoints}
    {l : Link}
    (made : Link.new id policyType params k e = .ok l) :
    l.id = id ∧ l.fresh.Made := by
  simp only [Link.new, bind, Except.bind] at made
  split at made
  · cases made
  · rename_i p created
    cases made
    exact ⟨rfl, BuiltinPolicy.create_untold created, BuiltinPolicy.create_checked created⟩

/-- Preparing a link keeps the policy it was made with. -/
theorem prepare_fst_fresh (l : Link) : l.prepare.1.fresh = l.fresh := by
  unfold prepare
  split
  · rfl
  · split <;> rfl

end Link

namespace Network

/--
The links are numbered apart and below the next number, and each keeps the policy it was made
with from its text.
-/
structure LinkTable (n : Network) : Prop where
  distinct : n.linkIds.Nodup
  below : ∀ id ∈ n.linkIds, id < n.nextLink
  made : ∀ l ∈ n.links, l.fresh.Made

/-- A network without links has a table. -/
theorem linkTable_of_links_nil {n : Network} (empty : n.links = []) : n.LinkTable :=
  ⟨by simp [linkIds, empty], by simp [linkIds, empty], by simp [empty]⟩

namespace LinkTable

variable {n m : Network}

/-- The same links, with a next number no lower, keep the table. -/
theorem of_links_eq
    (table : n.LinkTable)
    (links : m.links = n.links)
    (next : n.nextLink ≤ m.nextLink) :
    m.LinkTable where
  distinct := by simpa [linkIds, links] using table.distinct
  below := fun id member => by
    have := table.below id (by simpa [linkIds, links] using member)
    omega
  made := fun l member => table.made l (links ▸ member)

/-- Storing a link back, with the policy the found link was made with, keeps the table. -/
theorem replaceLink
    (table : n.LinkTable)
    {l : Link}
    (made : l.fresh.Made) :
    (n.replaceLink l).LinkTable where
  distinct := by simpa using table.distinct
  below := by simpa using table.below
  made := by
    intro x member
    rcases mem_replaceLink member with rfl | old
    · exact made
    · exact table.made x old

/-- Resetting every link keeps the table. -/
theorem of_map_reset
    (table : n.LinkTable)
    (links : m.links = n.links.map Link.reset)
    (next : n.nextLink ≤ m.nextLink) :
    m.LinkTable where
  distinct := by simpa [linkIds, links, Link.reset, Function.comp_def] using table.distinct
  below := fun id member => by
    have := table.below id (by simpa [linkIds, links, Link.reset, Function.comp_def] using member)
    omega
  made := by
    rw [links]
    simp only [List.mem_map, forall_exists_index, and_imp, forall_apply_eq_imp_iff₂]
    exact table.made

/-- Dropping links keeps the table. -/
theorem of_filter
    (table : n.LinkTable)
    {keep : Link → Bool}
    (links : m.links = n.links.filter keep)
    (next : n.nextLink ≤ m.nextLink) :
    m.LinkTable where
  distinct := by
    rw [linkIds, links]
    exact table.distinct.sublist (List.filter_sublist.map _)
  below := fun id member => by
    rw [linkIds, links] at member
    have := table.below id ((List.filter_sublist.map _).subset member)
    omega
  made := fun l member => table.made l (List.mem_of_mem_filter (links ▸ member))

/-- A link with the policy of one of the links keeps the policy made from its text. -/
theorem made_of_mem
    {x l : Link}
    (member : x ∈ n.links)
    (table : n.LinkTable)
    (same : l.fresh = x.fresh) :
    l.fresh.Made := by
  rw [same]
  exact table.made x member

/-- A link with the policy of a link found by number keeps the policy made from its text. -/
theorem made_of_found
    {id : Nat}
    {x l : Link}
    (found : n.link id = .ok x)
    (table : n.LinkTable)
    (same : l.fresh = x.fresh) :
    l.fresh.Made :=
  table.made_of_mem (link_eq_ok found).1 same

/-- Adding a link under the next number, made with a policy from its text, keeps the table. -/
theorem of_append
    (table : n.LinkTable)
    {l : Link}
    (numbered : l.id = n.nextLink)
    (made : l.fresh.Made)
    (links : m.links = n.links ++ [l])
    (next : n.nextLink < m.nextLink) :
    m.LinkTable where
  distinct := by
    have fresh : l.id ∉ n.linkIds := fun taken => by
      have := table.below _ taken
      omega
    simp only [linkIds, links, List.map_append, List.map_cons, List.map_nil]
    exact List.Nodup.append table.distinct (List.nodup_singleton _)
      (List.disjoint_singleton.mpr fresh)
  below := by
    intro id member
    simp only [linkIds, links, List.map_append, List.map_cons, List.map_nil, List.mem_append,
      List.mem_singleton] at member
    rcases member with old | rfl
    · have := table.below id old
      omega
    · omega
  made := by
    intro x member
    rw [links] at member
    rcases List.mem_append.mp member with old | added
    · exact table.made x old
    · rw [List.mem_singleton.mp added]
      exact made

end LinkTable

end Network

namespace Op

/-!
## Every operation keeps the table

Most operations leave the links alone; their conditions are closed by `of_links_eq`. Those that
touch links store back a link whose policy is the one it was found with (`made_of_found`),
drop links (`of_filter`), reset them (`of_map_reset`) or append a new one (`of_append`).
-/

@[spec] theorem resetTopology_keeps :
    ⦃fun s => ⌜s.network.LinkTable⌝⦄ resetTopology ⦃always (·.network.LinkTable)⦄ := by
  mvcgen [resetTopology]
  rename_i s table
  exact table.of_map_reset rfl le_rfl

@[spec] theorem stepLink_keeps {α : Type} (r : Link × Except EngineError α) :
    ⦃fun s => ⌜s.network.LinkTable ∧ r.1.fresh.Made⌝⦄
    stepLink r
    ⦃always (·.network.LinkTable)⦄ := by
  mvcgen [stepLink, lift]
  all_goals
    rename_i kept _ _
    exact kept.1.replaceLink kept.2

@[spec] theorem eachRegion_keeps (f : Region → Region) :
    ⦃fun s => ⌜s.network.LinkTable⌝⦄ eachRegion f ⦃always (·.network.LinkTable)⦄ := by
  mvcgen [eachRegion]
  rename_i s table
  exact table.of_links_eq rfl le_rfl

@[spec] theorem detachLink_keeps (id : Nat) :
    ⦃fun s => ⌜s.network.LinkTable⌝⦄ detachLink id ⦃always (·.network.LinkTable)⦄ := by
  mvcgen [detachLink, link, lift, putRegion] with
    exact Network.LinkTable.of_filter (by assumption) (by rfl) (by simp +zetaDelta)

@[spec] theorem connect_keeps (src out dest inp policyType params : String) :
    ⦃fun s => ⌜s.network.LinkTable⌝⦄
    connect src out dest inp policyType params
    ⦃always (·.network.LinkTable)⦄ := by
  -- before the new link is appended the links stay as they were; then it is appended
  mvcgen [connect, region, lift, putRegion] with
    first
    | exact Network.LinkTable.of_links_eq (by assumption) (by rfl) (by simp +zetaDelta)
    | obtain ⟨numbered, made⟩ := Link.new_eq_ok (by assumption)
      refine Network.LinkTable.of_append ?_ numbered made (by rfl) (by simp +zetaDelta)
      assumption

@[spec] theorem removeRegion_keeps (name : String) :
    ⦃fun s => ⌜s.network.LinkTable⌝⦄ removeRegion name ⦃always (·.network.LinkTable)⦄ := by
  mvcgen [removeRegion, region, lift] invariants
  · always (·.network.LinkTable)
  with exact Network.LinkTable.of_links_eq (by assumption) (by rfl) (by simp +zetaDelta)

@[spec] theorem disconnect_keeps (src out dest inp : String) :
    ⦃fun s => ⌜s.network.LinkTable⌝⦄ disconnect src out dest inp
    ⦃always (·.network.LinkTable)⦄ := by
  mvcgen [disconnect, region, lift]

@[spec] theorem setRegionDimensions_keeps (name : String) (dims : Dimensions) :
    ⦃fun s => ⌜s.network.LinkTable⌝⦄ setRegionDimensions name dims
    ⦃always (·.network.LinkTable)⦄ := by
  mvcgen [setRegionDimensions, region, lift, putRegion] with
    exact Network.LinkTable.of_links_eq (by assumption) (by rfl) (by simp +zetaDelta)

@[spec] theorem setPhases_keeps (name : String) (phases : List UInt32) :
    ⦃fun s => ⌜s.network.LinkTable⌝⦄ setPhases name phases ⦃always (·.network.LinkTable)⦄ := by
  mvcgen [setPhases, region, lift, putRegion] with
    exact Network.LinkTable.of_links_eq (by assumption) (by rfl) (by simp +zetaDelta)

@[spec] theorem addCallback_keeps (name : String) :
    ⦃fun s => ⌜s.network.LinkTable⌝⦄ addCallback name ⦃always (·.network.LinkTable)⦄ := by
  mvcgen [addCallback, lift] with
    exact Network.LinkTable.of_links_eq (by assumption) (by rfl) (by simp +zetaDelta)

@[spec] theorem removeCallback_keeps (name : String) :
    ⦃fun s => ⌜s.network.LinkTable⌝⦄ removeCallback name ⦃always (·.network.LinkTable)⦄ := by
  mvcgen [removeCallback, lift] with
    exact Network.LinkTable.of_links_eq (by assumption) (by rfl) (by simp +zetaDelta)

@[spec] theorem setParameter_keeps (name param : String) (v : ParameterValue) :
    ⦃fun s => ⌜s.network.LinkTable⌝⦄ setParameter name param v
    ⦃always (·.network.LinkTable)⦄ := by
  mvcgen [setParameter, region, lift, putRegion] with
    exact Network.LinkTable.of_links_eq (by assumption) (by rfl) (by simp +zetaDelta)

@[spec] theorem executeCommand_keeps (name : String) (args : List String) :
    ⦃fun s => ⌜s.network.LinkTable⌝⦄ executeCommand name args
    ⦃always (·.network.LinkTable)⦄ := by
  mvcgen [executeCommand, region, lift, stepRegion, putRegion] with
    exact Network.LinkTable.of_links_eq (by assumption) (by rfl) (by simp +zetaDelta)

@[spec] theorem addRegion_keeps (name typeName params : String) :
    ⦃fun s => ⌜s.network.LinkTable⌝⦄ addRegion name typeName params
    ⦃always (·.network.LinkTable)⦄ := by
  mvcgen [addRegion, checkNewRegion, validateRegionName, stepFactory, lift, addRegionValue] with
    exact Network.LinkTable.of_links_eq (by assumption) (by rfl) (by simp +zetaDelta)

@[spec] theorem addRegionFromBundle_keeps
    (name typeName : String)
    (dims : Dimensions)
    (path label : String) :
    ⦃fun s => ⌜s.network.LinkTable⌝⦄ addRegionFromBundle name typeName dims path label
    ⦃always (·.network.LinkTable)⦄ := by
  mvcgen [addRegionFromBundle, checkNewRegion, validateRegionName, stepFactory, lift,
    addRegionValue, region] with
    exact Network.LinkTable.of_links_eq (by assumption) (by rfl) (by simp +zetaDelta)

section Checkpoint

@[spec] theorem changeFiles_keeps (f : Files.FileSystem → Except Files.IoError Files.FileSystem) :
    ⦃fun s => ⌜s.network.LinkTable⌝⦄ changeFiles f ⦃always (·.network.LinkTable)⦄ := by
  mvcgen [changeFiles]

@[spec] theorem discardTree_keeps (path : String) :
    ⦃fun s => ⌜s.network.LinkTable⌝⦄ discardTree path ⦃always (·.network.LinkTable)⦄ := by
  mvcgen [discardTree]

@[spec] theorem siblingPath_keeps (path tag : String) :
    ⦃fun s => ⌜s.network.LinkTable⌝⦄ siblingPath path tag ⦃always (·.network.LinkTable)⦄ := by
  mvcgen [siblingPath]

@[spec] theorem writeBundle_keeps (dir label : String) :
    ⦃fun s => ⌜s.network.LinkTable⌝⦄ writeBundle dir label ⦃always (·.network.LinkTable)⦄ := by
  mvcgen [writeBundle, lift] invariants
  · always (·.network.LinkTable)
  · always (·.network.LinkTable)

@[spec] theorem replaceBundle_keeps (staging path : String) :
    ⦃fun s => ⌜s.network.LinkTable⌝⦄ replaceBundle staging path
    ⦃always (·.network.LinkTable)⦄ := by
  mvcgen [replaceBundle]

@[spec] theorem saveWithLabel_keeps (path label : String) :
    ⦃fun s => ⌜s.network.LinkTable⌝⦄ saveWithLabel path label ⦃always (·.network.LinkTable)⦄ := by
  mvcgen [saveWithLabel, setState] with
    exact Network.LinkTable.of_links_eq (by assumption) (by rfl) (by simp +zetaDelta)

@[spec] theorem save_keeps (path : String) :
    ⦃fun s => ⌜s.network.LinkTable⌝⦄ save path ⦃always (·.network.LinkTable)⦄ := by
  mvcgen [save]

@[spec] theorem readDescription_keeps (path : String) :
    ⦃fun s => ⌜s.network.LinkTable⌝⦄ readDescription path ⦃always (·.network.LinkTable)⦄ := by
  mvcgen [readDescription]

@[spec] theorem restoreRegion_keeps (path label : String) (saved : RegionRecord) :
    ⦃fun s => ⌜s.network.LinkTable⌝⦄ restoreRegion path label saved
    ⦃always (·.network.LinkTable)⦄ := by
  mvcgen [restoreRegion, validateRegionName, lift, stepFactory, addRegionValue] with
    exact Network.LinkTable.of_links_eq (by assumption) (by rfl) (by simp +zetaDelta)

@[spec] theorem loadDescription_keeps (path : String) :
    ⦃fun s => ⌜s.network.LinkTable⌝⦄ loadDescription path ⦃always (·.network.LinkTable)⦄ := by
  mvcgen [loadDescription, discard_eq] invariants
  · always (·.network.LinkTable)
  · always (·.network.LinkTable)

/-- A failed load empties the network, which has a table again. -/
@[spec] theorem load_keeps (path : String) :
    ⦃fun s => ⌜s.network.LinkTable⌝⦄ load path ⦃always (·.network.LinkTable)⦄ := by
  mvcgen [load] with
    first
    | exact id
    | exact Network.linkTable_of_links_nil rfl

end Checkpoint

section Layout

@[spec] theorem induceThrough_keeps (id : Nat) :
    ⦃fun s => ⌜s.network.LinkTable⌝⦄ induceThrough id ⦃always (·.network.LinkTable)⦄ := by
  mvcgen [induceThrough, link, region, lift, putRegion] with
    first
    | exact Network.LinkTable.of_links_eq (by assumption) (by rfl) (by simp +zetaDelta)
    | exact ⟨by assumption, Network.LinkTable.made_of_found (by assumption) (by assumption)
        (by simp +zetaDelta [Link.reset])⟩

/-- Each pass keeps the table, so every number of passes does. -/
@[spec] theorem induceAll_keeps (fuel : Nat) :
    ⦃fun s => ⌜s.network.LinkTable⌝⦄ induceAll fuel ⦃always (·.network.LinkTable)⦄ := by
  induction fuel with
  | zero => mvcgen [induceAll]
  | succ fuel inductionHypothesis =>
      mvcgen [induceAll] invariants
      · always (·.network.LinkTable)

@[spec] theorem routeLink_keeps (id : Nat) :
    ⦃fun s => ⌜s.network.LinkTable⌝⦄ routeLink id ⦃always (·.network.LinkTable)⦄ := by
  mvcgen [routeLink, link, region, lift] with
    exact ⟨by assumption, Network.LinkTable.made_of_found (by assumption) (by assumption)
      (by simp +zetaDelta [Link.prepare_fst_fresh, Link.reset])⟩

@[spec] theorem propagate_keeps :
    ⦃fun s => ⌜s.network.LinkTable⌝⦄ propagate ⦃always (·.network.LinkTable)⦄ := by
  mvcgen [propagate, lift, setState] invariants
  · always (·.network.LinkTable)
  with exact Network.LinkTable.of_links_eq (by assumption) (by rfl) (by simp +zetaDelta)

@[spec] theorem layoutInput_keeps (regionName inputName : String) (counts : List Nat) :
    ⦃fun s => ⌜s.network.LinkTable⌝⦄ layoutInput regionName inputName counts
    ⦃always (·.network.LinkTable)⦄ := by
  -- a link is stored back with a new offset and the policy it was found with
  mvcgen [layoutInput, region, lift, putRegion] invariants
  · always (·.network.LinkTable)
  with
    first
    | exact Network.LinkTable.of_links_eq (by assumption) (by rfl) (by simp +zetaDelta)
    | exact Network.LinkTable.replaceLink (by assumption)
        (Network.LinkTable.made_of_mem (List.mem_of_find?_eq_some (by assumption))
          (by assumption) (by rfl))

@[spec] theorem layoutInputs_keeps (name : String) :
    ⦃fun s => ⌜s.network.LinkTable⌝⦄ layoutInputs name ⦃always (·.network.LinkTable)⦄ := by
  mvcgen [layoutInputs, sourceCounts, region, link, lift, List.mapM_eq_reverse_foldlM_cons]
    invariants
  · always (·.network.LinkTable)
  · always (·.network.LinkTable)
  · always (·.network.LinkTable)

@[spec] theorem checkRequiredInputs_keeps :
    ⦃fun s => ⌜s.network.LinkTable⌝⦄ checkRequiredInputs ⦃always (·.network.LinkTable)⦄ := by
  mvcgen [checkRequiredInputs] invariants
  · always (·.network.LinkTable)
  · always (·.network.LinkTable)

@[spec] theorem setUp_keeps :
    ⦃fun s => ⌜s.network.LinkTable⌝⦄ setUp ⦃always (·.network.LinkTable)⦄ := by
  -- the three passes over the order appear once after propagating and once without
  mvcgen [setUp, region, lift, stepRegion, putRegion, setState] invariants
  · always (·.network.LinkTable)
  · always (·.network.LinkTable)
  · always (·.network.LinkTable)
  · always (·.network.LinkTable)
  · always (·.network.LinkTable)
  · always (·.network.LinkTable)
  with exact Network.LinkTable.of_links_eq (by assumption) (by rfl) (by simp +zetaDelta)

end Layout

section Run

@[spec] theorem consolidate_keeps (i : Input) :
    ⦃fun s => ⌜s.network.LinkTable⌝⦄ consolidate i ⦃always (·.network.LinkTable)⦄ := by
  mvcgen [consolidate, lift] invariants
  · always (·.network.LinkTable)

@[spec] theorem computeRegion_keeps (name : String) :
    ⦃fun s => ⌜s.network.LinkTable⌝⦄ computeRegion name ⦃always (·.network.LinkTable)⦄ := by
  mvcgen [computeRegion, region, lift, putRegion, List.mapM_eq_reverse_foldlM_cons] invariants
  · always (·.network.LinkTable)
  · always (·.network.LinkTable)
  with exact Network.LinkTable.of_links_eq (by assumption) (by rfl) (by simp +zetaDelta)

@[spec] theorem iterate_keeps (order : List String) :
    ⦃fun s => ⌜s.network.LinkTable⌝⦄ iterate order ⦃always (·.network.LinkTable)⦄ := by
  mvcgen [iterate, region, lift, setState] invariants
  · always (·.network.LinkTable)
  · always (·.network.LinkTable)
  with exact Network.LinkTable.of_links_eq (by assumption) (by rfl) (by simp +zetaDelta)

@[spec] theorem run_keeps (count : Nat) :
    ⦃fun s => ⌜s.network.LinkTable⌝⦄ run count ⦃always (·.network.LinkTable)⦄ := by
  mvcgen [run] invariants
  · always (·.network.LinkTable)
  · always (·.network.LinkTable)
  · always (·.network.LinkTable)

end Run

end Op

end RegionNet

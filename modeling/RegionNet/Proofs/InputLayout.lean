import RegionNet.Proofs.OutputSizing

namespace RegionNet

/-!
# Initializing lays out every input

Initializing sizes every output, then lays out every input over the links feeding it, then marks
every region initialized (`Network.setUpPasses`). Started from a wired network that propagation
left, the passes leave a laid-out network (`Network.setUpPasses_laidOut`).
-/

/-- An input's map grows link by link: merging a link's entries, shifted by its offset, into the
map of the links before it gives the map of all of them. -/
theorem mergeRoutes_linkedMap {links : List Link} {l : Link} {nodes : Nat}
    (length : l.routes.length = nodes) :
    mergeRoutes (linkedMap links nodes) l.routes l.offset = linkedMap (links ++ [l]) nodes := by
  apply List.ext_getElem
  · simp [mergeRoutes, linkedMap, length]
  · intro node inMerged inLinked
    have below : node < nodes := by simpa [linkedMap] using inLinked
    have inRoutes : node < l.routes.length := length ▸ below
    have entry : l.routes[node]? = some l.routes[node] := List.getElem?_eq_getElem inRoutes
    simp [mergeRoutes, linkedMap, entry]

/-- Merging the links' entries one after the other gives their map. -/
theorem foldl_mergeRoutes {nodes : Nat} {placed : List Link}
    (lengths : ∀ l ∈ placed, l.routes.length = nodes) (links : List Link) :
    placed.foldl (fun routes l => mergeRoutes routes l.routes l.offset) (linkedMap links nodes) =
      linkedMap (links ++ placed) nodes := by
  induction placed generalizing links with
  | nil => simp
  | cons l placed inductionHypothesis =>
      rw [List.foldl_cons, mergeRoutes_linkedMap (lengths l List.mem_cons_self),
        inductionHypothesis fun x member => lengths x (List.mem_cons_of_mem l member)]
      simp

/-- No links give every node an empty entry. -/
@[simp] theorem linkedMap_nil (nodes : Nat) : linkedMap [] nodes = List.replicate nodes [] := by
  simp [linkedMap]

/-- The counts zipped with a list as long, cut after `j`, are the first `j` counts. -/
theorem map_snd_take_zip {α β : Type} {xs : List α} {ys : List β} (sameLength : xs.length = ys.length)
    (j : Nat) : ((xs.zip ys).take j).map (·.2) = ys.take j := by
  rw [List.zip_eq_zipWith, List.take_zipWith, ← List.zip_eq_zipWith]
  exact List.map_snd_zip (by simp [sameLength])

/-- Mapping a partial function over a list reads it only on the list. -/
theorem mapM_option_congr {α β : Type} {f g : α → Option β} {xs : List α}
    (same : ∀ x ∈ xs, f x = g x) : xs.mapM f = xs.mapM g := by
  induction xs with
  | nil => rfl
  | cons x rest inductionHypothesis =>
      simp only [List.mapM_cons, same x List.mem_cons_self,
        inductionHypothesis fun y member => same y (List.mem_cons_of_mem x member)]

/-- A list mapped through a partial function gives a result exactly when each element does. -/
theorem mapM_option_eq_some_iff {α β : Type} (f : α → Option β) (xs : List α) (ys : List β) :
    xs.mapM f = some ys ↔ List.Forall₂ (fun x y => f x = some y) xs ys := by
  induction xs generalizing ys with
  | nil => cases ys <;> simp [pure]
  | cons x rest inductionHypothesis =>
      rw [List.mapM_cons]
      cases headResult : f x with
      | none => cases ys <;> simp [headResult]
      | some y =>
          cases restResult : rest.mapM f with
          | none => cases ys <;> simp [← inductionHypothesis, restResult, headResult]
          | some tail =>
              cases ys <;> simp [pure, ← inductionHypothesis, restResult, headResult]

/-- The first elements of a zip are a part of the first list. -/
theorem map_fst_zip_sublist {α β : Type} (xs : List α) (ys : List β) :
    List.Sublist ((xs.zip ys).map (·.1)) xs := by
  induction xs generalizing ys with
  | nil => simp
  | cons x rest inductionHypothesis =>
      cases ys with
      | nil => simp
      | cons y others => simpa using (inductionHypothesis others).cons_cons x

namespace Link

/-- A link without its offset: all that laying out an input leaves of it. -/
def unplaced (l : Link) : Link := { l with offset := 0 }

@[simp] theorem unplaced_id (l : Link) : l.unplaced.id = l.id := rfl

@[simp] theorem unplaced_routes (l : Link) : l.unplaced.routes = l.routes := rfl

@[simp] theorem unplaced_endpoints (l : Link) : l.unplaced.endpoints = l.endpoints := rfl

/-- A link placed at an offset is the link it was made from, unplaced. -/
@[simp] theorem unplaced_withOffset (l : Link) (offset : Nat) :
    ({ l with offset } : Link).unplaced = l.unplaced := rfl

end Link

namespace Region

/-- What sizing settles of a region, and laying out its inputs and initializing it keep: its name,
dimensions, declaration, implementation and outputs. -/
def sizedView (r : Region) : String × Dimensions × RegionSpec × Implementation × Collection Output :=
  (r.name, r.dims, r.spec, r.impl, r.outputs)

end Region

namespace Network

/-- What feeding reads of a network's regions: each region's outputs, under its name. -/
def outputsView (n : Network) : List (String × Collection Output) :=
  n.regions.entries.map fun e => (e.1, e.2.outputs)

variable {m n : Network}

/-- A link found under a number in a network whose regions hold the same outputs, joining the
ports of the link found in the other, is fed by the same output. -/
theorem feed_of_find?
    (outputs : m.outputsView = n.outputsView)
    {id : Nat}
    {l l' : Link}
    (found' : m.links.find? (·.id == id) = some l')
    (found : n.links.find? (·.id == id) = some l)
    (ends : l'.endpoints = l.endpoints) :
    m.feed id = (n.feed id).map fun f => (l', f.2) := by
  have sources := Collection.find?_map_of_map_eq outputs l.endpoints.srcRegion
  cases srcFound : n.regions.find? l.endpoints.srcRegion with
  | none =>
      rw [srcFound, Option.map_none, Option.map_eq_none_iff] at sources
      simp [feed, found, found', srcFound, sources, ends]
  | some src =>
      rw [srcFound, Option.map_some, Option.map_eq_some_iff] at sources
      obtain ⟨src', srcFound', sameOutputs⟩ := sources
      simp [feed, found, found', srcFound, srcFound', sameOutputs, ends]

/-- Networks whose regions hold the same outputs and find the same link under a number feed it
alike. -/
theorem feed_eq_of_find?_eq
    (outputs : m.outputsView = n.outputsView)
    {id : Nat}
    (same : m.links.find? (·.id == id) = n.links.find? (·.id == id)) :
    m.feed id = n.feed id := by
  cases found : n.links.find? (·.id == id) with
  | none =>
      rw [found] at same
      simp [feed, found, same]
  | some l =>
      rw [found] at same
      rw [feed_of_find? outputs same found rfl]
      cases fed : n.feed id with
      | none => rfl
      | some f =>
          obtain ⟨src, o, found₀, -⟩ := feed_eq_some_iff.mp fed
          rw [found, Option.some.injEq] at found₀
          subst found₀
          rfl

/-- Networks whose regions hold the same outputs and whose links agree but for their offsets feed
every link with the same routes from outputs of the same counts. -/
theorem feed_unplaced
    (outputs : m.outputsView = n.outputsView)
    (links : m.links.map Link.unplaced = n.links.map Link.unplaced)
    (id : Nat) :
    (m.feed id).map (fun f => (f.1.unplaced, f.2)) = (n.feed id).map fun f => (f.1.unplaced, f.2) := by
  have searched := congrArg (List.find? (·.id == id)) links
  simp only [List.find?_map, Function.comp_def, Link.unplaced_id] at searched
  cases found : n.links.find? (·.id == id) with
  | none =>
      rw [found, Option.map_none, Option.map_eq_none_iff] at searched
      simp [feed, found, searched]
  | some l =>
      rw [found, Option.map_some, Option.map_eq_some_iff] at searched
      obtain ⟨l', found', same⟩ := searched
      have ends : l'.endpoints = l.endpoints := by
        simpa using congrArg Link.endpoints same
      rw [feed_of_find? outputs found' found ends, Option.map_map]
      cases fed : n.feed id with
      | none => rfl
      | some f =>
          obtain ⟨src, o, found₀, -⟩ := feed_eq_some_iff.mp fed
          rw [found, Option.some.injEq] at found₀
          subst found₀
          simp [same]

/-- Routes inside their sources read only the routes and the counts feeding gives. -/
theorem FeedsInside.of_unplaced
    (inside : n.FeedsInside)
    (outputs : m.outputsView = n.outputsView)
    (links : m.links.map Link.unplaced = n.links.map Link.unplaced) :
    m.FeedsInside := by
  intro id l count fed
  have agree := feed_unplaced outputs links id
  rw [fed, Option.map_some] at agree
  obtain ⟨⟨l₀, count₀⟩, fed₀, same⟩ := Option.map_eq_some_iff.mp agree.symm
  simp only [Prod.mk.injEq] at same
  rw [← same.2, ← Link.unplaced_routes l, ← same.1, Link.unplaced_routes]
  exact inside id l₀ count₀ fed₀

/--
What the steps of laying out an input did, read off a successful run over link numbers `xs`
with counts, started from links `links`, map `routes` and offset `offset`: each link of a number
was placed, the link found under it with the offset reached; the offsets are the sums of the
counts before; and the run ends with the placed links stored, their entries merged, and the
offset moved past all the counts.
-/
theorem foldlM_layoutStep_eq_some {nodes : Nat} {xs : List (Nat × Nat)}
    (apart : (xs.map (·.1)).Nodup) {links : List Link} {routes : List (List Nat)} {offset : Nat}
    {result : List Link × List (List Nat) × Nat}
    (ran : xs.foldlM (layoutStep nodes) (links, routes, offset) = some result) :
    ∃ placed : List Link,
      placed.map (·.id) = xs.map (·.1) ∧
      (∀ l ∈ placed, l.routes.length = nodes ∧ ∃ x ∈ links, { x with offset := l.offset } = l) ∧
      (∀ j (h : j < placed.length), placed[j].offset = offset + ((xs.take j).map (·.2)).sum) ∧
      result = (links.map fun x => (placed.find? (·.id == x.id)).getD x,
        placed.foldl (fun routes l => mergeRoutes routes l.routes l.offset) routes,
        offset + (xs.map (·.2)).sum) := by
  induction xs generalizing links routes offset with
  | nil =>
      simp only [List.foldlM_nil, pure, Option.some.injEq] at ran
      subst ran
      exact ⟨[], rfl, by simp, by simp, by simp⟩
  | cons p rest inductionHypothesis =>
      rw [List.foldlM_cons] at ran
      obtain ⟨next, step, ran⟩ := Option.bind_eq_some_iff.mp ran
      simp only [layoutStep, bind, Option.bind_eq_some_iff] at step
      obtain ⟨l, found, step⟩ := step
      split at step
      · cases step
      rename_i fits
      simp only [pure, Option.some.injEq] at step
      subst step
      rw [List.map_cons, List.nodup_cons] at apart
      have numbered : l.id = p.1 := by simpa using List.find?_some found
      obtain ⟨placed, numbers, each, offsets, rfl⟩ := inductionHypothesis apart.2 ran
      refine ⟨{ l with offset } :: placed, by simp [numbers, numbered], ?_, ?_, ?_⟩
      · intro x member
        rcases List.mem_cons.mp member with rfl | later
        · exact ⟨not_not.mp fits, l, List.mem_of_find?_eq_some found, rfl⟩
        · obtain ⟨length, y, present, placedFrom⟩ := each x later
          obtain ⟨z, present', rfl⟩ := List.mem_map.mp present
          refine ⟨length, ?_⟩
          -- the link a later step found is one of the links, or the one placed here
          by_cases replaced : z.id == l.id
          · exact ⟨l, List.mem_of_find?_eq_some found, by simpa [replaced] using placedFrom⟩
          · exact ⟨z, present', by simpa [replaced] using placedFrom⟩
      · intro j below
        cases j with
        | zero => simp
        | succ j =>
            simp only [List.getElem_cons_succ, List.take_succ_cons, List.map_cons, List.sum_cons]
            rw [offsets j (by simpa using below)]
            omega
      · -- a link placed here is found again by no later step, whose numbers are apart from it
        have later : ∀ x : Link, x.id = l.id → placed.find? (·.id == x.id) = none := by
          intro x same
          rw [List.find?_eq_none]
          intro y member
          have listed : y.id ∈ placed.map (·.id) := List.mem_map_of_mem member
          rw [numbers] at listed
          have absent : y.id ≠ p.1 := fun equal => apart.1 (equal ▸ listed)
          simp [same, numbered, absent]
        simp only [List.map_map, List.foldl_cons, List.map_cons, List.sum_cons, Prod.mk.injEq]
        refine ⟨List.map_congr_left fun x _ => ?_, trivial, by omega⟩
        by_cases replaced : x.id = l.id
        · simp [replaced, later { l with offset } rfl]
        · simp [replaced, Ne.symm replaced]

/-- Laying out an input, when it succeeds, found the region and the input, ran the steps over the
input's links and their counts, and allocated the data the offset reached. -/
theorem layInput_eq_some {name k : String} {counts : List Nat}
    (laid : n.layInput name k counts = some m) :
    ∃ r i acc data, n.region name = .ok r ∧ r.input k = .ok i ∧
      (i.links.zip counts).foldlM (layoutStep (r.portNodes i.regionLevel))
        (n.links, List.replicate (r.portNodes i.regionLevel) [], 0) = some acc ∧
      i.data.release.allocate acc.2.2 = .ok data ∧
      m = ({ n with links := acc.1 } : Network).replaceRegion
        (r.setInput { i with data, splitterMap := acc.2.1, initialized := true }) := by
  simp only [layInput, bind, Option.bind_eq_some_iff, pure, Option.some.injEq] at laid
  obtain ⟨r, found, i, inputFound, acc, ran, data, allocated, rfl⟩ := laid
  refine ⟨r, i, acc, data, ?_, ?_, ran, ?_, rfl⟩
  · cases h : n.region name <;> simp_all [Except.toOption]
  · cases h : r.input k <;> simp_all [Except.toOption]
  · cases h : i.data.release.allocate acc.2.2 <;> simp_all [Except.toOption]

/--
Input `k` of region `name` is laid out in `n`: every entry of the region under the key is one
input, laid out over the links that feed it as `n` has them, on as many nodes as the region gives
the input.
-/
def InputLaid (n : Network) (name k : String) : Prop :=
  ∀ r, n.region name = .ok r → ∀ p ∈ r.inputs.entries, p.1 = k →
    (∀ q ∈ r.inputs.entries, q.1 = k → q.2 = p.2) ∧
    ∃ feeds, p.2.links.mapM n.feed = some feeds ∧ p.2.Layout (r.portNodes p.2.regionLevel) feeds

/-- Links fed each with its count give, by number, the links zipped with their counts. -/
theorem mapM_feed_zip {placed : List Link} {counts : List Nat}
    (fed : List.Forall₂ (fun l count => n.feed l.id = some (l, count)) placed counts) :
    (placed.map (·.id)).mapM n.feed = some (placed.zip counts) := by
  rw [mapM_option_eq_some_iff]
  induction fed with
  | nil => exact .nil
  | cons head _ inductionHypothesis => exact .cons head inductionHypothesis

/-- Storing back, by number, links placed from links of a network keeps each link's number. -/
theorem id_placeLinks {placed : List Link} (x : Link) :
    ((placed.find? (·.id == x.id)).getD x).id = x.id := by
  cases found : placed.find? (·.id == x.id) with
  | none => rfl
  | some l => simpa using List.find?_some found

/-- Links placed apart from a network's links are found again by number once stored back. -/
theorem find?_placeLinks {placed : List Link} (apart : (placed.map (·.id)).Nodup)
    (distinct : n.linkIds.Nodup) {l : Link} (member : l ∈ placed) {x : Link} (source : x ∈ n.links)
    (placedFrom : { x with offset := l.offset } = l) :
    (n.links.map fun x => (placed.find? (·.id == x.id)).getD x).find? (·.id == l.id) = some l := by
  have numbered : x.id = l.id := by rw [← placedFrom]
  have stored : (placed.find? (·.id == x.id)).getD x = l := by
    rw [numbered, find?_number_of_mem apart member]
    rfl
  rw [List.find?_map]
  have samePredicate : ((·.id == l.id) ∘ fun x : Link => (placed.find? (·.id == x.id)).getD x) =
      (·.id == l.id) := by
    funext y
    simp [id_placeLinks]
  rw [samePredicate, ← numbered, find?_number_of_mem distinct source, Option.map_some, stored]

/--
Laying out input `k` of region `name` of a wired network whose links route inside their sources,
over the counts the network feeds its links with, lays the input out.
-/
theorem layInput_inputLaid
    (wired : n.Wired)
    (inside : n.FeedsInside)
    {name k : String}
    {counts : List Nat}
    (counted : ∀ r i, n.region name = .ok r → r.input k = .ok i →
      i.links.mapM (fun id => (n.feed id).map (·.2)) = some counts)
    (laid : n.layInput name k counts = some m) :
    m.InputLaid name k := by
  obtain ⟨r, i, acc, data, found, inputFound, ran, allocated, rfl⟩ := layInput_eq_some laid
  have stored := mem_of_region found
  have named : r.name = name := wired.named _ stored
  obtain ⟨-, inputNamed⟩ := Region.input_named (wired.portsNamed _ stored) inputFound
  have fed := (mapM_option_eq_some_iff _ _ _).mp (counted r i found inputFound)
  have sameLength : i.links.length = counts.length := fed.length_eq
  have firsts : (i.links.zip counts).map (·.1) = i.links := List.map_fst_zip (le_of_eq sameLength)
  have seconds : (i.links.zip counts).map (·.2) = counts :=
    List.map_snd_zip (le_of_eq sameLength.symm)
  have apartLinks : i.links.Nodup :=
    (wired.integrity.inputsList _ stored _ (Region.input_named (wired.portsNamed _ stored)
      inputFound).1).1
  have apartSteps : ((i.links.zip counts).map (·.1)).Nodup := by
    rw [firsts]
    exact apartLinks
  obtain ⟨placed, numbers, each, offsets, rfl⟩ := foldlM_layoutStep_eq_some apartSteps ran
  rw [firsts] at numbers
  have placedLength : placed.length = counts.length := by
    rw [← sameLength, ← numbers, List.length_map]
  have apartPlaced : (placed.map (·.id)).Nodup := numbers ▸ apartLinks
  obtain ⟨made, fits⟩ := Buffer.allocate_eq_ok allocated
  -- the stored input and the network it is stored in
  set routes := placed.foldl (fun routes l => mergeRoutes routes l.routes l.offset)
    (List.replicate (r.portNodes i.regionLevel) []) with routesDef
  set laidOut : Input := { i with data, splitterMap := routes, initialized := true }
  set m := ({ n with links := n.links.map fun x => (placed.find? (·.id == x.id)).getD x } :
    Network).replaceRegion (r.setInput laidOut)
  have foundAgain : ({ n with links := n.links.map fun x => (placed.find? (·.id == x.id)).getD x } :
      Network).region (r.setInput laidOut).name = .ok r := by
    rw [Region.setInput_name, named]
    exact found
  have outputs : m.outputsView = n.outputsView :=
    map_replaceRegion (fun r => r.outputs) wired.distinct foundAgain rfl
  -- each placed link is fed, from the output feeding the link it was placed from
  have feedsPlaced : List.Forall₂ (fun l count => m.feed l.id = some (l, count) ∧
      ∀ entry ∈ l.routes, ∀ x ∈ entry, x < count) placed counts := by
    rw [← numbers, List.forall₂_map_left_iff] at fed
    refine List.forall₂_iff_zip.mpr ⟨fed.length_eq, fun {l count} paired => ?_⟩
    have member := (List.of_mem_zip paired).1
    have counted := (List.forall₂_iff_zip.mp fed).2 paired
    obtain ⟨-, x, source, placedFrom⟩ := each l member
    have numbered : x.id = l.id := by rw [← placedFrom]
    have found₀ := find?_number_of_mem wired.integrity.numbersApart source
    have found' : m.links.find? (·.id == l.id) = some l :=
      find?_placeLinks apartPlaced wired.integrity.numbersApart member source placedFrom
    have ends : l.endpoints = x.endpoints := by rw [← placedFrom]
    rw [numbered] at found₀
    obtain ⟨⟨x', count'⟩, fed₀, rfl⟩ := Option.map_eq_some_iff.mp counted
    obtain ⟨-, -, firstLink, -⟩ := feed_eq_some_iff.mp fed₀
    rw [found₀, Option.some.injEq] at firstLink
    subst firstLink
    refine ⟨by rw [feed_of_find? outputs found' found₀ ends, fed₀]; rfl, ?_⟩
    have routes : l.routes = x.routes := by rw [← placedFrom]
    rw [routes]
    exact inside _ _ _ fed₀
  intro r' found'
  have again : m.region name = .ok (r.setInput laidOut) := by
    rw [← named]
    exact region_replaceRegion_self foundAgain
  rw [again, Except.ok.injEq] at found'
  subst found'
  -- every entry under the key is the input just laid out
  have alike : ∀ q ∈ (r.setInput laidOut).inputs.entries, q.1 = k → q.2 = laidOut := by
    intro q member key
    rw [Region.setInput_eq] at member
    rcases Collection.mem_store member with ⟨-, stored', -⟩ | ⟨other, -⟩
    · exact stored'
    · exact absurd (key.trans inputNamed.symm) other
  intro p member key
  rw [alike p member key]
  refine ⟨alike, placed.zip counts, ?_, ?_⟩
  · rw [← numbers]
    exact mapM_feed_zip (List.Forall₂.imp (fun _ _ => And.left) feedsPlaced)
  · refine ⟨?_, ?_, ?_, ?_, ?_, ?_⟩
    · intro f member
      exact (each f.1 (List.of_mem_zip member).1).1
    · intro f member
      obtain ⟨l, count⟩ := f
      exact (List.forall₂_iff_zip.mp feedsPlaced).2 member |>.2
    · intro j below
      have inPlaced : j < placed.length := by
        simp only [List.length_zip] at below
        omega
      rw [map_snd_take_zip placedLength]
      simp only [List.getElem_zip]
      rw [offsets j inPlaced, ← map_snd_take_zip sameLength]
      simp
    · show data.count = _
      rw [List.map_snd_zip (le_of_eq placedLength.symm), made]
      simp [seconds]
    · show data.count * data.elementType.size < wordSize
      rw [made]
      exact fits
    · show routes = _
      rw [routesDef, List.map_fst_zip (le_of_eq placedLength), ← linkedMap_nil,
        foldl_mergeRoutes fun l member => (each l member).1, List.nil_append]
      rfl

/-- Regions alike but for their inputs and initialization hold the same outputs. -/
theorem outputsView_of_sizedView
    (same : m.regions.entries.map (fun e => (e.1, e.2.sizedView)) =
      n.regions.entries.map (fun e => (e.1, e.2.sizedView))) :
    m.outputsView = n.outputsView := by
  simpa [outputsView, Region.sizedView, Function.comp_def] using
    congrArg (List.map fun e => (e.1, e.2.2.2.2.2)) same

/-- A link stored back after the links of an input are placed is the link it was, at an offset. -/
theorem placeLinks_withOffset (wired : n.Wired) {placed : List Link}
    (each : ∀ l ∈ placed, ∃ x ∈ n.links, { x with offset := l.offset } = l)
    {x : Link} (member : x ∈ n.links) :
    { x with offset := ((placed.find? (·.id == x.id)).getD x).offset } =
      (placed.find? (·.id == x.id)).getD x := by
  cases found : placed.find? (·.id == x.id) with
  | none => rfl
  | some l =>
      obtain ⟨y, source, placedFrom⟩ := each l (List.mem_of_find?_eq_some found)
      have numbered : l.id = x.id := by simpa using List.find?_some found
      have sameId : y.id = x.id := by rw [← numbered, ← placedFrom]
      obtain rfl := wired.eq_of_id_eq source member sameId
      exact placedFrom

/-- A laid-out input stays laid out in a network whose region of that name keeps its dimensions
and holds under the key only entries it held, and which feeds the input's links alike. -/
theorem InputLaid.transfer
    {name k : String}
    (laid : n.InputLaid name k)
    (region : ∀ r', m.region name = .ok r' → ∃ r, n.region name = .ok r ∧ r'.dims = r.dims ∧
      ∀ p ∈ r'.inputs.entries, p.1 = k → p ∈ r.inputs.entries)
    (feeds : ∀ r, n.region name = .ok r → ∀ p ∈ r.inputs.entries, p.1 = k →
      ∀ id ∈ p.2.links, m.feed id = n.feed id) :
    m.InputLaid name k := by
  intro r' found' p member key
  obtain ⟨r, found, dims, held⟩ := region r' found'
  obtain ⟨alike, fs, fed, layout⟩ := laid r found p (held p member key) key
  have nodes : r'.portNodes = r.portNodes := by
    funext level
    simp [Region.portNodes, Region.nodeCount, dims]
  refine ⟨fun q present same => alike q (held q present same) same, fs, ?_, ?_⟩
  · rw [mapM_option_congr (feeds r found p (held p member key) key)]
    exact fed
  · rw [nodes]
    exact layout

/-- In a wired network a link number is listed by one input only. -/
theorem Wired.input_of_listed
    (wired : n.Wired)
    {e e' : String × Region}
    (stored : e ∈ n.regions.entries)
    (stored' : e' ∈ n.regions.entries)
    {p p' : String × Input}
    (member : p ∈ e.2.inputs.entries)
    (member' : p' ∈ e'.2.inputs.entries)
    {id : Nat}
    (listed : id ∈ p.2.links)
    (listed' : id ∈ p'.2.links) :
    e.1 = e'.1 ∧ p.1 = p'.1 := by
  rw [wired.inputs e stored p member, mem_entering] at listed
  rw [wired.inputs e' stored' p' member', mem_entering] at listed'
  obtain ⟨l, present, numbered, dest, input⟩ := listed
  obtain ⟨l', present', numbered', dest', input'⟩ := listed'
  obtain rfl := wired.eq_of_id_eq present present' (numbered.trans numbered'.symm)
  exact ⟨dest.symm.trans dest', input.symm.trans input'⟩

/--
Laying out an input of a wired network keeps it wired, keeps its order, every region but for its
inputs and every link but for its offset, and leaves every other input as laid out as it was:
its links are apart from those of the input laid out.
-/
theorem layInput_keeps
    (wired : n.Wired)
    {name k : String}
    {counts : List Nat}
    (laid : n.layInput name k counts = some m) :
    m.Wired ∧ m.order = n.order ∧ m.links.map Link.unplaced = n.links.map Link.unplaced ∧
      m.regions.entries.map (fun e => (e.1, e.2.sizedView)) =
        n.regions.entries.map (fun e => (e.1, e.2.sizedView)) ∧ m.regionPlugs = n.regionPlugs ∧
      ∀ name' k', (name', k') ≠ (name, k) → n.InputLaid name' k' → m.InputLaid name' k' := by
  obtain ⟨r, i, acc, data, found, inputFound, ran, allocated, rfl⟩ := layInput_eq_some laid
  have stored := mem_of_region found
  have named : r.name = name := wired.named _ stored
  obtain ⟨inputStored, inputNamed⟩ := Region.input_named (wired.portsNamed _ stored) inputFound
  have apartLinks : i.links.Nodup := (wired.integrity.inputsList _ stored _ inputStored).1
  obtain ⟨placed, numbers, each, -, rfl⟩ :=
    foldlM_layoutStep_eq_some ((map_fst_zip_sublist _ _).nodup apartLinks) ran
  dsimp only
  set routes := placed.foldl (fun routes l => mergeRoutes routes l.routes l.offset)
    (List.replicate (r.portNodes i.regionLevel) [])
  set laidOut : Input := { i with data, splitterMap := routes, initialized := true }
  set links := n.links.map fun x => (placed.find? (·.id == x.id)).getD x
  have stays : ∀ x ∈ n.links, { x with offset := ((placed.find? (·.id == x.id)).getD x).offset } =
      (placed.find? (·.id == x.id)).getD x := fun x member =>
    placeLinks_withOffset wired (fun l member => (each l member).2) member
  have unplaced : links.map Link.unplaced = n.links.map Link.unplaced := by
    simp only [links, List.map_map]
    refine List.map_congr_left fun x member => ?_
    rw [Function.comp_apply, ← stays x member, Link.unplaced_withOffset]
  have plugs : links.map Link.plug = n.links.map Link.plug := by
    simp only [links, List.map_map]
    refine List.map_congr_left fun x member => ?_
    rw [Function.comp_apply, ← stays x member]
    rfl
  have foundAgain : ({ n with links } : Network).region (r.setInput laidOut).name = .ok r := by
    rw [Region.setInput_name, named]
    exact found
  have sizedSame : (({ n with links } : Network).replaceRegion (r.setInput laidOut)).regions.entries.map
      (fun e => (e.1, e.2.sizedView)) = n.regions.entries.map (fun e => (e.1, e.2.sizedView)) :=
    map_replaceRegion Region.sizedView wired.distinct foundAgain rfl
  have wiredLinks : ({ n with links } : Network).Wired := wired.of_plugs_eq rfl plugs le_rfl
  have foundLinks : ({ n with links } : Network).region name = .ok r := found
  have plugsSame : (({ n with links } : Network).replaceRegion (r.setInput laidOut)).regionPlugs =
      n.regionPlugs :=
    map_replaceRegion Region.plugs wired.distinct foundAgain
      (Region.setInput_plugs (wired.portsNamed _ stored) (wired.portsKeyed stored) inputFound rfl)
  refine ⟨wiredLinks.storeInput foundLinks inputFound rfl, rfl, unplaced, sizedSame, plugsSame, ?_⟩
  intro name' k' differ before
  refine before.transfer ?_ ?_
  · intro r' found'
    by_cases sameRegion : name' = name
    · subst sameRegion
      have again := region_replaceRegion_self foundAgain
      rw [Region.setInput_name, named, found', Except.ok.injEq] at again
      subst again
      refine ⟨r, found, rfl, fun p member key => ?_⟩
      rw [Region.setInput_eq] at member
      rcases Collection.mem_store member with ⟨other, -, -⟩ | ⟨-, held⟩
      · have sameKey : k' = k := key.symm.trans (other.trans inputNamed)
        exact (differ (by rw [sameKey])).elim
      · exact held
    · rw [region_replaceRegion_of_ne (by rw [Region.setInput_name, named]; exact sameRegion)] at found'
      exact ⟨r', found', rfl, fun p member _ => member⟩
  · intro r' found' p member key id listed
    apply feed_eq_of_find?_eq (outputsView_of_sizedView sizedSame)
    -- the number is none of the placed links': those feed the input laid out
    have notPlaced : placed.find? (·.id == id) = none := by
      rw [List.find?_eq_none]
      intro l present same
      have placedId : id ∈ i.links := by
        have listedHere : l.id ∈ placed.map (·.id) := List.mem_map_of_mem present
        rw [numbers, beq_iff_eq.mp same] at listedHere
        exact (map_fst_zip_sublist _ _).subset listedHere
      obtain ⟨sameRegion, sameKey⟩ :=
        wired.input_of_listed (mem_of_region found') stored member inputStored listed placedId
      exact differ (by rw [Prod.mk.injEq]; exact ⟨sameRegion, key ▸ sameKey⟩)
    show links.find? (·.id == id) = n.links.find? (·.id == id)
    simp only [links, List.find?_map]
    have samePredicate : ((·.id == id) ∘ fun x : Link => (placed.find? (·.id == x.id)).getD x) =
        (·.id == id) := by
      funext y
      simp [id_placeLinks]
    rw [samePredicate]
    cases found₀ : n.links.find? (·.id == id) with
    | none => rfl
    | some x =>
        have numbered : x.id = id := by simpa using List.find?_some found₀
        simp [numbered, notPlaced]

/-- Entering an input reads the links only through their numbers and ends. -/
theorem entering_unplaced (links : List Link) (region input : String) :
    entering (links.map Link.unplaced) region input = entering links region input := by
  simp [entering, List.filter_map, Function.comp_def]

/--
The inputs of a sized network `sized` laid out so far, in `m`: the network is wired, and keeps the
order, the regions' plugs and sized views, and the links but for their offsets; every input of
`done` is laid out.
-/
structure Laying (sized m : Network) (done : Set (String × String)) : Prop where
  wired : m.Wired
  order : m.order = sized.order
  links : m.links.map Link.unplaced = sized.links.map Link.unplaced
  regions : m.regions.entries.map (fun e => (e.1, e.2.sizedView)) =
    sized.regions.entries.map (fun e => (e.1, e.2.sizedView))
  plugs : m.regionPlugs = sized.regionPlugs
  laid : ∀ p ∈ done, m.InputLaid p.1 p.2

namespace Laying

variable {sized m m' : Network} {done : Set (String × String)}

/-- Nothing is laid out before the first input. -/
theorem start (wired : sized.Wired) : Laying sized sized ∅ :=
  ⟨wired, rfl, rfl, rfl, rfl, fun _ absent => absent.elim⟩

/-- A network laid out so far feeds its links from outputs of the sized network's counts. -/
theorem counts (laying : Laying sized m done) (id : Nat) :
    (m.feed id).map (·.2) = (sized.feed id).map (·.2) := by
  have agree := congrArg (Option.map (·.2))
    (feed_unplaced (outputsView_of_sizedView laying.regions) laying.links id)
  simpa [Option.map_map, Function.comp_def] using agree

/-- Every entry of an input lists the links the sized network has entering it. -/
theorem links_of_entry (laying : Laying sized m done) {name : String} {r : Region}
    (found : m.region name = .ok r) {p : String × Input} (member : p ∈ r.inputs.entries) :
    p.2.links = entering sized.links name p.1 := by
  rw [laying.wired.inputs _ (mem_of_region found) p member, ← entering_unplaced, laying.links,
    entering_unplaced]

/-- Laying out one input more: over the counts the sized network feeds its links with. -/
theorem step
    (laying : Laying sized m done)
    (inside : sized.FeedsInside)
    {name k : String}
    {counts : List Nat}
    (counted : (entering sized.links name k).mapM (fun id => (sized.feed id).map (·.2)) = some counts)
    (laid : m.layInput name k counts = some m') :
    Laying sized m' (insert (name, k) done) := by
  obtain ⟨wired', order, links, regions, plugs, frame⟩ := layInput_keeps laying.wired laid
  have now := layInput_inputLaid laying.wired
    (inside.of_unplaced (outputsView_of_sizedView laying.regions) laying.links)
    (fun r i found inputFound => by
      have entry := (Region.input_named (laying.wired.portsNamed _ (mem_of_region found))
        inputFound).1
      rw [mapM_option_congr fun id _ => laying.counts id, laying.links_of_entry found entry]
      exact counted)
    laid
  refine ⟨wired', order.trans laying.order, links.trans laying.links, regions.trans laying.regions,
    plugs.trans laying.plugs, ?_⟩
  intro p member
  by_cases same : p = (name, k)
  · subst same
    exact now
  · exact frame p.1 p.2 same (laying.laid p (Set.mem_of_mem_insert_of_ne member same))

/-- What is laid out of more inputs is laid out of fewer. -/
theorem mono (laying : Laying sized m done) {done' : Set (String × String)} (fewer : done' ⊆ done) :
    Laying sized m done' :=
  { laying with laid := fun p member => laying.laid p (fewer member) }

/-- Laying out inputs of region `name` one after the other, each over the counts the sized network
feeds it with. -/
theorem foldlM_layInput (inside : sized.FeedsInside) {name : String} {layouts : List (String × List Nat)}
    (counted : ∀ p ∈ layouts,
      (entering sized.links name p.1).mapM (fun id => (sized.feed id).map (·.2)) = some p.2)
    (laying : Laying sized m done)
    (ran : layouts.foldlM (fun m p => m.layInput name p.1 p.2) m = some m') :
    Laying sized m' (done ∪ {q | q.1 = name ∧ q.2 ∈ layouts.map (·.1)}) := by
  induction layouts generalizing m done with
  | nil =>
      simp only [List.foldlM_nil, pure, Option.some.injEq] at ran
      subst ran
      exact laying.mono fun q member => by simpa using member
  | cons p rest inductionHypothesis =>
      rw [List.foldlM_cons] at ran
      obtain ⟨next, laid, ran⟩ := Option.bind_eq_some_iff.mp ran
      have stepped := laying.step inside (counted p List.mem_cons_self) laid
      refine (inductionHypothesis (fun q member => counted q (List.mem_cons_of_mem p member))
        stepped ran).mono ?_
      rintro q (earlier | ⟨named, listed⟩)
      · exact .inl (Set.mem_insert_of_mem _ earlier)
      · rw [List.map_cons, List.mem_cons] at listed
        rcases listed with first | later
        · exact .inl (by rw [Set.mem_insert_iff]; exact .inl (Prod.ext named first))
        · exact .inr ⟨named, later⟩

end Laying

/-- Mapping inputs to their names with what a partial function gives them keeps the names in
order, each with what the function gave. -/
theorem mapM_named {items : List Input} {g : Input → Option (List Nat)}
    {layouts : List (String × List Nat)}
    (mapped : items.mapM (fun i => (g i).map (i.name, ·)) = some layouts) :
    layouts.map (·.1) = items.map (·.name) ∧
      ∀ p ∈ layouts, ∃ i ∈ items, i.name = p.1 ∧ g i = some p.2 := by
  induction items generalizing layouts with
  | nil =>
      simp only [List.mapM_nil, pure, Option.some.injEq] at mapped
      subst mapped
      simp
  | cons i rest inductionHypothesis =>
      simp only [List.mapM_cons, bind, Option.bind_eq_some_iff, pure, Option.some.injEq,
        Option.map_eq_some_iff] at mapped
      obtain ⟨_, ⟨counts, given, rfl⟩, tail, mapped, rfl⟩ := mapped
      obtain ⟨keys, each⟩ := inductionHypothesis mapped
      refine ⟨by simp [keys], ?_⟩
      rintro p (_ | ⟨_, later⟩)
      · exact ⟨i, List.mem_cons_self, rfl, given⟩
      · obtain ⟨x, listed, named, result⟩ := each p later
        exact ⟨x, List.mem_cons_of_mem i listed, named, result⟩

/-- An input under a key no entry of the region has is laid out, there being nothing to lay. -/
theorem InputLaid.of_absent {name k : String}
    (absent : ∀ r, n.region name = .ok r → k ∉ r.inputs.names) :
    n.InputLaid name k := by
  intro r found p member key
  exact absurd (key ▸ List.mem_map_of_mem member) (absent r found)

/-- Regions with one plug have inputs under the same names. -/
theorem Region.inputNames_of_plugs {r r' : Region} (same : r'.plugs = r.plugs) :
    r'.inputs.names = r.inputs.names := by
  have keys := congrArg (fun t => t.2.1.map (·.1)) same
  simpa [Region.plugs, Collection.names, Function.comp_def] using keys

namespace Laying

variable {sized m m' : Network} {done : Set (String × String)}

/-- Laying out every input of a region lays out each input under its name. -/
theorem layRegion (laying : Laying sized m done) (inside : sized.FeedsInside) {name : String}
    (laid : m.layRegion name = some m') :
    Laying sized m' (done ∪ {q | q.1 = name}) := by
  simp only [Network.layRegion, bind, Option.bind_eq_some_iff] at laid
  obtain ⟨r, found, layouts, gathered, ran⟩ := laid
  replace found : m.region name = .ok r := by
    cases h : m.region name <;> simp_all [Except.toOption]
  obtain ⟨keys, each⟩ := mapM_named gathered
  -- each layout is an input's name with the counts the sized network feeds its links with
  have counted : ∀ p ∈ layouts,
      (entering sized.links name p.1).mapM (fun id => (sized.feed id).map (·.2)) = some p.2 := by
    intro p member
    obtain ⟨i, listed, named, counts⟩ := each p member
    obtain ⟨e, entry, rfl⟩ := List.mem_map.mp listed
    rw [← named, (laying.wired.portsNamed _ (mem_of_region found)).inputs e entry,
      ← laying.links_of_entry found entry, ← counts]
    exact mapM_option_congr fun id _ => (laying.counts id).symm
  have after := laying.foldlM_layInput inside counted ran
  -- the region keeps the names of its inputs, which are the layouts' names
  have names : ∀ r', m'.region name = .ok r' → r'.inputs.names = layouts.map (·.1) := by
    intro r' found'
    obtain ⟨r'', found'', same⟩ := region_of_plugs_eq (after.plugs.trans laying.plugs.symm) found'
    rw [found, Except.ok.injEq] at found''
    subst found''
    rw [Region.inputNames_of_plugs same.symm, keys, Collection.names, Collection.items,
      List.map_map]
    exact List.map_congr_left fun e entry =>
      ((laying.wired.portsNamed _ (mem_of_region found)).inputs e entry).symm
  refine { after with laid := ?_ }
  rintro ⟨name', k⟩ (earlier | named)
  · exact after.laid _ (.inl earlier)
  · by_cases listed : k ∈ layouts.map (·.1)
    · exact after.laid _ (.inr ⟨named, listed⟩)
    · subst named
      exact InputLaid.of_absent fun r' found' => by rw [names r' found']; exact listed

/-- Laying out the regions of a list one after the other lays out every input of each. -/
theorem foldlM_layRegion (inside : sized.FeedsInside) {names : List String}
    (laying : Laying sized m done) (ran : names.foldlM Network.layRegion m = some m') :
    Laying sized m' (done ∪ {q | q.1 ∈ names}) := by
  induction names generalizing m done with
  | nil =>
      simp only [List.foldlM_nil, pure, Option.some.injEq] at ran
      subst ran
      exact laying.mono fun q member => by simpa using member
  | cons name rest inductionHypothesis =>
      rw [List.foldlM_cons] at ran
      obtain ⟨next, laid, ran⟩ := Option.bind_eq_some_iff.mp ran
      refine (inductionHypothesis (laying.layRegion inside laid) ran).mono ?_
      rintro q (earlier | listed)
      · exact .inl (.inl earlier)
      · rcases List.mem_cons.mp listed with first | later
        · exact .inl (.inr first)
        · exact .inr later

end Laying

end Network

end RegionNet

import RegionNet.Proofs.Initializing

namespace RegionNet

/-!
# Sizing outputs

The first pass of initializing sizes every output of every region: each output takes the elements
per node its region reports, on each of the port's nodes, zeroed and owned (`Region.Sized`). Sizing
changes nothing else a link reads of a region (`Region.Resized`): the dimensions, the declaration
and implementation, the inputs, and the level of the output found under each name. So after the
pass every region's outputs are sized (`Region.OutputsSized`), and every link propagation routed
inside its source routes inside the output now feeding it (`Network.Sizing.feedsInside`).
-/

/-- A buffer allocates from unbound: `count` zero elements of its type, owned, whose bytes a word
counts. -/
theorem Buffer.allocate_eq_ok {b d : Buffer} {count : Nat} (made : b.allocate count = .ok d) :
    d = ⟨b.elementType, count, .owned (Bytes.zeros (count * b.elementType.size))⟩ ∧
      count * b.elementType.size < wordSize := by
  by_cases fits : count * b.elementType.size < wordSize
  · simp only [Buffer.allocate, Buffer.byteLenFor, checkedMul, fits, ↓reduceIte, bind,
      Except.bind, pure, Except.pure] at made
    split at made
    · cases made
    · cases made
      exact ⟨rfl, fits⟩
  · simp only [Buffer.allocate, Buffer.byteLenFor, checkedMul, fits, ↓reduceIte, bind,
      Except.bind] at made
    split at made <;> cases made

namespace Region

/-- A region whose outputs are sized: its dimensions are specified, with nodes a word numbers, and
every output entry is sized, the one entry under its key. -/
structure OutputsSized (r : Region) : Prop where
  specified : r.dims.isSpecified = true
  counted : r.dims.product < wordSize
  outputs : ∀ p ∈ r.outputs.entries, r.Sized p.1 p.2
  alike : ∀ p ∈ r.outputs.entries, ∀ q ∈ r.outputs.entries, q.1 = p.1 → q.2 = p.2

/-- What sizing keeps of a region `r₀`: its name, dimensions, declaration, implementation and
inputs, and the level of the output found under each name. -/
structure Resized (r r₀ : Region) : Prop where
  name : r.name = r₀.name
  dims : r.dims = r₀.dims
  spec : r.spec = r₀.spec
  impl : r.impl = r₀.impl
  inputs : r.inputs = r₀.inputs
  levels : ∀ k, (r.outputs.find? k).map (·.regionLevel) = (r₀.outputs.find? k).map (·.regionLevel)

variable {r r₀ r₁ : Region}

theorem Resized.refl (r : Region) : r.Resized r := ⟨rfl, rfl, rfl, rfl, rfl, fun _ => rfl⟩

theorem Resized.trans (later : r.Resized r₁) (earlier : r₁.Resized r₀) : r.Resized r₀ :=
  ⟨later.name.trans earlier.name, later.dims.trans earlier.dims, later.spec.trans earlier.spec,
    later.impl.trans earlier.impl, later.inputs.trans earlier.inputs,
    fun k => (later.levels k).trans (earlier.levels k)⟩

/-- A resized region reports the elements per node it reported. -/
theorem Resized.elementCount (resized : r.Resized r₀) : r.elementCount = r₀.elementCount := by
  funext k
  simp [Region.elementCount, resized.spec, resized.impl, resized.name]

/-- A resized region gives each port the nodes it gave. -/
theorem Resized.portNodes (resized : r.Resized r₀) : r.portNodes = r₀.portNodes := by
  funext level
  simp [Region.portNodes, Region.nodeCount, resized.dims]

/-- Whether an output is sized reads the region only through its elements per node and nodes. -/
theorem sized_iff_of_counts (counts : r.elementCount = r₀.elementCount)
    (nodes : r.portNodes = r₀.portNodes) {k : String} {o : Output} :
    r.Sized k o ↔ r₀.Sized k o := by
  constructor
  · rintro ⟨count, owned⟩
    exact ⟨by rwa [counts, nodes] at count, owned⟩
  · rintro ⟨count, owned⟩
    exact ⟨by rwa [counts, nodes], owned⟩

/-- A resized region sizes outputs alike. -/
theorem Resized.sized (resized : r.Resized r₀) {k : String} {o : Output} :
    r.Sized k o ↔ r₀.Sized k o :=
  sized_iff_of_counts resized.elementCount resized.portNodes

/-- Sizing one output, when it succeeds, found the elements per node and the output under the name,
and stored the output back with `count` zeroed elements of its own, where `count` is the elements
per node times the port's nodes. -/
theorem sizeOutput_eq_ok {nodes : Nat} {name : String} {r' : Region}
    (sized : r.sizeOutput nodes name = (r', .ok ())) :
    ∃ perNode o, r.elementCount name = .ok perNode ∧ r.output name = .ok o ∧
      (if o.regionLevel then 1 else nodes) * perNode * o.data.elementType.size < wordSize ∧
      r' = r.setOutput { o with data := ⟨o.data.elementType, (if o.regionLevel then 1 else nodes) *
        perNode, .owned (Bytes.zeros ((if o.regionLevel then 1 else nodes) * perNode *
          o.data.elementType.size))⟩ } := by
  unfold sizeOutput at sized
  split at sized
  · cases sized
  · cases sized
  · rename_i perNode o counted found
    dsimp only at sized
    split at sized
    · cases sized
    rename_i count made
    split at sized
    · rename_i o' allocated
      cases sized
      simp only [Output.allocate, Output.teardown, Buffer.release, bind, Except.bind] at allocated
      split at allocated
      · cases allocated
      rename_i d allocatedData
      cases allocated
      obtain ⟨rfl, fits⟩ := Buffer.allocate_eq_ok allocatedData
      -- the count is the elements per node, times the nodes for a port that is not region-level
      have counted' : count = (if o.regionLevel then 1 else nodes) * perNode := by
        split at made
        · rename_i level
          cases made
          simp [level]
        · rename_i level
          split at made
          · rename_i c product
            cases made
            simp only [checkedMul] at product
            split at product
            · cases product
              simp [level, Nat.mul_comm]
            · cases product
          · cases made
      subst counted'
      exact ⟨perNode, o, counted, found, fits, rfl⟩
    · cases sized

/-- A failed sizing stays failed over the outputs left. -/
theorem foldl_sizeOutput_failed {nodes : Nat} (names : List String) {e : EngineError} :
    names.foldl (fun (acc : Region × Except EngineError Unit) name =>
      match acc with
      | (r, .ok ()) => r.sizeOutput nodes name
      | failed => failed) (r, .error e) = (r, .error e) := by
  induction names with
  | nil => rfl
  | cons name rest inductionHypothesis => exact inductionHypothesis

/--
Sizing the outputs of `names` one after the other, from a region resized from `r₀` whose outputs
under `done` are sized, succeeds only into a region resized from `r₀` whose outputs under
`done ++ names` are sized, each the one entry under its key.
-/
theorem foldl_sizeOutput_eq_ok {nodes : Nat} (nodeCount : r₀.nodeCount = nodes)
    {names done : List String} {cur r' : Region}
    (resized : cur.Resized r₀)
    (named : cur.PortsNamed)
    (sizedSoFar : ∀ p ∈ cur.outputs.entries, p.1 ∈ done →
      r₀.Sized p.1 p.2 ∧ ∀ q ∈ cur.outputs.entries, q.1 = p.1 → q.2 = p.2)
    (ran : names.foldl (fun (acc : Region × Except EngineError Unit) name =>
      match acc with
      | (r, .ok ()) => r.sizeOutput nodes name
      | failed => failed) (cur, .ok ()) = (r', .ok ())) :
    r'.outputs.names = cur.outputs.names ∧ r'.Resized r₀ ∧ r'.PortsNamed ∧
      ∀ p ∈ r'.outputs.entries, p.1 ∈ done ++ names →
        r₀.Sized p.1 p.2 ∧ ∀ q ∈ r'.outputs.entries, q.1 = p.1 → q.2 = p.2 := by
  induction names generalizing cur done with
  | nil =>
      cases ran
      exact ⟨rfl, resized, named, by simpa using sizedSoFar⟩
  | cons k rest inductionHypothesis =>
      rw [List.foldl_cons] at ran
      -- the first output must have been sized: a failure would have stayed
      cases step : cur.sizeOutput nodes k with
      | mk next outcome =>
      cases outcome with
      | error e =>
          simp only [step, foldl_sizeOutput_failed] at ran
          cases ran
      | ok =>
          simp only [step] at ran
          obtain ⟨perNode, o, counted, found, fits, rfl⟩ := sizeOutput_eq_ok step
          obtain ⟨-, oNamed⟩ := output_named named found
          set o' : Output := { o with data := ⟨o.data.elementType, (if o.regionLevel then 1 else nodes) *
            perNode, .owned (Bytes.zeros ((if o.regionLevel then 1 else nodes) * perNode *
              o.data.elementType.size))⟩ }
          have located : cur.outputs.find? k = some o := by
            unfold Region.output at found
            split at found <;> simp_all
          have levels : ∀ k', ((cur.setOutput o').outputs.find? k').map (·.regionLevel) =
              (cur.outputs.find? k').map (·.regionLevel) := by
            intro k'
            rw [setOutput_eq, Collection.find?_store, Option.map_map]
            by_cases same : k' = o'.name
            · have key : k' = k := same.trans oNamed
              subst key
              rw [located]
              simp only [Option.map_some, Function.comp_apply, if_pos same]
              rfl
            · simp [same, Function.comp_def]
          have stored : (cur.setOutput o').Resized cur := ⟨rfl, rfl, rfl, rfl, rfl, levels⟩
          have resized' : (cur.setOutput o').Resized r₀ := stored.trans resized
          have sizedHere : r₀.Sized k o' := by
            refine ⟨⟨perNode, resized.elementCount ▸ counted, ?_⟩, ?_⟩
            · simp [o', Region.portNodes, nodeCount]
            · exact ⟨_, rfl, by simp [o', Bytes.zeros]⟩
          have sizedNext : ∀ p ∈ (cur.setOutput o').outputs.entries, p.1 ∈ done ++ [k] →
              r₀.Sized p.1 p.2 ∧ ∀ q ∈ (cur.setOutput o').outputs.entries, q.1 = p.1 → q.2 = p.2 := by
            intro p member listed
            rw [setOutput_eq] at member
            rcases Collection.mem_store member with ⟨key, value, -⟩ | ⟨other, earlier⟩
            · -- the output just sized is the one entry under its key
              have key' : p.1 = k := key.trans oNamed
              refine ⟨by rw [key', value]; exact sizedHere, fun q present same => ?_⟩
              rw [setOutput_eq] at present
              rcases Collection.mem_store present with ⟨-, value', -⟩ | ⟨otherKey, -⟩
              · rw [value, value']
              · exact absurd (same.trans key) otherKey
            · have before : p.1 ∈ done := by
                rcases List.mem_append.mp listed with inDone | justSized
                · exact inDone
                · exact absurd ((List.mem_singleton.mp justSized).trans oNamed.symm) other
              obtain ⟨sized, alike⟩ := sizedSoFar p earlier before
              refine ⟨sized, fun q present same => ?_⟩
              rw [setOutput_eq] at present
              rcases Collection.mem_store present with ⟨sameKey, -, -⟩ | ⟨-, held⟩
              · exact absurd (same.symm.trans sameKey) other
              · exact alike q held same
          obtain ⟨names, resizedFinal, namedFinal, sizedFinal⟩ :=
            @inductionHypothesis (done ++ [k]) (cur.setOutput o') resized' named.setOutput sizedNext ran
          exact ⟨by rw [names, names_setOutput], resizedFinal, namedFinal, fun p member listed =>
            sizedFinal p member (by simpa [List.append_assoc] using listed)⟩

/-- Sizing a region's outputs, when it succeeds, sizes every output, keeping all else a link reads. -/
theorem sizeOutputs_eq_ok (named : r.PortsNamed) (sized : r.sizeOutputs.2 = .ok ()) :
    r.sizeOutputs.1.Resized r ∧ r.sizeOutputs.1.PortsNamed ∧ r.sizeOutputs.1.OutputsSized := by
  cases ran : r.sizeOutputs with
  | mk r' outcome =>
  rw [ran] at sized
  subst sized
  unfold sizeOutputs at ran
  by_cases specified : r.dims.isSpecified = true
  · simp only [specified, Bool.not_true, Bool.false_eq_true, ↓reduceIte] at ran
    cases checked : r.dims.checkedCount with
    | error e => simp [checked] at ran
    | ok nodes =>
        simp only [checked] at ran
        -- the nodes are the product of the axes, which a word holds
        have counted : r.dims.product < wordSize ∧ nodes = r.dims.product := by
          simp only [Dimensions.checkedCount, specified, Bool.not_true, Bool.false_eq_true,
            ↓reduceIte] at checked
          split at checked
          · cases checked
            exact ⟨by assumption, rfl⟩
          · cases checked
        have nodeCount : r.nodeCount = nodes := by
          simp only [nodeCount, Dimensions.count, specified, ↓reduceIte, counted.2, wordMax]
          omega
        obtain ⟨names, resized, named', sizedAll⟩ :=
          @foldl_sizeOutput_eq_ok r nodes nodeCount r.outputs.names [] r r' (Resized.refl r) named
            (by simp) ran
        -- every entry is under one of the names sized
        have listed : ∀ p ∈ r'.outputs.entries, p.1 ∈ [] ++ r.outputs.names := by
          intro p member
          rw [List.nil_append, ← names]
          exact List.mem_map_of_mem member
        refine ⟨resized, named', resized.dims ▸ specified, resized.dims ▸ counted.1,
          fun p member => resized.sized.mpr (sizedAll p member (listed p member)).1,
          fun p member => (sizedAll p member (listed p member)).2⟩
  · have unspecified : r.dims.isSpecified = false := by simpa using specified
    simp [unspecified] at ran

end Region

namespace Network

/-- Every link a network feeds routes inside the output feeding it. -/
def FeedsInside (n : Network) : Prop :=
  ∀ id l count, n.feed id = some (l, count) → ∀ entry ∈ l.routes, ∀ x ∈ entry, x < count

/--
Sizing the outputs of the regions of `unsized`, so far, in `m`: the network is wired and keeps the
order, the links and the regions' names, every region is resized from the one of its name in
`unsized`, and the regions of `done` have their outputs sized.
-/
structure Sizing (unsized m : Network) (done : Set String) : Prop where
  wired : m.Wired
  order : m.order = unsized.order
  links : m.links = unsized.links
  names : m.regions.names = unsized.regions.names
  regions : ∀ name r, m.region name = .ok r → ∃ r₀, unsized.region name = .ok r₀ ∧ r.Resized r₀
  sized : ∀ name ∈ done, ∀ r, m.region name = .ok r → r.OutputsSized

namespace Sizing

variable {unsized m m' : Network} {done : Set String}

/-- Nothing is sized before the first region. -/
theorem start (wired : unsized.Wired) : Sizing unsized unsized ∅ :=
  ⟨wired, rfl, rfl, rfl, fun _ r found => ⟨r, found, Region.Resized.refl r⟩,
    fun _ absent => absent.elim⟩

/-- What is sized of more regions is sized of fewer. -/
theorem mono (sizing : Sizing unsized m done) {done' : Set String} (fewer : done' ⊆ done) :
    Sizing unsized m done' :=
  { sizing with sized := fun name member => sizing.sized name (fewer member) }

/-- Sizing one region more. -/
theorem step (sizing : Sizing unsized m done) {name : String} (sized : m.sizeRegion name = some m') :
    Sizing unsized m' (insert name done) := by
  simp only [Network.sizeRegion, bind, Option.bind_eq_some_iff] at sized
  obtain ⟨r, found, sized⟩ := sized
  replace found : m.region name = .ok r := by
    cases h : m.region name <;> simp_all [Except.toOption]
  split at sized
  · rename_i succeeded
    cases sized
    have stored := mem_of_region found
    have named : r.name = name := sizing.wired.named _ stored
    obtain ⟨resized, -, outputsSized⟩ :=
      Region.sizeOutputs_eq_ok (sizing.wired.portsNamed _ stored) succeeded
    have renamed : r.sizeOutputs.1.name = name := resized.name.trans named
    refine ⟨sizing.wired.storeSized found, sizing.order, sizing.links, ?_, ?_, ?_⟩
    · simpa [replaceRegion_regions] using sizing.names
    · intro name' r' found'
      rw [region_replaceRegion, renamed] at found'
      cases before : m.region name' with
      | error e => simp [before] at found'
      | ok x =>
          obtain ⟨r₀, original, earlier⟩ := sizing.regions name' x before
          simp only [before, Except.ok.injEq] at found'
          refine ⟨r₀, original, ?_⟩
          split at found'
          · rename_i same
            subst same
            rw [found, Except.ok.injEq] at before
            subst before
            rw [← found']
            exact resized.trans earlier
          · rw [← found']
            exact earlier
    · intro name' member r' found'
      rw [region_replaceRegion, renamed] at found'
      cases before : m.region name' with
      | error e => simp [before] at found'
      | ok x =>
          simp only [before, Except.ok.injEq] at found'
          split at found'
          · rw [← found']
            exact outputsSized
          · rename_i other
            rw [← found']
            exact sizing.sized name' ((Set.mem_insert_iff.mp member).resolve_left other) x before
  · cases sized

/-- Sizing the regions of a list one after the other sizes each. -/
theorem foldlM_sizeRegion {names : List String} (sizing : Sizing unsized m done)
    (ran : names.foldlM Network.sizeRegion m = some m') :
    Sizing unsized m' (done ∪ {x | x ∈ names}) := by
  induction names generalizing m done with
  | nil =>
      simp only [List.foldlM_nil, pure, Option.some.injEq] at ran
      subst ran
      exact sizing.mono fun x member => by simpa using member
  | cons name rest inductionHypothesis =>
      rw [List.foldlM_cons] at ran
      obtain ⟨next, sized, ran⟩ := Option.bind_eq_some_iff.mp ran
      refine (inductionHypothesis (sizing.step sized) ran).mono ?_
      rintro x (earlier | listed)
      · exact .inl (Set.mem_insert_of_mem _ earlier)
      · rcases List.mem_cons.mp listed with first | later
        · exact .inl (by rw [first]; exact Set.mem_insert _ _)
        · exact .inr later

/--
Once every region is sized, every link that routed inside its source in `unsized` routes inside the
output feeding it: the output holds the elements per node the link was told, on every node of
its source port.
-/
theorem feedsInside (sizing : Sizing unsized m done)
    (all : ∀ name ∈ m.regions.names, name ∈ done)
    (routes : ∀ l ∈ unsized.links, unsized.RoutesInside l) :
    m.FeedsInside := by
  intro id l c fed
  obtain ⟨src, o, found, srcFound, outputFound, rfl⟩ := feed_eq_some_iff.mp fed
  have member : l ∈ unsized.links := sizing.links ▸ List.mem_of_find?_eq_some found
  obtain ⟨count, sd, dd, ends, -, inside⟩ := routes l member
  obtain ⟨src₀, -, srcFound₀, -, counted, seen, -⟩ := linkEnds_eq_ok_iff.mp ends
  have located : m.region l.endpoints.srcRegion = .ok src := region_eq_ok_iff.mpr srcFound
  obtain ⟨r₀, original, resized⟩ := sizing.regions _ _ located
  rw [srcFound₀, Except.ok.injEq] at original
  subst original
  have outputsSized := sizing.sized _ (all _ (mem_names_of_region located)) src located
  obtain ⟨⟨perNode, reported, sized⟩, -⟩ :=
    outputsSized.outputs _ (Collection.mem_of_find? outputFound)
  rw [resized.elementCount, counted, Except.ok.injEq] at reported
  subst reported
  obtain ⟨o₀, outputFound₀, rfl⟩ := sourceDimensions_eq_ok seen
  -- the output keeps the level of the one propagation saw
  have level : o.regionLevel = o₀.regionLevel := by
    have agree := resized.levels l.endpoints.srcOutput
    have located₀ : src₀.outputs.find? l.endpoints.srcOutput = some o₀ := by
      unfold Region.output at outputFound₀
      split at outputFound₀ <;> simp_all
    rw [outputFound, located₀] at agree
    simpa using agree
  have nodes : src.nodeCount = src₀.dims.product := by
    rw [Region.nodeCount, Dimensions.count_eq_product outputsSized.specified outputsSized.counted,
      resized.dims]
  intro entry routed x within
  have bound := inside entry routed x within
  rw [sized, Region.portNodes, level]
  by_cases regionLevel : o₀.regionLevel = true
  · simpa [regionLevel, Dimensions.ones, Dimensions.product] using bound
  · simpa [regionLevel, nodes] using bound

end Sizing

end Network

end RegionNet

import RegionNet.Proofs.Settled

set_option mvcgen.warning false

namespace RegionNet

open Std.Do

/-!
# What a region reads through its links

Before a region computes, each of its inputs takes a fresh buffer of its type and count and
copies into it, link after link, the data of the output feeding the link at the link's offset.
In a laid-out input the offsets are the sums of the counts before each link and the counts add
up to the input's, so the copies tile the buffer: it reads as the elements of the feeding outputs
one after the other (`Op.consolidate_merges`). The splitter map gives each node, link by link, the
entries the link routes to it shifted by the link's offset; so the node reads, for each link in
turn, exactly the elements of the feeding output that the link routes to it, as that output holds
them when the input is consolidated (`Op.consolidate_reads_sources`).
-/

namespace Bytes

/-- A little-endian number reads only the bytes of its window. -/
theorem readLittleEndian_congr {a b : Bytes} {offset offset' width : Nat}
    (same : ∀ j < width, a.getD (offset + j) 0 = b.getD (offset' + j) 0) :
    a.readLittleEndian offset width = b.readLittleEndian offset' width := by
  unfold readLittleEndian
  exact List.foldr_ext _ _ 0 fun j member acc => by rw [same j (List.mem_range.mp member)]

/-- A byte inside the first of two byte strings is read from it. -/
theorem getD_append_left {a b : Bytes} {k : Nat} (inside : k < a.size) :
    (a ++ b).getD k 0 = a.getD k 0 := by
  simp [Array.getElem?_append_left inside]

/-- A byte after the first of two byte strings is read from the second. -/
theorem getD_append_right (a b : Bytes) (k : Nat) : (a ++ b).getD (a.size + k) 0 = b.getD k 0 := by
  simp [Array.getElem?_append_right (Nat.le_add_right a.size k)]

end Bytes

namespace Element

/-- Every element type takes at least one byte. -/
theorem size_pos (t : ElementType) : 0 < t.size := by
  cases t <;> decide

/-- An element inside the first of two byte strings reads the same from both. -/
theorem read_append_left {t : ElementType} {a b : Bytes} {offset : Nat}
    (inside : offset + t.size ≤ a.size) : read t (a ++ b) offset = read t a offset := by
  have same : (a ++ b).readLittleEndian offset t.size = a.readLittleEndian offset t.size :=
    Bytes.readLittleEndian_congr fun j below => Bytes.getD_append_left (by omega)
  simp only [read, same]

/-- An element after the first of two byte strings reads as it does in the second. -/
theorem read_append_right {t : ElementType} (a b : Bytes) (offset : Nat) :
    read t (a ++ b) (a.size + offset) = read t b offset := by
  have same : (a ++ b).readLittleEndian (a.size + offset) t.size = b.readLittleEndian offset t.size :=
    Bytes.readLittleEndian_congr fun j _ => by
      rw [Nat.add_assoc]
      exact Bytes.getD_append_right a b (offset + j)
  simp only [read, same]

/-- A byte string holds as many elements as whole widths of their type. -/
@[simp] theorem length_readAll (t : ElementType) (b : Bytes) :
    (readAll t b).length = b.size / t.size := by
  simp [readAll]

/-- Reading two byte strings one after the other, the first a whole number of elements long,
reads the elements of each in turn. -/
theorem readAll_append {t : ElementType} {a b : Bytes} (aligned : t.size ∣ a.size) :
    readAll t (a ++ b) = readAll t a ++ readAll t b := by
  obtain ⟨k, sized⟩ := aligned
  have positive := size_pos t
  have whole : (a.size + b.size) / t.size = k + b.size / t.size := by
    rw [sized, Nat.mul_add_div positive]
  have firstCount : a.size / t.size = k := by
    rw [sized, Nat.mul_div_cancel_left k positive]
  simp only [readAll, Array.size_append, whole, firstCount, List.range_add, List.map_append,
    List.map_map]
  congr 1
  · refine List.map_congr_left fun i member => ?_
    have below : i < k := List.mem_range.mp member
    refine read_append_left ?_
    calc i * t.size + t.size = (i + 1) * t.size := (Nat.succ_mul i t.size).symm
      _ ≤ k * t.size := Nat.mul_le_mul_right _ below
      _ = a.size := by rw [sized, Nat.mul_comm]
  · refine List.map_congr_left fun i _ => ?_
    have shifted : (k + i) * t.size = a.size + i * t.size := by
      rw [Nat.add_mul, sized, Nat.mul_comm]
    simp only [Function.comp_apply, shifted]
    exact read_append_right a b (i * t.size)

end Element


namespace Buffer

variable {b : Buffer} {bytes : Bytes}

/-- The bytes of a buffer that owns exactly its elements' bytes are those bytes. -/
theorem raw_of_owned (owned : b.backing = .owned bytes) (exact : bytes.size = b.byteLen) :
    b.raw = bytes := by
  simp [raw, owned, ← exact]

/-- A buffer that owns its bytes reads, as its own type, the elements its bytes hold. -/
theorem read_of_owned (owned : b.backing = .owned bytes) :
    b.read b.elementType = .ok (Element.readAll b.elementType b.raw) := by
  simp [read, checkType, isBound, owned, bind, Except.bind, pure, Except.pure]

end Buffer

/-- Reading, at each of some positions, the element of a list succeeds, with the elements found
there, when at each position the element is found and read. -/
theorem List.mapM_eq_ok_of_found {α ε : Type} {xs : List α} {g : Nat → Except ε α}
    {positions : List Nat} (found : ∀ e ∈ positions, ∃ v, xs[e]? = some v ∧ g e = .ok v) :
    ∃ ys, positions.mapM g = .ok ys ∧ ys.map some = positions.map (xs[·]?) := by
  induction positions with
  | nil => exact ⟨[], rfl, rfl⟩
  | cons e rest inductionHypothesis =>
      obtain ⟨ys, mapped, same⟩ := inductionHypothesis fun e' member => found e' (.tail _ member)
      obtain ⟨v, present, read⟩ := found e (.head _)
      refine ⟨v :: ys, ?_, ?_⟩
      · rw [List.mapM_cons, mapped, read]
        rfl
      · simp [present, same]

/-- In lists laid one after the other, the list at index `j` starts after the lengths of those
before it. -/
theorem List.getElem?_flatten_after {α : Type} (lists : List (List α)) {j x : Nat}
    (hj : j < lists.length) (hx : x < lists[j].length) :
    lists.flatten[((lists.take j).map List.length).sum + x]? = lists[j][x]? := by
  induction lists generalizing j with
  | nil => cases hj
  | cons first rest inductionHypothesis =>
      cases j with
      | zero =>
          simp only [List.take_zero, List.map_nil, List.sum_nil, Nat.zero_add, List.flatten_cons,
            List.getElem_cons_zero] at hx ⊢
          exact List.getElem?_append_left hx
      | succ j =>
          simp only [List.take_succ_cons, List.map_cons, List.sum_cons, List.flatten_cons,
            List.getElem_cons_succ] at hx ⊢
          rw [Nat.add_assoc, List.getElem?_append_right (Nat.le_add_right _ _),
            Nat.add_sub_cancel_left]
          exact inductionHypothesis (Nat.lt_of_succ_lt_succ hj) hx

/-- An item is had by name exactly when it is found under the name. -/
theorem Collection.get_eq_ok_iff {α : Type} {c : Collection α} {k : String} {x : α} :
    c.get k = .ok x ↔ c.find? k = some x := by
  unfold Collection.get
  cases c.find? k <;> simp

/-- An output is had by name exactly when it is found under the name. -/
theorem Region.output_eq_ok_iff {r : Region} {k : String} {o : Output} :
    r.output k = .ok o ↔ r.outputs.find? k = some o := by
  unfold Region.output
  cases r.outputs.find? k <;> simp

namespace Network

variable {n : Network}

/-- The output feeding a link: the one its source region has under the name the link gives. -/
def source (n : Network) (l : Link) : Option Output :=
  (n.regions.find? l.endpoints.srcRegion).bind fun src => src.outputs.find? l.endpoints.srcOutput

/-- The elements, read as type `t`, that the output feeding a link holds; none when it cannot be
read as that type. -/
def sourceValues (n : Network) (t : ElementType) (l : Link) : Option (List Element) :=
  (n.source l).bind fun o => (o.data.read t).toOption

/-- A link is fed when it is found with an output feeding it. -/
theorem feed_eq_some_iff_source {id : Nat} {l : Link} {count : Nat} :
    n.feed id = some (l, count) ↔
      n.links.find? (·.id == id) = some l ∧ ∃ o, n.source l = some o ∧ o.data.count = count := by
  rw [feed_eq_some_iff]
  simp only [source, Option.bind_eq_some_iff]
  constructor
  · rintro ⟨src, o, found, srcFound, outputFound, counted⟩
    exact ⟨found, o, ⟨src, srcFound, outputFound⟩, counted⟩
  · rintro ⟨found, o, ⟨src, srcFound, outputFound⟩, counted⟩
    exact ⟨src, o, found, srcFound, outputFound, counted⟩

/-- The output feeding a link, holding its bytes as type `t`, gives the link the elements its
bytes hold, as many as it counts. -/
theorem sourceValues_of_holds {l : Link} {o : Output} {t : ElementType}
    (found : n.source l = some o) (typed : o.data.elementType = t) (holds : o.Holds) :
    n.sourceValues t l = some (Element.readAll t o.data.raw) ∧
      (Element.readAll t o.data.raw).length = o.data.count := by
  obtain ⟨bytes, owned, sized⟩ := holds
  have raw : o.data.raw = bytes := Buffer.raw_of_owned owned sized
  refine ⟨?_, ?_⟩
  · simp only [sourceValues, found, Option.bind_some]
    rw [← typed, Buffer.read_of_owned owned]
    rfl
  · rw [Element.length_readAll, raw, sized, typed, Nat.mul_div_cancel _ (Element.size_pos t)]

/-- Every feed of links fed one by one is the feed of one of them. -/
theorem feed_of_mem_mapM {ids : List Nat} {feeds : List (Link × Nat)}
    (fed : ids.mapM n.feed = some feeds) {f : Link × Nat} (member : f ∈ feeds) :
    ∃ id ∈ ids, n.feed id = some f := by
  have related := (mapM_option_eq_some_iff n.feed ids feeds).mp fed
  clear fed
  induction related with
  | nil => cases member
  | @cons id f' ids fs' head _ inductionHypothesis =>
      rcases List.mem_cons.mp member with rfl | later
      · exact ⟨id, .head _, head⟩
      · obtain ⟨id', present, fed⟩ := inductionHypothesis later
        exact ⟨id', .tail _ present, fed⟩

end Network

namespace Buffer

variable {b src : Buffer} {offset : Nat}

/-- Copying into a window of a sound buffer leaves, up to the window's end, the buffer's bytes
before the window and then the source's. -/
theorem windowBytes_upTo (sound : b.Sound) (srcSound : src.Sound)
    (typed : src.elementType = b.elementType) (inside : offset + src.count ≤ b.count) :
    (b.windowBytes offset src).extract 0 ((offset + src.count) * b.elementType.size) =
      b.raw.extract 0 (offset * b.elementType.size) ++ src.raw := by
  have before : (b.raw.extract 0 (offset * b.elementType.size)).size = offset * b.elementType.size := by
    have within : offset * b.elementType.size ≤ b.raw.size := by
      rw [sound.size_raw, byteLen]
      exact Nat.mul_le_mul_right _ (by omega)
    simp [within]
  have piece : src.raw.size = src.count * b.elementType.size := by
    rw [srcSound.size_raw, byteLen, typed]
  have ends : (offset + src.count) * b.elementType.size =
      (b.raw.extract 0 (offset * b.elementType.size) ++ src.raw).size := by
    rw [Array.size_append, before, piece, Nat.add_mul]
  rw [ends, windowBytes, Array.extract_append_left, Array.extract_size]

end Buffer

namespace Input

variable {n : Network} {i : Input} {nodes : Nat} {feeds : List (Link × Nat)}

/--
An input fed in network `n` by `feeds`: its links are found with the outputs feeding them, it is
laid out over them for `nodes` nodes, and each of those outputs holds its bytes, of the input's
type. This is what consolidating the input reads.
-/
structure FedBy (i : Input) (n : Network) (nodes : Nat) (feeds : List (Link × Nat)) : Prop where
  fed : i.links.mapM n.feed = some feeds
  laid : i.Layout nodes feeds
  sources : ∀ f ∈ feeds, ∃ o, n.source f.1 = some o ∧ o.data.elementType = i.data.elementType ∧
    o.Holds

/-- Where the links of a fed input split around one of them, so do its feeds. -/
theorem FedBy.split (fedBy : i.FedBy n nodes feeds) {pref suff : List Nat} {cur : Nat}
    (split : i.links = pref ++ cur :: suff) :
    ∃ fp f fs, feeds = fp ++ f :: fs ∧ pref.mapM n.feed = some fp ∧ n.feed cur = some f := by
  have fed := fedBy.fed
  rw [split] at fed
  simp only [List.mapM_append, List.mapM_cons, Option.bind_eq_bind, Option.bind_eq_some_iff,
    Option.pure_def, Option.some.injEq] at fed
  obtain ⟨fp, prefFed, rest, ⟨f, curFed, fs, -, rfl⟩, rfl⟩ := fed
  exact ⟨fp, f, fs, rfl, prefFed, curFed⟩

/-- The next link of a fed input is found, with its source region and output. -/
theorem FedBy.found (fedBy : i.FedBy n nodes feeds) {pref suff : List Nat} {cur : Nat}
    (split : i.links = pref ++ cur :: suff) :
    ∃ l, n.links.find? (·.id == cur) = some l ∧ ∃ src o,
      n.regions.find? l.endpoints.srcRegion = some src ∧
      src.outputs.find? l.endpoints.srcOutput = some o := by
  obtain ⟨fp, ⟨l, count⟩, fs, -, -, curFed⟩ := fedBy.split split
  obtain ⟨src, o, found, srcFound, outputFound, -⟩ := Network.feed_eq_some_iff.mp curFed
  exact ⟨l, found, src, o, srcFound, outputFound⟩

/-- The output feeding each link of a fed input holds, as the input's type, as many elements as
the link's feed counts. -/
theorem FedBy.sourceValues (fedBy : i.FedBy n nodes feeds) {f : Link × Nat} (member : f ∈ feeds) :
    ∃ values, n.sourceValues i.data.elementType f.1 = some values ∧ values.length = f.2 := by
  obtain ⟨id, -, fed⟩ := Network.feed_of_mem_mapM fedBy.fed member
  obtain ⟨l, count⟩ := f
  obtain ⟨-, o, sourced, counted⟩ := Network.feed_eq_some_iff_source.mp fed
  obtain ⟨o', sourced', typed, holds⟩ := fedBy.sources _ member
  obtain rfl : o = o' := Option.some.inj (sourced.symm.trans sourced')
  obtain ⟨values, length⟩ := Network.sourceValues_of_holds sourced typed holds
  exact ⟨_, values, length.trans counted⟩

end Input

namespace Network

variable {n : Network} {i : Input} {nodes : Nat} {feeds : List (Link × Nat)}

/--
What consolidating an input has made after the links `pref`: a buffer of the input's type and
count that owns its bytes, whose first elements are those of the outputs feeding `pref`, in turn.
-/
structure MergedUpTo (n : Network) (i : Input) (pref : List Nat) (b : Buffer) : Prop where
  typed : b.elementType = i.data.elementType
  counted : b.count = i.data.count
  owned : ∃ bytes, b.backing = .owned bytes ∧ bytes.size = b.byteLen
  merged : ∃ fp, pref.mapM n.feed = some fp ∧
    Element.readAll i.data.elementType
        (b.raw.extract 0 ((fp.map (·.2)).sum * i.data.elementType.size)) =
      (fp.map fun f => (n.sourceValues i.data.elementType f.1).getD []).flatten

/-- A fresh buffer of the input's type and count has merged no link yet. -/
theorem mergedUpTo_nil {b : Buffer}
    (made : (Buffer.new i.data.elementType).allocate i.data.count = .ok b) :
    n.MergedUpTo i [] b := by
  obtain ⟨-, -, rfl⟩ := Buffer.allocate_eq_ok_iff.mp made
  exact ⟨rfl, rfl, ⟨_, rfl, by simp [Bytes.zeros, Buffer.byteLen, Buffer.new]⟩,
    ⟨[], rfl, by simp [Element.readAll]⟩⟩

/-- Copying the output feeding the next link of a fed input, at the link's offset, succeeds and
merges that link too. -/
theorem MergedUpTo.step {pref suff : List Nat} {cur : Nat} {b : Buffer} {l : Link} {src : Region}
    {o : Output} (merging : n.MergedUpTo i pref b) (fedBy : i.FedBy n nodes feeds)
    (split : i.links = pref ++ cur :: suff) (found : n.links.find? (·.id == cur) = some l)
    (srcFound : n.regions.find? l.endpoints.srcRegion = some src)
    (outputFound : src.outputs.find? l.endpoints.srcOutput = some o) :
    ∃ b', b.copyFromAt l.offset o.data = .ok b' ∧ n.MergedUpTo i (pref ++ [cur]) b' := by
  obtain ⟨fp, f, fs, rfl, prefFed, curFed⟩ := fedBy.split split
  obtain ⟨fp', prefFed', merged⟩ := merging.merged
  obtain rfl : fp = fp' := Option.some.inj (prefFed.symm.trans prefFed')
  -- the feed of the next link is the link found, with the output found
  obtain ⟨l', count⟩ := f
  obtain ⟨found', o', sourced, counted⟩ := feed_eq_some_iff_source.mp curFed
  obtain rfl : l = l' := Option.some.inj (found.symm.trans found')
  obtain rfl : o = o' := by
    simp only [source, srcFound, Option.bind_some, outputFound] at sourced
    exact Option.some.inj sourced
  subst counted
  obtain ⟨o'', sourced', typed, holds⟩ := fedBy.sources _ (List.mem_append_right _ (.head _))
  obtain rfl : o = o'' := Option.some.inj (sourced.symm.trans sourced')
  -- the link starts where the links before it end, and ends inside the buffer
  have offset : l.offset = (fp.map (·.2)).sum := by
    simpa using fedBy.laid.offsets fp.length (by simp)
  have total := fedBy.laid.count
  simp only [List.map_append, List.map_cons, List.sum_append, List.sum_cons] at total
  have inside : l.offset + o.data.count ≤ b.count := by
    rw [merging.counted, total, offset]
    omega
  obtain ⟨bytes, owned, exact⟩ := merging.owned
  have fits : b.byteLen < wordSize := by
    rw [Buffer.byteLen, merging.counted, merging.typed]
    exact fedBy.laid.fits
  have sound : b.Sound := Buffer.sound_of_owned owned exact fits
  obtain ⟨srcBytes, srcOwned, srcExact⟩ := holds
  have srcSound : o.data.Sound := by
    refine Buffer.sound_of_owned srcOwned srcExact (Nat.lt_of_le_of_lt ?_ fits)
    rw [Buffer.byteLen, Buffer.byteLen, typed, ← merging.typed]
    exact Nat.mul_le_mul_right _ (by omega)
  have srcTyped : o.data.elementType = b.elementType := typed.trans merging.typed.symm
  refine ⟨_, Buffer.copyFromAt_eq_ok.mpr ⟨srcTyped, Nat.lt_of_le_of_lt inside sound.count_lt, inside,
      by simp [Buffer.ownership, owned], rfl⟩,
    merging.typed, merging.counted, ⟨_, rfl, Buffer.size_windowBytes sound srcSound srcTyped inside⟩,
    fp ++ [(l, o.data.count)], by simp [List.mapM_append, prefFed, curFed], ?_⟩
  -- the bytes up to the link's end are those before it, then its source's
  have raw : ({ b with backing := .owned (b.windowBytes l.offset o.data) } : Buffer).raw =
      b.windowBytes l.offset o.data :=
    Buffer.raw_of_owned rfl (Buffer.size_windowBytes sound srcSound srcTyped inside)
  have window := Buffer.windowBytes_upTo sound srcSound srcTyped inside
  have aligned : i.data.elementType.size ∣ (b.raw.extract 0 (l.offset * b.elementType.size)).size := by
    refine ⟨l.offset, ?_⟩
    rw [Array.size_extract, sound.size_raw, Buffer.byteLen, merging.typed, Nat.mul_comm]
    exact Nat.min_eq_left (by rw [Nat.mul_comm]; exact Nat.mul_le_mul_right _ (by omega))
  obtain ⟨values, length⟩ := sourceValues_of_holds sourced typed ⟨srcBytes, srcOwned, srcExact⟩
  rw [merging.typed] at window aligned
  simp only [List.map_append, List.map_cons, List.map_nil, List.sum_append, List.sum_cons,
    List.sum_nil, Nat.add_zero, List.flatten_append, List.flatten_cons, List.flatten_nil,
    List.append_nil, raw, ← offset, window, Element.readAll_append aligned, values,
    Option.getD_some]
  rw [← merged, offset]


/-- Having merged every link, the buffer reads as the elements of the outputs feeding them, in
turn. -/
theorem MergedUpTo.read {b : Buffer} (merging : n.MergedUpTo i i.links b)
    (fedBy : i.FedBy n nodes feeds) :
    b.read i.data.elementType =
      .ok (feeds.map fun f => (n.sourceValues i.data.elementType f.1).getD []).flatten := by
  obtain ⟨fp, fed, merged⟩ := merging.merged
  obtain rfl : fp = feeds := Option.some.inj (fed.symm.trans fedBy.fed)
  obtain ⟨bytes, owned, exact⟩ := merging.owned
  have whole : b.raw.extract 0 ((fp.map (·.2)).sum * i.data.elementType.size) = b.raw := by
    have sized : bytes.size = i.data.count * i.data.elementType.size := by
      rw [exact, Buffer.byteLen, merging.counted, merging.typed]
    rw [← fedBy.laid.count, Buffer.raw_of_owned owned exact, ← sized, Array.extract_size]
  rw [whole] at merged
  rw [← merging.typed, Buffer.read_of_owned owned, merging.typed, merged]

end Network

namespace Input

variable {i : Input} {nodes : Nat} {feeds : List (Link × Nat)}

/-- The position, in the merged elements, of element `x` of the link at index `j`: after the
elements of the links before it. -/
theorem Layout.getElem?_merged (laid : i.Layout nodes feeds) {values : Link → List Element}
    (sized : ∀ f ∈ feeds, (values f.1).length = f.2) {j x : Nat} (hj : j < feeds.length)
    (hx : x < feeds[j].2) :
    (feeds.map fun f => values f.1).flatten[x + feeds[j].1.offset]? = (values feeds[j].1)[x]? := by
  have lengths : (feeds.take j).map (·.2) = ((feeds.map fun f => values f.1).take j).map List.length := by
    rw [← List.map_take, List.map_map]
    exact List.map_congr_left fun f member =>
      (sized f (List.mem_of_mem_take member)).symm
  rw [laid.offsets j hj, lengths, Nat.add_comm]
  have inList := List.getElem?_flatten_after (feeds.map fun f => values f.1) (j := j) (x := x)
    (by simpa using hj) (by simpa [sized _ (List.getElem_mem hj)] using hx)
  simpa using inList

/-- An entry a link routes to a node lies inside its source. -/
theorem Layout.routed_lt (laid : i.Layout nodes feeds) {f : Link × Nat} (member : f ∈ feeds)
    {node x : Nat} (routed : x ∈ f.1.routes.getD node []) : x < f.2 := by
  rw [List.getD_eq_getElem?_getD] at routed
  cases entry : f.1.routes[node]? with
  | none => simp [entry] at routed
  | some row =>
      rw [entry, Option.getD_some] at routed
      exact laid.inside f member row (List.mem_of_getElem? entry) x routed

/-- Node `node` of an input laid out over `feeds`, given a buffer that reads as the elements
`values` of its links one after the other, reads for each link, in turn, the elements of its
source that the link routes to the node. -/
theorem Layout.nodeInput (laid : i.Layout nodes feeds) {b : Buffer}
    (values : Link → List Element) (sized : ∀ f ∈ feeds, (values f.1).length = f.2)
    (read : b.read i.data.elementType = .ok (feeds.map fun f => values f.1).flatten)
    {node : Nat} (below : node < nodes) :
    ∃ ys, ({ i with data := b } : Input).nodeInput node i.data.elementType = .ok ys ∧
      ys.map some = feeds.flatMap fun f => (f.1.routes.getD node []).map fun x => (values f.1)[x]? := by
  set row := feeds.flatMap fun f => (f.1.routes.getD node []).map (· + f.1.offset) with rowIs
  have located : i.splitterMap[node]? = some row := by
    rw [laid.map, linkedMap, List.getElem?_map, List.getElem?_range below, Option.map_some,
      List.flatMap_map]
  have total : (feeds.map fun f => values f.1).flatten.length = i.data.count := by
    rw [List.length_flatten, List.map_map, laid.count]
    exact congrArg List.sum (List.map_congr_left fun f member => sized f member)
  -- every position the row names lies inside the merged elements
  have inside : ∀ e ∈ row, e < (feeds.map fun f => values f.1).flatten.length := by
    rw [total]
    exact laid.splitterMap_lt row (List.mem_of_getElem? located)
  -- the row reads, link by link, the elements each link routes to the node
  have rowValues : row.map ((feeds.map fun f => values f.1).flatten[·]?) =
      feeds.flatMap fun f => (f.1.routes.getD node []).map fun x => (values f.1)[x]? := by
    rw [rowIs, List.map_flatMap]
    refine List.flatMap_congr fun f member => ?_
    obtain ⟨j, hj, rfl⟩ := List.getElem_of_mem member
    rw [List.map_map]
    exact List.map_congr_left fun x routed =>
      laid.getElem?_merged sized hj (laid.routed_lt member routed)
  simp only [Input.nodeInput, located, read, liftData, bind, Except.bind, ← rowValues]
  refine List.mapM_eq_ok_of_found fun e member => ⟨_, List.getElem?_eq_getElem (inside e member), ?_⟩
  simp only [List.getElem?_eq_getElem (inside e member)]
  rfl

end Input

namespace Op

/-- Consolidating a fed input succeeds and leaves the session as it was, with a buffer of the
input's type and count that reads as the elements of the outputs feeding its links, in turn. -/
theorem consolidate_merges {t : Session} {i : Input} {nodes : Nat} {feeds : List (Link × Nat)}
    (fedBy : i.FedBy t.network nodes feeds) :
    ⦃fun s => ⌜s = t⌝⦄ consolidate i
    ⦃post⟨fun b s => ⌜s = t ∧ b.elementType = i.data.elementType ∧ b.count = i.data.count ∧
        b.read i.data.elementType = .ok (feeds.map fun f =>
          (t.network.sourceValues i.data.elementType f.1).getD []).flatten⌝,
      fun _ _ => ⌜False⌝⟩⦄ := by
  mvcgen [consolidate, -consolidate_keeps, lift] invariants
  · post⟨fun cursor s => ⌜s = t ∧ t.network.MergedUpTo i ( List.Cursor.prefix cursor.1) cursor.2⌝,
      fun _ _ => ⌜False⌝⟩
  -- the buffer is allocated: its bytes fit in a word
  case vc9.h_2 s atStart e failed =>
    have made : (Buffer.new i.data.elementType).allocate i.data.count = .ok _ :=
      Buffer.allocate_eq_ok_iff.mpr ⟨rfl, fedBy.laid.fits, rfl⟩
    simp [made, liftData] at failed
  case vc6.h_1.pre s atStart fresh made =>
    exact ⟨atStart, Network.mergedUpTo_nil (liftData_eq_ok.mp made)⟩
  -- each link is found with its source, and its copy merges it
  case vc1.step.h_1.h_1.h_1.h_1 s₀ atStart fresh made pref cur suff split b l found s held src
      srcGot o outputGot b' copied =>
    subst atStart
    obtain ⟨rfl, merging⟩ := held
    obtain ⟨b'', copy, merged⟩ := merging.step fedBy split found
      (Collection.get_eq_ok_iff.mp (liftData_eq_ok.mp srcGot)) (Region.output_eq_ok_iff.mp outputGot)
    rw [liftData_eq_ok, copy] at copied
    cases copied
    exact ⟨rfl, merged⟩
  case vc2.step.h_1.h_1.h_1.h_2 s₀ atStart fresh made pref cur suff split b l found s held src
      srcGot o outputGot e failed =>
    subst atStart
    obtain ⟨b'', copy, -⟩ := held.2.step fedBy split found
      (Collection.get_eq_ok_iff.mp (liftData_eq_ok.mp srcGot)) (Region.output_eq_ok_iff.mp outputGot)
    simp [copy, liftData] at failed
  case vc3.step.h_1.h_1.h_2 s₀ atStart fresh made pref cur suff split b l found s held src srcGot
      e failed =>
    subst atStart
    obtain ⟨l', found', src', o, srcFound, outputFound⟩ := fedBy.found split
    obtain rfl : l = l' := Option.some.inj (found.symm.trans found')
    obtain rfl : src = src' :=
      Option.some.inj ((Collection.get_eq_ok_iff.mp (liftData_eq_ok.mp srcGot)).symm.trans srcFound)
    simp [Region.output_eq_ok_iff.mpr outputFound] at failed
  case vc4.step.h_1.h_2 s₀ atStart fresh made pref cur suff split b l found s held e failed =>
    subst atStart
    obtain ⟨l', found', src, o, srcFound, -⟩ := fedBy.found split
    obtain rfl : l = l' := Option.some.inj (found.symm.trans found')
    simp [Collection.get_eq_ok_iff.mpr srcFound, liftData] at failed
  case vc5.step.h_2 s₀ atStart fresh made pref cur suff split b x missing found s held =>
    subst atStart
    obtain ⟨l, found', -⟩ := fedBy.found split
    exact missing l (found.symm.trans found')
  -- having merged every link, the buffer reads as its sources
  case vc7.h_1.post.success s₀ atStart fresh made b s held =>
    obtain ⟨rfl, merging⟩ := held
    exact ⟨rfl, merging.typed, merging.counted, merging.read fedBy⟩

/--
Consolidating a fed input succeeds and leaves the session as it was, and the input given the
merged data reads at each node, for each link in turn, the elements of the output feeding the link
that the link routes to the node, as that output holds them.
-/
theorem consolidate_reads_sources {t : Session} {i : Input} {nodes : Nat}
    {feeds : List (Link × Nat)} (fedBy : i.FedBy t.network nodes feeds) :
    ∃ b i', EStateM.run (consolidate i) t = .ok b t ∧ i.setData b = .ok i' ∧
      ∀ node < nodes, ∃ ys, i'.nodeInput node i.data.elementType = .ok ys ∧
        ys.map some = feeds.flatMap fun f => (f.1.routes.getD node []).map fun x =>
          (t.network.sourceValues i.data.elementType f.1).bind (·[x]?) := by
  have merged := run_of_triple (consolidate_merges fedBy) (s := t) rfl
  split at merged
  · rename_i b s' ran
    obtain ⟨same, typed, counted, read⟩ := merged
    rw [same] at ran
    have set : i.setData b = .ok { i with data := b } := by
      simp [Input.setData, typed, counted]
    refine ⟨b, _, ran, set, fun node below => ?_⟩
    have sized : ∀ f ∈ feeds,
        ((t.network.sourceValues i.data.elementType f.1).getD []).length = f.2 := by
      intro f member
      obtain ⟨values, found, length⟩ := fedBy.sourceValues member
      rw [found, Option.getD_some, length]
    obtain ⟨ys, reads, routed⟩ :=
      fedBy.laid.nodeInput (fun l => (t.network.sourceValues i.data.elementType l).getD []) sized read
        below
    refine ⟨ys, reads, routed.trans (List.flatMap_congr fun f member => ?_)⟩
    obtain ⟨values, found, -⟩ := fedBy.sourceValues member
    simp [found]
  · exact merged.elim

end Op

end RegionNet

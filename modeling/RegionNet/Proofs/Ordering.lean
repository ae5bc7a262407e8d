import Mathlib.Data.Fintype.Card
import Mathlib.Data.Fintype.Sets
import Mathlib.Logic.Relation
import RegionNet.Proofs.SourceBounds

namespace RegionNet

/-!
# Regions in producers-first order

Regions are ordered by Kahn's algorithm over the multigraph with one edge per link, from its
source region to its destination region. Each region carries the number of links into it from
regions not placed yet (`Network.waiting`), and the first region, in the order regions were
added, whose number is zero is placed next.

Placing keeps an invariant (`Network.Placement`): the regions placed are distinct regions, each
placed after every region that feeds it, and each region's number counts its links from regions
left (`Network.degrees_append`). From it, `Network.sortedOrder_topological`: sorting succeeds
exactly when no region lies on a cycle; the order it then gives runs producers first and has the
lexicographically least insertion positions of all such orders; and when it refuses, it names
exactly the regions a cycle leads into.
-/

section Cycles

variable {α : Type} [DecidableEq α] {R : α → α → Prop}

/--
In a finite set where every member has a predecessor that is a member too, walking back from a
member must come round: a cycle lies above it.
-/
theorem exists_cycle_above
    {P : α → Prop}
    (listed : List α)
    (finite : ∀ x, P x → x ∈ listed)
    (back : ∀ x, P x → ∃ y, P y ∧ R y x)
    {x : α}
    (start : P x) :
    ∃ c, Relation.TransGen R c c ∧ Relation.ReflTransGen R c x := by
  by_contra acyclic
  -- strictly above, among the listed members that reach `x`: well founded on a finite type
  let above : {y // y ∈ listed} → {y // y ∈ listed} → Prop :=
    fun a b => Relation.TransGen R a b ∧ Relation.ReflTransGen R b x
  have : IsTrans _ above := ⟨fun _ _ _ ab bc => ⟨ab.1.trans bc.1, bc.2⟩⟩
  have : Std.Irrefl above := ⟨fun a aa => acyclic ⟨a, aa.1, aa.2⟩⟩
  obtain ⟨m, ⟨member, reaches⟩, least⟩ :=
    (Finite.wellFounded_of_trans_of_irrefl above).has_min
      {y | P y.1 ∧ Relation.ReflTransGen R y.1 x} ⟨⟨x, finite x start⟩, start, .refl⟩
  obtain ⟨y, earlier, step⟩ := back m.1 member
  exact least ⟨y, finite y earlier⟩ ⟨earlier, .head step reaches⟩ ⟨.single step, reaches⟩

end Cycles

namespace Network

/-- A link runs from region `a` into region `b`. -/
def Feeds (n : Network) (a b : String) : Prop :=
  ∃ l ∈ n.links, l.endpoints.srcRegion = a ∧ l.endpoints.destRegion = b

/-- A chain of one or more links leads from the region back to it. -/
def OnCycle (n : Network) (r : String) : Prop :=
  Relation.TransGen n.Feeds r r

/-- An order lists every region once, the source of every link before its destination. -/
structure ProducersFirst (n : Network) (order : List String) : Prop where
  perm : order.Perm n.regions.names
  before : ∀ l ∈ n.links,
    order.idxOf l.endpoints.srcRegion < order.idxOf l.endpoints.destRegion

/-- The insertion positions of the regions of an order, in the order's order. -/
def positions (n : Network) (order : List String) : List Nat :=
  order.map n.regions.names.idxOf

/-- The links into `r` from regions not placed yet. -/
def waiting (n : Network) (placed : List String) (r : String) : Nat :=
  n.links.countP fun l => l.endpoints.destRegion == r && !placed.contains l.endpoints.srcRegion

/-- Every region with the number of links into it from regions not placed yet. -/
def degrees (n : Network) (placed : List String) : List (String × Nat) :=
  n.regions.names.map fun r => (r, n.waiting placed r)

/-- Every link into `r` comes from a placed region. -/
def Ready (n : Network) (placed : List String) (r : String) : Prop :=
  ∀ l ∈ n.links, l.endpoints.destRegion = r → l.endpoints.srcRegion ∈ placed

/-- No region left to place is ready. -/
def Stuck (n : Network) (placed : List String) : Prop :=
  ∀ r ∈ n.regions.names, r ∉ placed → ¬ n.Ready placed r

/--
What placing keeps of the regions placed so far: each is a region, placed once, and placed after
every region that feeds it.
-/
structure Placement (n : Network) (placed : List String) : Prop where
  apart : placed.Nodup
  known : ∀ x ∈ placed, x ∈ n.regions.names
  fedFirst : ∀ l ∈ n.links, l.endpoints.destRegion ∈ placed →
    l.endpoints.srcRegion ∈ placed ∧
      placed.idxOf l.endpoints.srcRegion < placed.idxOf l.endpoints.destRegion

variable {n : Network} {placed : List String}

/-!
## The degrees
-/

/-- A region waits for no link exactly when it is ready. -/
theorem waiting_eq_zero_iff {r : String} : n.waiting placed r = 0 ↔ n.Ready placed r := by
  simp [waiting, Ready, List.countP_eq_zero]

/-- Placing `next` takes off each region's count the links into it from `next`. -/
theorem waiting_append
    {next r : String}
    (fresh : next ∉ placed) :
    n.waiting placed r =
      n.waiting (placed ++ [next]) r +
        ((n.links.filter (·.endpoints.srcRegion == next)).map (·.endpoints.destRegion)).count r := by
  simp only [waiting, List.count_eq_countP, List.countP_map, List.countP_filter]
  induction n.links with
  | nil => rfl
  | cons l rest inductionHypothesis =>
    simp only [List.countP_cons, inductionHypothesis]
    by_cases fromNext : l.endpoints.srcRegion = next
    · subst fromNext
      simp [fresh]
      omega
    · simp [fromNext]
      omega

/-- Placing `next` leaves every region with its links from regions still not placed. -/
theorem degrees_append
    {next : String}
    (fresh : next ∉ placed) :
    (n.degrees placed).map (fun (nm, d) =>
        (nm, d - ((n.links.filter (·.endpoints.srcRegion == next)).map
          (·.endpoints.destRegion)).count nm)) =
      n.degrees (placed ++ [next]) := by
  simp only [degrees, List.map_map]
  refine List.map_congr_left fun r _ => ?_
  have taken := waiting_append (n := n) (r := r) fresh
  simp only [Function.comp_apply, Prod.mk.injEq, true_and]
  omega

/-- The count kept for a region is its number of links from regions not placed yet. -/
theorem lookup_degrees {r : String} (member : r ∈ n.regions.names) :
    (n.degrees placed).lookup r = some (n.waiting placed r) :=
  List.lookup_graph _ member

/-- A region passes the test for the next one exactly when it is left and ready. -/
theorem chosen_iff {r : String} (member : r ∈ n.regions.names) :
    (!placed.contains r && (n.degrees placed).lookup r == some 0) = true ↔
      r ∉ placed ∧ n.Ready placed r := by
  simp [lookup_degrees member, ← waiting_eq_zero_iff]

/-- The region placed next is a region, left, and ready. -/
theorem chosen_of_find?
    {next : String}
    (chosen : n.regions.names.find?
        (fun nm => !placed.contains nm && (n.degrees placed).lookup nm == some 0) = some next) :
    next ∈ n.regions.names ∧ next ∉ placed ∧ n.Ready placed next := by
  have member := List.mem_of_find?_eq_some chosen
  have passes := List.find?_some chosen
  exact ⟨member, (chosen_iff member).mp passes⟩

/-!
## What placing keeps
-/

/-- Every link joins two regions. -/
def Linked (n : Network) : Prop :=
  ∀ l ∈ n.links, l.endpoints.srcRegion ∈ n.regions.names ∧ l.endpoints.destRegion ∈ n.regions.names

/-- The links of a network with referential integrity join regions. -/
theorem Integrity.linked (integrity : n.Integrity) : n.Linked := by
  intro l link
  obtain ⟨⟨_, _, src, _⟩, _, _, dest, _⟩ := integrity.ends l link
  exact ⟨mem_names_of_region src, mem_names_of_region dest⟩

/-- A chain of links ends in a region. -/
theorem mem_names_of_transGen
    (linked : n.Linked)
    {a b : String}
    (chain : Relation.TransGen n.Feeds a b) :
    b ∈ n.regions.names := by
  obtain ⟨_, _, l, link, _, rfl⟩ := Relation.TransGen.tail'_iff.mp chain
  exact (linked l link).2

namespace Placement

theorem nil : n.Placement [] where
  apart := List.nodup_nil
  known := by simp
  fedFirst := by simp

/-- Placing a region that is left and ready keeps what placing keeps. -/
theorem append
    {next : String}
    (placement : n.Placement placed)
    (member : next ∈ n.regions.names)
    (fresh : next ∉ placed)
    (ready : n.Ready placed next) :
    n.Placement (placed ++ [next]) where
  apart := by
    refine List.nodup_append.mpr ⟨placement.apart, List.nodup_singleton _, ?_⟩
    rintro a present b single rfl
    exact fresh (List.mem_singleton.mp single ▸ present)
  known := by simpa [or_imp, forall_and] using ⟨placement.known, member⟩
  fedFirst := by
    intro l link arrived
    rcases List.mem_append.mp arrived with earlier | now
    · obtain ⟨fed, before⟩ := placement.fedFirst l link earlier
      refine ⟨List.mem_append_left _ fed, ?_⟩
      rwa [List.idxOf_append_of_mem fed, List.idxOf_append_of_mem earlier]
    · rw [List.mem_singleton] at now
      have fed := ready l link now
      have inside := List.idxOf_lt_length_of_mem fed
      refine ⟨List.mem_append_left _ fed, ?_⟩
      rw [List.idxOf_append_of_mem fed, now, List.idxOf_append_of_notMem fresh]
      simpa using inside

/-- Along a chain of links into a placed region, every region is placed, and earlier. -/
theorem transGen
    (placement : n.Placement placed)
    {a b : String}
    (chain : Relation.TransGen n.Feeds a b)
    (arrived : b ∈ placed) :
    a ∈ placed ∧ placed.idxOf a < placed.idxOf b := by
  induction chain with
  | single link =>
    obtain ⟨l, member, rfl, rfl⟩ := link
    exact placement.fedFirst l member arrived
  | tail _ link inductionHypothesis =>
    obtain ⟨l, member, rfl, rfl⟩ := link
    obtain ⟨fed, before⟩ := placement.fedFirst l member arrived
    obtain ⟨first, earlier⟩ := inductionHypothesis fed
    exact ⟨first, earlier.trans before⟩

/-- No placed region lies on a cycle. -/
theorem not_onCycle
    (placement : n.Placement placed)
    {r : String}
    (arrived : r ∈ placed) :
    ¬ n.OnCycle r := fun cycle =>
  Nat.lt_irrefl _ (placement.transGen cycle arrived).2

/-- Once no region left is ready, the regions left are exactly those a cycle leads into. -/
theorem unplaced_iff
    (placement : n.Placement placed)
    (stuck : n.Stuck placed)
    (linked : n.Linked)
    {r : String} :
    r ∈ n.regions.names ∧ r ∉ placed ↔
      ∃ c, n.OnCycle c ∧ Relation.ReflTransGen n.Feeds c r := by
  constructor
  · rintro ⟨member, left⟩
    refine @exists_cycle_above _ _ n.Feeds (fun y => y ∈ n.regions.names ∧ y ∉ placed)
      n.regions.names (fun _ left => left.1) ?_ r ⟨member, left⟩
    rintro y ⟨member, left⟩
    -- a region left that is not ready is fed by a region left
    obtain ⟨l, link, into, unfed⟩ :
        ∃ l ∈ n.links, l.endpoints.destRegion = y ∧ l.endpoints.srcRegion ∉ placed := by
      simpa [Ready] using stuck y member left
    exact ⟨_, ⟨(linked l link).1, unfed⟩, l, link, rfl, into⟩
  · rintro ⟨c, cycle, reaches⟩
    have chain : Relation.TransGen n.Feeds c r := cycle.trans_left reaches
    refine ⟨mem_names_of_transGen linked chain, fun arrived => ?_⟩
    exact placement.not_onCycle (placement.transGen chain arrived).1 cycle

end Placement

section Lists

variable {α : Type} [BEq α] [LawfulBEq α]

/-- The first member a test finds comes before every other one that passes it. -/
theorem idxOf_lt_of_find?
    {p : α → Bool}
    {xs : List α}
    {b y : α}
    (found : xs.find? p = some b)
    (passes : p y = true)
    (other : y ≠ b) :
    xs.idxOf b < xs.idxOf y := by
  obtain ⟨first, before, after, rfl, failing⟩ := List.find?_eq_some_iff_append.mp found
  have yLater : y ∉ before := fun early => by simpa [passes] using failing y early
  have bLater : b ∉ before := fun early => by simpa [first] using failing b early
  rw [List.idxOf_append_of_notMem bLater, List.idxOf_append_of_notMem yLater,
    List.idxOf_cons_self, List.idxOf_cons_ne _ (Ne.symm other)]
  omega

end Lists

/-!
## Placing
-/

variable {fuel : Nat} {degree : List (String × Nat)} {order : List String}

/-- A finished order extends the regions placed so far and keeps what placing keeps. -/
theorem placeRegions_ok
    (placement : n.Placement placed)
    (counted : degree = n.degrees placed)
    (ordered : n.placeRegions fuel placed degree = .ok order) :
    n.Placement order ∧ placed <+: order := by
  fun_induction n.placeRegions fuel placed degree with
  | case1 => cases ordered; exact ⟨placement, List.prefix_refl _⟩
  | case2 => cases ordered; exact ⟨placement, List.prefix_refl _⟩
  | case3 => cases ordered
  | case4 _ placed _ _ _ next chosen _ _ inductionHypothesis =>
    subst counted
    obtain ⟨member, fresh, ready⟩ := chosen_of_find? chosen
    obtain ⟨kept, longer⟩ := inductionHypothesis (placement.append member fresh ready)
      (degrees_append fresh) ordered
    exact ⟨kept, (List.prefix_append _ _).trans longer⟩

/--
Placing stops short only when no region left is ready, and then names, in the order they were
added, the regions it left.
-/
theorem placeRegions_error
    {e : EngineError}
    (placement : n.Placement placed)
    (counted : degree = n.degrees placed)
    (refused : n.placeRegions fuel placed degree = .error e) :
    ∃ final, n.Placement final ∧ n.Stuck final ∧ final.length < n.regions.names.length ∧
      e = .dimensionsUnresolvable ("cycle among region(s) " ++
        ", ".intercalate (n.regions.names.filter fun r => !final.contains r)) := by
  fun_induction n.placeRegions fuel placed degree with
  | case1 => cases refused
  | case2 => cases refused
  | case3 _ placed _ _ short none =>
    subst counted
    cases refused
    refine ⟨placed, placement, ?_, Nat.lt_of_not_le short, rfl⟩
    intro r member left ready
    exact List.find?_eq_none.mp none r member ((chosen_iff member).mpr ⟨left, ready⟩)
  | case4 _ placed _ _ _ next chosen _ _ inductionHypothesis =>
    subst counted
    obtain ⟨member, fresh, ready⟩ := chosen_of_find? chosen
    exact inductionHypothesis (placement.append member fresh ready) (degrees_append fresh) refused

/-- In a producers-first order, the region after a prefix is left, and ready once the prefix is placed. -/
theorem ProducersFirst.ready
    (distinct : n.regions.names.Nodup)
    {y : String}
    {rest : List String}
    (producersFirst : n.ProducersFirst (placed ++ y :: rest)) :
    y ∈ n.regions.names ∧ y ∉ placed ∧ n.Ready placed y := by
  have apart := producersFirst.perm.nodup_iff.mpr distinct
  have fresh : y ∉ placed := fun early =>
    (List.nodup_append.mp apart).2.2 y early y (List.mem_cons_self) rfl
  refine ⟨producersFirst.perm.subset (by simp), fresh, ?_⟩
  intro l link into
  have before := producersFirst.before l link
  rw [into, List.idxOf_append_of_notMem fresh, List.idxOf_cons_self] at before
  by_contra unfed
  rw [List.idxOf_append_of_notMem unfed] at before
  omega

/--
Placing picks, among the producers-first orders that extend what is placed, the one whose
insertion positions are least: at the first place two differ, the region placed was the earliest
added of those ready.
-/
theorem placeRegions_least
    (distinct : n.regions.names.Nodup)
    (placement : n.Placement placed)
    (counted : degree = n.degrees placed)
    (ordered : n.placeRegions fuel placed degree = .ok order)
    {other : List String}
    (producersFirst : n.ProducersFirst other)
    (prefixed : placed <+: other) :
    n.positions order ≤ n.positions other := by
  fun_induction n.placeRegions fuel placed degree with
  | case1 => cases ordered; exact not_lt.mp (prefixed.map _).le
  | case2 => cases ordered; exact not_lt.mp (prefixed.map _).le
  | case3 => cases ordered
  | case4 _ placed _ _ short next chosen _ _ inductionHypothesis =>
    subst counted
    obtain ⟨member, fresh, ready⟩ := chosen_of_find? chosen
    have grown := placement.append member fresh ready
    obtain ⟨rest, rfl⟩ := prefixed
    cases rest with
    | nil =>
      have short : placed.length < n.regions.names.length := Nat.lt_of_not_le short
      have same := producersFirst.perm.length_eq
      simp only [List.append_nil] at same
      omega
    | cons y rest =>
      by_cases same : y = next
      · subst same
        exact inductionHypothesis grown (degrees_append fresh) ordered (by simp)
      · -- the orders part at `y`: the region placed there was added before `y`
        obtain ⟨following, rfl⟩ := (placeRegions_ok grown (degrees_append fresh) ordered).2
        obtain ⟨_, yFresh, yReady⟩ := producersFirst.ready distinct
        have earlier := idxOf_lt_of_find? chosen ((chosen_iff (producersFirst.perm.subset
          (by simp))).mpr ⟨yFresh, yReady⟩) same
        simp only [positions, List.map_append, List.map_cons, List.append_assoc,
          List.singleton_append]
        exact le_of_lt (List.append_left_lt (List.Lex.rel earlier))

/-!
## Sorting
-/

/-- Sorting starts with nothing placed and every region's links counted. -/
theorem sortedOrder_eq : n.sortedOrder = n.placeRegions (n.regions.count + 1) [] (n.degrees []) := by
  unfold sortedOrder degrees waiting
  dsimp only
  congr 1
  refine List.map_congr_left fun r _ => ?_
  simp [List.countP_eq_length_filter]

/-- A sorted order lists every region once, the source of each link before its destination. -/
theorem sortedOrder_producersFirst
    (linked : n.Linked)
    (sorted : n.sortedOrder = .ok order) :
    n.ProducersFirst order := by
  have perm := sortedOrder_perm sorted
  rw [sortedOrder_eq] at sorted
  have placement := (placeRegions_ok Placement.nil rfl sorted).1
  refine ⟨perm, fun l link => ?_⟩
  exact (placement.fedFirst l link (perm.mem_iff.mpr (linked l link).2)).2

/-- Of all producers-first orders, the sorted one has the least insertion positions. -/
theorem sortedOrder_least
    (distinct : n.regions.names.Nodup)
    (sorted : n.sortedOrder = .ok order)
    {other : List String}
    (producersFirst : n.ProducersFirst other) :
    n.positions order ≤ n.positions other := by
  rw [sortedOrder_eq] at sorted
  exact placeRegions_least distinct Placement.nil rfl sorted producersFirst List.nil_prefix

/-- Sorting succeeds exactly when no region lies on a cycle of links. -/
theorem sortedOrder_isOk_iff
    (distinct : n.regions.names.Nodup)
    (linked : n.Linked) :
    (∃ order, n.sortedOrder = .ok order) ↔ ∀ r, ¬ n.OnCycle r := by
  constructor
  · rintro ⟨order, sorted⟩ r cycle
    have perm := sortedOrder_perm sorted
    rw [sortedOrder_eq] at sorted
    have placement := (placeRegions_ok Placement.nil rfl sorted).1
    exact placement.not_onCycle (perm.mem_iff.mpr (mem_names_of_transGen linked cycle)) cycle
  · intro acyclic
    cases sorted : n.sortedOrder with
    | ok order => exact ⟨order, rfl⟩
    | error e =>
      rw [sortedOrder_eq] at sorted
      obtain ⟨final, placement, stuck, short, -⟩ := placeRegions_error Placement.nil rfl sorted
      -- fewer regions are placed than there are, so one is left, and a cycle leads into it
      obtain ⟨r, member, left⟩ : ∃ r ∈ n.regions.names, r ∉ final := by
        by_contra covered
        have within : n.regions.names ⊆ final := fun r member => by
          by_contra left
          exact covered ⟨r, member, left⟩
        have := (List.subperm_of_subset distinct within).length_le
        omega
      obtain ⟨c, cycle, -⟩ := (placement.unplaced_iff stuck linked).mp ⟨member, left⟩
      exact (acyclic c cycle).elim

/-- Sorting refuses by naming, in the order they were added, the regions a cycle leads into. -/
theorem sortedOrder_error
    {e : EngineError}
    (linked : n.Linked)
    (refused : n.sortedOrder = .error e) :
    ∃ rest, e = .dimensionsUnresolvable ("cycle among region(s) " ++ ", ".intercalate rest) ∧
      rest.Sublist n.regions.names ∧
      ∀ r, r ∈ rest ↔ ∃ c, n.OnCycle c ∧ Relation.ReflTransGen n.Feeds c r := by
  rw [sortedOrder_eq] at refused
  obtain ⟨final, placement, stuck, -, rfl⟩ := placeRegions_error Placement.nil rfl refused
  refine ⟨_, rfl, List.filter_sublist, fun r => ?_⟩
  rw [← placement.unplaced_iff stuck linked]
  simp

/--
Sorting is a topological sort of the regions, with one edge per link from its source region to
its destination region: it succeeds exactly when no region lies on a cycle; it then lists every
region once, the source of every link before its destination, and of all such orders it gives
the one whose insertion positions are lexicographically least; and when it refuses, it names, in
the order they were added, exactly the regions a cycle leads into, which it could never place.
-/
theorem sortedOrder_topological
    (distinct : n.regions.names.Nodup)
    (integrity : n.Integrity) :
    ((∃ order, n.sortedOrder = .ok order) ↔ ∀ r, ¬ n.OnCycle r) ∧
      (∀ order, n.sortedOrder = .ok order →
        n.ProducersFirst order ∧
          ∀ other, n.ProducersFirst other → n.positions order ≤ n.positions other) ∧
      ∀ e, n.sortedOrder = .error e →
        ∃ rest, e = .dimensionsUnresolvable ("cycle among region(s) " ++ ", ".intercalate rest) ∧
          rest.Sublist n.regions.names ∧
          ∀ r, r ∈ rest ↔ ∃ c, n.OnCycle c ∧ Relation.ReflTransGen n.Feeds c r := by
  have linked := integrity.linked
  refine ⟨sortedOrder_isOk_iff distinct linked, fun order sorted => ?_,
    fun e refused => sortedOrder_error linked refused⟩
  exact ⟨sortedOrder_producersFirst linked sorted,
    fun other producersFirst => sortedOrder_least distinct sorted producersFirst⟩

end Network

/-- Two regions joined by a link, made from a new network, are sorted producers first. -/
theorem linked_pair_sorts_topologically :
    let s₀ : Session := { host := Host.new {}, files := {}, network := { id := 0 } }
    let n := ((Command.connect "A" "" "B" "" "UniformLink" "").op.leaves
      ((Command.addRegion "B" "TestNode" "").op.leaves
        ((Command.addRegion "A" "TestNode" "").op.leaves s₀))).network
    n.regions.names.Nodup ∧ n.Integrity ∧
      ((∃ order, n.sortedOrder = .ok order) ↔ ∀ r, ¬ n.OnCycle r) ∧
      (∀ order, n.sortedOrder = .ok order →
        n.ProducersFirst order ∧
          ∀ other, n.ProducersFirst other → n.positions order ≤ n.positions other) ∧
      ∀ e, n.sortedOrder = .error e →
        ∃ rest, e = .dimensionsUnresolvable ("cycle among region(s) " ++ ", ".intercalate rest) ∧
          rest.Sublist n.regions.names ∧
          ∀ r, r ∈ rest ↔ ∃ c, n.OnCycle c ∧ Relation.ReflTransGen n.Feeds c r := by
  intro s₀ n
  have wired : n.Wired := Reachable.wired (.command _ (.command _ (.command _ (.fresh rfl))))
  exact ⟨wired.distinct, wired.integrity,
    Network.sortedOrder_topological wired.distinct wired.integrity⟩

end RegionNet

import Mathlib
import RegionNet.Network.Workspace

set_option mvcgen.warning false

namespace RegionNet

open Std.Do

/-!
# Operations on a session, one rule each

Network operations are built from a handful of steps on the session: read the network, change
it, look up a region or a link, store a link back. This module gives each step its rule once, as
a triple in the form the verification condition generator uses (the precondition is the
postcondition at the state the step leaves), and the facts about replacing a link by number
that every later proof about links relies on. Nothing here unfolds an operation of the network.
-/

namespace Network

/-- The network with each link of the same number as `l` replaced by `l`. -/
def replaceLink (n : Network) (l : Link) : Network :=
  { n with links := n.links.map fun x => if x.id == l.id then l else x }

/-- The numbers of the links, in order. -/
def linkIds (n : Network) : List Nat := n.links.map (·.id)

section ReplaceLink

variable {n : Network} {l x : Link} {id : Nat}

@[simp] theorem replaceLink_regions : (n.replaceLink l).regions = n.regions := rfl

@[simp] theorem replaceLink_nextLink : (n.replaceLink l).nextLink = n.nextLink := rfl

@[simp] theorem replaceLink_state : (n.replaceLink l).state = n.state := rfl

/-- Replacing a link by one of the same number keeps the numbers. -/
@[simp] theorem linkIds_replaceLink : (n.replaceLink l).linkIds = n.linkIds := by
  simp only [linkIds, replaceLink, List.map_map]
  refine List.map_congr_left fun x _ => ?_
  by_cases same : x.id = l.id <;> simp [same]

/-- After a replacement a link is the new one or was there before. -/
theorem mem_replaceLink (member : x ∈ (n.replaceLink l).links) : x = l ∨ x ∈ n.links := by
  simp only [replaceLink, List.mem_map] at member
  obtain ⟨y, present, replaced⟩ := member
  by_cases same : y.id = l.id
  · simp only [same, BEq.rfl, ↓reduceIte] at replaced
    exact .inl replaced.symm
  · simp only [beq_iff_eq, same, ↓reduceIte] at replaced
    exact .inr (replaced ▸ present)

/-- Of two replacements of the same number the second wins. -/
theorem replaceLink_replaceLink {l' : Link} (same : l.id = l'.id) :
    (n.replaceLink l).replaceLink l' = n.replaceLink l' := by
  simp only [replaceLink, List.map_map, Network.mk.injEq, and_true, true_and]
  refine List.map_congr_left fun y _ => ?_
  by_cases replaced : y.id = l'.id <;> simp [replaced, same]

/-- A link found by number is one of the links, with that number. -/
theorem link_eq_ok (found : n.link id = .ok l) : l ∈ n.links ∧ l.id = id := by
  unfold link at found
  split at found
  · rename_i first
    cases found
    exact ⟨List.mem_of_find?_eq_some first, by simpa using List.find?_some first⟩
  · cases found

/-- Among links of distinct numbers, the first of a link's number is that link. -/
theorem find?_number_of_mem {links : List Link} (distinct : (links.map (·.id)).Nodup)
    (member : l ∈ links) : links.find? (·.id == l.id) = some l := by
  induction links with
  | nil => simp at member
  | cons y rest inductionHypothesis =>
      rw [List.map_cons, List.nodup_cons] at distinct
      rcases List.mem_cons.mp member with rfl | inRest
      · simp
      · have other : y.id ≠ l.id := fun same =>
          distinct.1 (same ▸ List.mem_map_of_mem inRest)
        simp [other, inductionHypothesis distinct.2 inRest]

/-- With distinct numbers, every link is found by its number. -/
theorem link_of_mem (distinct : n.linkIds.Nodup) (member : l ∈ n.links) :
    n.link l.id = .ok l := by
  simp [link, find?_number_of_mem distinct member]

/-- Looking up another number is not affected by a replacement. -/
theorem link_replaceLink_of_ne (other : id ≠ l.id) : (n.replaceLink l).link id = n.link id := by
  have sameSearch : (n.links.find? fun y =>
      (if y.id == l.id then l else y).id == id) = n.links.find? (·.id == id) := by
    refine List.find?_congr fun y _ => ?_
    by_cases replaced : y.id = l.id <;> simp [replaced]
  simp only [link, replaceLink, List.find?_map, Function.comp_def]
  rw [sameSearch]
  cases found : n.links.find? (·.id == id) with
  | none => rfl
  | some y =>
      have numbered : y.id = id := by simpa using List.find?_some found
      have untouched : y.id ≠ l.id := numbered ▸ other
      simp [untouched]

/-- A replaced link is found under its number. -/
theorem link_replaceLink_self (present : l.id ∈ n.linkIds) :
    (n.replaceLink l).link l.id = .ok l := by
  obtain ⟨y, member, numbered⟩ := List.mem_map.mp present
  have sameSearch : (n.links.find? fun x => (if x.id == l.id then l else x).id == l.id) =
      n.links.find? (·.id == l.id) := by
    refine List.find?_congr fun x _ => ?_
    by_cases replaced : x.id = l.id <;> simp [replaced]
  obtain ⟨x, first⟩ : ∃ x, n.links.find? (·.id == l.id) = some x :=
    Option.isSome_iff_exists.mp (List.find?_isSome.mpr ⟨y, member, by simp [numbered]⟩)
  have numberedX : x.id = l.id := by simpa using List.find?_some first
  simp only [link, replaceLink, List.find?_map, Function.comp_def]
  rw [sameSearch, first]
  simp [numberedX]

end ReplaceLink

end Network

namespace Op

/-- The session an operation leaves, whether it succeeds or fails. -/
def leaves {α : Type} (x : Op α) (s : Session) : Session :=
  match EStateM.run x s with
  | .ok _ s' => s'
  | .error _ s' => s'

/-- Whether an operation succeeds from a session. -/
def succeeds {α : Type} (x : Op α) (s : Session) : Bool :=
  match EStateM.run x s with
  | .ok _ _ => true
  | .error _ _ => false

/-- An operation that succeeds ends in the session it leaves. -/
theorem run_eq_ok_of_succeeds
    {x : Op Unit}
    {s : Session}
    (succeeded : x.succeeds s = true) :
    EStateM.run x s = .ok () (x.leaves s) := by
  unfold succeeds at succeeded
  unfold leaves
  split at succeeded
  · rename_i ran
    rw [ran]
  · cases succeeded

/-- An operation that fails ends, with some error, in the session it leaves. -/
theorem run_eq_error_of_fails
    {x : Op Unit}
    {s : Session}
    (failed : x.succeeds s = false) :
    ∃ e, EStateM.run x s = .error e (x.leaves s) := by
  unfold succeeds at failed
  unfold leaves
  split at failed
  · cases failed
  · rename_i e s' ran
    exact ⟨e, by rw [ran]⟩

/-- A property of the session that holds after an operation, whether it succeeds or fails. -/
abbrev always {α : Type} (P : Session → Prop) :
    PostCond α (.except EngineError (.arg Session .pure)) :=
  post⟨fun _ s => ⌜P s⌝, fun _ s => ⌜P s⌝⟩

/-- What a triple promises of an operation holds of the result the operation gives. -/
theorem run_of_triple
    {α : Type}
    {x : Op α}
    {P : Session → Prop}
    {Q : α → Session → Prop}
    {R : EngineError → Session → Prop}
    (spec : ⦃fun s => ⌜P s⌝⦄ x ⦃post⟨fun a s => ⌜Q a s⌝, fun e s => ⌜R e s⌝⟩⦄)
    {s : Session}
    (holds : P s) :
    match EStateM.run x s with
    | .ok a s' => Q a s'
    | .error e s' => R e s' := by
  apply EStateM.of_wp_run_eq rfl fun r => match r with
    | .ok a s' => Q a s'
    | .error e s' => R e s'
  exact fun _ => spec s holds

/-- An operation whose every result from a state meeting `P` is as promised meets the triple. -/
theorem triple_of_run
    {α : Type}
    {x : Op α}
    {P : Session → Prop}
    {Q : α → Session → Prop}
    {R : EngineError → Session → Prop}
    (each : ∀ s, P s → match EStateM.run x s with
      | .ok a s' => Q a s'
      | .error e s' => R e s') :
    ⦃fun s => ⌜P s⌝⦄ x ⦃post⟨fun a s => ⌜Q a s⌝, fun e s => ⌜R e s⌝⟩⦄ := by
  intro s pre
  have outcome := each s pre
  simp only [wp, PredTrans.apply]
  split
  all_goals
    rename_i ran
    rw [ran] at outcome
    exact outcome

/-- An operation meets every postcondition that its triple's postconditions entail, from a state
meeting the triple's precondition. -/
theorem wp_of_triple
    {α : Type}
    {x : Op α}
    {P : Session → Prop}
    {Q : α → Session → Prop}
    {R : EngineError → Session → Prop}
    (spec : ⦃fun s => ⌜P s⌝⦄ x ⦃post⟨fun a s => ⌜Q a s⌝, fun e s => ⌜R e s⌝⟩⦄)
    {post : PostCond α (.except EngineError (.arg Session .pure))}
    (onOk : ∀ a s, Q a s → (post.1 a s).down)
    (onError : ∀ e s, R e s → (post.2.1 e s).down)
    {s : Session}
    (holds : P s) :
    (wp⟦x⟧ post s).down := by
  have outcome := run_of_triple spec holds
  simp only [wp, PredTrans.apply]
  split
  all_goals
    rename_i ran
    rw [ran] at outcome
  · exact onOk _ _ outcome
  · exact onError _ _ outcome

/-- A property every outcome of an operation keeps holds of the session it leaves. -/
theorem leaves_of_keeps
    {α : Type}
    {x : Op α}
    {P : Session → Prop}
    (keeps : ⦃fun s => ⌜P s⌝⦄ x ⦃always P⦄)
    {s : Session}
    (holds : P s) :
    P (x.leaves s) := by
  have kept := run_of_triple keeps holds
  unfold leaves
  split <;> simp_all

/-- Discarding a result maps it away. -/
theorem discard_eq {α : Type} (x : Op α) : discard x = (fun _ => ()) <$> x := rfl

/-- Storing a link replaces the link of its number. -/
theorem putLink_eq (l : Link) : putLink l = modifyNetwork (·.replaceLink l) := rfl

@[spec] theorem network_spec
    {Q : PostCond Network (.except EngineError (.arg Session .pure))} :
    ⦃fun s => Q.1 s.network s⦄ network ⦃Q⦄ := by
  mvcgen [network]

@[spec] theorem modifyNetwork_spec
    (f : Network → Network)
    {Q : PostCond Unit (.except EngineError (.arg Session .pure))} :
    ⦃fun s => Q.1 () { s with network := f s.network }⦄ modifyNetwork f ⦃Q⦄ := by
  mvcgen [modifyNetwork]

@[spec] theorem putLink_spec
    (l : Link)
    {Q : PostCond Unit (.except EngineError (.arg Session .pure))} :
    ⦃fun s => Q.1 () { s with network := s.network.replaceLink l }⦄ putLink l ⦃Q⦄ := by
  mvcgen [putLink_eq]

end Op

end RegionNet

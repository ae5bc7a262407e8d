import Mathlib.Data.List.InsertIdx
import RegionNet.Collection.Indexed

namespace RegionNet

/-!
# The name index of a collection

A collection is specified by its entries alone: an association list in which every name occurs
once, where adding appends, removing deletes the entry and keeps the others in their order, and
the position of a name is the position of its entry (`Collection`). The engine keeps a hash index
beside the entries and answers every lookup by name through it (`IndexedCollection`).

The index stays coherent with the entries (`IndexedCollection.Coherent`): it maps exactly the
names present, each to the position of its entry. Adding and removing keep it so; removing
because it moves every later position down by one, as the entries move. Over any sequence of
calls from the empty collection, the engine therefore answers every call as the association list
does and holds the same entries (`IndexedCollection.run_refines`).
-/

/-- Two positions of one name in a list of distinct names are the same position. -/
theorem List.position_unique {α : Type} {names : List α} {a : α} {i j : Nat}
    (unique : names.Nodup) (first : names[i]? = some a) (second : names[j]? = some a) : i = j := by
  have below : i < names.length := (List.getElem?_eq_some_iff.mp first).1
  exact (List.getElem?_inj below unique).mp (first.trans second.symm)

namespace Collection

variable {α : Type}

/-! ## The association list -/

/-- The name of the entry at a position. -/
theorem names_getElem? (c : Collection α) (p : Nat) : c.names[p]? = c.entries[p]?.map (·.1) :=
  List.getElem?_map

/-- A name is held exactly when it is among the names. -/
theorem contains_iff (c : Collection α) (name : String) : c.contains name = true ↔ name ∈ c.names := by
  simp [contains, names]

/-- The first entry under a name is the one at the name's position, among distinct names. -/
theorem find?_eq_of_getElem? {c : Collection α} (unique : c.names.Nodup) {name : String} {p : Nat}
    {x : α} (stored : c.entries[p]? = some (name, x)) : c.find? name = some x := by
  have named : c.names[p]? = some name := by simp [names_getElem?, stored]
  obtain ⟨below, atP⟩ := List.getElem?_eq_some_iff.mp stored
  refine Option.map_eq_some_iff.mpr ⟨(name, x), List.find?_eq_some_iff_getElem.mpr
    ⟨by simp, p, below, atP, fun j before => ?_⟩, rfl⟩
  -- an earlier entry under the same name would give the name a second position
  have other : c.entries[j].1 ≠ name := fun same =>
    Nat.ne_of_lt before (List.position_unique unique
      (by simp [names_getElem?, List.getElem?_eq_getElem (Nat.lt_trans before below), same]) named)
  simpa using other

/-- No entry is found under a name that is not among the names. -/
theorem find?_eq_none_iff {c : Collection α} {name : String} :
    c.find? name = none ↔ name ∉ c.names := by
  simp only [find?, Option.map_eq_none_iff, List.find?_eq_none, beq_iff_eq, names, List.mem_map,
    not_exists, not_and]

/-- Among distinct names, a name's position is the position of its entry. -/
theorem position_eq_some_iff {c : Collection α} (unique : c.names.Nodup) {name : String}
    {p : Nat} : c.position name = some p ↔ c.names[p]? = some name := by
  rw [position, List.findIdx?_eq_some_iff_getElem]
  constructor
  · rintro ⟨below, named, -⟩
    simp only [beq_iff_eq] at named
    simp [names_getElem?, List.getElem?_eq_getElem below, named]
  · intro named
    obtain ⟨below, atP⟩ := List.getElem?_eq_some_iff.mp named
    have entryBelow : p < c.entries.length := by simpa [names] using below
    refine ⟨entryBelow, by simpa [names] using atP, fun j before => ?_⟩
    have other : c.entries[j].1 ≠ name := fun same =>
      Nat.ne_of_lt before (List.position_unique unique
        (by simp [names_getElem?, List.getElem?_eq_getElem (Nat.lt_trans before entryBelow), same])
        named)
    simpa using other

/-- Removing the entries under a name that stands at one position of distinct names deletes the
entry at that position and keeps the others in their order. -/
theorem filter_eq_eraseIdx {entries : List (String × α)} (unique : (entries.map (·.1)).Nodup)
    {name : String} {p : Nat} {x : α} (stored : entries[p]? = some (name, x)) :
    entries.filter (·.1 != name) = entries.eraseIdx p := by
  induction entries generalizing p with
  | nil =>
      simp at stored
  | cons e rest inductionHypothesis =>
      rw [List.map_cons, List.nodup_cons] at unique
      cases p with
      | zero =>
          -- the entry under the name is the first, and no later entry has its name
          simp only [List.getElem?_cons_zero, Option.some.injEq] at stored
          subst stored
          have absent : ∀ y ∈ rest, (y.1 != name) = true := fun y member => by
            have other : y.1 ≠ name := fun same => unique.1 (List.mem_map.mpr ⟨y, member, same⟩)
            simpa using other
          simp [List.filter_eq_self.mpr absent]
      | succ q =>
          simp only [List.getElem?_cons_succ] at stored
          have other : e.1 ≠ name := fun same =>
            unique.1 (same ▸ List.mem_map.mpr ⟨(name, x), List.mem_of_getElem? stored, rfl⟩)
          simp [other, inductionHypothesis unique.2 stored]

/-- Changing the items under a name that stands at one position of distinct names changes the
entry at that position only. -/
theorem map_eq_modify {entries : List (String × α)} (unique : (entries.map (·.1)).Nodup)
    {name : String} {p : Nat} {x : α} (stored : entries[p]? = some (name, x)) (f : α → α) :
    entries.map (fun e => if e.1 == name then (e.1, f e.2) else e) =
      entries.modify p (fun e => (e.1, f e.2)) := by
  induction entries generalizing p with
  | nil =>
      simp at stored
  | cons e rest inductionHypothesis =>
      rw [List.map_cons, List.nodup_cons] at unique
      cases p with
      | zero =>
          simp only [List.getElem?_cons_zero, Option.some.injEq] at stored
          subst stored
          have unchanged : ∀ y ∈ rest, (if y.1 == name then (y.1, f y.2) else y) = y :=
            fun y member => by
              have other : y.1 ≠ name := fun same => unique.1 (List.mem_map.mpr ⟨y, member, same⟩)
              simp [other]
          simp only [List.map_cons, List.modify_zero_cons, beq_self_eq_true, ↓reduceIte,
            List.cons.injEq, true_and]
          rw [List.map_congr_left unchanged, List.map_id']
      | succ q =>
          simp only [List.getElem?_cons_succ] at stored
          have other : e.1 ≠ name := fun same =>
            unique.1 (same ▸ List.mem_map.mpr ⟨(name, x), List.mem_of_getElem? stored, rfl⟩)
          have restModified := inductionHypothesis unique.2 stored
          simp only [beq_iff_eq] at restModified
          simp [other, List.modify_succ_cons, restModified]

/-- Changing an entry's item keeps the names. -/
theorem names_modify (entries : List (String × α)) (p : Nat) (f : α → α) :
    (⟨entries.modify p (fun e => (e.1, f e.2))⟩ : Collection α).names = (⟨entries⟩ : Collection α).names := by
  apply List.ext_getElem?
  intro j
  simp only [names, List.getElem?_map, List.getElem?_modify]
  cases entries[j]? with
  | none => rfl
  | some e => by_cases here : p = j <;> simp [here]

end Collection

namespace IndexedCollection

variable {α : Type}

/-! ## Coherence of the index -/

/-- The index agrees with the entries: the names are distinct, and the index maps exactly the
names present, each to the position of its entry. -/
structure Coherent (c : IndexedCollection α) : Prop where
  unique : c.toCollection.names.Nodup
  located : ∀ (name : String) (p : Nat), c.index[name]? = some p ↔ c.toCollection.names[p]? = some name

@[simp] theorem toCollection_entries (c : IndexedCollection α) : c.toCollection.entries = c.entries :=
  rfl

/-- The empty collection has a coherent index. -/
theorem empty_coherent : (empty : IndexedCollection α).Coherent :=
  ⟨List.nodup_nil, fun name p => by simp [empty, toCollection, Collection.names]⟩

section Coherent

variable {c : IndexedCollection α} (coherent : c.Coherent)
include coherent

/-- Through a coherent index, a name finds the entry at its position. -/
theorem lookup_eq_some_iff {name : String} {p : Nat} {x : α} :
    c.lookup name = some (p, x) ↔ c.entries[p]? = some (name, x) := by
  constructor
  · intro found
    simp only [lookup, Option.bind_eq_bind, Option.bind_eq_some_iff, Option.pure_def,
      Option.some.injEq, Prod.mk.injEq] at found
    obtain ⟨q, indexed, e, stored, rfl, rfl⟩ := found
    have named := (coherent.located name q).mp indexed
    rw [Collection.names_getElem?, toCollection_entries, stored, Option.map_some,
      Option.some.injEq] at named
    rw [stored, ← named]
  · intro stored
    have indexed : c.index[name]? = some p :=
      (coherent.located name p).mpr (by simp [Collection.names_getElem?, stored])
    simp [lookup, indexed, stored]

/-- Through a coherent index, a name finds nothing exactly when it is not among the names. -/
theorem lookup_eq_none_iff {name : String} :
    c.lookup name = none ↔ name ∉ c.toCollection.names := by
  constructor
  · intro missing present
    obtain ⟨p, named⟩ := List.mem_iff_getElem?.mp present
    obtain ⟨e, stored, rfl⟩ : ∃ e, c.entries[p]? = some e ∧ e.1 = name := by
      simpa [Collection.names_getElem?] using named
    have found := (lookup_eq_some_iff coherent).mpr stored
    rw [missing] at found
    cases found
  · intro absent
    cases found : c.lookup name with
    | none => rfl
    | some entry =>
        obtain ⟨p, x⟩ := entry
        have stored := (lookup_eq_some_iff coherent).mp found
        exact absurd (List.mem_iff_getElem?.mpr ⟨p, by simp [Collection.names_getElem?, stored]⟩)
          absent

/-- A coherent index holds exactly the names present. -/
theorem contains_eq (name : String) : c.contains name = c.toCollection.contains name := by
  rw [Bool.eq_iff_iff, Collection.contains_iff, contains, Std.HashMap.contains_eq_isSome_getElem?,
    Option.isSome_iff_exists]
  constructor
  · rintro ⟨p, indexed⟩
    exact List.mem_iff_getElem?.mpr ⟨p, (coherent.located name p).mp indexed⟩
  · intro present
    obtain ⟨p, named⟩ := List.mem_iff_getElem?.mp present
    exact ⟨p, (coherent.located name p).mpr named⟩

/-- A coherent index gives every name the position of its entry. -/
theorem position_eq (name : String) : c.position name = c.toCollection.position name := by
  cases indexed : c.index[name]? with
  | none =>
      -- neither side has a position for the name
      symm
      rw [position, indexed]
      cases listed : c.toCollection.position name with
      | none => rfl
      | some p =>
          have named := (Collection.position_eq_some_iff coherent.unique).mp listed
          rw [(coherent.located name p).mpr named] at indexed
          cases indexed
  | some p =>
      rw [position, indexed]
      exact ((Collection.position_eq_some_iff coherent.unique).mpr
        ((coherent.located name p).mp indexed)).symm

end Coherent

/-- Appending an entry under a new name and indexing it at the old length keeps the index
coherent. -/
theorem append_coherent {c : IndexedCollection α} (coherent : c.Coherent) {name : String}
    (absent : name ∉ c.toCollection.names) (item : α) :
    (⟨c.entries ++ [(name, item)], c.index.insert name c.entries.length⟩ :
      IndexedCollection α).Coherent := by
  have names : (⟨c.entries ++ [(name, item)], c.index.insert name c.entries.length⟩ :
      IndexedCollection α).toCollection.names = c.toCollection.names ++ [name] := by
    simp [toCollection, Collection.names]
  have length : c.toCollection.names.length = c.entries.length := by
    simp [toCollection, Collection.names]
  refine ⟨?_, fun k q => ?_⟩
  · rw [names, List.nodup_append]
    refine ⟨coherent.unique, by simp, fun a member b single => ?_⟩
    rw [List.mem_singleton.mp single]
    exact fun same => absent (same ▸ member)
  · rw [names, Std.HashMap.getElem?_insert]
    by_cases same : name = k
    · subst same
      -- the new name stands only at the old length
      simp only [beq_self_eq_true, ↓reduceIte, Option.some.injEq]
      constructor
      · rintro rfl
        rw [← length]
        exact List.getElem?_concat_length
      · intro named
        by_contra other
        rcases Nat.lt_or_gt_of_ne (Ne.symm other) with before | after
        · rw [List.getElem?_append_left (length ▸ before)] at named
          exact absent (List.mem_of_getElem? named)
        · rw [List.getElem?_eq_none (by simp; omega)] at named
          cases named
    · simp only [beq_iff_eq, same, ↓reduceIte]
      rw [coherent.located k q]
      -- an old name keeps its positions, all below the old length
      constructor
      · intro named
        rw [List.getElem?_append_left (List.getElem?_eq_some_iff.mp named).1, named]
      · intro named
        by_cases before : q < c.toCollection.names.length
        · rwa [List.getElem?_append_left before] at named
        · rw [List.getElem?_append_right (Nat.le_of_not_lt before)] at named
          have last : q - c.toCollection.names.length = 0 := by
            cases hq : q - c.toCollection.names.length with
            | zero => rfl
            | succ r => rw [hq] at named; simp at named
          rw [last] at named
          simp only [List.getElem?_cons_zero, Option.some.injEq] at named
          exact absurd named same

/-- Removing the entry at a name's position, erasing the name and moving every later position of
the index down by one keeps the index coherent. -/
theorem erase_coherent {c : IndexedCollection α} (coherent : c.Coherent) {name : String} {p : Nat}
    {x : α} (stored : c.entries[p]? = some (name, x)) :
    (⟨c.entries.eraseIdx p, (c.index.erase name).map fun _ slot => shiftDown p slot⟩ :
      IndexedCollection α).Coherent := by
  have names : (⟨c.entries.eraseIdx p, (c.index.erase name).map fun _ slot => shiftDown p slot⟩ :
      IndexedCollection α).toCollection.names = c.toCollection.names.eraseIdx p := by
    simp [toCollection, Collection.names, List.eraseIdx_map]
  have named : c.toCollection.names[p]? = some name := by
    simp [Collection.names_getElem?, stored]
  refine ⟨names ▸ coherent.unique.eraseIdx p, fun k q => ?_⟩
  rw [names, Std.HashMap.getElem?_map, Std.HashMap.getElem?_erase, List.getElem?_eraseIdx]
  by_cases same : name = k
  · subst same
    -- the name stood only at `p`, which is gone
    simp only [beq_self_eq_true, ↓reduceIte, Option.map_none, reduceCtorEq, false_iff]
    split <;> intro elsewhere <;> have := List.position_unique coherent.unique elsewhere named <;>
      omega
  · simp only [beq_iff_eq, same, ↓reduceIte, Option.map_eq_some_iff]
    constructor
    · rintro ⟨r, indexed, rfl⟩
      have at_r := (coherent.located k r).mp indexed
      have apart : r ≠ p := fun here => same (Option.some.inj (named.symm.trans (here ▸ at_r)))
      unfold shiftDown
      split
      · rename_i after
        rw [if_neg (by omega), Nat.sub_add_cancel (by omega)]
        exact at_r
      · rw [if_pos (by omega)]
        exact at_r
    · intro moved
      split at moved
      · rename_i before
        exact ⟨q, (coherent.located k q).mpr moved, by simp [shiftDown]; omega⟩
      · rename_i notBefore
        exact ⟨q + 1, (coherent.located k (q + 1)).mpr moved, by simp [shiftDown]; omega⟩

end IndexedCollection

namespace Collection

/-! ## Calls and answers -/

/-- A call a caller makes on a collection of items of type `α`. -/
inductive Call (α : Type) where
  | add (name : String) (item : α)
  | remove (name : String)
  | get (name : String)
  | modify (name : String) (f : α → α)
  | getByIndex (index : Nat)
  | contains (name : String)
  | position (name : String)
  | count
  | isEmpty

/-- What a call answers. -/
inductive Answer (α : Type) where
  | done (result : Except DataError Unit)
  | item (result : Except DataError α)
  | entry (result : Except DataError (String × α))
  | flag (value : Bool)
  | place (value : Option Nat)
  | number (value : Nat)

/-- The operations of a collection kept in a state `σ`, holding items of type `α`. -/
structure Interface (σ α : Type) where
  add : σ → String → α → Except DataError σ
  remove : σ → String → Except DataError (α × σ)
  get : σ → String → Except DataError α
  modify : σ → String → (α → α) → Except DataError σ
  getByIndex : σ → Nat → Except DataError (String × α)
  contains : σ → String → Bool
  position : σ → String → Option Nat
  count : σ → Nat
  isEmpty : σ → Bool

namespace Interface

variable {σ α : Type}

/-- Make a call: the state it leaves, the same one when it fails, and its answer. -/
def perform (ops : Interface σ α) (s : σ) : Call α → σ × Answer α
  | .add name item =>
      match ops.add s name item with
      | .ok s' => (s', .done (.ok ()))
      | .error e => (s, .done (.error e))
  | .remove name =>
      match ops.remove s name with
      | .ok (x, s') => (s', .item (.ok x))
      | .error e => (s, .item (.error e))
  | .get name => (s, .item (ops.get s name))
  | .modify name f =>
      match ops.modify s name f with
      | .ok s' => (s', .done (.ok ()))
      | .error e => (s, .done (.error e))
  | .getByIndex index => (s, .entry (ops.getByIndex s index))
  | .contains name => (s, .flag (ops.contains s name))
  | .position name => (s, .place (ops.position s name))
  | .count => (s, .number (ops.count s))
  | .isEmpty => (s, .flag (ops.isEmpty s))

/-- Make calls in turn: the state the last leaves, and every answer in order. -/
def run (ops : Interface σ α) (s : σ) : List (Call α) → σ × List (Answer α)
  | [] => (s, [])
  | call :: rest =>
      let (s', answer) := ops.perform s call
      let (last, answers) := ops.run s' rest
      (last, answer :: answers)

/-- Two implementations related by a relation that every call keeps, answering alike, answer
every sequence of calls alike and end related. -/
theorem run_simulates {τ : Type} (ops : Interface σ α) (spec : Interface τ α) (related : σ → τ → Prop)
    (step : ∀ s t call, related s t →
      related (ops.perform s call).1 (spec.perform t call).1 ∧
        (ops.perform s call).2 = (spec.perform t call).2)
    {s : σ} {t : τ} (start : related s t) (calls : List (Call α)) :
    related (ops.run s calls).1 (spec.run t calls).1 ∧ (ops.run s calls).2 = (spec.run t calls).2 := by
  induction calls generalizing s t with
  | nil =>
      exact ⟨start, rfl⟩
  | cons call rest inductionHypothesis =>
      obtain ⟨stepRelated, sameAnswer⟩ := step s t call start
      obtain ⟨restRelated, sameAnswers⟩ := inductionHypothesis stepRelated
      simp only [run]
      exact ⟨restRelated, by rw [sameAnswer, sameAnswers]⟩

end Interface

/-- The association list's operations. -/
def interface (α : Type) : Interface (Collection α) α :=
  ⟨add, remove, get, modify, getByIndex, contains, position, count, isEmpty⟩

end Collection

namespace IndexedCollection

variable {α : Type}

/-- The engine's operations, through the index. -/
def interface (α : Type) : Collection.Interface (IndexedCollection α) α :=
  ⟨add, remove, get, modify, getByIndex, contains, position, count, isEmpty⟩

/-- The engine's collection stands for the association list with the same entries, when its index
is coherent. -/
structure Represents (c : IndexedCollection α) (spec : Collection α) : Prop where
  coherent : c.Coherent
  entries : c.entries = spec.entries

/-- A coherent collection stands for its own entries. -/
theorem represents_toCollection {c : IndexedCollection α} (coherent : c.Coherent) :
    c.Represents c.toCollection :=
  ⟨coherent, rfl⟩

/-- Every call keeps the engine's collection standing for the association list, and answers as the
list does. -/
theorem perform_represents {c : IndexedCollection α} {spec : Collection α}
    (represents : c.Represents spec) (call : Collection.Call α) :
    ((interface α).perform c call).1.Represents ((Collection.interface α).perform spec call).1 ∧
      ((interface α).perform c call).2 = ((Collection.interface α).perform spec call).2 := by
  obtain ⟨coherent, sameEntries⟩ := represents
  have spec_eq : spec = c.toCollection := by
    cases spec
    simp only [toCollection, sameEntries]
  subst spec_eq
  cases call with
  | add name item =>
      by_cases present : name ∈ c.toCollection.names
      · have held : c.contains name = true := by
          rw [contains_eq coherent, Collection.contains_iff]
          exact present
        have listHeld : c.toCollection.contains name = true := (Collection.contains_iff _ _).mpr present
        simp only [contains] at held
        simp [Collection.Interface.perform, interface, Collection.interface, add, Collection.add,
          held, listHeld, represents_toCollection coherent]
      · have free : c.contains name = false := by
          rw [contains_eq coherent, Bool.eq_false_iff, ne_eq, Collection.contains_iff]
          exact present
        have listFree : c.toCollection.contains name = false := by
          rw [Bool.eq_false_iff, ne_eq, Collection.contains_iff]
          exact present
        simp only [contains] at free
        simp only [Collection.Interface.perform, interface, Collection.interface, add,
          Collection.add, free, listFree, Bool.false_eq_true, ↓reduceIte]
        exact ⟨⟨append_coherent coherent present item, rfl⟩, trivial⟩
  | remove name =>
      cases found : c.lookup name with
      | none =>
          have absent := (lookup_eq_none_iff coherent).mp found
          have listMissing := Collection.find?_eq_none_iff.mpr absent
          simp [Collection.Interface.perform, interface, Collection.interface, remove,
            Collection.remove, found, listMissing, represents_toCollection coherent]
      | some entry =>
          obtain ⟨p, x⟩ := entry
          have stored := (lookup_eq_some_iff coherent).mp found
          have listFound := Collection.find?_eq_of_getElem? coherent.unique stored
          simp only [Collection.Interface.perform, interface, Collection.interface, remove,
            Collection.remove, found, listFound]
          refine ⟨⟨erase_coherent coherent stored, ?_⟩, trivial⟩
          exact (Collection.filter_eq_eraseIdx coherent.unique stored).symm
  | get name =>
      cases found : c.lookup name with
      | none =>
          have listMissing := Collection.find?_eq_none_iff.mpr ((lookup_eq_none_iff coherent).mp found)
          simp [Collection.Interface.perform, interface, Collection.interface, get, Collection.get,
            found, listMissing, represents_toCollection coherent]
      | some entry =>
          obtain ⟨p, x⟩ := entry
          have listFound :=
            Collection.find?_eq_of_getElem? coherent.unique ((lookup_eq_some_iff coherent).mp found)
          simp [Collection.Interface.perform, interface, Collection.interface, get, Collection.get,
            found, listFound, represents_toCollection coherent]
  | modify name f =>
      cases found : c.lookup name with
      | none =>
          have absent := (lookup_eq_none_iff coherent).mp found
          have listFree : c.toCollection.contains name = false := by
            rw [Bool.eq_false_iff, ne_eq, Collection.contains_iff]
            exact absent
          simp [Collection.Interface.perform, interface, Collection.interface, modify,
            Collection.modify, found, listFree, represents_toCollection coherent]
      | some entry =>
          obtain ⟨p, x⟩ := entry
          have stored := (lookup_eq_some_iff coherent).mp found
          have listHeld : c.toCollection.contains name = true :=
            (Collection.contains_iff _ _).mpr
              (List.mem_iff_getElem?.mpr ⟨p, by simp [Collection.names_getElem?, stored]⟩)
          simp only [Collection.Interface.perform, interface, Collection.interface, modify,
            Collection.modify, found, listHeld, ↓reduceIte]
          -- the names stay as they were, and with them the index
          have sameNames : (⟨c.entries.modify p (fun e => (e.1, f e.2)), c.index⟩ :
              IndexedCollection α).toCollection.names = c.toCollection.names :=
            Collection.names_modify c.entries p f
          refine ⟨⟨⟨sameNames ▸ coherent.unique, fun k q => ?_⟩, ?_⟩, trivial⟩
          · rw [sameNames]
            exact coherent.located k q
          · exact (Collection.map_eq_modify coherent.unique stored f).symm
  | getByIndex index =>
      exact ⟨⟨coherent, rfl⟩, rfl⟩
  | contains name =>
      exact ⟨⟨coherent, rfl⟩, by simp [Collection.Interface.perform, interface,
        Collection.interface, contains_eq coherent]⟩
  | position name =>
      exact ⟨⟨coherent, rfl⟩, by simp [Collection.Interface.perform, interface,
        Collection.interface, position_eq coherent]⟩
  | count =>
      exact ⟨⟨coherent, rfl⟩, rfl⟩
  | isEmpty =>
      exact ⟨⟨coherent, rfl⟩, rfl⟩

/--
The engine's collection refines the association list. Over any sequence of calls from the empty
collection, it answers every call as the association list does, holds the same entries, and
keeps its index coherent: the names are distinct, and the index maps exactly the names present,
each to the position of its entry.
-/
theorem run_refines (calls : List (Collection.Call α)) :
    ((interface α).run empty calls).2 = ((Collection.interface α).run Collection.empty calls).2 ∧
      ((interface α).run empty calls).1.entries =
        ((Collection.interface α).run Collection.empty calls).1.entries ∧
      ((Collection.interface α).run Collection.empty calls).1.names.Nodup ∧
      ∀ (name : String) (p : Nat), ((interface α).run empty calls).1.index[name]? = some p ↔
        ((Collection.interface α).run Collection.empty calls).1.names[p]? = some name := by
  obtain ⟨⟨coherent, sameEntries⟩, sameAnswers⟩ :=
    Collection.Interface.run_simulates (interface α) (Collection.interface α) Represents
      (fun _ _ call represents => perform_represents represents call)
      (⟨empty_coherent, rfl⟩ : (empty : IndexedCollection α).Represents Collection.empty) calls
  have sameNames : ((interface α).run empty calls).1.toCollection.names =
      ((Collection.interface α).run Collection.empty calls).1.names := by
    simp [toCollection, Collection.names, sameEntries]
  exact ⟨sameAnswers, sameEntries, sameNames ▸ coherent.unique,
    fun name p => sameNames ▸ coherent.located name p⟩

end IndexedCollection

end RegionNet

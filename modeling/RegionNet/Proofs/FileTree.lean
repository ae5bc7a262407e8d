import Mathlib.Data.List.TakeWhile
import RegionNet.Files.Tree

namespace RegionNet.Files

/-!
# What a change to the file tree leaves alone

Files live in a tree of named entries, and every change to it goes down one line of directories
and changes the entry at its end (`alter`), or makes the missing directories of a line
(`createDirAll`). This module says what `write`, `createDirAll`, `rename` and `removeDirAll` do at
their own paths, and that each leaves alone every path `Beside` its line: neither on it nor below
its end. `ChangedAlong P` packs that second fact, and chains: a run of changes along the same line
is one change along it.

The last part is about paths as text: a plain name joined onto a directory path resolves one level
below where the directory path resolves, which is how a save names the files of a bundle and
the siblings of its directory.
-/

/-- Whether a path lies beside another: it is neither the other, nor a directory above it, nor
anything inside it. -/
def Beside (R P : List String) : Prop := ¬R <+: P ∧ ¬P <+: R

/-- A path beside a directory lies beside everything inside it. -/
theorem Beside.extend {R P Q : List String} (beside : Beside R P) (inside : P <+: Q) :
    Beside R Q := by
  constructor
  · intro above
    rcases List.prefix_or_prefix_of_prefix above inside with higher | lower
    · exact beside.1 higher
    · exact beside.2 lower
  · intro under
    exact beside.2 (inside.trans under)

/-- Two entries of one directory under different names lie beside each other. -/
theorem Beside.sibling {dir : List String} {x y : String} (differ : x ≠ y) :
    Beside (dir ++ [x]) (dir ++ [y]) := by
  constructor
  · intro above
    exact differ (by simpa using above.eq_of_length (by simp))
  · intro under
    exact differ (by simpa using (under.eq_of_length (by simp)).symm)

namespace Node

/-- Looking past an entry of another name. -/
theorem lookup_cons_of_ne {k other : String} {v : Node} {rest : List (String × Node)}
    (differ : other ≠ k) :
    ((k, v) :: rest).lookup other = rest.lookup other := by
  have unequal : (other == k) = false := by simpa using differ
  simp [List.lookup_cons, unequal]

/-- Replacing every entry of a name replaces what is found under it, and nothing else. -/
theorem lookup_map_replace (cs : List (String × Node)) (name other : String) (n : Node) :
    (cs.map fun (k, v) => if k == name then (k, n) else (k, v)).lookup other =
      if other = name then (cs.lookup other).map fun _ => n else cs.lookup other := by
  induction cs with
  | nil => simp
  | cons entry rest ih =>
    obtain ⟨k, v⟩ := entry
    by_cases named : k = name <;> by_cases asked : other = k
    · subst named asked
      simp
    · subst named
      simp_all [lookup_cons_of_ne asked]
    · subst asked
      simp [named]
    · simp_all [lookup_cons_of_ne asked, lookup_cons_of_ne (Ne.symm named)]

/-- Removing the entries of a name removes what is found under it, and nothing else. -/
theorem lookup_filter_ne (cs : List (String × Node)) (name other : String) :
    (cs.filter (·.1 != name)).lookup other = if other = name then none else cs.lookup other := by
  induction cs with
  | nil => simp
  | cons entry rest ih =>
    obtain ⟨k, v⟩ := entry
    by_cases named : k = name <;> by_cases asked : other = k
    · subst named asked
      simp [ih]
    · subst named
      simp [ih, lookup_cons_of_ne asked, asked]
    · subst asked
      simp [named]
    · simp [named, ih, lookup_cons_of_ne asked]

/-- What setting an entry leaves under each name. -/
theorem lookup_setEntry (cs : List (String × Node)) (name other : String) (r : Option Node) :
    (setEntry cs name r).lookup other = if other = name then r else cs.lookup other := by
  cases r with
  | none => exact lookup_filter_ne cs name other
  | some n =>
    -- without an entry of the name, nothing is found under it
    have missing (absent : ∀ p ∈ cs, p.1 ≠ name) : cs.lookup name = none :=
      List.lookup_eq_none_iff.mpr fun p member => by simpa using Ne.symm (absent p member)
    simp only [setEntry]
    split
    next present =>
      rw [lookup_map_replace]
      by_cases asked : other = name
      · subst asked
        obtain ⟨p, member, named⟩ := List.any_eq_true.mp present
        cases found : cs.lookup other with
        | none =>
          rw [List.lookup_eq_none_iff] at found
          have unnamed : ¬other = p.1 := by simpa using found p member
          have same : p.1 = other := by simpa using named
          exact absurd same.symm unnamed
        | some v => simp
      · simp [asked]
    next absent =>
      have none : cs.lookup name = none :=
        missing fun p member named => absent (List.any_eq_true.mpr ⟨p, member, by simp [named]⟩)
      by_cases asked : other = name
      · subst asked
        simp [List.lookup_append, none]
      · simp [List.lookup_append, asked, lookup_cons_of_ne asked]

/-- Setting an entry twice is setting it to the second value. -/
theorem setEntry_setEntry (cs : List (String × Node)) (name : String) (first second : Node) :
    setEntry (setEntry cs name (some first)) name (some second) = setEntry cs name (some second) := by
  simp only [setEntry]
  split
  next present =>
    have still : (cs.map fun (k, v) => if k == name then (k, first) else (k, v)).any (·.1 == name) := by
      obtain ⟨⟨k, v⟩, member, named⟩ := List.any_eq_true.mp present
      refine List.any_eq_true.mpr ⟨(k, first), List.mem_map.mpr ⟨(k, v), member, ?_⟩, named⟩
      simp_all
    simp only [still, if_true, List.map_map]
    congr 1
    funext entry
    by_cases named : entry.1 = name <;> simp [named]
  next absent =>
    have unnamed : ∀ p ∈ cs, p.1 ≠ name := fun p member named =>
      absent (List.any_eq_true.mpr ⟨p, member, by simp [named]⟩)
    have kept : ∀ p ∈ cs, (if p.1 = name then (p.1, second) else (p.1, p.2)) = id p :=
      fun p member => if_neg (unnamed p member)
    simp [absent, List.map_congr_left kept]

/-- The node found by following a path and then another. -/
theorem get_append (n : Node) (P Q : List String) :
    n.get (P ++ Q) = (n.get P).bind (·.get Q) := by
  induction P generalizing n with
  | nil => rfl
  | cons c rest ih =>
    cases n with
    | file bytes => rfl
    | dir cs =>
      simp only [List.cons_append, get]
      cases cs.lookup c with
      | none => rfl
      | some child => exact ih child

/-- An entry of a directory found at a path is found one step further. -/
theorem get_concat {n : Node} {P : List String} {cs : List (String × Node)}
    (atDir : n.get P = .ok (.dir cs)) (x : String) :
    n.get (P ++ [x]) = (Node.dir cs).get [x] := by
  rw [get_append, atDir]
  rfl

/-- What one level of an update does: the entry of a directory is replaced. -/
theorem update_nil_eq_ok {n n' : Node} {name : String}
    {f : Option Node → Except IoError (Option Node)}
    (changed : n.update [] name f = .ok n') :
    ∃ cs r, n = .dir cs ∧ f (cs.lookup name) = .ok r ∧ n' = .dir (setEntry cs name r) := by
  cases n with
  | file bytes => simp [update] at changed
  | dir cs =>
    simp only [update, bind, Except.bind] at changed
    cases result : f (cs.lookup name) with
    | error e => simp [result] at changed
    | ok r =>
      simp only [result, pure, Except.pure, Except.ok.injEq] at changed
      exact ⟨cs, r, rfl, result, changed.symm⟩

/-- What an update below one level does: the child on the way is updated in place. -/
theorem update_cons_eq_ok {n n' : Node} {c name : String} {rest : List String}
    {f : Option Node → Except IoError (Option Node)}
    (changed : n.update (c :: rest) name f = .ok n') :
    ∃ cs child child', n = .dir cs ∧ cs.lookup c = some child ∧
      child.update rest name f = .ok child' ∧ n' = .dir (setEntry cs c (some child')) := by
  cases n with
  | file bytes => simp [update] at changed
  | dir cs =>
    simp only [update] at changed
    cases found : cs.lookup c with
    | none => simp [found] at changed
    | some child =>
      simp only [found, bind, Except.bind] at changed
      cases result : child.update rest name f with
      | error e => simp [result] at changed
      | ok child' =>
        simp only [result, pure, Except.pure, Except.ok.injEq] at changed
        exact ⟨cs, child, child', rfl, found, result, changed.symm⟩

/-- An update changes nothing beside the entry it updates. -/
theorem get_update_beside {n n' : Node} {parent : List String} {name : String}
    {f : Option Node → Except IoError (Option Node)}
    (changed : n.update parent name f = .ok n') {R : List String}
    (beside : Beside R (parent ++ [name])) :
    n'.get R = n.get R := by
  induction parent generalizing n n' R with
  | nil =>
    obtain ⟨cs, r, rfl, -, rfl⟩ := update_nil_eq_ok changed
    match R, beside with
    | [], beside => exact absurd List.nil_prefix beside.1
    | c :: rest, beside =>
      -- `R` leaves the directory through another entry than the one set
      have other : c ≠ name := by
        rintro rfl
        exact beside.2 (by simp)
      simp [get, lookup_setEntry, other]
  | cons p ps ih =>
    obtain ⟨cs, child, child', rfl, found, changedChild, rfl⟩ := update_cons_eq_ok changed
    match R, beside with
    | [], beside => exact absurd List.nil_prefix beside.1
    | c :: rest, beside =>
      by_cases through : c = p
      · -- `R` goes through the updated child, and lies beside the entry inside it
        subst through
        have inner : Beside rest (ps ++ [name]) :=
          ⟨fun above => beside.1 (by simpa using above), fun under => beside.2 (by simpa using under)⟩
        simp [get, lookup_setEntry, found, ih changedChild inner]
      · simp [get, lookup_setEntry, through]

/-- After an update the directory it changed holds the entry the change gave. -/
theorem update_eq_ok {n n' : Node} {parent : List String} {name : String}
    {f : Option Node → Except IoError (Option Node)}
    (changed : n.update parent name f = .ok n') :
    ∃ cs r, n.get parent = .ok (.dir cs) ∧ f (cs.lookup name) = .ok r ∧
      n'.get parent = .ok (.dir (setEntry cs name r)) := by
  induction parent generalizing n n' with
  | nil =>
    obtain ⟨cs, r, rfl, result, rfl⟩ := update_nil_eq_ok changed
    exact ⟨cs, r, rfl, result, rfl⟩
  | cons p ps ih =>
    obtain ⟨cs, child, child', rfl, found, changedChild, rfl⟩ := update_cons_eq_ok changed
    obtain ⟨inner, r, atParent, result, atParent'⟩ := ih changedChild
    exact ⟨inner, r, by simp [get, found, atParent], result, by simp [get, lookup_setEntry, atParent']⟩

/-- An update goes through when its directory exists and the change succeeds. -/
theorem update_of_get {n : Node} {parent : List String} {name : String} {cs : List (String × Node)}
    {f : Option Node → Except IoError (Option Node)} {r : Option Node}
    (atParent : n.get parent = .ok (.dir cs)) (result : f (cs.lookup name) = .ok r) :
    ∃ n', n.update parent name f = .ok n' := by
  induction parent generalizing n with
  | nil =>
    cases atParent
    exact ⟨.dir (setEntry cs name r), by simp [update, result, bind, Except.bind, pure, Except.pure]⟩
  | cons p ps ih =>
    cases n with
    | file bytes => simp [get] at atParent
    | dir entries =>
      simp only [get] at atParent
      cases found : entries.lookup p with
      | none => simp [found] at atParent
      | some child =>
        simp only [found] at atParent
        obtain ⟨child', changedChild⟩ := ih atParent
        exact ⟨.dir (setEntry entries p (some child')),
          by simp [update, found, changedChild, bind, Except.bind, pure, Except.pure]⟩

/-- Following a path into a directory whose entry was set. -/
theorem get_dir_setEntry (cs : List (String × Node)) (c x : String) (r : Option Node)
    (rest : List String) :
    (Node.dir (setEntry cs c r)).get (x :: rest) =
      if x = c then (match r with
        | some n => n.get rest
        | none => .error .notFound)
      else (Node.dir cs).get (x :: rest) := by
  by_cases through : x = c
  · subst through
    cases r <;> simp [get, lookup_setEntry]
  · simp only [get, lookup_setEntry, through, if_false]

/-- What one level of making directories does: the entry on the way is kept, or made an empty
directory when missing, and the rest of the path is made inside it. -/
theorem makeDirs_cons_eq_ok {cs cs' : List (String × Node)} {c : String} {rest : List String}
    (made : makeDirs cs (c :: rest) = .ok cs') :
    ∃ sub sub', (cs.lookup c = some (.dir sub) ∨ cs.lookup c = none ∧ sub = []) ∧
      makeDirs sub rest = .ok sub' ∧ cs' = setEntry cs c (some (.dir sub')) := by
  simp only [makeDirs] at made
  split at made
  next bytes found => simp at made
  next sub found =>
    cases inner : makeDirs sub rest with
    | error e => simp [inner, bind, Except.bind] at made
    | ok sub' =>
      simp only [inner, bind, Except.bind, pure, Except.pure, Except.ok.injEq] at made
      exact ⟨sub, sub', .inl found, inner, made.symm⟩
  next found =>
    cases inner : makeDirs [] rest with
    | error e => simp [inner, bind, Except.bind] at made
    | ok sub' =>
      simp only [inner, bind, Except.bind, pure, Except.pure, Except.ok.injEq] at made
      exact ⟨[], sub', .inr ⟨found, rfl⟩, inner, made.symm⟩

/-- Making the directories along a path changes nothing off the path. -/
theorem get_makeDirs_of_not_prefix {cs cs' : List (String × Node)} {P : List String}
    (made : makeDirs cs P = .ok cs') {R : List String} (off : ¬R <+: P) :
    (Node.dir cs').get R = (Node.dir cs).get R := by
  induction P generalizing cs cs' R with
  | nil =>
    simp only [makeDirs, Except.ok.injEq] at made
    rw [made]
  | cons c rest ih =>
    obtain ⟨sub, sub', kept, madeInside, rfl⟩ := makeDirs_cons_eq_ok made
    match R, off with
    | [], off => exact absurd List.nil_prefix off
    | x :: R', off =>
      by_cases through : x = c
      · -- `R` goes through the directory on the path, and leaves the path inside it
        subst through
        have inner : ¬R' <+: rest := fun above => off (by simpa using above)
        have below := ih madeInside inner
        rw [get_dir_setEntry, if_pos rfl]
        dsimp only
        rw [below]
        rcases kept with found | ⟨found, rfl⟩
        · simp only [get, found]
        · -- the directory was missing, so `R` found nothing before and finds nothing now
          cases R' with
          | nil => exact absurd (by simp) off
          | cons y R'' => simp [get, found]
      · rw [get_dir_setEntry, if_neg through]

/-- A directory missing at the end of the path is there, empty, once the path is made. -/
theorem get_makeDirs_of_missing {cs cs' : List (String × Node)} {P : List String}
    (made : makeDirs cs P = .ok cs') {e : IoError} (missing : (Node.dir cs).get P = .error e) :
    (Node.dir cs').get P = .ok (.dir []) := by
  induction P generalizing cs cs' e with
  | nil => simp [get] at missing
  | cons c rest ih =>
    obtain ⟨sub, sub', kept, madeInside, rfl⟩ := makeDirs_cons_eq_ok made
    rcases kept with found | ⟨found, rfl⟩
    · simp only [get, found] at missing
      rw [get_dir_setEntry, if_pos rfl]
      exact ih madeInside missing
    · -- everything from here on is made afresh
      cases rest with
      | nil =>
        simp only [makeDirs, Except.ok.injEq] at madeInside
        simp [get, lookup_setEntry, ← madeInside]
      | cons y more =>
        have nothing : (Node.dir []).get (y :: more) = .error .notFound := by simp [get]
        rw [get_dir_setEntry, if_pos rfl]
        exact ih madeInside nothing

end Node

namespace FileSystem

/-- A path that is not empty names the node at its absolute components. -/
theorem node_eq_get {fs : FileSystem} {path : String} (named : path ≠ "") :
    fs.node path = fs.root.get (fs.absolute path) := by
  simp [node, String.isEmpty_iff, named]

/-- Changing the entry a path names is updating the directory above it. -/
theorem alter_eq {fs : FileSystem} {path : String} {parent : List String} {name : String}
    (located : fs.absolute path = parent ++ [name])
    (f : Option Node → Except IoError (Option Node)) :
    fs.alter path f = (fs.root.update parent name f).map fun root => { fs with root } := by
  simp only [alter, located, List.getLast?_concat, List.dropLast_concat]
  cases fs.root.update parent name f <;> rfl

/-- A file system changed at most along a path: the working directory is kept, and every path
beside it names what it named before. -/
structure ChangedAlong (P : List String) (before after : FileSystem) : Prop where
  cwd : after.cwd = before.cwd
  beside : ∀ R, Beside R P → after.root.get R = before.root.get R

namespace ChangedAlong

/-- No change is a change along any line. -/
theorem refl (P : List String) (fs : FileSystem) : ChangedAlong P fs fs :=
  ⟨rfl, fun _ _ => rfl⟩

/-- Two changes along a line are one change along it. -/
theorem trans {P : List String} {a b c : FileSystem} (first : ChangedAlong P a b)
    (second : ChangedAlong P b c) : ChangedAlong P a c :=
  ⟨second.cwd.trans first.cwd, fun R beside => (second.beside R beside).trans (first.beside R beside)⟩

/-- Changes along a path inside a directory are changes along the directory. -/
theorem widen {P Q : List String} {a b : FileSystem} (inside : P <+: Q)
    (changed : ChangedAlong Q a b) : ChangedAlong P a b :=
  ⟨changed.cwd, fun R beside => changed.beside R (beside.extend inside)⟩

/-- A change below a directory is a change along the directory. -/
theorem of_append {P Q : List String} {a b : FileSystem} (changed : ChangedAlong (P ++ Q) a b) :
    ChangedAlong P a b :=
  changed.widen (List.prefix_append P Q)

/-- The working directory a change keeps resolves every path as before. -/
theorem absolute {P : List String} {a b : FileSystem}
    (changed : ChangedAlong P a b) (path : String) : b.absolute path = a.absolute path := by
  simp [FileSystem.absolute, changed.cwd]

end ChangedAlong

/-- Changing an entry changes the file system only along its path. -/
theorem alter_changedAlong {fs fs' : FileSystem} {path : String}
    {f : Option Node → Except IoError (Option Node)} (changed : fs.alter path f = .ok fs') :
    ChangedAlong (fs.absolute path) fs fs' := by
  cases located : (fs.absolute path).getLast? with
  | none => simp [alter, located, throw, throwThe, MonadExceptOf.throw] at changed
  | some name =>
    obtain ⟨parent, split⟩ := List.getLast?_eq_some_iff.mp located
    rw [alter_eq split f] at changed
    cases updated : fs.root.update parent name f with
    | error e => simp [updated, Except.map] at changed
    | ok root =>
      simp only [updated, Except.map, Except.ok.injEq] at changed
      subst changed
      rw [split]
      exact ⟨rfl, fun R beside => Node.get_update_beside updated beside⟩

/-- Making a directory with its parents makes the directories along its path in the root; a root
that is a file is left alone only when it is the path itself. -/
theorem createDirAll_eq_ok {fs fs' : FileSystem} {path : String}
    (made : fs.createDirAll path = .ok fs') :
    (∃ cs cs', fs.root = .dir cs ∧ Node.makeDirs cs (fs.absolute path) = .ok cs' ∧
      fs' = { fs with root := .dir cs' }) ∨ (fs.absolute path = [] ∧ fs' = fs) := by
  unfold createDirAll at made
  split at made
  next cs root =>
    cases inner : Node.makeDirs cs (fs.absolute path) with
    | error e => simp [inner, bind, Except.bind] at made
    | ok cs' =>
      simp only [inner, bind, Except.bind, pure, Except.pure, Except.ok.injEq] at made
      exact .inl ⟨cs, cs', root, inner, made.symm⟩
  next bytes root =>
    split at made
    next top => exact .inr ⟨by simpa using top, by simpa [pure, Except.pure] using made.symm⟩
    next => simp [throw, throwThe, MonadExceptOf.throw] at made

/-- Making a directory with its parents changes the file system only along its path. -/
theorem createDirAll_changedAlong {fs fs' : FileSystem} {path : String}
    (made : fs.createDirAll path = .ok fs') :
    ChangedAlong (fs.absolute path) fs fs' := by
  rcases createDirAll_eq_ok made with ⟨cs, cs', root, madeDirs, rfl⟩ | ⟨-, rfl⟩
  · exact ⟨rfl, fun R beside => by simpa [root] using Node.get_makeDirs_of_not_prefix madeDirs beside.1⟩
  · exact ChangedAlong.refl _ _

/-- A directory missing where a path leads is there, empty, once made with its parents. -/
theorem createDirAll_of_missing {fs fs' : FileSystem} {path : String} {e : IoError}
    (made : fs.createDirAll path = .ok fs') (missing : fs.root.get (fs.absolute path) = .error e) :
    fs'.root.get (fs.absolute path) = .ok (.dir []) := by
  rcases createDirAll_eq_ok made with ⟨cs, cs', root, madeDirs, rfl⟩ | ⟨top, -⟩
  · rw [root] at missing
    exact Node.get_makeDirs_of_missing madeDirs missing
  · simp [top, Node.get] at missing

/-- Moving a node: it is found at the source, taken out there, and put at the destination. -/
theorem rename_eq_ok {fs fs' : FileSystem} {src dst : String}
    (moved : fs.rename src dst = .ok fs') :
    ∃ n mid, fs.node src = .ok n ∧ fs.alter src (fun _ => pure none) = .ok mid ∧
      mid.alter dst (fun _ => pure (some n)) = .ok fs' := by
  unfold rename at moved
  cases found : fs.node src with
  | error e => simp [found, bind, Except.bind] at moved
  | ok n =>
    simp only [found, bind, Except.bind] at moved
    cases taken : fs.alter src (fun _ => pure none) with
    | error e =>
      split at moved <;> simp_all [throw, throwThe, MonadExceptOf.throw, pure, Except.pure]
    | ok mid =>
      refine ⟨n, mid, rfl, rfl, ?_⟩
      split at moved <;> simp_all [throw, throwThe, MonadExceptOf.throw, pure, Except.pure]

/-- The entry a change at a path gives, seen from the directory above it. -/
theorem alter_parent {fs fs' : FileSystem} {path : String} {parent : List String} {name : String}
    {f : Option Node → Except IoError (Option Node)}
    (located : fs.absolute path = parent ++ [name]) (changed : fs.alter path f = .ok fs') :
    ∃ cs r, fs.root.get parent = .ok (.dir cs) ∧ f (cs.lookup name) = .ok r ∧
      fs'.root.get parent = .ok (.dir (Node.setEntry cs name r)) := by
  rw [alter_eq located f] at changed
  cases updated : fs.root.update parent name f with
  | error e => simp [updated, Except.map] at changed
  | ok root =>
    simp only [updated, Except.map, Except.ok.injEq] at changed
    subst changed
    exact Node.update_eq_ok updated

/-- A change at a path goes through when the directory above it exists and the change succeeds. -/
theorem alter_of_parent {fs : FileSystem} {path : String} {parent : List String} {name : String}
    {cs : List (String × Node)} {f : Option Node → Except IoError (Option Node)} {r : Option Node}
    (located : fs.absolute path = parent ++ [name]) (atParent : fs.root.get parent = .ok (.dir cs))
    (result : f (cs.lookup name) = .ok r) :
    ∃ fs', fs.alter path f = .ok fs' := by
  obtain ⟨root, updated⟩ := Node.update_of_get atParent result
  exact ⟨_, by rw [alter_eq located f, updated]; rfl⟩

/-- Moving an entry to another name of the same directory: the node is found under the new name
and nothing under the old, and every path beside both is as it was. -/
theorem rename_within {fs fs' : FileSystem} {src dst : String} {dir : List String} {a b : String}
    (fromSrc : fs.absolute src = dir ++ [a]) (toDst : fs.absolute dst = dir ++ [b]) (differ : a ≠ b)
    (named : src ≠ "") (moved : fs.rename src dst = .ok fs') :
    fs'.root.get (dir ++ [b]) = fs.root.get (dir ++ [a]) ∧
      fs'.root.get (dir ++ [a]) = .error .notFound ∧
      fs'.cwd = fs.cwd ∧
      ∀ R, Beside R (dir ++ [a]) → Beside R (dir ++ [b]) → fs'.root.get R = fs.root.get R := by
  obtain ⟨n, mid, found, taken, put⟩ := rename_eq_ok moved
  rw [node_eq_get named, fromSrc] at found
  obtain ⟨cs, r, atDir, removed, atDir'⟩ := alter_parent fromSrc taken
  simp only [pure, Except.pure, Except.ok.injEq] at removed
  subst removed
  have takenAlong := alter_changedAlong taken
  have toDst' : mid.absolute dst = dir ++ [b] := by rw [← toDst]; simp [absolute, takenAlong.cwd]
  obtain ⟨cs', r', atDirMid, placed, atDirDone⟩ := alter_parent toDst' put
  simp only [pure, Except.pure, Except.ok.injEq] at placed
  subst placed
  rw [atDir'] at atDirMid
  cases atDirMid
  have putAlong := alter_changedAlong put
  rw [fromSrc] at takenAlong
  rw [toDst'] at putAlong
  refine ⟨?_, ?_, putAlong.cwd.trans takenAlong.cwd, fun R besideSrc besideDst =>
    (putAlong.beside R besideDst).trans (takenAlong.beside R besideSrc)⟩
  · simp [Node.get_concat atDirDone, Node.get_concat atDir, Node.get, Node.lookup_setEntry] at found ⊢
    exact found.symm
  · simp [Node.get_concat atDirDone, Node.get, Node.lookup_setEntry, differ]

/-- After a tree is removed nothing is found at its path. -/
theorem removeDirAll_gone {fs fs' : FileSystem} {path : String} {parent : List String}
    {name : String} (located : fs.absolute path = parent ++ [name])
    (removed : fs.removeDirAll path = .ok fs') :
    fs'.root.get (parent ++ [name]) = .error .notFound := by
  obtain ⟨cs, r, -, result, atParent⟩ := alter_parent located removed
  -- the only way the removal goes through leaves no entry
  have none : r = none := by
    split at result <;> simp_all [pure, Except.pure, throw, throwThe, MonadExceptOf.throw]
  subst none
  simp [Node.get_concat atParent, Node.get, Node.lookup_setEntry]

/-- A directory found at a path can be removed. -/
theorem removeDirAll_of_dir {fs : FileSystem} {path : String} {parent : List String}
    {name : String} (located : fs.absolute path = parent ++ [name])
    (named : path ≠ "") {sub : List (String × Node)} (isDir : fs.node path = .ok (.dir sub)) :
    ∃ fs', fs.removeDirAll path = .ok fs' := by
  rw [node_eq_get named, located, Node.get_append] at isDir
  cases atParent : fs.root.get parent with
  | error e => simp [atParent, Except.bind] at isDir
  | ok n =>
    cases n with
    | file bytes => simp [atParent, Except.bind, Node.get] at isDir
    | dir entries =>
      simp only [atParent, Except.bind, Node.get] at isDir
      cases found : entries.lookup name with
      | none => simp [found] at isDir
      | some m =>
        obtain rfl : m = .dir sub := by simpa [found] using isDir
        exact alter_of_parent located atParent (by simp [found]; rfl)

/-- Writing a file into a directory sets its entry to the file. -/
theorem write_into {fs fs' : FileSystem} {path : String} {parent : List String} {name : String}
    {cs : List (String × Node)} {bytes : ByteArray}
    (located : fs.absolute path = parent ++ [name]) (atParent : fs.root.get parent = .ok (.dir cs))
    (written : fs.write path bytes = .ok fs') :
    fs'.root.get parent = .ok (.dir (Node.setEntry cs name (some (.file bytes)))) := by
  obtain ⟨cs', r, atParent', result, after⟩ := alter_parent located written
  rw [atParent] at atParent'
  cases atParent'
  -- a write over a directory fails; otherwise the entry becomes the file
  have file : r = some (.file bytes) := by
    split at result <;> simp_all [pure, Except.pure, throw, throwThe, MonadExceptOf.throw]
  rw [after, file]

/-- A path beside the line a change runs along exists after the change exactly when it did
before. -/
theorem ChangedAlong.pathExists_eq {P : List String} {a b : FileSystem} (changed : ChangedAlong P a b)
    {path : String} (named : path ≠ "") (beside : Beside (a.absolute path) P) :
    b.pathExists path = a.pathExists path := by
  have absolute : b.absolute path = a.absolute path := changed.absolute path
  simp only [pathExists, node_eq_get named, absolute, changed.beside _ beside]

/-- A path that does not exist leads to nothing. -/
theorem get_of_not_pathExists {fs : FileSystem} {path : String} (named : path ≠ "")
    (absent : ¬fs.pathExists path = true) : ∃ e, fs.root.get (fs.absolute path) = .error e := by
  simp only [pathExists, node_eq_get named] at absent
  cases found : fs.root.get (fs.absolute path) with
  | error e => exact ⟨e, rfl⟩
  | ok n => simp [found, Except.toOption] at absent

end FileSystem

/-- A name a path can end in: not empty, without `/`, and neither `.` nor `..`. -/
structure PlainName (name : String) : Prop where
  nonempty : name ≠ ""
  noSlash : '/' ∉ name.toList
  notDot : name ≠ "."
  notParent : name ≠ ".."

/-- A path a name can be put after: empty, for the working directory, or ending in `/`. -/
def DirPrefix (dirPart : String) : Prop := dirPart = "" ∨ dirPart.toList.getLast? = some '/'

/-- The components of two paths joined with `/` are those of the first, then of the second. -/
theorem components_append_slash (a b : String) :
    components (a ++ "/" ++ b) = components a ++ components b := by
  have chars : (a ++ "/" ++ b).toList = a.toList ++ '/' :: b.toList := by simp
  simp only [components, chars, List.splitOn_append_cons_self, List.map_append, List.filter_append]

/-- The empty path has no components. -/
theorem components_empty : components "" = [] := by
  simp [components]

/-- A plain name is one component. -/
theorem PlainName.components_eq {x : String} (plain : PlainName x) : components x = [x] := by
  simp [components, List.splitOn_eq_singleton plain.noSlash, plain.nonempty, plain.notDot]

/-- A directory path is empty or a path followed by `/`. -/
theorem DirPrefix.cases {d : String} (atDir : DirPrefix d) : d = "" ∨ ∃ init, d = init ++ "/" := by
  rcases atDir with empty | slash
  · exact .inl empty
  · obtain ⟨ys, chars⟩ := List.getLast?_eq_some_iff.mp slash
    refine .inr ⟨String.ofList ys, ?_⟩
    apply String.toList_inj.mp
    simp [chars]

/-- The components of a plain name after a directory path: the directory's, then the name. -/
theorem components_dirPart {d x : String} (atDir : DirPrefix d) (plain : PlainName x) :
    components (d ++ x) = components d ++ [x] := by
  rcases atDir.cases with rfl | ⟨init, rfl⟩
  · simp [plain.components_eq, components_empty]
  · -- the trailing `/` adds only an empty component, which is dropped
    have trailing := components_append_slash init ""
    rw [String.append_empty, components_empty, List.append_nil] at trailing
    rw [components_append_slash, plain.components_eq, trailing]

/-- A plain name after a directory path starts the path only when the directory path is empty,
and then not with `/`. -/
theorem head?_dirPart {d x : String} (atDir : DirPrefix d) (plain : PlainName x) :
    ((d ++ x).toList.head? = some '/') = (d.toList.head? = some '/') := by
  rcases atDir.cases with rfl | ⟨init, rfl⟩
  · have notSlash : x.toList.head? ≠ some '/' := fun first => plain.noSlash (List.mem_of_head? first)
    simp [notSlash]
  · simp [List.head?_append]

/-- A plain name after a directory path resolves one component below the directory. -/
theorem resolve_dirPart (cwd : List String) {d x : String} (atDir : DirPrefix d)
    (plain : PlainName x) :
    resolve cwd (d ++ x) = resolve cwd d ++ [x] := by
  simp only [resolve, components_dirPart atDir plain, List.foldl_append, List.foldl_cons,
    List.foldl_nil, head?_dirPart atDir plain]
  simp [plain.notParent]

/-- A trailing `/` does not change where a path leads. -/
theorem resolve_append_slash (cwd : List String) {a : String} (nonempty : a ≠ "") :
    resolve cwd (a ++ "/") = resolve cwd a := by
  have trailing := components_append_slash a ""
  rw [String.append_empty, components_empty, List.append_nil] at trailing
  have start : (a ++ "/").toList.head? = a.toList.head? := by
    cases chars : a.toList with
    | nil => exact absurd (String.toList_eq_nil_iff.mp chars) nonempty
    | cons c rest => simp [chars]
  simp only [resolve, trailing, start]

/-- A plain name joined onto a path that does not end in `/` goes after a `/`. -/
theorem joinPath_of_plain {base f : String} (nonempty : base ≠ "")
    (trailing : base.toList.getLast? ≠ some '/') (plain : PlainName f) :
    joinPath base f = base ++ "/" ++ f := by
  have notSlash : f.toList.head? ≠ some '/' := fun first => plain.noSlash (List.mem_of_head? first)
  simp [joinPath, notSlash, String.isEmpty_iff, nonempty, trailing]

/-- A plain name after a directory path does not end in `/`. -/
theorem getLast?_dirPart {d x : String} (plain : PlainName x) :
    (d ++ x).toList.getLast? ≠ some '/' := by
  intro last
  rw [String.toList_append, List.getLast?_append] at last
  cases final : x.toList.getLast? with
  | none => exact plain.nonempty (String.toList_eq_nil_iff.mp (List.getLast?_eq_none_iff.mp final))
  | some c =>
    rw [final, Option.some_or, Option.some.injEq] at last
    exact plain.noSlash (last ▸ List.mem_of_getLast? final)

/-- A plain name joined onto a plain name after a directory path resolves two components below
the directory. -/
theorem resolve_joinPath (cwd : List String) {d x f : String} (atDir : DirPrefix d)
    (plainDir : PlainName x) (plain : PlainName f) :
    resolve cwd (joinPath (d ++ x) f) = resolve cwd d ++ [x, f] := by
  have nonempty : d ++ x ≠ "" := fun empty => plainDir.nonempty (String.append_eq_empty_iff.mp empty).2
  have slashed : DirPrefix (d ++ x ++ "/") := .inr (by simp)
  rw [joinPath_of_plain nonempty (getLast?_dirPart plainDir) plain, resolve_dirPart cwd slashed plain,
    resolve_append_slash cwd nonempty, resolve_dirPart cwd atDir plainDir]
  simp

/-- The last component of a plain name after a directory path is the name. -/
theorem fileName_dirPart {d x : String} (atDir : DirPrefix d) (plain : PlainName x) :
    fileName (d ++ x) = some x := by
  simp [fileName, components_dirPart atDir plain, plain.notParent]

/-- Replacing the file name of a plain name after a directory path keeps the directory path. -/
theorem withFileName_dirPart {d x : String} (atDir : DirPrefix d) (plain : PlainName x)
    (y : String) :
    withFileName (d ++ x) y = d ++ y := by
  -- reversed, the name comes first: no `/` to trim before it, and none inside it
  obtain ⟨c, rest, chars⟩ : ∃ c rest, x.toList.reverse = c :: rest := by
    cases reversed : x.toList.reverse with
    | nil => exact absurd (by simpa using reversed) plain.nonempty
    | cons c rest => exact ⟨c, rest, rfl⟩
  have lastChar : c ≠ '/' := by
    intro slash
    have member : c ∈ x.toList.reverse := by
      rw [chars]
      exact List.mem_cons_self
    rw [slash] at member
    exact plain.noSlash (List.mem_reverse.mp member)
  have noSlashes : ∀ ch ∈ x.toList.reverse, (ch != '/') = true := by
    intro ch member
    have inName : ch ∈ x.toList := List.mem_reverse.mp member
    simp only [bne_iff_ne, ne_eq]
    rintro rfl
    exact plain.noSlash inName
  have trimmed : ((d ++ x).toList.reverse.dropWhile (· == '/')) =
      x.toList.reverse ++ d.toList.reverse := by
    rw [String.toList_append, List.reverse_append, chars, List.cons_append,
      List.dropWhile_cons_of_neg (by simpa using lastChar)]
  have skipped : (x.toList.reverse ++ d.toList.reverse).dropWhile (· != '/') =
      d.toList.reverse.dropWhile (· != '/') := by
    rw [List.dropWhile_append, if_pos (by simpa [List.dropWhile_eq_nil_iff] using noSlashes)]
  simp only [withFileName, trimmed, skipped]
  rcases atDir.cases with rfl | ⟨init, rfl⟩
  · simp
  · simp [String.toList_append]

end RegionNet.Files

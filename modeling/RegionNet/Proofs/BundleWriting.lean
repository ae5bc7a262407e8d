import RegionNet.Network.Checkpoint
import RegionNet.Proofs.Session
import RegionNet.Proofs.FileTree

namespace RegionNet

/-!
# Writing a bundle into a directory

A save writes a network into a staging directory first: each region's streams, in the order of
the regions, then the structure file `network.json`. This module follows that write. Every name it
writes under is a plain name (`PlainName.streamFileName`), so each file lands one level below the
directory and nothing beside the directory changes. When the write goes through, the directory
holds exactly `Network.bundleFiles` (`writeBundle_into`); when it fails on the way, the directory
is still one and still nothing beside it changed (`writeBundle_leaves_dir`).

It also gives the rules for running the steps a save is made of (`leaves_bind`, `run_tryCatch`,
`changeFiles_run` and the like) and `RaisesIo`, for the steps whose only failures are I/O errors.
-/

/-- The name a save gives a sibling of a bundle named `name`: the name with a tag, the process
number and a count. -/
def siblingName (name tag : String) (processId count : Nat) : String :=
  s!"{name}.{tag}-{processId}-{count}"

/-- The file a region's stream is saved to in a bundle under a label. -/
def streamFileName (label region stream : String) : String := s!"{label}.{region}.{stream}"

namespace Files

/-- A number written out has no `/`. -/
theorem slash_not_mem_toDigits (n : Nat) : '/' ∉ Nat.toDigits 10 n := by
  intro member
  have digit := Nat.isDigit_of_mem_toDigits (by decide) (by decide) member
  exact absurd digit (by decide)

/-- The characters of a sibling's name. -/
theorem siblingName_toList (name tag : String) (processId count : Nat) :
    (RegionNet.siblingName name tag processId count).toList =
      name.toList ++ '.' :: tag.toList ++ '-' :: Nat.toDigits 10 processId ++
        '-' :: Nat.toDigits 10 count := by
  show (name ++ "." ++ tag ++ "-" ++ toString processId ++ "-" ++ toString count).toList = _
  simp

/-- A name longer than `..` is neither `.` nor `..`. -/
theorem not_dots_of_long {x : String} (long : 2 < x.toList.length) : x ≠ "." ∧ x ≠ ".." := by
  constructor <;> rintro rfl <;> exact absurd long (by decide)

/-- A sibling of a plain name, tagged with a tag without `/`, is a plain name. -/
theorem PlainName.siblingName {name tag : String} (plain : PlainName name)
    (tagged : '/' ∉ tag.toList) (processId count : Nat) :
    PlainName (RegionNet.siblingName name tag processId count) := by
  have chars := siblingName_toList name tag processId count
  -- it is longer than `..`, since the name is not empty
  have long : 2 < (RegionNet.siblingName name tag processId count).toList.length := by
    have : name.toList ≠ [] := by simpa using plain.nonempty
    have := List.length_pos_of_ne_nil this
    simp [chars]
    omega
  have dots := not_dots_of_long long
  refine ⟨fun empty => by simp [empty] at long, ?_, dots.1, dots.2⟩
  rw [chars]
  simp [plain.noSlash, tagged, slash_not_mem_toDigits]

/-- The file of a stream is a plain name when the label and the stream are not empty and neither
the label, the region nor the stream has a `/`. -/
theorem PlainName.streamFileName {label region stream : String} (labelled : label ≠ "")
    (labelPlain : '/' ∉ label.toList) (regionPlain : '/' ∉ region.toList)
    (streamPlain : '/' ∉ stream.toList) :
    PlainName (RegionNet.streamFileName label region stream) := by
  have chars : (RegionNet.streamFileName label region stream).toList =
      label.toList ++ '.' :: region.toList ++ '.' :: stream.toList := by
    show (label ++ "." ++ region ++ "." ++ stream).toList = _
    simp
  have long : 2 < (RegionNet.streamFileName label region stream).toList.length := by
    have : label.toList ≠ [] := by simpa using labelled
    have := List.length_pos_of_ne_nil this
    simp [chars]
    omega
  have dots := not_dots_of_long long
  refine ⟨fun empty => by simp [empty] at long, ?_, dots.1, dots.2⟩
  rw [chars]
  simp [labelPlain, regionPlain, streamPlain]

end Files

namespace Files

/-- A directory path that leads to `D` from the working directory `cwd`: every plain name
joined onto it lies one level below `D`. -/
def LeadsTo (cwd : List String) (dir : String) (D : List String) : Prop :=
  ∀ f, PlainName f → resolve cwd (joinPath dir f) = D ++ [f]

/-- A plain name after a directory path leads one level below where the directory path leads. -/
theorem leadsTo_dirPart (cwd : List String) {d x : String} (atDir : DirPrefix d)
    (plain : PlainName x) :
    LeadsTo cwd (d ++ x) (resolve cwd (d ++ x)) := by
  intro f plainFile
  rw [resolve_joinPath cwd atDir plain plainFile, resolve_dirPart cwd atDir plain]
  simp

/-- A path that holds a bundle names a directory. -/
theorem FileSystem.get_of_holdsBundle {fs : FileSystem} {path : String} (named : path ≠ "")
    (holds : fs.holdsBundle path = true) :
    ∃ cs, fs.root.get (fs.absolute path) = .ok (.dir cs) := by
  simp only [holdsBundle, Bool.and_eq_true, isDir] at holds
  rw [← node_eq_get named]
  split at holds
  next cs found => exact ⟨cs, found⟩
  next => simp at holds

namespace Node

/-- Entries with files written one after another, a later write of a name replacing the
earlier. -/
def withFiles (cs : List (String × Node)) (files : List (String × ByteArray)) :
    List (String × Node) :=
  files.foldl (fun cs (name, bytes) => setEntry cs name (some (.file bytes))) cs

@[simp] theorem withFiles_nil (cs : List (String × Node)) : withFiles cs [] = cs := rfl

@[simp] theorem withFiles_cons (cs : List (String × Node)) (name : String) (bytes : ByteArray)
    (files : List (String × ByteArray)) :
    withFiles cs ((name, bytes) :: files) =
      withFiles (setEntry cs name (some (.file bytes))) files := rfl

theorem withFiles_append (cs : List (String × Node)) (first second : List (String × ByteArray)) :
    withFiles cs (first ++ second) = withFiles (withFiles cs first) second := by
  simp [withFiles, List.foldl_append]

end Node

/-- A sibling's name is longer than the name it is made from. -/
theorem siblingName_ne (name tag : String) (processId count : Nat) :
    RegionNet.siblingName name tag processId count ≠ name := by
  intro same
  have lengths := congrArg (fun x : String => x.toList.length) same
  simp only [siblingName_toList, List.length_append, List.length_cons] at lengths
  omega

/-- A staging sibling is never an old-bundle sibling. -/
theorem siblingName_tmp_ne_old (name : String) (p q c c' : Nat) :
    RegionNet.siblingName name "tmp" p c ≠ RegionNet.siblingName name "old" q c' := by
  intro same
  have chars := congrArg String.toList same
  simp [siblingName_toList] at chars

/-- A non-empty path. -/
theorem dirPart_ne_empty {d x : String} (plain : PlainName x) : d ++ x ≠ "" :=
  fun empty => plain.nonempty (String.append_eq_empty_iff.mp empty).2

/-- A fresh sibling of a plain name after a directory path sits in the same directory. -/
theorem withFileName_sibling {d x : String} (atDir : DirPrefix d) (plain : PlainName x)
    (tag : String) (processId count : Nat) :
    withFileName (d ++ x)
        (RegionNet.siblingName ((fileName (d ++ x)).getD "") tag processId count) =
      d ++ RegionNet.siblingName x tag processId count := by
  rw [fileName_dirPart atDir plain, Option.getD_some, withFileName_dirPart atDir plain]

end Files

namespace Implementation

/-- Every implementation saves to streams named `main` and `aux` only. -/
theorem streams_named {impl : Implementation} {ys : List (String × Bytes)}
    (saved : impl.streams = .ok ys) :
    ∀ entry ∈ ys, entry.1 = "main" ∨ entry.1 = "aux" := by
  cases impl with
  | reference state =>
    simp only [streams, Except.ok.injEq] at saved
    subst saved
    simp [Reference.streams]
  | probe role iteration =>
    simp only [streams, Probe.streams] at saved
    split at saved
    next => simp at saved
    next =>
      simp only [Except.ok.injEq] at saved
      subst saved
      simp

/-- No stream of an implementation has `/` in its name. -/
theorem slash_not_mem_stream {impl : Implementation} {ys : List (String × Bytes)}
    (saved : impl.streams = .ok ys) {entry : String × Bytes} (member : entry ∈ ys) :
    '/' ∉ entry.1.toList := by
  rcases streams_named saved entry member with main | aux
  · rw [main]
    decide
  · rw [aux]
    decide

end Implementation

namespace Bundle.Streams

/-- Writing a whole stream is writing its file empty, then with the bytes. -/
theorem writeAll_eq_ok {s : Streams} {fs fs' : Files.FileSystem} {stream : String} {bytes : Bytes}
    (written : s.writeAll fs stream bytes = .ok fs') :
    ∃ fs₁, fs.write (s.path stream) ByteArray.empty = .ok fs₁ ∧
      fs₁.write (s.path stream) ⟨bytes⟩ = .ok fs' := by
  simp only [writeAll, create, bind, Except.bind] at written
  cases checked : s.checkMode .write stream with
  | error e => simp [checked] at written
  | ok u =>
    cases created : fs.write (s.path stream) ByteArray.empty with
    | error e => simp [checked, created, throw, throwThe, MonadExceptOf.throw] at written
    | ok fs₁ =>
      refine ⟨fs₁, rfl, ?_⟩
      cases filled : fs₁.write (s.path stream) ⟨bytes⟩ with
      | error e => simp [checked, created, filled, pure, Except.pure] at written
      | ok fs₂ => simpa [checked, created, filled, pure, Except.pure] using written

/-- Writing a whole stream into a bundle directory sets the stream's file to its bytes, and
changes nothing beside that file. -/
theorem writeAll_into {s : Streams} {fs fs' : Files.FileSystem} {stream : String} {bytes : Bytes}
    {D : List String} {cs : List (String × Files.Node)}
    (located : fs.absolute (s.path stream) = D ++ [streamFileName s.label s.region stream])
    (atDir : fs.root.get D = .ok (.dir cs)) (written : s.writeAll fs stream bytes = .ok fs') :
    fs'.root.get D = .ok (.dir (Files.Node.setEntry cs (streamFileName s.label s.region stream)
        (some (.file ⟨bytes⟩)))) ∧
      Files.FileSystem.ChangedAlong (D ++ [streamFileName s.label s.region stream]) fs fs' := by
  obtain ⟨fs₁, created, filled⟩ := writeAll_eq_ok written
  have createdAlong := Files.FileSystem.alter_changedAlong created
  have filledAlong := Files.FileSystem.alter_changedAlong filled
  have located₁ : fs₁.absolute (s.path stream) = D ++ [streamFileName s.label s.region stream] := by
    rw [createdAlong.absolute, located]
  rw [located] at createdAlong
  rw [located₁] at filledAlong
  have atDir₁ := Files.FileSystem.write_into located atDir created
  refine ⟨?_, createdAlong.trans filledAlong⟩
  rw [Files.FileSystem.write_into located₁ atDir₁ filled, Files.Node.setEntry_setEntry]

end Bundle.Streams

/-- The files a region's streams are saved to under a label, with their bytes, in order. -/
def Region.streamFiles (r : Region) (label : String) :
    Except EngineError (List (String × ByteArray)) :=
  r.impl.streams.map fun ys => ys.map fun (stream, bytes) => (streamFileName label r.name stream, ⟨bytes⟩)

/-- The files of a network's bundle under a label, in the order a save writes them: every
region's streams, then the structure file. -/
def Network.bundleFiles (n : Network) (label : String) :
    Except EngineError (List (String × ByteArray)) := do
  let streams ← n.regions.items.mapM (·.streamFiles label)
  return streams.flatten ++ [(Description.fileName, (Op.describe n label).text.toUTF8)]

namespace Op

/-- The streams a save opens for a region in a bundle directory. -/
def regionStreams (dir label : String) (r : Region) : Bundle.Streams :=
  { bundlePath := dir, label, region := r.name, mode := .write }

/-- What writing a region's streams into a bundle directory does to a file system. -/
def regionWrite (dir label : String) (fs : Files.FileSystem) (r : Region) :
    Except EngineError Files.FileSystem := do
  (← r.impl.streams).foldlM
    (fun fs (stream, bytes) => (regionStreams dir label r).writeAll fs stream bytes) fs

section Runs

/-- The session a sequence leaves: where the first operation fails, the session it leaves. -/
theorem leaves_bind {α β : Type} (x : Op α) (f : α → Op β) (s : Session) :
    (x >>= f).leaves s = match EStateM.run x s with
      | .ok a s' => (f a).leaves s'
      | .error _ s' => s' := by
  unfold leaves
  rw [EStateM.run_bind]
  cases EStateM.run x s <;> rfl

/-- A property of the session that an operation leaves, and that the rest keeps from any session
the operation succeeds in, holds of the session a sequence leaves. -/
theorem leaves_bind_of {α β : Type} {x : Op α} {f : α → Op β} {I : Session → Prop} {s : Session}
    (first : I (x.leaves s))
    (rest : ∀ a s', EStateM.run x s = .ok a s' → I s' → I ((f a).leaves s')) :
    I ((x >>= f).leaves s) := by
  rw [leaves_bind]
  unfold leaves at first
  split
  next a s' ran =>
    rw [ran] at first
    exact rest a s' ran first
  next e s' ran =>
    rw [ran] at first
    exact first

/-- A loop whose every pass, when it succeeds, goes on and changes only the files, as `f` does:
when the loop succeeds, the files are those `f` gives over the whole list. -/
theorem forIn_ok_files {α : Type} {xs : List α} {body : α → PUnit → Op (ForInStep PUnit)}
    {f : Files.FileSystem → α → Except EngineError Files.FileSystem}
    (pass : ∀ x ∈ xs, ∀ s r s', EStateM.run (body x ()) s = .ok r s' →
      r = .yield () ∧ ∃ fs, f s.files x = .ok fs ∧ s' = { s with files := fs }) :
    ∀ {s s' : Session}, EStateM.run (forIn xs () body) s = .ok () s' →
      ∃ fs, xs.foldlM f s.files = .ok fs ∧ s' = { s with files := fs } := by
  induction xs with
  | nil =>
    intro s s' ran
    simp only [List.forIn_nil] at ran
    cases ran
    exact ⟨s.files, rfl, rfl⟩
  | cons x rest ih =>
    intro s s' ran
    rw [List.forIn_cons, EStateM.run_bind] at ran
    cases first : EStateM.run (body x ()) s with
    | error e s₁ => simp [first] at ran
    | ok r s₁ =>
      obtain ⟨rfl, fs₁, step, rfl⟩ := pass x List.mem_cons_self s r s₁ first
      rw [first] at ran
      obtain ⟨fs, folded, rfl⟩ := ih (fun y member => pass y (List.mem_cons_of_mem _ member)) ran
      exact ⟨fs, by simp [List.foldlM_cons, step, bind, Except.bind, folded], rfl⟩

/-- A property every pass of a loop keeps, whether the pass succeeds or fails, holds of the
session the whole loop leaves. -/
theorem forIn_leaves {α : Type} {xs : List α} {body : α → PUnit → Op (ForInStep PUnit)}
    {I : Session → Prop} (pass : ∀ x ∈ xs, ∀ s, I s → I ((body x ()).leaves s)) :
    ∀ {s : Session}, I s → I ((forIn xs () body).leaves s) := by
  induction xs with
  | nil =>
    intro s holds
    exact holds
  | cons x rest ih =>
    intro s holds
    have first := pass x List.mem_cons_self s holds
    rw [List.forIn_cons, leaves_bind]
    unfold leaves at first
    cases ran : EStateM.run (body x ()) s with
    | error e s₁ => simpa [ran] using first
    | ok r s₁ =>
      rw [ran] at first
      cases r with
      | done u => exact first
      | yield u => exact ih (fun y member => pass y (List.mem_cons_of_mem _ member)) first

/-- Reading the network changes nothing. -/
theorem network_run (s : Session) : EStateM.run network s = .ok s.network s := rfl

/-- A value lifted into an operation is its result. -/
theorem run_lift_ok {α : Type} (a : α) (s : Session) : EStateM.run (lift (.ok a)) s = .ok a s := rfl

/-- An error lifted into an operation fails with it. -/
theorem run_lift_error {α : Type} (e : EngineError) (s : Session) :
    EStateM.run (lift (.error e : Except EngineError α)) s = .error e s := rfl

@[simp] theorem run_get (s : Session) : EStateM.run (get : Op Session) s = .ok s s := rfl

@[simp] theorem run_modify (f : Session → Session) (s : Session) :
    EStateM.run (modify f : Op Unit) s = .ok () (f s) := rfl

@[simp] theorem run_pure {α : Type} (a : α) (s : Session) :
    EStateM.run (pure a : Op α) s = .ok a s := rfl

/-- Changing the files either succeeds with the new files or fails with an I/O error, the session
as it was. -/
theorem changeFiles_run (f : Files.FileSystem → Except Files.IoError Files.FileSystem)
    (s : Session) :
    EStateM.run (changeFiles f) s = match f s.files with
      | .ok fs => .ok () { s with files := fs }
      | .error e => .error (.io e.message) s := by
  cases changed : f s.files with
  | ok fs => simp [changeFiles, EStateM.run_bind, changed]
  | error e => simp [changeFiles, EStateM.run_bind, changed]

/-- Lifting a value or an error leaves the session as it was. -/
theorem leaves_lift {α : Type} (e : Except EngineError α) (s : Session) : (lift e).leaves s = s := by
  cases e <;> rfl

/-- Changing the files leaves the new files, or the session as it was. -/
theorem changeFiles_leaves (f : Files.FileSystem → Except Files.IoError Files.FileSystem)
    (s : Session) :
    (changeFiles f).leaves s = match f s.files with
      | .ok fs => { s with files := fs }
      | .error _ => s := by
  unfold leaves
  rw [changeFiles_run]
  cases f s.files <;> rfl

/-- A handled operation: where it fails, the handler runs from the session it left. -/
theorem run_tryCatch {α : Type} (x : Op α) (handle : EngineError → Op α) (s : Session) :
    EStateM.run (tryCatch x handle) s = match EStateM.run x s with
      | .ok a s' => .ok a s'
      | .error e s' => EStateM.run (handle e) s' := by
  show EStateM.tryCatch x handle s = match x s with
    | .ok a s' => .ok a s'
    | .error e s' => handle e s'
  unfold EStateM.tryCatch
  cases x s <;> rfl

/-- Discarding a tree removes it where that works, and changes nothing otherwise. -/
theorem discardTree_run (path : String) (s : Session) :
    EStateM.run (discardTree path) s =
      .ok () { s with files := (s.files.removeDirAll path).toOption.getD s.files } := rfl

/-- A fresh sibling path: the count of names given goes up by one. -/
theorem siblingPath_run (path tag : String) (s : Session) :
    EStateM.run (siblingPath path tag) s =
      .ok (Files.withFileName path (siblingName ((Files.fileName path).getD "") tag s.processId s.saves))
        { s with saves := s.saves + 1 } := rfl

/-- A handled operation whose handler always fails succeeds only as the operation itself. -/
theorem run_tryCatch_ok {α : Type} {x : Op α} {handle : EngineError → Op α} {s s' : Session}
    {a : α} (fails : ∀ e t, ∃ e' t', EStateM.run (handle e) t = .error e' t')
    (ran : EStateM.run (tryCatch x handle) s = .ok a s') :
    EStateM.run x s = .ok a s' := by
  rw [run_tryCatch] at ran
  split at ran
  next b t succeeded =>
    cases ran
    exact succeeded
  next e t _ =>
    obtain ⟨e', t', failed⟩ := fails e t
    rw [failed] at ran
    cases ran

end Runs

/-- Every error the operation raises is an I/O error. -/
def RaisesIo {α : Type} (x : Op α) : Prop :=
  ∀ s e s', EStateM.run x s = .error e s' → ∃ m, e = .io m

namespace RaisesIo

/-- A sequence raises only I/O errors when both its parts do. -/
theorem bind {α β : Type} {x : Op α} {f : α → Op β} (first : RaisesIo x)
    (rest : ∀ a, RaisesIo (f a)) : RaisesIo (x >>= f) := by
  intro s e s' failed
  rw [EStateM.run_bind] at failed
  split at failed
  next a s₁ ran => exact rest a s₁ e s' failed
  next e₁ s₁ ran =>
    cases failed
    exact first _ _ _ ran

/-- A handled operation raises only I/O errors when the operation does and the handler does for
each of them. -/
theorem tryCatch {α : Type} {x : Op α} {handle : EngineError → Op α} (first : RaisesIo x)
    (handled : ∀ m, RaisesIo (handle (.io m))) : RaisesIo (tryCatch x handle) := by
  intro s e s' failed
  rw [run_tryCatch] at failed
  split at failed
  next => simp at failed
  next e₁ s₁ ran =>
    obtain ⟨m, rfl⟩ := first s e₁ s₁ ran
    exact handled m s₁ e s' failed

/-- An operation that always succeeds raises nothing. -/
theorem ofRun {α : Type} {x : Op α} (never : ∀ s, ∃ a s', EStateM.run x s = .ok a s') :
    RaisesIo x := by
  intro s e s' failed
  obtain ⟨a, s₁, ran⟩ := never s
  rw [ran] at failed
  cases failed

/-- A change of the files fails only with an I/O error. -/
theorem changeFiles (f : Files.FileSystem → Except Files.IoError Files.FileSystem) :
    RaisesIo (Op.changeFiles f) := by
  intro s e s' failed
  rw [changeFiles_run] at failed
  split at failed
  next => cases failed
  next e₁ _ =>
    cases failed
    exact ⟨_, rfl⟩

/-- Raising an I/O error raises an I/O error. -/
theorem throw_io {α : Type} (m : String) : RaisesIo (throw (.io m) : Op α) := by
  intro s e s' failed
  cases failed
  exact ⟨m, rfl⟩

end RaisesIo

/-- Moving a bundle into place fails only on the file system. -/
theorem replaceBundle_raisesIo (staging path : String) : RaisesIo (replaceBundle staging path) := by
  have discarding (p : String) : RaisesIo (discardTree p) :=
    RaisesIo.ofRun fun s => ⟨(), _, discardTree_run p s⟩
  unfold replaceBundle
  refine RaisesIo.bind (RaisesIo.ofRun fun s => ⟨s, s, run_get s⟩) fun l => ?_
  split
  · exact RaisesIo.tryCatch (RaisesIo.changeFiles _) fun m =>
      RaisesIo.bind (discarding staging) fun _ => RaisesIo.throw_io m
  · refine RaisesIo.bind (RaisesIo.ofRun fun s => ⟨_, _, siblingPath_run path "old" s⟩)
      fun previous => ?_
    refine RaisesIo.bind (RaisesIo.tryCatch (RaisesIo.changeFiles _) fun m =>
      RaisesIo.bind (discarding staging) fun _ => RaisesIo.throw_io m) fun _ => ?_
    refine RaisesIo.bind (RaisesIo.tryCatch (RaisesIo.changeFiles _) fun m =>
      RaisesIo.bind (RaisesIo.changeFiles _) fun _ =>
        RaisesIo.bind (discarding staging) fun _ => RaisesIo.throw_io m) fun _ => ?_
    exact discarding previous

section Writing

open Files Files.FileSystem

variable {dir label : String} {D : List String}

/-- Streams written one after another into a bundle directory: the directory holds their files,
and nothing beside it changes. -/
theorem streamsWrite_into {r : Region} (labelled : label ≠ "") (labelPlain : '/' ∉ label.toList)
    (regionPlain : '/' ∉ r.name.toList) :
    ∀ {ys : List (String × Bytes)} {fs fs' : FileSystem} {cs : List (String × Node)},
      (∀ entry ∈ ys, '/' ∉ entry.1.toList) → LeadsTo fs.cwd dir D →
      fs.root.get D = .ok (.dir cs) →
      ys.foldlM (fun fs (stream, bytes) => (regionStreams dir label r).writeAll fs stream bytes) fs =
        .ok fs' →
      fs'.root.get D = .ok (.dir (Node.withFiles cs (ys.map fun (stream, bytes) =>
          (streamFileName label r.name stream, ⟨bytes⟩)))) ∧
        ChangedAlong D fs fs'
  | [], fs, fs', cs, _, _, atDir, written => by
    simp only [List.foldlM_nil, pure, Except.pure, Except.ok.injEq] at written
    subst written
    exact ⟨atDir, ChangedAlong.refl _ _⟩
  | (stream, bytes) :: rest, fs, fs', cs, plain, leads, atDir, written => by
    simp only [List.foldlM_cons, bind, Except.bind] at written
    cases first : (regionStreams dir label r).writeAll fs stream bytes with
    | error e => simp [first] at written
    | ok fs₁ =>
      rw [first] at written
      have file : PlainName (streamFileName label r.name stream) :=
        PlainName.streamFileName labelled labelPlain regionPlain (plain _ List.mem_cons_self)
      have located : fs.absolute ((regionStreams dir label r).path stream) =
          D ++ [streamFileName label r.name stream] := leads _ file
      obtain ⟨atDir₁, along₁⟩ := Bundle.Streams.writeAll_into located atDir first
      have leads₁ : LeadsTo fs₁.cwd dir D := along₁.cwd ▸ leads
      obtain ⟨atDir', along'⟩ := streamsWrite_into labelled labelPlain regionPlain
        (fun entry member => plain entry (List.mem_cons_of_mem _ member)) leads₁ atDir₁ written
      exact ⟨by simpa [regionStreams] using atDir', along₁.of_append.trans along'⟩

/-- Every region's streams written in turn into a bundle directory: the directory holds the
files of all of them, in order, and nothing beside it changes. -/
theorem regionsWrite_into (labelled : label ≠ "") (labelPlain : '/' ∉ label.toList) :
    ∀ {rs : List Region} {fs fs' : FileSystem} {cs : List (String × Node)},
      (∀ r ∈ rs, '/' ∉ r.name.toList) → LeadsTo fs.cwd dir D → fs.root.get D = .ok (.dir cs) →
      rs.foldlM (regionWrite dir label) fs = .ok fs' →
      ∃ files, rs.mapM (·.streamFiles label) = .ok files ∧
        fs'.root.get D = .ok (.dir (Node.withFiles cs files.flatten)) ∧ ChangedAlong D fs fs'
  | [], fs, fs', cs, _, _, atDir, written => by
    simp only [List.foldlM_nil, pure, Except.pure, Except.ok.injEq] at written
    subst written
    exact ⟨[], rfl, atDir, ChangedAlong.refl _ _⟩
  | r :: rest, fs, fs', cs, named, leads, atDir, written => by
    simp only [List.foldlM_cons, bind, Except.bind] at written
    cases first : regionWrite dir label fs r with
    | error e => simp [first] at written
    | ok fs₁ =>
      rw [first] at written
      cases saved : r.impl.streams with
      | error e => simp [regionWrite, saved, bind, Except.bind] at first
      | ok ys =>
        simp only [regionWrite, saved, bind, Except.bind] at first
        obtain ⟨atDir₁, along₁⟩ := streamsWrite_into labelled labelPlain
          (named r List.mem_cons_self) (fun entry => Implementation.slash_not_mem_stream saved)
          leads atDir first
        obtain ⟨files, listed, atDir', along'⟩ := regionsWrite_into labelled labelPlain
          (fun r' member => named r' (List.mem_cons_of_mem _ member)) (along₁.cwd ▸ leads)
          atDir₁ written
        refine ⟨(ys.map fun (stream, bytes) => (streamFileName label r.name stream, ⟨bytes⟩)) :: files,
          ?_, ?_, along₁.trans along'⟩
        · rw [List.mapM_cons, listed]
          simp [Region.streamFiles, saved, bind, Except.bind, pure, Except.pure, Except.map]
        · simpa [Node.withFiles_append] using atDir'

/-- A bundle written in full: every region's streams went into the directory, then the structure
file, and only the files changed. -/
theorem writeBundle_ok {s s' : Session}
    (ran : EStateM.run (writeBundle dir label) s = .ok () s') :
    ∃ fs fs', s.network.regions.items.foldlM (regionWrite dir label) s.files = .ok fs ∧
      fs.write (joinPath dir Description.fileName) (describe s.network label).text.toUTF8 =
        .ok fs' ∧
      s' = { s with files := fs' } := by
  unfold writeBundle at ran
  rw [EStateM.run_bind, network_run] at ran
  dsimp only at ran
  rw [EStateM.run_bind] at ran
  split at ran
  next u s₁ loop =>
    have outcome := forIn_ok_files (f := regionWrite dir label) ?_ loop
    · obtain ⟨fs, folded, rfl⟩ := outcome
      rw [changeFiles_run] at ran
      split at ran
      next fs' wrote =>
        simp only [EStateM.Result.ok.injEq] at ran
        exact ⟨fs, fs', folded, wrote, ran.2.symm⟩
      next => simp at ran
    · intro r member t res t' step
      rw [EStateM.run_bind] at step
      cases saved : r.impl.streams with
      | error e => simp [saved, run_lift_error] at step
      | ok ys =>
        rw [saved, run_lift_ok] at step
        dsimp only at step
        rw [EStateM.run_bind] at step
        split at step
        next v t₁ inner =>
          have outcome :=
            forIn_ok_files (f := fun fs x => (regionStreams dir label r).writeAll fs x.1 x.2) ?_ inner
          · obtain ⟨fs, written, rfl⟩ := outcome
            cases step
            exact ⟨rfl, fs, by simp [regionWrite, saved, bind, Except.bind, written], rfl⟩
          · intro x member' w res' w' stepInner
            cases written : (regionStreams dir label r).writeAll w.files x.1 x.2 with
            | error e =>
              simp only [regionStreams] at written
              simp [EStateM.run_bind, written, run_lift_error] at stepInner
            | ok fs =>
              simp only [regionStreams] at written
              simp only [EStateM.run_bind, run_get, written, run_lift_ok, run_modify, run_pure,
                EStateM.Result.ok.injEq] at stepInner
              obtain ⟨rfl, rfl⟩ := stepInner
              exact ⟨rfl, fs, rfl, rfl⟩
        next => simp at step
  next => simp at ran

/-- Whatever happens while a bundle is written, only the files change, and a property of the file
system that every stream write and the structure file's write keep still holds. -/
theorem writeBundle_leaves {s : Session} {J : FileSystem → Prop}
    (passes : ∀ r ∈ s.network.regions.items, ∀ ys, r.impl.streams = .ok ys → ∀ entry ∈ ys,
      ∀ fs fs', J fs → (regionStreams dir label r).writeAll fs entry.1 entry.2 = .ok fs' → J fs')
    (last : ∀ fs fs', J fs →
      fs.write (joinPath dir Description.fileName) (describe s.network label).text.toUTF8 =
        .ok fs' → J fs')
    (holds : J s.files) :
    ∃ fs, J fs ∧ (writeBundle dir label).leaves s = { s with files := fs } := by
  -- the invariant: the session is the first one with other files, which keep `J`
  let I : Session → Prop := fun t => ∃ fs, J fs ∧ t = { s with files := fs }
  have start : I s := ⟨s.files, holds, rfl⟩
  show I ((writeBundle dir label).leaves s)
  unfold writeBundle
  refine leaves_bind_of start fun n s₀ read _ => ?_
  rw [network_run, EStateM.Result.ok.injEq] at read
  obtain ⟨rfl, rfl⟩ := read
  refine leaves_bind_of (forIn_leaves ?_ start) fun u s₁ _ within => ?_
  · -- a region: its streams, if it has them, written one by one
    intro r member t before
    refine leaves_bind_of (by rw [leaves_lift]; exact before) fun ys t₀ read _ => ?_
    cases saved : r.impl.streams with
    | error e => simp [saved, run_lift_error] at read
    | ok ys' =>
      rw [saved, run_lift_ok, EStateM.Result.ok.injEq] at read
      obtain ⟨rfl, rfl⟩ := read
      refine leaves_bind_of (forIn_leaves ?_ before) fun v t₁ _ inner => inner
      intro x member' w within
      obtain ⟨fs, kept, rfl⟩ := within
      unfold leaves
      cases written : (regionStreams dir label r).writeAll fs x.1 x.2 with
      | error e =>
        simp only [regionStreams] at written
        simp only [EStateM.run_bind, run_get, written, run_lift_error]
        exact ⟨fs, kept, rfl⟩
      | ok fs' =>
        simp only [regionStreams] at written
        simp only [EStateM.run_bind, run_get, written, run_lift_ok, run_modify, run_pure]
        exact ⟨fs', passes r member ys' saved x member' fs fs' kept written, rfl⟩
  · -- the structure file, written last
    obtain ⟨fs, kept, rfl⟩ := within
    rw [changeFiles_leaves]
    split
    next fs' wrote => exact ⟨fs', last fs fs' kept wrote, rfl⟩
    next => exact ⟨fs, kept, rfl⟩

/-- The structure file's name is a plain name. -/
theorem plainName_description : PlainName Description.fileName :=
  ⟨by decide, by decide, by decide, by decide⟩

/-- A file written under a plain name into a directory: the directory holds it, and nothing beside
it changes. -/
theorem write_plain_into {fs fs' : FileSystem} {f : String} {cs : List (String × Node)}
    {bytes : ByteArray} (plain : PlainName f) (leads : LeadsTo fs.cwd dir D)
    (atDir : fs.root.get D = .ok (.dir cs)) (written : fs.write (joinPath dir f) bytes = .ok fs') :
    fs'.root.get D = .ok (.dir (Node.setEntry cs f (some (.file bytes)))) ∧
      ChangedAlong (D ++ [f]) fs fs' := by
  have located : fs.absolute (joinPath dir f) = D ++ [f] := leads f plain
  have along := alter_changedAlong written
  rw [located] at along
  exact ⟨write_into located atDir written, along⟩

/-- A bundle written in full into an empty directory: the directory holds exactly the bundle's
files, nothing beside it changed, and neither did anything but the files. -/
theorem writeBundle_into {s s' : Session} (labelled : label ≠ "") (labelPlain : '/' ∉ label.toList)
    (regionNames : ∀ r ∈ s.network.regions.items, '/' ∉ r.name.toList)
    (leads : LeadsTo s.files.cwd dir D) (empty : s.files.root.get D = .ok (.dir []))
    (ran : EStateM.run (writeBundle dir label) s = .ok () s') :
    ∃ files fs, s.network.bundleFiles label = .ok files ∧
      fs.root.get D = .ok (.dir (Node.withFiles [] files)) ∧ ChangedAlong D s.files fs ∧
      s' = { s with files := fs } := by
  obtain ⟨fs, fs', folded, wrote, rfl⟩ := writeBundle_ok ran
  obtain ⟨streams, listed, atDir, along⟩ :=
    regionsWrite_into labelled labelPlain regionNames leads empty folded
  obtain ⟨atDir', along'⟩ := write_plain_into plainName_description (along.cwd ▸ leads) atDir wrote
  refine ⟨streams.flatten ++ [(Description.fileName, (describe s.network label).text.toUTF8)], fs',
    ?_, ?_, along.trans along'.of_append, rfl⟩
  · simp [Network.bundleFiles, listed, bind, Except.bind, pure, Except.pure]
  · rw [atDir', Node.withFiles_append]
    rfl

/-- Whatever happens while a bundle is written into a directory, the directory stays one, nothing
beside it changes, and neither does anything but the files. -/
theorem writeBundle_leaves_dir {s : Session} (labelled : label ≠ "")
    (labelPlain : '/' ∉ label.toList)
    (regionNames : ∀ r ∈ s.network.regions.items, '/' ∉ r.name.toList)
    (leads : LeadsTo s.files.cwd dir D) {cs : List (String × Node)}
    (atDir : s.files.root.get D = .ok (.dir cs)) :
    ∃ fs cs', fs.root.get D = .ok (.dir cs') ∧ ChangedAlong D s.files fs ∧
      (writeBundle dir label).leaves s = { s with files := fs } := by
  let J : FileSystem → Prop := fun fs =>
    ChangedAlong D s.files fs ∧ ∃ cs', fs.root.get D = .ok (.dir cs')
  have outcome := @writeBundle_leaves dir label s J ?_ ?_ ⟨ChangedAlong.refl _ _, cs, atDir⟩
  · obtain ⟨fs, ⟨along, cs', atDir'⟩, left⟩ := outcome
    exact ⟨fs, cs', atDir', along, left⟩
  · -- a stream's file, written into the directory
    intro r member ys saved entry member' fs fs' ⟨along, cs', atDir'⟩ written
    have file := PlainName.streamFileName labelled labelPlain (regionNames r member)
      (Implementation.slash_not_mem_stream saved member')
    obtain ⟨atDir'', along'⟩ :=
      Bundle.Streams.writeAll_into ((along.cwd ▸ leads) _ file) atDir' written
    exact ⟨along.trans along'.of_append, _, atDir''⟩
  · -- the structure file, written last
    intro fs fs' ⟨along, cs', atDir'⟩ wrote
    obtain ⟨atDir'', along'⟩ :=
      write_plain_into plainName_description (along.cwd ▸ leads) atDir' wrote
    exact ⟨along.trans along'.of_append, _, atDir''⟩

end Writing

end Op

end RegionNet

import RegionNet.Proofs.BundleWriting

namespace RegionNet

/-!
# What a save leaves

A save checks its path and label, names a staging directory next to the path, clears what an
earlier save left under that name, makes the directory with any missing parents, writes the bundle
into it and moves it into place, keeping an old bundle aside until the new one is there. This
module follows it to its two outcomes. `BundleInstalled` is what a save that goes through leaves:
the path holds exactly the bundle and nothing else beside the path and its two siblings changed.
`StagingDiscarded` is what a save that fails after staging leaves: nothing changed beside the
line of directories down to the staging path. That line includes the parents the save made, and
they stay: a failed save is not undone in full.
-/

/-- The state a network is in once saved: a network set up is marked saved, any other keeps its
state. -/
def NetworkState.afterSave : NetworkState → NetworkState
  | .initialized | .ready => .serialized
  | other => other

/-- What a save that went through leaves, for a bundle named `name` in the directory `D`, staged
under `st`, with an old bundle, if one `existed`, moved aside to `old`: the path holds exactly the
bundle's files, neither sibling is there, every path beside the three is as it was, and the
network is marked saved. -/
structure BundleInstalled (before after : Session) (D : List String) (label name st old : String)
    (existed : Prop) : Prop where
  bundle : ∃ files, before.network.bundleFiles label = .ok files ∧
    after.files.root.get (D ++ [name]) = .ok (.dir (Files.Node.withFiles [] files))
  stagingGone : after.files.root.get (D ++ [st]) = .error .notFound
  oldGone : existed → after.files.root.get (D ++ [old]) = .error .notFound
  frame : ∀ R, Files.Beside R (D ++ [st]) → Files.Beside R (D ++ [name]) →
    (existed → Files.Beside R (D ++ [old])) → after.files.root.get R = before.files.root.get R
  marked : after.network = { before.network with state := before.network.state.afterSave }

/-- What a save that failed after staging leaves: the network as it was, nothing changed beside
the line of directories down to the staging path `D ++ [st]`, and nothing at the staging path. -/
structure StagingDiscarded (before after : Session) (D : List String) (st : String) : Prop where
  network : after.network = before.network
  along : Files.FileSystem.ChangedAlong (D ++ [st]) before.files after.files
  stagingGone : after.files.root.get (D ++ [st]) = .error .notFound

/-- A save failed after a change along the staging line changed only that line. -/
theorem StagingDiscarded.after_change {s t s' : Session} {D : List String} {st : String}
    (discarded : StagingDiscarded t s' D st)
    (along : Files.FileSystem.ChangedAlong (D ++ [st]) s.files t.files)
    (network : t.network = s.network) : StagingDiscarded s s' D st :=
  ⟨discarded.network.trans network, along.trans discarded.along, discarded.stagingGone⟩

/-- A save installed after a change along the staging line changed nothing else beside it. -/
theorem BundleInstalled.after_change {s t s' : Session} {D : List String}
    {label name st old : String} {existed : Prop}
    (installed : BundleInstalled t s' D label name st old existed)
    (along : Files.FileSystem.ChangedAlong (D ++ [st]) s.files t.files)
    (network : t.network = s.network) :
    BundleInstalled s s' D label name st old existed where
  bundle := network ▸ installed.bundle
  stagingGone := installed.stagingGone
  oldGone := installed.oldGone
  frame R besideStaging besidePath besideOld :=
    (installed.frame R besideStaging besidePath besideOld).trans (along.beside R besideStaging)
  marked := network ▸ installed.marked

namespace Files.FileSystem

/-- A change along the line of a staging path keeps what is at a sibling of it: whether the
sibling exists, and that it is a directory when it was one. -/
theorem ChangedAlong.keepsSibling {a b : FileSystem} {d st name : String} (atDir : DirPrefix d)
    (plainName : PlainName name) (apart : st ≠ name)
    (along : ChangedAlong (a.absolute d ++ [st]) a b)
    (wasDir : a.pathExists (d ++ name) →
      ∃ cs, a.root.get (a.absolute d ++ [name]) = .ok (.dir cs)) :
    b.pathExists (d ++ name) = a.pathExists (d ++ name) ∧
      (b.pathExists (d ++ name) → ∃ cs, b.root.get (b.absolute d ++ [name]) = .ok (.dir cs)) := by
  have besideSibling : Beside (a.absolute d ++ [name]) (a.absolute d ++ [st]) :=
    Beside.sibling apart.symm
  have pathAt : a.absolute (d ++ name) = a.absolute d ++ [name] := resolve_dirPart _ atDir plainName
  have samePath : b.pathExists (d ++ name) = a.pathExists (d ++ name) := by
    refine along.pathExists_eq (dirPart_ne_empty plainName) ?_
    rw [pathAt]
    exact besideSibling
  refine ⟨samePath, fun present => ?_⟩
  rw [along.absolute d, along.beside _ besideSibling]
  exact wasDir (samePath ▸ present)

end Files.FileSystem

namespace Op

section Replacing

open Files Files.FileSystem

variable {d st name : String}

/-- A bundle moved into place from its staging directory next to the path. The path then holds
the staged directory, the staging name holds nothing, and so does the name the old bundle was
moved aside to, if there was one; every path beside these is as it was. -/
theorem replaceBundle_ok {s s' : Session} {W : List (String × Node)} (atDir : DirPrefix d)
    (plainStaging : PlainName st) (plainName : PlainName name) (apart : st ≠ name)
    (oldApart : siblingName name "old" s.processId s.saves ≠ st)
    (staged : s.files.root.get (s.files.absolute d ++ [st]) = .ok (.dir W))
    (bundleDir : s.files.pathExists (d ++ name) →
      ∃ cs, s.files.root.get (s.files.absolute d ++ [name]) = .ok (.dir cs))
    (ran : EStateM.run (replaceBundle (d ++ st) (d ++ name)) s = .ok () s') :
    let D := s.files.absolute d
    let old := siblingName name "old" s.processId s.saves
    s'.network = s.network ∧ s'.files.cwd = s.files.cwd ∧
      s'.files.root.get (D ++ [name]) = .ok (.dir W) ∧
      s'.files.root.get (D ++ [st]) = .error .notFound ∧
      (s.files.pathExists (d ++ name) → s'.files.root.get (D ++ [old]) = .error .notFound) ∧
      ∀ R, Beside R (D ++ [st]) → Beside R (D ++ [name]) →
        (s.files.pathExists (d ++ name) → Beside R (D ++ [old])) →
        s'.files.root.get R = s.files.root.get R := by
  intro D old
  have stagingAt : s.files.absolute (d ++ st) = D ++ [st] := resolve_dirPart _ atDir plainStaging
  have pathAt : s.files.absolute (d ++ name) = D ++ [name] := resolve_dirPart _ atDir plainName
  unfold replaceBundle at ran
  rw [EStateM.run_bind, run_get] at ran
  dsimp only at ran
  -- every handler of a failed move ends in an error
  have discardThenFail (p : String) (e : EngineError) (t : Session) :
      ∃ e' t', EStateM.run (do discardTree p; (throw e : Op Unit)) t = .error e' t' :=
    ⟨e, _, by rw [EStateM.run_bind, discardTree_run]; rfl⟩
  by_cases present : s.files.pathExists (d ++ name)
  · -- the old bundle is moved aside, the new one into place, and the old one removed
    have plainOld : PlainName old := plainName.siblingName (by decide) _ _
    have nameOld : name ≠ old := (siblingName_ne name "old" _ _).symm
    have oldAt : s.files.absolute (d ++ old) = D ++ [old] := resolve_dirPart _ atDir plainOld
    rw [if_neg (by simp [present]), EStateM.run_bind, siblingPath_run,
      withFileName_sibling atDir plainName] at ran
    dsimp only at ran
    rw [EStateM.run_bind] at ran
    split at ran
    next u t₁ asideRan =>
      have asideMoved := run_tryCatch_ok (fun e t => discardThenFail (d ++ st) e t) asideRan
      rw [changeFiles_run] at asideMoved
      split at asideMoved
      next fs₁ aside =>
        simp only [EStateM.Result.ok.injEq] at asideMoved
        obtain ⟨-, rfl⟩ := asideMoved
        obtain ⟨atOld₁, atPath₁, cwd₁, frame₁⟩ :=
          rename_within pathAt oldAt nameOld (dirPart_ne_empty plainName) aside
        have stagingAt₁ : fs₁.absolute (d ++ st) = D ++ [st] := by
          rw [← stagingAt]
          simp [absolute, cwd₁]
        have pathAt₁ : fs₁.absolute (d ++ name) = D ++ [name] := by
          rw [← pathAt]
          simp [absolute, cwd₁]
        rw [EStateM.run_bind] at ran
        split at ran
        next v t₂ placedRan =>
          have placedMoved := run_tryCatch_ok (fun e t => ?_) placedRan
          · rw [changeFiles_run] at placedMoved
            split at placedMoved
            next fs₂ placed =>
              simp only [EStateM.Result.ok.injEq] at placedMoved
              obtain ⟨-, rfl⟩ := placedMoved
              obtain ⟨atPath₂, atStaging₂, cwd₂, frame₂⟩ :=
                rename_within stagingAt₁ pathAt₁ apart (dirPart_ne_empty plainStaging) placed
              -- the old bundle, a directory, is where it was moved aside to, so it can be removed
              have oldAt₂ : fs₂.absolute (d ++ old) = D ++ [old] := by
                rw [← oldAt]
                simp [absolute, cwd₂, cwd₁]
              obtain ⟨cs, wasDir⟩ := bundleDir present
              have oldDir : fs₂.node (d ++ old) = .ok (.dir cs) := by
                rw [node_eq_get (dirPart_ne_empty plainOld), oldAt₂,
                  frame₂ _ (Beside.sibling oldApart) (Beside.sibling nameOld.symm), atOld₁, wasDir]
              obtain ⟨fs₃, removed⟩ := removeDirAll_of_dir oldAt₂ (dirPart_ne_empty plainOld) oldDir
              rw [discardTree_run, removed] at ran
              simp only [Except.toOption, Option.getD_some, EStateM.Result.ok.injEq] at ran
              obtain ⟨-, rfl⟩ := ran
              have removedAlong := alter_changedAlong removed
              rw [oldAt₂] at removedAlong
              refine ⟨rfl, removedAlong.cwd.trans (cwd₂.trans cwd₁), ?_, ?_,
                fun _ => removeDirAll_gone oldAt₂ removed, ?_⟩
              · rw [removedAlong.beside _ (Beside.sibling nameOld), atPath₂,
                  frame₁ _ (Beside.sibling apart) (Beside.sibling oldApart.symm), staged]
              · rw [removedAlong.beside _ (Beside.sibling oldApart.symm), atStaging₂]
              · intro R besideStaging besidePath besideOld
                rw [removedAlong.beside R (besideOld present), frame₂ R besideStaging besidePath,
                  frame₁ R besidePath (besideOld present)]
            next => cases placedMoved
          · -- putting the old bundle back, then failing
            rw [EStateM.run_bind, changeFiles_run]
            split
            next => exact discardThenFail (d ++ st) e _
            next e' _ => exact ⟨_, _, rfl⟩
        next => cases ran
      next => cases asideMoved
    next => cases ran
  · rw [if_pos (by simp [present])] at ran
    have moved := run_tryCatch_ok (fun e t => discardThenFail (d ++ st) e t) ran
    rw [changeFiles_run] at moved
    split at moved
    next fs' movedFiles =>
      simp only [EStateM.Result.ok.injEq] at moved
      obtain ⟨-, rfl⟩ := moved
      obtain ⟨atPath, atStaging, cwd, frame⟩ := rename_within stagingAt pathAt apart
        (dirPart_ne_empty plainStaging) movedFiles
      exact ⟨rfl, cwd, atPath.trans staged, atStaging, fun existed => absurd existed present,
        fun R besideStaging besidePath _ => frame R besideStaging besidePath⟩
    next => cases moved

end Replacing

section Saving

open Files Files.FileSystem

/-- The last step of a save: a network set up is marked saved. -/
def markSaved : Op Unit := do
  match (← network).state with
  | .initialized | .ready => setState .serialized
  | _ => pure ()

/-- A save from the making of its staging directory on: make it, write the bundle into it, move
it into place, and mark the network saved. -/
def writeAndReplace (staging path label : String) : Op Unit := do
  changeFiles fun fs => fs.createDirAll staging
  tryCatch (writeBundle staging label) fun e => do
    discardTree staging
    throw e
  replaceBundle staging path
  markSaved

/-- What a save does once the path and the label are accepted: name a staging directory next to
the path, clear it of what a save of the same name left, and go on from there. -/
def stageAndReplace (path label : String) : Op Unit := do
  let staging ← siblingPath path "tmp"
  if (← get).files.pathExists staging then changeFiles fun fs => fs.removeDirAll staging
  writeAndReplace staging path label

/-- What a save checks before it changes anything: the path ends in the bundle extension, the
label is not empty and has neither `/` nor `\`, and the path, if it exists, holds a bundle. -/
structure SaveAccepted (s : Session) (path label : String) : Prop where
  extension : path.endsWith s.host.config.network.bundleExtension = true
  labelled : label ≠ ""
  noSlash : '/' ∉ label.toList
  noBackslash : '\\' ∉ label.toList
  target : s.files.pathExists path = true → s.files.holdsBundle path = true

/-- A save its checks refuse fails at once and changes nothing. -/
theorem saveWithLabel_refused {path label : String} {s : Session}
    (refused : ¬SaveAccepted s path label) :
    ∃ e, EStateM.run (saveWithLabel path label) s = .error e s := by
  unfold saveWithLabel
  rw [EStateM.run_bind, run_get]
  dsimp only
  split
  next wrongExtension => exact ⟨_, by rw [EStateM.run_bind]; rfl⟩
  next rightExtension =>
    split
    next badLabel => exact ⟨_, by rw [EStateM.run_bind]; rfl⟩
    next goodLabel =>
      rw [EStateM.run_bind, run_get]
      dsimp only
      split
      next notBundle => exact ⟨_, by rw [EStateM.run_bind]; rfl⟩
      next target =>
        -- every check passed, so the save was accepted after all
        simp only [Bool.or_eq_true, String.isEmpty_iff, String.contains_char_eq,
          decide_eq_true_eq, not_or] at goodLabel
        simp only [Bool.and_eq_true, Bool.not_eq_true', not_and, Bool.not_eq_false] at target
        exact absurd ⟨by simpa using rightExtension, goodLabel.1.1, goodLabel.1.2, goodLabel.2,
          target⟩ refused

/-- A save its checks accept goes on to stage the bundle. -/
theorem saveWithLabel_accepted {path label : String} {s : Session}
    (accepted : SaveAccepted s path label) :
    EStateM.run (saveWithLabel path label) s = EStateM.run (stageAndReplace path label) s := by
  unfold saveWithLabel
  rw [EStateM.run_bind, run_get]
  dsimp only
  rw [if_neg (by simp [accepted.extension]),
    if_neg (by simp [String.contains_char_eq, accepted.labelled, accepted.noSlash,
      accepted.noBackslash])]
  rw [EStateM.run_bind, run_get]
  dsimp only
  rw [if_neg (by simpa using accepted.target)]
  rfl

/-- Marking a saved network changes only its state. -/
theorem markSaved_run (t : Session) :
    EStateM.run markSaved t =
      .ok () { t with network := { t.network with state := t.network.state.afterSave } } := by
  unfold markSaved
  rw [EStateM.run_bind, network_run]
  dsimp only
  split
  next initialized => simp [initialized, NetworkState.afterSave, setState, modifyNetwork]
  next ready => simp [ready, NetworkState.afterSave, setState, modifyNetwork]
  next other =>
    -- any other state is kept as it is
    have kept : t.network.state.afterSave = t.network.state := by
      cases state : t.network.state <;> simp_all [NetworkState.afterSave]
    rw [kept]
    rfl

/-- From the making of the staging directory on, for a staging name and a path name that are
plain and differ, when the staging name is free. A failure is an I/O error, or a region's streams
could not be had: then only the staging line changed and the staging directory is gone. On
success the path holds the bundle, nothing is left under the staging name or the name the old
bundle was moved aside to, everything beside these is as it was, and the network is marked
saved. -/
theorem writeAndReplace_outcome {t : Session} {d st name label : String} (atDir : DirPrefix d)
    (plainStaging : PlainName st) (plainName : PlainName name) (apart : st ≠ name)
    (oldApart : siblingName name "old" t.processId t.saves ≠ st)
    (labelled : label ≠ "") (labelPlain : '/' ∉ label.toList)
    (regionNames : ∀ r ∈ t.network.regions.items, '/' ∉ r.name.toList)
    (free : ∃ e, t.files.root.get (t.files.absolute d ++ [st]) = .error e)
    (bundleDir : t.files.pathExists (d ++ name) →
      ∃ cs, t.files.root.get (t.files.absolute d ++ [name]) = .ok (.dir cs)) :
    let D := t.files.absolute d
    let old := siblingName name "old" t.processId t.saves
    match EStateM.run (writeAndReplace (d ++ st) (d ++ name) label) t with
    | .error e t' => (∃ m, e = .io m) ∨ StagingDiscarded t t' D st
    | .ok _ t' => BundleInstalled t t' D label name st old (t.files.pathExists (d ++ name)) := by
  intro D old
  have stagingAt : t.files.absolute (d ++ st) = D ++ [st] := resolve_dirPart _ atDir plainStaging
  obtain ⟨e₀, missing⟩ := free
  unfold writeAndReplace
  rw [EStateM.run_bind, changeFiles_run]
  cases made : t.files.createDirAll (d ++ st) with
  | error e => exact .inl ⟨_, rfl⟩
  | ok fs₃ =>
    dsimp only
    -- the staging directory is there, empty, and nothing beside its line changed
    have madeAlong := createDirAll_changedAlong made
    have empty := createDirAll_of_missing made (stagingAt ▸ missing)
    rw [stagingAt] at madeAlong empty
    have leads : LeadsTo fs₃.cwd (d ++ st) (D ++ [st]) := by
      rw [madeAlong.cwd, ← stagingAt]
      exact leadsTo_dirPart _ atDir plainStaging
    rw [EStateM.run_bind, run_tryCatch]
    cases written : EStateM.run (writeBundle (d ++ st) label) { t with files := fs₃ } with
    | error e t₄ =>
      -- what the failed write leaves is discarded with the staging directory
      obtain ⟨fs₄, cs₄, atStaging₄, along₄, left⟩ :=
        @writeBundle_leaves_dir (d ++ st) label (D ++ [st]) { t with files := fs₃ } labelled
          labelPlain regionNames leads _ empty
      have leftBehind : t₄ = { t with files := fs₄ } := by
        rw [← left]
        unfold leaves
        rw [written]
      subst leftBehind
      have stagingAt₄ : fs₄.absolute (d ++ st) = D ++ [st] := by
        rw [along₄.absolute, madeAlong.absolute, stagingAt]
      have stagingDir : fs₄.node (d ++ st) = .ok (.dir cs₄) := by
        rw [node_eq_get (dirPart_ne_empty plainStaging), stagingAt₄, atStaging₄]
      obtain ⟨fs₅, removed⟩ :=
        removeDirAll_of_dir stagingAt₄ (dirPart_ne_empty plainStaging) stagingDir
      have removedAlong := alter_changedAlong removed
      rw [stagingAt₄] at removedAlong
      have discarded : EStateM.run (do discardTree (d ++ st); (throw e : Op Unit))
          { t with files := fs₄ } = .error e { t with files := fs₅ } := by
        rw [EStateM.run_bind, discardTree_run, removed]
        rfl
      dsimp only
      rw [discarded]
      exact .inr ⟨rfl, madeAlong.trans (along₄.trans removedAlong),
        removeDirAll_gone stagingAt₄ removed⟩
    | ok u t₄ =>
      obtain ⟨files, fs₄, listed, atStaging₄, along₄, rfl⟩ :=
        @writeBundle_into (d ++ st) label (D ++ [st]) { t with files := fs₃ } _ labelled labelPlain
          regionNames leads empty written
      have along := madeAlong.trans along₄
      have dirAt : fs₄.absolute d = D := along.absolute d
      -- the target is as it was, so it still exists only as a directory
      obtain ⟨samePath, bundleDir₄⟩ := along.keepsSibling atDir plainName apart bundleDir
      dsimp only
      rw [EStateM.run_bind]
      cases replaced : EStateM.run (replaceBundle (d ++ st) (d ++ name)) { t with files := fs₄ } with
      | error e t₅ => exact .inl (replaceBundle_raisesIo _ _ _ _ _ replaced)
      | ok v t₅ =>
        have staged : fs₄.root.get (fs₄.absolute d ++ [st]) = .ok (.dir (Node.withFiles [] files)) := by
          rw [dirAt, atStaging₄]
        obtain ⟨network₅, -, atPath₅, atStaging₅, atOld₅, frame₅⟩ :=
          @replaceBundle_ok d st name { t with files := fs₄ } t₅ _ atDir plainStaging plainName apart
            oldApart staged bundleDir₄ replaced
        rw [dirAt] at atPath₅ atStaging₅ atOld₅ frame₅
        dsimp only
        rw [markSaved_run]
        dsimp only
        refine ⟨⟨files, listed, atPath₅⟩, atStaging₅, fun present => atOld₅ (samePath ▸ present),
          fun R besideStaging besidePath besideOld => ?_, by rw [network₅]⟩
        rw [frame₅ R besideStaging besidePath (fun present => besideOld (samePath ▸ present))]
        exact along.beside R besideStaging

/-- From the naming of the staging directory on, for a path name that is plain: a staging
directory left by an earlier save under the same name is removed first, and then the save has
the outcomes `writeAndReplace_outcome` gives, measured from the session before. -/
theorem stageAndReplace_outcome {s : Session} {d name label : String} (atDir : DirPrefix d)
    (plainName : PlainName name) (labelled : label ≠ "") (labelPlain : '/' ∉ label.toList)
    (regionNames : ∀ r ∈ s.network.regions.items, '/' ∉ r.name.toList)
    (bundleDir : s.files.pathExists (d ++ name) →
      ∃ cs, s.files.root.get (s.files.absolute d ++ [name]) = .ok (.dir cs)) :
    let D := s.files.absolute d
    let st := siblingName name "tmp" s.processId s.saves
    let old := siblingName name "old" s.processId (s.saves + 1)
    match EStateM.run (stageAndReplace (d ++ name) label) s with
    | .error e s' => (∃ m, e = .io m) ∨ StagingDiscarded s s' D st
    | .ok _ s' => BundleInstalled s s' D label name st old (s.files.pathExists (d ++ name)) := by
  intro D st old
  have plainStaging : PlainName st := plainName.siblingName (by decide) _ _
  have apart : st ≠ name := siblingName_ne name "tmp" _ _
  have oldApart : old ≠ st := (siblingName_tmp_ne_old name _ _ _ _).symm
  have stagingAt : s.files.absolute (d ++ st) = D ++ [st] := resolve_dirPart _ atDir plainStaging
  unfold stageAndReplace
  rw [EStateM.run_bind, siblingPath_run, withFileName_sibling atDir plainName]
  dsimp only
  rw [EStateM.run_bind, run_get]
  dsimp only
  -- the rest runs from the session with the count moved on and a stale staging directory cleared
  have rest : ∀ fs₂, ChangedAlong (D ++ [st]) s.files fs₂ →
      (∃ e, fs₂.root.get (D ++ [st]) = .error e) →
      match EStateM.run (writeAndReplace (d ++ st) (d ++ name) label)
          { s with saves := s.saves + 1, files := fs₂ } with
      | .error e s' => (∃ m, e = .io m) ∨ StagingDiscarded s s' D st
      | .ok _ s' => BundleInstalled s s' D label name st old (s.files.pathExists (d ++ name)) := by
    intro fs₂ along free
    have dirAt : fs₂.absolute d = D := along.absolute d
    obtain ⟨samePath, bundleDir₂⟩ := along.keepsSibling atDir plainName apart bundleDir
    have outcome := @writeAndReplace_outcome { s with saves := s.saves + 1, files := fs₂ } d st name
      label atDir plainStaging plainName apart oldApart labelled labelPlain regionNames
      (by rw [dirAt]; exact free) bundleDir₂
    revert outcome
    dsimp only
    rw [dirAt, samePath]
    split
    next => exact fun outcome => outcome.imp id fun discarded => discarded.after_change along rfl
    next => exact fun outcome => outcome.after_change along rfl
  by_cases stale : s.files.pathExists (d ++ st) = true
  · rw [if_pos stale, EStateM.run_bind, changeFiles_run]
    dsimp only
    cases cleared : s.files.removeDirAll (d ++ st) with
    | error e => exact .inl ⟨_, rfl⟩
    | ok fs₂ =>
      have along := alter_changedAlong cleared
      rw [stagingAt] at along
      exact rest fs₂ along ⟨_, removeDirAll_gone stagingAt cleared⟩
  · rw [if_neg stale]
    have missing := get_of_not_pathExists (dirPart_ne_empty plainStaging) stale
    rw [stagingAt] at missing
    exact rest s.files (ChangedAlong.refl _ _) missing

/-- A save of a bundle named `name` in a directory `d`, of a network whose regions are named
without `/`. It is refused and changes nothing; or it fails on an I/O error; or it fails once
staged, having changed nothing beside the line of directories down to its staging path, where
nothing is left, and not the network; or it goes through, and the path holds exactly the bundle's
files, neither the staging name nor the name an old bundle was moved aside to is taken, nothing
else beside these changed, and the network is marked saved. A failure after staging may leave
directories made on the way to the staging path: only the staging directory is removed. -/
theorem save_installs_bundle_or_changes_only_staging (s : Session) {d name label : String}
    (atDir : DirPrefix d) (plainName : PlainName name)
    (regionNames : ∀ r ∈ s.network.regions.items, '/' ∉ r.name.toList) :
    let D := s.files.absolute d
    let st := siblingName name "tmp" s.processId s.saves
    let old := siblingName name "old" s.processId (s.saves + 1)
    match EStateM.run (saveWithLabel (d ++ name) label) s with
    | .error e s' => s' = s ∨ (∃ m, e = .io m) ∨ StagingDiscarded s s' D st
    | .ok _ s' => BundleInstalled s s' D label name st old (s.files.pathExists (d ++ name)) := by
  intro D st old
  by_cases accepted : SaveAccepted s (d ++ name) label
  · -- an old bundle at the path is a directory
    have bundleDir : s.files.pathExists (d ++ name) →
        ∃ cs, s.files.root.get (D ++ [name]) = .ok (.dir cs) := by
      intro present
      have pathAt : s.files.absolute (d ++ name) = D ++ [name] := resolve_dirPart _ atDir plainName
      have atPath := get_of_holdsBundle (dirPart_ne_empty plainName) (accepted.target present)
      rwa [pathAt] at atPath
    have outcome := stageAndReplace_outcome atDir plainName accepted.labelled accepted.noSlash
      regionNames bundleDir
    rw [saveWithLabel_accepted accepted]
    revert outcome
    split
    next => exact fun outcome => .inr outcome
    next => exact id
  · obtain ⟨e, refused⟩ := saveWithLabel_refused accepted
    rw [refused]
    exact .inl rfl

/-- Three saves to `sub/net.nta`, each with one of the outcomes above: of a network of one probe
region from an empty tree, which makes `sub` on the way and goes through; the same save again
over the bundle it left, which moves the old bundle aside and goes through; and of a network whose
one region cannot write its streams, which fails once staged. -/
theorem three_saves_outcome :
    let p : Region :=
      { name := "P", typeName := "ProbeRegion", spec := {}, impl := .probe .plain 0,
        inputs := .empty, outputs := .empty, dims := ⟨[]⟩, source := .unset }
    let u : Region := { p with name := "U", typeName := "Unwritable", impl := .probe .unwritable 0 }
    let s : Session :=
      { host := Host.new {}, files := {}, network := { id := 0, regions := ⟨[("P", p)]⟩ } }
    let s₂ := (saveWithLabel "sub/net.nta" "ck").leaves s
    let s₃ : Session := { s with network := { id := 0, regions := ⟨[("U", u)]⟩ } }
    s.files.pathExists "sub" = false ∧ s₂.files.pathExists "sub/net.nta" = true ∧
      (saveWithLabel "sub/net.nta" "ck").succeeds s₂ = true ∧
      (saveWithLabel "sub/net.nta" "ck").succeeds s₃ = false ∧
      ∀ t ∈ [s, s₂, s₃],
        match EStateM.run (saveWithLabel ("sub/" ++ "net.nta") "ck") t with
        | .error e t' => t' = t ∨ (∃ m, e = .io m) ∨
            StagingDiscarded t t' (t.files.absolute "sub/")
              (siblingName "net.nta" "tmp" t.processId t.saves)
        | .ok _ t' => BundleInstalled t t' (t.files.absolute "sub/") "ck" "net.nta"
            (siblingName "net.nta" "tmp" t.processId t.saves)
            (siblingName "net.nta" "old" t.processId (t.saves + 1))
            (t.files.pathExists ("sub/" ++ "net.nta")) := by
  intro p u s s₂ s₃
  have atDir : DirPrefix "sub/" := .inr (by decide)
  have plain : PlainName "net.nta" := ⟨by decide, by decide, by decide, by decide⟩
  -- the label check does not reduce in the kernel: each save is read as its accepted branch
  have acceptedS : SaveAccepted s "sub/net.nta" "ck" :=
    ⟨by decide +kernel, by decide, by decide, by decide, by decide⟩
  have left : s₂ = (stageAndReplace "sub/net.nta" "ck").leaves s := by
    simp only [s₂, leaves, saveWithLabel_accepted acceptedS]
  have acceptedS₂ : SaveAccepted s₂ "sub/net.nta" "ck" :=
    ⟨by rw [left]; decide +kernel, by decide, by decide, by decide, by rw [left]; decide +kernel⟩
  have acceptedS₃ : SaveAccepted s₃ "sub/net.nta" "ck" :=
    ⟨by decide +kernel, by decide, by decide, by decide, by decide +kernel⟩
  have names : ∀ t ∈ [s, s₂, s₃], ∀ r ∈ t.network.regions.items, '/' ∉ r.name.toList := by
    rw [left]
    decide +kernel
  refine ⟨by decide +kernel, by rw [left]; decide +kernel, ?_, ?_, fun t member => ?_⟩
  · unfold succeeds
    rw [saveWithLabel_accepted acceptedS₂, left]
    decide +kernel
  · unfold succeeds
    rw [saveWithLabel_accepted acceptedS₃]
    decide +kernel
  · exact save_installs_bundle_or_changes_only_staging t atDir plain (names t member)

/-- A save that fails once staged keeps the directories it made on the way there: saving
`sub/net.nta` from an empty tree, with a region whose streams cannot be written, fails and leaves
`sub` behind. -/
theorem failed_save_leaves_made_parent :
    let u : Region :=
      { name := "U", typeName := "Unwritable", spec := {}, impl := .probe .unwritable 0,
        inputs := .empty, outputs := .empty, dims := ⟨[]⟩, source := .unset }
    let s : Session :=
      { host := Host.new {}, files := {}, network := { id := 0, regions := ⟨[("U", u)]⟩ } }
    s.files.pathExists "sub" = false ∧
      (match EStateM.run (saveWithLabel "sub/net.nta" "ck") s with
        | .error _ s' => s'.files.pathExists "sub"
        | .ok _ _ => false) = true := by
  intro u s
  refine ⟨by decide, ?_⟩
  rw [saveWithLabel_accepted ⟨by decide +kernel, by decide, by decide, by decide, by decide⟩]
  decide +kernel

end Saving

end Op

end RegionNet

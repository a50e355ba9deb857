import Pagewright.Proofs.PublishedOutputs
import Pagewright.Proofs.SourceKept

/-!
# A verified run after a plain one

A plain refresh that succeeds leaves files or nothing at the three paths of its output, unless the
output was a directory before or the side file's path was made one. The same refresh with
verification then reads the same source, renders the same text and finds it at the output, so it
succeeds and changes nothing but the backup and the side file (`refresh_again_verified`).
-/

namespace Pagewright

open Text FileTree Replacing
open FileProgram (Ends ends_pure_iff run_bind_ok run_bind_error run_lift)

section CleanRerun

variable {shapes : ShapeTable} {options : RefreshOptions} {source output p q : Path}
  {doc : Document} {slots : PageSlots} {t t' t₁ : FileTree} {l : Location} {content : Bytes}
  {before : List String} {last text : String}

/-! ## Reading the source again -/

/-- The absolute form of a path leads where the path leads. -/
theorem destination_of_absolute? (hnames : ∀ n ∈ t.workingDirectory, IsPlainName n ∧ n ≠ "..")
    (h : p.absolute? (pathOf t.workingDirectory) = some q) : t.destination q = t.destination p := by
  have hne : p.text ≠ "" := by
    intro hempty
    simp [Path.absolute?, hempty] at h
  obtain ⟨q', hq', habsolute, hsteps⟩ := Path.exists_absolute? hne fun n hn => (hnames n hn).1
  obtain rfl := Option.some.inj (hq'.symm.trans h)
  have horigin : arrival [] (t.origin p) = t.origin p := by
    have hall : ∀ n ∈ t.origin p, n ≠ "." ∧ n ≠ ".." := by
      intro n hn
      rw [origin] at hn
      split at hn
      · cases hn
      · exact ⟨(hnames n hn).1.ne_here, (hnames n hn).2⟩
    rw [arrival_of_plain hall, List.nil_append]
  rw [destination, hsteps, origin, if_pos habsolute, route, arrival_append, horigin,
    arrival_movesOf]
  rfl

theorem read_of_keepsDirectories (hkeeps : KeepsDirectories t t') (hread : t.read p = .ok content)
    (hfile : t'.get? (t.destination p) = some (.file content)) : t'.read p = .ok content := by
  obtain ⟨hcheck, hslash, before, last, d, l, hsteps, hat⟩ := exists_atTarget hread
  have hl : t.destination p = l := by
    have hwalk : t.walk (t.origin p) (stepsOf p) = .ok l := by
      rw [hsteps.steps, walk_append_eq_ok_iff]
      exact ⟨d, hat.stands.walk, walk_singleton last ▸ hat.enter⟩
    exact (walk_eq_arrival hwalk).symm
  exact (hat.of_keepsDirectories hkeeps (hl ▸ hfile)).read_eq hsteps hcheck hslash

/-! ## Running the same pipeline again -/

theorem Document.LoadedFrom.load_run (h : Document.LoadedFrom shapes t p doc) :
    (Document.load shapes p).run.run t = (.ok doc, t) := by
  obtain @⟨path, content, text, _, habsolute, hread, hdecoded, hparsed⟩ := h
  have hpath : (absolutePath p).run t = (.ok path, t) := by
    unfold absolutePath
    rw [FileProgram.run_bind_eq, workingDirectory_run, habsolute]
    rfl
  have htext : (FileProgram.readText path).run t = (.ok text, t) := by
    have hrun : (FileProgram.read path).run t = (.ok content, t) := congrArg (·, t) hread
    unfold FileProgram.readText
    rw [FileProgram.run_bind_eq, hrun]
    simp only [hdecoded]
    rfl
  unfold Document.load
  rw [ExceptT.run_mk, FileProgram.run_bind_eq, hpath]
  simp only
  rw [FileProgram.run_bind_eq, htext]
  simp only [hparsed]
  rfl

/-- Scripts whose effects are a function complete in the same way with any files. -/
theorem Executor.runAll_of_completes {f : PendingScript → PageSlots → ScriptOutcome}
    {scripts : List PendingScript} {ps ps' : PageSlots}
    (h : (Executor.stateful fun script ps => return f script ps).Completes t () ps scripts ps') :
    Executor.runAll (fun script ps => return f script ps) ps scripts = pure (ps', .ok ()) := by
  generalize () = state at h
  induction h with
  | nil state ps => rfl
  | cons success after ih =>
    have hf := (Prod.mk.inj (ends_pure_iff.1 success).1).1
    rw [Executor.runAll_cons, pure_bind, ← hf]
    exact ih

section Run

variable {run : Executor} {verify : Bool} {r : Except ReplaceError Replaced}
  (hscripts : run.runAll doc.slots doc.scripts = pure (slots, .ok ()))
  (hreplace : (replaceFile output ((doc.withSlots slots).render options.mode) verify
    options.replace).run.run t = (r, t'))

include hscripts hreplace

theorem rendering_run : (do
      let (doc, result) ← (doc.runScripts run : FileProgram _)
      if let .error e := result then throw (.execution doc.path e)
      let replaced ← ExceptT.adapt RefreshError.write
        (replaceFile output (doc.render options.mode) verify options.replace)
      return doc.report replaced : Refreshing RefreshReport).run.run t =
    ((r.mapError .write).map doc.report, t') := by
  have hrun : (doc.runScripts run).run t = ((doc.withSlots slots, .ok ()), t) := by
    rw [Document.runScripts_eq, hscripts]
    rfl
  have hadapt := adapt_run RefreshError.write hreplace
  rw [run_bind_ok _ (run_lift _), hrun]
  cases r with
  | ok replaced =>
    simp only
    rw [run_bind_ok _ hadapt]
    rfl
  | error e => exact run_bind_error _ hadapt

/-- A refresh whose scripts succeed goes on to the replacement of its output. -/
theorem refresh_run (hloaded : Document.LoadedFrom shapes t source doc)
    (hallowed : options.mode = .published → t.guards doc output = false) :
    (refresh shapes run options source output verify).run.run t =
      ((r.mapError .write).map doc.report, t') := by
  unfold refresh refreshFrom
  rw [run_bind_ok _ hloaded.load_run]
  by_cases hmode : options.mode = .published
  · have hguard : (isPathOf doc output).run t = (false, t) := Prod.ext (hallowed hmode) rfl
    rw [if_pos hmode, run_bind_ok _ (run_lift _), hguard]
    exact rendering_run hscripts hreplace
  · rw [if_neg hmode]
    exact rendering_run hscripts hreplace

end Run

/-! ## What a plain replacement leaves -/

section Plain

variable {target : Path} {options : ReplaceOptions} {had : Bool} {tc : FileTree}
  (hplace : IsPlace target options before last)

include hplace

theorem IsPlace.destination_eq (t : FileTree) (i : Cell) : t.destination (i.path target options) =
    i.location options (arrival (t.origin target) before) last := by
  have hsteps := hplace.siblingSteps.sibling (i.suffix options) (hplace.suffix_slash i)
  rw [destination, Cell.path, hsteps, origin_sibling t hplace.siblingSteps.text_ne, arrival_append,
    arrival_cons, arrival_nil, stepTo_of_isName (hplace.name i)]
  rfl

theorem IsPlace.target_ne_backup (t : FileTree) :
    t.destination target ≠ t.destination (target.sibling options.backupSuffix) := by
  have htarget := hplace.destination_eq t .target
  have hbackup := hplace.destination_eq t .backup
  rw [Cell.path_target] at htarget
  rw [Cell.path_backup] at hbackup
  rw [htarget, hbackup]
  intro heq
  cases Cell.location_inj hplace.distinguishes heq

/-- The directory of a file that is written is there, with all that is on the way to it. -/
theorem IsPlace.stands_of_write (hwrite : tc.write target content = .ok t₁) :
    tc.Stands target before (arrival (tc.origin target) before) ∧
      ∀ m ∈ trail (tc.origin target) before, tc.get? m = some .directory := by
  obtain ⟨l, n, hnames, -, -⟩ := write_eq_ok_iff.1 hwrite
  obtain ⟨before', hsteps, hwalk⟩ := hnames.walk
  obtain ⟨rfl, -⟩ := List.append_inj' (hsteps.symm.trans hplace.steps) rfl
  obtain rfl := walk_eq_arrival hwalk
  exact ⟨⟨hwalk, hnames.directory⟩, (trail_of_walk hwalk hnames.directory).2⟩

/-- No directory is at the target when it is moved, unless there was one at first: one that is made
on the way to the target cannot be moved, or nothing may be written there. -/
theorem IsPlace.not_directory_of_moved {ta tb : FileTree}
    (hfree : t.get? (t.destination target) ≠ some .directory)
    (hancestors : Ends t (makeAncestors target).run (.ok ()) ta)
    (hcleared : ta.Clears (target.sibling options.backupSuffix) tb)
    (hrename : tb.rename target (target.sibling options.backupSuffix) = .ok tc)
    (hwrite : tc.write target content = .ok t₁) :
    tb.get? (tb.destination target) ≠ some .directory := by
  intro hdirectory
  have hgrows := grows_of_makeAncestors hancestors
  have hkeeps := hgrows.keepsDirectories.trans hcleared.keepsDirectories
  obtain ⟨hroot, hroot', hrenamed⟩ := rename_eq_renamed hrename
  have hne := hplace.target_ne_backup tb
  have hgone := (hrenamed.of_directory hroot hroot' hdirectory).2 hne
  have hstart : ta.destination (target.sibling options.backupSuffix) ≠ tb.destination target := by
    rw [← FileTree.destination_eq hcleared.keepsDirectories.workingDirectory]
    exact Ne.symm hne
  have hmade : ta.get? (tb.destination target) = some .directory :=
    (hcleared.get?_eq hstart).symm.trans hdirectory
  rw [FileTree.destination_eq hkeeps.workingDirectory] at hgone hmade
  rcases hgrows.kept_or_made (t.destination target) with hkept | ⟨hmem, -, -⟩
  · exact hfree (hkept.symm.trans hmade)
  · have horigin : tc.origin target = t.origin target := by
      rw [origin, origin, hrenamed.workingDirectory_eq, hkeeps.workingDirectory]
    rw [hplace.steps, List.dropLast_concat, ← horigin] at hmem
    rw [(hplace.stands_of_write hwrite).2 _ hmem] at hgone
    cases hgone

/-- All directories are kept, and none is at the backup, before the new content is written. -/
theorem IsPlace.keeps_of_makesRoom (hfree : t.get? (t.destination target) ≠ some .directory)
    (hroom : MakesRoom target (target.sibling options.backupSuffix) t had tc)
    (hwrite : tc.write target content = .ok t₁) : KeepsDirectories t tc ∧
      tc.get? (t.destination (target.sibling options.backupSuffix)) ≠ some .directory := by
  cases hroom with
  | absent ancestors nothing cleared =>
    have hkeeps := (grows_of_makeAncestors ancestors).keepsDirectories.trans
      cleared.keepsDirectories
    have hnames := (hplace.stands_of_write hwrite).1.names_sibling hplace.siblingSteps
      hplace.distinguishes.backup_slash (hplace.check .backup) (hplace.name .backup)
      (hplace.path_endsInSlash .backup)
    refine ⟨hkeeps, ?_⟩
    rw [← FileTree.destination_eq hkeeps.workingDirectory, hnames.destination_eq,
      hnames.get?_eq_none cleared.inspect_eq_none]
    nofun
  | @moved ta tb _ kind ancestors there cleared renamed =>
    have hkeeps := (grows_of_makeAncestors ancestors).keepsDirectories.trans
      cleared.keepsDirectories
    have hfile := hplace.not_directory_of_moved hfree ancestors cleared renamed hwrite
    obtain ⟨hroot, hroot', hrenamed⟩ := rename_eq_renamed renamed
    rw [← FileTree.destination_eq hkeeps.workingDirectory]
    cases hrenamed with
    | same here => exact absurd here (hplace.target_ne_backup tc)
    | file other moved free =>
      refine ⟨hkeeps.trans (.move hroot hroot' other hfile free _), ?_⟩
      rw [get?_insert hroot', if_pos rfl]
      nofun
    | directory moved => exact absurd moved hfile

/-- After a plain replacement the target holds the new content, and a file or nothing is at the
backup. -/
theorem IsPlace.after_replaced {replaced : Replaced}
    (hfree : t.get? (t.destination target) ≠ some .directory)
    (h : Ends t (replaceFile target text false options).run (.ok replaced) t₁) :
    KeepsDirectories t t₁ ∧ t₁.Stands target before (arrival (t₁.origin target) before) ∧
      t₁.get? (t₁.destination target) = some (.file (Utf8.encode text)) ∧
      t₁.get? (t₁.destination (target.sibling options.backupSuffix)) ≠ some .directory := by
  generalize hr : Except.ok replaced = r at h
  cases replaceFile_ends h with
  | written room plain wrote =>
    next tc =>
    obtain ⟨hkeeps, hbackup⟩ := hplace.keeps_of_makesRoom hfree room wrote
    obtain ⟨hroot, hfree', ht₁⟩ := write_eq_ok wrote
    have hwrite : KeepsDirectories tc t₁ := ht₁ ▸ .insert hroot (.inl hfree')
    have hget : ∀ l, t₁.get? l =
        if tc.destination target = l then some (.file (Utf8.encode text)) else tc.get? l :=
      fun l => ht₁ ▸ get?_insert hroot _
    refine ⟨hkeeps.trans hwrite, ?_, ?_, ?_⟩
    · rw [hwrite.origin_eq]
      exact (hplace.stands_of_write wrote).1.of_keepsDirectories hwrite
    · rw [FileTree.destination_eq hwrite.workingDirectory, hget, if_pos rfl]
    · rw [FileTree.destination_eq hwrite.workingDirectory, hget,
        if_neg (hplace.target_ne_backup tc), FileTree.destination_eq hkeeps.workingDirectory]
      exact hbackup
  | compared room verified => cases verified
  | _ => cases hr

/-- **The same replacement with verification** finds its own content and keeps it. -/
theorem IsPlace.replaceFile_again_run
    (hstands : t.Stands target before (arrival (t.origin target) before))
    (htarget : t.get? (t.destination target) = some (.file (Utf8.encode text)))
    (hfree : ∀ i : Cell, t.get? (t.destination (i.path target options)) ≠ some .directory) : ∃ t',
    (replaceFile target text true options).run.run t =
        (.ok { target, backup := some (target.sibling options.backupSuffix), verified := true },
          t') ∧
      t'.workingDirectory = t.workingDirectory ∧
      (∀ l, (∀ i : Cell, l ≠ t.destination (i.path target options)) → t'.get? l = t.get? l) ∧
      t'.read target = .ok (Utf8.encode text) ∧
      t'.read (target.sibling options.backupSuffix) = .ok (Utf8.encode text) ∧
      t'.inspect (target.sibling options.newSuffix) = none := by
  obtain ⟨hnames, htrail⟩ := trail_of_walk hstands.walk hstands.directory
  have hlocation := hplace.destination_eq t
  let cells := t.cells options (arrival (t.origin target) before) last
  have hshows : Shows t options (arrival (t.origin target) before) last cells t := by
    refine ⟨.refl t, fun i => ?_, fun _ _ => rfl⟩
    rw [← content?_map (hlocation i ▸ hfree i)]
    cases i <;> rfl
  have hcell : cells.target = some (Utf8.encode text) := by
    have htarget' := hlocation .target
    rw [Cell.path_target] at htarget'
    rw [htarget'] at htarget
    simp only [cells, FileTree.cells, content?, htarget]
  have hnext : cells.next ⟨text, true⟩ =
      ⟨some (Utf8.encode text), some (Utf8.encode text), none⟩ := by
    simp [Cells.next, hcell]
  obtain ⟨t', hrun, hshows'⟩ := replaceFile_run hplace hstands hnames htrail hshows ⟨text, true⟩
  rw [hnext] at hshows'
  refine ⟨t', ?_, hshows'.keeps.workingDirectory, fun l hl => ?_, ?_, ?_, ?_⟩
  · simpa [Cells.answer, hcell, Cells.verdict] using hrun
  · exact hshows'.other l fun i => hlocation i ▸ hl i
  · simpa using (hshows'.read_eq_ok_iff hplace hstands .target).2 rfl
  · exact (hshows'.read_eq_ok_iff hplace hstands .backup).2 rfl
  · exact hshows'.inspect_eq hplace hstands .side

end Plain

/-! ## Two refreshes -/

theorem guards_eq (h : t'.workingDirectory = t.workingDirectory) :
    t'.guards doc p = t.guards doc p := by
  unfold FileTree.guards isPathOf
  rw [FileProgram.run_bind_eq, FileProgram.run_bind_eq, workingDirectory_run, workingDirectory_run,
    h]
  rfl

/-- The source of a plain refresh is there afterwards, and the same document is read from it. -/
theorem Document.LoadedFrom.kept {r : Except ReplaceError Replaced} {options : ReplaceOptions}
    (hloaded : Document.LoadedFrom shapes t source doc) (hwf : t.WF)
    (hnames : ∀ n ∈ t.workingDirectory, IsPlainName n ∧ n ≠ "..")
    (hsource : ∀ i : Cell, t.destination source ≠ t.destination (i.path output options))
    (hfree : t.get? (t.destination output) ≠ some .directory) (hkeeps : KeepsDirectories t t₁)
    (hreplace : Ends t (replaceFile output text false options).run r t₁) :
    ∃ page, t₁.get? (t₁.destination source) = some (.file page) ∧
      Document.LoadedFrom shapes t₁ source doc := by
  obtain @⟨path, page, _, _, habsolute, hread, hdecoded, hparsed⟩ := hloaded
  have hpath := destination_of_absolute? hnames habsolute
  have hpage : t.get? (t.destination source) = some (.file page) := hpath ▸ get?_of_read hread
  have hfile := hwf.holdsFile hpage
  have htarget := hsource .target
  rw [Cell.path_target] at htarget
  have hspares : Spares t output options false (t.destination source) :=
    ⟨hfile.not_above hfree (Ne.symm htarget), Ne.symm (hsource .backup), nofun⟩
  have hkept := (stillHolds_of_replaceFile hfile hspares hreplace).file.file
  refine ⟨page, (destination_eq hkeeps.workingDirectory source).symm ▸ hkept, ?_, ?_, hdecoded,
    hparsed⟩
  · rw [hkeeps.workingDirectory]
    exact habsolute
  · exact read_of_keepsDirectories hkeeps hread (hpath.symm ▸ hkept)

/-- **A verified refresh right after a plain one** succeeds as verified, when the scripts' effects
are a function of the script and the slots, the source is none of the three files of the output, and
no directory was at the output before or is at the side file's path afterwards. The source and the
output stay as they were, the backup has the content of the output, and there is no side file. -/
theorem refresh_again_verified {f : PendingScript → PageSlots → ScriptOutcome}
    {report : RefreshReport} (hwf : t.WF)
    (hnames : ∀ n ∈ t.workingDirectory, IsPlainName n ∧ n ≠ "..")
    (hplace : IsPlace output options.replace before last)
    (hsource : ∀ i : Cell, t.destination source ≠ t.destination (i.path output options.replace))
    (hfree : t.get? (t.destination output) ≠ some .directory)
    (hrun : (refresh shapes (fun script ps => return f script ps) options source output
      false).run.run t = (.ok report, t₁))
    (hside : t₁.get? (t₁.destination (output.sibling options.replace.newSuffix)) ≠
      some .directory) : ∃ report' t₂,
    (refresh shapes (fun script ps => return f script ps) options source output true).run.run t₁ =
        (.ok report', t₂) ∧
      report'.verified = true ∧
      (∃ page, t₁.get? (t₁.destination source) = some (.file page) ∧
        t₂.get? (t₂.destination source) = some (.file page)) ∧
      ∃ content, t₁.read output = .ok content ∧ t₂.read output = .ok content ∧
        t₂.read (output.sibling options.replace.backupSuffix) = .ok content ∧
        t₂.inspect (output.sibling options.replace.newSuffix) = none := by
  have hpure : (Executor.stateful fun script ps => return f script ps).TouchesNoFile :=
    Executor.touchesNoFile_pure fun _ script ps => (f script ps, ())
  generalize hr : Except.ok report = r at hrun
  cases refresh_ends hpure (FileProgram.ends_of_run hrun) with
  | @replaced doc slots r' _ loaded allowed completes ending =>
    cases r' with
    | error e => cases hr
    | ok replaced =>
      obtain ⟨hkeeps, hstands, htarget, hbackup⟩ := hplace.after_replaced hfree ending
      obtain ⟨page, hkept, hloaded⟩ := loaded.kept hwf hnames hsource hfree hkeeps ending
      have hallowed : options.mode = .published → t₁.guards doc output = false := fun hmode =>
        (guards_eq hkeeps.workingDirectory).trans (allowed hmode)
      have hfree₁ : ∀ i : Cell,
          t₁.get? (t₁.destination (i.path output options.replace)) ≠ some .directory := by
        intro i
        cases i with
        | target =>
          rw [Cell.path_target, htarget]
          nofun
        | backup => exact hbackup
        | side => exact hside
      obtain ⟨t₂, hreplace, hstart, hother, hnew, hold, hgone⟩ :=
        hplace.replaceFile_again_run hstands htarget hfree₁
      have hsource₂ : t₂.get? (t₂.destination source) = t₁.get? (t₁.destination source) := by
        rw [destination_eq hstart]
        refine hother _ fun i => ?_
        rw [destination_eq hkeeps.workingDirectory, destination_eq hkeeps.workingDirectory]
        exact hsource i
      exact ⟨_, t₂, refresh_run (Executor.runAll_of_completes completes) hreplace hloaded hallowed,
        rfl, ⟨page, hkept, hsource₂.trans hkept⟩, _,
        (replaceFile_ends ending).read_eq rfl hplace.distinguishes, hnew, hold, hgone⟩
  | _ => cases hr

/-- A page with a script, into a directory that the first refresh makes. -/
theorem refresh_again_verified_new_directory :
    let text := "<!-- [script\n\x7b\"title\": \"New\"\x7d\nscript] -->\n<!-- [title] -->\n"
    let t : FileTree :=
      ⟨(∅ : Std.ExtTreeMap Location Entry).insert ["s"] (.file (Utf8.encode text)), []⟩
    let t₁ := ((refresh .standard .updates {} ⟨"s"⟩ ⟨"d/o"⟩ false).run.run t).2
    ∃ report' t₂, (refresh .standard .updates {} ⟨"s"⟩ ⟨"d/o"⟩ true).run.run t₁ =
        (.ok report', t₂) ∧
      report'.verified = true ∧
      (∃ page, t₁.get? (t₁.destination ⟨"s"⟩) = some (.file page) ∧
        t₂.get? (t₂.destination ⟨"s"⟩) = some (.file page)) ∧
      ∃ content, t₁.read ⟨"d/o"⟩ = .ok content ∧ t₂.read ⟨"d/o"⟩ = .ok content ∧
        t₂.read ((⟨"d/o"⟩ : Path).sibling "~") = .ok content ∧
        t₂.inspect ((⟨"d/o"⟩ : Path).sibling ".new") = none := by
  intro text t t₁
  have hwf : t.WF := .of_keys (by decide +kernel)
  have hplace : IsPlace ⟨"d/o"⟩ {} ["d"] "o" := by
    refine ⟨.standard, by decide, by decide, fun i => ?_, fun i => ?_⟩
    · cases i <;> rfl
    · cases i <;> exact ⟨by decide, by decide, by decide⟩
  have hsource : ∀ i : Cell,
      t.destination ⟨"s"⟩ ≠ t.destination (i.path ⟨"d/o"⟩ ({} : ReplaceOptions)) := by
    intro i
    cases i <;> decide
  have htest : (((refresh .standard .updates {} ⟨"s"⟩ ⟨"d/o"⟩ false).run.run t).1.toOption.any
      fun _ => true) = true := by decide +kernel
  obtain ⟨report, hreport, -⟩ := exists_ok_of_any htest
  have hfree : t.get? (t.destination ⟨"d/o"⟩) ≠ some .directory := by decide +kernel
  have hside : t₁.get? (t₁.destination ((⟨"d/o"⟩ : Path).sibling ".new")) ≠ some .directory := by
    decide +kernel
  have hrun : (refresh .standard .updates {} ⟨"s"⟩ ⟨"d/o"⟩ false).run.run t = (.ok report, t₁) := by
    rw [← hreport]
  exact refresh_again_verified (f := fun script ps => ps.updateFrom script.source) hwf nofun hplace
    hsource hfree hrun hside

end CleanRerun

/-- A plain refresh of a standard page succeeds, and the verified one right after it fails. -/
structure FailsAgain (t : FileTree) (source output : Path) (before : List String) (last : String) :
    Prop where
  wf : t.WF
  place : IsPlace output {} before last
  other : ∀ i : Cell, t.destination source ≠ t.destination (i.path output {})
  side : t.get? (t.destination (Cell.side.path output {})) ≠ some .directory
  first : ((refresh .standard .none {} source output false).run.run t).1.isOk = true
  second : ((refresh .standard .none {} source output true).run.run
    ((refresh .standard .none {} source output false).run.run t).2).1.isOk = false

/-- The verified refresh fails when the output was a directory, which is its backup then, and when
the side file's path is made a directory on the way to the output. -/
theorem failsAgain_examples :
    let page := Entry.file (Utf8.encode "Hello\n")
    FailsAgain ⟨.ofList [(["s"], page), (["d"], .directory)], []⟩ ⟨"s"⟩ ⟨"d"⟩ [] "d" ∧
      FailsAgain ⟨.ofList [(["s"], page)], []⟩ ⟨"s"⟩ ⟨"o.new/../o"⟩ ["o.new", ".."] "o" := by
  have hplace : IsPlace ⟨"d"⟩ {} [] "d" := by
    refine ⟨.standard, by decide, by decide, fun i => ?_, fun i => ?_⟩
    · cases i <;> rfl
    · cases i <;> exact ⟨by decide, by decide, by decide⟩
  have hplace' : IsPlace ⟨"o.new/../o"⟩ {} ["o.new", ".."] "o" := by
    refine ⟨.standard, by decide, by decide, fun i => ?_, fun i => ?_⟩
    · cases i <;> rfl
    · cases i <;> exact ⟨by decide, by decide, by decide⟩
  refine ⟨⟨.of_keys ?_, hplace, fun i => ?_, ?_, ?_, ?_⟩,
    ⟨.of_keys ?_, hplace', fun i => ?_, ?_, ?_, ?_⟩⟩
  case' refine_2 | refine_7 => cases i
  all_goals decide +kernel

end Pagewright

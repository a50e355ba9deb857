import Pagewright.Proofs.Growth
import Pagewright.Proofs.Places

/-!
# Writing again after a failure

When a write breaks off, the target may be gone and its only version at the backup. A replacement
that is tried then takes the backup for an older one and removes it before it writes. So it fails
with the backup untouched or, when the write fails again, without it (`replaceFile_retry`).
-/

namespace Pagewright

open Text FileTree Replacing
open FileProgram (Ends ends_run_pure)

section Retries

variable {t t' : FileTree} {target p : Path} {options : ReplaceOptions}
  {content : Bytes} {suffix : String} {l : Location}

/-! ## An absent path with a sibling -/

theorem inspect_of_walk (hcheck : checkPath p = .ok ())
    (hwalk : t.walk (t.origin p) (stepsOf p) = .ok l) (hl : t.get? l = some .directory) :
    t.inspect p = some .directory := by
  simp [inspect, resolve, hcheck, hwalk, hl, Entry.kind]

theorem stepsOf_sibling_of_endsInSlash (hends : target.endsInSlash = true) (hne : suffix ≠ "")
    (hslash : '/' ∉ suffix.toList) :
    stepsOf (target.sibling suffix) = stepsOf target ++ [suffix] := by
  obtain ⟨front, hfront⟩ : ∃ front, target.text.toList = front ++ ['/'] := by
    rw [Path.endsInSlash, beq_iff_eq] at hends
    exact List.getLast?_eq_some_iff.1 hends
  have hsuffix : segments suffix.toList = [suffix] := by
    rw [segments_of_not_mem (fun h => hne (String.toList_eq_nil_iff.1 h)) hslash,
      String.ofList_toList]
  rw [stepsOf_eq_segments, stepsOf_eq_segments, Path.toList_text_sibling, hfront, List.append_assoc,
    List.singleton_append, segments_append_slash, segments_append_slash, segments_nil,
    List.append_nil, hsuffix]

/-- A path at which there is nothing names its last step in the directory where a sibling of it is a
file. -/
theorem exists_names_of_sibling (hwf : t.WF) (htext : target.text ≠ "")
    (habsent : t.inspect target = none) (hsibling : t.read (target.sibling suffix) = .ok content)
    (hne : suffix ≠ "") (hslash : '/' ∉ suffix.toList) : ∃ before last d,
      SiblingSteps target before last ∧ t.Stands target before d ∧ t.Names target d last := by
  obtain ⟨x, hx, -⟩ := hwf.read_eq_ok_iff.1 hsibling
  obtain ⟨d, n, hnames, -, -⟩ := place?_eq_some_iff.1 hx
  obtain ⟨before, hsteps, hwalk⟩ := hnames.walk
  rw [origin_sibling t htext] at hwalk
  have hd := hnames.directory
  have hcheck : checkPath target = .ok () :=
    (checkPath_of_append (Path.toList_text_sibling target suffix) hnames.check).resolve_left htext
  have habsent' : ∀ {l}, t.walk (t.origin target) (stepsOf target) = .ok l →
      t.get? l ≠ some .directory := fun hwalk hl =>
    absurd ((inspect_of_walk hcheck hwalk hl).symm.trans habsent) nofun
  cases hends : target.endsInSlash with
  | true =>
    rw [stepsOf_sibling_of_endsInSlash hends hne hslash] at hsteps
    obtain ⟨rfl, -⟩ := List.append_inj' hsteps rfl
    exact absurd hd (habsent' hwalk)
  | false =>
    obtain ⟨before', last, hsteps'⟩ := exists_siblingSteps htext hends
    rw [hsteps'.sibling suffix hslash] at hsteps
    obtain ⟨rfl, hlast⟩ := List.append_inj' hsteps rfl
    obtain rfl := List.singleton_inj.1 hlast
    have hstay : ∀ {l}, t.enter d last = .ok l → t.get? l ≠ some .directory := by
      intro l henter
      refine habsent' ?_
      rw [hsteps'.steps, walk_append_eq_ok_iff]
      exact ⟨d, hwalk, walk_singleton last ▸ henter⟩
    have hname : IsName last := by
      refine ⟨?_, ?_, ?_⟩
      · rintro rfl
        exact hstay (enter_eq_ok_iff.2 ⟨hd, .inl ⟨rfl, rfl⟩⟩) hd
      · rintro rfl
        exact hstay (enter_eq_ok_iff.2 ⟨hd, .inr (.inl ⟨rfl, rfl⟩)⟩) (hwf.get?_dropLast hd)
      · have hshort := hnames.isName.short
        rw [String.utf8ByteSize_append] at hshort
        omega
    exact ⟨before', last, d, hsteps', ⟨hwalk, hd⟩,
      hcheck, ⟨before', hsteps'.steps, hwalk⟩, hd, hname, hends⟩

/-! ## What a replacement does then -/

section Absent

variable (hwf : t.WF) (habsent : t.inspect target = none)
  (hbackup : t.read (target.sibling options.backupSuffix) = .ok content)
  (hoptions : options.Distinguishes)

include hwf habsent hbackup hoptions

theorem ends_makeAncestors_of_absent {r : Except ReplaceError Unit}
    (h : Ends t (makeAncestors target).run r t') : r = .ok () ∧ t' = t := by
  by_cases htext : target.text = ""
  · obtain rfl : target = ⟨""⟩ := congrArg Path.mk htext
    exact ends_run_pure h
  · obtain ⟨before, last, d, hsteps, hstands, hnames⟩ := exists_names_of_sibling hwf htext habsent
      hbackup hoptions.backup_ne hoptions.backup_slash
    obtain ⟨hbefore, htrail⟩ := trail_of_walk hstands.walk hstands.directory
    exact ends_makeAncestors_of_trail hsteps.steps hnames.isName.ne_here hnames.check hbefore
      htrail h

/-- Before it writes, a replacement of an absent target does nothing but remove the backup. -/
theorem makesRoom_of_absent {had : Bool}
    (hroom : MakesRoom target (target.sibling options.backupSuffix) t had t') :
    had = false ∧ t.remove (target.sibling options.backupSuffix) = .ok t' := by
  cases hroom with
  | absent ancestors nothing cleared =>
    obtain ⟨-, rfl⟩ := ends_makeAncestors_of_absent hwf habsent hbackup hoptions ancestors
    rcases cleared with ⟨hnone, -⟩ | hremove
    · rw [inspect_of_read hbackup] at hnone
      cases hnone
    · exact ⟨rfl, hremove⟩
  | moved ancestors there cleared renamed =>
    obtain ⟨-, rfl⟩ := ends_makeAncestors_of_absent hwf habsent hbackup hoptions ancestors
    rw [habsent] at there
    cases there

section Removed

variable {tc : FileTree} (hremove : t.remove (target.sibling options.backupSuffix) = .ok tc)

include hremove

/-- The target is still absent without the backup. -/
theorem inspect_of_remove_sibling : tc.inspect target = none := by
  by_cases htext : target.text = ""
  · simp [inspect, resolve, checkPath, htext]
  · obtain ⟨before, last, d, hsteps, hstands, hnames⟩ := exists_names_of_sibling hwf htext habsent
      hbackup hoptions.backup_ne hoptions.backup_slash
    obtain ⟨m, k, c, hnames', hfile, rfl⟩ := remove_eq_ok_iff.1 hremove
    obtain ⟨rfl, rfl⟩ := hstands.eq_of_names_sibling hsteps hoptions.backup_slash hnames'
    have hkeeps := KeepsDirectories.erase (t := t) (l := m ++ [last ++ options.backupSuffix])
      (by simp) (ne_directory_of_file hfile)
    rw [(hnames.of_keepsDirectories hkeeps).inspect_eq, get?_erase (by simp),
      if_neg (sibling_ne_self hoptions.backup_ne), hnames.get?_eq_none habsent]
    rfl

/-- What is written at the target does not show at the backup. -/
theorem inspect_of_write_sibling {part : Bytes} (hwrite : tc.write target part = .ok t') :
    t'.inspect (target.sibling options.backupSuffix) = none := by
  obtain ⟨m, k, c, hnames, hfile, rfl⟩ := remove_eq_ok_iff.1 hremove
  obtain ⟨l, n, hnames', hfree, rfl⟩ := write_eq_ok_iff.1 hwrite
  have htext : target.text ≠ "" := by
    intro hempty
    have hcheck := hnames'.check
    simp [checkPath, hempty] at hcheck
  obtain ⟨before, last, d, hsteps, hstands, -⟩ := exists_names_of_sibling hwf htext habsent
    hbackup hoptions.backup_ne hoptions.backup_slash
  have hkeeps := KeepsDirectories.erase (t := t) (l := m ++ [k]) (by simp)
    (ne_directory_of_file hfile)
  obtain ⟨rfl, rfl⟩ := hstands.eq_of_names_sibling hsteps hoptions.backup_slash hnames
  obtain ⟨rfl, rfl⟩ := (hstands.of_keepsDirectories hkeeps).eq_of_names hsteps hnames'
  have hkeeps' := hkeeps.trans (.insert (by simp) (.inl hfree) (e := .file part))
  rw [(hnames.of_keepsDirectories hkeeps').inspect_eq, get?_insert (by simp),
    if_neg (Ne.symm (sibling_ne_self hoptions.backup_ne)), get?_erase (by simp), if_pos rfl]
  rfl

/-- A write that fails then leaves at most a front part of the new content, and no backup. -/
theorem unwritten_of_absent {new : Bytes}
    (hleft : t' = tc ∨ tc.remove target = .ok t' ∨
      ∃ part, part <+: new ∧ tc.write target part = .ok t') :
    t'.inspect (target.sibling options.backupSuffix) = none ∧
      ∀ bytes, t'.read target = .ok bytes → bytes <+: new := by
  have habsent' := inspect_of_remove_sibling hwf habsent hbackup hoptions hremove
  rcases hleft with rfl | hremove' | ⟨part, hfront, hwrite⟩
  · refine ⟨inspect_of_remove hremove, fun bytes hread => ?_⟩
    rw [inspect_of_read hread] at habsent'
    cases habsent'
  · obtain ⟨l, n, c, hnames, hfile, -⟩ := remove_eq_ok_iff.1 hremove'
    rw [hnames.get?_eq_none habsent'] at hfile
    cases hfile
  · refine ⟨inspect_of_write_sibling hwf habsent hbackup hoptions hremove hwrite,
      fun bytes hread => ?_⟩
    rw [read_of_write hwrite] at hread
    exact Except.ok.inj hread ▸ hfront

end Removed

/-- **A replacement of an absent target whose backup is a file** fails with an error for the backup
and with nothing changed, or it has taken the backup away: then its error is for the target, which
holds at most a front part of the new content. -/
theorem replaceFile_retry {text : String} {verify : Bool} {e : ReplaceError}
    (h : Ends t (replaceFile target text verify options).run (.error e) t') :
    (∃ cause, e = .file (target.sibling options.backupSuffix) cause) ∧ t' = t ∨
      (∃ cause, e = .file target cause) ∧
        t'.inspect (target.sibling options.backupSuffix) = none ∧
        ∀ bytes, t'.read target = .ok bytes → bytes <+: Utf8.encode text := by
  have hancestors : ∀ {r ta}, Ends t (makeAncestors target).run r ta → r = .ok () ∧ ta = t :=
    ends_makeAncestors_of_absent hwf habsent hbackup hoptions
  have hroom : ∀ {had tc}, MakesRoom target (target.sibling options.backupSuffix) t had tc →
      had = false ∧ t.remove (target.sibling options.backupSuffix) = .ok tc :=
    makesRoom_of_absent hwf habsent hbackup hoptions
  generalize hr : Except.error e = r at h
  cases replaceFile_ends h with
  | noAncestors ancestors => cases (hancestors ancestors).1
  | backupStays ancestors =>
    cases hr
    exact .inl ⟨⟨_, rfl⟩, (hancestors ancestors).2⟩
  | targetStays ancestors there =>
    rw [(hancestors ancestors).2, habsent] at there
    cases there
  | unwritten room left =>
    cases hr
    exact .inr ⟨⟨_, rfl⟩, unwritten_of_absent hwf habsent hbackup hoptions (hroom room).2 left⟩
  | written => cases hr
  | compared room => cases (hroom room).1

end Absent

/-- On a full disk the only version is removed. -/
theorem replaceFile_retry_full :
    let t : FileTree := ⟨(∅ : Std.ExtTreeMap Location Entry).insert ["p~"] (.file [65]), []⟩
    let result := (replaceFile ⟨"/p"⟩ "B" false {}).run.runFull t
    t.inspect ⟨"/p"⟩ = none ∧ t.read ⟨"/p~"⟩ = .ok [65] ∧
      result.1 = .error (.file ⟨"/p"⟩ FileProgram.diskFull) ∧ result.2.inspect ⟨"/p~"⟩ = none := by
  intro t result
  have hwf : t.WF := .of_keys (by decide +kernel)
  have habsent : t.inspect ⟨"/p"⟩ = none := by rfl
  have hbackup : t.read ((⟨"/p"⟩ : Path).sibling ({} : ReplaceOptions).backupSuffix) =
      .ok [65] := by rfl
  have hfails : result.1 = .error (.file ⟨"/p"⟩ FileProgram.diskFull) := by rfl
  have hends := FileProgram.ends_runFull t (replaceFile ⟨"/p"⟩ "B" false {}).run
  rw [hfails] at hends
  refine ⟨habsent, hbackup, hfails, ?_⟩
  rcases replaceFile_retry hwf habsent hbackup .standard hends with ⟨⟨e, he⟩, -⟩ | ⟨-, hgone, -⟩
  · exact absurd (ReplaceError.file.inj he).1 (by decide)
  · exact hgone

/-- The write to an empty path fails, after the removal. -/
theorem not_replaceFile_retry_keeps :
    ¬ ∀ (t t' : FileTree) (target : Path) (content : Bytes) (options : ReplaceOptions)
      (text : String) (verify : Bool) (e : ReplaceError), t.WF → t.inspect target = none →
        t.read (target.sibling options.backupSuffix) = .ok content → options.Distinguishes →
          Ends t (replaceFile target text verify options).run (.error e) t' →
            t'.read target = .ok content ∨
              t'.read (target.sibling options.backupSuffix) = .ok content := by
  intro h
  let t : FileTree := ⟨(∅ : Std.ExtTreeMap Location Entry).insert ["~"] (.file [66]), []⟩
  let result := (replaceFile ⟨""⟩ "x" false {}).run.run t
  have hends : Ends t (replaceFile ⟨""⟩ "x" false {}).run (.error (.file ⟨""⟩ .notFound))
      result.2 := FileProgram.ends_of_run (by rfl)
  have hgone : result.2.read ⟨"~"⟩ = .error .notFound := by rfl
  rcases h t result.2 ⟨""⟩ [66] {} "x" false _ (.of_keys (by decide +kernel)) (by rfl) (by rfl)
    .standard hends with htarget | hbackup
  · cases htarget
  · have hpath : (⟨""⟩ : Path).sibling "~" = ⟨"~"⟩ := by rfl
    rw [hpath, hgone] at hbackup
    cases hbackup

end Retries

end Pagewright

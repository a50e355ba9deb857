import Pagewright.Proofs.Faults
import Pagewright.Proofs.TreeOperations

/-!
# The previous version survives

Whatever fails while a file is replaced, and wherever the replacement is interrupted, the previous
version is complete in one of two places, at the target or at the backup
(`replaceFile_survives`). At first it is at the target (`AtTarget`), and nothing but the target's
own rename takes it away from there; that one puts it at the backup (`AtBackup`), where it stays
when the target is written, compared and moved aside, until it is renamed back.
-/

namespace Pagewright

open Text FileTree Replacing

/-- Suffixes that make two further names in the same directory. -/
structure ReplaceOptions.Distinguishes (options : ReplaceOptions) : Prop where
  backup_ne : options.backupSuffix ≠ ""
  new_ne : options.newSuffix ≠ ""
  distinct : options.backupSuffix ≠ options.newSuffix
  backup_slash : '/' ∉ options.backupSuffix.toList
  new_slash : '/' ∉ options.newSuffix.toList

theorem ReplaceOptions.Distinguishes.standard : ({} : ReplaceOptions).Distinguishes :=
  ⟨by decide, by decide, by decide, by decide, by decide⟩

section Survival

variable {target : Path} {options : ReplaceOptions} {content : Bytes} {before : List String}
  {last : String} {d l : Location} {t t' : FileTree}

/-- The previous version is where the target is. -/
structure AtTarget (target : Path) (content : Bytes) (before : List String) (last : String)
    (d l : Location) (t : FileTree) : Prop where
  stands : t.Stands target before d
  enter : t.enter d last = .ok l
  file : t.get? l = some (.file content)

/-- The previous version is where the backup is, and no directory is where the target is. -/
structure AtBackup (target : Path) (options : ReplaceOptions) (content : Bytes)
    (before : List String) (last : String) (d : Location) (t : FileTree) : Prop where
  stands : t.Stands target before d
  names : t.Names (target.sibling options.backupSuffix) d (last ++ options.backupSuffix)
  file : t.get? (d ++ [last ++ options.backupSuffix]) = some (.file content)
  free : t.get? (d ++ [last]) ≠ some .directory

/-- The previous version is complete at the target or at the backup. -/
def Survives (target : Path) (options : ReplaceOptions) (content : Bytes) (t : FileTree) : Prop :=
  t.read target = .ok content ∨ t.read (target.sibling options.backupSuffix) = .ok content

/-! ## The two places -/

theorem exists_atTarget (h : t.read target = .ok content) :
    checkPath target = .ok () ∧ target.endsInSlash = false ∧
      ∃ before last d l, SiblingSteps target before last ∧
        AtTarget target content before last d l t := by
  obtain ⟨l, hresolve⟩ : ∃ l, t.resolve target = .ok (l, .file content) := by
    unfold FileTree.read at h
    split at h
    · next l _ hresolve =>
      cases h
      exact ⟨l, hresolve⟩
    · cases h
    · cases h
  unfold resolve at hresolve
  split at hresolve
  · cases hresolve
  · next hcheck =>
    split at hresolve
    · cases hresolve
    · next l' hwalk =>
      split at hresolve
      · cases hresolve
      · next hfile =>
        split at hresolve
        · cases hresolve
        · next hslash =>
          cases hresolve
          have hslash : target.endsInSlash = false := by simpa using hslash
          have htext : target.text ≠ "" := by
            intro he
            simp [checkPath, he] at hcheck
          obtain ⟨before, last, hsteps⟩ := exists_siblingSteps htext hslash
          rw [hsteps.steps, walk_append_eq_ok_iff] at hwalk
          obtain ⟨d, hwalk, henter⟩ := hwalk
          rw [walk_singleton] at henter
          exact ⟨hcheck, hslash, before, last, d, l, hsteps,
            ⟨hwalk, (enter_eq_ok_iff.1 henter).1⟩, henter, hfile⟩
      · cases hresolve

namespace AtTarget

theorem read_eq (h : AtTarget target content before last d l t)
    (hsteps : SiblingSteps target before last) (hcheck : checkPath target = .ok ())
    (hslash : target.endsInSlash = false) : t.read target = .ok content := by
  have hwalk : t.walk (t.origin target) (stepsOf target) = .ok l := by
    rw [hsteps.steps, walk_append_eq_ok_iff]
    exact ⟨d, h.stands.walk, walk_singleton last ▸ h.enter⟩
  simp [FileTree.read, resolve, hcheck, hwalk, h.file, hslash]

theorem of_keepsDirectories (h : AtTarget target content before last d l t)
    (hkeeps : KeepsDirectories t t') (hfile : t'.get? l = some (.file content)) :
    AtTarget target content before last d l t' :=
  ⟨h.stands.of_keepsDirectories hkeeps, hkeeps.enter_eq h.enter (by rw [hfile]; rfl), hfile⟩

theorem location_ne (h : AtTarget target content before last d l t) {suffix : String}
    (hne : suffix ≠ "") : l ≠ d ++ [last ++ suffix] := by
  obtain ⟨-, ⟨-, rfl⟩ | ⟨-, rfl⟩ | ⟨-, -, rfl⟩⟩ := enter_eq_ok_iff.1 h.enter
  · simp
  · intro heq
    have hlength := congrArg List.length heq
    simp at hlength
  · exact Ne.symm (sibling_ne_self hne)

theorem makeDirectory {p : Path} (h : AtTarget target content before last d l t)
    (hmake : t.makeDirectory p = .ok t') : AtTarget target content before last d l t' := by
  obtain ⟨m, k, -, hnone, rfl⟩ := makeDirectory_eq_ok hmake
  refine h.of_keepsDirectories (.insert (by simp) (.inr rfl)) ?_
  rw [get?_insert (by simp), if_neg, h.file]
  rintro rfl
  rw [h.file] at hnone
  cases hnone

theorem remove {suffix : String} (h : AtTarget target content before last d l t)
    (hsteps : SiblingSteps target before last) (hne : suffix ≠ "") (hslash : '/' ∉ suffix.toList)
    (hremove : t.remove (target.sibling suffix) = .ok t') :
    AtTarget target content before last d l t' := by
  obtain ⟨m, k, c, hnames, hfile, rfl⟩ := remove_eq_ok_iff.1 hremove
  obtain ⟨rfl, rfl⟩ := h.stands.eq_of_names_sibling hsteps hslash hnames
  refine h.of_keepsDirectories (.erase (by simp) (ne_directory_of_file hfile)) ?_
  rw [get?_erase (by simp), if_neg (Ne.symm (h.location_ne hne)), h.file]

/-- The rename puts the previous version at the backup. -/
theorem rename (h : AtTarget target content before last d l t)
    (hsteps : SiblingSteps target before last) (hoptions : options.Distinguishes)
    (hrename : t.rename target (target.sibling options.backupSuffix) = .ok t') :
    AtBackup target options content before last d t' := by
  obtain ⟨m, k, hparent⟩ := resolveParent_of_rename hrename
  obtain ⟨-, -, -, hhere, hup⟩ := resolveParent_eq_name hparent
  obtain ⟨rfl, rfl⟩ := h.stands.eq_of_resolveParent hsteps hparent
  obtain rfl : l = m ++ [k] := by
    obtain ⟨-, ⟨hl, -⟩ | ⟨hl, -⟩ | ⟨-, -, hl⟩⟩ := enter_eq_ok_iff.1 h.enter
    · exact absurd hl hhere
    · exact absurd hl hup
    · exact hl
  obtain ⟨m, k, c, hnames, hnames', hfile, hfree, hchange⟩ :=
    rename_eq_ok hparent (by rw [h.file]; nofun) hrename
  obtain ⟨rfl, rfl⟩ := h.stands.eq_of_names_sibling hsteps hoptions.backup_slash hnames'
  obtain rfl : content = c := by simpa [h.file] using hfile
  have hother := h.location_ne hoptions.backup_ne
  rcases hchange with ⟨hsame, -⟩ | ⟨-, rfl⟩
  · exact absurd hsame hother
  · have hkeeps := KeepsDirectories.move (by simp) (by simp) hother
      (by rw [h.file]; nofun) hfree content
    refine ⟨h.stands.of_keepsDirectories hkeeps, hnames'.of_keepsDirectories hkeeps, ?_, ?_⟩
    · rw [get?_insert (by simp), if_pos rfl]
    · rw [get?_insert (by simp), if_neg (Ne.symm hother), get?_erase (by simp), if_pos rfl]
      nofun

end AtTarget

namespace AtBackup

theorem read_eq (h : AtBackup target options content before last d t) :
    t.read (target.sibling options.backupSuffix) = .ok content :=
  h.names.read_eq_ok_iff.2 h.file

theorem of_keepsDirectories (h : AtBackup target options content before last d t)
    (hkeeps : KeepsDirectories t t')
    (hfile : t'.get? (d ++ [last ++ options.backupSuffix]) = some (.file content))
    (hfree : t'.get? (d ++ [last]) ≠ some .directory) :
    AtBackup target options content before last d t' :=
  ⟨h.stands.of_keepsDirectories hkeeps, h.names.of_keepsDirectories hkeeps, hfile, hfree⟩

variable (h : AtBackup target options content before last d t)
  (hsteps : SiblingSteps target before last) (hoptions : options.Distinguishes)

include h hsteps hoptions

theorem write {part : Bytes} (hwrite : t.write target part = .ok t') :
    AtBackup target options content before last d t' := by
  obtain ⟨m, k, hnames, -, rfl⟩ := write_eq_ok_iff.1 hwrite
  obtain ⟨rfl, rfl⟩ := h.stands.eq_of_names hsteps hnames
  refine h.of_keepsDirectories (.insert (by simp) (.inl h.free)) ?_ ?_
  · rw [get?_insert (by simp), if_neg (Ne.symm (sibling_ne_self hoptions.backup_ne)), h.file]
  · rw [get?_insert (by simp), if_pos rfl]
    nofun

theorem remove (hremove : t.remove target = .ok t') :
    AtBackup target options content before last d t' := by
  obtain ⟨m, k, c, hnames, -, rfl⟩ := remove_eq_ok_iff.1 hremove
  obtain ⟨rfl, rfl⟩ := h.stands.eq_of_names hsteps hnames
  refine h.of_keepsDirectories (.erase (by simp) h.free) ?_ ?_
  · rw [get?_erase (by simp), if_neg (Ne.symm (sibling_ne_self hoptions.backup_ne)), h.file]
  · rw [get?_erase (by simp), if_pos rfl]
    nofun

theorem removeNew (hremove : t.remove (target.sibling options.newSuffix) = .ok t') :
    AtBackup target options content before last d t' := by
  obtain ⟨m, k, c, hnames, hfile, rfl⟩ := remove_eq_ok_iff.1 hremove
  obtain ⟨rfl, rfl⟩ := h.stands.eq_of_names_sibling hsteps hoptions.new_slash hnames
  refine h.of_keepsDirectories (.erase (by simp) (ne_directory_of_file hfile)) ?_ ?_
  · rw [get?_erase (by simp), if_neg (sibling_ne_sibling (Ne.symm hoptions.distinct)), h.file]
  · rw [get?_erase (by simp), if_neg (sibling_ne_self hoptions.new_ne)]
    exact h.free

/-- Moving the new content aside leaves the backup alone. -/
theorem renameNew (hrename : t.rename target (target.sibling options.newSuffix) = .ok t') :
    AtBackup target options content before last d t' := by
  obtain ⟨m, k, hparent⟩ := resolveParent_of_rename hrename
  obtain ⟨rfl, rfl⟩ := h.stands.eq_of_resolveParent hsteps hparent
  obtain ⟨m', k', c, -, hnames', hfile, hfree, hchange⟩ := rename_eq_ok hparent h.free hrename
  obtain ⟨rfl, rfl⟩ := h.stands.eq_of_names_sibling hsteps hoptions.new_slash hnames'
  have hother : m' ++ [k] ≠ m' ++ [k ++ options.newSuffix] :=
    Ne.symm (sibling_ne_self hoptions.new_ne)
  rcases hchange with ⟨hsame, -⟩ | ⟨-, rfl⟩
  · exact absurd hsame hother
  · have hkeeps := KeepsDirectories.move (by simp) (by simp) hother h.free hfree c
    refine h.of_keepsDirectories hkeeps ?_ ?_
    · rw [get?_insert (by simp), if_neg (sibling_ne_sibling (Ne.symm hoptions.distinct)),
        get?_erase (by simp), if_neg (Ne.symm (sibling_ne_self hoptions.backup_ne)), h.file]
    · rw [get?_insert (by simp), if_neg (Ne.symm hother), get?_erase (by simp), if_pos rfl]
      nofun

/-- The rename back puts the previous version at the target. -/
theorem renameBack (hrename : t.rename (target.sibling options.backupSuffix) target = .ok t') :
    t'.read target = .ok content := by
  obtain ⟨m, k, c, -, hnames, hfile, hfree, hchange⟩ :=
    rename_eq_ok h.names.resolveParent_eq (by rw [h.file]; nofun) hrename
  obtain ⟨rfl, rfl⟩ := h.stands.eq_of_names hsteps hnames
  obtain rfl : content = c := by simpa [h.file] using hfile
  have hother : m ++ [k ++ options.backupSuffix] ≠ m ++ [k] := sibling_ne_self hoptions.backup_ne
  rcases hchange with ⟨hsame, -⟩ | ⟨-, rfl⟩
  · exact absurd hsame hother
  · have hkeeps := KeepsDirectories.move (by simp) (by simp) hother
      (by rw [h.file]; nofun) hfree content
    rw [(hnames.of_keepsDirectories hkeeps).read_eq_ok_iff, get?_insert (by simp), if_pos rfl]

end AtBackup

/-! ## The replacement -/

section Replacement

variable (hsteps : SiblingSteps target before last) (hoptions : options.Distinguishes)
  (hcheck : checkPath target = .ok ()) (hslash : target.endsInSlash = false)

include hsteps hoptions

/-- Once the previous version is at the backup, a comparison keeps it. -/
theorem keeps_verifyReplaced (new : Bytes) (h : AtBackup target options content before last d t) :
    Replacing.Keeps (Survives target options content)
      (verifyReplaced target (target.sibling options.backupSuffix) new options)
      (fun _ _ => True) t := by
  have hsurvives : ∀ t, AtBackup target options content before last d t →
      Survives target options content t := fun _ h => .inr h.read_eq
  unfold verifyReplaced
  refine Keeps.bind (R := fun _ => AtBackup target options content before last d) ?_
    fun previous t₁ _ h₁ => ?_
  · refine FileProgram.Keeps.bind (FileProgram.keeps_read
      (Q := fun _ => AtBackup target options content before last d) (hsurvives t h) (fun _ => h) h)
      fun result t' hI h' => ?_
    split
    · exact ⟨hI, fun _ _ => h'⟩
    · exact ⟨hI, nofun⟩
    · exact ⟨hI, nofun⟩
  refine (keeps_removeIfPresent hsurvives h₁ fun t' => h₁.removeNew hsteps hoptions).bind
    fun _ t₂ hI₂ h₂ => ?_
  split
  · exact keeps_pure hI₂ trivial
  refine Keeps.bind (R := fun _ => AtBackup target options content before last d) ?_
    fun _ t₃ hI₃ h₃ => ?_
  · refine keeps_attempt (FileProgram.keeps_rename hI₂ (fun _ => nofun) fun t' hok => ?_)
    have h' := h₂.renameNew hsteps hoptions hok
    exact ⟨hsurvives t' h', fun _ _ => h'⟩
  refine Keeps.bind (R := fun _ _ => True) ?_ fun _ t₄ hI₄ _ => keeps_throw hI₄
  refine keeps_attempt (FileProgram.keeps_rename hI₃ (fun _ => nofun) fun t' hok => ?_)
  exact ⟨.inl (h₃.renameBack hsteps hoptions hok), fun _ _ => trivial⟩

include hcheck hslash

theorem keeps_replaceFile (text : String) (verify : Bool)
    (h : AtTarget target content before last d l t) :
    Replacing.Keeps (Survives target options content) (replaceFile target text verify options)
      (fun _ _ => True) t := by
  have hsurvives : ∀ t, AtTarget target content before last d l t →
      Survives target options content t := fun _ h => .inl (h.read_eq hsteps hcheck hslash)
  unfold replaceFile
  refine (keeps_makeAncestors hsurvives (S := fun _ => True) (fun _ _ _ _ => trivial)
    (fun _ _ _ _ h => h.makeDirectory) target (fun _ _ => trivial) h).bind fun _ t₁ hI₁ h₁ => ?_
  refine Keeps.bind
    (R := fun had t' => had = true ∧ AtTarget target content before last d l t') ?_
    fun hadPrevious t₂ _ hhad => ?_
  · refine keeps_lift (FileProgram.keeps_exists? hI₁ ⟨?_, h₁⟩)
    rw [inspect_of_read (h₁.read_eq hsteps hcheck hslash)]
    rfl
  obtain ⟨rfl, h₂⟩ := hhad
  refine (keeps_removeIfPresent hsurvives h₂ fun t' =>
    h₂.remove hsteps hoptions.backup_ne hoptions.backup_slash).bind fun _ t₃ hI₃ h₃ => ?_
  refine Keeps.bind (R := fun _ => AtBackup target options content before last d) ?_
    fun _ t₄ hI₄ h₄ => ?_
  · refine keeps_attempt (FileProgram.keeps_rename hI₃ (fun _ => nofun) fun t' hok => ?_)
    have h' := h₃.rename hsteps hoptions hok
    exact ⟨.inr h'.read_eq, fun _ _ => h'⟩
  refine Keeps.bind (R := fun _ => AtBackup target options content before last d) ?_
    fun _ t₅ hI₅ h₅ => ?_
  · refine keeps_attempt (FileProgram.keeps_write hI₄ (fun _ => nofun) (fun part t' hok => ?_)
      fun t' hok => ?_)
    · have h' := h₄.write hsteps hoptions hok
      exact ⟨.inr h'.read_eq, fun _ _ _ => h'⟩
    · have h' := h₄.remove hsteps hoptions hok
      exact ⟨.inr h'.read_eq, fun _ => nofun⟩
  split
  · exact keeps_verifyReplaced hsteps hoptions _ h₅
  · exact keeps_pure hI₅ trivial

end Replacement

/-- **The previous version survives a replacement** that may fail at any operation and may be
interrupted anywhere, verified or not: it is complete at the target or at the backup. -/
theorem replaceFile_survives (h : t.read target = .ok content) (hoptions : options.Distinguishes)
    (text : String) (verify : Bool)
    (hreaches : FileProgram.Reaches t (replaceFile target text verify options).run t') :
    t'.read target = .ok content ∨
      t'.read (target.sibling options.backupSuffix) = .ok content := by
  obtain ⟨hcheck, hslash, before, last, d, l, hsteps, hat⟩ := exists_atTarget h
  exact (keeps_replaceFile hsteps hoptions hcheck hslash text verify hat).of_reaches hreaches

/-- Between the rename and the write the target is gone. -/
theorem replaceFile_survives_between :
    let t : FileTree := ⟨(∅ : Std.ExtTreeMap Location Entry).insert ["p"] (.file [65, 66]), []⟩
    let t' := (replaceFile ⟨"/p"⟩ "C" true {}).run.interrupted 5 t
    t'.read ⟨"/p"⟩ = .error .notFound ∧
      (t'.read ⟨"/p"⟩ = .ok [65, 66] ∨ t'.read ⟨"/p~"⟩ = .ok [65, 66]) := by
  refine ⟨by rfl, replaceFile_survives (by rfl) ?_ "C" true
    (FileProgram.reaches_interrupted 5 _ _)⟩
  exact ⟨by decide, by decide, by decide, by decide, by decide⟩

end Survival

end Pagewright

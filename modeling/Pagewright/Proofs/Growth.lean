import Pagewright.Proofs.Ancestors
import Pagewright.Proofs.Destinations
import Pagewright.Proofs.Endings

/-!
# Making ancestors only adds directories

Whatever fails while the ancestors of a path are made, what is added by then are directories on the
trail of the path where nothing was before (`grows_of_makeAncestors`). When they are all there,
nothing is made (`ends_makeAncestors_of_trail`).
-/

namespace Pagewright

open Text FileTree Replacing
open FileProgram (Ends ends_run_pure ends_lift_bind ends_exists?)

/-- A tree that differs from another one at most in directories at some locations, where there was
nothing. -/
structure Grows (t t' : FileTree) (ls : List Location) : Prop where
  workingDirectory : t'.workingDirectory = t.workingDirectory
  kept_or_made : ∀ l, t'.get? l = t.get? l ∨
    l ∈ ls ∧ t.get? l = none ∧ t'.get? l = some .directory

section Growth

variable {t t' : FileTree} {target p q : Path} {l : Location} {ls : List Location} {e : Entry}

namespace Grows

theorem refl (t : FileTree) (ls : List Location) : Grows t t ls :=
  ⟨rfl, fun _ => .inl rfl⟩

variable (h : Grows t t' ls)

include h

theorem get?_eq_some (he : t.get? l = some e) : t'.get? l = some e := by
  rcases h.kept_or_made l with hkept | ⟨-, hnone, -⟩
  · exact hkept.trans he
  · rw [he] at hnone
    cases hnone

theorem keepsDirectories : KeepsDirectories t t' :=
  ⟨h.workingDirectory, fun _ hl => h.get?_eq_some hl⟩

/-- What is not a directory afterwards is as it was. -/
theorem get?_eq_of_ne (hl : t'.get? l ≠ some .directory) : t'.get? l = t.get? l := by
  rcases h.kept_or_made l with hkept | ⟨-, -, hmade⟩
  · exact hkept
  · exact absurd hmade hl

theorem destination_eq (p : Path) : t'.destination p = t.destination p :=
  FileTree.destination_eq h.workingDirectory p

theorem holdsFile {content : Bytes} (hfile : t.HoldsFile l content) : t'.HoldsFile l content :=
  hfile.of_keepsDirectories h.keepsDirectories (h.get?_eq_some hfile.file)

theorem makeDirectory {t'' : FileTree} (hp : t.destination p ∈ ls)
    (hmake : t'.makeDirectory p = .ok t'') : Grows t t'' ls := by
  obtain ⟨hroot, hnone, rfl⟩ := makeDirectory_eq_insert hmake
  rw [h.destination_eq] at hroot hnone ⊢
  refine ⟨h.workingDirectory, fun l => ?_⟩
  rw [get?_insert hroot]
  by_cases hl : t.destination p = l
  · subst hl
    rw [if_pos rfl]
    exact .inr ⟨hp, (h.get?_eq_of_ne (by rw [hnone]; nofun)).symm.trans hnone, rfl⟩
  · rw [if_neg hl]
    exact h.kept_or_made l

end Grows

/-- The steps of a parent are front ones of a path, without the last one. -/
theorem stepsOf_parent_prefix_dropLast (h : p.parent? = some q) :
    q.isAbsolute = p.isAbsolute ∧ stepsOf q <+: (stepsOf p).dropLast := by
  obtain ⟨-, habsolute, -, idles, s, idles', hsteps, -⟩ := Path.parent?_eq_some h
  refine ⟨habsolute, ?_⟩
  rw [hsteps, List.append_assoc, List.append_assoc,
    List.dropLast_append_of_ne_nil (by simp)]
  exact List.prefix_append _ _

/-- **Making ancestors only adds directories** on the trail of the path, in every run. -/
theorem grows_of_makeAncestors {r : Except ReplaceError Unit}
    (h : Ends t (makeAncestors target).run r t') :
    Grows t t' (trail (t.origin target) (stepsOf target).dropLast) := by
  let ls := trail (t.origin target) (stepsOf target).dropLast
  -- The paths that are made start where the target does and go on along its steps.
  let S : Path → Prop := fun p =>
    p.isAbsolute = target.isAbsolute ∧ stepsOf p <+: (stepsOf target).dropLast
  have hparent : ∀ p q : Path, S p → p.parent? = some q → S q := by
    rintro p q ⟨habsolute, hinitial⟩ hq
    obtain ⟨habsolute', hinitial'⟩ := stepsOf_parent_prefix_dropLast hq
    exact ⟨habsolute'.trans habsolute, (hinitial'.trans (List.dropLast_prefix _)).trans hinitial⟩
  have hmake : ∀ t₁ t₂ p, S p → Grows t t₁ ls → t₁.makeDirectory p = .ok t₂ → Grows t t₂ ls := by
    rintro t₁ t₂ p ⟨habsolute, hinitial⟩ hgrows hok
    refine hgrows.makeDirectory ?_ hok
    rw [destination, origin_eq_of_isAbsolute habsolute]
    exact mem_trail_of_initial hinitial arrival_mem_trail
  exact ((keeps_makeAncestors (fun _ h => h) hparent hmake target
    (fun q hq => stepsOf_parent_prefix_dropLast hq) (.refl t ls)).of_ends h).1

/-- Nothing is made when all ancestors are there. -/
theorem ends_makeAncestors_of_trail {before : List String} {last : String}
    {r : Except ReplaceError Unit} (hsteps : stepsOf target = before ++ [last]) (hlast : last ≠ ".")
    (hcheck : checkPath target = .ok ()) (hnames : ∀ s ∈ before, IsStep s)
    (htrail : ∀ l ∈ trail (t.origin target) before, t.get? l = some .directory)
    (h : Ends t (makeAncestors target).run r t') : r = .ok () ∧ t' = t := by
  obtain ⟨parent, idles, hparent, rfl, -⟩ := exists_parent hsteps hlast
  have hfree := inspect_ancestor_ne hsteps hlast hparent fun l hl => .inr (htrail l hl)
  obtain ⟨⟨rest, -, htext⟩, habsolute, -⟩ := Path.parent?_eq_some hparent
  unfold makeAncestors at h
  rw [hparent] at h
  simp only at h
  split at h
  · exact ends_run_pure h
  · next hne =>
    have hcheck' : checkPath parent = .ok () :=
      (checkPath_of_append htext hcheck).resolve_left (by simpa using hne)
    have hthere : t.inspect parent = some .directory := by
      refine inspect_of_trail hcheck' (fun s hs => hnames s (List.mem_append_left _ hs))
        fun m hm => htrail m (mem_trail_append.2 (.inl ?_))
      rwa [origin_eq_of_isAbsolute habsolute] at hm
    rcases ends_checkDirectories_bind h with hrest | ⟨-, p, hp, hfile, -⟩
    · obtain ⟨present, t₁, hexists, hmake⟩ := ends_lift_bind hrest
      obtain ⟨rfl, rfl⟩ := ends_exists? hexists
      rw [hthere] at hmake
      exact ends_run_pure hmake
    · exact absurd hfile (hfree p hp)

/-! ## Clearing a path -/

namespace FileTree.Clears

variable (h : t.Clears p t')

include h

theorem keepsDirectories : KeepsDirectories t t' := by
  rcases h with ⟨-, rfl⟩ | hremove
  · exact .refl t'
  · obtain ⟨hroot, hfree, rfl⟩ := remove_eq_ok hremove
    exact .erase hroot hfree

theorem inspect_eq_none : t'.inspect p = none := by
  rcases h with ⟨hnone, rfl⟩ | hremove
  · exact hnone
  · exact inspect_of_remove hremove

theorem get?_eq (hl : t.destination p ≠ l) : t'.get? l = t.get? l := by
  rcases h with ⟨-, rfl⟩ | hremove
  · rfl
  · obtain ⟨hroot, -, rfl⟩ := remove_eq_ok hremove
    rw [get?_erase hroot, if_neg hl]

end FileTree.Clears

/-- A target that was there is renamed to the backup, in a tree that has grown and was cleared. -/
theorem MakesRoom.exists_renamed {backup : Path} (h : MakesRoom target backup t true t') :
    ∃ ta tb kind ls, Grows t ta ls ∧ ta.inspect target = some kind ∧ ta.Clears backup tb ∧
      t.destination target ≠ [] ∧ t.destination backup ≠ [] ∧
        tb.Renamed (t.destination target) (t.destination backup) t' ∧
          t'.workingDirectory = t.workingDirectory := by
  cases h with
  | @moved ta tb _ kind ancestors there cleared renamed =>
    have hgrows := grows_of_makeAncestors ancestors
    have hstart : tb.workingDirectory = t.workingDirectory :=
      cleared.keepsDirectories.workingDirectory.trans hgrows.workingDirectory
    obtain ⟨htarget, hbackup, hrenamed⟩ := rename_eq_renamed renamed
    rw [destination_eq hstart, destination_eq hstart] at hrenamed
    rw [destination_eq hstart] at htarget hbackup
    exact ⟨ta, tb, kind, _, hgrows, there, cleared, htarget, hbackup, hrenamed,
      hrenamed.workingDirectory_eq.trans hstart⟩

end Growth

end Pagewright

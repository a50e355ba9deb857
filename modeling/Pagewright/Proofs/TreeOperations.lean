import Pagewright.Proofs.TreePaths

/-!
# Operations on a tree

What an operation does that succeeds: it changes the entry at the place that its path names, or at
two such places. None of them takes a directory away as long as no directory is renamed.
-/

namespace Pagewright

open Text

namespace FileTree

variable {t t' : FileTree} {p q : Path} {l m : Location} {n k : String} {content : Bytes}

/-! ## Writing -/

theorem write_eq_ok_iff : t.write p content = .ok t' ↔
    ∃ l n, t.Names p l n ∧ t.get? (l ++ [n]) ≠ some .directory ∧
      t' = t.insert (l ++ [n]) (.file content) := by
  constructor
  · intro h
    unfold write at h
    split at h
    · cases h
    · cases h
    · cases h
    · next l n hparent =>
      split at h
      · cases h
      · next hslash =>
        split at h
        · cases h
        · cases h
        · next e hfile hchild =>
          obtain ⟨hnames, rfl⟩ := names_of_resolveParent hparent hchild (by simpa using hslash)
          exact ⟨l, n, hnames, hfile, (Except.ok.inj h).symm⟩
  · rintro ⟨l, n, hnames, hfile, rfl⟩
    simp only [write, hnames.resolveParent_eq, hnames.endsInSlash, hnames.child?_eq]
    cases he : t.get? (l ++ [n]) with
    | none => rfl
    | some e =>
      cases e with
      | file => rfl
      | directory => exact absurd he hfile

theorem read_of_write (h : t.write p content = .ok t') : t'.read p = .ok content := by
  obtain ⟨l, n, hnames, hfree, rfl⟩ := write_eq_ok_iff.1 h
  have hkeeps := KeepsDirectories.insert (by simp) (.inl hfree) (e := .file content)
  rw [(hnames.of_keepsDirectories hkeeps).read_eq_ok_iff, get?_insert (by simp), if_pos rfl]

/-! ## Removing -/

theorem remove_eq_ok_iff : t.remove p = .ok t' ↔
    ∃ l n content, t.Names p l n ∧ t.get? (l ++ [n]) = some (.file content) ∧
      t' = t.erase (l ++ [n]) := by
  constructor
  · intro h
    unfold remove at h
    split at h
    · cases h
    · cases h
    · cases h
    · next l n hparent =>
      split at h
      · cases h
      · cases h
      · cases h
      · next content hchild =>
        split at h
        · cases h
        · next hslash =>
          obtain ⟨hnames, he⟩ := names_of_resolveParent hparent hchild (by simpa using hslash)
          exact ⟨l, n, content, hnames, he.symm, (Except.ok.inj h).symm⟩
  · rintro ⟨l, n, content, hnames, he, rfl⟩
    simp only [remove, hnames.resolveParent_eq, hnames.endsInSlash, hnames.child?_eq, he]
    rfl

theorem inspect_of_remove (h : t.remove p = .ok t') : t'.inspect p = none := by
  obtain ⟨l, n, c, hnames, hfile, rfl⟩ := remove_eq_ok_iff.1 h
  have hkeeps := KeepsDirectories.erase (t := t) (l := l ++ [n]) (by simp)
    (ne_directory_of_file hfile)
  rw [(hnames.of_keepsDirectories hkeeps).inspect_eq, get?_erase (by simp), if_pos rfl]
  rfl

/-! ## Making directories -/

theorem makeDirectory_eq_ok (h : t.makeDirectory p = .ok t') :
    ∃ l n, t.resolveParent p = .ok (l, .name n) ∧ t.get? (l ++ [n]) = none ∧
      t' = t.insert (l ++ [n]) .directory := by
  unfold makeDirectory at h
  split at h
  · cases h
  · cases h
  · cases h
  · next l n hparent =>
    split at h
    · cases h
    · cases h
    · next hchild =>
      unfold child? at hchild
      split at hchild
      · cases hchild
      · exact ⟨l, n, hparent, Except.ok.inj hchild, (Except.ok.inj h).symm⟩

/-! ## Renaming files -/

theorem resolveParent_of_rename (h : t.rename p q = .ok t') :
    ∃ l n, t.resolveParent p = .ok (l, .name n) := by
  unfold rename at h
  split at h
  · cases h
  · next l source hp =>
    split at h
    · cases h
    · split at h
      · exact ⟨l, _, hp⟩
      · cases h

/-- A renamed file leaves its place and replaces what is at the other one. -/
theorem rename_eq_ok {l : Location} {n : String} (hp : t.resolveParent p = .ok (l, .name n))
    (hfile : t.get? (l ++ [n]) ≠ some .directory) (h : t.rename p q = .ok t') :
    ∃ m k content, t.Names p l n ∧ t.Names q m k ∧
      t.get? (l ++ [n]) = some (.file content) ∧ t.get? (m ++ [k]) ≠ some .directory ∧
      (l ++ [n] = m ++ [k] ∧ t' = t ∨ l ++ [n] ≠ m ++ [k] ∧
        t' = (t.erase (l ++ [n])).insert (m ++ [k]) (.file content)) := by
  unfold rename at h
  rw [hp] at h
  simp only at h
  split at h
  · cases h
  · next m target hq =>
    split at h
    · next n' k heq =>
      cases heq
      split at h
      · cases h
      · cases h
      · next e hchild =>
        split at h
        · cases h
        · next there hthere =>
          split at h
          · cases h
          · next hslash =>
            obtain ⟨content, rfl⟩ : ∃ content, e = .file content := by
              cases e with
              | file content => exact ⟨content, rfl⟩
              | directory =>
                unfold child? at hchild
                split at hchild
                · cases hchild
                · exact absurd (Except.ok.inj hchild) hfile
            have hslash : p.endsInSlash = false ∧ q.endsInSlash = false := by
              simpa [Entry.kind] using hslash
            obtain ⟨hnames, he⟩ := names_of_resolveParent hp hchild hslash.1
            obtain ⟨hnames', rfl⟩ := names_of_resolveParent hq hthere hslash.2
            split at h
            · next hsame =>
              refine ⟨m, k, content, hnames, hnames', he.symm, hsame ▸ hfile, ?_⟩
              exact .inl ⟨hsame, (Except.ok.inj h).symm⟩
            · next hother =>
              split at h
              · cases h
              · next hmove =>
                refine ⟨m, k, content, hnames, hnames', he.symm, fun hd => ?_, ?_⟩
                · simp only [checkMove, hd] at hmove
                  split at hmove
                  · cases hmove
                  · split at hmove <;> cases hmove
                · exact .inr ⟨hother, (Except.ok.inj h).symm⟩
    · cases h

theorem rename_sibling_eq {l : Location} {n k : String} (hp : t.Names p l n) (hq : t.Names q l k)
    (hne : n ≠ k) (hfile : t.get? (l ++ [n]) = some (.file content))
    (hthere : t.get? (l ++ [k]) ≠ some .directory) :
    t.rename p q = .ok ((t.erase (l ++ [n])).insert (l ++ [k]) (.file content)) := by
  have hother : l ++ [n] ≠ l ++ [k] := by simpa using hne
  have hmove : t.checkMove (l ++ [n]) (l ++ [k]) (.file content) (t.get? (l ++ [k])) = .ok () := by
    simp only [checkMove, isAbove, List.length_append, List.length_singleton, Nat.lt_irrefl,
      decide_false, Bool.and_false]
    cases he : t.get? (l ++ [k]) with
    | none => rfl
    | some e =>
      cases e with
      | file => rfl
      | directory => exact absurd he hthere
  simp only [rename, hp.resolveParent_eq, hq.resolveParent_eq, hp.child?_eq, hq.child?_eq, hfile,
    hp.endsInSlash, hq.endsInSlash, if_neg hother, hmove]
  rfl

end FileTree

end Pagewright

import Pagewright.Proofs.Steps

/-!
# Paths in a tree

What a path denotes depends on the directories that its steps go through and, in the end, on what is
at its last step. `Names` holds of a path that names something in a directory, whether or not it is
there: most operations work for such paths only. A change of the tree that keeps its directories
(`KeepsDirectories`) keeps every walk to a directory and what every path names.
-/

namespace Pagewright

open Text

namespace FileTree

variable {t t' : FileTree} {p : Path} {l m : Location} {n : String}

/-! ## Entries -/

theorem get?_insert (hl : l ≠ []) (e : Entry) :
    (t.insert l e).get? m = if l = m then some e else t.get? m := by
  unfold get? insert
  by_cases hm : m = []
  · subst hm
    simp [hl]
  · rw [if_neg hm, if_neg hm, Std.ExtTreeMap.getElem?_insert]
    by_cases h : l = m <;> simp [h]

theorem get?_erase (hl : l ≠ []) : (t.erase l).get? m = if l = m then none else t.get? m := by
  unfold get? erase
  by_cases hm : m = []
  · subst hm
    simp [hl]
  · rw [if_neg hm, if_neg hm, Std.ExtTreeMap.getElem?_erase]
    by_cases h : l = m <;> simp [h]

theorem ne_directory_of_file {entry : Option Entry} {content : Bytes}
    (h : entry = some (.file content)) : entry ≠ some .directory := by
  rw [h]
  nofun

/-- The directories of a tree and the start of its relative paths are still there in another one. -/
structure KeepsDirectories (t t' : FileTree) : Prop where
  workingDirectory : t'.workingDirectory = t.workingDirectory
  directory : ∀ l, t.get? l = some .directory → t'.get? l = some .directory

namespace KeepsDirectories

theorem refl (t : FileTree) : KeepsDirectories t t :=
  ⟨rfl, fun _ h => h⟩

theorem trans {t'' : FileTree} (h : KeepsDirectories t t') (h' : KeepsDirectories t' t'') :
    KeepsDirectories t t'' :=
  ⟨h'.workingDirectory.trans h.workingDirectory, fun l hl => h'.directory l (h.directory l hl)⟩

theorem insert (hl : l ≠ []) {e : Entry} (h : t.get? l ≠ some .directory ∨ e = .directory) :
    KeepsDirectories t (t.insert l e) := by
  refine ⟨rfl, fun m hm => ?_⟩
  rw [get?_insert hl]
  split
  · next heq =>
    subst heq
    rcases h with h | rfl
    · exact absurd hm h
    · rfl
  · exact hm

theorem erase (hl : l ≠ []) (h : t.get? l ≠ some .directory) : KeepsDirectories t (t.erase l) := by
  refine ⟨rfl, fun m hm => ?_⟩
  rw [get?_erase hl, if_neg]
  · exact hm
  · rintro rfl
    exact h hm

/-- A file that moves to a place where there is no directory. -/
theorem move (hl : l ≠ []) (hm : m ≠ []) (hother : l ≠ m) (hsource : t.get? l ≠ some .directory)
    (htarget : t.get? m ≠ some .directory) (content : Bytes) :
    KeepsDirectories t ((t.erase l).insert m (.file content)) := by
  have htarget' : (t.erase l).get? m ≠ some .directory := by
    rwa [get?_erase hl, if_neg hother]
  exact (erase hl hsource).trans (insert hm (.inl htarget'))

theorem origin_eq (h : KeepsDirectories t t') (p : Path) : t'.origin p = t.origin p := by
  rw [origin, origin, h.workingDirectory]

end KeepsDirectories

/-! ## Walks -/

/-- A name that a directory takes. -/
structure IsName (s : String) : Prop where
  ne_here : s ≠ "."
  ne_up : s ≠ ".."
  short : s.utf8ByteSize ≤ maxNameBytes

theorem enter_eq_ok_iff {step : String} : t.enter l step = .ok m ↔
    t.get? l = some .directory ∧
      (step = "." ∧ m = l ∨ step = ".." ∧ m = l.dropLast ∨
        IsName step ∧ (t.get? (l ++ [step])).isSome = true ∧ m = l ++ [step]) := by
  constructor
  · intro h
    unfold enter at h
    split at h
    · cases h
    · cases h
    · next hd =>
      refine ⟨hd, ?_⟩
      split at h
      · next hstep => exact .inl ⟨hstep, (Except.ok.inj h).symm⟩
      · next hhere =>
        split at h
        · next hstep => exact .inr (.inl ⟨hstep, (Except.ok.inj h).symm⟩)
        · next hup =>
          split at h
          · cases h
          · next hshort =>
            split at h
            · next hsome =>
              exact .inr (.inr ⟨⟨hhere, hup, Nat.not_lt.1 hshort⟩, hsome, (Except.ok.inj h).symm⟩)
            · cases h
  · rintro ⟨hd, ⟨rfl, rfl⟩ | ⟨rfl, rfl⟩ | ⟨hname, hsome, rfl⟩⟩
    · simp [enter, hd]
    · simp [enter, hd]
    · simp [enter, hd, hname.ne_here, hname.ne_up, Nat.not_lt.2 hname.short, hsome]

theorem walk_append (ss ss' : List String) :
    t.walk l (ss ++ ss') = (t.walk l ss).bind fun m => t.walk m ss' := by
  induction ss generalizing l with
  | nil => rfl
  | cons s ss ih =>
    rw [List.cons_append, walk, walk]
    split
    · exact ih
    · rfl

theorem walk_append_eq_ok_iff {ss ss' : List String} {l' : Location} :
    t.walk l (ss ++ ss') = .ok l' ↔ ∃ m, t.walk l ss = .ok m ∧ t.walk m ss' = .ok l' := by
  rw [walk_append]
  cases t.walk l ss with
  | ok m => simp [Except.bind]
  | error e => simp [Except.bind]

theorem walk_singleton (s : String) : t.walk l [s] = t.enter l s := by
  rw [walk]
  cases t.enter l s <;> rfl

theorem get?_of_walk {s : String} {ss : List String} (h : t.walk l (s :: ss) = .ok m) :
    t.get? l = some .directory := by
  rw [walk] at h
  split at h
  · next he => exact (enter_eq_ok_iff.1 he).1
  · cases h

/-- A step to a place where there is something still leads there. -/
theorem KeepsDirectories.enter_eq (h : KeepsDirectories t t') {step : String}
    (he : t.enter l step = .ok m) (hm : (t'.get? m).isSome = true) : t'.enter l step = .ok m := by
  obtain ⟨hd, hstep⟩ := enter_eq_ok_iff.1 he
  refine enter_eq_ok_iff.2 ⟨h.directory l hd, ?_⟩
  rcases hstep with hstep | hstep | ⟨hname, -, rfl⟩
  · exact .inl hstep
  · exact .inr (.inl hstep)
  · exact .inr (.inr ⟨hname, hm, rfl⟩)

/-- A walk to a directory still leads there. -/
theorem KeepsDirectories.walk_eq (h : KeepsDirectories t t') {ss : List String}
    (hw : t.walk l ss = .ok m) (hm : t.get? m = some .directory) : t'.walk l ss = .ok m := by
  induction ss generalizing l with
  | nil => exact hw
  | cons s ss ih =>
    rw [walk] at hw
    split at hw
    · next l' he =>
      have hl' : t.get? l' = some .directory := by
        cases ss with
        | nil => exact Except.ok.inj hw ▸ hm
        | cons => exact get?_of_walk hw
      rw [walk, h.enter_eq he (by rw [h.directory l' hl']; rfl)]
      exact ih hw
    · cases hw

/-! ## What a path names -/

/-- The path names `n` in the directory `l`, where it may be or not. -/
structure Names (t : FileTree) (p : Path) (l : Location) (n : String) : Prop where
  check : checkPath p = .ok ()
  walk : ∃ before, stepsOf p = before ++ [n] ∧ t.walk (t.origin p) before = .ok l
  directory : t.get? l = some .directory
  isName : IsName n
  endsInSlash : p.endsInSlash = false

namespace Names

theorem of_keepsDirectories (h : KeepsDirectories t t') (hp : t.Names p l n) :
    t'.Names p l n := by
  obtain ⟨before, hsteps, hwalk⟩ := hp.walk
  refine ⟨hp.check, ⟨before, hsteps, ?_⟩, h.directory l hp.directory, hp.isName, hp.endsInSlash⟩
  rw [h.origin_eq]
  exact h.walk_eq hwalk hp.directory

theorem resolveParent_eq (h : t.Names p l n) : t.resolveParent p = .ok (l, .name n) := by
  obtain ⟨before, hsteps, hwalk⟩ := h.walk
  simp [resolveParent, h.check, hsteps, hwalk, h.directory, h.isName.ne_here, h.isName.ne_up]

theorem child?_eq (h : t.Names p l n) : t.child? l n = .ok (t.get? (l ++ [n])) :=
  if_neg (Nat.not_lt.2 h.isName.short)

theorem resolve_eq (h : t.Names p l n) : t.resolve p =
    match t.get? (l ++ [n]) with
    | none => .error .notFound
    | some e => .ok (l ++ [n], e) := by
  obtain ⟨before, hsteps, hwalk⟩ := h.walk
  have hwalk' : t.walk (t.origin p) (stepsOf p) = t.enter l n := by
    rw [hsteps, walk_append, hwalk, ← walk_singleton]
    rfl
  simp only [resolve, h.check, hwalk']
  cases he : t.get? (l ++ [n]) with
  | none => simp [enter, h.directory, h.isName.ne_here, h.isName.ne_up,
      Nat.not_lt.2 h.isName.short, he]
  | some e =>
    rw [enter_eq_ok_iff.2 ⟨h.directory, .inr (.inr ⟨h.isName, by rw [he]; rfl, rfl⟩)⟩]
    cases e <;> simp [he, h.endsInSlash]

theorem inspect_eq (h : t.Names p l n) : t.inspect p = (t.get? (l ++ [n])).map Entry.kind := by
  rw [inspect, h.resolve_eq]
  cases t.get? (l ++ [n]) <;> rfl

theorem get?_eq_none (h : t.Names p l n) (hnone : t.inspect p = none) :
    t.get? (l ++ [n]) = none := by
  rw [h.inspect_eq] at hnone
  exact Option.map_eq_none_iff.1 hnone

theorem read_eq_ok_iff (h : t.Names p l n) {content : Bytes} :
    t.read p = .ok content ↔ t.get? (l ++ [n]) = some (.file content) := by
  rw [read, h.resolve_eq]
  cases t.get? (l ++ [n]) with
  | none => simp
  | some e => cases e <;> simp

end Names

theorem resolveParent_eq_name {n : String} (h : t.resolveParent p = .ok (l, .name n)) :
    checkPath p = .ok () ∧ (∃ before, stepsOf p = before ++ [n] ∧
      t.walk (t.origin p) before = .ok l) ∧ t.get? l = some .directory ∧ n ≠ "." ∧ n ≠ ".." := by
  unfold resolveParent at h
  split at h
  · cases h
  · next hcheck =>
    split at h
    · cases h
    · next last before hsteps =>
      split at h
      · cases h
      · next hwalk =>
        split at h
        · cases h
        · cases h
        · next hd =>
          split at h
          · cases h
          · next hdots =>
            rw [not_or] at hdots
            cases h
            refine ⟨hcheck, ⟨before.reverse, ?_, hwalk⟩, hd, hdots⟩
            rw [← List.reverse_reverse (stepsOf p), hsteps, List.reverse_cons]

theorem names_of_resolveParent (h : t.resolveParent p = .ok (l, .name n))
    {e : Option Entry} (hchild : t.child? l n = .ok e) (hslash : p.endsInSlash = false) :
    t.Names p l n ∧ e = t.get? (l ++ [n]) := by
  obtain ⟨hcheck, hwalk, hd, hhere, hup⟩ := resolveParent_eq_name h
  unfold child? at hchild
  split at hchild
  · cases hchild
  · next hshort =>
    exact ⟨⟨hcheck, hwalk, hd, ⟨hhere, hup, Nat.not_lt.1 hshort⟩, hslash⟩,
      (Except.ok.inj hchild).symm⟩

theorem inspect_of_read {content : Bytes} (h : t.read p = .ok content) :
    t.inspect p = some .file := by
  unfold read at h
  unfold inspect
  split at h
  · next hresolve => rw [hresolve]; rfl
  · cases h
  · cases h

/-! ## Siblings -/

/-- All steps of the path but the last one lead to the directory `l`. -/
structure Stands (t : FileTree) (p : Path) (before : List String) (l : Location) : Prop where
  walk : t.walk (t.origin p) before = .ok l
  directory : t.get? l = some .directory

section Siblings

variable {before : List String} {last suffix : String}

theorem Stands.of_keepsDirectories (h : KeepsDirectories t t') (hp : t.Stands p before l) :
    t'.Stands p before l :=
  ⟨h.origin_eq p ▸ h.walk_eq hp.walk hp.directory, h.directory l hp.directory⟩

theorem origin_sibling (t : FileTree) (h : p.text ≠ "") (suffix : String) :
    t.origin (p.sibling suffix) = t.origin p := by
  rw [origin, origin, Path.isAbsolute_sibling h]

/-- **Siblings are in the same directory**, each under the last step with its suffix. -/
theorem Stands.eq_of_resolveParent_sibling (hp : t.Stands p before l)
    (hsteps : SiblingSteps p before last) (hsuffix : '/' ∉ suffix.toList)
    (h : t.resolveParent (p.sibling suffix) = .ok (m, .name n)) : m = l ∧ n = last ++ suffix := by
  obtain ⟨-, ⟨before', hsteps', hwalk⟩, -⟩ := resolveParent_eq_name h
  rw [hsteps.sibling suffix hsuffix] at hsteps'
  obtain ⟨rfl, hlast⟩ := List.append_inj' hsteps' rfl
  rw [origin_sibling t hsteps.text_ne, hp.walk] at hwalk
  exact ⟨(Except.ok.inj hwalk).symm, (List.singleton_inj.1 hlast).symm⟩

theorem Stands.eq_of_resolveParent (hp : t.Stands p before l) (hsteps : SiblingSteps p before last)
    (h : t.resolveParent p = .ok (m, .name n)) : m = l ∧ n = last := by
  have hself : p.sibling "" = p := by rw [Path.sibling, String.append_empty]
  rw [← hself] at h
  have hslash : '/' ∉ "".toList := List.not_mem_nil
  simpa using hp.eq_of_resolveParent_sibling hsteps hslash h

theorem Stands.eq_of_names_sibling (hp : t.Stands p before l) (hsteps : SiblingSteps p before last)
    (hsuffix : '/' ∉ suffix.toList) (h : t.Names (p.sibling suffix) m n) :
    m = l ∧ n = last ++ suffix :=
  hp.eq_of_resolveParent_sibling hsteps hsuffix h.resolveParent_eq

theorem Stands.eq_of_names (hp : t.Stands p before l) (hsteps : SiblingSteps p before last)
    (h : t.Names p m n) : m = l ∧ n = last :=
  hp.eq_of_resolveParent hsteps h.resolveParent_eq

theorem Stands.names_sibling (hp : t.Stands p before l) (hsteps : SiblingSteps p before last)
    (hsuffix : '/' ∉ suffix.toList) (hcheck : checkPath (p.sibling suffix) = .ok ())
    (hname : IsName (last ++ suffix)) (hslash : (p.sibling suffix).endsInSlash = false) :
    t.Names (p.sibling suffix) l (last ++ suffix) where
  check := hcheck
  walk := ⟨before, hsteps.sibling suffix hsuffix, origin_sibling t hsteps.text_ne suffix ▸ hp.walk⟩
  directory := hp.directory
  isName := hname
  endsInSlash := hslash

theorem sibling_ne_self (hne : suffix ≠ "") : l ++ [last ++ suffix] ≠ l ++ [last] := by
  intro h
  have hlast : last ++ suffix = last := List.singleton_inj.1 (List.append_cancel_left h)
  exact hne (by simpa using congrArg String.toList hlast)

theorem sibling_ne_sibling {suffix' : String} (hne : suffix ≠ suffix') :
    l ++ [last ++ suffix] ≠ l ++ [last ++ suffix'] := by
  simpa using hne

end Siblings

end FileTree

end Pagewright

import Pagewright.Proofs.Places

/-!
# What a replacement leaves

Suffixes are arbitrary texts, so the backup and the side file may be the target itself, each other,
in another directory, or nowhere. What a replacement leaves at the target and at the backup depends
only on which of their places are there and which are the same (`Left.replaced`,
`replaceFile_leaves`). From that table follows when the previous version is lost
(`replaceFile_remains`), and that a verified replacement which fails leaves the target as it was
unless there is no place for the rejected content (`replaceFile_verified`).
-/

namespace Pagewright

open Text FileTree Replacing
open FileProgram (run_bind_ok run_bind_error run_lift)

/-- What is at the target and at the backup after a replacement. -/
structure Left where
  target : Option Bytes
  backup : Option Bytes
  deriving DecidableEq, Repr

namespace Left

/-- What a comparison leaves when the target is at `x` and the backup at `y`. -/
def compared (x y : Location) (side : Option Location) (old new : Bytes) : Left :=
  match side with
  | none => ⟨some new, some old⟩
  | some z =>
    -- What is in the place of the side file is removed before anything is moved.
    if z = x then ⟨none, some old⟩
    else if z = y then ⟨some new, none⟩
    else if new = old then ⟨some new, some old⟩
    else ⟨some old, none⟩

/-- What a replacement leaves when the target is at `x`. -/
def replaced (x : Location) (backup side : Option Location) (old new : Bytes) (verify : Bool) :
    Left :=
  match backup with
  | none => ⟨some old, none⟩
  | some y =>
    if y = x then ⟨none, none⟩
    else if verify then compared x y side old new
    else ⟨some new, some old⟩

/-- A tree with these contents at the places of the target and of the backup. -/
structure IsIn (left : Left) (base : FileTree) (x : Location) (backup : Option Location)
    (t : FileTree) : Prop where
  same : SameDirectories base t
  target : t.get? x = left.target.map .file
  backup : ∀ y, backup = some y → t.get? y = left.backup.map .file

namespace IsIn

variable {left : Left} {base t : FileTree} {x : Location} {place? : Option Location} {p : Path}
  {content : Bytes}

theorem read_target_iff (h : left.IsIn base x place? t) (hx : base.place? p = some x) :
    t.read p = .ok content ↔ left.target = some content := by
  rw [h.same.read_eq_ok_iff, hx]
  have htarget := h.target
  cases hleft : left.target <;> simp [htarget, hleft]

theorem read_backup_iff (h : left.IsIn base x (base.place? p) t) :
    t.read p = .ok content ↔ base.place? p ≠ none ∧ left.backup = some content := by
  rw [h.same.read_eq_ok_iff]
  have hbackup := h.backup
  cases hp : base.place? p with
  | none => simp
  | some y => cases hleft : left.backup <;> simp [hbackup y hp, hleft]

end IsIn

end Left

section Remains

variable {base t t' : FileTree} {target p : Path} {options : ReplaceOptions} {x y : Location}
  {content old new : Bytes}

/-! ## Steps -/

theorem removeIfPresent_run (h : SameDirectories base t) (hx : base.place? p = some x) :
    (removeIfPresent p).run.run t = (.ok (), t.erase x) := by
  unfold removeIfPresent
  rw [run_bind_ok _ (run_lift _), FileProgram.run_exists?, h.inspect_eq hx]
  rcases file_or_none_of_place? (h.place?_eq_some hx) with hnone | ⟨content, hfile⟩
  · rw [hnone, erase_eq_self (ne_nil_of_place? hx) hnone]
    rfl
  · rw [hfile]
    exact run_attempt_change rfl (h.remove_eq hx hfile)

/-- Without a place there is nothing to remove, or it is not removed. -/
theorem removeIfPresent_run_of_no_place (h : SameDirectories base t) (hp : base.place? p = none) :
    (removeIfPresent p).run.run t = (.ok (), t) ∨
      ∃ e, (removeIfPresent p).run.run t = (.error e, t) := by
  unfold removeIfPresent
  rw [run_bind_ok _ (run_lift _), FileProgram.run_exists?]
  cases (t.inspect p).isSome with
  | false => exact .inl rfl
  | true =>
    obtain ⟨e, he⟩ := h.exists_remove_eq_error hp
    exact .inr ⟨_, run_attempt_failure rfl he⟩

/-- The ancestors of a file are there. -/
theorem makeAncestors_run_of_place (hx : t.place? target = some x) :
    (makeAncestors target).run.run t = (.ok (), t) := by
  obtain ⟨l, n, hnames, -, -⟩ := place?_eq_some_iff.1 hx
  obtain ⟨before, hsteps, hwalk⟩ := hnames.walk
  obtain ⟨hbefore, htrail⟩ := trail_of_walk hwalk hnames.directory
  exact makeAncestors_run_of_trail hsteps hnames.isName.ne_here hnames.check hbefore htrail

/-! ## The comparison -/

section Comparison

variable (h : SameDirectories base t) (hxy : y ≠ x)

include h hxy

/-- All is as it is to be once the place of the side file is free, when the content did not change
or that place is the target's. -/
theorem isIn_erase {z : Location} (hz : base.place? (target.sibling options.newSuffix) = some z)
    (htarget : t.get? x = some (.file new)) (hbackup : t.get? y = some (.file old))
    (hdone : new = old ∨ z = x) :
    (Left.compared x y (some z) old new).IsIn base x (some y) (t.erase z) := by
  have hget : ∀ m, (t.erase z).get? m = if z = m then none else t.get? m :=
    fun m => get?_erase (ne_nil_of_place? hz)
  refine ⟨h.erase hz, ?_, fun y' heq => ?_⟩
  · rw [hget, htarget, Left.compared]
    by_cases hzx : z = x
    · simp [hzx]
    · by_cases hzy : z = y <;> simp [hzx, hzy, hxy, hdone.resolve_right hzx]
  · rw [← Option.some.inj heq, hget, hbackup, Left.compared]
    by_cases hzx : z = x
    · simp [hzx, Ne.symm hxy]
    · by_cases hzy : z = y <;> simp [hzx, hzy, hxy, hdone.resolve_right hzx]

variable (hx : base.place? target = some x)
  (hy : base.place? (target.sibling options.backupSuffix) = some y)

include hx hy

/-- Putting the previous version back. When the side file takes the place of the backup, it is the
new content that comes back. -/
theorem putBack_run {z : Location} (hz : base.place? (target.sibling options.newSuffix) = some z)
    (htarget : t.get? x = some (.file new)) (hbackup : z ≠ y → t.get? y = some (.file old))
    (e : ReplaceError) : ∃ t',
    (do attempt target (.rename target (target.sibling options.newSuffix))
        attempt (target.sibling options.backupSuffix)
          (.rename (target.sibling options.backupSuffix) target)
        throw e : Replacing Replaced).run.run t = (.error e, t') ∧
      (⟨some (if z = y then new else old), none⟩ : Left).IsIn base x (some y) t' := by
  obtain ⟨t₁, hrename, h₁, hside, hgone, hother⟩ := h.rename_eq hx hz htarget
  have hbackup₁ : t₁.get? y = some (.file (if z = y then new else old)) := by
    split
    · next hzy => rw [← hzy, hside]
    · next hzy => rw [hother y hxy (Ne.symm hzy), hbackup hzy]
  obtain ⟨t', hrename', h', htarget', hgone', -⟩ := h₁.rename_eq hy hx hbackup₁
  refine ⟨t', ?_, h', htarget', fun y' heq => ?_⟩
  · rw [run_bind_ok _ (run_attempt_change rfl hrename),
      run_bind_ok _ (run_attempt_change rfl hrename')]
    rfl
  · rw [← Option.some.inj heq]
    exact hgone' hxy

variable (htarget : t.get? x = some (.file new)) (hbackup : t.get? y = some (.file old))

include htarget hbackup

/-- **A comparison** with the side file anywhere. It finds the same content or fails. -/
theorem verifyReplaced_leaves : ∃ result t',
    (verifyReplaced target (target.sibling options.backupSuffix) new options).run.run t =
        (result, t') ∧
      (Left.compared x y (base.place? (target.sibling options.newSuffix)) old new).IsIn base x
        (some y) t' ∧
      ((∃ e, result = .error e) ∨ new = old) := by
  have hchanged : new ≠ old → ∃ offset, firstMismatch old new = some offset := fun hne =>
    Option.ne_none_iff_exists'.1 (mt firstMismatch_eq_none_iff.1 (Ne.symm hne))
  unfold verifyReplaced
  rw [run_bind_ok _ (readBackup_run (h.read_eq_ok_iff.2 ⟨y, hy, hbackup⟩))]
  cases hz : base.place? (target.sibling options.newSuffix) with
  | none =>
    -- Nothing is removed or moved, whether the contents differ or not.
    have hkept : (Left.compared x y none old new).IsIn base x (some y) t :=
      ⟨h, htarget, fun _ heq => Option.some.inj heq ▸ hbackup⟩
    rcases removeIfPresent_run_of_no_place h hz with hrun | ⟨e, hrun⟩
    · rw [run_bind_ok _ hrun]
      by_cases hsame : new = old
      · rw [firstMismatch_eq_none_iff.2 hsame.symm]
        exact ⟨_, t, rfl, hkept, .inr hsame⟩
      · obtain ⟨offset, hoffset⟩ := hchanged hsame
        obtain ⟨e, he⟩ := h.exists_rename_eq_error hx (.inl hz)
        rw [hoffset]
        exact ⟨_, t, run_bind_error _ (run_attempt_failure rfl he), hkept, .inl ⟨_, rfl⟩⟩
    · exact ⟨_, t, run_bind_error _ hrun, hkept, .inl ⟨e, rfl⟩⟩
  | some z =>
    have h₁ : SameDirectories base (t.erase z) := h.erase hz
    have hget : ∀ m, (t.erase z).get? m = if z = m then none else t.get? m :=
      fun m => get?_erase (ne_nil_of_place? hz)
    rw [run_bind_ok _ (removeIfPresent_run h hz)]
    by_cases hsame : new = old
    · rw [firstMismatch_eq_none_iff.2 hsame.symm]
      exact ⟨_, t.erase z, rfl, isIn_erase h hxy hz htarget hbackup (.inl hsame), .inr hsame⟩
    · obtain ⟨offset, hoffset⟩ := hchanged hsame
      rw [hoffset]
      by_cases hzx : z = x
      -- The target was removed as the side file, and there is nothing to move aside.
      · obtain ⟨e, he⟩ := h₁.exists_rename_eq_error (q := target.sibling options.newSuffix) hx
          (.inr (by rw [hget, if_pos hzx]))
        exact ⟨_, t.erase z, run_bind_error _ (run_attempt_failure rfl he),
          isIn_erase h hxy hz htarget hbackup (.inr hzx), .inl ⟨_, rfl⟩⟩
      · have hcompared : Left.compared x y (some z) old new =
            ⟨some (if z = y then new else old), none⟩ := by
          by_cases hzy : z = y <;> simp [Left.compared, hzx, hzy, hsame, hxy]
        obtain ⟨t', hrun, hleft⟩ := putBack_run h₁ hxy hx hy hz (by rw [hget, if_neg hzx, htarget])
          (fun hzy => by rw [hget, if_neg hzy, hbackup]) _
        exact ⟨_, t', hrun, hcompared ▸ hleft, .inl ⟨_, rfl⟩⟩

end Comparison

/-! ## The backup -/

section Backup

variable {α : Type} (h : SameDirectories base t) (hx : base.place? target = some x)
  (hfile : t.get? x = some (.file content)) (rest : Unit → Replacing α)

include h hx

/-- Without a place for the backup the file stays. -/
theorem backUp_run_of_no_place (hp : base.place? p = none) : ∃ e,
    (removeIfPresent p >>= fun _ => attempt target (.rename target p) >>= rest).run.run t =
      (.error e, t) := by
  rcases removeIfPresent_run_of_no_place h hp with hrun | ⟨e, hrun⟩
  · obtain ⟨e, he⟩ := h.exists_rename_eq_error hx (.inl hp)
    rw [run_bind_ok _ hrun]
    exact ⟨_, run_bind_error _ (run_attempt_failure rfl he)⟩
  · exact ⟨e, run_bind_error _ hrun⟩

/-- A file in the place of its own backup is removed. -/
theorem backUp_run_of_same_place (hp : base.place? p = some x) : ∃ e,
    (removeIfPresent p >>= fun _ => attempt target (.rename target p) >>= rest).run.run t =
      (.error e, t.erase x) := by
  have hgone : (t.erase x).get? x = none := by rw [get?_erase (ne_nil_of_place? hx), if_pos rfl]
  obtain ⟨e, he⟩ := (h.erase hp).exists_rename_eq_error (q := p) hx (.inr hgone)
  rw [run_bind_ok _ (removeIfPresent_run h hp)]
  exact ⟨_, run_bind_error _ (run_attempt_failure rfl he)⟩

include hfile

theorem backUp_run (hp : base.place? p = some y) (hyx : y ≠ x) : ∃ t',
    (removeIfPresent p >>= fun _ => attempt target (.rename target p) >>= rest).run.run t =
        (rest ()).run.run t' ∧
      SameDirectories base t' ∧ t'.get? y = some (.file content) := by
  have hkept : (t.erase y).get? x = some (.file content) := by
    rw [get?_erase (ne_nil_of_place? hp), if_neg hyx, hfile]
  obtain ⟨t', hrename, h', hbackup, -⟩ := (h.erase hp).rename_eq hx hp hkept
  refine ⟨t', ?_, h', hbackup⟩
  rw [run_bind_ok _ (removeIfPresent_run h hp), run_bind_ok _ (run_attempt_change rfl hrename)]

end Backup

/-! ## The replacement -/

/-- **A replacement** with the backup and the side file anywhere. A verified one finds the same
content or fails. -/
theorem replaceFile_leaves (hwf : t.WF) (hx : t.place? target = some x)
    (hfile : t.get? x = some (.file old)) (options : ReplaceOptions) (text : String)
    (verify : Bool) : ∃ result t',
    (replaceFile target text verify options).run.run t = (result, t') ∧
      (Left.replaced x (t.place? (target.sibling options.backupSuffix))
        (t.place? (target.sibling options.newSuffix)) old (Utf8.encode text) verify).IsIn t x
        (t.place? (target.sibling options.backupSuffix)) t' ∧
      (verify = true → (∃ e, result = .error e) ∨ Utf8.encode text = old) := by
  have h : SameDirectories t t := .refl hwf
  unfold replaceFile
  rw [run_bind_ok _ (makeAncestors_run_of_place hx), run_bind_ok _ (run_lift _),
    FileProgram.run_exists?, h.inspect_eq hx, hfile]
  simp only [Option.map_some, Option.isSome_some, if_true]
  cases hy : t.place? (target.sibling options.backupSuffix) with
  | none =>
    obtain ⟨e, hrun⟩ := backUp_run_of_no_place h hx _ hy
    exact ⟨_, t, hrun, ⟨h, hfile, nofun⟩, fun _ => .inl ⟨e, rfl⟩⟩
  | some y =>
    by_cases hyx : y = x
    · subst hyx
      obtain ⟨e, hrun⟩ := backUp_run_of_same_place h hx _ hy
      have hgone : (t.erase y).get? y = none := by
        rw [get?_erase (ne_nil_of_place? hx), if_pos rfl]
      rw [Left.replaced, if_pos rfl]
      exact ⟨_, _, hrun, ⟨h.erase hy, hgone, fun _ heq => Option.some.inj heq ▸ hgone⟩,
        fun _ => .inl ⟨e, rfl⟩⟩
    · obtain ⟨t₁, hrun, h₁, hbackup⟩ := backUp_run h hx hfile _ hy hyx
      have h₂ := h₁.insert hx (Utf8.encode text)
      have hget : ∀ m, (t₁.insert x (.file (Utf8.encode text))).get? m =
          if x = m then some (.file (Utf8.encode text)) else t₁.get? m :=
        fun m => get?_insert (ne_nil_of_place? hx) _
      have htarget₂ := (hget x).trans (if_pos rfl)
      have hbackup₂ := ((hget y).trans (if_neg (Ne.symm hyx))).trans hbackup
      rw [hrun, run_bind_ok _ (run_attempt_change rfl (h₁.write_eq hx _)), Left.replaced,
        if_neg hyx]
      cases verify with
      | false =>
        exact ⟨_, _, rfl, ⟨h₂, htarget₂, fun _ heq => Option.some.inj heq ▸ hbackup₂⟩, nofun⟩
      | true =>
        obtain ⟨result, t', hrun, hleft, hresult⟩ :=
          verifyReplaced_leaves h₂ hyx hx hy htarget₂ hbackup₂
        exact ⟨result, t', hrun, hleft, fun _ => hresult⟩

/-- **When the previous version remains.** Wherever the suffixes lead, a replacement of a file that
ends, with or without an error, leaves its previous version at the target or at the backup unless
these are the same file, or the new content differs from it in a verified replacement and the side
file is put in the place of the backup. -/
theorem replaceFile_remains (hwf : t.WF) (h : t.read target = .ok content)
    {result : Except ReplaceError Replaced} {text : String} {verify : Bool}
    (hrun : (replaceFile target text verify options).run.run t = (result, t')) :
    (t'.read target = .ok content ∨
        t'.read (target.sibling options.backupSuffix) = .ok content) ↔
      t.place? (target.sibling options.backupSuffix) ≠ t.place? target ∧
        (verify = true → Utf8.encode text ≠ content →
          t.place? (target.sibling options.backupSuffix) = none ∨
            t.place? (target.sibling options.newSuffix) ≠
              t.place? (target.sibling options.backupSuffix)) := by
  obtain ⟨x, hx, hfile⟩ := hwf.read_eq_ok_iff.1 h
  obtain ⟨result', t'', hrun', hleft, -⟩ := replaceFile_leaves hwf hx hfile options text verify
  obtain ⟨rfl, rfl⟩ := Prod.mk.inj (hrun.symm.trans hrun')
  rw [hleft.read_target_iff hx, hleft.read_backup_iff, hx]
  cases t.place? (target.sibling options.backupSuffix) with
  | none => simp [Left.replaced]
  | some y =>
    by_cases hyx : y = x
    · simp [Left.replaced, hyx]
    cases verify with
    | false => simp [Left.replaced, hyx]
    | true =>
      cases t.place? (target.sibling options.newSuffix) with
      | none => simp [Left.replaced, Left.compared, hyx]
      | some z =>
        by_cases hzx : z = x
        · subst hzx
          simp [Left.replaced, Left.compared, hyx, Ne.symm hyx]
        by_cases hzy : z = y
        · subst hzy
          by_cases hsame : Utf8.encode text = content <;>
            simp [Left.replaced, Left.compared, hzx, hsame]
        · by_cases hsame : Utf8.encode text = content <;>
            simp [Left.replaced, Left.compared, hyx, hzx, hzy, hsame]

/-- Without a backup suffix the file is removed to make room for its backup. -/
theorem replaceFile_remains_no_suffix :
    let t : FileTree := ⟨(∅ : Std.ExtTreeMap Location Entry).insert ["p"] (.file [65]), []⟩
    let t' := ((replaceFile ⟨"/p"⟩ "B" false ⟨"", ".new", 40⟩).run.run t).2
    t.WF ∧ t.read ⟨"/p"⟩ = .ok [65] ∧ t'.read ⟨"/p"⟩ ≠ .ok [65] := by
  intro t t'
  have hwf : t.WF := .of_keys (by decide +kernel)
  have hread : t.read ⟨"/p"⟩ = .ok [65] := by rfl
  have hrun : (replaceFile ⟨"/p"⟩ "B" false ⟨"", ".new", 40⟩).run.run t = (_, t') :=
    (Prod.eta _).symm
  have hself : (⟨"/p"⟩ : Path).sibling "" = ⟨"/p"⟩ := by rfl
  have hsame : t.place? ((⟨"/p"⟩ : Path).sibling "") = t.place? ⟨"/p"⟩ := congrArg t.place? hself
  refine ⟨hwf, hread, fun hremains => ?_⟩
  exact ((replaceFile_remains hwf hread hrun).1 (.inl hremains)).1 hsame

/-- With the same suffix for both, a rejected version takes the place of the previous one and is
then put back instead. -/
theorem not_replaceFile_remains_any_suffix :
    ¬ ∀ (t t' : FileTree) (target : Path) (content : Bytes) (options : ReplaceOptions)
      (text : String) (verify : Bool) (result : Except ReplaceError Replaced),
      t.WF → t.read target = .ok content →
        (replaceFile target text verify options).run.run t = (result, t') →
          t'.read target = .ok content ∨
            t'.read (target.sibling options.backupSuffix) = .ok content := by
  intro h
  let t : FileTree := ⟨(∅ : Std.ExtTreeMap Location Entry).insert ["p"] (.file [65]), []⟩
  let t' := ((replaceFile ⟨"/p"⟩ "B" true ⟨".v", ".v", 40⟩).run.run t).2
  have hnew : (t'.read ⟨"/p"⟩).toOption = some [66] := by decide +kernel
  have hgone : (t'.read ⟨"/p.v"⟩).toOption = none := by decide +kernel
  rcases h t t' ⟨"/p"⟩ [65] ⟨".v", ".v", 40⟩ "B" true _ (.of_keys (by decide +kernel)) (by rfl)
    (Prod.eta _).symm with htarget | hbackup
  · rw [htarget] at hnew
    cases hnew
  · have hpath : (⟨"/p"⟩ : Path).sibling ".v" = ⟨"/p.v"⟩ := by rfl
    rw [hpath] at hbackup
    rw [hbackup] at hgone
    cases hgone

/-- **A verified replacement** finds the same content or fails. With suffixes that make two further
names, the target is then as it was, except when the content differs and no file may be made at the
side file's path: then the new content is at the target and the previous version at the backup. -/
theorem replaceFile_verified (hwf : t.WF) (h : t.read target = .ok content)
    (hoptions : options.Distinguishes) {result : Except ReplaceError Replaced} {text : String}
    (hrun : (replaceFile target text true options).run.run t = (result, t')) :
    ((∃ e, result = .error e) ∨ Utf8.encode text = content) ∧
      (t'.read target = .ok content ↔
        t.place? (target.sibling options.newSuffix) ≠ none ∨
          t.place? (target.sibling options.backupSuffix) = none ∨ Utf8.encode text = content) ∧
      (t'.read target = .ok content ∨ t'.read target = .ok (Utf8.encode text) ∧
        t'.read (target.sibling options.backupSuffix) = .ok content) := by
  obtain ⟨x, hx, hfile⟩ := hwf.read_eq_ok_iff.1 h
  obtain ⟨result', t'', hrun', hleft, hresult⟩ := replaceFile_leaves hwf hx hfile options text true
  obtain ⟨rfl, rfl⟩ := Prod.mk.inj (hrun.symm.trans hrun')
  refine ⟨hresult rfl, ?_⟩
  obtain ⟨l, n, hnames, -, rfl⟩ := place?_eq_some_iff.1 hx
  rw [hleft.read_target_iff hx, hleft.read_target_iff hx, hleft.read_backup_iff]
  cases hy : t.place? (target.sibling options.backupSuffix) with
  | none => simp [Left.replaced]
  | some y =>
    obtain rfl := hnames.place?_sibling hoptions.backup_slash hy
    have hyx : l ++ [n ++ options.backupSuffix] ≠ l ++ [n] := sibling_ne_self hoptions.backup_ne
    cases hz : t.place? (target.sibling options.newSuffix) with
    | none => simp [Left.replaced, Left.compared, hyx]
    | some z =>
      obtain rfl := hnames.place?_sibling hoptions.new_slash hz
      have hzx : l ++ [n ++ options.newSuffix] ≠ l ++ [n] := sibling_ne_self hoptions.new_ne
      have hzy : l ++ [n ++ options.newSuffix] ≠ l ++ [n ++ options.backupSuffix] :=
        sibling_ne_sibling (Ne.symm hoptions.distinct)
      by_cases hsame : Utf8.encode text = content
      · simp [Left.replaced, Left.compared, hyx, hzx, hzy, hsame]
      · simp [Left.replaced, Left.compared, hyx, hzx, hzy, hsame]

/-- A directory at the side file's path. -/
theorem replaceFile_verified_blocked :
    let t : FileTree :=
      ⟨((∅ : Std.ExtTreeMap Location Entry).insert ["p"] (.file [65])).insert ["p.new"] .directory,
        []⟩
    let t' := ((replaceFile ⟨"/p"⟩ "B" true {}).run.run t).2
    t.WF ∧ t.read ⟨"/p"⟩ = .ok [65] ∧ t.place? ⟨"/p.new"⟩ = none ∧
      t'.read ⟨"/p"⟩ = .ok [66] ∧ t'.read ⟨"/p~"⟩ = .ok [65] := by
  intro t t'
  have hwf : t.WF := .of_keys (by decide +kernel)
  have hread : t.read ⟨"/p"⟩ = .ok [65] := by rfl
  have hside : t.place? ⟨"/p.new"⟩ = none := by rfl
  have hbackup : t.place? ⟨"/p~"⟩ = some ["p~"] := by rfl
  have hoptions : ({} : ReplaceOptions).Distinguishes :=
    ⟨by decide, by decide, by decide, by decide, by decide⟩
  obtain ⟨-, huntouched, hleft⟩ := replaceFile_verified hwf hread hoptions (Prod.eta _).symm
  have hchanged : t'.read ⟨"/p"⟩ ≠ .ok [65] := by
    intro h
    rcases huntouched.1 h with hplace | hplace | hsame
    · exact hplace hside
    · exact absurd (hbackup.symm.trans hplace) nofun
    · exact absurd hsame (by decide)
  exact ⟨hwf, hread, hside, hleft.resolve_left hchanged⟩

theorem not_replaceFile_verified_untouched :
    ¬ ∀ (t t' : FileTree) (target : Path) (content : Bytes) (options : ReplaceOptions)
      (text : String) (e : ReplaceError), t.WF → t.read target = .ok content →
        options.Distinguishes →
          (replaceFile target text true options).run.run t = (.error e, t') →
            t'.read target = .ok content := by
  intro h
  let t : FileTree :=
    ⟨((∅ : Std.ExtTreeMap Location Entry).insert ["p"] (.file [65])).insert ["p.new"] .directory,
      []⟩
  let t' := ((replaceFile ⟨"/p"⟩ "B" true {}).run.run t).2
  have hfails : ((replaceFile ⟨"/p"⟩ "B" true {}).run.run t).1 =
      .error (.file ⟨"/p.new"⟩ .isADirectory) := by rfl
  have hnew : t'.read ⟨"/p"⟩ = .ok [66] := by rfl
  have hold := h t t' ⟨"/p"⟩ [65] {} "B" _ (.of_keys (by decide +kernel)) (by rfl)
    ⟨by decide, by decide, by decide, by decide, by decide⟩ (Prod.ext hfails rfl)
  rw [hnew] at hold
  cases hold

end Remains

end Pagewright

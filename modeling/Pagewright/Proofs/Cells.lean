import Pagewright.Proofs.Ancestors
import Pagewright.Proofs.Survival

/-!
# Replacing as a machine of three cells

As long as nothing fails, a replacement is a step of a small machine: its cells are the contents of
the target, of the backup and of the side file for rejected content, and the target's cell decides
what happens (`Cells.next`, `Cells.answer`). A sequence of replacements is a run of the machine, and
it changes nothing else, but for the ancestors of the target that are missing at first
(`replaceAll_cells`). None of these ancestors may be one of the three files: it is made a directory,
and no cell holds that (`not_replaceAll_cells_ancestor`).
-/

namespace Pagewright

open Text FileTree

/-- The three files of a replacement. -/
inductive Cell where
  | target
  /-- The previous version. -/
  | backup
  /-- A rejected new version. -/
  | side
  deriving DecidableEq, Repr

/-- What the three files hold. -/
structure Cells where
  target : Option Bytes
  backup : Option Bytes
  side : Option Bytes
  deriving DecidableEq, Repr

/-- The arguments of a replacement that vary. -/
structure Replacement where
  text : String
  verify : Bool
  deriving DecidableEq, Repr

/-! ## The machine -/

namespace Cells

def get (c : Cells) : Cell → Option Bytes
  | .target => c.target
  | .backup => c.backup
  | .side => c.side

def set (c : Cells) (content : Option Bytes) : Cell → Cells
  | .target => { c with target := content }
  | .backup => { c with backup := content }
  | .side => { c with side := content }

/-- What a replacement makes of the cells. -/
def next (c : Cells) (r : Replacement) : Cells :=
  let new := Utf8.encode r.text
  match c.target with
  | none => { c with target := some new, backup := none }
  | some previous =>
    if r.verify then
      if new = previous then { target := some new, backup := some previous, side := none }
      else { target := some previous, backup := none, side := some new }
    else { c with target := some new, backup := some previous }

/-- What the comparison of new content with the previous version answers. -/
def verdict (target : Path) (options : ReplaceOptions) (previous new : Bytes) :
    Except ReplaceError Replaced :=
  if new = previous then
    .ok { target, backup := some (target.sibling options.backupSuffix), verified := true }
  else
    let offset := (firstMismatch previous new).getD 0
    .error (.changed target (target.sibling options.newSuffix) offset
      (excerpt previous offset options.contextBytes) (excerpt new offset options.contextBytes))

def answer (target : Path) (options : ReplaceOptions) (c : Cells) (r : Replacement) :
    Except ReplaceError Replaced :=
  match c.target with
  | none => .ok { target, backup := none, verified := false }
  | some previous =>
    if r.verify then verdict target options previous (Utf8.encode r.text)
    else .ok { target, backup := some (target.sibling options.backupSuffix), verified := false }

def answers (target : Path) (options : ReplaceOptions) :
    Cells → List Replacement → List (Except ReplaceError Replaced)
  | _, [] => []
  | c, r :: rs => c.answer target options r :: (c.next r).answers target options rs

variable {c : Cells} {content : Option Bytes} {i j : Cell}

theorem get_set : (c.set content i).get j = if i = j then content else c.get j := by
  cases i <;> cases j <;> rfl

theorem set_get (h : c.get i = content) : c.set content i = c := by
  subst h
  cases i <;> rfl

/-- After two replacements that are not verified, the cells hold their contents. -/
theorem next_next {a b : Replacement} (ha : a.verify = false) (hb : b.verify = false) :
    ((c.next a).next b).target = some (Utf8.encode b.text) ∧
      ((c.next a).next b).backup = some (Utf8.encode a.text) := by
  have htarget : (c.next a).target = some (Utf8.encode a.text) := by
    unfold next
    cases c.target with
    | none => rfl
    | some previous => simp [ha]
  generalize c.next a = c' at htarget
  simp [next, htarget, hb]

end Cells

def replaceAll (target : Path) (options : ReplaceOptions) :
    List Replacement → FileProgram (List (Except ReplaceError Replaced))
  | [] => return []
  | r :: rs => do
    let result ← (replaceFile target r.text r.verify options).run
    let results ← replaceAll target options rs
    return result :: results

/-! ## The places of the cells -/

namespace Cell

/-- What follows the target's name in the name of a file. -/
def suffix (options : ReplaceOptions) : Cell → String
  | .target => ""
  | .backup => options.backupSuffix
  | .side => options.newSuffix

def path (target : Path) (options : ReplaceOptions) (i : Cell) : Path :=
  target.sibling (i.suffix options)

/-- The location of a file, for the directory and the name of the target. -/
def location (options : ReplaceOptions) (d : Location) (last : String) (i : Cell) : Location :=
  d ++ [last ++ i.suffix options]

variable {target : Path} {options : ReplaceOptions} {d : Location} {last : String} {i j : Cell}

@[simp] theorem path_target : Cell.target.path target options = target := by
  simp [path, suffix, Path.sibling]

theorem path_backup : Cell.backup.path target options = target.sibling options.backupSuffix := rfl

theorem path_side : Cell.side.path target options = target.sibling options.newSuffix := rfl

theorem location_ne_nil : i.location options d last ≠ [] := by
  simp [location]

theorem location_inj (hoptions : options.Distinguishes)
    (h : i.location options d last = j.location options d last) : i = j := by
  have hsuffix : i.suffix options = j.suffix options := by simpa [location] using h
  cases i <;> cases j <;> first | rfl | skip
  · exact absurd hsuffix.symm hoptions.backup_ne
  · exact absurd hsuffix.symm hoptions.new_ne
  · exact absurd hsuffix hoptions.backup_ne
  · exact absurd hsuffix hoptions.distinct
  · exact absurd hsuffix hoptions.new_ne
  · exact absurd hsuffix.symm hoptions.distinct

end Cell

/-- What a file holds; nothing when it is absent or no file. -/
def FileTree.content? (t : FileTree) (l : Location) : Option Bytes :=
  match t.get? l with
  | some (.file content) => some content
  | _ => none

/-- The cells in a tree, for the directory and the name of the target. -/
def FileTree.cells (t : FileTree) (options : ReplaceOptions) (d : Location) (last : String) :
    Cells where
  target := t.content? (Cell.target.location options d last)
  backup := t.content? (Cell.backup.location options d last)
  side := t.content? (Cell.side.location options d last)

/-- Three paths that a file system takes, in the directory to which `before` leads. -/
structure IsPlace (target : Path) (options : ReplaceOptions) (before : List String)
    (last : String) : Prop where
  distinguishes : options.Distinguishes
  steps : stepsOf target = before ++ [last]
  endsInSlash : target.endsInSlash = false
  check : ∀ i : Cell, checkPath (i.path target options) = .ok ()
  name : ∀ i : Cell, IsName (last ++ i.suffix options)

/-- A place where nothing hinders a replacement: the ancestors of the target are directories or may
be made, and the three paths are files or absent. -/
structure MayReplace (t : FileTree) (target : Path) (options : ReplaceOptions)
    (before : List String) (last : String) : Prop where
  place : IsPlace target options before last
  ancestors : IsOpen t target before
  free : ∀ i : Cell, t.get? (i.location options (arrival (t.origin target) before) last) ≠
    some .directory

/-- No file of a replacement is on the way to the target. -/
def OffTrail (t : FileTree) (target : Path) (options : ReplaceOptions) (before : List String)
    (last : String) : Prop :=
  ∀ i : Cell, i.location options (arrival (t.origin target) before) last ∉
    trail (t.origin target) before

/-! ## What operations do to the cells -/

/-- A tree that has the cells and is, everywhere else, as the tree `base`. -/
structure Shows (base : FileTree) (options : ReplaceOptions) (d : Location) (last : String)
    (c : Cells) (t : FileTree) : Prop where
  keeps : KeepsDirectories base t
  cell : ∀ i : Cell, t.get? (i.location options d last) = (c.get i).map .file
  other : ∀ l, (∀ i : Cell, l ≠ i.location options d last) → t.get? l = base.get? l

section Operations

variable {base t : FileTree} {target : Path} {options : ReplaceOptions} {before : List String}
  {last : String} {d l : Location} {c : Cells} {i j : Cell} {content : Bytes}

theorem IsPlace.siblingSteps (h : IsPlace target options before last) :
    SiblingSteps target before last := by
  have htext : target.text ≠ "" := by
    intro hempty
    have hsteps := h.steps
    rw [stepsOf_eq_segments, hempty] at hsteps
    simp [segments] at hsteps
  obtain ⟨before', last', h'⟩ := exists_siblingSteps htext h.endsInSlash
  obtain ⟨rfl, hlast⟩ := List.append_inj' (h.steps.symm.trans h'.steps) rfl
  rwa [List.singleton_inj.1 hlast]

theorem IsPlace.suffix_slash (h : IsPlace target options before last) (i : Cell) :
    '/' ∉ (i.suffix options).toList := by
  cases i with
  | target => exact List.not_mem_nil
  | backup => exact h.distinguishes.backup_slash
  | side => exact h.distinguishes.new_slash

theorem IsPlace.path_endsInSlash (h : IsPlace target options before last) (i : Cell) :
    (i.path target options).endsInSlash = false := by
  cases i with
  | target => rw [Cell.path_target, h.endsInSlash]
  | backup => exact Path.endsInSlash_sibling _ h.distinguishes.backup_ne h.distinguishes.backup_slash
  | side => exact Path.endsInSlash_sibling _ h.distinguishes.new_ne h.distinguishes.new_slash

namespace Shows

theorem not_directory (h : Shows base options d last c t) (i : Cell) :
    t.get? (i.location options d last) ≠ some .directory := by
  rw [h.cell i]
  cases c.get i <;> nofun

theorem of_get? {t' : FileTree} {content : Option Bytes} (h : Shows base options d last c t)
    (hoptions : options.Distinguishes) (hkeeps : KeepsDirectories t t')
    (hget : ∀ l, t'.get? l =
      if i.location options d last = l then content.map .file else t.get? l) :
    Shows base options d last (c.set content i) t' where
  keeps := h.keeps.trans hkeeps
  cell := by
    intro j
    rw [hget, Cells.get_set]
    by_cases hij : i = j
    · rw [if_pos (by rw [hij]), if_pos hij]
    · rw [if_neg fun heq => hij (Cell.location_inj hoptions heq), if_neg hij, h.cell j]
  other := by
    intro l hl
    rw [hget, if_neg (Ne.symm (hl i)), h.other l hl]

theorem insert (h : Shows base options d last c t) (hoptions : options.Distinguishes)
    (i : Cell) (content : Bytes) :
    Shows base options d last (c.set (some content) i)
      (t.insert (i.location options d last) (.file content)) :=
  h.of_get? hoptions (.insert Cell.location_ne_nil (.inl (h.not_directory i)))
    fun _ => get?_insert Cell.location_ne_nil _

theorem erase (h : Shows base options d last c t) (hoptions : options.Distinguishes) (i : Cell) :
    Shows base options d last (c.set none i) (t.erase (i.location options d last)) :=
  h.of_get? hoptions (.erase Cell.location_ne_nil (h.not_directory i))
    fun _ => get?_erase Cell.location_ne_nil

variable (h : Shows base options d last c t) (hplace : IsPlace target options before last)
  (hbase : base.Stands target before d)

include h hplace hbase

theorem names (i : Cell) :
    t.Names (i.path target options) d (last ++ i.suffix options) :=
  (hbase.of_keepsDirectories h.keeps).names_sibling hplace.siblingSteps (hplace.suffix_slash i)
    (hplace.check i) (hplace.name i) (hplace.path_endsInSlash i)

theorem inspect_eq (i : Cell) :
    t.inspect (i.path target options) = (c.get i).map fun _ => .file := by
  rw [(h.names hplace hbase i).inspect_eq, ← Cell.location, h.cell i]
  cases c.get i <;> rfl

theorem read_eq_ok_iff (i : Cell) :
    t.read (i.path target options) = .ok content ↔ c.get i = some content := by
  rw [(h.names hplace hbase i).read_eq_ok_iff, ← Cell.location, h.cell i]
  cases c.get i <;> simp

theorem write (i : Cell) (content : Bytes) : ∃ t',
    t.write (i.path target options) content = .ok t' ∧
      Shows base options d last (c.set (some content) i) t' :=
  ⟨_, write_eq_ok_iff.2 ⟨d, _, h.names hplace hbase i, h.not_directory i, rfl⟩,
    h.insert hplace.distinguishes i content⟩

theorem remove (hi : c.get i = some content) : ∃ t',
    t.remove (i.path target options) = .ok t' ∧
      Shows base options d last (c.set none i) t' := by
  have hfile : t.get? (i.location options d last) = some (.file content) := by
    rw [h.cell i, hi]
    rfl
  exact ⟨_, remove_eq_ok_iff.2 ⟨d, _, content, h.names hplace hbase i, hfile, rfl⟩,
    h.erase hplace.distinguishes i⟩

theorem rename (hi : c.get i = some content) (hij : i ≠ j) : ∃ t',
    t.rename (i.path target options) (j.path target options) = .ok t' ∧
      Shows base options d last ((c.set none i).set (some content) j) t' := by
  have hfile : t.get? (i.location options d last) = some (.file content) := by
    rw [h.cell i, hi]
    rfl
  have hne : last ++ i.suffix options ≠ last ++ j.suffix options := fun heq =>
    hij (Cell.location_inj (d := d) hplace.distinguishes (by rw [Cell.location, heq]; rfl))
  exact ⟨_, rename_sibling_eq (h.names hplace hbase i) (h.names hplace hbase j) hne hfile
    (h.not_directory j), (h.erase hplace.distinguishes i).insert hplace.distinguishes j content⟩

theorem removeIfPresent_run (i : Cell) : ∃ t',
    (Replacing.removeIfPresent (i.path target options)).run.run t = (.ok (), t') ∧
      Shows base options d last (c.set none i) t' := by
  unfold Replacing.removeIfPresent
  rw [FileProgram.run_bind_ok _ (FileProgram.run_lift _), FileProgram.run_exists?,
    h.inspect_eq hplace hbase i]
  cases hi : c.get i with
  | none => exact ⟨t, rfl, by rwa [Cells.set_get hi]⟩
  | some content =>
    obtain ⟨t', hremove, h'⟩ := h.remove hplace hbase hi
    exact ⟨t', Replacing.run_attempt_change rfl hremove, h'⟩

end Shows

/-! ## What a replacement does to them -/

theorem readBackup_run {p : Path} (h : t.read p = .ok content) :
    (readBackup p).run.run t = (.ok content, t) := by
  have hrun : (FileProgram.read p).run t = (.ok content, t) := congrArg (·, t) h
  unfold readBackup
  rw [ExceptT.run_mk, FileProgram.run_bind_eq, hrun]
  rfl

section Runs

variable (hplace : IsPlace target options before last) (hbase : base.Stands target before d)

include hplace hbase

/-- A comparison leaves content that did not change and goes back otherwise. -/
theorem verifyReplaced_run {previous new : Bytes} {side : Option Bytes}
    (h : Shows base options d last ⟨some new, some previous, side⟩ t) : ∃ t',
    (verifyReplaced target (target.sibling options.backupSuffix) new options).run.run t =
        (Cells.verdict target options previous new, t') ∧
      Shows base options d last (if new = previous then ⟨some new, some previous, none⟩
        else ⟨some previous, none, some new⟩) t' := by
  have hread : (readBackup (target.sibling options.backupSuffix)).run.run t = (.ok previous, t) :=
    readBackup_run ((h.read_eq_ok_iff hplace hbase .backup).2 rfl)
  obtain ⟨t₁, hrun₁, h₁⟩ := h.removeIfPresent_run hplace hbase .side
  rw [Cell.path_side] at hrun₁
  unfold verifyReplaced
  rw [FileProgram.run_bind_ok _ hread, FileProgram.run_bind_ok _ hrun₁]
  by_cases hsame : new = previous
  · rw [firstMismatch_eq_none_iff.2 hsame.symm, if_pos hsame, Cells.verdict, if_pos hsame]
    exact ⟨t₁, rfl, h₁⟩
  · obtain ⟨offset, hoffset⟩ := Option.ne_none_iff_exists'.1
      (mt firstMismatch_eq_none_iff.1 (Ne.symm hsame))
    obtain ⟨t₂, hrename₂, h₂⟩ := h₁.rename hplace hbase (i := .target) (j := .side) rfl nofun
    obtain ⟨t₃, hrename₃, h₃⟩ := h₂.rename hplace hbase (i := .backup) (j := .target) rfl nofun
    rw [Cell.path_target, Cell.path_side] at hrename₂
    rw [Cell.path_target, Cell.path_backup] at hrename₃
    rw [hoffset, if_neg hsame, Cells.verdict, if_neg hsame, hoffset]
    simp only
    rw [FileProgram.run_bind_ok _ (Replacing.run_attempt_change rfl hrename₂),
      FileProgram.run_bind_ok _ (Replacing.run_attempt_change rfl hrename₃)]
    exact ⟨t₃, rfl, h₃⟩

variable (hnames : ∀ s ∈ before, IsStep s)
  (htrail : ∀ l ∈ trail (base.origin target) before, base.get? l = some .directory)

include hnames htrail

/-- **A replacement is a step of the machine** once the ancestors of the target are there. -/
theorem replaceFile_run (h : Shows base options d last c t) (r : Replacement) : ∃ t',
    (replaceFile target r.text r.verify options).run.run t = (c.answer target options r, t') ∧
      Shows base options d last (c.next r) t' := by
  have hancestors : (makeAncestors target).run.run t = (.ok (), t) := by
    have hcheck := hplace.check .target
    have hname := hplace.name .target
    rw [Cell.path_target] at hcheck
    rw [Cell.suffix, String.append_empty] at hname
    refine makeAncestors_run_of_trail hplace.steps hname.ne_here hcheck hnames fun l hl => ?_
    exact h.keeps.directory l (htrail l (h.keeps.origin_eq target ▸ hl))
  have hexists : (FileProgram.exists? target).run t = (c.target.isSome, t) := by
    have hinspect := h.inspect_eq hplace hbase .target
    rw [Cell.path_target] at hinspect
    rw [FileProgram.run_exists?, hinspect, Option.isSome_map]
    rfl
  obtain ⟨t₁, hrun₁, h₁⟩ := h.removeIfPresent_run hplace hbase .backup
  rw [Cell.path_backup] at hrun₁
  unfold replaceFile
  rw [FileProgram.run_bind_ok _ hancestors, FileProgram.run_bind_ok _ (FileProgram.run_lift _), hexists]
  simp only
  rw [FileProgram.run_bind_ok _ hrun₁]
  obtain ⟨previous?, backup, side⟩ := c
  cases previous? with
  | none =>
    obtain ⟨t₂, hwrite, h₂⟩ := h₁.write hplace hbase .target (Utf8.encode r.text)
    rw [Cell.path_target] at hwrite
    simp only [Option.isSome_none, Bool.false_eq_true, if_false, Bool.and_false]
    rw [FileProgram.run_bind_ok _ (Replacing.run_attempt_change rfl hwrite)]
    exact ⟨t₂, rfl, h₂⟩
  | some previous =>
    obtain ⟨t₂, hrename, h₂⟩ := h₁.rename hplace hbase (i := .target) (j := .backup) rfl nofun
    obtain ⟨t₃, hwrite, h₃⟩ := h₂.write hplace hbase .target (Utf8.encode r.text)
    rw [Cell.path_target, Cell.path_backup] at hrename
    rw [Cell.path_target] at hwrite
    simp only [Option.isSome_some, if_true, Bool.and_true]
    rw [FileProgram.run_bind_ok _ (Replacing.run_attempt_change rfl hrename),
      FileProgram.run_bind_ok _ (Replacing.run_attempt_change rfl hwrite)]
    cases hverify : r.verify with
    | false =>
      have hnext : Cells.next ⟨some previous, backup, side⟩ r =
          ⟨some (Utf8.encode r.text), some previous, side⟩ := by simp [Cells.next, hverify]
      refine ⟨t₃, by simp [Cells.answer, hverify], ?_⟩
      rw [hnext]
      exact h₃
    | true =>
      obtain ⟨t₄, hrun₄, h₄⟩ := verifyReplaced_run hplace hbase h₃
      refine ⟨t₄, ?_, ?_⟩
      · simpa [Cells.answer, hverify] using hrun₄
      · simpa [Cells.next, hverify] using h₄

/-- **A sequence of replacements is a run of the machine.** -/
theorem replaceAll_run (h : Shows base options d last c t) (rs : List Replacement) : ∃ t',
    (replaceAll target options rs).run t = (c.answers target options rs, t') ∧
      Shows base options d last (rs.foldl Cells.next c) t' := by
  induction rs generalizing c t with
  | nil => exact ⟨t, rfl, h⟩
  | cons r rs ih =>
    obtain ⟨t₁, hrun₁, h₁⟩ := replaceFile_run hplace hbase hnames htrail h r
    obtain ⟨t₂, hrun₂, h₂⟩ := ih h₁
    refine ⟨t₂, ?_, h₂⟩
    rw [replaceAll, FileProgram.run_bind_eq, hrun₁]
    simp only
    rw [FileProgram.run_bind_eq, hrun₂]
    rfl

end Runs

/-! ## From the first tree on -/

theorem content?_map (h : t.get? l ≠ some .directory) :
    (t.content? l).map Entry.file = t.get? l := by
  unfold FileTree.content?
  split
  · next content heq => exact heq.symm
  · next hnot =>
    cases he : t.get? l with
    | none => rfl
    | some e =>
      cases e with
      | file content => exact absurd he (hnot content)
      | directory => exact absurd he h

/-- The cells in a tree are what they are once the ancestors of the target are made. -/
theorem MayReplace.shows {t₁ : FileTree} (h : MayReplace t target options before last)
    (hoff : OffTrail t target options before last)
    (hopens : Opens t t₁ (trail (t.origin target) before)) :
    Shows t₁ options (arrival (t.origin target) before) last
      (t.cells options (arrival (t.origin target) before) last) t₁ where
  keeps := .refl t₁
  cell := by
    intro i
    rw [hopens.kept _ (hoff i), ← content?_map (h.free i)]
    cases i <;> rfl
  other := fun _ _ => rfl

/-- Making the ancestors beforehand makes no difference. -/
theorem replaceAll_run_eq {t₁ : FileTree} (h : (makeAncestors target).run.run t = (.ok (), t₁))
    (h' : (makeAncestors target).run.run t₁ = (.ok (), t₁)) (r : Replacement)
    (rs : List Replacement) :
    (replaceAll target options (r :: rs)).run t = (replaceAll target options (r :: rs)).run t₁ := by
  have hfile : (replaceFile target r.text r.verify options).run.run t =
      (replaceFile target r.text r.verify options).run.run t₁ := by
    unfold replaceFile
    rw [FileProgram.run_bind_ok _ h, FileProgram.run_bind_ok _ h']
  simp only [replaceAll, FileProgram.run_bind_eq, hfile]

/-- **Replacements of a file are a run of the machine of three cells**, whatever their contents and
whichever of them are verified, when none of the three is on the way to the target. They answer and
leave what the machine does; elsewhere nothing changes, but for ancestors of the target that were
missing and are directories afterwards. After two replacements that are not verified, the target and
its backup have their contents. -/
theorem replaceAll_cells (h : MayReplace t target options before last)
    (hoff : OffTrail t target options before last) (rs : List Replacement) :
    let d := arrival (t.origin target) before
    let result := (replaceAll target options rs).run t
    let cells := rs.foldl Cells.next (t.cells options d last)
    result.1 = (t.cells options d last).answers target options rs ∧
      (∀ i : Cell, result.2.get? (i.location options d last) = (cells.get i).map .file) ∧
      (∀ l, (∀ i : Cell, l ≠ i.location options d last) → result.2.get? l = t.get? l ∨
        t.get? l = none ∧ l ∈ trail (t.origin target) before ∧
          result.2.get? l = some .directory) ∧
      (rs ≠ [] → ∀ (i : Cell) (content : Bytes),
        result.2.read (i.path target options) = .ok content ↔ cells.get i = some content) ∧
      ∀ earlier a b, rs = earlier ++ [a, b] → a.verify = false → b.verify = false →
        cells.target = some (Utf8.encode b.text) ∧ cells.backup = some (Utf8.encode a.text) := by
  intro d result cells
  have hlast : ∀ earlier a b, rs = earlier ++ [a, b] → a.verify = false → b.verify = false →
      cells.target = some (Utf8.encode b.text) ∧ cells.backup = some (Utf8.encode a.text) := by
    rintro earlier a b heq ha hb
    have hcells : cells = ((earlier.foldl Cells.next (t.cells options d last)).next a).next b := by
      simp [cells, heq]
    rw [hcells]
    exact Cells.next_next ha hb
  cases rs with
  | nil =>
    refine ⟨rfl, fun i => ?_, fun l _ => .inl rfl, fun hne => absurd rfl hne, hlast⟩
    refine (content?_map (h.free i)).symm.trans ?_
    cases i <;> rfl
  | cons r rs =>
    have hcheck := h.place.check .target
    have hname := h.place.name .target
    rw [Cell.path_target] at hcheck
    rw [Cell.suffix, String.append_empty] at hname
    obtain ⟨t₁, hrun, hopens⟩ :=
      makeAncestors_run h.place.steps hname.ne_here hcheck h.ancestors
    have htrail : ∀ l ∈ trail (t₁.origin target) before, t₁.get? l = some .directory :=
      fun l hl => hopens.made l (hopens.origin_eq target ▸ hl)
    have hbase : t₁.Stands target before d := by
      have hwalk := walk_of_trail h.ancestors.steps htrail
      have hd := htrail _ arrival_mem_trail
      rw [hopens.origin_eq target] at hd
      exact ⟨hwalk.trans (by rw [hopens.origin_eq target]), hd⟩
    have hrun' := makeAncestors_run_of_trail h.place.steps hname.ne_here hcheck h.ancestors.steps
      htrail
    obtain ⟨t', hall, hshows⟩ := replaceAll_run h.place hbase h.ancestors.steps htrail
      (h.shows hoff hopens) (r :: rs)
    have hresult : result = ((t.cells options d last).answers target options (r :: rs), t') :=
      (replaceAll_run_eq hrun hrun' r rs).trans hall
    rw [hresult]
    refine ⟨rfl, hshows.cell, fun l hl => ?_,
      fun _ i content => hshows.read_eq_ok_iff h.place hbase i, hlast⟩
    rw [hshows.other l hl]
    by_cases hmem : l ∈ trail (t.origin target) before
    · rw [hopens.made l hmem]
      rcases h.ancestors.free l hmem with hnone | hdirectory
      · exact .inr ⟨hnone, hmem, rfl⟩
      · exact .inl hdirectory.symm
    · exact .inl (hopens.kept l hmem)

/-- Nothing hinders a replacement where there is no entry yet. -/
theorem IsPlace.mayReplace_empty (hplace : IsPlace target options before last)
    (hsteps : ∀ s ∈ before, IsStep s) : MayReplace ⟨∅, []⟩ target options before last := by
  have hnone : ∀ l, l ≠ [] → (⟨∅, []⟩ : FileTree).get? l = none := fun l hl => by
    simp [FileTree.get?, hl]
  have horigin : (⟨∅, []⟩ : FileTree).origin target = [] := by simp [FileTree.origin]
  refine ⟨hplace, ⟨fun l name e he => ?_, ?_, hsteps, fun l _ => ?_⟩, fun i => ?_⟩
  · rw [hnone _ (List.append_ne_nil_of_right_ne_nil l (List.cons_ne_nil name []))] at he
    cases he
  · rw [horigin]
    rfl
  · by_cases hl : l = []
    · exact .inr (by rw [hl]; rfl)
    · exact .inl (hnone l hl)
  · intro hdirectory
    rw [hnone _ Cell.location_ne_nil] at hdirectory
    cases hdirectory

/-- Two replacements in a directory that the first one makes. -/
theorem replaceAll_cells_two :
    let t : FileTree := ⟨∅, []⟩
    MayReplace t ⟨"/d/p"⟩ {} ["d"] "p" ∧ OffTrail t ⟨"/d/p"⟩ {} ["d"] "p" ∧
      let t' := ((replaceAll ⟨"/d/p"⟩ {} [⟨"A", false⟩, ⟨"B", false⟩]).run t).2
      t'.read ⟨"/d/p"⟩ = .ok (Utf8.encode "B") ∧ t'.read ⟨"/d/p~"⟩ = .ok (Utf8.encode "A") := by
  intro t
  have hplace : IsPlace ⟨"/d/p"⟩ {} ["d"] "p" := by
    refine ⟨.standard, by decide, by decide, fun i => ?_, fun i => ?_⟩
    · cases i <;> rfl
    · cases i <;> exact ⟨by decide, by decide, by decide⟩
  have hmay : MayReplace t ⟨"/d/p"⟩ {} ["d"] "p" := by
    refine hplace.mayReplace_empty fun s hs => ?_
    rw [List.mem_singleton.1 hs]
    exact .inr (.inr ⟨by decide, by decide, by decide⟩)
  have hoff : OffTrail t ⟨"/d/p"⟩ {} ["d"] "p" := by
    intro i
    cases i <;> decide
  refine ⟨hmay, hoff, ?_⟩
  obtain ⟨-, -, -, hread, hlast⟩ := replaceAll_cells hmay hoff [⟨"A", false⟩, ⟨"B", false⟩]
  obtain ⟨htarget, hbackup⟩ := hlast [] _ _ rfl rfl rfl
  exact ⟨(hread nofun .target _).2 htarget, (hread nofun .backup _).2 hbackup⟩

end Operations

/-- Nothing hinders the replacement of a file to which the way leads through `step` and back, and
yet a plain and a verified one do not answer as the machine does. -/
structure LeavesMachine (target : Path) (step last : String) : Prop where
  may : MayReplace ⟨∅, []⟩ target {} [step, ".."] last
  answers :
    let t : FileTree := ⟨∅, []⟩
    let rs : List Replacement := [⟨"A", false⟩, ⟨"A", true⟩]
    ((replaceAll target {} rs).run t).1 ≠
      (t.cells {} (arrival (t.origin target) [step, ".."]) last).answers target {} rs

/-- Where the answers differ, one is a failure. -/
theorem LeavesMachine.of_isOk {target : Path} {step last : String}
    (hsteps : stepsOf target = [step, "..", last]) (hslash : target.endsInSlash = false)
    (hcheck : ∀ i : Cell, checkPath (i.path target {}) = .ok ()) (hstep : IsName step)
    (hlast : ∀ i : Cell, IsName (last ++ i.suffix {}))
    (hanswers :
      let t : FileTree := ⟨∅, []⟩
      let rs : List Replacement := [⟨"A", false⟩, ⟨"A", true⟩]
      ((replaceAll target {} rs).run t).1.map Except.isOk ≠
        ((t.cells {} (arrival (t.origin target) [step, ".."]) last).answers target {} rs).map
          Except.isOk) : LeavesMachine target step last := by
  have hplace : IsPlace target {} [step, ".."] last := ⟨.standard, hsteps, hslash, hcheck, hlast⟩
  refine ⟨hplace.mayReplace_empty fun s hs => ?_, fun heq => hanswers (congrArg _ heq)⟩
  obtain rfl | rfl : s = step ∨ s = ".." := by simpa using hs
  · exact .inr (.inr hstep)
  · exact .inr (.inl rfl)

/-- The directory that the first replacement makes on the way to the target may be the side file,
the backup or the target itself. Where it is the side file, already a replacement that succeeds does
not leave that as it was. -/
theorem not_replaceAll_cells_ancestor :
    LeavesMachine ⟨"o.new/../o"⟩ "o.new" "o" ∧ LeavesMachine ⟨"o~/../o"⟩ "o~" "o" ∧
      LeavesMachine ⟨"o/../o"⟩ "o" "o" ∧
      let target : Path := ⟨"o.new/../o"⟩
      let first := (replaceFile target "A" false {}).run.run ⟨∅, []⟩
      first.1.isOk = true ∧ first.2.inspect (Cell.side.path target {}) = some .directory := by
  have hlast : ∀ i : Cell, IsName ("o" ++ i.suffix {}) := by
    intro i
    cases i <;> exact ⟨by decide, by decide, by decide⟩
  refine ⟨.of_isOk (by decide) (by decide) ?_ (hlast .side) hlast (by decide +kernel),
    .of_isOk (by decide) (by decide) ?_ (hlast .backup) hlast (by decide +kernel),
    .of_isOk (by decide) (by decide) ?_ (hlast .target) hlast (by decide +kernel),
    by decide +kernel, by decide +kernel⟩
  all_goals
    intro i
    cases i <;> rfl

end Pagewright

import Mathlib.Data.List.Find
import Mathlib.Data.List.Infix
import Pagewright.Config.Load
import Pagewright.Proofs.AncestorPaths
import Pagewright.Proofs.Ancestors
import Pagewright.Proofs.Destinations
import Pagewright.Proofs.Places
import Pagewright.Proofs.Routes

/-!
# The project file of a document

The search for a project file goes back along the way that the path of the document takes, from its
end to where it starts (`findProjectFile_along_way`). For an absolute path without `..` that way leads
through the directory of the document and all those above it, and the file in the nearest of them is
found. A relative path starts in the working directory, so nothing above that is looked at, and a `..`
takes the way through a directory that is not above the document: two spellings of one document may
find different files, or one of them none (`misleads_examples`).
-/

namespace Pagewright

open Text

namespace FileTree

variable {t : FileTree} {p q : Path} {l d : Location} {content : Bytes}

/-- The locations that a path leads through, the last one first. -/
def way (t : FileTree) (p : Path) : List Location :=
  (trail (t.origin p) (movesOf p)).reverse

/-- A location, the one that it is in, and so on up to the root. -/
def upwards (l : Location) : List Location :=
  l.inits.reverse

def fileAt? (t : FileTree) (p : Path) : Option Location :=
  match t.resolve p with
  | .ok (l, .file _) => some l
  | _ => none

def holdsProjectFile (t : FileTree) (d : Location) : Bool :=
  match t.get? (d ++ [Config.projectFileName]) with
  | some (.file _) => true
  | _ => false

/-- The project file in the first of some directories that has one. -/
def nearestProjectFile? (t : FileTree) (ds : List Location) : Option Location :=
  (ds.find? t.holdsProjectFile).map (· ++ [Config.projectFileName])

/-- The project file that governs a document: that of the directory that the document is in or, if
it has none, of the nearest one above it. -/
def governingFile? (t : FileTree) (l : Location) : Option Location :=
  t.nearestProjectFile? (upwards l.dropLast)

/-! ## The way of a path -/

theorem way_eq_cons (t : FileTree) (p : Path) : ∃ rest, t.way p = t.destination p :: rest := by
  unfold way destination
  rw [← arrival_movesOf]
  rcases List.eq_nil_or_concat (movesOf p) with hnil | ⟨ss, s, hss⟩
  · exact ⟨[], by rw [hnil]; rfl⟩
  · refine ⟨(trail (t.origin p) ss).reverse, ?_⟩
    rw [hss, List.concat_eq_append, trail_append_singleton, List.reverse_append, arrival_append]
    rfl

/-- The way of a path is one location longer than that of its parent. Only when the path is a leading
`.` do both stay where they start. -/
theorem way_of_parent? (h : p.parent? = some q) : t.way p = t.destination p :: t.way q ∨
    t.way p = t.way q ∧ t.destination p = t.destination q := by
  obtain ⟨-, habsolute, -, idles, s, idles', hsteps, hidles, hidles'⟩ := Path.parent?_eq_some h
  have hnil : ∀ {is : List String}, (∀ i ∈ is, i = ".") → is.filter (· ≠ ".") = [] :=
    fun h => List.filter_eq_nil_iff.2 fun i hi => by simp [h i hi]
  have horigin : t.origin q = t.origin p := origin_eq_of_isAbsolute habsolute
  have hmoves : movesOf p = movesOf q ++ [s].filter (· ≠ ".") := by
    rw [movesOf, hsteps, List.filter_append, List.filter_append, List.filter_append, hnil hidles,
      hnil hidles', List.append_nil, List.append_nil]
    rfl
  by_cases hs : s = "."
  · have hsame : movesOf p = movesOf q := by rw [hmoves]; simp [hs]
    refine .inr ⟨by rw [way, way, hsame, horigin], ?_⟩
    rw [destination, destination, ← arrival_movesOf, ← arrival_movesOf, hsame, horigin]
  · have hnext : movesOf p = movesOf q ++ [s] := by rw [hmoves]; simp [hs]
    refine .inl ?_
    rw [way, hnext, trail_append_singleton, List.reverse_append, way, horigin, destination,
      ← arrival_movesOf, hnext, arrival_append]
    rfl

/-- The ancestors of a path lie on its way, and in its order. -/
theorem find?_ancestors (t : FileTree) (p : Path) (f : Location → Bool) :
    (p.ancestors.map t.destination).find? f = (t.way p).find? f := by
  induction p using Path.parent_induction with
  | alone p hp =>
    have hnil : movesOf p = [] := List.filter_eq_nil_iff.2 fun s hs => by
      simp [Path.parent?_eq_none hp s hs]
    have hway : t.way p = [t.destination p] := by
      rw [way, destination, ← arrival_movesOf, hnil]
      rfl
    rw [hway, Path.ancestors_of_no_parent hp]
    rfl
  | below p q hq ih =>
    rw [Path.ancestors_of_parent hq, List.map_cons, List.find?_cons, ih]
    rcases way_of_parent? (t := t) hq with hway | ⟨hway, hdestination⟩
    · rw [hway, List.find?_cons]
    · -- The start is looked at twice.
      obtain ⟨rest, hrest⟩ := way_eq_cons t q
      rw [hway, hrest, hdestination, List.find?_cons]
      cases f (t.destination q) <;> rfl

/-! ## What encloses a location -/

theorem upwards_append_singleton (l : Location) (n : String) :
    upwards (l ++ [n]) = (l ++ [n]) :: upwards l := by
  simp [upwards, List.inits_append]

theorem upwards_eq_cons (l : Location) : upwards l = l :: (upwards l).tail := by
  rcases List.eq_nil_or_concat l with rfl | ⟨l, n, rfl⟩
  · rfl
  · rw [List.concat_eq_append, upwards_append_singleton]
    rfl

theorem mem_upwards_tail : d ∈ (upwards l).tail ↔ isAbove d l = true := by
  rw [isAbove_iff]
  rcases List.eq_nil_or_concat l with rfl | ⟨l, n, rfl⟩
  · simp [upwards]
  · rw [List.concat_eq_append, upwards_append_singleton, List.tail_cons, upwards,
      List.mem_reverse, List.mem_inits, List.prefix_concat_iff]
    refine ⟨fun h => ⟨.inr h, ?_⟩, fun h => h.1.resolve_left h.2⟩
    rintro rfl
    have hlength := h.length_le
    rw [List.length_append, List.length_singleton] at hlength
    omega

/-- Without `..` a path leads through all that its end is in, up to where it starts. -/
theorem upwards_destination (hup : ".." ∉ stepsOf p) :
    upwards (t.destination p) = t.way p ++ (upwards (t.origin p)).tail := by
  have hmoves : ∀ s ∈ movesOf p, s ≠ "." ∧ s ≠ ".." := by
    intro s hs
    obtain ⟨hmem, hne⟩ := List.mem_filter.1 hs
    refine ⟨of_decide_eq_true hne, ?_⟩
    rintro rfl
    exact hup hmem
  have hdestination : t.destination p = t.origin p ++ movesOf p := arrival_of_no_up hup
  rw [hdestination, way]
  generalize movesOf p = ss at hmoves
  induction ss using List.reverseRecOn with
  | nil =>
    rw [List.append_nil, upwards_eq_cons]
    rfl
  | append_singleton ss s ih =>
    have hs := hmoves s (List.mem_append_right _ List.mem_cons_self)
    have hss : ∀ r ∈ ss, r ≠ "." ∧ r ≠ ".." := fun r hr => hmoves r (List.mem_append_left _ hr)
    rw [trail_append_singleton, arrival_of_plain hss, stepTo, if_neg hs.1, if_neg hs.2,
      List.reverse_append, ← List.append_assoc, upwards_append_singleton, ih hss]
    rfl

/-- **The project file that governs a document** is the nearest one on the way of a path without
`..`, or it is above the start of that way. -/
theorem governingFile?_eq (hwf : t.WF) (hp : t.resolve p = .ok (l, .file content))
    (hup : ".." ∉ stepsOf p) : t.governingFile? l =
      t.nearestProjectFile? (t.way p ++ (upwards (t.origin p)).tail) := by
  obtain ⟨hdestination, hfile⟩ := arrival_of_resolve hp
  have hl : t.destination p = l := hdestination
  rw [← upwards_destination hup, hl, governingFile?]
  rcases List.eq_nil_or_concat l with rfl | ⟨d, n, rfl⟩
  · rfl
  · rw [List.concat_eq_append] at hfile ⊢
    -- The document itself is no directory that could have a project file.
    have hnone : t.holdsProjectFile (d ++ [n]) = false := by
      unfold holdsProjectFile
      split
      · next content' hcontent =>
        have hdirectory := hwf _ _ _ hcontent
        rw [hfile] at hdirectory
        cases hdirectory
      · rfl
    rw [List.dropLast_concat, upwards_append_singleton, nearestProjectFile?, nearestProjectFile?,
      List.find?_cons, hnone]

/-! ## One directory -/

theorem endsInSlash_join_projectFileName (p : Path) :
    (p.join Config.projectFileName).endsInSlash = false := by
  obtain ⟨between, -, htext⟩ := Path.text_join p (s := Config.projectFileName) (by decide)
  have hname : Config.projectFileName.toList ≠ [] := by decide
  rw [Path.endsInSlash, htext, String.toList_append, Path.getLast?_append_of_ne_nil hname]
  decide

section Candidate

variable (hwf : t.WF) {e : Entry} (hp : t.resolve p = .ok (l, e))
  (hroom : checkPath (p.join Config.projectFileName) = .ok ()) (hq : q ∈ p.ancestors)

include hroom hq

/-- The system takes a name after any ancestor of a path after which it takes it. -/
theorem checkPath_join_of_mem_ancestors :
    checkPath (q.join Config.projectFileName) = .ok () := by
  rcases Path.text_of_mem_ancestors hq with rfl | ⟨rest, hrest, hsplit⟩
  · exact hroom
  obtain ⟨hnul, -, hshort⟩ := checkPath_eq_ok_iff.1 hroom
  obtain ⟨between, -, htext⟩ := Path.text_join p (s := Config.projectFileName) (by decide)
  obtain ⟨between', hbetween', htext'⟩ := Path.text_join q (s := Config.projectFileName) (by decide)
  have happend : p.text = q.text ++ String.ofList rest := by
    apply String.toList_inj.1
    rw [hsplit, String.toList_append, String.toList_ofList]
  -- The slash that may be added takes no more room than what the ancestor lacks.
  have hpos : (String.ofList rest).utf8ByteSize ≠ 0 := by
    rw [Ne, String.utf8ByteSize_eq_zero_iff]
    exact fun h => hrest (by simpa using congrArg String.toList h)
  have hone : between'.utf8ByteSize ≤ 1 := by
    rcases hbetween' with rfl | rfl <;> decide
  rw [htext, happend] at hnul hshort
  simp only [String.utf8ByteSize_append, String.toList_append, List.mem_append, not_or] at hnul hshort
  refine checkPath_eq_ok_iff.2 ⟨?_, ?_, ?_⟩
  · have hnul' : '\x00' ∉ between'.toList := by
      rcases hbetween' with rfl | rfl <;> decide
    simp only [htext', String.toList_append, List.mem_append, not_or]
    exact ⟨⟨hnul.1.1.1, hnul'⟩, hnul.2⟩
  · intro hempty
    have hsize := congrArg String.utf8ByteSize (htext'.symm.trans hempty)
    simp only [String.utf8ByteSize_append] at hsize
    have hname : Config.projectFileName.utf8ByteSize ≠ 0 := by decide
    exact hname (by simpa using (Nat.add_eq_zero_iff.1 hsize).2)
  · simp only [htext', String.utf8ByteSize_append]
    omega

include hp

omit hroom in
theorem walk_of_mem_ancestors : t.walk (t.origin q) (stepsOf q) = .ok (t.destination q) := by
  obtain ⟨habsolute, rest, hrest⟩ := Path.of_mem_ancestors hq
  obtain ⟨hwalk, -⟩ := walk_of_resolve hp
  rw [← hrest] at hwalk
  obtain ⟨m, hm, -⟩ := walk_append_eq_ok_iff.1 hwalk
  rw [origin_eq_of_isAbsolute habsolute, hm, walk_eq_arrival hm, destination,
    origin_eq_of_isAbsolute habsolute]

/-- The project file that is looked for next to an ancestor is in the directory it denotes. -/
theorem names_join_of_mem_ancestors (hdirectory : t.get? (t.destination q) = some .directory) :
    t.Names (q.join Config.projectFileName) (t.destination q) Config.projectFileName := by
  obtain ⟨hsteps, habsolute⟩ :=
    Path.stepsOf_join q (s := Config.projectFileName) (by decide) (by decide)
  refine ⟨checkPath_join_of_mem_ancestors hroom hq, ⟨_, hsteps, ?_⟩, hdirectory,
    ⟨by decide, by decide, by decide⟩, endsInSlash_join_projectFileName q⟩
  rw [origin_eq_of_isAbsolute habsolute]
  exact walk_of_mem_ancestors hp hq

include hwf

/-- The project file is looked up in the directory that an ancestor denotes. -/
theorem inspect_join_of_mem_ancestors :
    (t.inspect (q.join Config.projectFileName) == some .file) =
      t.holdsProjectFile (t.destination q) := by
  unfold holdsProjectFile
  by_cases hdirectory : t.get? (t.destination q) = some .directory
  · rw [(names_join_of_mem_ancestors hp hroom hq hdirectory).inspect_eq]
    rcases t.get? (t.destination q ++ [Config.projectFileName]) with _ | _ | _ <;> rfl
  · -- Nothing is below what is no directory.
    have hnone : t.get? (t.destination q ++ [Config.projectFileName]) = none :=
      Option.eq_none_iff_forall_ne_some.2 fun e he => hdirectory (hwf _ _ e he)
    obtain ⟨hsteps, habsolute⟩ :=
      Path.stepsOf_join q (s := Config.projectFileName) (by decide) (by decide)
    have hwalk : ∃ e, t.walk (t.origin (q.join Config.projectFileName))
        (stepsOf (q.join Config.projectFileName)) = .error e := by
      cases hwalk : t.walk (t.origin (q.join Config.projectFileName))
          (stepsOf (q.join Config.projectFileName)) with
      | error e => exact ⟨e, rfl⟩
      | ok m =>
        rw [hsteps, origin_eq_of_isAbsolute habsolute] at hwalk
        obtain ⟨m', hm', hlast⟩ := walk_append_eq_ok_iff.1 hwalk
        rw [walk_of_mem_ancestors hp hq] at hm'
        cases hm'
        exact absurd (get?_of_walk hlast) hdirectory
    obtain ⟨e, hwalk⟩ := hwalk
    rw [inspect_eq_none hwalk, hnone]
    rfl

theorem fileAt?_join_of_mem_ancestors (hfile : t.holdsProjectFile (t.destination q) = true) :
    t.fileAt? (q.join Config.projectFileName) =
      some (t.destination q ++ [Config.projectFileName]) := by
  unfold holdsProjectFile at hfile
  split at hfile
  · next content hcontent =>
    have hnames := names_join_of_mem_ancestors hp hroom hq (hwf _ _ _ hcontent)
    simp only [fileAt?, hnames.resolve_eq, hcontent]
  · cases hfile

end Candidate

end FileTree

/-! ## The search -/

namespace Config

variable {t : FileTree} {p : Path} {l : Location} {e : Entry}

theorem firstFile_run (ps : List Path) :
    (firstFile ps).run t = (ps.find? (t.inspect · == some .file), t) := by
  induction ps with
  | nil => rfl
  | cons p ps ih =>
    have hrun : (FileProgram.inspect p).run t = (t.inspect p, t) := rfl
    rw [firstFile, FileProgram.run_bind_eq, hrun, List.find?_cons]
    cases t.inspect p == some .file with
    | true => rfl
    | false => exact ih

/-- **The search goes along the way** that the path of a document takes, back to where it starts. -/
theorem findProjectFile_run (hwf : t.WF) (hp : t.resolve p = .ok (l, e))
    (hroom : FileTree.checkPath (p.join projectFileName) = .ok ()) : ∃ found,
    (findProjectFile p).run t = (found, t) ∧
      found.map t.fileAt? = (t.nearestProjectFile? (t.way p)).map some := by
  rw [findProjectFile, firstFile_run, List.find?_map]
  refine ⟨_, rfl, ?_⟩
  have hcandidate : ∀ q ∈ p.ancestors,
      ((t.inspect · == some .file) ∘ fun dir => dir.join projectFileName) q =
        (t.holdsProjectFile ∘ t.destination) q :=
    fun q hq => t.inspect_join_of_mem_ancestors hwf hp hroom hq
  rw [List.find?_congr hcandidate, FileTree.nearestProjectFile?, ← FileTree.find?_ancestors,
    List.find?_map, Option.map_map, Option.map_map, Option.map_map]
  cases hfound : p.ancestors.find? (t.holdsProjectFile ∘ t.destination) with
  | none => rfl
  | some q =>
    have hholds := List.find?_some hfound
    exact congrArg some (FileTree.fileAt?_join_of_mem_ancestors hwf hp hroom
      (List.mem_of_find?_eq_some hfound) hholds)

open FileTree (stepsOf isAbove)

/-- **The search along the way** of a path without `..` finds the project file that governs the
document, or finds none while a directory above the start of the way has one. For an absolute path
there is no such directory, so all of them lead to the same file. -/
theorem findProjectFile_along_way (hwf : t.WF) (hp : t.resolve p = .ok (l, .file content))
    (hroom : FileTree.checkPath (p.join projectFileName) = .ok ()) : ∃ found,
    (findProjectFile p).run t = (found, t) ∧
      found.map t.fileAt? = (t.nearestProjectFile? (t.way p)).map some ∧
        (".." ∉ stepsOf p →
          (found.map t.fileAt? = (t.governingFile? l).map some ↔
            found ≠ none ∨ ∀ d, isAbove d (t.origin p) = true → t.holdsProjectFile d = false) ∧
          (p.isAbsolute = true → found.map t.fileAt? = (t.governingFile? l).map some)) := by
  obtain ⟨found, hrun, hfound⟩ := findProjectFile_run hwf hp hroom
  refine ⟨found, hrun, hfound, fun hup => ?_⟩
  have hiff : found.map t.fileAt? = (t.governingFile? l).map some ↔
      found ≠ none ∨ ∀ d, isAbove d (t.origin p) = true → t.holdsProjectFile d = false := by
    have habove : (∀ d, isAbove d (t.origin p) = true → t.holdsProjectFile d = false) ↔
        (FileTree.upwards (t.origin p)).tail.find? t.holdsProjectFile = none := by
      rw [List.find?_eq_none]
      exact forall_congr' fun d => by rw [FileTree.mem_upwards_tail, Bool.not_eq_true]
    rw [habove, FileTree.governingFile?_eq hwf hp hup, hfound, FileTree.nearestProjectFile?,
      FileTree.nearestProjectFile?, List.find?_append]
    have hnone : found = none ↔ (t.way p).find? t.holdsProjectFile = none := by
      have := congrArg Option.isNone hfound
      rwa [Option.isNone_map, Option.isNone_map, FileTree.nearestProjectFile?, Option.isNone_map,
        Bool.eq_iff_iff, Option.isNone_iff_eq_none, Option.isNone_iff_eq_none] at this
    rw [Ne, hnone]
    cases (t.way p).find? t.holdsProjectFile with
    | some d => simp
    | none => cases (FileTree.upwards (t.origin p)).tail.find? t.holdsProjectFile <;> simp
  refine ⟨hiff, fun habsolute => hiff.2 (.inr fun d hd => ?_)⟩
  have hroot : t.origin p = [] := by rw [FileTree.origin, if_pos habsolute]
  rw [hroot, FileTree.isAbove_iff] at hd
  exact absurd (List.prefix_nil.1 hd.1) hd.2

/-- An absolute path with a slash too many finds the project file of the directory above. -/
theorem findProjectFile_along_way_absolute :
    let t : FileTree := ⟨.ofList [([".regenerate.toml"], Entry.file []), (["d"], .directory),
      (["d", ".regenerate.toml"], .file []), (["d", "e"], .directory),
      (["d", "e", "doc"], .file [72])], ["d", "e"]⟩
    t.WF ∧ t.resolve ⟨"/d//e/doc"⟩ = .ok (["d", "e", "doc"], .file [72]) ∧ ∃ found,
      (findProjectFile ⟨"/d//e/doc"⟩).run t = (found, t) ∧
        found.map t.fileAt? = some (some ["d", ".regenerate.toml"]) := by
  intro t
  have hwf : t.WF := .of_keys (by decide +kernel)
  have hresolve : t.resolve ⟨"/d//e/doc"⟩ = .ok (["d", "e", "doc"], .file [72]) := by
    decide +kernel
  obtain ⟨found, hrun, -, hfound⟩ := findProjectFile_along_way hwf hresolve (by decide +kernel)
  have hgoverning : t.governingFile? ["d", "e", "doc"] = some ["d", ".regenerate.toml"] := by
    decide +kernel
  refine ⟨hwf, hresolve, found, hrun, ?_⟩
  rw [(hfound (by decide +kernel)).2 (by decide), hgoverning]
  rfl

/-- The search for the project file of a document finds another one than that which governs it. -/
def Misleads (t : FileTree) (p : Path) : Prop :=
  ∃ l content, t.WF ∧ t.resolve p = .ok (l, .file content) ∧
    ((findProjectFile p).run t).1.map t.fileAt? ≠ (t.governingFile? l).map some

/-- A relative path misses what is above the working directory, and `..` leads through a directory
that is not above the document. -/
theorem misleads_examples :
    let page := Entry.file (Utf8.encode "Hello\n")
    Misleads ⟨.ofList [([".regenerate.toml"], .file []), (["w"], .directory),
        (["w", "doc"], page)], ["w"]⟩ ⟨"doc"⟩ ∧
      Misleads ⟨.ofList [(["a"], .directory), (["a", ".regenerate.toml"], .file []),
        (["doc"], page)], []⟩ ⟨"a/../doc"⟩ := by
  refine ⟨⟨["w", "doc"], Utf8.encode "Hello\n", .of_keys ?_, ?_⟩,
    ⟨["doc"], Utf8.encode "Hello\n", .of_keys ?_, ?_⟩⟩ <;> decide +kernel

end Config

end Pagewright

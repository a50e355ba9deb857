import Pagewright.Proofs.Parents
import Pagewright.Proofs.Trails

/-!
# The route of a path

What a comparison of absolute paths sees of a path is its route: the names of the directory where it
starts and its steps without the idle ones, every `..` still among them (`isAlike_absolute_iff`).
Slashes that are repeated or at the end, a `.` anywhere and the working directory written out make
no difference to it. Without `..` the route is the location that the path denotes
(`route_of_resolve`).
-/

namespace Pagewright

open FileTree (stepsOf segments)

/-- The steps of a path that are not idle. -/
def FileTree.movesOf (p : Path) : List String :=
  (stepsOf p).filter (· ≠ ".")

/-- Where a path starts and how it goes on. -/
def FileTree.route (t : FileTree) (p : Path) : Location :=
  t.origin p ++ movesOf p

open FileTree (movesOf)

/-- A name that may be in a working directory. -/
structure IsPlainName (s : String) : Prop where
  ne_empty : s ≠ ""
  ne_here : s ≠ "."
  slash : '/' ∉ s.toList

/-! ## Parts -/

namespace Path

def Part.ofStep (s : String) : Part :=
  if s = ".." then .up else .name s

@[simp] theorem Part.text_ofStep (s : String) : (Part.ofStep s).text = s := by
  unfold Part.ofStep
  split
  · next h => exact h.symm
  · rfl

theorem Part.ofStep_injective : Function.Injective Part.ofStep := by
  intro s s' h
  rw [← Part.text_ofStep s, h, Part.text_ofStep]

theorem Part.ofSegment_eq (segment : List Char) :
    Part.ofSegment segment = Part.ofStep (String.ofList segment) := by
  have hiff : String.ofList segment = ".." ↔ segment = ['.', '.'] := by
    rw [← String.toList_inj, String.toList_ofList]
    rfl
  by_cases h : segment = ['.', '.']
  · simp [Part.ofSegment, Part.ofStep, h]
  · simp [Part.ofSegment, Part.ofStep, hiff, h]

/-- The steps among segments that are not idle. -/
theorem filter_named (segs : List (List Char)) :
    (named segs).filter (· ≠ ".") = (segs.filter fun s => !isIdle s).map String.ofList := by
  induction segs with
  | nil => rfl
  | cons s segs ih =>
    have hcons : named (s :: segs) = named [s] ++ named segs := named_append [s] segs
    rw [hcons, List.filter_append, ih]
    cases hidle : isIdle s with
    | true =>
      have hidles : ∀ i ∈ [s], isIdle i = true := by simpa using hidle
      have hnone : (named [s]).filter (· ≠ ".") = [] := by
        refine List.filter_eq_nil_iff.2 fun step hstep => ?_
        simp [named_of_isIdle hidles step hstep]
      rw [hnone]
      simp [hidle]
    | false =>
      obtain ⟨hone, hne⟩ := named_singleton hidle
      rw [hone]
      simp [hidle, hne]

/-- **The parts of a path** are its steps that are not idle, after the root or a leading `.`. -/
theorem parts_eq (p : Path) : ∃ first, p.parts = first ++ (movesOf p).map Part.ofStep ∧
    (p.isAbsolute = true → first = [.root]) ∧ ∀ part ∈ first, part = .root ∨ part = .here := by
  obtain ⟨front, segs, hstem⟩ : ∃ front segs, p.stem = (front, segs) := ⟨_, _, rfl⟩
  obtain ⟨htext, -, hfront⟩ := stem_spec hstem
  have hmoves : movesOf p = (segs.reverse.filter fun s => !isIdle s).map String.ofList := by
    have hnone : (frontSteps front).filter (· ≠ ".") = [] := by
      unfold frontSteps
      split <;> rfl
    rw [movesOf, stepsOf_of_stem hstem, List.filter_append, hnone, List.nil_append, filter_named]
  have hparts : (segs.filter fun s => !isIdle s).reverse.map Part.ofSegment =
      (movesOf p).map Part.ofStep := by
    rw [hmoves, List.map_map, List.filter_reverse]
    exact List.map_congr_left fun s _ => Part.ofSegment_eq s
  unfold parts
  simp only [hstem, hparts]
  rcases hfront with rfl | ⟨rfl, -⟩ | ⟨rfl, hrelative⟩
  · exact ⟨[.root], rfl, fun _ => rfl, by simp⟩
  · refine ⟨[.here], rfl, fun habsolute => ?_, by simp⟩
    simp [isAbsolute, htext] at habsolute
  · refine ⟨[], rfl, fun habsolute => ?_, by simp⟩
    exact absurd (hrelative.symm.trans habsolute) Bool.false_ne_true

theorem isAlike_iff {p q : Path} (hp : p.isAbsolute = true) (hq : q.isAbsolute = true) :
    p.isAlike q = true ↔ movesOf p = movesOf q := by
  obtain ⟨first, hparts, hroot, -⟩ := parts_eq p
  obtain ⟨first', hparts', hroot', -⟩ := parts_eq q
  rw [isAlike, beq_iff_eq, hparts, hparts', hroot hp, hroot' hq, List.append_cancel_left_eq,
    List.map_inj_right Part.ofStep_injective]

/-! ## Joining -/

section Join

variable {p : Path} {s : String}

/-- A name is joined to a path with or without a slash between them. -/
theorem text_join (p : Path) (hslash : s.toList.head? ≠ some '/') :
    ∃ between, (between = "" ∨ between = "/") ∧ (p.join s).text = p.text ++ between ++ s := by
  have hrelative : (s.toList.head? == some '/') = false := beq_eq_false_iff_ne.2 hslash
  unfold join
  rw [hrelative, Bool.false_or]
  split
  · next hempty =>
    rw [String.isEmpty_iff.1 hempty]
    exact ⟨"", .inl rfl, by rw [String.empty_append, String.empty_append]⟩
  · split
    · exact ⟨"", .inl rfl, by rw [String.append_empty]⟩
    · exact ⟨"/", .inr rfl, rfl⟩

/-- A name that is joined to a path is one more step. -/
theorem stepsOf_join (p : Path) (hne : s ≠ "") (hslash : '/' ∉ s.toList) :
    stepsOf (p.join s) = stepsOf p ++ [s] ∧ (p.join s).isAbsolute = p.isAbsolute := by
  have hs : s.toList ≠ [] := fun h => hne (String.toList_eq_nil_iff.1 h)
  have hseg : segments s.toList = [s] := by
    rw [FileTree.segments_of_not_mem hs hslash, String.ofList_toList]
  have hhead : (s.toList.head? == some '/') = false := by
    rw [beq_eq_false_iff_ne]
    exact fun h => hslash (List.mem_of_mem_head? h)
  unfold join
  rw [hhead, Bool.false_or]
  by_cases hempty : p.text = ""
  · rw [if_pos (String.isEmpty_iff.2 hempty), FileTree.stepsOf_eq_segments,
      FileTree.stepsOf_eq_segments, hseg, hempty]
    exact ⟨rfl, by rw [isAbsolute, hhead, isAbsolute, hempty]; rfl⟩
  have hkept : ∀ text : List Char, (p.text.toList ++ text).head? = p.text.toList.head? := by
    intro text
    rw [List.head?_append, List.head?_eq_some_head (fun h => hempty (String.toList_eq_nil_iff.1 h)),
      Option.some_or]
  rw [if_neg (fun h => hempty (String.isEmpty_iff.1 h))]
  split
  · next hends =>
    obtain ⟨front, hfront⟩ : ∃ front, p.text.toList = front ++ ['/'] := by
      rw [endsInSlash, beq_iff_eq] at hends
      exact List.getLast?_eq_some_iff.1 hends
    constructor
    · rw [FileTree.stepsOf_eq_segments, FileTree.stepsOf_eq_segments, String.toList_append, hfront,
        List.append_assoc, List.singleton_append, FileTree.segments_append_slash,
        FileTree.segments_append_slash, FileTree.segments_nil, List.append_nil, hseg]
    · rw [isAbsolute, isAbsolute, String.toList_append, hkept]
  · constructor
    · have hslash' : "/".toList = ['/'] := rfl
      rw [FileTree.stepsOf_eq_segments, FileTree.stepsOf_eq_segments, String.toList_append,
        String.toList_append, hslash', List.append_assoc, List.singleton_append,
        FileTree.segments_append_slash, hseg]
    · rw [isAbsolute, isAbsolute, String.toList_append, String.toList_append, List.append_assoc,
        hkept]

theorem stepsOf_foldl_join {names : List String} (hp : p.isAbsolute = true)
    (hnames : ∀ s ∈ names, s ≠ "" ∧ '/' ∉ s.toList) :
    stepsOf (names.foldl join p) = stepsOf p ++ names ∧
      (names.foldl join p).isAbsolute = true := by
  induction names generalizing p with
  | nil => exact ⟨(List.append_nil _).symm, hp⟩
  | cons s names ih =>
    obtain ⟨hne, hslash⟩ := hnames s List.mem_cons_self
    obtain ⟨hsteps, habsolute⟩ := stepsOf_join p hne hslash
    obtain ⟨hsteps', habsolute'⟩ :=
      ih (habsolute.trans hp) fun s hs => hnames s (List.mem_cons_of_mem _ hs)
    rw [List.foldl_cons]
    exact ⟨by rw [hsteps', hsteps, List.append_assoc, List.singleton_append], habsolute'⟩

end Join

/-! ## Absolute paths -/

theorem stepsOf_pathOf {l : Location} (h : ∀ n ∈ l, IsPlainName n) :
    stepsOf (FileTree.pathOf l) = l := by
  have hslash : ∀ s ∈ l.map String.toList, '/' ∉ s := by
    intro s hs
    obtain ⟨n, hn, rfl⟩ := List.mem_map.1 hs
    exact (h n hn).slash
  have hnamed : named (l.map String.toList) = l := by
    have hkept : (l.map String.toList).filter (!·.isEmpty) = l.map String.toList := by
      refine List.filter_eq_self.2 fun s hs => ?_
      obtain ⟨n, hn, rfl⟩ := List.mem_map.1 hs
      simpa using (h n hn).ne_empty
    rw [named, hkept]
    simp [Function.comp_def]
  have hroot : "/".toList = ['/'] := rfl
  have hsplit := FileTree.segments_append_slash [] (joinSlashes (l.map String.toList))
  rw [List.nil_append, FileTree.segments_nil, List.nil_append] at hsplit
  rw [FileTree.stepsOf_eq_segments, FileTree.pathOf, String.toList_append,
    String.toList_intercalate, hroot, ← joinSlashes_eq_intercalate, List.singleton_append, hsplit,
    segments_joinSlashes hslash, hnamed]

theorem isAbsolute_slash {p : Path} (h : p.isAbsolute = true) :
    (⟨p.text ++ "/"⟩ : Path).isAbsolute = true := by
  rw [isAbsolute, beq_iff_eq] at h ⊢
  obtain ⟨cs, htext⟩ := List.head?_eq_some_iff.1 h
  simp [htext]

theorem stepsOf_slash (p : Path) : stepsOf ⟨p.text ++ "/"⟩ = stepsOf p := by
  have hslash : "/".toList = ['/'] := rfl
  rw [FileTree.stepsOf_eq_segments, FileTree.stepsOf_eq_segments, String.toList_append, hslash,
    FileTree.segments_append_slash, FileTree.segments_nil, List.append_nil]

/-- The names that an absolute form adds to its base. -/
theorem map_text_parts (p : Path) :
    (p.parts.filter fun part => part != .root && part != .here).map Part.text = movesOf p := by
  obtain ⟨first, hparts, -, hfirst⟩ := parts_eq p
  have hnone : first.filter (fun part => part != .root && part != .here) = [] := by
    refine List.filter_eq_nil_iff.2 fun part hpart => ?_
    rcases hfirst part hpart with rfl | rfl <;> decide
  have hall : ((movesOf p).map Part.ofStep).filter (fun part => part != .root && part != .here) =
      (movesOf p).map Part.ofStep := by
    refine List.filter_eq_self.2 fun part hpart => ?_
    obtain ⟨s, -, rfl⟩ := List.mem_map.1 hpart
    unfold Part.ofStep
    split <;> rfl
  rw [hparts, List.filter_append, hnone, hall, List.nil_append, List.map_map]
  simp [Function.comp_def]

theorem of_mem_movesOf {p : Path} {s : String} (h : s ∈ movesOf p) : s ≠ "" ∧ '/' ∉ s.toList := by
  have hmem : s ∈ stepsOf p := (List.mem_filter.1 h).1
  rw [FileTree.stepsOf_eq_segments, segments] at hmem
  obtain ⟨cs, hcs, rfl⟩ := List.mem_map.1 hmem
  obtain ⟨hcs, hne⟩ := List.mem_filter.1 hcs
  refine ⟨fun h => ?_, by simpa using Text.not_mem_splitOn hcs⟩
  have hnil : cs = [] := by simpa using congrArg String.toList h
  simp [hnil] at hne

theorem isAbsolute_pathOf (l : Location) : (FileTree.pathOf l).isAbsolute = true := by
  simp [isAbsolute, FileTree.pathOf]

section Absolute

variable {t : FileTree} {p : Path} (hp : p.text ≠ "")
  (hnames : ∀ n ∈ t.workingDirectory, IsPlainName n)

include hnames

/-- A path goes on from the root or from the working directory. -/
theorem stepsOf_base : let base : Path :=
      if p.isAbsolute = true then ⟨"/"⟩ else FileTree.pathOf t.workingDirectory
    base.isAbsolute = true ∧ stepsOf base = t.origin p := by
  intro base
  by_cases h : p.isAbsolute = true
  · have hroot : base = ⟨"/"⟩ := if_pos h
    rw [hroot, FileTree.origin, if_pos h]
    exact ⟨rfl, rfl⟩
  · have hdirectory : base = FileTree.pathOf t.workingDirectory := if_neg h
    rw [hdirectory, FileTree.origin, if_neg h]
    exact ⟨isAbsolute_pathOf _, stepsOf_pathOf hnames⟩

include hp

/-- An absolute form is put together from a base and the steps that are not idle. -/
theorem exists_base : ∃ base : Path, base.isAbsolute = true ∧ stepsOf base = t.origin p ∧
    p.absolute? (FileTree.pathOf t.workingDirectory) =
      let q := (movesOf p).foldl join base
      if p.endsInSlash && !q.endsInSlash then some ⟨q.text ++ "/"⟩ else some q := by
  obtain ⟨hroot, horigin⟩ := stepsOf_base (p := p) hnames
  have hfold : ∀ base, (p.parts.filter fun part => part != .root && part != .here).foldl
      (fun q part => q.join part.text) base = (movesOf p).foldl join base := by
    intro base
    rw [← map_text_parts, List.foldl_map]
  unfold absolute?
  rw [if_neg (by simpa using hp)]
  simp only [hfold]
  -- Only a path with two slashes in front, which is absolute, has another base.
  split
  · exact ⟨_, hroot, horigin, rfl⟩
  · next htext =>
    have habsolute : p.isAbsolute = true := by simp [isAbsolute, htext]
    refine ⟨⟨"//"⟩, rfl, ?_, rfl⟩
    rw [FileTree.origin, if_pos habsolute]
    rfl
  · exact ⟨_, hroot, horigin, rfl⟩

/-- **An absolute form** takes the route of the path from the root. -/
theorem exists_absolute? : ∃ q,
    p.absolute? (FileTree.pathOf t.workingDirectory) = some q ∧ q.isAbsolute = true ∧
      stepsOf q = t.route p := by
  obtain ⟨base, hroot, horigin, heq⟩ := exists_base hp hnames
  obtain ⟨hsteps, habsolute⟩ := stepsOf_foldl_join hroot fun s hs => of_mem_movesOf hs
  rw [horigin] at hsteps
  rw [heq]
  simp only
  split
  · exact ⟨_, rfl, isAbsolute_slash habsolute, (stepsOf_slash _).trans hsteps⟩
  · exact ⟨_, rfl, habsolute, hsteps⟩

end Absolute

/-- **Absolute forms are alike** exactly when the paths have the same route. -/
theorem isAlike_absolute_iff {t : FileTree} {p q p' q' : Path}
    (hnames : ∀ n ∈ t.workingDirectory, IsPlainName n)
    (hp : p.absolute? (FileTree.pathOf t.workingDirectory) = some p')
    (hq : q.absolute? (FileTree.pathOf t.workingDirectory) = some q') :
    p'.isAlike q' = true ↔ t.route p = t.route q := by
  have hmoves : ∀ {p p' : Path}, p.absolute? (FileTree.pathOf t.workingDirectory) = some p' →
      p'.isAbsolute = true ∧ movesOf p' = t.route p := by
    intro p p' h
    have hne : p.text ≠ "" := by
      intro hempty
      simp [absolute?, hempty] at h
    obtain ⟨p'', hp'', habsolute, hsteps⟩ := exists_absolute? hne hnames
    obtain rfl := Option.some.inj (hp''.symm.trans h)
    refine ⟨habsolute, ?_⟩
    rw [movesOf, hsteps]
    refine List.filter_eq_self.2 fun s hs => decide_eq_true ?_
    rcases List.mem_append.1 hs with horigin | hmove
    · rw [FileTree.origin] at horigin
      split at horigin
      · cases horigin
      · exact (hnames s horigin).ne_here
    · exact of_decide_eq_true (List.mem_filter.1 hmove).2
  obtain ⟨habsolute, hroute⟩ := hmoves hp
  obtain ⟨habsolute', hroute'⟩ := hmoves hq
  rw [isAlike_iff habsolute habsolute', hroute, hroute']

end Path

/-! ## Locations -/

namespace FileTree

variable {t : FileTree} {p : Path} {l : Location}

/-- Idle steps lead nowhere. -/
theorem arrival_movesOf (l : Location) (p : Path) :
    arrival l (movesOf p) = arrival l (stepsOf p) := by
  unfold movesOf
  generalize stepsOf p = ss
  induction ss generalizing l with
  | nil => rfl
  | cons s ss ih =>
    by_cases hs : s = "."
    · subst hs
      exact ih l
    · rw [List.filter_cons_of_pos (by simpa using hs), arrival_cons, arrival_cons, ih]

theorem arrival_of_no_up {ss : List String} (h : ".." ∉ ss) :
    arrival l ss = l ++ ss.filter (· ≠ ".") := by
  induction ss generalizing l with
  | nil => simp
  | cons s ss ih =>
    rw [List.mem_cons, not_or] at h
    rw [arrival_cons, ih h.2, stepTo, if_neg (Ne.symm h.1)]
    by_cases hs : s = "."
    · simp [hs]
    · simp [hs]

/-- **Without `..` the route of a path** is where it leads. -/
theorem route_of_resolve {e : Entry} (h : t.resolve p = .ok (l, e)) (hup : ".." ∉ stepsOf p) :
    t.route p = l := by
  rw [← (arrival_of_resolve h).1, arrival_of_no_up hup]
  rfl

end FileTree

end Pagewright

import Pagewright.Proofs.Lines
import Pagewright.Proofs.Steps

/-!
# The parent of a path

The text of a parent is a front part of the text of the path, and the steps of the path are those of
the parent, one step more and idle ones (`parent?_eq_some`). Parents are tidy: no idle step comes
last in them, so that one step leads from the parent of a parent to it.
-/

namespace Pagewright

open FileTree (stepsOf segments)

namespace Path

/-! ## Stems -/

theorem joinSlashes_eq_intercalate (ss : List (List Char)) :
    joinSlashes ss = ['/'].intercalate ss := by
  induction ss with
  | nil => rfl
  | cons s ss ih =>
    cases ss with
    | nil => simp [joinSlashes]
    | cons s' ss => simp [joinSlashes, ih]

theorem joinSlashes_splitSlashes (cs : List Char) : joinSlashes (splitSlashes cs) = cs := by
  rw [joinSlashes_eq_intercalate, splitSlashes_eq_splitOn, List.intercalate_splitOn]

theorem not_mem_splitSlashes {cs s : List Char} (h : s ∈ splitSlashes cs) : '/' ∉ s := by
  rw [splitSlashes_eq_splitOn] at h
  exact Text.not_mem_splitOn h

theorem joinSlashes_append {ss ss' : List (List Char)} (h : ss ≠ []) (h' : ss' ≠ []) :
    joinSlashes (ss ++ ss') = joinSlashes ss ++ '/' :: joinSlashes ss' := by
  simp only [joinSlashes_eq_intercalate]
  induction ss with
  | nil => exact absurd rfl h
  | cons s ss ih =>
    cases ss with
    | nil =>
      cases ss' with
      | nil => exact absurd rfl h'
      | cons => simp
    | cons t ss =>
      have hrest := ih (List.cons_ne_nil t ss)
      simp only [List.cons_append, List.intercalate_cons_cons, List.append_assoc] at hrest ⊢
      rw [hrest]

/-- A stem is the path, cut at its slashes after a start that is `/`, `.` or nothing. -/
theorem stem_spec {p : Path} {front : List Char} {segs : List (List Char)}
    (h : p.stem = (front, segs)) :
    p.text.toList = front ++ joinSlashes segs.reverse ∧ (∀ s ∈ segs, '/' ∉ s) ∧
      (front = ['/'] ∨ front = ['.'] ∧ (segs = [] ∨ ∃ ss, segs.reverse = [] :: ss) ∨
        front = [] ∧ p.isAbsolute = false) := by
  have hslash : ∀ {cs : List Char}, ∀ s ∈ (splitSlashes cs).reverse, '/' ∉ s :=
    fun s hs => not_mem_splitSlashes (List.mem_reverse.1 hs)
  unfold stem at h
  split at h
  · next cs htext =>
    cases h
    exact ⟨by rw [htext, List.reverse_reverse, joinSlashes_splitSlashes]; rfl, hslash, .inl rfl⟩
  · next htext =>
    cases h
    exact ⟨htext, nofun, .inr (.inl ⟨rfl, .inl rfl⟩)⟩
  · next cs htext =>
    cases h
    refine ⟨by rw [htext, List.reverse_reverse, joinSlashes_splitSlashes]; rfl, hslash,
      .inr (.inl ⟨rfl, .inr ⟨splitSlashes cs, ?_⟩⟩)⟩
    rw [List.reverse_reverse, splitSlashes_eq_splitOn, List.splitOn_cons_eq_if_modifyHead]
    simp [splitSlashes_eq_splitOn]
  · next hroot _ _ =>
    cases h
    refine ⟨by rw [List.reverse_reverse, joinSlashes_splitSlashes]; rfl, hslash,
      .inr (.inr ⟨rfl, ?_⟩)⟩
    cases htext : p.text.toList with
    | nil => simp [isAbsolute, htext]
    | cons c cs =>
      simp only [isAbsolute, htext, List.head?_cons, beq_eq_false_iff_ne]
      rintro ⟨⟩
      exact hroot cs htext

/-! ## Steps of a stem -/

/-- The steps among segments. -/
def named (segs : List (List Char)) : List String :=
  (segs.filter (!·.isEmpty)).map String.ofList

@[simp] theorem named_append (ss ss' : List (List Char)) :
    named (ss ++ ss') = named ss ++ named ss' := by
  simp [named]

@[simp] theorem named_nil : named [] = [] := rfl

theorem named_of_isIdle {segs : List (List Char)} (h : ∀ s ∈ segs, isIdle s = true) :
    ∀ s ∈ named segs, s = "." := by
  intro s hs
  obtain ⟨cs, hcs, rfl⟩ := List.mem_map.1 hs
  obtain ⟨hmem, hne⟩ := List.mem_filter.1 hcs
  have hidle := h cs hmem
  rw [isIdle, Bool.or_eq_true] at hidle
  rcases hidle with hidle | hidle
  · simp [hidle] at hne
  · rw [beq_iff_eq.1 hidle]

theorem named_singleton {cs : List Char} (h : isIdle cs = false) :
    named [cs] = [String.ofList cs] ∧ String.ofList cs ≠ "." := by
  rw [isIdle, Bool.or_eq_false_iff] at h
  refine ⟨by simp [named, h.1], fun he => ?_⟩
  have : cs = ['.'] := by simpa using congrArg String.toList he
  simp [this] at h

theorem segments_joinSlashes {segs : List (List Char)} (h : ∀ s ∈ segs, '/' ∉ s) :
    segments (joinSlashes segs) = named segs := by
  rw [joinSlashes_eq_intercalate]
  by_cases hne : segs = []
  · rw [hne]
    rfl
  · rw [segments, List.splitOn_intercalate '/' h hne]
    rfl

/-- The steps in the start of a path. -/
def frontSteps (front : List Char) : List String :=
  if front = ['.'] then ["."] else []

theorem segments_front_append {front : List Char} {segs : List (List Char)}
    (h : ∀ s ∈ segs, '/' ∉ s)
    (hfront : front = ['/'] ∨ front = ['.'] ∧ (segs = [] ∨ ∃ ss, segs = [] :: ss) ∨ front = []) :
    segments (front ++ joinSlashes segs) = frontSteps front ++ named segs := by
  rcases hfront with rfl | ⟨rfl, rfl | ⟨ss, rfl⟩⟩ | rfl
  · have hsplit := FileTree.segments_append_slash [] (joinSlashes segs)
    rw [List.nil_append] at hsplit
    rw [List.singleton_append, hsplit, segments_joinSlashes h]
    rfl
  · rfl
  · have hss : ∀ s ∈ ss, '/' ∉ s := fun s hs => h s (List.mem_cons_of_mem _ hs)
    cases ss with
    | nil => rfl
    | cons s ss =>
      have hjoin : joinSlashes ([] :: s :: ss) = '/' :: joinSlashes (s :: ss) := rfl
      rw [hjoin, FileTree.segments_append_slash, segments_joinSlashes hss]
      rfl
  · exact segments_joinSlashes h

/-! ## Parents -/

/-- No idle step comes last, unless it is the only one. -/
def IsTidy (p : Path) : Prop :=
  ∀ before, stepsOf p = before ++ ["."] → before = []

theorem exists_dropWhile_isIdle (segs : List (List Char)) :
    ∃ idles, (∀ s ∈ idles, isIdle s = true) ∧ segs = idles ++ segs.dropWhile isIdle ∧
      ∀ s ss, segs.dropWhile isIdle = s :: ss → isIdle s = false := by
  refine ⟨segs.takeWhile isIdle, List.all_eq_true.1 List.all_takeWhile,
    List.takeWhile_append_dropWhile.symm, fun s ss h => ?_⟩
  have hhead := List.head?_dropWhile_not isIdle segs
  rw [h] at hhead
  simpa using hhead

theorem stepsOf_of_stem {p : Path} {front : List Char} {segs : List (List Char)}
    (h : p.stem = (front, segs)) : stepsOf p = frontSteps front ++ named segs.reverse := by
  obtain ⟨htext, hslash, hfront⟩ := stem_spec h
  rw [FileTree.stepsOf_eq_segments, htext]
  refine segments_front_append (fun s hs => hslash s (List.mem_reverse.1 hs)) ?_
  rcases hfront with hfront | ⟨hfront, hsegs⟩ | ⟨hfront, -⟩
  · exact .inl hfront
  · exact .inr (.inl ⟨hfront, hsegs.imp_left fun h => by rw [h]; rfl⟩)
  · exact .inr (.inr hfront)

/-- A path that starts as another one starts at the same place. -/
theorem isAbsolute_of_append {p q : Path} {rest : List Char} (hne : q.text.toList ≠ [])
    (h : p.text.toList = q.text.toList ++ rest) : q.isAbsolute = p.isAbsolute := by
  obtain ⟨c, cs, hq⟩ := List.exists_cons_of_ne_nil hne
  rw [isAbsolute, isAbsolute, h, hq, List.cons_append, List.head?_cons, List.head?_cons]

theorem joinSlashes_front_append {front : List Char} {ss ss' : List (List Char)}
    (h : joinSlashes ss' ≠ []) : ∃ rest, rest ≠ [] ∧
      front ++ joinSlashes (ss ++ ss') = (front ++ joinSlashes ss) ++ rest := by
  have hne : ss' ≠ [] := fun he => h (by rw [he]; rfl)
  cases ss with
  | nil => exact ⟨joinSlashes ss', h, by simp [joinSlashes]⟩
  | cons s ss =>
    refine ⟨'/' :: joinSlashes ss', List.cons_ne_nil _ _, ?_⟩
    rw [joinSlashes_append (List.cons_ne_nil s ss) hne, List.append_assoc]

section Kept

variable {p : Path} {front x : List Char} {segs kept idles idles' : List (List Char)}
  (hstem : p.stem = (front, segs))
  (horder : segs.reverse = kept.reverse ++ (idles.reverse ++ [x] ++ idles'.reverse))

include hstem horder

theorem stepsOf_kept : stepsOf ⟨String.ofList (front ++ joinSlashes kept.reverse)⟩ =
    frontSteps front ++ named kept.reverse := by
  obtain ⟨-, hslash, hfront⟩ := stem_spec hstem
  rw [FileTree.stepsOf_eq_segments, String.toList_ofList]
  refine segments_front_append (fun s hs => hslash s (List.mem_reverse.1 ?_)) ?_
  · rw [horder]
    exact List.mem_append_left _ hs
  · rcases hfront with hfront | ⟨hfront, hsegs⟩ | ⟨hfront, -⟩
    · exact .inl hfront
    · refine .inr (.inl ⟨hfront, ?_⟩)
      rcases hsegs with rfl | ⟨ss, hss⟩
      · simp at horder
      · cases hkept : kept.reverse with
        | nil => exact .inl rfl
        | cons s ss' =>
          rw [hss, hkept, List.cons_append] at horder
          exact .inr ⟨ss', by rw [(List.cons.inj horder).1]⟩
    · exact .inr (.inr hfront)

theorem stepsOf_eq_kept (hx : isIdle x = false) :
    stepsOf p = stepsOf ⟨String.ofList (front ++ joinSlashes kept.reverse)⟩ ++
      named idles.reverse ++ [String.ofList x] ++ named idles'.reverse := by
  rw [stepsOf_of_stem hstem, stepsOf_kept hstem horder, horder]
  simp only [named_append, (named_singleton hx).1, List.append_assoc]

theorem text_eq_kept (hx : isIdle x = false) :
    ∃ rest, rest ≠ [] ∧ p.text.toList = front ++ joinSlashes kept.reverse ++ rest := by
  obtain ⟨htext, hslash, -⟩ := stem_spec hstem
  rw [htext, horder]
  refine joinSlashes_front_append fun hnil => ?_
  have hnamed : named (idles.reverse ++ [x] ++ idles'.reverse) = [] := by
    rw [← segments_joinSlashes, hnil, FileTree.segments_nil]
    intro s hs
    refine hslash s (List.mem_reverse.1 ?_)
    rw [horder]
    exact List.mem_append_right _ hs
  rw [named_append, named_append, (named_singleton hx).1] at hnamed
  simp at hnamed

theorem isTidy_kept (hkept : ∀ s ss, kept = s :: ss → isIdle s = false) :
    IsTidy ⟨String.ofList (front ++ joinSlashes kept.reverse)⟩ := by
  intro before hbefore
  rw [stepsOf_kept hstem horder] at hbefore
  cases kept with
  | nil =>
    have hlength := congrArg List.length hbefore
    unfold frontSteps at hlength
    split at hlength
    · exact List.length_eq_zero_iff.1 (by simpa using hlength)
    · simp at hlength
  | cons s ss =>
    obtain ⟨hone, hne⟩ := named_singleton (hkept s ss rfl)
    rw [List.reverse_cons, named_append, hone, ← List.append_assoc] at hbefore
    exact absurd (List.singleton_inj.1 (List.append_inj' hbefore rfl).2) hne

end Kept

/-- **The steps of a path** are those of its parent, one more step and idle ones. -/
theorem parent?_eq_some {p q : Path} (h : p.parent? = some q) :
    (∃ rest, rest ≠ [] ∧ p.text.toList = q.text.toList ++ rest) ∧
      q.isAbsolute = p.isAbsolute ∧ q.IsTidy ∧
      ∃ idles s idles', stepsOf p = stepsOf q ++ idles ++ [s] ++ idles' ∧
        (∀ i ∈ idles, i = ".") ∧ ∀ i ∈ idles', i = "." := by
  obtain ⟨front, segs, hstem⟩ : ∃ front segs, p.stem = (front, segs) := ⟨_, _, rfl⟩
  obtain ⟨htext, -, hfront⟩ := stem_spec hstem
  obtain ⟨idles', hidles', hsegs, hhead⟩ := exists_dropWhile_isIdle segs
  unfold parent? at h
  simp only [hstem] at h
  split at h
  · next hnil =>
    -- Only the leading `.` is left, and its parent is the empty path.
    split at h
    · next hhere =>
      obtain rfl := Option.some.inj h
      obtain rfl := beq_iff_eq.1 hhere
      rw [hnil, List.append_nil] at hsegs
      refine ⟨⟨p.text.toList, by simp [htext], rfl⟩, ?_, ?_, ?_⟩
      · simp [isAbsolute, htext]
      · intro before hbefore
        cases before <;> cases hbefore
      · refine ⟨[], ".", named segs.reverse, stepsOf_of_stem hstem,
          fun i hi => absurd hi List.not_mem_nil, named_of_isIdle fun s hs => ?_⟩
        exact hidles' s (hsegs ▸ List.mem_reverse.1 hs)
    · cases h
  · next x rest hcons =>
    obtain ⟨idles, hidles, hrest, hhead'⟩ := exists_dropWhile_isIdle rest
    obtain rfl := Option.some.inj h
    have hx := hhead x rest hcons
    generalize rest.dropWhile isIdle = kept at hrest hhead' ⊢
    have horder : segs.reverse = kept.reverse ++ (idles.reverse ++ [x] ++ idles'.reverse) := by
      rw [hsegs, hcons, hrest]
      simp
    obtain ⟨rest', hne, htext'⟩ := text_eq_kept hstem horder hx
    refine ⟨⟨rest', hne, by rw [htext', String.toList_ofList]⟩, ?_, isTidy_kept hstem horder hhead',
      named idles.reverse, String.ofList x, named idles'.reverse,
      stepsOf_eq_kept hstem horder hx, ?_, ?_⟩
    · by_cases hnil : front ++ joinSlashes kept.reverse = []
      · have hfalse : p.isAbsolute = false := by
          rcases hfront with rfl | ⟨rfl, -⟩ | ⟨-, h⟩
          · cases hnil
          · cases hnil
          · exact h
        rw [hnil, hfalse]
        rfl
      · have hne : (String.ofList (front ++ joinSlashes kept.reverse)).toList ≠ [] := by
          rwa [String.toList_ofList]
        exact isAbsolute_of_append hne (by rw [htext', String.toList_ofList])
    · exact named_of_isIdle fun s hs => hidles s (List.mem_reverse.1 hs)
    · exact named_of_isIdle fun s hs => hidles' s (List.mem_reverse.1 hs)

/-- One step leads from the parent of a tidy path to it. -/
theorem IsTidy.stepsOf_eq {p q : Path} (hp : p.IsTidy) (h : p.parent? = some q) :
    ∃ idles s, stepsOf p = stepsOf q ++ idles ++ [s] ∧ ∀ i ∈ idles, i = "." := by
  obtain ⟨-, -, -, idles, s, idles', hsteps, hidles, hidles'⟩ := parent?_eq_some h
  rcases List.eq_nil_or_concat idles' with rfl | ⟨init, last, rfl⟩
  · exact ⟨idles, s, by rw [hsteps, List.append_nil], hidles⟩
  · rw [List.concat_eq_append] at hsteps hidles'
    rw [hidles' last (List.mem_append_right _ List.mem_cons_self), ← List.append_assoc] at hsteps
    have hnil := hp _ hsteps
    simp at hnil

/-- A path without a parent goes nowhere. -/
theorem parent?_eq_none {p : Path} (h : p.parent? = none) : ∀ s ∈ stepsOf p, s = "." := by
  obtain ⟨front, segs, hstem⟩ : ∃ front segs, p.stem = (front, segs) := ⟨_, _, rfl⟩
  obtain ⟨idles, hidles, hsegs, -⟩ := exists_dropWhile_isIdle segs
  unfold parent? at h
  simp only [hstem] at h
  split at h
  · next hnil =>
    split at h
    · cases h
    · next hhere =>
      rw [hnil, List.append_nil] at hsegs
      have hfront : frontSteps front = [] := if_neg (by simpa using hhere)
      rw [stepsOf_of_stem hstem, hfront, List.nil_append]
      exact named_of_isIdle fun s hs => hidles s (hsegs ▸ List.mem_reverse.1 hs)
  · cases h

/-- The paths above a path start as it does and take a front part of its steps. -/
theorem of_mem_ancestors {p q : Path} (h : q ∈ p.ancestors) :
    q.isAbsolute = p.isAbsolute ∧ stepsOf q <+: stepsOf p := by
  have hwithin : ∀ fuel (p : Path), q ∈ p.ancestorsWithin fuel →
      q.isAbsolute = p.isAbsolute ∧ stepsOf q <+: stepsOf p := by
    intro fuel
    induction fuel with
    | zero =>
      intro p h
      rw [ancestorsWithin, List.mem_singleton] at h
      subst h
      exact ⟨rfl, List.prefix_rfl⟩
    | succ fuel ih =>
      intro p h
      unfold ancestorsWithin at h
      split at h
      · next r hr =>
        rcases List.mem_cons.1 h with rfl | h
        · exact ⟨rfl, List.prefix_rfl⟩
        · obtain ⟨habsolute, hinitial⟩ := ih r h
          obtain ⟨-, habsolute', -, idles, s, idles', hsteps, -⟩ := parent?_eq_some hr
          refine ⟨habsolute.trans habsolute', hinitial.trans ?_⟩
          rw [hsteps, List.append_assoc, List.append_assoc]
          exact List.prefix_append _ _
      · rw [List.mem_singleton] at h
        subst h
        exact ⟨rfl, List.prefix_rfl⟩
  exact hwithin _ p h

end Path

end Pagewright

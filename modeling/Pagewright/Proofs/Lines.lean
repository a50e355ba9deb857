import Pagewright.Text.Lines

/-!
# Writing lines and reading them back

A text has two readings as a sequence: its *pieces* are what stands between its line feeds, its
*lines* are what `lines` gives, which takes a carriage return before a line feed for a part of the
line end. `writeLines` ends every line with a line feed. Lines that hold no line feed and end in no
carriage return come back from what was written (`lines_writeLines`), and so do the pieces of a text
(`joinLines_pieces`, `pieces_joinLines`).
-/

namespace Pagewright.Text

/-- A text whose last character is a carriage return. -/
def EndsInReturn (s : String) : Prop :=
  s.toList.getLast? = some '\r'

instance : DecidablePred EndsInReturn := fun s =>
  inferInstanceAs (Decidable (s.toList.getLast? = some '\r'))

/-- What stands between the line feeds of a text. -/
def pieces (s : String) : List String :=
  (s.toList.splitOn '\n').map String.ofList

/-- Lines, each with a line feed after it. -/
def writeLines (ls : List String) : String :=
  String.join (ls.map (· ++ "\n"))

@[simp] theorem writeLines_nil : writeLines [] = "" := rfl

@[simp] theorem writeLines_cons (l : String) (ls : List String) :
    writeLines (l :: ls) = l ++ "\n" ++ writeLines ls := by
  simp [writeLines, String.append_assoc]

@[simp] theorem writeLines_append (ls ms : List String) :
    writeLines (ls ++ ms) = writeLines ls ++ writeLines ms := by
  simp [writeLines]

theorem writeLines_flatten (lss : List (List String)) :
    writeLines lss.flatten = String.join (lss.map writeLines) := by
  induction lss with
  | nil => rfl
  | cons ls lss ih => simp [ih]

/-! ## Lines -/

theorem splitLines_cons_other {c : Char} {cs : List Char} (hfeed : c ≠ '\n')
    (hreturn : ∀ ds, c = '\r' → cs ≠ '\n' :: ds) :
    splitLines (c :: cs) = (match splitLines cs with
      | [] => [[c]]
      | l :: ls => (c :: l) :: ls) := by
  rw [splitLines.eq_def]
  split
  · next h => cases h
  · next h => exact absurd (List.cons.inj h).1 hfeed
  · next h =>
    obtain ⟨rfl, rfl⟩ := List.cons.inj h
    exact absurd rfl (hreturn _ rfl)
  · next h =>
    obtain ⟨rfl, rfl⟩ := List.cons.inj h
    rfl

/-- A line that ends at a line feed is the first line of what follows it. -/
theorem splitLines_append_feed {l : List Char} (hfeed : '\n' ∉ l)
    (hreturn : l.getLast? ≠ some '\r') (cs : List Char) :
    splitLines (l ++ '\n' :: cs) = l :: splitLines cs := by
  induction l with
  | nil => exact splitLines_line_feed cs
  | cons c l ih =>
    have hc : c ≠ '\n' := fun h => hfeed (h ▸ List.mem_cons_self)
    have hl : '\n' ∉ l := fun h => hfeed (List.mem_cons_of_mem _ h)
    have hhead : ∀ ds, c = '\r' → l ++ '\n' :: cs ≠ '\n' :: ds := by
      rintro ds rfl h
      cases l with
      | nil => exact hreturn rfl
      | cons d l => exact hl ((List.cons.inj h).1 ▸ List.mem_cons_self)
    have hlast : l.getLast? ≠ some '\r' := by
      intro h
      cases l with
      | nil => cases h
      | cons d l => exact hreturn (by rw [List.getLast?_cons_cons]; exact h)
    rw [List.cons_append, splitLines_cons_other hc hhead, ih hl hlast]

theorem not_mem_splitLines {cs l : List Char} (h : l ∈ splitLines cs) : '\n' ∉ l := by
  induction cs using splitLines.induct generalizing l with
  | case1 => cases h
  | case2 cs ih =>
    rcases List.mem_cons.1 h with rfl | h
    · simp
    · exact ih h
  | case3 cs ih =>
    rcases List.mem_cons.1 h with rfl | h
    · simp
    · exact ih h
  | case4 c cs hfeed hreturn hnil ih =>
    rw [splitLines_cons_other hfeed hreturn, hnil, List.mem_singleton] at h
    rw [h, List.mem_singleton]
    exact fun e => hfeed e.symm
  | case5 c cs hfeed hreturn m ms hcons ih =>
    rw [splitLines_cons_other hfeed hreturn, hcons] at h
    rcases List.mem_cons.1 h with rfl | h
    · rw [List.mem_cons, not_or]
      exact ⟨fun e => hfeed e.symm, ih (hcons ▸ List.mem_cons_self)⟩
    · exact ih (hcons ▸ List.mem_cons_of_mem _ h)

/-- No line of a text holds a line feed. -/
theorem not_mem_lines {s l : String} (h : l ∈ lines s) : '\n' ∉ l.toList := by
  obtain ⟨cs, hcs, rfl⟩ := List.mem_map.1 h
  simpa using not_mem_splitLines hcs

/-- Lines that hold no line feed and end in no carriage return can be written and read back. -/
theorem lines_writeLines {ls : List String}
    (h : ∀ l ∈ ls, '\n' ∉ l.toList ∧ ¬ EndsInReturn l) : lines (writeLines ls) = ls := by
  induction ls with
  | nil => rfl
  | cons l ls ih =>
    obtain ⟨hfeed, hreturn⟩ := h l List.mem_cons_self
    have htext : (writeLines (l :: ls)).toList = l.toList ++ '\n' :: (writeLines ls).toList := by
      simp
    have hrest := ih fun m hm => h m (List.mem_cons_of_mem _ hm)
    unfold lines at hrest ⊢
    rw [htext, splitLines_append_feed hfeed hreturn, List.map_cons, hrest, String.ofList_toList]

/-- A text whose last line, if it has one, ends in a line feed. -/
def EndsLastLine (s : String) : Prop :=
  s.toList = [] ∨ s.toList.getLast? = some '\n'

instance : DecidablePred EndsLastLine := fun s =>
  inferInstanceAs (Decidable (s.toList = [] ∨ s.toList.getLast? = some '\n'))

/-- What follows the first character of a text whose last line is ended is such a text too. -/
theorem endsLastLine_tail {c : Char} {cs : List Char} (h : (c :: cs).getLast? = some '\n') :
    cs = [] ∨ cs.getLast? = some '\n' := by
  cases cs with
  | nil => exact .inl rfl
  | cons d cs => exact .inr (by rwa [List.getLast?_cons_cons] at h)

theorem splitLines_append {cs : List Char} (hlast : cs = [] ∨ cs.getLast? = some '\n')
    (ds : List Char) : splitLines (cs ++ ds) = splitLines cs ++ splitLines ds := by
  induction cs using splitLines.induct with
  | case1 => rfl
  | case2 cs ih =>
    have hlast := hlast.resolve_left (List.cons_ne_nil _ _)
    rw [List.cons_append, splitLines_line_feed, splitLines_line_feed, ih (endsLastLine_tail hlast),
      List.cons_append]
  | case3 cs ih =>
    have hlast := hlast.resolve_left (List.cons_ne_nil _ _)
    have hrest := ih (endsLastLine_tail (by rwa [List.getLast?_cons_cons] at hlast))
    exact congrArg ([] :: ·) hrest
  | case4 c cs hfeed hpair hnil ih =>
    have hlast := hlast.resolve_left (List.cons_ne_nil _ _)
    obtain rfl := splitLines_eq_nil_iff.1 hnil
    exact absurd (Option.some.inj hlast) hfeed
  | case5 c cs hfeed hpair l ls hcons ih =>
    have hlast := hlast.resolve_left (List.cons_ne_nil _ _)
    have hpair' : ∀ es, c = '\r' → cs ++ ds ≠ '\n' :: es := by
      rintro es hc h
      cases cs with
      | nil => cases hcons
      | cons d cs => exact hpair cs hc (by rw [(List.cons.inj h).1])
    rw [List.cons_append, splitLines_cons_other hfeed hpair', ih (endsLastLine_tail hlast),
      splitLines_cons_other hfeed hpair, hcons]
    rfl

/-- **Lines of two texts.** When the last line of the first one is ended, the lines of the second
follow those of the first. -/
theorem lines_append {s : String} (h : EndsLastLine s) (t : String) :
    lines (s ++ t) = lines s ++ lines t := by
  rw [lines, String.toList_append, splitLines_append h, List.map_append, lines, lines]

theorem flatMap_splitLines {cs : List Char} (hlast : cs = [] ∨ cs.getLast? = some '\n')
    (hreturn : ¬ ['\r', '\n'] <:+: cs) : (splitLines cs).flatMap (· ++ ['\n']) = cs := by
  have hnone : ∀ {c : Char} {cs : List Char}, ¬ ['\r', '\n'] <:+: c :: cs →
      ¬ ['\r', '\n'] <:+: cs := fun h hcs => h (List.infix_cons hcs)
  induction cs using splitLines.induct with
  | case1 => rfl
  | case2 cs ih =>
    have hlast := hlast.resolve_left (List.cons_ne_nil _ _)
    rw [splitLines_line_feed, List.flatMap_cons, List.nil_append, List.singleton_append,
      ih (endsLastLine_tail hlast) (hnone hreturn)]
  | case3 cs ih => exact absurd ⟨[], cs, rfl⟩ hreturn
  | case4 c cs hfeed hpair hnil ih =>
    have hlast := hlast.resolve_left (List.cons_ne_nil _ _)
    obtain rfl := splitLines_eq_nil_iff.1 hnil
    exact absurd (Option.some.inj hlast) hfeed
  | case5 c cs hfeed hpair l ls hcons ih =>
    have hlast := hlast.resolve_left (List.cons_ne_nil _ _)
    have hrest := ih (endsLastLine_tail hlast) (hnone hreturn)
    rw [hcons, List.flatMap_cons] at hrest
    rw [splitLines_cons_other hfeed hpair, hcons, List.flatMap_cons, List.cons_append,
      List.cons_append, hrest]

/-- **A text is its lines with line feeds after them** when it ends in a line feed, or is empty, and
no line feed has a carriage return before it. -/
theorem writeLines_lines {s : String} (hlast : EndsLastLine s)
    (hreturn : ¬ ['\r', '\n'] <:+: s.toList) : writeLines (lines s) = s := by
  have htoList : ∀ lss : List (List Char),
      (writeLines (lss.map String.ofList)).toList = lss.flatMap (· ++ ['\n']) := by
    intro lss
    induction lss with
    | nil => rfl
    | cons l lss ih => simp [ih]
  apply String.toList_inj.1
  rw [lines, htoList, flatMap_splitLines hlast hreturn]

/-! ## Pieces -/

theorem toList_joinLines (ls : List String) :
    (joinLines ls).toList = ['\n'].intercalate (ls.map String.toList) := by
  induction ls with
  | nil => rfl
  | cons l ls ih =>
    cases ls with
    | nil => simp
    | cons m ls => simp [joinLines_cons_cons, ih]

theorem pieces_ne_nil (s : String) : pieces s ≠ [] := by
  simp [pieces]

/-- A text is its pieces with line feeds between them. -/
theorem joinLines_pieces (s : String) : joinLines (pieces s) = s := by
  apply String.toList_inj.1
  rw [toList_joinLines, pieces, List.map_map]
  simp [Function.comp_def, List.intercalate_splitOn]

/-- Lines without line feeds are the pieces of what they are joined to. -/
theorem pieces_joinLines {ls : List String} (hne : ls ≠ []) (h : ∀ l ∈ ls, '\n' ∉ l.toList) :
    pieces (joinLines ls) = ls := by
  rw [pieces, toList_joinLines, List.splitOn_intercalate]
  · simp [Function.comp_def]
  · simpa using h
  · simpa using hne

theorem pieces_empty : pieces "" = [""] := by
  simp [pieces]

/-- What holds of lines without line feeds, and of the empty text, holds of the pieces of what they
are joined to. -/
theorem forall_mem_pieces_joinLines {P : String → Prop} {ls : List String} (hempty : P "")
    (h : ∀ l ∈ ls, P l ∧ '\n' ∉ l.toList) : ∀ piece ∈ pieces (joinLines ls), P piece := by
  intro piece hpiece
  cases ls with
  | nil =>
    rw [joinLines_nil, pieces_empty] at hpiece
    rwa [List.mem_singleton.1 hpiece]
  | cons l ls =>
    rw [pieces_joinLines (List.cons_ne_nil l ls) fun m hm => (h m hm).2] at hpiece
    exact (h piece hpiece).1

theorem not_mem_splitOn {a : Char} {cs l : List Char} (h : l ∈ cs.splitOn a) : a ∉ l := by
  induction cs generalizing l with
  | nil =>
    rw [List.splitOn_nil, List.mem_singleton] at h
    simp [h]
  | cons c cs ih =>
    rw [List.splitOn_cons_eq_if_modifyHead] at h
    split at h
    · rcases List.mem_cons.1 h with rfl | h
      · simp
      · exact ih h
    · next hc =>
      cases hs : cs.splitOn a with
      | nil => exact absurd hs (List.splitOn_ne_nil a cs)
      | cons m ms =>
        rw [hs, List.modifyHead_cons] at h
        rcases List.mem_cons.1 h with rfl | h
        · rw [List.mem_cons, not_or]
          exact ⟨fun e => hc (by simp [e]), ih (hs ▸ List.mem_cons_self)⟩
        · exact ih (hs ▸ List.mem_cons_of_mem _ h)

theorem not_mem_pieces {s l : String} (h : l ∈ pieces s) : '\n' ∉ l.toList := by
  obtain ⟨cs, hcs, rfl⟩ := List.mem_map.1 h
  simpa using not_mem_splitOn hcs

end Pagewright.Text

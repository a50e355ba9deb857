import Pagewright.Proofs.Reread

/-!
# Reading into one marked list

A draft keeps the open component apart from the finished ones. The same reading can keep all of them
in one list, with a mark beside it that says what is open (`MarkedList`); a line then changes the
last component of the list, whatever that is. Nothing in the types links the mark to the list, and
when the last component is asked for there may be none. The two readings are the same
(`addLine_marked`, `ofLines_eq`), whatever is done in an empty list (`Fallback`), so what holds of
drafts between two lines (`Held`) links the mark to the list (`WellMarked`).
-/

namespace Pagewright

open Directive (ofLine IsPlain)

/-- What is open at the end of a list of components. -/
inductive OpenMark where
  | nothing
  | plainText
  /-- A component that a directive has opened. -/
  | named
  deriving DecidableEq, Repr

/-- The components that were read in one list, and beside it what is open. -/
structure MarkedList where
  components : List Component := []
  mark : OpenMark := .nothing
  page : Page

/-- What is done when the last component is asked for and the list is empty. -/
abbrev Fallback := MarkedList → Except ComponentError MarkedList

/-- Going on as if nothing had been asked for. -/
def Fallback.skip : Fallback := .ok

namespace MarkedList

variable (fallback : Fallback) (shapes : ShapeTable)

/-- Nothing read: the page of a source path in its default shape. -/
def empty (path : Path) : MarkedList :=
  { page := .start shapes path }

/-- Changes the last component, and with it the page. -/
def changeLast (f : Component → Page → Component × Except ComponentError Page) (s : MarkedList) :
    Except ComponentError MarkedList :=
  match s.components.getLast? with
  | none => fallback s
  | some c =>
    match f c s.page with
    | (c, .ok page) => .ok { s with components := s.components.dropLast ++ [c], page }
    | (_, .error e) => .error e

def addText (s : MarkedList) (number : Nat) (line : String) : Except ComponentError MarkedList :=
  let s := if s.mark = .nothing then
    { s with components := s.components ++ [.plainText number], mark := .plainText } else s
  s.changeLast fallback fun c page => (c.push line, .ok page)

def markNothing (s : MarkedList) : MarkedList :=
  { s with mark := .nothing }

/-- Finishes the last component, whatever is open. -/
def finishLast (s : MarkedList) : Except ComponentError MarkedList :=
  (s.changeLast fallback fun c page => c.finish shapes page).map markNothing

def closeLast (s : MarkedList) (dir : Directive) : Except ComponentError MarkedList :=
  (s.changeLast fallback fun c page => c.closeBy shapes dir page).map markNothing

/-- Finishes plain text that is open. -/
def settle (s : MarkedList) : Except ComponentError MarkedList :=
  if s.mark = .plainText then s.finishLast fallback shapes else .ok s

/-- Takes a directive when no plain text is open. -/
def addSettled (s : MarkedList) (number : Nat) (dir : Directive) :
    Except ComponentError MarkedList :=
  if s.mark = .named then
    if dir.startsSection then .error (.opensInside dir.text) else s.closeLast fallback shapes dir
  else if !dir.startsSection then .error (.closesNothing dir.text)
  else
    let s := { s with components := s.components ++ [.ofDirective dir number], mark := .named }
    if dir.isOneLine then s.finishLast fallback shapes else .ok s

def addLine (s : MarkedList) (number : Nat) (line : String) : Except DocumentError MarkedList :=
  match ofLine line with
  | .error v => .error ⟨number, some line, .directive v⟩
  | .ok none => (s.addText fallback number line).mapError (⟨number, some line, .component ·⟩)
  | .ok (some dir) =>
    ((s.settle fallback shapes).bind (·.addSettled fallback shapes number dir)).mapError
      (⟨number, some line, .component ·⟩)

/-- Takes lines, the first of which has the given number. -/
def addLines (s : MarkedList) (number : Nat) : List String → Except DocumentError MarkedList
  | [] => .ok s
  | line :: rest => (s.addLine fallback shapes number line).bind (·.addLines (number + 1) rest)

/-- The document when there are no more lines; `count` lines were read. -/
def toDocument (s : MarkedList) (path : Path) (count : Nat) : Except DocumentError Document :=
  match s.mark with
  | .nothing => .ok { path, components := s.components, page := s.page }
  | .plainText =>
    ((s.finishLast fallback shapes).map fun s =>
      { path, components := s.components, page := s.page }).mapError (⟨count, none, .component ·⟩)
  | .named =>
    let (name, start) :=
      (s.components.getLast?.map fun c => (c.name?.getD "", c.start)).getD ("", 0)
    .error ⟨count, none, .component (.staysOpen name start)⟩

end MarkedList

namespace Draft

/-- What is open in a draft. -/
def mark (D : Draft) : OpenMark :=
  match D.current with
  | none => .nothing
  | some c => if c.isPlain then .plainText else .named

/-- The finished components of a draft and the open one in one list. -/
def marked (D : Draft) : MarkedList where
  components := D.finished ++ D.current.toList
  mark := D.mark
  page := D.page

end Draft

/-! ## The two readings are the same -/

namespace Draft

variable {D : Draft} {c : Component}

theorem marked_of_none (h : D.current = none) : D.marked = ⟨D.finished, .nothing, D.page⟩ := by
  simp only [marked, mark, h, Option.toList_none, List.append_nil]

theorem marked_of_plainText (h : D.current = some c) (hkind : c.kind = .plainText) :
    D.marked = ⟨D.finished ++ [c], .plainText, D.page⟩ := by
  have hplain : c.isPlain = true := by simpa [Component.isPlain] using hkind
  simp only [marked, mark, h, hplain, Option.toList_some, if_true]

theorem marked_of_named (h : D.current = some c) (hkind : c.kind ≠ .plainText) :
    D.marked = ⟨D.finished ++ [c], .named, D.page⟩ := by
  have hplain : c.isPlain = false := by simpa [Component.isPlain] using hkind
  simp only [marked, mark, h, hplain, Option.toList_some, Bool.false_eq_true, if_false]

theorem kind_ne_plainText_of_settle (h : D.settle.current = some c) : c.kind ≠ .plainText := by
  intro hkind
  cases hcurrent : D.current with
  | none => simp [settle_of_none hcurrent, hcurrent] at h
  | some c' =>
    by_cases hkind' : c'.kind = .plainText
    · simp [settle_of_plainText hcurrent hkind'] at h
    · rw [settle_of_not_plain hcurrent hkind', hcurrent] at h
      exact hkind' (Option.some.inj h ▸ hkind)

end Draft

namespace MarkedList

variable {fallback : Fallback} {shapes : ShapeTable} {s : MarkedList} {n : Nat}

theorem changeLast_concat (f : Component → Page → Component × Except ComponentError Page)
    (cs : List Component) (c : Component) (mark : OpenMark) (page : Page) :
    changeLast fallback f ⟨cs ++ [c], mark, page⟩ = match f c page with
      | (c, .ok page) => .ok ⟨cs ++ [c], mark, page⟩
      | (_, .error e) => .error e := by
  rw [changeLast, List.getLast?_concat]
  dsimp only
  rw [List.dropLast_concat]

theorem finishLast_concat (cs : List Component) (c : Component) (mark : OpenMark) (page : Page) :
    finishLast fallback shapes ⟨cs ++ [c], mark, page⟩ =
      (c.withText.effect shapes page).map (⟨cs ++ [c.withText], .nothing, ·⟩) := by
  rw [finishLast, changeLast_concat, Component.finish]
  cases c.withText.effect shapes page <;> rfl

theorem finishLast_plainText {c : Component} (hkind : c.kind = .plainText) (cs : List Component)
    (mark : OpenMark) (page : Page) :
    finishLast fallback shapes ⟨cs ++ [c], mark, page⟩ =
      .ok ⟨cs ++ [c.withText], .nothing, page⟩ := by
  rw [finishLast_concat, Component.effect, Component.kind_withText, hkind]
  rfl

theorem addText_concat {mark : OpenMark} (h : mark ≠ .nothing) (cs : List Component) (c : Component)
    (page : Page) (n : Nat) (line : String) :
    addText fallback ⟨cs ++ [c], mark, page⟩ n line = .ok ⟨cs ++ [c.push line], mark, page⟩ := by
  rw [addText, if_neg h, changeLast_concat]

theorem addText_marked (D : Draft) (n : Nat) (line : String) :
    D.marked.addText fallback n line = .ok (D.addText n line).marked := by
  cases hcurrent : D.current with
  | none =>
    have hnext : (D.addText n line).current = some ((Component.plainText n).push line) := by
      rw [Draft.addText, hcurrent, Option.getD_none]
    rw [Draft.marked_of_none hcurrent, Draft.marked_of_plainText hnext rfl, addText, if_pos rfl,
      changeLast_concat]
    rfl
  | some c =>
    have hnext : (D.addText n line).current = some (c.push line) := by
      rw [Draft.addText, hcurrent, Option.getD_some]
    by_cases hkind : c.kind = .plainText
    · rw [Draft.marked_of_plainText hcurrent hkind, Draft.marked_of_plainText hnext hkind]
      exact addText_concat (by decide) D.finished c D.page n line
    · rw [Draft.marked_of_named hcurrent hkind, Draft.marked_of_named hnext hkind]
      exact addText_concat (by decide) D.finished c D.page n line

theorem settle_marked (D : Draft) : D.marked.settle fallback shapes = .ok D.settle.marked := by
  cases hcurrent : D.current with
  | none => rw [Draft.settle_of_none hcurrent, Draft.marked_of_none hcurrent, settle, if_neg nofun]
  | some c =>
    by_cases hkind : c.kind = .plainText
    · rw [Draft.settle_of_plainText hcurrent hkind, Draft.marked_of_plainText hcurrent hkind,
        settle, if_pos rfl, finishLast_plainText hkind, Draft.marked_of_none rfl]
    · rw [Draft.settle_of_not_plain hcurrent hkind, Draft.marked_of_named hcurrent hkind, settle,
        if_neg nofun]

theorem addSettled_marked {D : Draft} (h : ∀ c, D.current = some c → c.kind ≠ .plainText) (n : Nat)
    (d : Directive) :
    D.marked.addSettled fallback shapes n d = (D.addSettled shapes n d).map Draft.marked := by
  cases hcurrent : D.current with
  | none =>
    rw [Draft.marked_of_none hcurrent, addSettled, if_neg nofun, Draft.addSettled, hcurrent]
    dsimp only
    split
    · rfl
    · split
      · rw [finishLast_concat, Component.finish]
        cases (Component.ofDirective d n).withText.effect shapes D.page with
        | ok page => simp [Except.map, Draft.marked_of_none]
        | error e => rfl
      · rw [Except.map, Draft.marked_of_named rfl (kindOf_ne_plainText d)]
  | some c =>
    rw [Draft.marked_of_named hcurrent (h c hcurrent), addSettled, if_pos rfl, Draft.addSettled,
      hcurrent]
    dsimp only
    split
    · rfl
    · rw [closeLast, changeLast_concat]
      rcases c.closeBy shapes d D.page with ⟨c', e | page⟩
      · rfl
      · simp [Except.map, Draft.marked_of_none, markNothing]

/-- **One line** leads from a draft and from its list to the same. -/
theorem addLine_marked (D : Draft) (n : Nat) (line : String) :
    D.marked.addLine fallback shapes n line = (D.addLine shapes n line).map Draft.marked := by
  unfold addLine Draft.addLine
  rcases ofLine line with v | ⟨_ | d⟩
  · rfl
  · dsimp only
    rw [addText_marked]
    rfl
  · dsimp only
    rw [settle_marked, Except.bind, addSettled_marked fun _ => Draft.kind_ne_plainText_of_settle,
      Draft.addDirective_eq]
    cases D.settle.addSettled shapes n d <;> rfl

theorem addLines_marked (D : Draft) (n : Nat) (ls : List String) :
    D.marked.addLines fallback shapes n ls = (D.addLines shapes n ls).map Draft.marked := by
  induction ls generalizing D n with
  | nil => rfl
  | cons line ls ih =>
    rw [addLines, Draft.addLines, addLine_marked]
    cases D.addLine shapes n line with
    | ok D' => exact ih D' (n + 1)
    | error e => rfl

theorem toDocument_marked (D : Draft) (path : Path) (count : Nat) :
    D.marked.toDocument fallback shapes path count = D.toDocument path count := by
  rw [Draft.toDocument]
  cases hcurrent : D.current with
  | none =>
    rw [Draft.settle_of_none hcurrent, Draft.marked_of_none hcurrent, toDocument, hcurrent]
  | some c =>
    by_cases hkind : c.kind = .plainText
    · rw [Draft.settle_of_plainText hcurrent hkind, Draft.marked_of_plainText hcurrent hkind,
        toDocument, finishLast_plainText hkind]
      rfl
    · rw [Draft.settle_of_not_plain hcurrent hkind, Draft.marked_of_named hcurrent hkind,
        toDocument, List.getLast?_concat, hcurrent]
      rfl

/-- **A document is read** from the list as from drafts, whatever is done in an empty list. -/
theorem ofLines_eq (fallback : Fallback) (shapes : ShapeTable) (path : Path) (ls : List String) :
    ((empty shapes path).addLines fallback shapes 1 ls).bind
        (·.toDocument fallback shapes path ls.length) = Document.ofLines shapes path ls := by
  have hempty : empty shapes path = (Draft.empty shapes path).marked := rfl
  rw [hempty, addLines_marked, Document.ofLines]
  cases (Draft.empty shapes path).addLines shapes 1 ls with
  | ok D => exact toDocument_marked D path ls.length
  | error e => rfl

end MarkedList

/-! ## Finished components stay -/

namespace Draft

variable {shapes : ShapeTable} {D D' : Draft} {n : Nat}

theorem finished_prefix_settle (D : Draft) : D.finished <+: D.settle.finished := by
  unfold settle
  split
  · split
    · exact List.prefix_append _ _
    · exact List.prefix_refl _
  · exact List.prefix_refl _

/-- **One line** adds to the finished components and changes none. -/
theorem finished_prefix_addLine {line : String} (h : D.addLine shapes n line = .ok D') :
    D.finished <+: D'.finished := by
  unfold addLine at h
  split at h
  · cases h
  · obtain rfl := Except.ok.inj h
    exact List.prefix_refl _
  · next d _ =>
    split at h
    · next D'' htaken =>
      obtain rfl := Except.ok.inj h
      refine (finished_prefix_settle D).trans ?_
      cases addSettled_eq_ok_iff.1 htaken with
      | opens => exact List.prefix_refl _
      | oneLine => exact List.prefix_append _ _
      | closes => exact List.prefix_append _ _
    · cases h

theorem finished_prefix_addLines {ls : List String} (h : D.addLines shapes n ls = .ok D') :
    D.finished <+: D'.finished := by
  induction ls generalizing D n with
  | nil =>
    obtain rfl := Except.ok.inj h
    exact List.prefix_refl _
  | cons line ls ih =>
    rw [addLines] at h
    split at h
    · next D₁ hD₁ => exact (finished_prefix_addLine hD₁).trans (ih h)
    · cases h

end Draft

/-! ## Components and their lines -/

section Blocks

variable {shapes : ShapeTable} {n : Nat} {bs : List (List String)} {cs : List Component}
  {rest : List String} {c : Component}

theorem Reads.hasText (h : Reads shapes n bs cs) : ∀ c ∈ cs, c.hasText = true := by
  intro c hc
  obtain ⟨-, -, -, hblock⟩ := h.exists_block c hc
  rw [hblock]
  rfl

theorem Reads.start_lt (h : Reads shapes n bs cs) :
    ∀ c ∈ cs, n ≤ c.start ∧ c.start < n + bs.flatten.length := by
  intro c hc
  obtain ⟨before, b, after, hflatten, hstart, hform⟩ := h.exists_between c hc
  have hpos := List.length_pos_of_ne_nil hform.ne_nil
  rw [hflatten, List.length_append, List.length_append]
  omega

/-- Every component starts after the lines of those before it. -/
theorem Reads.increasing (h : Reads shapes n bs cs) : cs.Pairwise (·.start < ·.start) := by
  induction h with
  | nil => exact .nil
  | @cons n b body kind bs cs head tail ih =>
    refine List.pairwise_cons.2 ⟨fun c hc => ?_, ih⟩
    have hpos := List.length_pos_of_ne_nil head.ne_nil
    have hstart := (tail.start_lt c hc).1
    simp only [Component.ofBlock]
    omega

/-- The lines of the components are the plain ones of the blocks. -/
theorem Reads.flatMap_lines (h : Reads shapes n bs cs) :
    cs.flatMap (·.body.lines) = bs.flatten.filter (IsPlain ·) := by
  induction h with
  | nil => rfl
  | @cons n b body kind bs cs head tail ih =>
    rw [List.flatMap_cons, List.flatten_cons, List.filter_append, ih, ← head.body_eq_filter]
    rfl

theorem Pending.flatMap_lines {current : Option Component} (h : Pending n rest current) :
    current.toList.flatMap (·.body.lines) = rest.filter (IsPlain ·) := by
  cases h with
  | idle => rfl
  | plainText _ plain =>
    simp [IsPlainBlock.filter_eq plain, Component.pushAll, Component.plainText]
  | opened opens _ _ plain =>
    simp [not_isPlain_of_ofLine opens, IsPlainBlock.filter_eq plain, Component.pushAll,
      Component.ofDirective]

theorem Pending.hasText (h : Pending n rest (some c)) : c.hasText = false := by
  cases h <;> rfl

theorem Pending.start_eq (h : Pending n rest (some c)) : c.start = n := by
  cases h <;> rfl

/-- A directive that starts a section and leaves it open names a script or a slot. -/
theorem kindOf_of_goesOn {line : String} {d : Directive} (opens : ofLine line = .ok (some d))
    (goesOn : d.isOneLine = false) :
    (∃ keyword, Component.kindOf d = .script keyword) ∨
      ∃ name display, Component.kindOf d = .slot name display := by
  cases hk : d.kind with
  | script => exact .inl ⟨d.name, by simp [Component.kindOf, hk]⟩
  | slot =>
    refine .inr ⟨d.name, if d.endsComment then .rendered else .commentOnly, ?_⟩
    simp only [Component.kindOf, hk]
  | shape =>
    rw [((Directive.lawful_of_ofLine opens).shape hk).2] at goesOn
    cases goesOn

end Blocks

/-! ## The mark agrees with the list -/

namespace MarkedList

/-- The last component is unfinished and has a property, and all others are finished. -/
def EndsOpen (s : MarkedList) (P : Component → Prop) : Prop :=
  ∃ cs c, s.components = cs ++ [c] ∧ (∀ d ∈ cs, d.hasText = true) ∧ c.hasText = false ∧ P c

/-- The mark says what is open at the end of the list. -/
structure WellMarked (s : MarkedList) : Prop where
  nothing : s.mark = .nothing → ∀ c ∈ s.components, c.hasText = true
  plainText : s.mark = .plainText → s.EndsOpen fun c => c.kind = .plainText ∧ c.body.lines ≠ []
  named : s.mark = .named → s.EndsOpen fun c =>
    (∃ keyword, c.kind = .script keyword) ∨ ∃ name display, c.kind = .slot name display
  apart : Apart s.components
  increasing : s.components.Pairwise (·.start < ·.start)

variable {fallback : Fallback} {shapes : ShapeTable} {s : MarkedList} {path : Path}
  {ls : List String} {D D' : Draft}

theorem apart_marked (h : Held shapes path ls D) : Apart D.marked.components := by
  obtain ⟨⟨bs, rest, -, hreached⟩, hlast⟩ := h
  rw [Draft.marked]
  cases hcurrent : D.current with
  | none => simpa using hreached.apart
  | some c =>
    refine hreached.apart.append fun hkind => hlast ?_
    rw [hcurrent]
    rintro _ ⟨⟩
    exact hkind

theorem increasing_marked (h : Held shapes path ls D) :
    D.marked.components.Pairwise (·.start < ·.start) := by
  obtain ⟨⟨bs, rest, -, hreads, -, hpending, -⟩, -⟩ := h
  refine List.pairwise_append.2 ⟨hreads.increasing, ?_, fun c hc d hd => ?_⟩
  · cases D.current <;> simp
  · rw [Option.mem_toList.1 hd] at hpending
    rw [hpending.start_eq]
    exact (hreads.start_lt c hc).2

/-- What holds of a draft links the mark to the list. -/
theorem wellMarked_marked (h : Held shapes path ls D) : D.marked.WellMarked := by
  obtain ⟨bs, rest, -, hreads, -, hpending, -⟩ := h.reached
  have hfinished := hreads.hasText
  have hapart := apart_marked h
  have hincreasing := increasing_marked h
  generalize hcurrent : D.current = current at hpending
  cases hpending with
  | idle =>
    rw [Draft.marked_of_none hcurrent] at hapart hincreasing ⊢
    exact ⟨fun _ => hfinished, nofun, nofun, hapart, hincreasing⟩
  | plainText nonempty plain =>
    rw [Draft.marked_of_plainText hcurrent rfl] at hapart hincreasing ⊢
    refine ⟨nofun, fun _ => ?_, nofun, hapart, hincreasing⟩
    exact ⟨_, _, rfl, hfinished, rfl, rfl, nonempty⟩
  | @opened opening body d opens starts goesOn plain =>
    rw [Draft.marked_of_named hcurrent (kindOf_ne_plainText d)] at hapart hincreasing ⊢
    refine ⟨nofun, nofun, fun _ => ?_, hapart, hincreasing⟩
    exact ⟨_, _, rfl, hfinished, rfl, kindOf_of_goesOn opens goesOn⟩

/-- Whatever is open is the last component. -/
theorem WellMarked.exists_getLast? (h : s.WellMarked) (hmark : s.mark ≠ .nothing) :
    ∃ c, s.components.getLast? = some c ∧ c.hasText = false := by
  have hlast : ∀ {P}, s.EndsOpen P → ∃ c, s.components.getLast? = some c ∧ c.hasText = false := by
    rintro P ⟨cs, c, hcs, -, hopen, -⟩
    exact ⟨c, by rw [hcs, List.getLast?_concat], hopen⟩
  cases hs : s.mark with
  | nothing => exact absurd hs hmark
  | plainText => exact hlast (h.plainText hs)
  | named => exact hlast (h.named hs)

/-- A finished component stays in its place while further lines are read. -/
theorem getElem?_marked {n i : Nat} {ms : List String} {c : Component} (h : Held shapes path ls D)
    (hD' : D.addLines shapes n ms = .ok D') (hc : D.marked.components[i]? = some c)
    (hfinished : c.hasText = true) : D'.marked.components[i]? = some c := by
  obtain ⟨bs, rest, -, -, -, hpending, -⟩ := h.reached
  obtain ⟨more, hmore⟩ := Draft.finished_prefix_addLines hD'
  rw [Draft.marked] at hc ⊢
  by_cases hi : i < D.finished.length
  · rw [List.getElem?_append_left hi] at hc
    rw [← hmore, List.append_assoc, List.getElem?_append_left hi, hc]
  · rw [List.getElem?_append_right (Nat.le_of_not_lt hi)] at hc
    rw [Option.mem_toList.1 (List.mem_of_getElem? hc)] at hpending
    rw [hpending.hasText] at hfinished
    cases hfinished

/-- **The mark agrees with the list** after any lines that are read. Finished components are not
changed by further lines, whatever is open is the last component, and nothing that is done in an
empty list makes a difference. No line is lost: the lines are the blocks of the finished components
and the lines of the open one, and the components hold the plain lines in order. So lines lead to
the same document as through drafts. -/
theorem wellMarked_of_addLines
    (h : (empty shapes path).addLines fallback shapes 1 ls = .ok s) :
    s.WellMarked ∧
      (∀ ms s', s.addLines fallback shapes (1 + ls.length) ms = .ok s' →
        ∀ (i : Nat) (c : Component), s.components[i]? = some c → c.hasText = true →
          s'.components[i]? = some c) ∧
      (s.mark ≠ .nothing → ∃ c, s.components.getLast? = some c ∧ c.hasText = false) ∧
      (∀ fallback', (empty shapes path).addLines fallback' shapes 1 ls = .ok s ∧
        (∀ line, s.addLine fallback' shapes (1 + ls.length) line =
          s.addLine fallback shapes (1 + ls.length) line) ∧
        s.toDocument fallback' shapes path ls.length =
          s.toDocument fallback shapes path ls.length) ∧
      (∃ bs rest cs current, bs.flatten ++ rest = ls ∧ s.components = cs ++ current.toList ∧
        Reads shapes 1 bs cs ∧ Pending (1 + bs.flatten.length) rest current) ∧
      s.components.flatMap (·.body.lines) = ls.filter (IsPlain ·) ∧
      s.toDocument fallback shapes path ls.length = Document.ofLines shapes path ls := by
  have hempty : empty shapes path = (Draft.empty shapes path).marked := rfl
  have hread := ofLines_eq fallback shapes path ls
  rw [h] at hread
  rw [hempty, addLines_marked] at h
  cases hD : (Draft.empty shapes path).addLines shapes 1 ls with
  | error e =>
    rw [hD] at h
    cases h
  | ok D =>
    rw [hD] at h
    obtain rfl := Except.ok.inj h
    have hheld : Held shapes path ls D := Held.empty.addLines hD
    have hmarked := wellMarked_marked hheld
    obtain ⟨bs, rest, hls, hreads, -, hpending, -⟩ := hheld.reached
    refine ⟨hmarked, ?_, hmarked.exists_getLast?, fun fallback' => ⟨?_, ?_, ?_⟩,
      ⟨bs, rest, D.finished, D.current, hls, rfl, hreads, hpending⟩, ?_, hread⟩
    · intro ms s' hs'
      rw [addLines_marked] at hs'
      cases hD' : D.addLines shapes (1 + ls.length) ms with
      | error e =>
        rw [hD'] at hs'
        cases hs'
      | ok D' =>
        rw [hD'] at hs'
        obtain rfl := Except.ok.inj hs'
        exact fun i c => getElem?_marked hheld hD'
    · rw [hempty, addLines_marked, hD]
      rfl
    · intro line
      rw [addLine_marked, addLine_marked]
    · rw [toDocument_marked, toDocument_marked]
    · rw [Draft.marked, List.flatMap_append, hreads.flatMap_lines, hpending.flatMap_lines,
        ← List.filter_append, hls]

/-- A script that is open after plain text, a slot and plain text again. -/
theorem wellMarked_of_addLines_open_script :
    let ls := ["intro", "<!-- [title -->", "Home", "<!-- title] -->", "", "<!-- [script", "x = 1"]
    ∃ s, (empty .standard ⟨"/site/index.html"⟩).addLines .skip .standard 1 ls = .ok s ∧
      s.mark = .named ∧ s.components.map (·.start) = [1, 2, 5, 6] ∧ s.WellMarked ∧
      s.components.flatMap (·.body.lines) = ["intro", "Home", "", "x = 1"] := by
  intro ls
  have htest : ((empty .standard ⟨"/site/index.html"⟩).addLines .skip .standard 1 ls).toOption.any
      (fun s => decide (s.mark = .named ∧ s.components.map (·.start) = [1, 2, 5, 6])) = true := by
    decide +kernel
  obtain ⟨s, hs, htest⟩ := exists_ok_of_any htest
  obtain ⟨hmark, hstarts⟩ := of_decide_eq_true htest
  obtain ⟨hmarked, -, -, -, -, hlines, -⟩ := wellMarked_of_addLines hs
  have hplain : ls.filter (IsPlain ·) = ["intro", "Home", "", "x = 1"] := by decide +kernel
  exact ⟨s, hs, hmark, hstarts, hmarked, hlines.trans hplain⟩

end MarkedList

end Pagewright

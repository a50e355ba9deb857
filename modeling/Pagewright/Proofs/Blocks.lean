import Mathlib.Data.List.Chain
import Pagewright.Proofs.Forms

/-!
# The block grammar of documents

A document is a sequence of blocks, each of one of six forms (`BlockForm`): plain lines, a slot or
the choice of a shape on one line, a rendered or a comment-only slot and a script with plain lines
between their markers. `Reads` says which components such blocks are, and from which line each one
starts. A reading of blocks goes through and finishes exactly these components
(`addLines_flatten`); the other direction, that lines which are read were blocks, is in
`Pagewright.Proofs.Tiling`.
-/

namespace Pagewright

open Text
open Directive (ofLine IsPlain)

/-- The lines of one block, the kind of component it is and the lines between its markers. -/
inductive BlockForm (shapes : ShapeTable) : List String → ComponentKind → List String → Prop
  | plainText {body : List String} (nonempty : body ≠ []) (plain : ∀ l ∈ body, IsPlain l) :
      BlockForm shapes body .plainText body
  /-- A slot whose section starts and ends on the line. -/
  | reference {line : String} {d : Directive} (reads : ofLine line = .ok (some d))
      (kind : d.kind = .slot) (oneLine : d.isOneLine = true) :
      BlockForm shapes [line] (.slot d.name .rendered) []
  /-- The choice of a shape that the table has. -/
  | shapeChoice {line identifier : String} {d : Directive} (reads : ofLine line = .ok (some d))
      (kind : d.kind = .shape) (value : d.value = some identifier)
      (known : (shapes.get? identifier).isSome = true) :
      BlockForm shapes [line] (.shapeChoice d.name identifier) []
  /-- A slot whose opening line ends its comment and whose closing line starts one. -/
  | rendered {opening closing : String} {body : List String} {d e : Directive}
      (opens : ofLine opening = .ok (some d)) (kind : d.kind = .slot)
      (starts : d.startsSection = true) (goesOn : d.endsSection = false)
      (visible : d.endsComment = true) (plain : ∀ l ∈ body, IsPlain l)
      (closes : ofLine closing = .ok (some e)) (ends : e.startsSection = false)
      (name : e.name = d.name) (reopens : e.startsComment = true) :
      BlockForm shapes (opening :: body ++ [closing]) (.slot d.name .rendered) body
  /-- A slot whose opening line leaves its comment open and whose closing line starts none. -/
  | commentOnly {opening closing : String} {body : List String} {d e : Directive}
      (opens : ofLine opening = .ok (some d)) (kind : d.kind = .slot)
      (starts : d.startsSection = true) (goesOn : d.endsSection = false)
      (hidden : d.endsComment = false) (plain : ∀ l ∈ body, IsPlain l)
      (closes : ofLine closing = .ok (some e)) (ends : e.startsSection = false)
      (name : e.name = d.name) (inside : e.startsComment = false) :
      BlockForm shapes (opening :: body ++ [closing]) (.slot d.name .commentOnly) body
  /-- A script; the keywords agree in any letter case. -/
  | script {opening closing : String} {body : List String} {d e : Directive}
      (opens : ofLine opening = .ok (some d)) (kind : d.kind = .script)
      (starts : d.startsSection = true) (plain : ∀ l ∈ body, IsPlain l)
      (closes : ofLine closing = .ok (some e)) (ends : e.startsSection = false)
      (kind' : e.kind = .script) :
      BlockForm shapes (opening :: body ++ [closing]) (.script d.name) body

/-- A block of plain lines. -/
def IsPlainBlock (b : List String) : Prop :=
  ∀ l ∈ b, IsPlain l

/-- A split of lines into blocks, no two plain ones next to each other. -/
structure BlockSplit (shapes : ShapeTable) (ls : List String) (bs : List (List String)) : Prop where
  flatten : bs.flatten = ls
  form : ∀ b ∈ bs, ∃ kind body, BlockForm shapes b kind body
  apart : bs.IsChain fun b c => ¬ (IsPlainBlock b ∧ IsPlainBlock c)

/-- The finished component of a block that starts at a line. -/
def Component.ofBlock (number : Nat) (kind : ComponentKind) (body : List String) : Component where
  start := number
  kind
  body := { lines := body, text? := some (joinLines body) }

/-- The components of consecutive blocks, the first of which starts at a line. -/
inductive Reads (shapes : ShapeTable) : Nat → List (List String) → List Component → Prop
  | nil {number : Nat} : Reads shapes number [] []
  | cons {number : Nat} {b body : List String} {kind : ComponentKind} {bs : List (List String)}
      {cs : List Component} (head : BlockForm shapes b kind body)
      (tail : Reads shapes (number + b.length) bs cs) :
      Reads shapes number (b :: bs) (Component.ofBlock number kind body :: cs)

/-- No two plain-text components next to each other. -/
def Apart (cs : List Component) : Prop :=
  cs.IsChain fun c d => c.kind = .plainText → d.kind ≠ .plainText

variable {shapes : ShapeTable}

/-! ## What the forms have in common -/

theorem not_isPlain_of_ofLine {line : String} {d : Directive} (h : ofLine line = .ok (some d)) :
    ¬ IsPlain line := by
  intro hp
  rw [IsPlain, h] at hp
  cases hp

/-- Of the six forms only plain text has none but plain lines. -/
theorem BlockForm.isPlainBlock_iff {b body : List String} {kind : ComponentKind}
    (h : BlockForm shapes b kind body) : IsPlainBlock b ↔ kind = .plainText := by
  cases h with
  | plainText nonempty plain => exact ⟨fun _ => rfl, fun _ => plain⟩
  | reference reads =>
    exact ⟨fun hp => absurd (hp _ List.mem_cons_self) (not_isPlain_of_ofLine reads), nofun⟩
  | shapeChoice reads =>
    exact ⟨fun hp => absurd (hp _ List.mem_cons_self) (not_isPlain_of_ofLine reads), nofun⟩
  | rendered opens =>
    exact ⟨fun hp => absurd (hp _ List.mem_cons_self) (not_isPlain_of_ofLine opens), nofun⟩
  | commentOnly opens =>
    exact ⟨fun hp => absurd (hp _ List.mem_cons_self) (not_isPlain_of_ofLine opens), nofun⟩
  | script opens =>
    exact ⟨fun hp => absurd (hp _ List.mem_cons_self) (not_isPlain_of_ofLine opens), nofun⟩

theorem isWritable_of_ofLine {line : String} {d : Directive} (h : ofLine line = .ok (some d))
    (hk : d.kind = .slot) : IsWritable d.name :=
  (Directive.lawful_of_ofLine h).isWritable hk

theorem BlockForm.isEffective {b body : List String} {kind : ComponentKind}
    (h : BlockForm shapes b kind body) : kind.IsEffective shapes := by
  cases h with
  | plainText => trivial
  | reference reads kind => exact isWritable_of_ofLine reads kind
  | shapeChoice _ _ _ known => exact known
  | rendered opens kind => exact isWritable_of_ofLine opens kind
  | commentOnly opens kind => exact isWritable_of_ofLine opens kind
  | script => trivial

theorem BlockForm.plain {b body : List String} {kind : ComponentKind}
    (h : BlockForm shapes b kind body) : ∀ l ∈ body, IsPlain l := by
  cases h with
  | plainText _ plain => exact plain
  | reference => exact fun _ hl => nomatch hl
  | shapeChoice => exact fun _ hl => nomatch hl
  | rendered _ _ _ _ _ plain => exact plain
  | commentOnly _ _ _ _ _ plain => exact plain
  | script _ _ _ plain => exact plain

theorem BlockForm.ne_nil {b body : List String} {kind : ComponentKind}
    (h : BlockForm shapes b kind body) : b ≠ [] := by
  cases h with
  | plainText nonempty => exact nonempty
  | _ => exact List.cons_ne_nil _ _

/-! ## Reading one block -/

namespace Component

def pushAll (c : Component) (ls : List String) : Component :=
  { c with body := { c.body with lines := c.body.lines ++ ls } }

@[simp] theorem pushAll_nil (c : Component) : c.pushAll [] = c := by
  simp [pushAll]

@[simp] theorem pushAll_push (c : Component) (l : String) (ls : List String) :
    (c.push l).pushAll ls = c.pushAll (l :: ls) := by
  simp [pushAll, push]

@[simp] theorem push_pushAll (c : Component) (l : String) (ls : List String) :
    (c.pushAll ls).push l = c.pushAll (ls ++ [l]) := by
  simp [pushAll, push]

@[simp] theorem kind_pushAll (c : Component) (ls : List String) :
    (c.pushAll ls).kind = c.kind := rfl

@[simp] theorem kind_ofDirective (d : Directive) (n : Nat) :
    (ofDirective d n).kind = kindOf d := rfl

/-- What a directive that closes a component has to say. -/
theorem checkClosing_eq_ok_iff {c : Component} {e : Directive} : c.checkClosing e = .ok () ↔
    match c.kind with
    | .plainText => False
    | .script _ => e.kind = .script
    | .shapeChoice _ _ => e.kind = .shape
    | .slot name .rendered => e.addressesSlot = true ∧ e.name = name ∧ e.startsComment = true
    | .slot name .commentOnly =>
      e.addressesSlot = true ∧ e.name = name ∧ e.startsComment = false := by
  have hname : ∀ name, (!(e.addressesSlot && e.name == name)) = true ↔
      ¬ (e.addressesSlot = true ∧ e.name = name) := by
    intro name
    rw [Bool.not_eq_true', Bool.eq_false_iff, Ne, Bool.and_eq_true, beq_iff_eq]
  unfold checkClosing closesName
  cases c.kind with
  | plainText => simp
  | script keyword => cases h : e.kind <;> simp
  | shapeChoice keyword identifier => cases h : e.kind <;> simp
  | slot name display =>
    simp only [hname]
    by_cases hfits : e.addressesSlot = true ∧ e.name = name
    · rw [if_neg (not_not_intro hfits)]
      cases display <;> cases e.startsComment <;> simp [hfits]
    · rw [if_pos hfits]
      cases display with
      | rendered => exact iff_of_false nofun fun h => hfits ⟨h.1, h.2.1⟩
      | commentOnly => exact iff_of_false nofun fun h => hfits ⟨h.1, h.2.1⟩

end Component

namespace Draft

variable {D : Draft} {n : Nat}

theorem addLines_cons {line : String} {D' : Draft} (h : D.addLine shapes n line = .ok D')
    (ls : List String) : D.addLines shapes n (line :: ls) = D'.addLines shapes (n + 1) ls := by
  simp [addLines, h]

theorem addLines_append {ls : List String} {D' : Draft} (h : D.addLines shapes n ls = .ok D')
    (ms : List String) :
    D.addLines shapes n (ls ++ ms) = D'.addLines shapes (n + ls.length) ms := by
  induction ls generalizing D n with
  | nil => cases h; rfl
  | cons l ls ih =>
    rw [addLines] at h
    split at h
    · next D₁ h₁ =>
      rw [List.cons_append, addLines_cons h₁, ih h, List.length_cons, Nat.add_assoc,
        Nat.add_comm 1]
    · cases h

theorem addLine_plain {line : String} (h : IsPlain line) :
    D.addLine shapes n line = .ok (D.addText n line) := by
  unfold addLine
  rw [show ofLine line = .ok none from h]

theorem addLines_plain {c : Component} {body : List String} (hc : D.current = some c)
    (h : ∀ l ∈ body, IsPlain l) :
    D.addLines shapes n body = .ok { D with current := some (c.pushAll body) } := by
  induction body generalizing D n c with
  | nil =>
    rw [Component.pushAll_nil, ← hc]
    rfl
  | cons l body ih =>
    rw [addLines_cons (addLine_plain (h l List.mem_cons_self)),
      ih (c := c.push l) (by simp [addText, hc]) fun m hm => h m (List.mem_cons_of_mem _ hm)]
    simp [addText]

theorem addLine_directive {line : String} {d : Directive} {D' : Draft}
    (h : ofLine line = .ok (some d)) (hd : D.addDirective shapes n d = .ok D') :
    D.addLine shapes n line = .ok D' := by
  unfold addLine
  simp only [h, hd]

theorem addDirective_eq (d : Directive) :
    D.addDirective shapes n d = D.settle.addSettled shapes n d := rfl

/-- What a draft comes to once plain text that is open is finished: the components and the page, and
nothing open. -/
def Settles (D : Draft) (cs : List Component) (page : Page) : Prop :=
  D.settle = { finished := cs, current := none, page }

@[simp] theorem page_settle (D : Draft) : D.settle.page = D.page := by
  unfold settle
  split
  · split <;> rfl
  · rfl

theorem settle_of_none (h : D.current = none) : D.settle = D := by
  rw [settle, h]

theorem settle_of_plainText {c : Component} (h : D.current = some c) (hkind : c.kind = .plainText) :
    D.settle = { finished := D.finished ++ [c.withText], current := none, page := D.page } := by
  have hplain : c.isPlain = true := by simpa [Component.isPlain] using hkind
  simp only [settle, h, hplain, if_true]

theorem settle_of_not_plain {c : Component} (hc : D.current = some c) (h : c.kind ≠ .plainText) :
    D.settle = D := by
  have : c.isPlain = false := by simpa [Component.isPlain] using h
  simp [settle, hc, this]

/-- How a directive is taken when no plain text is open. -/
inductive Takes (shapes : ShapeTable) (D : Draft) (n : Nat) (d : Directive) : Draft → Prop
  | opens (current : D.current = none) (starts : d.startsSection = true)
      (goesOn : d.isOneLine = false) :
      Takes shapes D n d { D with current := some (Component.ofDirective d n) }
  | oneLine {page : Page} (current : D.current = none) (oneLine : d.isOneLine = true)
      (effect : (Component.ofDirective d n).withText.effect shapes D.page = .ok page) :
      Takes shapes D n d
        { finished := D.finished ++ [(Component.ofDirective d n).withText], current := none, page }
  | closes {c : Component} {page : Page} (current : D.current = some c)
      (ends : d.startsSection = false) (fits : c.checkClosing d = .ok ())
      (effect : c.withText.effect shapes D.page = .ok page) :
      Takes shapes D n d { finished := D.finished ++ [c.withText], current := none, page }

/-- **A directive that is taken** opens a component, is one or closes one. -/
theorem addSettled_eq_ok_iff {d : Directive} {D' : Draft} :
    D.addSettled shapes n d = .ok D' ↔ D.Takes shapes n d D' := by
  constructor
  · intro h
    unfold addSettled at h
    split at h
    · next c hcurrent =>
      split at h
      · cases h
      · next hends =>
        unfold Component.closeBy at h
        cases hfits : c.checkClosing d with
        | error e => rw [hfits] at h; cases h
        | ok u =>
          simp only [hfits, Component.finish] at h
          split at h
          · next hfinish =>
            obtain ⟨rfl, heffect⟩ := Prod.mk.inj hfinish
            obtain rfl := Except.ok.inj h
            exact .closes hcurrent (by simpa using hends) hfits heffect
          · cases h
    · next hcurrent =>
      dsimp only at h
      split at h
      · cases h
      · next hstarts =>
        split at h
        · next honeLine =>
          simp only [Component.finish] at h
          split at h
          · next hfinish =>
            obtain ⟨rfl, heffect⟩ := Prod.mk.inj hfinish
            obtain rfl := Except.ok.inj h
            exact .oneLine hcurrent honeLine heffect
          · cases h
        · next hgoesOn =>
          obtain rfl := Except.ok.inj h
          exact .opens hcurrent (by simpa using hstarts) (by simpa using hgoesOn)
  · intro h
    cases h with
    | opens current starts goesOn => simp [addSettled, current, starts, goesOn]
    | oneLine current oneLine effect =>
      simp [addSettled, current, Directive.startsSection_of_isOneLine oneLine, oneLine,
        Component.finish, effect]
    | closes current ends fits effect =>
      simp [addSettled, current, ends, Component.closeBy, fits, Component.finish, effect]

/-- A directive that starts a section and does not end it opens a component. -/
theorem addLine_opening {line : String} {d : Directive} {cs : List Component} {page : Page}
    (h : ofLine line = .ok (some d)) (hD : D.Settles cs page) (hstarts : d.startsSection = true)
    (hgoesOn : d.isOneLine = false) :
    D.addLine shapes n line =
      .ok { finished := cs, current := some (Component.ofDirective d n), page } := by
  refine addLine_directive h ?_
  rw [addDirective_eq, hD]
  exact addSettled_eq_ok_iff.2 (.opens rfl hstarts hgoesOn)

/-- A directive that fits the open component finishes it. -/
theorem addLine_closing {line : String} {e : Directive} {c : Component}
    (h : ofLine line = .ok (some e)) (hc : D.current = some c) (hkind : c.kind ≠ .plainText)
    (hends : e.startsSection = false) (hfits : c.checkClosing e = .ok ())
    (heffect : c.kind.IsEffective shapes) :
    D.addLine shapes n line = .ok
      { finished := D.finished ++ [c.withText]
        current := none
        page := c.withText.takeEffect shapes D.page } := by
  refine addLine_directive h ?_
  rw [addDirective_eq, settle_of_not_plain hc hkind]
  exact addSettled_eq_ok_iff.2 (.closes hc hends hfits (Component.effect_eq_ok heffect))

/-- The draft goes over the lines of a block and finishes a component of a kind. -/
def Finishes (shapes : ShapeTable) (D : Draft) (n : Nat) (b : List String) (cs : List Component)
    (page : Page) (kind : ComponentKind) (body : List String) : Prop :=
  ∃ D', D.addLines shapes n b = .ok D' ∧
    D'.Settles (cs ++ [.ofBlock n kind body])
      ((Component.ofBlock n kind body).takeEffect shapes page) ∧
    (kind ≠ .plainText → D'.current = none)

variable {cs : List Component} {page : Page} {body : List String}

/-- Plain lines that nothing is open for become one component. -/
theorem finishes_plainText (hD : D.Settles cs page) (hcurrent : D.current = none) (hne : body ≠ [])
    (hbody : ∀ l ∈ body, IsPlain l) : D.Finishes shapes n body cs page .plainText body := by
  have hself : D = { finished := cs, current := none, page } := by
    rw [← hD, settle, hcurrent]
  obtain ⟨l, ls, rfl⟩ := List.exists_cons_of_ne_nil hne
  subst hself
  refine ⟨{ finished := cs, current := some ((Component.plainText n).pushAll (l :: ls)), page },
    ?_, rfl, fun h => absurd rfl h⟩
  rw [addLines_cons (addLine_plain (hbody l List.mem_cons_self)),
    addLines_plain (c := (Component.plainText n).push l) (by simp [addText])
      fun m hm => hbody m (List.mem_cons_of_mem _ hm)]
  rfl

/-- The draft after a block that is no plain text. -/
def finishing (n : Nat) (cs : List Component) (page : Page) (shapes : ShapeTable)
    (kind : ComponentKind) (body : List String) : Draft where
  finished := cs ++ [.ofBlock n kind body]
  page := (Component.ofBlock n kind body).takeEffect shapes page

/-- A directive that starts and ends its section is a component of its own. -/
theorem finishes_oneLine {line : String} {d : Directive} (h : ofLine line = .ok (some d))
    (hD : D.Settles cs page) (honeLine : d.isOneLine = true)
    (heffect : (Component.kindOf d).IsEffective shapes) :
    D.Finishes shapes n [line] cs page (Component.kindOf d) [] := by
  refine ⟨.finishing n cs page shapes (Component.kindOf d) [],
    addLines_cons (addLine_directive h ?_) [], rfl, fun _ => rfl⟩
  rw [addDirective_eq, hD]
  exact addSettled_eq_ok_iff.2 (.oneLine rfl honeLine (Component.effect_eq_ok heffect))

/-- An opening line, plain lines and a line that closes the section are a component. -/
theorem finishes_section {opening closing : String} {d e : Directive}
    (hopens : ofLine opening = .ok (some d)) (hD : D.Settles cs page)
    (hstarts : d.startsSection = true) (hgoesOn : d.isOneLine = false)
    (hbody : ∀ l ∈ body, IsPlain l) (hcloses : ofLine closing = .ok (some e))
    (hends : e.startsSection = false)
    (hfits : ((Component.ofDirective d n).pushAll body).checkClosing e = .ok ())
    (hkind : Component.kindOf d ≠ .plainText)
    (heffect : (Component.kindOf d).IsEffective shapes) :
    D.Finishes shapes n (opening :: body ++ [closing]) cs page (Component.kindOf d) body := by
  refine ⟨.finishing n cs page shapes (Component.kindOf d) body, ?_, rfl, fun _ => rfl⟩
  rw [List.cons_append, addLines_cons (addLine_opening hopens hD hstarts hgoesOn),
    addLines_append (addLines_plain rfl hbody),
    addLines_cons (addLine_closing hcloses rfl hkind hends hfits heffect)]
  rfl

theorem addressesSlot_of_name {line : String} {d e : Directive} (h : ofLine line = .ok (some e))
    (hslot : d.kind = .slot) (hname : e.name = d.name) : e.addressesSlot = true := by
  have hwf := Directive.wf_of_match? (Directive.ofLine_eq_some_iff.1 h).1
  rw [hwf.addressesSlot, hname, show NameKind.of d.name = .slot from hslot]
  rfl

/-- **A block goes through** and finishes its component, whatever the lines before it were, except
that plain lines may not follow plain lines. -/
theorem finishes_block {b : List String} {kind : ComponentKind}
    (h : BlockForm shapes b kind body) (hD : D.Settles cs page)
    (hidle : kind = .plainText → D.current = none) :
    D.Finishes shapes n b cs page kind body := by
  have heffect := h.isEffective
  cases h with
  | plainText hne hbody => exact finishes_plainText hD (hidle rfl) hne hbody
  | @reference line d reads hslot honeLine =>
    obtain ⟨-, -, hcheck⟩ := Directive.ofLine_eq_some_iff.1 reads
    have hends := ((Directive.check_eq_ok_iff.1 hcheck).2.1 honeLine).2
    have hkind : Component.kindOf d = .slot d.name .rendered := by
      simp [Component.kindOf, hslot, hends]
    rw [← hkind] at heffect ⊢
    exact finishes_oneLine reads hD honeLine heffect
  | @shapeChoice line identifier d reads hshape hvalue hknown =>
    obtain ⟨-, -, hcheck⟩ := Directive.ofLine_eq_some_iff.1 reads
    have hform := Directive.checkForm_eq_ok_iff.1 (Directive.check_eq_ok_iff.1 hcheck).2.2.2.2
    rw [hshape] at hform
    have hkind : Component.kindOf d = .shapeChoice d.name identifier := by
      simp [Component.kindOf, hshape, hvalue]
    rw [← hkind] at heffect ⊢
    exact finishes_oneLine reads hD hform.1 heffect
  | @rendered opening closing _ d e hopens hslot hstarts hgoesOn hvisible hbody hcloses hends
      hname hreopens =>
    have hkind : Component.kindOf d = .slot d.name .rendered := by
      simp [Component.kindOf, hslot, hvisible]
    rw [← hkind] at heffect ⊢
    refine finishes_section hopens hD hstarts (by simp [Directive.isOneLine, hgoesOn]) hbody
      hcloses hends ?_ (by simp [hkind]) heffect
    rw [Component.checkClosing_eq_ok_iff, Component.kind_pushAll, Component.kind_ofDirective, hkind]
    exact ⟨addressesSlot_of_name hcloses hslot hname, hname, hreopens⟩
  | @commentOnly opening closing _ d e hopens hslot hstarts hgoesOn hhidden hbody hcloses hends
      hname hinside =>
    have hkind : Component.kindOf d = .slot d.name .commentOnly := by
      simp [Component.kindOf, hslot, hhidden]
    rw [← hkind] at heffect ⊢
    refine finishes_section hopens hD hstarts (by simp [Directive.isOneLine, hgoesOn]) hbody
      hcloses hends ?_ (by simp [hkind]) heffect
    rw [Component.checkClosing_eq_ok_iff, Component.kind_pushAll, Component.kind_ofDirective, hkind]
    exact ⟨addressesSlot_of_name hcloses hslot hname, hname, hinside⟩
  | @script opening closing _ d e hopens hscript hstarts hbody hcloses hends hscript' =>
    obtain ⟨-, -, hcheck⟩ := Directive.ofLine_eq_some_iff.1 hopens
    have hform := Directive.checkForm_eq_ok_iff.1 (Directive.check_eq_ok_iff.1 hcheck).2.2.2.2
    rw [hscript] at hform
    have hkind : Component.kindOf d = .script d.name := by simp [Component.kindOf, hscript]
    rw [← hkind] at heffect ⊢
    refine finishes_section hopens hD hstarts hform.1 hbody hcloses hends ?_ (by simp [hkind])
      heffect
    rw [Component.checkClosing_eq_ok_iff, Component.kind_pushAll, Component.kind_ofDirective, hkind]
    exact hscript'

/-- **Blocks go through** one after the other and finish their components, when no plain ones are
next to each other. -/
theorem addLines_flatten {bs : List (List String)} {ds : List Component}
    (h : Reads shapes n bs ds) (hapart : Apart ds) (hD : D.Settles cs page)
    (hidle : ∀ c ∈ ds.head?, c.kind = .plainText → D.current = none) :
    ∃ D', D.addLines shapes n bs.flatten = .ok D' ∧
      D'.Settles (cs ++ ds) (page.after shapes ds) := by
  induction h generalizing D cs page with
  | nil => exact ⟨D, rfl, by simpa using hD⟩
  | @cons n b body kind bs ds head tail ih =>
    obtain ⟨D', hD', hsettles, hcurrent⟩ := finishes_block head hD (hidle _ rfl)
    obtain ⟨hnext, hapart'⟩ := List.isChain_cons.1 hapart
    obtain ⟨D'', hD'', hsettles'⟩ := ih hapart' hsettles fun c hc hkind =>
      hcurrent fun hplain => hnext c hc hplain hkind
    refine ⟨D'', ?_, by simpa using hsettles'⟩
    rw [List.flatten_cons, addLines_append hD', hD'']

end Draft

/-- Lines that are blocks, no plain ones next to each other, are read as their components. -/
theorem ofLines_of_reads {path : Path} {bs : List (List String)} {cs : List Component}
    (h : Reads shapes 1 bs cs) (hapart : Apart cs) :
    Document.ofLines shapes path bs.flatten = .ok
      { path, components := cs, page := (Page.start shapes path).after shapes cs } := by
  have hstart : (Draft.empty shapes path).Settles [] (Page.start shapes path) := rfl
  obtain ⟨D, hD, hsettles⟩ := Draft.addLines_flatten h hapart hstart fun _ _ _ => rfl
  rw [List.nil_append] at hsettles
  unfold Document.ofLines Draft.toDocument
  simp only [hD, ← Draft.page_settle D]
  rw [hsettles]

end Pagewright

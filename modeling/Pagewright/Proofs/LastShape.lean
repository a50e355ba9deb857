import Pagewright.Proofs.FinalSlots
import Pagewright.Proofs.Reread

/-!
# The slots of a document

A document ends in the shape that it chooses last, or in the default one when it chooses none
(`LastShape`). Its slots are those with which a page of that shape starts and, over these, the texts
of the slots that stand after the choice, a later one over an earlier one of its name
(`parse_slots`). What stands before the choice has no part in them.
-/

namespace Pagewright

open Std

/-! ## Slots of a name -/

namespace Component

def isSlotOf (name : String) (c : Component) : Bool :=
  match c.kind with
  | .slot other _ => other == name
  | _ => false

theorem isSlotOf_iff {name : String} {c : Component} :
    c.isSlotOf name = true ↔ ∃ display, c.kind = .slot name display := by
  unfold isSlotOf
  cases c.kind <;> simp

theorem isSlotOf_of_write? {name : String} {c : Component} {w : SlotWrite}
    (h : c.write? = some w) : c.isSlotOf name = decide (w.slot = name) := by
  obtain ⟨⟨display, hkind⟩, -⟩ := eq_of_write? h
  rw [isSlotOf, hkind]
  rfl

theorem not_isSlotOf_of_write? {name : String} {c : Component} (h : c.write? = none) :
    c.isSlotOf name = false := by
  unfold write? at h
  unfold isSlotOf
  cases hk : c.kind with
  | slot other display => rw [hk] at h; cases h
  | _ => rfl

end Component

/-- The last write to a slot is that of the last component of its name. -/
theorem last?_filterMap_write? (name : String) (cs : List Component) :
    SlotWrite.last? name (cs.filterMap Component.write?) =
      (cs.findRev? (Component.isSlotOf name)).map fun c => ⟨name, some c.text⟩ := by
  induction cs with
  | nil => rfl
  | cons c cs ih =>
    rw [List.findRev?, List.filterMap_cons]
    cases hwrite : c.write? with
    | none =>
      simp only [Component.not_isSlotOf_of_write? hwrite, ih]
      cases cs.findRev? (Component.isSlotOf name) <;> rfl
    | some w =>
      obtain ⟨-, htext⟩ := Component.eq_of_write? hwrite
      rw [Component.isSlotOf_of_write? hwrite]
      simp only [SlotWrite.last?_cons, ih]
      cases cs.findRev? (Component.isSlotOf name) with
      | some d => rfl
      | none =>
        by_cases hname : w.slot = name
        · simp [← hname, ← htext]
        · simp [hname]

/-! ## Slots that a page starts with -/

namespace PageSlots

theorem isSome_getElem?_sourceSlots (source : SourceFacts) (slot : String) :
    (sourceSlots source)[slot]?.isSome = isSourceSlot slot := by
  cases h : isSourceSlot slot with
  | false => rw [getElem?_sourceSlots h]; rfl
  | true =>
    simp only [isSourceSlot, Bool.or_eq_true, beq_iff_eq] at h
    rcases h with (rfl | rfl) | rfl <;> rfl

/-- A page starts with the slots of its source file and the defaults of its shape. -/
theorem isSome_get?_new_iff {s : Shape} {path : Path} {slot : String} :
    ((new s path).get? slot).isSome = true ↔ isSourceSlot slot = true ∨ slot ∈ s.defaults := by
  rw [get?, new, ofFacts]
  cases h : isSourceSlot slot with
  | false => simp [getElem?_startingSlots h]
  | true =>
    simp only [true_or, iff_true]
    rw [getElem?_startingSlots_of_isSourceSlot h, isSome_getElem?_sourceSlots, h]

end PageSlots

/-! ## The shape chosen last -/

/-- The shape in which components leave a page, and those of them that stand after its choice. -/
inductive LastShape (shapes : ShapeTable) (cs : List Component) : Shape → List Component → Prop
  /-- No shape is chosen. -/
  | default (none : ∀ d ∈ cs, d.choosesShape = false) : LastShape shapes cs shapes.default cs
  | chosen {before later : List Component} {c : Component} {keyword identifier : String} {s : Shape}
      (split : cs = before ++ c :: later) (kind : c.kind = .shapeChoice keyword identifier)
      (known : shapes.get? identifier = some s) (last : ∀ d ∈ later, d.choosesShape = false) :
      LastShape shapes cs s later

section

variable {shapes : ShapeTable} {cs later : List Component} {s : Shape}

theorem LastShape.concat {c : Component} (h : LastShape shapes cs s later)
    (hc : c.choosesShape = false) : LastShape shapes (cs ++ [c]) s (later ++ [c]) := by
  have hmem : ∀ {ds : List Component}, (∀ d ∈ ds, d.choosesShape = false) →
      ∀ d ∈ ds ++ [c], d.choosesShape = false := by
    intro ds hds d hd
    rcases List.mem_append.1 hd with hd | hd
    · exact hds d hd
    · rwa [List.mem_singleton.1 hd]
  cases h with
  | default none => exact .default (hmem none)
  | chosen split kind known last =>
    exact .chosen (by rw [split, List.append_assoc, List.cons_append]) kind known (hmem last)

theorem exists_lastShape (hcs : ∀ c ∈ cs, c.kind.IsEffective shapes) :
    ∃ s later, LastShape shapes cs s later := by
  -- The end of the components decides, so the induction takes them off there.
  induction cs using List.reverseRecOn with
  | nil => exact ⟨_, _, .default nofun⟩
  | append_singleton cs c ih =>
    cases hchooses : c.choosesShape with
    | false =>
      obtain ⟨s, later, h⟩ := ih fun d hd => hcs d (List.mem_append_left _ hd)
      exact ⟨s, _, h.concat hchooses⟩
    | true =>
      have hc := hcs c (List.mem_append_right _ List.mem_cons_self)
      unfold Component.choosesShape at hchooses
      cases hkind : c.kind with
      | shapeChoice keyword identifier =>
        rw [hkind] at hc
        obtain ⟨s, hs⟩ := Option.isSome_iff_exists.1 hc
        exact ⟨s, [], .chosen rfl hkind hs nofun⟩
      | plainText => rw [hkind] at hchooses; cases hchooses
      | script keyword => rw [hkind] at hchooses; cases hchooses
      | slot name display => rw [hkind] at hchooses; cases hchooses

theorem LastShape.subset (h : LastShape shapes cs s later) : later ⊆ cs := by
  cases h with
  | default => exact List.Subset.refl _
  | chosen split =>
    rw [split]
    exact fun d hd => List.mem_append_right _ (List.mem_cons_of_mem _ hd)

/-- Components that choose no shape leave the choice as it is. -/
theorem lastChosen?_append (h : ∀ d ∈ later, d.choosesShape = false) :
    lastChosen? shapes (cs ++ later) = lastChosen? shapes cs := by
  have hnone : later.reverse.findSome? (Component.chosen? shapes) = none :=
    List.findSome?_eq_none_iff.2 fun d hd =>
      Component.chosen?_of_not_choosesShape (h d (List.mem_reverse.1 hd))
  rw [lastChosen?, List.reverse_append, List.findSome?_append, hnone, Option.none_or, lastChosen?]

theorem LastShape.lastWrites_eq (h : LastShape shapes cs s later) :
    lastWrites cs = later.filterMap Component.write? := by
  cases h with
  | default none =>
    have happend : lastWrites ([] ++ cs) = _ := lastWrites_append none
    exact happend
  | @chosen before _ c _ _ _ split kind known last =>
    have hchooses : c.choosesShape = true := by rw [Component.choosesShape, kind]
    rw [split, List.append_cons, lastWrites_append last,
      lastWrites_concat_of_choosesShape hchooses, List.nil_append]

/-- At its last choice of a shape a document has the slots of a page that starts in that shape. -/
theorem LastShape.install_eq (h : LastShape shapes cs s later) (path : Path) :
    (lastChosen? shapes cs).elim (Page.start shapes path).slots (Page.start shapes path).slots.install =
      .new s path := by
  cases h with
  | default none =>
    have hnone : lastChosen? shapes ([] ++ cs) = lastChosen? shapes [] := lastChosen?_append none
    rw [List.nil_append] at hnone
    rw [hnone]
    rfl
  | @chosen before _ c _ identifier _ split kind known last =>
    have hchosen : c.chosen? shapes = some s := by rw [Component.chosen?, kind]; exact known
    rw [split, List.append_cons, lastChosen?_append last, lastChosen?_concat, hchosen]
    rfl

end

/-! ## The slots at the end -/

section

variable {shapes : ShapeTable} {path : Path} {source : String} {doc : Document}

theorem isEffective_of_parse (hdoc : Document.parse shapes path source = .ok doc) :
    ∀ c ∈ doc.components, c.kind.IsEffective shapes := by
  obtain ⟨bs, -, hreads, -, -, -⟩ := ofLines_eq_ok_iff.1 hdoc
  intro c hc
  obtain ⟨b, -, hform, -⟩ := hreads.exists_block c hc
  exact hform.isEffective

theorem slots_of_lastShape (hdoc : Document.parse shapes path source = .ok doc) {s : Shape}
    {later : List Component} (h : LastShape shapes doc.components s later) :
    doc.slots = (PageSlots.new s path).writeAll (later.filterMap Component.write?) := by
  obtain ⟨-, -, -, -, -, hpage⟩ := ofLines_eq_ok_iff.1 hdoc
  rw [Document.slots, hpage, Page.slots_after _ (isEffective_of_parse hdoc), h.install_eq path,
    h.lastWrites_eq]

theorem PageSlots.get?_writeAll_filterMap (ps : PageSlots) (cs : List Component) (name : String) :
    (ps.writeAll (cs.filterMap Component.write?)).get? name =
      ((cs.findRev? (Component.isSlotOf name)).map Component.text).or (ps.get? name) := by
  rw [get?, getElem?_writeAll, last?_filterMap_write?]
  cases cs.findRev? (Component.isSlotOf name) <;> rfl

theorem get?_of_lastShape (hdoc : Document.parse shapes path source = .ok doc) {s : Shape}
    {later : List Component} (h : LastShape shapes doc.components s later) (name : String) :
    doc.slots.get? name = ((later.findRev? (Component.isSlotOf name)).map Component.text).or
      ((PageSlots.new s path).get? name) := by
  rw [slots_of_lastShape hdoc h, PageSlots.get?_writeAll_filterMap]

/-- **The slots of a document** are those of a page that starts in the shape chosen last, with the
texts of the slots after the choice over them. So a name has the text of its last slot after the
choice or, when there is none, what the page starts with; and the names are those of the source
file, those of the defaults of the shape and those of the slots after the choice. -/
theorem parse_slots (hdoc : Document.parse shapes path source = .ok doc) :
    (∃ s later, LastShape shapes doc.components s later) ∧
      ∀ s later, LastShape shapes doc.components s later →
        doc.slots = (PageSlots.new s path).writeAll (later.filterMap Component.write?) ∧
          ∀ name,
            doc.slots.get? name = ((later.findRev? (Component.isSlotOf name)).map Component.text).or
                ((PageSlots.new s path).get? name) ∧
              ((doc.slots.get? name).isSome = true ↔ isSourceSlot name = true ∨ name ∈ s.defaults ∨
                ∃ c ∈ later, ∃ display, c.kind = .slot name display) := by
  refine ⟨exists_lastShape (isEffective_of_parse hdoc), fun s later h => ?_⟩
  refine ⟨slots_of_lastShape hdoc h, fun name => ⟨get?_of_lastShape hdoc h name, ?_⟩⟩
  rw [get?_of_lastShape hdoc h, Option.isSome_or, Bool.or_eq_true, PageSlots.isSome_get?_new_iff, Option.isSome_map,
    List.findRev?_eq_find?_reverse, List.find?_isSome]
  simp only [List.mem_reverse, Component.isSlotOf_iff]
  rw [or_comm, or_assoc]

/-- A slot before the choice of a shape is forgotten, one after it that has no text of its own hides
a default, and defaults may not describe the source file. -/
theorem parse_slots_story :
    let story := Shape.ofList "Story" "" [("layout", "wide"), ("no name", "kept"), ("source_dir", "x")]
    let source := "<!-- [old -->\nGone\n<!-- old] -->\n<!-- [class Story] -->\n" ++
      "<!-- [title -->\nOne\n<!-- title] -->\n<!-- [title\nTwo\ntitle] -->\n<!-- [layout] -->\n"
    ∃ doc, Document.parse (.ofList [story]) ⟨"/site/index.html"⟩ source = .ok doc ∧
      doc.slots.get? "title" = some "Two" ∧ doc.slots.get? "layout" = some "" ∧
      doc.slots.get? "no name" = some "kept" ∧ doc.slots.get? "source_dir" = some "/site" ∧
      doc.slots.get? "old" = none := by
  intro story source
  let slot (start : Nat) (name : String) (display : SlotDisplay) (text : String) : Component :=
    ⟨start, .slot name display, ⟨[text], some text⟩⟩
  let later : List Component := [slot 5 "title" .rendered "One", slot 8 "title" .commentOnly "Two",
    ⟨11, .slot "layout" .rendered, ⟨[], some ""⟩⟩]
  let components : List Component :=
    [slot 1 "old" .rendered "Gone"] ++ ⟨4, .shapeChoice "class" "Story", ⟨[], some ""⟩⟩ :: later
  have htest : ((Document.parse (.ofList [story]) ⟨"/site/index.html"⟩ source).toOption.any
      fun doc => decide (doc.components = components)) = true := by decide +kernel
  obtain ⟨doc, hdoc, htest⟩ := exists_ok_of_any htest
  obtain ⟨-, hslots⟩ := parse_slots hdoc
  have hknown : (ShapeTable.ofList [story]).get? "Story" = some story :=
    ExtTreeMap.getElem?_insert_self
  have hlast : LastShape (.ofList [story]) doc.components story later :=
    .chosen (of_decide_eq_true htest) rfl hknown (by decide)
  obtain ⟨-, hget⟩ := hslots story later hlast
  refine ⟨doc, hdoc, ?_⟩
  rw [(hget "title").1, (hget "layout").1, (hget "no name").1, (hget "source_dir").1, (hget "old").1]
  decide +kernel

end

end Pagewright

import Pagewright.Proofs.FinalSlots
import Pagewright.Proofs.PlainRenderings

/-!
# The texts that a document shows

The value of a slot is the last text of its name since the last choice of a shape, and what that
shape gives it when there is no such text (`Document.slots_value_eq`). So a document shows plain
lines when the shapes give plain lines (`Document.hasPlainPieces_of_defaults`), and its source
rendering can be read again. The document that is read then has the same shape and the values of the
first one as its last texts (`lastText?_of_returnsAs`).
-/

namespace Pagewright

open Text

/-- The text of the last slot of a name since the last choice of a shape. -/
def lastText? (name : String) (cs : List Component) : Option String :=
  (SlotWrite.last? name (lastWrites cs)).bind SlotWrite.text?

/-- The slots at the last choice of a shape, or at the start of the document when there is none. -/
def presetSlots (shapes : ShapeTable) (path : Path) (cs : List Component) : PageSlots :=
  (lastChosen? shapes cs).elim (Page.start shapes path).slots (Page.start shapes path).slots.install

/-- Every text that a shape of the table gives a slot consists of plain lines. -/
def ShapeTable.HasPlainDefaults (t : ShapeTable) : Prop :=
  ∀ s, (s = t.default ∨ ∃ name, t.get? name = some s) →
    ∀ (slot value : String), s.defaults[slot]? = some value → HasPlainPieces value

theorem ShapeTable.HasCleanDefaults.hasPlainDefaults {t : ShapeTable} (h : t.HasCleanDefaults) :
    t.HasPlainDefaults :=
  fun s hs slot value hv => (h s hs slot value hv).hasPlainPieces

theorem ShapeTable.HasPlainDefaults.add {t : ShapeTable} {s : Shape} (ht : t.HasPlainDefaults)
    (hs : ∀ (slot value : String), s.defaults[slot]? = some value → HasPlainPieces value) :
    (t.add s).HasPlainDefaults := by
  intro s' hs'
  rcases eq_or_of_add hs' with rfl | hs'
  · exact hs
  · exact ht s' hs'

/-! ## Last texts -/

section LastTexts

variable {shapes : ShapeTable} {path : Path} {ps : PageSlots} {cs cs' : List Component}
  {c : Component} {name text : String}

/-- The last text of a name is the text of a component. -/
theorem exists_of_lastText? (h : lastText? name cs = some text) : ∃ c ∈ cs, c.text = text := by
  obtain ⟨w, hw, htext⟩ := Option.bind_eq_some_iff.1 h
  obtain ⟨c, hc, hwrite⟩ := List.mem_filterMap.1 (SlotWrite.mem_of_last? hw).1
  obtain ⟨-, hc'⟩ := Component.eq_of_write? hwrite
  exact ⟨c, (List.rtakeWhile_suffix _ cs).subset hc, Option.some.inj (hc'.symm.trans htext)⟩

/-- The last component decides: a choice of a shape forgets the text, a slot of the name gives it. -/
theorem lastText?_concat : lastText? name (cs ++ [c]) =
    match c.kind with
    | .shapeChoice _ _ => none
    | .slot other _ => if other = name then some c.text else lastText? name cs
    | _ => lastText? name cs := by
  cases hk : c.kind with
  | shapeChoice keyword identifier =>
    have hchooses : c.choosesShape = true := by rw [Component.choosesShape, hk]
    rw [lastText?, lastWrites_concat_of_choosesShape hchooses]
    rfl
  | slot other display =>
    have hchooses : c.choosesShape = false := by rw [Component.choosesShape, hk]
    have hwrite : c.write? = some ⟨other, some c.text⟩ := by rw [Component.write?, hk]
    simp only [lastText?, lastWrites_concat hchooses, hwrite, Option.toList_some,
      SlotWrite.last?_append, SlotWrite.last?_cons, SlotWrite.last?_nil, Option.none_or]
    by_cases hname : other = name <;> simp [hname]
  | plainText =>
    have hchooses : c.choosesShape = false := by rw [Component.choosesShape, hk]
    have hwrite : c.write? = none := by rw [Component.write?, hk]
    rw [lastText?, lastWrites_concat hchooses, hwrite, Option.toList_none, List.append_nil, lastText?]
  | script keyword =>
    have hchooses : c.choosesShape = false := by rw [Component.choosesShape, hk]
    have hwrite : c.write? = none := by rw [Component.write?, hk]
    rw [lastText?, lastWrites_concat hchooses, hwrite, Option.toList_none, List.append_nil, lastText?]

/-- The components of a pass have the values before it as their last texts, but for carriage returns
at line ends. -/
theorem lastText?_of_returnsAs (h : List.Forall₂ (Component.ReturnsAs ps) cs cs') (name : String) :
    lastText? name cs' = (lastText? name cs).map fun _ => Text.dropReturns (ps.value name) := by
  -- The end of the components decides, so the induction goes over them from there.
  rw [← List.reverse_reverse cs, ← List.reverse_reverse cs']
  have hreverse := List.forall₂_reverse_iff.2 h
  generalize cs.reverse = rs, cs'.reverse = rs' at hreverse ⊢
  induction hreverse with
  | nil => rfl
  | @cons c c' rs rs' head tail ih =>
    rw [List.reverse_cons, List.reverse_cons, lastText?_concat, lastText?_concat, head.kind]
    cases hk : c.kind with
    | shapeChoice keyword identifier => rfl
    | plainText => exact ih
    | script keyword => exact ih
    | slot other display =>
      by_cases hname : other = name
      · subst hname
        simp [head.text, Component.shownText_slot hk]
      · simpa only [if_neg hname] using ih

theorem presetSlots_of_returnsAs (h : List.Forall₂ (Component.ReturnsAs ps) cs cs') :
    presetSlots shapes path cs' = presetSlots shapes path cs := by
  have hchosen : cs'.map (Component.chosen? shapes) = cs.map (Component.chosen? shapes) := by
    induction h with
    | nil => rfl
    | cons head tail ih =>
      rw [List.map_cons, List.map_cons, ih, Component.chosen?, head.kind, Component.chosen?]
  have hlast : ∀ ds : List Component,
      lastChosen? shapes ds = (ds.map (Component.chosen? shapes)).reverse.findSome? id := by
    intro ds
    rw [lastChosen?, ← List.map_reverse, List.findSome?_map]
    rfl
  rw [presetSlots, hlast, hchosen, ← hlast]
  rfl

end LastTexts

/-! ## Values -/

section Values

variable {shapes : ShapeTable} {path : Path} {source : String} {doc : Document}

/-- **The value of a slot** is the last text of its name, or what the shape gives it. -/
theorem Document.slots_value_eq (hdoc : Document.parse shapes path source = .ok doc)
    (name : String) :
    doc.slots.value name = (lastText? name doc.components).getD
      ((presetSlots shapes path doc.components).value name) := by
  obtain ⟨bs, -, hreads, -, -, hpage⟩ := ofLines_eq_ok_iff.1 hdoc
  have hslots := Page.slots_after (.start shapes path)
    fun c hc => (hreads.isLawful c hc).isEffective
  rw [← hpage] at hslots
  rw [PageSlots.value, PageSlots.get?, Document.slots, hslots, PageSlots.getElem?_writeAll, lastText?]
  cases hlast : SlotWrite.last? name (lastWrites doc.components) with
  | none => rfl
  | some w =>
    -- A component only writes texts.
    obtain ⟨c, -, hwrite⟩ := List.mem_filterMap.1 (SlotWrite.mem_of_last? hlast).1
    obtain ⟨-, htext⟩ := Component.eq_of_write? hwrite
    simp [htext]

/-- What the shapes give a slot. -/
theorem exists_presetSlots_value (shapes : ShapeTable) (path : Path) {name : String}
    (hname : isSourceSlot name = false) (cs : List Component) :
    ∃ s, (s = shapes.default ∨ ∃ n, shapes.get? n = some s) ∧
      (presetSlots shapes path cs).value name = s.defaults[name]?.getD "" := by
  have hvalue : ∀ (facts : SourceFacts) (s : Shape),
      (PageSlots.ofFacts facts s).value name = s.defaults[name]?.getD "" := by
    intro facts s
    rw [PageSlots.value, PageSlots.get?, PageSlots.ofFacts, PageSlots.getElem?_startingSlots hname]
  rw [presetSlots]
  cases hs : lastChosen? shapes cs with
  | none => exact ⟨shapes.default, .inl rfl, hvalue _ _⟩
  | some s =>
    obtain ⟨c, -, hc⟩ := List.exists_of_findSome?_eq_some hs
    obtain ⟨n, hn⟩ := Component.exists_get?_of_chosen? hc
    exact ⟨s, .inr ⟨n, hn⟩, hvalue _ _⟩

/-- **A document shows plain lines** when the shapes of the table give its slots plain lines. -/
theorem Document.hasPlainPieces_of_defaults (hdefaults : shapes.HasPlainDefaults)
    (hdoc : Document.parse shapes path source = .ok doc) :
    ∀ c ∈ doc.components, HasPlainPieces (c.shownText doc.slots) := by
  obtain ⟨bs, hflatten, hreads, -, -, -⟩ := ofLines_eq_ok_iff.1 hdoc
  have htexts := hreads.hasPlainPieces fun l hl => not_mem_lines (s := source) (hflatten ▸ hl)
  intro c hc
  refine Component.shownText_induction (htexts c hc) isClean_empty.hasPlainPieces ?_
  intro name display hkind
  have hname := (hreads.isLawful c hc).isEffective
  rw [hkind] at hname
  rw [Document.slots_value_eq hdoc]
  cases htext : lastText? name doc.components with
  | some text =>
    obtain ⟨d, hd, rfl⟩ := exists_of_lastText? htext
    exact htexts d hd
  | none =>
    obtain ⟨s, hs, hvalue⟩ := exists_presetSlots_value shapes path hname.1 doc.components
    rw [Option.getD_none, hvalue]
    cases hdefault : s.defaults[name]? with
    | none => exact isClean_empty.hasPlainPieces
    | some value => exact hdefaults s hs name value hdefault

end Values

end Pagewright

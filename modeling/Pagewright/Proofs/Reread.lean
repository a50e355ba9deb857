import Pagewright.Proofs.SlotWrites
import Pagewright.Proofs.SourceLines
import Pagewright.Proofs.Tiling

/-!
# Reading a source rendering again

A document that no script has changed is read again from its source rendering: the same components
come back with the texts that the rendering shows, and with the same page (`parse_render`). The
blocks of the rendering are known (`Reads.reread`), since every text that it shows is clean; what is
left is that they build the same page. A slot that the document sets several times is rendered with
its last value each time, so half-way the two pages differ: the page that is read again may already
have the final value of a slot (`Agrees`). Nothing is left of this at the end.
-/

namespace Pagewright

open Text
open Directive (IsPlain)

/-- Every text that a shape of the table gives a slot is clean. -/
def ShapeTable.HasCleanDefaults (t : ShapeTable) : Prop :=
  ∀ s, (s = t.default ∨ ∃ name, t.get? name = some s) →
    ∀ (slot value : String), s.defaults[slot]? = some value → IsClean value

/-- The texts of the slots that a document may set are clean. -/
def PageSlots.IsClean (ps : PageSlots) : Prop :=
  ∀ (slot value : String), isSourceSlot slot = false → ps.values[slot]? = some value →
    Pagewright.IsClean value

/-- Whether slots are clean is decided on the slots that there are. -/
instance PageSlots.decidableIsClean (ps : PageSlots) : Decidable ps.IsClean :=
  decidable_of_iff
    (∀ slot ∈ ps.toList, isSourceSlot slot.1 = false → Pagewright.IsClean slot.2) <| by
    constructor
    · intro h slot value hslot hvalue
      exact h (slot, value) (Std.ExtTreeMap.mem_toList_iff_getElem?_eq_some.2 hvalue) hslot
    · intro h slot hmem hslot
      exact h slot.1 slot.2 hslot (Std.ExtTreeMap.mem_toList_iff_getElem?_eq_some.1 hmem)

namespace Component

/-- The text that the source rendering of a component shows. -/
def shownText (ps : PageSlots) (c : Component) : String :=
  c.kind.shownText c.text (c.slotValue ps)

/-- The lines of the source rendering of a component. -/
def sourceLines (ps : PageSlots) (c : Component) : List String :=
  c.kind.sourceLines c.text (c.slotValue ps)

/-- A component that is read again from the source rendering of another one. -/
structure Rereads (ps : PageSlots) (c c' : Component) : Prop where
  kind : c'.kind = c.kind
  text : c'.text = c.shownText ps

variable {ps : PageSlots} {c c' : Component}

theorem render_source : c.render ps .source = writeLines (c.sourceLines ps) :=
  sourceText_eq_writeLines c.kind c.text (c.slotValue ps)

theorem shownText_slot {name : String} {display : SlotDisplay} (h : c.kind = .slot name display) :
    c.shownText ps = ps.value name := by
  rw [shownText, slotValue, h]
  rfl

/-- What is shown is the text of a component, nothing, or the value of its slot. -/
theorem shownText_induction {P : String → Prop} (htext : P c.text) (hempty : P "")
    (hslot : ∀ name display, c.kind = .slot name display → P (ps.value name)) :
    P (c.shownText ps) := by
  cases hk : c.kind with
  | slot name display =>
    rw [shownText_slot hk]
    exact hslot name display hk
  | plainText => rwa [shownText, hk]
  | script keyword => rwa [shownText, hk]
  | shapeChoice keyword identifier => rwa [shownText, hk]

theorem slotValue_eq_of_kind (h : c'.kind = c.kind) : c'.slotValue ps = c.slotValue ps := by
  rw [slotValue, slotValue, h]

/-- The renderings of a component depend on its kind and on the text that it shows. -/
theorem render_eq_of_shownText {ps' : PageSlots} (hkind : c'.kind = c.kind)
    (hshown : c'.shownText ps' = c.shownText ps) (mode : Rendition) :
    c'.render ps' mode = c.render ps mode := by
  rw [shownText, shownText, hkind] at hshown
  obtain ⟨hsource, hpublished⟩ := ComponentKind.texts_eq_of_shownText hshown
  cases mode with
  | source => rw [render, render, hkind, hsource]
  | published => rw [render, render, hkind, hpublished]

theorem Rereads.shownText_eq (h : Rereads ps c c') : c'.shownText ps = c.shownText ps := by
  have htext := h.text
  rw [shownText] at htext ⊢
  rw [slotValue_eq_of_kind h.kind, h.kind, htext, shownText]
  cases c.kind <;> rfl

theorem Rereads.render_eq (h : Rereads ps c c') (mode : Rendition) :
    c'.render ps mode = c.render ps mode :=
  render_eq_of_shownText h.kind h.shownText_eq mode

end Component

/-! ## Clean tables and pages -/

namespace ShapeTable

theorem eq_plainPage_of_standard {name : String} {s : Shape} (h : standard.get? name = some s) :
    s = Shape.plainPage := by
  simp only [get?, standard, Std.ExtTreeMap.getElem?_insert, Std.ExtTreeMap.getElem?_empty] at h
  split at h
  · exact (Option.some.inj h).symm
  · cases h

theorem hasCleanDefaults_standard : standard.HasCleanDefaults := by
  rintro s hs slot value hv
  obtain rfl : s = Shape.plainPage := by
    rcases hs with rfl | ⟨name, hs⟩
    · rfl
    · exact eq_plainPage_of_standard hs
  cases hv

/-- A shape of an extended table is the new one or one of the table before. -/
theorem eq_or_of_add {t : ShapeTable} {s s' : Shape}
    (h : s' = (t.add s).default ∨ ∃ name, (t.add s).get? name = some s') :
    s' = s ∨ s' = t.default ∨ ∃ name, t.get? name = some s' := by
  rcases h with rfl | ⟨name, h⟩
  · by_cases hname : s.name = Shape.defaultName
    · exact .inl (if_pos hname)
    · exact .inr (.inl (if_neg hname))
  · have h : (t.shapes.insert s.name s)[name]? = some s' := h
    rw [Std.ExtTreeMap.getElem?_insert] at h
    split at h
    · exact .inl (Option.some.inj h).symm
    · exact .inr (.inr ⟨name, h⟩)

theorem HasCleanDefaults.add {t : ShapeTable} {s : Shape} (ht : t.HasCleanDefaults)
    (hs : ∀ (slot value : String), s.defaults[slot]? = some value → IsClean value) :
    (t.add s).HasCleanDefaults := by
  intro s' hs'
  rcases eq_or_of_add hs' with rfl | hs'
  · exact hs
  · exact ht s' hs'

end ShapeTable

section Clean

variable {shapes : ShapeTable} {ps : PageSlots} {c : Component}

theorem PageSlots.IsClean.value (h : ps.IsClean) {slot : String} (hs : isSourceSlot slot = false) :
    Pagewright.IsClean (ps.value slot) := by
  unfold PageSlots.value get?
  cases hv : ps.values[slot]? with
  | none => exact isClean_empty
  | some value => exact h slot value hs hv

theorem PageSlots.isClean_ofFacts {s : Shape} (source : SourceFacts)
    (h : ∀ (slot value : String), s.defaults[slot]? = some value → Pagewright.IsClean value) :
    (ofFacts source s).IsClean := by
  intro slot value hs hv
  have hstart : (startingSlots source s)[slot]? = s.defaults[slot]? := getElem?_startingSlots hs
  exact h slot value (hstart ▸ hv)

/-- A clean page shows clean texts. -/
theorem Component.isClean_shownText (hps : ps.IsClean) (hc : c.kind.IsEffective shapes)
    (htext : Pagewright.IsClean c.text) : Pagewright.IsClean (c.shownText ps) :=
  shownText_induction htext isClean_empty fun name display hk => by
    rw [hk] at hc
    exact hps.value hc.1

theorem Component.isClean_takeEffect {page : Page} (ht : shapes.HasCleanDefaults)
    (hpage : page.slots.IsClean) (hc : c.kind.IsEffective shapes)
    (htext : Pagewright.IsClean c.text) : (c.takeEffect shapes page).slots.IsClean := by
  cases hk : c.kind with
  | plainText => rwa [takeEffect_plainText hk]
  | script keyword => rwa [takeEffect_script hk]
  | shapeChoice keyword identifier =>
    rw [hk] at hc
    obtain ⟨s, hs⟩ := Option.isSome_iff_exists.1 hc
    rw [takeEffect_shapeChoice hk hs]
    exact PageSlots.isClean_ofFacts _ (ht s (.inr ⟨identifier, hs⟩))
  | slot name display =>
    rw [hk] at hc
    rw [takeEffect_slot hk hc]
    intro slot value hs hv
    have hv : (page.slots.values.insert name c.text)[slot]? = some value := hv
    rw [SlotValues.getElem?_insert_eq] at hv
    split at hv
    · obtain rfl := Option.some.inj hv
      exact htext
    · exact hpage slot value hs hv

theorem Page.isClean_after {cs : List Component} {page : Page} (ht : shapes.HasCleanDefaults)
    (hpage : page.slots.IsClean) (hcs : ∀ c ∈ cs, c.kind.IsEffective shapes)
    (htext : ∀ c ∈ cs, Pagewright.IsClean c.text) : (page.after shapes cs).slots.IsClean := by
  induction cs generalizing page with
  | nil => exact hpage
  | cons c cs ih =>
    rw [after_cons]
    refine ih ?_ (fun d hd => hcs d (List.mem_cons_of_mem _ hd))
      fun d hd => htext d (List.mem_cons_of_mem _ hd)
    exact Component.isClean_takeEffect ht hpage (hcs c List.mem_cons_self)
      (htext c List.mem_cons_self)

end Clean

/-! ## The components that come back -/

section Components

variable {shapes : ShapeTable} {bs : List (List String)} {cs : List Component} {n : Nat}

theorem Reads.isLawful (h : Reads shapes n bs cs) : ∀ c ∈ cs, c.kind.IsLawful shapes := by
  intro c hc
  obtain ⟨b, -, hform, -⟩ := h.exists_block c hc
  exact hform.isLawful

theorem Reads.text_eq (h : Reads shapes n bs cs) : ∀ c ∈ cs, c.text = joinLines c.body.lines := by
  intro c hc
  obtain ⟨b, -, -, hblock⟩ := h.exists_block c hc
  rw [hblock]
  rfl

/-- What holds of all lines of the blocks holds of the lines between the markers, which are plain. -/
theorem Reads.forall_mem_body {P : String → Prop} (h : Reads shapes n bs cs)
    (hlines : ∀ l ∈ bs.flatten, P l) : ∀ c ∈ cs, ∀ l ∈ c.body.lines, IsPlain l ∧ P l := by
  intro c hc l hl
  obtain ⟨b, hb, hform, -⟩ := h.exists_block c hc
  exact ⟨hform.plain l hl, hlines l (List.mem_flatten.2 ⟨b, hb, hform.mem_of_mem_body hl⟩)⟩

theorem Reads.isClean_text (h : Reads shapes n bs cs)
    (hlines : ∀ l ∈ bs.flatten, '\n' ∉ l.toList ∧ ¬ EndsInReturn l) :
    ∀ c ∈ cs, IsClean c.text := by
  intro c hc
  rw [h.text_eq c hc]
  refine isClean_joinLines fun l hl => ?_
  obtain ⟨hplain, hfeed, hreturn⟩ := h.forall_mem_body hlines c hc l hl
  exact ⟨hplain, hreturn, hfeed⟩

/-- The source renderings of components that show plain lines are the blocks of such components. -/
theorem exists_reads_of_plain {ps : PageSlots} (hcs : ∀ c ∈ cs, c.kind.IsLawful shapes)
    (hplain : ∀ c ∈ cs, HasPlainPieces (c.shownText ps)) (n : Nat) :
    ∃ cs', Reads shapes n (cs.map (Component.sourceLines ps)) cs' ∧
      List.Forall₂ (Component.Rereads ps) cs cs' := by
  induction cs generalizing n with
  | nil => exact ⟨[], .nil, .nil⟩
  | cons c cs ih =>
    obtain ⟨cs', hreads, hall⟩ := ih (fun d hd => hcs d (List.mem_cons_of_mem _ hd))
      (fun d hd => hplain d (List.mem_cons_of_mem _ hd)) (n + (c.sourceLines ps).length)
    have hform : BlockForm shapes (c.sourceLines ps) c.kind _ :=
      blockForm_sourceLines (hcs c List.mem_cons_self) (hplain c List.mem_cons_self)
    exact ⟨_, .cons hform hreads, .cons ⟨rfl, joinLines_sourceBody _ _ _⟩ hall⟩

theorem exists_reads_sourceLines {ps : PageSlots} (hcs : ∀ c ∈ cs, c.kind.IsLawful shapes)
    (hclean : ∀ c ∈ cs, IsClean (c.shownText ps)) (n : Nat) :
    ∃ cs', Reads shapes n (cs.map (Component.sourceLines ps)) cs' ∧
      List.Forall₂ (Component.Rereads ps) cs cs' :=
  exists_reads_of_plain hcs (fun c hc => (hclean c hc).hasPlainPieces) n

theorem apart_of_rereads {ps : PageSlots} {cs cs' : List Component}
    (h : List.Forall₂ (Component.Rereads ps) cs cs') (hcs : Apart cs) : Apart cs' := by
  induction h with
  | nil => exact List.isChain_nil
  | cons head tail ih =>
    rw [Apart, List.isChain_cons] at hcs ⊢
    refine ⟨?_, ih hcs.2⟩
    cases tail with
    | nil =>
      intro d hd
      cases hd
    | cons head' tail' =>
      rintro d ⟨⟩
      rw [head.kind, head'.kind]
      exact hcs.1 _ rfl

end Components

/-! ## The page that comes back -/

/-- A page and the page that the components read so far build again, for the final slots `final`. -/
structure Agrees (final : PageSlots) (page page' : Page) : Prop where
  shape : page'.slots.shape = page.slots.shape
  source : page'.slots.source = page.slots.source
  values : ∀ slot : String, page'.slots.values[slot]? = page.slots.values[slot]? ∨
    (page.slots.values[slot]?.isSome = true ∧
      page'.slots.values[slot]? = some (final.value slot))
  scripts : page'.scripts.map PendingScript.source = page.scripts.map PendingScript.source

section Agrees

variable {shapes : ShapeTable} {final : PageSlots} {page page' : Page}

theorem Agrees.refl : Agrees final page page where
  shape := rfl
  source := rfl
  values := fun _ => .inl rfl
  scripts := rfl

/-- **Agreement is kept** when a component and the one that is read again take effect. -/
theorem Agrees.takeEffect {c c' : Component} (h : Agrees final page page')
    (hc : c.kind.IsEffective shapes) (hagain : Component.Rereads final c c') :
    Agrees final (c.takeEffect shapes page) (c'.takeEffect shapes page') := by
  have htext := hagain.text
  have hkind := hagain.kind
  unfold Component.shownText Component.slotValue at htext
  cases hk : c.kind with
  | plainText =>
    rw [Component.takeEffect_plainText hk, Component.takeEffect_plainText (hkind.trans hk)]
    exact h
  | script keyword =>
    rw [Component.takeEffect_script hk, Component.takeEffect_script (hkind.trans hk)]
    rw [hk] at htext
    refine ⟨h.shape, h.source, h.values, ?_⟩
    rw [List.map_append, List.map_append, h.scripts]
    simp [htext, ComponentKind.shownText]
  | shapeChoice keyword identifier =>
    rw [hk] at hc
    obtain ⟨s, hs⟩ := Option.isSome_iff_exists.1 hc
    rw [Component.takeEffect_shapeChoice hk hs,
      Component.takeEffect_shapeChoice (hkind.trans hk) hs]
    have hinstall : page'.slots.install s = page.slots.install s := by
      rw [PageSlots.install, PageSlots.install, h.source]
    exact ⟨by rw [hinstall], by rw [hinstall], fun _ => .inl (by rw [hinstall]), h.scripts⟩
  | slot name display =>
    rw [hk] at hc htext
    rw [Component.takeEffect_slot hk hc, Component.takeEffect_slot (hkind.trans hk) hc]
    refine ⟨h.shape, h.source, fun slot => ?_, h.scripts⟩
    simp only [SlotValues.getElem?_insert_eq]
    by_cases hslot : name = slot
    · subst hslot
      exact .inr ⟨by simp, by simp [htext, ComponentKind.shownText]⟩
    · simpa only [if_neg hslot] using h.values slot

theorem Agrees.after {cs cs' : List Component} (h : Agrees final page page')
    (hcs : ∀ c ∈ cs, c.kind.IsEffective shapes)
    (hagain : List.Forall₂ (Component.Rereads final) cs cs') :
    Agrees final (page.after shapes cs) (page'.after shapes cs') := by
  induction hagain generalizing page page' with
  | nil => exact h
  | cons head tail ih =>
    rw [Page.after_cons, Page.after_cons]
    exact ih (h.takeEffect (hcs _ List.mem_cons_self) head)
      fun d hd => hcs d (List.mem_cons_of_mem _ hd)

/-- Once the slots of the first page have become the final ones, so have those of the other. -/
theorem Agrees.writeAll_eq (ws : List SlotWrite) (h : Agrees (page.slots.writeAll ws) page page') :
    page'.slots.writeAll ws = page.slots.writeAll ws := by
  refine PageSlots.eq_of_getElem? ?_ ?_ fun slot => ?_
  · rw [PageSlots.shape_writeAll, PageSlots.shape_writeAll, h.shape]
  · rw [PageSlots.source_writeAll, PageSlots.source_writeAll, h.source]
  · have hlast := page.slots.getElem?_writeAll ws slot
    rw [PageSlots.getElem?_writeAll]
    cases hw : SlotWrite.last? slot ws with
    | some w =>
      rw [hlast, hw]
      rfl
    | none =>
      -- Without a write the slot is final already, and only as such may it differ.
      rw [hw] at hlast
      rcases h.values slot with hv | ⟨hsome, hv⟩
      · exact hv.trans hlast.symm
      · obtain ⟨v, hv'⟩ := Option.isSome_iff_exists.1 hsome
        rw [hv'] at hlast
        rw [hv, PageSlots.value, PageSlots.get?, hlast]
        rfl

/-- At the end the two pages have the same slots. -/
theorem Agrees.slots_eq (h : Agrees page.slots page page') : page'.slots = page.slots :=
  Agrees.writeAll_eq [] h

end Agrees

/-! ## Documents -/

theorem Document.render_source (doc : Document) :
    doc.render .source =
      writeLines (doc.components.map (Component.sourceLines doc.slots)).flatten := by
  rw [Document.render, renderComponents, writeLines_flatten, List.map_map]
  exact congrArg String.join (List.map_congr_left fun c _ => Component.render_source)

theorem renderComponents_eq_of_rereads {ps : PageSlots} {cs cs' : List Component}
    (h : List.Forall₂ (Component.Rereads ps) cs cs') (mode : Rendition) :
    renderComponents cs' ps mode = renderComponents cs ps mode := by
  have hmap : cs'.map (·.render ps mode) = cs.map (·.render ps mode) := by
    induction h with
    | nil => rfl
    | cons head tail ih => rw [List.map_cons, List.map_cons, head.render_eq, ih]
  rw [renderComponents, renderComponents, hmap]

/-- **A source rendering is read again** as the same components, each with the text that the
rendering shows for it, with the same scripts in the same order and with the same slots; both of its
renderings are the same. The defaults of the shapes have to be clean, and no line of the text may
end in a carriage return. -/
theorem parse_render {shapes : ShapeTable} {path : Path} {source : String} {doc : Document}
    (hdoc : Document.parse shapes path source = .ok doc)
    (hreturn : ∀ l ∈ lines source, ¬ EndsInReturn l) (hdefaults : shapes.HasCleanDefaults) :
    ∃ doc', Document.parse shapes path (doc.render .source) = .ok doc' ∧
      List.Forall₂ (Component.Rereads doc.slots) doc.components doc'.components ∧
      doc'.scripts.map PendingScript.source = doc.scripts.map PendingScript.source ∧
      doc'.slots = doc.slots ∧
      ∀ mode, doc'.render mode = doc.render mode := by
  obtain ⟨bs, hflatten, hreads, hapart, -, hpage⟩ := ofLines_eq_ok_iff.1 hdoc
  have hlawful := hreads.isLawful
  have heffective : ∀ c ∈ doc.components, c.kind.IsEffective shapes :=
    fun c hc => (hlawful c hc).isEffective
  have htext : ∀ c ∈ doc.components, IsClean c.text :=
    hreads.isClean_text fun l hl =>
      ⟨not_mem_lines (hflatten ▸ hl), hreturn l (hflatten ▸ hl)⟩
  have hslots : doc.slots.IsClean := by
    rw [Document.slots, hpage]
    exact Page.isClean_after hdefaults
      (PageSlots.isClean_ofFacts _ (hdefaults _ (.inl rfl))) heffective htext
  have hshown : ∀ c ∈ doc.components, IsClean (c.shownText doc.slots) :=
    fun c hc => Component.isClean_shownText hslots (heffective c hc) (htext c hc)
  obtain ⟨cs', hreads', hagain⟩ := exists_reads_sourceLines hlawful hshown 1
  have hlines : lines (doc.render .source) =
      (doc.components.map (Component.sourceLines doc.slots)).flatten := by
    rw [Document.render_source]
    refine lines_writeLines fun l hl => ?_
    obtain ⟨ls, hls, hl⟩ := List.mem_flatten.1 hl
    obtain ⟨c, hc, rfl⟩ := List.mem_map.1 hls
    exact sourceLines_writable (hlawful c hc) (hshown c hc) l hl
  have hagrees : Agrees doc.slots doc.page ((Page.start shapes path).after shapes cs') := by
    have hstart : Agrees doc.slots (Page.start shapes path) (Page.start shapes path) := .refl
    have hend := hstart.after heffective hagain
    rwa [← hpage] at hend
  have hsame : ((Page.start shapes path).after shapes cs').slots = doc.slots := hagrees.slots_eq
  refine ⟨{ path, components := cs', page := (Page.start shapes path).after shapes cs' },
    ?_, hagain, hagrees.scripts, hsame, fun mode => ?_⟩
  · exact ofLines_eq_ok_iff.2
      ⟨_, hlines.symm, hreads', apart_of_rereads hagain hapart, rfl, rfl⟩
  · rw [Document.render, Document.slots, hsame]
    exact renderComponents_eq_of_rereads hagain mode

/-- A computation whose result passes a test has a result, which passes it. -/
theorem exists_ok_of_any {ε α : Type} {x : Except ε α} {p : α → Bool}
    (h : x.toOption.any p = true) : ∃ a, x = .ok a ∧ p a = true := by
  cases x with
  | ok a => exact ⟨a, rfl, h⟩
  | error e => cases h

/-- A slot that is set twice shows its last text in both places, also when it is read again. -/
theorem parse_render_slot_set_twice :
    let shapes := ShapeTable.ofList [.ofList "Page" "" [("footer", "Bye")]]
    let source := "<!-- [t -->\nOld\n<!-- t] -->\n<!-- [t -->\nNew\n<!-- t] -->\n<!-- [footer] -->"
    ∃ doc, Document.parse shapes ⟨"/page.htm"⟩ source = .ok doc ∧
      ∃ doc', Document.parse shapes ⟨"/page.htm"⟩ (doc.render .source) = .ok doc' ∧
        List.Forall₂ (Component.Rereads doc.slots) doc.components doc'.components ∧
        doc'.scripts.map PendingScript.source = doc.scripts.map PendingScript.source ∧
        doc'.slots = doc.slots ∧ ∀ mode, doc'.render mode = doc.render mode := by
  intro shapes source
  have hclean : shapes.HasCleanDefaults := by
    refine ShapeTable.hasCleanDefaults_standard.add fun slot value hv => ?_
    have hv : ((∅ : SlotValues).insert "footer" "Bye")[slot]? = some value := hv
    rw [SlotValues.getElem?_insert_eq, Std.ExtTreeMap.getElem?_empty] at hv
    split at hv
    · obtain rfl := Option.some.inj hv
      decide
    · cases hv
  have hlines : ∀ l ∈ lines source, ¬ EndsInReturn l := by decide
  have hok : (Document.parse shapes ⟨"/page.htm"⟩ source).isOk = true := by decide +kernel
  obtain ⟨doc, hdoc⟩ : ∃ doc, Document.parse shapes ⟨"/page.htm"⟩ source = .ok doc := by
    cases h : Document.parse shapes ⟨"/page.htm"⟩ source with
    | ok doc => exact ⟨doc, rfl⟩
    | error e => rw [h] at hok; cases hok
  exact ⟨doc, hdoc, parse_render hdoc hlines hclean⟩

end Pagewright

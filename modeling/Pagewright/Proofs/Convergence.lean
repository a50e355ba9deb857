import Pagewright.Proofs.ShownTexts

/-!
# Passes until nothing changes

A pass reads a document and writes its source rendering. The next pass reads one carriage return less
at the end of every line, and nothing else changes: what a document shows after a pass is what it
showed before without these carriage returns, apart from the texts that a shape gives its slots, which
stay as they are (`follows_of_returnsAs`). So the most carriage returns at the end of a line shrink
with every pass until none are left, and then a pass writes what it has read (`passes_converge`).
-/

namespace Pagewright

namespace Text

/-- The number of carriage returns at the end of a line. -/
def returnsAtEnd (l : String) : Nat :=
  (l.toList.rtakeWhile (· == '\r')).length

/-- The most carriage returns at the end of one of the lines. -/
def mostReturns (ls : List String) : Nat :=
  ls.foldr (fun l most => max (returnsAtEnd l) most) 0

theorem returnsAtEnd_of_endsInReturn {l : String} (h : EndsInReturn l) :
    returnsAtEnd l = returnsAtEnd (dropReturn l) + 1 := by
  rw [returnsAtEnd, toList_of_endsInReturn h, List.rtakeWhile_concat_pos _ _ _ rfl,
    List.length_append, List.length_singleton, returnsAtEnd]

theorem returnsAtEnd_eq_zero_iff {l : String} : returnsAtEnd l = 0 ↔ ¬ EndsInReturn l := by
  constructor
  · intro hzero hreturn
    rw [returnsAtEnd_of_endsInReturn hreturn] at hzero
    cases hzero
  · intro h
    rw [returnsAtEnd, List.length_eq_zero_iff, List.rtakeWhile_eq_nil_iff]
    intro hne hlast
    refine h ?_
    rw [EndsInReturn, List.getLast?_eq_some_getLast hne, beq_iff_eq.1 hlast]

theorem returnsAtEnd_dropReturn (l : String) :
    returnsAtEnd (dropReturn l) = returnsAtEnd l - 1 := by
  by_cases h : EndsInReturn l
  · rw [returnsAtEnd_of_endsInReturn h, Nat.add_sub_cancel]
  · rw [dropReturn_of_not h, returnsAtEnd_eq_zero_iff.2 h]

theorem mostReturns_le_iff {ls : List String} {k : Nat} :
    mostReturns ls ≤ k ↔ ∀ l ∈ ls, returnsAtEnd l ≤ k := by
  induction ls with
  | nil => simp [mostReturns]
  | cons l ls ih =>
    have hcons : mostReturns (l :: ls) = max (returnsAtEnd l) (mostReturns ls) := rfl
    rw [hcons, Nat.max_le, ih, List.forall_mem_cons]

theorem returnsAtEnd_empty : returnsAtEnd "" = 0 := by
  decide

theorem not_mem_dropReturn {c : Char} {l : String} (h : c ∉ l.toList) :
    c ∉ (dropReturn l).toList := by
  by_cases hreturn : EndsInReturn l
  · rw [toList_of_endsInReturn hreturn] at h
    exact fun hmem => h (List.mem_append_left _ hmem)
  · rwa [dropReturn_of_not hreturn]

theorem pieces_dropReturns (s : String) : pieces (dropReturns s) = (pieces s).map dropReturn := by
  refine pieces_joinLines (by simpa using pieces_ne_nil s) ?_
  intro l hl
  obtain ⟨piece, hpiece, rfl⟩ := List.mem_map.1 hl
  exact not_mem_dropReturn (not_mem_pieces hpiece)

/-- A text all of whose pieces end in at most `k` carriage returns. -/
def EndsWithin (k : Nat) (s : String) : Prop :=
  mostReturns (pieces s) ≤ k

theorem EndsWithin.dropReturns {k : Nat} {s : String} (h : EndsWithin k s) :
    EndsWithin (k - 1) (dropReturns s) := by
  rw [EndsWithin, mostReturns_le_iff] at h ⊢
  rw [pieces_dropReturns]
  intro l hl
  obtain ⟨piece, hpiece, rfl⟩ := List.mem_map.1 hl
  rw [returnsAtEnd_dropReturn]
  exact Nat.sub_le_sub_right (h piece hpiece) 1

theorem EndsWithin.dropReturns_eq {s : String} (h : EndsWithin 0 s) : Text.dropReturns s = s := by
  refine dropReturns_of_forall fun piece hpiece => ?_
  exact returnsAtEnd_eq_zero_iff.1 (Nat.le_zero.1 (mostReturns_le_iff.1 h piece hpiece))

theorem endsWithin_empty (k : Nat) : EndsWithin k "" := by
  rw [EndsWithin, pieces_empty, mostReturns_le_iff]
  intro l hl
  rw [List.mem_singleton.1 hl, returnsAtEnd_empty]
  exact Nat.zero_le k

theorem endsWithin_joinLines {k : Nat} {ls : List String}
    (h : ∀ l ∈ ls, returnsAtEnd l ≤ k ∧ '\n' ∉ l.toList) : EndsWithin k (joinLines ls) := by
  rw [EndsWithin, mostReturns_le_iff]
  exact forall_mem_pieces_joinLines (by rw [returnsAtEnd_empty]; exact Nat.zero_le k) h

end Text

open Text

/-! ## What components show -/

namespace Component

/-- A slot that shows a text that a shape gives it: nothing sets it after the last choice of a
shape. -/
def ShowsPreset (cs : List Component) (c : Component) : Prop :=
  ∃ name display, c.kind = .slot name display ∧ lastText? name cs = none

theorem showsPreset_iff {cs : List Component} {c : Component} {name : String}
    {display : SlotDisplay} (hk : c.kind = .slot name display) :
    c.ShowsPreset cs ↔ lastText? name cs = none := by
  constructor
  · rintro ⟨name', display', hk', hnone⟩
    obtain ⟨rfl, -⟩ := ComponentKind.slot.inj (hk.symm.trans hk')
    exact hnone
  · exact fun hnone => ⟨name, display, hk, hnone⟩

theorem not_showsPreset (cs : List Component) {c : Component}
    (h : ∀ name display, c.kind ≠ .slot name display) : ¬ c.ShowsPreset cs := by
  rintro ⟨name, display, hk, -⟩
  exact h name display hk

/-- What a component shows ends within `k` carriage returns, or a shape gives it. -/
def ShowsWithin (k : Nat) (doc : Document) (c : Component) : Prop :=
  c.ShowsPreset doc.components ∨ EndsWithin k (c.shownText doc.slots)

/-- What is left of a component after a pass: what a shape gives it stays, and of every other text the
carriage returns at line ends are dropped. -/
structure Follows (doc doc' : Document) (c c' : Component) : Prop where
  kind : c'.kind = c.kind
  preset : c.ShowsPreset doc.components →
    c'.ShowsPreset doc'.components ∧ c'.shownText doc'.slots = c.shownText doc.slots
  shown : ¬ c.ShowsPreset doc.components →
    c'.shownText doc'.slots = Text.dropReturns (c.shownText doc.slots)

theorem Follows.showsWithin {k : Nat} {doc doc' : Document} {c c' : Component}
    (h : Follows doc doc' c c') (hc : c.ShowsWithin k doc) : c'.ShowsWithin (k - 1) doc' := by
  by_cases hpreset : c.ShowsPreset doc.components
  · exact .inl (h.preset hpreset).1
  · refine .inr ?_
    rw [h.shown hpreset]
    exact (hc.resolve_left hpreset).dropReturns

/-- Without carriage returns at line ends nothing is dropped. -/
theorem Follows.shownText_eq {doc doc' : Document} {c c' : Component} (h : Follows doc doc' c c')
    (hc : c.ShowsWithin 0 doc) : c'.shownText doc'.slots = c.shownText doc.slots := by
  by_cases hpreset : c.ShowsPreset doc.components
  · exact (h.preset hpreset).2
  · rw [h.shown hpreset]
    exact (hc.resolve_left hpreset).dropReturns_eq

end Component

/-! ## One pass -/

section Pass

variable {shapes : ShapeTable} {path : Path} {source : String} {doc doc' : Document}

theorem Document.slots_value_of_returnsAs (hdoc : Document.parse shapes path source = .ok doc)
    {source' : String} (hdoc' : Document.parse shapes path source' = .ok doc')
    (h : List.Forall₂ (Component.ReturnsAs doc.slots) doc.components doc'.components)
    (name : String) :
    doc'.slots.value name = if lastText? name doc.components = none then doc.slots.value name
      else Text.dropReturns (doc.slots.value name) := by
  have hlast := lastText?_of_returnsAs h name
  cases htext : lastText? name doc.components with
  | none =>
    have hpreset : presetSlots shapes path doc'.components = presetSlots shapes path doc.components :=
      presetSlots_of_returnsAs h
    rw [htext, Option.map_none] at hlast
    rw [if_pos rfl, Document.slots_value_eq hdoc', Document.slots_value_eq hdoc, hlast, htext, hpreset]
  | some text =>
    rw [htext, Option.map_some] at hlast
    rw [if_neg (Option.some_ne_none text), Document.slots_value_eq hdoc', hlast, Option.getD_some]

/-- **What a document shows after a pass** is what it showed before without the carriage returns at
line ends, or what a shape gives it. -/
theorem follows_of_returnsAs (hdoc : Document.parse shapes path source = .ok doc) {source' : String}
    (hdoc' : Document.parse shapes path source' = .ok doc')
    (h : List.Forall₂ (Component.ReturnsAs doc.slots) doc.components doc'.components) :
    List.Forall₂ (Component.Follows doc doc') doc.components doc'.components := by
  refine h.imp fun c c' hreturns => ?_
  have hkind := hreturns.kind
  have htext := hreturns.text
  cases hk : c.kind with
  | slot name display =>
    have hvalue := Document.slots_value_of_returnsAs hdoc hdoc' h name
    have hlast := lastText?_of_returnsAs h name
    have hk' : c'.kind = .slot name display := hkind.trans hk
    have hshown : c.shownText doc.slots = doc.slots.value name := Component.shownText_slot hk
    have hshown' : c'.shownText doc'.slots = doc'.slots.value name := Component.shownText_slot hk'
    rw [← hshown, ← hshown'] at hvalue
    refine ⟨hkind, fun hpreset => ?_, fun hpreset => ?_⟩
    · have hnone := (Component.showsPreset_iff hk).1 hpreset
      rw [if_pos hnone] at hvalue
      rw [hnone] at hlast
      exact ⟨(Component.showsPreset_iff hk').2 hlast, hvalue⟩
    · rwa [if_neg (mt (Component.showsPreset_iff hk).2 hpreset)] at hvalue
  | plainText =>
    have hnot := Component.not_showsPreset doc.components (c := c) (by simp [hk])
    refine ⟨hkind, fun hpreset => absurd hpreset hnot, fun _ => ?_⟩
    rw [← htext, Component.shownText, hkind, hk]
    rfl
  | script keyword =>
    have hnot := Component.not_showsPreset doc.components (c := c) (by simp [hk])
    refine ⟨hkind, fun hpreset => absurd hpreset hnot, fun _ => ?_⟩
    rw [← htext, Component.shownText, hkind, hk]
    rfl
  | shapeChoice keyword identifier =>
    have hnot := Component.not_showsPreset doc.components (c := c) (by simp [hk])
    have hempty : ∀ {ps : PageSlots} {d : Component},
        d.kind = .shapeChoice keyword identifier → d.shownText ps = "" := by
      intro ps d hd
      rw [Component.shownText, hd]
      rfl
    refine ⟨hkind, fun hpreset => absurd hpreset hnot, fun _ => ?_⟩
    rw [hempty (hkind.trans hk), hempty hk, (endsWithin_empty 0).dropReturns_eq]

/-- After a pass the document can be read again. -/
theorem exists_next (hdefaults : shapes.HasPlainDefaults)
    (hdoc : Document.parse shapes path source = .ok doc) :
    ∃ doc', Document.parse shapes path (doc.render .source) = .ok doc' ∧
      List.Forall₂ (Component.Follows doc doc') doc.components doc'.components := by
  obtain ⟨doc', hdoc', h⟩ :=
    exists_parse_render_of_plain hdoc (Document.hasPlainPieces_of_defaults hdefaults hdoc)
  exact ⟨doc', hdoc', follows_of_returnsAs hdoc hdoc' h⟩

theorem render_eq_of_follows {cs cs' : List Component}
    (h : List.Forall₂ (Component.Follows doc doc') cs cs')
    (hwithin : ∀ c ∈ cs, c.ShowsWithin 0 doc) (mode : Rendition) :
    renderComponents cs' doc'.slots mode = renderComponents cs doc.slots mode := by
  have hmap : cs'.map (·.render doc'.slots mode) = cs.map (·.render doc.slots mode) := by
    induction h with
    | nil => rfl
    | @cons c c' cs cs' head tail ih =>
      have hshown := head.shownText_eq (hwithin c List.mem_cons_self)
      rw [List.map_cons, List.map_cons, Component.render_eq_of_shownText head.kind hshown,
        ih fun d hd => hwithin d (List.mem_cons_of_mem _ hd)]
  rw [renderComponents, renderComponents, hmap]

theorem showsWithin_of_follows {k : Nat} {cs cs' : List Component}
    (h : List.Forall₂ (Component.Follows doc doc') cs cs')
    (hwithin : ∀ c ∈ cs, c.ShowsWithin k doc) : ∀ c' ∈ cs', c'.ShowsWithin (k - 1) doc' := by
  induction h with
  | nil => exact fun c' hc' => absurd hc' List.not_mem_nil
  | @cons c c' cs cs' head tail ih =>
    rw [List.forall_mem_cons] at hwithin ⊢
    exact ⟨head.showsWithin hwithin.1, ih hwithin.2⟩

/-- What a document shows ends within the carriage returns of its lines. -/
theorem showsWithin_of_parse (hdoc : Document.parse shapes path source = .ok doc) :
    ∀ c ∈ doc.components, c.ShowsWithin (mostReturns (lines source)) doc := by
  obtain ⟨bs, hflatten, hreads, -, -, -⟩ := ofLines_eq_ok_iff.1 hdoc
  have hlines : ∀ l ∈ bs.flatten, returnsAtEnd l ≤ mostReturns (lines source) ∧ '\n' ∉ l.toList := by
    intro l hl
    rw [hflatten] at hl
    exact ⟨mostReturns_le_iff.1 le_rfl l hl, not_mem_lines hl⟩
  have htexts : ∀ c ∈ doc.components, EndsWithin (mostReturns (lines source)) c.text := by
    intro c hc
    rw [hreads.text_eq c hc]
    exact endsWithin_joinLines fun l hl => (hreads.forall_mem_body hlines c hc l hl).2
  intro c hc
  by_cases hpreset : c.ShowsPreset doc.components
  · exact .inl hpreset
  refine .inr (Component.shownText_induction (htexts c hc) (endsWithin_empty _) ?_)
  intro name display hkind
  rw [Document.slots_value_eq hdoc]
  cases htext : lastText? name doc.components with
  | none => exact absurd ⟨name, display, hkind, htext⟩ hpreset
  | some text =>
    obtain ⟨d, hd, rfl⟩ := exists_of_lastText? htext
    exact htexts d hd

end Pass

/-! ## Many passes -/

/-- A pass over a document: its source rendering. -/
def pass (shapes : ShapeTable) (path : Path) (source : String) : Except DocumentError String :=
  (Document.parse shapes path source).map (·.render .source)

/-- Passes one after the other, each over what the one before has written. -/
def passes (shapes : ShapeTable) (path : Path) : Nat → String → Except DocumentError String
  | 0, source => .ok source
  | n + 1, source => (passes shapes path n source).bind (pass shapes path)

section Passes

variable {shapes : ShapeTable} {path : Path} {source text : String} {doc : Document} {n : Nat}

theorem pass_of_parse (hdoc : Document.parse shapes path source = .ok doc) :
    pass shapes path source = .ok (doc.render .source) := by
  rw [pass, hdoc]
  rfl

theorem passes_succ (h : passes shapes path n source = .ok text) :
    passes shapes path (n + 1) source = pass shapes path text := by
  rw [passes, h]
  rfl

/-- **Every pass goes through**, and one carriage return less is left after it. -/
theorem passes_reach (hdefaults : shapes.HasPlainDefaults)
    (hdoc : Document.parse shapes path source = .ok doc) (n : Nat) :
    ∃ text doc', passes shapes path n source = .ok text ∧
      Document.parse shapes path text = .ok doc' ∧
      ∀ c ∈ doc'.components, c.ShowsWithin (mostReturns (lines source) - n) doc' := by
  induction n with
  | zero => exact ⟨source, doc, rfl, hdoc, showsWithin_of_parse hdoc⟩
  | succ n ih =>
    obtain ⟨text, docₙ, hpasses, hdocₙ, hwithin⟩ := ih
    obtain ⟨doc', hdoc', hfollows⟩ := exists_next hdefaults hdocₙ
    refine ⟨docₙ.render .source, doc', ?_, hdoc', ?_⟩
    · rw [passes_succ hpasses, pass_of_parse hdocₙ]
    · rw [Nat.sub_add_eq]
      exact showsWithin_of_follows hfollows hwithin

/-- Once no carriage returns are left, a pass writes what it reads. -/
theorem passes_settle (hdefaults : shapes.HasPlainDefaults)
    (hdoc : Document.parse shapes path source = .ok doc) (hn : mostReturns (lines source) ≤ n) :
    ∃ text, passes shapes path (n + 1) source = .ok text ∧ pass shapes path text = .ok text := by
  obtain ⟨text, docₙ, hpasses, hdocₙ, hwithin⟩ := passes_reach hdefaults hdoc n
  obtain ⟨doc', hdoc', hfollows⟩ := exists_next hdefaults hdocₙ
  rw [Nat.sub_eq_zero_of_le hn] at hwithin
  refine ⟨docₙ.render .source, ?_, ?_⟩
  · rw [passes_succ hpasses, pass_of_parse hdocₙ]
  · rw [pass_of_parse hdoc']
    exact congrArg Except.ok (render_eq_of_follows hfollows hwithin .source)

/-- **Passes converge.** Over a document that can be read any number of passes goes through, and when
its lines end in at most `k` carriage returns, pass `k + 1` writes a text that a further pass leaves as
it is. So one pass is enough when no line ends in a carriage return. The shapes have to give their
slots plain lines. -/
theorem passes_converge (hdefaults : shapes.HasPlainDefaults)
    (hok : ∃ doc, Document.parse shapes path source = .ok doc) :
    (∀ n, ∃ text, passes shapes path n source = .ok text) ∧
      (∃ text, passes shapes path (mostReturns (lines source) + 1) source = .ok text ∧
        pass shapes path text = .ok text) ∧
      ((∀ l ∈ lines source, ¬ EndsInReturn l) →
        ∃ text, pass shapes path source = .ok text ∧ pass shapes path text = .ok text) := by
  obtain ⟨doc, hdoc⟩ := hok
  refine ⟨fun n => ?_, passes_settle hdefaults hdoc le_rfl, fun hreturn => ?_⟩
  · obtain ⟨text, -, hpasses, -⟩ := passes_reach hdefaults hdoc n
    exact ⟨text, hpasses⟩
  · have hzero : mostReturns (lines source) ≤ 0 :=
      mostReturns_le_iff.2 fun l hl => Nat.le_of_eq (returnsAtEnd_eq_zero_iff.2 (hreturn l hl))
    obtain ⟨text, hpasses, hpass⟩ := passes_settle hdefaults hdoc hzero
    exact ⟨text, (passes_succ rfl).symm.trans hpasses, hpass⟩

end Passes

/-- A slot with a line of two carriage returns, and one to which the shape gives a text that ends in a
carriage return: after two passes nothing changes any more. -/
theorem passes_converge_two :
    let shapes := ShapeTable.ofList [.ofList "Page" "" [("footer", "Bye\r")]]
    let source := "<!-- [footer] -->\n<!-- [class Page] -->\n<!-- [t -->\n\r\r\n<!-- t] -->\n"
    shapes.HasPlainDefaults ∧ (∃ doc, Document.parse shapes ⟨"/page.htm"⟩ source = .ok doc) ∧
      mostReturns (lines source) = 1 ∧
      ∃ text, passes shapes ⟨"/page.htm"⟩ 2 source = .ok text ∧
        pass shapes ⟨"/page.htm"⟩ text = .ok text := by
  intro shapes source
  have hdefaults : shapes.HasPlainDefaults := by
    refine ShapeTable.hasCleanDefaults_standard.hasPlainDefaults.add fun slot value hv => ?_
    have hv : ((∅ : SlotValues).insert "footer" "Bye\r")[slot]? = some value := hv
    rw [SlotValues.getElem?_insert_eq, Std.ExtTreeMap.getElem?_empty] at hv
    split at hv
    · obtain rfl := Option.some.inj hv
      decide
    · cases hv
  have hmost : mostReturns (lines source) = 1 := by decide
  have htest : ((Document.parse shapes ⟨"/page.htm"⟩ source).toOption.any fun _ => true) = true := by
    decide +kernel
  obtain ⟨doc, hdoc, -⟩ := exists_ok_of_any htest
  obtain ⟨-, htwo, -⟩ := passes_converge hdefaults ⟨doc, hdoc⟩
  rw [hmost] at htwo
  exact ⟨hdefaults, ⟨doc, hdoc⟩, hmost, htwo⟩

end Pagewright

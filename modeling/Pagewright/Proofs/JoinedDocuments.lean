import Pagewright.Proofs.LastShape

/-!
# Documents one after the other

When the last line of a text is ended, the document of this text and another one behind it is made of
the documents of the two (`parse_append`): its components are those of both, the later ones moved down
(`Component.later`), and plain text that ends the first document goes on with plain text that begins
the second (`Joins`). The later components do to the page what they do where they stand first, so the
scripts follow each other; and the second document has its slots to itself when it chooses a shape,
and writes them over those of the first when it does not.
-/

namespace Pagewright

open Text
open Directive (IsPlain)

variable {shapes : ShapeTable} {n : Nat} {cs ds es : List Component}

/-- A component some lines further down. -/
def Component.later (k : Nat) (c : Component) : Component :=
  { c with start := c.start + k }

def PendingScript.later (k : Nat) (s : PendingScript) : PendingScript :=
  { s with line := s.line + k }

/-- The finished component of the lines of two, the second of which goes on with the first. -/
def Component.goingOn (c d : Component) : Component :=
  .ofBlock c.start c.kind (c.body.lines ++ d.body.lines)

/-- The components of two documents one after the other, the first of which has `n` lines. -/
inductive Joins (n : Nat) : List Component → List Component → List Component → Prop
  | apart {cs ds : List Component}
      (apart : ∀ c ∈ cs.getLast?, ∀ d ∈ ds.head?, ¬ (c.kind = .plainText ∧ d.kind = .plainText)) :
      Joins n cs ds (cs ++ ds.map (.later n))
  /-- Plain text goes on with plain text. -/
  | merged {cs ds : List Component} {c d : Component} (ends : c.kind = .plainText)
      (begins : d.kind = .plainText) :
      Joins n (cs ++ [c]) (d :: ds) (cs ++ c.goingOn d :: ds.map (.later n))

/-! ## Blocks further down -/

theorem Reads.later {bs : List (List String)} (h : Reads shapes n bs cs) (k : Nat) :
    Reads shapes (n + k) bs (cs.map (.later k)) := by
  induction h with
  | nil => exact .nil
  | @cons n b body kind bs cs head tail ih =>
    rw [Nat.add_right_comm] at ih
    exact .cons head ih

/-- The blocks of some first components and those of the others. -/
theorem Reads.of_append {bs : List (List String)} (h : Reads shapes n bs (cs ++ ds)) :
    ∃ bs₁ bs₂, bs = bs₁ ++ bs₂ ∧ Reads shapes n bs₁ cs ∧
      Reads shapes (n + bs₁.flatten.length) bs₂ ds := by
  induction cs generalizing n bs with
  | nil => exact ⟨[], bs, rfl, .nil, h⟩
  | cons c cs ih =>
    cases h with
    | @cons _ b body kind bs _ head tail =>
      obtain ⟨bs₁, bs₂, rfl, h₁, h₂⟩ := ih tail
      refine ⟨b :: bs₁, bs₂, rfl, .cons head h₁, ?_⟩
      rwa [List.flatten_cons, List.length_append, ← Nat.add_assoc]

/-- Plain text with more plain text behind it is one block. -/
theorem BlockForm.append_plainText {b b' body body' : List String}
    (h : BlockForm shapes b .plainText body) (h' : BlockForm shapes b' .plainText body') :
    BlockForm shapes (b ++ b') .plainText (body ++ body') := by
  cases h with
  | plainText nonempty plain =>
    cases h' with
    | plainText _ plain' =>
      refine .plainText (List.append_ne_nil_of_left_ne_nil nonempty _) fun l hl => ?_
      rcases List.mem_append.1 hl with hl | hl
      · exact plain l hl
      · exact plain' l hl

/-- Whether components are apart depends on their kinds only. -/
theorem apart_iff_map_kind :
    Apart cs ↔ (cs.map Component.kind).IsChain fun k l => k = .plainText → l ≠ .plainText := by
  rw [List.isChain_map]
  rfl

theorem map_kind_later (k : Nat) (cs : List Component) :
    (cs.map (.later k)).map Component.kind = cs.map Component.kind := by
  rw [List.map_map]
  rfl

theorem Apart.append_later (h : Apart cs) (h' : Apart ds)
    (hmeet : ∀ c ∈ cs.getLast?, ∀ d ∈ ds.head?, ¬ (c.kind = .plainText ∧ d.kind = .plainText))
    (k : Nat) : Apart (cs ++ ds.map (.later k)) := by
  rw [apart_iff_map_kind] at h h'
  rw [apart_iff_map_kind, List.map_append, map_kind_later, List.isChain_append]
  refine ⟨h, h', fun k hk l hl hplain hplain' => ?_⟩
  rw [List.getLast?_map] at hk
  rw [List.head?_map] at hl
  obtain ⟨c, hc, rfl⟩ := Option.map_eq_some_iff.1 hk
  obtain ⟨d, hd, rfl⟩ := Option.map_eq_some_iff.1 hl
  exact hmeet c hc d hd ⟨hplain, hplain'⟩

theorem Apart.goingOn {c d : Component} (h : Apart (cs ++ [c])) (h' : Apart (d :: ds))
    (hkind : c.kind = d.kind) (k : Nat) : Apart (cs ++ c.goingOn d :: ds.map (.later k)) := by
  rw [apart_iff_map_kind, List.map_append, List.map_singleton] at h
  rw [apart_iff_map_kind, List.map_cons, ← hkind, ← List.singleton_append] at h'
  rw [apart_iff_map_kind, List.map_append, List.map_cons, map_kind_later, List.append_cons]
  exact h.append_overlap h' (List.cons_ne_nil _ _)

/-- The block that goes on stands where the first of its two parts stood. -/
theorem Reads.goingOn {c d : Component} {bs bs' : List (List String)}
    (h : Reads shapes 1 bs (cs ++ [c])) (h' : Reads shapes 1 bs' (d :: ds))
    (ends : c.kind = .plainText) (begins : d.kind = .plainText) :
    ∃ bs'', bs''.flatten = bs.flatten ++ bs'.flatten ∧
      Reads shapes 1 bs'' (cs ++ c.goingOn d :: ds.map (.later bs.flatten.length)) := by
  obtain ⟨bs, rest, rfl, hfirst, hlast⟩ := h.of_append
  cases hlast with
  | @cons _ b body kind _ _ head tail =>
    cases tail
    cases h' with
    | @cons _ b' body' kind' bs' _ head' tail' =>
      obtain rfl : kind = .plainText := ends
      obtain rfl : kind' = .plainText := begins
      have hstart : 1 + b'.length + (bs ++ [b]).flatten.length =
          1 + bs.flatten.length + (b ++ b').length := by
        rw [List.flatten_concat, List.length_append, List.length_append]
        omega
      have htail := tail'.later (bs ++ [b]).flatten.length
      rw [hstart] at htail
      exact ⟨bs ++ (b ++ b') :: bs', by simp,
        hfirst.append_reads (.cons (head.append_plainText head') htail)⟩

/-- **Two sequences of blocks** are read as one, with one plain block where two would meet. -/
theorem Reads.exists_joins {bs bs' : List (List String)} (h : Reads shapes 1 bs cs)
    (hapart : Apart cs) (h' : Reads shapes 1 bs' ds) (hapart' : Apart ds) :
    ∃ bs'' es, bs''.flatten = bs.flatten ++ bs'.flatten ∧ Joins bs.flatten.length cs ds es ∧
      Reads shapes 1 bs'' es ∧ Apart es := by
  by_cases hmeet : ∀ c ∈ cs.getLast?, ∀ d ∈ ds.head?, ¬ (c.kind = .plainText ∧ d.kind = .plainText)
  · exact ⟨bs ++ bs', _, List.flatten_append, .apart hmeet,
      h.append_reads (h'.later bs.flatten.length), hapart.append_later hapart' hmeet _⟩
  · push Not at hmeet
    obtain ⟨c, hc, d, hd, hends, hbegins⟩ := hmeet
    obtain ⟨cs, rfl⟩ := List.getLast?_eq_some_iff.1 hc
    obtain ⟨ds, rfl⟩ := List.head?_eq_some_iff.1 hd
    obtain ⟨bs'', hflatten, hreads⟩ := h.goingOn h' hends hbegins
    exact ⟨bs'', _, hflatten, .merged hends hbegins, hreads,
      hapart.goingOn hapart' (hends.trans hbegins.symm) _⟩

/-! ## The page -/

namespace Component

theorem pending?_later (k : Nat) (c : Component) :
    (c.later k).pending? = c.pending?.map (.later k) := by
  unfold pending?
  cases hk : c.kind with
  | script keyword => simp [later, hk, bodyLine, PendingScript.later, text, Nat.add_right_comm]
  | _ => simp [later, hk]

theorem filterMap_pending?_later (k : Nat) (cs : List Component) :
    (cs.map (later k)).filterMap pending? = (cs.filterMap pending?).map (.later k) := by
  rw [List.filterMap_map, List.map_filterMap]
  exact List.filterMap_congr fun c _ => pending?_later k c

theorem pending?_plainText {c : Component} (h : c.kind = .plainText) : c.pending? = none := by
  rw [pending?, h]

theorem slots_takeEffect_later {page page' : Page} (h : page.slots = page'.slots) (k : Nat)
    (c : Component) :
    ((c.later k).takeEffect shapes page).slots = (c.takeEffect shapes page').slots := by
  have hkind : (c.later k).kind = c.kind := rfl
  have htext : (c.later k).text = c.text := rfl
  unfold takeEffect effect
  rw [hkind, htext, h]
  cases hk : c.kind with
  | plainText => exact h
  | script keyword => rfl
  | shapeChoice keyword identifier => cases hs : shapes.get? identifier <;> simp [hs, h]
  | slot name display => cases hs : page'.slots.set name c.text <;> simp [hs, h]

end Component

theorem Page.slots_after_later {page page' : Page} (h : page.slots = page'.slots) (k : Nat)
    (cs : List Component) :
    (page.after shapes (cs.map (.later k))).slots = (page'.after shapes cs).slots := by
  induction cs generalizing page page' with
  | nil => exact h
  | cons c cs ih => exact ih (Component.slots_takeEffect_later h k c)

/-- Documents one after the other queue the scripts of the first, then those of the second. -/
theorem Joins.scripts_after (h : Joins n cs ds es) (page : Page) :
    (page.after shapes es).scripts =
      page.scripts ++ cs.filterMap Component.pending? ++
        (ds.filterMap Component.pending?).map (.later n) := by
  rw [Page.scripts_after, List.append_assoc]
  cases h with
  | apart => rw [List.filterMap_append, Component.filterMap_pending?_later]
  | @merged cs ds c d ends begins =>
    have hgoing : (c.goingOn d).pending? = none := Component.pending?_plainText ends
    simp only [List.filterMap_append, List.filterMap_cons, List.filterMap_nil, hgoing,
      Component.pending?_plainText ends, Component.pending?_plainText begins,
      Component.filterMap_pending?_later, List.append_nil]

/-- Documents one after the other leave the slots that the second leaves after the first. -/
theorem Joins.slots_after (h : Joins n cs ds es) (page : Page) :
    (page.after shapes es).slots = ((page.after shapes cs).after shapes ds).slots := by
  cases h with
  | apart => rw [Page.after_append, Page.slots_after_later rfl]
  | @merged cs ds c d ends begins =>
    have hgoing : (c.goingOn d).kind = .plainText := ends
    rw [Page.after_append, Page.after_append, Page.after_cons, Page.after_cons, Page.after_cons,
      Page.after_nil, Component.takeEffect_plainText hgoing, Component.takeEffect_plainText ends,
      Component.takeEffect_plainText begins, Page.slots_after_later rfl]

/-! ## The whole document -/

section

variable {path : Path} {source source' : String} {doc doc' : Document}

/-- **Reading is compositional.** When two texts are documents and the last line of the first is
ended, the two together are a document. It has the components of both, those of the second moved down
by the lines of the first, and one where plain text meets plain text; the scripts of both; and the
slots of the second if that chooses a shape, else those of the first with the texts of the second's
slots over them. -/
theorem parse_append (hdoc : Document.parse shapes path source = .ok doc)
    (hdoc' : Document.parse shapes path source' = .ok doc') (hends : EndsLastLine source) :
    ∃ joined, Document.parse shapes path (source ++ source') = .ok joined ∧
      Joins (lines source).length doc.components doc'.components joined.components ∧
      joined.scripts = doc.scripts ++ doc'.scripts.map (.later (lines source).length) ∧
      joined.slots = if doc'.components.any Component.choosesShape then doc'.slots
        else doc.slots.writeAll (doc'.components.filterMap Component.write?) := by
  have heffective := isEffective_of_parse hdoc'
  obtain ⟨bs, hlines, hreads, hapart, -, hpage⟩ := ofLines_eq_ok_iff.1 hdoc
  obtain ⟨bs', hlines', hreads', hapart', -, hpage'⟩ := ofLines_eq_ok_iff.1 hdoc'
  obtain ⟨bs'', es, hflatten, hjoins, hjoined, hapart''⟩ :=
    hreads.exists_joins hapart hreads' hapart'
  rw [hlines] at hjoins
  have hparse : Document.parse shapes path (source ++ source') = .ok
      { path, components := es, page := (Page.start shapes path).after shapes es } := by
    rw [Document.parse, lines_append hends, ← hlines, ← hlines', ← hflatten]
    exact ofLines_of_reads hjoined hapart''
  refine ⟨_, hparse, hjoins, ?_, ?_⟩
  · rw [Document.scripts, Document.scripts, Document.scripts, hpage, hpage', hjoins.scripts_after,
      Page.scripts_after, Page.scripts_after]
    rfl
  · rw [Document.slots, hjoins.slots_after, ← hpage]
    split
    · next hany =>
      obtain ⟨c, hc, hchooses⟩ := List.any_eq_true.1 hany
      have hsource : doc.page.slots.source = (Page.start shapes path).slots.source := by
        rw [hpage, Page.source_after]
      rw [Page.slots_after_of_choosesShape heffective hc hchooses hsource, ← hpage']
      rfl
    · next hnone =>
      have hkeeps : ∀ c ∈ doc'.components, c.choosesShape = false := by simpa using hnone
      exact Page.slots_after_of_choosesShape_eq_false doc.page heffective hkeeps

/-- The line of the later script is counted from the top, and the later title stands. The layout stays
as well, and it is gone when the second document chooses a shape. -/
theorem parse_append_title :
    let parse := Document.parse .standard ⟨"/site/index.html"⟩
    let source := "<!-- [title -->\nOne\n<!-- title] -->\n<!-- [layout] -->\n" ++
      "<!-- [script\nx = 1\nscript] -->\nintro\n"
    let source' := "more\n<!-- [script\ny = 2\nscript] -->\n<!-- [title -->\nTwo\n<!-- title] -->"
    let chooses := "<!-- [class Page] -->\n" ++ source'
    (∃ joined, parse (source ++ source') = .ok joined ∧
      joined.scripts = [⟨6, "x = 1"⟩, ⟨11, "y = 2"⟩] ∧
      joined.slots.get? "title" = some "Two" ∧ joined.slots.get? "layout" = some "") ∧
      ∃ joined, parse (source ++ chooses) = .ok joined ∧
        joined.scripts = [⟨6, "x = 1"⟩, ⟨12, "y = 2"⟩] ∧ joined.slots.get? "layout" = none := by
  intro parse source source' chooses
  let plain : Component := ⟨1, .plainText, ⟨["more"], some "more"⟩⟩
  let script : Component := ⟨2, .script "script", ⟨["y = 2"], some "y = 2"⟩⟩
  let title : Component := ⟨5, .slot "title" .rendered, ⟨["Two"], some "Two"⟩⟩
  have htest : (parse source).toOption.any (fun doc => decide
      (doc.scripts = [⟨6, "x = 1"⟩] ∧ doc.slots.get? "layout" = some "")) = true := by
    decide +kernel
  have htest' : (parse source').toOption.any (fun doc => decide
      (doc.components = [plain, script, title] ∧ doc.scripts = [⟨3, "y = 2"⟩])) = true := by
    decide +kernel
  have hchooses : (parse chooses).toOption.any (fun doc => decide
      (doc.components.any Component.choosesShape = true ∧ doc.scripts = [⟨4, "y = 2"⟩] ∧
        doc.slots.get? "layout" = none)) = true := by
    decide +kernel
  obtain ⟨doc, hdoc, htest⟩ := exists_ok_of_any htest
  obtain ⟨hscripts, hlayout⟩ := of_decide_eq_true htest
  obtain ⟨doc', hdoc', htest'⟩ := exists_ok_of_any htest'
  obtain ⟨hcomponents, hscripts'⟩ := of_decide_eq_true htest'
  obtain ⟨chosen, hchosen, hchooses⟩ := exists_ok_of_any hchooses
  obtain ⟨hany, hlater, hgone⟩ := of_decide_eq_true hchooses
  have hends : EndsLastLine source := by decide +kernel
  have hlength : (lines source).length = 8 := by decide +kernel
  constructor
  · obtain ⟨joined, hjoined, -, hqueue, hslots⟩ := parse_append hdoc hdoc' hends
    have hnone : [plain, script, title].any Component.choosesShape = false := by decide
    rw [hcomponents, hnone, if_neg Bool.false_ne_true] at hslots
    refine ⟨joined, hjoined, by rw [hqueue, hscripts, hscripts', hlength]; rfl, ?_, ?_⟩
    · rw [hslots, PageSlots.get?_writeAll_filterMap]
      rfl
    · rw [hslots, PageSlots.get?_writeAll_filterMap, hlayout]
      rfl
  · obtain ⟨joined, hjoined, -, hqueue, hslots⟩ := parse_append hdoc hchosen hends
    rw [hany, if_pos rfl] at hslots
    exact ⟨joined, hjoined, by rw [hqueue, hscripts, hlater, hlength]; rfl, by rw [hslots, hgone]⟩

end

end Pagewright

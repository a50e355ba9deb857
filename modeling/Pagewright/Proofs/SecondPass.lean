import Pagewright.Proofs.PlainRenderings
import Pagewright.Proofs.Updates

/-!
# A second pass over a document

A pass over a document reads it, runs its scripts and renders it for the next pass. When the scripts
are their own updates and leave clean slots behind, a second pass changes nothing
(`second_pass_same`): its scripts have the sources of those of the first pass, so they make the same
writes, and what they do not write has been read as the first pass left it.
-/

namespace Pagewright

open Text

section

variable {shapes : ShapeTable} {path : Path} {source : String} {doc doc₁ : Document}

theorem Document.isClean_shownText (hdoc : Document.parse shapes path source = .ok doc)
    (hreturn : ∀ l ∈ lines source, ¬ EndsInReturn l) {ps : PageSlots} (hps : ps.IsClean) :
    ∀ c ∈ doc.components, IsClean (c.shownText ps) := by
  obtain ⟨bs, hflatten, hreads, -, -, -⟩ := ofLines_eq_ok_iff.1 hdoc
  have htext := hreads.isClean_text fun l hl =>
    ⟨not_mem_lines (s := source) (hflatten ▸ hl), hreturn l (hflatten ▸ hl)⟩
  exact fun c hc => Component.isClean_shownText hps (hreads.isLawful c hc).isEffective (htext c hc)

/-- **A second pass changes nothing** when the scripts of a document are their own updates, all of
them succeed and the slots that they leave are clean: what the first pass renders can be read again,
its scripts succeed, and the slots and the renderings are those of the first pass. No line of the
document may end in a carriage return. -/
theorem second_pass_same (hdoc : Document.parse shapes path source = .ok doc)
    (hreturn : ∀ l ∈ lines source, ¬ EndsInReturn l)
    (hrun : doc.runScripts .updates = pure (doc₁, .ok ())) (hclean : doc₁.slots.IsClean) :
    ∃ doc₂ doc₃, Document.parse shapes path (doc₁.render .source) = .ok doc₂ ∧
      doc₂.runScripts .updates = pure (doc₃, .ok ()) ∧
      doc₃.slots = doc₁.slots ∧ ∀ mode, doc₃.render mode = doc₁.render mode := by
  rw [Document.runScripts_updates] at hrun
  obtain ⟨rfl, hok⟩ := Prod.mk.inj (FileProgram.done.inj hrun)
  let ws := (SlotWrite.ofScripts doc.scripts).1
  obtain ⟨doc₂, hdoc₂, hagain, hagrees⟩ :=
    exists_parse_render_of_clean hdoc (Document.isClean_shownText hdoc hreturn hclean)
  have hwrites : SlotWrite.ofScripts doc₂.scripts = SlotWrite.ofScripts doc.scripts :=
    SlotWrite.ofScripts_eq_of_sources hagrees.scripts hok
  have hslots : doc₂.slots.writeAll ws = doc.slots.writeAll ws := hagrees.writeAll_eq ws
  refine ⟨doc₂, doc₂.withSlots (doc₂.slots.writeAll ws), hdoc₂, ?_, hslots, fun mode => ?_⟩
  · rw [Document.runScripts_updates, hwrites, hok]
  · rw [hslots]
    exact renderComponents_eq_of_rereads hagain mode

end

/-- A script that sets one slot and takes another one away. -/
theorem second_pass_same_set_clear :
    let source := "<!-- [script\n\x7b\"title\": \"New\", \"note\": null\x7d\nscript] -->\n" ++
      "<!-- [title] -->\n<!-- [note -->\nOld\n<!-- note] -->\n"
    let parse := Document.parse .standard ⟨"/site/index.html"⟩
    ∃ doc doc₁, parse source = .ok doc ∧ doc.runScripts .updates = pure (doc₁, .ok ()) ∧
      ∃ doc₂ doc₃, parse (doc₁.render .source) = .ok doc₂ ∧
        doc₂.runScripts .updates = pure (doc₃, .ok ()) ∧
        doc₃.slots = doc₁.slots ∧ ∀ mode, doc₃.render mode = doc₁.render mode := by
  intro source parse
  let ws (doc : Document) := SlotWrite.ofScripts doc.scripts
  have htest : ((parse source).toOption.any fun doc => (ws doc).2.toOption.any fun _ =>
      decide (doc.slots.writeAll (ws doc).1).IsClean) = true := by decide +kernel
  obtain ⟨doc, hdoc, htest⟩ := exists_ok_of_any htest
  obtain ⟨⟨⟩, hok, hclean⟩ := exists_ok_of_any htest
  have hrun : doc.runScripts .updates =
      pure (doc.withSlots (doc.slots.writeAll (ws doc).1), .ok ()) := by
    rw [Document.runScripts_updates]
    exact congrArg (fun result => pure (_, result)) hok
  exact ⟨doc, _, hdoc, hrun, second_pass_same hdoc (by decide) hrun (of_decide_eq_true hclean)⟩

end Pagewright

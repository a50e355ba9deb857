import Pagewright.File.Tree

/-!
# The steps of a path

A path that ends in no slash has a last step, and a text without slashes that is put after the path
is put after that step: `exists_siblingSteps` says so for the path and all its siblings at once.
-/

namespace Pagewright

namespace Path

theorem splitSlashes_eq_splitOn (cs : List Char) : splitSlashes cs = cs.splitOn '/' := by
  induction cs with
  | nil => rfl
  | cons c cs ih =>
    rw [splitSlashes, List.splitOn_cons_eq_if_modifyHead, ih]
    cases hs : cs.splitOn '/' with
    | nil => exact absurd hs (List.splitOn_ne_nil '/' cs)
    | cons s ss => by_cases hc : c = '/' <;> simp [hc]

/-- The last segment of a text, and what stands before it. -/
theorem exists_last_segment (cs : List Char) :
    ∃ front segment, cs = front ++ segment ∧ '/' ∉ segment ∧
      (front = [] ∨ ∃ f, front = f ++ ['/']) := by
  by_cases h : '/' ∈ cs
  · obtain ⟨as, bs, hcs, has⟩ := List.eq_append_cons_of_mem (List.mem_reverse.2 h)
    refine ⟨bs.reverse ++ ['/'], as.reverse, ?_, by simpa using has, .inr ⟨_, rfl⟩⟩
    rw [← List.reverse_reverse cs, hcs]
    simp
  · exact ⟨[], cs, rfl, h, .inl rfl⟩

@[simp] theorem toList_text_sibling (p : Path) (suffix : String) :
    (p.sibling suffix).text.toList = p.text.toList ++ suffix.toList := by
  simp [sibling]

theorem isAbsolute_sibling {p : Path} (h : p.text ≠ "") (suffix : String) :
    (p.sibling suffix).isAbsolute = p.isAbsolute := by
  have hne : p.text.toList ≠ [] := fun h' => h (String.toList_eq_nil_iff.1 h')
  obtain ⟨c, cs, htext⟩ := List.exists_cons_of_ne_nil hne
  rw [isAbsolute, isAbsolute, toList_text_sibling, htext, List.cons_append, List.head?_cons,
    List.head?_cons]

theorem endsInSlash_sibling (p : Path) {suffix : String} (hne : suffix ≠ "")
    (hslash : '/' ∉ suffix.toList) : (p.sibling suffix).endsInSlash = false := by
  have hne : suffix.toList ≠ [] := fun h => hne (String.toList_eq_nil_iff.1 h)
  rw [endsInSlash, toList_text_sibling, List.getLast?_append, List.getLast?_eq_some_getLast hne,
    Option.some_or, beq_eq_false_iff_ne]
  exact fun h => hslash (Option.some.inj h ▸ List.getLast_mem hne)

end Path

namespace FileTree

/-- The steps in a text. -/
def segments (cs : List Char) : List String :=
  ((cs.splitOn '/').filter (!·.isEmpty)).map String.ofList

theorem stepsOf_eq_segments (p : Path) : stepsOf p = segments p.text.toList := by
  rw [stepsOf, segments, Path.splitSlashes_eq_splitOn]

theorem segments_append_slash (cs ds : List Char) :
    segments (cs ++ '/' :: ds) = segments cs ++ segments ds := by
  rw [segments, List.splitOn_append_cons_self, List.filter_append, List.map_append]
  rfl

theorem segments_of_not_mem {cs : List Char} (hne : cs ≠ []) (h : '/' ∉ cs) :
    segments cs = [String.ofList cs] := by
  rw [segments, List.splitOn_eq_singleton h]
  simp [hne]

theorem segments_nil : segments [] = [] := rfl

/-- The steps of a path that ends in no slash, and those of all its siblings. -/
structure SiblingSteps (p : Path) (before : List String) (last : String) : Prop where
  text_ne : p.text ≠ ""
  last_ne : last ≠ ""
  sibling : ∀ suffix : String, '/' ∉ suffix.toList →
    stepsOf (p.sibling suffix) = before ++ [last ++ suffix]

/-- **The steps of the siblings of a path** are its own, but for what is put after the last one. -/
theorem exists_siblingSteps {p : Path} (htext : p.text ≠ "") (hslash : p.endsInSlash = false) :
    ∃ before last, SiblingSteps p before last := by
  have hne : p.text.toList ≠ [] := fun h => htext (String.toList_eq_nil_iff.1 h)
  obtain ⟨front, segment, hsplit, hsegment, hfront⟩ := Path.exists_last_segment p.text.toList
  have hlast : segment ≠ [] := by
    rintro rfl
    rw [List.append_nil] at hsplit
    rcases hfront with rfl | ⟨f, rfl⟩
    · exact hne hsplit
    · simp [Path.endsInSlash, hsplit] at hslash
  refine ⟨segments front, String.ofList segment, htext, ?_, fun suffix hsuffix => ?_⟩
  · exact fun h => hlast (by simpa using congrArg String.toList h)
  · have hseg : segments (segment ++ suffix.toList) = [String.ofList segment ++ suffix] := by
      rw [segments_of_not_mem (by simp [hlast]) (by simp [hsegment, hsuffix])]
      simp
    rw [stepsOf_eq_segments, Path.toList_text_sibling, hsplit, List.append_assoc, ← hseg]
    rcases hfront with rfl | ⟨f, rfl⟩
    · rfl
    · rw [List.append_assoc, List.singleton_append, segments_append_slash, segments_append_slash,
        segments_nil, List.append_nil]

theorem SiblingSteps.steps {p : Path} {before : List String} {last : String}
    (h : SiblingSteps p before last) : stepsOf p = before ++ [last] := by
  have hself : p.sibling "" = p := by rw [Path.sibling, String.append_empty]
  have hsteps := h.sibling "" List.not_mem_nil
  rwa [hself, String.append_empty] at hsteps

end FileTree

end Pagewright

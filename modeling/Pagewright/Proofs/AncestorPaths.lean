import Pagewright.Proofs.Parents

/-!
# The ancestors of a path

The ancestors of a path are the path itself and those of its parent (`ancestors_of_parent`), and a
parent is shorter, so what a path inherits from its parent holds of all paths (`parent_induction`).
Without idle steps there is one ancestor for each front part of the steps
(`exists_mem_ancestors`), and only a root ends in a slash (`endsInSlash_of_parent?`).
-/

namespace Pagewright.Path

open FileTree (stepsOf)

variable {p q : Path}

theorem length_lt_of_parent? (h : p.parent? = some q) : q.text.length < p.text.length := by
  obtain ⟨⟨rest, hrest, htext⟩, -⟩ := parent?_eq_some h
  have hlength := congrArg List.length htext
  rw [List.length_append, String.length_toList, String.length_toList] at hlength
  have hpos := List.length_pos_iff.2 hrest
  omega

/-- **Induction along parents**: from a path without a parent up to those below it. -/
theorem parent_induction {motive : Path → Prop} (alone : ∀ p, p.parent? = none → motive p)
    (below : ∀ p q, p.parent? = some q → motive q → motive p) (p : Path) : motive p :=
  match hp : p.parent? with
  | none => alone p hp
  | some q => below p q hp (parent_induction alone below q)
termination_by p.text.length
decreasing_by exact length_lt_of_parent? hp

/-! ## Listing them -/

/-- As many steps up as a path has characters are enough. -/
theorem ancestorsWithin_eq {fuel : Nat} (h : p.text.length ≤ fuel) :
    p.ancestorsWithin fuel = p.ancestors := by
  unfold ancestors
  induction p using parent_induction generalizing fuel with
  | alone p hp =>
    have hstop : ∀ n, p.ancestorsWithin n = [p] := fun n => by cases n <;> simp [ancestorsWithin, hp]
    rw [hstop, hstop]
  | below p q hq ih =>
    have hlt := length_lt_of_parent? hq
    obtain ⟨m, hm⟩ : ∃ m, p.text.length = m + 1 := ⟨p.text.length - 1, by omega⟩
    obtain ⟨n, rfl⟩ : ∃ n, fuel = n + 1 := ⟨fuel - 1, by omega⟩
    rw [hm, ancestorsWithin, ancestorsWithin, hq]
    simp only
    rw [ih (show q.text.length ≤ n by omega), ih (show q.text.length ≤ m by omega)]

theorem ancestors_of_parent (h : p.parent? = some q) : p.ancestors = p :: q.ancestors := by
  have hlt := length_lt_of_parent? h
  obtain ⟨m, hm⟩ : ∃ m, p.text.length = m + 1 := ⟨p.text.length - 1, by omega⟩
  rw [ancestors, hm, ancestorsWithin, h]
  simp only
  rw [ancestorsWithin_eq (by omega)]

theorem ancestors_of_no_parent (h : p.parent? = none) : p.ancestors = [p] := by
  rw [ancestors]
  cases p.text.length <;> simp [ancestorsWithin, h]

/-- The text of an ancestor is a front part of that of the path. -/
theorem text_of_mem_ancestors (h : q ∈ p.ancestors) :
    q = p ∨ ∃ rest, rest ≠ [] ∧ p.text.toList = q.text.toList ++ rest := by
  induction p using parent_induction with
  | alone p hp =>
    rw [ancestors_of_no_parent hp, List.mem_singleton] at h
    exact .inl h
  | below p r hr ih =>
    rw [ancestors_of_parent hr] at h
    rcases List.mem_cons.1 h with rfl | h
    · exact .inl rfl
    · obtain ⟨⟨rest, hrest, htext⟩, -⟩ := parent?_eq_some hr
      rcases ih h with rfl | ⟨rest', -, htext'⟩
      · exact .inr ⟨rest, hrest, htext⟩
      · exact .inr ⟨rest' ++ rest, by simp [hrest], by rw [htext, htext', List.append_assoc]⟩

/-- The steps of a path without idle ones are those of its parent and one more. -/
theorem stepsOf_eq_of_parent? (hidle : "." ∉ stepsOf p) (h : p.parent? = some q) :
    ∃ s, stepsOf p = stepsOf q ++ [s] := by
  obtain ⟨-, -, -, idles, s, idles', hsteps, hidles, hidles'⟩ := parent?_eq_some h
  have hnil : ∀ {is : List String}, (∀ i ∈ is, i = ".") → (∀ i ∈ is, i ∈ stepsOf p) → is = [] :=
    fun hall hmem => List.eq_nil_iff_forall_not_mem.2 fun i hi => hidle (hall i hi ▸ hmem i hi)
  obtain rfl := hnil hidles fun i hi => by rw [hsteps]; simp [hi]
  obtain rfl := hnil hidles' fun i hi => by rw [hsteps]; simp [hi]
  exact ⟨s, by simpa using hsteps⟩

/-- **An ancestor for each front part** of the steps of a path. -/
theorem exists_mem_ancestors {ss : List String} (hidle : "." ∉ stepsOf p)
    (h : ss <+: stepsOf p) : ∃ q ∈ p.ancestors, stepsOf q = ss := by
  induction p using parent_induction with
  | alone p hp =>
    have hnil : stepsOf p = [] :=
      List.eq_nil_iff_forall_not_mem.2 fun s hs => hidle (parent?_eq_none hp s hs ▸ hs)
    rw [hnil, List.prefix_nil] at h
    exact ⟨p, by simp [ancestors_of_no_parent hp], hnil.trans h.symm⟩
  | below p q hq ih =>
    obtain ⟨s, hs⟩ := stepsOf_eq_of_parent? hidle hq
    rw [ancestors_of_parent hq]
    rw [hs] at h
    rcases List.prefix_concat_iff.1 h with rfl | h
    · exact ⟨p, List.mem_cons_self, hs⟩
    · obtain ⟨r, hr, hss⟩ := ih (fun hmem => hidle (hs ▸ List.mem_append_left _ hmem)) h
      exact ⟨r, List.mem_cons_of_mem _ hr, hss⟩

/-! ## Slashes at the end -/

theorem getLast?_append_of_ne_nil {cs : List Char} (hne : cs ≠ []) (front : List Char) :
    (front ++ cs).getLast? = cs.getLast? := by
  rw [List.getLast?_append, List.getLast?_eq_some_getLast hne, Option.some_or]

theorem getLast?_joinSlashes (ss : List (List Char)) {s : List Char} (hne : s ≠ []) :
    (joinSlashes (ss ++ [s])).getLast? = s.getLast? := by
  cases ss with
  | nil => rfl
  | cons r ss =>
    rw [joinSlashes_append (List.cons_ne_nil r ss) (List.cons_ne_nil s []), joinSlashes,
      getLast?_append_of_ne_nil (List.cons_ne_nil '/' s), ← List.singleton_append,
      getLast?_append_of_ne_nil hne]

/-- A parent that goes anywhere ends in a name. -/
theorem endsInSlash_of_parent? (h : p.parent? = some q) (hsteps : stepsOf q ≠ []) :
    q.endsInSlash = false := by
  obtain ⟨front, segs, hstem⟩ : ∃ front segs, p.stem = (front, segs) := ⟨_, _, rfl⟩
  obtain ⟨-, hslash, hfront⟩ := stem_spec hstem
  unfold parent? at h
  simp only [hstem] at h
  split at h
  · split at h
    · obtain rfl := Option.some.inj h
      exact absurd rfl hsteps
    · cases h
  · next x rest hcons =>
    obtain rfl := Option.some.inj h
    have hmem : ∀ s ∈ rest.dropWhile isIdle, s ∈ segs := fun s hs =>
      (List.dropWhile_sublist isIdle).subset
        (hcons ▸ List.mem_cons_of_mem x ((List.dropWhile_sublist isIdle).subset hs))
    obtain ⟨-, -, -, hhead⟩ := exists_dropWhile_isIdle rest
    rw [endsInSlash, String.toList_ofList, beq_eq_false_iff_ne]
    generalize rest.dropWhile isIdle = kept at hsteps hmem hhead ⊢
    cases kept with
    | nil =>
      rcases hfront with rfl | ⟨rfl, -⟩ | ⟨rfl, -⟩
      · exact absurd rfl hsteps
      · decide
      · decide
    | cons s ss =>
      have hne : s ≠ [] := by
        rintro rfl
        exact absurd (hhead [] ss rfl) (by decide)
      have hlast : joinSlashes (ss.reverse ++ [s]) ≠ [] := by
        intro hnil
        have := getLast?_joinSlashes ss.reverse hne
        rw [hnil, List.getLast?_eq_some_getLast hne] at this
        cases this
      rw [List.reverse_cons, getLast?_append_of_ne_nil hlast, getLast?_joinSlashes _ hne]
      exact fun h => hslash s (hmem s List.mem_cons_self) (List.mem_of_getLast? h)

end Pagewright.Path

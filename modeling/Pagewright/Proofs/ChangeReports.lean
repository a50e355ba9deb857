import Pagewright.Proofs.CutTexts
import Pagewright.Proofs.Growth

/-!
# Reports of a change

A verified replacement that finds a change reports the first offset at which the previous version
and the new content differ, and a window of either around it. The two windows begin at the same
place and agree up to the offset (`pinpoints_of_isFirstMismatch`). A window may cut characters at
both ends, and the offset may be inside one; with four bytes or more on each side the characters
that differ are whole in both windows, so that the reported texts differ as well. In every run the
previous version is what was at the target (`changed_report_pinpoints`).
-/

namespace Pagewright

open Text FileTree
open FileProgram (Ends)

section Windows

variable {as bs content : Bytes} {offset width : Nat}

/-! ## The first mismatch -/

/-- The least offset at which two contents differ or one of them ends. -/
structure IsFirstMismatch (as bs : Bytes) (offset : Nat) : Prop where
  differ : as[offset]? ≠ bs[offset]?
  same : ∀ i < offset, as[i]? = bs[i]?

namespace IsFirstMismatch

theorem zero (h : as.head? ≠ bs.head?) : IsFirstMismatch as bs 0 :=
  ⟨by rwa [List.head?_eq_getElem?, List.head?_eq_getElem?] at h, nofun⟩

theorem cons (h : IsFirstMismatch as bs offset) (b : UInt8) :
    IsFirstMismatch (b :: as) (b :: bs) (offset + 1) := by
  refine ⟨h.differ, fun i hi => ?_⟩
  cases i with
  | zero => rfl
  | succ i => exact h.same i (by omega)

theorem of_firstMismatch (h : firstMismatch as bs = some offset) :
    IsFirstMismatch as bs offset := by
  induction as generalizing bs offset with
  | nil =>
    cases bs with
    | nil => cases h
    | cons b bs =>
      cases h
      exact .zero nofun
  | cons a as ih =>
    cases bs with
    | nil =>
      cases h
      exact .zero nofun
    | cons b bs =>
      rw [firstMismatch] at h
      split at h
      · next hab =>
        subst hab
        obtain ⟨k, hk, rfl⟩ := Option.map_eq_some_iff.1 h
        exact (ih hk).cons a
      · next hab =>
        cases h
        exact .zero fun heq => hab (Option.some.inj heq)

variable (h : IsFirstMismatch as bs offset)

include h

theorem take_eq : as.take offset = bs.take offset := by
  refine List.ext_getElem? fun i => ?_
  rw [List.getElem?_take, List.getElem?_take]
  split
  · next hi => exact h.same i hi
  · rfl

/-- One of the contents goes on at the offset. -/
theorem le_length : offset ≤ as.length ∧ offset ≤ bs.length := by
  have hlength := congrArg List.length h.take_eq
  rw [List.length_take, List.length_take] at hlength
  have hsome : offset < as.length ∨ offset < bs.length := by
    by_cases has : offset < as.length
    · exact .inl has
    · refine .inr (Nat.lt_of_not_le fun hbs => h.differ ?_)
      rw [List.getElem?_eq_none (Nat.not_lt.1 has), List.getElem?_eq_none hbs]
  omega

end IsFirstMismatch

/-! ## Windows -/

/-- Where a window begins, in a content that may be shorter. -/
def windowStart (content : Bytes) (offset width : Nat) : Nat :=
  min (offset - width) content.length

/-- Where a window ends when no number is greater than `top`. -/
def windowEnd (top : Nat) (content : Bytes) (offset width : Nat) : Nat :=
  min (min (offset + width) top) content.length

/-- A window is a stretch of its content. -/
structure IsStretch (top : Nat) (content : Bytes) (offset width : Nat) : Prop where
  start_le : windowStart content offset width ≤ windowEnd top content offset width
  end_le : windowEnd top content offset width ≤ content.length
  window_eq : window content offset width =
    (content.take (windowEnd top content offset width)).drop (windowStart content offset width)

theorem isStretch {top : Nat} (htop : content.length ≤ top) (hoffset : offset ≤ content.length) :
    IsStretch top content offset width := by
  have hstart : windowStart content offset width = offset - width :=
    Nat.min_eq_left (by omega)
  refine ⟨by rw [hstart, windowEnd]; omega, Nat.min_le_right _ _, ?_⟩
  rw [hstart, window]
  rcases Nat.le_total (offset + width) content.length with hle | hle
  · have hend : windowEnd top content offset width = offset + width := by
      unfold windowEnd
      omega
    rw [hend]
  · have hend : windowEnd top content offset width = content.length := by
      unfold windowEnd
      omega
    rw [hend, List.take_length, List.take_of_length_le hle]

/-- What windows around the first mismatch of two contents show. -/
structure Pinpoints (as bs : Bytes) (offset width : Nat) : Prop where
  start_eq : windowStart as offset width = windowStart bs offset width
  before : (window as offset width).take (offset - windowStart as offset width) =
    (window bs offset width).take (offset - windowStart bs offset width)
  window_ne : 1 ≤ width → window as offset width ≠ window bs offset width
  excerpt_ne : 4 ≤ width → ∀ s r, as = Utf8.encode s → bs = Utf8.encode r →
    excerpt as offset width ≠ excerpt bs offset width

/-- A window before and after a place that two texts reach together. -/
theorem window_append {as bs : Bytes} {k : Nat} (hk : k ≤ width) :
    window (as ++ bs) (as.length + k) width =
      as.drop (as.length + k - width) ++ bs.take (k + width) := by
  have htake : as.length + k + width - as.length = k + width := by omega
  rw [window, List.take_append, List.take_of_length_le (by omega), htake,
    List.drop_append_of_le_length (by omega)]

/-- **The texts around the first mismatch** of two texts differ. -/
theorem IsFirstMismatch.excerpt_ne (h : IsFirstMismatch as bs offset) (hwidth : 4 ≤ width)
    {s r : String} (has : as = Utf8.encode s) (hbs : bs = Utf8.encode r) :
    excerpt as offset width ≠ excerpt bs offset width := by
  have hne : s.toList ≠ r.toList := by
    intro heq
    refine h.differ ?_
    rw [has, hbs, String.toList_inj.1 heq]
  obtain ⟨shared, xs, ys, hparts⟩ := Utf8.exists_parts hne
  rw [Utf8.encode, hparts.left, List.flatMap_append] at has
  rw [Utf8.encode, hparts.right, List.flatMap_append] at hbs
  -- The mismatch is inside the first characters that differ, or at their beginning.
  have hbound : ∃ k ≤ 3, offset = (shared.flatMap String.utf8EncodeChar).length + k := by
    have hleast : ¬ offset < (shared.flatMap String.utf8EncodeChar).length := by
      intro hlt
      refine h.differ ?_
      rw [has, hbs, List.getElem?_append_left hlt, List.getElem?_append_left hlt]
    refine ⟨offset - (shared.flatMap String.utf8EncodeChar).length, ?_, by omega⟩
    refine Nat.le_of_not_lt fun hlt => Utf8.take_four_ne_of_apart hparts.apart ?_
    have hsame := congrArg (List.drop (shared.flatMap String.utf8EncodeChar).length) h.take_eq
    rw [has, hbs, List.drop_take, List.drop_take, List.drop_left, List.drop_left] at hsame
    have hfour := congrArg (List.take 4) hsame
    rwa [List.take_take, List.take_take, Nat.min_eq_left (by omega)] at hfour
  obtain ⟨k, hk, rfl⟩ := hbound
  rw [excerpt, excerpt, has, hbs, window_append (by omega), window_append (by omega)]
  exact Utf8.decodeLossy_ne_of_apart hparts.apart (by omega) shared _

theorem pinpoints_of_isFirstMismatch (h : IsFirstMismatch as bs offset) (width : Nat) :
    Pinpoints as bs offset width := by
  obtain ⟨has, hbs⟩ := h.le_length
  have hstart : ∀ {content : Bytes}, offset ≤ content.length →
      windowStart content offset width = offset - width := fun hle => Nat.min_eq_left (by omega)
  have hoffset : offset - width + (offset - (offset - width)) = offset := by omega
  refine ⟨by rw [hstart has, hstart hbs], ?_, fun hwidth heq => ?_,
    fun hwidth s r has hbs => h.excerpt_ne hwidth has hbs⟩
  · have hbefore : ∀ content : Bytes,
        (window content offset width).take (offset - (offset - width)) =
          (content.take offset).drop (offset - width) := by
      intro content
      rw [window, List.take_drop, hoffset, List.take_take, Nat.min_eq_left (by omega)]
    rw [hstart has, hstart hbs, hbefore, hbefore, h.take_eq]
  · -- The windows have the bytes at the offset at the same place.
    have hat : ∀ content : Bytes,
        (window content offset width)[offset - (offset - width)]? = content[offset]? := by
      intro content
      rw [window, List.getElem?_drop, hoffset, List.getElem?_take_of_lt (by omega)]
    exact h.differ (by rw [← hat as, heq, hat bs])

end Windows

/-! ## Replacements -/

section Replacements

variable {t t' td : FileTree} {target backup : Path} {previous new : Bytes}

/-- A backup that differs from the new content is the file that was at the target. -/
theorem MakesRoom.get?_target (hroom : MakesRoom target backup t true t')
    (hwrite : t'.write target new = .ok td) (hread : td.read backup = .ok previous)
    (hne : previous ≠ new) : t.get? (t.destination target) = some (.file previous) := by
  obtain ⟨ta, tb, kind, ls, hgrows, -, cleared, hroot, hroot', hrenamed, hstart⟩ :=
    hroom.exists_renamed
  obtain ⟨-, -, htd⟩ := write_eq_ok hwrite
  rw [destination_eq hstart] at htd
  have hstart' : td.workingDirectory = t.workingDirectory := by
    rw [htd]
    exact hstart
  have hfile := get?_of_read hread
  rw [destination_eq hstart', htd, get?_insert hroot] at hfile
  have hother : t.destination target ≠ t.destination backup := by
    intro heq
    rw [if_pos heq] at hfile
    exact hne (Entry.file.inj (Option.some.inj hfile)).symm
  rw [if_neg hother] at hfile
  have hmoved : tb.get? (t.destination target) = some (.file previous) := by
    cases hrenamed with
    | same here => exact absurd here hother
    | file other moved free =>
      rw [get?_insert hroot', if_pos rfl] at hfile
      rwa [Entry.file.inj (Option.some.inj hfile)] at moved
    | directory moved outside apart empty =>
      obtain ⟨hthere, -⟩ :=
        (Renamed.directory moved outside apart empty).of_directory hroot hroot' moved
      rw [hthere] at hfile
      cases hfile
  rw [cleared.get?_eq (by rw [hgrows.destination_eq]; exact Ne.symm hother)] at hmoved
  rw [← hgrows.get?_eq_of_ne (ne_directory_of_file hmoved), hmoved]

/-- A replacement that reports a change shows the windows of what was at the target and of the new
content, at their first mismatch. -/
theorem exists_previous_of_changed {text : String} {verify : Bool} {options : ReplaceOptions}
    {p q : Path} {offset : Nat} {expected actual : String}
    (h : Ends t (replaceFile target text verify options).run
      (.error (.changed p q offset expected actual)) t') : ∃ previous,
    t.get? (t.destination target) = some (.file previous) ∧
      firstMismatch previous (Utf8.encode text) = some offset ∧
        expected = excerpt previous offset options.contextBytes ∧
          actual = excerpt (Utf8.encode text) offset options.contextBytes := by
  cases replaceFile_ends h with
  | noAncestors ancestors =>
    rcases Replacing.ends_makeAncestors ancestors with hok | ⟨⟨p, heq⟩, -⟩ | ⟨p, e, -, heq⟩
    · cases hok
    · cases heq
    · cases heq
  | compared room verified wrote rest =>
    cases rest with
    | @putBack previous _ _ _ _ read cleared aside back differs =>
      have hne : previous ≠ Utf8.encode text := by
        rintro rfl
        rw [firstMismatch_eq_none_iff.2 rfl] at differs
        cases differs
      exact ⟨previous, room.get?_target wrote read hne, differs, rfl, rfl⟩

end Replacements

/-- **A change report pinpoints a visible difference.** Contents that differ do so first at the
reported offset. The windows around it are stretches of the contents, begin at the same place, agree
up to the offset and differ, and of two texts the decoded windows differ as well. A replacement that
reports a change shows these windows of what was at the target and of the new content. -/
theorem changed_report_pinpoints :
    (∀ as bs : Bytes, firstMismatch as bs = none ↔ as = bs) ∧
      (∀ as bs : Bytes, as ≠ bs → ∃ offset, firstMismatch as bs = some offset ∧
        IsFirstMismatch as bs offset ∧ ∀ width, Pinpoints as bs offset width ∧
          ∀ top, as.length ≤ top → bs.length ≤ top →
            IsStretch top as offset width ∧ IsStretch top bs offset width) ∧
      ∀ (t t' : FileTree) (target : Path) (text : String) (verify : Bool)
        (options : ReplaceOptions) (p q : Path) (offset : Nat) (expected actual : String),
        Ends t (replaceFile target text verify options).run
          (.error (.changed p q offset expected actual)) t' →
        ∃ previous, t.get? (t.destination target) = some (.file previous) ∧
          firstMismatch previous (Utf8.encode text) = some offset ∧
          expected = excerpt previous offset options.contextBytes ∧
          actual = excerpt (Utf8.encode text) offset options.contextBytes ∧
          (4 ≤ options.contextBytes → ∀ s, previous = Utf8.encode s → expected ≠ actual) := by
  refine ⟨fun _ _ => firstMismatch_eq_none_iff, fun as bs hne => ?_, ?_⟩
  · obtain ⟨offset, hoffset⟩ :=
      Option.ne_none_iff_exists'.1 (mt firstMismatch_eq_none_iff.1 hne)
    have hfirst := IsFirstMismatch.of_firstMismatch hoffset
    obtain ⟨has, hbs⟩ := hfirst.le_length
    exact ⟨offset, hoffset, hfirst, fun width => ⟨pinpoints_of_isFirstMismatch hfirst width,
      fun top htop htop' => ⟨isStretch htop has, isStretch htop' hbs⟩⟩⟩
  · intro t t' target text verify options p q offset expected actual h
    obtain ⟨previous, hprevious, hoffset, rfl, rfl⟩ := exists_previous_of_changed h
    exact ⟨previous, hprevious, hoffset, rfl, rfl, fun hwidth s hs =>
      (IsFirstMismatch.of_firstMismatch hoffset).excerpt_ne hwidth hs rfl⟩

/-- The offset is inside a character, and the windows begin inside another one. -/
theorem changed_report_pinpoints_inside_characters :
    let t : FileTree := ⟨.ofList [(["p"], Entry.file (Utf8.encode "€aï€"))], []⟩
    let result := (replaceFile ⟨"p"⟩ "€aî€" true { contextBytes := 4 }).run.run t
    ∃ expected actual,
      result.1 = .error (.changed ⟨"p"⟩ ⟨"p.new"⟩ 5 expected actual) ∧ expected ≠ actual := by
  intro t result
  have hresult : result.1 =
      .error (.changed ⟨"p"⟩ ⟨"p.new"⟩ 5 "\uFFFD\uFFFDaï€" "\uFFFD\uFFFDaî€") := by
    rfl
  have hends := FileProgram.ends_of_run (t := t) (Prod.ext hresult rfl)
  obtain ⟨previous, hprevious, -, -, -, hne⟩ :=
    changed_report_pinpoints.2.2 _ _ _ _ _ _ _ _ _ _ _ hends
  have hfile : t.get? (t.destination ⟨"p"⟩) = some (.file (Utf8.encode "€aï€")) := by
    rfl
  rw [hfile] at hprevious
  exact ⟨_, _, hresult, hne (by decide) _ (Entry.file.inj (Option.some.inj hprevious)).symm⟩

end Pagewright

import Mathlib.Data.List.DropRight
import Pagewright.Directive.Match

/-!
# The loose form of a line

A `LooseForm` is one way of cutting a line into the parts of its loose form. A line may be cut in
several ways, because blanks before `-->` and at the end of the line may also stand before an empty
argument; but all of them say the same (`LooseForm.directive`). The scan of a line finds what they
say and fails only when there are none (`match?_iff_looseForm`): the first character of each part
cannot continue the part before it, so taking each part as long as it can go takes nothing from the
next one.
-/

namespace Pagewright

open Text

/-! ## Characters of names -/

theorem isBlank_of_isNameChar {c : Char} (h : isNameChar c = true) : isBlank c = false := by
  have range : c.toNat = 95 ∨ (65 ≤ c.toNat ∧ c.toNat ≤ 90 ∨ 97 ≤ c.toNat ∧ c.toNat ≤ 122) ∨
      48 ≤ c.toNat ∧ c.toNat ≤ 57 := by
    have h : (c == '_' || (decide ('A'.val ≤ c.val ∧ c.val ≤ 'Z'.val) ||
        (decide ('a'.val ≤ c.val) && decide (c.val ≤ 'z'.val)) ||
        (decide ('0'.val ≤ c.val) && decide (c.val ≤ '9'.val)))) = true := h
    simp only [Bool.or_eq_true, Bool.and_eq_true, decide_eq_true_eq, beq_iff_eq,
      UInt32.le_iff_toNat_le] at h
    rcases h with rfl | h
    · exact Or.inl rfl
    · exact Or.inr h
  simp only [isBlank, Bool.or_eq_false_iff, Bool.and_eq_false_iff, decide_eq_false_iff_not,
    beq_eq_false_iff_ne]
  omega

theorem isNameChar_of_isBlank {c : Char} (h : isBlank c = true) : isNameChar c = false := by
  cases hc : isNameChar c with
  | false => rfl
  | true => rw [isBlank_of_isNameChar hc] at h; cases h

/-- An identifier starts with a character that may start one and has no other characters than those
of identifiers. -/
theorem exists_of_isIdentifier {cs : List Char} (h : isIdentifier cs = true) :
    ∃ c ds, cs = c :: ds ∧ isNameStart c = true ∧ ∀ a ∈ cs, isNameChar a = true := by
  cases cs with
  | nil => cases h
  | cons c ds =>
    simp only [isIdentifier, Bool.and_eq_true, List.all_eq_true] at h
    refine ⟨c, ds, rfl, h.1, fun a ha => ?_⟩
    rcases List.mem_cons.1 ha with rfl | ha
    · exact isNameChar_of_isNameStart h.1
    · exact h.2 a ha

theorem isIdentifier_takeWhile {c : Char} (cs : List Char) (h : isNameStart c = true) :
    isIdentifier ((c :: cs).takeWhile isNameChar) = true := by
  rw [List.takeWhile_cons_of_pos (isNameChar_of_isNameStart h), isIdentifier, h, Bool.true_and]
  exact List.all_takeWhile

/-- A run of name characters ends where another character follows. -/
theorem span_isNameChar {cs rest : List Char} (hcs : ∀ c ∈ cs, isNameChar c = true)
    (hrest : ∀ c ∈ rest.head?, isNameChar c = false) :
    (cs ++ rest).takeWhile isNameChar = cs ∧ (cs ++ rest).dropWhile isNameChar = rest := by
  rw [List.takeWhile_append_of_pos hcs, List.dropWhile_append_of_pos hcs]
  cases rest with
  | nil => exact ⟨List.append_nil cs, rfl⟩
  | cons c rest =>
    have hc : isNameChar c = false := hrest c rfl
    simp [hc]

/-! ## Blanks -/

theorem dropBlanks_cons {c : Char} (cs : List Char) (h : isBlank c = false) :
    dropBlanks (c :: cs) = c :: cs := by
  simp [dropBlanks, h]

theorem dropBlanks_blanks_append {bs : List Char} (h : ∀ b ∈ bs, isBlank b = true)
    (cs : List Char) : dropBlanks (bs ++ cs) = dropBlanks cs :=
  List.dropWhile_append_of_pos h

theorem dropBlanks_eq_nil_iff {cs : List Char} :
    dropBlanks cs = [] ↔ ∀ b ∈ cs, isBlank b = true :=
  List.dropWhile_eq_nil_iff

theorem dropBlanks_dropBlanks (cs : List Char) : dropBlanks (dropBlanks cs) = dropBlanks cs :=
  List.dropWhile_idempotent isBlank cs

/-- The blanks in front of a text. -/
theorem exists_blanks_append (cs : List Char) :
    ∃ bs, (∀ b ∈ bs, isBlank b = true) ∧ bs ++ dropBlanks cs = cs :=
  ⟨cs.takeWhile isBlank, fun _ => List.mem_takeWhile_imp, List.takeWhile_append_dropWhile⟩

namespace Directive

/-! ## Marks -/

theorem takeMark_append (mark cs : List Char) : takeMark mark (mark ++ cs) = (true, cs) := by
  simp [takeMark, afterMark?]

theorem takeMark_of_head_ne {mark cs : List Char} (hmark : mark ≠ [])
    (h : cs.head? ≠ mark.head?) : takeMark mark cs = (false, cs) := by
  cases mark with
  | nil => exact absurd rfl hmark
  | cons m mark =>
    cases cs with
    | nil => rfl
    | cons c cs =>
      have hmc : (m == c) = false := by
        rw [beq_eq_false_iff_ne]
        rintro rfl
        exact h rfl
      simp [takeMark, afterMark?, List.isPrefixOf, hmc]

/-- A mark is taken where it stands and only there. -/
theorem takeMark_ite (mark cs : List Char) (present : Bool) (hmark : mark ≠ [])
    (h : cs.head? ≠ mark.head?) :
    takeMark mark ((if present then mark else []) ++ cs) = (present, cs) := by
  cases present with
  | true => exact takeMark_append mark cs
  | false => exact takeMark_of_head_ne hmark h

/-- Nothing but the mark is taken. -/
theorem eq_of_takeMark {mark cs rest : List Char} {present : Bool}
    (h : takeMark mark cs = (present, rest)) : (if present then mark else []) ++ rest = cs := by
  unfold takeMark afterMark? at h
  cases hmark : mark.isPrefixOf cs with
  | false =>
    rw [hmark] at h
    cases h
    rfl
  | true =>
    rw [hmark] at h
    cases h
    exact List.prefix_iff_eq_append.1 (List.isPrefixOf_iff_prefix.1 hmark)

/-! ## The steps of the scan -/

/-- **The scan, step by step**: the rests of the line after the two opening marks, after `]` and
after `-->`. -/
theorem scan_eq_some_iff {line : List Char} {d : Directive} :
    scan line = some d ↔ ∃ afterStart named afterSection afterEnd,
      takeMark commentStart (dropBlanks line) = (d.startsComment, afterStart) ∧
      takeMark ['['] (dropBlanks afterStart) = (d.startsSection, named) ∧
      named.head?.any isNameStart = true ∧
      d.name = String.ofList (named.takeWhile isNameChar) ∧
      takeMark [']'] ((dropBlanks (named.dropWhile isNameChar)).dropWhile isNameChar) =
        (d.endsSection, afterSection) ∧
      takeMark commentEnd (dropBlanks afterSection) = (d.endsComment, afterEnd) ∧
      dropBlanks afterEnd = [] ∧ d.addressesSlot = (NameKind.of d.name == .slot) ∧
      d.value =
        let word := (dropBlanks (named.dropWhile isNameChar)).takeWhile isNameChar
        if word.isEmpty then none else some (String.ofList word) := by
  constructor
  · intro h
    unfold scan at h
    generalize takeMark commentStart (dropBlanks line) = comment at h ⊢
    obtain ⟨startsComment, afterStart⟩ := comment
    dsimp only at h
    generalize hsection : takeMark ['['] (dropBlanks afterStart) = opening at h
    obtain ⟨startsSection, named⟩ := opening
    dsimp only at h
    cases named with
    | nil => cases h
    | cons c cs =>
      dsimp only at h
      split at h
      · next hstart =>
        split at h
        · next hempty =>
          cases h
          exact ⟨_, _, _, _, rfl, hsection, hstart, rfl, rfl, rfl, List.isEmpty_iff.1 hempty,
            rfl, rfl⟩
        · cases h
      · cases h
  · rintro ⟨afterStart, named, afterSection, afterEnd, hcomment, hsection, hstart, hname, hend,
      hclose, hempty, hslot, hvalue⟩
    cases named with
    | nil => cases hstart
    | cons c cs =>
      have hstart : isNameStart c = true := hstart
      simp only [scan, hcomment, hsection, hstart, ← hname, hend, hclose, hempty, ← hslot]
      rw [← hvalue]
      rfl

/-- The parts of a line in the loose form, from left to right: blanks, `<!--` and blanks, `[`, the
name, blanks and a word, `]`, blanks and `-->`, blanks. All but the name may be missing. -/
structure LooseForm where
  front : List Char := []
  /-- The blanks after the comment's start, when it is there. -/
  afterStart? : Option (List Char) := none
  startsSection : Bool := false
  name : List Char
  /-- The argument with the blanks before it, when it is there. -/
  argument? : Option (List Char × List Char) := none
  endsSection : Bool := false
  /-- The blanks before the comment's end, when it is there. -/
  beforeEnd? : Option (List Char) := none
  back : List Char := []
  blank_front : ∀ b ∈ front, isBlank b = true := by simp [isBlank]
  blank_afterStart : ∀ bs ∈ afterStart?, ∀ b ∈ bs, isBlank b = true := by simp [isBlank]
  isIdentifier_name : isIdentifier name = true := by decide
  argument_ne_nil : ∀ a ∈ argument?, a.1 ≠ [] := by simp
  blank_argument : ∀ a ∈ argument?, ∀ b ∈ a.1, isBlank b = true := by simp [isBlank]
  isNameChar_argument : ∀ a ∈ argument?, ∀ c ∈ a.2, isNameChar c = true := by simp
  blank_beforeEnd : ∀ bs ∈ beforeEnd?, ∀ b ∈ bs, isBlank b = true := by simp [isBlank]
  blank_back : ∀ b ∈ back, isBlank b = true := by simp [isBlank]

namespace LooseForm

variable (p : LooseForm)

/-- The word of the argument, empty when there is none. -/
def word : List Char :=
  p.argument?.elim [] Prod.snd

/-! `fromEnd` and so on are what is left of the line after the parts before. -/

def fromEnd : List Char :=
  p.beforeEnd?.elim [] (· ++ commentEnd) ++ p.back

def fromSectionEnd : List Char :=
  (if p.endsSection then [']'] else []) ++ p.fromEnd

def fromArgument : List Char :=
  p.argument?.elim [] (fun a => a.1 ++ a.2) ++ p.fromSectionEnd

def fromName : List Char :=
  p.name ++ p.fromArgument

def fromSection : List Char :=
  (if p.startsSection then ['['] else []) ++ p.fromName

/-- The line. -/
def chars : List Char :=
  p.front ++ (p.afterStart?.elim [] (commentStart ++ ·) ++ p.fromSection)

/-- What the line says: the marks that it has, the name and the word that is not empty. -/
def directive : Directive where
  startsComment := p.afterStart?.isSome
  endsComment := p.beforeEnd?.isSome
  startsSection := p.startsSection
  endsSection := p.endsSection
  addressesSlot := NameKind.of (String.ofList p.name) == .slot
  name := String.ofList p.name
  value := if p.word.isEmpty then none else some (String.ofList p.word)

/-! ## Every loose form is scanned -/

theorem head?_fromName : ∃ c, p.fromName.head? = some c ∧ isNameStart c = true := by
  obtain ⟨c, cs, hname, hstart, -⟩ := exists_of_isIdentifier p.isIdentifier_name
  exact ⟨c, by rw [fromName, hname]; rfl, hstart⟩

/-- From the section on nothing is blank at first, and no comment begins. -/
theorem head?_fromSection :
    ∃ c, p.fromSection.head? = some c ∧ isBlank c = false ∧ c ≠ '<' := by
  unfold fromSection
  cases p.startsSection with
  | true => exact ⟨'[', rfl, by decide, by decide⟩
  | false =>
    obtain ⟨c, hc, hstart⟩ := p.head?_fromName
    refine ⟨c, hc, isBlank_of_isNameChar (isNameChar_of_isNameStart hstart), ?_⟩
    rintro rfl
    cases hstart

theorem dropBlanks_fromSection : dropBlanks p.fromSection = p.fromSection := by
  obtain ⟨c, hc, hblank, -⟩ := p.head?_fromSection
  obtain ⟨cs, hcs⟩ := List.head?_eq_some_iff.1 hc
  rw [hcs]
  exact dropBlanks_cons cs hblank

theorem takeMark_chars : ∃ rest,
    takeMark commentStart (dropBlanks p.chars) = (p.afterStart?.isSome, rest) ∧
      dropBlanks rest = p.fromSection := by
  rw [chars, dropBlanks_blanks_append p.blank_front]
  cases h : p.afterStart? with
  | some bs =>
    refine ⟨bs ++ p.fromSection, rfl, ?_⟩
    rw [dropBlanks_blanks_append (p.blank_afterStart bs h), p.dropBlanks_fromSection]
  | none =>
    obtain ⟨c, hc, -, hmark⟩ := p.head?_fromSection
    refine ⟨p.fromSection, ?_, p.dropBlanks_fromSection⟩
    rw [Option.elim_none, List.nil_append, p.dropBlanks_fromSection]
    exact takeMark_of_head_ne (by decide) (by rw [hc]; simpa [commentStart] using hmark)

theorem takeMark_fromSection : takeMark ['['] p.fromSection = (p.startsSection, p.fromName) := by
  obtain ⟨c, hc, hstart⟩ := p.head?_fromName
  refine takeMark_ite _ _ _ (by decide) ?_
  rw [hc]
  rintro ⟨⟩
  cases hstart

/-- What is left after `]` is blank or part of `-->`. -/
theorem mem_fromEnd {c : Char} (h : c ∈ p.fromEnd) : isBlank c = true ∨ c ∈ commentEnd := by
  rcases List.mem_append.1 h with h | h
  · cases hbefore : p.beforeEnd? with
    | none => rw [hbefore] at h; cases h
    | some bs =>
      rw [hbefore, Option.elim_some, List.mem_append] at h
      exact h.imp_left (p.blank_beforeEnd bs hbefore c)
  · exact Or.inl (p.blank_back c h)

theorem isNameChar_of_mem_fromEnd {c : Char} (h : c ∈ p.fromEnd) : isNameChar c = false := by
  rcases p.mem_fromEnd h with hblank | hend
  · exact isNameChar_of_isBlank hblank
  · simp only [commentEnd, List.mem_cons, List.not_mem_nil, or_false] at hend
    rcases hend with rfl | rfl | rfl <;> decide

theorem not_mem_fromEnd : ']' ∉ p.fromEnd := fun h => by
  rcases p.mem_fromEnd h with hblank | hend
  · cases hblank
  · simp [commentEnd] at hend

theorem isNameChar_of_mem_fromSectionEnd {c : Char} (h : c ∈ p.fromSectionEnd) :
    isNameChar c = false := by
  rcases List.mem_append.1 h with h | h
  · split at h
    · obtain rfl := List.mem_singleton.1 h
      rfl
    · cases h
  · exact p.isNameChar_of_mem_fromEnd h

/-- The name is the longest run of name characters. -/
theorem span_fromName : p.fromName.takeWhile isNameChar = p.name ∧
    p.fromName.dropWhile isNameChar = p.fromArgument := by
  obtain ⟨-, -, -, -, hname⟩ := exists_of_isIdentifier p.isIdentifier_name
  refine span_isNameChar hname fun c hc => ?_
  unfold fromArgument at hc
  cases h : p.argument? with
  | none =>
    rw [h] at hc
    exact p.isNameChar_of_mem_fromSectionEnd (List.mem_of_mem_head? hc)
  | some a =>
    obtain ⟨b, bs, hblanks⟩ := List.exists_cons_of_ne_nil (p.argument_ne_nil a h)
    rw [h, Option.elim_some, hblanks] at hc
    obtain rfl : b = c := by simpa using hc
    exact isNameChar_of_isBlank (p.blank_argument a h b (hblanks ▸ List.mem_cons_self))

/-- Behind the blanks after the name stands the word. The blanks before `-->` are gone with them
when there is no word. -/
theorem dropBlanks_fromArgument : ∃ rest, dropBlanks p.fromArgument = p.word ++ rest ∧
    (rest = p.fromSectionEnd ∨ rest = dropBlanks p.fromSectionEnd) := by
  unfold fromArgument word
  cases h : p.argument? with
  | none => exact ⟨_, rfl, Or.inr rfl⟩
  | some a =>
    obtain ⟨bs, w⟩ := a
    rw [Option.elim_some, Option.elim_some, List.append_assoc,
      dropBlanks_blanks_append (p.blank_argument _ h)]
    cases w with
    | nil => exact ⟨_, rfl, Or.inr rfl⟩
    | cons c w =>
      have hc : isNameChar c = true := p.isNameChar_argument _ h c List.mem_cons_self
      exact ⟨_, dropBlanks_cons _ (isBlank_of_isNameChar hc), Or.inl rfl⟩

theorem isNameChar_of_mem_word {c : Char} (h : c ∈ p.word) : isNameChar c = true := by
  unfold word at h
  cases ha : p.argument? with
  | none => rw [ha] at h; cases h
  | some a => rw [ha] at h; exact p.isNameChar_argument a ha c h

theorem takeMark_fromSectionEnd {rest : List Char}
    (h : rest = p.fromSectionEnd ∨ rest = dropBlanks p.fromSectionEnd) :
    ∃ rest', takeMark [']'] rest = (p.endsSection, rest') ∧
      dropBlanks rest' = dropBlanks p.fromEnd := by
  unfold fromSectionEnd at h
  cases hends : p.endsSection with
  | true =>
    rw [hends] at h
    obtain rfl : rest = ']' :: p.fromEnd := h.elim id id
    exact ⟨_, rfl, rfl⟩
  | false =>
    rw [hends] at h
    have hrest : rest <:+ p.fromEnd := by
      rcases h with rfl | rfl
      · exact List.suffix_refl _
      · exact List.dropWhile_suffix _
    refine ⟨rest, takeMark_of_head_ne (by decide) fun hhead => ?_, ?_⟩
    · exact p.not_mem_fromEnd (hrest.mem (List.mem_of_mem_head? hhead))
    · rcases h with rfl | rfl
      · rfl
      · exact dropBlanks_dropBlanks _

theorem takeMark_fromEnd : ∃ rest,
    takeMark commentEnd (dropBlanks p.fromEnd) = (p.beforeEnd?.isSome, rest) ∧
      dropBlanks rest = [] := by
  have hback : dropBlanks p.back = [] := dropBlanks_eq_nil_iff.2 p.blank_back
  unfold fromEnd
  cases h : p.beforeEnd? with
  | none =>
    rw [Option.elim_none, List.nil_append, hback]
    exact ⟨[], rfl, rfl⟩
  | some bs =>
    rw [Option.elim_some, List.append_assoc, dropBlanks_blanks_append (p.blank_beforeEnd bs h)]
    exact ⟨p.back, rfl, hback⟩

/-- **A line in the loose form is scanned, and to what it says.** -/
theorem scan_chars : scan p.chars = some p.directive := by
  obtain ⟨afterStart, hcomment, hafterStart⟩ := p.takeMark_chars
  obtain ⟨c, hhead, hstart⟩ := p.head?_fromName
  obtain ⟨hname, hargument⟩ := p.span_fromName
  obtain ⟨rest, hdrop, hrest⟩ := p.dropBlanks_fromArgument
  obtain ⟨afterSection, hsection, hafterSection⟩ := p.takeMark_fromSectionEnd hrest
  obtain ⟨afterEnd, hend, hafterEnd⟩ := p.takeMark_fromEnd
  have hnext : ∀ c ∈ rest.head?, isNameChar c = false := by
    intro c hc
    have hmem : c ∈ rest := List.mem_of_mem_head? hc
    rcases hrest with rfl | rfl
    · exact p.isNameChar_of_mem_fromSectionEnd hmem
    · exact p.isNameChar_of_mem_fromSectionEnd ((List.dropWhile_suffix _).mem hmem)
  have hword := span_isNameChar (fun _ => p.isNameChar_of_mem_word) hnext
  rw [scan_eq_some_iff]
  refine ⟨afterStart, p.fromName, afterSection, afterEnd, hcomment, ?_, ?_, ?_, ?_, ?_, hafterEnd,
    rfl, ?_⟩
  · rw [hafterStart]
    exact p.takeMark_fromSection
  · rw [hhead]
    exact hstart
  · rw [hname]
    rfl
  · rw [hargument, hdrop, hword.2]
    exact hsection
  · rw [hafterSection]
    exact hend
  · rw [hargument, hdrop, hword.1]
    rfl

end LooseForm

/-! ## Every line that is scanned is in the loose form -/

theorem exists_afterStart {line afterStart : List Char} {present : Bool}
    (h : takeMark commentStart (dropBlanks line) = (present, afterStart)) :
    ∃ (front : List Char) (afterStart? : Option (List Char)),
      (∀ b ∈ front, isBlank b = true) ∧ (∀ bs ∈ afterStart?, ∀ b ∈ bs, isBlank b = true) ∧
      afterStart?.isSome = present ∧
      front ++ (afterStart?.elim [] (commentStart ++ ·) ++ dropBlanks afterStart) = line := by
  obtain ⟨front, hfront, hline⟩ := exists_blanks_append line
  have hmark := eq_of_takeMark h
  cases present with
  | true =>
    obtain ⟨bs, hbs, hafter⟩ := exists_blanks_append afterStart
    refine ⟨front, some bs, hfront, by rintro _ ⟨⟩; exact hbs, rfl, ?_⟩
    rw [if_pos rfl] at hmark
    rw [Option.elim_some, List.append_assoc, hafter, hmark, hline]
  | false =>
    obtain rfl : afterStart = dropBlanks line := hmark
    refine ⟨front, none, hfront, nofun, rfl, ?_⟩
    rw [Option.elim_none, List.nil_append, dropBlanks_dropBlanks, hline]

/-- Blanks after the name that no word follows are the end of the line or stand before `]` or `-->`;
they may as well be the blanks of an argument. -/
theorem exists_argument {cs : List Char} (hcs : ∀ c ∈ cs.head?, isNameChar c = false) :
    ∃ argument? : Option (List Char × List Char), (∀ a ∈ argument?, a.1 ≠ []) ∧
      (∀ a ∈ argument?, ∀ b ∈ a.1, isBlank b = true) ∧
      (∀ a ∈ argument?, ∀ c ∈ a.2, isNameChar c = true) ∧
      argument?.elim [] Prod.snd = (dropBlanks cs).takeWhile isNameChar ∧
      argument?.elim [] (fun a => a.1 ++ a.2) ++ (dropBlanks cs).dropWhile isNameChar = cs := by
  obtain ⟨bs, hbs, hsplit⟩ := exists_blanks_append cs
  cases bs with
  | nil =>
    have hspan := @span_isNameChar [] cs nofun hcs
    have hdrop : dropBlanks cs = cs := hsplit
    rw [hdrop]
    exact ⟨none, nofun, nofun, nofun, hspan.1.symm, hspan.2⟩
  | cons b bs =>
    refine ⟨some (b :: bs, (dropBlanks cs).takeWhile isNameChar), ?_, ?_, ?_, rfl, ?_⟩
    · rintro _ ⟨⟩
      exact List.cons_ne_nil b bs
    · rintro _ ⟨⟩
      exact hbs
    · rintro _ ⟨⟩ c hc
      exact List.mem_takeWhile_imp hc
    · rw [Option.elim_some, List.append_assoc, List.takeWhile_append_dropWhile, hsplit]

theorem exists_beforeEnd {cs afterEnd : List Char} {present : Bool}
    (h : takeMark commentEnd (dropBlanks cs) = (present, afterEnd))
    (hempty : dropBlanks afterEnd = []) :
    ∃ (beforeEnd? : Option (List Char)) (back : List Char),
      (∀ bs ∈ beforeEnd?, ∀ b ∈ bs, isBlank b = true) ∧ (∀ b ∈ back, isBlank b = true) ∧
      beforeEnd?.isSome = present ∧ beforeEnd?.elim [] (· ++ commentEnd) ++ back = cs := by
  have hmark := eq_of_takeMark h
  cases present with
  | true =>
    obtain ⟨bs, hbs, hsplit⟩ := exists_blanks_append cs
    refine ⟨some bs, afterEnd, by rintro _ ⟨⟩; exact hbs, dropBlanks_eq_nil_iff.1 hempty, rfl, ?_⟩
    rw [if_pos rfl] at hmark
    rw [Option.elim_some, List.append_assoc, hmark, hsplit]
  | false =>
    obtain rfl : afterEnd = dropBlanks cs := hmark
    rw [dropBlanks_dropBlanks] at hempty
    exact ⟨none, cs, nofun, dropBlanks_eq_nil_iff.1 hempty, rfl, rfl⟩

theorem exists_looseForm_of_scan {line : List Char} {d : Directive} (h : scan line = some d) :
    ∃ p : LooseForm, p.chars = line ∧ p.directive = d := by
  obtain ⟨afterStart, named, afterSection, afterEnd, hcomment, hsection, hstart, hname, hend, hclose,
    hempty, hslot, hvalue⟩ := scan_eq_some_iff.1 h
  obtain ⟨front, afterStart?, hfront, hafterStart, hcomment?, hline⟩ := exists_afterStart hcomment
  have hnext : ∀ c ∈ (named.dropWhile isNameChar).head?, isNameChar c = false := fun c hc => by
    simpa [Option.mem_def.1 hc] using List.head?_dropWhile_not isNameChar named
  obtain ⟨argument?, hne, hblank, hchar, hword, hargument⟩ := exists_argument hnext
  obtain ⟨beforeEnd?, back, hbefore, hback, hend?, hrest⟩ := exists_beforeEnd hclose hempty
  have hname' : isIdentifier (named.takeWhile isNameChar) = true := by
    cases named with
    | nil => cases hstart
    | cons c cs => exact isIdentifier_takeWhile cs hstart
  refine ⟨⟨front, afterStart?, d.startsSection, named.takeWhile isNameChar, argument?,
    d.endsSection, beforeEnd?, back, hfront, hafterStart, hname', hne, hblank, hchar, hbefore,
    hback⟩, ?_, ?_⟩
  · simp only [LooseForm.chars, LooseForm.fromSection, LooseForm.fromName, LooseForm.fromArgument,
      LooseForm.fromSectionEnd, LooseForm.fromEnd]
    rw [hrest, eq_of_takeMark hend, hargument, List.takeWhile_append_dropWhile,
      eq_of_takeMark hsection, hline]
  · obtain ⟨startsComment, endsComment, startsSection, endsSection, addressesSlot, name, value⟩ := d
    simp only [LooseForm.directive, LooseForm.word] at *
    simp_all

/-- **A line is matched exactly when it is in the loose form**, and all the ways of cutting it into
parts say what it is matched to. -/
theorem match?_iff_looseForm (line : String) :
    ((∃ d, match? line = some d) ↔ ∃ p : LooseForm, p.chars = line.toList) ∧
      (∀ p : LooseForm, p.chars = line.toList → match? line = some p.directive) ∧
      ∀ p q : LooseForm, p.chars = line.toList → q.chars = line.toList →
        p.directive = q.directive := by
  have hmatch : ∀ p : LooseForm, p.chars = line.toList → match? line = some p.directive := by
    intro p hp
    rw [match?, ← hp, p.scan_chars]
  refine ⟨⟨?_, fun ⟨p, hp⟩ => ⟨_, hmatch p hp⟩⟩, hmatch, fun p q hp hq => ?_⟩
  · rintro ⟨d, hd⟩
    obtain ⟨p, hp, -⟩ := exists_looseForm_of_scan hd
    exact ⟨p, hp⟩
  · exact Option.some.inj ((hmatch p hp).symm.trans (hmatch q hq))

/-- The blanks before `-->` in `<!-- [title  -->` may all belong to it, or one of them to an empty
argument. -/
theorem match?_title_twice :
    let p : LooseForm := {
      afterStart? := some [' '], startsSection := true, name := "title".toList
      beforeEnd? := some [' ', ' '] }
    let q : LooseForm := {
      afterStart? := some [' '], startsSection := true, name := "title".toList
      argument? := some ([' '], []), beforeEnd? := some [' '] }
    (p.chars = "<!-- [title  -->".toList ∧ q.chars = "<!-- [title  -->".toList) ∧
      p.argument? ≠ q.argument? ∧ p.directive = q.directive ∧
      match? "<!-- [title  -->" = some q.directive := by
  intro p q
  have hp : p.chars = "<!-- [title  -->".toList := by decide
  have hq : q.chars = "<!-- [title  -->".toList := by decide
  obtain ⟨-, hmatch, hunique⟩ := match?_iff_looseForm "<!-- [title  -->"
  exact ⟨⟨hp, hq⟩, nofun, hunique p q hp hq, hmatch q hq⟩

end Directive

end Pagewright

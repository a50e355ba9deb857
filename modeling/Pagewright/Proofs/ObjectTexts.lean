import Pagewright.Proofs.MemberOrder

/-!
# Objects of texts come back

The compact text of an object whose members are texts is read as an object with the same members,
whatever characters the keys and the texts have (`parseObject_compact`). A string comes back one
character at a time: every escape that is written is one that is read (`readString_escapeChar`), and
no character is left bare that would end the string. Members that stand in increasing order of their
keys are not moved when they are sorted (`sortMembers_of_increasing`).
-/

namespace Pagewright.Json

/-! ## Strings -/

theorem readString_letterEscape {c e : Char} (h : letterEscape? c = some e) (cs : List Char) :
    readString ('\\' :: c :: cs) = consReading e (readString cs) := by
  have hu : c ≠ 'u' := by
    rintro rfl
    cases h
  rw [readString]
  · simp only [h]
  · exact fun _ _ _ _ _ heq _ => hu heq
  · exact hu

theorem readString_bare {c : Char} (hquote : c ≠ '"') (hslash : c ≠ '\\')
    (hcontrol : ¬ c.toNat < 0x20) (cs : List Char) :
    readString (c :: cs) = consReading c (readString cs) := by
  rw [readString.eq_def]
  split <;> simp_all

/-- The four digits that are written for a control character are those of its number. -/
theorem readString_controlEscape {c : Char} (hcontrol : c.toNat < 0x20) (cs : List Char) :
    readString (controlEscape c ++ cs) = consReading c (readString cs) := by
  have hdigits : ∀ n < 0x20, List.replicate (2 - (Nat.toDigits 16 n).length) '0' ++
      Nat.toDigits 16 n = [Nat.digitChar (n / 16), Nat.digitChar (n % 16)] := by decide
  have hread : ∀ n < 0x20,
      fourHex? '0' '0' (Nat.digitChar (n / 16)) (Nat.digitChar (n % 16)) = some n := by decide
  have hescape : controlEscape c =
      ['\\', 'u', '0', '0', Nat.digitChar (c.toNat / 16), Nat.digitChar (c.toNat % 16)] := by
    rw [controlEscape, List.append_assoc, hdigits _ hcontrol]
    rfl
  have hsurrogate : c.toNat < 0xD800 ∨ 0xDFFF < c.toNat := by omega
  rw [hescape]
  simp only [List.cons_append, List.nil_append]
  rw [readString]
  simp only [hread _ hcontrol, if_pos hsurrogate, Char.ofNat_toNat]

/-- **What is written for a character** is read as this character. -/
theorem readString_escapeChar (c : Char) (cs : List Char) :
    readString (escapeChar c ++ cs) = consReading c (readString cs) := by
  unfold escapeChar
  split
  case h_8 c hquote hslash _ _ _ _ _ =>
    split
    · next hcontrol => exact readString_controlEscape hcontrol cs
    · next hcontrol => exact readString_bare hquote hslash hcontrol cs
  all_goals exact readString_letterEscape rfl cs

/-- A string that is written ends at its own closing quote and not before. -/
theorem readString_flatMap_escapeChar (cs rest : List Char) :
    readString (cs.flatMap escapeChar ++ '"' :: rest) = .ok (cs, rest) := by
  induction cs with
  | nil => rw [List.flatMap_nil, List.nil_append, readString]
  | cons c cs ih =>
    rw [List.flatMap_cons, List.append_assoc, readString_escapeChar, ih]
    rfl

theorem toList_stringText_append (s : String) (cs : List Char) :
    (stringText s).toList ++ cs = '"' :: (s.toList.flatMap escapeChar ++ '"' :: cs) := by
  simp [stringText]

theorem skipSpace_cons {c : Char} (h : isSpace c = false) (cs : List Char) :
    skipSpace (c :: cs) = c :: cs := by
  simp [skipSpace, h]

theorem readValue_stringText (fuel depth : Nat) (s : String) (cs : List Char) :
    readValue (fuel + 1) depth ((stringText s).toList ++ cs) = .ok (.string s, cs) := by
  rw [toList_stringText_append, readValue, skipSpace_cons rfl]
  change (readString _).map _ = _
  rw [readString_flatMap_escapeChar, Except.map]
  simp

/-! ## Members -/

/-- A member as it stands between the braces. -/
def memberText (m : String × Json) : String :=
  stringText m.1 ++ ":" ++ compact m.2

/-- Members behind another one. -/
def furtherMembers (ms : List (String × Json)) : String :=
  String.join (ms.map ("," ++ memberText ·))

theorem compactMembers_cons (m : String × Json) (ms : List (String × Json)) :
    compactMembers (m :: ms) = memberText m ++ furtherMembers ms := by
  induction ms generalizing m with
  | nil => simp [compactMembers, memberText, furtherMembers]
  | cons m' ms ih =>
    rw [compactMembers, ih]
    · simp [memberText, furtherMembers, String.append_assoc]
    · exact List.cons_ne_nil m' ms

/-- Texts as members. -/
def textMembers (l : List (String × String)) : List (String × Json) :=
  l.map fun (key, text) => (key, .string text)

section Texts

variable (key text : String) (l : List (String × String)) (rest : List Char)

theorem toList_furtherMembers_cons : (furtherMembers (textMembers ((key, text) :: l))).toList =
    ',' :: ((stringText key).toList ++ ':' ::
      ((stringText text).toList ++ (furtherMembers (textMembers l)).toList)) := by
  simp [furtherMembers, textMembers, memberText, compact]

theorem toList_compactMembers_cons : (compactMembers (textMembers ((key, text) :: l))).toList =
    '"' :: (key.toList.flatMap escapeChar ++ '"' :: ':' ::
      ((stringText text).toList ++ (furtherMembers (textMembers l)).toList)) := by
  rw [textMembers, List.map_cons, compactMembers_cons]
  simp [textMembers, memberText, compact, stringText]

theorem length_le_length_furtherMembers :
    l.length ≤ (furtherMembers (textMembers l)).toList.length := by
  induction l with
  | nil => exact Nat.zero_le _
  | cons m l ih =>
    rw [toList_furtherMembers_cons m.1 m.2 l]
    simp only [List.length_cons, List.length_append]
    omega

/-- Each member takes up at least one character. -/
theorem length_le_length_compactMembers :
    l.length ≤ (compactMembers (textMembers l)).toList.length := by
  cases l with
  | nil => exact Nat.zero_le _
  | cons m l =>
    have hl := length_le_length_furtherMembers l
    rw [toList_compactMembers_cons m.1 m.2 l]
    simp only [List.length_cons, List.length_append]
    omega

theorem readKey_first :
    readKey true '"' (key.toList.flatMap escapeChar ++ '"' :: ':' :: rest) = .ok (key, rest) := by
  simp [readKey, readString_flatMap_escapeChar, skipSpace_cons (c := ':') rfl]

theorem readKey_further :
    readKey false ',' ((stringText key).toList ++ ':' :: rest) = .ok (key, rest) := by
  rw [toList_stringText_append]
  simp [readKey, readString_flatMap_escapeChar, skipSpace_cons (c := ':') rfl,
    skipSpace_cons (c := '"') rfl]

end Texts

/-- Reading members takes one of them and goes on behind it. -/
theorem readMembers_cons {fuel depth : Nat} {first : Bool} {cs rest rest' rest'' : List Char}
    {c : Char} {key : String} {v : Json} (hskip : skipSpace cs = c :: rest) (hc : c ≠ '\x7d')
    (hkey : readKey first c rest = .ok (key, rest'))
    (hvalue : readValue fuel depth rest' = .ok (v, rest'')) :
    readMembers (fuel + 1) depth first cs =
      (readMembers fuel depth false rest'').map fun (ms, rest) => ((key, v) :: ms, rest) := by
  rw [readMembers, hskip]
  simp [hkey, hvalue]

theorem readMembers_furtherMembers (fuel depth : Nat) (l : List (String × String))
    (rest : List Char) :
    readMembers (fuel + l.length + 1) depth false
      ((furtherMembers (textMembers l)).toList ++ '\x7d' :: rest) = .ok (textMembers l, rest) := by
  induction l with
  | nil => rfl
  | cons m l ih =>
    obtain ⟨key, text⟩ := m
    rw [toList_furtherMembers_cons, List.length_cons, ← Nat.add_assoc]
    simp only [List.cons_append, List.append_assoc]
    rw [readMembers_cons (skipSpace_cons rfl _) (by decide) (readKey_further key _)
      (readValue_stringText _ depth text _), ih]
    rfl

/-- The members of an object of texts are read up to the brace that closes it. -/
theorem readMembers_compactMembers (fuel depth : Nat) (l : List (String × String))
    (rest : List Char) :
    readMembers (fuel + l.length + 1) depth true
      ((compactMembers (textMembers l)).toList ++ '\x7d' :: rest) = .ok (textMembers l, rest) := by
  cases l with
  | nil => rfl
  | cons m l =>
    obtain ⟨key, text⟩ := m
    rw [toList_compactMembers_cons, List.length_cons, ← Nat.add_assoc]
    simp only [List.cons_append, List.append_assoc]
    rw [readMembers_cons (skipSpace_cons rfl _) (by decide) (readKey_first key _)
      (readValue_stringText _ depth text _), readMembers_furtherMembers]
    rfl

/-! ## Objects -/

theorem insertMember_of_forall_lt {key : String} {value : Json} {ms : List (String × Json)}
    (h : ∀ m ∈ ms, m.1 < key) : insertMember key value ms = ms ++ [(key, value)] := by
  induction ms with
  | nil => rfl
  | cons m ms ih =>
    have hgt : compare key m.1 = .gt := compare_gt_iff_gt.2 (h m List.mem_cons_self)
    rw [insertMember, hgt]
    dsimp only
    rw [ih fun m' hm' => h m' (List.mem_cons_of_mem _ hm'), List.cons_append]

/-- Members in increasing order of their keys stay where they are. -/
theorem sortMembers_of_increasing {ms : List (String × Json)}
    (h : ms.Pairwise fun m m' => m.1 < m'.1) : sortMembers ms = ms := by
  induction ms using List.reverseRecOn with
  | nil => rfl
  | append_singleton ms m ih =>
    obtain ⟨hms, -, hlast⟩ := List.pairwise_append.1 h
    rw [sortMembers_concat, ih hms,
      insertMember_of_forall_lt fun m' hm' => hlast m' hm' m List.mem_cons_self]

theorem writtenMembers_compact (l : List (String × String)) :
    writtenMembers (compact (.object (textMembers l))) = .ok (textMembers l) := by
  have htext : (compact (.object (textMembers l))).toList =
      '\x7b' :: ((compactMembers (textMembers l)).toList ++ ['\x7d']) := by
    simp [compact]
  obtain ⟨fuel, hfuel⟩ : ∃ fuel, fuel + l.length + 1 =
      enoughFuel ('\x7b' :: ((compactMembers (textMembers l)).toList ++ ['\x7d'])) := by
    have hlength := length_le_length_compactMembers l
    refine ⟨_, Nat.sub_add_cancel (m := l.length + 1) ?_⟩
    simp only [enoughFuel, List.length_cons, List.length_append]
    omega
  unfold writtenMembers
  simp only [htext, ← hfuel, skipSpace_cons (c := '\x7b') rfl]
  rw [readMembers_compactMembers]
  rfl

/-- **An object of texts** in increasing order of the keys is read back as it was. -/
theorem parseObject_compact {l : List (String × String)} (h : l.Pairwise fun m m' => m.1 < m'.1) :
    parseObject (compact (.object (textMembers l))) = .ok (textMembers l) := by
  have hmembers : (textMembers l).Pairwise fun m m' => m.1 < m'.1 := List.pairwise_map.2 h
  rw [parseObject, writtenMembers_compact, Except.map, sortMembers_of_increasing hmembers]

end Pagewright.Json

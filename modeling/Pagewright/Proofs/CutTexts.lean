import Mathlib.Tactic.SplitIfs
import Pagewright.Proofs.ByteOrder

/-!
# Texts that are cut

A stretch of the bytes of a text may start inside a character. The bytes that are left of that one
begin no character, so each of them is taken by itself, and from the next character on everything
is read as if nothing had been cut (`exists_piecesFrom_drop`). What is shown of two texts that were
cut at the same place therefore differs as soon as their next characters do.
-/

namespace Pagewright.Text.Utf8

variable {c : Char} {b : UInt8} {bs : Bytes} {k owed least greatest bits taken : Nat}

/-! ## Bytes -/

theorem piecesFrom_ready_cons (b : UInt8) (bs : Bytes) :
    piecesFrom .ready (b :: bs) = (start b).1 ++ piecesFrom (start b).2 bs := rfl

/-- The last byte of a character. -/
theorem piecesFrom_inside_last (h : least ≤ b.toNat) (h' : b.toNat ≤ greatest) :
    piecesFrom (.inside ⟨1, least, greatest, bits, taken⟩) (b :: bs) =
      .char (Char.ofNat (bits * 64 + (b.toNat - 0x80))) :: piecesFrom .ready bs := by
  rw [piecesFrom, step]
  simp only [if_pos (And.intro h h')]
  rfl

/-- A byte after which a character owes more. -/
theorem piecesFrom_inside_more (h : least ≤ b.toNat) (h' : b.toNat ≤ greatest) :
    piecesFrom (.inside ⟨owed + 2, least, greatest, bits, taken⟩) (b :: bs) =
      piecesFrom (.inside ⟨owed + 1, 0x80, 0xBF, bits * 64 + (b.toNat - 0x80), taken + 1⟩) bs := by
  have howed : ¬ owed + 2 ≤ 1 := by omega
  rw [piecesFrom, step]
  simp only [if_pos (And.intro h h'), if_neg howed]
  rfl

theorem start_one (h : b.toNat < 0x80) : start b = ([.char (Char.ofNat b.toNat)], .ready) := by
  simp only [start, if_pos h]

/-- A byte that continues a character begins none. -/
theorem start_continuation (h : 0x80 ≤ b.toNat) (h' : b.toNat < 0xC0) :
    start b = ([.illFormed 1], .ready) := by
  simp only [start]
  rw [if_neg (by omega), if_pos (by omega)]

theorem start_two (h : 0xC2 ≤ b.toNat) (h' : b.toNat < 0xE0) :
    start b = ([], .inside ⟨1, 0x80, 0xBF, b.toNat - 0xC0, 1⟩) := by
  simp only [start]
  rw [if_neg (by omega), if_neg (by omega), if_pos h']

theorem start_three (h : 0xE0 ≤ b.toNat) (h' : b.toNat < 0xF0) :
    start b = ([], .inside ⟨2, if b.toNat == 0xE0 then 0xA0 else 0x80,
      if b.toNat == 0xED then 0x9F else 0xBF, b.toNat - 0xE0, 1⟩) := by
  simp only [start]
  rw [if_neg (by omega), if_neg (by omega), if_neg (by omega), if_pos h']

theorem start_four (h : 0xF0 ≤ b.toNat) (h' : b.toNat < 0xF5) :
    start b = ([], .inside ⟨3, if b.toNat == 0xF0 then 0x90 else 0x80,
      if b.toNat == 0xF4 then 0x8F else 0xBF, b.toNat - 0xF0, 1⟩) := by
  simp only [start]
  rw [if_neg (by omega), if_neg (by omega), if_neg (by omega), if_neg (by omega), if_pos h']

/-! ## Characters -/

theorem toNat_ofNat {n : Nat} (h : n < 256) : (UInt8.ofNat n).toNat = n := by
  rw [UInt8.toNat_ofNat']
  omega

/-- **The bytes of a character** are read as that character, whatever follows. -/
theorem piecesFrom_utf8EncodeChar (c : Char) (bs : Bytes) :
    piecesFrom .ready (String.utf8EncodeChar c ++ bs) = .char c :: piecesFrom .ready bs := by
  have hvalid : c.toNat < 0xD800 ∨ 0xDFFF < c.toNat ∧ c.toNat < 0x110000 := c.valid
  have hchar : ∀ n, n = c.toNat → Piece.char (Char.ofNat n) = .char c := by
    rintro n rfl
    rw [Char.ofNat_toNat]
  have hv : c.val.toNat = c.toNat := rfl
  simp only [String.utf8EncodeChar, hv]
  generalize c.toNat = v at hvalid hchar
  split_ifs with h₁ h₂ h₃
  · have hfirst : (UInt8.ofNat v).toNat = v := toNat_ofNat (by omega)
    rw [List.singleton_append, piecesFrom_ready_cons, start_one (by omega), hfirst]
    exact congrArg (· :: _) (hchar v rfl)
  · have hfirst := toNat_ofNat (n := v / 64 % 32 + 192) (by omega)
    have hlast := toNat_ofNat (n := v % 64 + 128) (by omega)
    rw [List.cons_append, List.singleton_append, piecesFrom_ready_cons,
      start_two (by omega) (by omega), List.nil_append,
      piecesFrom_inside_last (by omega) (by omega), hfirst, hlast]
    exact congrArg (· :: _) (hchar _ (by omega))
  · have hfirst := toNat_ofNat (n := v / 4096 % 16 + 224) (by omega)
    have hsecond := toNat_ofNat (n := v / 64 % 64 + 128) (by omega)
    have hlast := toNat_ofNat (n := v % 64 + 128) (by omega)
    simp only [List.cons_append, List.nil_append]
    -- The bounds of the second byte leave out overlong forms and surrogates, which `v` is not.
    rw [piecesFrom_ready_cons, start_three (by omega) (by omega), List.nil_append,
      piecesFrom_inside_more ?_ ?_, piecesFrom_inside_last (by omega) (by omega), hfirst, hsecond,
      hlast]
    · exact congrArg (· :: _) (hchar _ (by omega))
    · rw [hfirst, hsecond]
      simp only [beq_iff_eq]
      split <;> omega
    · rw [hfirst, hsecond]
      simp only [beq_iff_eq]
      split <;> omega
  · have hfirst := toNat_ofNat (n := v / 262144 % 8 + 240) (by omega)
    have hsecond := toNat_ofNat (n := v / 4096 % 64 + 128) (by omega)
    have hthird := toNat_ofNat (n := v / 64 % 64 + 128) (by omega)
    have hlast := toNat_ofNat (n := v % 64 + 128) (by omega)
    simp only [List.cons_append, List.nil_append]
    rw [piecesFrom_ready_cons, start_four (by omega) (by omega), List.nil_append,
      piecesFrom_inside_more ?_ ?_, piecesFrom_inside_more (by omega) (by omega),
      piecesFrom_inside_last (by omega) (by omega), hfirst, hsecond, hthird, hlast]
    · exact congrArg (· :: _) (hchar _ (by omega))
    · rw [hfirst, hsecond]
      simp only [beq_iff_eq]
      split <;> omega
    · rw [hfirst, hsecond]
      simp only [beq_iff_eq]
      split <;> omega

theorem length_utf8EncodeChar_le (c : Char) : (String.utf8EncodeChar c).length ≤ 4 := by
  rw [String.length_utf8EncodeChar]
  exact Char.utf8Size_le_four c

theorem continuation_of_mem_tail (h : b ∈ (String.utf8EncodeChar c).tail) :
    0x80 ≤ b.toNat ∧ b.toNat < 0xC0 := by
  have hbyte : ∀ n, (UInt8.ofNat (n % 64 + 128)).toNat = n % 64 + 128 :=
    fun n => toNat_ofNat (by omega)
  simp only [String.utf8EncodeChar] at h
  split_ifs at h <;>
    simp only [List.tail_cons, List.mem_cons, List.not_mem_nil, or_false] at h
  · subst h
    rw [hbyte]
    omega
  · rcases h with rfl | rfl <;> (rw [hbyte]; omega)
  · rcases h with rfl | rfl | rfl <;> (rw [hbyte]; omega)

/-- Bytes that continue a character are taken one by one where none was begun. -/
theorem piecesFrom_continuations {cut : Bytes} (h : ∀ b ∈ cut, 0x80 ≤ b.toNat ∧ b.toNat < 0xC0)
    (bs : Bytes) :
    piecesFrom .ready (cut ++ bs) = cut.map (fun _ => .illFormed 1) ++ piecesFrom .ready bs := by
  induction cut with
  | nil => rfl
  | cons b cut ih =>
    obtain ⟨⟨hleast, hgreatest⟩, hcut⟩ := List.forall_mem_cons.1 h
    rw [List.cons_append, piecesFrom_ready_cons, start_continuation hleast hgreatest, ih hcut]
    rfl

/-- **Reading recovers from a cut.** However many bytes a text lacks in front, what follows it is
read as it stands. -/
theorem exists_piecesFrom_drop (cs : List Char) (k : Nat) : ∃ front, ∀ bs,
    piecesFrom .ready ((cs.flatMap String.utf8EncodeChar).drop k ++ bs) =
      front ++ piecesFrom .ready bs := by
  induction cs generalizing k with
  | nil => exact ⟨[], fun bs => by rw [List.flatMap_nil, List.drop_nil]; rfl⟩
  | cons c cs ih =>
    obtain ⟨front, hfront⟩ := ih (k - (String.utf8EncodeChar c).length)
    rw [List.flatMap_cons, List.drop_append]
    cases k with
    | zero =>
      refine ⟨.char c :: front, fun bs => ?_⟩
      rw [List.drop_zero, List.append_assoc, piecesFrom_utf8EncodeChar, hfront]
      rfl
    | succ k =>
      have hcut : ∀ b ∈ (String.utf8EncodeChar c).drop (k + 1),
          0x80 ≤ b.toNat ∧ b.toNat < 0xC0 := by
        intro b hb
        rw [← List.drop_tail] at hb
        exact continuation_of_mem_tail (List.mem_of_mem_drop hb)
      refine ⟨((String.utf8EncodeChar c).drop (k + 1)).map (fun _ => .illFormed 1) ++ front,
        fun bs => ?_⟩
      rw [List.append_assoc, piecesFrom_continuations hcut, hfront, List.append_assoc]

/-! ## Two texts -/

/-- Two texts with the same beginning and nothing else in common from there on. -/
structure Parts (cs ds shared xs ys : List Char) : Prop where
  left : cs = shared ++ xs
  right : ds = shared ++ ys
  apart : xs.head? ≠ ys.head?

theorem exists_parts {cs ds : List Char} (h : cs ≠ ds) :
    ∃ shared xs ys, Parts cs ds shared xs ys := by
  induction cs generalizing ds with
  | nil =>
    cases ds with
    | nil => exact absurd rfl h
    | cons d ds => exact ⟨[], [], d :: ds, rfl, rfl, nofun⟩
  | cons c cs ih =>
    cases ds with
    | nil => exact ⟨[], c :: cs, [], rfl, rfl, nofun⟩
    | cons d ds =>
      by_cases hcd : c = d
      · subst hcd
        obtain ⟨shared, xs, ys, hparts⟩ := ih fun heq => h (congrArg _ heq)
        exact ⟨c :: shared, xs, ys, congrArg _ hparts.left, congrArg _ hparts.right, hparts.apart⟩
      · exact ⟨[], c :: cs, d :: ds, rfl, rfl, by simpa using hcd⟩

section Apart

variable {xs ys : List Char} (h : xs.head? ≠ ys.head?)

include h

/-- Texts that begin differently differ within the bytes of one character. -/
theorem take_four_ne_of_apart :
    (xs.flatMap String.utf8EncodeChar).take 4 ≠ (ys.flatMap String.utf8EncodeChar).take 4 := by
  have hcons : ∀ (c : Char) (cs : List Char), ∃ rest,
      ((c :: cs).flatMap String.utf8EncodeChar).take 4 = String.utf8EncodeChar c ++ rest := by
    intro c cs
    rw [List.flatMap_cons, List.take_append, List.take_of_length_le (length_utf8EncodeChar_le c)]
    exact ⟨_, rfl⟩
  have hne : ∀ (c : Char) (rest : Bytes), String.utf8EncodeChar c ++ rest ≠ [] :=
    fun c rest => List.append_ne_nil_of_left_ne_nil String.utf8EncodeChar_ne_nil rest
  cases xs with
  | nil =>
    cases ys with
    | nil => exact absurd rfl h
    | cons d ys =>
      obtain ⟨rest, hrest⟩ := hcons d ys
      rw [hrest]
      exact (hne d rest).symm
  | cons c xs =>
    obtain ⟨rest, hrest⟩ := hcons c xs
    cases ys with
    | nil =>
      rw [hrest]
      exact hne c rest
    | cons d ys =>
      obtain ⟨rest', hrest'⟩ := hcons d ys
      rw [hrest, hrest']
      have hcd : c.toNat ≠ d.toNat := fun heq => h (congrArg some (Char.toNat_inj.1 heq))
      intro heq
      rcases Nat.lt_or_gt_of_ne hcd with hlt | hlt
      · exact List.lt_irrefl _ (heq ▸ utf8EncodeChar_append_lt hlt rest rest')
      · exact List.lt_irrefl _ (heq ▸ utf8EncodeChar_append_lt hlt rest' rest)

/-- **Two cut texts are shown differently** when, after a shared part that is cut in front, they go
on differently for at least the bytes of one character. -/
theorem decodeLossy_ne_of_apart {n : Nat} (hn : 4 ≤ n) (shared : List Char) (k : Nat) :
    decodeLossy ((shared.flatMap String.utf8EncodeChar).drop k ++
        (xs.flatMap String.utf8EncodeChar).take n) ≠
      decodeLossy ((shared.flatMap String.utf8EncodeChar).drop k ++
        (ys.flatMap String.utf8EncodeChar).take n) := by
  have hhead : ∀ cs : List Char,
      ((piecesFrom .ready ((cs.flatMap String.utf8EncodeChar).take n)).map Piece.shown).head? =
        cs.head? := by
    intro cs
    cases cs with
    | nil => rw [List.flatMap_nil, List.take_nil]; rfl
    | cons c cs =>
      have hlength := length_utf8EncodeChar_le c
      rw [List.flatMap_cons, List.take_append, List.take_of_length_le (by omega),
        piecesFrom_utf8EncodeChar]
      rfl
  obtain ⟨front, hfront⟩ := exists_piecesFrom_drop shared k
  intro heq
  rw [decodeLossy, decodeLossy, String.ofList_inj, pieces, pieces, hfront, hfront, List.map_append,
    List.map_append, List.append_cancel_left_eq] at heq
  exact h (by rw [← hhead xs, heq, hhead ys])

end Apart

end Pagewright.Text.Utf8

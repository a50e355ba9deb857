import Mathlib.Tactic.SplitIfs
import Pagewright.Text.Utf8

/-!
# The order of bytes

UTF-8 keeps the order of texts: the bytes of the smaller one of two texts are the smaller ones
(`encode_lt_encode`). The first byte of a character tells how many bytes it has and more bytes stand
for greater characters, so two characters differ at the first byte at which their bytes do.
-/

namespace Pagewright.Text.Utf8

/-- The bytes of a smaller character are smaller, whatever stands after them. -/
theorem utf8EncodeChar_append_lt {c d : Char} (h : c < d) (bs bs' : Bytes) :
    String.utf8EncodeChar c ++ bs < String.utf8EncodeChar d ++ bs' := by
  have hlt : c.val.toNat < d.val.toNat := h
  have hmax : d.val.toNat < 0x110000 := by
    rcases d.valid with hd | hd <;> omega
  generalize hm : c.val.toNat = m at hlt
  generalize hn : d.val.toNat = n at hlt hmax
  have hdiv : ∀ k : Nat, k / 4096 = k / 64 / 64 ∧ k / 262144 = k / 64 / 64 / 64 := by omega
  simp only [String.utf8EncodeChar, hm, hn, hdiv]
  -- One case for each pair of lengths; the bytes are compared as numbers.
  split_ifs <;>
    simp only [List.cons_append, List.nil_append, List.cons_lt_cons_iff, UInt8.lt_iff_toNat_lt,
      ← UInt8.toNat_inj, UInt8.toNat_ofNat'] <;>
    omega

/-- **The bytes of a smaller text are smaller.** -/
theorem encode_lt_encode {s t : String} (h : s < t) : encode s < encode t := by
  have hlt : List.Lex (· < ·) s.toList t.toList := h
  unfold encode
  generalize s.toList = cs, t.toList = ds at hlt
  induction hlt with
  | @nil d ds =>
    obtain ⟨b, bs, hd⟩ := List.exists_cons_of_ne_nil (String.utf8EncodeChar_ne_nil (c := d))
    rw [List.flatMap_cons, hd]
    exact List.nil_lt_cons _ _
  | rel hcd => exact utf8EncodeChar_append_lt hcd _ _
  | @cons c cs ds _ ih => exact List.append_left_lt ih

end Pagewright.Text.Utf8

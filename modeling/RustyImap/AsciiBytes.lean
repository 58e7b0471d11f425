import Mathlib.Data.List.Basic

/-!
# The bytes of ASCII text in UTF-8

A character below 128 is one byte, and every byte of another character is 128 or
more.  A scan over the bytes of a text that can only stop at bytes below 128 is
therefore a scan over its characters.
-/

namespace RustyImap.AsciiBytes

/-- `char::is_ascii`. -/
def isAscii (c : Char) : Bool := c.toNat < 0x80

theorem utf8EncodeChar_ascii {c : Char} (h : isAscii c = true) :
    String.utf8EncodeChar c = [UInt8.ofNat c.toNat] := by
  have hval : c.val.toNat ≤ 0x7F := Nat.le_of_lt_succ (of_decide_eq_true h)
  simp only [String.utf8EncodeChar, if_pos hval]
  rfl

theorem toNat_byte {c : Char} (h : isAscii c = true) : (UInt8.ofNat c.toNat).toNat = c.toNat := by
  have hlow : c.toNat < 0x80 := of_decide_eq_true h
  exact UInt8.toNat_ofNat_of_lt' (Nat.lt_trans hlow (by decide))

/-- A table of characters, looked up by number. -/
theorem contains_eq_toNat (table : List Char) (c : Char) :
    table.contains c = (table.map Char.toNat).contains c.toNat := by
  induction table with
  | nil => rfl
  | cons d rest ih =>
      have heq : (c == d) = (c.toNat == d.toNat) := by
        rw [Bool.eq_iff_iff, beq_iff_eq, beq_iff_eq, Char.toNat_inj]
      rw [List.contains_cons, List.map_cons, List.contains_cons, heq, ih]

theorem le_toNat_ofNat {n : Nat} (hlow : 0x80 ≤ n) (hhigh : n < 256) :
    0x80 ≤ (UInt8.ofNat n).toNat := by
  have hn : (UInt8.ofNat n).toNat = n := UInt8.toNat_ofNat_of_lt' hhigh
  rw [hn]
  exact hlow

/-- The lead byte and the continuation bytes alike. -/
theorem le_of_mem_utf8EncodeChar {c : Char} (h : isAscii c = false) {b : UInt8}
    (hb : b ∈ String.utf8EncodeChar c) : 0x80 ≤ b.toNat := by
  have hval : ¬c.val.toNat ≤ 0x7F := by
    have hnot : ¬c.toNat < 0x80 := of_decide_eq_false h
    change ¬c.toNat ≤ 0x7F
    omega
  simp only [String.utf8EncodeChar, if_neg hval] at hb
  split at hb
  · simp only [List.mem_cons, List.not_mem_nil, or_false] at hb
    rcases hb with rfl | rfl <;> exact le_toNat_ofNat (by omega) (by omega)
  · split at hb
    · simp only [List.mem_cons, List.not_mem_nil, or_false] at hb
      rcases hb with rfl | rfl | rfl <;> exact le_toNat_ofNat (by omega) (by omega)
    · simp only [List.mem_cons, List.not_mem_nil, or_false] at hb
      rcases hb with rfl | rfl | rfl | rfl <;> exact le_toNat_ofNat (by omega) (by omega)

/-- What a scan over bytes says of a character: the byte of an ASCII character decides. -/
def onChar {ε : Type*} (scan : UInt8 → Option ε) (c : Char) : Option ε :=
  if isAscii c then scan (UInt8.ofNat c.toNat) else none

theorem findSome?_utf8EncodeChar {ε : Type*} {scan : UInt8 → Option ε}
    (hscan : ∀ b, 0x80 ≤ b.toNat → scan b = none) (c : Char) :
    (String.utf8EncodeChar c).findSome? scan = onChar scan c := by
  unfold onChar
  cases hc : isAscii c with
  | true =>
      rw [utf8EncodeChar_ascii hc, if_pos rfl]
      simp
  | false =>
      rw [if_neg Bool.false_ne_true, List.findSome?_eq_none_iff]
      intro b hb
      exact hscan b (le_of_mem_utf8EncodeChar hc hb)

/-- **A scan that stops at bytes below 128 only is a scan over the characters.** -/
theorem findSome?_utf8 {ε : Type*} {scan : UInt8 → Option ε}
    (hscan : ∀ b, 0x80 ≤ b.toNat → scan b = none) (text : List Char) :
    (text.flatMap String.utf8EncodeChar).findSome? scan = text.findSome? (onChar scan) := by
  induction text with
  | nil => rfl
  | cons c rest ih =>
      rw [List.flatMap_cons, List.findSome?_append, ih, findSome?_utf8EncodeChar hscan,
        List.findSome?_cons]
      cases onChar scan c <;> rfl

end RustyImap.AsciiBytes

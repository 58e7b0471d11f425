import RustyImap.AsciiBytes
import RustyImap.FolderName
import RustyImap.UnicodeFilter

/-!
# Folder names as they are displayed

A folder name passes two crates: `FolderName::new` on its way in, which reads control
characters off the bytes and display code points off the characters, and
`filter_codepoints` on its way out, which reads everything off the characters.  On the
zero-width, bidi and tag code points the two agree; of the control characters the bytes
show only those below 128.
-/

namespace RustyImap.FolderName

open AsciiBytes UnicodeFilter

/-! ## The two tables -/

/-- **The two crates name the same zero-width, bidi and tag code points.** -/
theorem isRejectedDisplayCodepoint_eq (c : Char) :
    isRejectedDisplayCodepoint c =
      (ZERO_WIDTH.contains c || isUnicodeTag c || BIDI_OVERRIDE.contains c) := by
  have hzero : ZERO_WIDTH.map Char.toNat = [0x200B, 0x200C, 0x200D, 0x2060, 0xFEFF] := rfl
  have hbidi : BIDI_OVERRIDE.map Char.toNat =
      [0x202A, 0x202B, 0x202C, 0x202D, 0x202E, 0x2066, 0x2067, 0x2068, 0x2069] := rfl
  rw [contains_eq_toNat, contains_eq_toNat, hzero, hbidi, Bool.eq_iff_iff]
  simp [isRejectedDisplayCodepoint, isUnicodeTag]
  omega

/-! ## The bytes -/

/-- The body of the loop over `raw.bytes()`. -/
def rejectedByte (b : UInt8) : Option String :=
  if b.toNat = 0 then some "folder name contains NUL byte"
  else if (0x01 ≤ b.toNat ∧ b.toNat ≤ 0x1F) ∨ b.toNat = 0x7F then
    some "folder name contains control character"
  else none

theorem rejectedByte_of_le {b : UInt8} (h : 0x80 ≤ b.toNat) : rejectedByte b = none := by
  unfold rejectedByte
  rw [if_neg (by omega), if_neg (by omega)]

theorem onChar_rejectedByte (c : Char) :
    onChar rejectedByte c =
      if c.toNat = 0 then some "folder name contains NUL byte"
      else if isControl c then some "folder name contains control character"
      else none := by
  have hcontrol : isControl c = true ↔ (0x01 ≤ c.toNat ∧ c.toNat ≤ 0x1F) ∨ c.toNat = 0x7F := by
    simp [isControl]
  unfold onChar
  cases hc : isAscii c with
  | true =>
      rw [if_pos rfl]
      simp only [rejectedByte, toNat_byte hc, hcontrol]
  | false =>
      have hhigh : ¬c.toNat < 0x80 := of_decide_eq_false hc
      rw [if_neg Bool.false_ne_true, if_neg (by omega), if_neg]
      rw [hcontrol]
      omega

/-- The loop over the bytes is `checkBytes` on the characters. -/
theorem checkBytes_eq_bytes (text : List Char) :
    checkBytes text =
      ((text.flatMap String.utf8EncodeChar).findSome? rejectedByte).elim (.ok ()) .error := by
  rw [findSome?_utf8 fun b => rejectedByte_of_le]
  induction text with
  | nil => rfl
  | cons c rest ih =>
      rw [List.findSome?_cons, onChar_rejectedByte, checkBytes, ih]
      by_cases hnul : c.toNat = 0
      · rw [if_pos hnul, if_pos hnul]
        rfl
      · rw [if_neg hnul, if_neg hnul]
        cases isControl c <;> rfl

theorem checkBytes_ok {text : List Char} (h : checkBytes text = .ok ()) {c : Char}
    (hc : c ∈ text) : 0x1F < c.toNat ∧ c.toNat ≠ 0x7F := by
  induction text with
  | nil => simp at hc
  | cons d rest ih =>
      unfold checkBytes at h
      by_cases hnul : d.toNat = 0
      · simp [hnul] at h
      · cases hd : isControl d with
        | true => simp [hnul, hd] at h
        | false =>
            rw [if_neg hnul, hd] at h
            rcases List.mem_cons.mp hc with rfl | hc
            · simp [isControl] at hd
              omega
            · exact ih h hc

/-! ## What an accepted name is made of -/

theorem isOk_ite (c : Prop) [Decidable c] (reason : String) (next : Except String Unit) :
    (if c then .error reason else next).isOk = (!decide c && next.isOk) := by
  by_cases h : c <;> simp [h, Except.isOk, Except.toBool]

theorem checked_of_isValid {s : String} (h : isValid s = true) :
    checkBytes s.toList = .ok () ∧ s.toList.any isRejectedDisplayCodepoint = false := by
  rw [isValid, validate, isOk_ite, isOk_ite, isOk_ite] at h
  cases hbytes : checkBytes s.toList with
  | error reason => simp [hbytes, Except.isOk, Except.toBool] at h
  | ok =>
      have hrest := (Bool.and_eq_true_iff.mp (Bool.and_eq_true_iff.mp
        (Bool.and_eq_true_iff.mp h).2).2).2
      rw [hbytes] at hrest
      simp only [isOk_ite, Bool.and_eq_true, Bool.not_eq_true', decide_eq_false_iff_not] at hrest
      exact ⟨rfl, Bool.eq_false_iff.mpr hrest.2.1⟩

/-- **What the filter can still find in an accepted name: a C1 control character.** -/
theorem accepted_of_isValid {s : String} (h : isValid s = true) {c : Char} (hc : c ∈ s.toList) :
    (ZERO_WIDTH.contains c || isUnicodeTag c) = false ∧ BIDI_OVERRIDE.contains c = false ∧
      isC0ControlDisallowed c = false := by
  obtain ⟨hbytes, hdisplay⟩ := checked_of_isValid h
  have htables := List.any_eq_false.mp hdisplay c hc
  rw [isRejectedDisplayCodepoint_eq, Bool.not_eq_true, Bool.or_eq_false_iff] at htables
  have hlow := (checkBytes_ok hbytes hc).1
  refine ⟨htables.1, htables.2, ?_⟩
  have hc0 : decide (c.toNat ≤ 0x1F) = false := decide_eq_false (by omega)
  rw [isC0ControlDisallowed, hc0]
  rfl

/-! ## The name that is shown -/

/-- `filter_codepoints` strips nothing: all three counts are 0 and the text is `s`. -/
def Unstripped (s : String) : Prop := filterCodepoints s.toList = ⟨s.toList, 0, 0, 0⟩

instance (s : String) : Decidable (Unstripped s) := inferInstanceAs (Decidable (_ = _))

/-- The characters U+0080 to U+009F. -/
def hasC1Control (s : String) : Bool := s.toList.any isC1Control

theorem filterCodepoints_accepted {text : List Char}
    (h : ∀ c ∈ text, (ZERO_WIDTH.contains c || isUnicodeTag c) = false ∧
      BIDI_OVERRIDE.contains c = false ∧ isC0ControlDisallowed c = false) :
    filterCodepoints text = ⟨text.filter (!isC1Control ·), 0, 0, text.countP isC1Control⟩ := by
  induction text with
  | nil => rfl
  | cons c rest ih =>
      obtain ⟨hzero, hbidi, hc0⟩ := h c (by simp)
      have hrest := ih fun d hd => h d (by simp [hd])
      unfold filterCodepoints
      simp only [hzero, hbidi, hc0, hrest, Bool.false_or]
      cases hc1 : isC1Control c with
      | true => simp [hc1]
      | false => simp [hc1]

/-- **An accepted name is shown without its C1 control characters, and nothing else is
    stripped.** -/
theorem filterCodepoints_of_isValid {s : String} (h : isValid s = true) :
    filterCodepoints s.toList =
      ⟨s.toList.filter (!isC1Control ·), 0, 0, s.toList.countP isC1Control⟩ :=
  filterCodepoints_accepted fun _ hc => accepted_of_isValid h hc

/-- **An accepted name is shown as it is when it has no C1 control character, and only
    then.** -/
theorem unstripped_iff_of_accepted {s : String} (h : isValid s = true) :
    Unstripped s ↔ hasC1Control s = false := by
  unfold Unstripped hasC1Control
  rw [filterCodepoints_of_isValid h, List.any_eq_false]
  constructor
  · intro heq
    have hcount : s.toList.countP isC1Control = 0 := congrArg FilterResult.c0C1Stripped heq
    exact List.countP_eq_zero.mp hcount
  · intro hnone
    have htext : s.toList.filter (!isC1Control ·) = s.toList := by
      rw [List.filter_eq_self]
      intro c hc
      simp [hnone c hc]
    rw [htext, List.countP_eq_zero.mpr hnone]

theorem unstripped_iff_archive :
    isValid "Archive/2024" = true ∧
      (Unstripped "Archive/2024" ↔ hasC1Control "Archive/2024" = false) :=
  ⟨by decide, unstripped_iff_of_accepted (by decide)⟩

/-- NEXT LINE, U+0085, is two bytes, neither of which is a control byte. -/
theorem accepted_not_unstripped :
    ¬∀ s, isValid s = true → Unstripped s := by
  intro h
  have hshown := h "Arch\u0085ive" (by decide)
  revert hshown
  decide

/-- Two accepted names that are shown as one. -/
example : isValid "Arch\u0085ive" = true ∧ isValid "Archive" = true ∧
    (filterCodepoints "Arch\u0085ive".toList).text =
      (filterCodepoints "Archive".toList).text := by
  decide

end RustyImap.FolderName

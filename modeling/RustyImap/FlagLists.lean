import RustyImap.AsciiBytes
import RustyImap.FlagGrammar
import RustyImap.ImapOps

/-!
# Flag lists on the wire

`validate_keyword` and `flags_string` (`rimap-imap/src/ops/store.rs`),
`build_flags_string` (`ops/append.rs`), and `validate_label` of the label tools
(`rimap-server/src/tools/mailbox/labels.rs`).  The texts stand between the
parentheses of a STORE or an APPEND, where a server reads them by the grammar of
flag lists.
-/

namespace RustyImap.FlagLists

open AsciiBytes FlagGrammar ReadLists SeparatedItems
open ImapOps (Flag ImapError)

/-! ## Keywords -/

/-- The arms of the `match` on a byte. -/
def refusedByte (b : UInt8) : Option ImapError :=
  if b.toNat ≤ 0x1F ∨ b.toNat = 0x7F then
    some (.invalidInput "keyword" "contains control characters")
  else if (ImapOps.atomSpecials.map Char.toNat).contains b.toNat then
    some (.invalidInput "keyword" "contains IMAP atom-special characters")
  else none

def validateKeyword (keyword : String) : Except ImapError Unit :=
  if keyword.isEmpty then .error (.invalidInput "keyword" "keyword must not be empty")
  else ((keyword.toList.flatMap String.utf8EncodeChar).findSome? refusedByte).elim (.ok ()) .error

/-! ## Lists -/

def pushFlag (s : String) : Flag → Except ImapError String
  | .seen => .ok (s ++ "\\Seen")
  | .answered => .ok (s ++ "\\Answered")
  | .flagged => .ok (s ++ "\\Flagged")
  | .deleted => .ok (s ++ "\\Deleted")
  | .draft => .ok (s ++ "\\Draft")
  | .recent => .ok (s ++ "\\Recent")
  | .keyword k => do
      validateKeyword k
      .ok (s ++ k)

/-- The loop of `flags_string` from position `i` on. -/
def pushFlags : Nat → String → List Flag → Except ImapError String
  | _, s, [] => .ok s
  | i, s, flag :: rest => do
      let s ← pushFlag (if 0 < i then s.push ' ' else s) flag
      pushFlags (i + 1) s rest

def flagsString (flags : List Flag) : Except ImapError String := pushFlags 0 "" flags

/-- The loop of `build_flags_string`. -/
def pushKeywords : String → List String → Except ImapError String
  | s, [] => .ok s
  | s, keyword :: rest => do
      validateKeyword keyword
      pushKeywords ((if !s.isEmpty then s.push ' ' else s) ++ keyword) rest

def buildFlagsString (flags : List Flag) (keywords : List String) : Except ImapError String := do
  let s ← flagsString flags
  pushKeywords s keywords

/-- The list as STORE and APPEND send it. -/
def parenthesised (s : String) : List Char := '(' :: (s.toList ++ [')'])

/-! ## Labels -/

def LABEL_SPECIALS : List Char := ['(', ')', '\x7b', ' ', '%', '*', '"', '[', ']', '\\']

def SYSTEM_FLAGS : List String := ["seen", "answered", "flagged", "deleted", "draft", "recent"]

def MAX_LABEL_BYTES : Nat := 256

/-- `char::is_ascii_control`. -/
def isAsciiControl (c : Char) : Bool := c.toNat ≤ 0x1F || c.toNat == 0x7F

/-- `validate_label`, with the message of a refusal. -/
def validateLabel (label : String) : Except String Unit :=
  if label.isEmpty then .error "label must not be empty"
  else if !label.toList.all isAscii then
    .error "label must be ASCII (RFC 3501 atom syntax)"
  else if MAX_LABEL_BYTES < utf8Len label then
    .error ("label exceeds maximum of " ++ toString MAX_LABEL_BYTES ++ " bytes")
  else if label.toList.contains '\x00' then .error "label must not contain null bytes"
  else if label.toList.head? = some '\\' then
    .error "label must not start with '\\' (system flag namespace)"
  else if label.toList.any LABEL_SPECIALS.contains then
    .error "label contains IMAP atom special characters"
  else if label.toList.any isAsciiControl then
    .error "label must not contain ASCII control characters"
  else if SYSTEM_FLAGS.contains (.ofList (label.toList.map ImapOps.toAsciiLower)) then
    .error ("'" ++ label ++ "' is a reserved system flag name")
  else .ok ()

/-! ## What a keyword check lets through -/

theorem refusedByte_of_le {b : UInt8} (h : 0x80 ≤ b.toNat) : refusedByte b = none := by
  have hspecial : (ImapOps.atomSpecials.map Char.toNat).contains b.toNat = false := by
    rw [List.contains_eq_mem, decide_eq_false_iff_not]
    intro hmem
    have hall : ∀ n ∈ ImapOps.atomSpecials.map Char.toNat, n < 0x80 := by decide
    exact absurd (hall _ hmem) (by omega)
  unfold refusedByte
  rw [if_neg (by omega), hspecial]
  rfl

/-- The code refuses one character more than an atom does. -/
theorem contains_atomSpecials (c : Char) :
    ImapOps.atomSpecials.contains c = (atomSpecials.contains c || c == '[') := by
  have htable : ImapOps.atomSpecials = atomSpecials ++ ['['] := rfl
  rw [htable, List.contains_append, List.contains_cons, List.contains_nil, Bool.or_false]

theorem onChar_refusedByte (c : Char) :
    onChar refusedByte c =
      if c.toNat ≤ 0x1F || c.toNat == 0x7F then
        some (.invalidInput "keyword" "contains control characters")
      else if ImapOps.atomSpecials.contains c then
        some (.invalidInput "keyword" "contains IMAP atom-special characters")
      else none := by
  unfold onChar
  cases hc : isAscii c with
  | true =>
      rw [if_pos rfl, refusedByte, toNat_byte hc, ← contains_eq_toNat]
      simp
  | false =>
      have hhigh : ¬c.toNat < 0x80 := of_decide_eq_false hc
      have hspecial : ImapOps.atomSpecials.contains c = false := by
        have hall : ImapOps.atomSpecials.all isAscii = true := by decide
        rw [List.contains_eq_mem, decide_eq_false_iff_not]
        intro hmem
        exact Bool.false_ne_true (hc.symm.trans (List.all_eq_true.mp hall c hmem))
      rw [hspecial]
      simp
      omega

theorem onChar_refusedByte_eq_none_iff (c : Char) :
    onChar refusedByte c = none ↔ (isAscii c = true → isAtomChar c = true ∧ c ≠ '[') := by
  cases hc : isAscii c with
  | false => simp [onChar, hc]
  | true =>
      have hlow : decide (c.toNat < 0x80) = true := hc
      rw [onChar_refusedByte, contains_atomSpecials, isAtomChar, hlow, isCtl]
      cases decide (c.toNat ≤ 0x1F) || c.toNat == 0x7F with
      | true => simp
      | false => cases atomSpecials.contains c <;> simp

/-- **A keyword that is let through holds no ASCII character that an atom may not hold.**
    Of other characters nothing is said. -/
theorem validateKeyword_ok_iff {k : String} :
    validateKeyword k = .ok () ↔
      k.toList ≠ [] ∧ ∀ c ∈ k.toList, isAscii c = true → isAtomChar c = true ∧ c ≠ '[' := by
  unfold validateKeyword
  rw [findSome?_utf8 fun b => refusedByte_of_le]
  cases hempty : k.isEmpty with
  | true =>
      simp at hempty
      simp [hempty]
  | false =>
      have hne : k.toList ≠ [] := by simpa using hempty
      rw [if_neg Bool.false_ne_true]
      simp only [← onChar_refusedByte_eq_none_iff, hne, ne_eq, not_false_eq_true, true_and]
      rw [← List.findSome?_eq_none_iff]
      cases k.toList.findSome? (onChar refusedByte) <;> simp

theorem space_not_mem_of_validated {k : String} (h : validateKeyword k = .ok ()) :
    ' ' ∉ k.toList := by
  intro hmem
  have hatom := ((validateKeyword_ok_iff.mp h).2 ' ' hmem (by decide)).1
  exact atomChar_ne_special hatom (by decide) rfl

/-- A keyword that is let through is an atom when it is ASCII, and only then. -/
theorem isAtom_iff_of_validated {k : String} (h : validateKeyword k = .ok ()) :
    isAtom k.toList = true ↔ k.toList.all isAscii = true := by
  obtain ⟨hne, hascii⟩ := validateKeyword_ok_iff.mp h
  rw [isAtom_iff, List.all_eq_true]
  constructor
  · intro ⟨_, hchars⟩ c hc
    have hchar := hchars c hc
    rw [isAtomChar, Bool.and_eq_true, Bool.and_eq_true] at hchar
    exact hchar.1.1
  · intro hall
    exact ⟨hne, fun c hc => (hascii c hc (hall c hc)).1⟩

/-! ## What is written -/

/-- The check of one flag. -/
def checkFlag : Flag → Except ImapError Unit
  | .keyword k => validateKeyword k
  | _ => .ok ()

/-- What a flag is for a reader of the list. -/
def flagToken : Flag → FlagToken
  | .seen => .extension "Seen".toList
  | .answered => .extension "Answered".toList
  | .flagged => .extension "Flagged".toList
  | .deleted => .extension "Deleted".toList
  | .draft => .extension "Draft".toList
  | .recent => .extension "Recent".toList
  | .keyword k => .keyword k.toList

def keywordToken (k : String) : FlagToken := .keyword k.toList

/-- The list of tokens as the loops write it. -/
def spelling (tokens : List FlagToken) : List Char := joined ' ' (tokens.map FlagToken.spelled)

theorem pushFlag_eq (s : String) (flag : Flag) :
    pushFlag s flag = (checkFlag flag).map fun _ => s ++ .ofList (flagToken flag).spelled := by
  cases flag with
  | keyword k =>
      change (validateKeyword k >>= fun _ => .ok (s ++ k)) =
        (validateKeyword k).map fun _ => s ++ .ofList k.toList
      rw [String.ofList_toList]
      cases validateKeyword k <;> rfl
  | _ => rfl

/-- One more token behind the ones that are counted. -/
theorem spelling_concat_index (written : List FlagToken) (token : FlagToken) :
    (if 0 < written.length then (String.ofList (spelling written)).push ' '
      else .ofList (spelling written)) ++ String.ofList token.spelled =
      .ofList (spelling (written ++ [token])) := by
  rw [spelling, spelling, List.map_append, List.map_singleton, ← joined_concat_index,
    List.length_map, ← String.toList_inj]
  split <;> simp

theorem pushFlags_eq (flags : List Flag) (written : List FlagToken) :
    pushFlags written.length (.ofList (spelling written)) flags =
      (forM flags checkFlag).map fun _ =>
        .ofList (spelling (written ++ flags.map flagToken)) := by
  induction flags generalizing written with
  | nil =>
      rw [List.map_nil, List.append_nil]
      rfl
  | cons flag rest ih =>
      have hrest := ih (written ++ [flagToken flag])
      rw [List.length_append, List.length_singleton, List.append_assoc,
        List.singleton_append] at hrest
      rw [pushFlags, pushFlag_eq, List.forM_cons, List.map_cons, spelling_concat_index]
      cases checkFlag flag with
      | error e => rfl
      | ok => exact hrest

/-- **STORE: the flags are checked one by one, and written between spaces.** -/
theorem flagsString_eq (flags : List Flag) :
    flagsString flags =
      (forM flags checkFlag).map fun _ => .ofList (spelling (flags.map flagToken)) :=
  pushFlags_eq flags []

theorem forM_ok_iff {α : Type} {f : α → Except ImapError Unit} {l : List α} :
    forM l f = .ok () ↔ ∀ a ∈ l, f a = .ok () := by
  induction l with
  | nil => simp [pure, Except.pure]
  | cons a rest ih =>
      rw [List.forM_cons, List.forall_mem_cons, ← ih]
      cases f a with
      | error e => simp [bind, Except.bind]
      | ok => exact (and_iff_right rfl).symm

/-- One more keyword behind what is written, which is asked whether it is empty. -/
theorem spelling_concat {written : List FlagToken}
    (hne : ∀ token ∈ written, token.spelled ≠ []) (keyword : String) :
    (if !(String.ofList (spelling written)).isEmpty then
        (String.ofList (spelling written)).push ' '
      else .ofList (spelling written)) ++ keyword =
      .ofList (spelling (written ++ [keywordToken keyword])) := by
  have hpieces : ∀ piece ∈ written.map FlagToken.spelled, piece ≠ [] := by
    intro piece hpiece
    obtain ⟨token, htoken, rfl⟩ := List.mem_map.mp hpiece
    exact hne token htoken
  have hpush : push ' ' _ keyword.toList = _ := push_joined hpieces keyword.toList
  rw [← String.toList_inj, String.toList_ofList, spelling, spelling, List.map_append,
    List.map_singleton, keywordToken, FlagToken.spelled, ← hpush, push]
  by_cases hempty : joined ' ' (written.map FlagToken.spelled) = []
  · simp [hempty]
  · simp [hempty]

theorem keyword_ne_nil {k : String} (h : validateKeyword k = .ok ()) : k.toList ≠ [] :=
  (validateKeyword_ok_iff.mp h).1

theorem pushKeywords_eq (keywords : List String) {written : List FlagToken}
    (hne : ∀ token ∈ written, token.spelled ≠ []) :
    pushKeywords (.ofList (spelling written)) keywords =
      (forM keywords validateKeyword).map fun _ =>
        .ofList (spelling (written ++ keywords.map keywordToken)) := by
  induction keywords generalizing written with
  | nil =>
      rw [List.map_nil, List.append_nil]
      rfl
  | cons keyword rest ih =>
      rw [pushKeywords, List.forM_cons, List.map_cons, spelling_concat hne]
      cases hkeyword : validateKeyword keyword with
      | error e => rfl
      | ok =>
          have hmore : ∀ token ∈ written ++ [keywordToken keyword], token.spelled ≠ [] := by
            intro token htoken
            rcases List.mem_append.mp htoken with htoken | htoken
            · exact hne token htoken
            · rw [List.mem_singleton.mp htoken]
              exact keyword_ne_nil hkeyword
          have hrest := ih hmore
          rw [List.append_assoc, List.singleton_append] at hrest
          exact hrest

/-- What a check leaves of a flag: text, and no space in it. -/
theorem flagToken_of_checked {flag : Flag} (h : checkFlag flag = .ok ()) :
    (flagToken flag).spelled ≠ [] ∧ ' ' ∉ (flagToken flag).spelled := by
  cases flag with
  | keyword k => exact ⟨keyword_ne_nil h, space_not_mem_of_validated h⟩
  | _ => decide

theorem flagsString_ok_iff {flags : List Flag} {out : String} :
    flagsString flags = .ok out ↔
      (∀ flag ∈ flags, checkFlag flag = .ok ()) ∧ out.toList = spelling (flags.map flagToken) := by
  rw [flagsString_eq, ← forM_ok_iff, ← String.ofList_inj]
  cases forM flags checkFlag with
  | error e => simp [Except.map]
  | ok => simp [Except.map, eq_comm]

/-- **APPEND: the same list, with the keywords behind the flags.** -/
theorem buildFlagsString_ok_iff {flags : List Flag} {keywords : List String} {out : String} :
    buildFlagsString flags keywords = .ok out ↔
      (∀ flag ∈ flags, checkFlag flag = .ok ()) ∧
        (∀ k ∈ keywords, validateKeyword k = .ok ()) ∧
          out.toList = spelling (flags.map flagToken ++ keywords.map keywordToken) := by
  unfold buildFlagsString
  rw [flagsString_eq, ← forM_ok_iff, ← forM_ok_iff, ← String.ofList_inj]
  cases hflags : forM flags checkFlag with
  | error e => simp [Except.map, bind, Except.bind]
  | ok =>
      have hne : ∀ token ∈ flags.map flagToken, token.spelled ≠ [] := by
        intro token htoken
        obtain ⟨flag, hflag, rfl⟩ := List.mem_map.mp htoken
        exact (flagToken_of_checked (forM_ok_iff.mp hflags flag hflag)).1
      change pushKeywords (.ofList (spelling (flags.map flagToken))) keywords = _ ↔ _
      rw [pushKeywords_eq keywords hne]
      cases forM keywords validateKeyword with
      | error e => simp [Except.map]
      | ok => simp [Except.map, eq_comm]

/-! ## What a server reads -/

/-- `str::is_ascii` on the keyword of a flag. -/
def asciiFlag : Flag → Bool
  | .keyword k => k.toList.all isAscii
  | _ => true

def asciiKeyword (k : String) : Bool := k.toList.all isAscii

theorem isAtom_flagToken_iff {flag : Flag} (h : checkFlag flag = .ok ()) :
    isAtom (flagToken flag).atom = true ↔ asciiFlag flag = true := by
  cases flag with
  | keyword k => exact isAtom_iff_of_validated h
  | _ => decide

theorem readFlagList_spelling {tokens : List FlagToken} {out : String}
    (hout : out.toList = spelling tokens) :
    readFlagList (parenthesised out) = some tokens ↔
      ∀ token ∈ tokens, isAtom token.atom = true := by
  rw [parenthesised, readFlagList_parenthesised, hout, readFlags_eq_some_iff]
  exact and_iff_right rfl

/-- **A list that is written is read back, flag for flag, when every keyword is ASCII, and
    only then.** -/
theorem flagList_read_iff (flags : List Flag) (keywords : List String) :
    (∀ out, flagsString flags = .ok out →
      (readFlagList (parenthesised out) = some (flags.map flagToken) ↔
        flags.all asciiFlag = true)) ∧
    ∀ out, buildFlagsString flags keywords = .ok out →
      (readFlagList (parenthesised out) =
          some (flags.map flagToken ++ keywords.map keywordToken) ↔
        flags.all asciiFlag = true ∧ keywords.all asciiKeyword = true) := by
  have hflags : (∀ flag ∈ flags, checkFlag flag = .ok ()) →
      ((∀ token ∈ flags.map flagToken, isAtom token.atom = true) ↔
        flags.all asciiFlag = true) := by
    intro hchecked
    rw [List.forall_mem_map, List.all_eq_true]
    exact forall₂_congr fun flag hflag => isAtom_flagToken_iff (hchecked flag hflag)
  have hkeywords : (∀ k ∈ keywords, validateKeyword k = .ok ()) →
      ((∀ token ∈ keywords.map keywordToken, isAtom token.atom = true) ↔
        keywords.all asciiKeyword = true) := by
    intro hchecked
    rw [List.forall_mem_map, List.all_eq_true]
    exact forall₂_congr fun k hk => isAtom_iff_of_validated (hchecked k hk)
  constructor
  · intro out hout
    obtain ⟨hchecked, htext⟩ := flagsString_ok_iff.mp hout
    rw [readFlagList_spelling htext, hflags hchecked]
  · intro out hout
    obtain ⟨hchecked, hvalidated, htext⟩ := buildFlagsString_ok_iff.mp hout
    rw [readFlagList_spelling htext, List.forall_mem_append, hflags hchecked,
      hkeywords hvalidated]

theorem flagList_read_seen_work :
    ∃ out, flagsString [.seen, .keyword "Work"] = .ok out ∧
      buildFlagsString [.seen] ["$label1"] = .ok "\\Seen $label1" ∧
      (readFlagList (parenthesised out) = some [.extension "Seen".toList, .keyword "Work".toList] ↔
        [Flag.seen, .keyword "Work"].all asciiFlag = true) ∧
      (readFlagList (parenthesised "\\Seen $label1") =
          some [.extension "Seen".toList, .keyword "$label1".toList] ↔
        [Flag.seen].all asciiFlag = true ∧ ["$label1"].all asciiKeyword = true) :=
  ⟨"\\Seen Work", by decide, by decide,
    (flagList_read_iff [.seen, .keyword "Work"] []).1 _ (by decide),
    (flagList_read_iff [.seen] ["$label1"]).2 _ (by decide)⟩

/-- The two bytes of U+00E9 pass the check, and no atom holds them. -/
theorem not_flagList_read :
    ¬∀ (flags : List Flag) (keywords : List String),
      (∀ out, flagsString flags = .ok out →
        readFlagList (parenthesised out) = some (flags.map flagToken)) ∧
      ∀ out, buildFlagsString flags keywords = .ok out →
        readFlagList (parenthesised out) =
          some (flags.map flagToken ++ keywords.map keywordToken) := by
  intro h
  have hread := (h [.keyword "caf\u00E9"] []).1 "caf\u00E9" (by decide)
  revert hread
  decide

/-! ## No other list is read -/

theorem eq_of_readFlag_checked {flag : Flag} (h : checkFlag flag = .ok ()) {token : FlagToken}
    (hread : readFlag (flagToken flag).spelled = some token) : token = flagToken flag := by
  cases flag with
  | keyword k =>
      have hslash : k.toList.head? ≠ some '\\' := by
        intro hhead
        have hmem := List.mem_of_mem_head? hhead
        have hatom := ((validateKeyword_ok_iff.mp h).2 '\\' hmem (by decide)).1
        exact atomChar_ne_special hatom (by decide) rfl
      change readFlag k.toList = some token at hread
      rw [readFlag_of_ne hslash, Option.ite_none_right_eq_some, Option.some_inj] at hread
      exact hread.2.symm
  | _ =>
      rw [(readFlag_spelled _).mpr (by decide)] at hread
      exact (Option.some.inj hread).symm

/-- **A keyword outside ASCII makes the list unreadable; it never makes it another list.** -/
theorem eq_of_flagList_read {flags : List Flag} {out : String} (h : flagsString flags = .ok out)
    {tokens : List FlagToken} (hread : readFlagList (parenthesised out) = some tokens) :
    tokens = flags.map flagToken := by
  obtain ⟨hchecked, htext⟩ := flagsString_ok_iff.mp h
  have htokens : ∀ token ∈ flags.map flagToken, token.spelled ≠ [] ∧ ' ' ∉ token.spelled := by
    rw [List.forall_mem_map]
    exact fun flag hflag => flagToken_of_checked (hchecked flag hflag)
  rw [parenthesised, readFlagList_parenthesised, htext, spelling, readFlags_joined htokens,
    mapM_eq_some_iff, List.map_map, List.forall₂_map_left_iff] at hread
  have hall := (List.forall₂_and_left _ _).mpr ⟨hchecked, hread⟩
  have htoken : List.Forall₂ (fun flag token => flagToken flag = token) flags tokens := by
    refine hall.imp ?_
    intro flag token h
    exact (eq_of_readFlag_checked h.1 h.2).symm
  rw [← List.forall₂_map_left_iff (R := Eq), List.forall₂_eq_eq_eq] at htoken
  exact htoken.symm

/-! ## Labels -/

theorem contains_labelSpecials (c : Char) :
    LABEL_SPECIALS.contains c = (atomSpecials.contains c || c == '[') := by
  rw [← contains_atomSpecials, Bool.eq_iff_iff, List.contains_iff_mem, List.contains_iff_mem]
  have hperm : LABEL_SPECIALS.Perm ImapOps.atomSpecials := by decide
  exact hperm.mem_iff

theorem labelChar_of_validateLabel {label : String} (h : validateLabel label = .ok ()) :
    label.toList ≠ [] ∧ ∀ c ∈ label.toList, isAtomChar c = true ∧ c ≠ '[' := by
  unfold validateLabel at h
  split_ifs at h with hempty hascii hlong hnul hslash hspecial hcontrol hsystem
  refine ⟨by simpa using hempty, ?_⟩
  intro c hc
  have hlow : isAscii c = true := by
    simp only [Bool.not_eq_true, Bool.not_eq_false'] at hascii
    exact List.all_eq_true.mp hascii c hc
  have hctl : isCtl c = false := by
    have hnot := List.any_eq_false.mp (Bool.eq_false_iff.mpr hcontrol) c hc
    exact Bool.eq_false_iff.mpr hnot
  have hplain := List.any_eq_false.mp (Bool.eq_false_iff.mpr hspecial) c hc
  rw [contains_labelSpecials, Bool.not_eq_true, Bool.or_eq_false_iff] at hplain
  refine ⟨?_, by simpa using hplain.2⟩
  rw [isAtomChar, hctl, hplain.1]
  simpa [isAscii] using hlow

/-- **A label is an ASCII keyword, so its list is read back.** -/
theorem flagList_of_validateLabel {label : String} (h : validateLabel label = .ok ()) :
    flagsString [.keyword label] = .ok label ∧
      readFlagList (parenthesised label) = some [.keyword label.toList] := by
  obtain ⟨hne, hchars⟩ := labelChar_of_validateLabel h
  have hkeyword : validateKeyword label = .ok () :=
    validateKeyword_ok_iff.mpr ⟨hne, fun c hc _ => hchars c hc⟩
  have hatom : isAtom label.toList = true :=
    isAtom_iff.mpr ⟨hne, fun c hc => (hchars c hc).1⟩
  have htext : label.toList = spelling [keywordToken label] := by simp [spelling, joined]; rfl
  refine ⟨flagsString_ok_iff.mpr ⟨by simpa [checkFlag] using hkeyword, htext⟩, ?_⟩
  exact (readFlagList_spelling htext).mpr (by simpa [keywordToken, FlagToken.atom] using hatom)

/-! ## The operations -/

/-- The program of the operations refuses the same keywords for the same reason. -/
theorem imapOps_validateKeyword_eq (k : String) :
    ImapOps.validateKeyword k = .done (validateKeyword k) := by
  unfold ImapOps.validateKeyword validateKeyword
  rw [findSome?_utf8 fun b => refusedByte_of_le]
  cases k.isEmpty with
  | true => rfl
  | false =>
      rw [if_neg Bool.false_ne_true, if_neg Bool.false_ne_true]
      induction k.toList with
      | nil => rfl
      | cons c rest ih =>
          rw [List.find?_cons, List.findSome?_cons, onChar_refusedByte]
          cases hctl : (decide (c.toNat ≤ 0x1F) || c.toNat == 0x7F) with
          | true =>
              simp only [Bool.true_or, hctl]
              rfl
          | false =>
              cases hspecial : ImapOps.atomSpecials.contains c with
              | true =>
                  simp only [Bool.false_or, hctl]
                  rfl
              | false => exact ih

theorem imapOps_checkFlags_eq (flags : List Flag) :
    ImapOps.checkFlags flags = .done (forM flags checkFlag) := by
  induction flags with
  | nil => rfl
  | cons flag rest ih =>
      cases flag with
      | keyword k =>
          rw [ImapOps.checkFlags, imapOps_validateKeyword_eq, ih, List.forM_cons, checkFlag]
          cases validateKeyword k <;> rfl
      | _ => exact ih

theorem imapOps_checkKeywords_eq (keywords : List String) :
    ImapOps.checkKeywords keywords = .done (forM keywords validateKeyword) := by
  induction keywords with
  | nil => rfl
  | cons k rest ih =>
      rw [ImapOps.checkKeywords, imapOps_validateKeyword_eq, ih, List.forM_cons]
      cases validateKeyword k <;> rfl

end RustyImap.FlagLists

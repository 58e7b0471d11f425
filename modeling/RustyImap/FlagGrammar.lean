import RustyImap.SeparatedItems

/-!
# Atoms and flag lists

The part of the formal syntax of IMAP4rev1 (RFC 3501, section 9) that a list of flags
is written in:

    atom       = 1*ATOM-CHAR
    ATOM-CHAR  = any CHAR except atom-specials
    flag       = "\" atom / atom
    flag-list  = "(" [flag *(SP flag)] ")"

The system flags are atoms behind a backslash, so one rule covers them.
-/

namespace RustyImap.FlagGrammar

open SeparatedItems

/-! ## Characters -/

/-- `atom-specials`, `CTL` apart. -/
def atomSpecials : List Char := ['(', ')', '\x7b', ' ', '%', '*', '"', '\\', ']']

def isCtl (c : Char) : Bool := c.toNat ≤ 0x1F || c.toNat == 0x7F

/-- `ATOM-CHAR`; `CHAR` is ASCII. -/
def isAtomChar (c : Char) : Bool := c.toNat < 0x80 && !isCtl c && !atomSpecials.contains c

theorem atomChar_ne_special {c d : Char} (h : isAtomChar c = true) (hd : d ∈ atomSpecials) :
    c ≠ d := by
  rintro rfl
  simp [isAtomChar, hd] at h

/-! ## Flags -/

inductive FlagToken where
  | extension (atom : List Char)
  | keyword (atom : List Char)
deriving DecidableEq, Repr

namespace FlagToken

def atom : FlagToken → List Char
  | .extension atom | .keyword atom => atom

def spelled : FlagToken → List Char
  | .extension atom => '\\' :: atom
  | .keyword atom => atom

end FlagToken

def isAtom (text : List Char) : Bool := !text.isEmpty && text.all isAtomChar

def readFlag : List Char → Option FlagToken
  | '\\' :: text => if isAtom text then some (.extension text) else none
  | text => if isAtom text then some (.keyword text) else none

/-- `[flag *(SP flag)]`. -/
def readFlags (text : List Char) : Option (List FlagToken) :=
  if text = [] then some [] else readItems ' ' readFlag text

/-- `flag-list`. -/
def readFlagList : List Char → Option (List FlagToken)
  | '(' :: text => if text.getLast? = some ')' then readFlags text.dropLast else none
  | _ => none

theorem isAtom_iff {text : List Char} :
    isAtom text = true ↔ text ≠ [] ∧ ∀ c ∈ text, isAtomChar c = true := by
  simp [isAtom]

theorem head_of_isAtom {text : List Char} (h : isAtom text = true) : text.head? ≠ some '\\' := by
  intro hhead
  have hmem : '\\' ∈ text := List.mem_of_mem_head? hhead
  exact atomChar_ne_special ((isAtom_iff.mp h).2 _ hmem) (by decide) rfl

theorem readFlag_backslash (atom : List Char) :
    readFlag ('\\' :: atom) = if isAtom atom then some (.extension atom) else none := rfl

theorem readFlag_of_ne {text : List Char} (h : text.head? ≠ some '\\') :
    readFlag text = if isAtom text then some (.keyword text) else none := by
  unfold readFlag
  split
  · exact absurd rfl h
  · rfl

/-- A flag is spelled in one way, and read from it when its atom is one. -/
theorem readFlag_eq_some_iff {text : List Char} {flag : FlagToken} :
    readFlag text = some flag ↔ text = flag.spelled ∧ isAtom flag.atom = true := by
  by_cases hslash : text.head? = some '\\'
  · obtain ⟨atom, rfl⟩ : ∃ atom, text = '\\' :: atom := List.head?_eq_some_iff.mp hslash
    rw [readFlag_backslash, Option.ite_none_right_eq_some, Option.some_inj]
    constructor
    · rintro ⟨hatom, rfl⟩
      exact ⟨rfl, hatom⟩
    · intro ⟨hspelled, hatom⟩
      cases flag with
      | extension other =>
          obtain rfl : atom = other := (List.cons.inj hspelled).2
          exact ⟨hatom, rfl⟩
      | keyword other =>
          obtain rfl : '\\' :: atom = other := hspelled
          exact absurd rfl (head_of_isAtom hatom)
  · rw [readFlag_of_ne hslash, Option.ite_none_right_eq_some, Option.some_inj]
    constructor
    · rintro ⟨hatom, rfl⟩
      exact ⟨rfl, hatom⟩
    · intro ⟨hspelled, hatom⟩
      cases flag with
      | extension other => exact absurd (congrArg List.head? hspelled) hslash
      | keyword other =>
          obtain rfl : text = other := hspelled
          exact ⟨hatom, rfl⟩

theorem readFlag_spelled (flag : FlagToken) :
    readFlag flag.spelled = some flag ↔ isAtom flag.atom = true := by
  rw [readFlag_eq_some_iff]
  exact and_iff_right rfl

/-! ## Lists of flags -/

theorem readFlagList_parenthesised (text : List Char) :
    readFlagList ('(' :: (text ++ [')'])) = readFlags text := by
  simp [readFlagList]

theorem spelled_ne_nil {flag : FlagToken} (h : isAtom flag.atom = true) : flag.spelled ≠ [] := by
  cases flag with
  | extension atom => exact List.cons_ne_nil _ _
  | keyword atom => exact (isAtom_iff.mp h).1

theorem space_not_mem_spelled {flag : FlagToken} (h : isAtom flag.atom = true) :
    ' ' ∉ flag.spelled := by
  have hatom : ' ' ∉ flag.atom := by
    intro hmem
    exact atomChar_ne_special ((isAtom_iff.mp h).2 _ hmem) (by decide) rfl
  cases flag with
  | extension atom =>
      intro hmem
      rcases List.mem_cons.mp hmem with heq | hmem
      · exact absurd heq (by decide)
      · exact hatom hmem
  | keyword atom => exact hatom

/-- **A list is read from its flags with spaces between, when all of them have atoms, and
    from nothing else.** -/
theorem readFlags_eq_some_iff {text : List Char} {flags : List FlagToken} :
    readFlags text = some flags ↔
      text = joined ' ' (flags.map FlagToken.spelled) ∧
        ∀ flag ∈ flags, isAtom flag.atom = true := by
  unfold readFlags
  by_cases htext : text = []
  · subst htext
    rw [if_pos rfl, Option.some_inj]
    constructor
    · rintro rfl
      exact ⟨rfl, by simp⟩
    · intro ⟨hjoined, hatoms⟩
      have hpieces : ∀ piece ∈ flags.map FlagToken.spelled, piece ≠ [] := by
        rw [List.forall_mem_map]
        exact fun flag hflag => spelled_ne_nil (hatoms flag hflag)
      exact (List.map_eq_nil_iff.mp ((joined_eq_nil_iff hpieces).mp hjoined.symm)).symm
  · rw [if_neg htext]
    by_cases hflags : flags = []
    · subst hflags
      exact iff_of_false (readItems_ne_nil text) fun h => htext h.1
    · have hread : ∀ {piece flag}, readFlag piece = some flag →
          piece = flag.spelled ∧ ' ' ∉ piece := by
        intro piece flag hread
        obtain ⟨rfl, hatom⟩ := readFlag_eq_some_iff.mp hread
        exact ⟨rfl, space_not_mem_spelled hatom⟩
      rw [readItems_eq_some_iff hread hflags]
      simp only [readFlag_spelled]

/-- What is joined without a space of its own is read flag by flag, atoms or not. -/
theorem readFlags_joined {flags : List FlagToken}
    (hflags : ∀ flag ∈ flags, flag.spelled ≠ [] ∧ ' ' ∉ flag.spelled) :
    readFlags (joined ' ' (flags.map FlagToken.spelled)) =
      (flags.map FlagToken.spelled).mapM readFlag := by
  unfold readFlags
  by_cases hnil : flags = []
  · subst hnil
    rfl
  · have hpieces : flags.map FlagToken.spelled ≠ [] := by simpa using hnil
    have hspelled : ∀ piece ∈ flags.map FlagToken.spelled, piece ≠ [] ∧ ' ' ∉ piece := by
      rw [List.forall_mem_map]
      exact hflags
    have hnonempty : joined ' ' (flags.map FlagToken.spelled) = [] ↔ _ :=
      joined_eq_nil_iff fun piece h => (hspelled piece h).1
    rw [if_neg (mt hnonempty.mp hpieces)]
    exact readItems_joined hpieces fun piece h => (hspelled piece h).2

end RustyImap.FlagGrammar

import Mathlib

/-!
# The search keys of IMAP (RFC 3501, section 6.4.4 and section 9)

The grammar of a `SEARCH` command's keys, as an executable parser over
characters: atoms, quoted strings with backslash escapes, numbers, dates with a
year of four digits, sequence sets, parenthesised lists, `NOT` and `OR`.  A
literal ends the line it stands on, so keys on one line hold none, and `{`
begins nothing.

Two points differ between the revisions of the protocol and are the parameters
of a `Grammar`: whether a quoted string may hold characters outside ASCII, and
how large a number may be.

The lemmas read a token off the front of a text, whatever follows it; they are
what a printer of search keys needs to be checked against the parser.
-/

namespace RustyImap.SearchGrammar

structure Grammar where
  eightBit : Bool
  numberLimit : Nat
deriving DecidableEq, Repr

def rfc3501 : Grammar := ⟨false, 2 ^ 32⟩

/-- The later revision: UTF-8 in quoted strings, numbers of 63 bits. -/
def rfc9051 : Grammar := ⟨true, 2 ^ 63⟩

/-! ## Syntax -/

inductive Month where
  | jan | feb | mar | apr | may | jun | jul | aug | sep | oct | nov | dec
deriving DecidableEq, Repr

def Month.abbrev : Month → List Char
  | .jan => ['J', 'a', 'n']
  | .feb => ['F', 'e', 'b']
  | .mar => ['M', 'a', 'r']
  | .apr => ['A', 'p', 'r']
  | .may => ['M', 'a', 'y']
  | .jun => ['J', 'u', 'n']
  | .jul => ['J', 'u', 'l']
  | .aug => ['A', 'u', 'g']
  | .sep => ['S', 'e', 'p']
  | .oct => ['O', 'c', 't']
  | .nov => ['N', 'o', 'v']
  | .dec => ['D', 'e', 'c']

def Month.all : List Month :=
  [.jan, .feb, .mar, .apr, .may, .jun, .jul, .aug, .sep, .oct, .nov, .dec]

structure DateText where
  day : Nat
  month : Month
  year : Int
deriving DecidableEq, Repr

/-- Keys without an argument. -/
inductive FlagKey where
  | all | answered | deleted | draft | flagged | new | old | recent | seen
  | unanswered | undeleted | undraft | unflagged | unseen
deriving DecidableEq, Repr

/-- Keys whose argument is an astring. -/
inductive TextKey where
  | bcc | body | cc | sender | subject | text | recipient
deriving DecidableEq, Repr

inductive DateKey where
  | before | on | sentBefore | sentOn | sentSince | since
deriving DecidableEq, Repr

inductive SizeKey where
  | larger | smaller
deriving DecidableEq, Repr

inductive Key where
  | flag (key : FlagKey)
  | text (key : TextKey) (value : List Char)
  | header (name value : List Char)
  | size (key : SizeKey) (n : Nat)
  | date (key : DateKey) (date : DateText)
  | keyword (flag : List Char)
  | unkeyword (flag : List Char)
  | uid (set : List Char)
  | sequence (set : List Char)
  | not (key : Key)
  | or (left right : Key)
  | group (keys : List Key)
deriving Repr

/-- What a word at the start of a key announces. -/
inductive Word where
  | flag (key : FlagKey)
  | text (key : TextKey)
  | header
  | size (key : SizeKey)
  | date (key : DateKey)
  | keyword
  | unkeyword
  | uid
  | not
  | or
deriving DecidableEq, Repr

def words : List (String × Word) :=
  [("ALL", .flag .all), ("ANSWERED", .flag .answered), ("DELETED", .flag .deleted),
    ("DRAFT", .flag .draft), ("FLAGGED", .flag .flagged), ("NEW", .flag .new),
    ("OLD", .flag .old), ("RECENT", .flag .recent), ("SEEN", .flag .seen),
    ("UNANSWERED", .flag .unanswered), ("UNDELETED", .flag .undeleted),
    ("UNDRAFT", .flag .undraft), ("UNFLAGGED", .flag .unflagged), ("UNSEEN", .flag .unseen),
    ("BCC", .text .bcc), ("BODY", .text .body), ("CC", .text .cc), ("FROM", .text .sender),
    ("SUBJECT", .text .subject), ("TEXT", .text .text), ("TO", .text .recipient),
    ("HEADER", .header), ("LARGER", .size .larger), ("SMALLER", .size .smaller),
    ("BEFORE", .date .before), ("ON", .date .on), ("SENTBEFORE", .date .sentBefore),
    ("SENTON", .date .sentOn), ("SENTSINCE", .date .sentSince), ("SINCE", .date .since),
    ("KEYWORD", .keyword), ("UNKEYWORD", .unkeyword), ("UID", .uid), ("NOT", .not), ("OR", .or)]

/-- Words are read without regard to case. -/
def wordOf (letters : List Char) : Option Word :=
  (words.find? fun entry => entry.1.toList == letters.map Char.toUpper).map Prod.snd

/-! ## Tokens -/

/-- `ATOM-CHAR`: printable ASCII without the atom specials. -/
def isAtomChar (c : Char) : Bool :=
  0x20 < c.toNat && c.toNat < 0x7f &&
    !(['(', ')', '\x7b', '%', '*', '"', '\\', ']'].contains c)

def isAstringChar (c : Char) : Bool := isAtomChar c || c == ']'

/-- A character that may stand in a quoted string, quoted specials escaped. -/
def Grammar.isTextChar (g : Grammar) (c : Char) : Bool :=
  !(c == '\r' || c == '\n' || c == '\x00') && (g.eightBit || c.toNat < 0x80)

/-- The rest of a quoted string, behind its opening quote. -/
def quotedBody (g : Grammar) : List Char → Option (List Char × List Char)
  | [] => none
  | '"' :: rest => some ([], rest)
  | '\\' :: c :: rest =>
      if c = '\\' ∨ c = '"' then (quotedBody g rest).map fun (s, rest) => (c :: s, rest)
      else none
  | c :: rest =>
      if g.isTextChar c && c != '\\' then
        (quotedBody g rest).map fun (s, rest) => (c :: s, rest)
      else none

def astring (g : Grammar) : List Char → Option (List Char × List Char)
  | '"' :: rest => quotedBody g rest
  | s =>
      let name := s.takeWhile isAstringChar
      if name.isEmpty then none else some (name, s.dropWhile isAstringChar)

def atom (s : List Char) : Option (List Char × List Char) :=
  let name := s.takeWhile isAtomChar
  if name.isEmpty then none else some (name, s.dropWhile isAtomChar)

def number (g : Grammar) (s : List Char) : Option (Nat × List Char) :=
  let digits := s.takeWhile Char.isDigit
  let n := Nat.ofDigitChars 10 digits 0
  if digits.isEmpty || decide (g.numberLimit ≤ n) then none
  else some (n, s.dropWhile Char.isDigit)

def monthOf (a b c : Char) : Option Month :=
  Month.all.find? fun m => m.abbrev.map Char.toUpper == [a, b, c].map Char.toUpper

/-- `date-month "-" 4DIGIT` behind the day. -/
def monthAndYear (day : Nat) : List Char → Option (DateText × List Char)
  | '-' :: a :: b :: c :: '-' :: y₁ :: y₂ :: y₃ :: y₄ :: rest =>
      if [y₁, y₂, y₃, y₄].all Char.isDigit then
        (monthOf a b c).map fun month =>
          (⟨day, month, Nat.ofDigitChars 10 [y₁, y₂, y₃, y₄] 0⟩, rest)
      else none
  | _ => none

/-- `date-text`: one or two digits of a day, a month and a year. -/
def dateText (s : List Char) : Option (DateText × List Char) :=
  let day := s.takeWhile Char.isDigit
  if day.length = 1 ∨ day.length = 2 then
    monthAndYear (Nat.ofDigitChars 10 day 0) (s.dropWhile Char.isDigit)
  else none

def date : List Char → Option (DateText × List Char)
  | '"' :: rest =>
      match dateText rest with
      | some (d, '"' :: rest) => some (d, rest)
      | _ => none
  | s => dateText s

def isSequenceChar (c : Char) : Bool := c.isDigit || c == '*' || c == ':' || c == ','

/-- `*` or a number that does not begin with 0. -/
def isSeqNumber (s : List Char) : Bool :=
  s == ['*'] || (s.all Char.isDigit && s.head?.any (· != '0'))

def isSequenceRange (s : List Char) : Bool :=
  (s.splitOn ':').all isSeqNumber && (s.splitOn ':').length ≤ 2

def sequenceSet (s : List Char) : Option (List Char × List Char) :=
  let set := s.takeWhile isSequenceChar
  if (set.splitOn ',').all isSequenceRange then some (set, s.dropWhile isSequenceChar) else none

/-! ## Keys -/

/-- The argument that a word asks for, behind the space; `key` reads the keys that
    `NOT` and `OR` take. -/
def argument (g : Grammar) (key : List Char → Option (Key × List Char)) (s : List Char) :
    Word → Option (Key × List Char)
  | .flag _ => none
  | .text k => (astring g s).map fun (value, rest) => (.text k value, rest)
  | .header =>
      match astring g s with
      | some (name, ' ' :: rest) =>
          (astring g rest).map fun (value, rest) => (.header name value, rest)
      | _ => none
  | .size k => (number g s).map fun (n, rest) => (.size k n, rest)
  | .date k => (date s).map fun (d, rest) => (.date k d, rest)
  | .keyword => (atom s).map fun (flag, rest) => (.keyword flag, rest)
  | .unkeyword => (atom s).map fun (flag, rest) => (.unkeyword flag, rest)
  | .uid => (sequenceSet s).map fun (set, rest) => (.uid set, rest)
  | .not => (key s).map fun (k, rest) => (.not k, rest)
  | .or =>
      match key s with
      | some (left, ' ' :: rest) => (key rest).map fun (right, rest) => (.or left right, rest)
      | _ => none

/-- What follows the word of a key. -/
def afterWord (g : Grammar) (key : List Char → Option (Key × List Char)) (s : List Char) :
    Word → Option (Key × List Char)
  | .flag k => some (.flag k, s)
  | w =>
      match s with
      | ' ' :: rest => argument g key rest w
      | _ => none

mutual

/-- One search key; the fuel bounds the nesting. -/
def searchKey (g : Grammar) : Nat → List Char → Option (Key × List Char)
  | 0, _ => none
  | fuel + 1, s =>
      match s with
      | [] => none
      | c :: rest =>
          if c = '(' then
            match searchKeys g fuel rest with
            | some (keys, ')' :: rest) => some (.group keys, rest)
            | _ => none
          else if c.isDigit || c == '*' then
            (sequenceSet s).map fun (set, rest) => (.sequence set, rest)
          else
            (wordOf (s.takeWhile Char.isAlpha)).bind
              (afterWord g (searchKey g fuel) (s.dropWhile Char.isAlpha))

/-- Keys with one space between them. -/
def searchKeys (g : Grammar) : Nat → List Char → Option (List Key × List Char)
  | 0, _ => none
  | fuel + 1, s =>
      match searchKey g fuel s with
      | some (key, ' ' :: rest) =>
          (searchKeys g fuel rest).map fun (keys, rest) => (key :: keys, rest)
      | some (key, rest) => some ([key], rest)
      | none => none

end

/-- The keys that make up the whole text. -/
def parseKeys (g : Grammar) (s : List Char) : Option (List Key) :=
  match searchKeys g (s.length + 1) s with
  | some (keys, []) => some keys
  | _ => none

example : parseKeys rfc3501 "OR SEEN (TO \"a\\\"b\" NOT 2:*)".toList =
    some [.or (.flag .seen)
      (.group [.text .recipient ['a', '"', 'b'], .not (.sequence ['2', ':', '*'])])] := rfl

/-! ## Reading a token off a text -/

/-- No character of the class stands at the front. -/
def Ends (p : Char → Bool) (rest : List Char) : Prop := ∀ c, rest.head? = some c → p c = false

/-- What may follow a key: nothing, a space or the end of a group. -/
def Delimited (rest : List Char) : Prop := ∀ c, rest.head? = some c → c = ' ' ∨ c = ')'

theorem delimited_nil : Delimited [] := by
  intro c hc
  cases hc

theorem delimited_space (rest : List Char) : Delimited (' ' :: rest) := by
  intro c hc
  exact Or.inl (Option.some.inj hc).symm

theorem delimited_close (rest : List Char) : Delimited (')' :: rest) := by
  intro c hc
  exact Or.inr (Option.some.inj hc).symm

theorem Delimited.ends {p : Char → Bool} {rest : List Char} (h : Delimited rest)
    (hspace : p ' ' = false) (hclose : p ')' = false) : Ends p rest := by
  intro c hc
  rcases h c hc with rfl | rfl
  · exact hspace
  · exact hclose

theorem ends_cons {p : Char → Bool} {c : Char} (h : p c = false) (rest : List Char) :
    Ends p (c :: rest) := by
  intro d hd
  obtain rfl := Option.some.inj hd
  exact h

section Munch

variable {p : Char → Bool} {run rest : List Char}

theorem takeWhile_append_ends (hrun : ∀ c ∈ run, p c = true) (hrest : Ends p rest) :
    (run ++ rest).takeWhile p = run := by
  rw [List.takeWhile_append_of_pos hrun]
  cases rest with
  | nil => simp
  | cons c rest =>
      rw [List.takeWhile_cons_of_neg (by simp [hrest c rfl]), List.append_nil]

theorem dropWhile_append_ends (hrun : ∀ c ∈ run, p c = true) (hrest : Ends p rest) :
    (run ++ rest).dropWhile p = rest := by
  rw [List.dropWhile_append_of_pos hrun]
  cases rest with
  | nil => rfl
  | cons c rest => rw [List.dropWhile_cons_of_neg (by simp [hrest c rfl])]

end Munch

/-! ### Quoted strings -/

/-- Backslashes before the quoted specials. -/
def escaped : List Char → List Char
  | [] => []
  | c :: s => if c = '\\' ∨ c = '"' then '\\' :: c :: escaped s else c :: escaped s

theorem quotedBody_escape (g : Grammar) {c : Char} (hc : c = '\\' ∨ c = '"')
    (rest : List Char) :
    quotedBody g ('\\' :: c :: rest) =
      (quotedBody g rest).map fun (s, rest) => (c :: s, rest) := by
  rw [quotedBody, if_pos hc]

theorem quotedBody_cons (g : Grammar) {c : Char} (hslash : c ≠ '\\') (hquote : c ≠ '"')
    (rest : List Char) :
    quotedBody g (c :: rest) =
      if g.isTextChar c then (quotedBody g rest).map fun (s, rest) => (c :: s, rest)
      else none := by
  rw [quotedBody.eq_def]
  split
  · simp_all
  · simp_all
  · simp_all
  · simp_all

theorem isTextChar_special (g : Grammar) {c : Char} (hc : c = '\\' ∨ c = '"') :
    g.isTextChar c = true := by
  rcases hc with rfl | rfl <;> simp [Grammar.isTextChar]

/-- **An escaped string is read back** if the grammar has its characters, and is no
    quoted string otherwise. -/
theorem quotedBody_escaped (g : Grammar) (value rest : List Char) :
    quotedBody g (escaped value ++ '"' :: rest) =
      if value.all g.isTextChar then some (value, rest) else none := by
  induction value with
  | nil => simp [escaped, quotedBody]
  | cons c value ih =>
      by_cases hc : c = '\\' ∨ c = '"'
      · rw [escaped, if_pos hc, List.cons_append, List.cons_append, quotedBody_escape g hc, ih,
          List.all_cons, isTextChar_special g hc]
        cases value.all g.isTextChar <;> simp
      · obtain ⟨hslash, hquote⟩ := not_or.mp hc
        rw [escaped, if_neg hc, List.cons_append, quotedBody_cons g hslash hquote, ih,
          List.all_cons]
        cases g.isTextChar c <;> cases value.all g.isTextChar <;> simp

/-- A space that a quoted string spans is part of its value, and the value is
    shorter than what it is written with. -/
theorem quotedBody_span {g : Grammar} {s value rest : List Char}
    (h : quotedBody g s = some (value, rest)) :
    ∃ span, s = span ++ rest ∧ value.length < span.length ∧ (' ' ∈ span → ' ' ∈ value) := by
  fun_induction quotedBody g s generalizing value with
  | case1 => cases h
  | case2 tail =>
      obtain ⟨rfl, rfl⟩ := Prod.mk.inj (Option.some.inj h)
      exact ⟨['"'], rfl, by simp, by simp⟩
  | case3 c tail hc ih =>
      obtain ⟨⟨inner, back⟩, hinner, heq⟩ := Option.map_eq_some_iff.mp h
      obtain ⟨rfl, rfl⟩ := Prod.mk.inj heq
      obtain ⟨span, rfl, hlength, hspace⟩ := ih hinner
      refine ⟨'\\' :: c :: span, rfl, by simp; omega, ?_⟩
      intro hmem
      rcases List.mem_cons.mp hmem with habs | hmem
      · exact absurd habs (by decide)
      · rcases List.mem_cons.mp hmem with rfl | hmem
        · simp
        · exact List.mem_cons_of_mem _ (hspace hmem)
  | case4 c tail hc => cases h
  | case5 c tail _ _ hc ih =>
      obtain ⟨⟨inner, back⟩, hinner, heq⟩ := Option.map_eq_some_iff.mp h
      obtain ⟨rfl, rfl⟩ := Prod.mk.inj heq
      obtain ⟨span, rfl, hlength, hspace⟩ := ih hinner
      refine ⟨c :: span, rfl, by simpa using hlength, ?_⟩
      intro hmem
      rcases List.mem_cons.mp hmem with rfl | hmem
      · simp
      · exact List.mem_cons_of_mem _ (hspace hmem)
  | case6 => cases h

/-! ### Atoms -/

theorem astring_quoted (g : Grammar) (value rest : List Char) :
    astring g ('"' :: (escaped value ++ '"' :: rest)) =
      if value.all g.isTextChar then some (value, rest) else none := by
  rw [astring, quotedBody_escaped]

theorem astring_of_ne (g : Grammar) {c : Char} (hc : c ≠ '"') (s : List Char) :
    astring g (c :: s) =
      if ((c :: s).takeWhile isAstringChar).isEmpty then none
      else some ((c :: s).takeWhile isAstringChar, (c :: s).dropWhile isAstringChar) := by
  rw [astring.eq_def]
  split
  · simp_all
  · rfl

/-- A name of atom characters is read back. -/
theorem astring_name (g : Grammar) {name rest : List Char} (hne : name ≠ [])
    (hname : ∀ c ∈ name, isAstringChar c = true) (hrest : Ends isAstringChar rest) :
    astring g (name ++ rest) = some (name, rest) := by
  obtain ⟨c, tail, rfl⟩ := List.exists_cons_of_ne_nil hne
  have hquote : c ≠ '"' := by
    rintro rfl
    exact absurd (hname '"' (by simp)) (by decide)
  have htake := takeWhile_append_ends hname hrest
  have hdrop := dropWhile_append_ends hname hrest
  rw [List.cons_append] at htake hdrop ⊢
  rw [astring_of_ne g hquote, htake, hdrop]
  rfl

/-- A name without spaces that is read back in front of one has atom characters
    only: cut short it would be another name, and as a quoted string it would have
    taken in the space. -/
theorem isAstringChar_of_astring {g : Grammar} {name tail rest : List Char}
    (hspace : ' ' ∉ name) (h : astring g (name ++ ' ' :: tail) = some (name, rest)) :
    ∀ c ∈ name, isAstringChar c = true := by
  intro c hc
  obtain ⟨d, name', rfl⟩ := List.exists_cons_of_ne_nil (List.ne_nil_of_mem hc)
  by_cases hquote : d = '"'
  · subst hquote
    rw [List.cons_append, astring] at h
    obtain ⟨span, hspan, hlength, hin⟩ := quotedBody_span h
    -- the span is longer than the name behind its quote
    have hreach : ' ' ∈ span := by
      have hprefix : span <+: name' ++ ' ' :: tail := ⟨rest, hspan.symm⟩
      have hfront : name' ++ [' '] <+: name' ++ ' ' :: tail := ⟨tail, by simp⟩
      have hle : (name' ++ [' ']).length ≤ span.length := by
        rw [List.length_append, List.length_singleton]
        rw [List.length_cons] at hlength
        omega
      exact (List.prefix_of_prefix_length_le hfront hprefix hle).subset (by simp)
    exact absurd (hin hreach) hspace
  · rw [List.cons_append, astring_of_ne g hquote] at h
    split at h
    · cases h
    · have htake := (Prod.mk.inj (Option.some.inj h)).1
      rw [← htake] at hc
      exact List.mem_takeWhile_imp hc

/-! ### Numbers -/

theorem isDigit_of_mem_toDigits (n : Nat) : ∀ c ∈ Nat.toDigits 10 n, c.isDigit = true :=
  fun _ hc => Nat.isDigit_of_mem_toDigits (by decide) (by decide) hc

theorem number_toDigits (g : Grammar) (n : Nat) {rest : List Char}
    (hrest : Ends Char.isDigit rest) :
    number g (Nat.toDigits 10 n ++ rest) =
      if n < g.numberLimit then some (n, rest) else none := by
  unfold number
  rw [takeWhile_append_ends (isDigit_of_mem_toDigits n) hrest,
    dropWhile_append_ends (isDigit_of_mem_toDigits n) hrest]
  dsimp only
  rw [Nat.ofDigitChars_ten_toDigits]
  have hne : (Nat.toDigits 10 n).isEmpty = false := by simp
  by_cases hn : n < g.numberLimit
  · simp [hne, hn, Nat.not_le.mpr hn]
  · simp [hn, Nat.not_lt.mp hn]

/-! ### Dates -/

/-- A year in decimal, with a sign if it is negative. -/
def yearText : Int → List Char
  | .ofNat n => Nat.toDigits 10 n
  | .negSucc n => '-' :: Nat.toDigits 10 (n + 1)

def twoDigits (n : Nat) : List Char := [Nat.digitChar (n / 10), Nat.digitChar (n % 10)]

theorem monthOf_abbrev (m : Month) :
    ∃ a b c, m.abbrev = [a, b, c] ∧ monthOf a b c = some m := by
  cases m <;> exact ⟨_, _, _, rfl, rfl⟩

theorem monthAndYear_cons (day : Nat) (m : Month) {y₁ y₂ y₃ y₄ : Char} (rest : List Char) :
    monthAndYear day ('-' :: (m.abbrev ++ '-' :: y₁ :: y₂ :: y₃ :: y₄ :: rest)) =
      if [y₁, y₂, y₃, y₄].all Char.isDigit then
        some (⟨day, m, Nat.ofDigitChars 10 [y₁, y₂, y₃, y₄] 0⟩, rest)
      else none := by
  obtain ⟨a, b, c, habbrev, hmonth⟩ := monthOf_abbrev m
  simp only [habbrev, List.cons_append, List.nil_append, monthAndYear, hmonth, Option.map_some]

/-- Behind the month at least four characters must follow. -/
theorem monthAndYear_short (day : Nat) (m : Month) {s : List Char} (hs : s.length < 4) :
    monthAndYear day ('-' :: (m.abbrev ++ '-' :: s)) = none := by
  obtain ⟨a, b, c, habbrev, -⟩ := monthOf_abbrev m
  rw [habbrev]
  match s, hs with
  | [], _ => rfl
  | [_], _ => rfl
  | [_, _], _ => rfl
  | [_, _, _], _ => rfl

theorem digitChar_isDigit {d : Nat} (hd : d < 10) : (Nat.digitChar d).isDigit = true := by
  have hall : ∀ d < 10, (Nat.digitChar d).isDigit = true := by decide
  exact hall d hd

theorem ofDigitChars_twoDigits {n : Nat} (hn : n < 100) :
    Nat.ofDigitChars 10 (twoDigits n) 0 = n := by
  rw [twoDigits, Nat.ofDigitChars_cons_digitChar_of_lt_ten (by omega),
    Nat.ofDigitChars_cons_digitChar_of_lt_ten (by omega), Nat.ofDigitChars_nil]
  omega

/-- Two digits of a day are read off, whatever is made of the rest. -/
theorem dateText_twoDigits {day : Nat} (hday : day < 100) (s : List Char) :
    dateText (twoDigits day ++ '-' :: s) = monthAndYear day ('-' :: s) := by
  have hdigits : ∀ c ∈ twoDigits day, c.isDigit = true := by
    intro c hc
    rcases List.mem_cons.mp hc with rfl | hc
    · exact digitChar_isDigit (by omega)
    · rw [List.mem_singleton.mp hc]
      exact digitChar_isDigit (by omega)
  have hends : Ends Char.isDigit ('-' :: s) := ends_cons (by decide) s
  unfold dateText
  rw [takeWhile_append_ends hdigits hends, dropWhile_append_ends hdigits hends]
  dsimp only
  rw [ofDigitChars_twoDigits hday]
  rfl

theorem exists_four_of_length {s : List Char} (h : s.length = 4) :
    ∃ y₁ y₂ y₃ y₄, s = [y₁, y₂, y₃, y₄] := by
  match s, h with
  | [y₁, y₂, y₃, y₄], _ => exact ⟨y₁, y₂, y₃, y₄, rfl⟩

/-- A year of four digits has four digits. -/
theorem exists_four_digits {n : Nat} (hlow : 1000 ≤ n) (hhigh : n ≤ 9999) :
    ∃ y₁ y₂ y₃ y₄, Nat.toDigits 10 n = [y₁, y₂, y₃, y₄] := by
  have hle : (Nat.toDigits 10 n).length ≤ 4 :=
    (Nat.length_toDigits_le_iff (by decide) (by decide)).mpr (by omega)
  have hgt : ¬ (Nat.toDigits 10 n).length ≤ 3 := by
    rw [Nat.length_toDigits_le_iff (by decide) (by decide)]
    omega
  exact exists_four_of_length (by omega)

/-- A run of digits cut off by something else reaches as far as four digits do. -/
theorem four_le_length {run rest : List Char} (hrest : Ends Char.isDigit rest)
    {y₁ y₂ y₃ y₄ : Char} {s : List Char} (h : run ++ rest = y₁ :: y₂ :: y₃ :: y₄ :: s)
    (hdigits : [y₁, y₂, y₃, y₄].all Char.isDigit = true) : 4 ≤ run.length := by
  have hget : ∀ i, i < 4 → run.length = i → False := by
    intro i hi hlength
    have hhead : rest.head? = (y₁ :: y₂ :: y₃ :: y₄ :: s)[i]? := by
      rw [← h, List.getElem?_append_right (by omega), hlength, Nat.sub_self,
        List.head?_eq_getElem?]
    have hall : y₁.isDigit = true ∧ y₂.isDigit = true ∧ y₃.isDigit = true ∧
        y₄.isDigit = true := by
      simpa using hdigits
    obtain ⟨h₁, h₂, h₃, h₄⟩ := hall
    match i, hi with
    | 0, _ => exact absurd (hrest y₁ hhead) (by simp [h₁])
    | 1, _ => exact absurd (hrest y₂ hhead) (by simp [h₂])
    | 2, _ => exact absurd (hrest y₃ hhead) (by simp [h₃])
    | 3, _ => exact absurd (hrest y₄ hhead) (by simp [h₄])
  by_contra hlt
  exact hget run.length (by omega) rfl

theorem ofDigitChars_four_lt {y₁ y₂ y₃ y₄ : Char}
    (hdigits : [y₁, y₂, y₃, y₄].all Char.isDigit = true) :
    Nat.ofDigitChars 10 [y₁, y₂, y₃, y₄] 0 < 10000 := by
  have hvalue : ∀ c : Char, c.isDigit = true → c.toNat - '0'.toNat ≤ 9 := by
    intro c hc
    simp only [Char.isDigit, ge_iff_le, Bool.and_eq_true, decide_eq_true_eq,
      UInt32.le_iff_toNat_le] at hc
    have hnat : c.toNat = c.val.toNat := rfl
    have hzero : '0'.toNat = 48 := rfl
    have hnine : '9'.val.toNat = 57 := rfl
    omega
  have hall : y₁.isDigit = true ∧ y₂.isDigit = true ∧ y₃.isDigit = true ∧
      y₄.isDigit = true := by
    simpa using hdigits
  obtain ⟨h₁, h₂, h₃, h₄⟩ := hall
  have v₁ := hvalue y₁ h₁
  have v₂ := hvalue y₂ h₂
  have v₃ := hvalue y₃ h₃
  have v₄ := hvalue y₄ h₄
  simp only [Nat.ofDigitChars_cons, Nat.ofDigitChars_nil]
  omega

/-- **A date is read back** if its year has four digits. -/
theorem dateText_spelled {d : DateText} (hday : d.day < 100) (hlow : 1000 ≤ d.year)
    (hhigh : d.year ≤ 9999) (rest : List Char) :
    dateText (twoDigits d.day ++ '-' :: (d.month.abbrev ++ '-' :: (yearText d.year ++ rest))) =
      some (d, rest) := by
  obtain ⟨day, month, year⟩ := d
  dsimp only at hday hlow hhigh ⊢
  obtain ⟨n, rfl⟩ := Int.eq_ofNat_of_zero_le (by omega : 0 ≤ year)
  obtain ⟨y₁, y₂, y₃, y₄, hdigits⟩ := exists_four_digits (n := n) (by omega) (by omega)
  have hall : [y₁, y₂, y₃, y₄].all Char.isDigit = true := by
    rw [← hdigits, List.all_eq_true]
    exact isDigit_of_mem_toDigits n
  have hyear : yearText (n : Int) = [y₁, y₂, y₃, y₄] := hdigits
  rw [dateText_twoDigits hday, hyear]
  simp only [List.cons_append, List.nil_append]
  rw [monthAndYear_cons, if_pos hall, ← hdigits, Nat.ofDigitChars_ten_toDigits]

/-- Another year is never read back as itself. -/
theorem year_of_dateText {d : DateText} (hday : d.day < 100) {rest rest' : List Char}
    (hrest : Ends Char.isDigit rest)
    (h : dateText
        (twoDigits d.day ++ '-' :: (d.month.abbrev ++ '-' :: (yearText d.year ++ rest))) =
      some (d, rest')) : 1000 ≤ d.year ∧ d.year ≤ 9999 := by
  obtain ⟨day, month, year⟩ := d
  dsimp only at hday h ⊢
  rw [dateText_twoDigits hday] at h
  by_cases hshort : (yearText year ++ rest).length < 4
  · rw [monthAndYear_short day month hshort] at h
    cases h
  · obtain ⟨y₁, y₂, y₃, y₄, s, hs⟩ :
        ∃ y₁ y₂ y₃ y₄ s, yearText year ++ rest = y₁ :: y₂ :: y₃ :: y₄ :: s := by
      match hyear : yearText year ++ rest, hshort with
      | y₁ :: y₂ :: y₃ :: y₄ :: s, _ => exact ⟨y₁, y₂, y₃, y₄, s, rfl⟩
      | [], hshort => exact absurd (by simp) hshort
      | [_], hshort => exact absurd (by simp) hshort
      | [_, _], hshort => exact absurd (by simp) hshort
      | [_, _, _], hshort => exact absurd (by simp) hshort
    rw [hs, monthAndYear_cons] at h
    split at h
    case isFalse => cases h
    case isTrue hdigits =>
      have hvalue : (Nat.ofDigitChars 10 [y₁, y₂, y₃, y₄] 0 : Int) = year :=
        congrArg DateText.year (Prod.mk.inj (Option.some.inj h)).1
      have hlt := ofDigitChars_four_lt hdigits
      obtain ⟨n, rfl⟩ : ∃ n : Nat, year = n := ⟨_, hvalue.symm⟩
      have hlength : 4 ≤ (Nat.toDigits 10 n).length := four_le_length hrest hs hdigits
      have hge : ¬ n < 10 ^ 3 := by
        rw [← Nat.length_toDigits_le_iff (by decide) (by decide)]
        omega
      have hvalue' : Nat.ofDigitChars 10 [y₁, y₂, y₃, y₄] 0 = n := Int.ofNat.inj hvalue
      omega

/-! ## Reading a key off a text -/

theorem isDigit_eq_false_of_isAlpha {c : Char} (h : c.isAlpha = true) : c.isDigit = false := by
  simp only [Char.isAlpha, Char.isUpper, Char.isLower, Char.isDigit, Bool.or_eq_true,
    Bool.and_eq_true, decide_eq_true_eq, ge_iff_le, UInt32.le_iff_toNat_le] at h ⊢
  have hA : 'A'.val.toNat = 65 := rfl
  have ha : 'a'.val.toNat = 97 := rfl
  have hnine : '9'.val.toNat = 57 := rfl
  simp only [Bool.and_eq_false_iff, decide_eq_false_iff_not]
  omega

/-- `word` is a run of letters that announces `w`. -/
def isWord (word : List Char) (w : Word) : Bool :=
  !word.isEmpty && word.all Char.isAlpha && wordOf word == some w

theorem isWord_iff {word : List Char} {w : Word} :
    isWord word w = true ↔
      word ≠ [] ∧ (∀ c ∈ word, c.isAlpha = true) ∧ wordOf word = some w := by
  simp [isWord, and_assoc]

/-- A key that begins with a word is read by what the word announces. -/
theorem searchKey_word (g : Grammar) (fuel : Nat) {word rest : List Char} {w : Word}
    (hw : isWord word w = true) (hrest : Ends Char.isAlpha rest) :
    searchKey g (fuel + 1) (word ++ rest) = afterWord g (searchKey g fuel) rest w := by
  obtain ⟨hne, hword, hlook⟩ := isWord_iff.mp hw
  have htake := takeWhile_append_ends hword hrest
  have hdrop := dropWhile_append_ends hword hrest
  obtain ⟨c, tail, rfl⟩ := List.exists_cons_of_ne_nil hne
  have hc : c.isAlpha = true := hword c (by simp)
  have hparen : c ≠ '(' := by
    rintro rfl
    exact absurd hc (by decide)
  have hstar : (c == '*') = false := by
    refine beq_eq_false_iff_ne.mpr ?_
    rintro rfl
    exact absurd hc (by decide)
  rw [List.cons_append] at htake hdrop ⊢
  rw [searchKey]
  simp only [if_neg hparen, isDigit_eq_false_of_isAlpha hc, hstar, Bool.or_self,
    Bool.false_eq_true, if_false, htake, hdrop, hlook, Option.bind_some]

theorem afterWord_space (g : Grammar) (key : List Char → Option (Key × List Char))
    (rest : List Char) {w : Word} (hw : ∀ k, w ≠ .flag k) :
    afterWord g key (' ' :: rest) w = argument g key rest w := by
  cases w with
  | flag k => exact absurd rfl (hw k)
  | _ => rfl

/-- A word with its argument behind one space. -/
theorem searchKey_argument (g : Grammar) (fuel : Nat) {word : List Char} {w : Word}
    (hw : isWord word w = true) (hflag : ∀ k, w ≠ .flag k) (rest : List Char) :
    searchKey g (fuel + 1) (word ++ ' ' :: rest) = argument g (searchKey g fuel) rest w := by
  rw [searchKey_word g fuel hw (ends_cons (by decide) rest), afterWord_space g _ _ hflag]

/-- The argument of the key can be written in the grammar. -/
def Key.Expressible (g : Grammar) : Key → Prop
  | .text _ value => value.all g.isTextChar = true
  | .header name value =>
      (∀ c ∈ name, isAstringChar c = true) ∧ value.all g.isTextChar = true
  | .size _ n => n < g.numberLimit
  | .date _ d => 1000 ≤ d.year ∧ d.year ≤ 9999
  | _ => True

instance decidableExpressible (g : Grammar) : (key : Key) → Decidable (key.Expressible g)
  | .text _ value => inferInstanceAs (Decidable (value.all g.isTextChar = true))
  | .header name value =>
      @instDecidableAnd _ _ (List.decidableBAll (fun c => isAstringChar c = true) name)
        (inferInstanceAs (Decidable (value.all g.isTextChar = true)))
  | .size _ n => inferInstanceAs (Decidable (n < g.numberLimit))
  | .date _ d => inferInstanceAs (Decidable (1000 ≤ d.year ∧ d.year ≤ 9999))
  | .flag _ | .keyword _ | .unkeyword _ | .uid _ | .sequence _ | .not _ | .or _ _ | .group _ =>
      isTrue trivial

/-- `text` is how `key` is written: it is read back wherever a key may stand, as soon
    as the argument can be written at all, and never otherwise. -/
structure Spells (g : Grammar) (text : List Char) (key : Key) : Prop where
  read : key.Expressible g → ∀ fuel rest, Delimited rest →
    searchKey g (fuel + 1) (text ++ rest) = some (key, rest)
  expressible : ∀ fuel rest rest', Delimited rest →
    searchKey g fuel (text ++ rest) = some (key, rest') → key.Expressible g

section Spellings

variable {g : Grammar} {word : List Char}

theorem Spells.of_ite {text : List Char} {key : Key} {P : Prop} [Decidable P]
    (hP : key.Expressible g ↔ P)
    (h : ∀ fuel rest, Delimited rest →
      searchKey g (fuel + 1) (text ++ rest) = if P then some (key, rest) else none) :
    Spells g text key where
  read := by
    intro hexpr fuel rest hrest
    rw [h fuel rest hrest, if_pos (hP.mp hexpr)]
  expressible := by
    intro fuel rest rest' hrest hread
    cases fuel with
    | zero => cases hread
    | succ fuel =>
        rw [h fuel rest hrest] at hread
        by_contra hnot
        rw [if_neg fun hp => hnot (hP.mpr hp)] at hread
        cases hread

theorem spells_flag {k : FlagKey} (hw : isWord word (.flag k) = true) :
    Spells g word (.flag k) where
  read := by
    intro _ fuel rest hrest
    rw [searchKey_word g fuel hw (hrest.ends (by decide) (by decide))]
    rfl
  expressible := fun _ _ _ _ _ => trivial

/-- The text of a quoted string. -/
def quotedText (value : List Char) : List Char := '"' :: (escaped value ++ ['"'])

theorem quotedText_append (value rest : List Char) :
    quotedText value ++ rest = '"' :: (escaped value ++ '"' :: rest) := by
  simp [quotedText]

theorem spells_text {k : TextKey} (hw : isWord word (.text k) = true) (value : List Char) :
    Spells g (word ++ ' ' :: quotedText value) (.text k value) := by
  have hkey : ∀ fuel rest, searchKey g (fuel + 1) ((word ++ ' ' :: quotedText value) ++ rest) =
      if value.all g.isTextChar then some (.text k value, rest) else none := by
    intro fuel rest
    rw [List.append_assoc, List.cons_append, quotedText_append,
      searchKey_argument g fuel hw (by simp), argument, astring_quoted]
    split <;> rfl
  exact Spells.of_ite (P := value.all g.isTextChar = true) Iff.rfl fun fuel rest _ =>
    hkey fuel rest

theorem spells_size {k : SizeKey} (hw : isWord word (.size k) = true) (n : Nat) :
    Spells g (word ++ ' ' :: Nat.toDigits 10 n) (.size k n) := by
  have hkey : ∀ fuel rest, Delimited rest →
      searchKey g (fuel + 1) ((word ++ ' ' :: Nat.toDigits 10 n) ++ rest) =
        if n < g.numberLimit then some (.size k n, rest) else none := by
    intro fuel rest hrest
    rw [List.append_assoc, List.cons_append, searchKey_argument g fuel hw (by simp),
      argument, number_toDigits g n (hrest.ends (by decide) (by decide))]
    split <;> rfl
  exact Spells.of_ite (P := n < g.numberLimit) Iff.rfl hkey

/-- The text of a date. -/
def dateSpelling (d : DateText) : List Char :=
  twoDigits d.day ++ '-' :: (d.month.abbrev ++ '-' :: yearText d.year)

theorem spells_date {k : DateKey} (hw : isWord word (.date k) = true) {d : DateText}
    (hday : d.day < 100) :
    Spells g (word ++ ' ' :: dateSpelling d) (.date k d) := by
  have hdate : ∀ rest, date (dateSpelling d ++ rest) =
      dateText (twoDigits d.day ++
        '-' :: (d.month.abbrev ++ '-' :: (yearText d.year ++ rest))) := by
    intro rest
    have hquote : Nat.digitChar (d.day / 10) ≠ '"' := by
      intro heq
      have hdigit := digitChar_isDigit (d := d.day / 10) (by omega)
      rw [heq] at hdigit
      exact absurd hdigit (by decide)
    have hsplit : dateSpelling d ++ rest = twoDigits d.day ++
        '-' :: (d.month.abbrev ++ '-' :: (yearText d.year ++ rest)) := by
      simp [dateSpelling]
    rw [hsplit, twoDigits, List.cons_append, date]
    intro tail htail
    exact hquote (List.cons.inj htail).1
  have hkey : ∀ fuel rest, searchKey g (fuel + 1) ((word ++ ' ' :: dateSpelling d) ++ rest) =
      (dateText (twoDigits d.day ++
        '-' :: (d.month.abbrev ++ '-' :: (yearText d.year ++ rest)))).map
          fun (d, rest) => (.date k d, rest) := by
    intro fuel rest
    rw [List.append_assoc, List.cons_append, searchKey_argument g fuel hw (by simp),
      argument, hdate]
  refine ⟨?_, ?_⟩
  · rintro ⟨hlow, hhigh⟩ fuel rest _
    rw [hkey fuel rest, dateText_spelled hday hlow hhigh]
    rfl
  · intro fuel rest rest' hrest h
    cases fuel with
    | zero => cases h
    | succ fuel =>
        rw [hkey fuel rest, Option.map_eq_some_iff] at h
        obtain ⟨⟨d', back⟩, hread, heq⟩ := h
        obtain ⟨hkeys, rfl⟩ := Prod.mk.inj heq
        obtain ⟨-, rfl⟩ := Key.date.inj hkeys
        exact year_of_dateText hday (hrest.ends (by decide) (by decide)) hread

theorem isWord_header : isWord ['H', 'E', 'A', 'D', 'E', 'R'] .header = true := by decide

theorem argument_header {key : List Char → Option (Key × List Char)} {s name rest : List Char}
    (h : astring g s = some (name, ' ' :: rest)) :
    argument g key s .header =
      (astring g rest).map fun (value, rest) => (.header name value, rest) := by
  rw [argument, h]
  rfl

theorem spells_header {name : List Char} (hne : name ≠ []) (hspace : ' ' ∉ name)
    (value : List Char) :
    Spells g ("HEADER ".toList ++ name ++ ' ' :: quotedText value) (.header name value) := by
  have hkey : ∀ fuel rest,
      searchKey g (fuel + 1) (("HEADER ".toList ++ name ++ ' ' :: quotedText value) ++ rest) =
        argument g (searchKey g fuel) (name ++ ' ' :: (quotedText value ++ rest)) .header := by
    intro fuel rest
    have hsplit : ("HEADER ".toList ++ name ++ ' ' :: quotedText value) ++ rest =
        ['H', 'E', 'A', 'D', 'E', 'R'] ++
          ' ' :: (name ++ ' ' :: (quotedText value ++ rest)) := by
      simp
    rw [hsplit, searchKey_argument g fuel isWord_header (by simp)]
  refine ⟨?_, ?_⟩
  · rintro ⟨hname, hvalue⟩ fuel rest _
    rw [hkey fuel rest, argument_header (astring_name g hne hname (ends_cons (by decide) _)),
      quotedText_append, astring_quoted, if_pos hvalue]
    rfl
  · intro fuel rest rest' _ h
    cases fuel with
    | zero => cases h
    | succ fuel =>
        rw [hkey fuel rest, argument] at h
        split at h
        case h_2 => cases h
        case h_1 name' back hname' =>
          obtain ⟨⟨value', rest''⟩, hvalue', heq⟩ := Option.map_eq_some_iff.mp h
          obtain ⟨hkeys, rfl⟩ := Prod.mk.inj heq
          obtain ⟨rfl, rfl⟩ := Key.header.inj hkeys
          have hchars := isAstringChar_of_astring hspace hname'
          rw [astring_name g hne hchars (ends_cons (by decide) _)] at hname'
          obtain rfl : quotedText value' ++ rest = back := by
            simpa using (Prod.mk.inj (Option.some.inj hname')).2
          rw [quotedText_append, astring_quoted] at hvalue'
          refine ⟨hchars, ?_⟩
          by_contra hnot
          rw [if_neg hnot] at hvalue'
          cases hvalue'

end Spellings

/-! ## Several keys -/

section Several

variable {g : Grammar}

theorem searchKeys_cons {fuel : Nat} {s rest : List Char} {key : Key}
    (h : searchKey g fuel s = some (key, ' ' :: rest)) :
    searchKeys g (fuel + 1) s =
      (searchKeys g fuel rest).map fun (keys, rest) => (key :: keys, rest) := by
  rw [searchKeys, h]
  rfl

theorem searchKeys_last {fuel : Nat} {s rest : List Char} {key : Key}
    (h : searchKey g fuel s = some (key, rest)) (hrest : rest.head? ≠ some ' ') :
    searchKeys g (fuel + 1) s = some ([key], rest) := by
  rw [searchKeys, h]
  split
  · rename_i hsome
    obtain ⟨rfl, rfl⟩ := Prod.mk.inj (Option.some.inj hsome)
    exact absurd rfl hrest
  · rename_i hsome
    obtain ⟨rfl, rfl⟩ := Prod.mk.inj (Option.some.inj hsome)
    rfl
  · rename_i hnone
    cases hnone

/-- Texts with one space between them. -/
def spaced : List (List Char) → List Char
  | [] => []
  | [text] => text
  | text :: texts => text ++ ' ' :: spaced texts

theorem spaced_cons_cons (text text' : List Char) (texts : List (List Char)) :
    spaced (text :: text' :: texts) = text ++ ' ' :: spaced (text' :: texts) := rfl

theorem length_le_length_spaced {texts : List (List Char)} (h : ∀ text ∈ texts, text ≠ []) :
    texts.length ≤ (spaced texts).length := by
  induction texts with
  | nil => simp
  | cons text texts ih =>
      have htext : 0 < text.length := List.length_pos_iff.mpr (h text (by simp))
      have hrest := ih fun text htext => h text (by simp [htext])
      cases texts with
      | nil => exact htext
      | cons text' texts =>
          rw [spaced_cons_cons]
          simp only [List.length_append, List.length_cons] at hrest ⊢
          omega

theorem Spells.ne_nil {text : List Char} {key : Key} (h : Spells g text key)
    (hexpr : key.Expressible g) : text ≠ [] := by
  rintro rfl
  have hread := h.read hexpr 0 [] delimited_nil
  cases hread

theorem ne_nil_of_spells {texts : List (List Char)} {keys : List Key}
    (hspell : List.Forall₂ (Spells g) texts keys) (hexpr : ∀ key ∈ keys, key.Expressible g) :
    ∀ text ∈ texts, text ≠ [] := by
  induction hspell with
  | nil => simp
  | cons hkey _ ih =>
      refine List.forall_mem_cons.mpr ⟨hkey.ne_nil (hexpr _ (by simp)), ?_⟩
      exact ih fun key hkey => hexpr key (List.mem_cons_of_mem _ hkey)

/-- Keys that can be written are read back one by one. -/
theorem searchKeys_spaced {texts : List (List Char)} {keys : List Key}
    (hspell : List.Forall₂ (Spells g) texts keys) (hne : texts ≠ [])
    (hexpr : ∀ key ∈ keys, key.Expressible g) {fuel : Nat} (hfuel : texts.length < fuel) :
    searchKeys g fuel (spaced texts) = some (keys, []) := by
  induction hspell generalizing fuel with
  | nil => exact absurd rfl hne
  | @cons text key texts keys hkey hkeys ih =>
      obtain ⟨fuel, rfl⟩ : ∃ n, fuel = n + 2 := ⟨fuel - 2, by simp at hfuel; omega⟩
      cases hkeys with
      | nil =>
          have hread := hkey.read (hexpr _ (by simp)) fuel [] delimited_nil
          rw [List.append_nil] at hread
          exact searchKeys_last hread (by simp)
      | @cons text' key' texts keys hkey' hkeys =>
          have hread := hkey.read (hexpr _ (by simp)) fuel (' ' :: spaced (text' :: texts))
            (delimited_space _)
          have hrest : searchKeys g (fuel + 1) (spaced (text' :: texts)) =
              some (key' :: keys, []) :=
            ih (by simp) (fun k hk => hexpr k (List.mem_cons_of_mem _ hk)) (by simpa using hfuel)
          rw [spaced_cons_cons, searchKeys_cons hread, hrest]
          rfl

/-- What comes first of several keys, and what follows it. -/
theorem searchKeys_uncons {fuel : Nat} {s rest : List Char} {key : Key} {keys : List Key}
    (h : searchKeys g (fuel + 1) s = some (key :: keys, rest)) :
    (searchKey g fuel s = some (key, rest) ∧ keys = []) ∨
      ∃ back, searchKey g fuel s = some (key, ' ' :: back) ∧
        searchKeys g fuel back = some (keys, rest) := by
  rw [searchKeys] at h
  split at h
  case h_1 first back hfirst =>
    obtain ⟨⟨more, rest'⟩, hmore, heq⟩ := Option.map_eq_some_iff.mp h
    obtain ⟨hkeys, rfl⟩ := Prod.mk.inj heq
    obtain ⟨rfl, rfl⟩ := List.cons.inj hkeys
    exact Or.inr ⟨back, hfirst, hmore⟩
  case h_2 first back hnospace hfirst =>
    obtain ⟨hkeys, rfl⟩ := Prod.mk.inj (Option.some.inj h)
    obtain ⟨rfl, rfl⟩ := List.cons.inj hkeys
    exact Or.inl ⟨hfirst, rfl⟩
  case h_3 => cases h

/-- Keys that are read back can be written. -/
theorem expressible_of_searchKeys {texts : List (List Char)} {keys : List Key}
    (hspell : List.Forall₂ (Spells g) texts keys) {fuel : Nat} {rest : List Char}
    (h : searchKeys g fuel (spaced texts) = some (keys, rest)) :
    ∀ key ∈ keys, key.Expressible g := by
  induction hspell generalizing fuel rest with
  | nil => simp
  | @cons text key texts keys hkey hkeys ih =>
      cases fuel with
      | zero => cases h
      | succ fuel =>
          cases hkeys with
          | nil =>
              have hfirst : ∃ rest', searchKey g fuel (text ++ []) = some (key, rest') := by
                rw [List.append_nil]
                rcases searchKeys_uncons h with ⟨hread, -⟩ | ⟨back, hread, -⟩
                · exact ⟨_, hread⟩
                · exact ⟨_, hread⟩
              obtain ⟨rest', hfirst⟩ := hfirst
              have hexpr := hkey.expressible fuel [] rest' delimited_nil hfirst
              simpa using hexpr
          | @cons text' key' texts keys hkey' hkeys =>
              rw [spaced_cons_cons] at h
              have hdelim := delimited_space (spaced (text' :: texts))
              rcases searchKeys_uncons h with ⟨-, hnil⟩ | ⟨back, hread, hmore⟩
              · cases hnil
              · have hexpr := hkey.expressible fuel _ _ hdelim hread
                cases fuel with
                | zero => cases hread
                | succ fuel =>
                    -- the first key ends where its text does
                    rw [hkey.read hexpr fuel _ hdelim] at hread
                    obtain rfl : spaced (text' :: texts) = back := by
                      simpa using (Prod.mk.inj (Option.some.inj hread)).2
                    exact List.forall_mem_cons.mpr ⟨hexpr, ih hmore⟩

/-- **The texts of keys, spaced, are the keys** exactly when each of them can be
    written. -/
theorem parseKeys_spaced_iff {texts : List (List Char)} {keys : List Key}
    (hspell : List.Forall₂ (Spells g) texts keys) (hne : texts ≠ []) :
    parseKeys g (spaced texts) = some keys ↔ ∀ key ∈ keys, key.Expressible g := by
  constructor
  · intro h
    unfold parseKeys at h
    split at h
    case h_1 keys' hread =>
      obtain rfl := Option.some.inj h
      exact expressible_of_searchKeys hspell hread
    case h_2 => cases h
  · intro hexpr
    have hlength := length_le_length_spaced (ne_nil_of_spells hspell hexpr)
    unfold parseKeys
    rw [searchKeys_spaced hspell hne hexpr (by omega)]

end Several

/-! ## Disjunctions of many keys -/

/-- What a key says, given what the keys without parts say. -/
def Key.Holds (atom : Key → Prop) : Key → Prop
  | .not key => ¬ key.Holds atom
  | .or left right => left.Holds atom ∨ right.Holds atom
  | .group keys => ∀ key ∈ keys, key.Holds atom
  | key => atom key

/-- The alternatives of nested `OR`s, left to right. -/
def Key.disjuncts : Key → List Key
  | .or left right => left.disjuncts ++ right.disjuncts
  | .group [key] => key.disjuncts
  | key => [key]

/-- `OR` takes two keys; the right one is a group with the rest. -/
def nested : Key → List Key → Key
  | key, [] => key
  | key, key' :: keys => .or key (.group [nested key' keys])

def orText : List Char → List (List Char) → List Char
  | text, [] => text
  | text, text' :: texts =>
      "OR ".toList ++ text ++ " (".toList ++ orText text' texts ++ [')']

section Disjunction

variable {g : Grammar}

/-- A key that is no `OR` and no group is its only alternative. -/
def Key.IsPlain (key : Key) : Prop := key.disjuncts = [key] ∧ ∀ atom, key.Holds atom ↔ atom key

theorem disjuncts_nested {key : Key} {keys : List Key} (hkey : key.IsPlain)
    (hkeys : ∀ k ∈ keys, k.IsPlain) : (nested key keys).disjuncts = key :: keys := by
  induction keys generalizing key with
  | nil => exact hkey.1
  | cons key' keys ih =>
      have hrest := ih (hkeys key' (by simp)) fun k hk => hkeys k (by simp [hk])
      simp only [nested, Key.disjuncts, hkey.1, hrest, List.singleton_append]

/-- A nested `OR` says that one of the keys holds. -/
theorem holds_nested {key : Key} {keys : List Key} (hkey : key.IsPlain)
    (hkeys : ∀ k ∈ keys, k.IsPlain) (atom : Key → Prop) :
    (nested key keys).Holds atom ↔ ∃ k ∈ key :: keys, atom k := by
  induction keys generalizing key with
  | nil => simpa [nested] using hkey.2 atom
  | cons key' keys ih =>
      have hrest := ih (hkeys key' (by simp)) fun k hk => hkeys k (by simp [hk])
      have hgroup : (Key.group [nested key' keys]).Holds atom ↔ ∃ k ∈ key' :: keys, atom k := by
        rw [← hrest, Key.Holds]
        simp
      rw [nested, Key.Holds, hkey.2 atom, hgroup]
      simp only [List.exists_mem_cons_iff]

theorem isWord_or : isWord ['O', 'R'] .or = true := by decide

theorem argument_or {key : List Char → Option (Key × List Char)} {s rest : List Char}
    {left : Key} (h : key s = some (left, ' ' :: rest)) :
    argument g key s .or =
      (key rest).map fun (right, rest) => (.or left right, rest) := by
  rw [argument, h]
  rfl

theorem searchKey_group {fuel : Nat} {s rest : List Char} {keys : List Key}
    (h : searchKeys g fuel s = some (keys, ')' :: rest)) :
    searchKey g (fuel + 1) ('(' :: s) = some (.group keys, rest) := by
  rw [searchKey]
  simp only [if_true, h]

/-- **The nested text is read back whole**, for any number of alternatives. -/
theorem searchKey_orText {text : List Char} {key : Key} {texts : List (List Char)}
    {keys : List Key} (hspell : Spells g text key)
    (hspells : List.Forall₂ (Spells g) texts keys)
    (hexpr : ∀ k ∈ key :: keys, k.Expressible g) {fuel : Nat} (hfuel : 3 * texts.length < fuel)
    {rest : List Char} (hrest : Delimited rest) :
    searchKey g fuel (orText text texts ++ rest) = some (nested key keys, rest) := by
  induction hspells generalizing text key fuel rest with
  | nil =>
      obtain ⟨fuel, rfl⟩ : ∃ n, fuel = n + 1 := ⟨fuel - 1, by simp at hfuel; omega⟩
      exact hspell.read (hexpr key (by simp)) fuel rest hrest
  | @cons text' key' texts keys hspell' hspells ih =>
      obtain ⟨fuel, rfl⟩ : ∃ n, fuel = n + 4 := ⟨fuel - 4, by simp at hfuel; omega⟩
      have hsplit : orText text (text' :: texts) ++ rest =
          ['O', 'R'] ++ ' ' :: (text ++ ' ' :: '(' :: (orText text' texts ++ ')' :: rest)) := by
        simp [orText]
      have hleft := hspell.read (hexpr key (by simp)) (fuel + 2)
        (' ' :: '(' :: (orText text' texts ++ ')' :: rest)) (delimited_space _)
      have hright : searchKey g (fuel + 1) (orText text' texts ++ ')' :: rest) =
          some (nested key' keys, ')' :: rest) :=
        ih hspell' (fun k hk => hexpr k (List.mem_cons_of_mem _ hk))
          (by simp at hfuel; omega) (delimited_close rest)
      have hgroup : searchKey g (fuel + 3) ('(' :: (orText text' texts ++ ')' :: rest)) =
          some (.group [nested key' keys], rest) :=
        searchKey_group (searchKeys_last hright (by simp))
      rw [hsplit, searchKey_argument g (fuel + 3) isWord_or (by simp), argument_or hleft, hgroup]
      rfl

theorem length_orText_ge (text : List Char) (texts : List (List Char)) :
    3 * texts.length + text.length ≤ (orText text texts).length := by
  induction texts generalizing text with
  | nil => simp [orText]
  | cons text' texts ih =>
      have hrest := ih text'
      have hword : "OR ".toList.length = 3 := rfl
      have hopen : " (".toList.length = 2 := rfl
      simp only [orText, List.length_append, hword, hopen, List.length_cons, List.length_nil]
      omega

theorem parseKeys_orText {text : List Char} {key : Key} {texts : List (List Char)}
    {keys : List Key} (hspell : Spells g text key)
    (hspells : List.Forall₂ (Spells g) texts keys)
    (hexpr : ∀ k ∈ key :: keys, k.Expressible g) :
    parseKeys g (orText text texts) = some [nested key keys] := by
  have hlength := length_orText_ge text texts
  have hpos : 0 < text.length :=
    List.length_pos_iff.mpr (hspell.ne_nil (hexpr key (by simp)))
  have hread : searchKey g (orText text texts).length (orText text texts ++ []) =
      some (nested key keys, []) :=
    searchKey_orText hspell hspells hexpr (by omega) delimited_nil
  rw [List.append_nil] at hread
  unfold parseKeys
  rw [searchKeys_last hread (by simp)]

end Disjunction

end RustyImap.SearchGrammar

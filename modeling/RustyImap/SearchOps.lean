import RustyImap.Errors
import RustyImap.ImapOps
import RustyImap.SearchGrammar

/-!
# The text of a `SEARCH` command (`rimap-imap/src/ops/search.rs`)

`structured_to_key` with its validators, and the thread query of
`thread_related` with `or_join` and the cap on ancestors
(`rimap-server/src/tools/retrieval/search.rs`).

What the text means is settled by reading it back with the grammar of
`SearchGrammar`.  `intendedKeys` are the keys that the fields of a query stand
for; the text is read back as these keys exactly when each of them can be
written in the grammar at all.  `validate_header_name` does not make sure of
that: among the printable characters are those that open a quoted string, a
group or a literal.
-/

namespace RustyImap.SearchOps

open ImapOps (ImapError)
open SearchGrammar

/-! ## The query and its text -/

/-- `time::Date`; more days than some months have are allowed here. -/
structure Date where
  year : Int
  month : Month
  day : Nat
  day_pos : 1 ≤ day
  day_le : day ≤ 31
deriving DecidableEq, Repr

structure HeaderSearch where
  name : String
  value : String
deriving DecidableEq, Repr

structure StructuredQuery where
  from_ : Option String := none
  to_ : Option String := none
  subject : Option String := none
  since : Option Date := none
  before : Option Date := none
  seen : Option Bool := none
  hasAttachment : Bool := false
  cc : Option String := none
  bcc : Option String := none
  body : Option String := none
  text : Option String := none
  headers : Option (List HeaderSearch) := none
  larger : Option Nat := none
  smaller : Option Nat := none
  sentSince : Option Date := none
  sentBefore : Option Date := none
  answered : Option Bool := none
  flagged : Option Bool := none
  draft : Option Bool := none
deriving DecidableEq, Repr

/-- CR, LF and NUL are one byte each in UTF-8 and part of no other character. -/
def quote (s : String) : Except ImapError String :=
  if s.toList.any fun c => c == '\r' || c == '\n' || c == '\x00' then
    .error (.invalidInput "search string" "contains forbidden control bytes (CR/LF/NUL)")
  else
    .ok (.ofList (['"'] ++
      s.toList.flatMap (fun c => if c = '\\' ∨ c = '"' then ['\\', c] else [c]) ++ ['"']))

def validateHeaderName (name : String) : Except ImapError Unit :=
  if name = "" then .error (.invalidInput "header name" "empty")
  else if name.toList.all fun c => 33 ≤ c.toNat && c.toNat ≤ 126 && c != ':' then .ok ()
  else .error (.invalidInput "header name" "must be printable ASCII without ':'")

def monthName : Month → String
  | .jan => "Jan"
  | .feb => "Feb"
  | .mar => "Mar"
  | .apr => "Apr"
  | .may => "May"
  | .jun => "Jun"
  | .jul => "Jul"
  | .aug => "Aug"
  | .sep => "Sep"
  | .oct => "Oct"
  | .nov => "Nov"
  | .dec => "Dec"

/-- `\x7b:02\x7d` of a number below 100. -/
def padded2 (n : Nat) : String := if n < 10 then "0" ++ toString n else toString n

def formatImapDate (d : Date) : String :=
  padded2 d.day ++ "-" ++ monthName d.month ++ "-" ++ toString d.year

/-- `format!("FROM \x7b\x7d", quote(s)?)` and its like. -/
def textClause (name : String) : Option String → Except ImapError (List String)
  | some s => do
      let quoted ← quote s
      return [name ++ " " ++ quoted]
  | none => return []

def headerClause (h : HeaderSearch) : Except ImapError String := do
  validateHeaderName h.name
  let quoted ← quote h.value
  return "HEADER " ++ h.name ++ " " ++ quoted

def headerClauses : Option (List HeaderSearch) → Except ImapError (List String)
  | some hs => hs.mapM headerClause
  | none => return []

def sizeClause (name : String) : Option Nat → List String
  | some n => [name ++ " " ++ toString n]
  | none => []

def dateClause (name : String) : Option Date → List String
  | some d => [name ++ " " ++ formatImapDate d]
  | none => []

/-- `push_flag_clause`. -/
def flagClause (value : Option Bool) (yes no : String) : List String :=
  match value with
  | some true => [yes]
  | some false => [no]
  | none => []

/-- No clause at all is written `ALL`. -/
def joinParts (parts : List String) : String :=
  if parts.isEmpty then "ALL" else " ".intercalate parts

def structuredToKey (q : StructuredQuery) : Except ImapError String := do
  let from_ ← textClause "FROM" q.from_
  let to_ ← textClause "TO" q.to_
  let cc ← textClause "CC" q.cc
  let bcc ← textClause "BCC" q.bcc
  let subject ← textClause "SUBJECT" q.subject
  let body ← textClause "BODY" q.body
  let text ← textClause "TEXT" q.text
  let headers ← headerClauses q.headers
  return joinParts (from_ ++ to_ ++ cc ++ bcc ++ subject ++ body ++ text ++ headers ++
    sizeClause "LARGER" q.larger ++ sizeClause "SMALLER" q.smaller ++
    dateClause "SINCE" q.since ++ dateClause "BEFORE" q.before ++
    dateClause "SENTSINCE" q.sentSince ++ dateClause "SENTBEFORE" q.sentBefore ++
    flagClause q.seen "SEEN" "UNSEEN" ++ flagClause q.answered "ANSWERED" "UNANSWERED" ++
    flagClause q.flagged "FLAGGED" "UNFLAGGED" ++ flagClause q.draft "DRAFT" "UNDRAFT" ++
    (if q.hasAttachment then ["BODY \"Content-Disposition: attachment\""] else []))

/-! ## What the fields stand for -/

def textKeys (key : TextKey) : Option String → List Key
  | some s => [.text key s.toList]
  | none => []

def headerKey (h : HeaderSearch) : Key := .header h.name.toList h.value.toList

def sizeKeys (key : SizeKey) : Option Nat → List Key
  | some n => [.size key n]
  | none => []

def dateKeys (key : DateKey) : Option Date → List Key
  | some d => [.date key ⟨d.day, d.month, d.year⟩]
  | none => []

def flagKeys (value : Option Bool) (yes no : FlagKey) : List Key :=
  match value with
  | some true => [.flag yes]
  | some false => [.flag no]
  | none => []

/-- One key for each field that is set, with the field's own value. -/
def fieldKeys (q : StructuredQuery) : List Key :=
  textKeys .sender q.from_ ++ textKeys .recipient q.to_ ++ textKeys .cc q.cc ++
    textKeys .bcc q.bcc ++ textKeys .subject q.subject ++ textKeys .body q.body ++
    textKeys .text q.text ++ (q.headers.getD []).map headerKey ++
    sizeKeys .larger q.larger ++ sizeKeys .smaller q.smaller ++
    dateKeys .since q.since ++ dateKeys .before q.before ++
    dateKeys .sentSince q.sentSince ++ dateKeys .sentBefore q.sentBefore ++
    flagKeys q.seen .seen .unseen ++ flagKeys q.answered .answered .unanswered ++
    flagKeys q.flagged .flagged .unflagged ++ flagKeys q.draft .draft .undraft ++
    textKeys .body (if q.hasAttachment then some "Content-Disposition: attachment" else none)

/-- An empty query stands for every message. -/
def intendedKeys (q : StructuredQuery) : List Key :=
  if fieldKeys q = [] then [.flag .all] else fieldKeys q

/-! ## Each clause spells its key -/

/-- Texts and the keys they are written for, one to one. -/
def Written (g : Grammar) (texts : List String) (keys : List Key) : Prop :=
  List.Forall₂ (Spells g) (texts.map String.toList) keys

section Clauses

variable {g : Grammar}

theorem Written.nil : Written g [] [] := List.Forall₂.nil

theorem Written.singleton {text : String} {key : Key} (h : Spells g text.toList key) :
    Written g [text] [key] := List.Forall₂.cons h List.Forall₂.nil

theorem Written.append {texts texts' : List String} {keys keys' : List Key}
    (h : Written g texts keys) (h' : Written g texts' keys') :
    Written g (texts ++ texts') (keys ++ keys') := by
  unfold Written
  rw [List.map_append]
  exact List.rel_append h h'

theorem flatMap_eq_escaped (s : List Char) :
    s.flatMap (fun c => if c = '\\' ∨ c = '"' then ['\\', c] else [c]) = escaped s := by
  induction s with
  | nil => rfl
  | cons c s ih =>
      rw [List.flatMap_cons, ih, escaped]
      split <;> rfl

theorem toList_quote {s out : String} (h : quote s = .ok out) :
    out.toList = quotedText s.toList := by
  unfold quote at h
  split at h
  · cases h
  · obtain rfl := Except.ok.inj h
    rw [String.toList_ofList, flatMap_eq_escaped, quotedText]
    simp

/-- The characters that `quote` lets through are those of a grammar that has
    characters outside ASCII. -/
theorem isTextChar_of_quote {s out : String} (h : quote s = .ok out)
    (hascii : g.eightBit = true ∨ ∀ c ∈ s.toList, c.toNat < 0x80) :
    s.toList.all g.isTextChar = true := by
  unfold quote at h
  split at h
  · cases h
  · rename_i hclean
    rw [List.all_eq_true]
    intro c hc
    have hcontrol : (c == '\r' || c == '\n' || c == '\x00') = false := by
      rw [Bool.not_eq_true, List.any_eq_false] at hclean
      simpa using hclean c hc
    have hwide : (g.eightBit || decide (c.toNat < 0x80)) = true := by
      rcases hascii with hbit | hascii
      · rw [hbit, Bool.true_or]
      · simp [hascii c hc]
    unfold Grammar.isTextChar
    rw [hcontrol, hwide]
    rfl

theorem written_textClause {name : String} (key : TextKey) {value : Option String}
    {texts : List String} (hname : isWord name.toList (.text key) = true)
    (h : textClause name value = .ok texts) : Written g texts (textKeys key value) := by
  cases value with
  | none =>
      obtain rfl := Except.ok.inj h
      exact Written.nil
  | some s =>
      obtain ⟨quoted, hquoted, h⟩ := bind_eq_ok h
      obtain rfl := Except.ok.inj h
      have htext : (name ++ " " ++ quoted).toList =
          name.toList ++ ' ' :: quotedText s.toList := by
        simp [← toList_quote hquoted]
      refine Written.singleton ?_
      rw [htext]
      exact spells_text hname s.toList

theorem space_not_mem_of_validate {name : String} (h : validateHeaderName name = .ok ()) :
    name.toList ≠ [] ∧ ' ' ∉ name.toList := by
  unfold validateHeaderName at h
  split at h
  · cases h
  · rename_i hne
    refine ⟨fun hnil => hne (String.toList_inj.mp hnil), ?_⟩
    split at h
    · rename_i hall
      intro hmem
      have hspace := List.all_eq_true.mp hall ' ' hmem
      exact absurd hspace (by decide)
    · cases h

theorem spells_headerClause {h : HeaderSearch} {text : String} (hok : headerClause h = .ok text) :
    Spells g text.toList (headerKey h) := by
  obtain ⟨_, hvalid, hok⟩ := bind_eq_ok hok
  obtain ⟨quoted, hquoted, hok⟩ := bind_eq_ok hok
  obtain rfl := Except.ok.inj hok
  obtain ⟨hne, hspace⟩ := space_not_mem_of_validate hvalid
  have htext : ("HEADER " ++ h.name ++ " " ++ quoted).toList =
      "HEADER ".toList ++ h.name.toList ++ ' ' :: quotedText h.value.toList := by
    simp [← toList_quote hquoted]
  rw [htext]
  exact spells_header hne hspace h.value.toList

theorem written_headers {hs : List HeaderSearch} {texts : List String}
    (h : hs.mapM headerClause = .ok texts) : Written g texts (hs.map headerKey) := by
  induction hs generalizing texts with
  | nil =>
      obtain rfl := Except.ok.inj h
      exact Written.nil
  | cons first hs ih =>
      rw [List.mapM_cons] at h
      obtain ⟨text, hfirst, h⟩ := bind_eq_ok h
      obtain ⟨rest, hrest, h⟩ := bind_eq_ok h
      obtain rfl := Except.ok.inj h
      exact List.Forall₂.cons (spells_headerClause hfirst) (ih hrest)

theorem written_headerClauses {headers : Option (List HeaderSearch)} {texts : List String}
    (h : headerClauses headers = .ok texts) :
    Written g texts ((headers.getD []).map headerKey) := by
  cases headers with
  | none =>
      obtain rfl := Except.ok.inj h
      exact Written.nil
  | some hs => exact written_headers h

theorem written_sizeClause (name : String) (key : SizeKey)
    (hname : isWord name.toList (.size key) = true) (value : Option Nat) :
    Written g (sizeClause name value) (sizeKeys key value) := by
  cases value with
  | none => exact Written.nil
  | some n =>
      have htext : (name ++ " " ++ toString n).toList =
          name.toList ++ ' ' :: Nat.toDigits 10 n := by
        simp [Nat.toString_eq_repr, Nat.toList_repr]
      refine Written.singleton ?_
      rw [htext]
      exact spells_size hname n

theorem toList_padded2 {n : Nat} (hn : n < 100) : (padded2 n).toList = twoDigits n := by
  unfold padded2 twoDigits
  split
  · rename_i hsmall
    rw [String.toList_append, Nat.toString_eq_repr, Nat.toList_repr,
      Nat.toDigits_of_lt_base hsmall, Nat.div_eq_of_lt hsmall, Nat.mod_eq_of_lt hsmall]
    rfl
  · rename_i hlarge
    rw [Nat.toString_eq_repr, Nat.toList_repr,
      Nat.toDigits_of_base_le (by decide) (Nat.not_lt.mp hlarge),
      Nat.toDigits_of_lt_base (by omega)]
    rfl

theorem toList_year (year : Int) : year.repr.toList = yearText year := by
  cases year with
  | ofNat n => exact Nat.toList_repr
  | negSucc n =>
      have hsign : (Int.negSucc n).repr = "-" ++ (n + 1).repr := rfl
      rw [hsign, String.toList_append, Nat.toList_repr]
      rfl

theorem toList_monthName (m : Month) : (monthName m).toList = m.abbrev := by
  cases m <;> rfl

theorem toList_formatImapDate (d : Date) :
    (formatImapDate d).toList = dateSpelling ⟨d.day, d.month, d.year⟩ := by
  have hday : d.day < 100 := by
    have := d.day_le
    omega
  unfold formatImapDate dateSpelling
  simp [toList_padded2 hday, toList_monthName, toList_year]

theorem written_dateClause (name : String) (key : DateKey)
    (hname : isWord name.toList (.date key) = true) (value : Option Date) :
    Written g (dateClause name value) (dateKeys key value) := by
  cases value with
  | none => exact Written.nil
  | some d =>
      have htext : (name ++ " " ++ formatImapDate d).toList =
          name.toList ++ ' ' :: dateSpelling ⟨d.day, d.month, d.year⟩ := by
        simp [toList_formatImapDate]
      have hday : d.day < 100 := by
        have := d.day_le
        omega
      refine Written.singleton ?_
      rw [htext]
      exact spells_date hname hday

theorem written_flagClause (yes no : String) (yesKey noKey : FlagKey)
    (hyes : isWord yes.toList (.flag yesKey) = true)
    (hno : isWord no.toList (.flag noKey) = true) (value : Option Bool) :
    Written g (flagClause value yes no) (flagKeys value yesKey noKey) := by
  rcases value with - | - | -
  · exact Written.nil
  · exact Written.singleton (spells_flag hno)
  · exact Written.singleton (spells_flag hyes)

end Clauses

/-! ## The structured query -/

theorem toList_intercalate_space (texts : List String) :
    (" ".intercalate texts).toList = spaced (texts.map String.toList) := by
  induction texts with
  | nil => rfl
  | cons text texts ih =>
      cases texts with
      | nil => simp [spaced]
      | cons text' texts =>
          rw [String.intercalate_cons_cons, String.toList_append, String.toList_append, ih]
          simp [spaced]

theorem Written.eq_nil_iff {g : Grammar} {texts : List String} {keys : List Key}
    (h : Written g texts keys) : texts = [] ↔ keys = [] := by
  have hlength := List.Forall₂.length_eq h
  rw [List.length_map] at hlength
  rw [← List.length_eq_zero_iff, hlength, List.length_eq_zero_iff]

theorem spells_attachment (g : Grammar) :
    Spells g "BODY \"Content-Disposition: attachment\"".toList
      (.text .body "Content-Disposition: attachment".toList) :=
  @spells_text g "BODY".toList .body (by decide) "Content-Disposition: attachment".toList

theorem written_attachment (g : Grammar) (wanted : Bool) :
    Written g (if wanted then ["BODY \"Content-Disposition: attachment\""] else [])
      (textKeys .body (if wanted then some "Content-Disposition: attachment" else none)) := by
  cases wanted with
  | false => exact Written.nil
  | true => exact Written.singleton (spells_attachment g)

theorem written_joinParts {g : Grammar} {parts : List String} {keys : List Key}
    (h : Written g parts keys) :
    ∃ texts, texts ≠ [] ∧ Written g texts (if keys = [] then [.flag .all] else keys) ∧
      joinParts parts = " ".intercalate texts := by
  by_cases hnil : parts = []
  · refine ⟨["ALL"], by simp, ?_, by simp [joinParts, hnil]⟩
    rw [if_pos (h.eq_nil_iff.mp hnil)]
    exact Written.singleton (spells_flag (by decide))
  · refine ⟨parts, hnil, ?_, by simp [joinParts, hnil]⟩
    rw [if_neg fun hkeys => hnil (h.eq_nil_iff.mpr hkeys)]
    exact h

/-- The text of a query is that of its keys, with spaces between them. -/
theorem written_structuredToKey (g : Grammar) {q : StructuredQuery} {k : String}
    (h : structuredToKey q = .ok k) :
    ∃ texts, texts ≠ [] ∧ Written g texts (intendedKeys q) ∧ k = " ".intercalate texts := by
  unfold structuredToKey at h
  obtain ⟨from_, hfrom, h⟩ := bind_eq_ok h
  obtain ⟨to_, hto, h⟩ := bind_eq_ok h
  obtain ⟨cc, hcc, h⟩ := bind_eq_ok h
  obtain ⟨bcc, hbcc, h⟩ := bind_eq_ok h
  obtain ⟨subject, hsubject, h⟩ := bind_eq_ok h
  obtain ⟨body, hbody, h⟩ := bind_eq_ok h
  obtain ⟨text, htext, h⟩ := bind_eq_ok h
  obtain ⟨headers, hheaders, h⟩ := bind_eq_ok h
  have hstrings : Written g (from_ ++ to_ ++ cc ++ bcc ++ subject ++ body ++ text ++ headers) _ :=
    (((((((written_textClause .sender (by decide) hfrom).append
      (written_textClause .recipient (by decide) hto)).append
      (written_textClause .cc (by decide) hcc)).append
      (written_textClause .bcc (by decide) hbcc)).append
      (written_textClause .subject (by decide) hsubject)).append
      (written_textClause .body (by decide) hbody)).append
      (written_textClause .text (by decide) htext)).append (written_headerClauses hheaders)
  have hdates := (((((hstrings.append
      (written_sizeClause "LARGER" .larger (by decide) q.larger)).append
      (written_sizeClause "SMALLER" .smaller (by decide) q.smaller)).append
      (written_dateClause "SINCE" .since (by decide) q.since)).append
      (written_dateClause "BEFORE" .before (by decide) q.before)).append
      (written_dateClause "SENTSINCE" .sentSince (by decide) q.sentSince)).append
      (written_dateClause "SENTBEFORE" .sentBefore (by decide) q.sentBefore)
  have hparts := ((((hdates.append
      (written_flagClause "SEEN" "UNSEEN" .seen .unseen (by decide) (by decide) q.seen)).append
      (written_flagClause "ANSWERED" "UNANSWERED" .answered .unanswered (by decide) (by decide)
        q.answered)).append
      (written_flagClause "FLAGGED" "UNFLAGGED" .flagged .unflagged (by decide) (by decide)
        q.flagged)).append
      (written_flagClause "DRAFT" "UNDRAFT" .draft .undraft (by decide) (by decide)
        q.draft)).append (written_attachment g q.hasAttachment)
  obtain ⟨texts, hne, hwritten, hjoin⟩ := written_joinParts hparts
  have hk := Except.ok.inj h
  exact ⟨texts, hne, hwritten, hk.symm.trans hjoin⟩

/-- **A structured search means its fields** exactly when every field's value can be
    written in the grammar: header names of atom characters, years of four digits,
    sizes within the grammar's numbers, strings of the grammar's characters. -/
theorem structured_search_iff (g : Grammar) {q : StructuredQuery} {k : String}
    (h : structuredToKey q = .ok k) :
    parseKeys g k.toList = some (intendedKeys q) ↔
      ∀ key ∈ intendedKeys q, key.Expressible g := by
  obtain ⟨texts, hne, hwritten, rfl⟩ := written_structuredToKey g h
  rw [toList_intercalate_space]
  exact parseKeys_spaced_iff hwritten (by simpa using hne)

/-- A sender and a header, the header's value with both quoted specials. -/
def quotedQuery : StructuredQuery where
  from_ := some "alice"
  headers := some [⟨"X-Tag", "a\\\"b"⟩]

theorem structured_search_iff_quoted :
    parseKeys rfc3501 "FROM \"alice\" HEADER X-Tag \"a\\\\\\\"b\"".toList =
      some (intendedKeys quotedQuery) :=
  (structured_search_iff rfc3501 (by decide)).mpr (by decide)

/-- Two header filters whose names are a quotation mark. -/
def quoteNames : StructuredQuery where
  headers := some [⟨"\"", " x DELETED HEADER "⟩, ⟨"\"", "v"⟩]

/-- The quotation marks pair up across the clauses, and what the first value holds
    is read as keys: the command asks for deleted messages. -/
theorem quoteNames_injects :
    (¬ ∀ (q : StructuredQuery) (k : String), structuredToKey q = .ok k →
      parseKeys rfc3501 k.toList = some (intendedKeys q)) ∧
    ∃ k, structuredToKey quoteNames = .ok k ∧
      parseKeys rfc3501 k.toList =
        some [.header [' '] ['x'], .flag .deleted, .header " HEADER ".toList ['v']] := by
  have htext : structuredToKey quoteNames =
      .ok "HEADER \" \" x DELETED HEADER \" HEADER \" \"v\"" := by decide
  have hparse : parseKeys rfc3501 "HEADER \" \" x DELETED HEADER \" HEADER \" \"v\"".toList =
      some [.header [' '] ['x'], .flag .deleted, .header " HEADER ".toList ['v']] := rfl
  refine ⟨?_, _, htext, hparse⟩
  intro h
  have hkeys := h quoteNames _ htext
  rw [hparse] at hkeys
  exact absurd (congrArg List.length (Option.some.inj hkeys)) (by decide)

/-! ## The thread query -/

/-- The first occurrence of each id; `seen` are those already taken. -/
def dedupIds (seen : List String) : List String → List String
  | [] => []
  | id :: ids => if id ∈ seen then dedupIds seen ids else id :: dedupIds (id :: seen) ids

def MAX_THREAD_ANCESTOR_IDS : Nat := 50

/-- The closest ancestors stand last and are kept. -/
def capAncestorIds (ids : List String) : List String :=
  let deduped := dedupIds [] ids
  deduped.drop (deduped.length - MAX_THREAD_ANCESTOR_IDS)

def orJoin : List String → Option String
  | [] => none
  | [only] => some only
  | first :: rest => do
      let nested ← orJoin rest
      return "OR " ++ first ++ " (" ++ nested ++ ")"

def ownClauses : Option String → Except ImapError (List String)
  | some id => do
      let quoted ← quote id
      return ["HEADER References " ++ quoted, "HEADER In-Reply-To " ++ quoted]
  | none => return []

def ancestorClause (id : String) : Except ImapError String := do
  let quoted ← quote id
  return "HEADER Message-ID " ++ quoted

/-- The key that `thread_related` searches for; `none` when there is nothing to
    search by. -/
def threadKey (ownMessageId : Option String) (ancestorIds : List String) :
    Except ImapError (Option String) := do
  let own ← ownClauses ownMessageId
  let ancestors ← ancestorIds.mapM ancestorClause
  return orJoin (own ++ ancestors)

/-- One key for each clause: replies to the message, and its ancestors. -/
def threadKeys (ownMessageId : Option String) (ancestorIds : List String) : List Key :=
  (match ownMessageId with
    | some id =>
        [.header "References".toList id.toList, .header "In-Reply-To".toList id.toList]
    | none => []) ++
  ancestorIds.map fun id => .header "Message-ID".toList id.toList

theorem mem_dedupIds {seen ids : List String} {id : String} (h : id ∈ dedupIds seen ids) :
    id ∈ ids ∧ id ∉ seen := by
  induction ids generalizing seen with
  | nil => simp [dedupIds] at h
  | cons first ids ih =>
      unfold dedupIds at h
      split at h
      · have hrest := ih h
        exact ⟨List.mem_cons_of_mem _ hrest.1, hrest.2⟩
      · rename_i hnew
        rcases List.mem_cons.mp h with rfl | h
        · exact ⟨by simp, hnew⟩
        · have hrest := ih h
          exact ⟨List.mem_cons_of_mem _ hrest.1, fun hmem => hrest.2 (by simp [hmem])⟩

theorem nodup_dedupIds (seen ids : List String) : (dedupIds seen ids).Nodup := by
  induction ids generalizing seen with
  | nil => exact List.nodup_nil
  | cons first ids ih =>
      unfold dedupIds
      split
      · exact ih seen
      · refine List.nodup_cons.mpr ⟨fun hmem => ?_, ih _⟩
        exact (mem_dedupIds hmem).2 (by simp)

/-- The cap keeps at most 50 of the ids, none of them twice. -/
theorem capAncestorIds_spec (ids : List String) :
    (capAncestorIds ids).length ≤ MAX_THREAD_ANCESTOR_IDS ∧ (capAncestorIds ids).Nodup ∧
      ∀ id ∈ capAncestorIds ids, id ∈ ids := by
  unfold capAncestorIds
  refine ⟨?_, (nodup_dedupIds [] ids).sublist (List.drop_sublist _ _), ?_⟩
  · rw [List.length_drop]
    omega
  · intro id hid
    exact (mem_dedupIds (List.mem_of_mem_drop hid)).1

section Thread

variable {g : Grammar}

/-- A clause on one of the fields that hold message ids. -/
theorem spells_idClause {field id quoted : String} (hfield : field.toList ≠ [])
    (hspace : ' ' ∉ field.toList) (hquoted : quote id = .ok quoted) :
    Spells g ("HEADER " ++ field ++ " " ++ quoted).toList
      (.header field.toList id.toList) := by
  have htext : ("HEADER " ++ field ++ " " ++ quoted).toList =
      "HEADER ".toList ++ field.toList ++ ' ' :: quotedText id.toList := by
    simp [← toList_quote hquoted]
  rw [htext]
  exact spells_header hfield hspace id.toList

/-- When every id passes `quote`, each has its clauses. -/
theorem written_threadClauses (own : Option String) {ids : List String}
    (hquote : ∀ id ∈ own.toList ++ ids, ∃ out, quote id = .ok out) :
    ∃ ownTexts idTexts, ownClauses own = .ok ownTexts ∧
      ids.mapM ancestorClause = .ok idTexts ∧
      Written g (ownTexts ++ idTexts) (threadKeys own ids) := by
  have hown : ∃ ownTexts, ownClauses own = .ok ownTexts ∧
      Written g ownTexts (threadKeys own []) := by
    cases own with
    | none => exact ⟨[], rfl, Written.nil⟩
    | some id =>
        obtain ⟨quoted, hquoted⟩ := hquote id (by simp)
        refine ⟨["HEADER References " ++ quoted, "HEADER In-Reply-To " ++ quoted], ?_, ?_⟩
        · rw [ownClauses, hquoted]
          rfl
        · have hreferences :=
            @spells_idClause g "References" id quoted (by decide) (by decide) hquoted
          have hreply := @spells_idClause g "In-Reply-To" id quoted (by decide) (by decide) hquoted
          exact (Written.singleton hreferences).append (Written.singleton hreply)
  have hids : ∃ idTexts, ids.mapM ancestorClause = .ok idTexts ∧
      Written g idTexts (threadKeys none ids) := by
    have hquote' : ∀ id ∈ ids, ∃ out, quote id = .ok out :=
      fun id hid => hquote id (List.mem_append_right _ hid)
    clear hquote hown
    induction ids with
    | nil => exact ⟨[], rfl, Written.nil⟩
    | cons id ids ih =>
        obtain ⟨quoted, hquoted⟩ := hquote' id (by simp)
        obtain ⟨texts, htexts, hwritten⟩ := ih fun id hid => hquote' id (by simp [hid])
        refine ⟨("HEADER Message-ID " ++ quoted) :: texts, ?_, ?_⟩
        · rw [List.mapM_cons, ancestorClause, hquoted, htexts]
          rfl
        · have hid := @spells_idClause g "Message-ID" id quoted (by decide) (by decide) hquoted
          exact (Written.singleton hid).append hwritten
  obtain ⟨ownTexts, hownTexts, hownWritten⟩ := hown
  obtain ⟨idTexts, hidTexts, hidWritten⟩ := hids
  refine ⟨ownTexts, idTexts, hownTexts, hidTexts, ?_⟩
  have hboth := hownWritten.append hidWritten
  have hkeys : threadKeys own [] ++ threadKeys none ids = threadKeys own ids := by
    simp [threadKeys]
  rwa [hkeys] at hboth

theorem expressible_threadKeys {own : Option String} {ids : List String}
    (hquote : ∀ id ∈ own.toList ++ ids, ∃ out, quote id = .ok out)
    (hascii : g.eightBit = true ∨
      ∀ id ∈ own.toList ++ ids, ∀ c ∈ id.toList, c.toNat < 0x80) :
    ∀ key ∈ threadKeys own ids, key.Expressible g ∧ key.IsPlain := by
  have hid : ∀ field : String, field.toList.all isAstringChar = true →
      ∀ id ∈ own.toList ++ ids,
        (Key.header field.toList id.toList).Expressible g ∧
          (Key.header field.toList id.toList).IsPlain := by
    intro field hfield id hmem
    obtain ⟨out, hout⟩ := hquote id hmem
    refine ⟨⟨List.all_eq_true.mp hfield, ?_⟩, by simp [Key.disjuncts], by simp [Key.Holds]⟩
    exact isTextChar_of_quote hout (hascii.imp_right fun h => h id hmem)
  intro key hkey
  rcases List.mem_append.mp hkey with hown | hancestor
  · cases own with
    | none => simp at hown
    | some id =>
        rcases List.mem_cons.mp hown with rfl | hown
        · exact hid "References" (by decide) id (by simp)
        · rw [List.mem_singleton.mp hown]
          exact hid "In-Reply-To" (by decide) id (by simp)
  · obtain ⟨id, hmem, rfl⟩ := List.mem_map.mp hancestor
    exact hid "Message-ID" (by decide) id (List.mem_append_right _ hmem)

theorem toList_orJoin (text : String) (texts : List String) :
    ∃ joined, orJoin (text :: texts) = some joined ∧
      joined.toList = orText text.toList (texts.map String.toList) := by
  induction texts generalizing text with
  | nil => exact ⟨text, rfl, rfl⟩
  | cons text' texts ih =>
      obtain ⟨rest, hrest, htext⟩ := ih text'
      refine ⟨"OR " ++ text ++ " (" ++ rest ++ ")", ?_, ?_⟩
      · rw [orJoin, hrest]
        · rfl
        · simp
      · simp [orText, htext]

end Thread

end RustyImap.SearchOps

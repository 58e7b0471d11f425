import RustyImap.ImapOps
import RustyImap.UnicodeFilter

/-!
# HTML bodies

`rimap-content/src/html/`: an HTML part is decoded, parsed and searched for hidden
elements and for anchors whose text names another domain; its text goes through
the Unicode pipeline, and ammonia rewrites the decoded source.

scraper, ammonia, linkify, idna and the public suffix list are parameters, any
functions.  So is the classifier of inline styles, which compares floating-point
numbers.
-/

namespace RustyImap.HtmlBody

open RustyImap.ImapOps RustyImap.UnicodeFilter

/-! ## Documents -/

inductive Node where
  | element (name : String) (attrs : List (String × String)) (children : List Node)
  | text (content : String)
  | comment (content : String)

inductive HiddenMethod where
  | displayNone
  | visibilityHidden
  | opacityZero
  | offScreen
  | zeroFont
  | colorMatch
deriving DecidableEq, Repr

def HiddenMethod.asDetail : HiddenMethod → String
  | displayNone => "display_none"
  | visibilityHidden => "visibility_hidden"
  | opacityZero => "opacity_0"
  | offScreen => "offscreen"
  | zeroFont => "zero_font"
  | colorMatch => "color_match"

/-- The crates that the HTML stage calls. -/
structure HtmlLibs extends UnicodeLibs where
  parseDocument : String → List Node
  ammoniaClean : String → String
  /-- `LinkFinder::links`: whether a link is a URL, and its text. -/
  links : (urlMustHaveScheme : Bool) → String → List (Bool × String)
  domainToAscii : String → Option String
  /-- `addr::parse_domain_name` and `root`. -/
  registrableRoot : String → Option String
  classifyInlineStyle : String → Option HiddenMethod

structure Element where
  name : String
  attrs : List (String × String)
  children : List Node

def Element.attr (el : Element) (key : String) : Option String := el.attrs.lookup key

mutual

/-- The elements of a node, in document order. -/
def Node.elements : Node → List Element
  | .element name attrs children => ⟨name, attrs, children⟩ :: elementsOf children
  | .text _ => []
  | .comment _ => []

def elementsOf : List Node → List Element
  | [] => []
  | node :: rest => node.elements ++ elementsOf rest

end

mutual

/-- The elements below a `body`: the selector `body *`. -/
def Node.bodyElements : Node → List Element
  | .element name _ children =>
      if name = "body" then elementsOf children else bodyElementsOf children
  | .text _ => []
  | .comment _ => []

def bodyElementsOf : List Node → List Element
  | [] => []
  | node :: rest => node.bodyElements ++ bodyElementsOf rest

end

mutual

def Node.texts : Node → List String
  | .element _ _ children => textsOf children
  | .text content => [content]
  | .comment _ => []

def textsOf : List Node → List String
  | [] => []
  | node :: rest => node.texts ++ textsOf rest

end

def join (sep : String) : List String → String
  | [] => ""
  | [s] => s
  | s :: rest => s ++ sep ++ join sep rest

/-! ## Hidden elements -/

def MAX_HTML_BYTES : Nat := 1024 * 1024
def MAX_ANCHOR_TEXT_SCAN : Nat := 4 * 1024
def MAX_HIDDEN_HITS : Nat := 64
def MAX_MISMATCH_HITS : Nat := 32

/-- The hits up to the cap, and how many there are beyond it. -/
def detectHidden (libs : HtmlLibs) (document : List Node) :
    List (Nat × HiddenMethod) × Nat :=
  let found := (bodyElementsOf document).zipIdx.filterMap fun (el, idx) =>
    ((el.attr "style").bind libs.classifyInlineStyle).map fun method => (idx, method)
  (found.take MAX_HIDDEN_HITS, found.length - MAX_HIDDEN_HITS)

/-! ## Anchors -/

/-- `str::split_once` at `://`, what follows. -/
def afterScheme : List Char → Option (List Char)
  | ':' :: '/' :: '/' :: rest => some rest
  | _ :: rest => afterScheme rest
  | [] => none

/-- `trim_start_matches("www.")`. -/
def dropWww : List Char → List Char
  | 'w' :: 'w' :: 'w' :: '.' :: rest => dropWww rest
  | host => host

/-- The piece before the first of these characters. -/
def upTo (stops : List Char) (s : List Char) : List Char := s.takeWhile fun c => !stops.contains c

def startsWith (s : List Char) (start : String) : Bool := start.toList.isPrefixOf s

def extractRegistrableDomain (libs : HtmlLibs) (urlOrHost : String) : Option String := do
  let lowered := (trim urlOrHost.toList).map toAsciiLower
  if lowered.isEmpty then none
  else if startsWith lowered "mailto:" || startsWith lowered "tel:" ||
      startsWith lowered "javascript:" || startsWith lowered "data:" then none
  else
    let host := dropWww (upTo ['/', '?', '#'] ((afterScheme lowered).getD lowered))
    let host := upTo [':'] host
    if host.isEmpty || !host.contains '.' then none
    else
      let ascii ← libs.domainToAscii (.ofList host)
      libs.registrableRoot ascii

inductive AnchorFinding where
  | unparsable (href text : String)
  | mismatch (textDomain hrefDomain : String)
deriving DecidableEq, Repr

/-- One turn of the loop of `detect_mismatches`. -/
def auditAnchor (libs : HtmlLibs) (href text : String) : Option AnchorFinding :=
  let text := String.ofList (truncateGraphemes libs.toUnicodeLibs text.toList MAX_ANCHOR_TEXT_SCAN)
  let urls := (libs.links false text).filter (·.1)
  match extractRegistrableDomain libs href with
  | none =>
      if urls.isEmpty then none else some (.unparsable href (.ofList (trim text.toList)))
  | some hrefDomain => do
      let link ← urls.head?
      let textDomain ← extractRegistrableDomain libs link.2
      if eqIgnoreAsciiCase textDomain hrefDomain then none
      else some (.mismatch textDomain hrefDomain)

/-- The anchors with an `href`, and the text in them. -/
def anchors (document : List Node) : List (String × String) :=
  (elementsOf document).filterMap fun el =>
    if el.name = "a" then
      (el.attr "href").map fun href => (href, join " " (textsOf el.children))
    else none

def anchorFindings (libs : HtmlLibs) (document : List Node) : List AnchorFinding :=
  (anchors document).filterMap fun anchor => auditAnchor libs anchor.1 anchor.2

def AnchorFinding.mismatch? : AnchorFinding → Option (String × String)
  | .mismatch textDomain hrefDomain => some (textDomain, hrefDomain)
  | .unparsable _ _ => none

def AnchorFinding.unparsable? : AnchorFinding → Option (String × String)
  | .unparsable href text => some (href, text)
  | .mismatch _ _ => none

/-- The mismatches up to the cap, how many there are beyond it, and the anchors with
    an address that cannot be read. -/
def detectMismatches (libs : HtmlLibs) (document : List Node) :
    List (String × String) × Nat × List (String × String) :=
  let findings := anchorFindings libs document
  let mismatches := findings.filterMap AnchorFinding.mismatch?
  (mismatches.take MAX_MISMATCH_HITS, mismatches.length - MAX_MISMATCH_HITS,
    findings.filterMap AnchorFinding.unparsable?)

/-! ## Text -/

def NON_CONTENT_TAGS : List String := ["script", "style", "noscript", "template", "head", "title"]

def containsCdataEnd : List Char → Bool
  | ']' :: ']' :: '>' :: _ => true
  | _ :: rest => containsCdataEnd rest
  | [] => false

def pushText (out : List Char) (text : String) : List Char :=
  if containsCdataEnd text.toList then out
  else
    match out.getLast? with
    | some last => (if isWhitespace last then out else out ++ [' ']) ++ text.toList
    | none => text.toList

mutual

/-- `walk_element`; the state is the text so far and the number of the next element. -/
def walkElement (hidden : List Nat) : Node → List Char × Nat → List Char × Nat
  | .element name _ children, (out, counter) =>
      if hidden.contains counter || NON_CONTENT_TAGS.contains name then (out, counter + 1)
      else walkChildren hidden children false (out, counter + 1)
  | .text _, st => st
  | .comment _, st => st

def walkChildren (hidden : List Nat) : List Node → Bool → List Char × Nat → List Char × Nat
  | [], _, st => st
  | .element name attrs children :: rest, _, st =>
      walkChildren hidden rest false (walkElement hidden (.element name attrs children) st)
  | .comment content :: rest, afterCdata, st =>
      walkChildren hidden rest (afterCdata || startsWith content.toList "[CDATA[") st
  | .text content :: rest, afterCdata, (out, counter) =>
      walkChildren hidden rest afterCdata
        (if afterCdata then out else pushText out content, counter)

end

/-- The loop of `normalize_whitespace`. -/
def collapseWhitespace : Bool → List Char → List Char → List Char
  | _, out, [] => out
  | prevSpace, out, c :: rest =>
      if isWhitespace c then
        collapseWhitespace true (if !prevSpace && !out.isEmpty then out ++ [' '] else out) rest
      else collapseWhitespace false (out ++ [c]) rest

def normalizeWhitespace (s : List Char) : List Char :=
  (collapseWhitespace false [] s).rdropWhile isWhitespace

def extractText (libs : HtmlLibs) (document : List Node) (hidden : List Nat) :
    String × List SecurityWarning :=
  let buf :=
    match (elementsOf document).find? fun el => el.name = "body" with
    | some body => (walkChildren hidden body.children false ([], 0)).1
    | none => []
  sanitize libs.toUnicodeLibs (String.ofList (normalizeWhitespace buf)).toUTF8.data.toList
    (some "utf-8") MAX_HTML_BYTES "body:html"

/-! ## The sanitizer -/

def countMatching (document : List Node) (name : String) : Nat :=
  (elementsOf document).countP fun el => el.name = name

def countImgWithSrc (document : List Node) : Nat :=
  (elementsOf document).countP fun el =>
    decide (el.name = "img") &&
      ((el.attr "src").map fun src => !(trim src.toList).isEmpty) == some true

/-- A warning with a count, if there is something to count. -/
def countWarning (code : WarningCode) (count : Nat) : List SecurityWarning :=
  if 0 < count then [warningAt code ("count=" ++ toString count) "body:html"] else []

def sanitizeBody (libs : HtmlLibs) (document : List Node) (decoded : String) :
    String × List SecurityWarning :=
  (libs.ammoniaClean decoded,
    countWarning .htmlScriptStripped (countMatching document "script") ++
      countWarning .htmlStyleStripped (countMatching document "style") ++
      countWarning .htmlRemoteImageStripped (countImgWithSrc document))

def collectAnchorHrefs (libs : HtmlLibs) (sanitizedHtml : String) : List String :=
  (elementsOf (libs.parseDocument sanitizedHtml)).filterMap fun el =>
    if el.name = "a" then el.attr "href" else none

structure HtmlResult where
  bodyText : String
  bodyHtml : String
  anchorHrefs : List String
  warnings : List SecurityWarning

inductive ContentError where
  | limitExceeded (kind : String) (limit : Nat)
  | malformed (reason : String)
  | parserPanic
deriving DecidableEq, Repr

def hiddenWarnings (hits : List (Nat × HiddenMethod)) (overflow : Nat) : List SecurityWarning :=
  (hits.flatMap fun hit =>
      [warningAt .htmlHiddenContentDetected ("method=" ++ hit.2.asDetail) "body:html"]) ++
    if 0 < overflow then
      [warningAt .htmlHiddenContentDetected
        ("method=mixed,additional_hits=" ++ toString overflow) "body:html"]
    else []

def mismatchWarnings (hits : List (String × String)) (overflow : Nat) : List SecurityWarning :=
  (hits.flatMap fun hit =>
      [warningAt .htmlLinkTextHrefMismatch
        ("text_domain=" ++ hit.1 ++ ",href_domain=" ++ hit.2) "html:anchor"]) ++
    if 0 < overflow then
      [warningAt .htmlLinkTextHrefMismatch ("additional_hits=" ++ toString overflow) "html:anchor"]
    else []

def unparsableWarnings (unparsable : List (String × String)) : List SecurityWarning :=
  unparsable.flatMap fun anchor =>
    [warningAt .htmlAnchorUnparsableHref ("href=" ++ anchor.1 ++ ",text=" ++ anchor.2)
      "body_html:anchor"]

/-- `html::sanitize`. -/
def sanitizeHtml (libs : HtmlLibs) (raw : List UInt8) (charset : Option String) :
    Except ContentError HtmlResult :=
  if MAX_HTML_BYTES < raw.length then .error (.limitExceeded "html_body" MAX_HTML_BYTES)
  else
    let decoded := libs.decode raw charset
    let document := libs.parseDocument decoded
    let hidden := detectHidden libs document
    let anchors := detectMismatches libs document
    let text := extractText libs document (hidden.1.map Prod.fst)
    let body := sanitizeBody libs document decoded
    .ok
      { bodyText := text.1
        bodyHtml := body.1
        anchorHrefs := collectAnchorHrefs libs body.1
        warnings := hiddenWarnings hidden.1 hidden.2 ++ mismatchWarnings anchors.1 anchors.2.1 ++
          unparsableWarnings anchors.2.2 ++ text.2 ++ body.2 }

/-! ## What is clean of it -/

/-- The strings of a document that its warnings quote as they are. -/
def anchorQuotes (libs : HtmlLibs) (raw : List UInt8) (charset : Option String) : List String :=
  let anchors := detectMismatches libs (libs.parseDocument (libs.decode raw charset))
  (anchors.1 ++ anchors.2.2).flatMap fun pair => [pair.1, pair.2]

theorem clean_asDetail (method : HiddenMethod) : clean method.asDetail = true := by
  cases method <;> rfl

theorem cleanWarnings_hiddenWarnings (hits : List (Nat × HiddenMethod)) (overflow : Nat) :
    cleanWarnings (hiddenWarnings hits overflow) = true := by
  have hmethod : clean "method=" = true := rfl
  have hmixed : clean "method=mixed,additional_hits=" = true := rfl
  rw [hiddenWarnings, cleanWarnings_append, cleanWarnings_flatMap, Bool.and_eq_true]
  constructor
  · simp [hmethod, clean_asDetail]
  · split
    · simp [hmixed]
    · rfl

theorem cleanWarnings_mismatchWarnings (hits : List (String × String)) (overflow : Nat) :
    cleanWarnings (mismatchWarnings hits overflow) =
      (hits.flatMap fun hit => [hit.1, hit.2]).all clean := by
  have htext : clean "text_domain=" = true := rfl
  have hhref : clean ",href_domain=" = true := rfl
  have hmore : clean "additional_hits=" = true := rfl
  have hoverflow : cleanWarnings (if 0 < overflow then
      [warningAt .htmlLinkTextHrefMismatch ("additional_hits=" ++ toString overflow) "html:anchor"]
    else []) = true := by
    split
    · simp [hmore]
    · rfl
  rw [mismatchWarnings, cleanWarnings_append, cleanWarnings_flatMap, hoverflow, Bool.and_true,
    List.all_flatMap]
  simp [htext, hhref]

theorem cleanWarnings_unparsableWarnings (unparsable : List (String × String)) :
    cleanWarnings (unparsableWarnings unparsable) =
      (unparsable.flatMap fun anchor => [anchor.1, anchor.2]).all clean := by
  have hhref : clean "href=" = true := rfl
  have htext : clean ",text=" = true := rfl
  rw [unparsableWarnings, cleanWarnings_flatMap, List.all_flatMap]
  simp [hhref, htext]

theorem cleanWarnings_countWarning (code : WarningCode) (count : Nat) :
    cleanWarnings (countWarning code count) = true := by
  have hcount : clean "count=" = true := rfl
  unfold countWarning
  split
  · simp [hcount]
  · rfl

/-- The text of an HTML part is clean; the HTML is ammonia's, and the warnings are
    clean if the anchors are. -/
theorem sanitizeHtml_ok {libs : HtmlLibs} {raw : List UInt8} {charset : Option String}
    {result : HtmlResult} (h : sanitizeHtml libs raw charset = .ok result) :
    clean result.bodyText = true ∧ result.bodyHtml = libs.ammoniaClean (libs.decode raw charset) ∧
      cleanWarnings result.warnings = (anchorQuotes libs raw charset).all clean := by
  unfold sanitizeHtml at h
  split at h
  · cases h
  · cases h
    refine ⟨clean_sanitize _ _ _ _ "body:html", rfl, ?_⟩
    simp only [cleanWarnings_append, cleanWarnings_hiddenWarnings,
      cleanWarnings_mismatchWarnings, cleanWarnings_unparsableWarnings, extractText,
      cleanWarnings_sanitize, sanitizeBody, cleanWarnings_countWarning, anchorQuotes,
      List.flatMap_append, List.all_append, Bool.true_and, Bool.and_true]

end RustyImap.HtmlBody

import RustyImap.ContentParse
import RustyImap.HiddenText

/-!
# The host of a link

`rimap-content/src/html/mismatch.rs` and `lookalike.rs` each cut the host out of a link
by hand.  Both split at the first `://`, then at the first `/`, `?` or `#`; the one then
at the first `:`, the other at the last `@` and then at the first `:`.

What the crates make of a host is any function of it.
-/

namespace RustyImap.LinkHosts

open RustyImap.ImapOps RustyImap.UnicodeFilter RustyImap.HtmlBody RustyImap.ContentParse
open RustyImap.StyleParse (lower ne_of_isWhitespace toNat_of_isWhitespace
  isWhitespace_toAsciiLower)

/-! ## What is looked up -/

/-- The host that `extract_registrable_domain` hands to idna. -/
def lookedUp (urlOrHost : List Char) : Option (List Char) :=
  let lowered := lower (trim urlOrHost)
  if lowered.isEmpty then none
  else if startsWith lowered "mailto:" || startsWith lowered "tel:" ||
      startsWith lowered "javascript:" || startsWith lowered "data:" then none
  else
    let host := dropWww (upTo ['/', '?', '#'] ((afterScheme lowered).getD lowered))
    let host := upTo [':'] host
    if host.isEmpty || !host.contains '.' then none else some host

theorem extractRegistrableDomain_eq (libs : HtmlLibs) (text : List Char) :
    extractRegistrableDomain libs (.ofList text) = (lookedUp text).bind fun host =>
      (libs.domainToAscii (.ofList host)).bind libs.registrableRoot := by
  simp only [extractRegistrableDomain, lookedUp, String.toList_ofList, lower]
  split
  · rename_i hempty
    simp only [hempty, if_true, Option.bind_none]
  · rename_i hempty
    split
    · rename_i hscheme
      simp only [hempty, hscheme, if_true, Bool.false_eq_true, if_false, Option.bind_none]
    · rename_i hscheme
      split
      · rename_i hdot
        simp only [hempty, hscheme, hdot, if_true, Bool.false_eq_true, if_false, Option.bind_none]
      · rename_i hdot
        simp only [hempty, hscheme, hdot, Bool.false_eq_true, if_false, Option.bind_some]
        rfl

/-- A host with a dot in it. -/
def dotted (host : List Char) : Option (List Char) := if host.contains '.' then some host else none

/-- A host, perhaps with a port, as it is looked up. -/
def nameOf (host : List Char) : List Char := dropWww (upTo [':'] (lower host))

/-- What stands where the authority should. -/
def pieceOf (text : List Char) : List Char :=
  upTo ['/', '?', '#'] ((afterScheme text).getD text)

def afterAt (piece : List Char) : List Char := piece.rtakeWhile (· != '@')

/-! ## Cutting -/

theorem toAsciiLower_eq_iff {c k : Char} (hk : k.toNat < 65) : toAsciiLower c = k ↔ c = k := by
  rcases toAsciiLower_cases c with ⟨hlow, -, hnat⟩ | hsame
  · constructor
    · rintro rfl
      omega
    · rintro rfl
      omega
  · rw [hsame]

theorem mem_lower_iff {s : List Char} {k : Char} (hk : k.toNat < 65) : k ∈ lower s ↔ k ∈ s := by
  rw [lower, List.mem_map]
  constructor
  · rintro ⟨c, hc, heq⟩
    rw [← (toAsciiLower_eq_iff hk).mp heq]
    exact hc
  · intro hmem
    exact ⟨k, hmem, (toAsciiLower_eq_iff hk).mpr rfl⟩

theorem upTo_lower {stops : List Char} (h : (stops.all fun k => k.toNat < 65) = true)
    (s : List Char) : upTo stops (lower s) = lower (upTo stops s) := by
  have hlow : ∀ k ∈ stops, k.toNat < 65 := by simpa using h
  have hcontains : ∀ c, stops.contains (toAsciiLower c) = stops.contains c := by
    intro c
    rw [Bool.eq_iff_iff, List.contains_iff_mem, List.contains_iff_mem]
    constructor
    · intro hmem
      rwa [(toAsciiLower_eq_iff (hlow _ hmem)).mp rfl]
    · intro hmem
      rwa [(toAsciiLower_eq_iff (hlow _ hmem)).mpr rfl]
  simp only [upTo, lower, List.takeWhile_map]
  congr 1
  exact congrArg (List.takeWhile · s) (funext fun c => by rw [Function.comp, hcontains])

theorem upTo_append_stop {stops s : List Char} (hs : ∀ c ∈ s, c ∉ stops) {rest : List Char}
    (hrest : ∀ c, rest.head? = some c → c ∈ stops) : upTo stops (s ++ rest) = s := by
  rw [upTo, List.takeWhile_append_of_pos]
  · rcases rest with _ | ⟨c, rest⟩
    · simp
    · rw [List.takeWhile_cons, List.contains_iff_mem.mpr (hrest c rfl)]
      simp
  · intro c hc
    simpa using hs c hc

theorem upTo_of_forall {stops s : List Char} (hs : ∀ c ∈ s, c ∉ stops) : upTo stops s = s := by
  have hnil : ∀ c, ([] : List Char).head? = some c → c ∈ stops := by simp
  have h := upTo_append_stop hs hnil
  rwa [List.append_nil] at h

theorem mem_of_mem_upTo {stops s : List Char} {c : Char} (h : c ∈ upTo stops s) :
    c ∈ s ∧ c ∉ stops := by
  refine ⟨(List.takeWhile_sublist _).subset h, ?_⟩
  have hkept := List.mem_takeWhile_imp h
  simpa using hkept

theorem upTo_append_of_mem {s : List Char} {k : Char} (hk : k ∈ s) (rest : List Char) :
    upTo [k] (s ++ rest) = upTo [k] s := by
  induction s with
  | nil => cases hk
  | cons c s ih =>
      rw [upTo, List.cons_append, List.takeWhile_cons, upTo, List.takeWhile_cons]
      split
      · rename_i hkept
        have hne : k ≠ c := by
          rintro rfl
          simp at hkept
        exact congrArg (c :: ·) (ih ((List.mem_cons.mp hk).resolve_left hne))
      · rfl

theorem afterScheme_append {s : List Char} (hs : ':' ∉ s) (rest : List Char) :
    afterScheme (s ++ ':' :: '/' :: '/' :: rest) = some rest := by
  induction s with
  | nil => rfl
  | cons c s ih =>
      rw [List.mem_cons, not_or] at hs
      rw [List.cons_append, afterScheme]
      · exact ih hs.2
      · intro _ heq _
        exact hs.1 heq.symm

theorem afterScheme_of_notMem {s : List Char} (hs : ':' ∉ s) : afterScheme s = none := by
  induction s with
  | nil => rfl
  | cons c s ih =>
      rw [List.mem_cons, not_or] at hs
      rw [afterScheme]
      · exact ih hs.2
      · intro _ heq _
        exact hs.1 heq.symm

theorem afterScheme_lower (s : List Char) : afterScheme (lower s) = (afterScheme s).map lower := by
  fun_induction afterScheme s with
  | case1 rest => rfl
  | case2 c rest hother ih =>
      change afterScheme (toAsciiLower c :: lower rest) = _
      rw [afterScheme]
      · exact ih
      · intro rest' hc hrest
        rcases rest with _ | ⟨c1, _ | ⟨c2, rest⟩⟩
        · simp [lower] at hrest
        · simp [lower] at hrest
        · obtain ⟨hc1, hrest⟩ := List.cons.inj hrest
          obtain ⟨hc2, -⟩ := List.cons.inj hrest
          rw [toAsciiLower_eq_iff (by decide)] at hc hc1 hc2
          exact hother rest hc (by rw [hc1, hc2])
  | case3 => rfl

/-! ## Leading `www.` -/

theorem dropWww_upTo (s : List Char) : upTo [':'] (dropWww s) = dropWww (upTo [':'] s) := by
  fun_induction dropWww s with
  | case1 rest ih =>
      rw [ih]
      rfl
  | case2 host hother =>
      rw [dropWww]
      intro rest heq
      have hstart : upTo [':'] host <+: host := List.takeWhile_prefix _
      rw [heq] at hstart
      obtain ⟨tail, rfl⟩ := hstart
      exact hother (rest ++ tail) rfl

theorem dropWww_append_at (s rest : List Char) :
    dropWww (s ++ '@' :: rest) = dropWww s ++ '@' :: rest := by
  fun_induction dropWww s with
  | case1 s ih => exact ih
  | case2 s hother =>
      rw [dropWww]
      intro tail heq
      rcases s with _ | ⟨c1, _ | ⟨c2, _ | ⟨c3, _ | ⟨c4, s⟩⟩⟩⟩ <;>
        simp only [List.nil_append, List.cons_append, List.cons.injEq] at heq
      · exact absurd heq.1 (by decide)
      · exact absurd heq.2.1 (by decide)
      · exact absurd heq.2.2.1 (by decide)
      · exact absurd heq.2.2.2.1 (by decide)
      · obtain ⟨rfl, rfl, rfl, rfl, -⟩ := heq
        exact hother s rfl

theorem dropWww_suffix (s : List Char) : dropWww s <:+ s := by
  fun_induction dropWww s with
  | case1 rest ih => exact ih.trans ⟨['w', 'w', 'w', '.'], rfl⟩
  | case2 host hother => exact List.suffix_refl host

/-! ## Both extractors on a text without blanks -/

theorem trim_of_no_blank {text : List Char} (h : ∀ c ∈ text, isWhitespace c = false) :
    trim text = text := by
  have hdrop : ∀ s : List Char, (∀ c ∈ s, isWhitespace c = false) →
      s.dropWhile isWhitespace = s := by
    intro s hs
    rcases s with _ | ⟨c, s⟩
    · rfl
    · rw [List.dropWhile_cons, hs c List.mem_cons_self, if_neg Bool.false_ne_true]
  rw [trim, hdrop text h, hdrop text.reverse fun c hc => h c (List.mem_reverse.mp hc),
    List.reverse_reverse]

theorem contains_dot_iff (host : List Char) : host.contains '.' = true ↔ '.' ∈ host :=
  List.contains_iff_mem

theorem dotted_eq_iff (a b : List Char) :
    dotted a = dotted b ↔ a = b ∨ ('.' ∉ a ∧ '.' ∉ b) := by
  rw [dotted, dotted]
  by_cases ha : '.' ∈ a
  · rw [if_pos ((contains_dot_iff a).mpr ha)]
    by_cases hb : '.' ∈ b
    · rw [if_pos ((contains_dot_iff b).mpr hb), Option.some.injEq]
      exact ⟨.inl, fun h => h.resolve_right fun h => h.1 ha⟩
    · rw [if_neg (mt (contains_dot_iff b).mp hb)]
      constructor
      · intro h
        cases h
      · rintro (rfl | h)
        · exact absurd ha hb
        · exact absurd ha h.1
  · rw [if_neg (mt (contains_dot_iff a).mp ha)]
    by_cases hb : '.' ∈ b
    · rw [if_pos ((contains_dot_iff b).mpr hb)]
      constructor
      · intro h
        cases h
      · rintro (rfl | h)
        · exact absurd hb ha
        · exact absurd hb h.2
    · rw [if_neg (mt (contains_dot_iff b).mp hb)]
      exact ⟨fun _ => .inr ⟨ha, hb⟩, fun _ => rfl⟩

/-- None of the schemes that are not looked up. -/
def webLike (text : List Char) : Bool :=
  !(startsWith (lower text) "mailto:" || startsWith (lower text) "tel:" ||
    startsWith (lower text) "javascript:" || startsWith (lower text) "data:")

theorem lookedUp_eq {text : List Char} (hblank : ∀ c ∈ text, isWhitespace c = false)
    (hweb : webLike text = true) : lookedUp text = dotted (nameOf (pieceOf text)) := by
  have hpiece : upTo ['/', '?', '#'] ((afterScheme (lower text)).getD (lower text)) =
      lower (pieceOf text) := by
    rw [pieceOf, afterScheme_lower, ← upTo_lower rfl]
    rcases afterScheme text with _ | rest
    · rfl
    · rfl
  rw [webLike, Bool.not_eq_true'] at hweb
  simp only [lookedUp, trim_of_no_blank hblank, hpiece, hweb, Bool.false_eq_true, if_false,
    dropWww_upTo]
  change (if (lower text).isEmpty = true then none
    else if ((nameOf (pieceOf text)).isEmpty || !(nameOf (pieceOf text)).contains '.') = true
      then none else some (nameOf (pieceOf text))) = dotted (nameOf (pieceOf text))
  rw [dotted]
  rcases hdot : (nameOf (pieceOf text)).contains '.' with _ | _
  · simp
  · have hsome : '.' ∈ nameOf (pieceOf text) := (contains_dot_iff _).mp hdot
    have hhost : (nameOf (pieceOf text)).isEmpty = false := by
      rw [List.isEmpty_eq_false_iff]
      exact List.ne_nil_of_mem hsome
    have htext : (lower text).isEmpty = false := by
      rw [List.isEmpty_eq_false_iff]
      rintro hnil
      rw [lower, List.map_eq_nil_iff] at hnil
      subst hnil
      exact List.not_mem_nil (show '.' ∈ [] from hsome)
    simp [hhost, htext]

theorem stripWww_cases (host : List Char) :
    (∃ rest, host = 'w' :: 'w' :: 'w' :: '.' :: rest ∧ stripWww host = rest) ∨
      stripWww host = host := by
  unfold stripWww
  split
  · exact .inl ⟨_, rfl, rfl⟩
  · exact .inr rfl

theorem dropWww_lower_stripWww (host : List Char) :
    dropWww (lower (stripWww host)) = dropWww (lower host) := by
  rcases stripWww_cases host with ⟨rest, rfl, hstrip⟩ | hstrip
  · rw [hstrip]
    rfl
  · rw [hstrip]

/-- The host that the lookalike audit reads out of what stands for the authority. -/
def auditedHost (piece : List Char) : List Char := stripWww (upTo [':'] (afterAt piece))

theorem extractDomainFromUrl_eq {text : List Char} (hblank : ∀ c ∈ text, isWhitespace c = false) :
    extractDomainFromUrl (.ofList text) =
      (dotted (auditedHost (pieceOf text))).map String.ofList := by
  simp only [extractDomainFromUrl, String.toList_ofList, trim_of_no_blank hblank]
  change (if ((auditedHost (pieceOf text)).isEmpty || !(auditedHost (pieceOf text)).contains '.') =
    true then none else some (String.ofList (auditedHost (pieceOf text)))) = _
  rw [dotted]
  rcases hhost : auditedHost (pieceOf text) with _ | ⟨c, host⟩
  · rfl
  · rw [List.isEmpty_cons, Bool.false_or]
    rcases (c :: host).contains '.' with _ | _ <;> rfl

theorem mem_of_startsWith {s : List Char} {start : String} (h : startsWith s start = true)
    {c : Char} (hc : c ∈ start.toList) : c ∈ s := by
  obtain ⟨rest, rfl⟩ := List.isPrefixOf_iff_prefix.mp h
  exact List.mem_append_left _ hc

theorem webLike_of_notMem {text : List Char} (h : ':' ∉ text) : webLike text = true := by
  have hstart : ∀ start : String, ':' ∈ start.toList → startsWith (lower text) start = false := by
    intro start hstart
    rw [Bool.eq_false_iff]
    intro hpos
    exact h ((mem_lower_iff (by decide)).mp (mem_of_startsWith hpos hstart))
  rw [webLike, hstart "mailto:" (by simp), hstart "tel:" (by simp),
    hstart "javascript:" (by simp), hstart "data:" (by simp)]
  rfl

/-- A host that the audit reads, looked up. -/
theorem lookedUp_audited {piece : List Char} (hblank : ∀ c ∈ piece, isWhitespace c = false)
    (hstops : ∀ c ∈ piece, c ∉ ['/', '?', '#']) :
    (dotted (auditedHost piece)).bind lookedUp = dotted (nameOf (afterAt piece)) := by
  have hname : nameOf (afterAt piece) = dropWww (lower (auditedHost piece)) := by
    rw [auditedHost, dropWww_lower_stripWww, nameOf, upTo_lower rfl]
  have hmem : ∀ c ∈ auditedHost piece, c ∈ piece ∧ c ≠ ':' := by
    intro c hc
    have hkept : c ∈ upTo [':'] (afterAt piece) := by
      rcases stripWww_cases (upTo [':'] (afterAt piece)) with ⟨rest, heq, hstrip⟩ | hstrip
      · rw [auditedHost, hstrip] at hc
        rw [heq]
        simp [hc]
      · rwa [auditedHost, hstrip] at hc
    obtain ⟨hafter, hcolon⟩ := mem_of_mem_upTo hkept
    exact ⟨(List.rtakeWhile_suffix _ _).subset hafter, by simpa using hcolon⟩
  have hcolon : ':' ∉ auditedHost piece := fun h => (hmem _ h).2 rfl
  rw [hname]
  by_cases hdot : '.' ∈ auditedHost piece
  · have hpiece : pieceOf (auditedHost piece) = auditedHost piece := by
      rw [pieceOf, afterScheme_of_notMem hcolon]
      exact upTo_of_forall fun c hc => hstops c (hmem c hc).1
    have hblank' : ∀ c ∈ auditedHost piece, isWhitespace c = false :=
      fun c hc => hblank c (hmem c hc).1
    have hcut : upTo [':'] (lower (auditedHost piece)) = lower (auditedHost piece) := by
      rw [upTo_lower rfl, upTo_of_forall]
      intro c hc
      simpa using (hmem c hc).2
    rw [dotted, if_pos ((contains_dot_iff _).mpr hdot), Option.bind_some,
      lookedUp_eq hblank' (webLike_of_notMem hcolon), hpiece, nameOf, hcut]
  · have hnone : '.' ∉ dropWww (lower (auditedHost piece)) := by
      intro h
      exact hdot ((mem_lower_iff (by decide)).mp ((dropWww_suffix _).subset h))
    rw [dotted, if_neg (mt (contains_dot_iff _).mp hdot), dotted,
      if_neg (mt (contains_dot_iff _).mp hnone)]
    rfl

/-! ## References -/

def isUnreserved (c : Char) : Bool := c.isAlphanum || ['-', '.', '_', '~'].contains c

def isSubDelim (c : Char) : Bool :=
  ['!', '$', '&', '\'', '(', ')', '*', '+', ',', ';', '='].contains c

def isRegNameChar (c : Char) : Bool := isUnreserved c || isSubDelim c || c == '%'

def isUserinfoChar (c : Char) : Bool := isRegNameChar c || c == ':'

def isPathChar (c : Char) : Bool := isRegNameChar c || c == ':' || c == '@' || c == '/'

def isQueryChar (c : Char) : Bool := isPathChar c || c == '?'

/-- A name, an IPv4 address, or an IP literal in brackets. -/
def isHost (host : List Char) : Bool :=
  host.all isRegNameChar ||
    (host.head? == some '[' && host.getLast? == some ']' &&
      (host.drop 1).dropLast.all fun c => isUnreserved c || isSubDelim c || c == ':')

/-- An `http`, `https` or scheme-relative reference by the grammar of RFC 3986, with any
    `%` and with anything in brackets that an IP literal is made of. -/
structure UrlRef where
  scheme : Option (List Char)
  userinfo : Option (List Char)
  host : List Char
  port : Option (List Char)
  path : List Char
  query : Option (List Char)
  fragment : Option (List Char)
  scheme_web : ∀ s, scheme = some s → lower s = "http".toList ∨ lower s = "https".toList
  userinfo_chars : ∀ u, userinfo = some u → u.all isUserinfoChar = true
  host_chars : isHost host = true
  port_digits : ∀ p, port = some p → p.all Char.isDigit = true
  path_start : ∀ c, path.head? = some c → c = '/'
  path_chars : path.all isPathChar = true
  query_chars : ∀ q, query = some q → q.all isQueryChar = true
  fragment_chars : ∀ f, fragment = some f → f.all isQueryChar = true

def UrlRef.hostPort (url : UrlRef) : List Char :=
  url.host ++ match url.port with
    | some p => ':' :: p
    | none => []

def UrlRef.authority (url : UrlRef) : List Char :=
  match url.userinfo with
  | some u => u ++ '@' :: url.hostPort
  | none => url.hostPort

/-- Path, query and fragment. -/
def UrlRef.tail (url : UrlRef) : List Char :=
  url.path ++
    ((match url.query with
      | some q => '?' :: q
      | none => []) ++
      match url.fragment with
      | some f => '#' :: f
      | none => [])

def UrlRef.text (url : UrlRef) : List Char :=
  match url.scheme with
  | some s => s ++ ':' :: '/' :: '/' :: (url.authority ++ url.tail)
  | none => '/' :: '/' :: (url.authority ++ url.tail)

/-! ## Their characters -/

theorem not_isAlphanum_of_isWhitespace {c : Char} (h : isWhitespace c = true) :
    c.isAlphanum = false := by
  have hnat := toNat_of_isWhitespace h
  have hrange : ∀ lo hi : UInt32, 32 < lo.toNat → hi.toNat < 128 →
      (decide (c.val ≥ lo) && decide (c.val ≤ hi)) = false := by
    intro lo hi hlo hhi
    rw [Bool.eq_false_iff, ne_eq, Bool.and_eq_true, decide_eq_true_eq, decide_eq_true_eq]
    intro hbetween
    have hlow : lo.toNat ≤ c.toNat := hbetween.1
    have hhigh : c.toNat ≤ hi.toNat := hbetween.2
    omega
  have hupper : c.isUpper = false := by
    rw [Bool.eq_false_iff, Char.isUpper, ne_eq, decide_eq_true_eq]
    intro hbetween
    have hlow : 65 ≤ c.toNat := hbetween.1
    have hhigh : c.toNat ≤ 90 := hbetween.2
    omega
  have hlower : c.isLower = false := hrange 97 122 (by decide) (by decide)
  have hdigit : c.isDigit = false := hrange 48 57 (by decide) (by decide)
  rw [Char.isAlphanum, Char.isAlpha, hupper, hlower, hdigit]
  rfl

/-- No character of the grammar is a blank. -/
theorem not_isWhitespace_of_isQueryChar {c : Char} (h : isQueryChar c = true) :
    isWhitespace c = false := by
  rw [Bool.eq_false_iff]
  intro hblank
  have hne : ∀ k : Char, 32 < k.toNat ∧ k.toNat < 128 → (c == k) = false :=
    fun k hk => ne_of_isWhitespace hblank hk
  simp only [isQueryChar, isPathChar, isRegNameChar, isUnreserved, isSubDelim,
    not_isAlphanum_of_isWhitespace hblank, List.contains_cons, List.contains_nil] at h
  simp [hne] at h

/-- A character of a host, in or out of brackets. -/
def isHostChar (c : Char) : Bool := isRegNameChar c || c == ':' || c == '[' || c == ']'

theorem all_isHostChar {host : List Char} (h : isHost host = true) :
    ∀ c ∈ host, isHostChar c = true := by
  intro c hc
  rw [isHost, Bool.or_eq_true] at h
  rcases h with hname | hliteral
  · have hreg := List.all_eq_true.mp hname c hc
    simp [isHostChar, hreg]
  · simp only [Bool.and_eq_true, beq_iff_eq] at hliteral
    obtain ⟨⟨hopen, hclose⟩, hinner⟩ := hliteral
    obtain ⟨rest, rfl⟩ := List.head?_eq_some_iff.mp hopen
    rcases List.mem_cons.mp hc with rfl | hc
    · rfl
    · have hrest : rest ≠ [] := List.ne_nil_of_mem hc
      rw [List.getLast?_cons, List.getLast?_eq_some_getLast hrest, Option.getD_some,
        Option.some.injEq] at hclose
      rw [← List.dropLast_concat_getLast hrest, hclose, List.mem_append] at hc
      rcases hc with hc | hc
      · have hkept := List.all_eq_true.mp hinner c hc
        simp only [Bool.or_eq_true, beq_iff_eq] at hkept
        rcases hkept with (hfree | hdelim) | hcolon
        · simp [isHostChar, isRegNameChar, hfree]
        · simp [isHostChar, isRegNameChar, hdelim]
        · simp [isHostChar, hcolon]
      · rw [List.mem_singleton.mp hc]
        rfl

theorem not_isWhitespace_of_isHostChar {c : Char} (h : isHostChar c = true) :
    isWhitespace c = false := by
  simp only [isHostChar, Bool.or_eq_true, beq_iff_eq] at h
  rcases h with ((hreg | rfl) | rfl) | rfl
  · exact not_isWhitespace_of_isQueryChar (by simp [isQueryChar, isPathChar, hreg])
  · rfl
  · rfl
  · rfl

namespace UrlRef

variable (url : UrlRef)

theorem mem_hostPort : ∀ c ∈ url.hostPort, isHostChar c = true := by
  intro c hc
  rw [hostPort, List.mem_append] at hc
  rcases hc with hc | hc
  · exact all_isHostChar url.host_chars c hc
  · rcases hport : url.port with _ | p
    · rw [hport] at hc
      cases hc
    · rw [hport] at hc
      rcases List.mem_cons.mp hc with rfl | hc
      · rfl
      · have hdigit := List.all_eq_true.mp (url.port_digits p hport) c hc
        simp [isHostChar, isRegNameChar, isUnreserved, Char.isAlphanum, hdigit]

theorem mem_authority : ∀ c ∈ url.authority, isHostChar c = true ∨ c = '@' := by
  intro c hc
  rcases huser : url.userinfo with _ | u
  · rw [authority, huser] at hc
    exact .inl (url.mem_hostPort c hc)
  · rw [authority, huser] at hc
    rcases List.mem_append.mp hc with hc | hc
    · have hkept := List.all_eq_true.mp (url.userinfo_chars u huser) c hc
      rw [isUserinfoChar, Bool.or_eq_true] at hkept
      rcases hkept with hreg | hcolon
      · exact .inl (by simp [isHostChar, hreg])
      · exact .inl (by simp [isHostChar, hcolon])
    · rcases List.mem_cons.mp hc with rfl | hc
      · exact .inr rfl
      · exact .inl (url.mem_hostPort c hc)

theorem mem_tail : ∀ c ∈ url.tail, isQueryChar c = true ∨ c = '#' := by
  intro c hc
  rw [tail, List.mem_append, List.mem_append] at hc
  rcases hc with hc | hc | hc
  · have hkept := List.all_eq_true.mp url.path_chars c hc
    exact .inl (by rw [isQueryChar, hkept, Bool.true_or])
  · rcases hquery : url.query with _ | q
    · rw [hquery] at hc
      cases hc
    · rw [hquery] at hc
      rcases List.mem_cons.mp hc with rfl | hc
      · exact .inl rfl
      · exact .inl (List.all_eq_true.mp (url.query_chars q hquery) c hc)
  · rcases hfragment : url.fragment with _ | f
    · rw [hfragment] at hc
      cases hc
    · rw [hfragment] at hc
      rcases List.mem_cons.mp hc with rfl | hc
      · exact .inr rfl
      · exact .inl (List.all_eq_true.mp (url.fragment_chars f hfragment) c hc)

theorem head_tail (c : Char) (h : url.tail.head? = some c) : c ∈ ['/', '?', '#'] := by
  rw [tail] at h
  rcases hpath : url.path with _ | ⟨c', path⟩
  · rw [hpath, List.nil_append] at h
    rcases hquery : url.query with _ | q
    · rcases hfragment : url.fragment with _ | f
      · rw [hquery, hfragment] at h
        cases h
      · rw [hquery, hfragment] at h
        cases h
        simp
    · rw [hquery] at h
      cases h
      simp
  · rw [hpath] at h
    have heq : c' = c := by simpa using h
    rw [← heq, url.path_start c' (by rw [hpath]; rfl)]
    simp

theorem not_stop_of_mem_authority : ∀ c ∈ url.authority, c ∉ ['/', '?', '#'] := by
  intro c hc hstop
  rcases url.mem_authority c hc with hkept | rfl
  · simp only [List.mem_cons, List.not_mem_nil, or_false] at hstop
    rcases hstop with rfl | rfl | rfl <;> exact absurd hkept (by decide)
  · exact absurd hstop (by decide)

theorem not_blank_of_mem_text : ∀ c ∈ url.text, isWhitespace c = false := by
  have hrest : ∀ c ∈ url.authority ++ url.tail, isWhitespace c = false := by
    intro c hc
    rcases List.mem_append.mp hc with hc | hc
    · rcases url.mem_authority c hc with hkept | rfl
      · exact not_isWhitespace_of_isHostChar hkept
      · rfl
    · rcases url.mem_tail c hc with hkept | rfl
      · exact not_isWhitespace_of_isQueryChar hkept
      · rfl
  intro c hc
  rcases hscheme : url.scheme with _ | s
  · rw [text, hscheme] at hc
    simp only [List.mem_cons] at hc
    rcases hc with rfl | rfl | hc
    · rfl
    · rfl
    · exact hrest c hc
  · rw [text, hscheme] at hc
    simp only [List.mem_append, List.mem_cons] at hc
    rcases hc with hc | rfl | rfl | rfl | hc
    · have hletter : toAsciiLower c ∈ lower s := List.mem_map_of_mem hc
      rw [← isWhitespace_toAsciiLower]
      rcases url.scheme_web s hscheme with heq | heq
      · rw [heq] at hletter
        have hall : ("http".toList.all fun k => !isWhitespace k) = true := rfl
        simpa using List.all_eq_true.mp hall _ hletter
      · rw [heq] at hletter
        have hall : ("https".toList.all fun k => !isWhitespace k) = true := rfl
        simpa using List.all_eq_true.mp hall _ hletter
    · rfl
    · rfl
    · rfl
    · exact hrest c (List.mem_append.mpr hc)

theorem colon_notMem_scheme {s : List Char} (h : url.scheme = some s) : ':' ∉ s := by
  intro hmem
  have hletter := (mem_lower_iff (k := ':') (by decide)).mpr hmem
  rcases url.scheme_web s h with heq | heq
  · rw [heq] at hletter
    simp at hletter
  · rw [heq] at hletter
    simp at hletter

theorem webLike_text : webLike url.text = true := by
  rcases hscheme : url.scheme with _ | s
  · rw [text, hscheme]
    rfl
  · have hlower : lower url.text =
        lower s ++ lower (':' :: '/' :: '/' :: (url.authority ++ url.tail)) := by
      rw [text, hscheme]
      exact List.map_append
    rw [webLike, hlower]
    rcases url.scheme_web s hscheme with heq | heq
    · rw [heq]
      rfl
    · rw [heq]
      rfl

theorem upTo_rest : upTo ['/', '?', '#'] (url.authority ++ url.tail) = url.authority :=
  upTo_append_stop url.not_stop_of_mem_authority url.head_tail

theorem pieceOf_text_of_scheme {s : List Char} (h : url.scheme = some s) :
    pieceOf url.text = url.authority := by
  rw [pieceOf, text, h]
  dsimp only
  rw [afterScheme_append (url.colon_notMem_scheme h), Option.getD_some, upTo_rest]

theorem lookedUp_text : lookedUp url.text = dotted (nameOf (pieceOf url.text)) :=
  lookedUp_eq url.not_blank_of_mem_text url.webLike_text

/-- `https://host/`. -/
def home : UrlRef where
  scheme := some "https".toList
  userinfo := none
  host := url.host
  port := none
  path := ['/']
  query := none
  fragment := none
  scheme_web := by
    rintro s ⟨⟩
    exact .inr rfl
  userinfo_chars := by simp
  host_chars := url.host_chars
  port_digits := by simp
  path_start := by simp
  path_chars := rfl
  query_chars := by simp
  fragment_chars := by simp

theorem text_home : url.home.text = "https://".toList ++ (url.host ++ ['/']) := by
  simp [text, home, authority, hostPort, tail]

theorem lookedUp_home :
    lookedUp ("https://".toList ++ (url.host ++ ['/'])) = dotted (nameOf url.host) := by
  have hauthority : url.home.authority = url.host := by simp [authority, hostPort, home]
  rw [← text_home, lookedUp_text, url.home.pieceOf_text_of_scheme rfl, hauthority]

end UrlRef

theorem UrlRef.upTo_hostPort (url : UrlRef) :
    upTo [':'] url.hostPort = upTo [':'] url.host := by
  rcases hport : url.port with _ | p
  · simp [hostPort, hport]
  · simp only [hostPort, hport]
    by_cases hcolon : ':' ∈ url.host
    · exact upTo_append_of_mem hcolon _
    · have hstop : ∀ c ∈ url.host, c ∉ [':'] := by
        intro c hc hmem
        rw [List.mem_singleton.mp hmem] at hc
        exact hcolon hc
      rw [upTo_append_stop hstop (by simp), upTo_of_forall hstop]

theorem UrlRef.nameOf_hostPort (url : UrlRef) : nameOf url.hostPort = nameOf url.host := by
  rw [nameOf, nameOf, upTo_lower rfl, upTo_lower rfl, url.upTo_hostPort]

theorem UrlRef.afterAt_authority (url : UrlRef) : afterAt url.authority = url.hostPort := by
  have hat : ∀ c ∈ url.hostPort, (c != '@') = true := by
    intro c hc
    rw [bne_iff_ne]
    rintro rfl
    exact absurd (url.mem_hostPort _ hc) (by decide)
  have hhost : url.hostPort.rtakeWhile (· != '@') = url.hostPort :=
    List.rtakeWhile_eq_self_iff.mpr hat
  rcases huser : url.userinfo with _ | u
  · rw [afterAt, authority, huser]
    exact hhost
  · rw [afterAt, authority, huser]
    dsimp only
    rw [List.rtakeWhile, List.reverse_append, List.reverse_cons, List.append_assoc,
      List.takeWhile_append_of_pos fun c hc => hat c (List.mem_reverse.mp hc)]
    simp

/-! ## Which host is found -/

/-- Two hosts for which the same is looked up. -/
def SameName (a b : List Char) : Prop :=
  nameOf a = nameOf b ∨ ('.' ∉ nameOf a ∧ '.' ∉ nameOf b)

/-- The reference is looked up as `https://host/` is, and as the host that the lookalike
    audit reads in it. -/
def FindsHost (libs : HtmlLibs) (url : UrlRef) : Prop :=
  extractRegistrableDomain libs (.ofList url.text) =
      extractRegistrableDomain libs (.ofList ("https://".toList ++ (url.host ++ ['/']))) ∧
    extractRegistrableDomain libs (.ofList url.text) =
      (extractDomainFromUrl (.ofList url.text)).bind (extractRegistrableDomain libs)

/-- With a scheme: there is no user, or what the user has before a colon is the same name
    as the host, or there is no colon and neither has a dot.  Without one: what follows
    the first `://` is read as the same name by both, or there is none and the host has
    no dot. -/
def HostRead (url : UrlRef) : Prop :=
  match url.scheme with
  | some _ =>
      match url.userinfo with
      | none => True
      | some user =>
          if ':' ∈ user then SameName user url.host
          else '.' ∉ dropWww (lower user) ∧ '.' ∉ upTo [':'] url.host
  | none =>
      match afterScheme url.text with
      | none => '.' ∉ nameOf url.host
      | some rest =>
          SameName (upTo ['/', '?', '#'] rest) url.host ∧
            SameName (upTo ['/', '?', '#'] rest) (afterAt (upTo ['/', '?', '#'] rest))

theorem sameName_iff (a b : List Char) : dotted (nameOf a) = dotted (nameOf b) ↔ SameName a b :=
  dotted_eq_iff _ _

theorem mem_pieceOf {text : List Char} {c : Char} (h : c ∈ pieceOf text) :
    c ∈ text ∧ c ∉ ['/', '?', '#'] := by
  obtain ⟨hmem, hstop⟩ := mem_of_mem_upTo h
  refine ⟨?_, hstop⟩
  rcases hscheme : afterScheme text with _ | rest
  · rwa [hscheme] at hmem
  · rw [hscheme] at hmem
    have hsuffix : ∀ s r : List Char, afterScheme s = some r → r <:+ s := by
      intro s r hr
      fun_induction afterScheme s with
      | case1 rest =>
          cases hr
          exact ⟨[':', '/', '/'], rfl⟩
      | case2 c rest _ ih => exact (ih hr).trans (List.suffix_cons c rest)
      | case3 => cases hr
    exact (hsuffix text rest hscheme).subset hmem

/-- The crates that take every host for a registrable domain. -/
def everyHostLibs : HtmlLibs := { onePageLibs [] "" with registrableRoot := some }

/-- Whatever the crates make of hosts, the host is found exactly if the three names agree. -/
theorem findsHost_iff_sameName (url : UrlRef) :
    (∀ libs, FindsHost libs url) ↔ SameName (pieceOf url.text) url.host ∧
      SameName (pieceOf url.text) (afterAt (pieceOf url.text)) := by
  have haudited : (extractDomainFromUrl (.ofList url.text)).bind (lookedUp ∘ String.toList) =
      dotted (nameOf (afterAt (pieceOf url.text))) := by
    rw [extractDomainFromUrl_eq url.not_blank_of_mem_text, ← lookedUp_audited
      (fun c hc => url.not_blank_of_mem_text c (mem_pieceOf hc).1) (fun c hc => (mem_pieceOf hc).2)]
    rcases dotted (auditedHost (pieceOf url.text)) with _ | host
    · rfl
    · simp
  have hfound : ∀ libs : HtmlLibs,
      (extractDomainFromUrl (.ofList url.text)).bind (extractRegistrableDomain libs) =
        (dotted (nameOf (afterAt (pieceOf url.text)))).bind fun host =>
          (libs.domainToAscii (.ofList host)).bind libs.registrableRoot := by
    intro libs
    rw [← haudited, Option.bind_assoc]
    congr 1
    funext host
    have heq := extractRegistrableDomain_eq libs host.toList
    rwa [String.ofList_toList] at heq
  rw [← sameName_iff, ← sameName_iff]
  constructor
  · intro hfinds
    obtain ⟨hhome, hagrees⟩ := hfinds everyHostLibs
    have hid : ∀ found : Option (List Char), (found.bind fun host =>
        (everyHostLibs.domainToAscii (.ofList host)).bind everyHostLibs.registrableRoot) =
          found.map String.ofList := by
      intro found
      rcases found with _ | host <;> rfl
    have hinj : Function.Injective (Option.map String.ofList) :=
      Option.map_injective fun _ _ => String.ofList_injective
    rw [extractRegistrableDomain_eq, extractRegistrableDomain_eq, hid, hid, url.lookedUp_home,
      url.lookedUp_text] at hhome
    rw [hfound, extractRegistrableDomain_eq, hid, hid, url.lookedUp_text] at hagrees
    exact ⟨hinj hhome, hinj hagrees⟩
  · rintro ⟨hhome, hagrees⟩ libs
    constructor
    · rw [extractRegistrableDomain_eq, extractRegistrableDomain_eq, url.lookedUp_home,
        url.lookedUp_text, hhome]
    · rw [hfound, extractRegistrableDomain_eq, url.lookedUp_text, hagrees]

theorem nameOf_of_colon {user : List Char} (h : ':' ∈ user) (rest : List Char) :
    nameOf (user ++ rest) = nameOf user := by
  rw [nameOf, nameOf, upTo_lower rfl, upTo_lower rfl, upTo_append_of_mem h]

theorem nameOf_of_at {user : List Char} (h : ':' ∉ user) (rest : List Char) :
    nameOf (user ++ '@' :: rest) = dropWww (lower user) ++ '@' :: lower (upTo [':'] rest) := by
  have hkept : ∀ c ∈ user ++ ['@'], (!([':'] : List Char).contains c) = true := by
    intro c hc
    rcases List.mem_append.mp hc with hc | hc
    · have hne : c ≠ ':' := by
        rintro rfl
        exact h hc
      simp [hne]
    · rw [List.mem_singleton.mp hc]
      rfl
  have hcut : upTo [':'] (user ++ '@' :: rest) = user ++ '@' :: upTo [':'] rest := by
    have happend : user ++ '@' :: rest = (user ++ ['@']) ++ rest := by simp
    rw [happend, upTo, List.takeWhile_append_of_pos hkept, upTo, List.append_assoc]
    rfl
  rw [nameOf, upTo_lower rfl, hcut, ← dropWww_append_at]
  simp [lower, toAsciiLower]

/-- A user without a colon, looked up together with the host. -/
theorem sameName_of_at (url : UrlRef) {user : List Char} (h : ':' ∉ user) :
    SameName (user ++ '@' :: url.hostPort) url.host ↔
      '.' ∉ dropWww (lower user) ∧ '.' ∉ upTo [':'] url.host := by
  have hat : '@' ∉ nameOf url.host := by
    intro hmem
    have hlower : '@' ∈ lower url.host :=
      (mem_of_mem_upTo ((dropWww_suffix _).subset hmem)).1
    have hhost := all_isHostChar url.host_chars _ ((mem_lower_iff (by decide)).mp hlower)
    exact absurd hhost (by decide)
  have hdot : '.' ∈ lower (upTo [':'] url.host) ↔ '.' ∈ upTo [':'] url.host :=
    mem_lower_iff (by decide)
  have hname : '.' ∈ nameOf url.host → '.' ∈ upTo [':'] url.host := by
    intro hmem
    have hlower := (dropWww_suffix _).subset hmem
    rw [upTo_lower rfl] at hlower
    exact hdot.mp hlower
  rw [SameName, nameOf_of_at h, url.upTo_hostPort]
  constructor
  · rintro (heq | ⟨hnone, -⟩)
    · exact absurd (heq ▸ (by simp : '@' ∈ _)) hat
    · rw [List.mem_append, List.mem_cons, not_or, not_or, hdot] at hnone
      exact ⟨hnone.1, hnone.2.2⟩
  · rintro ⟨huser, hhost⟩
    refine .inr ⟨?_, mt hname hhost⟩
    rw [List.mem_append, List.mem_cons, not_or, not_or, hdot]
    exact ⟨huser, by decide, hhost⟩

theorem SameName.congr_left {a a' : List Char} (h : nameOf a = nameOf a') (b : List Char) :
    SameName a b ↔ SameName a' b := by
  rw [SameName, SameName, h]

theorem SameName.congr_right {b b' : List Char} (h : nameOf b = nameOf b') (a : List Char) :
    SameName a b ↔ SameName a b' := by
  rw [SameName, SameName, h]

/-- **The host of a reference is found, whatever the crates make of hosts, exactly if the
    user before it and the scheme do not get in the way.** -/
theorem host_found_iff (url : UrlRef) : (∀ libs, FindsHost libs url) ↔ HostRead url := by
  rw [findsHost_iff_sameName, HostRead]
  rcases hscheme : url.scheme with _ | s
  · dsimp only
    rcases hafter : afterScheme url.text with _ | rest
    · have hpiece : pieceOf url.text = [] := by
        rw [pieceOf, hafter, UrlRef.text, hscheme]
        rfl
      have hempty : '.' ∉ nameOf [] := List.not_mem_nil
      rw [hpiece]
      constructor
      · rintro ⟨heq | hnone, -⟩
        · exact heq ▸ hempty
        · exact hnone.2
      · intro hnone
        exact ⟨.inr ⟨hempty, hnone⟩, .inl rfl⟩
    · have hpiece : pieceOf url.text = upTo ['/', '?', '#'] rest := by
        rw [pieceOf, hafter]
        rfl
      rw [hpiece]
  · have hpiece := url.pieceOf_text_of_scheme hscheme
    rw [hpiece, url.afterAt_authority, SameName.congr_right url.nameOf_hostPort, and_self]
    rcases huser : url.userinfo with _ | user
    · have hauthority : url.authority = url.hostPort := by rw [UrlRef.authority, huser]
      rw [hauthority]
      exact iff_true_intro (.inl url.nameOf_hostPort)
    · have hauthority : url.authority = user ++ '@' :: url.hostPort := by
        rw [UrlRef.authority, huser]
      rw [hauthority]
      dsimp only
      by_cases hcolon : ':' ∈ user
      · rw [if_pos hcolon]
        exact SameName.congr_left (nameOf_of_colon hcolon _) _
      · rw [if_neg hcolon]
        exact sameName_of_at url hcolon

/-- `https://good.com:80@evil.com/`. -/
def shownAsGood : UrlRef where
  scheme := some "https".toList
  userinfo := some "good.com:80".toList
  host := "evil.com".toList
  port := none
  path := ['/']
  query := none
  fragment := none
  scheme_web := by
    rintro s ⟨⟩
    exact .inr rfl
  userinfo_chars := by
    rintro u ⟨⟩
    decide +kernel
  host_chars := by decide +kernel
  port_digits := by simp
  path_start := by simp
  path_chars := rfl
  query_chars := by simp
  fragment_chars := by simp

/-- The browser goes to `evil.com`, the audit looks at `evil.com`, and the anchor is
    compared with `good.com`. -/
theorem shownAsGood_not_found :
    shownAsGood.text = "https://good.com:80@evil.com/".toList ∧
      extractRegistrableDomain everyHostLibs "https://good.com:80@evil.com/" = some "good.com" ∧
      extractRegistrableDomain everyHostLibs "https://evil.com/" = some "evil.com" ∧
      extractDomainFromUrl "https://good.com:80@evil.com/" = some "evil.com" ∧
      extractRegistrableDomain everyHostLibs "//evil.com/" = none := by
  decide +kernel

/-! ## Anchors -/

/-- The URL tokens of the text that is scanned. -/
def urlTokens (libs : HtmlLibs) (text : String) : List String :=
  let scanned :=
    String.ofList (truncateGraphemes libs.toUnicodeLibs text.toList MAX_ANCHOR_TEXT_SCAN)
  ((libs.links false scanned).filter (·.1)).map Prod.snd

/-- The token names a domain other than this one. -/
def namesOther (libs : HtmlLibs) (domain : String) (token : String) : Bool :=
  (extractRegistrableDomain libs token).any fun other => !eqIgnoreAsciiCase other domain

def namesSame (libs : HtmlLibs) (domain : String) (token : String) : Bool :=
  (extractRegistrableDomain libs token).any fun other => eqIgnoreAsciiCase other domain

/-- The hits and the overflow count. -/
abbrev Tally := List (String × String) × Nat

/-- One turn of the loop of `detect_mismatches`, what it does to the hits. -/
def countAnchor (libs : HtmlLibs) (tally : Tally) (anchor : String × String) : Tally :=
  match (auditAnchor libs anchor.1 anchor.2).bind AnchorFinding.mismatch? with
  | none => tally
  | some hit =>
      if tally.1.length < MAX_MISMATCH_HITS then (tally.1 ++ [hit], tally.2)
      else (tally.1, tally.2 + 1)

/-- One more hit, or one more in the overflow. -/
def OneMore (tally tally' : Tally) : Prop :=
  if tally.1.length < MAX_MISMATCH_HITS then ∃ hit, tally' = (tally.1 ++ [hit], tally.2)
  else tally' = (tally.1, tally.2 + 1)

theorem not_oneMore_self (tally : Tally) : ¬ OneMore tally tally := by
  intro h
  unfold OneMore at h
  split at h
  · obtain ⟨hit, heq⟩ := h
    have hlength := congrArg (fun t : Tally => t.1.length) heq
    simp at hlength
  · have hcount := congrArg Prod.snd h
    simp at hcount

/-- The hit of an anchor, if it is one. -/
def hitOf (libs : HtmlLibs) (anchor : String × String) : Option (String × String) :=
  (auditAnchor libs anchor.1 anchor.2).bind AnchorFinding.mismatch?

/-- The capped list and the count are what the loop leaves. -/
theorem foldl_countAnchor (libs : HtmlLibs) (rest : List (String × String))
    (hits : List (String × String)) :
    rest.foldl (countAnchor libs) (hits.take MAX_MISMATCH_HITS, hits.length - MAX_MISMATCH_HITS) =
      ((hits ++ rest.filterMap (hitOf libs)).take MAX_MISMATCH_HITS,
        (hits ++ rest.filterMap (hitOf libs)).length - MAX_MISMATCH_HITS) := by
  induction rest generalizing hits with
  | nil => rw [List.filterMap_nil, List.append_nil, List.foldl_nil]
  | cons anchor rest ih =>
      rw [List.foldl_cons]
      rcases hhit : hitOf libs anchor with _ | hit
      · rw [List.filterMap_cons_none hhit, ← ih]
        unfold hitOf at hhit
        rw [countAnchor, hhit]
      · have happend : hits ++ hit :: rest.filterMap (hitOf libs) =
            hits ++ [hit] ++ rest.filterMap (hitOf libs) := by simp
        rw [List.filterMap_cons_some hhit, happend, ← ih]
        congr 1
        unfold hitOf at hhit
        rw [countAnchor, hhit]
        dsimp only
        rw [List.length_take]
        split
        · have hshort : hits.length < MAX_MISMATCH_HITS := by omega
          have hone : (hits ++ [hit]).length = hits.length + 1 := List.length_append
          rw [List.take_of_length_le (Nat.le_of_lt hshort), List.take_of_length_le (by omega), hone]
          congr 1
          omega
        · have hone : (hits ++ [hit]).length = hits.length + 1 := List.length_append
          rw [List.take_append_of_le_length (by omega), hone]
          congr 1
          omega

theorem detectMismatches_loop (libs : HtmlLibs) (document : List Node) :
    ((detectMismatches libs document).1, (detectMismatches libs document).2.1) =
      (anchors document).foldl (countAnchor libs) ([], 0) := by
  have hhits : (anchorFindings libs document).filterMap AnchorFinding.mismatch? =
      (anchors document).filterMap (hitOf libs) := List.filterMap_filterMap
  have hloop := foldl_countAnchor libs (anchors document) []
  rw [List.nil_append, ← hhits] at hloop
  exact hloop.symm

/-- Only the first token counts. -/
theorem hitOf_eq {libs : HtmlLibs} {anchor : String × String} {domain : String}
    (h : extractRegistrableDomain libs anchor.1 = some domain) :
    (hitOf libs anchor).isSome =
      (urlTokens libs anchor.2).head?.any (namesOther libs domain) := by
  simp only [hitOf, auditAnchor, h, urlTokens, List.head?_map]
  generalize List.head? _ = first
  rcases first with _ | link
  · rfl
  · rcases hother : extractRegistrableDomain libs link.2 with _ | other
    · simp [namesOther, hother]
    · rcases hsame : eqIgnoreAsciiCase other domain with _ | _ <;>
        simp [namesOther, hother, hsame, AnchorFinding.mismatch?]

theorem countAnchor_of_hit {libs : HtmlLibs} {anchor : String × String} (tally : Tally)
    (h : (hitOf libs anchor).isSome = true) : OneMore tally (countAnchor libs tally anchor) := by
  obtain ⟨hit, hhit⟩ := Option.isSome_iff_exists.mp h
  unfold hitOf at hhit
  rw [OneMore, countAnchor, hhit]
  dsimp only
  split
  · exact ⟨hit, rfl⟩
  · rfl

theorem countAnchor_of_no_hit {libs : HtmlLibs} {anchor : String × String} (tally : Tally)
    (h : (hitOf libs anchor).isSome = false) : countAnchor libs tally anchor = tally := by
  have hhit : hitOf libs anchor = none := by simpa using h
  unfold hitOf at hhit
  rw [countAnchor, hhit]

/-- **Every anchor that names another domain is counted exactly if each of them names one
    in its first URL token already.** -/
theorem mismatches_complete_iff (libs : HtmlLibs) (document : List Node) :
    ((detectMismatches libs document).1, (detectMismatches libs document).2.1) =
      (anchors document).foldl (countAnchor libs) ([], 0) ∧
    ((∀ before anchor after, anchors document = before ++ anchor :: after →
      ∀ domain, extractRegistrableDomain libs anchor.1 = some domain →
        let tally := before.foldl (countAnchor libs) ([], 0)
        ((∃ token ∈ urlTokens libs anchor.2, namesOther libs domain token = true) →
          OneMore tally (countAnchor libs tally anchor)) ∧
        ((∀ token ∈ urlTokens libs anchor.2, namesSame libs domain token = true) →
          countAnchor libs tally anchor = tally)) ↔
      ∀ anchor ∈ anchors document, ∀ domain,
        extractRegistrableDomain libs anchor.1 = some domain →
          (∃ token ∈ urlTokens libs anchor.2, namesOther libs domain token = true) →
            ∃ token, (urlTokens libs anchor.2).head? = some token ∧
              namesOther libs domain token = true) := by
  refine ⟨detectMismatches_loop libs document, ?_, ?_⟩
  · intro hcomplete anchor hmem domain hdomain hother
    obtain ⟨before, after, hsplit⟩ := List.append_of_mem hmem
    have hcounted := (hcomplete before anchor after hsplit domain hdomain).1 hother
    have hhit : (hitOf libs anchor).isSome = true := by
      by_contra hnone
      rw [countAnchor_of_no_hit _ (Bool.not_eq_true _ ▸ hnone)] at hcounted
      exact not_oneMore_self _ hcounted
    rw [hitOf_eq hdomain] at hhit
    rcases hhead : (urlTokens libs anchor.2).head? with _ | token
    · rw [hhead] at hhit
      cases hhit
    · rw [hhead] at hhit
      exact ⟨token, rfl, hhit⟩
  · intro hfirst before anchor after hsplit domain hdomain
    have hmem : anchor ∈ anchors document := by
      rw [hsplit]
      simp
    refine ⟨?_, ?_⟩
    · intro hother
      obtain ⟨token, hhead, hnames⟩ := hfirst anchor hmem domain hdomain hother
      apply countAnchor_of_hit
      rw [hitOf_eq hdomain, hhead]
      exact hnames
    · intro hsame
      apply countAnchor_of_no_hit
      rw [hitOf_eq hdomain]
      rcases hhead : (urlTokens libs anchor.2).head? with _ | token
      · rfl
      · have htoken := hsame token (List.mem_of_mem_head? hhead)
        rw [namesSame] at htoken
        rcases hread : extractRegistrableDomain libs token with _ | other
        · rw [hread] at htoken
          cases htoken
        · rw [hread, Option.any_some] at htoken
          simp [namesOther, hread, htoken]

/-- `<a href="https://evil.com/">evil.com good.com</a>`. -/
def twoTokens : List Node :=
  documentOf [.element "a" [("href", "https://evil.com/")] [.text "evil.com good.com"]]

/-- The link finder on that text. -/
def twoTokensLibs : HtmlLibs :=
  { everyHostLibs with
    links := fun _ text =>
      if text = "evil.com good.com" then [(true, "evil.com"), (true, "good.com")] else [] }

/-- `good.com` is shown, the link goes to `evil.com`, and nothing is reported. -/
theorem twoTokens_not_reported :
    anchors twoTokens = [("https://evil.com/", "evil.com good.com")] ∧
      extractRegistrableDomain twoTokensLibs "https://evil.com/" = some "evil.com" ∧
      "good.com" ∈ urlTokens twoTokensLibs "evil.com good.com" ∧
      namesOther twoTokensLibs "evil.com" "good.com" = true ∧
      detectMismatches twoTokensLibs twoTokens = ([], 0, []) := by
  decide +kernel

end RustyImap.LinkHosts

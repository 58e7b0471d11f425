import RustyImap.ForwardMessage

/-!
# Header injection

What reaches a header of an outgoing message: the addresses and the subject of the
tool input, the names and types of attachments, and the ids and the subject that are
taken over from a stored message (`rimap-content/src/parse/threading.rs`).

A text is safe in a header when it has no CR, LF or NUL; in an address, a display
name or a message id an angle bracket is not safe either.
-/

namespace RustyImap.Compose

open RustyImap.UnicodeFilter RustyImap.HtmlBody RustyImap.ContentParse

/-! ## Safe texts -/

def breaksLine (c : Char) : Bool := c == '\r' || c == '\n' || c.toNat == 0

def isAngle (c : Char) : Bool := c == '<' || c == '>'

def free (bad : Char → Bool) (text : List Char) : Bool := text.all fun c => !bad c

/-- Safe as a header value. -/
def HeaderSafe (s : String) : Prop := free breaksLine s.toList = true

/-- Safe between the angle brackets of an address or an id. -/
def TokenSafe (s : String) : Prop := HeaderSafe s ∧ free isAngle s.toList = true

instance (s : String) : Decidable (HeaderSafe s) := inferInstanceAs (Decidable (_ = _))

instance (s : String) : Decidable (TokenSafe s) := inferInstanceAs (Decidable (_ ∧ _))

def AddressSafe (addr : AddressInput) : Prop :=
  TokenSafe addr.address ∧ ∀ name ∈ addr.name, TokenSafe name

/-- Every string that the builder puts into a header or a header parameter. -/
structure HeadersSafe (builder : MessageBuilder) : Prop where
  addresses : ∀ addr ∈ builder.recipients ++ builder.cc.getD [] ++ builder.bcc.getD [],
    AddressSafe addr
  subject : HeaderSafe builder.subject
  attachments : ∀ part ∈ builder.attachments.getD [],
    HeaderSafe part.name ∧ HeaderSafe part.contentType
  ids : ∀ id ∈ builder.inReplyTo.toList ++ builder.references, TokenSafe id

theorem free_iff {bad : Char → Bool} {text : List Char} :
    free bad text = true ↔ ∀ c ∈ text, bad c = false := by
  simp [free]

/-- A text whose characters come from a safe one is safe. -/
theorem free_of_subset {bad : Char → Bool} {text whole : List Char} (h : free bad whole = true)
    (hsub : ∀ c ∈ text, c ∈ whole) : free bad text = true := by
  rw [free_iff] at h ⊢
  intro c hc
  exact h c (hsub c hc)

/-! ## What the validators leave -/

theorem validateHeaderText_ok {field value : String}
    (h : validateHeaderText field value = .ok ()) : TokenSafe value := by
  unfold validateHeaderText at h
  split at h
  · cases h
  · rename_i hnone
    rw [Bool.not_eq_true, List.any_eq_false] at hnone
    have hclean : ∀ c ∈ value.toList, breaksLine c = false ∧ isAngle c = false := by
      intro c hc
      have hc := hnone c hc
      simp only [Bool.or_eq_true, not_or, Bool.not_eq_true] at hc
      obtain ⟨⟨⟨⟨hcr, hlf⟩, hnul⟩, hleft⟩, hright⟩ := hc
      constructor
      · simp only [breaksLine, hcr, hlf, hnul, Bool.or_self]
      · simp only [isAngle, hleft, hright, Bool.or_self]
    constructor
    · exact free_iff.mpr fun c hc => (hclean c hc).1
    · exact free_iff.mpr fun c hc => (hclean c hc).2

theorem validateAddresses_ok {field : String} {addrs : List AddressInput}
    (h : validateAddresses field addrs = .ok ()) : ∀ addr ∈ addrs, AddressSafe addr := by
  induction addrs with
  | nil => intro addr hmem; cases hmem
  | cons head rest ih =>
      obtain ⟨_, haddress, h⟩ := bind_eq_ok h
      have hparts : (∀ name ∈ head.name, TokenSafe name) ∧
          validateAddresses field rest = .ok () := by
        rcases hname : head.name with _ | name
        · simp only [hname] at h
          exact ⟨fun name hmem => absurd hmem (Option.not_mem_none name), h⟩
        · simp only [hname] at h
          obtain ⟨_, hok, hrest⟩ := bind_eq_ok h
          refine ⟨?_, hrest⟩
          intro other hmem
          obtain rfl := Option.mem_some.mp hmem
          exact validateHeaderText_ok hok
      intro addr hmem
      rcases List.mem_cons.mp hmem with rfl | hmem
      · exact ⟨validateHeaderText_ok haddress, hparts.1⟩
      · exact ih hparts.2 addr hmem

theorem isTokenChar_not_breaksLine {c : Char} (h : isTokenChar c = true) :
    breaksLine c = false := by
  have hlow : 0x21 ≤ c.toNat := by
    simp only [isTokenChar, Bool.and_eq_true, decide_eq_true_eq] at h
    exact h.1.1
  have hne : ∀ d : Char, d.toNat < 0x21 → c ≠ d := by
    rintro d hd rfl
    omega
  have hnul : (c.toNat == 0) = false := beq_eq_false_iff_ne.mpr (by omega)
  simp only [breaksLine, beq_eq_false_iff_ne.mpr (hne '\r' (by decide)),
    beq_eq_false_iff_ne.mpr (hne '\n' (by decide)), hnul, Bool.or_self]

/-- The text before a separator, the separator, and the text after it. -/
theorem splitOnce_eq_some {s : String} {sep : Char} {before after : String}
    (h : splitOnce s sep = some (before, after)) :
    s.toList = before.toList ++ sep :: after.toList := by
  unfold splitOnce at h
  have hsplit := List.takeWhile_append_dropWhile (p := (· != sep)) (l := s.toList)
  rcases hdrop : s.toList.dropWhile (· != sep) with _ | ⟨c, rest⟩
  · rw [hdrop] at h
    cases h
  · rw [hdrop] at h hsplit
    have hhead := List.head?_dropWhile_not (· != sep) s.toList
    rw [hdrop, List.head?_cons] at hhead
    have hc : c = sep := by simpa using hhead
    simp only [Option.some.injEq, Prod.mk.injEq] at h
    rw [← h.1, ← h.2, String.toList_ofList, String.toList_ofList]
    rw [hc] at hsplit
    exact hsplit.symm

theorem validateContentType_ok {value : String} (h : validateContentType value = .ok ()) :
    HeaderSafe value := by
  unfold validateContentType at h
  split at h
  · rename_i ty sub hsplit
    split at h
    · cases h
    · rename_i htokens
      simp only [Bool.or_eq_true, not_or, Bool.not_eq_true', Bool.not_eq_false] at htokens
      obtain ⟨⟨-, hty⟩, hsub⟩ := htokens
      rw [HeaderSafe, splitOnce_eq_some hsplit, free_iff]
      intro c hc
      rcases List.mem_append.mp hc with hc | hc
      · exact isTokenChar_not_breaksLine (List.all_eq_true.mp hty c hc)
      · rcases List.mem_cons.mp hc with rfl | hc
        · decide
        · exact isTokenChar_not_breaksLine (List.all_eq_true.mp hsub c hc)
  · cases h

theorem validateAttachmentEntries_ok {attachments : List AttachmentInput}
    (h : validateAttachmentEntries attachments = .ok ()) : ∀ att ∈ attachments,
      (∀ name ∈ att.filename, HeaderSafe name) ∧ ∀ ct ∈ att.contentType, HeaderSafe ct := by
  induction attachments with
  | nil => intro att hmem; cases hmem
  | cons head rest ih =>
      have hparts : ((∀ name ∈ head.filename, HeaderSafe name) ∧
          ∀ ct ∈ head.contentType, HeaderSafe ct) ∧ validateAttachmentEntries rest = .ok () := by
        unfold validateAttachmentEntries at h
        dsimp only at h
        split at h
        · cases h
        · rcases hname : head.filename with _ | name <;>
            rcases htype : head.contentType with _ | ct <;> simp only [hname, htype] at h
          · simpa using h
          · obtain ⟨_, hct, hrest⟩ := bind_eq_ok h
            simpa using ⟨validateContentType_ok hct, hrest⟩
          · obtain ⟨_, hok, hrest⟩ := bind_eq_ok h
            simpa using ⟨(validateHeaderText_ok hok).1, hrest⟩
          · obtain ⟨_, hok, h⟩ := bind_eq_ok h
            obtain ⟨_, hct, hrest⟩ := bind_eq_ok h
            simpa using ⟨⟨(validateHeaderText_ok hok).1, validateContentType_ok hct⟩, hrest⟩
      intro att hmem
      rcases List.mem_cons.mp hmem with rfl | hmem
      · exact hparts.1
      · exact ih hparts.2 att hmem

/-- What is left of a compose input that goes into headers. -/
structure ComposeChecked (input : ComposeInput) : Prop where
  addresses : ∀ addr ∈ input.recipients ++ input.cc.getD [] ++ input.bcc.getD [], AddressSafe addr
  subject : HeaderSafe input.subject
  attachments : ∀ att ∈ input.attachments.getD [],
    (∀ name ∈ att.filename, HeaderSafe name) ∧ ∀ ct ∈ att.contentType, HeaderSafe ct

theorem forall_mem_append₃ {α : Type} {p : α → Prop} {a b c : List α} (ha : ∀ x ∈ a, p x)
    (hb : ∀ x ∈ b, p x) (hc : ∀ x ∈ c, p x) : ∀ x ∈ a ++ b ++ c, p x := by
  intro x hx
  rcases List.mem_append.mp hx with hx | hx
  · rcases List.mem_append.mp hx with hx | hx
    · exact ha x hx
    · exact hb x hx
  · exact hc x hx

theorem headerSafe_of_any {s : String}
    (h : ¬ (s.toList.any fun c => c == '\r' || c == '\n' || c.toNat == 0) = true) :
    HeaderSafe s := by
  rw [Bool.not_eq_true, List.any_eq_false] at h
  exact free_iff.mpr fun c hc => Bool.eq_false_iff.mpr (h c hc)

/-- A check that did not fail, in the shape that `do` gives it. -/
theorem guard_eq_ok {ε β : Type} {c : Prop} [Decidable c] {e : ε} {next : Unit → Except ε β} {b : β}
    (h : (if c then (Except.error e >>= next) else next ()) = .ok b) : ¬ c ∧ next () = .ok b := by
  split at h
  · cases h
  · exact ⟨by assumption, h⟩

/-- The three address lists are checked one after the other. -/
theorem validateAddresses₃_ok {β : Type} {recipients cc bcc : List AddressInput}
    {next : Unit → Except RimapError β} {b : β}
    (h : (do
      validateAddresses "To" recipients
      validateAddresses "CC" cc
      let u ← validateAddresses "BCC" bcc
      next u) = .ok b) :
    (∀ addr ∈ recipients ++ cc ++ bcc, AddressSafe addr) ∧ next () = .ok b := by
  obtain ⟨_, hto, h⟩ := bind_eq_ok h
  obtain ⟨_, hcc, h⟩ := bind_eq_ok h
  obtain ⟨_, hbcc, h⟩ := bind_eq_ok h
  exact ⟨forall_mem_append₃ (validateAddresses_ok hto) (validateAddresses_ok hcc)
    (validateAddresses_ok hbcc), h⟩

theorem validateAttachments_ok {attachments : List AttachmentInput}
    (h : validateAttachments attachments = .ok ()) : ∀ att ∈ attachments,
      (∀ name ∈ att.filename, HeaderSafe name) ∧ ∀ ct ∈ att.contentType, HeaderSafe ct := by
  unfold validateAttachments at h
  split at h
  · cases h
  · exact validateAttachmentEntries_ok h

theorem validateComposeInput_ok {input : ComposeInput}
    (h : validateComposeInput input = .ok ()) : ComposeChecked input := by
  obtain ⟨recipients, cc, bcc, subject, bodyText, bodyHtml, attachments, uid, folder⟩ := input
  unfold validateComposeInput at h
  iterate 4 obtain ⟨-, h⟩ := guard_eq_ok h
  rcases attachments with _ | list
  · rcases bodyHtml with _ | html
    · obtain ⟨haddresses, h⟩ := validateAddresses₃_ok h
      exact ⟨haddresses, headerSafe_of_any (guard_eq_ok h).1, fun _ hmem => by cases hmem⟩
    · obtain ⟨-, h⟩ := guard_eq_ok h
      obtain ⟨haddresses, h⟩ := validateAddresses₃_ok h
      exact ⟨haddresses, headerSafe_of_any (guard_eq_ok h).1, fun _ hmem => by cases hmem⟩
  · rcases bodyHtml with _ | html
    · obtain ⟨_, hlist, h⟩ := bind_eq_ok h
      obtain ⟨haddresses, h⟩ := validateAddresses₃_ok h
      exact ⟨haddresses, headerSafe_of_any (guard_eq_ok h).1, validateAttachments_ok hlist⟩
    · obtain ⟨-, h⟩ := guard_eq_ok h
      obtain ⟨_, hlist, h⟩ := bind_eq_ok h
      obtain ⟨haddresses, h⟩ := validateAddresses₃_ok h
      exact ⟨haddresses, headerSafe_of_any (guard_eq_ok h).1, validateAttachments_ok hlist⟩

theorem validateForwardInput_ok {input : ForwardInput} {body : String}
    (h : validateForwardInput input = .ok body) :
    ∀ addr ∈ input.recipients ++ input.cc.getD [] ++ input.bcc.getD [], AddressSafe addr := by
  obtain ⟨_, -, h⟩ := bind_eq_ok h
  obtain ⟨_, hset, -⟩ := bind_eq_ok h
  unfold validateRecipientSet at hset
  obtain ⟨-, hset⟩ := guard_eq_ok hset
  obtain ⟨-, hset⟩ := guard_eq_ok hset
  obtain ⟨_, hto, h⟩ := bind_eq_ok hset
  obtain ⟨_, hcc, hbcc⟩ := bind_eq_ok h
  exact forall_mem_append₃ (validateAddresses_ok hto) (validateAddresses_ok hcc)
    (validateAddresses_ok hbcc)

/-! ## Ids of a stored message -/

/-- `sanitize_msg_id` takes these out before anything else. -/
def bareId (id : String) : List Char :=
  id.toList.filter fun c => c != '\r' && c != '\n' && c.toNat != 0 && c != '<' && c != '>'

/-- The normal form of a bare id, without invisible characters, as far as the cap on a
    header lets it show. -/
def shownForm (libs : UnicodeLibs) (id : String) : List Char :=
  let decoded := libs.decode (utf8Bytes (.ofList (bareId id))) (some "utf-8")
  let normalForm :=
    libs.nfkc (.ofList (truncateGraphemes libs decoded.toList (MAX_HEADER_BYTES * 4)))
  truncateGraphemes libs (normalForm.toList.filter fun c => !stripped c) MAX_HEADER_BYTES

/-- What the proofs use of the crates: no line break comes out of the decoder or the
    normaliser that did not go in, and a sniffed type is a plain one. -/
structure AddsNoBreaks (libs : ComposeLibs) : Prop where
  decode : ∀ s, ∀ c ∈ (libs.decode (utf8Bytes s) (some "utf-8")).toList,
    c = '\r' ∨ c = '\n' → c ∈ s.toList
  nfkc : ∀ s, ∀ c ∈ (libs.nfkc s).toList, c = '\r' ∨ c = '\n' → c ∈ s.toList
  sniffMime : ∀ bytes, ∀ ty ∈ libs.sniffMime bytes, HeaderSafe ty

section Ids

variable {libs : ComposeLibs} (hlibs : AddsNoBreaks libs)

include hlibs

/-- The normal form of a bare id has no line break. -/
theorem not_mem_normalForm (id : String) {c : Char} (hc : c = '\r' ∨ c = '\n') :
    c ∉ (libs.nfkc (.ofList (truncateGraphemes libs.toUnicodeLibs
      (libs.decode (utf8Bytes (.ofList (bareId id))) (some "utf-8")).toList
        (MAX_HEADER_BYTES * 4)))).toList := by
  intro hmem
  have hcut := hlibs.nfkc _ c hmem hc
  rw [String.toList_ofList] at hcut
  have hbare := hlibs.decode _ c (mem_truncateGraphemes hcut) hc
  rw [String.toList_ofList, bareId, List.mem_filter] at hbare
  rcases hc with rfl | rfl
  · exact absurd hbare.2 (by decide)
  · exact absurd hbare.2 (by decide)

theorem sanitizeMsgId_eq (id location : String) :
    sanitizeMsgId libs.toContentLibs id location =
      .ofList (shownForm libs.toUnicodeLibs id) := by
  have hnormal := normalizeLineEndings_eq (not_mem_normalForm hlibs id (.inl rfl))
  simp only [sanitizeMsgId, sanitizeHeader, sanitize, filterCodepoints_text]
  rw [← bareId, hnormal]
  rfl

theorem headerSafe_shownForm (id : String) :
    HeaderSafe (.ofList (shownForm libs.toUnicodeLibs id)) := by
  rw [HeaderSafe, String.toList_ofList, free_iff]
  intro c hc
  obtain ⟨hnormal, hkept⟩ := List.mem_filter.mp (mem_truncateGraphemes hc)
  have hcr : c ≠ '\r' := fun heq => not_mem_normalForm hlibs id (.inl heq) hnormal
  have hlf : c ≠ '\n' := fun heq => not_mem_normalForm hlibs id (.inr heq) hnormal
  have hnul : c.toNat ≠ 0 := by
    intro hzero
    have hc0 : c = Char.ofNat 0 := by rw [← hzero, Char.ofNat_toNat]
    rw [hc0] at hkept
    exact absurd hkept (by decide)
  simp only [breaksLine, beq_eq_false_iff_ne.mpr hcr, beq_eq_false_iff_ne.mpr hlf,
    beq_eq_false_iff_ne.mpr hnul, Bool.or_self]

theorem tokenSafe_shownForm_iff (id : String) :
    TokenSafe (.ofList (shownForm libs.toUnicodeLibs id)) ↔
      free isAngle (shownForm libs.toUnicodeLibs id) = true := by
  rw [TokenSafe, String.toList_ofList]
  exact and_iff_right (headerSafe_shownForm hlibs id)

end Ids

/-! ## The ids that are used -/

/-- The ids of a `References` header as they are parsed. -/
def rawReferences : HeaderValue → List String
  | .text t => [t]
  | .textList list => list
  | .address _ | .dateTime | .contentType | .received | .empty => []

/-- A message's own id and the ids that it refers to, as they are parsed. -/
def ownThread (libs : ContentLibs) (raw : Bytes) : Option (String × List String) :=
  match libs.safeParse raw with
  | .ok (some parsed) => parsed.messageId.map fun id => (id, rawReferences parsed.references)
  | .ok none | .error () => none

/-- The ids that an answer to the message repeats. -/
def repeatedIds (thread : Option (String × List String)) : List String :=
  thread.elim [] fun (id, refs) => capReferences (refs ++ [id])

/-- None of the ids shows an angle bracket once it is normalised. -/
def SafeIds (libs : UnicodeLibs) (ids : List String) : Prop :=
  ∀ id ∈ ids, free isAngle (shownForm libs id) = true

theorem capReferences_map (f : String → String) (refs : List String) :
    capReferences (refs.map f) = (capReferences refs).map f := by
  unfold capReferences
  rw [List.length_map]
  split
  · rfl
  · rcases refs with _ | ⟨root, rest⟩
    · rfl
    · simp only [List.map_cons, List.length_map, List.map_drop]

theorem mem_capReferences_last (refs : List String) (id : String) :
    id ∈ capReferences (refs ++ [id]) := by
  unfold capReferences
  split
  · exact List.mem_append_right refs (List.mem_singleton_self id)
  · rename_i hlong
    rcases refs with _ | ⟨root, rest⟩
    · exact absurd (show 1 ≤ 50 by decide) hlong
    · refine List.mem_cons_of_mem root ?_
      change id ∈ (rest ++ [id]).drop ((rest ++ [id]).length - (MAX_REFERENCES - 1))
      have hle : (rest ++ [id]).length - (MAX_REFERENCES - 1) ≤ rest.length := by
        rw [List.length_append, List.length_singleton]
        have hkeep : MAX_REFERENCES - 1 = 49 := rfl
        omega
      rw [List.drop_append_of_le_length hle]
      exact List.mem_append_right _ (List.mem_singleton_self id)

/-- The headers of a thread, from the ids as they are parsed. -/
theorem extractThreadingHeaders_eq {libs : ComposeLibs} (hlibs : AddsNoBreaks libs) (raw : Bytes) :
    let shown := fun id => String.ofList (shownForm libs.toUnicodeLibs id)
    (extractThreadingHeaders libs.toContentLibs raw).messageId =
        (ownThread libs.toContentLibs raw).map (fun thread => shown thread.1) ∧
      ∀ thread ∈ ownThread libs.toContentLibs raw,
        (extractThreadingHeaders libs.toContentLibs raw).references = thread.2.map shown := by
  intro shown
  rcases hparse : libs.safeParse raw with ⟨⟩ | (_ | parsed)
  · simp [ownThread, extractThreadingHeaders, hparse]
  · simp [ownThread, extractThreadingHeaders, hparse]
  · have hrefs : (extractThreadingHeaders libs.toContentLibs raw).references =
        (rawReferences parsed.references).map shown := by
      simp only [extractThreadingHeaders, hparse, sanitizeMsgId_eq hlibs]
      rcases parsed.references <;> rfl
    have hown : ownThread libs.toContentLibs raw =
        parsed.messageId.map fun id => (id, rawReferences parsed.references) := by
      simp only [ownThread, hparse]
    constructor
    · simp only [hown, Option.map_map, extractThreadingHeaders, hparse, sanitizeMsgId_eq hlibs]
      rfl
    · intro thread hthread
      rw [hown, Option.mem_def, Option.map_eq_some_iff] at hthread
      obtain ⟨id, -, rfl⟩ := hthread
      exact hrefs

/-- What a thread adds is safe exactly when the ids are. -/
theorem threadIds_safe_iff {libs : ComposeLibs} (hlibs : AddsNoBreaks libs) (id : String)
    (refs : List String) :
    let shown := fun id => String.ofList (shownForm libs.toUnicodeLibs id)
    (∀ token ∈ (some (shown id)).toList ++ capReferences (refs.map shown ++ [shown id]),
        TokenSafe token) ↔
      SafeIds libs.toUnicodeLibs (capReferences (refs ++ [id])) := by
  intro shown
  have hmap : capReferences (refs.map shown ++ [shown id]) =
      (capReferences (refs ++ [id])).map shown := by
    rw [← capReferences_map, List.map_append, List.map_singleton]
  rw [hmap]
  constructor
  · intro h used hused
    exact (tokenSafe_shownForm_iff hlibs used).mp
      (h (shown used) (List.mem_append_right _ (List.mem_map_of_mem hused)))
  · intro h token htoken
    rcases List.mem_append.mp htoken with htoken | htoken
    · obtain rfl := Option.mem_some.mp (Option.mem_toList.mp htoken)
      exact (tokenSafe_shownForm_iff hlibs id).mpr (h id (mem_capReferences_last refs id))
    · obtain ⟨used, hused, rfl⟩ := List.mem_map.mp htoken
      exact (tokenSafe_shownForm_iff hlibs used).mpr (h used hused)

/-! ## Names of attachments -/

/-- A base name has no characters of its own but those of its fallback. -/
theorem headerSafe_baseName {path : String} (h : HeaderSafe path) : HeaderSafe (baseName path) := by
  have hfallback : HeaderSafe "attachment" := by decide
  unfold baseName
  dsimp only
  split
  · rename_i last hlast
    split
    · exact hfallback
    · rw [HeaderSafe, String.toList_ofList]
      have hmem := (List.mem_filter.mp (List.mem_of_getLast? hlast)).1
      rw [List.splitOn_eq_splitOnP] at hmem
      exact free_of_subset h fun c hc => SeparatedItems.mem_of_mem_splitOnP hmem hc
  · exact hfallback

/-- A name that the caller does not give is the base name of the path, unchecked. -/
def SafeNames (attachments : List AttachmentInput) : Prop :=
  ∀ att ∈ attachments, att.filename = none → HeaderSafe (baseName att.path)

/-- Each attachment that is read becomes one part. -/
theorem readEach_ok {libs : ComposeLibs} {total : Nat} {inputs : List AttachmentInput}
    {reads : List MimePart} (h : readEach libs total inputs = .ok reads) :
    List.Forall₂ (fun att part => ∃ bytes,
      part = ⟨attachmentContentType libs att bytes, attachmentFilename att, bytes⟩)
      inputs reads := by
  induction inputs generalizing total reads with
  | nil =>
      obtain rfl := Except.ok.inj h
      exact .nil
  | cons att rest ih =>
      obtain ⟨bytes, -, h⟩ := bind_eq_ok h
      obtain ⟨tail, htail, h⟩ := bind_eq_ok h
      obtain rfl := Except.ok.inj h
      exact .cons ⟨bytes, rfl⟩ (ih htail)

/-- Parts are safe exactly when the names that come from paths are. -/
theorem parts_safe_iff {libs : ComposeLibs} (hlibs : AddsNoBreaks libs)
    {inputs : List AttachmentInput} {reads : List MimePart}
    (hchecked : ∀ att ∈ inputs,
      (∀ name ∈ att.filename, HeaderSafe name) ∧ ∀ ct ∈ att.contentType, HeaderSafe ct)
    (hreads : List.Forall₂ (fun att part => ∃ bytes,
      part = ⟨attachmentContentType libs att bytes, attachmentFilename att, bytes⟩) inputs reads) :
    (∀ part ∈ reads, HeaderSafe part.name ∧ HeaderSafe part.contentType) ↔ SafeNames inputs := by
  induction hreads with
  | nil => exact ⟨fun _ _ hmem => (by cases hmem), fun _ _ hmem => (by cases hmem)⟩
  | @cons att part rest parts hpart _ ih =>
      obtain ⟨bytes, rfl⟩ := hpart
      have ih := ih fun other hmem => hchecked other (List.mem_cons_of_mem att hmem)
      obtain ⟨hname, htype⟩ := hchecked att List.mem_cons_self
      have hsafeType : HeaderSafe (attachmentContentType libs att bytes) := by
        unfold attachmentContentType
        rcases hct : att.contentType with _ | ct
        · rcases hsniff : libs.sniffMime bytes with _ | ty
          · rw [Option.getD_none, Option.getD_none]
            decide
          · exact hlibs.sniffMime bytes ty hsniff
        · exact htype ct hct
      have hsafeName : HeaderSafe (attachmentFilename att) ↔
          (att.filename = none → HeaderSafe (baseName att.path)) := by
        unfold attachmentFilename
        rcases hfile : att.filename with _ | name
        · exact ⟨fun h _ => h, fun h => h rfl⟩
        · have hbase := headerSafe_baseName (hname name hfile)
          exact ⟨fun _ hnone => absurd hnone (Option.some_ne_none name), fun _ => hbase⟩
      unfold SafeNames
      rw [List.forall_mem_cons, List.forall_mem_cons, ih, hsafeName]
      exact and_congr_left fun _ => and_iff_left hsafeType

/-! ## The builder of a composed message -/

/-- The ids that the reply headers of an input repeat. -/
def replyIds (libs : ComposeLibs) (input : ComposeInput) : List String :=
  input.inReplyToUid.elim [] fun uid =>
    match libs.fetchBody (input.inReplyToFolder.getD "INBOX") uid with
    | .ok raw => repeatedIds (ownThread libs.toContentLibs raw)
    | .error _ => []

theorem getD_nonempty {α : Type} (l : Option (List α)) : (nonempty l).getD [] = l.getD [] := by
  rcases l with _ | (_ | ⟨a, rest⟩) <;> rfl

/-- Threading sets the ids and nothing else. -/
theorem threaded_ok {libs : ComposeLibs} (hlibs : AddsNoBreaks libs) {fromAddr : String}
    {input : ComposeInput} {includeBcc : Bool} {builder : MessageBuilder}
    (h : threaded libs fromAddr input includeBcc = .ok builder) :
    (∃ inReplyTo references, builder =
      { buildMessageHeaders libs fromAddr input includeBcc with inReplyTo, references }) ∧
    ((∀ id ∈ builder.inReplyTo.toList ++ builder.references, TokenSafe id) ↔
      SafeIds libs.toUnicodeLibs (replyIds libs input)) := by
  unfold threaded at h
  unfold replyIds
  rcases huid : input.inReplyToUid with _ | uid
  · rw [huid] at h
    obtain rfl := Except.ok.inj h
    refine ⟨⟨none, [], rfl⟩, fun _ _ hmem => ?_, fun _ _ hmem => ?_⟩
    · cases hmem
    · cases hmem
  · rw [huid] at h
    obtain ⟨raw, hraw, h⟩ := bind_eq_ok h
    obtain ⟨hid, hrefs⟩ := extractThreadingHeaders_eq hlibs raw
    simp only [Option.elim_some, hraw]
    rcases hthread : ownThread libs.toContentLibs raw with _ | ⟨id, refs⟩
    · rw [hthread, Option.map_none] at hid
      simp only [hid] at h
      obtain rfl := Except.ok.inj h
      refine ⟨⟨none, [], rfl⟩, fun _ _ hmem => ?_, fun _ _ hmem => ?_⟩
      · cases hmem
      · cases hmem
    · rw [hthread, Option.map_some] at hid
      simp only [hid, hrefs _ hthread] at h
      obtain rfl := Except.ok.inj h
      exact ⟨⟨_, _, rfl⟩, threadIds_safe_iff hlibs id refs⟩

theorem assembled_ok {libs : ComposeLibs} {builder built : MessageBuilder} {input : ComposeInput}
    {reads : List MimePart} {warnings : List SecurityWarning}
    (h : assembled libs builder input reads = .ok (built, warnings)) :
    ∃ htmlBody, built = addAttachments { builder with htmlBody } reads := by
  obtain ⟨⟨withHtml, _⟩, hhtml, h⟩ := bind_eq_ok h
  have hbuilt : addAttachments withHtml reads = built := congrArg Prod.fst (Except.ok.inj h)
  unfold addHtml at hhtml
  split at hhtml
  · have hsame : builder = withHtml := congrArg Prod.fst (Except.ok.inj hhtml)
    exact ⟨builder.htmlBody, by rw [← hbuilt, ← hsame]⟩
  · split at hhtml
    · cases hhtml
    · rename_i sanitized _
      have hset : { builder with htmlBody := some sanitized.bodyHtml } = withHtml :=
        congrArg Prod.fst (Except.ok.inj hhtml)
      exact ⟨some sanitized.bodyHtml, by rw [← hbuilt, ← hset]⟩

theorem readAttachments_ok {libs : ComposeLibs} {input : ComposeInput} {reads : List MimePart}
    (h : readAttachments libs input = .ok reads) :
    List.Forall₂ (fun att part => ∃ bytes,
      part = ⟨attachmentContentType libs att bytes, attachmentFilename att, bytes⟩)
        (input.attachments.getD []) reads := by
  unfold readAttachments at h
  split at h
  · rename_i hnone
    obtain rfl := Except.ok.inj h
    rw [hnone]
    exact .nil
  · rename_i inputs hsome
    rw [hsome]
    exact readEach_ok h

theorem addAttachments_getD {builder : MessageBuilder} (reads : List MimePart)
    (h : builder.attachments = none) :
    (addAttachments builder reads).attachments.getD [] = reads := by
  unfold addAttachments
  rcases reads with _ | ⟨part, rest⟩
  · simp [h]
  · simp [h]

theorem composed_safe_iff {libs : ComposeLibs} (hlibs : AddsNoBreaks libs) {fromAddr : String}
    {input : ComposeInput} {includeBcc : Bool} {builder : MessageBuilder}
    (hvalid : validateComposeInput input = .ok ())
    (h : outgoing libs fromAddr input includeBcc = .ok builder) :
    HeadersSafe builder ↔ SafeNames (input.attachments.getD []) ∧
      SafeIds libs.toUnicodeLibs (replyIds libs input) := by
  have hchecked := validateComposeInput_ok hvalid
  obtain ⟨headers, hheaders, h⟩ := bind_eq_ok h
  obtain ⟨reads, hreads, h⟩ := bind_eq_ok h
  obtain ⟨⟨built, warnings⟩, hbuilt, h⟩ := bind_eq_ok h
  obtain rfl : built = builder := Except.ok.inj h
  obtain ⟨⟨inReplyTo, references, hsame⟩, hids⟩ := threaded_ok hlibs hheaders
  obtain ⟨htmlBody, rfl⟩ := assembled_ok hbuilt
  have hparts := parts_safe_iff hlibs hchecked.attachments (readAttachments_ok hreads)
  have hattached : (addAttachments { headers with htmlBody } reads).attachments.getD [] = reads :=
    addAttachments_getD reads (by rw [hsame]; rfl)
  have hbcc : ∀ addr ∈ (if includeBcc then nonempty input.bcc else none).getD [],
      addr ∈ input.bcc.getD [] := by
    intro addr hmem
    split at hmem
    · rwa [getD_nonempty] at hmem
    · cases hmem
  have haddresses : ∀ addr ∈ headers.recipients ++ headers.cc.getD [] ++ headers.bcc.getD [],
      AddressSafe addr := by
    rw [hsame]
    intro addr hmem
    simp only [buildMessageHeaders, getD_nonempty, List.mem_append] at hmem
    apply hchecked.addresses
    simp only [List.mem_append]
    exact hmem.imp_right (hbcc addr)
  have hsubject : HeaderSafe headers.subject := by
    rw [hsame]
    exact hchecked.subject
  constructor
  · intro hsafe
    refine ⟨hparts.mp ?_, hids.mp hsafe.ids⟩
    rw [← hattached]
    exact hsafe.attachments
  · rintro ⟨hnames, hthread⟩
    refine ⟨haddresses, hsubject, ?_, hids.mpr hthread⟩
    rw [hattached]
    exact hparts.mpr hnames

/-! ## The builder of a forward -/

theorem mem_trim {text : List Char} {c : Char} (h : c ∈ trim text) : c ∈ text := by
  unfold trim at h
  have hinner := (List.dropWhile_sublist _).subset (List.mem_reverse.mp h)
  exact (List.dropWhile_sublist _).subset (List.mem_reverse.mp hinner)

theorem mem_fittingChars {room : Nat} {text : List Char} {c : Char}
    (h : c ∈ fittingChars room text) : c ∈ text := by
  induction text generalizing room with
  | nil => exact h
  | cons d rest ih =>
      unfold fittingChars at h
      split at h
      · rcases List.mem_cons.mp h with rfl | h
        · exact List.mem_cons_self
        · exact List.mem_cons_of_mem d (ih h)
      · cases h

theorem breaksLine_of_isControlChar {c : Char} (h : isControlChar c = false) :
    breaksLine c = false := by
  have hlarge : ¬ c.toNat ≤ 0x1F := by
    simp only [isControlChar, Bool.or_eq_false_iff, decide_eq_false_iff_not] at h
    exact h.1
  have hne : ∀ d : Char, d.toNat ≤ 0x1F → c ≠ d := by
    rintro d hd rfl
    exact hlarge hd
  have hnul : (c.toNat == 0) = false := beq_eq_false_iff_ne.mpr (by omega)
  simp only [breaksLine, beq_eq_false_iff_ne.mpr (hne '\r' (by decide)),
    beq_eq_false_iff_ne.mpr (hne '\n' (by decide)), hnul, Bool.or_self]

theorem free_fwd {cleaned : List Char} (h : ∀ c ∈ cleaned, breaksLine c = false) :
    free breaksLine
      (if cleaned.isEmpty then "Fwd:" else "Fwd: " ++ String.ofList cleaned).toList = true := by
  split
  · decide
  · rw [String.toList_append, String.toList_ofList (l := cleaned), free_iff]
    intro c hc
    rcases List.mem_append.mp hc with hc | hc
    · have hfwd : free breaksLine "Fwd: ".toList = true := by decide
      exact free_iff.mp hfwd c hc
    · exact h c hc

/-- A subject that is taken over has no control character left. -/
theorem headerSafe_forwardedSubject (original : Option String) :
    HeaderSafe (forwardedSubject original) := by
  have hcleaned : ∀ c ∈ trim ((original.getD "").toList.filter fun c => !isControlChar c),
      breaksLine c = false := by
    intro c hc
    have hmem := mem_trim hc
    rw [List.mem_filter, Bool.not_eq_true'] at hmem
    exact breaksLine_of_isControlChar hmem.2
  unfold HeaderSafe forwardedSubject
  generalize trim ((original.getD "").toList.filter fun c => !isControlChar c) = cleaned
    at hcleaned ⊢
  have hwhole := free_fwd hcleaned
  dsimp only
  generalize (if cleaned.isEmpty then "Fwd:" else "Fwd: " ++ String.ofList cleaned) = subject
    at hwhole ⊢
  split
  · exact hwhole
  · rw [String.toList_ofList]
    exact free_of_subset hwhole fun c hc => mem_fittingChars hc

/-- The ids that a forward repeats; an id of which nothing shows is left out. -/
def forwardIds (libs : ContentLibs) (original : Bytes) : List String :=
  repeatedIds ((ownThread libs original).filter fun thread =>
    !(shownForm libs.toUnicodeLibs thread.1).isEmpty)

section Forward

variable (libs : ComposeLibs) (fromAddr : String) (recipients : List AddressInput)
  (cc : Option (List AddressInput)) (subject commentBody : String) (originalRaw : Bytes)
  (threading : ThreadingHeaders)

/-- Of the source message, a forward builder takes the ids into its headers. -/
theorem forwardBuilder_safe_iff
    (haddresses : ∀ addr ∈ recipients ++ cc.getD [], AddressSafe addr)
    (hsubject : HeaderSafe subject) :
    HeadersSafe (forwardBuilder libs fromAddr recipients cc subject commentBody originalRaw
        threading) ↔
      ∀ own ∈ threading.messageId.filter fun id => !id.isEmpty,
        ∀ id ∈ (some own).toList ++ capReferences (threading.references ++ [own]),
          TokenSafe id := by
  have hname : HeaderSafe "forwarded.eml" := by decide
  have htype : HeaderSafe "message/rfc822" := by decide
  have hall : ∀ addr ∈ recipients ++ (nonempty cc).getD [] ++ [], AddressSafe addr := by
    rw [getD_nonempty, List.append_nil]
    exact haddresses
  have hparts : ∀ part ∈ [(⟨"message/rfc822", "forwarded.eml", originalRaw⟩ : MimePart)],
      HeaderSafe part.name ∧ HeaderSafe part.contentType := by
    intro part hmem
    rw [List.mem_singleton.mp hmem]
    exact ⟨hname, htype⟩
  unfold forwardBuilder
  dsimp only
  generalize threading.messageId.filter (fun id => !id.isEmpty) = kept
  rcases kept with _ | own
  · constructor
    · intro _ own hmem
      cases hmem
    · intro _
      refine ⟨hall, hsubject, hparts, ?_⟩
      intro id hmem
      cases hmem
  · constructor
    · intro hsafe other hmem
      rw [← Option.mem_some.mp hmem]
      exact hsafe.ids
    · intro hids
      exact ⟨hall, hsubject, hparts, hids own rfl⟩

end Forward

theorem forwarded_safe_iff {libs : ComposeLibs} (hlibs : AddsNoBreaks libs) (fromAddr : String)
    {input : ForwardInput} {body : String} (original : Bytes)
    (hvalid : validateForwardInput input = .ok body) :
    HeadersSafe (forwardOf libs fromAddr input body original) ↔
      SafeIds libs.toUnicodeLibs (forwardIds libs.toContentLibs original) := by
  have haddresses : ∀ addr ∈ input.recipients ++ input.cc.getD [], AddressSafe addr := by
    intro addr hmem
    exact validateForwardInput_ok hvalid addr (List.mem_append_left _ hmem)
  unfold forwardOf forwardIds
  rw [forwardBuilder_safe_iff _ _ _ _ _ _ _ _ haddresses (headerSafe_forwardedSubject _)]
  obtain ⟨hid, hrefs⟩ := extractThreadingHeaders_eq hlibs original
  rcases hthread : ownThread libs.toContentLibs original with _ | ⟨id, refs⟩
  · rw [hid, hthread]
    constructor
    · intro _ id hmem
      cases hmem
    · intro _ own hmem
      cases hmem
  · rw [hid, hthread, Option.map_some, hrefs _ hthread]
    have hempty : (String.ofList (shownForm libs.toUnicodeLibs id)).isEmpty =
        (shownForm libs.toUnicodeLibs id).isEmpty := by
      rcases shownForm libs.toUnicodeLibs id with _ | ⟨c, rest⟩
      · rfl
      · simp
    rcases hshown : (shownForm libs.toUnicodeLibs id).isEmpty with _ | _
    · simp only [Option.filter_some, hempty, hshown]
      have hsafe := threadIds_safe_iff hlibs id refs
      constructor
      · intro h
        exact hsafe.mp (h _ rfl)
      · intro h own hmem
        rw [← Option.mem_some.mp hmem]
        exact hsafe.mpr h
    · simp only [Option.filter_some, hempty, hshown]
      constructor
      · intro _ id hmem
        cases hmem
      · intro _ own hmem
        cases hmem

/-! ## No header can be injected, but for two gaps -/

/-- **What reaches the headers.**  A composed message whose input was accepted is safe
    exactly when no attachment takes an unsafe name from its path and no id that is
    repeated shows an angle bracket after normalisation; a forward exactly when the
    latter holds. -/
theorem headers_safe_iff (libs : ComposeLibs) (hlibs : AddsNoBreaks libs) (fromAddr : String) :
    (∀ input includeBcc builder, validateComposeInput input = .ok () →
      outgoing libs fromAddr input includeBcc = .ok builder →
      (HeadersSafe builder ↔ SafeNames (input.attachments.getD []) ∧
        SafeIds libs.toUnicodeLibs (replyIds libs input))) ∧
    (∀ input body original, validateForwardInput input = .ok body →
      (HeadersSafe (forwardOf libs fromAddr input body original) ↔
        SafeIds libs.toUnicodeLibs (forwardIds libs.toContentLibs original))) := by
  constructor
  · intro input includeBcc builder hvalid hbuilt
    exact composed_safe_iff hlibs hvalid hbuilt
  · intro input body original hvalid
    exact forwarded_safe_iff hlibs fromAddr original hvalid

/-! ## Two messages -/

/-- NFKC on the angle brackets of the fullwidth and small forms. -/
def foldBracket (c : Char) : Char :=
  if c = '\uFF1C' ∨ c = '\uFE64' then '<' else if c = '\uFF1E' ∨ c = '\uFE65' then '>' else c

/-- A mailbox with one message, and a sandbox that has every file. -/
def replyLibs (message : Message) : ComposeLibs :=
  { htmlOnlyLibs message [] "" with
    decode := fun bytes _ => (String.fromUTF8? ⟨bytes.toArray⟩).getD ""
    nfkc := fun s => .ofList (s.toList.map foldBracket)
    generateMessageId := fun fromAddr => "1." ++ fromAddr
    fetchBody := fun _ _ => .ok []
    readSandboxedFile := fun _ _ => .ok []
    sniffMime := fun _ => none
    writeToVec := fun builder => .ok (utf8Bytes builder.textBody) }

theorem addsNoBreaks_replyLibs (message : Message) : AddsNoBreaks (replyLibs message) := by
  constructor
  · intro s c hc _
    have hdecode : (replyLibs message).decode (utf8Bytes s) (some "utf-8") = s := by
      change (String.fromUTF8? ⟨s.toUTF8.data.toList.toArray⟩).getD "" = s
      rw [Array.toArray_toList, String.fromUTF8?]
      split
      · rfl
      · rename_i hinvalid
        exact absurd s.isValidUTF8 hinvalid
    rwa [hdecode] at hc
  · intro s c hc hbreak
    change c ∈ (String.ofList (s.toList.map foldBracket)).toList at hc
    rw [String.toList_ofList, List.mem_map] at hc
    obtain ⟨d, hd, rfl⟩ := hc
    unfold foldBracket at hbreak ⊢
    split at hbreak
    · exact absurd hbreak (by decide)
    · split at hbreak
      · exact absurd hbreak (by decide)
      · rwa [if_neg (by assumption), if_neg (by assumption)]
  · intro bytes ty hty
    cases hty

def plainCompose : ComposeInput where
  recipients := [⟨some "You", "you@example.com"⟩]
  cc := none
  bcc := none
  subject := "hello"
  bodyText := "hello"
  bodyHtml := none
  attachments := none
  inReplyToUid := none
  inReplyToFolder := none

def replyCompose : ComposeInput := { plainCompose with inReplyToUid := some .one }

def fileCompose (name : String) : ComposeInput :=
  { plainCompose with attachments := some [⟨"in/" ++ name, none, none⟩] }

/-- An id with a fullwidth bracket comes out with a plain one, and a file name with a
    line break goes in as it is. -/
theorem headers_unsafe_at_gaps :
    (∃ builder, validateComposeInput replyCompose = .ok () ∧
      outgoing (replyLibs { messageId := some "a\uFF1Eb@example.com" }) "me@example.com"
        replyCompose false = .ok builder ∧
      builder.inReplyTo = some "a>b@example.com" ∧ ¬ HeadersSafe builder) ∧
    (∃ builder, validateComposeInput (fileCompose "a\nb.txt") = .ok () ∧
      outgoing (replyLibs {}) "me@example.com" (fileCompose "a\nb.txt") false = .ok builder ∧
      builder.attachments = some [⟨"application/octet-stream", "a\nb.txt", []⟩] ∧
      ¬ HeadersSafe builder) := by
  constructor
  · refine ⟨_, by decide +kernel, rfl, by decide +kernel, ?_⟩
    intro hsafe
    have hid := hsafe.ids "a>b@example.com" (by decide +kernel)
    exact absurd hid (by decide)
  · refine ⟨_, by decide +kernel, rfl, by decide +kernel, ?_⟩
    intro hsafe
    have hname := (hsafe.attachments ⟨"application/octet-stream", "a\nb.txt", []⟩
      (by decide +kernel)).1
    exact absurd hname (by decide)

/-- A reply to a message with plain ids is safe. -/
theorem headers_safe_plainReply :
    AddsNoBreaks (replyLibs { messageId := some "a@example.com", references := .text "<b@c>" }) ∧
      ∃ builder, validateComposeInput replyCompose = .ok () ∧
        outgoing (replyLibs { messageId := some "a@example.com", references := .text "<b@c>" })
          "me@example.com" replyCompose false = .ok builder ∧
        builder.references = ["b@c", "a@example.com"] ∧ HeadersSafe builder := by
  have hlibs := addsNoBreaks_replyLibs
    { messageId := some "a@example.com", references := .text "<b@c>" }
  have hvalid : validateComposeInput replyCompose = .ok () := by decide +kernel
  refine ⟨hlibs, _, hvalid, rfl, by decide +kernel, ?_⟩
  apply ((headers_safe_iff _ hlibs "me@example.com").1 replyCompose false _ hvalid rfl).mpr
  constructor
  · intro att hmem
    cases hmem
  · unfold SafeIds
    decide +kernel

end RustyImap.Compose

import Mathlib.Data.List.Basic
import RustyImap.ReadLists

/-!
# Parameters of MIME headers

A reader for a block of headers as RFC 822 and RFC 2045 describe it: folded lines
are unfolded, a field is a name, a value and parameters, a parameter is an attribute
and a token or a quoted string.  Beside it the texts that a writer may put there, and
the round trip: what is written is read.

Bytes above 127 are allowed in quoted strings.
-/

namespace RustyImap.MimeParams

abbrev Bytes := List UInt8

/-! ## Tokens and quoted strings -/

/-- `()<>@,;:\"/[]?=` -/
def TSPECIALS : Bytes := [40, 41, 60, 62, 64, 44, 59, 58, 92, 34, 47, 91, 93, 63, 61]

/-- Any printable ASCII character but the space and `tspecials`. -/
def isToken (b : UInt8) : Bool := 32 < b && b < 127 && !TSPECIALS.contains b

def isLwsp (b : UInt8) : Bool := b == 32 || b == 9

/-- A token is not empty. -/
def isTokenText (text : Bytes) : Bool := !text.isEmpty && text.all isToken

/-- A byte in a quoted string. -/
def escaped (b : UInt8) : Bytes := if b = 34 || b = 92 then [92, b] else [b]

def quote (value : Bytes) : Bytes := 34 :: value.flatMap escaped ++ [34]

/-- A parameter to be written. -/
structure Param where
  key : Bytes
  value : Bytes
  asToken : Bool

def Param.pair (p : Param) : Bytes × Bytes := (p.key, p.value)

def Param.text (p : Param) : Bytes :=
  p.key ++ 61 :: if p.asToken then p.value else quote p.value

/-- It can be written: no line of it breaks, and a token is one. -/
structure Param.Writable (p : Param) : Prop where
  key : isTokenText p.key = true
  value : 13 ∉ p.value ∧ 10 ∉ p.value
  token : p.asToken = true → isTokenText p.value = true

structure Field where
  name : Bytes
  value : Bytes
  params : List Param

/-- The name and the value of a field are plain. -/
structure Field.Writable (f : Field) : Prop where
  name : isTokenText f.name = true
  value : f.value.all (fun b => b != 13 && b != 10 && b != 59 && !isLwsp b) = true
  params : ∀ p ∈ f.params, p.Writable

/-! ## Reading -/

/-- Where in a list of parameters the reader is. -/
inductive Place where
  | between
  | attribute (key : Bytes)
  | value (key : Bytes)
  | token (key value : Bytes)
  | quoted (key value : Bytes)
  | escape (key value : Bytes)

def readParams : Place → Bytes → Option (List (Bytes × Bytes))
  | .between, [] => some []
  | .between, b :: rest =>
      if b = 59 then readParams (.attribute []) rest
      else if isLwsp b then readParams .between rest
      else none
  | .attribute key, b :: rest =>
      if b = 61 && !key.isEmpty then readParams (.value key) rest
      else if isToken b then readParams (.attribute (key ++ [b])) rest
      else if isLwsp b && key.isEmpty then readParams (.attribute []) rest
      else none
  | .value key, b :: rest =>
      if b = 34 then readParams (.quoted key []) rest
      else if isToken b then readParams (.token key [b]) rest
      else none
  | .token key value, [] => some [(key, value)]
  | .token key value, b :: rest =>
      if isToken b then readParams (.token key (value ++ [b])) rest
      else if b = 59 then (readParams (.attribute []) rest).map ((key, value) :: ·)
      else if isLwsp b then (readParams .between rest).map ((key, value) :: ·)
      else none
  | .quoted key value, b :: rest =>
      if b = 34 then (readParams .between rest).map ((key, value) :: ·)
      else if b = 92 then readParams (.escape key value) rest
      else if b = 13 then none
      else readParams (.quoted key (value ++ [b])) rest
  | .escape key value, b :: rest => readParams (.quoted key (value ++ [b])) rest
  | .attribute _, [] | .value _, [] | .quoted _ _, [] | .escape _ _, [] => none

/-- A line break before white space is taken out. -/
def unfoldLines : Bytes → Bytes
  | 13 :: 10 :: b :: rest =>
      if isLwsp b then b :: unfoldLines rest else 13 :: 10 :: unfoldLines (b :: rest)
  | b :: rest => b :: unfoldLines rest
  | [] => []

/-- The lines up to the empty one; `line` is the line so far. -/
def readLines (line : Bytes) : Bytes → Option (List Bytes)
  | 13 :: 10 :: rest => if line.isEmpty then some [] else (readLines [] rest).map (line :: ·)
  | b :: rest => readLines (line ++ [b]) rest
  | [] => none

/-- The name, the value and the parameters of a field. -/
def readField (line : Bytes) : Option (Bytes × Bytes × List (Bytes × Bytes)) :=
  match line.dropWhile (· != 58) with
  | [] => none
  | _ :: body =>
      let body := body.dropWhile isLwsp
      let value := body.takeWhile fun b => b != 59 && !isLwsp b
      (readParams .between (body.drop value.length)).map fun params =>
        (line.takeWhile (· != 58), value, params)

def readBlock (block : Bytes) : Option (List (Bytes × Bytes × List (Bytes × Bytes))) :=
  (readLines [] (unfoldLines block)).bind fun lines => lines.mapM readField

/-! ## Writing -/

/-- Every parameter stands on a line of its own. -/
def folded (params : List Param) : Bytes := params.flatMap fun p => [59, 13, 10, 32] ++ p.text

def Field.text (f : Field) : Bytes := f.name ++ [58, 32] ++ f.value ++ folded f.params

def block (fields : List Field) : Bytes :=
  (fields.flatMap fun f => f.text ++ [13, 10]) ++ [13, 10]

/-! ## One parameter -/

theorem isToken_ne {b c : UInt8} (hb : isToken b = true) (hc : isToken c = false) : b ≠ c := by
  rintro rfl
  rw [hb] at hc
  cases hc

theorem readParams_token (key : Bytes) {text : Bytes} (htext : text.all isToken = true)
    (value rest : Bytes) :
    readParams (.token key value) (text ++ rest) =
      readParams (.token key (value ++ text)) rest := by
  induction text generalizing value with
  | nil => rw [List.append_nil]; rfl
  | cons b text ih =>
      rw [List.all_cons, Bool.and_eq_true] at htext
      rw [List.cons_append, readParams, if_pos htext.1, ih htext.2, List.append_assoc]
      rfl

theorem readParams_attribute {text : Bytes} (htext : text.all isToken = true) (key rest : Bytes) :
    readParams (.attribute key) (text ++ rest) = readParams (.attribute (key ++ text)) rest := by
  induction text generalizing key with
  | nil => rw [List.append_nil]; rfl
  | cons b text ih =>
      rw [List.all_cons, Bool.and_eq_true] at htext
      have hequals : b ≠ 61 := isToken_ne htext.1 (by decide)
      rw [List.cons_append, readParams, if_neg (by simp [hequals]), if_pos htext.1, ih htext.2,
        List.append_assoc]
      rfl

/-- What stands between the quotes is read back, byte by byte. -/
theorem readParams_quoted (key : Bytes) {text : Bytes} (htext : 13 ∉ text) (value rest : Bytes) :
    readParams (.quoted key value) (text.flatMap escaped ++ rest) =
      readParams (.quoted key (value ++ text)) rest := by
  induction text generalizing value with
  | nil => rw [List.append_nil]; rfl
  | cons b text ih =>
      rw [List.mem_cons, not_or] at htext
      have hvalue : value ++ b :: text = value ++ [b] ++ text := by simp
      rw [List.flatMap_cons, List.append_assoc, hvalue, ← ih htext.2]
      by_cases hb : b = 34 ∨ b = 92
      · have hescaped : escaped b = [92, b] := if_pos (by simpa using hb)
        rw [hescaped]
        rfl
      · have hescaped : escaped b = [b] := if_neg (by simpa using hb)
        rw [not_or] at hb
        rw [hescaped, List.cons_append, readParams, if_neg hb.1, if_neg hb.2,
          if_neg (Ne.symm htext.1)]
        rfl

/-- What may follow a parameter. -/
def Ends (rest : Bytes) : Prop := rest = [] ∨ ∃ more, rest = 59 :: more

/-- A value that is written is read, and the rest after it. -/
theorem readParams_value {p : Param} (hp : p.Writable) {rest : Bytes} (hrest : Ends rest) :
    readParams (.value p.key) ((if p.asToken then p.value else quote p.value) ++ rest) =
      (readParams .between rest).map (p.pair :: ·) := by
  split
  · rename_i htoken
    have hvalue := hp.token htoken
    rw [isTokenText, Bool.and_eq_true] at hvalue
    rcases hfirst : p.value with _ | ⟨b, text⟩
    · simp [hfirst] at hvalue
    · rw [hfirst, List.all_cons, Bool.and_eq_true] at hvalue
      have hquote : b ≠ 34 := isToken_ne hvalue.2.1 (by decide)
      rw [List.cons_append, readParams, if_neg hquote, if_pos hvalue.2.1,
        readParams_token _ hvalue.2.2]
      rcases hrest with rfl | ⟨more, rfl⟩
      · rw [Param.pair, hfirst]
        rfl
      · rw [Param.pair, hfirst]
        rfl
  · have hopen : readParams (.value p.key) (quote p.value ++ rest) =
        readParams (.quoted p.key []) (p.value.flatMap escaped ++ 34 :: rest) := by
      rw [quote, List.append_assoc]
      rfl
    rw [hopen, readParams_quoted _ hp.value.1]
    rfl

/-- A parameter that is written is read, and the rest after it. -/
theorem readParams_text {p : Param} (hp : p.Writable) {rest : Bytes} (hrest : Ends rest) :
    readParams .between (59 :: 32 :: (p.text ++ rest)) =
      (readParams .between rest).map (p.pair :: ·) := by
  have hkey := hp.key
  rw [isTokenText, Bool.and_eq_true, Bool.not_eq_true'] at hkey
  have hspace : readParams .between (59 :: 32 :: (p.text ++ rest)) =
      readParams (.attribute []) (p.text ++ rest) := rfl
  have hequals (text : Bytes) :
      readParams (.attribute p.key) (61 :: text) = readParams (.value p.key) text :=
    if_pos (by simp [hkey.1])
  rw [hspace, Param.text, List.append_assoc, readParams_attribute hkey.2, List.nil_append,
    List.cons_append, hequals, readParams_value hp hrest]

/-! ## A list of parameters -/

/-- The parameters when the lines are unfolded. -/
def spaced (params : List Param) : Bytes := params.flatMap fun p => [59, 32] ++ p.text

theorem ends_spaced (params : List Param) : Ends (spaced params) := by
  rcases params with _ | ⟨p, rest⟩
  · exact .inl rfl
  · exact .inr ⟨_, rfl⟩

theorem readParams_spaced {params : List Param} (hparams : ∀ p ∈ params, p.Writable) :
    readParams .between (spaced params) = some (params.map Param.pair) := by
  induction params with
  | nil => rfl
  | cons p rest ih =>
      obtain ⟨hp, hrest⟩ := List.forall_mem_cons.mp hparams
      have htext := readParams_text hp (ends_spaced rest)
      rw [ih hrest] at htext
      exact htext

/-! ## Lines -/

theorem not_mem_escaped {b c : UInt8} (hb : c ≠ b) (hc : c ≠ 92) : c ∉ escaped b := by
  unfold escaped
  split
  · simp [hb, hc]
  · simp [hb]

/-- A writable parameter has no line break. -/
theorem not_mem_text {p : Param} (hp : p.Writable) {c : UInt8} (hc : c = 13 ∨ c = 10) :
    c ∉ p.text := by
  have hplain : isToken c = false ∧ c ≠ 61 ∧ c ≠ 34 ∧ c ≠ 92 := by
    rcases hc with rfl | rfl <;> decide
  have hvalue : c ∉ p.value := by
    rcases hc with rfl | rfl
    · exact hp.value.1
    · exact hp.value.2
  have hkey := hp.key
  rw [isTokenText, Bool.and_eq_true, List.all_eq_true] at hkey
  intro hmem
  rcases List.mem_append.mp hmem with hmem | hmem
  · exact isToken_ne (hkey.2 c hmem) hplain.1 rfl
  · rcases List.mem_cons.mp hmem with hmem | hmem
    · exact hplain.2.1 hmem
    · split at hmem
      · exact hvalue hmem
      · rw [quote, List.mem_append, List.mem_cons, List.mem_singleton] at hmem
        rcases hmem with (hmem | hmem) | hmem
        · exact hplain.2.2.1 hmem
        · obtain ⟨b, hb, hmem⟩ := List.mem_flatMap.mp hmem
          refine not_mem_escaped ?_ hplain.2.2.2 hmem
          rintro rfl
          exact hvalue hb
        · exact hplain.2.2.1 hmem

theorem unfoldLines_cons {b : UInt8} (hb : b ≠ 13) (rest : Bytes) :
    unfoldLines (b :: rest) = b :: unfoldLines rest := by
  conv_lhs => unfold unfoldLines
  split
  · rename_i heq
    exact absurd (List.cons.inj heq).1 hb
  · rename_i heq
    obtain ⟨rfl, rfl⟩ := List.cons.inj heq
    rfl
  · rename_i heq
    cases heq

theorem unfoldLines_append {text : Bytes} (htext : 13 ∉ text) (rest : Bytes) :
    unfoldLines (text ++ rest) = text ++ unfoldLines rest := by
  induction text with
  | nil => rfl
  | cons b text ih =>
      rw [List.mem_cons, not_or] at htext
      rw [List.cons_append, List.cons_append, unfoldLines_cons (Ne.symm htext.1), ih htext.2]

/-- The folds of a list of parameters are taken out. -/
theorem unfoldLines_folded {params : List Param} (hparams : ∀ p ∈ params, p.Writable)
    (rest : Bytes) : unfoldLines (folded params ++ rest) = spaced params ++ unfoldLines rest := by
  induction params with
  | nil => rfl
  | cons p others ih =>
      obtain ⟨hp, hothers⟩ := List.forall_mem_cons.mp hparams
      have hfold : folded (p :: others) ++ rest =
          59 :: 13 :: 10 :: 32 :: (p.text ++ (folded others ++ rest)) := by
        simp [folded, List.flatMap_cons]
      have hspaced : spaced (p :: others) ++ unfoldLines rest =
          59 :: 32 :: (p.text ++ (spaced others ++ unfoldLines rest)) := by
        simp [spaced, List.flatMap_cons]
      have hunfold : unfoldLines (59 :: 13 :: 10 :: 32 :: (p.text ++ (folded others ++ rest))) =
          59 :: 32 :: unfoldLines (p.text ++ (folded others ++ rest)) := rfl
      rw [hfold, hspaced, hunfold, unfoldLines_append (not_mem_text hp (.inl rfl)), ih hothers]

theorem readLines_append {text : Bytes} (htext : 13 ∉ text) (line rest : Bytes) :
    readLines line (text ++ rest) = readLines (line ++ text) rest := by
  induction text generalizing line with
  | nil => rw [List.append_nil]; rfl
  | cons b text ih =>
      rw [List.mem_cons, not_or] at htext
      have hline : line ++ b :: text = line ++ [b] ++ text := by simp
      rw [hline, ← ih htext.2, List.cons_append]
      conv_lhs => unfold readLines
      split
      · rename_i heq
        exact absurd (List.cons.inj heq).1.symm htext.1
      · rename_i heq
        obtain ⟨rfl, rfl⟩ := List.cons.inj heq
        rfl
      · rename_i heq
        cases heq

theorem readLines_break {line : Bytes} (hline : line ≠ []) (rest : Bytes) :
    readLines line (13 :: 10 :: rest) = (readLines [] rest).map (line :: ·) :=
  if_neg (by simpa using hline)

/-! ## Fields -/

/-- A field when its lines are unfolded. -/
def Field.line (f : Field) : Bytes := f.name ++ [58, 32] ++ f.value ++ spaced f.params

theorem not_mem_spaced {params : List Param} (hparams : ∀ p ∈ params, p.Writable) :
    13 ∉ spaced params := by
  intro hmem
  obtain ⟨p, hp, hmem⟩ := List.mem_flatMap.mp hmem
  rcases List.mem_append.mp hmem with hmem | hmem
  · revert hmem
    decide
  · exact not_mem_text (hparams p hp) (.inl rfl) hmem

theorem not_mem_name {text : Bytes} (htext : isTokenText text = true) {c : UInt8}
    (hc : isToken c = false) : c ∉ text := by
  rw [isTokenText, Bool.and_eq_true, List.all_eq_true] at htext
  exact fun hmem => isToken_ne (htext.2 c hmem) hc rfl

/-- The start of a field. -/
theorem not_mem_start {f : Field} (hf : f.Writable) : 13 ∉ f.name ++ [58, 32] ++ f.value := by
  intro hmem
  rcases List.mem_append.mp hmem with hmem | hmem
  · rcases List.mem_append.mp hmem with hmem | hmem
    · exact not_mem_name hf.name (by decide) hmem
    · revert hmem
      decide
  · have hvalue := List.all_eq_true.mp hf.value 13 hmem
    simp at hvalue

theorem name_eq {f : Field} (hf : f.Writable) :
    ∃ b text, f.name = b :: text ∧ isToken b = true := by
  have hname := hf.name
  rw [isTokenText, Bool.and_eq_true] at hname
  rcases hfirst : f.name with _ | ⟨b, text⟩
  · simp [hfirst] at hname
  · rw [hfirst, List.all_cons, Bool.and_eq_true] at hname
    exact ⟨b, text, rfl, hname.2.1⟩

theorem readField_line {f : Field} (hf : f.Writable) :
    readField f.line = some (f.name, f.value, f.params.map Param.pair) := by
  have hline : f.line = f.name ++ 58 :: 32 :: (f.value ++ spaced f.params) := by
    simp [Field.line]
  have hname : ∀ b ∈ f.name, (b != 58) = true := by
    intro b hb
    have hcolon : 58 ∉ f.name := not_mem_name hf.name (by decide)
    simpa using ne_of_mem_of_not_mem hb hcolon
  have hvalue : ∀ b ∈ f.value, (b != 59 && !isLwsp b) = true := by
    intro b hb
    have hplain := List.all_eq_true.mp hf.value b hb
    simp only [Bool.and_eq_true] at hplain ⊢
    exact ⟨hplain.1.2, hplain.2⟩
  have hbody : (32 :: (f.value ++ spaced f.params)).dropWhile isLwsp =
      f.value ++ spaced f.params := by
    rw [List.dropWhile_cons_of_pos (by decide)]
    rcases hfirst : f.value with _ | ⟨b, text⟩
    · rcases ends_spaced f.params with hnil | ⟨more, hmore⟩
      · rw [hnil]
        rfl
      · rw [hmore]
        rfl
    · rw [hfirst] at hvalue
      have hb := hvalue b List.mem_cons_self
      simp only [Bool.and_eq_true, Bool.not_eq_true'] at hb
      exact List.dropWhile_cons_of_neg (by simp [hb.2])
  have htake : (f.value ++ spaced f.params).takeWhile (fun b => b != 59 && !isLwsp b) =
      f.value := by
    rw [List.takeWhile_append_of_pos hvalue]
    rcases ends_spaced f.params with hnil | ⟨more, hmore⟩
    · rw [hnil]
      exact List.append_nil _
    · rw [hmore]
      exact List.append_nil _
  have hcolon : f.line.dropWhile (· != 58) = 58 :: 32 :: (f.value ++ spaced f.params) := by
    rw [hline, List.dropWhile_append_of_pos hname]
    rfl
  have hstart : f.line.takeWhile (· != 58) = f.name := by
    rw [hline, List.takeWhile_append_of_pos hname]
    exact List.append_nil _
  simp only [readField, hcolon, hstart, hbody, htake, List.drop_left,
    readParams_spaced hf.params, Option.map_some]

theorem block_cons (f : Field) (fields : List Field) :
    block (f :: fields) = f.text ++ 13 :: 10 :: block fields := by
  simp [block]

theorem block_ne_lwsp {fields : List Field} (hfields : ∀ f ∈ fields, f.Writable) :
    ∃ b rest, block fields = b :: rest ∧ isLwsp b = false := by
  rcases fields with _ | ⟨f, rest⟩
  · exact ⟨13, [10], rfl, rfl⟩
  · obtain ⟨b, text, hname, hb⟩ := name_eq (hfields f List.mem_cons_self)
    have hlwsp : isLwsp b = false := by
      have hspace : b ≠ 32 := isToken_ne hb (by decide)
      have htab : b ≠ 9 := isToken_ne hb (by decide)
      simp [isLwsp, hspace, htab]
    rw [block_cons, Field.text, hname]
    exact ⟨b, _, rfl, hlwsp⟩

/-- What is left when the lines are unfolded. -/
theorem unfoldLines_block {fields : List Field} (hfields : ∀ f ∈ fields, f.Writable) :
    unfoldLines (block fields) = (fields.flatMap fun f => f.line ++ [13, 10]) ++ [13, 10] := by
  induction fields with
  | nil => rfl
  | cons f rest ih =>
      obtain ⟨hf, hrest⟩ := List.forall_mem_cons.mp hfields
      obtain ⟨b, more, hblock, hb⟩ := block_ne_lwsp hrest
      have hbreak : unfoldLines (13 :: 10 :: block rest) =
          13 :: 10 :: unfoldLines (block rest) := by
        rw [hblock, unfoldLines, if_neg (by simp [hb])]
      rw [block_cons, Field.text, List.append_assoc, unfoldLines_append (not_mem_start hf),
        unfoldLines_folded hf.params, hbreak, ih hrest]
      simp [Field.line]

theorem readLines_fields {fields : List Field} (hfields : ∀ f ∈ fields, f.Writable) :
    readLines [] ((fields.flatMap fun f => f.line ++ [13, 10]) ++ [13, 10]) =
      some (fields.map Field.line) := by
  induction fields with
  | nil => rfl
  | cons f rest ih =>
      obtain ⟨hf, hrest⟩ := List.forall_mem_cons.mp hfields
      obtain ⟨b, text, hname, -⟩ := name_eq hf
      have hbreak : 13 ∉ f.line := by
        rw [Field.line, List.mem_append, not_or]
        exact ⟨not_mem_start hf, not_mem_spaced hf.params⟩
      have hne : f.line ≠ [] := by simp [Field.line, hname]
      rw [List.flatMap_cons, List.append_assoc, List.append_assoc, readLines_append hbreak,
        List.nil_append, List.cons_append, List.cons_append, List.nil_append,
        readLines_break hne, ih hrest]
      rfl

/-- **What is written is read**: the fields in order, each with the parameters in
    order and their exact values. -/
theorem readBlock_block {fields : List Field} (hfields : ∀ f ∈ fields, f.Writable) :
    readBlock (block fields) =
      some (fields.map fun f => (f.name, f.value, f.params.map Param.pair)) := by
  rw [readBlock, unfoldLines_block hfields, readLines_fields hfields, Option.bind_some,
    ReadLists.mapM_map_eq_some_map_iff]
  exact fun f hf => readField_line (hfields f hf)

end RustyImap.MimeParams

import Mathlib.Algebra.Order.BigOperators.Group.List
import RustyImap.FolderName
import RustyImap.LabelledRuns
import RustyImap.ToolCatalog

/-!
# The catalogue that a client holds

`tools/list` and `use_account` in one session (`rimap-server/src/mcp/server.rs`,
`mcp/tool_catalog.rs`, `boot/registry.rs`, `tools/admin/accounts.rs`): the server pages
through the catalogue of the selected account, and announces a selection that changes it.

A `use_account` call reads the selection before and after its handler and compares the
two; between these reads other requests are served.  The client reads page after page
and begins again when it is told that the list has changed.
-/

namespace RustyImap.ToolListSession

open RustyImap.LabelledRuns

/-! ## Pages -/

def TOOLS_PER_PAGE : Nat := 25

def USIZE_MAX : Nat := 2 ^ 64 - 1

/-- `str::parse::<usize>`. -/
def parseUsize (s : String) : Option Nat :=
  let digits := match s.toList with
    | '+' :: rest => rest
    | chars => chars
  let n := Nat.ofDigitChars 10 digits 0
  if digits.isEmpty || !digits.all Char.isDigit || decide (USIZE_MAX < n) then none else some n

structure InvalidCursor where
  cursor : String
deriving DecidableEq, Repr

def decodeToolCursor (cursor : String) : Except InvalidCursor Nat :=
  match parseUsize cursor with
  | some start => .ok start
  | none => .error ⟨cursor⟩

structure PageWindow where
  start : Nat
  stop : Nat                         -- `end`
  next : Option Nat
deriving DecidableEq, Repr

def toolPageWindow (len start : Nat) : PageWindow :=
  let start := min start len
  let stop := min (min (start + TOOLS_PER_PAGE) USIZE_MAX) len
  ⟨start, stop, if stop < len then some stop else none⟩

def startOf : Option String → Except InvalidCursor Nat
  | some cursor => decodeToolCursor cursor
  | none => .ok 0

def pageFrom {α : Type} (tools : List α) (start : Nat) : List α × Option String :=
  let window := toolPageWindow tools.length start
  ((tools.drop window.start).take (window.stop - window.start), window.next.map toString)

/-- A page of `tools/list` and the cursor of the next one. -/
def listTools {α : Type} (tools : List α) (cursor : Option String) :
    Except InvalidCursor (List α × Option String) :=
  (startOf cursor).map (pageFrom tools)

theorem parseUsize_toString {n : Nat} (h : n ≤ USIZE_MAX) : parseUsize (toString n) = some n := by
  have hdigits : ∀ c ∈ Nat.toDigits 10 n, c.isDigit = true :=
    fun _ hc => Nat.isDigit_of_mem_toDigits (by decide) (by decide) hc
  have hlist : (toString n).toList = Nat.toDigits 10 n := by
    change (Nat.repr n).toList = _
    simp [Nat.repr]
  have hnoplus : (match (toString n).toList with
      | '+' :: rest => rest
      | chars => chars) = Nat.toDigits 10 n := by
    rw [hlist]
    split
    · rename_i rest heq
      exact absurd (hdigits '+' (by simp [heq])) (by decide)
    · rfl
  unfold parseUsize
  rw [hnoplus]
  have hall : (Nat.toDigits 10 n).all Char.isDigit = true := List.all_eq_true.mpr hdigits
  have hne : (Nat.toDigits 10 n).isEmpty = false := by simp
  simp [hall, hne, Nat.ofDigitChars_ten_toDigits, Nat.not_lt.mpr h]

/-- The cursor of a page. -/
def cursorAt (offset : Nat) : Option String := if offset = 0 then none else some (toString offset)

theorem startOf_cursorAt {offset : Nat} (h : offset ≤ USIZE_MAX) :
    startOf (cursorAt offset) = .ok offset := by
  unfold cursorAt
  split
  · rename_i hzero
    rw [hzero]
    rfl
  · simp only [startOf, decodeToolCursor, parseUsize_toString h]

/-- The page behind the first `offset` tools, and where the next one begins. -/
theorem listTools_cursorAt {α : Type} {tools : List α} (hlen : tools.length ≤ USIZE_MAX)
    {offset : Nat} (hoffset : offset ≤ tools.length) :
    listTools tools (cursorAt offset) = .ok ((tools.drop offset).take TOOLS_PER_PAGE,
      if offset + TOOLS_PER_PAGE < tools.length then cursorAt (offset + TOOLS_PER_PAGE)
      else none) := by
  have hpositive : offset + TOOLS_PER_PAGE ≠ 0 := Nat.succ_ne_zero _
  rw [listTools, startOf_cursorAt (hoffset.trans hlen), Except.map]
  simp only [pageFrom, toolPageWindow, Nat.min_eq_left hoffset]
  by_cases hmore : offset + TOOLS_PER_PAGE < tools.length
  · have hstop : min (min (offset + TOOLS_PER_PAGE) USIZE_MAX) tools.length =
        offset + TOOLS_PER_PAGE := by omega
    have hcursor : cursorAt (offset + TOOLS_PER_PAGE) = some (toString (offset + TOOLS_PER_PAGE)) :=
      if_neg hpositive
    rw [if_pos hmore, hcursor]
    simp [hstop, hmore]
  · have hstop : min (min (offset + TOOLS_PER_PAGE) USIZE_MAX) tools.length =
        tools.length := by omega
    have hrest : (tools.drop offset).length ≤ TOOLS_PER_PAGE := by
      rw [List.length_drop]
      omega
    have hall : (tools.drop offset).take (tools.length - offset) = tools.drop offset :=
      List.take_of_length_le (by rw [List.length_drop])
    simp [hstop, hmore, hall, List.take_of_length_le hrest]

/-! ## The selected account -/

section

variable (accounts : AccountMap)

/-- `AccountRegistry::set_active`, to the account that is now selected. -/
def setActive (name : String) : Except RimapError AccountId :=
  match AccountId.new name with
  | .ok id =>
      if (accounts.get id).isSome then .ok id
      else .error (.unknownAccount name accounts.accountNameStrings)
  | .error _ => .error (.unknownAccount name accounts.accountNameStrings)

def handleUseAccount (name : String) : Except RimapError AccountId :=
  if name.toList.any FolderName.isRejectedDisplayCodepoint then
    .error (.authz .invalidInput "account: disallowed bidi/zero-width/tag codepoint in name")
  else
    match AccountId.new name with
    | .error _ => .error (.authz .invalidInput "invalid account name")
    | .ok _ => setActive accounts name

end

def activeSelectionChangesAdvertisement (prior now : Option String) (accountCount : Nat) : Bool :=
  match prior, now with
  | none, none => false
  | none, some _ | some _, none => decide (1 < accountCount)
  | some p, some n => p != n

/-- Nothing, or the name of an account. -/
def IsSelection (accounts : AccountMap) (active : Option String) : Prop :=
  ∀ name, active = some name → ∃ state ∈ accounts.states, state.id.name = name

theorem isSelection_handleUseAccount {accounts : AccountMap} {name : String} {id : AccountId}
    (h : handleUseAccount accounts name = .ok id) : IsSelection accounts (some id.name) := by
  have hset : setActive accounts name = .ok id := by
    unfold handleUseAccount at h
    split at h
    · cases h
    · split at h
      · cases h
      · exact h
  unfold setActive at hset
  split at hset
  · split at hset
    · rename_i hget
      cases hset
      obtain ⟨state, hstate⟩ := Option.isSome_iff_exists.mp hget
      rintro _ ⟨rfl⟩
      refine ⟨state, List.mem_of_find?_eq_some hstate, ?_⟩
      have hid := List.find?_some hstate
      rw [beq_iff_eq] at hid
      rw [hid]
    · cases hset
  · cases hset

/-- **Every change of the catalogue is announced**, as far as the two selections go. -/
theorem catalog_eq_of_not_announced {accounts : AccountMap} {prior now : Option String}
    (hprior : IsSelection accounts prior) (hnow : IsSelection accounts now)
    (h : activeSelectionChangesAdvertisement prior now accounts.states.length = false) :
    buildToolCatalogFor accounts prior = buildToolCatalogFor accounts now := by
  -- with one account it is the same whether it is selected or not
  have hsole : ∀ name, IsSelection accounts (some name) → ¬ 1 < accounts.states.length →
      buildToolCatalogFor accounts (some name) = buildToolCatalogFor accounts none := by
    intro name hname hcount
    obtain ⟨state, hmem, rfl⟩ := hname name rfl
    obtain ⟨sole, hsole⟩ : ∃ sole, accounts.states = [sole] := by
      rcases hstates : accounts.states with _ | ⟨first, _ | ⟨second, rest⟩⟩
      · simp [hstates] at hmem
      · exact ⟨first, rfl⟩
      · simp [hstates] at hcount
    obtain rfl : state = sole := by simpa [hsole] using hmem
    simp [buildToolCatalogFor, hsole]
  rcases prior with _ | p <;> rcases now with _ | n
  · rfl
  · exact (hsole n hnow (by simpa [activeSelectionChangesAdvertisement] using h)).symm
  · exact hsole p hprior (by simpa [activeSelectionChangesAdvertisement] using h)
  · obtain rfl : p = n := by simpa [activeSelectionChangesAdvertisement] using h
    rfl

/-! ## Sessions -/

/-- A `use_account` request: about to be handled, handled but not compared, answered. -/
inductive Call where
  | entered (name : String) (prior : Option String)
  | handled (prior : Option String)
  | ended
deriving DecidableEq

def Call.isEnded : Call → Bool
  | .ended => true
  | .entered _ _ | .handled _ => false

structure Client where
  tools : Option (List Tool)         -- none while the list is to be fetched
  walked : List Tool                 -- the pages so far, and where the next one is
  cursor : Option String
deriving DecidableEq

def Client.refetching : Client := ⟨none, [], none⟩

/-- The answer to a request for the next page. -/
def Client.page (client : Client) (catalog : List Tool) : Client :=
  match client.tools, listTools catalog client.cursor with
  | some _, _ => client
  | none, .ok (page, some cursor) => ⟨none, client.walked ++ page, some cursor⟩
  | none, .ok (page, none) => ⟨some (client.walked ++ page), [], none⟩
  | none, .error _ => .refetching

structure Session where
  active : Option String
  calls : List Call
  notices : Nat                      -- `notifications/tools/list_changed` under way
  client : Client

def Session.start : Session := ⟨none, [], 0, .refetching⟩

inductive Label where
  | useAccount (name : String)
  | handle (i : Nat)
  | finish (i : Nat)
  | lose (i : Nat)                   -- dropped, refused, or its notice is not sent
  | deliver
  | page
  | refetch
deriving DecidableEq

section

variable (accounts : AccountMap)

def announces (prior now : Option String) : Bool :=
  activeSelectionChangesAdvertisement prior now accounts.states.length

def catalogOf (s : Session) : List Tool := buildToolCatalogFor accounts s.active

def step (s : Session) : Label → Option Session
  | .useAccount name => some { s with calls := s.calls ++ [.entered name s.active] }
  | .handle i =>
      match s.calls[i]? with
      | some (.entered name prior) =>
          let calls := s.calls.set i (.handled prior)
          match handleUseAccount accounts name with
          | .ok id => some { s with active := some id.name, calls := calls }
          | .error _ => some { s with calls := calls }
      | some (.handled _) | some .ended | none => none
  | .finish i =>
      match s.calls[i]? with
      | some (.handled prior) =>
          some { s with
            calls := s.calls.set i .ended
            notices := s.notices + (announces accounts prior s.active).toNat }
      | some (.entered _ _) | some .ended | none => none
  | .lose i =>
      match s.calls[i]? with
      | some (.entered _ _) | some (.handled _) => some { s with calls := s.calls.set i .ended }
      | some .ended | none => none
  | .deliver =>
      match s.notices with
      | 0 => none
      | n + 1 => some { s with notices := n, client := .refetching }
  | .page => some { s with client := s.client.page (catalogOf accounts s) }
  | .refetch => some { s with client := .refetching }

/-- One call at a time, and none is lost whose change is still to be announced. -/
def orderly (s : Session) : Label → Bool
  | .useAccount _ => s.calls.all Call.isEnded
  | .lose i =>
      match s.calls[i]? with
      | some (.handled prior) => !announces accounts prior s.active
      | some (.entered _ _) | some .ended | none => true
  | .handle _ | .finish _ | .deliver | .page | .refetch => true

/-- What the client holds is the catalogue, or a front part of it. -/
def Current (client : Client) (catalog : List Tool) : Prop :=
  match client.tools with
  | some tools => tools = catalog
  | none => ∃ offset ≤ catalog.length,
      client.walked = catalog.take offset ∧ client.cursor = cursorAt offset

end

theorem current_refetching (catalog : List Tool) : Current .refetching catalog :=
  ⟨0, Nat.zero_le _, rfl, rfl⟩

/-- A page of the same catalogue. -/
theorem Current.page {client : Client} {catalog : List Tool} (h : Current client catalog)
    (hlen : catalog.length ≤ USIZE_MAX) : Current (client.page catalog) catalog := by
  rcases client with ⟨_ | tools, walked, cursor⟩
  · obtain ⟨offset, hoffset, hwalked, hcursor⟩ := h
    simp only at hwalked hcursor
    rw [Client.page, hcursor, listTools_cursorAt hlen hoffset]
    have htake : catalog.take offset ++ (catalog.drop offset).take TOOLS_PER_PAGE =
        catalog.take (offset + TOOLS_PER_PAGE) := (List.take_add ..).symm
    by_cases hmore : offset + TOOLS_PER_PAGE < catalog.length
    · have hnext : cursorAt (offset + TOOLS_PER_PAGE) =
          some (toString (offset + TOOLS_PER_PAGE)) := if_neg (Nat.succ_ne_zero _)
      simp only [if_pos hmore, hnext]
      exact ⟨offset + TOOLS_PER_PAGE, hmore.le, by rw [hwalked, htake], hnext.symm⟩
    · simp only [if_neg hmore]
      change walked ++ (catalog.drop offset).take TOOLS_PER_PAGE = catalog
      rw [hwalked, htake, List.take_of_length_le (Nat.not_lt.mp hmore)]
  · exact h

/-! ## What holds at every moment -/

def Live (calls : List Call) (i : Nat) : Prop :=
  ∃ call, calls[i]? = some call ∧ call.isEnded = false

theorem live_of_set {calls : List Call} {i j : Nat} {call : Call} (hi : Live calls i)
    (h : Live (calls.set i call) j) : Live calls j := by
  by_cases hij : i = j
  · exact hij ▸ hi
  · obtain ⟨other, hother, hlive⟩ := h
    rw [List.getElem?_set_ne hij] at hother
    exact ⟨other, hother, hlive⟩

/-- A call that may go on read the selection that is still there, or one that was. -/
def PriorOk (accounts : AccountMap) (active : Option String) : Call → Prop
  | .entered _ prior => prior = active
  | .handled prior => IsSelection accounts prior
  | .ended => True

/-- The client's list is current, unless a notice is under way or about to be sent. -/
structure Inv (accounts : AccountMap) (s : Session) : Prop where
  known : IsSelection accounts s.active
  prior : ∀ (i : Nat) (call : Call), s.calls[i]? = some call → PriorOk accounts s.active call
  alone : ∀ i j, Live s.calls i → Live s.calls j → i = j
  fresh : 0 < s.notices ∨
    (∃ (i : Nat) (prior : Option String), s.calls[i]? = some (.handled prior) ∧
      announces accounts prior s.active = true) ∨
      Current s.client (catalogOf accounts s)

section

variable {accounts : AccountMap} {s t : Session}

theorem inv_start : Inv accounts .start where
  known name h := by cases h
  prior i call h := by simp [Session.start] at h
  alone i j := by rintro ⟨call, hcall, -⟩; simp [Session.start] at hcall
  fresh := .inr (.inr (current_refetching _))

/-- Where a call goes on, the others are over. -/
theorem Inv.ended_of_ne (h : Inv accounts s) {i j : Nat} (hi : Live s.calls i) (hij : i ≠ j)
    {call : Call} (hcall : s.calls[j]? = some call) : call = .ended := by
  cases call with
  | ended => rfl
  | entered name prior => exact absurd (h.alone i j hi ⟨_, hcall, rfl⟩) hij
  | handled prior => exact absurd (h.alone i j hi ⟨_, hcall, rfl⟩) hij

theorem inv_useAccount (h : Inv accounts s) (hquiet : s.calls.all Call.isEnded = true)
    (name : String) : Inv accounts { s with calls := s.calls ++ [.entered name s.active] } := by
  have hended : ∀ i, ¬ Live s.calls i := by
    rintro i ⟨call, hcall, hlive⟩
    rw [List.all_eq_true.mp hquiet call (List.mem_of_getElem? hcall)] at hlive
    cases hlive
  have hlast : ∀ (i : Nat) (call : Call), (s.calls ++ [.entered name s.active])[i]? = some call →
      s.calls[i]? = some call ∨ i = s.calls.length ∧ call = .entered name s.active := by
    intro i call hcall
    rcases Nat.lt_trichotomy i s.calls.length with hlt | heq | hgt
    · rw [List.getElem?_append_left hlt] at hcall
      exact .inl hcall
    · rw [heq, List.getElem?_concat_length] at hcall
      exact .inr ⟨heq, (Option.some.inj hcall).symm⟩
    · rw [List.getElem?_eq_none (by simp; omega)] at hcall
      cases hcall
  have hlive : ∀ i, Live (s.calls ++ [.entered name s.active]) i → i = s.calls.length := by
    rintro i ⟨call, hcall, hnot⟩
    rcases hlast i call hcall with hold | ⟨heq, -⟩
    · exact absurd ⟨call, hold, hnot⟩ (hended i)
    · exact heq
  constructor
  · exact h.known
  · intro i call hcall
    rcases hlast i call hcall with hold | ⟨-, rfl⟩
    · exact h.prior i call hold
    · rfl
  · intro i j hi hj
    rw [hlive i hi, hlive j hj]
  · rcases h.fresh with hnotice | ⟨i, prior, hcall, hannounces⟩ | hcurrent
    · exact .inl hnotice
    · exact absurd ⟨_, hcall, rfl⟩ (hended i)
    · exact .inr (.inr hcurrent)

/-- The handler of the one call that goes on: it may select another account. -/
theorem inv_handle (h : Inv accounts s) {i : Nat} {name : String} {prior active : Option String}
    (hcall : s.calls[i]? = some (.entered name prior)) (hactive : IsSelection accounts active) :
    Inv accounts { s with active := active, calls := s.calls.set i (.handled prior) } := by
  have hlive : Live s.calls i := ⟨_, hcall, rfl⟩
  have hprior : prior = s.active := h.prior i _ hcall
  have hself : (s.calls.set i (.handled prior))[i]? = some (.handled prior) :=
    List.getElem?_set_self (List.getElem?_eq_some_iff.mp hcall).1
  constructor
  · exact hactive
  · intro j call hj
    by_cases hij : i = j
    · rw [← hij, hself] at hj
      cases hj
      exact hprior ▸ h.known
    · rw [List.getElem?_set_ne hij] at hj
      rw [h.ended_of_ne hlive hij hj]
      trivial
  · intro j k hj hk
    exact h.alone j k (live_of_set hlive hj) (live_of_set hlive hk)
  · rcases h.fresh with hnotice | ⟨j, other, hother, -⟩ | hcurrent
    · exact .inl hnotice
    · by_cases hij : i = j
      · rw [← hij, hcall] at hother
        cases hother
      · cases h.ended_of_ne hlive hij hother
    · cases hannounces : announces accounts prior active
      · refine .inr (.inr ?_)
        have hsame := catalog_eq_of_not_announced (hprior ▸ h.known) hactive hannounces
        rw [hprior] at hsame
        rw [catalogOf, hsame] at hcurrent
        exact hcurrent
      · exact .inr (.inl ⟨i, prior, hself, hannounces⟩)

/-- The end of the one call that goes on; a change is announced. -/
theorem inv_end (h : Inv accounts s) {i notices : Nat} (hlive : Live s.calls i)
    (hmore : s.notices ≤ notices)
    (hannounced : ∀ prior, s.calls[i]? = some (.handled prior) →
      announces accounts prior s.active = true → 0 < notices) :
    Inv accounts { s with calls := s.calls.set i .ended, notices := notices } := by
  constructor
  · exact h.known
  · intro j call hj
    by_cases hij : i = j
    · obtain ⟨old, hold, -⟩ := hlive
      rw [← hij, List.getElem?_set_self (List.getElem?_eq_some_iff.mp hold).1] at hj
      cases hj
      trivial
    · rw [List.getElem?_set_ne hij] at hj
      exact h.prior j call hj
  · intro j k hj hk
    exact h.alone j k (live_of_set hlive hj) (live_of_set hlive hk)
  · rcases h.fresh with hnotice | ⟨j, prior, hcall, hannounces⟩ | hcurrent
    · exact .inl (Nat.lt_of_lt_of_le hnotice hmore)
    · obtain rfl := h.alone j i ⟨_, hcall, rfl⟩ hlive
      exact .inl (hannounced prior hcall hannounces)
    · exact .inr (.inr hcurrent)

theorem Inv.step (h : Inv accounts s) (hsmall : (catalogOf accounts s).length ≤ USIZE_MAX)
    {label : Label} (hok : orderly accounts s label = true)
    (hstep : step accounts s label = some t) : Inv accounts t := by
  rcases label with name | i | i | i | _ | _ | _
  · cases hstep
    exact inv_useAccount h hok name
  · simp only [ToolListSession.step] at hstep
    split at hstep
    · rename_i name prior hcall
      split at hstep
      · rename_i id hid
        cases hstep
        exact inv_handle h hcall (isSelection_handleUseAccount hid)
      · cases hstep
        exact inv_handle h hcall h.known
    all_goals cases hstep
  · simp only [ToolListSession.step] at hstep
    split at hstep
    · rename_i prior hcall
      cases hstep
      refine inv_end h ⟨_, hcall, rfl⟩ (Nat.le_add_right _ _) ?_
      intro other hother hannounces
      rw [hcall] at hother
      cases hother
      rw [hannounces]
      exact Nat.succ_pos _
    all_goals cases hstep
  · simp only [ToolListSession.step] at hstep
    split at hstep
    · rename_i name prior hcall
      cases hstep
      refine inv_end h ⟨_, hcall, rfl⟩ (Nat.le_refl _) ?_
      intro other hother
      rw [hcall] at hother
      cases hother
    · rename_i prior hcall
      cases hstep
      refine inv_end h ⟨_, hcall, rfl⟩ (Nat.le_refl _) ?_
      intro other hother hannounces
      rw [hcall] at hother
      cases hother
      simp [orderly, hcall, hannounces] at hok
    all_goals cases hstep
  · simp only [ToolListSession.step] at hstep
    split at hstep
    · cases hstep
    · cases hstep
      exact ⟨h.known, h.prior, h.alone, .inr (.inr (current_refetching _))⟩
  · cases hstep
    refine ⟨h.known, h.prior, h.alone, ?_⟩
    rcases h.fresh with hnotice | hpending | hcurrent
    · exact .inl hnotice
    · exact .inr (.inl hpending)
    · exact .inr (.inr (hcurrent.page hsmall))
  · cases hstep
    exact ⟨h.known, h.prior, h.alone, .inr (.inr (current_refetching _))⟩

/-! ## Fetching to the end -/

/-- A client that has the front of the catalogue comes to the whole of it, page by page. -/
theorem exists_fetched (hsmall : (catalogOf accounts s).length ≤ USIZE_MAX)
    (h : Current s.client (catalogOf accounts s)) :
    ∃ n t, run (step accounts) s (List.replicate n .page) = some t ∧
      t.client.tools = some (catalogOf accounts s) := by
  rcases htools : s.client.tools with _ | tools
  · induction hleft : (catalogOf accounts s).length - s.client.walked.length
        using Nat.strongRecOn generalizing s with
    | ind left ih =>
        obtain ⟨offset, hoffset, hwalked, hcursor⟩ : ∃ offset ≤ (catalogOf accounts s).length,
            s.client.walked = (catalogOf accounts s).take offset ∧
              s.client.cursor = cursorAt offset := by
          rw [Current, htools] at h
          exact h
        have hpage := listTools_cursorAt hsmall hoffset
        rw [← hcursor] at hpage
        have hnext := h.page hsmall
        let s' : Session := { s with client := s.client.page (catalogOf accounts s) }
        have hlength : s.client.walked.length = offset := by
          rw [hwalked, List.length_take, Nat.min_eq_left hoffset]
        by_cases hmore : offset + TOOLS_PER_PAGE < (catalogOf accounts s).length
        · have hclient : s'.client = ⟨none, (catalogOf accounts s).take (offset + TOOLS_PER_PAGE),
              cursorAt (offset + TOOLS_PER_PAGE)⟩ := by
            have hcursor' : cursorAt (offset + TOOLS_PER_PAGE) =
                some (toString (offset + TOOLS_PER_PAGE)) := if_neg (Nat.succ_ne_zero _)
            rw [if_pos hmore, hcursor'] at hpage
            simp only [s', Client.page, htools, hpage, hwalked, hcursor', List.take_add]
          have hless : (catalogOf accounts s').length - s'.client.walked.length < left := by
            change (catalogOf accounts s).length - s'.client.walked.length < left
            rw [hclient, List.length_take, Nat.min_eq_left hmore.le]
            have hpositive : 0 < TOOLS_PER_PAGE := by decide
            omega
          obtain ⟨n, t, hrun, ht⟩ := @ih _ hless s' hsmall hnext (by rw [hclient]) rfl
          exact ⟨n + 1, t, hrun, ht⟩
        · refine ⟨1, s', rfl, ?_⟩
          rw [if_neg hmore] at hpage
          have hwhole : s.client.walked ++
              ((catalogOf accounts s).drop offset).take TOOLS_PER_PAGE = catalogOf accounts s := by
            rw [hwalked, ← List.take_add, List.take_of_length_le (Nat.not_lt.mp hmore)]
          simp only [s', Client.page, htools, hpage, hwhole]
  · refine ⟨0, s, rfl, ?_⟩
    rw [Current, htools] at h
    rw [htools, h]

/-- Infrastructure tools twice, and for each account no more than there are tools. -/
theorem length_buildToolCatalogFor_le (accounts : AccountMap) (active : Option String) :
    (buildToolCatalogFor accounts active).length ≤
      2 + accounts.states.length * ToolName.all.length := by
  have hinfra : ([ToolName.useAccount, .listAccounts].filterMap TOOL_DEFS).length ≤ 2 :=
    List.length_filterMap_le _ _
  unfold buildToolCatalogFor
  split
  · exact hinfra.trans (Nat.le_add_right _ _)
  · rw [List.length_append, List.length_flatMap]
    refine Nat.add_le_add hinfra ?_
    have hsum := List.sum_le_card_nsmul (accounts.states.map fun state =>
      (if active.any (· != state.id.name) then []
      else state.matrix.advertised.filterMap fun tool => (TOOL_DEFS tool).map fun baseDef =>
        buildAdvertisedTool baseDef state.id.name (!accounts.isLegacySingleAccount)).length)
      ToolName.all.length ?_
    · simpa using hsum
    · intro n hn
      obtain ⟨state, -, rfl⟩ := List.mem_map.mp hn
      split
      · exact Nat.zero_le _
      · exact (List.length_filterMap_le _ _).trans (List.length_filter_le _ _)

/-- **The client's catalogue is current.**  In every session whose `use_account` calls do
    not overlap and announce what they change, a client that has no notice to come holds
    the catalogue of the selected account, or comes to it by reading on. -/
theorem catalog_current (accounts : AccountMap)
    (hsmall : 2 + accounts.states.length * ToolName.all.length ≤ USIZE_MAX)
    (labels : List Label) (s : Session)
    (horderly : AllSteps (step accounts) (fun s label => orderly accounts s label) .start labels)
    (hrun : run (step accounts) .start labels = some s) (hnotices : s.notices = 0)
    (hcalls : s.calls.all Call.isEnded = true) :
    (∀ tools, s.client.tools = some tools → tools = buildToolCatalogFor accounts s.active) ∧
      ∃ n t, run (step accounts) s (List.replicate n .page) = some t ∧
        t.client.tools = some (buildToolCatalogFor accounts s.active) := by
  have hlength (active : Option String) :=
    (length_buildToolCatalogFor_le accounts active).trans hsmall
  have hinv : Inv accounts s :=
    invariant_of_allSteps (fun v _ _ h hok hstep => h.step (hlength v.active) hok hstep) inv_start
      horderly hrun
  have hcurrent : Current s.client (catalogOf accounts s) := by
    rcases hinv.fresh with hnotice | ⟨i, prior, hcall, -⟩ | hcurrent
    · omega
    · have hended := List.all_eq_true.mp hcalls _ (List.mem_of_getElem? hcall)
      cases hended
    · exact hcurrent
  refine ⟨?_, exists_fetched (hlength s.active) hcurrent⟩
  intro tools htools
  rw [Current, htools] at hcurrent
  exact hcurrent

end

/-- An account with everything that can be allowed, on two pages. -/
def busy : AccountState where
  id := work.id
  posture := .destructive
  overrides := fun tool =>
    if tool = .useAccount ∨ tool = .listAccounts ∨ tool = .exportMessages then some .allow
    else none

def homeAndBusy : AccountMap where
  states := [home, busy]
  sorted := List.pairwise_pair.mpr (by decide)

/-- The client reads the first list, is told of the change and reads one page again. -/
def selecting : List Label :=
  [.useAccount "work", .page, .handle 0, .finish 0, .page, .deliver, .page]

theorem catalog_current_selecting :
    ∃ s, run (step homeAndBusy) .start selecting = some s ∧ s.client.walked.length = 25 ∧
      (∀ tools, s.client.tools = some tools → tools = buildToolCatalogFor homeAndBusy s.active) ∧
      ∃ n t, run (step homeAndBusy) s (List.replicate n .page) = some t ∧
        t.client.tools = some (buildToolCatalogFor homeAndBusy s.active) := by
  have hrun : (run (step homeAndBusy) .start selecting).map (fun s =>
      (s.client.walked.length, s.notices, s.calls.all Call.isEnded)) = some (25, 0, true) := by
    decide +kernel
  obtain ⟨s, hs, hend⟩ := Option.map_eq_some_iff.mp hrun
  simp only [Prod.mk.injEq] at hend
  exact ⟨s, hs, hend.1, catalog_current homeAndBusy (by decide +kernel) selecting s
    (by decide +kernel) hs hend.2.1 hend.2.2⟩

/-- Calls that overlap may take the selection away and back again: neither announces
    anything, and the client keeps what it has read in between. -/
example : (run (step homeAndBusy) .start [.useAccount "home", .handle 0, .finish 0, .deliver,
    .useAccount "work", .useAccount "home", .handle 1, .page, .page, .handle 2, .finish 1,
    .finish 2]).map (fun s => (s.notices, s.active,
      s.client.tools == some (buildToolCatalogFor homeAndBusy (some "work")))) =
    some (0, some "home", true) := by
  decide +kernel

end RustyImap.ToolListSession

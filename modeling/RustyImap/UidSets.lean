import Mathlib.Data.List.Sort
import Mathlib.Data.Nat.SuccPred
import RustyImap.SequenceSets

/-!
# UID sets on the wire

The two encoders of a list of UIDs: `compress_uid_set` (`rimap-imap/src/ops/fetch.rs`),
which writes runs, and `uid_set_string` (`ops/store.rs`), which writes the list as it
stands.
-/

namespace RustyImap.UidSets

open OrderedRuns SeparatedItems SequenceSets

/-- `Uid`, a `NonZeroU32`. -/
structure Uid where
  get : Nat
  pos : 0 < get
  lt : get < 2 ^ 32
deriving DecidableEq

/-! ## Runs -/

/-- `u32::checked_add`. -/
def checkedAdd (a b : Nat) : Option Nat := if a + b < 2 ^ 32 then some (a + b) else none

/-- `Vec::dedup`. -/
def dedup : List Nat → List Nat
  | [] => []
  | [a] => [a]
  | a :: b :: rest => if a = b then dedup (b :: rest) else a :: dedup (b :: rest)

def emitRun (out : String) (start stop : Nat) : String :=
  let out := if !out.isEmpty then out.push ',' else out
  if start = stop then out ++ toString start
  else out ++ (toString start ++ ":" ++ toString stop)

/-- The variables of the loop. -/
structure Loop where
  out : String
  runStart : Nat
  runEnd : Nat

def Loop.step (s : Loop) (uid : Nat) : Loop :=
  if checkedAdd s.runEnd 1 ≠ some uid then ⟨emitRun s.out s.runStart s.runEnd, uid, uid⟩
  else { s with runEnd := uid }

def compressUidSet (uids : List Uid) : String :=
  match dedup (uids.map Uid.get).mergeSort with
  | [] => ""
  | first :: rest =>
      let s := rest.foldl Loop.step ⟨"", first, first⟩
      emitRun s.out s.runStart s.runEnd

/-! ## The list as it stands -/

/-- The loop of `uid_set_string` from position `i` on. -/
def pushUids : Nat → String → List Uid → String
  | _, s, [] => s
  | i, s, uid :: rest =>
      pushUids (i + 1) ((if 0 < i then s.push ',' else s) ++ toString uid.get) rest

def uidSetString (uids : List Uid) : String := pushUids 0 "" uids

/-! ## Sorting -/

theorem mem_dedup {l : List Nat} {n : Nat} : n ∈ dedup l ↔ n ∈ l := by
  fun_induction dedup l with
  | case1 => rfl
  | case2 a => rfl
  | case3 b rest ih => simp [ih]
  | case4 a b rest hne ih => simp [ih]

theorem dedup_pairwise {l : List Nat} (h : l.Pairwise (· ≤ ·)) : (dedup l).Pairwise (· < ·) := by
  fun_induction dedup l with
  | case1 => exact .nil
  | case2 a => exact List.pairwise_singleton _ _
  | case3 b rest ih => exact ih h.of_cons
  | case4 a b rest hne ih =>
      have hab : a ≤ b := List.rel_of_pairwise_cons h (by simp)
      refine List.pairwise_cons.mpr ⟨?_, ih h.of_cons⟩
      intro n hn
      rcases List.mem_cons.mp (mem_dedup.mp hn) with rfl | hn
      · omega
      · have hbn : b ≤ n := List.rel_of_pairwise_cons h.of_cons hn
        omega

/-- The sorted UIDs, each once. -/
def sorted (uids : List Uid) : List Nat := dedup (uids.map Uid.get).mergeSort

theorem mem_sorted {uids : List Uid} {n : Nat} : n ∈ sorted uids ↔ n ∈ uids.map Uid.get := by
  rw [sorted, mem_dedup, List.mem_mergeSort]

theorem sorted_pairwise (uids : List Uid) : (sorted uids).Pairwise (· < ·) :=
  dedup_pairwise (List.pairwise_mergeSort' (· ≤ ·) _)

theorem bounds_of_mem_sorted {uids : List Uid} {n : Nat} (h : n ∈ sorted uids) :
    0 < n ∧ n < 2 ^ 32 := by
  obtain ⟨uid, _, rfl⟩ := List.mem_map.mp (mem_sorted.mp h)
  exact ⟨uid.pos, uid.lt⟩

/-! ## The loop cuts runs -/

/-- What the variables hold: the complete runs are written, the last one is not. -/
structure Loop.Holds (s : Loop) (scan : Scan Nat) : Prop where
  out : s.out.toList = joined ',' (scan.closed.map runText)
  runStart : s.runStart = scan.current.start
  runEnd : s.runEnd = scan.current.stop

/-- The end of a run is never at the end of `u32` when another UID follows. -/
theorem checkedAdd_eq_some_iff {stop uid : Nat} (huid : uid < 2 ^ 32) :
    checkedAdd stop 1 = some uid ↔ stop + 1 = uid := by
  unfold checkedAdd
  rw [Option.ite_none_right_eq_some, Option.some_inj]
  omega

theorem toList_emitRun {out : String} {closed : List (Run Nat)}
    (hout : out.toList = joined ',' (closed.map runText)) (r : Run Nat) :
    (emitRun out r.start r.stop).toList = joined ',' ((closed ++ [r]).map runText) := by
  have hpieces : ∀ piece ∈ closed.map runText, piece ≠ [] := by
    rw [List.forall_mem_map]
    exact fun r _ => runText_ne_nil r
  have hpush : push ',' _ (runText r) = _ := push_joined hpieces (runText r)
  rw [List.map_append, List.map_singleton, ← hpush, ← hout]
  unfold emitRun push runText
  by_cases hnil : out.toList = []
  · have hempty : out.isEmpty = true := by simpa using hnil
    by_cases hsingle : r.start = r.stop <;> simp [hempty, hnil, hsingle]
  · have hfull : out.isEmpty = false := by simpa using hnil
    by_cases hsingle : r.start = r.stop <;> simp [hfull, hnil, hsingle]

/-- One turn of the loop is one step of the cut. -/
theorem Loop.Holds.step {s : Loop} {scan : Scan Nat} (h : s.Holds scan) {uid : Nat}
    (huid : uid < 2 ^ 32) : (s.step uid).Holds (scan.step uid) := by
  have hnext : Order.succ scan.current.stop = scan.current.stop + 1 := rfl
  unfold Loop.step Scan.step
  by_cases hrun : scan.current.stop + 1 = uid
  · rw [dif_pos (hnext.trans hrun), if_neg]
    · exact ⟨h.out, h.runStart, rfl⟩
    · rw [not_not, h.runEnd, checkedAdd_eq_some_iff huid]
      exact hrun
  · rw [dif_neg (hnext ▸ hrun), if_pos]
    · refine ⟨?_, rfl, rfl⟩
      rw [h.runStart, h.runEnd]
      exact toList_emitRun h.out scan.current
    · rw [h.runEnd, Ne, checkedAdd_eq_some_iff huid]
      exact hrun

theorem Loop.Holds.foldl {rest : List Nat} {s : Loop} {scan : Scan Nat} (h : s.Holds scan)
    (hrest : ∀ n ∈ rest, n < 2 ^ 32) :
    (rest.foldl Loop.step s).Holds (rest.foldl Scan.step scan) := by
  induction rest generalizing s scan with
  | nil => exact h
  | cons uid rest ih =>
      exact ih (h.step (hrest uid (by simp))) fun n hn => hrest n (by simp [hn])

/-- The runs of a list of UIDs. -/
def runsOf (uids : List Uid) : List (Run Nat) :=
  match sorted uids with
  | [] => []
  | first :: rest => (rest.foldl Scan.step (.start first)).runs

theorem toList_compressUidSet (uids : List Uid) :
    (compressUidSet uids).toList = joined ',' ((runsOf uids).map runText) := by
  unfold compressUidSet runsOf
  rw [← sorted]
  cases hsorted : sorted uids with
  | nil => rfl
  | cons first rest =>
      have hstart : Loop.Holds ⟨"", first, first⟩ (Scan.start first) := ⟨rfl, rfl, rfl⟩
      have hrest : ∀ n ∈ rest, n < 2 ^ 32 := by
        intro n hn
        have hmem : n ∈ sorted uids := by
          rw [hsorted]
          exact List.mem_cons_of_mem _ hn
        exact (bounds_of_mem_sorted hmem).2
      have hend := hstart.foldl hrest
      change (emitRun _ _ _).toList = _
      rw [hend.runStart, hend.runEnd]
      exact toList_emitRun hend.out _

/-- The runs are separated and cover the listed UIDs. -/
theorem separated_runsOf (uids : List Uid) :
    Separated (runsOf uids) ∧ ∀ n, Covers (runsOf uids) n ↔ n ∈ uids.map Uid.get := by
  simp only [← mem_sorted]
  have hsorted := sorted_pairwise uids
  unfold runsOf
  cases huids : sorted uids with
  | nil => exact ⟨List.Pairwise.nil, by simp⟩
  | cons first rest =>
      rw [huids] at hsorted
      have hcut := cut_foldl hsorted
      exact ⟨hcut.separated, hcut.covers⟩

theorem bounds_of_mem_runsOf {uids : List Uid} {r : Run Nat} (h : r ∈ runsOf uids) :
    0 < r.start ∧ r.stop < 2 ^ 32 := by
  have hcovers := (separated_runsOf uids).2
  have hstart : r.start ∈ sorted uids :=
    mem_sorted.mpr ((hcovers _).mp ⟨r, h, le_rfl, r.start_le⟩)
  have hstop : r.stop ∈ sorted uids :=
    mem_sorted.mpr ((hcovers _).mp ⟨r, h, r.start_le, le_rfl⟩)
  exact ⟨(bounds_of_mem_sorted hstart).1, (bounds_of_mem_sorted hstop).2⟩

theorem runsOf_ne_nil {uids : List Uid} (h : uids ≠ []) : runsOf uids ≠ [] := by
  intro hnil
  obtain ⟨uid, huid⟩ := List.exists_mem_of_ne_nil uids h
  have hcovered := ((separated_runsOf uids).2 uid.get).mpr (List.mem_map_of_mem huid)
  rw [hnil] at hcovered
  exact covers_nil _ hcovered

/-- **The text depends on the set only.** -/
theorem compressUidSet_congr {uids others : List Uid}
    (h : ∀ n, n ∈ uids.map Uid.get ↔ n ∈ others.map Uid.get) :
    compressUidSet uids = compressUidSet others := by
  have huids := separated_runsOf uids
  have hothers := separated_runsOf others
  have hruns : runsOf uids = runsOf others := by
    refine huids.1.eq_of_covers hothers.1 ?_
    intro n
    rw [huids.2, hothers.2, h]
  rw [← String.toList_inj, toList_compressUidSet, toList_compressUidSet, hruns]

theorem readSequenceSet_compressUidSet {uids : List Uid} (h : uids ≠ []) :
    readSequenceSet (compressUidSet uids).toList = some ((runsOf uids).map runItem) := by
  rw [toList_compressUidSet]
  exact readSequenceSet_runs (runsOf_ne_nil h) fun _ => bounds_of_mem_runsOf

/-! ## The plain form -/

/-- The list as it stands is one run for each UID. -/
def plainRuns (uids : List Uid) : List (Run Nat) := uids.map fun uid => .single uid.get

theorem runText_single (n : Nat) : runText (.single n) = Nat.toDigits 10 n := if_pos rfl

theorem toList_pushUids {uids : List Uid} {written : List (Run Nat)} {s : String}
    (hs : s.toList = joined ',' (written.map runText)) :
    (pushUids written.length s uids).toList =
      joined ',' ((written ++ plainRuns uids).map runText) := by
  induction uids generalizing written s with
  | nil => simpa [pushUids, plainRuns] using hs
  | cons uid rest ih =>
      have hwritten : ((if 0 < written.length then s.push ',' else s) ++ toString uid.get).toList =
          joined ',' ((written ++ [Run.single uid.get]).map runText) := by
        rw [List.map_append, List.map_singleton, ← joined_concat_index, List.length_map, ← hs,
          runText_single]
        split <;> simp
      have hrest := ih hwritten
      rw [List.length_append, List.length_singleton, List.append_assoc] at hrest
      exact hrest

theorem toList_uidSetString (uids : List Uid) :
    (uidSetString uids).toList = joined ',' ((plainRuns uids).map runText) :=
  @toList_pushUids uids [] "" rfl

theorem covers_plainRuns {uids : List Uid} {n : Nat} :
    Covers (plainRuns uids) n ↔ n ∈ uids.map Uid.get := by
  unfold Covers plainRuns
  constructor
  · rintro ⟨r, hr, hstart, hstop⟩
    obtain ⟨uid, huid, rfl⟩ := List.mem_map.mp hr
    exact List.mem_map.mpr ⟨uid, huid, le_antisymm hstart hstop⟩
  · intro hn
    obtain ⟨uid, huid, rfl⟩ := List.mem_map.mp hn
    exact ⟨_, List.mem_map_of_mem huid, le_rfl, le_rfl⟩

theorem readSequenceSet_uidSetString {uids : List Uid} (h : uids ≠ []) :
    readSequenceSet (uidSetString uids).toList = some ((plainRuns uids).map runItem) := by
  rw [toList_uidSetString]
  refine readSequenceSet_runs (by simpa [plainRuns] using h) ?_
  intro r hr
  obtain ⟨uid, _, rfl⟩ := List.mem_map.mp hr
  exact ⟨uid.pos, uid.lt⟩

/-! ## What the two texts denote -/

theorem encoders_nil : compressUidSet [] = "" ∧ uidSetString [] = "" := by
  have hcompressed : (compressUidSet []).toList = [] := by
    rw [toList_compressUidSet, runsOf, sorted, List.map_nil, List.mergeSort_nil]
    rfl
  exact ⟨by simpa using hcompressed, rfl⟩

/-- **Both encoders write sequence sets that denote the listed UIDs and no others**, the one of
    FETCH as ascending runs with gaps between, so that equal sets give equal texts.  An empty
    list is written as nothing. -/
theorem uidSets_denote (uids : List Uid) :
    (uids ≠ [] →
      ∃ runs, Separated runs ∧
        readSequenceSet (compressUidSet uids).toList = some (runs.map runItem) ∧
        (∀ largest n, Denotes largest (runs.map runItem) n ↔ n ∈ uids.map Uid.get) ∧
        ∃ plain, readSequenceSet (uidSetString uids).toList = some plain ∧
          ∀ largest n, Denotes largest plain n ↔ n ∈ uids.map Uid.get) ∧
    (∀ others : List Uid, (∀ n, n ∈ uids.map Uid.get ↔ n ∈ others.map Uid.get) →
      compressUidSet uids = compressUidSet others) ∧
    (uids = [] → compressUidSet uids = "" ∧ uidSetString uids = "") := by
  refine ⟨?_, fun others => compressUidSet_congr, ?_⟩
  · intro hne
    obtain ⟨hseparated, hcovers⟩ := separated_runsOf uids
    refine ⟨runsOf uids, hseparated, readSequenceSet_compressUidSet hne, ?_,
      (plainRuns uids).map runItem, readSequenceSet_uidSetString hne, ?_⟩
    · intro largest n
      rw [denotes_runs, hcovers]
    · intro largest n
      rw [denotes_runs, covers_plainRuns]
  · rintro rfl
    exact encoders_nil

theorem uidSets_denote_last_two :
    ∃ runs, Separated runs ∧
      readSequenceSet (compressUidSet
        [⟨4294967295, by decide, by decide⟩, ⟨4294967294, by decide, by decide⟩]).toList =
        some (runs.map runItem) ∧
      (∀ largest n, Denotes largest (runs.map runItem) n ↔ n ∈ [4294967295, 4294967294]) ∧
      ∃ plain, readSequenceSet (uidSetString
          [⟨4294967295, by decide, by decide⟩, ⟨4294967294, by decide, by decide⟩]).toList =
          some plain ∧
        ∀ largest n, Denotes largest plain n ↔ n ∈ [4294967295, 4294967294] :=
  (uidSets_denote [⟨4294967295, by decide, by decide⟩, ⟨4294967294, by decide, by decide⟩]).1
    (List.cons_ne_nil _ _)

/-- A sequence set has an element; the text of the empty list has none. -/
theorem not_uidSet_denotes_nil :
    ¬∀ uids : List Uid, ∃ items, readSequenceSet (compressUidSet uids).toList = some items ∧
      ∀ largest n, Denotes largest items n ↔ n ∈ uids.map Uid.get := by
  intro h
  obtain ⟨items, hread, _⟩ := h []
  rw [encoders_nil.1] at hread
  rw [String.toList_empty, readSequenceSet_nil] at hread
  simp at hread

end RustyImap.UidSets

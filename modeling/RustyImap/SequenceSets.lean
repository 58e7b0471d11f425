import Mathlib.Algebra.Group.Nat.Defs
import RustyImap.OrderedRuns
import RustyImap.SeparatedItems

/-!
# Sequence sets

The part of the formal syntax of IMAP4rev1 (RFC 3501, section 9) that a set of
message numbers is written in, and what it denotes:

    sequence-set = (seq-number / seq-range) *("," sequence-set)
    seq-range    = seq-number ":" seq-number
    seq-number   = nz-number / "*"
    nz-number    = digit-nz *DIGIT          ; 0 < n < 4,294,967,296

`*` is the largest number in use, and the two ends of a range may stand in either
order.
-/

namespace RustyImap.SequenceSets

open OrderedRuns ReadLists SeparatedItems

/-! ## The grammar -/

inductive SeqNumber where
  | number (n : Nat)
  | largest
deriving DecidableEq, Repr

inductive SeqItem where
  | single (a : SeqNumber)
  | range (a b : SeqNumber)
deriving DecidableEq, Repr

def readNzNumber (text : List Char) : Option Nat :=
  let n := Nat.ofDigitChars 10 text 0
  if text.all Char.isDigit && text.head?.any (· != '0') && Nat.blt n (2 ^ 32) then some n else none

def readSeqNumber (text : List Char) : Option SeqNumber :=
  if text = ['*'] then some .largest else (readNzNumber text).map .number

def readSeqItem (text : List Char) : Option SeqItem :=
  match text.splitOn ':' with
  | [a] => (readSeqNumber a).map .single
  | [a, b] => do
      let a ← readSeqNumber a
      let b ← readSeqNumber b
      some (.range a b)
  | _ => none

def readSequenceSet (text : List Char) : Option (List SeqItem) := readItems ',' readSeqItem text

/-! ## The numbers of a set -/

def SeqNumber.value (largest : Nat) : SeqNumber → Nat
  | .number n => n
  | .largest => largest

def SeqItem.Denotes (largest : Nat) : SeqItem → Nat → Prop
  | .single a, n => n = a.value largest
  | .range a b, n =>
      min (a.value largest) (b.value largest) ≤ n ∧ n ≤ max (a.value largest) (b.value largest)

def Denotes (largest : Nat) (items : List SeqItem) (n : Nat) : Prop :=
  ∃ item ∈ items, item.Denotes largest n

/-! ## Runs as items -/

def runItem (r : Run Nat) : SeqItem :=
  if r.start = r.stop then .single (.number r.start)
  else .range (.number r.start) (.number r.stop)

def runText (r : Run Nat) : List Char :=
  if r.start = r.stop then Nat.toDigits 10 r.start
  else Nat.toDigits 10 r.start ++ ':' :: Nat.toDigits 10 r.stop

theorem denotes_runItem {largest n : Nat} (r : Run Nat) :
    (runItem r).Denotes largest n ↔ r.Contains n := by
  have hle := r.start_le
  unfold runItem
  split
  · next heq =>
    change n = r.start ↔ r.start ≤ n ∧ n ≤ r.stop
    omega
  · change min r.start r.stop ≤ n ∧ n ≤ max r.start r.stop ↔ r.start ≤ n ∧ n ≤ r.stop
    omega

/-- **Runs denote what they cover**, whatever the largest number in use is. -/
theorem denotes_runs {largest n : Nat} (runs : List (Run Nat)) :
    Denotes largest (runs.map runItem) n ↔ Covers runs n := by
  simp [Denotes, Covers, denotes_runItem]

/-! ## Reading what is written -/

theorem not_mem_toDigits {c : Char} (hc : c.isDigit = false) (n : Nat) : c ∉ Nat.toDigits 10 n := by
  intro hmem
  have hdigit : c.isDigit = true := Nat.isDigit_of_mem_toDigits (by decide) (by decide) hmem
  rw [hc] at hdigit
  exact Bool.false_ne_true hdigit

/-- A number is written without a zero in front. -/
theorem head_toDigits {n : Nat} (h : 0 < n) :
    (Nat.toDigits 10 n).head?.any (· != '0') = true := by
  induction n using Nat.strongRecOn with
  | ind n ih =>
      rw [Nat.toDigits_eq_if (by decide)]
      split
      · next hsmall =>
        have hdigit : n.digitChar ≠ '0' := by
          intro hzero
          have hvalue := Nat.ofDigitChars_ten_toDigits (n := n)
          rw [Nat.toDigits_of_lt_base hsmall, hzero] at hvalue
          exact absurd hvalue (Nat.ne_of_lt h)
        simpa using hdigit
      · next hlarge =>
        rw [List.head?_append_of_ne_nil _ Nat.toDigits_ne_nil]
        exact ih (n / 10) (by omega) (by omega)

theorem readNzNumber_toDigits {n : Nat} (hpos : 0 < n) (hlt : n < 2 ^ 32) :
    readNzNumber (Nat.toDigits 10 n) = some n := by
  have hall : (Nat.toDigits 10 n).all Char.isDigit = true := by
    rw [List.all_eq_true]
    intro c hc
    exact Nat.isDigit_of_mem_toDigits (by decide) (by decide) hc
  have hbound : Nat.blt n (2 ^ 32) = true := Nat.blt_eq.mpr hlt
  unfold readNzNumber
  rw [Nat.ofDigitChars_ten_toDigits, hall, head_toDigits hpos]
  exact if_pos hbound

theorem readSeqNumber_toDigits {n : Nat} (hpos : 0 < n) (hlt : n < 2 ^ 32) :
    readSeqNumber (Nat.toDigits 10 n) = some (.number n) := by
  have hstar : Nat.toDigits 10 n ≠ ['*'] := by
    intro heq
    exact not_mem_toDigits (c := '*') (by decide) n (by rw [heq]; simp)
  rw [readSeqNumber, if_neg hstar, readNzNumber_toDigits hpos hlt]
  rfl

theorem readSeqItem_runText {r : Run Nat} (hpos : 0 < r.start) (hlt : r.stop < 2 ^ 32) :
    readSeqItem (runText r) = some (runItem r) := by
  have hle := r.start_le
  have hstart := readSeqNumber_toDigits hpos (by omega)
  have hstop := readSeqNumber_toDigits (by omega) hlt
  have hcolon : ∀ n, ':' ∉ Nat.toDigits 10 n := not_mem_toDigits (by decide)
  unfold readSeqItem runText runItem
  by_cases heq : r.start = r.stop
  · rw [if_pos heq, if_pos heq, List.splitOn_eq_singleton (hcolon _)]
    simp only [hstart]
    rfl
  · rw [if_neg heq, if_neg heq, List.splitOn_append_cons_self_of_not_mem (hcolon _),
      List.splitOn_eq_singleton (hcolon _)]
    simp only [hstart, hstop]
    rfl

theorem comma_not_mem_runText (r : Run Nat) : ',' ∉ runText r := by
  have hcomma : ∀ n, ',' ∉ Nat.toDigits 10 n := not_mem_toDigits (by decide)
  unfold runText
  split
  · exact hcomma _
  · intro hmem
    rcases List.mem_append.mp hmem with hmem | hmem
    · exact hcomma _ hmem
    · rcases List.mem_cons.mp hmem with heq | hmem
      · exact absurd heq (by decide)
      · exact hcomma _ hmem

theorem runText_ne_nil (r : Run Nat) : runText r ≠ [] := by
  unfold runText
  split
  · exact Nat.toDigits_ne_nil
  · simp

/-- **Runs between commas are read back.** -/
theorem readSequenceSet_runs {runs : List (Run Nat)} (hne : runs ≠ [])
    (hbounds : ∀ r ∈ runs, 0 < r.start ∧ r.stop < 2 ^ 32) :
    readSequenceSet (joined ',' (runs.map runText)) = some (runs.map runItem) := by
  unfold readSequenceSet
  rw [readItems_joined (by simpa using hne), mapM_map_eq_some_map_iff]
  · intro r hr
    exact readSeqItem_runText (hbounds r hr).1 (hbounds r hr).2
  · rw [List.forall_mem_map]
    exact fun r _ => comma_not_mem_runText r

/-- The set needs an element. -/
theorem readSequenceSet_nil : readSequenceSet [] = none := by
  decide

end RustyImap.SequenceSets

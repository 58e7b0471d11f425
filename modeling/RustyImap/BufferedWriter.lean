import Mathlib.Data.List.Basic

/-!
# A buffered writer over a sink that may fail

`BufWriter` of the Rust standard library over an append-only sink.  One call of
the sink may take a part of the slice, ask to be called again or fail; a list of
`SinkWrite`s is what the next calls do, and the sink takes whole slices once the
list is used up.

Every operation yields the elements that have reached the sink, the buffer left
behind, whether it succeeded, and the calls not made yet.  What reached the sink
followed by the buffer is then the stream that the writer has accepted:
`writeAll_of_ok` and `writeAll_of_not_ok` say what an operation adds to it.  An
element list that bypasses the buffer and is cut short (`directCut`) is the only
way to leave a part of it in the stream.
-/

namespace RustyImap.BufferedWriter

variable {α : Type*}

/-- What one call `write` of the sink does with a non-empty slice. -/
inductive SinkWrite where
  | accept (n : Nat)     -- `Ok(n)`, capped by the slice
  | interrupted          -- `ErrorKind::Interrupted`
  | fail                 -- any other error
deriving DecidableEq, Repr

structure Pushed where
  count : Nat
  ok : Bool
  rest : List SinkWrite
deriving DecidableEq, Repr

/-- The loop over `write` that `write_all` and `flush_buf` share, on a slice of
    `len` elements. -/
def push (len : Nat) : List SinkWrite → Pushed
  | [] => ⟨len, true, []⟩
  | call :: rest =>
      if len = 0 then ⟨0, true, call :: rest⟩
      else
        match call with
        | .interrupted => push len rest
        | .fail => ⟨0, false, rest⟩
        | .accept n =>
            -- `Ok(0)` is `ErrorKind::WriteZero`
            if n = 0 then ⟨0, false, rest⟩
            else if len ≤ n then ⟨len, true, rest⟩
            else
              let pushed := push (len - n) rest
              { pushed with count := n + pushed.count }

theorem push_count (len : Nat) (calls : List SinkWrite) :
    (push len calls).count ≤ len ∧
      ((push len calls).ok = true ↔ (push len calls).count = len) := by
  induction calls generalizing len with
  | nil => simp [push]
  | cons call rest ih =>
      by_cases hlen : len = 0
      · simp [push, hlen]
      · cases call with
        | interrupted =>
            simp only [push, hlen, if_false]
            exact ih len
        | fail =>
            simp only [push, hlen, if_false, Nat.zero_le, Bool.false_eq_true, false_iff, true_and]
            omega
        | accept n =>
            by_cases hn : n = 0
            · simp only [push, hlen, hn, if_true, if_false, Nat.zero_le, Bool.false_eq_true,
                false_iff, true_and]
              omega
            · by_cases hle : len ≤ n
              · simp [push, hlen, hn, hle]
              · obtain ⟨hcount, hok⟩ := ih (len - n)
                simp only [push, hlen, hn, hle, if_false]
                refine ⟨by omega, ?_⟩
                rw [hok]
                omega

theorem push_count_le (len : Nat) (calls : List SinkWrite) : (push len calls).count ≤ len :=
  (push_count len calls).1

theorem push_ok_iff {len : Nat} {calls : List SinkWrite} :
    (push len calls).ok = true ↔ (push len calls).count = len :=
  (push_count len calls).2

structure Outcome (α : Type*) where
  out : List α              -- what has reached the sink
  buf : List α              -- what the buffer holds afterwards
  ok : Bool
  rest : List SinkWrite     -- the calls of the sink still to come
deriving DecidableEq, Repr

/-- `BufWriter::flush_buf`: a failing flush keeps what the sink has not taken. -/
def flushBuf (buf : List α) (calls : List SinkWrite) : Outcome α :=
  let pushed := push buf.length calls
  ⟨buf.take pushed.count, buf.drop pushed.count, pushed.ok, pushed.rest⟩

/-- The flush that `write_all_cold` begins with. -/
def makeRoom (capacity : Nat) (buf : List α) (len : Nat) (calls : List SinkWrite) : Outcome α :=
  if capacity - buf.length < len then flushBuf buf calls else ⟨[], buf, true, calls⟩

/-- `BufWriter::write_all` on a buffer of the given capacity. -/
def writeAll (capacity : Nat) (buf data : List α) (calls : List SinkWrite) : Outcome α :=
  if data.length < capacity - buf.length then ⟨[], buf ++ data, true, calls⟩
  else
    let room := makeRoom capacity buf data.length calls
    if room.ok then
      if capacity ≤ data.length then
        let pushed := push data.length room.rest
        { room with
          out := room.out ++ data.take pushed.count, ok := pushed.ok, rest := pushed.rest }
      else { room with buf := room.buf ++ data }
    else room

/-- Data too long for the buffer, of which the sink takes a part and then fails. -/
def directCut (capacity : Nat) (buf data : List α) (calls : List SinkWrite) : Bool :=
  let room := makeRoom capacity buf data.length calls
  let count := (push data.length room.rest).count
  room.ok && decide (capacity ≤ data.length) && decide (0 < count) && decide (count < data.length)

/-! ## What reaches the sink -/

@[simp] theorem flushBuf_stream (buf : List α) (calls : List SinkWrite) :
    (flushBuf buf calls).out ++ (flushBuf buf calls).buf = buf := by
  simp [flushBuf]

theorem flushBuf_ok_iff {buf : List α} {calls : List SinkWrite} :
    (flushBuf buf calls).ok = true ↔ (flushBuf buf calls).buf = [] := by
  have hle := push_count_le buf.length calls
  simp only [flushBuf, push_ok_iff, List.drop_eq_nil_iff]
  omega

theorem flushBuf_nil (calls : List SinkWrite) :
    flushBuf ([] : List α) calls = ⟨[], [], true, calls⟩ := by
  cases calls with
  | nil => rfl
  | cons call rest => simp [flushBuf, push]

theorem flushBuf_no_calls (buf : List α) : flushBuf buf [] = ⟨buf, [], true, []⟩ := by
  simp [flushBuf, push]

@[simp] theorem makeRoom_nil (capacity len : Nat) (calls : List SinkWrite) :
    makeRoom capacity ([] : List α) len calls = ⟨[], [], true, calls⟩ := by
  rw [makeRoom, flushBuf_nil, ite_self]

/-- From an empty buffer, data is buffered or goes to the sink directly. -/
theorem writeAll_nil (capacity : Nat) (data : List α) (calls : List SinkWrite) :
    writeAll capacity [] data calls =
      if data.length < capacity then ⟨[], data, true, calls⟩
      else ⟨data.take (push data.length calls).count, [], (push data.length calls).ok,
        (push data.length calls).rest⟩ := by
  rw [writeAll, List.length_nil, Nat.sub_zero]
  by_cases hfits : data.length < capacity
  · rw [if_pos hfits, if_pos hfits]
    rfl
  · have hlong : capacity ≤ data.length := by omega
    rw [if_neg hfits, if_neg hfits]
    simp [hlong]

theorem makeRoom_stream (capacity : Nat) (buf : List α) (len : Nat) (calls : List SinkWrite) :
    (makeRoom capacity buf len calls).out ++ (makeRoom capacity buf len calls).buf = buf := by
  rw [makeRoom]
  split
  · exact flushBuf_stream buf calls
  · rfl

/-- Long data finds the buffer empty. -/
theorem makeRoom_buf_of_long {capacity : Nat} {buf : List α} {len : Nat}
    {calls : List SinkWrite} (hpos : 0 < capacity) (hlong : capacity ≤ len)
    (hok : (makeRoom capacity buf len calls).ok = true) :
    (makeRoom capacity buf len calls).buf = [] := by
  rw [makeRoom] at hok ⊢
  split at hok
  · rename_i hfull
    rw [if_pos hfull]
    exact flushBuf_ok_iff.mp hok
  · rename_i hroom
    rw [if_neg hroom]
    have hlen : buf.length = 0 := by omega
    exact List.length_eq_zero_iff.mp hlen

/-- **An accepted write adds the data to the stream.** -/
theorem writeAll_of_ok {capacity : Nat} {buf data : List α} {calls : List SinkWrite}
    (hpos : 0 < capacity) (hok : (writeAll capacity buf data calls).ok = true) :
    (writeAll capacity buf data calls).out ++ (writeAll capacity buf data calls).buf =
      buf ++ data := by
  have hstream := makeRoom_stream capacity buf data.length calls
  unfold writeAll at hok ⊢
  by_cases hfits : data.length < capacity - buf.length
  · rw [if_pos hfits]
    rfl
  · rw [if_neg hfits] at hok ⊢
    by_cases hroom : (makeRoom capacity buf data.length calls).ok = true
    · simp only [hroom, if_true] at hok ⊢
      by_cases hlong : capacity ≤ data.length
      · simp only [hlong, if_true] at hok ⊢
        have hbuf := makeRoom_buf_of_long hpos hlong hroom
        rw [hbuf, List.append_nil] at hstream ⊢
        rw [push_ok_iff.mp hok, List.take_length, hstream]
      · simp only [hlong, if_false]
        rw [← List.append_assoc, hstream]
    · simp only [hroom] at hok
      exact absurd hok hroom

/-- **A refused write leaves the stream as it was**, unless the data bypassed the
    buffer and was cut. -/
theorem writeAll_of_not_ok {capacity : Nat} {buf data : List α} {calls : List SinkWrite}
    (hok : (writeAll capacity buf data calls).ok = false)
    (hcut : directCut capacity buf data calls = false) :
    (writeAll capacity buf data calls).out ++ (writeAll capacity buf data calls).buf = buf := by
  have hstream := makeRoom_stream capacity buf data.length calls
  unfold writeAll at hok ⊢
  by_cases hfits : data.length < capacity - buf.length
  · rw [if_pos hfits] at hok
    cases hok
  · rw [if_neg hfits] at hok ⊢
    by_cases hroom : (makeRoom capacity buf data.length calls).ok = true
    · simp only [hroom, if_true] at hok ⊢
      by_cases hlong : capacity ≤ data.length
      · simp only [hlong, if_true] at hok ⊢
        have hle := push_count_le data.length (makeRoom capacity buf data.length calls).rest
        have hne : (push data.length (makeRoom capacity buf data.length calls).rest).count ≠
            data.length := by
          intro heq
          rw [push_ok_iff.mpr heq] at hok
          cases hok
        -- neither cut nor whole: the sink has taken nothing
        have hzero : (push data.length (makeRoom capacity buf data.length calls).rest).count =
            0 := by
          simp only [directCut, hroom, hlong, decide_true, Bool.true_and, Bool.and_eq_false_iff,
            decide_eq_false_iff_not] at hcut
          omega
        rw [hzero, List.take_zero, List.append_nil]
        exact hstream
      · simp [hlong] at hok
    · simp only [hroom]
      exact hstream

/-! ## A sink that does not fail -/

/-- The call does not end a write. -/
def SinkWrite.delivers : SinkWrite → Bool
  | .accept n => 0 < n
  | .interrupted => true
  | .fail => false

/-- Calls of a sink that takes all it is given, if not at once. -/
def Delivered (calls : List SinkWrite) : Prop := ∀ call ∈ calls, call.delivers = true

theorem push_of_delivered {calls : List SinkWrite} (h : Delivered calls) (len : Nat) :
    (push len calls).ok = true ∧ Delivered (push len calls).rest := by
  induction calls generalizing len with
  | nil => exact ⟨rfl, h⟩
  | cons call rest ih =>
      have hrest : Delivered rest := fun c hc => h c (List.mem_cons_of_mem call hc)
      have hcall : call.delivers = true := h call List.mem_cons_self
      by_cases hlen : len = 0
      · simp only [push, hlen, if_true]
        exact ⟨trivial, h⟩
      · cases call with
        | interrupted =>
            simp only [push, hlen, if_false]
            exact ih hrest len
        | fail => cases hcall
        | accept n =>
            have hn : n ≠ 0 := by
              have hpos : 0 < n := by simpa [SinkWrite.delivers] using hcall
              omega
            by_cases hle : len ≤ n
            · simp only [push, hlen, hn, hle, if_true, if_false]
              exact ⟨trivial, hrest⟩
            · simp only [push, hlen, hn, hle, if_false]
              exact ih hrest (len - n)

theorem flushBuf_of_delivered {calls : List SinkWrite} (h : Delivered calls) (buf : List α) :
    (flushBuf buf calls).ok = true ∧ Delivered (flushBuf buf calls).rest :=
  push_of_delivered h buf.length

theorem makeRoom_of_delivered {calls : List SinkWrite} (h : Delivered calls) (capacity : Nat)
    (buf : List α) (len : Nat) :
    (makeRoom capacity buf len calls).ok = true ∧
      Delivered (makeRoom capacity buf len calls).rest := by
  rw [makeRoom]
  split
  · exact flushBuf_of_delivered h buf
  · exact ⟨rfl, h⟩

theorem writeAll_of_delivered {calls : List SinkWrite} (h : Delivered calls) (capacity : Nat)
    (buf data : List α) :
    (writeAll capacity buf data calls).ok = true ∧
      Delivered (writeAll capacity buf data calls).rest := by
  obtain ⟨hroom, hrest⟩ := makeRoom_of_delivered h capacity buf data.length
  unfold writeAll
  by_cases hfits : data.length < capacity - buf.length
  · rw [if_pos hfits]
    exact ⟨rfl, h⟩
  · rw [if_neg hfits]
    by_cases hlong : capacity ≤ data.length
    · simp only [hroom, hlong, if_true]
      exact push_of_delivered hrest data.length
    · simp only [hroom, hlong, if_true, if_false]
      exact ⟨trivial, hrest⟩

end RustyImap.BufferedWriter

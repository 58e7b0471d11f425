import Mathlib.Data.List.Basic

/-!
# One output, several writers

A stream behind a lock.  A writer takes the lock for a frame, writes it in chunks of any
size, and lets the lock go when the frame is out; or it is cut in the middle of it.

What is in the stream is told by its turns: who held the lock, for which frame, and how
much of it came out.  A turn whose frame came out is whole; where all turns are whole the
stream is the frames, one after the other, whoever wrote them.
-/

namespace RustyImap.SharedOutput

structure Turn (ι β : Type*) where
  owner : ι
  frame : List β       -- what was to be written
  written : List β     -- what was

structure Output (ι β : Type*) where
  stream : List β
  past : List (Turn ι β)
  current : Option (Turn ι β)    -- the turn of the writer that holds the lock

variable {ι β : Type*}

def Turn.Whole (t : Turn ι β) : Prop := t.written = t.frame

namespace Output

def empty : Output ι β := ⟨[], [], none⟩

def turns (o : Output ι β) : List (Turn ι β) := o.past ++ o.current.toList

def acquire (o : Output ι β) (w : ι) (frame : List β) : Option (Output ι β) :=
  match o.current with
  | some _ => none
  | none => some { o with current := some ⟨w, frame, []⟩ }

variable {o o' : Output ι β} {w : ι} {frame : List β} {n : Nat}

theorem acquire_eq_some (h : o.acquire w frame = some o') :
    o.current = none ∧ o' = { o with current := some ⟨w, frame, []⟩ } := by
  unfold acquire at h
  split at h
  · cases h
  · rename_i hcurrent
    cases h
    exact ⟨hcurrent, rfl⟩

/-! ## The stream is its turns -/

structure Consistent (o : Output ι β) : Prop where
  stream : o.stream = (o.turns.map Turn.written).flatten
  begun : ∀ t ∈ o.turns, t.written <+: t.frame

theorem Consistent.empty : (Output.empty : Output ι β).Consistent := ⟨rfl, nofun⟩

theorem Consistent.of_turns (h : o.Consistent) (hstream : o'.stream = o.stream)
    (hturns : o'.turns = o.turns) : o'.Consistent := by
  refine ⟨?_, ?_⟩
  · rw [hstream, hturns, h.stream]
  · rw [hturns]
    exact h.begun

theorem Consistent.acquire (h : o.Consistent) (hacquire : o.acquire w frame = some o') :
    o'.Consistent := by
  obtain ⟨hcurrent, rfl⟩ := acquire_eq_some hacquire
  have hturns : ({ o with current := some ⟨w, frame, []⟩ } : Output ι β).turns =
      o.turns ++ [⟨w, frame, []⟩] := by
    simp [turns, hcurrent]
  refine ⟨?_, ?_⟩
  · rw [hturns, List.map_append, List.flatten_append]
    simpa using h.stream
  · rw [hturns]
    intro t ht
    rcases List.mem_append.mp ht with ht | ht
    · exact h.begun t ht
    · rw [List.mem_singleton.mp ht]
      exact List.nil_prefix

/-- A turn that gives the lock back is whole. -/
theorem Consistent.whole_of_length {t : Turn ι β} (h : o.Consistent) (ht : t ∈ o.turns)
    (hlength : t.frame.length ≤ t.written.length) : t.Whole :=
  (h.begun t ht).eq_of_length_le hlength

/-- **Whole frames, one after the other.** -/
theorem Consistent.stream_of_whole (h : o.Consistent) (hwhole : ∀ t ∈ o.turns, t.Whole) :
    o.stream = (o.turns.map Turn.frame).flatten := by
  rw [h.stream, List.map_congr_left hwhole]

/-! ## Torn frames -/

/-- A frame that is not whole is the last of its writer, which is gone. -/
def TornLast (gone : ι → Prop) (o : Output ι β) : Prop :=
  ∀ before t after, o.past = before ++ t :: after → ¬ t.Whole →
    gone t.owner ∧ ∀ u ∈ after ++ o.current.toList, u.owner ≠ t.owner

variable {gone gone' : ι → Prop}

theorem TornLast.empty : TornLast gone (Output.empty : Output ι β) := by
  intro before t after h
  simp [Output.empty] at h

theorem TornLast.mono (h : TornLast gone o) (hgone : ∀ v, gone v → gone' v) :
    TornLast gone' o := by
  intro before t after hpast htorn
  obtain ⟨howner, hlast⟩ := h before t after hpast htorn
  exact ⟨hgone _ howner, hlast⟩

theorem TornLast.acquire (h : TornLast gone o) (hw : ¬ gone w)
    (hacquire : o.acquire w frame = some o') : TornLast gone o' := by
  obtain ⟨hcurrent, rfl⟩ := acquire_eq_some hacquire
  intro before t after hpast htorn
  obtain ⟨howner, hlast⟩ := h before t after hpast htorn
  refine ⟨howner, ?_⟩
  intro u hu heq
  rcases List.mem_append.mp hu with hu | hu
  · exact hlast u (by simp [hu]) heq
  · obtain rfl : u = ⟨w, frame, []⟩ := by simpa using hu
    have hw' : w = t.owner := heq
    exact hw (hw' ▸ howner)

/-- The turn of the lock holder joins the past. -/
theorem TornLast.retire {c : Turn ι β} (h : TornLast gone o) (hcurrent : o.current = some c)
    (hgone : ∀ v, gone v → gone' v) (hc : c.Whole ∨ gone' c.owner) :
    TornLast gone' { o with past := o.past ++ [c], current := none } := by
  intro before t after hpast htorn
  have hpast : o.past ++ [c] = before ++ t :: after := hpast
  rcases List.eq_nil_or_concat after with rfl | ⟨front, last, rfl⟩
  · obtain ⟨-, rfl⟩ := List.append_inj' hpast rfl |>.imp id List.singleton_inj.mp
    rcases hc with hwhole | hgone'
    · exact absurd hwhole htorn
    · exact ⟨hgone', by simp⟩
  · rw [List.concat_eq_append, ← List.cons_append, ← List.append_assoc] at hpast
    obtain ⟨hfront, hlast⟩ := List.append_inj' hpast rfl
    obtain rfl : c = last := List.singleton_inj.mp hlast
    obtain ⟨howner, hothers⟩ := h before t front hfront htorn
    refine ⟨hgone _ howner, ?_⟩
    intro u hu
    exact hothers u (by simpa [hcurrent] using hu)

/-! ## The operations of the writer that holds the lock -/

variable [DecidableEq ι]

/-- The turn of `w`, while it holds the lock. -/
def held? (o : Output ι β) (w : ι) : Option (Turn ι β) := o.current.filter (·.owner = w)

/-- The frames that `w` has begun to write. -/
def framesOf (o : Output ι β) (w : ι) : List (List β) :=
  (o.turns.filter (·.owner = w)).map Turn.frame

/-- The next `n` elements of the frame. -/
def push (o : Output ι β) (w : ι) (n : Nat) : Option (Output ι β) :=
  (o.held? w).bind fun t =>
    let chunk := (t.frame.drop t.written.length).take n
    if chunk = [] then none
    else some
      { o with
        stream := o.stream ++ chunk
        current := some { t with written := t.written ++ chunk } }

def release (o : Output ι β) (w : ι) : Option (Output ι β) :=
  (o.held? w).bind fun t =>
    if t.frame.length ≤ t.written.length then
      some { o with past := o.past ++ [t], current := none }
    else none

/-- The writer `w` is gone, and with it its hold of the lock. -/
def cut (o : Output ι β) (w : ι) : Output ι β :=
  match o.held? w with
  | some t => { o with past := o.past ++ [t], current := none }
  | none => o

theorem held?_eq_some {t : Turn ι β} :
    o.held? w = some t ↔ o.current = some t ∧ t.owner = w := by
  simp [held?, Option.filter_eq_some_iff]

theorem held?_eq_none_of_ne {t : Turn ι β} {v : ι} (hcurrent : o.current = some t)
    (hv : t.owner ≠ v) : o.held? v = none := by
  simp [held?, hcurrent, Option.filter, hv]

theorem push_eq_some (h : o.push w n = some o') :
    ∃ t chunk, o.current = some t ∧ t.owner = w ∧ chunk ≠ [] ∧
      chunk <+: t.frame.drop t.written.length ∧
      o' = { o with
        stream := o.stream ++ chunk
        current := some { t with written := t.written ++ chunk } } := by
  obtain ⟨t, ht, h⟩ := Option.bind_eq_some_iff.mp h
  obtain ⟨hcurrent, howner⟩ := held?_eq_some.mp ht
  simp only at h
  split at h
  · cases h
  · rename_i hchunk
    cases h
    exact ⟨t, _, hcurrent, howner, hchunk, List.take_prefix _ _, rfl⟩

theorem release_eq_some (h : o.release w = some o') :
    ∃ t, o.current = some t ∧ t.owner = w ∧ t.frame.length ≤ t.written.length ∧
      o' = { o with past := o.past ++ [t], current := none } := by
  obtain ⟨t, ht, h⟩ := Option.bind_eq_some_iff.mp h
  obtain ⟨hcurrent, howner⟩ := held?_eq_some.mp ht
  split at h
  · rename_i hlength
    cases h
    exact ⟨t, hcurrent, howner, hlength, rfl⟩
  · cases h

/-- A cut ends the turn of its writer, or finds none. -/
theorem cut_cases (o : Output ι β) (w : ι) :
    (∃ t, o.current = some t ∧ t.owner = w ∧
      o.cut w = { o with past := o.past ++ [t], current := none }) ∨
    ((∀ t, o.current = some t → t.owner ≠ w) ∧ o.cut w = o) := by
  unfold cut
  split
  · rename_i t ht
    obtain ⟨hcurrent, howner⟩ := held?_eq_some.mp ht
    exact .inl ⟨t, hcurrent, howner, rfl⟩
  · rename_i hnone
    refine .inr ⟨?_, rfl⟩
    intro t hcurrent howner
    rw [held?_eq_some.mpr ⟨hcurrent, howner⟩] at hnone
    cases hnone

theorem held?_cut (o : Output ι β) (w v : ι) :
    (o.cut w).held? v = if w = v then none else o.held? v := by
  rcases cut_cases o w with ⟨t, hcurrent, howner, heq⟩ | ⟨hnone, heq⟩
  · rw [heq]
    by_cases hv : w = v
    · simp [held?, hv]
    · rw [if_neg hv, held?_eq_none_of_ne hcurrent (howner ▸ hv)]
      rfl
  · by_cases hv : w = v
    · have hnot : o.held? v = none := by
        rw [Option.eq_none_iff_forall_ne_some]
        intro t ht
        obtain ⟨hcurrent, howner⟩ := held?_eq_some.mp ht
        exact hnone t hcurrent (howner.trans hv.symm)
      rw [heq, if_pos hv, hnot]
    · rw [heq, if_neg hv]

theorem held?_of_acquire (h : o.acquire w frame = some o') (v : ι) :
    o.held? v = none ∧ (o'.held? v).isSome = decide (w = v) := by
  obtain ⟨hcurrent, rfl⟩ := acquire_eq_some h
  by_cases hv : w = v
  · simp [held?, hcurrent, hv]
  · simp [held?, hcurrent, hv]

theorem held?_of_push (h : o.push w n = some o') (v : ι) :
    (o'.held? v).isSome = (o.held? v).isSome := by
  obtain ⟨t, chunk, hcurrent, -, -, -, rfl⟩ := push_eq_some h
  by_cases hv : t.owner = v
  · simp [held?, hcurrent, hv]
  · simp [held?, hcurrent, hv]

theorem held?_of_release (h : o.release w = some o') (v : ι) :
    (o.held? v).isSome = decide (w = v) ∧ o'.held? v = none := by
  obtain ⟨t, hcurrent, howner, -, rfl⟩ := release_eq_some h
  by_cases hv : w = v
  · simp [held?, hcurrent, howner, hv]
  · simp [held?, hcurrent, howner, hv]

@[simp] theorem stream_cut : (o.cut w).stream = o.stream := by
  unfold cut
  split <;> rfl

theorem turns_release (h : o.release w = some o') : o'.turns = o.turns := by
  obtain ⟨t, hcurrent, -, -, rfl⟩ := release_eq_some h
  simp [turns, hcurrent]

@[simp] theorem turns_cut : (o.cut w).turns = o.turns := by
  rcases cut_cases o w with ⟨t, hcurrent, -, heq⟩ | ⟨-, heq⟩
  · simp [turns, heq, hcurrent]
  · rw [heq]

theorem Consistent.push (h : o.Consistent) (hpush : o.push w n = some o') : o'.Consistent := by
  obtain ⟨t, chunk, hcurrent, -, -, hchunk, rfl⟩ := push_eq_some hpush
  have hturns : o.turns = o.past ++ [t] := by simp [turns, hcurrent]
  refine ⟨?_, ?_⟩
  · have hstream := h.stream
    rw [hturns] at hstream
    simp [turns, hstream]
  · intro u hu
    rcases List.mem_append.mp hu with hu | hu
    · exact h.begun u (by simp [turns, hu])
    · obtain rfl : u = { t with written := t.written ++ chunk } := by simpa using hu
      obtain ⟨rest, hrest⟩ := h.begun t (by simp [hturns])
      obtain ⟨tail, htail⟩ := hchunk
      rw [← hrest, List.drop_left] at htail
      refine ⟨tail, ?_⟩
      rw [List.append_assoc, htail, hrest]

theorem Consistent.release (h : o.Consistent) (hrelease : o.release w = some o') :
    o'.Consistent := by
  refine h.of_turns ?_ (turns_release hrelease)
  obtain ⟨t, -, -, -, rfl⟩ := release_eq_some hrelease
  rfl

theorem Consistent.cut (h : o.Consistent) (w : ι) : (o.cut w).Consistent :=
  h.of_turns stream_cut turns_cut

theorem TornLast.push (h : TornLast gone o) (hpush : o.push w n = some o') :
    TornLast gone o' := by
  obtain ⟨c, chunk, hcurrent, -, -, -, rfl⟩ := push_eq_some hpush
  intro before t after hpast htorn
  obtain ⟨howner, hlast⟩ := h before t after hpast htorn
  refine ⟨howner, ?_⟩
  intro u hu
  rcases List.mem_append.mp hu with hu | hu
  · exact hlast u (by simp [hu])
  · obtain rfl : u = { c with written := c.written ++ chunk } := by simpa using hu
    exact hlast c (by simp [hcurrent])

theorem TornLast.release (h : TornLast gone o) (hcons : o.Consistent)
    (hrelease : o.release w = some o') : TornLast gone o' := by
  obtain ⟨c, hcurrent, -, hlength, rfl⟩ := release_eq_some hrelease
  have hwhole : c.Whole := hcons.whole_of_length (by simp [turns, hcurrent]) hlength
  exact h.retire hcurrent (fun _ hv => hv) (.inl hwhole)

theorem TornLast.cut (h : TornLast gone o) (hgone : ∀ v, gone v → gone' v) (hw : gone' w) :
    TornLast gone' (o.cut w) := by
  rcases cut_cases o w with ⟨c, hcurrent, howner, heq⟩ | ⟨-, heq⟩
  · rw [heq]
    exact h.retire hcurrent hgone (.inr (howner ▸ hw))
  · rw [heq]
    exact h.mono hgone

/-! ## The frames of a writer -/

theorem framesOf_eq_of_turns (v : ι) (h : o'.turns = o.turns) :
    o'.framesOf v = o.framesOf v := by
  rw [framesOf, h, framesOf]

theorem framesOf_acquire (h : o.acquire w frame = some o') (v : ι) :
    o'.framesOf v = o.framesOf v ++ if w = v then [frame] else [] := by
  obtain ⟨hcurrent, rfl⟩ := acquire_eq_some h
  by_cases hv : w = v
  · simp [framesOf, turns, hcurrent, hv]
  · simp [framesOf, turns, hcurrent, hv]

theorem framesOf_push (h : o.push w n = some o') (v : ι) : o'.framesOf v = o.framesOf v := by
  obtain ⟨t, chunk, hcurrent, -, -, -, rfl⟩ := push_eq_some h
  by_cases hv : t.owner = v
  · simp [framesOf, turns, hcurrent, hv]
  · simp [framesOf, turns, hcurrent, hv]

end Output

end RustyImap.SharedOutput

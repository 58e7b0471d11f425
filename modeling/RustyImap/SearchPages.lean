import RustyImap.CursorWalk
import RustyImap.ImapOps

/-!
# Pages of a search (`rimap-server/src/tools/retrieval/search.rs`)

`paginate_uids` with the clamp of `limit` that both callers (`handle` and
`handle_thread`) put before it.  A `usize` is 64 bits wide, and a list of UIDs
is never longer than a `usize` counts.

A client starts at offset 0 and passes each `next_offset` back; that walk is
`CursorWalk.follow`.  A `limit` of 0 is let through by the clamp, and then
`next_offset` is the offset of the request.
-/

namespace RustyImap.Search

open CursorWalk (follow)
open ImapOps (Uid)

def MAX_LIMIT : Nat := 100

def USIZE_MAX : Nat := 2 ^ 64 - 1

/-- The paging fields of `SearchInput`. -/
structure Paging where
  limit : Option Nat
  offset : Option Nat
  newestFirst : Option Bool
deriving DecidableEq, Repr

/-- What `paginate_uids` returns. -/
structure Page where
  uids : List Uid
  truncated : Bool
  nextOffset : Option Nat
deriving DecidableEq, Repr

/-- The UIDs in the order that pages are counted in. -/
def ordered (uids : List Uid) (newestFirst : Bool) : List Uid :=
  if newestFirst then uids.reverse else uids

def paginateUids (uids : List Uid) (offset limit : Nat) (newestFirst : Bool) : Page :=
  let uids := ordered uids newestFirst
  let total := uids.length
  let page := (uids.drop offset).take limit
  let consumed := min (offset + page.length) USIZE_MAX
  let truncated := decide (consumed < total)
  { uids := page
    truncated := truncated
    -- `u64::try_from` cannot fail on a 64-bit `usize`
    nextOffset := if truncated then some consumed else none }

def clampLimit (limit : Option Nat) : Nat := min (limit.getD MAX_LIMIT) MAX_LIMIT

/-- The page window of `handle`, once the server has answered with `uids`. -/
def pageWindow (input : Paging) (uids : List Uid) : Page :=
  paginateUids uids (input.offset.getD 0) (clampLimit input.limit)
    (input.newestFirst.getD false)

/-- One request of the walk: the page at `offset`, and the offset to pass next. -/
def request (input : Paging) (uids : List Uid) (offset : Nat) : List Uid × Option Nat :=
  let page := pageWindow { input with offset := some offset } uids
  (page.uids, page.nextOffset)

/-! ## One page -/

section OnePage

variable (input : Paging) (uids : List Uid)

theorem length_ordered (newestFirst : Bool) :
    (ordered uids newestFirst).length = uids.length := by
  unfold ordered
  split
  · exact List.length_reverse
  · rfl

theorem length_page (offset limit : Nat) (newestFirst : Bool) :
    (paginateUids uids offset limit newestFirst).uids.length =
      min limit (uids.length - offset) := by
  simp [paginateUids, length_ordered]

/-- The saturation is never seen: at or past the end nothing is left anyway. -/
theorem truncated_iff {uids : List Uid} (hlength : uids.length ≤ USIZE_MAX)
    (offset limit : Nat) (newestFirst : Bool) :
    (paginateUids uids offset limit newestFirst).truncated = true ↔
      offset + limit < uids.length := by
  have hpage : ((ordered uids newestFirst).drop offset |>.take limit).length =
      min limit (uids.length - offset) := length_page uids offset limit newestFirst
  simp only [paginateUids, hpage, length_ordered, decide_eq_true_eq]
  omega

theorem nextOffset_eq {uids : List Uid} (hlength : uids.length ≤ USIZE_MAX)
    (offset limit : Nat) (newestFirst : Bool) :
    (paginateUids uids offset limit newestFirst).nextOffset =
      if offset + limit < uids.length then some (offset + limit) else none := by
  have hpage : ((ordered uids newestFirst).drop offset |>.take limit).length =
      min limit (uids.length - offset) := length_page uids offset limit newestFirst
  simp only [paginateUids, hpage, length_ordered, decide_eq_true_eq]
  by_cases hmore : offset + limit < uids.length
  · rw [if_pos hmore, if_pos (by omega)]
    congr 1
    omega
  · rw [if_neg hmore, if_neg (by omega)]

theorem isSome_nextOffset (offset limit : Nat) (newestFirst : Bool) :
    (paginateUids uids offset limit newestFirst).nextOffset.isSome =
      (paginateUids uids offset limit newestFirst).truncated := by
  simp only [paginateUids]
  split <;> simp_all

end OnePage

/-! ## The walk over the pages -/

/-- A client that follows `next_offset` from 0 sees every UID once, in order, and
    is told at each page whether more is left. -/
structure PagesPartition (input : Paging) (uids : List Uid) : Prop where
  advances : ∀ offset ≤ USIZE_MAX, ∀ next,
    (pageWindow { input with offset := some offset } uids).nextOffset = some next →
      offset < next
  next_of_truncated : ∀ offset ≤ USIZE_MAX,
    (pageWindow { input with offset := some offset } uids).nextOffset.isSome =
      (pageWindow { input with offset := some offset } uids).truncated
  truncated_iff_left : ∀ offset ≤ USIZE_MAX,
    (pageWindow { input with offset := some offset } uids).truncated = true ↔
      (ordered uids (input.newestFirst.getD false)).drop
        (offset + (pageWindow { input with offset := some offset } uids).uids.length) ≠ []
  walk : ∃ fuel pages, follow (request input uids) fuel 0 = some pages ∧
    pages.flatten = ordered uids (input.newestFirst.getD false)

section Walk

variable {input : Paging} {uids : List Uid}

theorem request_snd (hlength : uids.length ≤ USIZE_MAX) (offset : Nat) :
    (request input uids offset).2 =
      if offset + clampLimit input.limit < uids.length then
        some (offset + clampLimit input.limit)
      else none :=
  nextOffset_eq hlength offset _ _

theorem request_fst (offset : Nat) :
    (request input uids offset).1 =
      ((ordered uids (input.newestFirst.getD false)).drop offset).take
        (clampLimit input.limit) := rfl

/-- The pages of a walk that ends are the whole list, whatever the limit. -/
theorem flatten_of_walk (hlength : uids.length ≤ USIZE_MAX) {fuel : Nat}
    {pages : List (List Uid)} (h : follow (request input uids) fuel 0 = some pages) :
    pages.flatten = ordered uids (input.newestFirst.getD false) := by
  have hlast : ∀ offset, (request input uids offset).2 = none →
      (request input uids offset).1 =
        (ordered uids (input.newestFirst.getD false)).drop offset := by
    intro offset hlast
    rw [request_snd hlength] at hlast
    rw [request_fst]
    refine List.take_of_length_le ?_
    rw [List.length_drop, length_ordered]
    by_contra hlong
    rw [if_pos (by omega)] at hlast
    cases hlast
  have hnext : ∀ offset next, (request input uids offset).2 = some next →
      (request input uids offset).1 ++
          (ordered uids (input.newestFirst.getD false)).drop next =
        (ordered uids (input.newestFirst.getD false)).drop offset := by
    intro offset next hnext
    rw [request_snd hlength] at hnext
    split at hnext
    · obtain rfl := Option.some.inj hnext
      rw [request_fst, ← List.drop_drop]
      exact List.take_append_drop _ _
    · cases hnext
  exact CursorWalk.flatten_of_follow hlast hnext h

/-- With a limit of at least one, each request brings the client nearer to the
    end. -/
theorem walk_ends (hlength : uids.length ≤ USIZE_MAX) (hlimit : clampLimit input.limit ≠ 0) :
    ∃ pages, follow (request input uids) (uids.length + 1) 0 = some pages := by
  refine CursorWalk.exists_follow_of_measure (fun offset => uids.length - offset) ?_ (by omega)
  intro offset next hnext
  rw [request_snd hlength] at hnext
  split at hnext
  · obtain rfl := Option.some.inj hnext
    omega
  · cases hnext

/-- With a limit of 0 and anything to show, the first page is requested forever. -/
theorem walk_stuck (hlimit : clampLimit input.limit = 0) (huids : uids ≠ [])
    (hlength : uids.length ≤ USIZE_MAX) (fuel : Nat) :
    follow (request input uids) fuel 0 = none := by
  refine CursorWalk.follow_eq_none_of_stuck ?_ fuel
  have hpos : 0 < uids.length := List.length_pos_iff.mpr huids
  rw [request_snd hlength, hlimit, if_pos (by omega)]

end Walk

/-- **Search pages partition the result** exactly when a page can hold anything
    or there is nothing to page. -/
theorem pagesPartition_iff (input : Paging) {uids : List Uid}
    (hlength : uids.length ≤ USIZE_MAX) :
    PagesPartition input uids ↔ (input.limit ≠ some 0 ∨ uids = []) := by
  have hlimit : clampLimit input.limit ≠ 0 ↔ input.limit ≠ some 0 := by
    unfold clampLimit MAX_LIMIT
    cases input.limit with
    | none => simp
    | some limit => simp
  constructor
  · intro h
    by_contra hnot
    rw [not_or, not_not] at hnot
    obtain ⟨hzero, huids⟩ := hnot
    obtain ⟨fuel, pages, hwalk, -⟩ := h.walk
    have hclamp : clampLimit input.limit = 0 := by
      rw [hzero]
      rfl
    rw [walk_stuck hclamp huids hlength fuel] at hwalk
    cases hwalk
  · intro hcond
    refine ⟨?_, ?_, ?_, ?_⟩
    · intro offset _ next hnext
      unfold pageWindow at hnext
      rw [nextOffset_eq hlength] at hnext
      split at hnext
      case isFalse => cases hnext
      case isTrue hmore =>
        obtain rfl := Option.some.inj hnext
        have hclamp : clampLimit input.limit ≠ 0 := by
          refine hlimit.mpr (hcond.resolve_right ?_)
          rintro rfl
          simp at hmore
        simp only [Option.getD_some]
        omega
    · intro offset _
      exact isSome_nextOffset uids _ _ _
    · intro offset _
      unfold pageWindow
      rw [truncated_iff hlength, length_page, Ne, List.drop_eq_nil_iff, length_ordered]
      simp only [Option.getD_some]
      omega
    · rcases hcond with hsome | rfl
      · obtain ⟨pages, hwalk⟩ := walk_ends hlength (hlimit.mpr hsome)
        exact ⟨_, pages, hwalk, flatten_of_walk hlength hwalk⟩
      · have hwalk : follow (request input []) 1 0 = some [[]] := by
          rw [CursorWalk.follow_of_last _ (by rw [request_snd hlength]; rfl)]
          simp [request_fst, ordered]
        exact ⟨1, _, hwalk, flatten_of_walk hlength hwalk⟩

theorem pagesPartition_iff_newest : PagesPartition ⟨some 2, none, some true⟩ [3, 5, 8] :=
  (pagesPartition_iff ⟨some 2, none, some true⟩ (by decide)).mpr (Or.inl (by decide))

/-- `limit: 0` on a folder with one match: `next_offset` is 0 again. -/
theorem limit_zero_not_advancing :
    ¬ ∀ (input : Paging) (uids : List Uid), uids.length ≤ USIZE_MAX →
      PagesPartition input uids := by
  intro h
  have hnext := (h ⟨some 0, none, none⟩ [7] (by decide)).advances 0 (by decide) 0 (by decide)
  exact absurd hnext (by decide)

end RustyImap.Search

import RustyImap.StyleParse

/-!
# Hidden text

`detect_hidden` numbers the elements below `body` in document order, `extract_text`
counts them again on its way (`rimap-content/src/html/hidden.rs`, `extract.rs`).  A
subtree that is skipped is one element to the second count and all of its elements to
the first.

`collectOf` is the list of the text nodes that the walk takes, `visibleTexts` the list
of those that it should take.
-/

namespace RustyImap.HtmlBody

open RustyImap.UnicodeFilter

/-- Induction over the nodes of a tree, siblings from left to right. -/
@[elab_as_elim] theorem nodes_induction {motive : List Node → Prop} (nil : motive [])
    (text : ∀ content rest, motive rest → motive (.text content :: rest))
    (comment : ∀ content rest, motive rest → motive (.comment content :: rest))
    (element : ∀ name attrs children rest, motive children → motive rest →
      motive (.element name attrs children :: rest)) : ∀ nodes, motive nodes
  | [] => nil
  | .text content :: rest =>
      text content rest (nodes_induction nil text comment element rest)
  | .comment content :: rest =>
      comment content rest (nodes_induction nil text comment element rest)
  | .element name attrs children :: rest =>
      element name attrs children rest (nodes_induction nil text comment element children)
        (nodes_induction nil text comment element rest)
termination_by nodes => sizeOf nodes

/-! ## The walk, text node by text node -/

def isNonContent (name : String) : Bool := NON_CONTENT_TAGS.contains name

mutual

/-- The text nodes that `walk_element` takes, and its counter after the element. -/
def Node.collect (hidden : List Nat) : Node → Nat → List String × Nat
  | .element name _ children, counter =>
      if hidden.contains counter || isNonContent name then ([], counter + 1)
      else collectOf hidden children (counter + 1)
  | .text content, counter => ([content], counter)
  | .comment _, counter => ([], counter)

def collectOf (hidden : List Nat) : List Node → Nat → List String × Nat
  | [], counter => ([], counter)
  | node :: rest, counter =>
      ((node.collect hidden counter).1 ++ (collectOf hidden rest (node.collect hidden counter).2).1,
        (collectOf hidden rest (node.collect hidden counter).2).2)

end

mutual

/-- No CDATA comment, and no text with an end of CDATA in it. -/
def Node.plain : Node → Bool
  | .element _ _ children => plainOf children
  | .text content => !containsCdataEnd content.toList
  | .comment content => !startsWith content.toList "[CDATA["

def plainOf : List Node → Bool
  | [] => true
  | node :: rest => node.plain && plainOf rest

end

/-- On a plain tree the walk appends what it collects. -/
theorem walkChildren_eq (hidden : List Nat) (nodes : List Node) (hplain : plainOf nodes = true)
    (out : List Char) (counter : Nat) :
    walkChildren hidden nodes false (out, counter) =
      ((collectOf hidden nodes counter).1.foldl pushText out,
        (collectOf hidden nodes counter).2) := by
  induction nodes using nodes_induction generalizing out counter with
  | nil => rfl
  | text content rest ih =>
      rw [plainOf, Bool.and_eq_true] at hplain
      simp only [walkChildren, collectOf, Node.collect, Bool.false_eq_true, if_false,
        ih hplain.2, List.singleton_append, List.foldl_cons]
  | comment content rest ih =>
      rw [plainOf, Bool.and_eq_true, Node.plain, Bool.not_eq_true'] at hplain
      simp only [walkChildren, collectOf, Node.collect, hplain.1, Bool.or_self, ih hplain.2,
        List.nil_append]
  | element name attrs children rest ihc ih =>
      rw [plainOf, Bool.and_eq_true, Node.plain] at hplain
      rw [walkChildren, walkElement, collectOf, Node.collect, isNonContent]
      split
      · rw [ih hplain.2, List.nil_append]
      · rw [ihc hplain.1, ih hplain.2, List.foldl_append]

/-! ## What should be taken -/

mutual

/-- The text nodes, each with the elements above it: their numbers and their names. -/
def Node.textNodes : Node → Nat → List (Nat × String) → List (List (Nat × String) × String)
  | .element name _ children, idx, above => textNodesOf children (idx + 1) ((idx, name) :: above)
  | .text content, _, above => [(above, content)]
  | .comment _, _, _ => []

def textNodesOf : List Node → Nat → List (Nat × String) → List (List (Nat × String) × String)
  | [], _, _ => []
  | node :: rest, idx, above =>
      node.textNodes idx above ++ textNodesOf rest (idx + node.elements.length) above

end

/-- None of the elements is hidden or has a non-content tag. -/
def unobstructed (hidden : List Nat) (above : List (Nat × String)) : Bool :=
  above.all fun el => !hidden.contains el.1 && !isNonContent el.2

def visibleTexts (hidden : List Nat) (nodes : List Node) : List String :=
  ((textNodesOf nodes 0 []).filter fun node => unobstructed hidden node.1).map Prod.snd

/-- The numbers are those of `detect_hidden`: places in the list of all elements. -/
theorem textNodesOf_above {nodes : List Node} {idx : Nat} {above : List (Nat × String)}
    {node : List (Nat × String) × String} (h : node ∈ textNodesOf nodes idx above) :
    ∀ el ∈ node.1, el ∈ above ∨
      ∃ k found, el.1 = idx + k ∧ (elementsOf nodes)[k]? = some found ∧ found.name = el.2 := by
  induction nodes using nodes_induction generalizing idx above with
  | nil => cases h
  | text content rest ih =>
      rcases List.mem_append.mp h with h | h
      · obtain rfl := List.mem_singleton.mp h
        intro el hel
        exact .inl hel
      · exact ih h
  | comment content rest ih => exact ih h
  | element name attrs children rest ihc ih =>
      intro el hel
      rcases List.mem_append.mp h with h | h
      · rcases ihc h el hel with habove | ⟨k, found, hidx, hfound, hname⟩
        · rcases List.mem_cons.mp habove with rfl | habove
          · exact .inr ⟨0, ⟨name, attrs, children⟩, rfl, rfl, rfl⟩
          · exact .inl habove
        · refine .inr ⟨k + 1, found, by omega, ?_, hname⟩
          have hk := (List.getElem?_eq_some_iff.mp hfound).1
          change (⟨name, attrs, children⟩ :: (elementsOf children ++ elementsOf rest))[k + 1]? = _
          rw [List.getElem?_cons_succ, List.getElem?_append_left hk, hfound]
      · rcases ih h el hel with habove | ⟨k, found, hidx, hfound, hname⟩
        · exact .inl habove
        · refine .inr ⟨(elementsOf children).length + 1 + k, found, ?_, ?_, hname⟩
          · simp only [Node.elements, List.length_cons] at hidx
            omega
          · change (⟨name, attrs, children⟩ :: (elementsOf children ++ elementsOf rest))[_]? = _
            rw [show (elementsOf children).length + 1 + k = (elementsOf children).length + k + 1 by
              omega, List.getElem?_cons_succ, List.getElem?_append_right (by omega),
              Nat.add_sub_cancel_left, hfound]

mutual

/-- The same by recursion, `idx` being the number of the next element. -/
def Node.visible (hidden : List Nat) : Node → Nat → List String
  | .element name _ children, idx =>
      if hidden.contains idx || isNonContent name then [] else visibleOf hidden children (idx + 1)
  | .text content, _ => [content]
  | .comment _, _ => []

def visibleOf (hidden : List Nat) : List Node → Nat → List String
  | [], _ => []
  | node :: rest, idx =>
      node.visible hidden idx ++ visibleOf hidden rest (idx + node.elements.length)

end

theorem filter_textNodesOf (hidden : List Nat) (nodes : List Node) (idx : Nat)
    (above : List (Nat × String)) :
    ((textNodesOf nodes idx above).filter fun node => unobstructed hidden node.1).map Prod.snd =
      if unobstructed hidden above then visibleOf hidden nodes idx else [] := by
  induction nodes using nodes_induction generalizing idx above with
  | nil => rw [textNodesOf, visibleOf, ite_self]; rfl
  | text content rest ih =>
      rw [textNodesOf, visibleOf, Node.textNodes, Node.visible, List.filter_append,
        List.map_append, ih]
      rcases habove : unobstructed hidden above with _ | _ <;> simp [habove]
  | comment content rest ih =>
      rw [textNodesOf, visibleOf, Node.textNodes, Node.visible, List.nil_append, ih,
        List.nil_append]
  | element name attrs children rest ihc ih =>
      have hcons : unobstructed hidden ((idx, name) :: above) =
          (!(hidden.contains idx || isNonContent name) && unobstructed hidden above) := by
        rw [unobstructed, List.all_cons, Bool.not_or, unobstructed]
      rw [textNodesOf, visibleOf, Node.textNodes, Node.visible, List.filter_append,
        List.map_append, ih, ihc, hcons]
      rcases unobstructed hidden above with _ | _ <;>
        rcases hidden.contains idx || isNonContent name with _ | _ <;> simp

theorem visibleTexts_eq (hidden : List Nat) (nodes : List Node) :
    visibleTexts hidden nodes = visibleOf hidden nodes 0 := by
  rw [visibleTexts, filter_textNodesOf, unobstructed, List.all_nil, if_pos rfl]

/-! ## A given set of numbers -/

mutual

/-- The elements inside skipped ones, which the walk does not count. -/
def Node.unseen (hidden : List Nat) : Node → Nat → Nat
  | .element name _ children, idx =>
      if hidden.contains idx || isNonContent name then (elementsOf children).length
      else unseenOf hidden children (idx + 1)
  | .text _, _ => 0
  | .comment _, _ => 0

def unseenOf (hidden : List Nat) : List Node → Nat → Nat
  | [], _ => 0
  | node :: rest, idx =>
      node.unseen hidden idx + unseenOf hidden rest (idx + node.elements.length)

end

mutual

/-- Each element outside skipped ones is hidden under its number exactly when it is
    under its number less the `behind` elements that the walk has not counted. -/
def Node.agrees (hidden : List Nat) : Node → (idx behind : Nat) → Bool
  | .element name _ children, idx, behind =>
      isNonContent name ||
        (hidden.contains idx == hidden.contains (idx - behind) &&
          (hidden.contains idx || agreesOf hidden children (idx + 1) behind))
  | .text _, _, _ => true
  | .comment _, _, _ => true

def agreesOf (hidden : List Nat) : List Node → (idx behind : Nat) → Bool
  | [], _, _ => true
  | node :: rest, idx, behind =>
      node.agrees hidden idx behind &&
        agreesOf hidden rest (idx + node.elements.length) (behind + node.unseen hidden idx)

end

theorem unseenOf_le (hidden : List Nat) (nodes : List Node) (idx : Nat) :
    unseenOf hidden nodes idx ≤ (elementsOf nodes).length := by
  induction nodes using nodes_induction generalizing idx with
  | nil => exact Nat.le_refl 0
  | text content rest ih =>
      simpa [unseenOf, Node.unseen, elementsOf, Node.elements] using ih idx
  | comment content rest ih =>
      simpa [unseenOf, Node.unseen, elementsOf, Node.elements] using ih idx
  | element name attrs children rest ihc ih =>
      have hchildren := ihc (idx + 1)
      have hrest := ih (idx + (Node.element name attrs children).elements.length)
      simp only [unseenOf, Node.unseen, elementsOf, Node.elements, List.length_append,
        List.length_cons] at hrest ⊢
      split <;> omega

/-- Where the verdicts agree, the walk takes what it should. -/
theorem collectOf_of_agrees {hidden : List Nat} {nodes : List Node} {idx behind : Nat}
    (hle : behind ≤ idx) (h : agreesOf hidden nodes idx behind = true) :
    collectOf hidden nodes (idx - behind) = (visibleOf hidden nodes idx,
      idx + (elementsOf nodes).length - (behind + unseenOf hidden nodes idx)) := by
  induction nodes using nodes_induction generalizing idx behind with
  | nil => simp [collectOf, visibleOf, elementsOf, unseenOf]
  | text content rest ih =>
      rw [agreesOf, Bool.and_eq_true] at h
      have hrest := ih hle h.2
      simp only [collectOf, Node.collect, visibleOf, Node.visible, elementsOf, Node.elements,
        unseenOf, Node.unseen, List.length_nil, Nat.add_zero, Nat.zero_add,
        List.nil_append] at hrest ⊢
      rw [hrest]
  | comment content rest ih =>
      rw [agreesOf, Bool.and_eq_true] at h
      have hrest := ih hle h.2
      simp only [collectOf, Node.collect, visibleOf, Node.visible, elementsOf, Node.elements,
        unseenOf, Node.unseen, List.length_nil, Nat.add_zero, Nat.zero_add,
        List.nil_append] at hrest ⊢
      rw [hrest]
  | element name attrs children rest ihc ih =>
      rw [agreesOf, Bool.and_eq_true, Node.agrees] at h
      have hunseen := unseenOf_le hidden children (idx + 1)
      have hsize : (Node.element name attrs children).elements.length =
          (elementsOf children).length + 1 := by
        rw [Node.elements, List.length_cons]
      have hverdict : (hidden.contains (idx - behind) || isNonContent name) =
          (hidden.contains idx || isNonContent name) := by
        rcases hname : isNonContent name with _ | _
        · rw [hname, Bool.false_or, Bool.and_eq_true, beq_iff_eq] at h
          rw [h.1.1]
        · simp
      rw [collectOf, Node.collect, visibleOf, Node.visible, elementsOf, unseenOf, Node.unseen,
        hverdict, List.length_append, hsize]
      rw [hsize, Node.unseen] at h
      rcases hskip : hidden.contains idx || isNonContent name with _ | _
      · have hinner : agreesOf hidden children (idx + 1) behind = true := by
          obtain ⟨hshown, hcontent⟩ := (Bool.or_eq_false_iff).mp hskip
          rw [hcontent, hshown, Bool.false_or, Bool.false_or, Bool.and_eq_true] at h
          exact h.1.2
        have hchildren := ihc (Nat.le_succ_of_le hle) hinner
        rw [hskip, if_neg Bool.false_ne_true] at h
        have hrest := ih (by omega) h.2
        rw [show idx - behind + 1 = idx + 1 - behind by omega, if_neg Bool.false_ne_true, hchildren,
          if_neg Bool.false_ne_true, if_neg Bool.false_ne_true]
        dsimp only
        have hnext : idx + 1 + (elementsOf children).length -
            (behind + unseenOf hidden children (idx + 1)) =
            idx + ((elementsOf children).length + 1) -
              (behind + unseenOf hidden children (idx + 1)) := by omega
        rw [hnext, hrest]
        exact congrArg _ (by omega)
      · rw [hskip, if_pos rfl] at h
        have hrest := ih (by omega) h.2
        rw [if_pos rfl, if_pos rfl, if_pos rfl]
        dsimp only
        rw [show idx - behind + 1 = idx + ((elementsOf children).length + 1) -
          (behind + (elementsOf children).length) by omega, hrest, List.nil_append]
        exact congrArg _ (by omega)

/-! ## Every set of numbers -/

/-- The text nodes among the siblings themselves. -/
def directTexts (nodes : List Node) : List String :=
  nodes.filterMap fun node => match node with
    | .text content => some content
    | .element _ _ _ | .comment _ => none

/-- An element with text in it that counts. -/
def Node.bearsText : Node → Bool
  | .element name _ children => !isNonContent name && !(visibleOf [] children 0).isEmpty
  | .text _ => false
  | .comment _ => false

mutual

/-- No element that has elements inside is followed by an element with text that
    counts; what is inside a non-content element does not matter. -/
def Node.inStep : Node → Bool
  | .element name _ children => isNonContent name || inStepOf children
  | .text _ => true
  | .comment _ => true

def inStepOf : List Node → Bool
  | [] => true
  | node :: rest =>
      node.inStep &&
        if node.elements.length ≤ 1 then inStepOf rest else rest.all fun later => !later.bearsText

end

section Counting

variable (hidden : List Nat)

theorem collectOf_element (name : String) (attrs : List (String × String))
    (children rest : List Node) (counter : Nat) :
    (collectOf hidden (.element name attrs children :: rest) counter).1 =
      if hidden.contains counter || isNonContent name then (collectOf hidden rest (counter + 1)).1
      else (collectOf hidden children (counter + 1)).1 ++
        (collectOf hidden rest (collectOf hidden children (counter + 1)).2).1 := by
  rw [collectOf, Node.collect]
  split
  · rw [List.nil_append]
  · rfl

theorem visibleOf_element (name : String) (attrs : List (String × String))
    (children rest : List Node) (idx : Nat) :
    visibleOf hidden (.element name attrs children :: rest) idx =
      (if hidden.contains idx || isNonContent name then []
        else visibleOf hidden children (idx + 1)) ++
        visibleOf hidden rest (idx + ((elementsOf children).length + 1)) := by
  rw [visibleOf, Node.visible, Node.elements, List.length_cons]

theorem elementsOf_element (name : String) (attrs : List (String × String))
    (children rest : List Node) :
    (elementsOf (.element name attrs children :: rest)).length =
      (elementsOf children).length + 1 + (elementsOf rest).length := by
  rw [elementsOf, Node.elements, List.length_append, List.length_cons]

/-- The walk counts some of the elements, each once. -/
theorem collectOf_counter (nodes : List Node) (counter : Nat) :
    counter ≤ (collectOf hidden nodes counter).2 ∧
      (collectOf hidden nodes counter).2 ≤ counter + (elementsOf nodes).length := by
  induction nodes using nodes_induction generalizing counter with
  | nil => simp [collectOf]
  | text content rest ih =>
      simpa [collectOf, Node.collect, elementsOf, Node.elements] using ih counter
  | comment content rest ih =>
      simpa [collectOf, Node.collect, elementsOf, Node.elements] using ih counter
  | element name attrs children rest ihc ih =>
      rw [elementsOf_element, collectOf, Node.collect]
      split
      · have hrest := ih (counter + 1)
        dsimp only
        omega
      · have hchildren := ihc (counter + 1)
        have hrest := ih (collectOf hidden children (counter + 1)).2
        dsimp only
        omega

/-- The siblings' own text is always taken. -/
theorem length_directTexts_le (nodes : List Node) (counter : Nat) :
    (directTexts nodes).length ≤ (collectOf hidden nodes counter).1.length := by
  induction nodes using nodes_induction generalizing counter with
  | nil => exact Nat.le_refl 0
  | text content rest ih =>
      have hrest := ih counter
      simp only [directTexts, List.filterMap_cons, List.length_cons, collectOf, Node.collect,
        List.length_append, List.length_nil] at hrest ⊢
      omega
  | comment content rest ih =>
      have hrest := ih counter
      simpa [directTexts, collectOf, Node.collect] using hrest
  | element name attrs children rest ihc ih =>
      rw [collectOf_element]
      have hskip : directTexts (.element name attrs children :: rest) = directTexts rest := rfl
      rw [hskip]
      split
      · exact ih _
      · rw [List.length_append]
        have hrest := ih (collectOf hidden children (counter + 1)).2
        omega

/-- Whatever is hidden, only text that counts is taken. -/
theorem collectOf_sublist (nodes : List Node) (counter idx : Nat) :
    (collectOf hidden nodes counter).1.Sublist (visibleOf [] nodes idx) := by
  induction nodes using nodes_induction generalizing counter idx with
  | nil => exact List.Sublist.refl _
  | text content rest ih => exact (ih counter _).cons_cons content
  | comment content rest ih => exact ih counter _
  | element name attrs children rest ihc ih =>
      rw [collectOf_element, visibleOf_element, List.contains_nil, Bool.false_or]
      split
      · exact (ih _ _).trans (List.sublist_append_right _ _)
      · rename_i hshown
        rw [Bool.not_eq_true, Bool.or_eq_false_iff] at hshown
        rw [hshown.2, if_neg Bool.false_ne_true]
        exact (ihc _ _).append (ih _ _)

theorem visibleOf_sublist (nodes : List Node) (idx idx' : Nat) :
    (visibleOf hidden nodes idx).Sublist (visibleOf [] nodes idx') := by
  induction nodes using nodes_induction generalizing idx idx' with
  | nil => exact List.Sublist.refl _
  | text content rest ih => exact (ih _ _).cons_cons content
  | comment content rest ih => exact ih _ _
  | element name attrs children rest ihc ih =>
      rw [visibleOf_element, visibleOf_element, List.contains_nil, Bool.false_or]
      refine List.Sublist.append ?_ (ih _ _)
      split
      · exact List.nil_sublist _
      · rename_i hshown
        rw [Bool.not_eq_true, Bool.or_eq_false_iff] at hshown
        rw [hshown.2, if_neg Bool.false_ne_true]
        exact ihc _ _

/-- Of an element without text that counts, nothing is taken and nothing should be. -/
theorem nil_of_not_bearsText {name : String} {attrs : List (String × String)}
    {children : List Node} (h : (Node.element name attrs children).bearsText = false)
    (counter : Nat) :
    (isNonContent name = true ∨ (collectOf hidden children counter).1 = []) ∧
      (isNonContent name = true ∨ visibleOf hidden children counter = []) := by
  simp only [Node.bearsText, Bool.and_eq_false_iff, Bool.not_eq_false'] at h
  rcases h with hname | hnone
  · exact ⟨.inl hname, .inl hname⟩
  · rw [List.isEmpty_iff] at hnone
    have hcollect := collectOf_sublist hidden children counter 0
    have hvisible := visibleOf_sublist hidden children counter 0
    rw [hnone] at hcollect hvisible
    exact ⟨.inr (List.sublist_nil.mp hcollect), .inr (List.sublist_nil.mp hvisible)⟩

theorem collectOf_of_trailing {nodes : List Node}
    (h : (nodes.all fun later => !later.bearsText) = true) (counter : Nat) :
    (collectOf hidden nodes counter).1 = directTexts nodes := by
  induction nodes generalizing counter with
  | nil => rfl
  | cons node rest ih =>
      rw [List.all_cons, Bool.and_eq_true, Bool.not_eq_true'] at h
      rcases node with ⟨name, attrs, children⟩ | content | content
      · have hskip : directTexts (.element name attrs children :: rest) = directTexts rest := rfl
        rw [collectOf_element, hskip]
        split
        · exact ih h.2 _
        · rename_i hshown
          rw [Bool.or_eq_true, not_or] at hshown
          have hnil := (nil_of_not_bearsText hidden h.1 (counter + 1)).1.resolve_left hshown.2
          rw [hnil, List.nil_append, ih h.2]
      · exact congrArg (content :: ·) (ih h.2 counter)
      · exact ih h.2 counter

theorem visibleOf_of_trailing {nodes : List Node}
    (h : (nodes.all fun later => !later.bearsText) = true) (idx : Nat) :
    visibleOf hidden nodes idx = directTexts nodes := by
  induction nodes generalizing idx with
  | nil => rfl
  | cons node rest ih =>
      rw [List.all_cons, Bool.and_eq_true, Bool.not_eq_true'] at h
      rcases node with ⟨name, attrs, children⟩ | content | content
      · have hskip : directTexts (.element name attrs children :: rest) = directTexts rest := rfl
        rw [visibleOf_element, hskip, ih h.2]
        split
        · rfl
        · rename_i hshown
          rw [Bool.or_eq_true, not_or] at hshown
          have hnil := (nil_of_not_bearsText hidden h.1 (idx + 1)).2.resolve_left hshown.2
          rw [hnil, List.nil_append]
      · exact congrArg (content :: ·) (ih h.2 idx)
      · exact ih h.2 idx

/-- On a tree that is in step the walk takes what it should, whatever is hidden. -/
theorem collectOf_of_inStep {nodes : List Node} (h : inStepOf nodes = true) (idx : Nat) :
    (collectOf hidden nodes idx).1 = visibleOf hidden nodes idx := by
  induction nodes using nodes_induction generalizing idx with
  | nil => rfl
  | text content rest ih =>
      rw [inStepOf, Bool.and_eq_true] at h
      exact congrArg (content :: ·) (ih h.2 idx)
  | comment content rest ih =>
      rw [inStepOf, Bool.and_eq_true] at h
      exact ih h.2 idx
  | element name attrs children rest ihc ih =>
      rw [inStepOf, Bool.and_eq_true, Node.inStep, Node.elements, List.length_cons] at h
      rw [collectOf_element, visibleOf_element]
      have hinner : (hidden.contains idx || isNonContent name) = false →
          (collectOf hidden children (idx + 1)).1 = visibleOf hidden children (idx + 1) := by
        intro hshown
        rw [(Bool.or_eq_false_iff.mp hshown).2, Bool.false_or] at h
        exact ihc h.1 (idx + 1)
      by_cases hleaf : (elementsOf children).length + 1 ≤ 1
      · -- a leaf: the counter stays in step
        rw [if_pos hleaf] at h
        have hcounter := collectOf_counter hidden children (idx + 1)
        have hnext : (collectOf hidden children (idx + 1)).2 =
            idx + ((elementsOf children).length + 1) := by omega
        have hskip : idx + 1 = idx + ((elementsOf children).length + 1) := by omega
        split
        · rw [List.nil_append, hskip]
          exact ih h.2 _
        · rename_i hshown
          rw [hinner (Bool.eq_false_iff.mpr hshown), hnext, ih h.2]
      · rw [if_neg hleaf] at h
        rw [visibleOf_of_trailing hidden h.2]
        split
        · rw [List.nil_append]
          exact collectOf_of_trailing hidden h.2 _
        · rename_i hshown
          rw [hinner (Bool.eq_false_iff.mpr hshown), collectOf_of_trailing hidden h.2]

/-- Where every element is hidden, only the siblings' own text is visible. -/
theorem visibleOf_of_all_hidden {nodes : List Node} {idx : Nat}
    (h : ∀ i, idx ≤ i → i < idx + (elementsOf nodes).length → hidden.contains i = true) :
    visibleOf hidden nodes idx = directTexts nodes := by
  induction nodes generalizing idx with
  | nil => rfl
  | cons node rest ih =>
      rcases node with ⟨name, attrs, children⟩ | content | content
      · rw [elementsOf_element] at h
        have hskip : directTexts (.element name attrs children :: rest) = directTexts rest := rfl
        rw [visibleOf_element, h idx (Nat.le_refl idx) (by omega), Bool.true_or, if_pos rfl,
          List.nil_append, hskip]
        apply ih
        intro i hlow hhigh
        exact h i (by omega) (by omega)
      · exact congrArg (content :: ·) (ih h)
      · exact ih h

/-- Where no number that it meets is hidden, the walk takes all text that counts. -/
theorem collectOf_of_none_hidden {nodes : List Node} {counter : Nat}
    (h : ∀ i, counter ≤ i → i < counter + (elementsOf nodes).length → hidden.contains i = false)
    (idx : Nat) : (collectOf hidden nodes counter).1 = visibleOf [] nodes idx := by
  induction nodes using nodes_induction generalizing counter idx with
  | nil => rfl
  | text content rest ih => exact congrArg (content :: ·) (ih h _)
  | comment content rest ih => exact ih h _
  | element name attrs children rest ihc ih =>
      rw [elementsOf_element] at h
      rw [collectOf_element, visibleOf_element, h counter (Nat.le_refl counter) (by omega),
        List.contains_nil, Bool.false_or]
      split
      · rw [List.nil_append]
        apply ih
        intro i hlow hhigh
        exact h i (by omega) (by omega)
      · have hcounter := collectOf_counter hidden children (counter + 1)
        rw [ihc (fun i hlow hhigh => h i (by omega) (by omega)) (idx + 1)]
        congr 1
        apply ih
        intro i hlow hhigh
        exact h i (by omega) (by omega)

theorem visibleOf_of_none_hidden {nodes : List Node} {idx : Nat}
    (h : ∀ i, idx ≤ i → i < idx + (elementsOf nodes).length → hidden.contains i = false)
    (idx' : Nat) : visibleOf hidden nodes idx = visibleOf [] nodes idx' := by
  induction nodes using nodes_induction generalizing idx idx' with
  | nil => rfl
  | text content rest ih => exact congrArg (content :: ·) (ih h _)
  | comment content rest ih => exact ih h _
  | element name attrs children rest ihc ih =>
      rw [elementsOf_element] at h
      rw [visibleOf_element, visibleOf_element, h idx (Nat.le_refl idx) (by omega),
        List.contains_nil, Bool.false_or,
        ih (fun i hlow hhigh => h i (by omega) (by omega))
          (idx' + ((elementsOf children).length + 1)),
        ihc (fun i hlow hhigh => h i (by omega) (by omega)) (idx' + 1)]

theorem elementsOf_singleton (node : Node) : elementsOf [node] = node.elements := by
  rw [elementsOf, elementsOf, List.append_nil]

/-- A node in whose range nothing is hidden is taken whole, as it should be. -/
theorem collect_eq_visible {node : Node} {counter idx : Nat}
    (hcounted : ∀ i, counter ≤ i → i < counter + node.elements.length → hidden.contains i = false)
    (hnumbered : ∀ i, idx ≤ i → i < idx + node.elements.length → hidden.contains i = false) :
    (node.collect hidden counter).1 = node.visible hidden idx := by
  rw [← elementsOf_singleton] at hcounted hnumbered
  have hcollect := collectOf_of_none_hidden hidden hcounted idx
  have hvisible := visibleOf_of_none_hidden hidden hnumbered idx
  simpa only [collectOf, visibleOf, List.append_nil] using hcollect.trans hvisible.symm

theorem collect_counter (node : Node) (counter : Nat) :
    counter ≤ (node.collect hidden counter).2 ∧
      (node.collect hidden counter).2 ≤ counter + node.elements.length := by
  have hcounter := collectOf_counter hidden [node] counter
  rw [elementsOf_singleton] at hcounter
  simpa only [collectOf] using hcounter

end Counting

/-! ## A set that shows the difference -/

/-- The number `j` is that of an element with text of its own that counts. -/
inductive TextAt : List Node → (idx j : Nat) → Prop where
  | here {name : String} {attrs : List (String × String)} {children rest : List Node} {idx : Nat}
      (hname : isNonContent name = false) (htext : directTexts children ≠ []) :
      TextAt (.element name attrs children :: rest) idx idx
  | inside {name : String} {attrs : List (String × String)} {children rest : List Node}
      {idx j : Nat} (hname : isNonContent name = false) (h : TextAt children (idx + 1) j) :
      TextAt (.element name attrs children :: rest) idx j
  | later {node : Node} {rest : List Node} {idx j : Nat}
      (h : TextAt rest (idx + node.elements.length) j) : TextAt (node :: rest) idx j

theorem TextAt.bounds {nodes : List Node} {idx j : Nat} (h : TextAt nodes idx j) :
    idx ≤ j ∧ j < idx + (elementsOf nodes).length := by
  induction h with
  | here _ _ => rw [elementsOf_element]; omega
  | inside _ _ ih => rw [elementsOf_element]; omega
  | later _ ih => rw [elementsOf, List.length_append]; omega

theorem exists_textAt {nodes : List Node}
    (h : (nodes.all fun later => !later.bearsText) = false) (idx : Nat) :
    ∃ j, TextAt nodes idx j := by
  induction nodes using nodes_induction generalizing idx with
  | nil => cases h
  | text content rest ih =>
      obtain ⟨j, hj⟩ := ih h (idx + 0)
      exact ⟨j, .later hj⟩
  | comment content rest ih =>
      obtain ⟨j, hj⟩ := ih h (idx + 0)
      exact ⟨j, .later hj⟩
  | element name attrs children rest ihc ih =>
      rw [List.all_cons, Bool.and_eq_false_iff, Bool.not_eq_false'] at h
      rcases h with hbears | hrest
      · simp only [Node.bearsText, Bool.and_eq_true, Bool.not_eq_true'] at hbears
        by_cases htext : directTexts children = []
        · -- then the text is inside one of the children
          have hinner : (children.all fun later => !later.bearsText) = false := by
            rw [Bool.eq_false_iff]
            intro hall
            rw [visibleOf_of_trailing [] hall, htext] at hbears
            cases hbears.2
          obtain ⟨j, hj⟩ := ihc hinner (idx + 1)
          exact ⟨j, .inside hbears.1 hj⟩
        · exact ⟨idx, .here hbears.1 htext⟩
      · obtain ⟨j, hj⟩ := ih hrest (idx + (Node.element name attrs children).elements.length)
        exact ⟨j, .later hj⟩

/-- One number, and all from `j` on. -/
def hiddenFrom (f j total : Nat) : List Nat := f :: List.range' j (total - j)

theorem hiddenFrom_contains {f j total i : Nat} (hj : j ≤ total) :
    (hiddenFrom f j total).contains i = true ↔ i = f ∨ (j ≤ i ∧ i < total) := by
  rw [List.contains_iff_mem, hiddenFrom, List.mem_cons, List.mem_range'_1]
  omega

theorem hiddenFrom_contains_false {f j total i : Nat} (hj : j ≤ total) (hf : i ≠ f) (hlt : i < j) :
    (hiddenFrom f j total).contains i = false := by
  rw [Bool.eq_false_iff, ne_eq, hiddenFrom_contains hj]
  omega

/-- From `j` on, no element's text is shown. -/
theorem visibleOf_hiddenFrom {nodes : List Node} {f j idx total : Nat} (hj : j ≤ idx)
    (htotal : idx + (elementsOf nodes).length ≤ total) :
    visibleOf (hiddenFrom f j total) nodes idx = directTexts nodes := by
  apply visibleOf_of_all_hidden
  intro i hlow hhigh
  exact (hiddenFrom_contains (by omega)).mpr (.inr ⟨by omega, by omega⟩)

/-- A walk that is behind reaches the element at `j` under a number that is not hidden
    yet, and takes its text. -/
theorem taken_of_behind {nodes : List Node} {idx j : Nat} (h : TextAt nodes idx j)
    {f counter total : Nat} (hf : f < counter) (hbehind : counter < idx)
    (htotal : idx + (elementsOf nodes).length ≤ total) :
    (visibleOf (hiddenFrom f j total) nodes idx).length <
      (collectOf (hiddenFrom f j total) nodes counter).1.length := by
  induction h generalizing counter with
  | @here name attrs children rest idx hname htext =>
      rw [elementsOf_element] at htotal
      have hlater : visibleOf (hiddenFrom f idx total) rest
          (idx + ((elementsOf children).length + 1)) = directTexts rest :=
        visibleOf_hiddenFrom (by omega) (by omega)
      have hself : (hiddenFrom f idx total).contains idx = true :=
        (hiddenFrom_contains (by omega)).mpr (.inr ⟨Nat.le_refl idx, by omega⟩)
      have hshown : (hiddenFrom f idx total).contains counter = false :=
        hiddenFrom_contains_false (by omega) (by omega) hbehind
      rw [visibleOf_element, hself, Bool.true_or, if_pos rfl, List.nil_append, hlater,
        collectOf_element, hshown, hname, Bool.or_self,
        if_neg Bool.false_ne_true, List.length_append]
      have hown := length_directTexts_le (hiddenFrom f idx total) children (counter + 1)
      have hrest := length_directTexts_le (hiddenFrom f idx total) rest
        (collectOf (hiddenFrom f idx total) children (counter + 1)).2
      have hsome := List.length_pos_iff.mpr htext
      omega
  | @inside name attrs children rest idx j hname h ih =>
      rw [elementsOf_element] at htotal
      have hbounds := h.bounds
      have hlater : visibleOf (hiddenFrom f j total) rest
          (idx + ((elementsOf children).length + 1)) = directTexts rest :=
        visibleOf_hiddenFrom (by omega) (by omega)
      have hshown : (hiddenFrom f j total).contains counter = false :=
        hiddenFrom_contains_false (by omega) (by omega) (by omega)
      have hshown' : (hiddenFrom f j total).contains idx = false :=
        hiddenFrom_contains_false (by omega) (by omega) (by omega)
      have hinner : (visibleOf (hiddenFrom f j total) children (idx + 1)).length <
          (collectOf (hiddenFrom f j total) children (counter + 1)).1.length :=
        ih (by omega) (by omega) (by omega)
      rw [visibleOf_element, hshown', hname, Bool.or_self, if_neg Bool.false_ne_true, hlater,
        collectOf_element, hshown, hname, Bool.or_self,
        if_neg Bool.false_ne_true, List.length_append, List.length_append]
      have hrest := length_directTexts_le (hiddenFrom f j total) rest
        (collectOf (hiddenFrom f j total) children (counter + 1)).2
      omega
  | @later node rest idx j h ih =>
      rw [elementsOf, List.length_append] at htotal
      have hbounds := h.bounds
      -- all of the node is before `j`: nothing in it is hidden, and both take it all
      have hnode : (node.collect (hiddenFrom f j total) counter).1 =
          node.visible (hiddenFrom f j total) idx := by
        apply collect_eq_visible
        · intro i hlow hhigh
          exact hiddenFrom_contains_false (by omega) (by omega) (by omega)
        · intro i hlow hhigh
          exact hiddenFrom_contains_false (by omega) (by omega) (by omega)
      have hcounter := collect_counter (hiddenFrom f j total) node counter
      have hrest : (visibleOf (hiddenFrom f j total) rest (idx + node.elements.length)).length <
          (collectOf (hiddenFrom f j total) rest
            (node.collect (hiddenFrom f j total) counter).2).1.length :=
        ih (by omega) (by omega) (by omega)
      rw [visibleOf, collectOf, hnode, List.length_append, List.length_append]
      exact Nat.add_lt_add_left hrest _

/-- On a tree that is not in step there is a set of numbers for which the walk takes
    too much. -/
theorem exists_taken_of_not_inStep {nodes : List Node} (h : inStepOf nodes = false) (idx : Nat) :
    ∃ f j, idx ≤ f ∧ f < j ∧ j < idx + (elementsOf nodes).length ∧
      ∀ total, idx + (elementsOf nodes).length ≤ total →
        (visibleOf (hiddenFrom f j total) nodes idx).length <
          (collectOf (hiddenFrom f j total) nodes idx).1.length := by
  induction nodes using nodes_induction generalizing idx with
  | nil => cases h
  | text content rest ih =>
      obtain ⟨f, j, hlow, hlt, hhigh, htaken⟩ := ih h idx
      refine ⟨f, j, hlow, hlt, hhigh, ?_⟩
      intro total htotal
      exact Nat.succ_lt_succ (htaken total htotal)
  | comment content rest ih => exact ih h idx
  | element name attrs children rest ihc ih =>
      rw [elementsOf_element]
      rw [inStepOf, Bool.and_eq_false_iff, Node.inStep, Node.elements, List.length_cons] at h
      rcases h with hinner | hafter
      · -- inside the element, whose later siblings are all hidden
        rw [Bool.or_eq_false_iff] at hinner
        obtain ⟨f, j, hlow, hlt, hhigh, htaken⟩ := ihc hinner.2 (idx + 1)
        refine ⟨f, j, by omega, hlt, by omega, ?_⟩
        intro total htotal
        have hlater : visibleOf (hiddenFrom f j total) rest
            (idx + ((elementsOf children).length + 1)) = directTexts rest :=
          visibleOf_hiddenFrom (by omega) (by omega)
        have hshown : (hiddenFrom f j total).contains idx = false :=
          hiddenFrom_contains_false (by omega) (by omega) (by omega)
        rw [visibleOf_element, collectOf_element, hshown, hinner.1, Bool.or_self,
          if_neg Bool.false_ne_true, if_neg Bool.false_ne_true, hlater,
          List.length_append, List.length_append]
        have hchildren := htaken total (by omega)
        have hrest := length_directTexts_le (hiddenFrom f j total) rest
          (collectOf (hiddenFrom f j total) children (idx + 1)).2
        omega
      · split at hafter
        · -- after a leaf, which both count as one element
          obtain ⟨f, j, hlow, hlt, hhigh, htaken⟩ := ih hafter (idx + 1)
          refine ⟨f, j, by omega, hlt, by omega, ?_⟩
          intro total htotal
          have hnode : (Node.collect (hiddenFrom f j total) (.element name attrs children) idx).1 =
              Node.visible (hiddenFrom f j total) (.element name attrs children) idx := by
            apply collect_eq_visible <;>
            · intro i hlow hhigh
              rw [Node.elements, List.length_cons] at hhigh
              exact hiddenFrom_contains_false (by omega) (by omega) (by omega)
          have hcounter :
              (Node.collect (hiddenFrom f j total) (.element name attrs children) idx).2 =
                idx + 1 := by
            have hchildren := collectOf_counter (hiddenFrom f j total) children (idx + 1)
            rw [Node.collect]
            split
            · rfl
            · omega
          have hsize : idx + (Node.element name attrs children).elements.length = idx + 1 := by
            rw [Node.elements, List.length_cons]
            omega
          rw [visibleOf, collectOf, hnode, hcounter, hsize, List.length_append, List.length_append]
          exact Nat.add_lt_add_left (htaken total (by omega)) _
        · -- the element itself is hidden, and the walk is behind after it
          obtain ⟨j, hj⟩ := exists_textAt hafter (idx + ((elementsOf children).length + 1))
          have hbounds := hj.bounds
          refine ⟨idx, j, Nat.le_refl idx, by omega, by omega, ?_⟩
          intro total htotal
          have hself : (hiddenFrom idx j total).contains idx = true :=
            (hiddenFrom_contains (by omega)).mpr (.inl rfl)
          rw [visibleOf_element, collectOf_element, hself, Bool.true_or, if_pos rfl, if_pos rfl,
            List.nil_append]
          exact taken_of_behind hj (Nat.lt_succ_self idx) (by omega) (by omega)

/-! ## `extract_text` -/

/-- What `extract_text` makes of the text nodes that it has taken. -/
def textOf (libs : HtmlLibs) (texts : List String) : String × List SecurityWarning :=
  sanitize libs.toUnicodeLibs
    (String.ofList (normalizeWhitespace (texts.foldl pushText []))).toUTF8.data.toList
    (some "utf-8") MAX_HTML_BYTES "body:html"

/-- **Hidden text is skipped, for every set of numbers, exactly on the trees that are in
    step**: where no element that has elements inside is followed, after its end, by an
    element with text that counts.  On any tree it is skipped for the sets that give the
    same verdict under both counts. -/
theorem extractText_skips_iff (libs : HtmlLibs) (document : List Node) (body : Element)
    (hbody : ((elementsOf document).find? fun el => el.name = "body") = some body)
    (hplain : plainOf body.children = true) :
    (∀ hidden, extractText libs document hidden =
      textOf libs (collectOf hidden body.children 0).1) ∧
    ((∀ hidden : List Nat, (∀ i ∈ hidden, i < (elementsOf body.children).length) →
      (collectOf hidden body.children 0).1 = visibleTexts hidden body.children) ↔
        inStepOf body.children = true) ∧
    ∀ hidden, agreesOf hidden body.children 0 0 = true →
      (collectOf hidden body.children 0).1 = visibleTexts hidden body.children := by
  refine ⟨?_, ⟨?_, ?_⟩, ?_⟩
  · intro hidden
    have hwalk := walkChildren_eq hidden body.children hplain [] 0
    simp only [extractText, hbody, hwalk, textOf]
  · intro hskips
    rw [← Bool.not_eq_false]
    intro hstep
    obtain ⟨f, j, -, hlt, hhigh, htaken⟩ := exists_taken_of_not_inStep hstep 0
    rw [Nat.zero_add] at hhigh
    have hnumbers : ∀ i ∈ hiddenFrom f j (elementsOf body.children).length,
        i < (elementsOf body.children).length := by
      intro i hi
      rw [← List.contains_iff_mem, hiddenFrom_contains (by omega)] at hi
      omega
    have hlength := htaken _ (by rw [Nat.zero_add])
    rw [hskips _ hnumbers, visibleTexts_eq] at hlength
    exact Nat.lt_irrefl _ hlength
  · intro hstep hidden _
    rw [visibleTexts_eq, collectOf_of_inStep hidden hstep]
  · intro hidden hagrees
    have hcollect := collectOf_of_agrees (Nat.le_refl 0) hagrees
    rw [visibleTexts_eq, hcollect]

/-- `<html><head></head><body>…</body></html>`. -/
def documentOf (body : List Node) : List Node :=
  [.element "html" [] [.element "head" [] [], .element "body" [] body]]

/-- Crates that do on one page of ASCII text what the real ones do: `document` is its
    parse and `cleaned` what ammonia makes of it. -/
def onePageLibs (document : List Node) (cleaned : String) : HtmlLibs where
  decode bytes _ := String.ofList (bytes.map fun b => Char.ofNat b.toNat)
  nfkc := id
  graphemes text := text.map fun c => [c]
  flatten_graphemes := flatten_singletons
  parseDocument _ := document
  ammoniaClean _ := cleaned
  links _ _ := []
  domainToAscii := some
  registrableRoot _ := none
  classifyInlineStyle style :=
    StyleParse.classifyInlineStyle StyleParse.wholeNumber style.toList

/-- `<b>x</b><i>y</i>`: leaves only. -/
def twoLeaves : List Node := [.element "b" [] [.text "x"], .element "i" [] [.text "y"]]

theorem extractText_skips_twoLeaves :
    let libs := onePageLibs (documentOf twoLeaves) "<b>x</b><i>y</i>"
    extractText libs (documentOf twoLeaves) [0] = textOf libs ["y"] := by
  intro libs
  have h := extractText_skips_iff libs (documentOf twoLeaves) ⟨"body", [], twoLeaves⟩ rfl rfl
  rw [h.1, h.2.1.mpr rfl [0] (by decide)]
  rfl

/-- `<div><span></span></div><p>hi</p>`. -/
def paragraphBehind : List Node :=
  [.element "div" [] [.element "span" [] []], .element "p" [] [.text "hi"]]

/-- The paragraph is number 2 and 2 is hidden; the walk, having left out the `span` in the
    hidden `div`, takes the paragraph for number 1. -/
theorem hidden_paragraph_taken :
    (elementsOf paragraphBehind).map Element.name = ["div", "span", "p"] ∧
      plainOf paragraphBehind = true ∧
      visibleTexts [0, 2] paragraphBehind = [] ∧
      walkChildren [0, 2] paragraphBehind false ([], 0) = ("hi".toList, 2) := by
  decide

/-! ## The cap on hits -/

/-- What the classifier says of an element. -/
def methodOf (libs : HtmlLibs) (el : Element) : Option HiddenMethod :=
  (el.attr "style").bind libs.classifyInlineStyle

/-- The element with this number is flagged. -/
def Flagged (libs : HtmlLibs) (document : List Node) (idx : Nat) : Prop :=
  ∃ el, (bodyElementsOf document)[idx]? = some el ∧ (methodOf libs el).isSome = true

def flaggedCount (libs : HtmlLibs) (document : List Node) : Nat :=
  (bodyElementsOf document).countP fun el => (methodOf libs el).isSome

/-- Every hit, capped or not. -/
def hiddenHits (libs : HtmlLibs) (document : List Node) : List (Nat × HiddenMethod) :=
  (bodyElementsOf document).zipIdx.filterMap fun (el, idx) =>
    (methodOf libs el).map fun method => (idx, method)

/-- The numbers that `sanitize` passes to `extract_text`. -/
def hiddenIndices (libs : HtmlLibs) (document : List Node) : List Nat :=
  (detectHidden libs document).1.map Prod.fst

theorem detectHidden_eq (libs : HtmlLibs) (document : List Node) :
    detectHidden libs document = ((hiddenHits libs document).take MAX_HIDDEN_HITS,
      (hiddenHits libs document).length - MAX_HIDDEN_HITS) := rfl

section Cap

variable (libs : HtmlLibs) (document : List Node)

theorem length_hiddenHits : (hiddenHits libs document).length = flaggedCount libs document := by
  have hfst : (bodyElementsOf document).zipIdx.map Prod.fst = bodyElementsOf document :=
    List.zipIdx_map_fst 0 _
  rw [hiddenHits, List.length_filterMap_eq_countP, flaggedCount]
  conv_rhs => rw [← hfst, List.countP_map]
  simp only [Option.isSome_map]
  rfl

theorem mem_hiddenHits_fst (idx : Nat) :
    idx ∈ (hiddenHits libs document).map Prod.fst ↔ Flagged libs document idx := by
  rw [List.mem_map]
  constructor
  · rintro ⟨⟨i, method⟩, hmem, rfl⟩
    obtain ⟨⟨el, j⟩, hel, hmethod⟩ := List.mem_filterMap.mp hmem
    obtain ⟨found, hfound, heq⟩ := Option.map_eq_some_iff.mp hmethod
    cases heq
    rw [List.mk_mem_zipIdx_iff_getElem?] at hel
    exact ⟨el, hel, by rw [hfound]; rfl⟩
  · rintro ⟨el, hel, hflag⟩
    obtain ⟨method, hmethod⟩ := Option.isSome_iff_exists.mp hflag
    refine ⟨(idx, method), List.mem_filterMap.mpr ⟨(el, idx), ?_, ?_⟩, rfl⟩
    · exact List.mk_mem_zipIdx_iff_getElem?.mpr hel
    · simp only [hmethod, Option.map_some]

theorem nodup_hiddenHits_fst : ((hiddenHits libs document).map Prod.fst).Nodup := by
  have hnumbers : (bodyElementsOf document).zipIdx.Pairwise fun a b => a.2 ≠ b.2 := by
    have hrange : ((bodyElementsOf document).zipIdx.map Prod.snd).Nodup := by
      rw [List.zipIdx_map_snd]
      exact List.nodup_range'
    exact List.pairwise_map.mp hrange
  rw [List.nodup_iff_pairwise_ne, List.pairwise_map]
  apply hnumbers.filterMap
  intro a b hne hit hhit hit' hhit'
  obtain ⟨_, _, rfl⟩ := Option.map_eq_some_iff.mp hhit
  obtain ⟨_, _, rfl⟩ := Option.map_eq_some_iff.mp hhit'
  exact hne

/-- Every flagged element is passed on exactly up to the cap. -/
theorem flagged_subset_iff :
    (∀ idx, Flagged libs document idx → idx ∈ hiddenIndices libs document) ↔
      flaggedCount libs document ≤ MAX_HIDDEN_HITS := by
  rw [hiddenIndices, detectHidden_eq, List.map_take, ← length_hiddenHits,
    ← List.length_map (f := Prod.fst)]
  constructor
  · intro hall
    by_contra hmany
    rw [Nat.not_le] at hmany
    -- the first number beyond the cap is not among those before it
    obtain ⟨idx, hidx⟩ : ∃ idx, idx ∈
        ((hiddenHits libs document).map Prod.fst).drop MAX_HIDDEN_HITS := by
      apply List.exists_mem_of_length_pos
      rw [List.length_drop]
      omega
    have hflagged := (mem_hiddenHits_fst libs document idx).mp (List.mem_of_mem_drop hidx)
    exact List.disjoint_take_drop (nodup_hiddenHits_fst libs document) (Nat.le_refl _)
      (hall idx hflagged) hidx
  · intro hle idx hflagged
    rw [List.take_of_length_le hle]
    exact (mem_hiddenHits_fst libs document idx).mpr hflagged

/-- Hits and overflow together are all that is flagged. -/
theorem detectHidden_accounts :
    (detectHidden libs document).1.length + (detectHidden libs document).2 =
      flaggedCount libs document := by
  rw [detectHidden_eq, List.length_take, length_hiddenHits]
  omega

end Cap

/-- The warnings about hidden elements. -/
def hiddenOnly (warnings : List SecurityWarning) : List SecurityWarning :=
  warnings.filter fun warning => warning.code = .htmlHiddenContentDetected

@[simp] theorem hiddenOnly_append (ws ws' : List SecurityWarning) :
    hiddenOnly (ws ++ ws') = hiddenOnly ws ++ hiddenOnly ws' := List.filter_append _ _

@[simp] theorem hiddenOnly_flatMap {A : Type} (xs : List A) (f : A → List SecurityWarning) :
    hiddenOnly (xs.flatMap f) = xs.flatMap fun x => hiddenOnly (f x) := List.filter_flatMap

@[simp] theorem hiddenOnly_warningAt (code : WarningCode) (detail location : String) :
    hiddenOnly [warningAt code detail location] =
      if code = .htmlHiddenContentDetected then [warningAt code detail location] else [] := by
  simp [hiddenOnly, warningAt, List.filter_cons]

@[simp] theorem hiddenOnly_ite (p : Prop) [Decidable p] (ws : List SecurityWarning) :
    hiddenOnly (if p then ws else []) = if p then hiddenOnly ws else [] := by
  split
  · rfl
  · rfl

theorem hiddenOnly_hiddenWarnings (hits : List (Nat × HiddenMethod)) (overflow : Nat) :
    hiddenOnly (hiddenWarnings hits overflow) = hiddenWarnings hits overflow := by
  simp [hiddenWarnings]

theorem hiddenOnly_mismatchWarnings (hits : List (String × String)) (overflow : Nat) :
    hiddenOnly (mismatchWarnings hits overflow) = [] := by
  simp [mismatchWarnings]

theorem hiddenOnly_unparsableWarnings (unparsable : List (String × String)) :
    hiddenOnly (unparsableWarnings unparsable) = [] := by
  simp [unparsableWarnings]

theorem hiddenOnly_extractText (libs : HtmlLibs) (document : List Node) (hidden : List Nat) :
    hiddenOnly (extractText libs document hidden).2 = [] := by
  simp [extractText, sanitize, buildWarnings, strippedWarning]

theorem hiddenOnly_sanitizeBody (libs : HtmlLibs) (document : List Node) (decoded : String) :
    hiddenOnly (sanitizeBody libs document decoded).2 = [] := by
  simp [sanitizeBody, countWarning]

/-- **The cap limits the protection too**: every flagged element is among the numbers
    that are passed on exactly if there are no more of them than the cap.  The warnings
    account for all of them in any case. -/
theorem hidden_all_passed_iff (libs : HtmlLibs) (raw : List UInt8) (charset : Option String)
    (result : HtmlResult) (hok : sanitizeHtml libs raw charset = .ok result) :
    let document := libs.parseDocument (libs.decode raw charset)
    result.bodyText = (extractText libs document (hiddenIndices libs document)).1 ∧
    ((∀ idx, Flagged libs document idx → idx ∈ hiddenIndices libs document) ↔
      flaggedCount libs document ≤ MAX_HIDDEN_HITS) ∧
    ∃ hits overflow, hiddenOnly result.warnings = hiddenWarnings hits overflow ∧
      hits.length + overflow = flaggedCount libs document := by
  intro document
  unfold sanitizeHtml at hok
  split at hok
  · cases hok
  · cases hok
    refine ⟨rfl, flagged_subset_iff libs document, (detectHidden libs document).1,
      (detectHidden libs document).2, ?_, detectHidden_accounts libs document⟩
    simp only [hiddenOnly_append, hiddenOnly_hiddenWarnings, hiddenOnly_mismatchWarnings,
      hiddenOnly_unparsableWarnings, hiddenOnly_extractText, hiddenOnly_sanitizeBody,
      List.append_nil, document]

/-- `<p style="display:none">a</p>`. -/
def oneHidden : List Node := [.element "p" [("style", "display:none")] [.text "a"]]

def oneHiddenSource : String := "<p style=\"display:none\">a</p>"

theorem hidden_all_passed_oneHidden :
    let libs := onePageLibs (documentOf oneHidden) "<p>a</p>"
    0 ∈ hiddenIndices libs (documentOf oneHidden) := by
  intro libs
  have hok : sanitizeHtml libs oneHiddenSource.toUTF8.data.toList none = .ok _ := rfl
  have h := hidden_all_passed_iff libs _ none _ hok
  exact h.2.1.mpr (by decide +kernel) 0 ⟨⟨"p", [("style", "display:none")], [.text "a"]⟩, rfl, rfl⟩

/-- 64 empty hidden elements, and a hidden paragraph after them. -/
def manyHidden : List Node :=
  List.replicate 64 (.element "i" [("style", "display:none")] []) ++
    [.element "p" [("style", "display:none")] [.text "do it"]]

/-- The paragraph is flagged, it is not passed on, and its text comes out. -/
theorem hidden_beyond_cap_taken :
    let libs := onePageLibs (documentOf manyHidden) "<p>do it</p>"
    Flagged libs (documentOf manyHidden) 64 ∧
      64 ∉ hiddenIndices libs (documentOf manyHidden) ∧
      (extractText libs (documentOf manyHidden)
        (hiddenIndices libs (documentOf manyHidden))).1 = "do it" := by
  intro libs
  refine ⟨⟨⟨"p", [("style", "display:none")], [.text "do it"]⟩, rfl, rfl⟩, by decide +kernel, ?_⟩
  decide +kernel

end RustyImap.HtmlBody

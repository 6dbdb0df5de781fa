import Mathlib.Data.List.Infix

/-!
# Searching a text

The leftmost place of a text at which something is found.  `search` takes a test of what begins at
a place, as a pattern is matched there; `indexOf` looks for a given text.

What was found stays found when the text is continued, provided that the test itself does not
change its mind about a longer text; and a text in which nothing begins is passed over.
-/

namespace Search

variable {α β : Type}

/-! ## Tests -/

/-- The leftmost place at which the test succeeds, and what it says there. -/
def search (here : List α → Option β) : List α → Option (ℕ × β)
  | [] => (here []).map (0, ·)
  | a :: text =>
    match here (a :: text) with
    | some found => some (0, found)
    | none => (search here text).map fun (i, found) => (i + 1, found)

variable {here : List α → Option β} {text x y : List α} {found : β} {i : ℕ}

lemma search_of_here (h : here text = some found) : search here text = some (0, found) := by
  cases text with
  | nil => rw [search, h]; rfl
  | cons a text => rw [search, h]

lemma search_cons_of_none {a : α} (h : here (a :: text) = none) :
    search here (a :: text) = (search here text).map fun (i, found) => (i + 1, found) := by
  rw [search, h]

/-- Nothing is found exactly where the test fails at each place. -/
lemma search_eq_none_iff : search here text = none ↔ ∀ s, s <:+ text → here s = none := by
  induction text with
  | nil => simp [search]
  | cons a text ih =>
    cases hhere : here (a :: text) with
    | some found =>
      rw [search_of_here hhere]
      constructor
      · intro h
        cases h
      · intro h
        rw [h _ List.suffix_rfl] at hhere
        cases hhere
    | none =>
      rw [search_cons_of_none hhere, Option.map_eq_none_iff, ih]
      constructor
      · intro h s hs
        rcases List.suffix_cons_iff.1 hs with rfl | hs
        · exact hhere
        · exact h s hs
      · intro h s hs
        exact h s (hs.trans (List.suffix_cons a text))

/-- **A text in which nothing begins is passed over.** -/
theorem search_append (h : ∀ s, s <:+ x → s ≠ [] → here (s ++ y) = none) :
    search here (x ++ y) = (search here y).map fun (i, found) => (x.length + i, found) := by
  induction x with
  | nil =>
    simp only [List.nil_append, List.length_nil, Nat.zero_add]
    exact Option.map_id'.symm
  | cons a x ih =>
    have hhere : here (a :: (x ++ y)) = none := h (a :: x) List.suffix_rfl (by simp)
    have htail := ih fun s hs hne => h s (hs.trans (List.suffix_cons a x)) hne
    rw [List.cons_append, search_cons_of_none hhere, htail, Option.map_map]
    congr 1
    funext ⟨i, found⟩
    simp only [Function.comp_apply, List.length_cons, Prod.mk.injEq, and_true]
    omega

/-- What is found, is found behind a text in which nothing begins. -/
lemma search_eq_some (h : search here text = some (i, found)) :
    here (text.drop i) = some found ∧ i ≤ text.length ∧
      ∀ j < i, here (text.drop j) = none := by
  induction text generalizing i with
  | nil =>
    obtain ⟨b, hb, heq⟩ := Option.map_eq_some_iff.1 h
    cases heq
    exact ⟨hb, Nat.le_refl _, fun j hj => absurd hj (Nat.not_lt_zero j)⟩
  | cons a text ih =>
    cases hhere : here (a :: text) with
    | some b =>
      rw [search_of_here hhere] at h
      cases h
      exact ⟨hhere, Nat.zero_le _, fun j hj => absurd hj (Nat.not_lt_zero j)⟩
    | none =>
      rw [search_cons_of_none hhere] at h
      obtain ⟨⟨k, b⟩, hb, heq⟩ := Option.map_eq_some_iff.1 h
      cases heq
      obtain ⟨hfound, hle, hbefore⟩ := ih hb
      refine ⟨hfound, Nat.succ_le_succ hle, ?_⟩
      rintro (_ | j) hj
      · exact hhere
      · exact hbefore j (Nat.lt_of_succ_lt_succ hj)

/-- A place in a text that is followed by another one is in one of them. -/
lemma suffix_append_cases {s : List α} (h : s <:+ x ++ y) :
    s <:+ y ∨ ∃ s', s = s' ++ y ∧ s' <:+ x ∧ s' ≠ [] := by
  induction x with
  | nil => exact Or.inl h
  | cons a x ih =>
    rw [List.cons_append, List.suffix_cons_iff] at h
    rcases h with rfl | h
    · exact Or.inr ⟨a :: x, rfl, List.suffix_rfl, List.cons_ne_nil _ _⟩
    · rcases ih h with h | ⟨s', rfl, hs', hne⟩
      · exact Or.inl h
      · exact Or.inr ⟨s', rfl, hs'.trans (List.suffix_cons a x), hne⟩

/-! ## Lines -/

variable {a : α}

lemma not_infix_pair_append {line : List α} (hline : a ∉ line) (h : [a, a] <:+: line ++ text) :
    [a, a] <:+: text := by
  induction line with
  | nil => exact h
  | cons b line ih =>
    rw [List.mem_cons, not_or] at hline
    rw [List.cons_append, List.infix_cons_iff] at h
    rcases h with h | h
    · exact absurd (List.cons_prefix_cons.1 h).1 hline.1
    · exact ih hline.2 h

/-- There is no empty line among lines that are not empty. -/
lemma not_infix_lines {lines : List (List α)} (hlines : ∀ line ∈ lines, line ≠ [] ∧ a ∉ line) :
    ¬ [a, a] <:+: lines.flatMap (· ++ [a]) := by
  induction lines with
  | nil => simp
  | cons line lines ih =>
    obtain ⟨hne, hline⟩ := hlines line List.mem_cons_self
    have htail : ∀ line ∈ lines, line ≠ [] ∧ a ∉ line :=
      fun line' hmem => hlines line' (List.mem_cons_of_mem line hmem)
    intro h
    rw [List.flatMap_cons, List.append_assoc] at h
    have hrest := not_infix_pair_append hline h
    rw [List.singleton_append, List.infix_cons_iff] at hrest
    rcases hrest with hrest | hrest
    · have hsecond := (List.cons_prefix_cons.1 hrest).2
      rcases lines with _ | ⟨line', lines⟩
      · simp at hsecond
      · obtain ⟨hne', hline'⟩ := htail line' List.mem_cons_self
        obtain ⟨b, line', rfl⟩ := List.exists_cons_of_ne_nil hne'
        rw [List.flatMap_cons, List.append_assoc, List.cons_append] at hsecond
        obtain rfl : a = b := (List.cons_prefix_cons.1 hsecond).1
        exact hline' List.mem_cons_self
    · exact ih htail hrest

/-! ## Texts -/

variable [DecidableEq α] {pattern : List α}

/-- The test for a given text. -/
def startsWith (pattern text : List α) : Option Unit :=
  if pattern <+: text then some () else none

/-- Where the text first stands. -/
def indexOf (pattern text : List α) : Option ℕ :=
  (search (startsWith pattern) text).map Prod.fst

lemma startsWith_eq_none_iff : startsWith pattern text = none ↔ ¬ pattern <+: text := by
  rw [startsWith]
  split_ifs with h <;> simp [h]

/-- **The text is found where it stands**, if it does not stand earlier. -/
theorem indexOf_append (h : ¬ pattern <:+: x ++ pattern.dropLast) (rest : List α) :
    indexOf pattern (x ++ (pattern ++ rest)) = some x.length := by
  have hskip : ∀ s, s <:+ x → s ≠ [] → startsWith pattern (s ++ (pattern ++ rest)) = none := by
    intro s hs hne
    refine startsWith_eq_none_iff.2 fun hp => h ?_
    have hlength : pattern.length ≤ (s ++ pattern.dropLast).length := by
      have hpos := List.length_pos_of_ne_nil hne
      rw [List.length_append, List.length_dropLast]
      omega
    have hshort : s ++ pattern.dropLast <+: s ++ (pattern ++ rest) :=
      (List.prefix_append_right_inj s).2
        ((List.dropLast_prefix pattern).trans (List.prefix_append _ _))
    obtain ⟨before, rfl⟩ := hs
    have hfound := List.prefix_of_prefix_length_le hp hshort hlength
    exact hfound.isInfix.trans ⟨before, [], by simp⟩
  have hhere : startsWith pattern (pattern ++ rest) = some () := if_pos (List.prefix_append _ _)
  rw [indexOf, search_append hskip, search_of_here hhere]
  rfl

/-- A text in which it does not begin is passed over. -/
theorem indexOf_skip (h : ∀ s, s <:+ x → s ≠ [] → ¬ pattern <+: s ++ y) :
    indexOf pattern (x ++ y) = (indexOf pattern y).map (x.length + ·) := by
  rw [indexOf, search_append fun s hs hne => startsWith_eq_none_iff.2 (h s hs hne), indexOf,
    Option.map_map, Option.map_map]
  rfl

lemma indexOf_nil (h : pattern ≠ []) : indexOf pattern [] = none := by
  rw [indexOf, search, startsWith, if_neg (mt List.prefix_nil.1 h)]
  rfl

/-- What is found is the first place at which the text stands. -/
lemma indexOf_eq_some (h : indexOf pattern x = some i) :
    i ≤ x.length ∧ pattern <+: x.drop i ∧ ∀ j < i, ¬ pattern <+: x.drop j := by
  rw [indexOf, Option.map_eq_some_iff] at h
  obtain ⟨⟨j, found⟩, hsearch, rfl⟩ := h
  obtain ⟨hhere, hle, hbefore⟩ := search_eq_some hsearch
  refine ⟨hle, ?_, fun k hk => startsWith_eq_none_iff.1 (hbefore k hk)⟩
  by_contra hnot
  rw [startsWith_eq_none_iff.2 hnot] at hhere
  cases hhere

/-- What is found stands behind a text in which it does not stand. -/
lemma indexOf_split (hne : pattern ≠ []) (h : indexOf pattern x = some i) :
    ∃ before rest, x = before ++ (pattern ++ rest) ∧ before.length = i ∧
      ¬ pattern <:+: before := by
  obtain ⟨hle, ⟨rest, hrest⟩, hbefore⟩ := indexOf_eq_some h
  refine ⟨x.take i, rest, by rw [hrest, List.take_append_drop], List.length_take_of_le hle, ?_⟩
  rintro ⟨u, v, huv⟩
  have hlength := congrArg List.length huv
  rw [List.length_append, List.length_append, List.length_take_of_le hle] at hlength
  have hpos := List.length_pos_of_ne_nil hne
  have hdrop : x.drop u.length = pattern ++ (v ++ x.drop i) := by
    conv_lhs => rw [← List.take_append_drop i x, ← huv]
    rw [List.append_assoc, List.append_assoc, List.drop_left]
  exact hbefore u.length (by omega) (hdrop ▸ List.prefix_append _ _)

lemma indexOf_eq_none_iff : indexOf pattern x = none ↔ ¬ pattern <:+: x := by
  rw [indexOf, Option.map_eq_none_iff, search_eq_none_iff]
  simp only [startsWith_eq_none_iff, List.infix_iff_prefix_suffix, not_exists, not_and]
  exact forall_congr' fun s => ⟨fun h hp hs => h hs hp, fun h hs hp => h hp hs⟩

/-- What was found stays found when the text is continued. -/
theorem indexOf_append_of_some (h : indexOf pattern x = some i) (y : List α) :
    indexOf pattern (x ++ y) = some i := by
  obtain ⟨hle, hleads, hbefore⟩ := indexOf_eq_some h
  have hlength : (x.take i).length = i := List.length_take_of_le hle
  have hskip : ∀ s, s <:+ x.take i → s ≠ [] →
      startsWith pattern (s ++ (x.drop i ++ y)) = none := by
    intro s hs hne
    obtain ⟨before, hs⟩ := hs
    have hsum := congrArg List.length hs
    rw [List.length_append, hlength] at hsum
    have hpos := List.length_pos_of_ne_nil hne
    have hdrop : x.drop before.length = s ++ x.drop i := by
      conv_lhs => rw [← List.take_append_drop i x, ← hs, List.append_assoc]
      exact List.drop_left
    have hnone := hbefore before.length (by omega)
    rw [hdrop] at hnone
    refine startsWith_eq_none_iff.2 fun hp => hnone ?_
    rw [← List.append_assoc] at hp
    refine List.prefix_of_prefix_length_le hp (List.prefix_append _ _) ?_
    rw [List.length_append]
    exact hleads.length_le.trans (Nat.le_add_left _ _)
  have hstart : startsWith pattern (x.drop i ++ y) = some () :=
    if_pos (hleads.trans (List.prefix_append _ _))
  conv_lhs => rw [← List.take_append_drop i x, List.append_assoc]
  rw [indexOf, search_append hskip, search_of_here hstart, hlength]
  rfl

/-! ## Splitting -/

/-- The parts between the places where the two letters follow each other. -/
def splitPair (a b : α) : List α → List (List α)
  | [] => [[]]
  | [c] => [[c]]
  | c :: d :: rest =>
    if c = a ∧ d = b then [] :: splitPair a b rest
    else (splitPair a b (d :: rest)).modifyHead (c :: ·)

variable {a b : α} {rest part : List α}

lemma splitPair_cons {c : α} (hc : ¬ [a, b] <+: c :: rest) :
    splitPair a b (c :: rest) = (splitPair a b rest).modifyHead (c :: ·) := by
  cases rest with
  | nil => rfl
  | cons d rest =>
    rw [splitPair, if_neg]
    rintro ⟨rfl, rfl⟩
    exact hc ⟨rest, rfl⟩

lemma splitPair_eq_singleton (hx : ¬ [a, b] <:+: x) : splitPair a b x = [x] := by
  induction x with
  | nil => rfl
  | cons c x ih =>
    rw [List.infix_cons_iff, not_or] at hx
    rw [splitPair_cons hx.1, ih hx.2]
    rfl

/-- The first part ends where the letters first follow each other. -/
lemma splitPair_append (hab : a ≠ b) (hx : ¬ [a, b] <:+: x) :
    splitPair a b (x ++ a :: b :: rest) = x :: splitPair a b rest := by
  induction x with
  | nil => rw [List.nil_append, splitPair, if_pos ⟨rfl, rfl⟩]
  | cons c x ih =>
    rw [List.infix_cons_iff, not_or] at hx
    have hc : ¬ [a, b] <+: c :: (x ++ a :: b :: rest) := by
      intro hleads
      obtain ⟨rfl, hsecond⟩ := List.cons_prefix_cons.1 hleads
      rcases x with _ | ⟨d, x⟩
      · exact hab (List.cons_prefix_cons.1 hsecond).1.symm
      · obtain rfl := (List.cons_prefix_cons.1 hsecond).1
        exact hx.1 ⟨x, rfl⟩
    rw [List.cons_append, splitPair_cons hc, ih hx.2]
    rfl

end Search

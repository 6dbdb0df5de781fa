import Mathlib.Data.List.Infix

/-!
# Templates

A template is a text with markers: two letters `a` and `b` that follow each other, a name, and the
first letter `c` behind it.  `parts` reads it from the left, letter by letter; a marker that is not
closed is text.  `expand` puts something in the place of each marker; it does not look at what it
has put there.

The other lemmas say what `parts` does where a search finds the next marker and its end.
-/

namespace Template

variable {α : Type}

inductive Part (α : Type) where
  | text (s : List α)
  | marker (name : List α)

def Part.expand (subst : List α → List α) : Part α → List α
  | text s => s
  | marker name => subst name

def Part.name? : Part α → Option (List α)
  | text _ => none
  | marker name => some name

section Parts

variable [DecidableEq α] (a b c : α)

/-- The parts of what is left, in a marker whose name begins like this or outside. -/
def partsFrom : Option (List α) → List α → List (Part α)
  | none, [] => []
  | none, [x] => [.text [x]]
  | none, x :: y :: rest =>
    if x = a ∧ y = b then partsFrom (some []) rest else .text [x] :: partsFrom none (y :: rest)
  | some name, [] => [.text (a :: b :: name)]
  | some name, x :: rest =>
    if x = c then .marker name :: partsFrom none rest else partsFrom (some (name ++ [x])) rest

def parts (template : List α) : List (Part α) := partsFrom a b c none template

/-- The names of the markers. -/
def names (template : List α) : List (List α) := (parts a b c template).filterMap Part.name?

def expand (subst : List α → List α) (template : List α) : List α :=
  (parts a b c template).flatMap (Part.expand subst)

end Parts

variable [DecidableEq α] {a b c x : α} {s rest name : List α}

/-! ## Reading -/

lemma parts_cons (h : ¬ [a, b] <+: x :: rest) :
    parts a b c (x :: rest) = .text [x] :: parts a b c rest := by
  cases rest with
  | nil => rfl
  | cons y rest =>
    rw [parts, partsFrom, if_neg]
    · rfl
    · rintro ⟨rfl, rfl⟩
      exact h ⟨rest, rfl⟩

lemma parts_marker (a b c : α) (rest : List α) :
    parts a b c (a :: b :: rest) = partsFrom a b c (some []) rest := by
  rw [parts, partsFrom, if_pos ⟨rfl, rfl⟩]

lemma partsFrom_name (h : c ∉ s) (name rest : List α) :
    partsFrom a b c (some name) (s ++ rest) = partsFrom a b c (some (name ++ s)) rest := by
  induction s generalizing name with
  | nil => rw [List.nil_append, List.append_nil]
  | cons x s ih =>
    obtain ⟨hx, hs⟩ := not_or.mp (mt List.mem_cons.mpr h)
    rw [List.cons_append, partsFrom, if_neg (Ne.symm hx), ih hs, List.append_assoc,
      List.singleton_append]

/-! ## Expanding -/

lemma expand_cons (c : α) (subst : List α → List α) (h : ¬ [a, b] <+: x :: rest) :
    expand a b c subst (x :: rest) = x :: expand a b c subst rest ∧
      names a b c (x :: rest) = names a b c rest := by
  rw [expand, names, parts_cons h]
  exact ⟨rfl, rfl⟩

/-- **A text without markers stays as it is.** -/
theorem expand_text (c : α) (subst : List α → List α) (h : ¬ [a, b] <:+: s) :
    expand a b c subst s = s ∧ names a b c s = [] := by
  induction s with
  | nil => exact ⟨rfl, rfl⟩
  | cons x s ih =>
    rw [List.infix_cons_iff, not_or] at h
    obtain ⟨hexpand, hnames⟩ := expand_cons c subst h.1
    obtain ⟨hexpand', hnames'⟩ := ih h.2
    exact ⟨hexpand.trans (congrArg (x :: ·) hexpand'), hnames.trans hnames'⟩

/-- What is in front of the first marker stays as it is. -/
theorem expand_append (c : α) (subst : List α → List α) (hab : a ≠ b) (h : ¬ [a, b] <:+: s)
    (rest : List α) :
    expand a b c subst (s ++ a :: b :: rest) = s ++ expand a b c subst (a :: b :: rest) ∧
      names a b c (s ++ a :: b :: rest) = names a b c (a :: b :: rest) := by
  induction s with
  | nil => exact ⟨rfl, rfl⟩
  | cons x s ih =>
    rw [List.infix_cons_iff, not_or] at h
    have hx : ¬ [a, b] <+: x :: (s ++ a :: b :: rest) := by
      intro hleads
      obtain ⟨rfl, hsecond⟩ := List.cons_prefix_cons.1 hleads
      rcases s with _ | ⟨y, s⟩
      · exact hab (List.cons_prefix_cons.1 hsecond).1.symm
      · obtain rfl := (List.cons_prefix_cons.1 hsecond).1
        exact h.1 ⟨s, rfl⟩
    obtain ⟨hexpand, hnames⟩ := expand_cons c subst hx
    obtain ⟨hexpand', hnames'⟩ := ih h.2
    exact ⟨hexpand.trans (congrArg (x :: ·) hexpand'), hnames.trans hnames'⟩

/-- **A marker is replaced**, and what is behind it is expanded on its own. -/
theorem expand_marker (a b : α) (subst : List α → List α) (h : c ∉ name) (rest : List α) :
    expand a b c subst (a :: b :: (name ++ c :: rest)) = subst name ++ expand a b c subst rest ∧
      names a b c (a :: b :: (name ++ c :: rest)) = name :: names a b c rest := by
  rw [expand, names, parts_marker, partsFrom_name h, List.nil_append, partsFrom, if_pos rfl]
  exact ⟨rfl, rfl⟩

/-- **A marker that is not closed stays as it is.** -/
theorem expand_unclosed (a b : α) (subst : List α → List α) (h : c ∉ s) :
    expand a b c subst (a :: b :: s) = a :: b :: s ∧ names a b c (a :: b :: s) = [] := by
  have hparts := partsFrom_name (a := a) (b := b) h [] []
  rw [List.append_nil, List.nil_append] at hparts
  rw [expand, names, parts_marker, hparts, partsFrom]
  exact ⟨List.append_nil _, rfl⟩

/-- Only what is put in the place of a name matters. -/
lemma expand_congr {subst subst' : List α → List α} {template : List α}
    (h : ∀ name ∈ names a b c template, subst name = subst' name) :
    expand a b c subst template = expand a b c subst' template := by
  rw [expand, expand, List.flatMap, List.flatMap]
  congr 1
  refine List.map_congr_left fun part hpart => ?_
  cases part with
  | text s => rfl
  | marker name => exact h name (List.mem_filterMap.mpr ⟨_, hpart, rfl⟩)

end Template

import FreeswitchContrib.Library.Runs
import Mathlib.Data.List.DropRight

/-!
# Words with single blanks between them

The words of a list are the runs between its separators.  `singleBlanks` goes through the list from
its beginning and leaves one blank of every run of separators.

* `rdropWhile_singleBlanks` — without the blank at the end these are the words, joined by blanks.
* `singleBlanks_of_prefix` — nothing is left to be done behind it.
-/

namespace SingleBlanks

variable {α : Type} (sep : α → Bool) (blank : α)

/-- The words of a list. -/
def words (xs : List α) : List (List α) :=
  (Runs.starts sep xs).map (Runs.run sep)

/-- One blank of every run of separators; behind a separator the run has its blank already. -/
def singleBlanks : Bool → List α → List α
  | _, [] => []
  | behind, a :: xs =>
    if sep a then
      if behind then singleBlanks true xs else blank :: singleBlanks true xs
    else a :: singleBlanks false xs

/-- The words with single blanks between them. -/
def joined (xs : List α) : List α := [blank].intercalate (words sep xs)

variable {sep blank} {a : α} {xs ys : List α} {behind : Bool} {ws : List (List α)} {w : List α}

lemma singleBlanks_cons_of_sep (ha : sep a = true) (blank : α) (xs : List α) :
    singleBlanks sep blank true (a :: xs) = singleBlanks sep blank true xs ∧
    singleBlanks sep blank false (a :: xs) = blank :: singleBlanks sep blank true xs := by
  simp [singleBlanks, ha]

lemma singleBlanks_cons_of_not_sep (ha : sep a = false) (behind : Bool) (xs : List α) :
    singleBlanks sep blank behind (a :: xs) = a :: singleBlanks sep blank false xs := by
  simp [singleBlanks, ha]

lemma mem_of_mem_singleBlanks (h : a ∈ singleBlanks sep blank behind xs) : a ∈ xs ∨ a = blank := by
  induction xs generalizing behind with
  | nil => exact absurd h List.not_mem_nil
  | cons b xs ih =>
    rw [singleBlanks] at h
    split_ifs at h
    · exact (ih h).imp_left (List.mem_cons_of_mem b)
    · rcases List.mem_cons.mp h with rfl | h
      · exact .inr rfl
      · exact (ih h).imp_left (List.mem_cons_of_mem b)
    · rcases List.mem_cons.mp h with rfl | h
      · exact .inl List.mem_cons_self
      · exact (ih h).imp_left (List.mem_cons_of_mem b)

/-! ## The words are what is left -/

lemma intercalate_cons (w : List α) (ws : List (List α)) :
    [blank].intercalate (w :: ws) = w ++ ws.flatMap (blank :: ·) := by
  induction ws generalizing w with
  | nil => simp [List.intercalate]
  | cons w' ws ih =>
    have hnext : [blank].intercalate (w :: w' :: ws) =
        w ++ blank :: [blank].intercalate (w' :: ws) := by
      simp [List.intercalate]
    rw [hnext, ih, List.flatMap_cons, List.cons_append]

lemma rdropWhile_cons_of_not_sep (ha : sep a = false) (xs : List α) :
    (a :: xs).rdropWhile sep = a :: xs.rdropWhile sep := by
  induction xs using List.reverseRecOn with
  | nil => simp [ha]
  | append_singleton xs b ih =>
    rw [← List.cons_append, List.rdropWhile_concat, List.rdropWhile_concat, ih]
    split <;> rfl

lemma rdropWhile_cons_of_sep (ha : sep a = true) (xs : List α) :
    (a :: xs).rdropWhile sep =
      if xs.rdropWhile sep = [] then [] else a :: xs.rdropWhile sep := by
  induction xs using List.reverseRecOn with
  | nil => simp [ha]
  | append_singleton xs b ih =>
    rw [← List.cons_append, List.rdropWhile_concat, List.rdropWhile_concat, ih]
    by_cases hb : sep b
    · rw [if_pos hb, if_pos hb]
    · rw [if_neg hb, if_neg hb, if_neg (by simp)]
      rfl

lemma intercalate_eq_nil_iff (hws : ∀ w ∈ ws, w ≠ []) :
    [blank].intercalate ws = [] ↔ ws = [] := by
  cases ws with
  | nil => simp [List.intercalate]
  | cons w ws =>
    rw [intercalate_cons, List.append_eq_nil_iff]
    simp [hws w List.mem_cons_self]

lemma ne_nil_of_mem_words (h : w ∈ words sep xs) : w ≠ [] := by
  rw [words, Runs.runs_eq_splitOnP, List.mem_filter] at h
  simpa using h.2

lemma words_cons_of_sep (ha : sep a = true) (xs : List α) :
    words sep (a :: xs) = words sep xs := by
  rw [words, Runs.starts_cons_of_sep ha, words]

lemma words_cons (ha : sep a = false) (xs : List α) :
    words sep (a :: xs) =
      (a :: Runs.run sep xs) :: words sep (xs.dropWhile fun a => !sep a) := by
  have hrun : Runs.run sep (a :: xs) = a :: Runs.run sep xs :=
    List.takeWhile_cons_of_pos (by simp [ha])
  have hdrop : (a :: xs).dropWhile (fun a => !sep a) = xs.dropWhile fun a => !sep a :=
    List.dropWhile_cons_of_pos (by simp [ha])
  rw [words, Runs.starts_cons ha, List.map_cons, hrun, hdrop, words]

/-- Behind a separator the words are joined; inside of a word there is the rest of it, and a blank
before each of the others. -/
lemma rdropWhile_singleBlanks_both (hblank : sep blank = true) (xs : List α) :
    (singleBlanks sep blank true xs).rdropWhile sep = joined sep blank xs ∧
    (singleBlanks sep blank false xs).rdropWhile sep =
      Runs.run sep xs ++ (words sep (xs.dropWhile fun a => !sep a)).flatMap (blank :: ·) := by
  induction xs with
  | nil => exact ⟨rfl, rfl⟩
  | cons a xs ih =>
    obtain ⟨hbehind, hinside⟩ := ih
    cases ha : sep a with
    | true =>
      obtain ⟨hskip, hone⟩ := singleBlanks_cons_of_sep ha blank xs
      have hrun : Runs.run sep (a :: xs) = [] := List.takeWhile_cons_of_neg (by simp [ha])
      have hdrop : (a :: xs).dropWhile (fun a => !sep a) = a :: xs :=
        List.dropWhile_cons_of_neg (by simp [ha])
      constructor
      · rw [hskip, hbehind, joined, joined, words_cons_of_sep ha]
      · rw [hone, rdropWhile_cons_of_sep hblank, hbehind, hrun, hdrop, words_cons_of_sep ha,
          List.nil_append, joined]
        cases hwords : words sep xs with
        | nil => rfl
        | cons w ws =>
          have hne : [blank].intercalate (w :: ws) ≠ [] := by
            rw [← hwords, Ne, intercalate_eq_nil_iff fun w hw => ne_nil_of_mem_words hw, hwords]
            exact List.cons_ne_nil w ws
          rw [if_neg hne, intercalate_cons, List.flatMap_cons, List.cons_append]
    | false =>
      have hrun : Runs.run sep (a :: xs) = a :: Runs.run sep xs :=
        List.takeWhile_cons_of_pos (by simp [ha])
      have hdrop : (a :: xs).dropWhile (fun a => !sep a) = xs.dropWhile fun a => !sep a :=
        List.dropWhile_cons_of_pos (by simp [ha])
      constructor
      · rw [singleBlanks_cons_of_not_sep ha, rdropWhile_cons_of_not_sep ha, hinside, joined,
          words_cons ha, intercalate_cons, List.cons_append]
      · rw [singleBlanks_cons_of_not_sep ha, rdropWhile_cons_of_not_sep ha, hinside, hrun, hdrop,
          List.cons_append]

/-- **Without the blank at the end these are the words**, joined by single blanks. -/
theorem rdropWhile_singleBlanks (hblank : sep blank = true) (xs : List α) :
    (singleBlanks sep blank true xs).rdropWhile sep = joined sep blank xs :=
  (rdropWhile_singleBlanks_both hblank xs).1

/-- At the beginning of a word it does not matter what was before. -/
lemma singleBlanks_dropWhile (xs : List α) (behind : Bool) :
    singleBlanks sep blank behind (xs.dropWhile sep) = singleBlanks sep blank true xs := by
  induction xs with
  | nil => cases behind <;> rfl
  | cons a xs ih =>
    cases ha : sep a with
    | true =>
      rw [List.dropWhile_cons_of_pos ha, ih, (singleBlanks_cons_of_sep ha blank xs).1]
    | false =>
      rw [List.dropWhile_cons_of_neg (by simp [ha]), singleBlanks_cons_of_not_sep ha,
        singleBlanks_cons_of_not_sep ha]

/-! ## Nothing is left to be done -/

lemma length_singleBlanks_le (behind : Bool) (xs : List α) :
    (singleBlanks sep blank behind xs).length ≤ xs.length := by
  induction xs generalizing behind with
  | nil => exact Nat.le_refl _
  | cons a xs ih =>
    rw [singleBlanks, List.length_cons]
    split_ifs
    · exact (ih true).trans (Nat.le_succ _)
    · exact Nat.succ_le_succ (ih true)
    · exact Nat.succ_le_succ (ih false)

lemma singleBlanks_singleBlanks (hblank : sep blank = true) (behind : Bool) (xs : List α) :
    singleBlanks sep blank behind (singleBlanks sep blank behind xs) =
      singleBlanks sep blank behind xs := by
  induction xs generalizing behind with
  | nil => rfl
  | cons a xs ih =>
    cases ha : sep a with
    | true =>
      obtain ⟨hskip, hone⟩ := singleBlanks_cons_of_sep ha blank xs
      cases behind with
      | true => rw [hskip, ih]
      | false => rw [hone, (singleBlanks_cons_of_sep hblank blank _).2, ih]
    | false => rw [singleBlanks_cons_of_not_sep ha, singleBlanks_cons_of_not_sep ha, ih]

/-- What has single blanks has them in its beginning. -/
lemma singleBlanks_of_prefix (h : singleBlanks sep blank behind ys = ys) (hfront : xs <+: ys) :
    singleBlanks sep blank behind xs = xs := by
  induction xs generalizing behind ys with
  | nil => rfl
  | cons a xs ih =>
    obtain ⟨rest, rfl⟩ := hfront
    have hrest : xs <+: xs ++ rest := List.prefix_append xs rest
    rw [List.cons_append] at h
    cases ha : sep a with
    | true =>
      obtain ⟨hskip, hone⟩ := singleBlanks_cons_of_sep ha blank (xs ++ rest)
      cases behind with
      | true =>
        -- a separator behind another one would be lost
        have hlen : (singleBlanks sep blank true (xs ++ rest)).length ≤ (xs ++ rest).length :=
          length_singleBlanks_le true _
        rw [← hskip, h, List.length_cons] at hlen
        omega
      | false =>
        rw [hone, List.cons.injEq] at h
        rw [(singleBlanks_cons_of_sep ha blank xs).2, ih h.2 hrest, h.1]
    | false =>
      rw [singleBlanks_cons_of_not_sep ha, List.cons.injEq] at h
      rw [singleBlanks_cons_of_not_sep ha, ih h.2 hrest]

/-- Where there is nothing to be done behind a separator, there is none at the beginning. -/
lemma takeWhile_of_singleBlanks (h : singleBlanks sep blank true xs = xs) :
    xs.takeWhile sep = [] := by
  cases xs with
  | nil => rfl
  | cons a xs =>
    cases ha : sep a with
    | true =>
      have hlen : (singleBlanks sep blank true xs).length ≤ xs.length :=
        length_singleBlanks_le true xs
      rw [← (singleBlanks_cons_of_sep ha blank xs).1, h, List.length_cons] at hlen
      omega
    | false => exact List.takeWhile_cons_of_neg (by simp [ha])

/-- The joined words have single blanks. -/
lemma singleBlanks_joined (hblank : sep blank = true) (xs : List α) :
    singleBlanks sep blank true (joined sep blank xs) = joined sep blank xs := by
  rw [← rdropWhile_singleBlanks hblank]
  exact singleBlanks_of_prefix (singleBlanks_singleBlanks hblank true xs)
    (List.rdropWhile_prefix sep _)

lemma rdropWhile_joined (hblank : sep blank = true) (xs : List α) :
    (joined sep blank xs).rdropWhile sep = joined sep blank xs := by
  rw [← rdropWhile_singleBlanks hblank, List.rdropWhile_idempotent]

end SingleBlanks

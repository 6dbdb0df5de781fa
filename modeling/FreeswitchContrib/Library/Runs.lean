import Mathlib.Data.List.TakeWhile

/-!
# The runs between separators

A list is taken apart at the letters that are separators.  A run begins at a letter that is none and
does not come behind another one that is none, and ends before the next separator; `starts` are the
rests of the list from where its runs begin.

* `runs_eq_splitOnP` — the runs are what a split leaves that is not empty.
* `starts_append`, `starts_run_append` — separators are passed over, and a run in front of a
  separator is one more run.
* `upTo_starts_flatMap` — what has separators in between comes apart again.
-/

namespace Runs

variable {α : Type} (sep : α → Bool)

/-- The rests from where runs begin; inside a run none does. -/
def startsFrom : Bool → List α → List (List α)
  | _, [] => []
  | inside, a :: xs =>
    if sep a then startsFrom false xs
    else if inside then startsFrom true xs
    else (a :: xs) :: startsFrom true xs

/-- The rests of a list from where its runs begin. -/
def starts (xs : List α) : List (List α) := startsFrom sep false xs

/-- The run at the beginning. -/
def run (xs : List α) : List α := xs.takeWhile fun a => !sep a

/-- The first runs, of which the last allowed one takes what is behind it as well. -/
def upTo (n : ℕ) (rests : List (List α)) : List (List α) :=
  (rests.take (n - 1)).map (run sep) ++ rests[n - 1]?.toList

variable {sep} {a : α} {xs ys gap : List α} {rests : List (List α)} {n : ℕ}

@[simp] lemma starts_nil : starts sep [] = [] := rfl

lemma starts_cons_of_sep (ha : sep a = true) : starts sep (a :: xs) = starts sep xs := by
  rw [starts, startsFrom, if_pos ha]
  rfl

/-- A run ends where the letters do that are no separators. -/
lemma startsFrom_true (xs : List α) :
    startsFrom sep true xs = starts sep (xs.dropWhile fun a => !sep a) := by
  induction xs with
  | nil => rfl
  | cons a xs ih =>
    cases ha : sep a with
    | true =>
      rw [List.dropWhile_cons_of_neg (by simp [ha]), starts_cons_of_sep ha, startsFrom, if_pos ha]
      rfl
    | false =>
      rw [List.dropWhile_cons_of_pos (by simp [ha]), startsFrom, if_neg (by simp [ha]),
        if_pos rfl, ih]

lemma starts_cons (ha : sep a = false) :
    starts sep (a :: xs) =
      (a :: xs) :: starts sep ((a :: xs).dropWhile fun a => !sep a) := by
  rw [List.dropWhile_cons_of_pos (by simp [ha]), starts, startsFrom, if_neg (by simp [ha]),
    if_neg Bool.false_ne_true, startsFrom_true]

variable (sep) in
/-- What a split leaves begins with the run at the beginning, and goes on with the other runs. -/
lemma splitOnP_eq (xs : List α) : ∃ parts, xs.splitOnP sep = run sep xs :: parts ∧
    (startsFrom sep true xs).map (run sep) = parts.filter (fun part => !part.isEmpty) ∧
    (starts sep xs).map (run sep) =
      (run sep xs :: parts).filter fun part => !part.isEmpty := by
  induction xs with
  | nil => exact ⟨[], rfl, rfl, rfl⟩
  | cons a xs ih =>
    obtain ⟨parts, hsplit, hinside, houtside⟩ := ih
    cases ha : sep a with
    | true =>
      have hrun : run sep (a :: xs) = [] := List.takeWhile_cons_of_neg (by simp [ha])
      refine ⟨run sep xs :: parts, ?_, ?_, ?_⟩
      · rw [List.splitOnP_cons_eq_if_modifyHead, if_pos ha, hsplit, hrun]
      · rw [startsFrom, if_pos ha]
        exact houtside
      · rw [starts_cons_of_sep ha, houtside, hrun]
        rfl
    | false =>
      have hrun : run sep (a :: xs) = a :: run sep xs :=
        List.takeWhile_cons_of_pos (by simp [ha])
      refine ⟨parts, ?_, ?_, ?_⟩
      · rw [List.splitOnP_cons_eq_if_modifyHead, if_neg (by simp [ha]), hsplit, hrun]
        rfl
      · rw [startsFrom, if_neg (by simp [ha]), if_pos rfl, hinside]
      · rw [starts, startsFrom, if_neg (by simp [ha]), if_neg Bool.false_ne_true, List.map_cons,
          hinside, hrun]
        rfl

/-- **The runs are what a split leaves** that is not empty. -/
theorem runs_eq_splitOnP (xs : List α) :
    (starts sep xs).map (run sep) = (xs.splitOnP sep).filter fun part => !part.isEmpty := by
  obtain ⟨parts, hsplit, -, houtside⟩ := splitOnP_eq sep xs
  rw [hsplit, houtside]

/-- Separators are passed over. -/
lemma starts_append (hgap : ∀ a ∈ gap, sep a = true) : starts sep (gap ++ xs) = starts sep xs := by
  induction gap with
  | nil => rfl
  | cons a gap ih =>
    rw [List.cons_append, starts_cons_of_sep (hgap a List.mem_cons_self)]
    exact ih fun b hb => hgap b (List.mem_cons_of_mem a hb)

lemma starts_dropWhile (xs : List α) : starts sep (xs.dropWhile sep) = starts sep xs := by
  have hskip : starts sep (xs.takeWhile sep ++ xs.dropWhile sep) = starts sep (xs.dropWhile sep) :=
    starts_append fun a ha => List.mem_takeWhile_imp ha
  rwa [List.takeWhile_append_dropWhile, eq_comm] at hskip

/-- A run ends in front of a separator. -/
lemma starts_run_append (hne : xs ≠ []) (hxs : ∀ a ∈ xs, sep a = false)
    (hys : ∀ a ∈ ys.head?, sep a = true) :
    starts sep (xs ++ ys) = (xs ++ ys) :: starts sep ys := by
  obtain ⟨a, xs, rfl⟩ := List.exists_cons_of_ne_nil hne
  have hdrop : ((a :: xs) ++ ys).dropWhile (fun a => !sep a) = ys := by
    rw [List.dropWhile_append_of_pos (by simpa using hxs)]
    cases ys with
    | nil => rfl
    | cons b ys => exact List.dropWhile_cons_of_neg (by simp [hys b rfl])
  rw [List.cons_append, starts_cons (hxs a List.mem_cons_self), ← List.cons_append, hdrop]

lemma run_append (hxs : ∀ a ∈ xs, sep a = false) (hys : ∀ a ∈ ys.head?, sep a = true) :
    run sep (xs ++ ys) = xs := by
  rw [run, List.takeWhile_append_of_pos (by simpa using hxs)]
  cases ys with
  | nil => simp
  | cons b ys => rw [List.takeWhile_cons_of_neg (by simp [hys b rfl]), List.append_nil]

@[simp] lemma upTo_nil : upTo sep n [] = [] := by simp [upTo]

/-- The only run that is allowed takes all. -/
@[simp] lemma upTo_one_cons : upTo sep 1 (xs :: rests) = [xs] := rfl

@[simp] lemma upTo_add_two_cons :
    upTo sep (n + 2) (xs :: rests) = run sep xs :: upTo sep (n + 1) rests := rfl

/-- Where the limit is not reached, every run ends before the next separator. -/
lemma upTo_of_length_lt (h : rests.length < n) : upTo sep n rests = rests.map (run sep) := by
  have htake : rests.take (n - 1) = rests := List.take_of_length_le (by omega)
  have hlast : rests[n - 1]? = none := List.getElem?_eq_none (by omega)
  rw [upTo, htake, hlast, Option.toList_none, List.append_nil]

/-- **Runs with separators in between** are the runs of the whole. -/
theorem upTo_starts_flatMap {parts : List (List α)} (hgap : gap ≠ [])
    (hseps : ∀ a ∈ gap, sep a = true) (hxs : xs ≠ [] ∧ ∀ a ∈ xs, sep a = false)
    (hparts : ∀ part ∈ parts, part ≠ [] ∧ ∀ a ∈ part, sep a = false)
    (hn : parts.length < n) :
    upTo sep n (starts sep (xs ++ parts.flatMap (gap ++ ·))) = xs :: parts := by
  induction parts generalizing xs n with
  | nil =>
    have hstarts : starts sep (xs ++ []) = (xs ++ []) :: starts sep [] :=
      starts_run_append hxs.1 hxs.2 (by simp)
    have hrun : run sep (xs ++ []) = xs := run_append hxs.2 (by simp)
    rw [List.append_nil] at hstarts hrun
    rw [List.flatMap_nil, List.append_nil, hstarts]
    rcases n with _ | _ | n
    · exact absurd hn (Nat.not_lt_zero _)
    · rfl
    · rw [upTo_add_two_cons, hrun, starts_nil, upTo_nil]
  | cons part parts ih =>
    obtain ⟨n, rfl⟩ : ∃ m, n = m + 2 := ⟨n - 2, by rw [List.length_cons] at hn; omega⟩
    have htail : ∀ a ∈ ((part :: parts).flatMap (gap ++ ·)).head?, sep a = true := by
      obtain ⟨b, gap, rfl⟩ := List.exists_cons_of_ne_nil hgap
      intro a ha
      obtain rfl : b = a := by simpa using ha
      exact hseps b List.mem_cons_self
    have hpart := hparts part List.mem_cons_self
    rw [starts_run_append hxs.1 hxs.2 htail, upTo_add_two_cons, run_append hxs.2 htail,
      List.flatMap_cons, List.append_assoc, starts_append hseps,
      ih hpart (fun p hp => hparts p (List.mem_cons_of_mem part hp))
        (by rw [List.length_cons] at hn; omega)]

end Runs

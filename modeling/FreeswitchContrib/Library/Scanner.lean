import Mathlib.Data.List.Basic

/-!
# First-accept scanning

A scanner reads one symbol after the other, and each symbol either moves it to a new state or is
the last symbol of a token.  `scan` reads on without a token, `lex` reads up to the first one.

`lex_eq_some_iff` is the point: a token is a stretch that scans, and one symbol that accepts.
-/

namespace Scanner

variable {σ α τ : Type} (step : σ → α → σ ⊕ τ)

/-- The state after a list of symbols that contains no token's end. -/
def scan : σ → List α → Option σ
  | s, [] => some s
  | s, a :: as =>
    match step s a with
    | .inl s' => scan s' as
    | .inr _ => none

/-- The first token and what follows it. -/
def lex : σ → List α → Option (τ × List α)
  | _, [] => none
  | s, a :: as =>
    match step s a with
    | .inl s' => lex s' as
    | .inr t => some (t, as)

variable {step} {s s' : σ} {a : α} {xs ys rest : List α} {t : τ}

@[simp] lemma scan_nil : scan step s [] = some s := rfl

@[simp] lemma lex_nil : lex step s [] = none := rfl

lemma scan_cons_of_inl (h : step s a = .inl s') : scan step s (a :: xs) = scan step s' xs := by
  simp only [scan, h]

lemma lex_cons_of_inl (h : step s a = .inl s') : lex step s (a :: xs) = lex step s' xs := by
  simp only [lex, h]

lemma lex_cons_of_inr (h : step s a = .inr t) : lex step s (a :: xs) = some (t, xs) := by
  simp only [lex, h]

/-- Scanning composes. -/
lemma scan_append : ∀ (s : σ) (xs ys : List α),
    scan step s (xs ++ ys) = (scan step s xs).bind fun s' => scan step s' ys
  | _, [], _ => rfl
  | s, a :: xs, ys => by
    rcases h : step s a with s' | t
    · rw [List.cons_append, scan_cons_of_inl h, scan_cons_of_inl h, scan_append s' xs ys]
    · simp only [List.cons_append, scan, h, Option.bind_none]

/-- What scans can be read before a token is looked for. -/
lemma lex_append (h : scan step s xs = some s') : lex step s (xs ++ ys) = lex step s' ys := by
  induction xs generalizing s with
  | nil =>
    obtain rfl : s = s' := by simpa using h
    rfl
  | cons a xs ih =>
    rcases ha : step s a with s₁ | t
    · rw [scan_cons_of_inl ha] at h
      rw [List.cons_append, lex_cons_of_inl ha, ih h]
    · simp [scan, ha] at h

/-- **A token is a stretch that scans, and one symbol that accepts.** -/
theorem lex_eq_some_iff : lex step s xs = some (t, rest) ↔
    ∃ pre a s', xs = pre ++ a :: rest ∧ scan step s pre = some s' ∧ step s' a = .inr t := by
  constructor
  · intro h
    induction xs generalizing s with
    | nil => simp at h
    | cons a xs ih =>
      rcases ha : step s a with s₁ | t₁
      · rw [lex_cons_of_inl ha] at h
        obtain ⟨pre, b, s', rfl, hscan, hb⟩ := ih h
        exact ⟨a :: pre, b, s', rfl, by rw [scan_cons_of_inl ha, hscan], hb⟩
      · rw [lex_cons_of_inr ha] at h
        obtain ⟨rfl, rfl⟩ : t₁ = t ∧ xs = rest := by simpa using h
        exact ⟨[], a, s, rfl, rfl, ha⟩
  · rintro ⟨pre, a, s', rfl, hscan, ha⟩
    rw [lex_append hscan, lex_cons_of_inr ha]

/-- A list scans or contains a token. -/
lemma scan_eq_none_iff : scan step s xs = none ↔ ∃ t rest, lex step s xs = some (t, rest) := by
  induction xs generalizing s with
  | nil => simp
  | cons a xs ih =>
    rcases ha : step s a with s₁ | t
    · rw [scan_cons_of_inl ha, lex_cons_of_inl ha, ih]
    · simp [scan, lex, ha]

lemma lex_length_lt (h : lex step s xs = some (t, rest)) : rest.length < xs.length := by
  obtain ⟨pre, a, s', rfl, -, -⟩ := lex_eq_some_iff.mp h
  simp only [List.length_append, List.length_cons]
  omega

end Scanner

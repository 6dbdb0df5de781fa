import Mathlib.Data.List.Basic

/-!
# Printing piece by piece

A buffer that is filled by several calls of a function that truncates, as `snprintf` does, but
returns the length the whole text would have had.  A caller that goes on behind what was returned
prints each piece where the one before it *would have* ended, whether or not it did.

* `Chained.offset_eq`: a piece is printed at the length of all the pieces before it;
* `Chained.forall_offset_le_iff`: all pieces begin in the buffer exactly when the last one does;
* `Chained.forall_end_lt_iff`: all pieces end in the buffer exactly when the last one does.
-/

namespace Printing

/-- One call: where it prints, and its text. -/
structure Piece where
  offset : ℕ
  text : List Char
deriving DecidableEq

def Piece.last (piece : Piece) : ℕ := piece.offset + piece.text.length

/-- Each piece is printed where the one before it would have ended. -/
def Chained : ℕ → List Piece → Prop
  | _, [] => True
  | offset, piece :: pieces => piece.offset = offset ∧ Chained piece.last pieces

/-- The whole text. -/
def text (pieces : List Piece) : List Char := pieces.flatMap Piece.text

variable {offset size : ℕ} {piece : Piece} {pieces before after : List Piece}

@[simp] lemma text_nil : text [] = [] := rfl

@[simp] lemma text_cons (piece : Piece) (pieces : List Piece) :
    text (piece :: pieces) = piece.text ++ text pieces := rfl

@[simp] lemma text_append (before after : List Piece) :
    text (before ++ after) = text before ++ text after := List.flatMap_append

lemma chained_append : Chained offset (before ++ after) ↔
    Chained offset before ∧ Chained (offset + (text before).length) after := by
  induction before generalizing offset with
  | nil => simp [Chained]
  | cons piece before ih =>
    rw [List.cons_append, Chained, Chained, ih, and_assoc]
    refine and_congr_right fun hoffset => ?_
    rw [Piece.last, hoffset, text_cons, List.length_append, Nat.add_assoc]

/-- **Where a piece is printed.** -/
theorem Chained.offset_eq (h : Chained offset (before ++ piece :: after)) :
    piece.offset = offset + (text before).length :=
  (chained_append.mp h).2.1

lemma Chained.last_le (h : Chained offset pieces) (hmem : piece ∈ pieces) :
    piece.last ≤ offset + (text pieces).length := by
  obtain ⟨before, after, rfl⟩ := List.append_of_mem hmem
  rw [Piece.last, h.offset_eq, text_append, text_cons, List.length_append, List.length_append]
  omega

/-- All pieces begin up to some place exactly when the last one does. -/
theorem Chained.forall_offset_le_iff (h : Chained offset (before ++ [piece])) :
    (∀ p ∈ before ++ [piece], p.offset ≤ size) ↔ offset + (text before).length ≤ size := by
  constructor
  · intro hall
    rw [← h.offset_eq]
    exact hall piece (by simp)
  · intro hle p hp
    rcases List.mem_append.mp hp with hp | hp
    · have hlast := (chained_append.mp h).1.last_le hp
      exact Nat.le_trans (Nat.le_add_right _ _) (Nat.le_trans hlast hle)
    · obtain rfl := List.mem_singleton.mp hp
      rw [h.offset_eq]
      exact hle

/-- **Pieces in a buffer.**  All of them have room there, with a NUL behind, exactly when the whole
text has. -/
theorem Chained.forall_end_lt_iff (h : Chained offset (before ++ [piece])) :
    (∀ p ∈ before ++ [piece], p.last < size) ↔
      offset + (text (before ++ [piece])).length < size := by
  constructor
  · intro hall
    have hlast := hall piece (by simp)
    rw [Piece.last, h.offset_eq] at hlast
    simpa [Nat.add_assoc] using hlast
  · intro hlt p hp
    exact Nat.lt_of_le_of_lt (h.last_le hp) hlt

end Printing

import FreeswitchContrib.FsSock.SockGet
import Mathlib.Data.List.Induction
import Mathlib.Data.List.TakeWhile

/-!
# Message boundaries

`Message` is a message as the server sends it.  `readsBack_iff` says exactly which sequences of
messages successive calls of `sock_get` read back:

* a header value has no colon and no blanks around it, as `sock_get` splits at every colon and
  trims;
* a body is not empty, and its last line is a multiple of what one `fgets` reads, or nothing
  follows it; otherwise the last `fgets` of the body goes on into the next message.
-/

namespace FreeswitchContrib.FsSock

open Numeral

/-! ## Messages as they are sent -/

/-- What the header lines say; a name that comes again replaces the value. -/
def dictionary (headers : List (Text × Text)) : Text → Option Text :=
  headers.foldl (fun found h => Function.update found h.1 (some h.2)) fun _ => none

def line (h : Text × Text) : Text :=
  h.1 ++ ':' :: ' ' :: h.2 ++ ['\n']

/-- The body is as long as the content length says, and there is none without a content length. -/
def Framed (headers : List (Text × Text)) (body : Text) : Prop :=
  match dictionary headers "Content-Length".toList with
  | some value => decimal value = some body.length
  | none => body = []

structure Message (bufferSize : ℕ) where
  headers : List (Text × Text)
  body : Text
  nonempty : headers ≠ []
  names : ∀ h ∈ headers, ':' ∉ h.1 ∧ '\n' ∉ h.1 ∧ trim h.1 = h.1
  values : ∀ h ∈ headers, '\n' ∉ h.2
  short : ∀ h ∈ headers, (line h).length < bufferSize
  framed : Framed headers body

namespace Message

variable {bufferSize : ℕ}

def wire (m : Message bufferSize) : Text :=
  m.headers.flatMap line ++ '\n' :: m.body

def HasLength (m : Message bufferSize) : Prop :=
  dictionary m.headers "Content-Length".toList ≠ none

end Message

variable {bufferSize : ℕ} {m : Message bufferSize} {h : Text × Text}
  {headers : List (Text × Text)} {s t body rest content x y : Text} {event : Event} {n fuel len : ℕ}

/-! ## Single lines -/

lemma upToNewline_append (n : ℕ) (s : Text) :
    (upToNewline n s).1 ++ (upToNewline n s).2 = s := by
  induction n generalizing s with
  | zero => rfl
  | succ n ih =>
    cases s with
    | nil => rfl
    | cons c s =>
      rw [upToNewline]
      split_ifs
      · rfl
      · rw [List.cons_append, ih]

/-- A line that is short enough is read completely. -/
lemma upToNewline_line (hs : '\n' ∉ s) (hn : s.length < n) (rest : Text) :
    upToNewline n (s ++ '\n' :: rest) = (s ++ ['\n'], rest) := by
  induction s generalizing n with
  | nil =>
    obtain ⟨n, rfl⟩ := Nat.exists_eq_succ_of_ne_zero (Nat.ne_of_gt hn)
    rw [List.nil_append, upToNewline, if_pos rfl]
    rfl
  | cons c s ih =>
    obtain ⟨n, rfl⟩ := Nat.exists_eq_succ_of_ne_zero (Nat.ne_of_gt (Nat.zero_lt_of_lt hn))
    rw [List.mem_cons, not_or] at hs
    rw [List.cons_append, upToNewline, if_neg (Ne.symm hs.1),
      ih hs.2 (Nat.lt_of_succ_lt_succ hn)]
    rfl

/-- Of a longer line as much is read as fits. -/
lemma upToNewline_long (hs : '\n' ∉ s) (rest : Text) :
    upToNewline s.length (s ++ rest) = (s, rest) := by
  induction s with
  | nil => rfl
  | cons c s ih =>
    rw [List.mem_cons, not_or] at hs
    rw [List.length_cons, List.cons_append, upToNewline, if_neg (Ne.symm hs.1), ih hs.2]

/-- Text without a new line that is not enough is read together with what follows. -/
lemma upToNewline_short (hs : '\n' ∉ s) (hn : s.length ≤ n) (rest : Text) :
    upToNewline n (s ++ rest)
      = (s ++ (upToNewline (n - s.length) rest).1, (upToNewline (n - s.length) rest).2) := by
  induction s generalizing n with
  | nil => rfl
  | cons c s ih =>
    obtain ⟨n, rfl⟩ := Nat.exists_eq_succ_of_ne_zero (Nat.ne_of_gt (Nat.zero_lt_of_lt hn))
    rw [List.mem_cons, not_or] at hs
    rw [List.cons_append, upToNewline, if_neg (Ne.symm hs.1), ih hs.2 (Nat.le_of_succ_le_succ hn),
      List.length_cons, Nat.succ_sub_succ]
    rfl

lemma fgets_of_ne_nil (hs : s ≠ []) :
    fgets bufferSize s = some (upToNewline (bufferSize - 1) s) :=
  if_neg hs

/-! ## Headers -/

lemma blank_newline : blank '\n' = true := by decide

lemma blank_colon : blank ':' = false := by decide

lemma dropWhile_eq_self (h : ∀ c ∈ s.head?, blank c = false) : s.dropWhile blank = s := by
  cases s with
  | nil => rfl
  | cons c s => rw [List.dropWhile_cons_of_neg (by simp [h c rfl])]

lemma rdropWhile_append_of_neg {c : Char} (hc : blank c = false) (x y : Text) :
    (x ++ c :: y).rdropWhile blank = x ++ c :: y.rdropWhile blank := by
  induction y using List.reverseRecOn with
  | nil => rw [List.rdropWhile_concat_neg _ _ _ (by simp [hc])]; simp
  | append_singleton y d ih =>
    by_cases hd : blank d
    · rw [← List.cons_append, ← List.append_assoc, List.rdropWhile_concat_pos _ _ _ hd, ih,
        List.rdropWhile_concat_pos _ _ _ hd]
    · rw [← List.cons_append, ← List.append_assoc, List.rdropWhile_concat_neg _ _ _ hd,
        List.append_assoc, List.cons_append, List.rdropWhile_concat_neg _ _ _ hd]

/-- Blanks can be removed from either end first. -/
lemma dropWhile_rdropWhile (s : Text) :
    (s.rdropWhile blank).dropWhile blank = (s.dropWhile blank).rdropWhile blank := by
  induction s with
  | nil => rfl
  | cons c s ih =>
    by_cases hc : blank c
    · rw [List.dropWhile_cons_of_pos hc, ← ih]
      by_cases hall : ∀ d ∈ s, blank d
      · have hs : s.rdropWhile blank = [] := List.rdropWhile_eq_nil_iff.2 hall
        have hcs : (c :: s).rdropWhile blank = [] := by
          rw [List.rdropWhile_eq_nil_iff]
          intro d hd
          rcases List.mem_cons.1 hd with rfl | hd
          · exact hc
          · exact hall d hd
        rw [hs, hcs]
      · push Not at hall
        obtain ⟨d, hd, hblank⟩ := hall
        obtain ⟨x, y, rfl⟩ := List.append_of_mem hd
        have hfalse : blank d = false := by simpa using hblank
        rw [← List.cons_append, rdropWhile_append_of_neg hfalse, rdropWhile_append_of_neg hfalse,
          List.cons_append, List.dropWhile_cons_of_pos hc]
    · rw [Bool.not_eq_true] at hc
      have hcs : (c :: s).rdropWhile blank = c :: s.rdropWhile blank :=
        rdropWhile_append_of_neg hc [] s
      rw [hcs, List.dropWhile_cons_of_neg (by simp [hc]), List.dropWhile_cons_of_neg (by simp [hc]),
        hcs]

lemma trim_rdropWhile (s : Text) : trim (s.rdropWhile blank) = trim s := by
  rw [trim, dropWhile_rdropWhile, List.rdropWhile_idempotent, trim]

lemma trim_cons_blank {c : Char} (hc : blank c = true) (s : Text) : trim (c :: s) = trim s := by
  rw [trim, List.dropWhile_cons_of_pos hc, trim]

lemma trim_trim (s : Text) : trim (trim s) = trim s := by
  have hdrop : (s.dropWhile blank).dropWhile blank = s.dropWhile blank :=
    List.dropWhile_idempotent blank s
  rw [trim, trim, ← dropWhile_rdropWhile, dropWhile_rdropWhile, dropWhile_rdropWhile, hdrop,
    List.rdropWhile_idempotent]

/-- A name has no blank at its beginning. -/
lemma dropWhile_of_trim (hs : trim s = s) : s.dropWhile blank = s := by
  have hlength : s.length ≤ (s.dropWhile blank).length := by
    calc s.length = (trim s).length := by rw [hs]
      _ ≤ (s.dropWhile blank).length := (List.rdropWhile_prefix blank _).length_le
  exact (List.dropWhile_suffix blank).eq_of_length_le hlength

/-- What is read as the value. -/
def readValue (value : Text) : Text :=
  trim (((' ' :: value).rdropWhile blank).takeWhile (· ≠ ':'))

lemma trim_line (hname : trim h.1 = h.1) :
    trim (line h) = h.1 ++ ':' :: (' ' :: h.2).rdropWhile blank := by
  have hdrop : (line h).dropWhile blank = line h := by
    refine dropWhile_eq_self ?_
    rw [line, List.append_assoc]
    rcases hh : h.1 with _ | ⟨c, name⟩
    · intro c hc
      obtain rfl : ':' = c := Option.some.inj hc
      exact blank_colon
    · have hfirst := dropWhile_of_trim hname
      rw [hh] at hfirst
      intro d hd
      obtain rfl : c = d := Option.some.inj hd
      by_contra hblank
      rw [List.dropWhile_cons_of_pos (by simpa using hblank)] at hfirst
      have hlength := congrArg List.length hfirst
      have hle := (List.dropWhile_suffix (l := name) blank).length_le
      rw [List.length_cons] at hlength
      omega
  have hvalue : (' ' :: h.2 ++ ['\n']).rdropWhile blank = (' ' :: h.2).rdropWhile blank :=
    List.rdropWhile_concat_pos _ _ _ blank_newline
  have hline : line h = h.1 ++ ':' :: (' ' :: h.2 ++ ['\n']) := by simp [line]
  rw [trim, hdrop, hline, rdropWhile_append_of_neg blank_colon, hvalue]

lemma headD_splitOn (s : Text) : (s.splitOn ':').getD 0 [] = s.takeWhile (· ≠ ':') := by
  by_cases hs : ':' ∈ s
  · obtain ⟨x, y, rfl, hx⟩ := List.eq_append_cons_of_mem hs
    have hne : ∀ c ∈ x, (c == ':') = false := by
      intro c hc
      rw [beq_eq_false_iff_ne]
      rintro rfl
      exact hx hc
    rw [List.splitOn_eq_splitOnP, List.splitOnP_append_cons_of_forall_mem hne ':' (by simp),
      List.getD_cons_zero, List.takeWhile_append_of_pos, List.takeWhile_cons_of_neg (by simp),
      List.append_nil]
    intro c hc
    simpa using hne c hc
  · have hne : ∀ c ∈ s, (c == ':') = false := by
      intro c hc
      rw [beq_eq_false_iff_ne]
      rintro rfl
      exact hs hc
    rw [List.splitOn_eq_splitOnP, List.splitOnP_eq_singleton hne, List.getD_cons_zero,
      List.takeWhile_eq_self_iff.2]
    intro c hc
    simpa using hne c hc

/-- A header line adds its name with what is read as the value. -/
lemma addHeader_line (hname : ':' ∉ h.1 ∧ trim h.1 = h.1) (event : Event) :
    addHeader event (trim (line h)) = Function.update event h.1 (some (.string (readValue h.2))) := by
  have hsplit : (trim (line h)).splitOn ':'
      = h.1 :: ((' ' :: h.2).rdropWhile blank).splitOn ':' := by
    rw [trim_line hname.2, List.splitOn_eq_splitOnP]
    refine List.splitOnP_append_cons_of_forall_mem ?_ ':' (by simp) _
    rintro c hc
    simp only [beq_eq_false_iff_ne]
    rintro rfl
    exact hname.1 hc
  have hcolon : ':' ∈ trim (line h) := by
    rw [trim_line hname.2]
    simp
  rw [addHeader, if_pos hcolon, hsplit]
  dsimp only
  rw [List.getD_cons_zero, List.getD_cons_succ, headD_splitOn, hname.2, readValue]

/-- A value is read as it was sent when it has no colon in it and no blanks around it. -/
lemma readValue_eq_iff (value : Text) :
    readValue value = value ↔ ':' ∉ value ∧ trim value = value := by
  constructor
  · intro hread
    refine ⟨fun hcolon => ?_, ?_⟩
    · rw [← hread, readValue, trim] at hcolon
      have hmem := (List.dropWhile_suffix _).subset ((List.rdropWhile_prefix blank _).subset hcolon)
      have hne := List.mem_takeWhile_imp hmem
      simp at hne
    · rw [← hread, readValue, trim_trim]
  · rintro ⟨hcolon, htrim⟩
    have hall : ((' ' :: value).rdropWhile blank).takeWhile (· ≠ ':')
        = (' ' :: value).rdropWhile blank := by
      rw [List.takeWhile_eq_self_iff]
      intro c hc
      have hmem := (List.rdropWhile_prefix blank _).subset hc
      rcases List.mem_cons.1 hmem with rfl | hmem
      · decide
      · simp only [ne_eq, decide_not, Bool.not_eq_eq_eq_not, Bool.not_true, decide_eq_false_iff_not]
        rintro rfl
        exact hcolon hmem
    rw [readValue, hall, trim_rdropWhile, trim_cons_blank (by decide), htrim]

/-! ## Bodies -/

/-- The text behind the last new line. -/
def lastLine : Text → Text
  | [] => []
  | c :: s => if '\n' ∈ c :: s then lastLine s else c :: s

lemma lastLine_of_not_mem (hs : '\n' ∉ s) : lastLine s = s := by
  cases s with
  | nil => rfl
  | cons c s => rw [lastLine, if_neg hs]

lemma lastLine_append_newline (x y : Text) : lastLine (x ++ '\n' :: y) = lastLine y := by
  induction x with
  | nil => rw [List.nil_append, lastLine, if_pos List.mem_cons_self]
  | cons c x ih => rw [List.cons_append, lastLine, if_pos (by simp), ih]

lemma lastLine_append (hy : '\n' ∈ y) (x : Text) : lastLine (x ++ y) = lastLine y := by
  obtain ⟨before, behind, rfl⟩ := List.append_of_mem hy
  rw [← List.append_assoc, lastLine_append_newline, lastLine_append_newline]

/-- How a piece of at most so many bytes is read off a body: it is not even the end of the body, or
it is a part of it, of which the last line lacks none or all of these bytes. -/
lemma exists_piece {size : ℕ} (hsize : 2 ≤ size) (body : Text) :
    ('\n' ∉ body ∧ body.length < size) ∨
      ∃ piece behind q, body = piece ++ behind ∧ piece ≠ [] ∧ truthy piece = true ∧
        (∀ rest, upToNewline size (body ++ rest) = (piece, behind ++ rest)) ∧
        (lastLine body).length = size * q + (lastLine behind).length := by
  by_cases hnewline : '\n' ∈ body.take size
  · obtain ⟨s, y, htake, hs⟩ := List.eq_append_cons_of_mem hnewline
    have hlength := congrArg List.length htake
    rw [List.length_take, List.length_append, List.length_cons] at hlength
    have hbody : body = s ++ '\n' :: (y ++ body.drop size) := by
      conv_lhs => rw [← List.take_append_drop size body, htake]
      simp
    refine Or.inr ⟨s ++ ['\n'], y ++ body.drop size, 0, by simp [← hbody], by simp, ?_, ?_, ?_⟩
    · rcases s with _ | ⟨c, s⟩ <;> simp [truthy]
    · intro rest
      conv_lhs => rw [hbody]
      rw [List.append_assoc, List.cons_append, upToNewline_line hs (by omega)]
    · conv_lhs => rw [hbody]
      rw [lastLine_append_newline, Nat.mul_zero, Nat.zero_add]
  · by_cases hshort : body.length < size
    · rw [List.take_of_length_le hshort.le] at hnewline
      exact Or.inl ⟨hnewline, hshort⟩
    · have hlength : (body.take size).length = size := List.length_take_of_le (by omega)
      have htruthy : truthy (body.take size) = true := by
        rw [truthy, Bool.and_eq_true, bne_iff_ne, bne_iff_ne]
        constructor <;> intro heq <;> rw [heq] at hlength <;> simp at hlength <;> omega
      have hread : ∀ rest, upToNewline size (body ++ rest)
          = (body.take size, body.drop size ++ rest) := by
        intro rest
        have h := upToNewline_long hnewline (body.drop size ++ rest)
        rwa [hlength, ← List.append_assoc, List.take_append_drop] at h
      have hne : body.take size ≠ [] := by
        intro hnil
        rw [hnil] at hlength
        simp at hlength
        omega
      by_cases hbehind : '\n' ∈ body.drop size
      · refine Or.inr ⟨_, _, 0, (List.take_append_drop size body).symm, hne, htruthy, hread, ?_⟩
        conv_lhs => rw [← List.take_append_drop size body, lastLine_append hbehind]
        omega
      · refine Or.inr ⟨_, _, 1, (List.take_append_drop size body).symm, hne, htruthy, hread, ?_⟩
        have hall : '\n' ∉ body := by
          rw [← List.take_append_drop size body, List.mem_append]
          exact not_or.2 ⟨hnewline, hbehind⟩
        rw [lastLine_of_not_mem hall, lastLine_of_not_mem hbehind, List.length_drop]
        omega

lemma append_append (content : Value) (x y : Text) :
    (content.append x).append y = content.append (x ++ y) := by
  cases content with
  | null => rfl
  | string s => simp [Value.append]

lemma append_inj {content : Value} {x y : Text} (h : content.append x = content.append y) :
    x = y := by
  cases content with
  | null => exact Value.string.inj h
  | string s => exact List.append_cancel_left (Value.string.inj h)

/-- **Where the reading of a body ends.**  The last line of the body is read in pieces of one size,
the last of which may be shorter where the stream ends; only a lone zero is then not taken. -/
def EndsThere (bufferSize : ℕ) (body rest : Text) : Prop :=
  (bufferSize - 1) ∣ (lastLine body).length ∨
    rest = [] ∧ ¬ ((lastLine body).length % (bufferSize - 1) = 1 ∧ body.getLast? = some '0')

/-- What was read off the beginning does not matter. -/
lemma endsThere_append {piece behind : Text} {q : ℕ} (hbehind : behind ≠ [])
    (hlast : (lastLine (piece ++ behind)).length
      = (bufferSize - 1) * q + (lastLine behind).length) :
    EndsThere bufferSize (piece ++ behind) rest ↔ EndsThere bufferSize behind rest := by
  rw [EndsThere, EndsThere, hlast, Nat.mul_add_mod, List.getLast?_append_of_ne_nil _ hbehind,
    Nat.dvd_add_right (Nat.dvd_mul_right _ _)]

lemma ne_append_of_ne_nil {content : Value} (hs : s ≠ []) : content ≠ content.append s := by
  cases content with
  | null => exact Value.noConfusion
  | string t =>
    intro h
    exact hs (List.self_eq_append_right.1 (Value.string.inj h))

lemma truthy_eq_false (hs : s ≠ []) : truthy s = false ↔ s = ['0'] := by
  simp [truthy, hs]

lemma upToNewline_ne_nil {k : ℕ} (hk : 0 < k) (hs : s ≠ []) : (upToNewline k s).1 ≠ [] := by
  obtain ⟨k, rfl⟩ := Nat.exists_eq_succ_of_ne_zero (Nat.ne_of_gt hk)
  obtain ⟨c, s, rfl⟩ := List.exists_cons_of_ne_nil hs
  rw [upToNewline]
  split_ifs <;> simp

/-- The rest of the last line goes on into what follows, which is only right at the end of the
stream. -/
lemma last_round_iff {contentLen content : Value} (hbody : body ≠ [])
    (hlen : contentLen.number = (len + body.length : ℕ)) (hnewline : '\n' ∉ body)
    (hshort : body.length < bufferSize - 1) :
    lengthLoop bufferSize contentLen (fuel + 1) len content (body ++ rest)
      = (content.append body, rest) ↔ EndsThere bufferSize body rest := by
  have hne : body ++ rest ≠ [] := fun h => hbody (List.append_eq_nil_iff.1 h).1
  have hpos := List.length_pos_of_ne_nil hbody
  have hdvd : ¬ (bufferSize - 1) ∣ (lastLine body).length := by
    rw [lastLine_of_not_mem hnewline]
    exact Nat.not_dvd_of_pos_of_lt hpos hshort
  rw [lengthLoop, fgets_of_ne_nil hne]
  dsimp only
  rw [upToNewline_short hnewline hshort.le]
  dsimp only
  rw [EndsThere, lastLine_of_not_mem hnewline, Nat.mod_eq_of_lt hshort]
  rw [lastLine_of_not_mem hnewline] at hdvd
  by_cases hrest : rest = []
  · subst hrest
    have hempty : upToNewline (bufferSize - 1 - body.length) [] = ([], []) := by
      cases bufferSize - 1 - body.length <;> rfl
    rw [hempty, List.append_nil]
    by_cases htruthy : truthy body = true
    · rw [if_pos htruthy, if_pos (Int.le_of_eq hlen)]
      refine iff_of_true rfl (Or.inr ⟨rfl, ?_⟩)
      rintro ⟨hone, hzero⟩
      obtain ⟨c, rfl⟩ := List.length_eq_one_iff.1 hone
      obtain rfl : c = '0' := Option.some.inj hzero
      exact absurd htruthy (by decide)
    · rw [if_neg htruthy]
      rw [Bool.not_eq_true, truthy_eq_false hbody] at htruthy
      refine iff_of_false (fun h => ne_append_of_ne_nil hbody (Prod.mk.inj h).1) ?_
      rintro (h | ⟨-, h⟩)
      · exact hdvd h
      · exact h (by rw [htruthy]; exact ⟨rfl, rfl⟩)
  · have hpiece := upToNewline_ne_nil (Nat.sub_pos_of_lt hshort) hrest
    generalize upToNewline (bufferSize - 1 - body.length) rest = found at hpiece
    have hmore := List.length_pos_of_ne_nil hpiece
    have htruthy : truthy (body ++ found.1) = true := by
      by_contra hfalse
      rw [Bool.not_eq_true, truthy_eq_false (by simp [hbody])] at hfalse
      have hlength := congrArg List.length hfalse
      rw [List.length_append, List.length_singleton] at hlength
      omega
    have henough : contentLen.number ≤ ((len + (body ++ found.1).length : ℕ) : ℤ) := by
      rw [hlen, List.length_append]
      omega
    rw [if_pos htruthy, if_pos henough]
    refine iff_of_false (fun h => ?_) ?_
    · have hsame := append_inj (Prod.mk.inj h).1
      exact hpiece (List.append_right_eq_self.1 hsame)
    · rintro (h | ⟨h, -⟩)
      · exact hdvd h
      · exact hrest h

/-- The body is read exactly when its last piece ends there, by induction on what is left of it. -/
lemma lengthLoop_iff {contentLen content : Value} (hsize : 3 ≤ bufferSize) (hbody : body ≠ [])
    (hlen : contentLen.number = (len + body.length : ℕ)) (hfuel : body.length < fuel) :
    lengthLoop bufferSize contentLen fuel len content (body ++ rest)
      = (content.append body, rest) ↔ EndsThere bufferSize body rest := by
  induction fuel generalizing body len content with
  | zero => exact absurd hfuel (Nat.not_lt_zero _)
  | succ fuel ih =>
    rcases exists_piece (by omega : 2 ≤ bufferSize - 1) body with
      ⟨hnewline, hshort⟩ | ⟨piece, behind, q, rfl, hpiece, htruthy, hread, hlast⟩
    · exact last_round_iff hbody hlen hnewline hshort
    · have hne : piece ++ behind ++ rest ≠ [] := fun h => hbody (List.append_eq_nil_iff.1 h).1
      rw [lengthLoop, fgets_of_ne_nil hne]
      dsimp only
      rw [hread, if_pos htruthy]
      rw [List.length_append] at hlen hfuel
      have hpos := List.length_pos_of_ne_nil hpiece
      by_cases hbehind : behind = []
      · subst hbehind
        rw [if_pos (by rw [hlen]; simp), List.append_nil]
        refine iff_of_true rfl (Or.inl ?_)
        rw [List.append_nil] at hlast
        rw [hlast]
        exact ⟨q, rfl⟩
      · have hmore := List.length_pos_of_ne_nil hbehind
        have hmissing : ¬ contentLen.number ≤ ((len + piece.length : ℕ) : ℤ) := by
          rw [hlen]
          omega
        rw [if_neg hmissing, endsThere_append hbehind hlast, ← append_append]
        exact ih hbehind (by rw [hlen, Nat.add_assoc]) (by omega)

/-- An empty body is not read: at least one piece is, if there is any. -/
lemma lengthLoop_ne_empty {contentLen : Value} (hlen : contentLen.number = 0) :
    lengthLoop bufferSize contentLen (fuel + 1) 0 .null rest ≠ (.string [], rest) := by
  intro hread
  by_cases hrest : rest = []
  · subst hrest
    cases (Prod.mk.inj hread).1
  · have hsplit := upToNewline_append (bufferSize - 1) rest
    rw [lengthLoop, fgets_of_ne_nil hrest] at hread
    dsimp only at hread
    generalize upToNewline (bufferSize - 1) rest = found at hread hsplit
    split_ifs at hread with htruthy henough
    · have hnil : found.1 = [] := Value.string.inj (Prod.mk.inj hread).1
      rw [hnil] at htruthy
      exact absurd htruthy (by decide)
    · rw [hlen] at henough
      exact absurd (Int.natCast_nonneg _) henough
    · cases (Prod.mk.inj hread).1

/-- **A body is read exactly** when it is not empty and its reading ends there. -/
lemma sockGetLength_iff {digits : Text} (hsize : 3 ≤ bufferSize)
    (hdigits : decimal digits = some body.length) :
    sockGetLength bufferSize (.string digits) (body ++ rest) = (.string body, rest) ↔
      body ≠ [] ∧ EndsThere bufferSize body rest := by
  have hnumber : (Value.string digits).number = (0 + body.length : ℕ) := by
    rw [Nat.zero_add]
    exact CString.leadingInt_of_decimal hdigits
  rw [sockGetLength]
  by_cases hbody : body = []
  · subst hbody
    exact iff_of_false (lengthLoop_ne_empty hnumber) fun h => h.1 rfl
  · have hiff : lengthLoop bufferSize (.string digits) ((body ++ rest).length + 1) 0 .null
        (body ++ rest) = (Value.null.append body, rest) ↔ EndsThere bufferSize body rest :=
      lengthLoop_iff hsize hbody hnumber (by rw [List.length_append]; omega)
    exact hiff.trans (and_iff_right hbody).symm

/-! ## Messages -/

namespace Message

/-- The event has the headers of the message with their full values, the body under its key, and
nothing else. -/
structure Carries (m : Message bufferSize) (event : Event) : Prop where
  headers : ∀ name value, dictionary m.headers name = some value →
    event name = some (.string value)
  body : m.HasLength → event "Body".toList = some (.string m.body)
  only : ∀ name, event name ≠ none →
    dictionary m.headers name ≠ none ∨ m.HasLength ∧ name = "Body".toList

/-- **What `sock_get` can tell apart.** -/
structure Separated (m : Message bufferSize) (rest : Text) : Prop where
  values : ∀ name value, dictionary m.headers name = some value →
    ¬ (m.HasLength ∧ name = "Body".toList) → ':' ∉ value ∧ trim value = value
  reserved : m.HasLength → ∀ value, dictionary m.headers "Body".toList = some value →
    value = m.body
  body : m.HasLength → m.body ≠ [] ∧ EndsThere bufferSize m.body rest

lemma four_le_bufferSize (m : Message bufferSize) : 4 ≤ bufferSize := by
  obtain ⟨h, headers, hheaders⟩ := List.exists_cons_of_ne_nil m.nonempty
  have hshort := m.short h (by rw [hheaders]; exact List.mem_cons_self)
  simp only [line, List.length_append, List.length_cons, List.length_nil] at hshort
  omega

end Message

/-- The event after the header lines. -/
def parsed (headers : List (Text × Text)) : Event :=
  fun name => (dictionary headers name).map fun value => .string (readValue value)

def addValue (event : Event) (h : Text × Text) : Event :=
  Function.update event h.1 (some (.string (readValue h.2)))

lemma foldl_addValue (headers : List (Text × Text)) :
    headers.foldl addValue (fun _ => none) = parsed headers := by
  induction headers using List.reverseRecOn with
  | nil => rfl
  | append_singleton headers h ih =>
    rw [List.foldl_append, ih]
    funext name
    rw [parsed, dictionary, List.foldl_append, ← dictionary]
    by_cases hname : name = h.1
    · subst hname
      simp [addValue]
    · simp [addValue, hname, parsed]

lemma truthy_of_mem {c : Char} (hs : c ∈ s) (hc : c ≠ '0') : truthy s = true := by
  rw [truthy, Bool.and_eq_true, bne_iff_ne, bne_iff_ne]
  constructor
  · rintro rfl
    exact absurd hs List.not_mem_nil
  · rintro rfl
    exact hc (List.mem_singleton.1 hs)

/-- Header lines are read one by one. -/
lemma getLoop_headers (hnames : ∀ h ∈ headers, ':' ∉ h.1 ∧ '\n' ∉ h.1 ∧ trim h.1 = h.1)
    (hvalues : ∀ h ∈ headers, '\n' ∉ h.2) (hshort : ∀ h ∈ headers, (line h).length < bufferSize)
    (event : Event) :
    getLoop bufferSize (headers.length + fuel) event (headers.flatMap line ++ rest)
      = getLoop bufferSize fuel (headers.foldl addValue event) rest := by
  induction headers generalizing event with
  | nil => rw [List.length_nil, Nat.zero_add]; rfl
  | cons h headers ih =>
    obtain ⟨hcolon, hnewline, htrim⟩ := hnames h List.mem_cons_self
    have hline : line h = (h.1 ++ ':' :: ' ' :: h.2) ++ ['\n'] := by simp [line]
    have honeLine : '\n' ∉ h.1 ++ ':' :: ' ' :: h.2 := by
      simp [hnewline, hvalues h List.mem_cons_self]
    have hfits : (h.1 ++ ':' :: ' ' :: h.2).length < bufferSize - 1 := by
      have := hshort h List.mem_cons_self
      rw [hline, List.length_append, List.length_singleton] at this
      omega
    have hread : fgets bufferSize (line h ++ (headers.flatMap line ++ rest))
        = some (line h, headers.flatMap line ++ rest) := by
      have hne : line h ++ (headers.flatMap line ++ rest) ≠ [] := by simp [line]
      rw [fgets_of_ne_nil hne, hline, List.append_assoc, List.singleton_append,
        upToNewline_line honeLine hfits]
    have htruthy : truthy (line h) = true := by
      refine truthy_of_mem (c := ':') ?_ (by decide)
      simp [line]
    have hne : trim (line h) ≠ [] := by
      rw [trim_line htrim]
      simp
    have hfuel : (h :: headers).length + fuel = (headers.length + fuel) + 1 := by
      rw [List.length_cons]
      omega
    rw [hfuel, List.flatMap_cons, List.append_assoc, getLoop, hread]
    dsimp only
    rw [if_pos htruthy, if_pos hne, addHeader_line ⟨hcolon, htrim⟩]
    exact ih (fun h' hh => hnames h' (List.mem_cons_of_mem h hh))
      (fun h' hh => hvalues h' (List.mem_cons_of_mem h hh))
      (fun h' hh => hshort h' (List.mem_cons_of_mem h hh)) _

/-- The empty line ends the headers. -/
lemma getLoop_emptyLine (hsize : 3 ≤ bufferSize) (event : Event) :
    getLoop bufferSize (fuel + 1) event ('\n' :: rest)
      = match event "Content-Length".toList with
        | some contentLen =>
          let body := sockGetLength bufferSize contentLen rest
          (Function.update event "Body".toList (some body.1), body.2)
        | none => (event, rest) := by
  have hread : fgets bufferSize ('\n' :: rest) = some (['\n'], rest) := by
    rw [fgets_of_ne_nil (List.cons_ne_nil _ _)]
    have h := upToNewline_line (s := []) (n := bufferSize - 1) List.not_mem_nil
      (by rw [List.length_nil]; omega) rest
    rw [List.nil_append] at h
    rw [h]
    rfl
  have hblank : trim ['\n'] = [] := by decide
  rw [getLoop, hread]
  dsimp only
  exact (if_pos (by decide)).trans (if_neg (by rw [hblank]; simp))

/-- A numeral is read as it was sent. -/
lemma readValue_of_decimal {digits : Text} (hdigits : decimal digits = some n) :
    readValue digits = digits := by
  have hall := isDigit_of_decimal hdigits
  have hblank : ∀ c ∈ digits, blank c = false := by
    intro c hc
    have hdigit := hall c hc
    simp only [blank, List.mem_cons, List.not_mem_nil, or_false, decide_eq_false_iff_not, not_or]
    refine ⟨?_, ?_, ?_, ?_, ?_, ?_⟩ <;> rintro rfl <;> exact absurd hdigit (by decide)
  have hdrop : digits.dropWhile blank = digits :=
    dropWhile_eq_self fun c hc => hblank c (List.mem_of_mem_head? hc)
  rw [readValue_eq_iff]
  refine ⟨fun hcolon => absurd (hall ':' hcolon) (by decide), ?_⟩
  rw [trim, hdrop, List.rdropWhile_eq_self_iff]
  intro hne
  simp [hblank _ (List.getLast_mem hne)]

lemma length_le_flatMap (headers : List (Text × Text)) :
    headers.length ≤ (headers.flatMap line).length := by
  induction headers with
  | nil => exact Nat.le_refl 0
  | cons h headers ih =>
    have hline : line h ≠ [] := by simp [line]
    have hpos := List.length_pos_of_ne_nil hline
    rw [List.flatMap_cons, List.length_append, List.length_cons]
    omega

lemma sockGet_wire (m : Message bufferSize) (rest : Text) :
    sockGet bufferSize (m.wire ++ rest) = match parsed m.headers "Content-Length".toList with
      | some contentLen =>
        let body := sockGetLength bufferSize contentLen (m.body ++ rest)
        (Function.update (parsed m.headers) "Body".toList (some body.1), body.2)
      | none => (parsed m.headers, m.body ++ rest) := by
  have hsize := m.four_le_bufferSize
  have hwire : m.wire ++ rest = m.headers.flatMap line ++ '\n' :: (m.body ++ rest) := by
    simp [Message.wire]
  obtain ⟨fuel, hfuel⟩ : ∃ fuel, (m.wire ++ rest).length + 1 = m.headers.length + (fuel + 1) := by
    have hle := length_le_flatMap m.headers
    refine ⟨(m.wire ++ rest).length - m.headers.length, ?_⟩
    rw [hwire, List.length_append]
    omega
  rw [sockGet, hfuel, hwire, getLoop_headers m.names m.values m.short, foldl_addValue,
    getLoop_emptyLine (by omega)]

namespace Message

variable {digits : Text}

lemma exists_length (hlength : m.HasLength) :
    ∃ digits, dictionary m.headers "Content-Length".toList = some digits ∧
      decimal digits = some m.body.length := by
  obtain ⟨digits, hdigits⟩ := Option.ne_none_iff_exists'.1 hlength
  have hframed := m.framed
  rw [Framed, hdigits] at hframed
  exact ⟨digits, hdigits, hframed⟩

/-- Without a content length, the event is right when the values are. -/
lemma carries_of_no_length (hlength : ¬ m.HasLength) :
    m.Carries (parsed m.headers) ∧ m.body ++ rest = rest ↔ m.Separated rest := by
  have hbody : m.body = [] := by
    have hframed := m.framed
    rw [Framed, not_not.1 hlength] at hframed
    exact hframed
  rw [hbody, List.nil_append, and_iff_left rfl]
  constructor
  · intro hcarries
    refine ⟨fun name value hname _ => ?_, fun h => absurd h hlength, fun h => absurd h hlength⟩
    have hread := hcarries.headers name value hname
    rw [parsed, hname, Option.map_some] at hread
    exact (readValue_eq_iff value).1 (Value.string.inj (Option.some.inj hread))
  · intro hsep
    refine ⟨fun name value hname => ?_, fun h => absurd h hlength, fun name hname => Or.inl ?_⟩
    · have hplain := hsep.values name value hname fun h => hlength h.1
      rw [parsed, hname, Option.map_some, (readValue_eq_iff value).2 hplain]
    · intro hnone
      rw [parsed, hnone] at hname
      exact hname rfl

/-- With a content length, the body is to be right too. -/
lemma carries_of_length (hlength : m.HasLength) {content : Value} :
    m.Carries (Function.update (parsed m.headers) "Body".toList (some content)) ↔
      (∀ name value, dictionary m.headers name = some value →
          ¬ (m.HasLength ∧ name = "Body".toList) → ':' ∉ value ∧ trim value = value) ∧
        (m.HasLength → ∀ value, dictionary m.headers "Body".toList = some value →
          value = m.body) ∧ content = .string m.body := by
  constructor
  · intro hcarries
    have hcontent : content = .string m.body := by
      have hbody := hcarries.body hlength
      rw [Function.update_self] at hbody
      exact Option.some.inj hbody
    refine ⟨fun name value hname hother => ?_, fun _ value hvalue => ?_, hcontent⟩
    · have hne : name ≠ "Body".toList := fun heq => hother ⟨hlength, heq⟩
      have hread := hcarries.headers name value hname
      rw [Function.update_of_ne hne, parsed, hname, Option.map_some] at hread
      exact (readValue_eq_iff value).1 (Value.string.inj (Option.some.inj hread))
    · have hread := hcarries.headers _ value hvalue
      rw [Function.update_self, hcontent] at hread
      exact (Value.string.inj (Option.some.inj hread)).symm
  · rintro ⟨hvalues, hreserved, rfl⟩
    refine ⟨fun name value hname => ?_, fun _ => Function.update_self _ _ _, fun name hname => ?_⟩
    · by_cases heq : name = "Body".toList
      · subst heq
        rw [Function.update_self, hreserved hlength value hname]
      · have hplain := hvalues name value hname fun h => heq h.2
        rw [Function.update_of_ne heq, parsed, hname, Option.map_some,
          (readValue_eq_iff value).2 hplain]
    · by_cases heq : name = "Body".toList
      · exact Or.inr ⟨hlength, heq⟩
      · rw [Function.update_of_ne heq] at hname
        refine Or.inl fun hnone => hname ?_
        rw [parsed, hnone, Option.map_none]

end Message

/-- **One call**: a message is read back, with exactly its bytes, when it can be told apart from
what follows. -/
lemma sockGet_iff (m : Message bufferSize) (rest : Text) :
    m.Carries (sockGet bufferSize (m.wire ++ rest)).1 ∧
      (sockGet bufferSize (m.wire ++ rest)).2 = rest ↔ m.Separated rest := by
  have hsize := m.four_le_bufferSize
  rw [sockGet_wire]
  by_cases hlength : m.HasLength
  · obtain ⟨digits, hdigits, hdecimal⟩ := m.exists_length hlength
    have hiff : sockGetLength bufferSize (.string digits) (m.body ++ rest) = (.string m.body, rest)
        ↔ _ := sockGetLength_iff (by omega) hdecimal
    have hfound : parsed m.headers "Content-Length".toList = some (.string digits) := by
      rw [parsed, hdigits, Option.map_some, readValue_of_decimal hdecimal]
    simp only [hfound]
    generalize sockGetLength bufferSize (.string digits) (m.body ++ rest) = found at hiff
    rw [Prod.ext_iff] at hiff
    rw [Message.carries_of_length hlength]
    constructor
    · rintro ⟨⟨hvalues, hreserved, hcontent⟩, hrest⟩
      exact ⟨hvalues, hreserved, fun _ => hiff.1 ⟨hcontent, hrest⟩⟩
    · intro hsep
      obtain ⟨hcontent, hrest⟩ := hiff.2 (hsep.body hlength)
      exact ⟨⟨hsep.values, hsep.reserved, hcontent⟩, hrest⟩
  · have hfound : parsed m.headers "Content-Length".toList = none := by
      rw [parsed, not_not.1 hlength, Option.map_none]
    simp only [hfound]
    exact Message.carries_of_no_length hlength

/-! ## Successive calls -/

/-- Each call returns the next message, and consumes exactly its bytes. -/
def ReadsBack : List (Message bufferSize) → Text → Prop
  | [], stream => stream = []
  | m :: ms, stream =>
    m.Carries (sockGet bufferSize stream).1 ∧
      (sockGet bufferSize stream).2 = ms.flatMap Message.wire ∧
      ReadsBack ms (sockGet bufferSize stream).2

/-- **Successive calls** read back exactly those sequences in which every message can be told apart
from those behind it. -/
theorem readsBack_iff (ms : List (Message bufferSize)) :
    ReadsBack ms (ms.flatMap Message.wire) ↔
      ∀ m behind, m :: behind <:+ ms → m.Separated (behind.flatMap Message.wire) := by
  induction ms with
  | nil =>
    refine iff_of_true rfl fun m behind hsuffix => ?_
    exact absurd (List.suffix_nil.1 hsuffix) (List.cons_ne_nil _ _)
  | cons m ms ih =>
    have hone := sockGet_iff m (ms.flatMap Message.wire)
    rw [List.flatMap_cons, ReadsBack]
    constructor
    · rintro ⟨hcarries, hrest, hreads⟩ m' behind hsuffix
      rw [hrest] at hreads
      rcases List.suffix_cons_iff.1 hsuffix with heq | hsuffix
      · obtain ⟨rfl, rfl⟩ := List.cons.inj heq
        exact hone.1 ⟨hcarries, hrest⟩
      · exact ih.1 hreads m' behind hsuffix
    · intro hsep
      obtain ⟨hcarries, hrest⟩ := hone.2 (hsep m ms List.suffix_rfl)
      refine ⟨hcarries, hrest, ?_⟩
      rw [hrest]
      exact ih.2 fun m' behind hsuffix => hsep m' behind (hsuffix.trans (List.suffix_cons m ms))

/-- A response without a new line at its end, and a notice. -/
def response : Message 4096 where
  headers := [("Content-Length".toList, ['2'])]
  body := "ok".toList
  nonempty := by decide
  names := by decide
  values := by decide
  short := by decide
  framed := by
    change decimal ['2'] = some 2
    decide

def notice : Message 4096 where
  headers := [("Content-Type".toList, "text/disconnect-notice".toList)]
  body := []
  nonempty := by decide
  names := by decide
  values := by decide
  short := by decide
  framed := by
    change ([] : Text) = []
    rfl

/-- The body of the response swallows the first line of the notice. -/
theorem not_readsBack :
    ¬ ∀ ms : List (Message 4096), ReadsBack ms (ms.flatMap Message.wire) := by
  intro hall
  obtain ⟨hcarries, hrest, -⟩ := hall [response, notice]
  have hlength : response.HasLength := by
    intro hnone
    have hsome : dictionary response.headers "Content-Length".toList = some ['2'] := by decide
    rw [hsome] at hnone
    cases hnone
  have hends := (((sockGet_iff response _).1 ⟨hcarries, hrest⟩).body hlength).2
  rcases hends with hdvd | ⟨hnil, -⟩
  · exact absurd hdvd (by decide)
  · exact absurd hnil (by decide)

end FreeswitchContrib.FsSock

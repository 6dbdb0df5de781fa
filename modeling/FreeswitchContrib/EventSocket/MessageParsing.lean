import FreeswitchContrib.EventSocket.HeaderParsing
import Mathlib.Data.List.Infix

/-!
# Message parsing

`EventMessage` is a message as it is sent.  The parser never removes the empty line that ends a
message, so there is always unconsumed text behind one; and it removes a body only up to the first
empty line in it, so that a body is in the way of the next message unless it ends with empty lines.

For messages that the parser can tell apart, and cuts that do not mislead it about the length of a
body, `receive_separated` says that they are parsed exactly, with nothing but new lines left.
-/

namespace FreeswitchContrib.EventSocket

open Numeral Replaying Replaying.Run

/-! ## Messages as they are sent -/

/-- The body is as long as the content length says, and there is none without a content length. -/
def Framed (lines : List (List Char)) (body : List Char) : Prop :=
  match headerValue lines "Content-Length" with
  | some value => decimal value = some body.length
  | none => body = []

structure EventMessage where
  lines : List (List Char)
  body : List Char
  nonempty : lines ≠ []
  oneLine : ∀ line ∈ lines, line ≠ [] ∧ '\n' ∉ line
  framed : Framed lines body

namespace EventMessage

/-- The header lines without the end of the last one. -/
def headers (m : EventMessage) : List Char :=
  ['\n'].intercalate m.lines

def text (m : EventMessage) : List Char :=
  m.headers ++ '\n' :: '\n' :: m.body

/-- The message that is to be parsed; a reply text is the body of a message without one. -/
def expected (m : EventMessage) : PlainEventMsg where
  contentType := (headerValue m.lines "Content-Type").getD []
  contentLength := if (headerValue m.lines "Content-Length").isSome then m.body.length else -1
  body := if m.body = [] then (headerValue m.lines "Reply-Text").getD [] else m.body

end EventMessage

variable {p p' : Parser} {m : EventMessage} {ms : List EventMessage} {result : Option PlainEventMsg}

/-! ## Unconsumed text -/

lemma parseAll_of_none (h : p.parseOne = .ok (none, p')) : p.parseAll = stop p' := by
  rw [Parser.parseAll]
  split <;> simp_all

lemma parseAll_of_some {msg : PlainEventMsg} (h : p.parseOne = .ok (some msg, p')) :
    p.parseAll = p'.parseAll.after [msg] := by
  rw [Parser.parseAll]
  split <;> simp_all

lemma parseAll_of_error {e : ParseError} (h : p.parseOne = .error e) : p.parseAll = fail e := by
  rw [Parser.parseAll]
  split <;> simp_all

/-- A call leaves text where there was some. -/
lemma parseOne_text_ne_nil (h : p.parseOne = .ok (result, p')) (hne : p.appendPieces.text ≠ []) :
    p'.text ≠ [] ∧ p'.appendPieces = p' := by
  rcases parseOne_ok h with ⟨-, rfl⟩ | ⟨-, i, -, hlt, rfl⟩
  · exact ⟨hne, by simp [Parser.appendPieces]⟩
  · refine ⟨?_, by simp [Parser.appendPieces]⟩
    rw [ne_eq, List.drop_eq_nil_iff]
    omega

lemma parseAll_text_ne_nil (p : Parser) (hne : p.appendPieces.text ≠ [])
    (h : p.parseAll.outcome = .ok p') : p'.text ≠ [] := by
  rcases hone : p.parseOne with e | ⟨_ | msg, p₁⟩
  · rw [parseAll_of_error hone] at h
    cases h
  · rw [parseAll_of_none hone] at h
    obtain rfl : p₁ = p' := Except.ok.inj h
    exact (parseOne_text_ne_nil hone hne).1
  · obtain ⟨htext, hpieces⟩ := parseOne_text_ne_nil hone hne
    have hlt : p₁.appendPieces.text.length < p.appendPieces.text.length := by
      rcases parseOne_ok hone with ⟨hnone, -⟩ | ⟨-, i, hpos, hlt, rfl⟩
      · cases hnone
      · simp only [Parser.appendPieces, List.flatten_nil, List.append_nil,
          List.length_drop] at hlt ⊢
        omega
    rw [parseAll_of_some hone, outcome_after] at h
    exact parseAll_text_ne_nil p₁ (by rwa [hpieces]) h
termination_by p.appendPieces.text.length

/-- **There is always text left**, once there has been some. -/
theorem receive_text_ne_nil (pieces : List (List Char)) :
    ∀ p : Parser, p.text ≠ [] ∨ pieces.flatten ≠ [] → (p.receive pieces).outcome = .ok p' →
      p'.text ≠ [] := by
  induction pieces with
  | nil =>
    intro p hne h
    obtain rfl : p = p' := Except.ok.inj h
    simpa using hne
  | cons piece pieces ih =>
    intro p hne h
    rw [Parser.receive, andThen] at h
    cases hall : (p.append piece).parseAll.outcome with
    | error e =>
      simp only [hall] at h
      cases h
    | ok p₁ =>
      simp only [hall, outcome_after] at h
      refine ih p₁ ?_ h
      by_cases hpiece : (p.append piece).appendPieces.text = []
      · have hnone : p.text = [] ∧ piece = [] := by
          simp only [Parser.append, Parser.appendPieces, List.append_eq_nil_iff,
            List.flatten_append, List.flatten_singleton] at hpiece
          exact ⟨hpiece.1, hpiece.2.2⟩
        rw [List.flatten_cons, hnone.1, hnone.2] at hne
        exact Or.inr (by simpa using hne)
      · exact Or.inl (parseAll_text_ne_nil _ hpiece hall)

lemma text_ne_nil (m : EventMessage) : m.text ≠ [] := by
  simp [EventMessage.text]

variable {text rest x : List Char} {msg : PlainEventMsg} {lines : List (List Char)}

/-! ## Empty lines -/

lemma emptyLineAt_cons_of_ne {c : Char} (hc : c ≠ '\n') (rest : List Char) :
    emptyLineAt (c :: rest) = (emptyLineAt rest).map (· + 1) := by
  rw [emptyLineAt.eq_def]
  split <;> simp_all

lemma emptyLineAt_cons_of_head (hrest : ∀ c ∈ rest.head?, c ≠ '\n') :
    emptyLineAt ('\n' :: rest) = (emptyLineAt rest).map (· + 1) := by
  rw [emptyLineAt.eq_def]
  split <;> simp_all

lemma emptyLineAt_append_left : ∀ {x y : List Char}, emptyLineAt (x ++ y) = none →
    emptyLineAt x = none
  | [], _, _ => rfl
  | c :: x, y, h => by
    by_cases hc : c = '\n'
    · subst hc
      rcases x with _ | ⟨d, x⟩
      · rfl
      · have hd : d ≠ '\n' := by
          rintro rfl
          simp [emptyLineAt] at h
        rw [List.cons_append, List.cons_append, emptyLineAt_cons_of_head (by simpa using hd),
          Option.map_eq_none_iff] at h
        rw [emptyLineAt_cons_of_head (by simpa using hd),
          emptyLineAt_append_left (x := d :: x) (y := y) h, Option.map_none]
    · rw [List.cons_append, emptyLineAt_cons_of_ne hc, Option.map_eq_none_iff] at h
      rw [emptyLineAt_cons_of_ne hc, emptyLineAt_append_left h, Option.map_none]

/-- Behind a text with no empty line in it or at its end, the next one is the first. -/
lemma emptyLineAt_append_of_none : ∀ {x : List Char}, emptyLineAt (x ++ ['\n']) = none →
    emptyLineAt (x ++ '\n' :: '\n' :: rest) = some x.length
  | [], _ => rfl
  | c :: x, h => by
    by_cases hc : c = '\n'
    · subst hc
      rcases x with _ | ⟨d, x⟩
      · simp [emptyLineAt] at h
      · have hd : d ≠ '\n' := by
          rintro rfl
          simp [emptyLineAt] at h
        rw [List.cons_append, List.cons_append, emptyLineAt_cons_of_head (by simpa using hd),
          Option.map_eq_none_iff] at h
        rw [List.cons_append, List.cons_append, emptyLineAt_cons_of_head (by simpa using hd),
          ← List.cons_append, emptyLineAt_append_of_none (x := d :: x) h]
        rfl
    · rw [List.cons_append, emptyLineAt_cons_of_ne hc, Option.map_eq_none_iff] at h
      rw [List.cons_append, emptyLineAt_cons_of_ne hc, emptyLineAt_append_of_none h]
      rfl

lemma emptyLineAt_line : ∀ {x : List Char}, '\n' ∉ x → emptyLineAt rest = none →
    emptyLineAt (x ++ rest) = none
  | [], _, h => h
  | c :: x, hx, h => by
    rw [List.mem_cons, not_or] at hx
    rw [List.cons_append, emptyLineAt_cons_of_ne (Ne.symm hx.1), emptyLineAt_line hx.2 h]
    rfl

lemma head?_intercalate (hlines : ∀ line ∈ lines, line ≠ [] ∧ '\n' ∉ line) :
    ∀ c ∈ (['\n'].intercalate lines).head?, c ≠ '\n' := by
  rcases lines with _ | ⟨line, lines⟩
  · simp [List.intercalate]
  · obtain ⟨hne, hline⟩ := hlines line List.mem_cons_self
    rcases line with _ | ⟨d, line⟩
    · exact absurd rfl hne
    · rw [intercalate_cons]
      intro c hc
      obtain rfl : d = c := by simpa using hc
      exact fun heq => hline (heq ▸ List.mem_cons_self)

/-- Header lines contain no empty line. -/
lemma emptyLineAt_intercalate : ∀ {lines : List (List Char)},
    (∀ line ∈ lines, line ≠ [] ∧ '\n' ∉ line) →
      emptyLineAt (['\n'].intercalate lines ++ ['\n']) = none
  | [], _ => rfl
  | line :: lines, hlines => by
    have hlines' : ∀ line ∈ lines, line ≠ [] ∧ '\n' ∉ line :=
      fun line hline => hlines line (List.mem_cons_of_mem _ hline)
    rw [intercalate_cons, List.append_assoc]
    refine emptyLineAt_line (hlines line List.mem_cons_self).2 ?_
    rcases hnext : lines with _ | ⟨line', lines'⟩
    · rfl
    · have ih := emptyLineAt_intercalate hlines'
      have hhead := head?_intercalate hlines'
      have hne : ['\n'].intercalate lines ≠ [] := by
        rw [hnext, intercalate_cons]
        simp [(hlines' line' (hnext ▸ List.mem_cons_self)).1]
      rw [← hnext]
      have hnl : nextLines lines = '\n' :: ['\n'].intercalate lines := by
        rw [hnext]
        rfl
      rw [hnl, List.cons_append, emptyLineAt_cons_of_head, ih]
      · rfl
      · rw [List.head?_append_of_ne_nil _ hne]
        exact hhead

/-! ## Positions in the buffer -/

lemma ignoreEmptyLines_append (x : List Char) (k : ℕ) (hrest : ∀ c ∈ rest.head?, c ≠ '\n') :
    ignoreEmptyLines (x ++ (List.replicate k '\n' ++ rest)) x.length = x.length + k := by
  have hstop : rest.takeWhile (· == '\n') = [] := by
    rcases rest with _ | ⟨c, rest⟩
    · rfl
    · rw [List.takeWhile_cons_of_neg (by simpa using hrest c rfl)]
  rw [ignoreEmptyLines, List.drop_left, List.takeWhile_append_of_pos
    (fun c hc => by simp [List.eq_of_mem_replicate hc]), hstop, List.append_nil,
    List.length_replicate]

lemma findEmptyLine_append (x y : List Char) :
    findEmptyLine (x ++ y) x.length = x.length + (emptyLineAt y).getD 0 := by
  rw [findEmptyLine, List.drop_left]

/-- Without an empty line behind it, nothing is a header. -/
lemma findHeaders_of_no_empty_line (k : ℕ) (hrest : ∀ c ∈ rest.head?, c ≠ '\n')
    (hnone : emptyLineAt rest = none) :
    findHeaders (List.replicate k '\n' ++ rest) 0 = .ok (none, k) := by
  have hstart : ignoreEmptyLines (List.replicate k '\n' ++ rest) 0 = k := by
    have h := ignoreEmptyLines_append [] k hrest
    rwa [List.nil_append, List.length_nil, Nat.zero_add] at h
  have hindex : findEmptyLine (List.replicate k '\n' ++ rest) k = k := by
    have h := findEmptyLine_append (List.replicate k '\n') rest
    rwa [List.length_replicate, hnone] at h
  rw [findHeaders, hstart, hindex, if_pos rfl]

lemma parseOne_of_no_empty_line (k : ℕ) (hrest : ∀ c ∈ rest.head?, c ≠ '\n')
    (hnone : emptyLineAt rest = none)
    (htext : p.appendPieces.text = List.replicate k '\n' ++ rest) :
    p.parseOne = .ok (none, p.appendPieces) := by
  rw [Parser.parseOne, htext, findHeaders_of_no_empty_line k hrest hnone]
  simp only [← htext]
  rfl

/-! ## Messages that the parser can tell apart -/

/-- The first empty line of the body is where its last line ends. -/
def EndsWithEmptyLines (body : List Char) : Prop :=
  ∃ x k, body = x ++ List.replicate (k + 2) '\n' ∧ x ≠ [] ∧ (∀ c ∈ x.head?, c ≠ '\n') ∧
    emptyLineAt (x ++ ['\n']) = none

/-- The headers are known and differ, and a body can be told from what follows. -/
structure EventMessage.Separated (m : EventMessage) : Prop where
  known : ∀ line ∈ m.lines, KnownLine line
  distinct : (m.lines.map headerName).Nodup
  body : m.body = [] ∨ EndsWithEmptyLines m.body
  int : m.body.length ≤ 2147483647

/-- A body of which the end can be told is read, whatever follows it. -/
lemma parseBody_endsWithEmptyLines {body : List Char} (hbody : EndsWithEmptyLines body)
    (hlength : msg.contentLength = body.length) (before rest : List Char) :
    ∃ k, parseBody (before ++ '\n' :: '\n' :: (body ++ rest)) msg before.length
      = .ok (some { msg with body := body }, ⟨List.replicate k '\n' ++ rest, []⟩) := by
  obtain ⟨x, k, rfl, hne, hhead, hnone⟩ := hbody
  set body := x ++ List.replicate (k + 2) '\n' with hbody
  have hbodyLength : body.length = x.length + (k + 2) := by
    rw [hbody, List.length_append, List.length_replicate]
  set text := before ++ '\n' :: '\n' :: (body ++ rest) with htext
  have htext₁ : text = before ++ (List.replicate 2 '\n' ++ (body ++ rest)) := htext
  have htext₂ : text = (before ++ ['\n', '\n'])
      ++ (x ++ '\n' :: '\n' :: (List.replicate k '\n' ++ rest)) := by
    rw [htext, hbody, List.append_assoc, List.append_assoc, List.replicate_succ,
      List.replicate_succ]
    rfl
  have htext₃ : text = (before ++ '\n' :: '\n' :: (x ++ List.replicate (k + 1) '\n'))
      ++ '\n' :: rest := by
    rw [htext, hbody, List.replicate_succ']
    simp
  have hstart : ignoreEmptyLines text before.length = before.length + 2 := by
    rw [htext₁]
    refine ignoreEmptyLines_append before 2 ?_
    rw [hbody, List.append_assoc, List.head?_append_of_ne_nil _ hne]
    exact hhead
  have hindex : findEmptyLine text (before.length + 2) = before.length + 2 + x.length := by
    have h := findEmptyLine_append (before ++ ['\n', '\n'])
      (x ++ '\n' :: '\n' :: (List.replicate k '\n' ++ rest))
    rw [← htext₂, List.length_append] at h
    rw [emptyLineAt_append_of_none hnone] at h
    exact h
  have htextLength : text.length = before.length + 2 + body.length + rest.length := by
    rw [htext]
    simp only [List.length_append, List.length_cons]
    omega
  have hsize : validSize text body.length (before.length + 2) (x.length + 2) = body.length := by
    have hlast : text[body.length + (before.length + 2) - 1]? = some '\n' := by
      rw [htext₃, List.getElem?_append_right]
      · simp only [List.length_append, List.length_cons, List.length_replicate, hbodyLength]
        have : x.length + (k + 2) + (before.length + 2) - 1
          - (before.length + (x.length + (k + 1) + 1 + 1)) = 0 := by omega
        rw [this]
        rfl
      · simp only [List.length_append, List.length_cons, List.length_replicate, hbodyLength]
        omega
    rw [validSize]
    split_ifs with hsame hend hmore
    · exact hsame
    · rfl
    · rfl
    · exact absurd ⟨by omega, hlast⟩ hmore
  refine ⟨k + 2, ?_⟩
  have hread : (text.drop (before.length + 2)).take body.length = body := by
    have h : text = (before ++ ['\n', '\n']) ++ (body ++ rest) := by rw [htext]; simp
    rw [h, List.drop_left' (by simp), List.take_left]
  have hleft : text.drop (before.length + 2 + x.length) = List.replicate (k + 2) '\n' ++ rest := by
    rw [htext₂, ← List.append_assoc, List.drop_left' (by simp; omega)]
    rfl
  have hfound : before.length + 2 + x.length - (before.length + 2) + 2 = x.length + 2 := by omega
  rw [parseBody, hstart, hindex, hlength, Int.toNat_natCast, hfound, hsize, if_neg (by omega),
    hread, hleft]

namespace EventMessage

lemma headers_ne_nil (m : EventMessage) : m.headers ≠ [] := by
  obtain ⟨line, lines, hlines⟩ := List.exists_cons_of_ne_nil m.nonempty
  rw [headers, hlines, intercalate_cons]
  simp [(m.oneLine line (hlines ▸ List.mem_cons_self)).1]

lemma head?_headers_append (m : EventMessage) (rest : List Char) :
    ∀ c ∈ (m.headers ++ rest).head?, c ≠ '\n' := by
  rw [List.head?_append_of_ne_nil _ m.headers_ne_nil]
  exact head?_intercalate m.oneLine

lemma lengthOf_lines (m : EventMessage) :
    ((lengthOf m.lines).map Nat.cast).getD (-1) = m.expected.contentLength := by
  have hframed := m.framed
  rw [Framed] at hframed
  rw [lengthOf, expected]
  cases hvalue : headerValue m.lines "Content-Length" with
  | none => rfl
  | some value =>
    simp only [hvalue] at hframed
    simp [hframed]

lemma withHeaders_lines (m : EventMessage) :
    { withHeaders .new m.lines with body := m.expected.body } = m.expected := by
  rw [withHeaders, PlainEventMsg.new, m.lengthOf_lines]
  rfl

lemma contentLength_of_body (m : EventMessage) (hbody : m.body ≠ []) :
    (withHeaders .new m.lines).contentLength = m.body.length := by
  have hlength : (withHeaders .new m.lines).contentLength = m.expected.contentLength :=
    m.lengthOf_lines
  have hframed := m.framed
  rw [Framed] at hframed
  rw [hlength, expected]
  cases hvalue : headerValue m.lines "Content-Length" with
  | none =>
    simp only [hvalue] at hframed
    exact absurd hframed hbody
  | some value => rfl

lemma contentLength_of_no_body (m : EventMessage) (hbody : m.body = []) :
    (withHeaders .new m.lines).contentLength ≤ 0 := by
  have hlength : (withHeaders .new m.lines).contentLength = m.expected.contentLength :=
    m.lengthOf_lines
  rw [hlength, expected, hbody]
  simp only [List.length_nil]
  split_ifs <;> decide

variable {k : ℕ}

/-- The headers of a message are found behind new lines. -/
lemma findHeaders_text (hsep : m.Separated) (k : ℕ) (rest : List Char) :
    findHeaders (List.replicate k '\n' ++ (m.headers ++ '\n' :: '\n' :: rest)) 0
      = .ok (some (withHeaders .new m.lines), k + m.headers.length) := by
  have hstart : ignoreEmptyLines (List.replicate k '\n' ++ (m.headers ++ '\n' :: '\n' :: rest)) 0
      = k := by
    have h := ignoreEmptyLines_append [] k (m.head?_headers_append ('\n' :: '\n' :: rest))
    rwa [List.nil_append, List.length_nil, Nat.zero_add] at h
  have hindex : findEmptyLine (List.replicate k '\n' ++ (m.headers ++ '\n' :: '\n' :: rest)) k
      = k + m.headers.length := by
    have h := findEmptyLine_append (List.replicate k '\n') (m.headers ++ '\n' :: '\n' :: rest)
    have hline : emptyLineAt (m.headers ++ '\n' :: '\n' :: rest) = some m.headers.length :=
      emptyLineAt_append_of_none (emptyLineAt_intercalate m.oneLine)
    rwa [List.length_replicate, hline] at h
  have hheaders : ((List.replicate k '\n' ++ (m.headers ++ '\n' :: '\n' :: rest)).drop k).take
      m.headers.length = m.headers := by
    rw [List.drop_left' List.length_replicate, List.take_left]
  have hlength : ParsableLength m.lines := by
    intro value hvalue
    have hframed := m.framed
    simp only [Framed, hvalue] at hframed
    exact ⟨_, hframed, hsep.int⟩
  have hparse := parseHeaders_known m.lines .new hsep.known hsep.distinct hlength
  have hpos := List.length_pos_of_ne_nil m.headers_ne_nil
  rw [findHeaders, hstart, hindex, if_neg (by omega), Nat.add_sub_cancel_left, hheaders, headers,
    hparse]

/-- **A message is parsed, and only new lines are left before what follows.** -/
theorem parseOne_text (hsep : m.Separated) (k : ℕ) (rest : List Char)
    (htext : p.appendPieces.text = List.replicate k '\n' ++ (m.text ++ rest)) :
    ∃ k', p.parseOne = .ok (some m.expected, ⟨List.replicate k' '\n' ++ rest, []⟩) := by
  have htext' : p.appendPieces.text = List.replicate k '\n'
      ++ (m.headers ++ '\n' :: '\n' :: (m.body ++ rest)) := by
    rw [htext, text, List.append_assoc, List.cons_append, List.cons_append]
  have hdrop : ∀ y,
      (List.replicate k '\n' ++ (m.headers ++ y)).drop (k + m.headers.length) = y := by
    intro y
    rw [← List.append_assoc, List.drop_left' (by simp)]
  have hmessage : p.parseOne = parseMessage p.appendPieces.text (withHeaders .new m.lines)
      (k + m.headers.length) := by
    rw [Parser.parseOne, htext', findHeaders_text hsep]
  rw [hmessage, parseMessage]
  by_cases hbody : m.body = []
  · have hexpected : withHeaders .new m.lines = m.expected := by
      rw [← m.withHeaders_lines]
      simp only [expected, hbody, if_true]
      rfl
    refine ⟨2, ?_⟩
    rw [if_pos (m.contentLength_of_no_body hbody), htext', hdrop, hbody, hexpected]
    rfl
  · have hlength := m.contentLength_of_body hbody
    have hpos := List.length_pos_of_ne_nil hbody
    obtain ⟨k', hparse⟩ := parseBody_endsWithEmptyLines (hsep.body.resolve_left hbody) hlength
      (List.replicate k '\n' ++ m.headers) rest
    rw [List.append_assoc, ← htext', List.length_append, List.length_replicate] at hparse
    have hexpected : { withHeaders .new m.lines with body := m.body } = m.expected := by
      rw [← m.withHeaders_lines]
      simp only [expected, if_neg hbody]
    have henough : ¬ (p.appendPieces.text.length : ℤ) - (k + m.headers.length : ℕ)
        < m.body.length := by
      rw [htext']
      simp only [List.length_append, List.length_replicate, List.length_cons]
      omega
    refine ⟨k', ?_⟩
    rw [if_neg (by omega), hlength, if_neg henough, hparse, hexpected]

/-- The beginning of a message that stops where the body looks complete, but is not: the two
characters of the empty line before it are counted as its own. -/
def CutShort (m : EventMessage) (u : List Char) : Prop :=
  ∃ a, a < m.body.length ∧ m.body.length ≤ a + 2 ∧
    u = m.headers ++ '\n' :: '\n' :: m.body.take a

/-- The beginning of a message is no message. -/
lemma parseOne_of_prefix (hsep : m.Separated) (k : ℕ) {u : List Char} (hu : u <+: m.text)
    (hshort : u.length < m.text.length) (hcut : ¬ m.CutShort u)
    (htext : p.appendPieces.text = List.replicate k '\n' ++ u) :
    p.parseOne = .ok (none, p.appendPieces) := by
  have hheaders : m.headers ++ ['\n'] <+: m.text := ⟨'\n' :: m.body, by simp [text]⟩
  have hempty : m.headers ++ ['\n', '\n'] <+: m.text := ⟨m.body, by simp [text]⟩
  by_cases hlen : u.length ≤ m.headers.length + 1
  · obtain ⟨v, hv⟩ : u <+: m.headers ++ ['\n'] :=
      List.prefix_of_prefix_length_le hu hheaders (by simpa using hlen)
    refine parseOne_of_no_empty_line k ?_ ?_ htext
    · intro c hc
      rcases u with _ | ⟨d, u⟩
      · cases hc
      · exact m.head?_headers_append ['\n'] c (by rw [← hv]; exact hc)
    · have h := emptyLineAt_intercalate m.oneLine
      rw [← headers, ← hv] at h
      exact emptyLineAt_append_left h
  · obtain ⟨w, rfl⟩ : m.headers ++ ['\n', '\n'] <+: u :=
      List.prefix_of_prefix_length_le hempty hu (by simp; omega)
    have hw : w <+: m.body := by
      obtain ⟨v, hv⟩ := hu
      refine ⟨v, ?_⟩
      simpa [text] using hv
    have hwshort : w.length < m.body.length := by
      simp only [text, List.length_append, List.length_cons, List.length_nil] at hshort
      omega
    have hmissing : w.length + 2 < m.body.length := by
      by_contra hmany
      refine hcut ⟨w.length, hwshort, by omega, ?_⟩
      rw [← List.prefix_iff_eq_take.mp hw]
      simp
    have hbody : m.body ≠ [] := List.ne_nil_of_length_pos (by omega)
    have htext' : p.appendPieces.text
        = List.replicate k '\n' ++ (m.headers ++ '\n' :: '\n' :: w) := by
      rw [htext]
      simp
    have hlengthText : (p.appendPieces.text.length : ℤ) - (k + m.headers.length : ℕ)
        < m.body.length := by
      rw [htext']
      simp only [List.length_append, List.length_replicate, List.length_cons]
      omega
    rw [Parser.parseOne, htext', findHeaders_text hsep k w, ← htext']
    simp only [parseMessage, m.contentLength_of_body hbody]
    rw [if_neg (by omega), if_pos hlengthText]
    rfl

end EventMessage

/-! ## Streams -/

/-- What was seen of the messages ends where a body looks complete, but is not. -/
def MisleadingCut (ms : List EventMessage) (seen : List Char) : Prop :=
  ∃ before m after u, ms = before ++ m :: after ∧ m.CutShort u ∧
    seen = before.flatMap EventMessage.text ++ u

lemma MisleadingCut.append (done : List EventMessage) {todo : List EventMessage}
    {seen : List Char} (h : MisleadingCut todo seen) :
    MisleadingCut (done ++ todo) (done.flatMap EventMessage.text ++ seen) := by
  obtain ⟨before, m, after, u, rfl, hcut, rfl⟩ := h
  exact ⟨done ++ before, m, after, u, by simp, hcut, by simp⟩

/-- The complete messages are parsed, up to the beginning of the next one. -/
lemma parseAll_text : ∀ (ms : List EventMessage) (p : Parser) (k : ℕ) (u v : List Char),
    (∀ m ∈ ms, m.Separated) → u ++ v = ms.flatMap EventMessage.text → ¬ MisleadingCut ms u →
    p.appendPieces.text = List.replicate k '\n' ++ u →
    ∃ done todo k' w, ms = done ++ todo ∧ u = done.flatMap EventMessage.text ++ w ∧
      (∀ m ∈ todo.head?, w.length < m.text.length) ∧
      p.parseAll = (stop ⟨List.replicate k' '\n' ++ w, []⟩).after (done.map EventMessage.expected)
  | [], p, k, u, v, _, huv, _, htext => by
    obtain ⟨rfl, -⟩ := List.append_eq_nil_iff.mp huv
    have hone := parseOne_of_no_empty_line k (by simp) rfl htext
    refine ⟨[], [], k, [], rfl, rfl, by simp, ?_⟩
    rw [parseAll_of_none hone, ← htext]
    rfl
  | m :: ms, p, k, u, v, hsep, huv, hcut, htext => by
    have hm := hsep m List.mem_cons_self
    rw [List.flatMap_cons] at huv
    have hu : u <+: m.text ++ ms.flatMap EventMessage.text := ⟨v, huv⟩
    by_cases hlen : u.length < m.text.length
    · have hone := m.parseOne_of_prefix hm k
        (List.prefix_of_prefix_length_le hu (List.prefix_append _ _) (Nat.le_of_lt hlen)) hlen
        (fun hshort => hcut ⟨[], m, ms, u, rfl, hshort, rfl⟩) htext
      refine ⟨[], m :: ms, k, u, rfl, rfl, by simpa using hlen, ?_⟩
      rw [parseAll_of_none hone, ← htext]
      rfl
    · obtain ⟨u', rfl⟩ : m.text <+: u :=
        List.prefix_of_prefix_length_le (List.prefix_append _ _) hu (Nat.le_of_not_lt hlen)
      obtain ⟨k₁, hone⟩ := m.parseOne_text hm k u' htext
      have huv' : u' ++ v = ms.flatMap EventMessage.text := by
        rwa [List.append_assoc, List.append_cancel_left_eq] at huv
      have hcut' : ¬ MisleadingCut ms u' := fun hshort => hcut (by
        have h := hshort.append [m]
        simpa using h)
      obtain ⟨done, todo, k', w, rfl, rfl, hhead, hrun⟩ := parseAll_text ms
        ⟨List.replicate k₁ '\n' ++ u', []⟩ k₁ u' v
        (fun m' hm' => hsep m' (List.mem_cons_of_mem m hm')) huv' hcut'
        (by simp [Parser.appendPieces])
      refine ⟨m :: done, todo, k', w, rfl, by simp, hhead, ?_⟩
      rw [parseAll_of_some hone, hrun, after_after, List.map_cons, List.singleton_append]

/-- **Separated messages are parsed exactly**, in pieces that are not misleading. -/
theorem receive_separated (pieces : List (List Char)) :
    ∀ (ms : List EventMessage) (k : ℕ) (w : List Char), (∀ m ∈ ms, m.Separated) →
      w ++ pieces.flatten = ms.flatMap EventMessage.text →
      (∀ m ∈ ms.head?, w.length < m.text.length) →
      (∀ i, ¬ MisleadingCut ms (w ++ (pieces.take i).flatten)) →
      ∃ k', Parser.receive ⟨List.replicate k '\n' ++ w, []⟩ pieces
        = (stop ⟨List.replicate k' '\n', []⟩).after (ms.map EventMessage.expected) := by
  induction pieces with
  | nil =>
    intro ms k w _ hw hhead _
    rcases ms with _ | ⟨m, ms⟩
    · obtain rfl : w = [] := by simpa using hw
      exact ⟨k, by simp [Parser.receive]⟩
    · have hlt := hhead m rfl
      have hlen := congrArg List.length hw
      simp only [List.flatten_nil, List.append_nil, List.flatMap_cons, List.length_append] at hlen
      omega
  | cons piece pieces ih =>
    intro ms k w hsep hw _ hcuts
    rw [List.flatten_cons, ← List.append_assoc] at hw
    have hcut : ¬ MisleadingCut ms (w ++ piece) := by
      have h := hcuts 1
      simpa using h
    obtain ⟨done, todo, k₁, w₁, rfl, hseen, hhead, hrun⟩ := parseAll_text ms
      (Parser.append ⟨List.replicate k '\n' ++ w, []⟩ piece) k (w ++ piece) pieces.flatten hsep hw
      hcut (by simp [Parser.append, Parser.appendPieces])
    rw [hseen, List.flatMap_append, List.append_assoc, List.append_cancel_left_eq] at hw
    obtain ⟨k', hrest⟩ := ih todo k₁ w₁ (fun m hm => hsep m (List.mem_append_right _ hm)) hw hhead
      (fun i hmis => hcuts (i + 1) (by
        have h := hmis.append done
        rw [← List.append_assoc, ← hseen] at h
        simpa using h))
    refine ⟨k', ?_⟩
    rw [Parser.receive, hrun, after_andThen, stop_andThen, hrest, after_after, List.map_append]

lemma receive_of_flatten_eq_nil (pieces : List (List Char)) (h : pieces.flatten = []) :
    Parser.new.receive pieces = stop .new := by
  induction pieces with
  | nil => rfl
  | cons piece pieces ih =>
    obtain ⟨rfl, hpieces⟩ := List.append_eq_nil_iff.mp h
    have hone : (Parser.new.append []).parseOne = .ok (none, .new) := rfl
    rw [Parser.receive, parseAll_of_none hone, stop_andThen, ih hpieces]

/-- **What `ParseOne` makes of a stream.**  Only no messages at all are parsed without any text
left.  Separated messages in pieces that are not misleading are parsed as they were sent, and the
text that is left is new lines. -/
theorem receive_eq_iff (ms : List EventMessage) (pieces : List (List Char))
    (hpieces : pieces.flatten = ms.flatMap EventMessage.text) :
    (Parser.new.receive pieces = ⟨ms.map EventMessage.expected, .ok .new⟩ ↔ ms = []) ∧
      ((∀ m ∈ ms, m.Separated) → (∀ i, ¬ MisleadingCut ms (pieces.take i).flatten) →
        ∃ k, Parser.new.receive pieces
          = ⟨ms.map EventMessage.expected, .ok ⟨List.replicate k '\n', []⟩⟩) := by
  refine ⟨⟨?_, ?_⟩, ?_⟩
  · intro hrun
    by_contra hne
    obtain ⟨m, ms', rfl⟩ := List.exists_cons_of_ne_nil hne
    have hflatten : pieces.flatten ≠ [] := by
      rw [hpieces, List.flatMap_cons]
      simp [text_ne_nil]
    exact receive_text_ne_nil pieces .new (Or.inr hflatten) (congrArg Run.outcome hrun) rfl
  · rintro rfl
    exact receive_of_flatten_eq_nil pieces hpieces
  · intro hsep hcuts
    obtain ⟨k, hrun⟩ := receive_separated pieces ms 0 [] hsep (by simpa using hpieces)
      (fun m hm => List.length_pos_of_ne_nil (text_ne_nil m)) (by simpa using hcuts)
    refine ⟨k, hrun.trans ?_⟩
    simp [after, stop]

/-- A message with a content length only. -/
def sizedMessage (value body : List Char)
    (hvalue : '\n' ∉ value ∧ decimal (value.dropWhile isWS) = some body.length) : EventMessage where
  lines := ["Content-Length:".toList ++ value]
  body := body
  nonempty := by simp
  oneLine := by simp [hvalue.1]
  framed := hvalue.2

/-- The first of two messages is received in two pieces, the second one with the first one's end. -/
theorem receive_eq_iff_cut :
    let m := sizedMessage " 5".toList "abc\n\n".toList (by decide)
    let pieces := [m.text.take 20, m.text.drop 20 ++ m.text]
    pieces.flatten = [m, m].flatMap EventMessage.text ∧
      Parser.new.receive pieces ≠ ⟨[m.expected, m.expected], .ok .new⟩ ∧
      ∃ k, Parser.new.receive pieces
        = ⟨[m.expected, m.expected], .ok ⟨List.replicate k '\n', []⟩⟩ := by
  intro m pieces
  have hpieces : pieces.flatten = [m, m].flatMap EventMessage.text := by decide
  have hrun := receive_eq_iff [m, m] pieces hpieces
  have hknown : KnownLine ("Content-Length:".toList ++ " 5".toList) :=
    ⟨"Content-Length", by decide, " 5".toList, by decide, by decide⟩
  have hbody : EndsWithEmptyLines "abc\n\n".toList := by
    refine ⟨"abc".toList, 0, by decide, by decide, fun c hc => ?_, by decide⟩
    obtain rfl : 'a' = c := Option.some.inj hc
    decide
  have hm : m.Separated :=
    ⟨by simpa [m, sizedMessage] using hknown, by decide, Or.inr hbody, by decide⟩
  refine ⟨hpieces, fun h => by simpa using hrun.1.mp h, ?_⟩
  refine hrun.2 (by simp [hm]) ?_
  rintro i ⟨before, m', after, u, hms, ⟨a, ha, hshort, rfl⟩, hseen⟩
  have hi : (pieces.take i).flatten.length ∈ [0, 20, 48] := by
    rcases i with _ | _ | i
    · decide
    · decide
    · rw [List.take_of_length_le (by simp [pieces]), hpieces]
      decide
  have hm' : m' = m := by
    have hmem : m' ∈ [m, m] := by
      rw [hms]
      simp
    simpa using hmem
  rw [hseen, hm'] at hi
  rw [hm'] at ha hshort
  have hbodyLength : m.body.length = 5 := rfl
  have hheadersLength : m.headers.length = 17 := rfl
  have htextLength : m.text.length = 24 := rfl
  simp only [List.length_append, List.length_cons, List.length_take, hbodyLength, hheadersLength,
    List.mem_cons, List.not_mem_nil, or_false] at hi
  rcases before with _ | ⟨b, _ | ⟨b', before⟩⟩
  · simp only [List.flatMap_nil, List.length_nil] at hi
    omega
  · obtain rfl : m = b := (List.cons.inj hms).1
    simp only [List.flatMap_cons, List.flatMap_nil, List.append_nil, htextLength] at hi
    omega
  · simp at hms

/-- A body without empty lines is in the way of the next message. -/
theorem not_receive_eq : ¬ ∀ (ms : List EventMessage) (pieces : List (List Char)),
    pieces.flatten = ms.flatMap EventMessage.text →
      Parser.new.receive pieces = ⟨ms.map EventMessage.expected, .ok .new⟩ := by
  intro hall
  let sized := sizedMessage " 3".toList "abc".toList (by decide)
  let typed : EventMessage :=
    ⟨["Content-Type: x".toList], [], by decide, by decide, (rfl : ([] : List Char) = [])⟩
  have hrun := hall [sized, typed] [sized.text, typed.text] (by simp)
  have htypes := congrArg (fun r => r.emitted.map PlainEventMsg.contentType) hrun
  have hcode : (Parser.new.receive [sized.text, typed.text]).emitted.map PlainEventMsg.contentType
      = [[], []] := by with_unfolding_all decide
  have hclaim : ([sized, typed].map EventMessage.expected).map PlainEventMsg.contentType
      = [[], ['x']] := by decide
  exact absurd (hcode.symm.trans (htypes.trans hclaim)) (by decide)

end FreeswitchContrib.EventSocket

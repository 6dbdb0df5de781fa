import FreeswitchContrib.EventSocket.Parser
import Mathlib.Data.List.TakeWhile

/-!
# Header parsing

Three headers are known to the parser.  A line with one of them is read to its end; behind a name
that is not known the value is taken for the beginning of the next name, so `parseHeaders_known` is
about lines that are all known.
-/

namespace FreeswitchContrib.EventSocket

open Numeral

/-- The value of the first header with a name. -/
def headerValue (lines : List (List Char)) (name : String) : Option (List Char) :=
  (lines.find? fun line => (name.toList ++ [':']).isPrefixOf line).map fun line =>
    (line.drop (name.length + 1)).dropWhile isWS

def knownNames : List String :=
  ["Content-Length", "Content-Type", "Reply-Text"]

def headerName (line : List Char) : List Char :=
  line.takeWhile (· != ':')

variable {name : String} {text rest v x : List Char} {msg : PlainEventMsg} {n : ℕ}
  {lines : List (List Char)}

lemma trimEnd_of_not_blank {c : Char} (hc : isWS c = false) :
    trimEnd (x ++ [c]) rest = x ++ [c] := by
  rcases rest with _ | ⟨d, rest⟩
  · rfl
  · rw [trimEnd, List.rdropWhile_concat_neg _ _ _ (by simp [hc]), ite_self]

/-- A name is read up to its colon. -/
lemma read_name (hx : ∀ c ∈ x, c ≠ ':' ∧ isWS c = false) :
    read ':' (x ++ ':' :: rest) = (x, rest) := by
  have hstart : (x ++ ':' :: rest).dropWhile isWS = x ++ ':' :: rest := by
    rcases x with _ | ⟨c, x⟩
    · rfl
    · rw [List.cons_append, List.dropWhile_cons_of_neg (by simp [(hx c List.mem_cons_self).2])]
  have hname : ∀ c ∈ x, (c != ':') = true := fun c hc => bne_iff_ne.mpr (hx c hc).1
  have hdrop : (x ++ ':' :: rest).dropWhile (· != ':') = ':' :: rest := by
    rw [List.dropWhile_append_of_pos hname, List.dropWhile_cons_of_neg (by decide)]
  have htake : (x ++ ':' :: rest).takeWhile (· != ':') = x := by
    rw [List.takeWhile_append_of_pos hname, List.takeWhile_cons_of_neg (by decide), List.append_nil]
  simp only [read, hstart, hdrop, htake, trimEnd_of_not_blank (show isWS ':' = false by decide),
    List.dropLast_concat]

/-- A line is read up to its end, without the blanks before it. -/
lemma readLine_value (hv : ∀ c ∈ v, isEOL c = false) (hrest : ∀ c ∈ rest.head?, c = '\n') :
    readLine (v ++ rest) = (v.dropWhile isWS, skipNewLine rest) := by
  have hskip : rest.dropWhile isWS = rest := by
    rcases rest with _ | ⟨c, rest⟩
    · rfl
    · obtain rfl := hrest c rfl
      rfl
  have hstart : (v ++ rest).dropWhile isWS = v.dropWhile isWS ++ rest := by
    rw [List.dropWhile_append, hskip]
    split_ifs with hempty
    · rw [List.isEmpty_iff.mp hempty, List.nil_append]
    · rfl
  have hvalue : ∀ c ∈ v.dropWhile isWS, (!isEOL c) = true := fun c hc => by
    rw [hv c ((List.dropWhile_suffix _).subset hc)]
    rfl
  have hend : rest.takeWhile (fun c => !isEOL c) = []
      ∧ rest.dropWhile (fun c => !isEOL c) = rest := by
    rcases rest with _ | ⟨c, rest⟩
    · exact ⟨rfl, rfl⟩
    · obtain rfl := hrest c rfl
      exact ⟨rfl, rfl⟩
  have htrim : trimEnd (v.dropWhile isWS) rest = v.dropWhile isWS := by
    rcases rest with _ | ⟨c, rest⟩
    · rfl
    · obtain rfl := hrest c rfl
      rfl
  simp only [readLine, hstart, List.takeWhile_append_of_pos hvalue,
    List.dropWhile_append_of_pos hvalue, hend.1, hend.2, List.append_nil, htrim]

lemma intParse_of_decimal (h : decimal text = some n) (hn : n ≤ 2147483647) :
    intParse text = .ok (n : ℤ) := by
  have hwhite : ∀ c ∈ text, isWhite c = false := by
    intro c hc
    have hdigit := isDigit_of_decimal h c hc
    rw [Char.isDigit, Bool.and_eq_true, decide_eq_true_eq, decide_eq_true_eq, ge_iff_le,
      UInt32.le_iff_toNat_le] at hdigit
    have hge : 48 ≤ c.toNat := hdigit.1
    have hspace : c ≠ ' ' := fun heq => by rw [heq] at hge; exact absurd hge (by decide)
    simp only [isWhite, beq_eq_false_iff_ne.mpr hspace, Bool.false_or, Bool.and_eq_false_iff,
      decide_eq_false_iff_not]
    omega
  have hstart : text.dropWhile isWhite = text := by
    rcases text with _ | ⟨c, text⟩
    · rfl
    · rw [List.dropWhile_cons_of_neg (by simp [hwhite c List.mem_cons_self])]
  have hend : text.rdropWhile isWhite = text := by
    rw [List.rdropWhile_eq_self_iff]
    intro hne
    simp [hwhite _ (List.getLast_mem hne)]
  rw [intParse, hstart, hend, signedDecimal_of_decimal h]
  simp only
  rw [if_pos (by omega)]

lemma known_char (hname : name ∈ knownNames) : name.toList ≠ [] ∧
    ∀ c ∈ name.toList, c ≠ ':' ∧ isWS c = false ∧ isEOL c = false := by
  revert name
  decide

/-- What the headers of a message that begins with a known header are. -/
lemma headerValue_cons (hname : name ∈ knownNames) {name' : String} (hname' : name' ∈ knownNames) :
    headerValue ((name.toList ++ ':' :: v) :: lines) name'
      = if name' = name then some (v.dropWhile isWS) else headerValue lines name' := by
  simp only [knownNames, List.mem_cons, List.not_mem_nil, or_false] at hname hname'
  rcases hname with rfl | rfl | rfl <;> rcases hname' with rfl | rfl | rfl <;> rfl

lemma headerName_known (hname : name ∈ knownNames) :
    headerName (name.toList ++ ':' :: v) = name.toList := by
  rw [headerName, List.takeWhile_append_of_pos
    fun c hc => bne_iff_ne.mpr ((known_char hname).2 c hc).1,
    List.takeWhile_cons_of_neg (by decide), List.append_nil]

/-- A known header is not found among lines with other names. -/
lemma headerValue_eq_none (hname : name ∈ knownNames)
    (h : name.toList ∉ lines.map headerName) : headerValue lines name = none := by
  rw [headerValue, Option.map_eq_none_iff, List.find?_eq_none]
  intro line hline hmatch
  obtain ⟨value, rfl⟩ := List.isPrefixOf_iff_prefix.mp hmatch
  refine h (List.mem_map.mpr ⟨_, hline, ?_⟩)
  rw [List.append_assoc, List.singleton_append, headerName_known hname]

/-- A header line that the parser knows, without a carriage return. -/
def KnownLine (line : List Char) : Prop :=
  ∃ name ∈ knownNames, ∃ value, line = name.toList ++ ':' :: value ∧ ∀ c ∈ value, isEOL c = false

/-- The content length that the headers give. -/
def lengthOf (lines : List (List Char)) : Option ℕ :=
  (headerValue lines "Content-Length").bind decimal

/-- A message with what header lines say about it. -/
def withHeaders (msg : PlainEventMsg) (lines : List (List Char)) : PlainEventMsg where
  contentType := (headerValue lines "Content-Type").getD msg.contentType
  contentLength := ((lengthOf lines).map Nat.cast).getD msg.contentLength
  body := (headerValue lines "Reply-Text").getD msg.body

/-- The content length, if there is one, is a number that `int.Parse` accepts. -/
def ParsableLength (lines : List (List Char)) : Prop :=
  ∀ value, headerValue lines "Content-Length" = some value →
    ∃ n, decimal value = some n ∧ n ≤ 2147483647

/-- One known header, and then the others. -/
lemma parseHeader_known (msg : PlainEventMsg) (hname : name ∈ knownNames)
    (hv : ∀ c ∈ v, isEOL c = false)
    (hrest : ∀ c ∈ rest.head?, c = '\n')
    (hlength : ParsableLength ((name.toList ++ ':' :: v) :: lines))
    (hdistinct : name.toList ∉ lines.map headerName) :
    ∃ msg', parseHeader msg name.toList (v ++ rest) = .ok (msg', skipNewLine rest)
      ∧ withHeaders msg' lines = withHeaders msg ((name.toList ++ ':' :: v) :: lines) := by
  have hnone := headerValue_eq_none hname hdistinct
  have hcons : ∀ name' ∈ knownNames, headerValue ((name.toList ++ ':' :: v) :: lines) name'
      = if name' = name then some (v.dropWhile isWS) else headerValue lines name' :=
    fun name' hname' => headerValue_cons hname hname'
  have hCL := hcons "Content-Length" (by decide)
  have hCT := hcons "Content-Type" (by decide)
  have hRT := hcons "Reply-Text" (by decide)
  simp only [knownNames, List.mem_cons, List.not_mem_nil, or_false] at hname
  rcases hname with rfl | rfl | rfl
  · obtain ⟨n, hn, hmax⟩ := hlength _ (hCL.trans (if_pos rfl))
    refine ⟨{ msg with contentLength := n }, ?_, ?_⟩
    · rw [parseHeader, if_pos rfl, readLine_value hv hrest]
      simp only [intParse_of_decimal hn hmax]
    · simp only [withHeaders, lengthOf, hnone, hCL, hCT, hRT, String.reduceEq, if_true, if_false,
        Option.bind_none, Option.bind_some, Option.map_none, Option.map_some, Option.getD_none,
        Option.getD_some, hn]
  · refine ⟨{ msg with contentType := v.dropWhile isWS }, ?_, ?_⟩
    · rw [parseHeader, if_neg (by decide), if_pos rfl, readLine_value hv hrest]
    · simp only [withHeaders, lengthOf, hnone, hCL, hCT, hRT, String.reduceEq, if_true, if_false,
        Option.getD_none, Option.getD_some]
  · refine ⟨{ msg with body := v.dropWhile isWS }, ?_, ?_⟩
    · rw [parseHeader, if_neg (by decide), if_neg (by decide), if_pos rfl, readLine_value hv hrest]
    · simp only [withHeaders, lengthOf, hnone, hCL, hCT, hRT, String.reduceEq, if_true, if_false,
        Option.getD_none, Option.getD_some]

/-- What follows the first line of the headers. -/
def nextLines : List (List Char) → List Char
  | [] => []
  | lines => '\n' :: ['\n'].intercalate lines

lemma intercalate_cons (line : List Char) (lines : List (List Char)) :
    ['\n'].intercalate (line :: lines) = line ++ nextLines lines := by
  rcases lines with _ | ⟨line', lines⟩ <;> simp [List.intercalate, nextLines]

lemma skipNewLine_nextLines (lines : List (List Char)) :
    skipNewLine (nextLines lines) = ['\n'].intercalate lines := by
  rcases lines with _ | ⟨line, lines⟩
  · rfl
  · rfl

lemma atEmptyLine_known (hknown : ∀ line ∈ lines, KnownLine line) :
    atEmptyLine (['\n'].intercalate lines) = false := by
  rcases lines with _ | ⟨line, lines⟩
  · rfl
  obtain ⟨name, hname, value, rfl, -⟩ := hknown line List.mem_cons_self
  rw [intercalate_cons, List.append_assoc]
  simp only [knownNames, List.mem_cons, List.not_mem_nil, or_false] at hname
  rcases hname with rfl | rfl | rfl <;> rfl

/-- **Known headers are parsed.** -/
theorem parseHeaders_known : ∀ (lines : List (List Char)) (msg : PlainEventMsg),
    (∀ line ∈ lines, KnownLine line) → (lines.map headerName).Nodup → ParsableLength lines →
    parseHeaders msg (['\n'].intercalate lines) = .ok (withHeaders msg lines)
  | [], msg, _, _, _ => by
    rw [parseHeaders]
    rfl
  | line :: lines, msg, hknown, hdistinct, hlength => by
    obtain ⟨name, hname, v, rfl, hv⟩ := hknown line List.mem_cons_self
    have hknown' : ∀ line ∈ lines, KnownLine line :=
      fun line hline => hknown line (List.mem_cons_of_mem _ hline)
    rw [List.map_cons, List.nodup_cons, headerName_known hname] at hdistinct
    have hlength' : ParsableLength lines := by
      intro value hvalue
      refine hlength value ?_
      rw [headerValue_cons hname (by decide), if_neg, hvalue]
      rintro rfl
      rw [headerValue_eq_none hname hdistinct.1] at hvalue
      cases hvalue
    have hhead : ∀ c ∈ (nextLines lines).head?, c = '\n' := by
      rcases lines with _ | ⟨line', lines⟩ <;> simp [nextLines]
    obtain ⟨msg', hheader, hmsg⟩ := parseHeader_known msg hname hv hhead hlength
      hdistinct.1
    have hread : read ':' (['\n'].intercalate ((name.toList ++ ':' :: v) :: lines))
        = (name.toList, v ++ nextLines lines) := by
      rw [intercalate_cons, List.append_assoc, List.cons_append,
        read_name fun c hc => ⟨((known_char hname).2 c hc).1, ((known_char hname).2 c hc).2.1⟩]
    rw [skipNewLine_nextLines] at hheader
    rw [parseHeaders, hread, dif_neg (known_char hname).1]
    split
    · next e he => simp [hheader] at he
    · next msg₁ rest₁ hok =>
      obtain ⟨rfl, rfl⟩ : msg' = msg₁ ∧ ['\n'].intercalate lines = rest₁ := by
        simpa [hheader] using hok
      rw [if_neg (by simp [atEmptyLine_known hknown']),
        parseHeaders_known lines msg' hknown' hdistinct.2 hlength', hmsg]

end FreeswitchContrib.EventSocket

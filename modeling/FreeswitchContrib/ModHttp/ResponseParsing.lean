import FreeswitchContrib.Library.Numeral
import FreeswitchContrib.ModHttp.ResponseSafety
import Mathlib.Data.List.TakeWhile

/-!
# What the response parser makes of a well-formed response

`ServerResponse` is a response as a server writes it, `render` the text, `parsed` what the parser is
meant to make of it.  It does exactly when the phrase, the names and the values are texts the lexer
reads as one token each: a name with its colon brings it into `state_hp_B`, a phrase or a value with
its CR into `state_p`.

A value that does not is still extracted right if it is a `HEADER` or `STATUS_CODE` token, but the
pass goes on too early in the buffer, and from there it never gets back to the blank line.
-/

namespace FreeswitchContrib.ModHttp

open Scanner

/-- The characters a name may have. -/
def isNameChar (c : Char) : Bool :=
  decide (c ≠ ' ') && decide (c ≠ ':') && !iscntrl c

/-- A well-formed response. -/
structure ServerResponse where
  major : List Char
  minor : List Char
  code : List Char
  phrase : List Char
  headers : List HttpHeader
  body : List Char
  major_digits : major ≠ [] ∧ ∀ c ∈ major, isdigit c = true
  minor_digits : minor ≠ [] ∧ ∀ c ∈ minor, isdigit c = true
  code_digits : code.length = 3 ∧ ∀ c ∈ code, isdigit c = true
  phrase_printable : phrase ≠ [] ∧ ∀ c ∈ phrase, isprint c = true
  names : ∀ h ∈ headers, h.fieldName ≠ [] ∧ ∀ c ∈ h.fieldName, isNameChar c = true
  values : ∀ h ∈ headers, h.value ≠ [] ∧ ∀ c ∈ h.value, isprint c = true
  body_noNul : '\x00' ∉ body

def crlf : List Char := ['\r', '\n']

def HttpHeader.render (h : HttpHeader) : List Char :=
  h.fieldName ++ [':', ' '] ++ h.value ++ crlf

def renderHeaders (headers : List HttpHeader) : List Char :=
  headers.flatMap HttpHeader.render

namespace ServerResponse

/-- The version token with its terminating blank. -/
def version (r : ServerResponse) : List Char :=
  ['H', 'T', 'T', 'P', '/'] ++ r.major ++ ['.'] ++ r.minor ++ [' ']

/-- The text behind the status line. -/
def afterStatusLine (r : ServerResponse) : List Char :=
  renderHeaders r.headers ++ (crlf ++ r.body)

def render (r : ServerResponse) : List Char :=
  r.version ++ (r.code ++ [' '] ++ (r.phrase ++ (crlf ++ r.afterStatusLine)))

/-- What the parser is meant to make of the response. -/
def parsed (r : ServerResponse) : HttpResponse where
  version := r.version
  statusCode := decimalValue r.code
  phrase := r.phrase
  headers := r.headers
  headerLen := r.headers.length
  body := r.body
  bodyLen := r.body.length

end ServerResponse

/-- A name that is read as a `HEADER` token: with its colon it leads to `state_hp_B`. -/
def readsAsName (name : List Char) : Bool :=
  decide (scan LexState.read .start (name ++ [':']) = some .hpB)

/-- A phrase or a value that is read as a `PHRASE` token: with its CR it leads to `state_p`. -/
def readsAsLine (line : List Char) : Bool :=
  decide (scan LexState.read .start (line ++ ['\r']) = some .p)

/-! ## Characters -/

section Chars

variable {c : Char}

lemma isNewline_of_isprint (h : isprint c = true) : isNewline c = false := by
  simp only [isprint, Bool.and_eq_true, decide_eq_true_eq] at h
  simp only [isNewline, Bool.or_eq_false_iff, decide_eq_false_iff_not]
  constructor
  · rintro rfl
    exact absurd h.1 (by decide)
  · rintro rfl
    exact absurd h.1 (by decide)

lemma isprint_of_isdigit (h : isdigit c = true) : isprint c = true := by
  simp only [isdigit, isprint, Bool.and_eq_true, decide_eq_true_eq] at h ⊢
  omega

lemma toupper_ne_of_isdigit (h : isdigit c = true) : toupper c ≠ 'H' := by
  simp only [isdigit, Bool.and_eq_true, decide_eq_true_eq] at h
  intro hc
  have hlow : c.toNat < 97 := by omega
  have hsame : toupper c = c := by
    unfold toupper Char.toUpper
    have : ¬(c.val ≥ 'a'.val ∧ c.val ≤ 'z'.val) := by
      rintro ⟨hge, -⟩
      have : (97 : ℕ) ≤ c.toNat := by
        simpa [UInt32.le_iff_toNat_le] using hge
      omega
    simp only [this]
    rfl
  rw [hsame] at hc
  subst hc
  exact absurd h.2 (by decide)

lemma ne_nul_of_isprint (h : isprint c = true) : c ≠ '\x00' := by
  rintro rfl
  exact absurd h (by decide)

lemma ne_nul_of_isNameChar (h : isNameChar c = true) : c ≠ '\x00' := by
  rintro rfl
  exact absurd h (by decide)

end Chars

/-! ## Tokens of a response -/

/-- The states inside a line. -/
def LexState.inner : LexState → Bool
  | .start | .n | .p | .error => false
  | _ => true

lemma read_colon {s s' : LexState} (h : s.read ':' = .inl s') : s' = .hpA ∨ s' = .hpB := by
  have hcases : s.read ':' = .inl .hpA ∨ s.read ':' = .inl .hpB
      ∨ s.read ':' = .inr .syntaxError := by
    cases s <;> decide
  rcases hcases with hc | hc | hc <;> rw [h] at hc <;> simp_all

lemma read_cr {s : LexState} (h : s.inner = true) :
    s.read '\r' = .inl .p ∨ s.read '\r' = .inl .vhpH := by
  revert h
  cases s <;> decide

/-- A printable character keeps the lexer inside the line. -/
lemma inner_of_read {s s' : LexState} {c : Char} (hs : s = .start ∨ s.inner = true)
    (hc : isprint c = true) (h : s.read c = .inl s') : s'.inner = true := by
  have hn := isNewline_of_isprint hc
  cases s <;> simp only [LexState.inner, reduceCtorEq, or_self, Bool.false_eq_true] at hs <;>
    simp only [LexState.read, stateStart, stateShp, stateVhpA, stateVhpB, stateVhpC, stateVhpD,
      stateVhpE, stateVhpF, stateVhpG, stateVhpH, stateHpA, stateHpB, vhpOtherwise, hn, hc,
      if_true, Bool.false_eq_true, if_false] at h <;>
    split_ifs at h <;> cases h <;> rfl

lemma inner_of_scan : ∀ {line : List Char} {s s' : LexState},
    (line ≠ [] ∨ s.inner = true) → (s = .start ∨ s.inner = true) →
    (∀ c ∈ line, isprint c = true) → scan LexState.read s line = some s' → s'.inner = true
  | [], s, s', hne, _, _, h => by
    obtain rfl : s = s' := by simpa using h
    simpa using hne
  | c :: line, s, s', _, hs, hline, h => by
    rcases hc : s.read c with s₁ | t
    · rw [scan_cons_of_inl hc] at h
      have hinner := inner_of_read hs (hline c List.mem_cons_self) hc
      exact inner_of_scan (.inr hinner) (.inr hinner)
        (fun c hc => hline c (List.mem_cons_of_mem _ hc)) h
    · simp [scan, hc] at h

/-- **A name token**: the lexer reads exactly the name, its colon and the blank. -/
lemma lexStart_name_iff {name : List Char} {t : Token} (rest : List Char) :
    lexStart (name ++ ([':', ' '] ++ rest)) = some (t, rest) ↔
      t = .header ∧ readsAsName name = true := by
  rw [readsAsName, decide_eq_true_eq]
  have hsplit : name ++ ([':', ' '] ++ rest) = (name ++ [':']) ++ ' ' :: rest := by simp
  constructor
  · rintro h
    rw [hsplit] at h
    obtain ⟨pre, c, s, heq, hscan, hread⟩ := lex_eq_some_iff.mp h
    obtain ⟨hpre, hc⟩ := List.append_inj' heq (by simp)
    obtain rfl : ' ' = c := by simpa using hc
    rw [← hpre, scan_append] at hscan
    obtain ⟨s₀, hname, hcolon⟩ := Option.bind_eq_some_iff.mp hscan
    have hcolon' : s₀.read ':' = .inl s := by
      rcases hr : s₀.read ':' with s₁ | t₁
      · rw [scan_cons_of_inl hr] at hcolon
        rw [Option.some.inj hcolon]
      · simp [scan, hr] at hcolon
    -- of the two states behind a colon only one accepts a blank
    rcases read_colon hcolon' with rfl | rfl
    · exact absurd hread (by simp [show LexState.hpA.read ' ' = .inl .hpA from by decide])
    · have hheader : LexState.hpB.read ' ' = .inr .header := by decide
      refine ⟨Sum.inr.inj (hread.symm.trans hheader), ?_⟩
      rw [scan_append, hname]
      exact hcolon
  · rintro ⟨rfl, h⟩
    rw [hsplit, lexStart, lex_append h]
    rfl

/-- **A phrase token**: the lexer reads exactly the line and its end. -/
lemma lexStart_line_iff {line : List Char} {t : Token} (hne : line ≠ [])
    (hline : ∀ c ∈ line, isprint c = true) (rest : List Char) :
    lexStart (line ++ (crlf ++ rest)) = some (t, rest) ↔
      t = .phrase ∧ readsAsLine line = true := by
  rw [readsAsLine, decide_eq_true_eq]
  have hsplit : line ++ (crlf ++ rest) = (line ++ ['\r']) ++ '\n' :: rest := by simp [crlf]
  constructor
  · rintro h
    rw [hsplit] at h
    obtain ⟨pre, c, s, heq, hscan, hread⟩ := lex_eq_some_iff.mp h
    obtain ⟨hpre, hc⟩ := List.append_inj' heq (by simp)
    obtain rfl : '\n' = c := by simpa using hc
    rw [← hpre, scan_append] at hscan
    obtain ⟨s₀, hscan₀, hcr⟩ := Option.bind_eq_some_iff.mp hscan
    have hinner := inner_of_scan (.inl hne) (.inl rfl) hline hscan₀
    rcases read_cr hinner with hr | hr <;> rw [scan_cons_of_inl hr] at hcr <;>
      obtain rfl := Option.some.inj hcr
    · have hphrase : LexState.p.read '\n' = .inr .phrase := by decide
      refine ⟨Sum.inr.inj (hread.symm.trans hphrase), ?_⟩
      rw [scan_append, hscan₀, Option.bind_some, scan_cons_of_inl hr]
      rfl
    · exact absurd hread (by simp [show LexState.vhpH.read '\n' = .inl .vhpH from by decide])
  · rintro ⟨rfl, h⟩
    rw [hsplit, lexStart, lex_append h]
    rfl

/-- Digits from a state that digits lead to another. -/
lemma scan_digits {s s' : LexState} (hstay : ∀ c, isdigit c = true → s'.read c = .inl s') :
    ∀ {digits : List Char}, (∀ c, isdigit c = true → s.read c = .inl s') → digits ≠ [] →
    (∀ c ∈ digits, isdigit c = true) → scan LexState.read s digits = some s' := by
  have hrest : ∀ {digits : List Char}, (∀ c ∈ digits, isdigit c = true) →
      scan LexState.read s' digits = some s' := by
    intro digits hdigits
    induction digits with
    | nil => rfl
    | cons c digits ih =>
      rw [scan_cons_of_inl (hstay c (hdigits c List.mem_cons_self))]
      exact ih fun c hc => hdigits c (List.mem_cons_of_mem _ hc)
  intro digits hstart hne hdigits
  rcases digits with _ | ⟨c, digits⟩
  · exact absurd rfl hne
  · rw [scan_cons_of_inl (hstart c (hdigits c List.mem_cons_self))]
    exact hrest fun c hc => hdigits c (List.mem_cons_of_mem _ hc)

lemma lexStart_version (r : ServerResponse) (rest : List Char) :
    lexStart (r.version ++ rest) = some (.version, rest) := by
  have hmajor : scan LexState.read .vhpE r.major = some .vhpF :=
    scan_digits (fun c hc => by simp [LexState.read, stateVhpF, hc])
      (fun c hc => by simp [LexState.read, stateVhpE, hc]) r.major_digits.1 r.major_digits.2
  have hminor : scan LexState.read .vhpG r.minor = some .vhpH :=
    scan_digits (fun c hc => by simp [LexState.read, stateVhpH, hc])
      (fun c hc => by simp [LexState.read, stateVhpG, hc]) r.minor_digits.1 r.minor_digits.2
  have hsplit : r.version ++ rest
      = ['H', 'T', 'T', 'P', '/'] ++ (r.major ++ (['.'] ++ (r.minor ++ ' ' :: rest))) := by
    simp [ServerResponse.version]
  have hhttp : scan LexState.read .start ['H', 'T', 'T', 'P', '/'] = some .vhpE := by decide
  have hdot : scan LexState.read .vhpF ['.'] = some .vhpG := by decide
  rw [hsplit, lexStart, lex_append hhttp, lex_append hmajor, lex_append hdot, lex_append hminor]
  rfl

lemma lexStart_code (r : ServerResponse) (rest : List Char) :
    lexStart (r.code ++ [' '] ++ rest) = some (.statusCode, rest) := by
  have hne : r.code ≠ [] := by
    intro h
    have := r.code_digits.1
    simp [h] at this
  have hcode : scan LexState.read .start r.code = some .shp :=
    scan_digits (fun c hc => by simp [LexState.read, stateShp, hc])
      (fun c hc => by simp [LexState.read, stateStart, toupper_ne_of_isdigit hc, hc]) hne
      r.code_digits.2
  rw [List.append_assoc, lexStart, lex_append hcode]
  rfl

/-! ## The text of a response -/

variable {buf rest : List Char} {r : ServerResponse}

lemma renderHeaders_cons (h : HttpHeader) (hs : List HttpHeader) (post : List Char) :
    renderHeaders (h :: hs) ++ post
      = h.fieldName ++ ([':', ' '] ++ (h.value ++ (crlf ++ (renderHeaders hs ++ post)))) := by
  simp [renderHeaders, HttpHeader.render]

lemma noNul_of_isprint {line : List Char} (h : ∀ c ∈ line, isprint c = true) : '\x00' ∉ line :=
  fun hmem => ne_nul_of_isprint (h _ hmem) rfl

lemma noNul_of_isdigit {digits : List Char} (h : ∀ c ∈ digits, isdigit c = true) :
    '\x00' ∉ digits :=
  noNul_of_isprint fun c hc => isprint_of_isdigit (h c hc)

/-- No NUL is in a response, so a copy is never cut short. -/
lemma noNul_render (r : ServerResponse) : '\x00' ∉ r.render := by
  have hmajor := noNul_of_isdigit r.major_digits.2
  have hminor := noNul_of_isdigit r.minor_digits.2
  have hcode := noNul_of_isdigit r.code_digits.2
  have hphrase := noNul_of_isprint r.phrase_printable.2
  have hheaders : ∀ h ∈ r.headers, '\x00' ∉ h.render := by
    intro h hh
    have hname : '\x00' ∉ h.fieldName := fun hmem =>
      ne_nul_of_isNameChar ((r.names h hh).2 _ hmem) rfl
    have hvalue := noNul_of_isprint (r.values h hh).2
    simp [HttpHeader.render, crlf, hname, hvalue]
  have hbody := r.body_noNul
  have hhttp : '\x00' ∉ ['H', 'T', 'T', 'P', '/'] := by decide
  have hdot : '\x00' ∉ ['.'] := by decide
  have hblank : '\x00' ∉ [' '] := by decide
  have hcrlf : '\x00' ∉ crlf := by decide
  simp only [ServerResponse.render, ServerResponse.version, ServerResponse.afterStatusLine,
    renderHeaders, List.mem_append, List.mem_flatMap, not_or, not_exists, not_and, hmajor, hminor,
    hcode, hphrase, hbody, hhttp, hdot, hblank, hcrlf, not_false_eq_true, and_true, true_and]
  exact hheaders

lemma strncpy_of_noNul (h : '\x00' ∉ buf) (pos size : ℕ) :
    strncpy buf pos size = (buf.drop pos).take size := by
  rw [strncpy, List.takeWhile_eq_self_iff]
  intro c hc
  have hmem : c ∈ buf := List.mem_of_mem_drop (List.mem_of_mem_take hc)
  simp only [decide_eq_true_eq]
  rintro rfl
  exact h hmem

/-- A copy of the text at a suffix. -/
lemma strncpy_at {xs ys : List Char} (hnul : '\x00' ∉ buf) (hsuffix : xs ++ ys <:+ buf) :
    strncpy buf (buf.length - (xs ++ ys).length) xs.length = xs := by
  rw [strncpy_of_noNul hnul, drop_of_suffix hsuffix, List.take_left]

lemma lexStart_crlf (rest : List Char) : lexStart (crlf ++ rest) = some (.newline, rest) := rfl

/-- Two suffixes of one length are the same. -/
lemma suffix_eq_of_length {xs ys : List Char} (hx : xs <:+ buf) (hy : ys <:+ buf)
    (h : xs.length = ys.length) : xs = ys :=
  (List.suffix_of_suffix_length_le hx hy h.le).eq_of_length h

/-! ## A response whose texts are read right -/

/-- Headers whose names and values are read right. -/
def readsAsHeaders (hs : List HttpHeader) : Prop :=
  ∀ h ∈ hs, readsAsName h.fieldName = true ∧ readsAsLine h.value = true

/-- The values of a list of headers are lines. -/
def LineValues (hs : List HttpHeader) : Prop :=
  ∀ h ∈ hs, h.value ≠ [] ∧ ∀ c ∈ h.value, isprint c = true

lemma headerCount_render {body : List Char} : ∀ {hs : List HttpHeader} {fuel : ℕ},
    LineValues hs → readsAsHeaders hs → (renderHeaders hs ++ (crlf ++ body)).length < fuel →
    headerCount fuel (renderHeaders hs ++ (crlf ++ body)) false = some hs.length
  | [], 0, _, _, hfuel => by simp at hfuel
  | [], fuel + 1, _, _, _ => rfl
  | h :: hs, fuel, hlines, hreads, hfuel => by
    obtain ⟨hname, hvalue⟩ := hreads h List.mem_cons_self
    obtain ⟨hne, hprint⟩ := hlines h List.mem_cons_self
    rw [renderHeaders_cons] at hfuel ⊢
    obtain ⟨fuel, rfl⟩ : ∃ n, fuel = n + 2 := by
      simp only [List.length_append, List.length_cons] at hfuel
      exact ⟨fuel - 2, by omega⟩
    have hlex₁ := (lexStart_name_iff (h.value ++ (crlf ++ (renderHeaders hs ++ (crlf ++ body))))).mpr
      ⟨rfl, hname⟩
    have hlex₂ := (lexStart_line_iff hne hprint (renderHeaders hs ++ (crlf ++ body))).mpr
      ⟨rfl, hvalue⟩
    have hlen : (renderHeaders hs ++ (crlf ++ body)).length < fuel := by
      simp only [List.length_append, List.length_cons] at hfuel ⊢
      omega
    have hrest := headerCount_render (fun h hh => hlines h (List.mem_cons_of_mem _ hh))
      (fun h hh => hreads h (List.mem_cons_of_mem _ hh)) hlen
    simp only [headerCount, hlex₁, hlex₂, hrest, Bool.false_eq_true, if_false, Option.map_some,
      List.length_cons]

/-- **The second pass extracts headers that are read right.** -/
lemma parseHeaders_render {post : List Char} (hnul : '\x00' ∉ buf) :
    ∀ {hs : List HttpHeader} {i : ℕ}, LineValues hs → readsAsHeaders hs →
    (renderHeaders hs ++ post) <:+ buf →
    parseHeaders mallocs buf i hs.length (.at buf (renderHeaders hs ++ post))
      = .ok (hs, .at buf post)
  | [], _, _, _, _ => rfl
  | h :: hs, i, hlines, hreads, hsuffix => by
    obtain ⟨hname, hvalue⟩ := hreads h List.mem_cons_self
    obtain ⟨hne, hprint⟩ := hlines h List.mem_cons_self
    rw [renderHeaders_cons] at hsuffix ⊢
    set rest := renderHeaders hs ++ post with hrest
    have hlex₁ := (lexStart_name_iff (h.value ++ (crlf ++ rest))).mpr ⟨rfl, hname⟩
    have hlex₂ := (lexStart_line_iff hne hprint rest).mpr ⟨rfl, hvalue⟩
    have hsuffix₁ := (lexStart_suffix hlex₁).trans hsuffix
    have hnext : parseHeaders mallocs buf (i + 1) hs.length (.at buf rest) = .ok (hs, .at buf post) :=
      parseHeaders_render hnul (fun h hh => hlines h (List.mem_cons_of_mem _ hh))
        (fun h hh => hreads h (List.mem_cons_of_mem _ hh)) ((lexStart_suffix hlex₂).trans hsuffix₁)
    have hvalueRead : readValue buf (h.value ++ (crlf ++ rest))
        = some (h.value.length, .at buf rest) := by
      have hsize : (h.value ++ (crlf ++ rest)).length - rest.length - 2 = h.value.length := by
        simp [crlf]
        omega
      simp only [readValue, hlex₂, reduceCtorEq, or_self, if_false, hsize]
    have hnameSize : (h.fieldName ++ ([':', ' '] ++ (h.value ++ (crlf ++ rest)))).length
        - (h.value ++ (crlf ++ rest)).length - 2 = h.fieldName.length := by
      simp only [List.length_append, List.length_cons, List.length_nil]
      omega
    rw [List.length_cons, parseHeaders_succ i hsuffix rfl]
    simp only [hlex₁, hvalueRead, mallocs_eq, Bool.true_eq_false, if_false]
    rw [hnameSize, strncpy_at hnul hsuffix, strncpy_at hnul hsuffix₁, hnext]
    rfl

lemma isspace_of_isdigit {c : Char} (h : isdigit c = true) : isspace c = false := by
  simp only [isdigit, Bool.and_eq_true, decide_eq_true_eq] at h
  simp only [isspace, Bool.or_eq_false_iff, Bool.and_eq_false_iff, decide_eq_false_iff_not]
  refine ⟨?_, by omega⟩
  rintro rfl
  exact absurd h.1 (by decide)

/-- `atoi` of digits is their value. -/
lemma atoi_of_digits {digits : List Char} (h : ∀ c ∈ digits, isdigit c = true) :
    atoi digits = decimalValue digits := by
  have hdrop : digits.dropWhile isspace = digits := by
    rcases digits with _ | ⟨c, cs⟩
    · rfl
    · exact List.dropWhile_cons_of_neg (by simp [isspace_of_isdigit (h c List.mem_cons_self)])
  have htake : digits.takeWhile isdigit = digits := List.takeWhile_eq_self_iff.mpr h
  rw [atoi, hdrop]
  split
  · exact absurd (h '-' List.mem_cons_self) (by decide)
  · exact absurd (h '+' List.mem_cons_self) (by decide)
  · rw [htake]

lemma statusLine_render (hphrase : readsAsLine r.phrase = true) :
    StatusLine r.render (r.code ++ [' '] ++ (r.phrase ++ (crlf ++ r.afterStatusLine)))
      (r.phrase ++ (crlf ++ r.afterStatusLine)) r.afterStatusLine :=
  ⟨lexStart_version r _, lexStart_code r _,
    (lexStart_line_iff r.phrase_printable.1 r.phrase_printable.2 _).mpr ⟨rfl, hphrase⟩⟩

lemma parseStatusLine_render (hphrase : readsAsLine r.phrase = true) :
    parseStatusLine mallocs r.render .init
      = .ok (r.version, (decimalValue r.code : ℤ), r.phrase, .at r.render r.afterStatusLine) := by
  have hnul := noNul_render r
  have hline := statusLine_render hphrase
  obtain ⟨hrest₁, hrest₂, -⟩ := hline.suffix
  have hversion : strncpy r.render 0 (r.render.length
      - (r.code ++ [' '] ++ (r.phrase ++ (crlf ++ r.afterStatusLine))).length) = r.version := by
    have hlen : r.render.length - (r.code ++ [' '] ++
        (r.phrase ++ (crlf ++ r.afterStatusLine))).length = r.version.length := by
      simp only [ServerResponse.render, List.length_append]
      omega
    rw [hlen, strncpy_of_noNul hnul, List.drop_zero, ServerResponse.render, List.take_left]
  have hcode : strncpy r.render (r.render.length - (r.code ++ [' '] ++
      (r.phrase ++ (crlf ++ r.afterStatusLine))).length) (statusCodeLen - 1) = r.code := by
    rw [strncpy_of_noNul hnul, drop_of_suffix hrest₁, List.append_assoc,
      show statusCodeLen - 1 = r.code.length from r.code_digits.1.symm, List.take_left]
  have hphraseText : strncpy r.render
      (r.render.length - (r.phrase ++ (crlf ++ r.afterStatusLine)).length)
      ((r.phrase ++ (crlf ++ r.afterStatusLine)).length - r.afterStatusLine.length - 2)
        = r.phrase := by
    have hlen : (r.phrase ++ (crlf ++ r.afterStatusLine)).length - r.afterStatusLine.length - 2
        = r.phrase.length := by
      simp [crlf]
      omega
    rw [hlen, strncpy_at hnul hrest₂]
  rw [parseStatusLine_of_statusLine hline, hversion, hcode, hphraseText,
    atoi_of_digits r.code_digits.2]

/-- **The parser makes of a response what it is meant to**, when its texts are read right. -/
lemma httpParseResponse_render (hphrase : readsAsLine r.phrase = true)
    (hheaders : readsAsHeaders r.headers) : httpParseResponse mallocs r.render = .ok r.parsed := by
  have hnul := noNul_render r
  have hline := statusLine_render hphrase
  obtain ⟨-, -, hafter⟩ := hline.suffix
  have hcount : headerCount (r.render.length + 1) r.afterStatusLine false
      = some r.headers.length :=
    headerCount_render r.values hheaders (Nat.lt_succ_of_le hafter.length_le)
  have hparse : parseHeaders mallocs r.render 0 r.headers.length (.at r.render r.afterStatusLine)
      = .ok (r.headers, .at r.render (crlf ++ r.body)) :=
    parseHeaders_render hnul r.values hheaders hafter
  have hbody : parseBody mallocs r.render (.at r.render (crlf ++ r.body))
      = .ok (r.body, r.body.length) := by
    have hcrlf : crlf ++ r.body <:+ r.render :=
      List.IsSuffix.trans (List.suffix_append _ _) hafter
    have hbodySuffix := (lexStart_suffix (lexStart_crlf r.body)).trans hcrlf
    have hbodyLen : (r.render.length : ℤ) - (StateMachine.at r.render r.body).pos
        = r.body.length := by
      rw [at_pos hbodySuffix]
      omega
    have hdrop : r.render.drop (StateMachine.at r.render r.body).pos = r.body :=
      drop_of_suffix hbodySuffix
    rw [parseBody, expectToken_at hcrlf (lexStart_crlf r.body)]
    simp [bind, Except.bind, hbodyLen, hdrop, not_lt.mpr (Int.natCast_nonneg r.body.length)]
  rcases countHeaders_at false 0 hafter (Nat.lt_succ_of_le hafter.length_le) with
    ⟨hnone, -⟩ | ⟨n, rest', hsome, hrest', hok⟩
  · simp [hcount] at hnone
  · obtain rfl : n = r.headers.length := by simpa [hsome] using hcount
    rw [httpParseResponse, parseStatusLine_render hphrase]
    simp only [bind, Except.bind, hok, Nat.zero_add, mallocHeaders, mallocs_eq, Bool.true_eq_false,
      and_false, if_false]
    rw [show ({ StateMachine.at r.render rest' with
      pos := (StateMachine.at r.render r.afterStatusLine).pos } : StateMachine)
        = .at r.render r.afterStatusLine from rfl, hparse]
    simp only [hbody]
    rfl

/-! ## A response whose texts are read wrong -/

lemma bind_eq_ok {α β : Type} {x : Except Failure α} {f : α → Except Failure β} {b : β}
    (h : x >>= f = .ok b) : ∃ a, x = .ok a ∧ f a = .ok b := by
  rcases x with failure | a
  · cases h
  · exact ⟨a, rfl, h⟩

/-- Where a value leaves the second pass, and how long it was: at the wrong place, or behind its line
end. -/
lemma readValue_pos {size : ℕ} {sm : StateMachine} (hrest : rest <:+ buf)
    (h : readValue buf rest = some (size, sm)) :
    size + 2 ≤ rest.length ∧ (sm.pos = size + 2 ∨
      sm.pos = buf.length - rest.length + size + 2 ∧
        (sm.pos = buf.length ∨ ∃ t rest', lexStart rest = some (t, rest') ∧
          rest'.length + size + 2 = rest.length)) := by
  have hle := hrest.length_le
  unfold readValue at h
  rcases hlex : lexStart rest with _ | ⟨token, rest'⟩
  · simp only [hlex] at h
    split at h
    next hshort =>
      obtain ⟨rfl, rfl⟩ : rest.length - 2 = size ∧ _ = sm := by simpa using h
      refine ⟨by omega, .inr ⟨?_, .inl rfl⟩⟩
      simp only
      omega
    · simp at h
  · have hlen := lexStart_length hlex
    simp only [hlex] at h
    split at h
    next hother =>
      obtain ⟨j, hj, hpair⟩ := Option.map_eq_some_iff.mp h
      obtain ⟨rfl, rfl⟩ : j = size ∧ _ = sm := by simpa using hpair
      have hbound := findCrlf_bound hj
      refine ⟨hbound, .inl ?_⟩
      simp only [StateMachine.at, List.length_drop]
      omega
    next hother =>
      obtain ⟨rfl, rfl⟩ : rest.length - rest'.length - 2 = size ∧ _ = sm := by simpa using h
      refine ⟨by omega, .inr ⟨?_, .inr ⟨token, rest', rfl, by omega⟩⟩⟩
      simp only [StateMachine.at]
      omega

/-- A header that the second pass extracts: the scans end where its lengths say. -/
lemma parseHeaders_cons_ok (hnul : '\x00' ∉ buf) {i n : ℕ} {hd : HttpHeader} {hs : List HttpHeader}
    {sm sm' : StateMachine} (hpos : sm.pos ≤ buf.length)
    (h : parseHeaders mallocs buf i (n + 1) sm = .ok (hd :: hs, sm')) :
    ∃ t₁ rest₁ sm₂, lexStart (buf.drop sm.pos) = some (t₁, rest₁) ∧
      rest₁.length + hd.fieldName.length + 2 = (buf.drop sm.pos).length ∧
      readValue buf rest₁ = some (hd.value.length, sm₂) ∧
      parseHeaders mallocs buf (i + 1) n sm₂ = .ok (hs, sm') := by
  obtain ⟨rest, hrestDef⟩ : ∃ rest, rest = buf.drop sm.pos := ⟨_, rfl⟩
  have hrest : rest <:+ buf := hrestDef ▸ List.drop_suffix _ _
  have hrestLen : rest.length = buf.length - sm.pos := by
    rw [hrestDef, List.length_drop]
  rw [parseHeaders_succ i hrest (by omega)] at h
  rw [← hrestDef]
  rcases hlex₁ : lexStart rest with _ | ⟨t₁, rest₁⟩
  · simp [hlex₁] at h
  have hrest₁ := (lexStart_suffix hlex₁).trans hrest
  have hlen₁ := lexStart_length hlex₁
  rcases hvalue : readValue buf rest₁ with _ | ⟨size, sm₂⟩
  · simp [hlex₁, hvalue] at h
  simp only [hlex₁, hvalue, mallocs_eq, Bool.true_eq_false, if_false] at h
  obtain ⟨⟨headers, sm₃⟩, hrec, hresult⟩ := bind_eq_ok h
  simp only [pure, Except.pure, Except.ok.injEq, Prod.mk.injEq, List.cons.injEq] at hresult
  obtain ⟨⟨hheader, rfl⟩, rfl⟩ := hresult
  have hnameText : strncpy buf (buf.length - rest.length) (rest.length - rest₁.length - 2)
      = hd.fieldName := congrArg HttpHeader.fieldName hheader
  have hvalueText : strncpy buf (buf.length - rest₁.length) size = hd.value :=
    congrArg HttpHeader.value hheader
  have hname : rest.length - rest₁.length - 2 = hd.fieldName.length := by
    rw [← hnameText, strncpy_of_noNul hnul, drop_of_suffix hrest, List.length_take]
    omega
  have hsize := (readValue_pos hrest₁ hvalue).1
  have hvalueLen : size = hd.value.length := by
    rw [← hvalueText, strncpy_of_noNul hnul, drop_of_suffix hrest₁, List.length_take]
    omega
  exact ⟨t₁, rest₁, sm₂, rfl, by omega, hvalueLen ▸ hvalue, hrec⟩

/-- In place, two scans that end where the lengths of a header say read it right. -/
lemma reads_of_lengths {hd : HttpHeader} {tail rest₁ rest₂ : List Char} {t₁ t₂ : Token}
    (hne : hd.value ≠ []) (hprint : ∀ c ∈ hd.value, isprint c = true)
    (hlex₁ : lexStart (hd.render ++ tail) = some (t₁, rest₁))
    (hname : rest₁.length + hd.fieldName.length + 2 = (hd.render ++ tail).length)
    (hlex₂ : lexStart rest₁ = some (t₂, rest₂))
    (hvalue : rest₂.length + hd.value.length + 2 = rest₁.length) :
    readsAsName hd.fieldName = true ∧ readsAsLine hd.value = true := by
  have hrender : hd.render ++ tail
      = hd.fieldName ++ ([':', ' '] ++ (hd.value ++ (crlf ++ tail))) := by
    simp [HttpHeader.render]
  rw [hrender] at hlex₁ hname
  have hrest₁ : rest₁ = hd.value ++ (crlf ++ tail) := by
    refine suffix_eq_of_length (lexStart_suffix hlex₁) ⟨hd.fieldName ++ [':', ' '], by simp⟩ ?_
    simp only [List.length_append, List.length_cons, List.length_nil] at hname ⊢
    omega
  subst hrest₁
  have hrest₂ : rest₂ = tail := by
    refine suffix_eq_of_length (lexStart_suffix hlex₂) ⟨hd.value ++ crlf, by simp⟩ ?_
    simp only [crlf, List.length_append, List.length_cons, List.length_nil] at hvalue
    omega
  subst hrest₂
  exact ⟨((lexStart_name_iff _).mp hlex₁).2, ((lexStart_line_iff hne hprint _).mp hlex₂).2⟩

/-- **The second pass never gets ahead**: when it extracts the right strings it ends at or before
their end, and at the end only if it was in place all the time and read every text right. -/
lemma parseHeaders_exact (hnul : '\x00' ∉ buf) {post : List Char} (hpost : 2 ≤ post.length) :
    ∀ {hs : List HttpHeader} (pre : List Char) {i : ℕ} {sm sm' : StateMachine},
    buf = pre ++ (renderHeaders hs ++ post) → pre ≠ [] → LineValues hs → sm.pos ≤ pre.length →
    parseHeaders mallocs buf i hs.length sm = .ok (hs, sm') →
    sm'.pos + post.length ≤ buf.length ∧
      (sm'.pos + post.length = buf.length → sm.pos = pre.length ∧ readsAsHeaders hs)
  | [], pre, i, sm, sm', hbuf, _, _, hpos, h => by
    obtain rfl : sm = sm' := by
      simpa [parseHeaders, pure, Except.pure] using h
    have hlen : buf.length = pre.length + post.length := by
      simp [hbuf, renderHeaders]
    exact ⟨by omega, fun heq => ⟨by omega, by simp [readsAsHeaders]⟩⟩
  | hd :: hs, pre, i, sm, sm', hbuf, hpre, hlines, hpos, h => by
    have hprePos : 0 < pre.length := List.length_pos_iff.mpr hpre
    have hbuf' : buf = pre ++ (hd.render ++ (renderHeaders hs ++ post)) := by
      rw [hbuf, renderHeaders_cons, HttpHeader.render]
      simp
    set tail := renderHeaders hs ++ post with htail
    have hrender : hd.render.length = hd.fieldName.length + hd.value.length + 4 := by
      simp only [HttpHeader.render, crlf, List.length_append, List.length_cons, List.length_nil]
      omega
    have hlen : buf.length = pre.length + hd.render.length + tail.length := by
      rw [hbuf', List.length_append, List.length_append]
      omega
    have htailLen : post.length ≤ tail.length := by
      simp [htail]
    obtain ⟨t₁, rest₁, sm₂, hlex₁, hname, hvalue, hrec⟩ :=
      parseHeaders_cons_ok hnul (by omega) h
    have hrest₁ : rest₁ <:+ buf := (lexStart_suffix hlex₁).trans (List.drop_suffix _ _)
    have hle₁ := hrest₁.length_le
    rw [List.length_drop] at hname
    obtain ⟨hsize, hwhere⟩ := readValue_pos hrest₁ hvalue
    have hnext : sm₂.pos ≤ (pre ++ hd.render).length := by
      rw [List.length_append]
      rcases hwhere with hwhere | ⟨hwhere, -⟩ <;> omega
    obtain ⟨hle, heq⟩ := parseHeaders_exact hnul hpost (pre ++ hd.render)
      (by rw [List.append_assoc]; exact hbuf') (by simp [hpre])
      (fun h hh => hlines h (List.mem_cons_of_mem _ hh)) hnext hrec
    refine ⟨hle, fun hend => ?_⟩
    obtain ⟨hplace, hreads⟩ := heq hend
    rw [List.length_append] at hplace
    -- not at the wrong place, so behind the line end, and the pass was in place before
    obtain ⟨hwhere, htoken⟩ : sm₂.pos = buf.length - rest₁.length + hd.value.length + 2 ∧
        (sm₂.pos = buf.length ∨ ∃ t rest', lexStart rest₁ = some (t, rest') ∧
          rest'.length + hd.value.length + 2 = rest₁.length) := by
      rcases hwhere with hwhere | hwhere
      · omega
      · exact hwhere
    have hinPlace : sm.pos = pre.length := by omega
    obtain ⟨t₂, rest₂, hlex₂, hlen₂⟩ : ∃ t rest', lexStart rest₁ = some (t, rest') ∧
        rest'.length + hd.value.length + 2 = rest₁.length := by
      rcases htoken with htoken | htoken
      · omega
      · exact htoken
    have hrest : buf.drop sm.pos = hd.render ++ tail := by
      rw [hinPlace, hbuf', List.drop_left]
    rw [hrest] at hlex₁
    obtain ⟨hne, hprint⟩ := hlines hd List.mem_cons_self
    have hgood := reads_of_lengths hne hprint hlex₁
      (by rw [← hrest, List.length_drop]; exact hname) hlex₂ hlen₂
    refine ⟨hinPlace, fun h hh => ?_⟩
    rcases List.mem_cons.mp hh with rfl | hh
    · exact hgood
    · exact hreads h hh

lemma parseHeaders_ended {nt i : ℕ} {hs : List HttpHeader} {sm' : StateMachine}
    (hrest : rest <:+ buf) (h : parseHeaders mallocs buf i nt (.at buf rest) = .ok (hs, sm')) :
    Ended buf sm' := by
  rcases hsafe : headersSafe buf nt rest with _ | _
  · rw [parseHeaders_fault hrest rfl hsafe] at h
    cases h
  · have hended : Safe (parseHeaders mallocs buf i nt (.at buf rest))
        fun result => Ended buf result.2 :=
      parseHeaders_safe hrest rfl (.inr ⟨rest, hrest, rfl⟩) hsafe
    rw [h] at hended
    exact hended

/-- Only the start leads to the state of a blank line, and nothing leads back to the start. -/
lemma read_moves {s s' : LexState} {c : Char} (h : s.read c = .inl s') :
    s' ≠ .start ∧ (s' = .n → s = .start) := by
  cases s with
  | error => cases h
  | _ =>
    simp only [LexState.read, stateStart, stateShp, stateN, stateVhpA, stateVhpB, stateVhpC,
      stateVhpD, stateVhpE, stateVhpF, stateVhpG, stateVhpH, stateHpA, stateHpB, stateP,
      vhpOtherwise] at h
    split_ifs at h <;> cases h <;> simp

/-- Only the state of a blank line accepts a blank line. -/
lemma read_newline {s : LexState} {c : Char} (h : s.read c = .inr .newline) : s = .n := by
  cases s with
  | error => cases h
  | n => rfl
  | _ =>
    simp only [LexState.read, stateStart, stateShp, stateVhpA, stateVhpB, stateVhpC,
      stateVhpD, stateVhpE, stateVhpF, stateVhpG, stateVhpH, stateHpA, stateHpB, stateP,
      vhpOtherwise] at h
    split_ifs at h <;> cases h

lemma scan_last {pre : List Char} {c : Char} {s s' : LexState}
    (h : scan LexState.read s (pre ++ [c]) = some s') :
    ∃ s₀, scan LexState.read s pre = some s₀ ∧ s₀.read c = .inl s' := by
  rw [scan_append] at h
  obtain ⟨s₀, hpre, hc⟩ := Option.bind_eq_some_iff.mp h
  refine ⟨s₀, hpre, ?_⟩
  rcases hread : s₀.read c with s₁ | t
  · rw [scan_cons_of_inl hread] at hc
    rw [Option.some.inj hc]
  · simp [scan, hread] at hc

/-- A blank line is two characters long. -/
lemma lexStart_newline_length {rest' : List Char} (h : lexStart rest = some (.newline, rest')) :
    rest.length = rest'.length + 2 := by
  obtain ⟨pre, c, s, rfl, hscan, hc⟩ := lex_eq_some_iff.mp h
  obtain rfl := read_newline hc
  rcases List.eq_nil_or_concat' pre with rfl | ⟨pre, c', rfl⟩
  · simp at hscan
  obtain ⟨s₀, hpre, hc'⟩ := scan_last hscan
  obtain rfl := (read_moves hc').2 rfl
  rcases List.eq_nil_or_concat' pre with rfl | ⟨pre, c'', rfl⟩
  · simp
  · obtain ⟨s₁, -, hc''⟩ := scan_last hpre
    exact absurd rfl (read_moves hc'').1

lemma parseBody_length {sm : StateMachine} {body : List Char} {bodyLen : ℤ} (hended : Ended buf sm)
    (h : parseBody mallocs buf sm = .ok (body, bodyLen)) :
    sm.pos + 2 + body.length = buf.length := by
  rcases hended with hstop | ⟨rest, hrest, rfl⟩
  · rcases sm with ⟨state, pos, stop⟩
    subst hstop
    rw [parseBody, expectToken, getNextToken_of_stop] at h
    cases h
  · rw [parseBody] at h
    obtain ⟨sm₁, hexpect, h⟩ := bind_eq_ok h
    have hsafe : Safe (expectToken buf .newline (.at buf rest)) fun sm =>
        ∃ rest', lexStart rest = some (.newline, rest') ∧ sm = .at buf rest' :=
      safe_expectToken (by simp) hrest
    rw [hexpect] at hsafe
    obtain ⟨rest', hlex, rfl⟩ := hsafe
    have hrest' := (lexStart_suffix hlex).trans hrest
    have hlen := lexStart_newline_length hlex
    have hle := hrest.length_le
    have hbody : body = rest' := by
      have hneg : ¬((buf.length : ℤ) - (StateMachine.at buf rest').pos < 0) := by
        rw [at_pos hrest']
        omega
      simp only [if_neg hneg, mallocs_eq, Bool.not_true, Bool.false_eq_true, if_false,
        Except.ok.injEq, Prod.mk.injEq] at h
      rw [← h.1, show (StateMachine.at buf rest').pos = buf.length - rest'.length from rfl,
        drop_of_suffix hrest']
    simp only [hbody, StateMachine.at]
    omega

/-- A phrase that comes out right was read right. -/
lemma readsAsLine_of_parseStatusLine {version : List Char} {code : ℤ} {sm : StateMachine}
    (h : parseStatusLine mallocs r.render .init = .ok (version, code, r.phrase, sm)) :
    readsAsLine r.phrase = true ∧ sm = .at r.render r.afterStatusLine := by
  have hnul := noNul_render r
  have hsafe : Safe (parseStatusLine mallocs r.render .init) fun result =>
      ∃ rest₁ rest₂ rest₃, StatusLine r.render rest₁ rest₂ rest₃ ∧
        result.2.2.2 = .at r.render rest₃ := parseStatusLine_safe
  rw [h] at hsafe
  obtain ⟨rest₁, rest₂, rest₃, hstatus, hsm⟩ := hsafe
  obtain rfl : rest₁ = r.code ++ [' '] ++ (r.phrase ++ (crlf ++ r.afterStatusLine)) := by
    have := hstatus.1.symm.trans (lexStart_version r _)
    simpa using this
  obtain rfl : rest₂ = r.phrase ++ (crlf ++ r.afterStatusLine) := by
    have := hstatus.2.1.symm.trans (lexStart_code r _)
    simpa using this
  obtain ⟨-, hrest₂, hrest₃⟩ := hstatus.suffix
  have hlen₃ := lexStart_length hstatus.2.2
  rw [parseStatusLine_of_statusLine hstatus] at h
  simp only [Except.ok.injEq, Prod.mk.injEq] at h
  obtain ⟨-, -, hphrase, -⟩ := h
  -- the copy has the length of the phrase, so the token ends where the line does
  have hsize := congrArg List.length hphrase
  rw [strncpy_of_noNul hnul, drop_of_suffix hrest₂, List.length_take] at hsize
  have hafter : r.afterStatusLine <:+ r.render :=
    List.IsSuffix.trans ⟨r.phrase ++ crlf, by simp⟩ hrest₂
  obtain rfl : rest₃ = r.afterStatusLine := by
    refine suffix_eq_of_length hrest₃ hafter ?_
    simp only [List.length_append, crlf, List.length_cons, List.length_nil] at hsize hlen₃
    omega
  exact ⟨((lexStart_line_iff r.phrase_printable.1 r.phrase_printable.2 _).mp hstatus.2.2).2, hsm⟩

/-- **The parser is exact on a response if and only if its texts are read right.** -/
theorem httpParseResponse_render_iff (r : ServerResponse) :
    httpParseResponse mallocs r.render = .ok r.parsed ↔
      readsAsLine r.phrase = true ∧
        ∀ h ∈ r.headers, readsAsName h.fieldName = true ∧ readsAsLine h.value = true := by
  refine ⟨fun h => ?_, fun h => httpParseResponse_render h.1 h.2⟩
  have hnul := noNul_render r
  rw [httpParseResponse] at h
  obtain ⟨⟨version, statusCode, phrase, sm⟩, hline, h⟩ := bind_eq_ok h
  obtain ⟨⟨nt, sm₁⟩, hcount, h⟩ := bind_eq_ok h
  obtain ⟨-, hmalloc, h⟩ := bind_eq_ok h
  obtain ⟨⟨headers, sm₂⟩, hparse, h⟩ := bind_eq_ok h
  obtain ⟨⟨body, bodyLen⟩, hbody, h⟩ := bind_eq_ok h
  simp only [pure, Except.pure, Except.ok.injEq, ServerResponse.parsed, HttpResponse.mk.injEq] at h
  obtain ⟨rfl, rfl, rfl, rfl, rfl, rfl, rfl⟩ := h
  obtain ⟨hphrase, rfl⟩ := readsAsLine_of_parseStatusLine hline
  obtain ⟨-, -, hafter⟩ := (statusLine_render hphrase).suffix
  -- the first pass leaves the lexer at the start of some token
  have hsm₁ : ({ sm₁ with pos := (StateMachine.at r.render r.afterStatusLine).pos } : StateMachine)
      = .at r.render r.afterStatusLine := by
    rcases countHeaders_at false 0 hafter (Nat.lt_succ_of_le hafter.length_le) with
      ⟨-, herr⟩ | ⟨n, rest', -, -, hok⟩
    · rw [herr] at hcount
      cases hcount
    · rw [hok] at hcount
      obtain ⟨-, rfl⟩ : 0 + n = r.headers.length ∧ _ = sm₁ := by simpa using hcount
      rfl
  simp only [hsm₁] at hparse
  have hlength := parseBody_length (parseHeaders_ended hafter hparse) hbody
  set pre := r.version ++ (r.code ++ [' '] ++ (r.phrase ++ crlf)) with hpre
  have hrender : r.render = pre ++ (renderHeaders r.headers ++ (crlf ++ r.body)) := by
    simp [hpre, ServerResponse.render, ServerResponse.afterStatusLine]
  have hpos : (StateMachine.at r.render r.afterStatusLine).pos = pre.length := by
    simp only [StateMachine.at, ServerResponse.afterStatusLine, hrender, List.length_append]
    omega
  have hpost : 2 ≤ (crlf ++ r.body).length := by simp [crlf]
  obtain ⟨-, hend⟩ := parseHeaders_exact hnul hpost pre hrender
    (by simp [hpre, ServerResponse.version]) r.values hpos.le hparse
  refine ⟨hphrase, (hend ?_).2⟩
  simp only [List.length_append, crlf, List.length_cons, List.length_nil]
  omega

/-- A date: the value begins with digits and a blank. -/
def datedResponse : ServerResponse where
  major := ['1']
  minor := ['1']
  code := ['2', '0', '0']
  phrase := ['O', 'K']
  headers := [⟨['D', 'a', 't', 'e'], ['1', '2', ' ', 'J', 'a', 'n']⟩]
  body := ['h', 'i']
  major_digits := by decide
  minor_digits := by decide
  code_digits := by decide
  phrase_printable := by decide
  names := by decide
  values := by decide
  body_noNul := by decide

theorem not_httpParseResponse_exact : ¬∀ r : ServerResponse,
    httpParseResponse mallocs r.render = .ok r.parsed := by
  intro h
  exact absurd (h datedResponse) (by decide)

end FreeswitchContrib.ModHttp

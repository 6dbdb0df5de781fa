import FreeswitchContrib.JsonC.ParseSafety

/-!
# What is printed is parsed back

`json_object_to_json_string` and `json_tokener_parse` undo each other.  The text of a value is read
level by level: a container, `At` an item, is read one item after another (`Itemwise`), and a value
is `Ready` when the next character completes it, which is a comma, a blank or the end of the text.

* `value_parses` — the text of a value inside any text: it is read, or refused as nested too deeply.
* `jsonTokenerParse_toJsonString` — the round trip of clean values with exact doubles.
* `jsonTokenerParse_normal` — a text that is parsed, printed and parsed again.
-/

namespace FreeswitchContrib.JsonC

open CString (nul isspace)

variable {δ : Type} {d : Doubles δ} {tok tok' : Tokener δ} {c : Char} {v : JsonObject δ}
  {below : List (Srec δ)} {xs ys : List Char} {n : ℕ}

/-! ## Looks and texts -/

lemma parseChar_next (h : look d tok c = .next tok') (n : ℕ) :
    parseChar d (n + 1) tok c = .more tok' := by
  rw [parseChar, h]

lemma parseChar_redo (h : look d tok c = .redo tok') (n : ℕ) :
    parseChar d (n + 1) tok c = parseChar d n tok' c := by
  rw [parseChar, h]

lemma parseChars_cons (h : parseChar d looksPerChar tok c = .more tok') (xs : List Char) :
    parseChars d tok (c :: xs) = parseChars d tok' xs := by
  rw [parseChars, h]

lemma parseChars_append (xs ys : List Char) (h : parseChars d tok xs = .more tok') :
    parseChars d tok (xs ++ ys) = parseChars d tok' ys := by
  induction xs generalizing tok with
  | nil =>
    cases h
    rfl
  | cons c xs ih =>
    rw [List.cons_append]
    rw [parseChars] at h ⊢
    cases ho : parseChar d looksPerChar tok c with
    | more tok₁ =>
      rw [ho] at h
      exact ih h
    | _ =>
      rw [ho] at h
      cases h

lemma parseChars_append_out {err : Option TokenerError} (xs ys : List Char)
    (h : parseChars d tok xs = .out tok' err) : parseChars d tok (xs ++ ys) = .out tok' err := by
  induction xs generalizing tok with
  | nil => cases h
  | cons c xs ih =>
    rw [List.cons_append]
    rw [parseChars] at h ⊢
    cases ho : parseChar d looksPerChar tok c with
    | more tok₁ =>
      rw [ho] at h
      exact ih h
    | _ =>
      rw [ho] at h
      exact h

/-- The text is read, to a token of this kind, or refused as nested too deeply. -/
def Parses (d : Doubles δ) (tok : Tokener δ) (str : List Char) (fits : Prop)
    (P : Tokener δ → Prop) : Prop :=
  (fits → ∃ tok', parseChars d tok str = .more tok' ∧ P tok') ∧
    (¬fits → ∃ tok', parseChars d tok str = .out tok' (some .depth))

/-! ## Strings -/

/-- The characters are appended to the buffer, and nothing else that counts is changed. -/
structure Reads (tok : Tokener δ) (s : List Char) (tok' : Tokener δ) : Prop where
  pb : tok'.pb = tok.pb ++ s
  state : tok'.top.state = tok.top.state
  current : tok'.top.current = tok.top.current
  objFieldName : tok'.top.objFieldName = tok.top.objFieldName
  quoteChar : tok'.quoteChar = tok.quoteChar
  below : tok'.below = tok.below

lemma Reads.trans {tok'' : Tokener δ} (h : Reads tok xs tok') (h' : Reads tok' ys tok'') :
    Reads tok (xs ++ ys) tok'' where
  pb := by rw [h'.pb, h.pb, List.append_assoc]
  state := h'.state.trans h.state
  current := h'.current.trans h.current
  objFieldName := h'.objFieldName.trans h.objFieldName
  quoteChar := h'.quoteChar.trans h.quoteChar
  below := h'.below.trans h.below

/-- Inside a string or the name of a member. -/
structure InString (tok : Tokener δ) : Prop where
  state : tok.top.state = .string ∨ tok.top.state = .objectField
  quoteChar : tok.quoteChar = '"'

lemma InString.of_reads (h : InString tok) (hreads : Reads tok xs tok') : InString tok' :=
  ⟨by rw [hreads.state]; exact h.state, hreads.quoteChar.trans h.quoteChar⟩

/-- A character that is no quote and no backslash. -/
lemma look_plain (h : InString tok) (hquote : c ≠ '"') (hbackslash : c ≠ '\\') :
    look d tok c = .next (tok.append [c]) := by
  rcases h.state with hs | hs <;>
    simp only [look, hs, h.quoteChar, if_neg hquote, if_neg hbackslash]

/-- Behind a backslash. -/
def Tokener.escaping (tok : Tokener δ) : Tokener δ :=
  { tok with top := { tok.top with savedState := tok.top.state, state := .stringEscape } }

lemma look_backslash (h : InString tok) : look d tok '\\' = .next tok.escaping := by
  have hne : ('\\' : Char) ≠ '"' := by decide
  rcases h.state with hs | hs <;>
    simp only [look, hs, h.quoteChar, if_neg hne, Tokener.escaping] <;> rfl

/-- A letter behind a backslash. -/
lemma parseChars_escape (h : InString tok) {letter : Char}
    (hlook : ∀ tok' : Tokener δ, lookStringEscape tok' letter =
      .next ((tok'.append [c]).goto tok'.top.savedState)) :
    ∃ tok', parseChars d tok ['\\', letter] = .more tok' ∧ Reads tok [c] tok' := by
  refine ⟨(tok.escaping.append [c]).goto tok.top.state, ?_, rfl, rfl, rfl, rfl, rfl, rfl⟩
  have hlook' : look d tok.escaping letter =
      .next ((tok.escaping.append [c]).goto tok.top.state) := hlook tok.escaping
  rw [parseChars_cons (parseChar_next (look_backslash h) _),
    parseChars_cons (parseChar_next hlook' _)]
  rfl

/-- The digit for a number below sixteen. -/
def hexChar (n : ℕ) : Char := jsonHexChars.getD n nul

lemma hexChar_spec (hn : n < 16) :
    (hexChar n ∈ jsonHexChars ∨ hexChar n = nul) ∧ hexdigit (hexChar n) = n := by
  interval_cases n <;> decide

/-- At a digit behind a backslash and `u`. -/
def Tokener.atHex (tok : Tokener δ) (ucsChar stPos : ℕ) : Tokener δ :=
  { tok.escaping.goto .escapeUnicode with ucsChar, stPos }

lemma look_hexChar {ucsChar stPos : ℕ} (hn : n < 16) (hpos : stPos < 3) :
    look d (tok.atHex ucsChar stPos) (hexChar n) =
      .next (tok.atHex ((ucsChar + n <<< ((3 - stPos) * 4)) % 2 ^ 32) (stPos + 1)) := by
  obtain ⟨hmem, hdigit⟩ := hexChar_spec hn
  change lookEscapeUnicode _ _ = _
  rw [lookEscapeUnicode, if_pos hmem, hdigit]
  exact if_neg (by simp only [Tokener.atHex]; omega)

/-- The last of the four. -/
lemma look_hexChar_last {ucsChar : ℕ} (hn : n < 16) :
    look d (tok.atHex ucsChar 3) (hexChar n) =
      .next (((tok.atHex ((ucsChar + n) % 2 ^ 32) 4).append
        (utfOut ((ucsChar + n) % 2 ^ 32))).goto tok.top.state) := by
  obtain ⟨hmem, hdigit⟩ := hexChar_spec hn
  change lookEscapeUnicode _ _ = _
  rw [lookEscapeUnicode, if_pos hmem, hdigit]
  rfl

/-- Four digits behind a backslash. -/
lemma parseChars_unicode (h : InString tok) (hc : c.toNat < 32) :
    ∃ tok', parseChars d tok ['\\', 'u', '0', '0', hexChar (c.toNat / 16), hexChar (c.toNat % 16)] =
      .more tok' ∧ Reads tok [c] tok' := by
  have hu : look d tok.escaping 'u' = .next (tok.atHex 0 0) := rfl
  have hzero : ('0' : Char) = hexChar 0 := rfl
  have hchar : utfOut ((((0 + (c.toNat / 16) <<< 4) % 2 ^ 32) + c.toNat % 16) % 2 ^ 32) = [c] := by
    rw [← Char.ofNat_toNat c]
    generalize c.toNat = n at hc
    interval_cases n <;> rfl
  let ucsChar := (((0 + (c.toNat / 16) <<< 4) % 2 ^ 32) + c.toNat % 16) % 2 ^ 32
  refine ⟨((tok.atHex ucsChar 4).append (utfOut ucsChar)).goto tok.top.state, ?_,
    congrArg (tok.pb ++ ·) hchar, rfl, rfl, rfl, rfl, rfl⟩
  rw [parseChars_cons (parseChar_next (look_backslash h) _),
    parseChars_cons (parseChar_next hu _), hzero,
    parseChars_cons (parseChar_next (look_hexChar (by decide) (by decide)) _),
    parseChars_cons (parseChar_next (look_hexChar (by decide) (by decide)) _),
    parseChars_cons (parseChar_next (look_hexChar (by omega) (by decide)) _),
    parseChars_cons (parseChar_next (look_hexChar_last (by omega)) _)]
  rfl

/-- **A character of a string** is read back. -/
theorem parseChars_escapeChar (h : InString tok) (c : Char) :
    ∃ tok', parseChars d tok (escapeChar c) = .more tok' ∧ Reads tok [c] tok' := by
  rw [escapeChar]
  split_ifs with h₁ h₂ h₃ h₄ h₅ h₆ h₇ h₈
  any_goals
    subst c
    exact parseChars_escape h fun _ => rfl
  · exact parseChars_unicode h h₈
  · exact ⟨_, parseChars_cons (parseChar_next (look_plain h h₅ h₆) _) [],
      rfl, rfl, rfl, rfl, rfl, rfl⟩

theorem parseChars_jsonEscapeStr (s : List Char) (h : InString tok) :
    ∃ tok', parseChars d tok (jsonEscapeStr s) = .more tok' ∧ Reads tok s tok' := by
  induction s generalizing tok with
  | nil => exact ⟨tok, rfl, (List.append_nil _).symm, rfl, rfl, rfl, rfl, rfl⟩
  | cons c s ih =>
    obtain ⟨tok₁, hchar, hreads⟩ := parseChars_escapeChar (d := d) h c
    obtain ⟨tok₂, hrest, hreads'⟩ := ih (h.of_reads hreads)
    refine ⟨tok₂, ?_, hreads.trans hreads'⟩
    rw [jsonEscapeStr, List.flatMap_cons, parseChars_append _ _ hchar]
    exact hrest

lemma cString_eq {s : List Char} (h : nul ∉ s) : cString s = s :=
  List.takeWhile_eq_self_iff.mpr fun _ hc => decide_eq_true fun heq => h (heq ▸ hc)

/-! ## Values without values in them -/

/-- A level that waits for something, with this value so far. -/
structure Waits (tok : Tokener δ) (s : TokenerState) (v : JsonObject δ) (below : List (Srec δ)) :
    Prop where
  state : tok.top.state = .eatws
  savedState : tok.top.savedState = s
  current : tok.top.current = v
  below : tok.below = below

/-- What stands behind a value. -/
def Delim (c : Char) : Prop := c = ',' ∨ c = ' ' ∨ c = nul

/-- A value is complete, or the next character says that it is. -/
def Ready (d : Doubles δ) (tok : Tokener δ) (v : JsonObject δ) (below : List (Srec δ)) : Prop :=
  Waits tok .finish v below ∨
    ∀ c, Delim c → ∃ tok', look d tok c = .redo tok' ∧ Waits tok' .finish v below

/-- The text of a value is read where a value begins. -/
def Scans (d : Doubles δ) (str : List Char) (v : JsonObject δ) : Prop :=
  ∀ tok : Tokener δ, tok.top = .reset →
    ∃ tok', parseChars d tok str = .more tok' ∧ Ready d tok' v tok.below

lemma waits_complete (tok : Tokener δ) (v : JsonObject δ) :
    Waits (tok.complete v) .finish v tok.below :=
  ⟨rfl, rfl, rfl, rfl⟩

lemma scans_null : Scans d ['n', 'u', 'l', 'l'] .null := by
  rintro ⟨pb, isDouble, stPos, ucsChar, quoteChar, obj, top, below⟩ rfl
  exact ⟨_, rfl, .inr fun c _ => ⟨_, rfl, waits_complete _ _⟩⟩

lemma scans_true : Scans d ['t', 'r', 'u', 'e'] (.boolean true) := by
  rintro ⟨pb, isDouble, stPos, ucsChar, quoteChar, obj, top, below⟩ rfl
  exact ⟨_, rfl, .inr fun c _ => ⟨_, rfl, waits_complete _ _⟩⟩

lemma scans_false : Scans d ['f', 'a', 'l', 's', 'e'] (.boolean false) := by
  rintro ⟨pb, isDouble, stPos, ucsChar, quoteChar, obj, top, below⟩ rfl
  exact ⟨_, rfl, .inr fun c _ => ⟨_, rfl, waits_complete _ _⟩⟩

lemma scans_string {s : List Char} (hnul : nul ∉ s) :
    Scans d ('"' :: (jsonEscapeStr s ++ ['"'])) (.string s) := by
  rintro ⟨pb, isDouble, stPos, ucsChar, quoteChar, obj, top, below⟩ htop
  obtain rfl : top = Srec.reset := htop
  let tok₁ : Tokener δ :=
    ⟨[], isDouble, stPos, ucsChar, '"', obj, ⟨.string, .start, .null, none⟩, below⟩
  have hquote : parseChar d looksPerChar
      ⟨pb, isDouble, stPos, ucsChar, quoteChar, obj, .reset, below⟩ '"' = .more tok₁ := rfl
  obtain ⟨tok₂, hparse, hreads⟩ := parseChars_jsonEscapeStr (d := d) s
    (show InString tok₁ from ⟨.inl rfl, rfl⟩)
  have hlast : look d tok₂ '"' = .next (tok₂.complete (.string s)) := by
    have hpb : tok₂.pb = s := hreads.pb
    simp only [look, hreads.state, hreads.quoteChar, tok₁, if_true, hpb, cString_eq hnul]
  refine ⟨tok₂.complete (.string s), ?_, .inl ⟨rfl, rfl, rfl, hreads.below⟩⟩
  rw [parseChars_cons hquote, parseChars_append _ _ hparse,
    parseChars_cons (parseChar_next hlast _)]
  rfl

/-! ### Numbers -/

/-- In a number. -/
structure InNumber (tok : Tokener δ) (text : List Char) (below : List (Srec δ)) : Prop where
  state : tok.top.state = .number
  pb : tok.pb = text
  isDouble : tok.isDouble = text.any fun c => c == '.' || c == 'e'
  below : tok.below = below

lemma parseChars_number (ys : List Char) (h : InNumber tok xs below)
    (hys : ∀ c ∈ ys, c ∈ jsonNumberChars) :
    ∃ tok', parseChars d tok ys = .more tok' ∧ InNumber tok' (xs ++ ys) below := by
  induction ys generalizing tok xs with
  | nil => exact ⟨tok, rfl, by rwa [List.append_nil]⟩
  | cons c ys ih =>
    have hc := hys c (List.mem_cons_self ..)
    have hlook : look d tok c = .next
        { tok.append [c] with isDouble := tok.isDouble || (c == '.' || c == 'e') } := by
      simp only [look, h.state]
      rw [lookNumber, if_pos hc]
    have hnext : InNumber
        { tok.append [c] with isDouble := tok.isDouble || (c == '.' || c == 'e') } (xs ++ [c])
        below :=
      ⟨h.state, by rw [← h.pb]; rfl, by simp [h.isDouble], h.below⟩
    obtain ⟨tok', hparse, hnumber⟩ := ih hnext fun c' hc' => hys c' (List.mem_cons_of_mem c hc')
    refine ⟨tok', ?_, by rwa [List.append_assoc] at hnumber⟩
    rw [parseChars_cons (parseChar_next hlook _)]
    exact hparse

lemma ne_of_isDigit {c' : Char} (hc : c.isDigit = true) (hc' : c'.isDigit = false) : c ≠ c' := by
  rintro rfl
  rw [hc] at hc'
  cases hc'

/-- The first character of a number. -/
lemma parseChars_number_first (htop : tok.top = .reset) (hc : c.isDigit = true ∨ c = '-') :
    ∃ tok', parseChar d looksPerChar tok c = .more tok' ∧ InNumber tok' [c] tok.below := by
  obtain ⟨pb, isDouble, stPos, ucsChar, quoteChar, obj, top, below⟩ := tok
  obtain rfl : top = Srec.reset := htop
  refine ⟨⟨[c], false, stPos, ucsChar, quoteChar, obj, ⟨.number, .start, .null, none⟩, below⟩, ?_,
    rfl, rfl, ?_, rfl⟩
  all_goals
    rcases hc with hc | rfl
    · obtain ⟨hlow, hhigh⟩ := Char.isDigit_iff_toNat.1 hc
      rw [← Char.ofNat_toNat c]
      generalize c.toNat = n at hlow hhigh
      change 48 ≤ n at hlow
      change n ≤ 57 at hhigh
      interval_cases n <;> rfl
    · rfl

lemma scans_number {text rest : List Char} (htext : text = c :: rest)
    (hc : c.isDigit = true ∨ c = '-') (hchars : ∀ c ∈ text, c ∈ jsonNumberChars)
    (hvalue : ∀ tok : Tokener δ, ∀ c, c ∉ jsonNumberChars → InNumber tok text tok.below →
      lookNumber d tok c = .redo (tok.complete v)) :
    Scans d text v := by
  intro tok htop
  obtain ⟨tok₁, hfirst, hnumber⟩ := parseChars_number_first (d := d) htop hc
  obtain ⟨tok₂, hrest, hnumber'⟩ := parseChars_number (d := d) rest hnumber
    fun c' hc' => hchars c' (by rw [htext]; exact List.mem_cons_of_mem c hc')
  have htext' : [c] ++ rest = text := htext.symm
  rw [htext'] at hnumber'
  refine ⟨tok₂, ?_, .inr fun c' hdelim => ⟨tok₂.complete v, ?_, ?_⟩⟩
  · rw [htext, parseChars_cons hfirst]
    exact hrest
  · simp only [look, hnumber'.state]
    refine hvalue tok₂ c' ?_ ⟨hnumber'.state, hnumber'.pb, hnumber'.isDouble, rfl⟩
    rcases hdelim with rfl | rfl | rfl <;> decide
  · exact hnumber'.below ▸ waits_complete tok₂ v

lemma sscanfInt_ofInt (i : Int32) : sscanfInt (Numeral.ofInt i.toInt) = some i := by
  rw [sscanfInt, if_neg (CString.numberEnd_ofInt _), CString.strtol_ofInt, Int32.ofInt_toInt]
  · exact Int.le_trans (by decide) i.le_toInt
  · exact Int.lt_of_lt_of_le i.toInt_lt (by decide)

lemma scans_int (i : Int32) : Scans d (Numeral.ofInt i.toInt) (.int i) := by
  have hmem (c : Char) (hc : c ∈ Numeral.ofInt i.toInt) : c.isDigit = true ∨ c = '-' :=
    Numeral.isDigit_or_of_mem_ofInt hc
  have hchars (c : Char) (hc : c ∈ Numeral.ofInt i.toInt) : c ∈ jsonNumberChars :=
    mem_jsonNumberChars (hmem c hc)
  cases htext : Numeral.ofInt i.toInt with
  | nil => exact absurd htext (CString.ofInt_ne_nil _)
  | cons c rest =>
    rw [← htext]
    refine scans_number htext (hmem c (by rw [htext]; exact List.mem_cons_self ..)) hchars
      fun tok c' hc' hnumber => ?_
    have hdouble : tok.isDouble = false := by
      rw [hnumber.isDouble, List.any_eq_false]
      intro c hc
      rcases hmem c hc with hdigit | rfl
      · simp only [Bool.or_eq_true, beq_iff_eq, not_or]
        exact ⟨ne_of_isDigit hdigit (by decide), ne_of_isDigit hdigit (by decide)⟩
      · decide
    have hnul : nul ∉ tok.pb := fun hmem' => by
      rw [hnumber.pb] at hmem'
      exact absurd (hchars nul hmem') (by decide)
    rw [lookNumber, if_neg hc', hdouble, if_neg Bool.false_ne_true, cString_eq hnul, hnumber.pb,
      sscanfInt_ofInt]

lemma scans_double {x : δ} (h : Exact d x) : Scans d (d.print x) (.double x) := by
  obtain ⟨c, rest, htext, hc⟩ := h.head
  refine scans_number htext hc h.chars fun tok c' hc' hnumber => ?_
  have hdouble : tok.isDouble = true := by
    rw [hnumber.isDouble, List.any_eq_true]
    rcases h.isDouble with hmem | hmem
    · exact ⟨'.', hmem, rfl⟩
    · exact ⟨'e', hmem, rfl⟩
  have hnul : nul ∉ tok.pb := fun hmem' => by
    rw [hnumber.pb] at hmem'
    exact absurd (h.chars nul hmem') (by decide)
  rw [lookNumber, if_neg hc', if_pos hdouble, cString_eq hnul, hnumber.pb, h.scan]

/-! ## Levels -/

/-- A character that is not passed where something is waited for. -/
def Solid (c : Char) : Prop := isspace c = false ∧ c ≠ '/'

lemma look_space (hs : tok.top.state = .eatws) : look d tok ' ' = .next tok := by
  simp only [look, hs]
  rfl

lemma look_solid (hs : tok.top.state = .eatws) (hc : Solid c) :
    look d tok c = .redo (tok.goto tok.top.savedState) := by
  simp only [look, hs, hc.1, Bool.false_eq_true, if_false, if_neg hc.2]

/-- What was waited for is there, and something else is waited for. -/
lemma Waits.await {s s' : TokenerState} (h : Waits tok s v below) (hc : Solid c)
    (hlook : ∀ tok : Tokener δ, tok.top.state = s → look d tok c = .next (tok.await s')) :
    ∃ tok', (∀ n, parseChar d (n + 2) tok c = .more tok') ∧ Waits tok' s' v below := by
  refine ⟨(tok.goto tok.top.savedState).await s', fun n => ?_, rfl, rfl, h.current, h.below⟩
  rw [parseChar_redo (look_solid h.state hc), parseChar_next (hlook _ h.savedState)]

lemma ready_space {w : JsonObject δ} (h : Ready d tok w below) :
    ∃ tok', parseChar d looksPerChar tok ' ' = .more tok' ∧ Waits tok' .finish w below := by
  rcases h with h | h
  · exact ⟨tok, parseChar_next (look_space h.state) _, h⟩
  · obtain ⟨tok', hlook, hdone⟩ := h ' ' (.inr (.inl rfl))
    refine ⟨tok', ?_, hdone⟩
    rw [looksPerChar, parseChar_redo hlook, parseChar_next (look_space hdone.state)]

/-- A value that is complete goes to the level below. -/
lemma waits_pop {level : Srec δ} (h : Waits tok .finish v (level :: below)) (hc : Solid c) :
    ∃ tok', (∀ n, parseChar d (n + 2) tok c = parseChar d n tok' c) ∧ tok'.top = level ∧
      tok'.below = below ∧ tok'.obj = v := by
  let tok₁ := tok.goto tok.top.savedState
  have hfinish : look d tok₁ c = .redo { tok₁ with obj := v, top := level, below } := by
    have hstate : tok₁.top.state = .finish := h.savedState
    have hbelow : tok₁.below = level :: below := h.below
    have hcurrent : tok₁.top.current = v := h.current
    simp only [look, hstate, lookFinish, hbelow, hcurrent]
  refine ⟨{ tok₁ with obj := v, top := level, below }, fun n => ?_, rfl, rfl, rfl⟩
  rw [parseChar_redo (look_solid h.state hc), parseChar_redo hfinish]

lemma parseChar_mono (m : ℕ) (h : parseChar d n tok c ≠ .stuck) :
    parseChar d (n + m) tok c = parseChar d n tok c := by
  induction n generalizing tok with
  | zero => exact absurd rfl h
  | succ n ih =>
    rw [Nat.succ_add, parseChar, parseChar]
    rw [parseChar] at h
    cases hl : look d tok c with
    | redo tok' =>
      rw [hl] at h
      exact ih h
    | _ => rfl

/-- The level of a value in a container. -/
def Tokener.child (tok : Tokener δ) (state : TokenerState) : Tokener δ :=
  { tok with top := .reset, below := { tok.top with state } :: tok.below }

/-- A value begins in a container, or is nested too deeply. -/
lemma parseChars_push {state : TokenerState} (hgood : Good tok) (hs : tok.top.state = .eatws)
    (hc : Solid c)
    (hpush : look d (tok.goto tok.top.savedState) c = push (tok.goto tok.top.savedState) state)
    (rest : List Char) :
    (tok.depth + 1 < jsonTokenerMaxDepth → Good (tok.child state) ∧
      parseChars d tok (c :: rest) = parseChars d (tok.child state) (c :: rest)) ∧
    (¬tok.depth + 1 < jsonTokenerMaxDepth →
      ∃ tok', parseChars d tok (c :: rest) = .out tok' (some .depth)) := by
  have hsolid := look_solid (d := d) hs hc
  have hgood₁ := look_good d hgood c
  rw [hsolid] at hgood₁
  have hgood₂ := look_good d hgood₁.1 c
  rw [hpush, push] at hgood₂
  rw [push] at hpush
  have hdepth : (tok.goto tok.top.savedState).depth = tok.depth := rfl
  constructor
  · intro hlt
    have hnot : ¬jsonTokenerMaxDepth - 1 ≤ (tok.goto tok.top.savedState).depth := by omega
    rw [if_neg hnot] at hpush hgood₂
    have hchild : Good (tok.child state) := hgood₂.1
    have hlooks : looks (tok.child state) c = 3 := rfl
    have hstuck : parseChar d 3 (tok.child state) c ≠ .stuck := fun heq => by
      have houtcome := parseChar_of_looks d c 3 hchild hlooks.le (by decide)
      rw [heq] at houtcome
      exact houtcome
    have hchar : parseChar d looksPerChar tok c = parseChar d looksPerChar (tok.child state) c := by
      rw [looksPerChar, parseChar_redo hsolid, parseChar_redo hpush]
      exact (parseChar_mono 1 hstuck).trans (parseChar_mono 3 hstuck).symm
    exact ⟨hchild, by rw [parseChars, parseChars, hchar]⟩
  · intro hlt
    have hle : jsonTokenerMaxDepth - 1 ≤ (tok.goto tok.top.savedState).depth := by
      rw [hdepth]
      have hmax : jsonTokenerMaxDepth = 32 := rfl
      omega
    rw [if_pos hle] at hpush
    refine ⟨tok.goto tok.top.savedState, ?_⟩
    rw [parseChars, looksPerChar, parseChar_redo hsolid, parseChar, hpush]

/-- The text of a value is read wherever a value begins. -/
def Reading (d : Doubles δ) (v : JsonObject δ) : Prop :=
  ∀ tok : Tokener δ, Good tok → tok.top = .reset →
    Parses d tok (jsonObjectToJsonString d v) (nesting v + tok.depth < jsonTokenerMaxDepth)
      fun tok' => Ready d tok' v tok.below

/-- What the text of a value begins with. -/
lemma text_head (h : ExactIn d v) : ∃ c rest, jsonObjectToJsonString d v = c :: rest ∧ Solid c ∧
    c ≠ ']' := by
  have hnumber {c : Char} (hc : c.isDigit = true ∨ c = '-') : Solid c ∧ c ≠ ']' := by
    rcases hc with hc | rfl
    · exact ⟨⟨CString.isspace_of_isDigit hc, ne_of_isDigit hc (by decide)⟩,
        ne_of_isDigit hc (by decide)⟩
    · exact ⟨⟨rfl, by decide⟩, by decide⟩
  cases h with
  | null => exact ⟨'n', _, rfl, ⟨rfl, by decide⟩, by decide⟩
  | boolean b =>
    cases b with
    | true => exact ⟨'t', _, rfl, ⟨rfl, by decide⟩, by decide⟩
    | false => exact ⟨'f', _, rfl, ⟨rfl, by decide⟩, by decide⟩
  | double hexact =>
    obtain ⟨c, rest, htext, hc⟩ := hexact.head
    exact ⟨c, rest, htext, hnumber hc⟩
  | int i =>
    cases htext : Numeral.ofInt i.toInt with
    | nil => exact absurd htext (CString.ofInt_ne_nil _)
    | cons c rest =>
      exact ⟨c, rest, htext, hnumber (Numeral.isDigit_or_of_mem_ofInt
        (htext ▸ List.mem_cons_self : c ∈ Numeral.ofInt i.toInt))⟩
  | object _ => exact ⟨'\x7b', _, rfl, ⟨rfl, by decide⟩, by decide⟩
  | array _ => exact ⟨'[', _, rfl, ⟨rfl, by decide⟩, by decide⟩
  | string s => exact ⟨'"', _, rfl, ⟨rfl, by decide⟩, by decide⟩

/-! ## Containers -/

/-- The containers, which are read alike. -/
inductive Container where
  | array
  | object

namespace Container

/-- What is waited for before the first item and behind a comma. -/
def first : Container → TokenerState
  | array => .array
  | object => .objectFieldStart

/-- What is waited for behind an item. -/
def sep : Container → TokenerState
  | array => .arraySep
  | object => .objectSep

def opening : Container → Char
  | array => '['
  | object => '\x7b'

def closing : Container → Char
  | array => ']'
  | object => '\x7d'

end Container

variable {k : Container} {i : Bool}

lemma solid_closing (k : Container) : Solid k.closing := by
  cases k <;> exact ⟨rfl, by decide⟩

lemma look_comma (hs : tok.top.state = k.sep) : look d tok ',' = .next (tok.await k.first) := by
  cases k <;> simp only [Container.sep] at hs <;> simp only [look, hs] <;> rfl

lemma look_closing (hs : tok.top.state = k.sep ∨ tok.top.state = k.first) :
    look d tok k.closing = .next (tok.await .finish) := by
  cases k <;> simp only [Container.sep, Container.first] at hs <;> rcases hs with hs | hs <;>
    simp only [look, hs] <;> rfl

/-- In a container that is `v` so far: before the first item, or behind the last one, which is added
to the level below. -/
inductive At (d : Doubles δ) (k : Container) (below : List (Srec δ)) :
    Tokener δ → Bool → JsonObject δ → Prop where
  | begun {tok : Tokener δ} {v : JsonObject δ} (waits : Waits tok k.first v below) :
    At d k below tok false v
  | behind {tok : Tokener δ} {level : Srec δ} {v w : JsonObject δ}
    (ready : Ready d tok w (level :: below))
    (adds : ∀ tok₁ : Tokener δ, tok₁.top = level → tok₁.obj = w → ∀ c, ∃ tok₂,
      look d tok₁ c = .redo tok₂ ∧ Waits tok₂ k.sep v tok₁.below) :
    At d k below tok true v

/-- What is before an item. -/
lemma At.item (h : At d k below tok i v) :
    ∃ tok', parseChars d tok ((if i then [','] else []) ++ [' ']) = .more tok' ∧
      Waits tok' k.first v below := by
  have hcomma : Solid ',' := ⟨rfl, by decide⟩
  cases h with
  | begun waits => exact ⟨tok, parseChars_cons (parseChar_next (look_space waits.state) _) [], waits⟩
  | behind ready adds =>
    obtain ⟨tok₁, m, hm, hlook, hdone⟩ : ∃ tok₁ m, m ≤ 1 ∧
        (∀ n, parseChar d (n + m) tok ',' = parseChar d n tok₁ ',') ∧ Waits tok₁ .finish _ _ := by
      rcases ready with hdone | hredo
      · exact ⟨tok, 0, by decide, fun _ => rfl, hdone⟩
      · obtain ⟨tok₁, hlook, hdone⟩ := hredo ',' (.inl rfl)
        exact ⟨tok₁, 1, le_rfl, parseChar_redo hlook, hdone⟩
    obtain ⟨tok₂, hpop, htop, hbelow, hobj⟩ := waits_pop (d := d) hdone hcomma
    obtain ⟨tok₃, hadd, hsep⟩ := adds tok₂ htop hobj ','
    obtain ⟨tok₄, hawait, hfirst⟩ := hsep.await hcomma fun _ => look_comma (d := d)
    have hchar : parseChar d looksPerChar tok ',' = .more tok₄ := by
      obtain ⟨n, hn⟩ : ∃ n, looksPerChar = n + 2 + 1 + 2 + m := ⟨1 - m, by rw [looksPerChar]; omega⟩
      rw [hn, hlook, hpop, parseChar_redo hadd, hawait]
    refine ⟨tok₄, ?_, hbelow ▸ hfirst⟩
    rw [if_pos rfl, List.cons_append, parseChars_cons hchar, List.nil_append,
      parseChars_cons (parseChar_next (look_space hfirst.state) _)]
    rfl

/-- The end of a container. -/
lemma At.closing (h : At d k below tok i v) :
    ∃ tok', parseChars d tok [' ', k.closing] = .more tok' ∧ Waits tok' .finish v below := by
  have hsolid := solid_closing k
  cases h with
  | begun waits =>
    obtain ⟨tok', hclose, hdone⟩ := waits.await hsolid fun _ hs => look_closing (d := d) (.inr hs)
    refine ⟨tok', ?_, hdone⟩
    rw [parseChars_cons (parseChar_next (look_space waits.state) _), parseChars_cons (hclose 4)]
    rfl
  | behind ready adds =>
    obtain ⟨tok₁, hspace, hdone⟩ := ready_space ready
    obtain ⟨tok₂, hpop, htop, hbelow, hobj⟩ := waits_pop (d := d) hdone hsolid
    obtain ⟨tok₃, hadd, hsep⟩ := adds tok₂ htop hobj k.closing
    obtain ⟨tok₄, hclose, hfinish⟩ := hsep.await hsolid fun _ hs => look_closing (d := d) (.inl hs)
    refine ⟨tok₄, ?_, hbelow ▸ hfinish⟩
    have hchar : parseChar d looksPerChar tok₁ k.closing = .more tok₄ :=
      (hpop 4).trans ((parseChar_redo hadd 3).trans (hclose 1))
    rw [parseChars_cons hspace, parseChars_cons hchar]
    rfl

lemma good_of_parseChars {str : List Char} (h : Good tok)
    (hparse : parseChars d tok str = .more tok') : Good tok' := by
  have hgood := parseChars_good d str h
  rw [hparse] at hgood
  exact hgood

/-- A value in a container. -/
lemma parses_child (state : TokenerState) (hreading : Reading d v) (hexact : ExactIn d v)
    (hgood : Good tok) (hs : tok.top.state = .eatws)
    (hpush : ∀ c, c ≠ ']' →
      look d (tok.goto tok.top.savedState) c = push (tok.goto tok.top.savedState) state) :
    Parses d tok (jsonObjectToJsonString d v) (nesting v + 1 + tok.depth < jsonTokenerMaxDepth)
      fun tok' => Ready d tok' v ({ tok.top with state } :: tok.below) := by
  obtain ⟨c, rest, htext, hsolid, hne⟩ := text_head hexact
  obtain ⟨hdeep, hnot⟩ := parseChars_push hgood hs hsolid (hpush c hne) rest
  rw [htext]
  by_cases hlt : tok.depth + 1 < jsonTokenerMaxDepth
  · obtain ⟨hchild, hparse⟩ := hdeep hlt
    have hvalue := hreading (tok.child state) hchild rfl
    rw [htext] at hvalue
    rw [Parses, hparse]
    have hiff : nesting v + 1 + tok.depth < jsonTokenerMaxDepth ↔
        nesting v + (tok.child state).depth < jsonTokenerMaxDepth := by
      change _ ↔ nesting v + (tok.depth + 1) < jsonTokenerMaxDepth
      omega
    rw [hiff]
    exact hvalue
  · exact ⟨fun hfits => absurd hfits (by omega), fun _ => hnot hlt⟩

/-! ### Items -/

/-- The texts of the items; `i` says that there has been one. -/
def itemTexts {ι : Type} (text : ι → List Char) (i : Bool) : List ι → List Char
  | [] => []
  | x :: xs => (if i then [','] else []) ++ [' '] ++ text x ++ itemTexts text true xs

/-- How many levels the items take. -/
def itemNesting {ι : Type} (deep : ι → ℕ) : List ι → ℕ
  | [] => 0
  | x :: xs => max (deep x) (itemNesting deep xs)

/-- A container of items, which are read one by one. -/
structure Itemwise {ι : Type} (d : Doubles δ) (k : Container) (build : List ι → JsonObject δ)
    (text : ι → List Char) (deep : ι → ℕ) (Valid : List ι → Prop) : Prop where
  opening : ∀ tok : Tokener δ, tok.top.state = .start →
    look d tok k.opening = .next ((tok.setCurrent (build [])).await k.first)
  texts : ∀ xs, jsonObjectToJsonString d (build xs) =
    k.opening :: (itemTexts text false xs ++ [' ', k.closing])
  nesting : ∀ xs, nesting (build xs) = itemNesting deep xs
  initial : ∀ xs ys, Valid (xs ++ ys) → Valid xs
  step : ∀ {below : List (Srec δ)} {tok : Tokener δ} {xs : List ι} {x : ι}, Valid (xs ++ [x]) →
    Good tok → Waits tok k.first (build xs) below →
    Parses d tok (text x) (deep x + below.length < jsonTokenerMaxDepth)
      fun tok' => At d k below tok' true (build (xs ++ [x]))

section Items

variable {ι : Type} {build : List ι → JsonObject δ} {text : ι → List Char} {deep : ι → ℕ}
  {Valid : List ι → Prop}

/-- All items that are left. -/
lemma Itemwise.parses (h : Itemwise d k build text deep Valid)
    (hdepth : below.length < jsonTokenerMaxDepth) (ys : List ι) {xs : List ι}
    (hvalid : Valid (xs ++ ys)) (hgood : Good tok) (hat : At d k below tok i (build xs)) :
    Parses d tok (itemTexts text i ys) (itemNesting deep ys + below.length < jsonTokenerMaxDepth)
      fun tok' => ∃ j, At d k below tok' j (build (xs ++ ys)) := by
  induction ys generalizing tok i xs with
  | nil =>
    refine ⟨fun _ => ⟨tok, rfl, i, by rwa [List.append_nil]⟩, fun hnot => absurd hdepth ?_⟩
    rwa [itemNesting, Nat.zero_add] at hnot
  | cons y ys ih =>
    rw [List.append_cons] at hvalid ⊢
    obtain ⟨tok₁, hsep, hwaits⟩ := hat.item
    obtain ⟨hfits, hdeep⟩ := h.step (h.initial _ _ hvalid) (good_of_parseChars hgood hsep) hwaits
    rw [itemTexts, itemNesting, List.append_assoc, Parses, parseChars_append _ _ hsep]
    by_cases hy : deep y + below.length < jsonTokenerMaxDepth
    · obtain ⟨tok₂, hparse, hat₂⟩ := hfits hy
      have hrest := ih hvalid (good_of_parseChars (good_of_parseChars hgood hsep) hparse) hat₂
      have hiff : max (deep y) (itemNesting deep ys) + below.length < jsonTokenerMaxDepth ↔
          itemNesting deep ys + below.length < jsonTokenerMaxDepth := by omega
      rw [parseChars_append _ _ hparse, hiff]
      exact hrest
    · obtain ⟨tok₂, hparse⟩ := hdeep hy
      exact ⟨fun hlt => absurd hlt (by omega),
        fun _ => ⟨tok₂, parseChars_append_out _ _ hparse⟩⟩

/-- The text of a container. -/
lemma Itemwise.reading (h : Itemwise d k build text deep Valid) {xs : List ι} (hvalid : Valid xs) :
    Reading d (build xs) := by
  intro tok hgood htop
  have hs : tok.top.state = .eatws := by rw [htop]; rfl
  have hsaved : tok.top.savedState = .start := by rw [htop]; rfl
  let tok₁ := ((tok.goto tok.top.savedState).setCurrent (build [])).await k.first
  have hopen : parseChar d looksPerChar tok k.opening = .more tok₁ := by
    have hsolid : Solid k.opening := by cases k <;> exact ⟨rfl, by decide⟩
    rw [looksPerChar, parseChar_redo (look_solid hs hsolid), parseChar_next (h.opening _ hsaved)]
  have hgood₁ : Good tok₁ := good_of_parseChars hgood (parseChars_cons hopen [])
  obtain ⟨hfits, hdeep⟩ := h.parses hgood.depth_lt xs (show Valid ([] ++ xs) from hvalid) hgood₁
    (show At d k tok.below tok₁ false (build []) from .begun ⟨rfl, rfl, rfl, rfl⟩)
  rw [← h.nesting] at hfits hdeep
  rw [h.texts, Parses, parseChars_cons hopen]
  constructor
  · intro hlt
    obtain ⟨tok₂, hparse, j, hat⟩ := hfits hlt
    obtain ⟨tok₃, hend, hdone⟩ := hat.closing
    exact ⟨tok₃, by rw [parseChars_append _ _ hparse, hend], .inl hdone⟩
  · intro hnot
    obtain ⟨tok₂, hparse⟩ := hdeep hnot
    exact ⟨tok₂, parseChars_append_out _ _ hparse⟩

end Items

/-! ### Arrays and objects -/

lemma elementTexts_eq (i : Bool) (vs : List (JsonObject δ)) :
    elementTexts d i vs = itemTexts (jsonObjectToJsonString d) i vs := by
  induction vs generalizing i with
  | nil => rfl
  | cons v vs ih =>
    rw [elementTexts, itemTexts, ih]
    cases i <;> rfl

lemma elementNesting_eq (vs : List (JsonObject δ)) :
    elementNesting vs = itemNesting (nesting · + 1) vs := by
  induction vs with
  | nil => rfl
  | cons v vs ih => rw [elementNesting, itemNesting, ih]

lemma itemwise_array : Itemwise d .array JsonObject.array (jsonObjectToJsonString d)
    (nesting · + 1) fun vs => ∀ v ∈ vs, Reading d v ∧ ExactIn d v where
  opening tok hs := by
    simp only [look, hs]
    rfl
  texts vs := by rw [jsonObjectToJsonString, elementTexts_eq]; rfl
  nesting vs := by rw [JsonC.nesting, elementNesting_eq]
  initial xs ys h v hv := h v (List.mem_append_left ys hv)
  step := fun {below tok xs v} hvalid hgood hwaits => by
    obtain ⟨hreading, hexact⟩ := hvalid v (List.mem_append_right _ List.mem_cons_self)
    have hchild := parses_child .arrayAdd hreading hexact hgood hwaits.state fun c hc => by
      rw [hwaits.savedState]
      simp only [look, Tokener.goto, Container.first, if_neg hc]
    rw [← hwaits.below]
    refine ⟨fun hfits => ?_, hchild.2⟩
    obtain ⟨tok', hparse, hready⟩ := hchild.1 hfits
    refine ⟨tok', hparse, .behind hready fun tok₁ htop hobj c => ?_⟩
    refine ⟨(tok₁.setCurrent (.array (xs ++ [v]))).await .arraySep, ?_, rfl, rfl, rfl, rfl⟩
    have hs : tok₁.top.state = .arrayAdd := by rw [htop]
    have hcurrent : tok₁.top.current = .array xs := by rw [htop]; exact hwaits.current
    simp only [look, hs, lookArrayAdd, hcurrent, hobj]

def memberText (d : Doubles δ) (m : List Char × JsonObject δ) : List Char :=
  '"' :: (jsonEscapeStr m.1 ++ ['"', ':', ' ']) ++ jsonObjectToJsonString d m.2

lemma memberTexts_eq (i : Bool) (ms : List (List Char × JsonObject δ)) :
    memberTexts d i ms = itemTexts (memberText d) i ms := by
  induction ms generalizing i with
  | nil => rfl
  | cons m ms ih =>
    obtain ⟨key, v⟩ := m
    rw [memberTexts, itemTexts, ih, memberText]
    simp [List.append_assoc]

lemma memberNesting_eq (ms : List (List Char × JsonObject δ)) :
    memberNesting ms = itemNesting (nesting ·.2 + 1) ms := by
  induction ms with
  | nil => rfl
  | cons m ms ih => rw [memberNesting, itemNesting, ih]

lemma addMember_of_fresh {members : List (List Char × JsonObject δ)} {key : List Char}
    (h : key ∉ members.map Prod.fst) (v : JsonObject δ) :
    addMember members key v = members ++ [(key, v)] := by
  have hfilter : members.filter (fun m => m.1 ≠ key) = members :=
    List.filter_eq_self.mpr fun m hm =>
      decide_eq_true fun heq => h (List.mem_map.mpr ⟨m, hm, heq⟩)
  rw [addMember, hfilter]

/-- The name of a member. -/
lemma parseChars_name {members : List (List Char × JsonObject δ)} {key : List Char}
    (hs : tok.top.state = .eatws) (hsaved : tok.top.savedState = .objectFieldStart)
    (hcurrent : tok.top.current = .object members) (hkey : nul ∉ key) :
    ∃ tok', parseChars d tok ('"' :: (jsonEscapeStr key ++ ['"', ':', ' '])) = .more tok' ∧
      tok'.top.state = .eatws ∧ tok'.top.savedState = .objectValue ∧
      tok'.top.current = .object members ∧ tok'.top.objFieldName = some key ∧
      tok'.below = tok.below := by
  let tok₁ : Tokener δ :=
    { (tok.goto tok.top.savedState).goto .objectField with quoteChar := '"', pb := [] }
  have hquote : parseChar d looksPerChar tok '"' = .more tok₁ := by
    have hlook : look d (tok.goto tok.top.savedState) '"' = .next tok₁ := by
      have hstate : (tok.goto tok.top.savedState).top.state = .objectFieldStart := hsaved
      simp only [look, hstate]
      rfl
    rw [looksPerChar, parseChar_redo (look_solid hs ⟨rfl, by decide⟩), parseChar_next hlook]
  obtain ⟨tok₂, hparse, hreads⟩ :=
    parseChars_jsonEscapeStr (d := d) key (show InString tok₁ from ⟨.inr rfl, rfl⟩)
  have hpb : tok₂.pb = key := hreads.pb
  have hstate₂ : tok₂.top.state = .objectField := hreads.state
  have hquote₂ : tok₂.quoteChar = '"' := hreads.quoteChar
  let tok₃ := { tok₂ with top := { tok₂.top with objFieldName := some key } }.await .objectFieldEnd
  have hlast : look d tok₂ '"' = .next tok₃ := by
    simp only [look, hstate₂, hquote₂, if_true, hpb, cString_eq hkey, tok₃]
  let tok₄ := (tok₃.goto .objectFieldEnd).await .objectValue
  have hcolon : parseChar d looksPerChar tok₃ ':' = .more tok₄ := by
    have hlook : look d (tok₃.goto .objectFieldEnd) ':' = .next tok₄ := rfl
    rw [looksPerChar, parseChar_redo (look_solid rfl ⟨rfl, by decide⟩)]
    exact parseChar_next hlook _
  refine ⟨tok₄, ?_, rfl, rfl, ?_, rfl, hreads.below⟩
  · rw [parseChars_cons hquote, parseChars_append _ _ hparse,
      parseChars_cons (parseChar_next hlast _), parseChars_cons hcolon,
      parseChars_cons (parseChar_next (look_space rfl) _)]
    rfl
  · exact hreads.current.trans hcurrent

lemma itemwise_object : Itemwise d .object JsonObject.object (memberText d) (nesting ·.2 + 1)
    fun ms => (∀ m ∈ ms, Reading d m.2 ∧ ExactIn d m.2 ∧ nul ∉ m.1) ∧ (ms.map Prod.fst).Nodup where
  opening tok hs := by
    simp only [look, hs]
    rfl
  texts ms := by rw [jsonObjectToJsonString, memberTexts_eq]; rfl
  nesting ms := by rw [JsonC.nesting, memberNesting_eq]
  initial xs ys h := ⟨fun m hm => h.1 m (List.mem_append_left ys hm),
    ((List.sublist_append_left xs ys).map _).nodup h.2⟩
  step := fun {below tok xs m} hvalid hgood hwaits => by
    obtain ⟨hreading, hexact, hkey⟩ := hvalid.1 m (List.mem_append_right _ List.mem_cons_self)
    have hfresh : m.1 ∉ xs.map Prod.fst := fun hmem => by
      have hnodup := hvalid.2
      rw [List.map_append, List.nodup_append] at hnodup
      exact hnodup.2.2 m.1 hmem m.1 List.mem_cons_self rfl
    obtain ⟨tok₂, hname, hs₂, hsaved₂, hcurrent₂, hname₂, hbelow₂⟩ :=
      parseChars_name (d := d) hwaits.state hwaits.savedState hwaits.current hkey
    have hchild := parses_child .objectValueAdd hreading hexact (good_of_parseChars hgood hname) hs₂
      fun c _ => by
        rw [hsaved₂]
        rfl
    rw [memberText, Parses, parseChars_append _ _ hname, ← hwaits.below, ← hbelow₂]
    refine ⟨fun hfits => ?_, hchild.2⟩
    obtain ⟨tok', hparse, hready⟩ := hchild.1 hfits
    refine ⟨tok', hparse, .behind hready fun tok₃ htop hobj c => ?_⟩
    have hs : tok₃.top.state = .objectValueAdd := by rw [htop]
    have hcurrent : tok₃.top.current = .object xs := by rw [htop]; exact hcurrent₂
    have hkey₃ : tok₃.top.objFieldName = some m.1 := by rw [htop]; exact hname₂
    let tok₄ := tok₃.setCurrent (.object (xs ++ [m]))
    refine ⟨{ tok₄ with top := { tok₄.top with objFieldName := none } }.await .objectSep, ?_,
      rfl, rfl, rfl, rfl⟩
    simp only [look, hs, lookObjectValueAdd, hcurrent, hkey₃, hobj, addMember_of_fresh hfresh]
    rfl

/-! ## The round trip -/

/-- A value without values in it. -/
lemma reading_of_scans (h : Scans d (jsonObjectToJsonString d v) v) (hnesting : nesting v = 0) :
    Reading d v := fun tok hgood htop =>
  ⟨fun _ => h tok htop, fun hnot => absurd hgood.depth_lt (by rwa [hnesting, Nat.zero_add] at hnot)⟩

/-- **The text of a value** is read wherever a value begins. -/
theorem value_parses (hclean : Clean v) (hexact : ExactIn d v) : Reading d v := by
  induction hclean with
  | null => exact reading_of_scans scans_null rfl
  | boolean b =>
    cases b with
    | true => exact reading_of_scans scans_true rfl
    | false => exact reading_of_scans scans_false rfl
  | double x =>
    cases hexact with
    | double hexact => exact reading_of_scans (scans_double hexact) rfl
  | int i => exact reading_of_scans (scans_int i) rfl
  | object keys nodup values ih =>
    cases hexact with
    | object hvalues =>
      exact itemwise_object.reading
        ⟨fun m hm => ⟨ih m hm (hvalues m hm), hvalues m hm, keys m hm⟩, nodup⟩
  | array values ih =>
    cases hexact with
    | array hvalues => exact itemwise_array.reading fun v hv => ⟨ih v hv (hvalues v hv), hvalues v hv⟩
  | string nonul => exact reading_of_scans (scans_string nonul) rfl

/-- The end of the text. -/
lemma parseChar_nul (h : Ready d tok v []) :
    ∃ tok', parseChar d looksPerChar tok nul = .out tok' none ∧ tok'.top.current = v := by
  have hend {tok' : Tokener δ} (hdone : Waits tok' .finish v []) (n : ℕ) :
      parseChar d (n + 2) tok' nul = .out (tok'.goto tok'.top.savedState) none := by
    have hfinish : look d (tok'.goto tok'.top.savedState) nul =
        .out (tok'.goto tok'.top.savedState) none := by
      have hstate : (tok'.goto tok'.top.savedState).top.state = .finish := hdone.savedState
      have hbelow : (tok'.goto tok'.top.savedState).below = [] := hdone.below
      simp only [look, hstate, lookFinish, hbelow]
    rw [parseChar_redo (look_solid hdone.state ⟨rfl, by decide⟩), parseChar, hfinish]
  rcases h with hdone | hredo
  · exact ⟨_, hend hdone 4, hdone.current⟩
  · obtain ⟨tok', hlook, hdone⟩ := hredo nul (.inr (.inr rfl))
    exact ⟨_, (parseChar_redo hlook 5).trans (hend hdone 3), hdone.current⟩

/-- The text of a value, and nothing else. -/
lemma jsonTokenerParse_of_reading (h : Reading d v) :
    jsonTokenerParse d (jsonObjectToJsonString d v) =
      if nesting v < jsonTokenerMaxDepth then .ok v else .error (.err .depth) := by
  obtain ⟨hfits, hdeep⟩ := h .new good_new rfl
  rw [jsonTokenerParse, jsonTokenerParseEx]
  split_ifs with hlt
  · obtain ⟨tok, hparse, hready⟩ := hfits hlt
    obtain ⟨tok', hout, hcurrent⟩ := parseChar_nul hready
    rw [parseChars_append _ _ hparse, parseChars, hout]
    exact congrArg Except.ok hcurrent
  · obtain ⟨tok, hparse⟩ := hdeep hlt
    rw [parseChars_append_out _ _ hparse]

/-- **What is printed is parsed back**, unless it is nested too deeply, and then it is refused for
that. -/
theorem jsonTokenerParse_toJsonString (hclean : Clean v) (hexact : ExactIn d v) :
    jsonTokenerParse d (jsonObjectToJsonString d v) =
      if nesting v < jsonTokenerMaxDepth then .ok v else .error (.err .depth) :=
  jsonTokenerParse_of_reading (value_parses hclean hexact)

/-- Numbers of millionths, as `"%lf"` prints and scans them. -/
def millionths : Doubles ℕ where
  print n := Nat.toDigits 10 (n / 1000000) ++ '.' :: (Nat.toDigits 10 (n % 1000000)).leftpad 6 '0'
  scan s :=
    let whole := s.takeWhile Char.isDigit
    let frac := (s.drop (whole.length + 1)).takeWhile Char.isDigit
    if whole = [] then none
    else some (Nat.ofDigitChars 10 whole 0 * 1000000 + Nat.ofDigitChars 10 (frac.rightpad 6 '0') 0)

lemma exact_half : Exact millionths 500000 where
  chars := by decide
  head := ⟨'0', ".500000".toList, by decide, by decide⟩
  isDouble := by decide
  scan := by decide

theorem jsonTokenerParse_toJsonString_half :
    let v : JsonObject ℕ := .object [(['a', '"'], .double 500000)]
    jsonTokenerParse millionths (jsonObjectToJsonString millionths v) = .ok v :=
  jsonTokenerParse_toJsonString
    (.object (by decide) (by decide) fun m hm => List.mem_singleton.mp hm ▸ .double _)
    (.object fun m hm => List.mem_singleton.mp hm ▸ .double exact_half)

end FreeswitchContrib.JsonC

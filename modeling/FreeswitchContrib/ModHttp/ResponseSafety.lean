import FreeswitchContrib.ModHttp.HttpResponse
import Mathlib.Tactic.Linarith

/-!
# Safety of the response parser

Every loop of the parser ends and stays within the buffer, and every size is natural, as long as the
second pass over the headers sees the tokens the first pass saw.  It does until a value is a
`HEADER` or a `STATUS_CODE` token: then the end of the line is looked for without a bound, and the
pass goes on at `j + 2`, counted from the start of the buffer instead of from the value.

`headersSafe` follows the second pass on the text alone, and `valuesPlain` is the case in which it
never comes to that.
-/

namespace FreeswitchContrib.ModHttp

open Scanner

/-- The second pass over `nt` headers stays within the buffer: each name and value ends in a token
(the last value may run to the end of the buffer if it has two characters), and a value that is a
`HEADER` or `STATUS_CODE` token is followed by a line end. -/
def headersSafe (buf : List Char) : ℕ → List Char → Bool
  | 0, _ => true
  | nt + 1, rest =>
    match lexStart rest with
    | none => false
    | some (_, rest₁) =>
      match lexStart rest₁ with
      | none => decide (2 ≤ rest₁.length) && headersSafe buf nt []
      | some (token, rest₂) =>
        if token = .header ∨ token = .statusCode then
          match findCrlf rest₁ with
          | none => false
          | some j => headersSafe buf nt (buf.drop (j + 2))
        else headersSafe buf nt rest₂

/-- No value of the first `nt` pairs of tokens is a `HEADER` or `STATUS_CODE` token. -/
def valuesPlain : ℕ → List Char → Bool
  | 0, _ => true
  | nt + 1, rest =>
    match lexStart rest with
    | none => true
    | some (_, rest₁) =>
      match lexStart rest₁ with
      | none => true
      | some (token, rest₂) =>
        decide (token ≠ .header ∧ token ≠ .statusCode) && valuesPlain nt rest₂

/-- The headers the first pass counts in the text behind the status line, if it comes to an end. -/
def headerCount : ℕ → List Char → Bool → Option ℕ
  | 0, _, _ => none
  | fuel + 1, rest, f =>
    match lexStart rest with
    | some (.phrase, rest') | some (.statusCode, rest') => headerCount fuel rest' false
    | some (.header, rest') =>
      if f then headerCount fuel rest' false else (headerCount fuel rest' true).map (· + 1)
    | some (.version, _) | some (.newline, _) => some 0
    | some (.syntaxError, _) | none => none

/-- The text behind the status line and the number of headers counted in it. -/
def headerSection (buf : List Char) : Option (List Char × ℕ) := do
  let (token₁, rest₁) ← lexStart buf
  guard (token₁ = .version)
  let (token₂, rest₂) ← lexStart rest₁
  guard (token₂ = .statusCode)
  let (token₃, rest₃) ← lexStart rest₂
  guard (token₃ = .phrase)
  let nt ← headerCount (buf.length + 1) rest₃ false
  return (rest₃, nt)

variable {malloc : Allocation → Bool} {buf rest rest' : List Char} {t : Token}

/-! ## The passes on the text -/

lemma findCrlf_bound : ∀ {cs : List Char} {j : ℕ}, findCrlf cs = some j → j + 2 ≤ cs.length
  | [], _, h => by simp [findCrlf] at h
  | c :: cs, j, h => by
    unfold findCrlf at h
    split at h
    next hc =>
      obtain rfl : 0 = j := by simpa using h
      rcases cs with _ | ⟨c', cs⟩
      · simp at hc
      · simp
    next =>
      obtain ⟨j', hj', rfl⟩ := Option.map_eq_some_iff.mp h
      have := findCrlf_bound hj'
      simp only [List.length_cons]
      omega

/-- **The first pass on the text**: it ends, and counts what `headerCount` counts. -/
lemma countHeaders_at : ∀ {fuel : ℕ} {rest : List Char} (f : Bool) (nt : ℕ), rest <:+ buf →
    rest.length < fuel →
    (headerCount fuel rest f = none ∧ countHeaders buf fuel (.at buf rest) f nt = .error .error) ∨
      ∃ n rest', headerCount fuel rest f = some n ∧ rest' <:+ buf ∧
        countHeaders buf fuel (.at buf rest) f nt = .ok (nt + n, .at buf rest')
  | 0, _, _, _, _, hfuel => by simp at hfuel
  | fuel + 1, rest, f, nt, hrest, hfuel => by
    rcases hlex : lexStart rest with _ | ⟨token, rest'⟩
    · obtain ⟨state, -, hnone⟩ := getNextToken_at_none hrest hlex
      left
      simp [headerCount, countHeaders, hlex, hnone, bind, Except.bind, throw, throwThe,
        MonadExceptOf.throw]
    have hrest' : rest' <:+ buf := (lexStart_suffix hlex).trans hrest
    have hlen : rest'.length < fuel := by
      have := lexStart_length hlex
      omega
    have hnext := getNextToken_at hrest hlex
    cases token with
    | phrase | statusCode =>
      simpa [headerCount, countHeaders, hlex, hnext, bind, Except.bind] using
        countHeaders_at _ nt hrest' hlen
    | header =>
      cases f with
      | true =>
        simpa [headerCount, countHeaders, hlex, hnext, bind, Except.bind] using
          countHeaders_at _ nt hrest' hlen
      | false =>
        simp only [headerCount, countHeaders, hlex, hnext, bind, Except.bind, Bool.false_eq_true,
          if_false]
        rcases countHeaders_at true (nt + 1) hrest' hlen with
          ⟨hcount, herr⟩ | ⟨n, rest'', hcount, hrest'', hok⟩
        · exact .inl ⟨by rw [hcount, Option.map_none], herr⟩
        · exact .inr ⟨n + 1, rest'', by rw [hcount, Option.map_some], hrest'', by
            rw [hok]; congr 2; omega⟩
    | version | newline =>
      exact .inr ⟨0, rest', by simp [headerCount, hlex], hrest', by
        simp [countHeaders, hnext, bind, Except.bind, pure, Except.pure]⟩
    | syntaxError =>
      left
      simp [headerCount, countHeaders, hlex, hnext, bind, Except.bind, throw, throwThe,
        MonadExceptOf.throw]

/-- Plain values are read by the second pass as the first pass read them. -/
lemma headersSafe_of_valuesPlain : ∀ {k fuel m : ℕ} {rest : List Char} {f : Bool},
    headerCount fuel rest f = some m → k ≤ m → valuesPlain k rest = true →
    headersSafe buf k rest = true
  | 0, _, _, _, _, _, _, _ => rfl
  | k + 1, fuel, m, rest, f, hcount, hk, hplain => by
    -- the two tokens of the pair, and a count of at least `k` behind them
    obtain ⟨token₁, rest₁, fuel₁, f₁, m₁, hlex₁, hcount₁, hm₁⟩ :
        ∃ token₁ rest₁ fuel₁ f₁ m₁, lexStart rest = some (token₁, rest₁) ∧
          headerCount fuel₁ rest₁ f₁ = some m₁ ∧ m ≤ m₁ + 1 := by
      rcases fuel with _ | fuel
      · simp [headerCount] at hcount
      rcases hlex : lexStart rest with _ | ⟨token, rest'⟩
      · simp [headerCount, hlex] at hcount
      cases token with
      | phrase | statusCode =>
        simp only [headerCount, hlex] at hcount
        exact ⟨_, _, _, _, m, rfl, hcount, by omega⟩
      | header =>
        cases f with
        | true =>
          simp only [headerCount, hlex, if_true] at hcount
          exact ⟨_, _, _, _, m, rfl, hcount, by omega⟩
        | false =>
          simp only [headerCount, hlex, Bool.false_eq_true, if_false] at hcount
          obtain ⟨n, hn, rfl⟩ := Option.map_eq_some_iff.mp hcount
          exact ⟨_, _, _, _, n, rfl, hn, le_rfl⟩
      | version | newline =>
        simp only [headerCount, hlex, Option.some.injEq] at hcount
        omega
      | syntaxError => simp [headerCount, hlex] at hcount
    rcases fuel₁ with _ | fuel₁
    · simp [headerCount] at hcount₁
    rcases hlex₂ : lexStart rest₁ with _ | ⟨token₂, rest₂⟩
    · simp [headerCount, hlex₂] at hcount₁
    simp only [valuesPlain, hlex₁, hlex₂, Bool.and_eq_true, decide_eq_true_eq] at hplain
    obtain ⟨⟨hheader, hstatus⟩, hplain⟩ := hplain
    have hother : ¬(token₂ = .header ∨ token₂ = .statusCode) := by
      rintro (h | h)
      · exact hheader h
      · exact hstatus h
    simp only [headersSafe, hlex₁, hlex₂, if_neg hother]
    cases token₂ with
    | phrase =>
      simp only [headerCount, hlex₂] at hcount₁
      exact headersSafe_of_valuesPlain hcount₁ (by omega) hplain
    | header => exact absurd rfl hheader
    | statusCode => exact absurd rfl hstatus
    | version | newline =>
      simp only [headerCount, hlex₂, Option.some.injEq] at hcount₁
      obtain rfl : k = 0 := by omega
      rfl
    | syntaxError => simp [headerCount, hlex₂] at hcount₁

/-! ## The second pass -/

lemma copyField_of_neg {site : Allocation} {pos : ℕ} {size : ℤ} (h : size < 0) :
    copyField malloc site buf pos size = .error .fault := by
  rw [copyField, if_pos h]

lemma copyField_of_le {site : Allocation} {pos : ℕ} (size : ℕ) (hpos : pos ≤ buf.length) :
    copyField malloc site buf pos size
      = if malloc site then .ok (strncpy buf pos size) else .error .error := by
  have hsize : ¬((size : ℤ) < 0) := not_lt.mpr (Int.natCast_nonneg size)
  rw [copyField, if_neg hsize, if_neg (not_lt.mpr hpos), Int.toNat_natCast]
  cases malloc site <;> rfl

/-- Where the second pass leaves the lexer: stopped, or about to read a suffix. -/
def Ended (buf : List Char) (sm : StateMachine) : Prop :=
  sm.stop = true ∨ ∃ rest, rest <:+ buf ∧ sm = .at buf rest

/-- A computation that does not fault, with what holds of its result. -/
def Safe {α : Type} (x : Except Failure α) (post : α → Prop) : Prop :=
  match x with
  | .ok a => post a
  | .error failure => failure ≠ .fault

lemma Safe.bind {α β : Type} {x : Except Failure α} {f : α → Except Failure β} {P : α → Prop}
    {Q : β → Prop} (hx : Safe x P) (hf : ∀ a, P a → Safe (f a) Q) : Safe (x >>= f) Q := by
  rcases x with failure | a
  · exact hx
  · exact hf a hx

lemma Safe.ok_bind {α β : Type} {a : α} {f : α → Except Failure β} {Q : β → Prop}
    (h : Safe (f a) Q) : Safe (.ok a >>= f) Q := h

lemma safe_copyField {site : Allocation} {pos : ℕ} {size : ℤ} (h : 0 ≤ size)
    (hpos : pos ≤ buf.length) : Safe (copyField malloc site buf pos size) fun _ => True := by
  obtain ⟨n, rfl⟩ := Int.eq_ofNat_of_zero_le h
  rw [copyField_of_le n hpos]
  cases malloc site
  · exact fun herr => nomatch herr
  · trivial

/-- The length of what lies ahead, as a position. -/
lemma at_pos (hrest : rest <:+ buf) :
    ((StateMachine.at buf rest).pos : ℤ) = buf.length - rest.length := by
  have := hrest.length_le
  simp only [StateMachine.at]
  omega

lemma at_pos_le (buf rest : List Char) : (StateMachine.at buf rest).pos ≤ buf.length :=
  Nat.sub_le _ _

/-- What the second pass makes of the text behind a name: the length of the value, and where it goes
on. -/
def readValue (buf rest : List Char) : Option (ℕ × StateMachine) :=
  match lexStart rest with
  | none =>
    if 2 ≤ rest.length then
      some (rest.length - 2,
        ⟨(scan LexState.read .start rest).getD .error, buf.length, true⟩)
    else none
  | some (token, rest') =>
    if token = .header ∨ token = .statusCode then
      (findCrlf rest).map fun j => (j, .at buf (buf.drop (j + 2)))
    else some (rest.length - rest'.length - 2, .at buf rest')

/-- **A value on the text**: a fault, or a copy and the way on. -/
lemma parseValue_at (i : ℕ) (hrest : rest <:+ buf) :
    parseValue malloc buf i (.at buf rest) =
      match readValue buf rest with
      | none => .error .fault
      | some (size, sm) =>
        if malloc (.value i) then .ok (strncpy buf (buf.length - rest.length) size, sm)
        else .error .error := by
  have hle := hrest.length_le
  have hdrop : buf.drop (StateMachine.at buf rest).pos = rest := drop_of_suffix hrest
  have hbuf := at_pos_le buf rest
  unfold parseValue readValue
  rcases hlex : lexStart rest with _ | ⟨token, rest'⟩
  · obtain ⟨state, hstate, hnone⟩ := getNextToken_at_none hrest hlex
    simp only [hnone, bind, Except.bind, reduceCtorEq, or_self, if_false, pure, Except.pure]
    by_cases hshort : 2 ≤ rest.length
    · have hne : rest ≠ [] := by
        rintro rfl
        simp at hshort
      have hsize : ((buf.length + 0 : ℕ) : ℤ) - (StateMachine.at buf rest).pos - 2
          = (rest.length - 2 : ℕ) := by
        simp only [at_pos hrest]
        omega
      rw [if_pos hshort, if_neg hne, hsize, copyField_of_le _ hbuf, hstate hne]
      cases malloc (.value i) <;> rfl
    · rw [if_neg hshort, copyField_of_neg]
      simp only [at_pos hrest]
      rcases rest with _ | ⟨c, cs⟩
      · simp
      · simp only [List.length_cons] at hshort ⊢
        simp only [reduceCtorEq, if_false]
        omega
  · have hrest' := (lexStart_suffix hlex).trans hrest
    have hlen := lexStart_length hlex
    simp only [getNextToken_at hrest hlex, bind, Except.bind]
    by_cases hother : token = .header ∨ token = .statusCode
    · simp only [if_pos hother, hdrop]
      rcases hj : findCrlf rest with _ | j
      · rfl
      have hbound := findCrlf_bound hj
      have hback : ({ StateMachine.at buf rest' with pos := j + 2 } : StateMachine)
          = .at buf (buf.drop (j + 2)) := by
        simp only [StateMachine.at, List.length_drop, StateMachine.mk.injEq, true_and, and_true]
        omega
      simp only [pure, Except.pure, hback, Option.map_some]
      rw [copyField_of_le _ hbuf]
      cases malloc (.value i) <;> rfl
    · have hsize : ((StateMachine.at buf rest').pos : ℤ) - (StateMachine.at buf rest).pos - 2
          = (rest.length - rest'.length - 2 : ℕ) := by
        simp only [at_pos hrest, at_pos hrest']
        omega
      simp only [if_neg hother, pure, Except.pure, hsize]
      rw [copyField_of_le _ hbuf]
      cases malloc (.value i) <;> rfl

/-- **One header of the second pass on the text.** -/
lemma parseHeaders_succ {nt : ℕ} {sm : StateMachine} (i : ℕ) (hrest : rest <:+ buf)
    (hpos : sm.pos = buf.length - rest.length) :
    parseHeaders malloc buf i (nt + 1) sm =
      match lexStart rest with
      | none =>
        if 2 ≤ rest.length ∧ malloc (.fieldName i) = false then .error .error else .error .fault
      | some (_, rest₁) =>
        if malloc (.fieldName i) = false then .error .error
        else
          match readValue buf rest₁ with
          | none => .error .fault
          | some (size, sm₂) =>
            if malloc (.value i) = false then .error .error
            else do
              let (headers, sm₃) ← parseHeaders malloc buf (i + 1) nt sm₂
              return (⟨strncpy buf (buf.length - rest.length) (rest.length - rest₁.length - 2),
                strncpy buf (buf.length - rest₁.length) size⟩ :: headers, sm₃) := by
  have hat : ({ sm with state := .start, stop := false } : StateMachine) = .at buf rest := by
    simp [StateMachine.at, hpos]
  have hle := hrest.length_le
  have hbuf : sm.pos ≤ buf.length := by omega
  rcases hlex₁ : lexStart rest with _ | ⟨token₁, rest₁⟩
  · -- the name runs to the end: its own size or that of the value is negative
    obtain ⟨state, -, hnone⟩ := getNextToken_at_none hrest hlex₁
    rw [parseHeaders, hat, hnone]
    simp only [bind, Except.bind]
    by_cases hshort : 2 ≤ rest.length
    · have hne : rest ≠ [] := by
        rintro rfl
        simp at hshort
      have hsize : ((buf.length + 0 : ℕ) : ℤ) - sm.pos - 2 = (rest.length - 2 : ℕ) := by omega
      rw [if_neg hne, hsize, copyField_of_le _ hbuf]
      cases malloc (.fieldName i) with
      | false => simp [hshort]
      | true =>
        simp only [if_true, parseValue, getNextToken_of_stop, bind, Except.bind, reduceCtorEq,
          or_self, if_false, pure, Except.pure, and_false]
        rw [copyField_of_neg (by omega)]
    · have hcond : ¬(2 ≤ rest.length ∧ malloc (.fieldName i) = false) := fun h => hshort h.1
      have hneg : ((buf.length + if rest = [] then 1 else 0 : ℕ) : ℤ) - sm.pos - 2 < 0 := by
        split
        next hnil =>
          have : rest.length = 0 := by rw [hnil, List.length_nil]
          omega
        · omega
      rw [copyField_of_neg hneg, if_neg hcond]
  · have hrest₁ := (lexStart_suffix hlex₁).trans hrest
    have hlen₁ := lexStart_length hlex₁
    have hle₁ := hrest₁.length_le
    have hsize : ((StateMachine.at buf rest₁).pos : ℤ) - sm.pos - 2
        = (rest.length - rest₁.length - 2 : ℕ) := by
      simp only [at_pos hrest₁]
      omega
    rw [parseHeaders, hat, getNextToken_at hrest hlex₁]
    simp only [bind, Except.bind, hsize]
    rw [copyField_of_le _ hbuf, hpos]
    cases malloc (.fieldName i) with
    | false => rfl
    | true =>
      simp only [if_true, parseValue_at i hrest₁, Bool.true_eq_false, if_false]
      rcases readValue buf rest₁ with _ | ⟨size, sm₂⟩
      · rfl
      · cases malloc (.value i) <;> rfl

/-- Where a value leaves the second pass. -/
lemma readValue_ended {size : ℕ} {sm : StateMachine} (hrest : rest <:+ buf)
    (h : readValue buf rest = some (size, sm)) :
    ∃ next, next <:+ buf ∧ sm.pos = buf.length - next.length ∧ Ended buf sm ∧
      ∀ nt t₁ rest₀, lexStart rest₀ = some (t₁, rest) →
        headersSafe buf (nt + 1) rest₀ = headersSafe buf nt next := by
  unfold readValue at h
  rcases hlex : lexStart rest with _ | ⟨token, rest'⟩
  · simp only [hlex] at h
    split at h
    next hshort =>
      obtain ⟨-, rfl⟩ : rest.length - 2 = size ∧ _ = sm := by simpa using h
      refine ⟨[], List.nil_suffix, by simp, .inl rfl, fun nt t₁ rest₀ h₀ => ?_⟩
      simp [headersSafe, h₀, hlex, hshort]
    · simp at h
  · have hrest' := (lexStart_suffix hlex).trans hrest
    simp only [hlex] at h
    split at h
    next hother =>
      obtain ⟨j, hj, hpair⟩ := Option.map_eq_some_iff.mp h
      obtain ⟨-, rfl⟩ : j = size ∧ _ = sm := by simpa using hpair
      refine ⟨_, List.drop_suffix _ _, rfl, .inr ⟨_, List.drop_suffix _ _, rfl⟩,
        fun nt t₁ rest₀ h₀ => ?_⟩
      simp [headersSafe, h₀, hlex, hother, hj]
    next hother =>
      obtain ⟨-, rfl⟩ : rest.length - rest'.length - 2 = size ∧ _ = sm := by simpa using h
      refine ⟨rest', hrest', rfl, .inr ⟨rest', hrest', rfl⟩, fun nt t₁ rest₀ h₀ => ?_⟩
      simp [headersSafe, h₀, hlex, hother]

lemma headersSafe_of_readValue_eq_none {nt : ℕ} {rest₀ : List Char} {t₁ : Token}
    (h₀ : lexStart rest₀ = some (t₁, rest)) (h : readValue buf rest = none) :
    headersSafe buf (nt + 1) rest₀ = false := by
  unfold readValue at h
  rcases hlex : lexStart rest with _ | ⟨token, rest'⟩
  · simp only [hlex, ite_eq_right_iff, reduceCtorEq, imp_false] at h
    simp [headersSafe, h₀, hlex, h]
  · simp only [hlex] at h
    split at h
    next hother =>
      have hj : findCrlf rest = none := by simpa using h
      simp [headersSafe, h₀, hlex, hother, hj]
    · simp at h

/-- **The second pass is safe where `headersSafe` says so.** -/
lemma parseHeaders_safe : ∀ {nt i : ℕ} {rest : List Char} {sm : StateMachine}, rest <:+ buf →
    sm.pos = buf.length - rest.length → Ended buf sm → headersSafe buf nt rest = true →
    Safe (parseHeaders malloc buf i nt sm) fun result => Ended buf result.2
  | 0, _, _, _, _, _, hended, _ => hended
  | nt + 1, i, rest, sm, hrest, hpos, _, hsafe => by
    rw [parseHeaders_succ i hrest hpos]
    rcases hlex₁ : lexStart rest with _ | ⟨token₁, rest₁⟩
    · simp [headersSafe, hlex₁] at hsafe
    have hrest₁ := (lexStart_suffix hlex₁).trans hrest
    simp only
    split
    · exact fun herr => nomatch herr
    rcases hvalue : readValue buf rest₁ with _ | ⟨size, sm₂⟩
    · simp [headersSafe_of_readValue_eq_none hlex₁ hvalue] at hsafe
    obtain ⟨next, hnext, hpos₂, hended, hsame⟩ := readValue_ended hrest₁ hvalue
    rw [hsame nt token₁ rest hlex₁] at hsafe
    simp only
    split
    · exact fun herr => nomatch herr
    · exact Safe.bind (parseHeaders_safe hnext hpos₂ hended hsafe) fun _ h => h

/-- Every allocation succeeds. -/
def mallocs : Allocation → Bool := fun _ => true

@[simp] lemma mallocs_eq (site : Allocation) : mallocs site = true := rfl

lemma copyField_mallocs {site : Allocation} {pos : ℕ} {size : ℤ} (h : 0 ≤ size)
    (hpos : pos ≤ buf.length) :
    copyField mallocs site buf pos size = .ok (strncpy buf pos size.toNat) := by
  obtain ⟨n, rfl⟩ := Int.eq_ofNat_of_zero_le h
  exact copyField_of_le n hpos

/-- **Where `headersSafe` says otherwise, the second pass faults**, if every allocation succeeds. -/
lemma parseHeaders_fault : ∀ {nt i : ℕ} {rest : List Char} {sm : StateMachine}, rest <:+ buf →
    sm.pos = buf.length - rest.length → headersSafe buf nt rest = false →
    parseHeaders mallocs buf i nt sm = .error .fault
  | 0, _, _, _, _, _, hsafe => by simp [headersSafe] at hsafe
  | nt + 1, i, rest, sm, hrest, hpos, hsafe => by
    rw [parseHeaders_succ i hrest hpos]
    rcases hlex₁ : lexStart rest with _ | ⟨token₁, rest₁⟩
    · simp [mallocs]
    have hrest₁ := (lexStart_suffix hlex₁).trans hrest
    simp only [mallocs_eq, Bool.true_eq_false, if_false]
    rcases hvalue : readValue buf rest₁ with _ | ⟨size, sm₂⟩
    · rfl
    obtain ⟨next, hnext, hpos₂, -, hsame⟩ := readValue_ended hrest₁ hvalue
    rw [hsame nt token₁ rest hlex₁] at hsafe
    simp only
    rw [parseHeaders_fault hnext hpos₂ hsafe]
    rfl

/-! ## The status line and the body -/

/-- The three tokens of the status line and what follows each. -/
def StatusLine (buf rest₁ rest₂ rest₃ : List Char) : Prop :=
  lexStart buf = some (.version, rest₁) ∧ lexStart rest₁ = some (.statusCode, rest₂) ∧
    lexStart rest₂ = some (.phrase, rest₃)

lemma StatusLine.suffix {rest₁ rest₂ rest₃ : List Char} (h : StatusLine buf rest₁ rest₂ rest₃) :
    rest₁ <:+ buf ∧ rest₂ <:+ buf ∧ rest₃ <:+ buf := by
  have h₁ := lexStart_suffix h.1
  have h₂ := (lexStart_suffix h.2.1).trans h₁
  exact ⟨h₁, h₂, (lexStart_suffix h.2.2).trans h₂⟩

lemma safe_expectToken {want : Token} (hwant : want ≠ .syntaxError) (hrest : rest <:+ buf) :
    Safe (expectToken buf want (.at buf rest)) fun sm =>
      ∃ rest', lexStart rest = some (want, rest') ∧ sm = .at buf rest' := by
  rcases hlex : lexStart rest with _ | ⟨token, rest'⟩
  · obtain ⟨state, -, hnone⟩ := getNextToken_at_none hrest hlex
    rw [expectToken, hnone]
    refine Safe.ok_bind ?_
    simp only [ne_eq, hwant.symm, not_false_eq_true, if_true]
    exact fun herr => nomatch herr
  · rw [expectToken, getNextToken_at hrest hlex]
    refine Safe.ok_bind ?_
    by_cases htoken : token = want
    · subst htoken
      simp only [ne_eq, not_true_eq_false, if_false]
      exact ⟨rest', rfl, rfl⟩
    · simp only [ne_eq, htoken, not_false_eq_true, if_true]
      exact fun herr => nomatch herr

lemma parseStatusLine_safe :
    Safe (parseStatusLine malloc buf .init) fun result =>
      ∃ rest₁ rest₂ rest₃, StatusLine buf rest₁ rest₂ rest₃ ∧ result.2.2.2 = .at buf rest₃ := by
  rw [StateMachine.init_eq buf, parseStatusLine]
  refine Safe.bind (safe_expectToken (by simp) List.suffix_rfl) ?_
  rintro _ ⟨rest₁, hlex₁, rfl⟩
  have hrest₁ := lexStart_suffix hlex₁
  refine Safe.bind (safe_copyField ?_ (at_pos_le _ _)) fun version _ => ?_
  · rw [at_pos hrest₁, at_pos List.suffix_rfl]
    have := hrest₁.length_le
    omega
  refine Safe.bind (safe_expectToken (by simp) hrest₁) ?_
  rintro _ ⟨rest₂, hlex₂, rfl⟩
  have hrest₂ := (lexStart_suffix hlex₂).trans hrest₁
  refine Safe.bind (safe_expectToken (by simp) hrest₂) ?_
  rintro _ ⟨rest₃, hlex₃, rfl⟩
  have hrest₃ := (lexStart_suffix hlex₃).trans hrest₂
  refine Safe.bind (safe_copyField ?_ (at_pos_le _ _)) fun phrase _ => ?_
  · rw [at_pos hrest₃, at_pos hrest₂]
    have := lexStart_length hlex₃
    omega
  exact ⟨rest₁, rest₂, rest₃, ⟨hlex₁, hlex₂, hlex₃⟩, rfl⟩

lemma parseBody_safe {sm : StateMachine} (hended : Ended buf sm) :
    Safe (parseBody malloc buf sm) fun _ => True := by
  rcases hended with hstop | ⟨rest, hrest, rfl⟩
  · rcases sm with ⟨state, pos, stop⟩
    subst hstop
    rw [parseBody, expectToken, getNextToken_of_stop]
    exact fun herr => nomatch herr
  · rw [parseBody]
    refine Safe.bind (safe_expectToken (by simp) hrest) ?_
    rintro _ ⟨rest', hlex, rfl⟩
    have hlen : ¬((buf.length : ℤ) - (StateMachine.at buf rest').pos < 0) := by
      rw [at_pos ((lexStart_suffix hlex).trans hrest)]
      omega
    simp only [if_neg hlen]
    cases malloc .body
    · exact fun herr => nomatch herr
    · trivial

lemma mallocHeaders_safe (nt : ℕ) : Safe (mallocHeaders malloc nt) fun _ => True := by
  unfold mallocHeaders
  split
  · exact fun herr => nomatch herr
  · trivial

lemma Safe.ne_fault {α : Type} {x : Except Failure α} {P : α → Prop} (h : Safe x P) :
    x ≠ .error .fault := by
  rintro rfl
  exact h rfl

lemma headerSection_eq_some_iff {nt : ℕ} : headerSection buf = some (rest, nt) ↔
    ∃ rest₁ rest₂, StatusLine buf rest₁ rest₂ rest ∧
      headerCount (buf.length + 1) rest false = some nt := by
  unfold headerSection StatusLine
  simp only [Option.bind_eq_bind, Option.bind_eq_some_iff, Option.guard_eq_some']
  constructor
  · rintro ⟨⟨_, rest₁⟩, h₁, _, rfl, ⟨_, rest₂⟩, h₂, _, rfl, ⟨_, rest₃⟩, h₃, _, rfl, n, hn, hpair⟩
    obtain ⟨rfl, rfl⟩ : rest₃ = rest ∧ n = nt := by simpa using hpair
    exact ⟨rest₁, rest₂, ⟨h₁, h₂, h₃⟩, hn⟩
  · rintro ⟨rest₁, rest₂, ⟨h₁, h₂, h₃⟩, hn⟩
    exact ⟨_, h₁, (), rfl, _, h₂, (), rfl, _, h₃, (), rfl, nt, hn, rfl⟩

/-- The parse of a text whose second pass is safe. -/
lemma httpParseResponse_safe (malloc : Allocation → Bool)
    (h : ∀ s ∈ headerSection buf, headersSafe buf s.2 s.1 = true) :
    Safe (httpParseResponse malloc buf) fun _ => True := by
  rw [httpParseResponse]
  refine Safe.bind parseStatusLine_safe ?_
  rintro ⟨version, statusCode, phrase, sm⟩ ⟨rest₁, rest₂, rest₃, hline, hsm⟩
  obtain rfl : sm = .at buf rest₃ := hsm
  obtain ⟨-, -, hrest₃⟩ := hline.suffix
  rcases countHeaders_at false 0 hrest₃ (Nat.lt_succ_of_le hrest₃.length_le) with
    ⟨-, herr⟩ | ⟨nt, rest', hcount, hrest', hok⟩
  · simp only [herr]
    exact fun herr => nomatch herr
  · have hsafe := h (rest₃, nt) (headerSection_eq_some_iff.mpr ⟨rest₁, rest₂, hline, hcount⟩)
    simp only [hok]
    refine Safe.ok_bind ?_
    refine Safe.bind (mallocHeaders_safe _) fun _ _ => ?_
    rw [Nat.zero_add]
    refine Safe.bind (parseHeaders_safe hrest₃ rfl (.inr ⟨rest₃, hrest₃, rfl⟩) hsafe) ?_
    rintro ⟨headers, sm⟩ hended
    refine Safe.bind (parseBody_safe hended) fun _ _ => ?_
    trivial

lemma expectToken_at {want : Token} (hrest : rest <:+ buf) (h : lexStart rest = some (want, rest')) :
    expectToken buf want (.at buf rest) = .ok (.at buf rest') := by
  rw [expectToken, getNextToken_at hrest h]
  simp [bind, Except.bind]

lemma parseStatusLine_of_statusLine {rest₁ rest₂ rest₃ : List Char}
    (h : StatusLine buf rest₁ rest₂ rest₃) :
    parseStatusLine mallocs buf .init = .ok (strncpy buf 0 (buf.length - rest₁.length),
      atoi (strncpy buf (buf.length - rest₁.length) (statusCodeLen - 1)),
      strncpy buf (buf.length - rest₂.length) (rest₂.length - rest₃.length - 2),
      .at buf rest₃) := by
  obtain ⟨hrest₁, hrest₂, hrest₃⟩ := h.suffix
  have hle₁ := hrest₁.length_le
  have hle₂ := hrest₂.length_le
  have hlen₃ := lexStart_length h.2.2
  rw [StateMachine.init_eq buf, parseStatusLine, expectToken_at List.suffix_rfl h.1]
  simp only [bind, Except.bind]
  rw [copyField_mallocs (by simp only [at_pos hrest₁, at_pos List.suffix_rfl]; omega)
    (at_pos_le _ _)]
  simp only
  rw [expectToken_at hrest₁ h.2.1]
  simp only
  rw [expectToken_at hrest₂ h.2.2]
  simp only
  rw [copyField_mallocs (by simp only [at_pos hrest₂, at_pos hrest₃]; omega) (at_pos_le _ _)]
  have hversion : (((StateMachine.at buf rest₁).pos : ℤ) - (StateMachine.at buf buf).pos).toNat
      = buf.length - rest₁.length := by
    simp only [at_pos hrest₁, at_pos List.suffix_rfl]
    omega
  have hphrase : (((StateMachine.at buf rest₃).pos : ℤ) - (StateMachine.at buf rest₂).pos - 2).toNat
      = rest₂.length - rest₃.length - 2 := by
    simp only [at_pos hrest₂, at_pos hrest₃]
    omega
  rw [hversion, hphrase]
  simp [StateMachine.at, pure, Except.pure]

/-- The parse of a text whose second pass is not safe. -/
lemma httpParseResponse_fault {nt : ℕ} (hsection : headerSection buf = some (rest, nt))
    (hsafe : headersSafe buf nt rest = false) :
    httpParseResponse mallocs buf = .error .fault := by
  obtain ⟨rest₁, rest₂, hline, hcount⟩ := headerSection_eq_some_iff.mp hsection
  obtain ⟨-, -, hrest⟩ := hline.suffix
  rw [httpParseResponse, parseStatusLine_of_statusLine hline]
  rcases countHeaders_at false 0 hrest (Nat.lt_succ_of_le hrest.length_le) with
    ⟨hnone, -⟩ | ⟨n, rest', hsome, hrest', hok⟩
  · simp [hnone] at hcount
  · obtain rfl : n = nt := by simpa [hsome] using hcount
    simp only [bind, Except.bind, hok, Nat.zero_add]
    rw [mallocHeaders, if_neg (by simp [mallocs])]
    simp only
    rw [parseHeaders_fault hrest rfl hsafe]

/-- **The parse is safe exactly when the second pass is**: it ends, reads within the buffer and
computes no negative size, whichever allocations fail, if and only if `headersSafe` holds of the
text behind the status line.  It does when no value is a `HEADER` or `STATUS_CODE` token. -/
theorem httpParseResponse_safe_iff (buf : List Char) :
    ((∀ malloc, httpParseResponse malloc buf ≠ .error .fault) ↔
        ∀ s ∈ headerSection buf, headersSafe buf s.2 s.1 = true) ∧
      ((∀ s ∈ headerSection buf, valuesPlain s.2 s.1 = true) →
        ∀ malloc, httpParseResponse malloc buf ≠ .error .fault) := by
  refine ⟨⟨fun h => ?_, fun h malloc => (httpParseResponse_safe malloc h).ne_fault⟩,
    fun h malloc => ?_⟩
  · rintro ⟨rest, nt⟩ hsection
    by_contra hunsafe
    exact h mallocs (httpParseResponse_fault hsection (Bool.not_eq_true _ ▸ hunsafe))
  · refine (httpParseResponse_safe malloc ?_).ne_fault
    rintro ⟨rest, nt⟩ hsection
    obtain ⟨-, -, -, hcount⟩ := headerSection_eq_some_iff.mp hsection
    exact headersSafe_of_valuesPlain hcount le_rfl (h _ hsection)

/-- A response whose values are plain. -/
theorem httpParseResponse_safe_plain : httpParseResponse mallocs
    "HTTP/1.1 200 OK\r\nA: b\r\n\r\nhi".toList ≠ .error .fault :=
  (httpParseResponse_safe_iff _).2 (by decide) mallocs

/-- A value with a colon, and no line end of two characters behind it. -/
theorem not_httpParseResponse_safe : ¬∀ (malloc : Allocation → Bool) (buf : List Char),
    httpParseResponse malloc buf ≠ .error .fault := by
  intro h
  exact h mallocs "HTTP/1.1 200 OK\n\nA: b: c\n\n\n\n".toList (by decide)

end FreeswitchContrib.ModHttp

import FreeswitchContrib.Library.CString
import FreeswitchContrib.Library.Numeral
import Mathlib.Data.List.DropRight

/-!
# Messages of the event socket

`s25vmail_mwi` reads the messages of the event socket with `retrieve_message`.  The first two lines
say what the message is: a reply of which the second line may be empty, or an event of which they
are the length and the type.

Memory is a list of characters, `none` an access outside of it.  What `read` delivers depends on
what has arrived; what a call returns does not: it is the next message of the bytes
(`retrieveMessage_next`).
-/

namespace FreeswitchContrib.S25Vmail

open CString

abbrev Text := List Char

/-! ## Reading -/

/-- A descriptor: the bytes that the peer sends, and for every `read` how many have arrived, or that
it fails. -/
structure Fd where
  bytes : List Char
  arrivals : List (Option ℕ)

/-- `read`, which delivers nothing only at the end of the stream. -/
def read (fd : Fd) (count : ℕ) : Option (List Char) × Fd :=
  match fd.arrivals with
  | [] => (some (fd.bytes.take count), ⟨fd.bytes.drop count, []⟩)
  | none :: arrivals => (none, ⟨fd.bytes, arrivals⟩)
  | some arrived :: arrivals =>
    let count := min count (max 1 arrived)
    (some (fd.bytes.take count), ⟨fd.bytes.drop count, arrivals⟩)

inductive Line where
  | failed
  | endOfFile
  | line (buf : List Char)
  deriving DecidableEq

/-- `read_line`, where `buf` is what the buffer holds and `room` how many characters it has left. -/
def readLineFrom : (room : ℕ) → (buf : List Char) → Fd → Option (Line × Fd)
  | 0, _, _ => none
  | room + 1, buf, fd =>
    match read fd 1 with
    | (none, fd) => some (.failed, fd)
    | (some [], fd) => some (if buf.isEmpty then .endOfFile else .failed, fd)
    | (some (c :: _), fd) =>
      if c = '\n' then some (.line (buf.rdropWhile (· = '\r') ++ [nul]), fd)
      else if room = 0 then some (.failed, fd)
      else readLineFrom room (buf ++ [c]) fd

def readLine (fd : Fd) (bufLen : ℕ) : Option (Line × Fd) := readLineFrom bufLen [] fd

def readTrailingNewline (fd : Fd) : Bool × Fd :=
  match read fd 1 with
  | (some ['\n'], fd) => (true, fd)
  | (_, fd) => (false, fd)

/-! ## Messages -/

def contentLength : Text := "Content-Length: ".toList

def contentType : Text := "Content-Type: ".toList

def replyTypes : List Text := ["auth/request".toList, "command/reply".toList]

def eventTypes : List Text := ["text/event-plain".toList]

/-- The type behind the header is one of these. -/
def isType (buf : List Char) : List Text → Option Bool
  | [] => some false
  | type :: types => do
    if ← strcmp buf contentType.length type then return true
    isType buf types

/-- A message that is not an event, without the memory behind its NUL. -/
def retrieveReply (clBuf ctBuf : List Char) (fd : Fd) : Option (Option (List Char) × Fd) := do
  if !(← strncmp clBuf 0 contentType) then return (none, fd)
  if !(← isType clBuf replyTypes) then return (none, fd)
  let first ← ctBuf[0]?
  let (accepted, fd) := if first = nul then (true, fd) else readTrailingNewline fd
  if !accepted then return (none, fd)
  return (some ((← string clBuf 0) ++ '\n' :: (← string ctBuf 0) ++ ['\n', nul]), fd)

/-- The loop that reads an event into `cl` bytes, of which `m` have been read. -/
def readEvent (cl : ℕ) (m : List Char) (fd : Fd) : Option (Option (List Char) × Fd) :=
  if m.length < cl then
    match read fd (cl - m.length) with
    | (none, fd) => some (none, fd)
    | (some [], fd) => some (none, fd)
    | (some (c :: cs), fd) =>
      if cl < m.length + (c :: cs).length then none else readEvent cl (m ++ c :: cs) fd
  else
    some (some m, fd)
termination_by cl - m.length
decreasing_by simp only [List.length_append, List.length_cons]; omega

/-- A position in memory that may be before it. -/
def at? (memory : List Char) (i : ℤ) : Option Char := if i < 0 then none else memory[i.toNat]?

/-- The body of an event, in memory of its length. -/
def retrieveBody (cl : ℤ) (fd : Fd) : Option (Option (List Char) × Fd) := do
  match ← readEvent cl.toNat [] fd with
  | (none, fd) => return (none, fd)
  | (some m, fd) =>
    if (← at? m (cl - 2)) ≠ '\n' then return (none, fd)
    if (← at? m (cl - 1)) ≠ '\n' then return (none, fd)
    return (some m, fd)

def retrieveEvent (clBuf ctBuf : List Char) (fd : Fd) : Option (Option (List Char) × Fd) := do
  let cl := atoi (← string clBuf contentLength.length)
  if cl ≤ 0 then return (none, fd)
  if !(← strncmp ctBuf 0 contentType) then return (none, fd)
  if !(← isType ctBuf eventTypes) then return (none, fd)
  let (accepted, fd) := readTrailingNewline fd
  if !accepted then return (none, fd)
  retrieveBody cl fd

/-- `retrieve_message`, which returns the memory that it has allocated. -/
def retrieveMessage (shutdownServer : Bool) (fd : Fd) : Option (Option (List Char) × Fd) :=
  if shutdownServer then some (none, fd)
  else
    match readLine fd 64 with
    | some (.line clBuf, fd) =>
      match readLine fd 64 with
      | some (.line ctBuf, fd) => do
        if ← strncmp clBuf 0 contentLength then retrieveEvent clBuf ctBuf fd
        else retrieveReply clBuf ctBuf fd
      | some (_, fd) => some (none, fd)
      | none => none
    | some (_, fd) => some (none, fd)
    | none => none

/-! ## The messages of a stream -/

/-- A line as a string: without the returns at its end, and up to a NUL. -/
def nextLine (bytes : List Char) : Option (Text × List Char) :=
  match bytes.dropWhile (· ≠ '\n') with
  | [] => none
  | _ :: rest =>
    let line := bytes.takeWhile (· ≠ '\n')
    if line.length < 64 then
      some ((line.rdropWhile (· = '\r')).takeWhile (· ≠ nul), rest)
    else
      none

/-- The newline behind the lines of the header. -/
def nextNewline : List Char → Option (List Char)
  | '\n' :: rest => some rest
  | _ => none

/-- The line says that the message is of one of these types. -/
def typed (line : Text) (types : List Text) : Bool :=
  contentType.isPrefixOf line && decide (line.drop contentType.length ∈ types)

def nextReply (first second : Text) (rest : List Char) : Option (List Char × List Char) :=
  if typed first replyTypes then
    (if second = [] then some rest else nextNewline rest).map fun rest =>
      (first ++ '\n' :: second ++ ['\n', nul], rest)
  else
    none

/-- A body of one byte is taken here: what looks for its two newlines is not in its memory. -/
def nextBody (cl : ℕ) (rest : List Char) : Option (List Char × List Char) :=
  if cl ≤ rest.length ∧ (cl = 1 ∨ ['\n', '\n'] <:+ rest.take cl) then
    some (rest.take cl, rest.drop cl)
  else
    none

def nextEvent (cl : ℤ) (second : Text) (rest : List Char) : Option (List Char × List Char) :=
  if 0 < cl ∧ typed second eventTypes then (nextNewline rest).bind (nextBody cl.toNat) else none

def nextMessage (bytes : List Char) : Option (List Char × List Char) := do
  let (first, rest) ← nextLine bytes
  let (second, rest) ← nextLine rest
  if contentLength.isPrefixOf first then
    nextEvent (atoi (first.drop contentLength.length)) second rest
  else
    nextReply first second rest

/-! ## Reads that do not fail -/

/-- No `read` fails, and these bytes are still to come. -/
structure Delivers (fd : Fd) (bytes : List Char) : Prop where
  bytes : fd.bytes = bytes
  arrives : none ∉ fd.arrivals

lemma delivers_arrivals (bytes : List Char) (arrivals : List ℕ) :
    Delivers ⟨bytes, arrivals.map some⟩ bytes := ⟨rfl, by simp⟩

lemma Delivers.read {fd : Fd} {bytes : List Char} (h : Delivers fd bytes) (count : ℕ)
    (hcount : 0 < count) :
    ∃ k fd', 0 < k ∧ k ≤ count ∧ read fd count = (some (bytes.take k), fd') ∧
      Delivers fd' (bytes.drop k) := by
  obtain ⟨rfl, harrives⟩ := h
  unfold S25Vmail.read
  split
  next heq => exact ⟨count, _, hcount, le_rfl, rfl, rfl, by simp⟩
  next heq => simp [heq] at harrives
  next arrived arrivals heq =>
    rw [heq] at harrives
    exact ⟨min count (max 1 arrived), _, by omega, by omega, rfl, rfl,
      fun hmem => harrives (List.mem_cons_of_mem _ hmem)⟩

lemma Delivers.read_one {fd : Fd} {c : Char} {bytes : List Char} (h : Delivers fd (c :: bytes)) :
    ∃ fd', S25Vmail.read fd 1 = (some [c], fd') ∧ Delivers fd' bytes := by
  obtain ⟨k, fd', hpos, hle, hread, hfd'⟩ := h.read 1 Nat.one_pos
  obtain rfl : k = 1 := by omega
  exact ⟨fd', hread, hfd'⟩

lemma readLineFrom_wire (pending : List Char) :
    ∀ (room : ℕ) (buf : List Char) (fd : Fd) (rest : List Char), '\n' ∉ pending →
      pending.length < room → Delivers fd (pending ++ '\n' :: rest) →
      ∃ fd', readLineFrom room buf fd =
          some (.line ((buf ++ pending).rdropWhile (· = '\r') ++ [nul]), fd') ∧
        Delivers fd' rest := by
  induction pending with
  | nil =>
    intro room buf fd rest _ hroom h
    obtain ⟨room, rfl⟩ := Nat.exists_eq_add_one.2 hroom
    obtain ⟨fd', hread, hfd'⟩ := h.read_one
    refine ⟨fd', ?_, hfd'⟩
    rw [readLineFrom, hread, List.append_nil]
    rfl
  | cons c pending ih =>
    intro room buf fd rest hnew hroom h
    rw [List.length_cons] at hroom
    obtain ⟨room, rfl⟩ := Nat.exists_eq_add_one.2 (Nat.zero_lt_of_lt hroom)
    obtain ⟨hc, hnew⟩ := not_or.1 (fun h => hnew (List.mem_cons.2 h))
    obtain ⟨fd', hread, hfd'⟩ := h.read_one
    obtain ⟨fd'', hline, hfd''⟩ := ih room (buf ++ [c]) fd' rest hnew (by omega) hfd'
    refine ⟨fd'', ?_, hfd''⟩
    rw [readLineFrom, hread]
    dsimp only
    rw [if_neg (Ne.symm hc), if_neg (by omega), hline, List.append_assoc]
    rfl

lemma readLineFrom_fails (room : ℕ) :
    ∀ (buf : List Char) (fd : Fd) (bytes : List Char), Delivers fd bytes → 0 < room →
      (bytes.dropWhile (· ≠ '\n') = [] ∨ room ≤ (bytes.takeWhile (· ≠ '\n')).length) →
      ∃ line fd', readLineFrom room buf fd = some (line, fd') ∧ ∀ buf, line ≠ .line buf := by
  induction room with
  | zero => intro _ _ _ _ h; omega
  | succ room ih =>
    intro buf fd bytes h _ hbytes
    cases bytes with
    | nil =>
      obtain ⟨k, fd', -, -, hread, -⟩ := h.read 1 Nat.one_pos
      rw [List.take_nil] at hread
      refine ⟨_, fd', by rw [readLineFrom, hread], fun buf' => ?_⟩
      split_ifs <;> exact Line.noConfusion
    | cons c bytes =>
      obtain ⟨fd', hread, hfd'⟩ := h.read_one
      have hc : c ≠ '\n' := by
        rintro rfl
        simp at hbytes
      rw [readLineFrom, hread]
      dsimp only
      rw [if_neg hc]
      by_cases hroom : room = 0
      · exact ⟨.failed, fd', by rw [if_pos hroom], fun buf' => Line.noConfusion⟩
      · rw [if_neg hroom]
        refine ih _ fd' bytes hfd' (by omega) ?_
        simpa [hc] using hbytes

/-! ## A call reads the next message -/

/-- The call returns the message, or nothing where the stream has none.  A message of one byte is
looked at before its memory. -/
def Returns (call : Option (Option (List Char) × Fd)) : Option (List Char × List Char) → Prop
  | none => ∃ fd', call = some (none, fd')
  | some (m, rest) =>
    if m.length = 1 then call = none else ∃ fd', call = some (some m, fd') ∧ Delivers fd' rest

lemma not_of_dropWhile {p : Char → Bool} {l rest : List Char} {c : Char}
    (h : l.dropWhile p = c :: rest) : p c = false := by
  have hhead := List.head?_dropWhile_not p l
  rw [h] at hhead
  simpa using hhead

/-- **A line is read as a string** with other characters behind its NUL. -/
lemma readLine_next {fd : Fd} {bytes : List Char} (h : Delivers fd bytes) :
    match nextLine bytes with
    | none => ∃ line fd', readLine fd 64 = some (line, fd') ∧ ∀ buf, line ≠ .line buf
    | some (text, rest) => ∃ junk fd',
        readLine fd 64 = some (.line (text ++ nul :: junk), fd') ∧ nul ∉ text ∧
          Delivers fd' rest := by
  unfold nextLine
  cases hdrop : bytes.dropWhile (· ≠ '\n') with
  | nil => exact readLineFrom_fails 64 [] fd bytes h (by decide) (.inl hdrop)
  | cons c rest =>
    set line := bytes.takeWhile (· ≠ '\n') with hline
    obtain rfl : c = '\n' := by simpa using not_of_dropWhile hdrop
    by_cases hshort : line.length < 64
    · simp only [hshort, if_true]
      have hbytes : bytes = line ++ '\n' :: rest := by
        rw [← hdrop, hline, List.takeWhile_append_dropWhile]
      have hnew : '\n' ∉ line := by
        intro hmem
        simpa using List.mem_takeWhile_imp hmem
      obtain ⟨fd', hread, hfd'⟩ := readLineFrom_wire line 64 [] fd rest hnew hshort (hbytes ▸ h)
      have hnul : nul ∉ (line.rdropWhile (· = '\r')).takeWhile (· ≠ nul) := by
        intro hmem
        simpa using List.mem_takeWhile_imp hmem
      have hsplit := List.takeWhile_append_dropWhile (p := (· ≠ nul))
        (l := line.rdropWhile (· = '\r'))
      rw [readLine, hread, List.nil_append]
      cases hjunk : (line.rdropWhile (· = '\r')).dropWhile (· ≠ nul) with
      | nil =>
        rw [hjunk, List.append_nil] at hsplit
        exact ⟨[], fd', by rw [hsplit], hnul, hfd'⟩
      | cons c junk =>
        obtain rfl : c = nul := by simpa using not_of_dropWhile hjunk
        rw [hjunk] at hsplit
        refine ⟨junk ++ [nul], fd', ?_, hnul, hfd'⟩
        rw [← List.cons_append, ← List.append_assoc, hsplit]
    · simp only [hshort, if_false]
      exact readLineFrom_fails 64 [] fd bytes h (by decide) (.inr (Nat.le_of_not_lt hshort))

lemma readTrailingNewline_next {fd : Fd} {bytes : List Char} (h : Delivers fd bytes) :
    match nextNewline bytes with
    | none => ∃ fd', readTrailingNewline fd = (false, fd')
    | some rest => ∃ fd', readTrailingNewline fd = (true, fd') ∧ Delivers fd' rest := by
  unfold nextNewline readTrailingNewline
  cases bytes with
  | nil =>
    obtain ⟨k, fd', -, -, hread, -⟩ := h.read 1 Nat.one_pos
    rw [List.take_nil] at hread
    exact ⟨fd', by rw [hread]⟩
  | cons c bytes =>
    obtain ⟨fd', hread, hfd'⟩ := h.read_one
    by_cases hc : c = '\n'
    · subst hc
      refine ⟨fd', ?_, hfd'⟩
      rw [hread]
      rfl
    · rw [hread]
      simp [hc]

lemma isType_eq {type : Text} (hnul : nul ∉ type) (junk : List Char) {types : List Text}
    (htypes : ∀ t ∈ types, nul ∉ t) :
    isType (contentType ++ type ++ nul :: junk) types = some (decide (type ∈ types)) := by
  induction types with
  | nil => simp [isType]
  | cons t types ih =>
    rw [isType, List.append_assoc,
      strcmp_append contentType junk hnul (htypes t List.mem_cons_self), ← List.append_assoc,
      ih fun t h => htypes t (List.mem_cons_of_mem _ h)]
    by_cases heq : type = t
    · simp [heq]
    · simp [heq]

/-- The header is there, and its type is compared, or it is not. -/
lemma typed_eq {line : Text} (hnul : nul ∉ line) (junk : List Char) {types : List Text}
    (htypes : ∀ t ∈ types, nul ∉ t) :
    (strncmp (line ++ nul :: junk) 0 contentType = some false ∧ typed line types = false) ∨
      strncmp (line ++ nul :: junk) 0 contentType = some true ∧
        isType (line ++ nul :: junk) types = some (typed line types) := by
  have hname : strncmp (line ++ nul :: junk) 0 contentType =
      some (contentType.isPrefixOf line) := startsWith_eq junk (by decide)
  rw [hname, typed]
  cases hp : contentType.isPrefixOf line with
  | false => exact .inl ⟨rfl, rfl⟩
  | true =>
    obtain ⟨type, rfl⟩ := List.isPrefixOf_iff_prefix.1 hp
    refine .inr ⟨rfl, ?_⟩
    rw [isType_eq (fun h => hnul (List.mem_append_right _ h)) junk htypes, List.drop_left,
      Bool.true_and]

lemma replyTypes_no_nul : ∀ t ∈ replyTypes, nul ∉ t := by decide

lemma eventTypes_no_nul : ∀ t ∈ eventTypes, nul ∉ t := by decide

lemma retrieveReply_next {first second : Text} (hfirst : nul ∉ first) (hsecond : nul ∉ second)
    (junk junk' : List Char) {fd : Fd} {bytes : List Char} (h : Delivers fd bytes) :
    Returns (retrieveReply (first ++ nul :: junk) (second ++ nul :: junk') fd)
      (nextReply first second bytes) := by
  have hline : string (first ++ nul :: junk) 0 = some first := string_append [] junk hfirst
  have hline' : string (second ++ nul :: junk') 0 = some second := string_append [] junk' hsecond
  unfold nextReply
  obtain ⟨hheader, htyped⟩ | ⟨hheader, htype⟩ := typed_eq hfirst junk replyTypes_no_nul
  · rw [htyped]
    refine ⟨fd, ?_⟩
    simp only [retrieveReply, hheader, Option.bind_eq_bind, Option.bind_some]
    rfl
  cases htyped : typed first replyTypes with
  | false =>
    rw [htyped] at htype
    refine ⟨fd, ?_⟩
    simp only [retrieveReply, hheader, htype, Option.bind_eq_bind, Option.bind_some]
    rfl
  | true =>
    rw [htyped] at htype
    have hlength : (first ++ '\n' :: second ++ ['\n', nul]).length ≠ 1 := by
      simp only [List.length_append, List.length_cons]
      omega
    simp only [retrieveReply, hheader, htype, hline, hline', Option.bind_eq_bind, Option.bind_some,
      Bool.not_true, Bool.false_eq_true, if_false, if_true]
    cases second with
    | nil =>
      rw [if_pos rfl, Option.map_some, Returns, if_neg hlength]
      exact ⟨fd, rfl, h⟩
    | cons c text =>
      have hc : c ≠ nul := fun heq => hsecond (heq ▸ List.mem_cons_self)
      have hnewline := readTrailingNewline_next h
      show Returns (if (!(if c = nul then (true, fd) else readTrailingNewline fd).1) = true
        then _ else _) _
      rw [if_neg hc, if_neg (List.cons_ne_nil c text)]
      cases hnext : nextNewline bytes with
      | none =>
        rw [hnext] at hnewline
        obtain ⟨fd', hread⟩ := hnewline
        rw [hread]
        exact ⟨fd', rfl⟩
      | some rest =>
        rw [hnext] at hnewline
        obtain ⟨fd', hread, hfd'⟩ := hnewline
        rw [hread, Option.map_some, Returns, if_neg hlength]
        exact ⟨fd', rfl, hfd'⟩

/-- The loop reads its bytes however few of them arrive at a time. -/
lemma readEvent_next (cl : ℕ) (m : List Char) (fd : Fd) {bytes : List Char}
    (hm : m.length ≤ cl) (h : Delivers fd bytes) :
    if cl ≤ m.length + bytes.length then
      ∃ fd', readEvent cl m fd = some (some (m ++ bytes.take (cl - m.length)), fd') ∧
        Delivers fd' (bytes.drop (cl - m.length))
    else
      ∃ fd', readEvent cl m fd = some (none, fd') := by
  rw [readEvent]
  by_cases hlt : m.length < cl
  · obtain ⟨k, fd₁, hpos, hle, hread, h₁⟩ := h.read (cl - m.length) (by omega)
    rw [if_pos hlt, hread]
    cases htake : bytes.take k with
    | nil =>
      obtain rfl : bytes = [] := by
        rcases List.take_eq_nil_iff.1 htake with rfl | hnil
        · omega
        · exact hnil
      rw [if_neg (by simp; omega)]
      exact ⟨fd₁, rfl⟩
    | cons c cs =>
      have hlength : (c :: cs).length = min k bytes.length := by rw [← htake, List.length_take]
      have hpositive : 0 < (c :: cs).length := Nat.succ_pos _
      have hdrop : (bytes.drop k).length = bytes.length - k := List.length_drop
      have hnew : (m ++ c :: cs).length = m.length + (c :: cs).length := List.length_append
      have hih := readEvent_next cl (m ++ c :: cs) fd₁ (by omega) h₁
      have hstep : (if cl < m.length + (c :: cs).length then none
          else readEvent cl (m ++ c :: cs) fd₁) = readEvent cl (m ++ c :: cs) fd₁ :=
        if_neg (by omega)
      dsimp only
      rw [hstep]
      by_cases hlong : cl ≤ m.length + bytes.length
      · rw [if_pos (by omega)] at hih
        obtain ⟨fd', hevent, h'⟩ := hih
        have hk : (c :: cs).length = k := by omega
        have hrest : cl - m.length = k + (cl - (m.length + k)) := by omega
        rw [if_pos hlong, hevent, hnew, hk, hrest, List.take_add, htake, List.append_assoc]
        rw [hnew, hk, List.drop_drop] at h'
        exact ⟨fd', rfl, h'⟩
      · rw [if_neg (by omega)] at hih
        rw [if_neg hlong]
        exact hih
  · have hcl : cl = m.length := by omega
    rw [if_neg hlt, if_pos (by omega), hcl, Nat.sub_self]
    exact ⟨fd, by simp, h⟩
termination_by cl - m.length
decreasing_by
  rw [List.length_append]
  omega

lemma at?_end {m : List Char} (h : 2 ≤ m.length) :
    ∃ c d, at? m ((m.length : ℤ) - 2) = some c ∧ at? m ((m.length : ℤ) - 1) = some d ∧
      (['\n', '\n'] <:+ m ↔ c = '\n' ∧ d = '\n') := by
  obtain ⟨m', d, rfl⟩ := (List.eq_nil_or_concat m).resolve_left (by rintro rfl; simp at h)
  obtain ⟨m'', c, rfl⟩ := (List.eq_nil_or_concat m').resolve_left (by rintro rfl; simp at h)
  simp only [List.concat_eq_append, List.append_assoc, List.singleton_append]
  have hlength : (m'' ++ [c, d]).length = m''.length + 2 := by simp
  refine ⟨c, d, ?_, ?_, ?_⟩
  · rw [at?, hlength, if_neg (by omega),
      show (((m''.length + 2 : ℕ) : ℤ) - 2).toNat = m''.length by omega]
    simp
  · rw [at?, hlength, if_neg (by omega),
      show (((m''.length + 2 : ℕ) : ℤ) - 1).toNat = m''.length + 1 by omega]
    simp
  · constructor
    · rintro ⟨t, ht⟩
      obtain ⟨-, heq⟩ := List.append_inj' ht rfl
      cases heq
      exact ⟨rfl, rfl⟩
    · rintro ⟨rfl, rfl⟩
      exact List.suffix_append _ _

lemma retrieveBody_next {cl : ℤ} (hcl : 0 < cl) {fd : Fd} {bytes : List Char}
    (h : Delivers fd bytes) : Returns (retrieveBody cl fd) (nextBody cl.toNat bytes) := by
  have hevent := readEvent_next cl.toNat [] fd (Nat.zero_le _) h
  rw [List.length_nil, Nat.zero_add, Nat.sub_zero] at hevent
  unfold nextBody
  by_cases hlong : cl.toNat ≤ bytes.length
  swap
  · rw [if_neg hlong] at hevent
    obtain ⟨fd', hread⟩ := hevent
    rw [if_neg fun hand => hlong hand.1]
    exact ⟨fd', by simp only [retrieveBody, hread, Option.bind_eq_bind, Option.bind_some]; rfl⟩
  rw [if_pos hlong] at hevent
  obtain ⟨fd', hread, hfd'⟩ := hevent
  have hlength : (bytes.take cl.toNat).length = cl.toNat := by
    rw [List.length_take, Nat.min_eq_left hlong]
  simp only [retrieveBody, hread, Option.bind_eq_bind, Option.bind_some, List.nil_append]
  by_cases hone : cl = 1
  · rw [if_pos ⟨hlong, .inl (by omega)⟩, Returns, if_pos (by omega), at?, if_pos (by omega)]
    rfl
  · obtain ⟨c, d, hc, hd, hsuffix⟩ := at?_end (m := bytes.take cl.toNat) (by omega)
    have hint : ((bytes.take cl.toNat).length : ℤ) = cl := by omega
    rw [hint] at hc hd
    rw [hc, hd]
    by_cases hnew : ['\n', '\n'] <:+ bytes.take cl.toNat
    · obtain ⟨rfl, rfl⟩ := hsuffix.1 hnew
      rw [if_pos ⟨hlong, .inr hnew⟩, Returns, if_neg (by omega)]
      exact ⟨fd', rfl, hfd'⟩
    · have hne : ¬ (cl.toNat ≤ bytes.length ∧
          (cl.toNat = 1 ∨ ['\n', '\n'] <:+ bytes.take cl.toNat)) := by
        rintro ⟨-, h | h⟩
        · omega
        · exact hnew h
      rw [if_neg hne]
      refine ⟨fd', ?_⟩
      simp only [Option.bind_some]
      by_cases hcn : c = '\n'
      · have hdn : d ≠ '\n' := fun hdn => hnew (hsuffix.2 ⟨hcn, hdn⟩)
        simp [hcn, hdn]
      · simp [hcn]

lemma retrieveEvent_next {digits second : Text} (hdigits : nul ∉ digits) (hsecond : nul ∉ second)
    (junk junk' : List Char) {fd : Fd} {bytes : List Char} (h : Delivers fd bytes) :
    Returns (retrieveEvent (contentLength ++ digits ++ nul :: junk) (second ++ nul :: junk') fd)
      (nextEvent (atoi digits) second bytes) := by
  have hlength : string (contentLength ++ digits ++ nul :: junk) contentLength.length =
      some digits := by
    rw [List.append_assoc]
    exact string_append contentLength junk hdigits
  unfold nextEvent
  by_cases hcl : atoi digits ≤ 0
  · rw [if_neg (by omega)]
    refine ⟨fd, ?_⟩
    simp only [retrieveEvent, hlength, Option.bind_eq_bind, Option.bind_some, hcl, if_true]
    rfl
  obtain ⟨hheader, htyped⟩ | ⟨hheader, htype⟩ := typed_eq hsecond junk' eventTypes_no_nul
  · rw [if_neg (by simp [htyped])]
    refine ⟨fd, ?_⟩
    simp only [retrieveEvent, hlength, hheader, Option.bind_eq_bind, Option.bind_some, hcl,
      if_false]
    rfl
  cases htyped : typed second eventTypes with
  | false =>
    rw [if_neg (by simp)]
    rw [htyped] at htype
    refine ⟨fd, ?_⟩
    simp only [retrieveEvent, hlength, hheader, htype, Option.bind_eq_bind, Option.bind_some, hcl,
      if_false]
    rfl
  | true =>
    rw [if_pos ⟨by omega, rfl⟩]
    rw [htyped] at htype
    have hnewline := readTrailingNewline_next h
    simp only [retrieveEvent, hlength, hheader, htype, Option.bind_eq_bind, Option.bind_some, hcl,
      if_false, Bool.not_true, Bool.false_eq_true]
    cases hnext : nextNewline bytes with
    | none =>
      rw [hnext] at hnewline
      obtain ⟨fd', hread⟩ := hnewline
      rw [hread]
      exact ⟨fd', rfl⟩
    | some rest =>
      rw [hnext] at hnewline
      obtain ⟨fd', hread, hfd'⟩ := hnewline
      rw [hread, Option.bind_some]
      exact retrieveBody_next (by omega) hfd'

/-- **A call reads the next message of the bytes**, however the reads split them. -/
lemma retrieveMessage_next {fd : Fd} {bytes : List Char} (h : Delivers fd bytes) :
    Returns (retrieveMessage false fd) (nextMessage bytes) := by
  simp only [retrieveMessage, nextMessage, Bool.false_eq_true, if_false, Option.bind_eq_bind]
  have hfirst := readLine_next h
  cases hnext : nextLine bytes with
  | none =>
    rw [hnext] at hfirst
    obtain ⟨line, fd', hread, hline⟩ := hfirst
    rw [hread]
    cases line with
    | line buf => exact (hline buf rfl).elim
    | failed => exact ⟨fd', rfl⟩
    | endOfFile => exact ⟨fd', rfl⟩
  | some first =>
    obtain ⟨first, rest⟩ := first
    rw [hnext] at hfirst
    obtain ⟨junk, fd₁, hread, hnul, h₁⟩ := hfirst
    rw [hread, Option.bind_some]
    dsimp only
    have hsecond := readLine_next h₁
    cases hnext' : nextLine rest with
    | none =>
      rw [hnext'] at hsecond
      obtain ⟨line, fd', hread', hline⟩ := hsecond
      rw [hread']
      cases line with
      | line buf => exact (hline buf rfl).elim
      | failed => exact ⟨fd', rfl⟩
      | endOfFile => exact ⟨fd', rfl⟩
    | some second =>
      obtain ⟨second, rest'⟩ := second
      rw [hnext'] at hsecond
      obtain ⟨junk', fd₂, hread', hnul', h₂⟩ := hsecond
      have hkind : strncmp (first ++ nul :: junk) 0 contentLength =
          some (contentLength.isPrefixOf first) := startsWith_eq junk (by decide)
      rw [hread', Option.bind_some]
      dsimp only
      rw [hkind, Option.bind_some]
      cases hname : contentLength.isPrefixOf first with
      | false => exact retrieveReply_next hnul hnul' junk junk' h₂
      | true =>
        obtain ⟨digits, rfl⟩ := List.isPrefixOf_iff_prefix.1 hname
        rw [List.drop_left]
        exact retrieveEvent_next (fun hmem => hnul (List.mem_append_right _ hmem)) hnul' junk junk'
          h₂

end FreeswitchContrib.S25Vmail

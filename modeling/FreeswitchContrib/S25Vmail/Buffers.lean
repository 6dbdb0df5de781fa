import FreeswitchContrib.S25Vmail.Messages

/-!
# Messages stay in their buffers

A session of `s25vmail_mwi`: the login, the request for the events, and the loop over the events.
The strings of a message are cut up by `strtok_r`, which reads up to a NUL, and the memory of an
event has none behind the bytes that were sent.

What the session does is determined by the messages of the stream, which `nextMessage` reads off the
bytes; it stays in its buffers exactly if each of them has what is looked for in it.
-/

namespace FreeswitchContrib.S25Vmail

open CString

/-! ## A session -/

def authRequest : Text := contentType ++ "auth/request".toList

def commandReply : Text := contentType ++ "command/reply".toList

/-- The checks of a reply to a command. -/
def replyAccepted (m : List Char) (replyText : Text) : Option Bool := do
  let (p, m, last) ← strtok '\n' m 0
  match p with
  | none => return false
  | some p =>
    if ← strcmp m p commandReply then
      let (p, m, _) ← strtok '\n' m last
      match p with
      | none => return false
      | some p => strcmp m p replyText
    else
      return false

/-- The reply to a command is retrieved and checked.  The shutdown is requested after this many
further calls of `retrieve_message`. -/
def commandAccepted (replyText : Text) (calls : ℕ) (fd : Fd) : Option (Bool × Fd) := do
  match ← retrieveMessage (calls = 0) fd with
  | (none, fd) => return (false, fd)
  | (some m, fd) => return (← replyAccepted m replyText, fd)

/-- Whether the commands can be written. -/
structure Writes where
  password : Bool
  event : Bool

def sendPassword (writes : Writes) (calls : ℕ) (fd : Fd) : Option (Bool × Fd) := do
  match ← retrieveMessage (calls = 0) fd with
  | (none, fd) => return (false, fd)
  | (some m, fd) =>
    let (p, m, _) ← strtok '\n' m 0
    -- the pointer is compared without a check
    if ← strcmp m (← p) authRequest then
      if writes.password then
        commandAccepted "Reply-Text: +OK accepted".toList (calls - 1) fd
      else
        return (false, fd)
    else
      return (false, fd)

def enableMwiEvent (writes : Writes) (calls : ℕ) (fd : Fd) : Option (Bool × Fd) :=
  if writes.event then
    commandAccepted "Reply-Text: +OK event listener enabled plain".toList calls fd
  else
    some (false, fd)

/-- The text behind a header, if the line at `p` has this one. -/
def headerValue (m : List Char) (p : ℕ) (header : Text) (value : Option ℕ) : Option (Option ℕ) :=
  (strncmp m p header).map fun found => if found then some (p + header.length) else value

/-- The loop of `process_mwi_event` over the lines, which finds the account and the state. -/
def mwiLines (m : List Char) (s : ℕ) (ma mw : Option ℕ) :
    Option (List Char × Option ℕ × Option ℕ) :=
  match _h : strtok '\n' m s with
  | none => none
  | some (none, m, _) => some (m, ma, mw)
  | some (some p, m', last) =>
    (headerValue m' p "MWI-Messages-Waiting: ".toList mw).bind fun mw =>
    (headerValue m' p "MWI-Message-Account: ".toList ma).bind fun ma =>
    mwiLines m' last ma mw
termination_by m.length - s
decreasing_by
  obtain ⟨hlength, hlast, hs⟩ := strtok_some _h
  omega

/-- The loop over the events, until the shutdown is requested. -/
def mwiEvents : ℕ → Fd → Option Unit
  | 0, _ => some ()
  | calls + 1, fd => do
    match ← retrieveMessage false fd with
    | (none, _) => return ()
    | (some m, fd) =>
      let _ ← mwiLines m 0 none none
      mwiEvents calls fd

/-- What `main` does with a connection. -/
def session (writes : Writes) (calls : ℕ) (fd : Fd) : Option Unit := do
  let (accepted, fd) ← sendPassword writes calls fd
  if accepted then
    let (accepted, fd) ← enableMwiEvent writes (calls - 2) fd
    if accepted then mwiEvents (calls - 3) fd else some ()
  else
    some ()

/-! ## What the session looks for -/

/-- The first messages of a stream, as many as there are up to this number. -/
def messages : ℕ → List Char → List (List Char)
  | 0, _ => []
  | count + 1, bytes =>
    match nextMessage bytes with
    | none => []
    | some (m, rest) => m :: messages count rest

/-- The first line of a text that is not empty. -/
def firstToken (m : List Char) : Text :=
  (m.dropWhile (· == '\n')).takeWhile fun c => !ends '\n' c

def behindToken (m : List Char) : List Char :=
  (m.dropWhile (· == '\n')).dropWhile fun c => !ends '\n' c

/-- The memory ends with a newline or a NUL. -/
def Ended (m : List Char) : Prop := ∀ c, m.getLast? = some c → ends '\n' c = true

/-- There is a line in the message, and no NUL before it. -/
def LoginOk (m : List Char) : Prop := ∃ c cs, m.dropWhile (· == '\n') = c :: cs ∧ c ≠ nul

/-- There is something other than newlines in the message, and behind its first line if this says
that it is a reply. -/
def ReplyOk (m : List Char) : Prop :=
  (∃ c ∈ m, c ≠ '\n') ∧ (firstToken m = commandReply → ∃ c ∈ behindToken m, c ≠ '\n')

def Accepted (m : List Char) (replyText : Text) : Prop :=
  firstToken m = commandReply ∧ firstToken (behindToken m) = replyText

/-- All events have a NUL. -/
def EventsOk (ms : List (List Char)) : Prop := ∀ m ∈ ms, m.length ≠ 1 ∧ nul ∈ m

/-- The reply to a command, and what comes behind it if it is accepted. -/
def CommandOk (replyText : Text) (next : List (List Char) → Prop) : List (List Char) → Prop
  | [] => True
  | m :: ms => m.length ≠ 1 ∧ ReplyOk m ∧ (Accepted m replyText → next ms)

def EnableOk (writes : Writes) (ms : List (List Char)) : Prop :=
  writes.event → CommandOk "Reply-Text: +OK event listener enabled plain".toList EventsOk ms

/-- The request for the password, the reply to it, and what comes behind this. -/
def PasswordOk (writes : Writes) (next : List (List Char) → Prop) : List (List Char) → Prop
  | [] => True
  | m :: ms => m.length ≠ 1 ∧ LoginOk m ∧
      (firstToken m = authRequest → writes.password →
        CommandOk "Reply-Text: +OK accepted".toList next ms)

/-- Each message of the session that is looked at has what is looked for. -/
def SessionOk (writes : Writes) : List (List Char) → Prop :=
  PasswordOk writes (EnableOk writes)

/-! ## Tokens of a message -/

lemma Ended.suffix {m tail : List Char} (h : Ended m) (htail : tail <:+ m) : Ended tail := by
  obtain ⟨before, rfl⟩ := htail
  intro c hc
  refine h c ?_
  rw [List.getLast?_append, hc]
  rfl

lemma Ended.dropWhile_ne_nil {c : Char} {cs : List Char} (h : Ended (c :: cs)) :
    (c :: cs).dropWhile (fun c => !ends '\n' c) ≠ [] := by
  intro hnil
  have hd := List.getLast?_eq_some_getLast (List.cons_ne_nil c cs)
  have hstop := List.dropWhile_eq_nil_iff.1 hnil _ (List.getLast_mem (List.cons_ne_nil c cs))
  rw [h _ hd] at hstop
  cases hstop

/-- What `strtok_r` finds in the text at `s`: nothing up to the end of the memory, or no line before
a NUL, or the first line. -/
lemma strtok_ended {m : List Char} {s : ℕ} (h : Ended (m.drop s)) :
    ((¬ ∃ c ∈ m.drop s, c ≠ '\n') ∧ strtok '\n' m s = none) ∨
      (∃ c ∈ m.drop s, c ≠ '\n') ∧
        ((¬ LoginOk (m.drop s) ∧ firstToken (m.drop s) = [] ∧
            ∃ last, strtok '\n' m s = some (none, m, last)) ∨
          LoginOk (m.drop s) ∧ ∃ p m' last rest, strtok '\n' m s = some (some p, m', last) ∧
            m'.drop p = firstToken (m.drop s) ++ nul :: rest ∧ nul ∉ firstToken (m.drop s) ∧
            (m'.drop last = behindToken (m.drop s) ∨
              '\n' :: m'.drop last = behindToken (m.drop s))) := by
  have htoken : Tokenises '\n' m s := tokenises (by decide) m s
  unfold Tokenises nextToken at htoken
  unfold LoginOk firstToken behindToken
  cases hskip : (m.drop s).dropWhile (· == '\n') with
  | nil =>
    rw [hskip] at htoken
    refine .inl ⟨?_, htoken⟩
    rintro ⟨c, hc, hne⟩
    exact hne (by simpa using List.dropWhile_eq_nil_iff.1 hskip c hc)
  | cons c cs =>
    rw [hskip] at htoken
    have hsuffix : c :: cs <:+ m.drop s := hskip ▸ List.dropWhile_suffix _
    refine .inr ⟨⟨c, hsuffix.subset List.mem_cons_self, by simpa using not_of_dropWhile hskip⟩, ?_⟩
    by_cases hc : c = nul
    · subst hc
      simp only [if_true] at htoken
      obtain ⟨last, hstrtok, -⟩ := htoken
      refine .inl ⟨?_, rfl, last, hstrtok⟩
      rintro ⟨_, _, ⟨⟩, hne⟩
      exact hne rfl
    · simp only [if_neg hc] at htoken
      cases hrest : (c :: cs).dropWhile (fun c => !ends '\n' c) with
      | nil => exact ((h.suffix hsuffix).dropWhile_ne_nil hrest).elim
      | cons d rest =>
        rw [hrest] at htoken
        obtain ⟨p, m', last, rest', hstrtok, hlast, hp, hnul⟩ := htoken
        refine .inr ⟨⟨c, cs, rfl, hc⟩, p, m', last, rest', hstrtok, hp, hnul, ?_⟩
        rw [hlast]
        split_ifs with hd
        · exact .inl rfl
        · refine .inr ?_
          have hend : ends '\n' d = true := by simpa using not_of_dropWhile hrest
          have : d = '\n' := by simpa [ends, hd] using hend
          rw [this]

/-- The text behind the first line, whether its newline is still there or not. -/
lemma behind_cases {tail behind : List Char} (h : tail = behind ∨ '\n' :: tail = behind) :
    ((∃ c ∈ tail, c ≠ '\n') ↔ ∃ c ∈ behind, c ≠ '\n') ∧ firstToken tail = firstToken behind := by
  obtain rfl | rfl := h
  · exact ⟨Iff.rfl, rfl⟩
  · constructor
    · simp
    · rw [firstToken, firstToken, List.dropWhile_cons_of_pos (by simp)]

lemma behindToken_suffix (m : List Char) : behindToken m <:+ m :=
  (List.dropWhile_suffix _).trans (List.dropWhile_suffix _)

/-- **The checks of a reply** stay in its memory exactly if there is what they look for. -/
lemma replyAccepted_iff {m : List Char} (h : Ended m) {replyText : Text} (htext : nul ∉ replyText)
    (hne : replyText ≠ []) :
    (¬ ReplyOk m ∧ replyAccepted m replyText = none) ∨
      ReplyOk m ∧ ∃ accepted, replyAccepted m replyText = some accepted ∧
        (accepted = true ↔ Accepted m replyText) := by
  unfold ReplyOk Accepted replyAccepted
  obtain ⟨hall, hstrtok⟩ | ⟨hline, ⟨-, hfirst, last, hstrtok⟩ | ⟨-, p, m', last, rest, hstrtok,
    hp, hnul, hbehind⟩⟩ := strtok_ended (m := m) (s := 0) h
  · rw [hstrtok]
    exact .inl ⟨fun hok => hall hok.1, rfl⟩
  · have hnot : firstToken m ≠ commandReply := by
      have hfirst : firstToken m = [] := hfirst
      rw [hfirst]
      decide
    rw [hstrtok]
    exact .inr ⟨⟨hline, fun heq => (hnot heq).elim⟩, false, rfl, by simp [hnot]⟩
  have hcompare : strcmp m' p commandReply = some (decide (firstToken m = commandReply)) :=
    strcmp_of_drop hp hnul (by decide)
  rw [hstrtok]
  simp only [Option.bind_eq_bind, Option.bind_some, hcompare]
  by_cases hfirst : firstToken m = commandReply
  swap
  · rw [decide_eq_false hfirst]
    exact .inr ⟨⟨hline, fun heq => (hfirst heq).elim⟩, false, rfl, by simp [hfirst]⟩
  rw [decide_eq_true hfirst, if_pos rfl]
  obtain ⟨hlines, htokens⟩ := behind_cases hbehind
  have hended : Ended (m'.drop last) := by
    refine h.suffix (List.IsSuffix.trans ?_ (behindToken_suffix m))
    obtain heq | heq := hbehind
    · exact heq ▸ List.suffix_refl _
    · exact heq ▸ List.suffix_cons _ _
  obtain ⟨hall, hstrtok'⟩ | ⟨hline', ⟨-, hsecond, last', hstrtok'⟩ | ⟨-, p', m'', last', rest',
    hstrtok', hp', hnul', -⟩⟩ := strtok_ended hended
  · rw [hstrtok']
    exact .inl ⟨fun hok => hall (hlines.2 (hok.2 hfirst)), rfl⟩
  · rw [hstrtok']
    have hnil : firstToken (behindToken m) = [] := htokens.symm.trans hsecond
    refine .inr ⟨⟨hline, fun _ => hlines.1 hline'⟩, false, rfl, ?_⟩
    simp [hnil, hne.symm]
  · rw [hstrtok']
    refine .inr ⟨⟨hline, fun _ => hlines.1 hline'⟩, _, strcmp_of_drop hp' hnul' htext, ?_⟩
    simp [hfirst, htokens]

lemma headerValue_isSome {m rest : List Char} {p : ℕ} {line : Text}
    (h : m.drop p = line ++ nul :: rest) (header : Text) (hheader : nul ∉ header)
    (value : Option ℕ) :
    ∃ value', headerValue m p header value = some value' := by
  rw [headerValue, strncmp, h, startsWith_eq rest hheader]
  exact ⟨_, rfl⟩

/-- A NUL in the text at `s` is found by `strtok_r`, or left behind the line it finds. -/
lemma strtok_nul (m : List Char) (s : ℕ) :
    match strtok '\n' m s with
    | none => nul ∉ m.drop s
    | some (none, _) => nul ∈ m.drop s
    | some (some p, m', last) =>
      (nul ∈ m'.drop last ↔ nul ∈ m.drop s) ∧ ∃ line rest, m'.drop p = line ++ nul :: rest := by
  have htoken : Tokenises '\n' m s := tokenises (by decide) m s
  have hnul := nextToken_nul (show '\n' ≠ nul by decide) (m.drop s)
  unfold Tokenises at htoken
  match hnext : nextToken '\n' (m.drop s) with
  | none =>
    rw [hnext] at htoken hnul
    rw [htoken]
    exact hnul
  | some (none, tail) =>
    rw [hnext] at htoken hnul
    obtain ⟨last, hstrtok, -⟩ := htoken
    rw [hstrtok]
    exact hnul
  | some (some token, tail) =>
    rw [hnext] at htoken hnul
    obtain ⟨p, m', last, rest, hstrtok, rfl, hp, -⟩ := htoken
    rw [hstrtok]
    exact ⟨hnul, token, rest, hp⟩

/-- **The loop over the lines** ends at a NUL, and reads outside of the memory if there is none. -/
lemma mwiLines_isSome_iff (m : List Char) (s : ℕ) (ma mw : Option ℕ) :
    (mwiLines m s ma mw).isSome ↔ nul ∈ m.drop s := by
  fun_induction mwiLines m s ma mw with
  | case1 m s ma mw hstrtok =>
    have hnul := strtok_nul m s
    rw [hstrtok] at hnul
    simpa using hnul
  | case2 m s ma mw m' last hstrtok =>
    have hnul := strtok_nul m s
    rw [hstrtok] at hnul
    simpa using hnul
  | case3 m s ma mw p m' last hstrtok ih =>
    have hnul := strtok_nul m s
    rw [hstrtok] at hnul
    obtain ⟨hnul, line, rest, hp⟩ := hnul
    obtain ⟨mw', hmw⟩ := headerValue_isSome hp "MWI-Messages-Waiting: ".toList (by decide) mw
    obtain ⟨ma', hma⟩ := headerValue_isSome hp "MWI-Message-Account: ".toList (by decide) ma
    rw [hmw, hma, Option.bind_some, Option.bind_some, ih, hnul]

/-! ## The messages of a session -/

lemma ended_append (before : List Char) (c : Char) {d : Char} (h : ends '\n' d = true) :
    Ended (before ++ [c, d]) := by
  intro x hx
  rw [List.getLast?_append] at hx
  cases hx
  exact h

lemma nextMessage_ended {bytes m rest : List Char} (h : nextMessage bytes = some (m, rest))
    (hlength : m.length ≠ 1) : Ended m := by
  have hreply : ∀ first second rest', nextReply first second rest' = some (m, rest) → Ended m := by
    intro first second rest' hreply
    unfold nextReply at hreply
    split_ifs at hreply <;>
    · obtain ⟨_, _, heq⟩ := Option.map_eq_some_iff.1 hreply
      cases heq
      exact ended_append _ _ rfl
  have hevent : ∀ cl second rest', nextEvent cl second rest' = some (m, rest) → Ended m := by
    intro cl second rest' hevent
    unfold nextEvent at hevent
    split_ifs at hevent with hcl
    obtain ⟨rest'', -, hbody⟩ := Option.bind_eq_some_iff.1 hevent
    unfold nextBody at hbody
    split_ifs at hbody with hand
    obtain ⟨hlong, hor⟩ := hand
    cases hbody
    rw [List.length_take, Nat.min_eq_left hlong] at hlength
    obtain ⟨before, hbefore⟩ := hor.resolve_left hlength
    rw [← hbefore]
    exact ended_append _ _ rfl
  simp only [nextMessage, Option.bind_eq_bind, Option.bind_eq_some_iff] at h
  obtain ⟨⟨first, rest₁⟩, -, ⟨second, rest₂⟩, -, h⟩ := h
  split_ifs at h
  · exact hevent _ _ _ h
  · exact hreply _ _ _ h

/-- A call of `retrieve_message` returns the next of the messages. -/
lemma retrieveMessage_messages {fd : Fd} {bytes : List Char} (h : Delivers fd bytes) (calls : ℕ) :
    match messages calls bytes with
    | [] => ∃ fd', retrieveMessage (calls = 0) fd = some (none, fd')
    | m :: ms =>
      (m.length = 1 ∧ retrieveMessage (calls = 0) fd = none) ∨
        m.length ≠ 1 ∧ Ended m ∧ ∃ fd' rest,
          retrieveMessage (calls = 0) fd = some (some m, fd') ∧ Delivers fd' rest ∧
            ms = messages (calls - 1) rest := by
  cases calls with
  | zero => exact ⟨fd, rfl⟩
  | succ calls =>
    have hnext := retrieveMessage_next h
    rw [messages]
    match hmessage : nextMessage bytes with
    | none =>
      rw [hmessage] at hnext
      exact hnext
    | some (m, rest) =>
      rw [hmessage] at hnext
      by_cases hlength : m.length = 1
      · rw [Returns, if_pos hlength] at hnext
        exact .inl ⟨hlength, hnext⟩
      · rw [Returns, if_neg hlength] at hnext
        obtain ⟨fd', hretrieve, hfd'⟩ := hnext
        exact .inr ⟨hlength, nextMessage_ended hmessage hlength, fd', rest, hretrieve, hfd', rfl⟩

lemma mwiEvents_isSome_iff (calls : ℕ) :
    ∀ {fd : Fd} {bytes : List Char}, Delivers fd bytes →
      ((mwiEvents calls fd).isSome ↔ EventsOk (messages calls bytes)) := by
  induction calls with
  | zero => simp [mwiEvents, messages, EventsOk]
  | succ calls ih =>
    intro fd bytes h
    have hcall := retrieveMessage_messages h (calls + 1)
    rw [mwiEvents]
    cases hmessages : messages (calls + 1) bytes with
    | nil =>
      rw [hmessages] at hcall
      obtain ⟨fd', hretrieve⟩ := hcall
      have hretrieve : retrieveMessage false fd = some (none, fd') := hretrieve
      rw [hretrieve]
      simp [EventsOk]
    | cons m ms =>
      rw [hmessages] at hcall
      obtain ⟨hlength, hretrieve⟩ | ⟨hlength, -, fd', rest, hretrieve, hfd', rfl⟩ := hcall
      · have hretrieve : retrieveMessage false fd = none := hretrieve
        rw [hretrieve]
        simp [EventsOk, hlength]
      · have hretrieve : retrieveMessage false fd = some (some m, fd') := hretrieve
        have hlines := mwiLines_isSome_iff m 0 none none
        rw [hretrieve]
        unfold EventsOk
        rw [List.forall_mem_cons]
        cases hresult : mwiLines m 0 none none with
        | none =>
          rw [hresult] at hlines
          have hnul : nul ∉ m := by simpa using hlines
          simp [hresult, hnul]
        | some result =>
          rw [hresult] at hlines
          have hnul : nul ∈ m := by simpa using hlines
          simp only [hresult, Option.bind_eq_bind, Option.bind_some, hlength, hnul, ne_eq,
            not_false_eq_true, and_self, true_and]
          exact ih hfd'

/-- A command whose reply is accepted is followed by what `rest` does. -/
lemma commandAccepted_isSome_iff {replyText : Text} (htext : nul ∉ replyText)
    (hne : replyText ≠ []) {calls : ℕ} {fd : Fd} {bytes : List Char} (h : Delivers fd bytes)
    {rest : Fd → Option Unit} {next : List (List Char) → Prop}
    (hrest : ∀ fd' bytes', Delivers fd' bytes' →
      ((rest fd').isSome ↔ next (messages (calls - 1) bytes'))) :
    ((commandAccepted replyText calls fd).bind fun result =>
        if result.1 then rest result.2 else some ()).isSome ↔
      CommandOk replyText next (messages calls bytes) := by
  have hcall := retrieveMessage_messages h calls
  unfold commandAccepted
  cases hmessages : messages calls bytes with
  | nil =>
    rw [hmessages] at hcall
    obtain ⟨fd', hretrieve⟩ := hcall
    rw [hretrieve]
    simp [CommandOk]
  | cons m ms =>
    rw [hmessages] at hcall
    obtain ⟨hlength, hretrieve⟩ | ⟨hlength, hended, fd', bytes', hretrieve, hfd', rfl⟩ := hcall
    · rw [hretrieve]
      simp [CommandOk, hlength]
    · rw [hretrieve]
      obtain ⟨hnot, hreply⟩ | ⟨hok, accepted, hreply, haccepted⟩ :=
        replyAccepted_iff hended htext hne
      · simp [CommandOk, hnot, hreply]
      · cases accepted with
        | false =>
          have hno : ¬ Accepted m replyText := fun hacc => by simpa using haccepted.2 hacc
          simp [CommandOk, hreply, hlength, hok, hno]
        | true =>
          have hacc : Accepted m replyText := haccepted.1 rfl
          simpa [CommandOk, hreply, hlength, hok, hacc] using hrest fd' bytes' hfd'

lemma enableMwiEvent_isSome_iff (writes : Writes) (calls : ℕ) {fd : Fd} {bytes : List Char}
    (h : Delivers fd bytes) :
    ((enableMwiEvent writes calls fd).bind fun result =>
        if result.1 then mwiEvents (calls - 1) result.2 else some ()).isSome ↔
      EnableOk writes (messages calls bytes) := by
  unfold enableMwiEvent EnableOk
  cases hwrite : writes.event with
  | false => simp
  | true =>
    rw [if_pos rfl, commandAccepted_isSome_iff (by decide) (by decide) h
      fun fd' bytes' h' => mwiEvents_isSome_iff (calls - 1) h']
    simp

lemma sendPassword_isSome_iff (writes : Writes) (calls : ℕ) {fd : Fd} {bytes : List Char}
    (h : Delivers fd bytes) {rest : Fd → Option Unit} {next : List (List Char) → Prop}
    (hrest : ∀ fd' bytes', Delivers fd' bytes' →
      ((rest fd').isSome ↔ next (messages (calls - 2) bytes'))) :
    ((sendPassword writes calls fd).bind fun result =>
        if result.1 then rest result.2 else some ()).isSome ↔
      PasswordOk writes next (messages calls bytes) := by
  have hcall := retrieveMessage_messages h calls
  unfold sendPassword
  cases hmessages : messages calls bytes with
  | nil =>
    rw [hmessages] at hcall
    obtain ⟨fd', hretrieve⟩ := hcall
    rw [hretrieve]
    exact ⟨fun _ => trivial, fun _ => rfl⟩
  | cons m ms =>
    rw [hmessages] at hcall
    obtain ⟨hlength, hretrieve⟩ | ⟨hlength, hended, fd', bytes', hretrieve, hfd', rfl⟩ := hcall
    · rw [hretrieve]
      exact ⟨Bool.noConfusion, fun hand => (hand.1 hlength).elim⟩
    rw [hretrieve]
    simp only [Option.bind_eq_bind, Option.bind_some, PasswordOk, hlength, ne_eq, not_false_eq_true,
      true_and]
    obtain ⟨hall, hstrtok⟩ | ⟨-, ⟨hlogin, -, last, hstrtok⟩ | ⟨hlogin, p, m', last, rest', hstrtok,
      hp, hnul, -⟩⟩ := strtok_ended (m := m) (s := 0) hended
    · have hlogin : ¬ LoginOk m := by
        rintro ⟨c, cs, hskip, -⟩
        have hmem : c ∈ m := (List.dropWhile_suffix _).subset (hskip ▸ List.mem_cons_self)
        exact hall ⟨c, hmem, by simpa using not_of_dropWhile hskip⟩
      rw [hstrtok]
      exact ⟨Bool.noConfusion, fun hand => (hlogin hand.1).elim⟩
    · have hlogin : ¬ LoginOk m := hlogin
      rw [hstrtok]
      exact ⟨Bool.noConfusion, fun hand => (hlogin hand.1).elim⟩
    · have hlogin : LoginOk m := hlogin
      have hcompare : strcmp m' p authRequest = some (decide (firstToken m = authRequest)) :=
        strcmp_of_drop hp hnul (by decide)
      simp only [hstrtok, Option.bind_some, hcompare, hlogin, true_and]
      by_cases hfirst : firstToken m = authRequest
      swap
      · rw [decide_eq_false hfirst]
        exact ⟨fun _ heq => (hfirst heq).elim, fun _ => rfl⟩
      rw [decide_eq_true hfirst, if_pos rfl]
      cases hwrite : writes.password with
      | false => exact ⟨fun _ _ hwrite => Bool.noConfusion hwrite, fun _ => rfl⟩
      | true =>
        have hcommand : ((commandAccepted "Reply-Text: +OK accepted".toList (calls - 1) fd').bind
            fun result => if result.1 then rest result.2 else some ()).isSome ↔ _ :=
          commandAccepted_isSome_iff (by decide) (by decide) hfd' hrest
        rw [if_pos rfl, hcommand]
        exact ⟨fun hok _ _ => hok, fun hok => hok hfirst rfl⟩

/-- **A session stays in its buffers** exactly if each of its messages has what is looked for in
it, whatever the service sends and however the reads split it. -/
theorem session_contained_iff (writes : Writes) (calls : ℕ) (bytes : List Char)
    (arrivals : List ℕ) :
    (session writes calls ⟨bytes, arrivals.map some⟩).isSome ↔
      SessionOk writes (messages calls bytes) :=
  sendPassword_isSome_iff writes calls (delivers_arrivals bytes arrivals)
    fun _ _ h => enableMwiEvent_isSome_iff writes (calls - 2) h

/-- A mailbox of the extension 100 has new messages. -/
def mwiEvent : Text := "MWI-Messages-Waiting: yes\nMWI-Message-Account: 100@pbx\n\n".toList

/-- A login, and this event. -/
def mwiStream : List Char :=
  "Content-Type: auth/request\n\n".toList ++
  "Content-Type: command/reply\nReply-Text: +OK accepted\n\n".toList ++
  "Content-Type: command/reply\nReply-Text: +OK event listener enabled plain\n\n".toList ++
  "Content-Length: 56\nContent-Type: text/event-plain\n\n".toList ++ mwiEvent

/-- The lines of the event are looked for behind the end of its memory. -/
theorem mwiEvent_not_contained :
    ¬ ∀ (writes : Writes) (calls : ℕ) (bytes : List Char) (arrivals : List ℕ),
      (session writes calls ⟨bytes, arrivals.map some⟩).isSome := by
  intro h
  have hmessages : messages 4 mwiStream =
      ["Content-Type: auth/request\n\n\x00".toList,
        "Content-Type: command/reply\nReply-Text: +OK accepted\n\x00".toList,
        "Content-Type: command/reply\nReply-Text: +OK event listener enabled plain\n\x00".toList,
        mwiEvent] := by decide +kernel
  have hok := (sendPassword_isSome_iff ⟨true, true⟩ 4 (delivers_arrivals mwiStream [])
    fun _ _ h => enableMwiEvent_isSome_iff ⟨true, true⟩ 2 h).1 (h ⟨true, true⟩ 4 mwiStream [])
  rw [hmessages] at hok
  have henable := (hok.2.2 (by decide) rfl).2.2 ⟨by decide, by decide⟩
  have hevents := (henable rfl).2.2 ⟨by decide, by decide⟩
  exact absurd (hevents mwiEvent List.mem_cons_self).2 (by decide)

end FreeswitchContrib.S25Vmail

import FreeswitchContrib.S25Vmail.Messages

/-!
# The framing of messages

The bytes of well-formed messages are these messages again, one for each call, as long as the
lengths of the events fit into an `int`.
-/

namespace FreeswitchContrib.S25Vmail

open CString

/-! ## What the service sends -/

/-- A header line, of which the returns at the end do not belong to the text. -/
structure HeaderLine where
  text : Text
  returns : ℕ
  no_newline : '\n' ∉ text
  no_nul : nul ∉ text
  stripped : text.getLast? ≠ some '\r'
  short : text.length + returns < 64

def HeaderLine.wire (line : HeaderLine) : List Char :=
  line.text ++ List.replicate line.returns '\r' ++ ['\n']

/-- A well-formed message.  The second line of a reply may be the empty line that ends it; the
event has a body of `content` and two newlines. -/
inductive Message where
  | reply (first second : HeaderLine) (type : Text)
      (known : type ∈ replyTypes)
      (typed : first.text = contentType ++ type)
  | event (first second : HeaderLine) (digits content : Text)
      (length : Numeral.decimal digits = some (content.length + 2))
      (measured : first.text = contentLength ++ digits)
      (typed : second.text = contentType ++ "text/event-plain".toList)

namespace Message

def wire : Message → List Char
  | reply first second _ _ _ =>
    first.wire ++ (second.wire ++ if second.text = [] then [] else ['\n'])
  | event first second _ content _ _ _ =>
    first.wire ++ (second.wire ++ '\n' :: (content ++ ['\n', '\n']))

/-- The message as it is returned: the lines of a reply, or the body of an event. -/
def memory : Message → List Char
  | reply first second _ _ _ => first.text ++ '\n' :: second.text ++ ['\n', nul]
  | event _ _ _ content _ _ _ => content ++ ['\n', '\n']

/-- The length of an event is an `int`. -/
def Fits : Message → Prop
  | reply _ _ _ _ _ => True
  | event _ _ _ content _ _ _ => content.length + 2 ≤ 2147483647

end Message

lemma rdropWhile_returns {text : Text} (h : text.getLast? ≠ some '\r') (returns : ℕ) :
    (text ++ List.replicate returns '\r').rdropWhile (· = '\r') = text := by
  induction returns with
  | zero =>
    rw [List.replicate_zero, List.append_nil, List.rdropWhile_eq_self_iff]
    intro hne hlast
    rw [List.getLast?_eq_getLast_of_ne_nil hne] at h
    simp only [decide_eq_true_eq] at hlast
    exact h (congrArg some hlast)
  | succ returns ih =>
    rw [List.replicate_succ', ← List.append_assoc, List.rdropWhile_concat_pos _ _ _ (by simp), ih]

lemma nextLine_wire (line : HeaderLine) (rest : List Char) :
    nextLine (line.wire ++ rest) = some (line.text, rest) := by
  have hnew : ∀ c ∈ line.text ++ List.replicate line.returns '\r', c ≠ '\n' := by
    rintro c hc rfl
    simp [line.no_newline] at hc
  have hwire : line.wire ++ rest =
      (line.text ++ List.replicate line.returns '\r') ++ '\n' :: rest := by
    simp [HeaderLine.wire]
  have hshort : (line.text ++ List.replicate line.returns '\r').length < 64 := by
    simpa using line.short
  have hnul : ∀ c ∈ line.text, c ≠ nul := by
    rintro c hc rfl
    exact line.no_nul hc
  have htake : ((line.text ++ List.replicate line.returns '\r') ++ '\n' :: rest).takeWhile
      (· ≠ '\n') = line.text ++ List.replicate line.returns '\r' := by
    rw [List.takeWhile_append_of_pos (by simpa using hnew)]
    simp
  have hdrop : ((line.text ++ List.replicate line.returns '\r') ++ '\n' :: rest).dropWhile
      (· ≠ '\n') = '\n' :: rest := by
    rw [List.dropWhile_append_of_pos (by simpa using hnew)]
    simp
  rw [nextLine, hwire, hdrop]
  dsimp only
  rw [htake, if_pos hshort, rdropWhile_returns line.stripped,
    List.takeWhile_eq_self_iff.2 (by simpa using hnul)]

lemma nextMessage_wire {message : Message} (hfits : message.Fits) (rest : List Char) :
    nextMessage (message.wire ++ rest) = some (message.memory, rest) := by
  cases message with
  | reply first second type known typed =>
    have hkind : contentLength.isPrefixOf first.text = false := by
      rw [typed]
      rfl
    have htyped : S25Vmail.typed first.text replyTypes = true := by
      rw [S25Vmail.typed, typed, List.drop_left, decide_eq_true known, Bool.and_true]
      simp
    rw [Message.wire, List.append_assoc, List.append_assoc, nextMessage]
    simp only [nextLine_wire, Option.bind_eq_bind, Option.bind_some, hkind, Bool.false_eq_true,
      if_false, nextReply, htyped, if_true]
    by_cases hsecond : second.text = []
    · simp [hsecond, Message.memory]
    · simp [hsecond, Message.memory, nextNewline]
  | event first second digits content length measured typed =>
    have hfits : content.length + 2 ≤ 2147483647 := hfits
    have hkind : contentLength.isPrefixOf first.text = true := by
      rw [measured]
      simp
    have htyped : S25Vmail.typed second.text eventTypes = true := by
      rw [S25Vmail.typed, typed, List.drop_left]
      decide
    have hcl : atoi (first.text.drop contentLength.length) = ((content.length + 2 : ℕ) : ℤ) := by
      rw [measured, List.drop_left]
      exact atoi_of_decimal length hfits
    have hlength : (content ++ ['\n', '\n']).length = content.length + 2 := by simp
    have hbody : nextBody (content.length + 2) (content ++ ['\n', '\n'] ++ rest) =
        some (content ++ ['\n', '\n'], rest) := by
      rw [nextBody, ← hlength, List.take_left, List.drop_left,
        if_pos ⟨by simp, .inr (List.suffix_append _ _)⟩]
    rw [Message.wire, List.append_assoc, List.append_assoc, nextMessage]
    simp only [nextLine_wire, Option.bind_eq_bind, Option.bind_some, hkind, if_true, nextEvent,
      hcl, htyped, List.cons_append, nextNewline, Int.toNat_natCast, hbody, Message.memory]
    rw [if_pos ⟨by omega, trivial⟩]

/-- **One call returns one message** and leaves what is behind it. -/
lemma retrieveMessage_wire {message : Message} (hfits : message.Fits) {fd : Fd} {rest : List Char}
    (h : Delivers fd (message.wire ++ rest)) :
    ∃ fd', retrieveMessage false fd = some (some message.memory, fd') ∧ Delivers fd' rest := by
  have hnext := retrieveMessage_next h
  have hlength : message.memory.length ≠ 1 := by
    cases message <;> simp only [Message.memory, List.length_append, List.length_cons] <;> omega
  rwa [nextMessage_wire hfits, Returns, if_neg hlength] at hnext

/-! ## Streams -/

/-- Successive calls, while the server is not shut down. -/
def retrieveMessages : ℕ → Fd → Option (List (Option (List Char)) × Fd)
  | 0, fd => some ([], fd)
  | count + 1, fd => do
    let (m, fd) ← retrieveMessage false fd
    let (ms, fd) ← retrieveMessages count fd
    return (m :: ms, fd)

lemma retrieveMessages_append (count : ℕ) :
    ∀ (more : ℕ) (fd : Fd), retrieveMessages (count + more) fd = do
      let (first, fd) ← retrieveMessages count fd
      let (second, fd) ← retrieveMessages more fd
      return (first ++ second, fd) := by
  induction count with
  | zero =>
    intro more fd
    rw [Nat.zero_add]
    show retrieveMessages more fd = (retrieveMessages more fd).bind fun second => some second
    cases retrieveMessages more fd <;> rfl
  | succ count ih =>
    intro more fd
    rw [Nat.add_right_comm, retrieveMessages, retrieveMessages]
    cases retrieveMessage false fd with
    | none => rfl
    | some first =>
      simp only [Option.bind_eq_bind, Option.bind_some, ih, Option.bind_assoc]
      rfl

lemma retrieveMessages_messages (messages : List Message) (hfits : ∀ m ∈ messages, m.Fits) :
    ∀ {fd : Fd} {rest : List Char}, Delivers fd (messages.flatMap Message.wire ++ rest) →
      ∃ fd', retrieveMessages messages.length fd =
          some (messages.map fun m => some m.memory, fd') ∧ Delivers fd' rest := by
  induction messages with
  | nil => exact fun {fd _} h => ⟨fd, rfl, h⟩
  | cons message messages ih =>
    intro fd rest h
    rw [List.flatMap_cons, List.append_assoc] at h
    obtain ⟨fd₁, hmessage, h₁⟩ := retrieveMessage_wire (hfits message List.mem_cons_self) h
    obtain ⟨fd', hmessages, h'⟩ := ih (fun m hm => hfits m (List.mem_cons_of_mem _ hm)) h₁
    refine ⟨fd', ?_, h'⟩
    simp only [List.length_cons, retrieveMessages, hmessage, hmessages, Option.bind_eq_bind,
      Option.bind_some, List.map_cons]
    rfl

/-- There is no message at the end of the stream. -/
lemma retrieveMessage_nil {fd : Fd} (h : Delivers fd []) :
    ∃ fd', retrieveMessage false fd = some (none, fd') ∧ Delivers fd' [] := by
  obtain ⟨k, fd', -, -, hread, hfd'⟩ := h.read 1 Nat.one_pos
  rw [List.take_nil] at hread
  rw [List.drop_nil] at hfd'
  refine ⟨fd', ?_, hfd'⟩
  simp only [retrieveMessage, Bool.false_eq_true, if_false, readLine, readLineFrom, hread,
    List.isEmpty_nil, if_true]

lemma retrieveMessages_nil (count : ℕ) :
    ∀ {fd : Fd}, Delivers fd [] →
      ∃ fd', retrieveMessages count fd = some (List.replicate count none, fd') ∧
        Delivers fd' [] := by
  induction count with
  | zero => exact fun {fd} h => ⟨fd, rfl, h⟩
  | succ count ih =>
    intro fd h
    obtain ⟨fd₁, hmessage, h₁⟩ := retrieveMessage_nil h
    obtain ⟨fd', hmessages, h'⟩ := ih h₁
    refine ⟨fd', ?_, h'⟩
    simp only [retrieveMessages, hmessage, hmessages, Option.bind_eq_bind, Option.bind_some]
    rfl

/-- **Successive calls return the messages** that the service sends, in their order and however the
reads split them: as many calls as there are messages leave what is behind these, and at the end of
the stream there is none. -/
theorem retrieveMessages_wire (messages : List Message) (hfits : ∀ m ∈ messages, m.Fits)
    (arrivals : List ℕ) :
    (∀ rest, ∃ fd', retrieveMessages messages.length
        ⟨messages.flatMap Message.wire ++ rest, arrivals.map some⟩ =
          some (messages.map fun m => some m.memory, fd') ∧ fd'.bytes = rest) ∧
      ∀ more, ∃ fd', retrieveMessages (messages.length + more)
        ⟨messages.flatMap Message.wire, arrivals.map some⟩ =
          some ((messages.map fun m => some m.memory) ++ List.replicate more none, fd') ∧
        fd'.bytes = [] := by
  constructor
  · intro rest
    obtain ⟨fd', heq, h'⟩ := retrieveMessages_messages messages hfits (delivers_arrivals _ arrivals)
    exact ⟨fd', heq, h'.bytes⟩
  · intro more
    have h := delivers_arrivals (messages.flatMap Message.wire) arrivals
    rw [← List.append_nil (messages.flatMap Message.wire)] at h
    obtain ⟨fd₁, heq₁, h₁⟩ := retrieveMessages_messages messages hfits h
    rw [List.append_nil] at heq₁
    obtain ⟨fd', heq', h'⟩ := retrieveMessages_nil more h₁
    refine ⟨fd', ?_, h'.bytes⟩
    rw [retrieveMessages_append, heq₁]
    simp only [Option.bind_eq_bind, Option.bind_some, heq']
    rfl

/-- A line without returns. -/
def plainLine (text : Text) (no_newline : '\n' ∉ text) (no_nul : nul ∉ text)
    (stripped : text.getLast? ≠ some '\r') (short : text.length < 64) : HeaderLine :=
  ⟨text, 0, no_newline, no_nul, stripped, short⟩

/-- The reply to a login, with its second line. -/
def acceptedReply : Message :=
  .reply (plainLine "Content-Type: command/reply".toList (by decide) (by decide) (by decide)
      (by decide))
    (plainLine "Reply-Text: +OK accepted".toList (by decide) (by decide) (by decide) (by decide))
    "command/reply".toList (by decide) rfl

theorem retrieveMessages_wire_reply :
    ∃ fd', retrieveMessages 1 ⟨acceptedReply.wire ++ ['C'], [5, 1].map some⟩ =
      some ([some "Content-Type: command/reply\nReply-Text: +OK accepted\n\x00".toList], fd') ∧
        fd'.bytes = ['C'] := by
  have hfits : ∀ m ∈ [acceptedReply], m.Fits := by
    intro m hm
    rw [List.mem_singleton.1 hm]
    trivial
  exact (retrieveMessages_wire [acceptedReply] hfits [5, 1]).1 ['C']

def eventLine : HeaderLine :=
  plainLine "Content-Type: text/event-plain".toList (by decide) (by decide) (by decide) (by decide)

def longLength : HeaderLine :=
  plainLine "Content-Length: 2147483648".toList (by decide) (by decide) (by decide) (by decide)

/-- An event whose length is one more than an `int` holds. -/
def longEvent : Message :=
  .event longLength eventLine "2147483648".toList (List.replicate 2147483646 'a')
    (by rw [List.length_replicate]; decide) rfl rfl

lemma retrieveMessage_longEvent {fd : Fd} (h : Delivers fd longEvent.wire) :
    ∃ fd', retrieveMessage false fd = some (none, fd') := by
  have hwire : longEvent.wire = longLength.wire ++ (eventLine.wire ++
      '\n' :: (List.replicate 2147483646 'a' ++ ['\n', '\n'])) := rfl
  have hkind : contentLength.isPrefixOf longLength.text = true := by decide
  have hcl : ¬ 0 < atoi (longLength.text.drop contentLength.length) := by decide
  have hnext : nextMessage longEvent.wire = none := by
    rw [hwire, nextMessage]
    simp only [nextLine_wire, Option.bind_eq_bind, Option.bind_some, hkind, if_true, nextEvent]
    rw [if_neg fun hand => hcl hand.1]
  have hreturns := retrieveMessage_next h
  rwa [hnext] at hreturns

/-- The length is read as a negative number, and no message is returned. -/
theorem retrieveMessages_longEvent :
    ¬ ∀ (messages : List Message) (arrivals : List ℕ),
      (∀ rest, ∃ fd', retrieveMessages messages.length
          ⟨messages.flatMap Message.wire ++ rest, arrivals.map some⟩ =
            some (messages.map fun m => some m.memory, fd') ∧ fd'.bytes = rest) ∧
        ∀ more, ∃ fd', retrieveMessages (messages.length + more)
          ⟨messages.flatMap Message.wire, arrivals.map some⟩ =
            some ((messages.map fun m => some m.memory) ++ List.replicate more none, fd') ∧
          fd'.bytes = [] := by
  intro h
  obtain ⟨fd', heq, -⟩ := (h [longEvent] []).2 0
  have hwire : [longEvent].flatMap Message.wire = longEvent.wire := by
    rw [List.flatMap_singleton]
  rw [hwire] at heq
  obtain ⟨fd'', hnone⟩ := retrieveMessage_longEvent (delivers_arrivals longEvent.wire [])
  simp only [List.length_singleton, Nat.add_zero, retrieveMessages, hnone, Option.bind_eq_bind,
    Option.bind_some] at heq
  cases heq

end FreeswitchContrib.S25Vmail

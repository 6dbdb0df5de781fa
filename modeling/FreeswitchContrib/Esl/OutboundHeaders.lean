import FreeswitchContrib.Esl.FrameDecoding

/-!
# The header lines of an outbound connection

A decoder with `treatUnknownHeadersAsBody` takes a header line whose name is unknown as a line of the
body.  It then adds the line to the headers all the same, with the name that it has not found.

* `headers_readLines`: what the header lines of a message leave in the map and in the body.
* `decodesHeaders_iff`: the map has no other key if and only if no line has an unknown name.
-/

namespace FreeswitchContrib.Esl

open Replaying Replaying.Run Replaying.Decoder

/-! ## Messages as they are sent -/

/-- A line `Name: value`.  The value may have whitespace around it, which does not belong to it. -/
structure HeaderLine where
  name : List UInt8
  value : List UInt8
  nonempty : name ≠ []
  name_byte : ∀ b ∈ name, inHeaderName (charOfByte b) = true
  oneLine : LF ∉ value

namespace HeaderLine

def line (h : HeaderLine) : List UInt8 :=
  h.name ++ 58 :: 32 :: h.value

def bytes (h : HeaderLine) : List UInt8 :=
  h.line ++ [LF]

def text (h : HeaderLine) : List Char :=
  h.line.map charOfByte

/-- The name, if `EslHeaders` has it. -/
def known (h : HeaderLine) : Option Name :=
  Name.fromLiteral (h.name.map charOfByte)

def content (h : HeaderLine) : List Char :=
  trim (h.value.map charOfByte)

end HeaderLine

/-- The value of the last line with this name. -/
def lastValue (hs : List HeaderLine) (name : Name) : Option (List Char) :=
  (hs.reverse.find? fun h => h.known = some name).map HeaderLine.content

def unknownLines (hs : List HeaderLine) : List (List Char) :=
  (hs.filter fun h => h.known = none).map HeaderLine.text

/-- The body is as long as the last content length says. -/
structure OutboundMessage (maxHeaderSize : ℕ) where
  headers : List HeaderLine
  body : List UInt8
  fits : ∀ h ∈ headers, h.line.length ≤ maxHeaderSize
  framed : match lastValue headers .contentLength with
    | some value => integerValueOf value = some (body.length : ℤ)
    | none => body = []

namespace OutboundMessage

variable {maxHeaderSize : ℕ}

def bytes (M : OutboundMessage maxHeaderSize) : List UInt8 :=
  M.headers.flatMap HeaderLine.bytes ++ LF :: M.body

/-- Everything is there for the message to be decoded: a body is read by another call, and there is
one only if there are bytes. -/
def Complete (M : OutboundMessage maxHeaderSize) (rest : List UInt8) : Prop :=
  (lastValue M.headers .contentLength).isSome → M.body ++ rest ≠ []

/-- The header lines are told apart by their names. -/
structure Separates (M : OutboundMessage maxHeaderSize) (m : EslMessage) : Prop where
  known : ∀ name : Name, m.headers (some name) = lastValue M.headers name
  noOtherKey : m.headers none = none
  unknown : unknownLines M.headers <+: m.body

end OutboundMessage

/-- The message is decoded so, whatever follows it and however the bytes are cut. -/
def EslFrameDecoder.DecodesHeaders (d : EslFrameDecoder) (M : OutboundMessage d.maxHeaderSize) :
    Prop :=
  ∀ (rest : List UInt8) (chunks : List (List UInt8)), M.Complete rest →
    chunks.flatten = M.bytes ++ rest →
      ∃ m, (d.decoder.receiveAll .initial [] chunks).emitted.head? = some m ∧ M.Separates m

variable {d : EslFrameDecoder} {M : OutboundMessage d.maxHeaderSize} {h : HeaderLine}
  {hs : List HeaderLine} {m : EslMessage} {rest : List UInt8} {n : ℕ}

/-! ## Header lines -/

lemma HeaderLine.LF_notMem_line (h : HeaderLine) : LF ∉ h.line := by
  rw [HeaderLine.line, List.mem_append, List.mem_cons, List.mem_cons]
  rintro (hname | hcolon | hspace | hvalue)
  · exact absurd (h.name_byte LF hname) (by decide)
  · exact absurd hcolon (by decide)
  · exact absurd hspace (by decide)
  · exact h.oneLine hvalue

lemma HeaderLine.text_eq (h : HeaderLine) :
    h.text = h.name.map charOfByte ++ ':' :: ' ' :: h.value.map charOfByte := by
  rw [HeaderLine.text, HeaderLine.line, List.map_append, List.map_cons, List.map_cons]
  rfl

lemma HeaderLine.splitHeader_text (h : HeaderLine) :
    splitHeader h.text = (h.name.map charOfByte, h.content) := by
  rw [h.text_eq]
  refine splitHeader_nameValue (fun c hc => ?_) _
  obtain ⟨b, hb, rfl⟩ := List.mem_map.mp hc
  exact h.name_byte b hb

/-- What a header line adds to the message. -/
def addLine (m : EslMessage) (h : HeaderLine) : EslMessage :=
  match h.known with
  | some name => m.addHeader name h.content
  | none => (m.addBodyLine h.text).addHeader none h.content

lemma readHeaders_line (hunknown : d.treatUnknownHeadersAsBody = true) (m : EslMessage)
    (hfits : h.line.length ≤ d.maxHeaderSize) (rest : List UInt8) :
    d.readHeaders m (h.bytes ++ rest) = d.readHeaders (addLine m h) rest := by
  have hline : readToLineFeedOrFail d.maxHeaderSize [] (h.bytes ++ rest) = .line h.text rest := by
    rw [HeaderLine.bytes, List.append_assoc, readToLineFeedOrFail_bytes d.maxHeaderSize _ h.line []
      h.LF_notMem_line (by simpa using hfits)]
    rfl
  have hempty : h.text.isEmpty = false := by
    rw [h.text_eq, List.isEmpty_eq_false_iff]
    exact List.append_ne_nil_of_right_ne_nil _ (List.cons_ne_nil _ _)
  have hadd : d.addHeaderLine m h.text = .ok (addLine m h) := by
    rw [EslFrameDecoder.addHeaderLine, h.splitHeader_text, addLine, HeaderLine.known]
    cases Name.fromLiteral (h.name.map charOfByte) with
    | some name => rfl
    | none => simp only [hunknown, if_true]
  rw [EslFrameDecoder.readHeaders_eq, hline]
  simp only [hempty, Bool.false_eq_true, if_false, hadd]

lemma readHeaders_lines (hunknown : d.treatUnknownHeadersAsBody = true) (rest : List UInt8) :
    ∀ (hs : List HeaderLine) (m : EslMessage), (∀ h ∈ hs, h.line.length ≤ d.maxHeaderSize) →
      d.readHeaders m (hs.flatMap HeaderLine.bytes ++ LF :: rest) =
        EslFrameDecoder.endOfHeaders (hs.foldl addLine m) rest
  | [], m, _ => by
    rw [EslFrameDecoder.readHeaders_eq]
    rfl
  | h :: hs, m, hfits => by
    rw [List.flatMap_cons, List.append_assoc,
      readHeaders_line hunknown m (hfits h List.mem_cons_self),
      readHeaders_lines hunknown rest hs _ fun h' hh' => hfits h' (List.mem_cons_of_mem h hh')]
    rfl

/-- The message after its header lines. -/
def readLines (hs : List HeaderLine) : EslMessage := hs.foldl addLine .new

lemma readLines_concat (hs : List HeaderLine) (h : HeaderLine) :
    readLines (hs ++ [h]) = addLine (readLines hs) h := List.foldl_concat _ _ _ _

lemma headers_addHeader (m : EslMessage) (name name' : Option Name) (value : List Char) :
    (m.addHeader name value).headers name' = if name' = name then some value else m.headers name' :=
  Function.update_apply _ _ _ _

lemma addLine_known {name : Name} (hknown : h.known = some name) (m : EslMessage) :
    addLine m h = m.addHeader name h.content := by
  rw [addLine, hknown]

lemma addLine_unknown (hknown : h.known = none) (m : EslMessage) :
    addLine m h = (m.addBodyLine h.text).addHeader none h.content := by
  rw [addLine, hknown]

lemma lastValue_concat (hs : List HeaderLine) (h : HeaderLine) (name : Name) :
    lastValue (hs ++ [h]) name =
      if h.known = some name then some h.content else lastValue hs name := by
  rw [lastValue, List.reverse_concat, List.find?_cons]
  by_cases hname : h.known = some name
  · rw [decide_eq_true hname, if_pos hname, Option.map_some]
  · rw [decide_eq_false hname, if_neg hname, lastValue]

lemma unknownLines_concat (hs : List HeaderLine) (h : HeaderLine) :
    unknownLines (hs ++ [h]) = unknownLines hs ++ if h.known = none then [h.text] else [] := by
  rw [unknownLines, unknownLines, List.filter_append, List.map_append, List.filter_singleton]
  by_cases hname : h.known = none
  · rw [if_pos hname, decide_eq_true hname, cond_true, List.map_singleton]
  · rw [if_neg hname, decide_eq_false hname, cond_false, List.map_nil]

/-- **What the header lines leave in the message.** -/
theorem headers_readLines (hs : List HeaderLine) :
    (∀ name : Name, (readLines hs).headers (some name) = lastValue hs name) ∧
      ((readLines hs).headers none = none ↔ ∀ h ∈ hs, h.known.isSome) ∧
        (readLines hs).body = unknownLines hs ∧ (readLines hs).contentLength = none := by
  induction hs using List.reverseRecOn with
  | nil => exact ⟨fun _ => rfl, by simp [readLines, EslMessage.new], rfl, rfl⟩
  | append_singleton hs h ih =>
    obtain ⟨hvalues, hnull, hbody, hlength⟩ := ih
    rw [readLines_concat, unknownLines_concat]
    simp only [lastValue_concat, List.forall_mem_append, List.forall_mem_singleton]
    cases hknown : h.known with
    | some name =>
      rw [addLine_known hknown]
      refine ⟨fun name' => ?_, ?_, ?_, hlength⟩
      · simp only [headers_addHeader, hvalues, eq_comm]
      · -- The key is that of a name.
        rw [headers_addHeader, if_neg (by simp), hnull]
        simp
      · rw [if_neg (by simp), List.append_nil, ← hbody]
        rfl
    | none =>
      rw [addLine_unknown hknown]
      refine ⟨fun name' => ?_, ?_, ?_, hlength⟩
      · rw [headers_addHeader, if_neg (by simp), if_neg (by simp), ← hvalues]
        rfl
      · -- The line is added with the key `null`.
        rw [headers_addHeader, if_pos rfl]
        simp
      · rw [if_pos rfl, ← hbody]
        rfl

/-! ## The body -/

/-- Lines that are not longer than the body are never found too long. -/
lemma readLine_ok : ∀ (buffer : List UInt8) (sb : List Char), sb.length + buffer.length ≤ n →
    ∃ text rest, readLine n sb buffer = .ok (text, rest)
  | [], sb, _ => ⟨sb, [], rfl⟩
  | b :: buffer, sb, hlen => by
    rw [List.length_cons] at hlen
    rw [readLine]
    split_ifs with hLF hlong
    · exact ⟨sb, buffer, rfl⟩
    · omega
    · exact readLine_ok buffer _ (by rw [List.length_append, List.length_singleton]; omega)

/-- The body only adds lines behind those that are there. -/
lemma readBodyLines_ok (m : EslMessage) (bodyBytes : List UInt8) (hlen : bodyBytes.length ≤ n) :
    ∃ lines, readBodyLines n m bodyBytes = .ok { m with body := m.body ++ lines } := by
  by_cases hne : bodyBytes = []
  · subst hne
    exact ⟨[], by rw [readBodyLines_nil, List.append_nil]⟩
  · obtain ⟨text, rest, hline⟩ := readLine_ok bodyBytes [] (by simpa using hlen)
    have hshorter := readLine_length hne hline
    obtain ⟨lines, ih⟩ := readBodyLines_ok (m.addBodyLine text) rest (by omega)
    refine ⟨text :: lines, ?_⟩
    rw [readBodyLines_of_readLine hne hline, ih, EslMessage.addBodyLine, List.append_assoc,
      List.singleton_append]
termination_by bodyBytes.length

/-! ## Messages -/

namespace OutboundMessage

lemma decode_headers (hunknown : d.treatUnknownHeadersAsBody = true)
    (M : OutboundMessage d.maxHeaderSize) (rest : List UInt8) :
    d.decoder.decode .initial (M.bytes ++ rest) =
      EslFrameDecoder.endOfHeaders (readLines M.headers) (M.body ++ rest) := by
  have h := readHeaders_lines hunknown (M.body ++ rest) M.headers .new M.fits
  rw [bytes, List.append_assoc, List.cons_append]
  exact h

/-- **The first message that is emitted has the headers, and the unknown lines first.** -/
theorem callDecode_bytes (hunknown : d.treatUnknownHeadersAsBody = true)
    (M : OutboundMessage d.maxHeaderSize) (hcomplete : M.Complete rest) :
    ∃ m, d.decoder.callDecode .initial (M.bytes ++ rest) =
        (d.decoder.callDecode .initial rest).after [m] ∧
      m.headers = (readLines M.headers).headers ∧ unknownLines M.headers <+: m.body := by
  obtain ⟨hvalues, -, hbody, hcache⟩ := headers_readLines M.headers
  have hdecode := decode_headers hunknown M rest
  have hframed := M.framed
  rw [EslFrameDecoder.endOfHeaders, EslMessage.hasContentLength, hvalues] at hdecode
  have hne : M.bytes ++ rest ≠ [] := by simp [bytes]
  cases hvalue : lastValue M.headers .contentLength with
  | none =>
    rw [hvalue] at hdecode hframed
    rw [hframed] at hdecode
    refine ⟨readLines M.headers, (callDecode_of_done hne hdecode).trans rfl, rfl, ?_⟩
    exact hbody ▸ List.prefix_rfl
  | some value =>
    rw [hvalue] at hdecode hframed
    have hne' : M.body ++ rest ≠ [] := hcomplete (by rw [hvalue]; rfl)
    have hlength : (readLines M.headers).getContentLength =
        .ok (some (M.body.length : ℤ),
          { readLines M.headers with contentLength := some (M.body.length : ℤ) }) := by
      rw [EslMessage.getContentLength, hcache, hvalues, hvalue]
      simp only [hframed]
    obtain ⟨lines, hlines⟩ := readBodyLines_ok
      { readLines M.headers with contentLength := some (M.body.length : ℤ) } M.body
      (Nat.le_refl _)
    have hread : d.decoder.decode ⟨.readBody, some (readLines M.headers)⟩ (M.body ++ rest) =
        .done .initial rest (some { readLines M.headers with
          contentLength := some (M.body.length : ℤ)
          body := (readLines M.headers).body ++ lines }) := by
      have hcall : d.decoder.decode ⟨.readBody, some (readLines M.headers)⟩ (M.body ++ rest) =
        EslFrameDecoder.readBody (some (readLines M.headers)) (M.body ++ rest) := rfl
      have hnonneg : ¬ (M.body.length : ℤ) < 0 := by omega
      have henough : ¬ (M.body ++ rest).length < M.body.length := by
        rw [List.length_append]
        omega
      rw [hcall, EslFrameDecoder.readBody, hlength]
      simp only [if_neg hnonneg, Int.toNat_natCast, if_neg henough, List.take_left, List.drop_left,
        hlines]
      rfl
    have hcalls := callDecode_of_done hne hdecode
    rw [callDecode_of_done hne' hread] at hcalls
    refine ⟨_, hcalls.trans rfl, rfl, ?_⟩
    rw [hbody]
    exact List.prefix_append _ _

end OutboundMessage

/-- **When the header lines are told apart by their names.** -/
theorem decodesHeaders_iff (hunknown : d.treatUnknownHeadersAsBody = true)
    (M : OutboundMessage d.maxHeaderSize) :
    d.DecodesHeaders M ↔ ∀ h ∈ M.headers, h.known.isSome := by
  obtain ⟨hvalues, hnull, -, -⟩ := headers_readLines M.headers
  have hreceived : ∀ rest chunks, M.Complete rest → chunks.flatten = M.bytes ++ rest →
      ∃ m, (d.decoder.receiveAll .initial [] chunks).emitted.head? = some m ∧
        m.headers = (readLines M.headers).headers ∧ unknownLines M.headers <+: m.body := by
    intro rest chunks hcomplete hchunks
    obtain ⟨m, hdecode, hheaders, hbody⟩ := M.callDecode_bytes hunknown hcomplete
    refine ⟨m, ?_, hheaders, hbody⟩
    rw [receiveAll_eq_callDecode chunks DecoderState.initial [] callDecode_nil, List.nil_append,
      hchunks, hdecode]
    rfl
  constructor
  · intro h
    have hcomplete : M.Complete [LF] := fun _ => by simp
    have hchunks : [M.bytes ++ [LF]].flatten = M.bytes ++ [LF] := List.append_nil _
    obtain ⟨m, hemitted, hheaders, -⟩ := hreceived [LF] _ hcomplete hchunks
    obtain ⟨m', hemitted', hseparates⟩ := h [LF] _ hcomplete hchunks
    obtain rfl : m = m' := Option.some_inj.mp (hemitted.symm.trans hemitted')
    rw [← hnull, ← hheaders]
    exact hseparates.noOtherKey
  · intro h rest chunks hcomplete hchunks
    obtain ⟨m, hemitted, hheaders, hbody⟩ := hreceived rest chunks hcomplete hchunks
    refine ⟨m, hemitted, fun name => ?_, ?_, hbody⟩
    · rw [hheaders, hvalues]
    · rw [hheaders, hnull]
      exact h

/-! ## Messages with one header line -/

def replyLine : HeaderLine :=
  ⟨asciiBytes "Content-Type".toList, asciiBytes "command/reply".toList, by decide, by decide,
    by decide⟩

def eventLine : HeaderLine :=
  ⟨asciiBytes "Event-Name".toList, asciiBytes "CHANNEL_DATA".toList, by decide, by decide,
    by decide⟩

theorem decodesHeaders_reply :
    EslFrameDecoder.DecodesHeaders ⟨100, true, by decide⟩ ⟨[replyLine], [], by decide, rfl⟩ :=
  (decodesHeaders_iff (d := ⟨100, true, by decide⟩) rfl ⟨[replyLine], [], by decide, rfl⟩).mpr
    (by decide)

/-- The map has a key that is no name. -/
theorem not_decodesHeaders : ¬ ∀ d : EslFrameDecoder, d.treatUnknownHeadersAsBody = true →
    ∀ M : OutboundMessage d.maxHeaderSize, d.DecodesHeaders M := by
  intro h
  have hdecodes := h ⟨100, true, by decide⟩ rfl ⟨[eventLine], [], by decide, rfl⟩
  exact absurd ((decodesHeaders_iff rfl _).mp hdecodes) (by decide)

end FreeswitchContrib.Esl

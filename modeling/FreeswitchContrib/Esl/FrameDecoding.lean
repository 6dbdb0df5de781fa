import FreeswitchContrib.Esl.EslFrameDecoder
import Mathlib.Data.List.TakeWhile

/-!
# Frame decoding

`WireMessage` is a message as it is sent: header lines, an empty line, and the body that a
`Content-Length` announces.  The decoder reads back what was sent, however the bytes are cut into
chunks; only a body whose length is no Java `int` is refused.
-/

namespace FreeswitchContrib.Esl

open Numeral Replaying Replaying.Run Replaying.Decoder

/-! ## Messages as they are sent -/

def asciiByte (c : Char) : UInt8 :=
  UInt8.ofNat c.toNat

def asciiBytes (s : List Char) : List UInt8 :=
  s.map asciiByte

def IsAscii (s : List Char) : Prop :=
  ∀ c ∈ s, c.toNat < 128

instance (s : List Char) : Decidable (IsAscii s) :=
  inferInstanceAs (Decidable (∀ c ∈ s, c.toNat < 128))

/-- A header with a name that is known, in any casing, and a value without whitespace around it. -/
structure WireHeader where
  name : Name
  literal : List Char
  value : List Char
  known : Name.fromLiteral literal = some name
  ascii : IsAscii value
  oneLine : '\n' ∉ value
  nonempty : value ≠ []
  trimmed : value.dropWhile isWhitespace = value ∧ value.rdropWhile isWhitespace = value

namespace WireHeader

def line (h : WireHeader) : List Char :=
  h.literal ++ ':' :: ' ' :: h.value

def bytes (h : WireHeader) : List UInt8 :=
  asciiBytes h.line ++ [LF]

end WireHeader

def findHeader (hs : List WireHeader) (name : Option Name) : Option WireHeader :=
  hs.find? fun h => some h.name = name

/-- The body is as long as the content length says, and there is none without a content length. -/
def Framed (hs : List WireHeader) (body : List Char) : Prop :=
  match findHeader hs (some .contentLength) with
  | some h => decimal h.value = some body.length ∧ body ≠ []
  | none => body = []

structure WireMessage (maxHeaderSize : ℕ) where
  headers : List WireHeader
  body : List Char
  nonempty : headers ≠ []
  fits : ∀ h ∈ headers, h.line.length ≤ maxHeaderSize
  distinct : (headers.map WireHeader.name).Nodup
  ascii : IsAscii body
  framed : Framed headers body

/-- The lines that line feeds separate; the last line feed need not be followed by another line. -/
def linesOf (body : List Char) : List (List Char) :=
  let pieces := body.splitOn '\n'
  if pieces.getLast? = some [] then pieces.dropLast else pieces

namespace WireMessage

variable {maxHeaderSize : ℕ}

def bytes (m : WireMessage maxHeaderSize) : List UInt8 :=
  m.headers.flatMap WireHeader.bytes ++ LF :: asciiBytes m.body

def toMessage (m : WireMessage maxHeaderSize) : EslMessage where
  headers name := (findHeader m.headers name).map WireHeader.value
  body := linesOf m.body
  contentLength := (findHeader m.headers (some .contentLength)).map fun _ => (m.body.length : ℤ)

end WireMessage

variable {d : EslFrameDecoder} {h : WireHeader} {hs : List WireHeader} {m : EslMessage}
  {name : Name} {c : Char} {text body : List Char} {rest : List UInt8} {n : ℕ}

/-! ## Characters -/

lemma toNat_asciiByte (hc : c.toNat < 128) : (asciiByte c).toNat = c.toNat := by
  rw [asciiByte, UInt8.toNat_ofNat']
  omega

lemma charOfByte_asciiByte (hc : c.toNat < 128) : charOfByte (asciiByte c) = c := by
  rw [charOfByte, toNat_asciiByte hc, if_pos hc, Char.ofNat_toNat]

lemma asciiByte_eq_LF_iff (hc : c.toNat < 128) : asciiByte c = LF ↔ c = '\n' := by
  rw [← UInt8.toNat_inj, toNat_asciiByte hc, ← Char.toNat_inj]
  rfl

lemma toLower_cases (c : Char) : (65 ≤ c.toNat ∧ c.toNat ≤ 90) ∨ c.toLower = c := by
  by_cases hupper : c.val ≥ 'A'.val ∧ c.val ≤ 'Z'.val
  · simp only [ge_iff_le, UInt32.le_iff_toNat_le] at hupper
    exact Or.inl hupper
  · exact Or.inr (dif_neg hupper)

lemma isWhitespace_eq_false (h : 32 < c.toNat) : isWhitespace c = false := by
  have hspace : c ≠ ' ' := fun hc => by rw [hc] at h; exact absurd h (by decide)
  simp only [isWhitespace, beq_eq_false_iff_ne.mpr hspace, Bool.false_or, Bool.or_eq_false_iff,
    Bool.and_eq_false_iff, decide_eq_false_iff_not]
  omega

/-- A known name is made of letters and hyphens. -/
lemma known_char (h : Name.fromLiteral text = some name) (hc : c ∈ text) :
    c.toNat < 128 ∧ c ≠ '\n' ∧ inHeaderName c = true := by
  rw [Name.fromLiteral] at h
  have hsame := List.find?_some h
  have hlower : c.toLower ∈ name.literal.toList.map Char.toLower := by
    rw [beq_iff_eq.mp hsame]
    exact List.mem_map_of_mem hc
  have hknown : ∀ x ∈ name.literal.toList.map Char.toLower, x.toNat = 45 ∨
      (97 ≤ x.toNat ∧ x.toNat ≤ 122) := by
    cases name <;> decide
  have hrange : c.toNat < 128 ∧ 32 < c.toNat ∧ c.toNat ≠ 58 := by
    rcases toLower_cases c with hupper | hsame
    · omega
    · rw [hsame] at hlower
      have := hknown c hlower
      omega
  refine ⟨hrange.1, ?_, ?_⟩
  · rintro rfl
    exact absurd hrange.2.1 (by decide)
  · have hcolon : c ≠ ':' := by
      rintro rfl
      exact absurd rfl hrange.2.2
    rw [inHeaderName, isWhitespace_eq_false hrange.2.1, beq_eq_false_iff_ne.mpr hcolon]
    rfl

lemma WireHeader.line_char (hc : c ∈ h.line) : c.toNat < 128 ∧ c ≠ '\n' := by
  rw [WireHeader.line, List.mem_append, List.mem_cons, List.mem_cons] at hc
  rcases hc with hc | rfl | rfl | hc
  · exact ⟨(known_char h.known hc).1, (known_char h.known hc).2.1⟩
  · decide
  · decide
  · exact ⟨h.ascii c hc, fun heq => h.oneLine (heq ▸ hc)⟩

/-! ## Header lines -/

/-- What `readToLineFeedOrFail` reads of a line before its end. -/
lemma readToLineFeedOrFail_ascii (maxLineLength : ℕ) (rest : List UInt8) (text sb : List Char)
    (hchars : ∀ c ∈ text, c.toNat < 128 ∧ c ≠ '\n')
    (hlen : sb.length + text.length ≤ maxLineLength) :
    readToLineFeedOrFail maxLineLength sb (asciiBytes text ++ rest)
      = readToLineFeedOrFail maxLineLength (sb ++ text) rest := by
  have hLF : LF ∉ asciiBytes text := by
    intro hmem
    obtain ⟨c, hc, heq⟩ := List.mem_map.mp hmem
    exact (hchars c hc).2 ((asciiByte_eq_LF_iff (hchars c hc).1).mp heq)
  have htext : (asciiBytes text).map charOfByte = text := by
    rw [asciiBytes, List.map_map]
    exact (List.map_congr_left fun c hc => charOfByte_asciiByte (hchars c hc).1).trans
      (List.map_id text)
  rw [readToLineFeedOrFail_bytes maxLineLength rest _ sb hLF (by rwa [asciiBytes, List.length_map]),
    htext]

lemma splitHeader_line (h : WireHeader) : splitHeader h.line = (h.literal, h.value) := by
  have hsplit := splitHeader_nameValue (fun c hc => (known_char h.known hc).2.2) h.value
  rwa [trim, h.trimmed.1, h.trimmed.2] at hsplit

lemma WireHeader.line_isEmpty (h : WireHeader) : h.line.isEmpty = false := by
  simp [WireHeader.line]

/-- The message with more headers. -/
def addHeaders (m : EslMessage) (hs : List WireHeader) : EslMessage :=
  hs.foldl (fun m h => m.addHeader h.name h.value) m

lemma readHeaders_header (m : EslMessage) (hfits : h.line.length ≤ d.maxHeaderSize)
    (rest : List UInt8) :
    d.readHeaders m (h.bytes ++ rest) = d.readHeaders (m.addHeader h.name h.value) rest := by
  have hline : readToLineFeedOrFail d.maxHeaderSize [] (h.bytes ++ rest) = .line h.line rest := by
    rw [WireHeader.bytes, List.append_assoc, List.singleton_append,
      readToLineFeedOrFail_ascii d.maxHeaderSize (LF :: rest) h.line [] (fun c hc => h.line_char hc)
        (by simpa using hfits), List.nil_append]
    rfl
  have hadd : d.addHeaderLine m h.line = .ok (m.addHeader h.name h.value) := by
    simp only [EslFrameDecoder.addHeaderLine, splitHeader_line, h.known]
  rw [EslFrameDecoder.readHeaders_eq, hline]
  simp only [h.line_isEmpty, Bool.false_eq_true, if_false, hadd]

lemma readHeaders_headers (rest : List UInt8) :
    ∀ (hs : List WireHeader) (m : EslMessage), (∀ h ∈ hs, h.line.length ≤ d.maxHeaderSize) →
      d.readHeaders m (hs.flatMap WireHeader.bytes ++ LF :: rest)
        = EslFrameDecoder.endOfHeaders (addHeaders m hs) rest
  | [], m, _ => by
    rw [EslFrameDecoder.readHeaders_eq]
    rfl
  | h :: hs, m, hfits => by
    rw [List.flatMap_cons, List.append_assoc, readHeaders_header m (hfits h List.mem_cons_self),
      readHeaders_headers rest hs _ fun h' hh' => hfits h' (List.mem_cons_of_mem h hh')]
    rfl

/-- With distinct names, the map holds the value of each header. -/
lemma headers_addHeaders (name : Option Name) :
    ∀ (hs : List WireHeader) (m : EslMessage), (hs.map WireHeader.name).Nodup →
      (addHeaders m hs).headers name
        = match findHeader hs name with
          | some h => some h.value
          | none => m.headers name
  | [], _, _ => rfl
  | h :: hs, m, hdistinct => by
    rw [List.map_cons, List.nodup_cons] at hdistinct
    have ih := headers_addHeaders name hs (m.addHeader h.name h.value) hdistinct.2
    rw [addHeaders, List.foldl_cons]
    rw [addHeaders] at ih
    rw [ih]
    by_cases hname : some h.name = name
    · have hnone : findHeader hs name = none := by
        rw [findHeader, List.find?_eq_none]
        intro h' hh' heq
        have hsame : h'.name = h.name := by
          rw [decide_eq_true_eq, ← hname, Option.some_inj] at heq
          exact heq
        exact hdistinct.1 (List.mem_map.mpr ⟨h', hh', hsame⟩)
      have hfound : findHeader (h :: hs) name = some h :=
        List.find?_cons_of_pos (by simpa using hname)
      simp only [hnone, hfound, EslMessage.addHeader, hname, Function.update_self]
    · have hskip : findHeader (h :: hs) name = findHeader hs name :=
        List.find?_cons_of_neg (by simpa using hname)
      simp only [hskip, EslMessage.addHeader, Function.update_of_ne (Ne.symm hname)]

lemma body_addHeaders : ∀ (hs : List WireHeader) (m : EslMessage),
    (addHeaders m hs).body = m.body ∧ (addHeaders m hs).contentLength = m.contentLength
  | [], _ => ⟨rfl, rfl⟩
  | h :: hs, m => body_addHeaders hs (m.addHeader h.name h.value)

/-! ## Body lines -/

lemma linesOf_of_no_line_feed (hbody : body ≠ []) (h : '\n' ∉ body) : linesOf body = [body] := by
  have hsplit : body.splitOn '\n' = [body] :=
    List.splitOnP_eq_singleton fun c hc => beq_eq_false_iff_ne.mpr fun heq => h (heq ▸ hc)
  simp [linesOf, hsplit, hbody]

lemma linesOf_append (h : '\n' ∉ text) : linesOf (text ++ '\n' :: body) = text :: linesOf body := by
  have hsplit : (text ++ '\n' :: body).splitOn '\n' = text :: body.splitOn '\n' :=
    List.splitOnP_append_cons_of_forall_mem
      (fun c hc => beq_eq_false_iff_ne.mpr (ne_of_mem_of_not_mem hc h)) '\n' (by simp) body
  obtain ⟨piece, pieces, hpieces⟩ : ∃ piece pieces, body.splitOn '\n' = piece :: pieces :=
    List.exists_cons_of_ne_nil (List.splitOnP_ne_nil _ body)
  simp only [linesOf, hsplit, hpieces, List.getLast?_cons_cons, List.dropLast_cons_cons]
  split_ifs <;> rfl

/-- What `readLine` reads of a line before its end. -/
lemma readLine_ascii (maxLineLength : ℕ) (rest : List UInt8) :
    ∀ (text sb : List Char), (∀ c ∈ text, c.toNat < 128 ∧ c ≠ '\n') →
      sb.length + text.length ≤ maxLineLength →
      readLine maxLineLength sb (asciiBytes text ++ rest) = readLine maxLineLength (sb ++ text) rest
  | [], sb, _, _ => by simp [asciiBytes]
  | c :: text, sb, hchars, hlen => by
    have hc := hchars c List.mem_cons_self
    have ih := readLine_ascii maxLineLength rest text (sb ++ [c])
      (fun c' hc' => hchars c' (List.mem_cons_of_mem c hc'))
      (by simp only [List.length_append, List.length_cons, List.length_nil] at hlen ⊢; omega)
    rw [asciiBytes] at ih
    rw [asciiBytes, List.map_cons, List.cons_append, readLine,
      if_neg (mt (asciiByte_eq_LF_iff hc.1).mp hc.2),
      if_neg (by simp only [List.length_cons] at hlen; omega), charOfByte_asciiByte hc.1, ih,
      List.append_assoc, List.singleton_append]

lemma readBodyLines_of_readLine {bodyBytes : List UInt8} (hne : bodyBytes ≠ [])
    (h : readLine n [] bodyBytes = .ok (text, rest)) :
    readBodyLines n m bodyBytes = readBodyLines n (m.addBodyLine text) rest := by
  rw [readBodyLines, dif_neg hne]
  split <;> simp_all

lemma readBodyLines_nil : readBodyLines n m [] = .ok m := by
  rw [readBodyLines]
  rfl

/-- **The body is split into its lines.** -/
theorem readBodyLines_ascii (n : ℕ) (m : EslMessage) (body : List Char) (hascii : IsAscii body)
    (hlen : body.length ≤ n) :
    readBodyLines n m (asciiBytes body) = .ok { m with body := m.body ++ linesOf body } := by
  by_cases hnil : body = []
  · subst hnil
    rw [asciiBytes, List.map_nil, readBodyLines_nil]
    simp [linesOf]
  have hne : asciiBytes body ≠ [] := by simpa [asciiBytes] using hnil
  by_cases hlf : '\n' ∈ body
  · obtain ⟨text, body', hbody, htext⟩ := List.eq_append_cons_of_mem hlf
    have hshorter : text.length + body'.length < body.length := by
      rw [hbody, List.length_append, List.length_cons]
      omega
    have hchars : ∀ c ∈ text, c.toNat < 128 ∧ c ≠ '\n' := fun c hc =>
      ⟨hascii c (by simp [hbody, hc]), ne_of_mem_of_not_mem hc htext⟩
    have hbytes : asciiBytes body = asciiBytes text ++ LF :: asciiBytes body' := by
      rw [hbody, asciiBytes, List.map_append, List.map_cons]
      rfl
    have hline : readLine n [] (asciiBytes body) = .ok (text, asciiBytes body') := by
      rw [hbytes, readLine_ascii n (LF :: asciiBytes body') text [] hchars (by simp; omega)]
      simp [readLine]
    have ih := readBodyLines_ascii n (m.addBodyLine text) body'
      (fun c hc => hascii c (by simp [hbody, hc])) (by omega)
    rw [readBodyLines_of_readLine hne hline, ih, hbody, linesOf_append htext,
      EslMessage.addBodyLine, List.append_assoc, List.singleton_append]
  · have hchars : ∀ c ∈ body, c.toNat < 128 ∧ c ≠ '\n' := fun c hc =>
      ⟨hascii c hc, ne_of_mem_of_not_mem hc hlf⟩
    have hline : readLine n [] (asciiBytes body) = .ok (body, []) := by
      have h := readLine_ascii n [] body [] hchars (by simpa using hlen)
      rw [List.append_nil] at h
      rw [h]
      simp [readLine]
    rw [readBodyLines_of_readLine hne hline, readBodyLines_nil, linesOf_of_no_line_feed hnil hlf,
      EslMessage.addBodyLine]
termination_by body.length
decreasing_by omega

/-! ## Messages -/

lemma integerValueOf_of_decimal (h : decimal text = some n) :
    integerValueOf text = if n ≤ 2147483647 then some (n : ℤ) else none := by
  rw [integerValueOf, signedDecimal_of_decimal h, Option.filter_some]
  have hrange : (decide (-2147483648 ≤ (n : ℤ)) && decide ((n : ℤ) ≤ 2147483647)) = true
      ↔ n ≤ 2147483647 := by
    rw [Bool.and_eq_true, decide_eq_true_eq, decide_eq_true_eq]
    omega
  simp only [hrange]

namespace WireMessage

variable {M : WireMessage d.maxHeaderSize}

/-- The message after its headers. -/
def read (M : WireMessage d.maxHeaderSize) : EslMessage :=
  addHeaders .new M.headers

lemma headers_read (M : WireMessage d.maxHeaderSize) (name : Option Name) :
    M.read.headers name = (findHeader M.headers name).map WireHeader.value := by
  rw [read, headers_addHeaders name M.headers .new M.distinct]
  cases findHeader M.headers name <;> rfl

lemma bytes_ne_nil (rest : List UInt8) : M.bytes ++ rest ≠ [] := by
  simp [bytes]

/-- The call that reads the headers. -/
lemma decode_headers (M : WireMessage d.maxHeaderSize) (rest : List UInt8) :
    d.decoder.decode .initial (M.bytes ++ rest)
      = EslFrameDecoder.endOfHeaders M.read (asciiBytes M.body ++ rest) := by
  have h := readHeaders_headers (asciiBytes M.body ++ rest) M.headers .new M.fits
  rw [bytes, List.append_assoc, List.cons_append]
  exact h

lemma callDecode_of_no_content_length (hnone : findHeader M.headers (some .contentLength) = none)
    (rest : List UInt8) :
    d.decoder.callDecode .initial (M.bytes ++ rest)
      = (d.decoder.callDecode .initial rest).after [M.toMessage] := by
  have hbody : M.body = [] := by
    have hframed := M.framed
    rw [Framed, hnone] at hframed
    exact hframed
  have hmessage : M.read = M.toMessage := by
    have hheaders := funext (headers_read M)
    rw [toMessage, hnone, hbody, ← hheaders, read]
    obtain ⟨hlines, hlength⟩ := body_addHeaders M.headers .new
    rcases haddHeaders : addHeaders .new M.headers with ⟨headers, body, contentLength⟩
    simp only [haddHeaders] at hlines hlength
    rw [hlines, hlength]
    rfl
  have hdecode : d.decoder.decode .initial (M.bytes ++ rest)
      = .done .initial rest (some M.toMessage) := by
    rw [decode_headers, hbody, EslFrameDecoder.endOfHeaders, EslMessage.hasContentLength,
      headers_read, hnone, hmessage]
    rfl
  rw [callDecode_of_done (bytes_ne_nil rest) hdecode]
  rfl

/-- With a content length the body is read by another call. -/
lemma callDecode_of_content_length (hsome : findHeader M.headers (some .contentLength) = some h)
    (rest : List UInt8) :
    d.decoder.callDecode .initial (M.bytes ++ rest)
      = d.decoder.callDecode ⟨.readBody, some M.read⟩ (asciiBytes M.body ++ rest) := by
  have hdecode : d.decoder.decode .initial (M.bytes ++ rest)
      = .done ⟨.readBody, some M.read⟩ (asciiBytes M.body ++ rest) none := by
    rw [decode_headers, EslFrameDecoder.endOfHeaders, EslMessage.hasContentLength, headers_read,
      hsome]
    rfl
  rw [callDecode_of_done (bytes_ne_nil rest) hdecode]
  rfl

lemma getContentLength_read (hsome : findHeader M.headers (some .contentLength) = some h) :
    M.read.getContentLength
      = if M.body.length ≤ 2147483647 then
          .ok (some (M.body.length : ℤ), { M.read with contentLength := some (M.body.length : ℤ) })
        else
          .error (.numberFormat (String.ofList h.value)) := by
  have hframed := M.framed
  rw [Framed, hsome] at hframed
  have hheader : M.read.headers (some .contentLength) = some h.value := by
    rw [headers_read, hsome]
    rfl
  have hcache : M.read.contentLength = none := (body_addHeaders M.headers .new).2
  rw [EslMessage.getContentLength, hcache, hheader]
  simp only [integerValueOf_of_decimal hframed.1]
  split_ifs <;> rfl

/-- **A message is read back, whatever follows it.** -/
theorem callDecode_bytes (hlen : M.body.length ≤ 2147483647) (rest : List UInt8) :
    d.decoder.callDecode .initial (M.bytes ++ rest)
      = (d.decoder.callDecode .initial rest).after [M.toMessage] := by
  rcases hfind : findHeader M.headers (some .contentLength) with _ | h
  · exact callDecode_of_no_content_length hfind rest
  have hframed := M.framed
  rw [Framed, hfind] at hframed
  have hbytes : (asciiBytes M.body).length = M.body.length := List.length_map _
  have hne : asciiBytes M.body ++ rest ≠ [] := by simp [asciiBytes, hframed.2]
  have hmessage : { { M.read with contentLength := some (M.body.length : ℤ) } with
      body := M.read.body ++ linesOf M.body } = M.toMessage := by
    have hheaders := funext (headers_read M)
    have hbody : M.read.body = [] := (body_addHeaders M.headers .new).1
    rw [toMessage, hfind, ← hheaders, hbody]
    rfl
  have henough : ¬ (asciiBytes M.body ++ rest).length < M.body.length := by
    rw [List.length_append, hbytes]
    omega
  have hnonneg : ¬ (M.body.length : ℤ) < 0 := by omega
  have hdecode : d.decoder.decode ⟨.readBody, some M.read⟩ (asciiBytes M.body ++ rest)
      = .done .initial rest (some M.toMessage) := by
    have hcall : d.decoder.decode ⟨.readBody, some M.read⟩ (asciiBytes M.body ++ rest)
        = EslFrameDecoder.readBody (some M.read) (asciiBytes M.body ++ rest) := rfl
    rw [hcall, EslFrameDecoder.readBody, getContentLength_read hfind, if_pos hlen]
    simp only [if_neg hnonneg, Int.toNat_natCast, if_neg henough, List.take_left' hbytes,
      List.drop_left' hbytes, readBodyLines_ascii _ _ _ M.ascii (Nat.le_refl _), hmessage]
    rfl
  rw [callDecode_of_content_length hfind, callDecode_of_done hne hdecode]
  rfl

/-- A body whose length is no `int` is an exception. -/
theorem callDecode_bytes_of_lt (hlen : 2147483647 < M.body.length) (rest : List UInt8) :
    ∃ literal, d.decoder.callDecode .initial (M.bytes ++ rest) = fail (.numberFormat literal) := by
  have hframed := M.framed
  rcases hfind : findHeader M.headers (some .contentLength) with _ | h
  · rw [Framed, hfind] at hframed
    rw [hframed] at hlen
    exact absurd hlen (by decide)
  rw [Framed, hfind] at hframed
  have hne : asciiBytes M.body ++ rest ≠ [] := by simp [asciiBytes, hframed.2]
  have hdecode : d.decoder.decode ⟨.readBody, some M.read⟩ (asciiBytes M.body ++ rest)
      = .error (.numberFormat (String.ofList h.value)) := by
    have hcall : d.decoder.decode ⟨.readBody, some M.read⟩ (asciiBytes M.body ++ rest)
        = EslFrameDecoder.readBody (some M.read) (asciiBytes M.body ++ rest) := rfl
    rw [hcall, EslFrameDecoder.readBody, getContentLength_read hfind,
      if_neg (Nat.not_le_of_gt hlen)]
  exact ⟨String.ofList h.value, by rw [callDecode_of_content_length hfind,
    callDecode_of_error hne hdecode]⟩

end WireMessage

/-! ## Streams -/

/-- **Frame decoding is exact and independent of the chunks.**  Messages whose bodies have a length
that is an `int` are emitted as they were sent, in order; all bytes are consumed, the decoder is
ready for the next message, and there is no exception. -/
theorem receiveAll_wire (d : EslFrameDecoder) (Ms : List (WireMessage d.maxHeaderSize))
    (hlen : ∀ M ∈ Ms, M.body.length ≤ 2147483647) (chunks : List (List UInt8))
    (hchunks : chunks.flatten = Ms.flatMap WireMessage.bytes) :
    d.decoder.receiveAll .initial [] chunks
      = ⟨Ms.map WireMessage.toMessage, .ok (.initial, [])⟩ := by
  rw [receiveAll_eq_callDecode chunks DecoderState.initial [] callDecode_nil, List.nil_append,
    hchunks, callDecode_flatMap fun M hM rest => WireMessage.callDecode_bytes (hlen M hM) rest,
    after, stop, List.append_nil]

/-! ## Messages with a content length only -/

/-- A message whose only header is the length of its body. -/
def sizedMessage (body value : List Char) (hascii : IsAscii body) (hbody : body ≠ [])
    (hvalue : decimal value = some body.length) (hheader : IsAscii value ∧ '\n' ∉ value ∧
      value.dropWhile isWhitespace = value ∧ value.rdropWhile isWhitespace = value)
    (hfits : value.length ≤ 20) : WireMessage 100 where
  headers := [⟨.contentLength, "Content-Length".toList, value, by decide, hheader.1, hheader.2.1,
    ne_nil_of_decimal hvalue, hheader.2.2⟩]
  body := body
  nonempty := by simp
  fits := by
    intro h hh
    rw [List.mem_singleton] at hh
    simp [hh, WireHeader.line]
    omega
  distinct := by simp
  ascii := hascii
  framed := ⟨hvalue, hbody⟩

/-- Two messages, the first cut within its header and within its body. -/
theorem receiveAll_wire_cut :
    let d : EslFrameDecoder := ⟨100, false, by decide⟩
    let M : WireMessage 100 := sizedMessage "a\nb".toList "3".toList (by decide) (by decide)
      (by decide) (by decide) (by decide)
    (∀ M' ∈ [M, M], M'.body.length ≤ 2147483647) ∧
      [M.bytes.take 9, (M.bytes.drop 9).take 10, M.bytes.drop 19 ++ M.bytes].flatten
        = [M, M].flatMap WireMessage.bytes ∧
      d.decoder.receiveAll .initial []
          [M.bytes.take 9, (M.bytes.drop 9).take 10, M.bytes.drop 19 ++ M.bytes]
        = ⟨[M.toMessage, M.toMessage], .ok (.initial, [])⟩ := by
  intro d M
  have hlen : ∀ M' ∈ [M, M], M'.body.length ≤ 2147483647 := by
    intro M' hM'
    obtain rfl : M' = M := by simpa using hM'
    decide
  have hchunks : [M.bytes.take 9, (M.bytes.drop 9).take 10, M.bytes.drop 19 ++ M.bytes].flatten
      = [M, M].flatMap WireMessage.bytes := by decide
  exact ⟨hlen, hchunks, receiveAll_wire d [M, M] hlen _ hchunks⟩

/-- The decoder does not read back every message that is well-formed. -/
theorem not_receiveAll_wire :
    ¬ ∀ (d : EslFrameDecoder) (Ms : List (WireMessage d.maxHeaderSize))
        (chunks : List (List UInt8)), chunks.flatten = Ms.flatMap WireMessage.bytes →
      d.decoder.receiveAll .initial [] chunks
        = ⟨Ms.map WireMessage.toMessage, .ok (.initial, [])⟩ := by
  intro hall
  have hbody : decimal "2147483648".toList = some (List.replicate 2147483648 'a').length := by
    rw [List.length_replicate]
    decide
  have hascii : IsAscii (List.replicate 2147483648 'a') := by
    intro c hc
    rw [List.eq_of_mem_replicate hc]
    decide
  have hne : List.replicate 2147483648 'a' ≠ [] := by
    rw [Ne, List.replicate_eq_nil_iff]
    decide
  let M := sizedMessage (List.replicate 2147483648 'a') "2147483648".toList hascii hne hbody
    (by decide) (by decide)
  let d : EslFrameDecoder := ⟨100, false, by decide⟩
  have hlong : 2147483647 < M.body.length := by
    have hlength : M.body.length = 2147483648 := List.length_replicate
    omega
  obtain ⟨literal, hfail⟩ := WireMessage.callDecode_bytes_of_lt (d := d) hlong []
  have hrun := hall d [M] [M.bytes] (by simp)
  rw [receiveAll_eq_callDecode [M.bytes] DecoderState.initial [] callDecode_nil, List.nil_append,
    List.flatten_singleton] at hrun
  rw [List.append_nil, hrun] at hfail
  simp [fail] at hfail

end FreeswitchContrib.Esl

import FreeswitchContrib.Esl.EslFrameDecoder
import FreeswitchContrib.Library.Json
import FreeswitchContrib.Library.Updating

/-!
# Plain events

`EslEvent` of the Java event socket client reads an event from the body lines of a message: header
lines with URL-encoded values, and behind a `Content-Length` the lines of the event's own body.

* `parsePlainBody_lines`: what is read of the lines of an event.
* `parsesFaithfully_iff`: the event is read as it was written if and only if its last header is a
  `Content-Length` and no line of its body is empty.

`newString` is `new String (bytes, "UTF-8")`, on which nothing here depends.
-/

namespace FreeswitchContrib.Esl

/-! ## `URLDecoder` -/

/-- Behind these bytes of escapes that follow each other.  `none` is the exception for an escape that
is not `%` with two hexadecimal digits. -/
def urlDecodeFrom (newString : List UInt8 → List Char) : List UInt8 → List Char →
    Option (List Char)
  | bytes, [] => some (newString bytes)
  | bytes, '%' :: hi :: lo :: s =>
    (Json.hexDigit hi).bind fun h => (Json.hexDigit lo).bind fun l =>
      urlDecodeFrom newString (bytes ++ [UInt8.ofNat (16 * h + l)]) s
  | bytes, c :: s =>
    if c = '%' then none
    else (urlDecodeFrom newString [] s).map fun decoded =>
      newString bytes ++ (if c = '+' then ' ' else c) :: decoded

def urlDecode (newString : List UInt8 → List Char) (s : List Char) : Option (List Char) :=
  urlDecodeFrom newString [] s

/-! ## `EslEvent` -/

inductive EventError where
  | illegalArgument
  | illegalState (message : String)
  | nullPointer
deriving DecidableEq, Repr

structure EslEvent where
  messageHeaders : Option Name → Option (List Char)
  eventHeaders : List Char → Option (List Char)
  eventBody : List (List Char)

def eventContentLength : List Char := "Content-Length".toList

/-- The loop over the lines, with the headers and the body that were read. -/
def parseLines (newString : List UInt8 → List Char) (decodeEventHeaders : Bool) :
    Bool → (List Char → Option (List Char)) → List (List Char) → List (List Char) →
      Except EventError ((List Char → Option (List Char)) × List (List Char))
  | _, eventHeaders, eventBody, [] => .ok (eventHeaders, eventBody)
  | false, eventHeaders, eventBody, rawLine :: rawBodyLines =>
    let headerParts := splitHeader rawLine
    match if decodeEventHeaders then urlDecode newString headerParts.2 else some headerParts.2 with
    | none => .error .illegalArgument
    | some value =>
      parseLines newString decodeEventHeaders (headerParts.1 = eventContentLength)
        (Function.update eventHeaders headerParts.1 (some value)) eventBody rawBodyLines
  | true, eventHeaders, eventBody, rawLine :: rawBodyLines =>
    parseLines newString decodeEventHeaders true eventHeaders
      (if 0 < rawLine.length then eventBody ++ [rawLine] else eventBody) rawBodyLines

def parsePlainBody (newString : List UInt8 → List Char)
    (messageHeaders : Option Name → Option (List Char)) (rawBodyLines : List (List Char)) :
    Except EventError EslEvent :=
  (parseLines newString true false (fun _ => none) [] rawBodyLines).map fun p =>
    ⟨messageHeaders, p.1, p.2⟩

/-- The constructor. -/
def EslEvent.new (newString : List UInt8 → List Char) (rawMessage : EslMessage)
    (parseCommandReply : Bool) : Except EventError EslEvent :=
  match rawMessage.headers (some .contentType) with
  | none => .error .nullPointer
  | some contentType =>
    if contentType = "text/event-plain".toList then
      parsePlainBody newString rawMessage.headers rawMessage.body
    else if contentType = "text/event-xml".toList then
      .error (.illegalState "XML events are not yet supported")
    else if contentType = "command/reply".toList ∧ parseCommandReply then
      parsePlainBody newString rawMessage.headers rawMessage.body
    else
      .error (.illegalState ("Unexpected EVENT content-type: " ++ String.ofList contentType))

/-! ## Events as they are written -/

/-- A header with a URL-encoded value, and what it is decoded to. -/
structure EventHeader (newString : List UInt8 → List Char) where
  name : List Char
  encoded : List Char
  value : List Char
  nonempty : name ≠ []
  name_char : ∀ c ∈ name, inHeaderName c = true
  noSpace : ∀ c ∈ encoded, isWhitespace c = false
  decodes : urlDecode newString encoded = some value

variable {newString : List UInt8 → List Char}

def EventHeader.line (h : EventHeader newString) : List Char :=
  h.name ++ ':' :: ' ' :: h.encoded

def endsInContentLength (hs : List (EventHeader newString)) : Bool :=
  (hs.getLast?.map EventHeader.name) == some eventContentLength

/-- Only the last header may be a `Content-Length`, and there is no body without it. -/
structure PlainEvent (newString : List UInt8 → List Char) where
  headers : List (EventHeader newString)
  body : List (List Char)
  distinct : (headers.map EventHeader.name).Nodup
  last : ∀ h ∈ headers.dropLast, h.name ≠ eventContentLength
  noBody : endsInContentLength headers = false → body = []

def PlainEvent.lines (e : PlainEvent newString) : List (List Char) :=
  e.headers.map EventHeader.line ++ [] :: e.body

/-- The event has exactly these headers and this body. -/
structure EslEvent.Represents (event : EslEvent) (e : PlainEvent newString) : Prop where
  header : ∀ h ∈ e.headers, event.eventHeaders h.name = some h.value
  noOther : ∀ name, name ∉ e.headers.map EventHeader.name → event.eventHeaders name = none
  body : event.eventBody = e.body

def ParsesFaithfully (e : PlainEvent newString) : Prop :=
  ∀ messageHeaders, ∃ event, parsePlainBody newString messageHeaders e.lines = .ok event ∧
    event.Represents e

variable {e : PlainEvent newString} {h : EventHeader newString} {hs : List (EventHeader newString)}
  {eventHeaders : List Char → Option (List Char)} {body lines : List (List Char)}

/-! ## Lines -/

lemma trim_eq_self {s : List Char} (h : ∀ c ∈ s, isWhitespace c = false) : trim s = s := by
  have hfront : s.dropWhile isWhitespace = s := by
    rw [List.dropWhile_eq_self_iff]
    intro hlength hspace
    rw [h _ (List.getElem_mem hlength)] at hspace
    cases hspace
  rw [trim, hfront, List.rdropWhile_eq_self_iff]
  intro hne hspace
  rw [h _ (List.getLast_mem hne)] at hspace
  cases hspace

lemma splitHeader_eventLine (h : EventHeader newString) :
    splitHeader h.line = (h.name, h.encoded) := by
  rw [EventHeader.line, splitHeader_nameValue h.name_char, trim_eq_self h.noSpace]

def put (eventHeaders : List Char → Option (List Char)) (h : EventHeader newString) :
    List Char → Option (List Char) :=
  Function.update eventHeaders h.name (some h.value)

/-- A header line, behind which there are body lines if it is a `Content-Length`. -/
lemma parseLines_header (h : EventHeader newString) :
    parseLines newString true false eventHeaders body (h.line :: lines) =
      parseLines newString true (h.name = eventContentLength) (put eventHeaders h) body lines := by
  rw [parseLines, splitHeader_eventLine]
  simp only [if_true, h.decodes]
  rfl

lemma parseLines_headers (hs : List (EventHeader newString))
    (eventHeaders : List Char → Option (List Char))
    (hname : ∀ h ∈ hs, h.name ≠ eventContentLength) :
    parseLines newString true false eventHeaders body (hs.map EventHeader.line ++ lines) =
      parseLines newString true false (hs.foldl put eventHeaders) body lines := by
  induction hs generalizing eventHeaders with
  | nil => rfl
  | cons h hs ih =>
    obtain ⟨hfirst, hrest⟩ := List.forall_mem_cons.mp hname
    rw [List.map_cons, List.cons_append, parseLines_header, decide_eq_false hfirst, ih _ hrest,
      List.foldl_cons]

/-- Empty lines of the body are left out. -/
lemma parseLines_body (lines body : List (List Char)) :
    parseLines newString true true eventHeaders body lines =
      .ok (eventHeaders, body ++ lines.filter (· ≠ [])) := by
  induction lines generalizing body with
  | nil => rw [parseLines, List.filter_nil, List.append_nil]
  | cons line lines ih =>
    rw [parseLines, ih]
    by_cases hline : line = []
    · rw [List.filter_cons_of_neg (by simpa using hline), if_neg (by simp [hline])]
    · rw [List.filter_cons_of_pos (by simpa using hline),
        if_pos (List.length_pos_iff.mpr hline), List.append_assoc, List.singleton_append]

/-- The empty line is read as a header without a name. -/
lemma parseLines_empty :
    parseLines newString true false eventHeaders body [[]] =
      .ok (Function.update eventHeaders [] (some (newString [])), body) := rfl

/-! ## Events -/

lemma eq_dropLast_concat (h : endsInContentLength hs = true) :
    ∃ last : EventHeader newString, hs = hs.dropLast ++ [last] ∧ last.name = eventContentLength := by
  rw [endsInContentLength, beq_iff_eq, Option.map_eq_some_iff] at h
  obtain ⟨last, hlast, hname⟩ := h
  exact ⟨last, (List.dropLast_append_getLast? last hlast).symm, hname⟩

lemma name_ne_of_endsIn_eq_false (h : endsInContentLength e.headers = false) :
    ∀ h ∈ e.headers, h.name ≠ eventContentLength := by
  rcases List.eq_nil_or_concat e.headers with hnil | ⟨hs, last, hconcat⟩
  · rw [hnil]
    exact fun _ hmem => absurd hmem List.not_mem_nil
  · rw [List.concat_eq_append] at hconcat
    rw [endsInContentLength, hconcat, List.getLast?_concat, Option.map_some,
      beq_eq_false_iff_ne] at h
    have hbefore := e.last
    rw [hconcat, List.dropLast_concat] at hbefore
    rw [hconcat, List.forall_mem_append, List.forall_mem_singleton]
    exact ⟨hbefore, fun hname => h (congrArg some hname)⟩

/-- **What is read of an event.** -/
theorem parsePlainBody_lines (e : PlainEvent newString)
    (messageHeaders : Option Name → Option (List Char)) :
    parsePlainBody newString messageHeaders e.lines =
      .ok (if endsInContentLength e.headers then
        ⟨messageHeaders, e.headers.foldl put fun _ => none, e.body.filter (· ≠ [])⟩
      else
        ⟨messageHeaders, Function.update (e.headers.foldl put fun _ => none) []
          (some (newString [])), []⟩) := by
  rw [parsePlainBody, PlainEvent.lines]
  cases hends : endsInContentLength e.headers with
  | true =>
    obtain ⟨last, hconcat, hname⟩ := eq_dropLast_concat hends
    rw [hconcat, List.map_append, List.append_assoc, List.map_singleton, List.singleton_append,
      parseLines_headers _ _ e.last, parseLines_header, decide_eq_true hname, parseLines_body,
      List.foldl_concat]
    rfl
  | false =>
    rw [parseLines_headers _ _ (name_ne_of_endsIn_eq_false hends), e.noBody hends,
      parseLines_empty]
    rfl

lemma foldl_put_of_mem (hdistinct : (hs.map EventHeader.name).Nodup) (h : EventHeader newString)
    (hmem : h ∈ hs) : hs.foldl put (fun _ => none) h.name = some h.value :=
  Updating.foldl_update_of_mem (fun h => some h.value) hdistinct hmem _

lemma foldl_put_of_notMem {name : List Char} (h : name ∉ hs.map EventHeader.name) :
    hs.foldl put (fun _ => none) name = none :=
  Updating.foldl_update_of_notMem (fun h : EventHeader newString => some h.value) h _

/-- **When an event is read as it was written.** -/
theorem parsesFaithfully_iff (e : PlainEvent newString) :
    ParsesFaithfully e ↔ endsInContentLength e.headers = true ∧ [] ∉ e.body := by
  have hempty : [] ∉ e.headers.map EventHeader.name := by
    intro hmem
    obtain ⟨h, -, hname⟩ := List.mem_map.mp hmem
    exact h.nonempty hname
  constructor
  · intro h
    obtain ⟨event, hparse, hrepresents⟩ := h fun _ => none
    rw [parsePlainBody_lines] at hparse
    cases hends : endsInContentLength e.headers with
    | false =>
      rw [hends] at hparse
      obtain rfl := Except.ok.inj hparse
      have hnone := hrepresents.noOther [] hempty
      simp only [Bool.false_eq_true, if_false, Function.update_self] at hnone
      cases hnone
    | true =>
      rw [hends] at hparse
      obtain rfl := Except.ok.inj hparse
      refine ⟨rfl, fun hline => ?_⟩
      have hbody : e.body.filter (· ≠ []) = e.body := hrepresents.body
      have hne := List.filter_eq_self.mp hbody [] hline
      simp at hne
  · rintro ⟨hends, hlines⟩ messageHeaders
    refine ⟨_, parsePlainBody_lines e messageHeaders, ?_⟩
    rw [hends, if_pos rfl]
    refine ⟨foldl_put_of_mem e.distinct, fun name hname => foldl_put_of_notMem hname, ?_⟩
    refine List.filter_eq_self.mpr fun line hline => ?_
    simpa using ne_of_mem_of_not_mem hline hlines

/-! ## Two events -/

/-- `new String (bytes, "UTF-8")` for bytes below 128. -/
def asciiString (bytes : List UInt8) : List Char := bytes.map fun b => Char.ofNat b.toNat

def nameHeader : EventHeader asciiString :=
  ⟨"Event-Name".toList, "BACKGROUND%5fJOB".toList, "BACKGROUND_JOB".toList, by decide, by decide,
    by decide, by decide⟩

def lengthHeader : EventHeader asciiString :=
  ⟨"Content-Length".toList, "4".toList, "4".toList, by decide, by decide, by decide, by decide⟩

theorem parsesFaithfully_job :
    ParsesFaithfully ⟨[nameHeader, lengthHeader], ["+OK".toList], by decide, by decide, by decide⟩ :=
  (parsesFaithfully_iff
    ⟨[nameHeader, lengthHeader], ["+OK".toList], by decide, by decide, by decide⟩).mpr
    (by decide)

/-- An event without a body has a header without a name. -/
theorem not_parsesFaithfully : ¬ ∀ (newString : List UInt8 → List Char)
    (e : PlainEvent newString), ParsesFaithfully e := by
  intro h
  have hparses := h asciiString ⟨[nameHeader], [], by decide, by decide, by decide⟩
  exact absurd ((parsesFaithfully_iff _).mp hparses) (by decide)

end FreeswitchContrib.Esl

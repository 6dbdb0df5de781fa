import FreeswitchContrib.Library.Json
import FreeswitchContrib.ModHttp.ResponseParsing
import Mathlib.Data.List.Basic
import Mathlib.Tactic.SplitIfs

/-!
# The JSON text of a response

`http_api_main` prints the response into a buffer as JSON.  Of its strings only the body is encoded:
the version, the phrase and the headers stand between quotes as the server sent them.  The buffer is
sized by the numbers of headers and the headers of the *request*; each `snprintf` returns how much
it would have written, so a text that is too long is continued behind the buffer.

`httpApiMain_faithful_iff` says when the text decodes to the response.  The model starts where the
response has been parsed, and the memory for the reply is there.
-/

namespace FreeswitchContrib.ModHttp

open Json (PlainText Value)

/-! ## The reply -/

/-- The printable characters that `url_encode` encodes. -/
def urlReserved : List Char :=
  ['$', '&', '+', ',', '/', ':', ';', '=', '?', '@', ' ', '"', '<', '>', '#', '%', '\x7b', '\x7d',
    '|', '\\', '^', '~', '[', ']', '\x60']

/-- The digit that `%X` prints. -/
def hexChar (digit : ℕ) : Char :=
  if digit < 10 then Char.ofNat (48 + digit) else Char.ofNat (55 + digit)

def urlEncode (url : List Char) : List Char :=
  url.flatMap fun c =>
    if c.toNat ≤ 31 ∨ 127 ≤ c.toNat ∨ c ∈ urlReserved then
      ['%', hexChar (c.toNat / 16 % 16), hexChar (c.toNat % 16)]
    else
      [c]

/-- `%d`. -/
def decimalText : ℤ → List Char
  | .ofNat n => Nat.toDigits 10 n
  | .negSucc n => '-' :: Nat.toDigits 10 (n + 1)

/-- `%3d`. -/
def statusText (statusCode : ℤ) : List Char := (decimalText statusCode).leftpad 3 ' '

/-- `"name": "%s"`. -/
def member (name : String) (text : List Char) : List Char :=
  '"' :: (name.toList ++ '"' :: ':' :: ' ' :: '"' :: (text ++ ['"']))

def headerText (header : HttpHeader) : List Char :=
  '{' :: (member "key" header.fieldName ++ ',' :: (member "value" header.value ++ ['}']))

/-- The loop over the headers; `f` says that there has been one. -/
def headerTexts : Bool → List HttpHeader → List Char
  | _, [] => []
  | f, header :: headers =>
    (if f then [','] else []) ++ headerText header ++ headerTexts true headers

/-- The text with the body of the reply. -/
def jsonText (response : HttpResponse) (body : List Char) : List Char :=
  '{' :: (member "version" response.version ++
    ',' :: (member "status_code" (statusText response.statusCode) ++
    ',' :: (member "phrase" response.phrase ++
    ',' :: (member "body" body ++
    ',' :: '"' :: ("headers".toList ++ '"' :: ':' :: ' ' :: '[' ::
      (headerTexts false response.headers ++ [']', '}']))))))

/-- The number of characters that are reserved for the text. -/
def reserved (requestHeaders : List HttpHeader) (response : HttpResponse) : ℕ :=
  let a := (requestHeaders.map fun header => header.fieldName.length + header.value.length).sum
  4 * (128 + 256 * response.headerLen + a * 2 + "version".length + response.version.length +
    "status_code".length + 3 + "phrase".length + response.phrase.length + "body".length +
    response.bodyLen.toNat * 3 + 1 + "headers".length + 1)

/-- The calls of `GARBAGE_ADD`: five and two for each header for the request, then those for the
response, its headers, the text and the encoded body. -/
def memlocs (requestHeaders : List HttpHeader) (response : HttpResponse) : ℕ :=
  5 + 2 * requestHeaders.length + 3 + (if response.headerLen = 0 then 0 else 1) +
    2 * response.headerLen + 1 + (if response.bodyLen = 0 then 0 else 2)

/-- `MAX_MEMLOCS`. -/
def maxMemlocs : ℕ := 512

/-- `http_api_main` from the response on; `.error` is the reply `-ERR`. -/
def httpApiMain (requestHeaders : List HttpHeader) (response : HttpResponse) :
    Except Failure (List Char) :=
  let body := if response.bodyLen ≤ 0 then [] else urlEncode response.body
  let text := jsonText response body
  if maxMemlocs < memlocs requestHeaders response then .error .error
  -- the last NUL, or an `snprintf` before it, is written behind the buffer
  else if reserved requestHeaders response ≤ text.length then .error .fault
  else .ok text

/-! ## What it says -/

/-- A value that says what a header says. -/
def ReadsHeader (header : HttpHeader) (value : Value) : Prop :=
  ∃ members, value = .object members ∧ (members.map Prod.fst).Nodup ∧
    members.lookup "key".toList = some (.string header.fieldName) ∧
    members.lookup "value".toList = some (.string header.value)

/-- A text that decodes to the response. -/
def Faithful (text : List Char) (response : HttpResponse) : Prop :=
  ∃ members status headers,
    Json.decode text = some (.object members) ∧ (members.map Prod.fst).Nodup ∧
    members.lookup "version".toList = some (.string response.version) ∧
    members.lookup "status_code".toList = some (.string status) ∧
    atoi status = response.statusCode ∧
    members.lookup "phrase".toList = some (.string response.phrase) ∧
    members.lookup "headers".toList = some (.array headers) ∧
    List.Forall₂ ReadsHeader response.headers headers ∧
    members.lookup "body".toList = some (.string (urlEncode response.body))

/-! ## Texts of the program's own -/

lemma hexChar_spec {digit : ℕ} (h : digit < 16) : 0x20 ≤ (hexChar digit).toNat ∧
    (hexChar digit).toNat < 0x80 ∧ hexChar digit ≠ '"' ∧ hexChar digit ≠ '\\' := by
  revert digit
  decide

lemma plainText_urlEncode (url : List Char) : PlainText (urlEncode url) := by
  refine Json.plainText_of_forall fun c hc => ?_
  obtain ⟨d, -, hc⟩ := List.mem_flatMap.mp hc
  split_ifs at hc with hcode
  · simp only [List.mem_cons, List.not_mem_nil, or_false] at hc
    rcases hc with rfl | rfl | rfl
    · decide
    · exact hexChar_spec (Nat.mod_lt _ (by decide))
    · exact hexChar_spec (Nat.mod_lt _ (by decide))
  · obtain rfl := List.mem_singleton.mp hc
    push Not at hcode
    refine ⟨by omega, by omega, ?_, ?_⟩
    · rintro rfl
      exact hcode.2.2 (by decide)
    · rintro rfl
      exact hcode.2.2 (by decide)

lemma isDigit_of_mem_toDigits {n : ℕ} {c : Char} (h : c ∈ Nat.toDigits 10 n) :
    isdigit c = true := by
  have hdigit := Nat.isDigit_of_mem_toDigits (by decide) (by decide) h
  simp only [Char.isDigit, Bool.and_eq_true, decide_eq_true_eq, ge_iff_le, UInt32.le_iff_toNat_le]
    at hdigit
  simpa [isdigit] using hdigit

lemma decimalValue_toDigits (n : ℕ) : decimalValue (Nat.toDigits 10 n) = n := by
  calc decimalValue (Nat.toDigits 10 n)
    _ = Nat.ofDigitChars 10 (Nat.toDigits 10 n) 0 := Nat.ofDigitChars_eq_foldl.symm
    _ = n := Nat.ofDigitChars_ten_toDigits

lemma atoi_spaces (n : ℕ) (text : List Char) : atoi (List.replicate n ' ' ++ text) = atoi text := by
  induction n with
  | zero => rfl
  | succ n ih =>
    rw [List.replicate_succ, List.cons_append, ← ih]
    rfl

lemma atoi_statusText (statusCode : ℤ) : atoi (statusText statusCode) = statusCode := by
  rw [statusText, List.leftpad, atoi_spaces]
  cases statusCode with
  | ofNat n =>
    rw [decimalText, atoi_of_digits fun c => isDigit_of_mem_toDigits, decimalValue_toDigits]
    rfl
  | negSucc n =>
    have htake : (Nat.toDigits 10 (n + 1)).takeWhile isdigit = Nat.toDigits 10 (n + 1) :=
      List.takeWhile_eq_self_iff.mpr fun c => isDigit_of_mem_toDigits
    rw [decimalText, atoi, List.dropWhile_cons_of_neg (by decide)]
    simp only [htake, decimalValue_toDigits]
    rfl

lemma plainText_statusText (statusCode : ℤ) : PlainText (statusText statusCode) := by
  refine Json.plainText_of_forall fun c hc => ?_
  have hdigit : ∀ n, c ∈ Nat.toDigits 10 n →
      0x20 ≤ c.toNat ∧ c.toNat < 0x80 ∧ c ≠ '"' ∧ c ≠ '\\' := by
    intro n hn
    have h := isDigit_of_mem_toDigits hn
    simp only [isdigit, Bool.and_eq_true, decide_eq_true_eq] at h
    refine ⟨by omega, by omega, ?_, ?_⟩
    · rintro rfl
      exact absurd h.1 (by decide)
    · rintro rfl
      exact absurd h.2 (by decide)
  rw [statusText, List.leftpad, List.mem_append] at hc
  rcases hc with hspace | hc
  · obtain rfl := (List.mem_replicate.mp hspace).2
    decide
  · cases statusCode with
    | ofNat n => exact hdigit n hc
    | negSucc n =>
      rcases List.mem_cons.mp hc with rfl | hc
      · decide
      · exact hdigit (n + 1) hc

/-! ## Members -/

variable {name : String} {text rest rest' : List Char} {fuel : ℕ}
  {members : List (List Char × Value)} {headers : List HttpHeader}

lemma member_append (name : String) (text rest : List Char) : member name text ++ rest =
    '"' :: (name.toList ++ '"' :: ':' :: ' ' :: '"' :: (text ++ '"' :: rest)) := by
  simp [member]

/-- The first member, if it says what was written. -/
lemma plainText_of_member (hname : PlainText name.toList)
    (h : Json.members (fuel + 2) (member name text ++ rest) = some (members, rest'))
    (hlookup : members.lookup name.toList = some (.string text)) : PlainText text := by
  rw [member_append] at h
  obtain ⟨v, rest'', members', hvalue, rfl⟩ := Json.members_head hname h
  rw [List.lookup_cons_self] at hlookup
  obtain rfl := Option.some.inj hlookup
  rw [Json.value_space, Json.value_string_iff] at hvalue
  exact hvalue.1

lemma value_quoted (h : PlainText text) :
    Json.value (fuel + 1) (' ' :: '"' :: (text ++ '"' :: rest)) = some (.string text, rest) := by
  rw [Json.value_space, Json.value_string_iff]
  exact ⟨h, rfl⟩

lemma members_member_comma (hname : PlainText name.toList) (h : PlainText text) :
    Json.members (fuel + 2) (member name text ++ ',' :: rest) =
      (Json.members (fuel + 1) rest).map fun (members, rest) =>
        ((name.toList, .string text) :: members, rest) := by
  rw [member_append, Json.members_comma hname (value_quoted h)]

lemma members_of_member_comma (hname : PlainText name.toList) (h : PlainText text)
    (hmembers : Json.members (fuel + 2) (member name text ++ ',' :: rest) = some (members, rest')) :
    ∃ members', members = (name.toList, .string text) :: members' ∧
      Json.members (fuel + 1) rest = some (members', rest') := by
  rw [members_member_comma hname h] at hmembers
  obtain ⟨⟨members', _⟩, hrest, heq⟩ := Option.map_eq_some_iff.mp hmembers
  obtain ⟨rfl, rfl⟩ := Prod.mk.inj heq
  exact ⟨members', rfl, hrest⟩

lemma members_member_brace (hname : PlainText name.toList) (h : PlainText text) :
    Json.members (fuel + 2) (member name text ++ '}' :: rest) =
      some ([(name.toList, .string text)], rest) := by
  rw [member_append, Json.members_brace hname (value_quoted h)]

/-! ## Headers -/

def PlainHeader (header : HttpHeader) : Prop :=
  PlainText header.fieldName ∧ PlainText header.value

def headerValue (header : HttpHeader) : Value :=
  .object [("key".toList, .string header.fieldName), ("value".toList, .string header.value)]

variable {header : HttpHeader} {v : Value} {vs : List Value}

lemma plainText_key : PlainText "key".toList := Json.plainText_of_forall (by decide)

lemma plainText_value : PlainText "value".toList := Json.plainText_of_forall (by decide)

lemma readsHeader_headerValue (header : HttpHeader) : ReadsHeader header (headerValue header) :=
  ⟨_, rfl, by simp, rfl, rfl⟩

lemma headerText_append (header : HttpHeader) (rest : List Char) : headerText header ++ rest =
    '{' :: (member "key" header.fieldName ++
      ',' :: (member "value" header.value ++ '}' :: rest)) := by
  simp [headerText]

lemma value_member (name : String) (text rest : List Char) (fuel : ℕ) :
    Json.value (fuel + 1) ('{' :: (member name text ++ rest)) =
      (Json.members fuel (member name text ++ rest)).map fun (members, rest) =>
        (.object members, rest) := by
  rw [member_append, Json.value_brace]

lemma value_headerText (h : PlainHeader header) :
    Json.value (fuel + 4) (headerText header ++ rest) = some (headerValue header, rest) := by
  rw [headerText_append, value_member, members_member_comma plainText_key h.1,
    members_member_brace plainText_value h.2]
  rfl

lemma plainHeader_of_readsHeader
    (h : Json.value (fuel + 4) (headerText header ++ rest) = some (v, rest'))
    (hreads : ReadsHeader header v) : PlainHeader header := by
  obtain ⟨members, rfl, -, hkey, hvalue⟩ := hreads
  rw [headerText_append, value_member] at h
  obtain ⟨⟨members', rest''⟩, hmembers, heq⟩ := Option.map_eq_some_iff.mp h
  obtain ⟨hobject, rfl⟩ := Prod.mk.inj heq
  obtain rfl := Value.object.inj hobject
  have hplain := plainText_of_member plainText_key hmembers hkey
  obtain ⟨members', rfl, hmembers'⟩ := members_of_member_comma plainText_key hplain hmembers
  exact ⟨hplain, plainText_of_member plainText_value hmembers' hvalue⟩

lemma headerTexts_cons (header : HttpHeader) (headers : List HttpHeader) (rest : List Char) :
    headerTexts true (header :: headers) ++ rest =
      ',' :: (headerText header ++ (headerTexts true headers ++ rest)) := by
  simp [headerTexts]

lemma length_cons_add (header : HttpHeader) (headers : List HttpHeader) (fuel : ℕ) :
    (header :: headers).length + fuel + 5 = (headers.length + fuel + 5) + 1 := by
  simp only [List.length_cons]
  omega

/-- The texts of some headers are the array of their values. -/
lemma elements_headerTexts : ∀ {headers : List HttpHeader} {header : HttpHeader},
    (∀ h ∈ header :: headers, PlainHeader h) →
    Json.elements (headers.length + fuel + 5)
        (headerText header ++ (headerTexts true headers ++ ']' :: rest)) =
      some ((header :: headers).map headerValue, rest)
  | [], header, h => by
    have hheader := h header List.mem_cons_self
    exact Json.elements_bracket (value_headerText hheader)
  | next :: headers, header, h => by
    have hheader := h header List.mem_cons_self
    have hnext := elements_headerTexts fun h' hh' => h h' (List.mem_cons_of_mem header hh')
    rw [headerTexts_cons, length_cons_add, Json.elements_comma (value_headerText hheader), hnext]
    rfl

/-- Headers whose values can be read back are plain. -/
lemma plainHeaders_of_readsHeader : ∀ {headers : List HttpHeader} {header : HttpHeader}
    {vs : List Value} {rest' : List Char},
    Json.elements (headers.length + fuel + 5)
        (headerText header ++ (headerTexts true headers ++ ']' :: rest)) = some (vs, rest') →
    List.Forall₂ ReadsHeader (header :: headers) vs → ∀ h ∈ header :: headers, PlainHeader h
  | [], header, vs, _, helements, hreads => by
    obtain ⟨v, rest'', vs', hvalue, rfl⟩ := Json.elements_head helements
    obtain ⟨hread, -⟩ := List.forall₂_cons.mp hreads
    exact List.forall_mem_singleton.mpr (plainHeader_of_readsHeader hvalue hread)
  | next :: headers, header, vs, _, helements, hreads => by
    rw [length_cons_add] at helements
    obtain ⟨v, rest'', vs', hvalue, rfl⟩ := Json.elements_head helements
    obtain ⟨hread, hreads⟩ := List.forall₂_cons.mp hreads
    have hheader : PlainHeader header := plainHeader_of_readsHeader hvalue hread
    rw [headerTexts_cons, Json.elements_comma (value_headerText hheader)] at helements
    obtain ⟨⟨vs'', _⟩, hnext, heq⟩ := Option.map_eq_some_iff.mp helements
    obtain ⟨-, rfl⟩ := List.cons.inj (Prod.mk.inj heq).1
    exact List.forall_mem_cons.mpr ⟨hheader, plainHeaders_of_readsHeader hnext hreads⟩

lemma value_headerTexts (header : HttpHeader) (headers : List HttpHeader) (rest : List Char)
    (fuel : ℕ) :
    Json.value (fuel + 1) (' ' :: '[' :: (headerTexts false (header :: headers) ++ rest)) =
      (Json.elements fuel (headerText header ++ (headerTexts true headers ++ rest))).map
        fun (vs, rest) => (.array vs, rest) := by
  have htexts : headerTexts false (header :: headers) ++ rest =
      headerText header ++ (headerTexts true headers ++ rest) := by
    simp [headerTexts]
  rw [htexts, Json.value_space, headerText_append, Json.value_bracket]

/-- The array of the headers, with a blank before it. -/
lemma value_headers (h : ∀ h ∈ headers, PlainHeader h) :
    Json.value (headers.length + fuel + 5)
        (' ' :: '[' :: (headerTexts false headers ++ ']' :: rest)) =
      some (.array (headers.map headerValue), rest) := by
  cases headers with
  | nil => rw [Json.value_space]; rfl
  | cons header headers =>
    rw [length_cons_add, value_headerTexts, elements_headerTexts h]
    rfl

lemma plainHeaders_of_value
    (h : Json.value (headers.length + fuel + 5)
      (' ' :: '[' :: (headerTexts false headers ++ ']' :: rest)) = some (.array vs, rest'))
    (hreads : List.Forall₂ ReadsHeader headers vs) : ∀ h ∈ headers, PlainHeader h := by
  cases headers with
  | nil => exact fun _ hmem => absurd hmem List.not_mem_nil
  | cons header headers =>
    rw [length_cons_add, value_headerTexts] at h
    obtain ⟨⟨vs', _⟩, helements, heq⟩ := Option.map_eq_some_iff.mp h
    obtain rfl := Value.array.inj (Prod.mk.inj heq).1
    exact plainHeaders_of_readsHeader helements hreads

/-! ## The text -/

variable {response : HttpResponse} {body : List Char}

/-- What the text decodes to, if it decodes to the response. -/
def responseMembers (response : HttpResponse) (body : List Char) : List (List Char × Value) :=
  [("version".toList, .string response.version),
    ("status_code".toList, .string (statusText response.statusCode)),
    ("phrase".toList, .string response.phrase), ("body".toList, .string body),
    ("headers".toList, .array (response.headers.map headerValue))]

structure PlainResponse (response : HttpResponse) : Prop where
  version : PlainText response.version
  phrase : PlainText response.phrase
  headers : ∀ header ∈ response.headers, PlainHeader header

lemma plainText_version : PlainText "version".toList := Json.plainText_of_forall (by decide)

lemma plainText_status_code : PlainText "status_code".toList := Json.plainText_of_forall (by decide)

lemma plainText_phrase : PlainText "phrase".toList := Json.plainText_of_forall (by decide)

lemma plainText_body : PlainText "body".toList := Json.plainText_of_forall (by decide)

lemma plainText_headers : PlainText "headers".toList := Json.plainText_of_forall (by decide)

lemma length_jsonText (response : HttpResponse) (body : List Char) :
    response.headers.length + 20 ≤ (jsonText response body).length := by
  have hheaders : ∀ (headers : List HttpHeader) f,
      headers.length ≤ (headerTexts f headers).length := by
    intro headers
    induction headers with
    | nil => simp
    | cons header headers ih =>
      intro f
      have := ih true
      simp only [headerTexts, headerText, List.length_append, List.length_cons]
      omega
  have := hheaders response.headers false
  simp only [jsonText, member, List.length_append, List.length_cons]
  omega

/-- The text of a plain response decodes to it. -/
lemma value_jsonText (h : PlainResponse response) (hbody : PlainText body) :
    Json.value (response.headers.length + fuel + 11) (jsonText response body) =
      some (.object (responseMembers response body), []) := by
  have hheaders : Json.value (response.headers.length + fuel + 5)
      (' ' :: '[' :: (headerTexts false response.headers ++ [']', '}'])) = _ :=
    value_headers h.headers
  rw [jsonText, value_member, members_member_comma plainText_version h.version,
    members_member_comma plainText_status_code (plainText_statusText _),
    members_member_comma plainText_phrase h.phrase, members_member_comma plainText_body hbody,
    Json.members_brace plainText_headers hheaders]
  rfl

lemma lookup_cons_ne {key key' : List Char} (v : Value) (h : (key == key') = false) :
    ((key', v) :: members).lookup key = members.lookup key := by
  rw [List.lookup_cons, h]

/-- A text that decodes to the response has been plain all along: each member is the first of its
name, so that it is read at the quote that was printed for it. -/
lemma plainResponse_of_value
    (h : Json.value (response.headers.length + fuel + 11) (jsonText response body) =
      some (.object members, rest)) (hbody : PlainText body)
    (hversion : members.lookup "version".toList = some (.string response.version))
    (hphrase : members.lookup "phrase".toList = some (.string response.phrase))
    (hheaders : members.lookup "headers".toList = some (.array vs))
    (hreads : List.Forall₂ ReadsHeader response.headers vs) : PlainResponse response := by
  rw [jsonText, value_member] at h
  obtain ⟨⟨members', _⟩, hmembers, heq⟩ := Option.map_eq_some_iff.mp h
  obtain rfl := Value.object.inj (Prod.mk.inj heq).1
  have hversion' := plainText_of_member plainText_version hmembers hversion
  obtain ⟨_, rfl, hstatus⟩ := members_of_member_comma plainText_version hversion' hmembers
  obtain ⟨_, rfl, hrest⟩ :=
    members_of_member_comma plainText_status_code (plainText_statusText _) hstatus
  rw [lookup_cons_ne _ rfl, lookup_cons_ne _ rfl] at hphrase hheaders
  have hphrase' := plainText_of_member plainText_phrase hrest hphrase
  obtain ⟨_, rfl, hbodies⟩ := members_of_member_comma plainText_phrase hphrase' hrest
  obtain ⟨_, rfl, harray⟩ := members_of_member_comma plainText_body hbody hbodies
  rw [lookup_cons_ne _ rfl, lookup_cons_ne _ rfl] at hheaders
  obtain ⟨v, _, _, hvalue, rfl⟩ := Json.members_head plainText_headers harray
  rw [List.lookup_cons_self] at hheaders
  obtain rfl := Option.some.inj hheaders
  rw [show [']', '\x7d'] = ']' :: ['\x7d'] from rfl] at hvalue
  exact ⟨hversion', hphrase', plainHeaders_of_value hvalue hreads⟩

lemma decode_jsonText (h : PlainResponse response) (hbody : PlainText body) :
    Json.decode (jsonText response body) = some (.object (responseMembers response body)) := by
  obtain ⟨fuel, hfuel⟩ := Nat.exists_eq_add_of_le (length_jsonText response body)
  have hlength : (jsonText response body).length + 1 =
      response.headers.length + (fuel + 10) + 11 := by omega
  rw [Json.decode, hlength, value_jsonText h hbody]
  rfl

/-- A text decodes to the response exactly when the response is plain. -/
lemma faithful_iff (response : HttpResponse) :
    Faithful (jsonText response (urlEncode response.body)) response ↔ PlainResponse response := by
  have hbody := plainText_urlEncode response.body
  constructor
  · rintro ⟨members, status, headers, hdecode, -, hversion, -, -, hphrase, hheaders, hreads, -⟩
    obtain ⟨fuel, hfuel⟩ :=
      Nat.exists_eq_add_of_le (length_jsonText response (urlEncode response.body))
    have hlength : (jsonText response (urlEncode response.body)).length + 1 =
        response.headers.length + (fuel + 10) + 11 := by omega
    rw [Json.decode, hlength, Option.bind_eq_some_iff] at hdecode
    obtain ⟨⟨v, rest⟩, hvalue, hend⟩ := hdecode
    simp only at hend
    split_ifs at hend
    obtain rfl := Option.some.inj hend
    exact plainResponse_of_value hvalue hbody hversion hphrase hheaders hreads
  · intro h
    refine ⟨_, _, _, decode_jsonText h hbody, by simp [responseMembers], rfl, rfl,
      atoi_statusText _, rfl, rfl, ?_, rfl⟩
    exact List.forall₂_map_right_iff.mpr (List.forall₂_same.mpr fun header _ =>
      readsHeader_headerValue header)

/-! ## Every response -/

variable {malloc : Allocation → Bool} {buf : List Char} {requestHeaders : List HttpHeader}

lemma length_parseHeaders : ∀ {nt i : ℕ} {sm sm' : StateMachine} {headers : List HttpHeader},
    parseHeaders malloc buf i nt sm = .ok (headers, sm') → headers.length = nt
  | 0, _, _, _, _, h => by
    obtain ⟨rfl, -⟩ := Prod.mk.inj (Except.ok.inj h)
    rfl
  | nt + 1, i, sm, sm', headers, h => by
    obtain ⟨⟨_, sm₁⟩, -, h⟩ := bind_eq_ok h
    obtain ⟨fieldName, -, h⟩ := bind_eq_ok h
    obtain ⟨⟨value, sm₂⟩, -, h⟩ := bind_eq_ok h
    obtain ⟨⟨headers', sm₃⟩, hheaders, h⟩ := bind_eq_ok h
    obtain ⟨rfl, -⟩ := Prod.mk.inj (Except.ok.inj h)
    rw [List.length_cons, length_parseHeaders hheaders]

lemma length_parseBody {sm : StateMachine} {body : List Char} {bodyLen : ℤ}
    (h : parseBody malloc buf sm = .ok (body, bodyLen)) : (body.length : ℤ) = bodyLen := by
  obtain ⟨sm', -, h⟩ := bind_eq_ok h
  simp only at h
  split_ifs at h with hneg
  obtain ⟨rfl, rfl⟩ := Prod.mk.inj (Except.ok.inj h)
  rw [List.length_drop]
  omega

/-- The counts of a response are those of its headers and its body. -/
lemma lengths_of_httpParseResponse (h : httpParseResponse malloc buf = .ok response) :
    response.headers.length = response.headerLen ∧
      (response.body.length : ℤ) = response.bodyLen := by
  obtain ⟨⟨version, statusCode, phrase, sm⟩, -, h⟩ := bind_eq_ok h
  obtain ⟨⟨nt, sm₁⟩, -, h⟩ := bind_eq_ok h
  obtain ⟨_, -, h⟩ := bind_eq_ok h
  obtain ⟨⟨headers, sm₂⟩, hheaders, h⟩ := bind_eq_ok h
  obtain ⟨⟨body, bodyLen⟩, hbody, h⟩ := bind_eq_ok h
  obtain rfl := Except.ok.inj h
  exact ⟨length_parseHeaders hheaders, length_parseBody hbody⟩

/-- The text is shorter than what is reserved for it. -/
def Fits (requestHeaders : List HttpHeader) (response : HttpResponse) : Prop :=
  71 + response.version.length + (statusText response.statusCode).length + response.phrase.length +
      (urlEncode response.body).length +
      ((response.headers.map fun header =>
        header.fieldName.length + header.value.length + 24).sum - 1) <
    4 * (168 + 256 * response.headers.length + response.version.length + response.phrase.length +
      3 * response.body.length + 2 * (requestHeaders.map fun header =>
        header.fieldName.length + header.value.length).sum)

/-- There are not too many headers, in the request and in the response. -/
def Located (requestHeaders : List HttpHeader) (response : HttpResponse) : Prop :=
  9 + 2 * requestHeaders.length + 2 * response.headers.length +
    (if response.headers = [] then 0 else 1) + (if response.body = [] then 0 else 2) ≤ 512

lemma length_member (name : String) (text : List Char) :
    (member name text).length = name.length + text.length + 6 := by
  simp only [member, List.length_cons, List.length_append, List.length_nil, String.length_toList]
  omega

lemma length_headerTexts (headers : List HttpHeader) : (headerTexts true headers).length =
    (headers.map fun header => header.fieldName.length + header.value.length + 24).sum := by
  induction headers with
  | nil => rfl
  | cons header headers ih =>
    have hkey : "key".length = 3 := rfl
    have hvalue : "value".length = 5 := rfl
    rw [headerTexts, List.length_append, List.length_append, ih, List.map_cons, List.sum_cons]
    simp only [headerText, List.length_cons, List.length_append, length_member, if_true,
      List.length_nil, hkey, hvalue]
    omega

lemma length_headerTexts_false (headers : List HttpHeader) : (headerTexts false headers).length =
    (headers.map fun header => header.fieldName.length + header.value.length + 24).sum - 1 := by
  rw [← length_headerTexts]
  cases headers with
  | nil => rfl
  | cons header headers => simp [headerTexts]

lemma length_jsonText_eq (response : HttpResponse) (body : List Char) :
    (jsonText response body).length =
      71 + response.version.length + (statusText response.statusCode).length +
        response.phrase.length + body.length +
        ((response.headers.map fun header =>
          header.fieldName.length + header.value.length + 24).sum - 1) := by
  have hversion : "version".length = 7 := rfl
  have hstatus : "status_code".length = 11 := rfl
  have hphrase : "phrase".length = 6 := rfl
  have hbody : "body".length = 4 := rfl
  have hheaders : "headers".length = 7 := rfl
  simp only [jsonText, List.length_cons, List.length_append, length_member, String.length_toList,
    List.length_nil, length_headerTexts_false, hversion, hstatus, hphrase, hbody, hheaders]
  omega

lemma fits_iff (hheaders : response.headers.length = response.headerLen)
    (hbody : (response.body.length : ℤ) = response.bodyLen) :
    Fits requestHeaders response ↔ (jsonText response (urlEncode response.body)).length <
      reserved requestHeaders response := by
  have hbody' : response.bodyLen.toNat = response.body.length := by omega
  have hversion : "version".length = 7 := rfl
  have hstatus : "status_code".length = 11 := rfl
  have hphrase : "phrase".length = 6 := rfl
  have hname : "body".length = 4 := rfl
  have hlist : "headers".length = 7 := rfl
  rw [length_jsonText_eq, Fits, reserved, ← hheaders, hbody', hversion, hstatus, hphrase, hname,
    hlist]
  omega

lemma located_iff (hheaders : response.headers.length = response.headerLen)
    (hbody : (response.body.length : ℤ) = response.bodyLen) :
    Located requestHeaders response ↔ memlocs requestHeaders response ≤ maxMemlocs := by
  have hnil : response.headers = [] ↔ response.headerLen = 0 := by
    rw [← hheaders, List.length_eq_zero_iff]
  have hempty : response.body = [] ↔ response.bodyLen = 0 := by
    rw [← hbody, ← List.length_eq_zero_iff]
    omega
  rw [Located, memlocs, maxMemlocs]
  simp only [hnil, hempty, hheaders]
  omega

lemma httpApiMain_eq_ok_iff {text : List Char}
    (hheaders : response.headers.length = response.headerLen)
    (hbody : (response.body.length : ℤ) = response.bodyLen) :
    httpApiMain requestHeaders response = .ok text ↔
      text = jsonText response (urlEncode response.body) ∧ Fits requestHeaders response ∧
        Located requestHeaders response := by
  have hencode : (if response.bodyLen ≤ 0 then [] else urlEncode response.body) =
      urlEncode response.body := by
    split_ifs with hle
    · obtain hnil : response.body = [] := List.length_eq_zero_iff.mp (by omega)
      rw [hnil]
      rfl
    · rfl
  rw [fits_iff hheaders hbody, located_iff hheaders hbody, httpApiMain]
  simp only [hencode]
  split_ifs with hlocated hfits
  · exact ⟨nofun, fun h => absurd h.2.2 (by omega)⟩
  · exact ⟨nofun, fun h => absurd h.2.1 (by omega)⟩
  · rw [Except.ok.injEq, eq_comm]
    exact (and_iff_left ⟨by omega, by omega⟩).symm

/-- The reply decodes to the response exactly when the version, the phrase and the headers are plain
texts, the buffer holds them, and there are not too many headers. -/
theorem httpApiMain_faithful_iff (h : httpParseResponse malloc buf = .ok response) :
    (∃ text, httpApiMain requestHeaders response = .ok text ∧ Faithful text response) ↔
      PlainResponse response ∧ Fits requestHeaders response ∧ Located requestHeaders response := by
  obtain ⟨hheaders, hbody⟩ := lengths_of_httpParseResponse h
  constructor
  · rintro ⟨text, htext, hfaithful⟩
    obtain ⟨rfl, hfits, hlocated⟩ := (httpApiMain_eq_ok_iff hheaders hbody).mp htext
    exact ⟨(faithful_iff response).mp hfaithful, hfits, hlocated⟩
  · rintro ⟨hplain, hfits, hlocated⟩
    exact ⟨_, (httpApiMain_eq_ok_iff hheaders hbody).mpr ⟨rfl, hfits, hlocated⟩,
      (faithful_iff response).mpr hplain⟩

def plainReply : List Char := "HTTP/1.1 200 OK\r\nA: b\r\n\r\nhi".toList

def plainReplyParsed : HttpResponse where
  version := "HTTP/1.1 ".toList
  statusCode := 200
  phrase := "OK".toList
  headers := [⟨"A".toList, "b".toList⟩]
  headerLen := 1
  body := "hi".toList
  bodyLen := 2

theorem httpApiMain_faithful_plainReply :
    ∃ text, httpApiMain [] plainReplyParsed = .ok text ∧ Faithful text plainReplyParsed := by
  have hparse : httpParseResponse (fun _ => true) plainReply = .ok plainReplyParsed := by
    decide
  refine (httpApiMain_faithful_iff hparse).mpr ⟨⟨?_, ?_, ?_⟩, ?_, ?_⟩
  · exact Json.plainText_of_forall (by decide)
  · exact Json.plainText_of_forall (by decide)
  · exact List.forall_mem_singleton.mpr
      ⟨Json.plainText_of_forall (by decide), Json.plainText_of_forall (by decide)⟩
  · unfold Fits
    decide
  · unfold Located
    decide

/-- A phrase with a quote is printed as it is. -/
def quotedReply : List Char := "HTTP/1.1 200 a\"b\r\n\r\n".toList

def quotedReplyParsed : HttpResponse where
  version := "HTTP/1.1 ".toList
  statusCode := 200
  phrase := "a\"b".toList
  headers := []
  headerLen := 0
  body := []
  bodyLen := 0

theorem not_httpApiMain_faithful :
    ¬∀ (malloc : Allocation → Bool) (buf : List Char) (requestHeaders : List HttpHeader)
      (response : HttpResponse), httpParseResponse malloc buf = .ok response →
        ∃ text, httpApiMain requestHeaders response = .ok text ∧ Faithful text response := by
  intro h
  have hparse : httpParseResponse (fun _ => true) quotedReply = .ok quotedReplyParsed := by
    decide +kernel
  obtain ⟨text, htext, hfaithful⟩ := h _ _ [] _ hparse
  obtain ⟨rfl, -, -⟩ := (httpApiMain_eq_ok_iff rfl rfl).mp htext
  have hplain := ((faithful_iff quotedReplyParsed).mp hfaithful).phrase
  exact absurd (Json.quote_not_mem_of_plain hplain) (by decide)

end FreeswitchContrib.ModHttp

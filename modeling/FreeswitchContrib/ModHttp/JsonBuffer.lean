import FreeswitchContrib.Library.Printing
import FreeswitchContrib.ModHttp.JsonResponse

/-!
# The buffer of the JSON text

`http_api_main` computes the length of its buffer once and then prints the text piece by piece, at
an offset that grows by what each `snprintf` says it would have printed.  The length counts the
headers of the request twice and 256 characters for each header of the response, whatever they hold,
all of it four times over.

`neverOverrun_iff` says when this is enough: `Fits` compares the lengths of the response, and
`Located` is the limit on the allocations, without which nothing is printed.
-/

namespace FreeswitchContrib.ModHttp

open Printing (Piece Chained)

variable {requestHeaders headers : List HttpHeader} {response : HttpResponse} {body : List Char}
  {malloc : Allocation → Bool} {buf : List Char} {m : ℕ} {f : Bool}

/-! ## The calls of `snprintf` -/

/-- The text before the headers. -/
def jsonHead (response : HttpResponse) (body : List Char) : List Char :=
  '{' :: (member "version" response.version ++
    ',' :: (member "status_code" (statusText response.statusCode) ++
    ',' :: (member "phrase" response.phrase ++
    ',' :: (member "body" body ++
    ',' :: '"' :: ("headers".toList ++ ['"', ':', ' ', '['])))))

/-- The loop over the headers: its calls, and the offset behind them. -/
def headerCalls : ℕ → Bool → List HttpHeader → List Piece × ℕ
  | m, _, [] => ([], m)
  | m, f, header :: headers =>
    let comma : List Piece := if f then [⟨m, [',']⟩] else []
    let m := if f then m + 1 else m
    let rest := headerCalls (m + (headerText header).length) true headers
    (comma ++ ⟨m, headerText header⟩ :: rest.1, rest.2)

/-- All calls, in their order; there are none if too many pieces of memory are in use before. -/
def snprintfCalls (requestHeaders : List HttpHeader) (response : HttpResponse) : List Piece :=
  let body := if response.bodyLen ≤ 0 then [] else urlEncode response.body
  if maxMemlocs < memlocs requestHeaders response then []
  else
    let first := jsonHead response body
    let loop := headerCalls first.length false response.headers
    ⟨0, first⟩ :: loop.1 ++ [⟨loop.2, [']', '\x7d']⟩]

/-- At each call the offset is in the buffer, and its text is printed to the end, with a NUL. -/
def NeverOverrun (l : ℕ) (calls : List Piece) : Prop :=
  ∀ call ∈ calls, call.offset ≤ l ∧ call.last < l

/-! ## Where they print -/

lemma headerCalls_chained : ∀ (headers : List HttpHeader) (m : ℕ) (f : Bool),
    Chained m (headerCalls m f headers).1 ∧
      Printing.text (headerCalls m f headers).1 = headerTexts f headers ∧
      (headerCalls m f headers).2 = m + (headerTexts f headers).length
  | [], _, _ => ⟨trivial, rfl, rfl⟩
  | header :: headers, m, false => by
    obtain ⟨hchained, htext, hoffset⟩ :=
      headerCalls_chained headers (m + (headerText header).length) true
    refine ⟨⟨rfl, hchained⟩, ?_, ?_⟩
    · simp [headerCalls, headerTexts, htext]
    · simp [headerCalls, headerTexts, hoffset, Nat.add_assoc]
  | header :: headers, m, true => by
    obtain ⟨hchained, htext, hoffset⟩ :=
      headerCalls_chained headers (m + 1 + (headerText header).length) true
    refine ⟨⟨rfl, rfl, hchained⟩, ?_, ?_⟩
    · simp [headerCalls, headerTexts, htext]
    · simp only [headerCalls, if_true, hoffset, headerTexts, List.length_append, List.length_cons,
        List.length_nil]
      omega

lemma jsonText_eq (response : HttpResponse) (body : List Char) : jsonText response body =
    jsonHead response body ++ (headerTexts false response.headers ++ [']', '\x7d']) := by
  simp [jsonText, jsonHead]

/-- **The calls print the text**, one behind the other. -/
theorem snprintfCalls_eq (hheaders : response.headers.length = response.headerLen)
    (hbody : (response.body.length : ℤ) = response.bodyLen)
    (hlocated : Located requestHeaders response) :
    ∃ before piece, snprintfCalls requestHeaders response = before ++ [piece] ∧
      Chained 0 (before ++ [piece]) ∧
      Printing.text (before ++ [piece]) = jsonText response (urlEncode response.body) := by
  have hencode : (if response.bodyLen ≤ 0 then [] else urlEncode response.body)
      = urlEncode response.body := by
    split_ifs with hle
    · obtain hnil : response.body = [] := List.length_eq_zero_iff.mp (by omega)
      rw [hnil]
      rfl
    · rfl
  have hmemlocs : ¬maxMemlocs < memlocs requestHeaders response :=
    not_lt.mpr ((located_iff hheaders hbody).mp hlocated)
  obtain ⟨hchained, htext, hoffset⟩ := headerCalls_chained response.headers
    (jsonHead response (urlEncode response.body)).length false
  refine ⟨_, _, by rw [snprintfCalls, hencode]; simp only [if_neg hmemlocs]; rfl, ?_, ?_⟩
  · rw [Printing.chained_append]
    refine ⟨⟨rfl, ?_⟩, ?_, trivial⟩
    · rw [Piece.last, Nat.zero_add]
      exact hchained
    · simp only [Printing.text_cons, List.length_append, htext, hoffset, Nat.zero_add]
  · rw [Printing.text_append, Printing.text_cons, htext, jsonText_eq]
    simp

/-! ## The buffer -/

lemma neverOverrun_iff_fits (hheaders : response.headers.length = response.headerLen)
    (hbody : (response.body.length : ℤ) = response.bodyLen)
    (hlocated : Located requestHeaders response) :
    NeverOverrun (reserved requestHeaders response) (snprintfCalls requestHeaders response) ↔
      Fits requestHeaders response := by
  obtain ⟨before, piece, hcalls, hchained, htext⟩ := snprintfCalls_eq hheaders hbody hlocated
  have hend : (∀ call ∈ before ++ [piece], call.last < reserved requestHeaders response) ↔ _ :=
    hchained.forall_end_lt_iff
  rw [htext, Nat.zero_add, ← fits_iff hheaders hbody] at hend
  rw [hcalls, ← hend]
  constructor
  · exact fun hnever call hcall => (hnever call hcall).2
  · intro hall call hcall
    have hlt := hall call hcall
    exact ⟨(Nat.le_add_right _ _).trans hlt.le, hlt⟩

/-- **When the buffer is never overrun.**  For every response that is accepted, all calls print in
the buffer and nothing is cut off exactly when the text is shorter than the computed length, or
there are so many headers that nothing is printed. -/
theorem neverOverrun_iff (h : httpParseResponse malloc buf = .ok response)
    (requestHeaders : List HttpHeader) :
    NeverOverrun (reserved requestHeaders response) (snprintfCalls requestHeaders response) ↔
      Fits requestHeaders response ∨ ¬Located requestHeaders response := by
  obtain ⟨hheaders, hbody⟩ := lengths_of_httpParseResponse h
  by_cases hlocated : Located requestHeaders response
  · rw [neverOverrun_iff_fits hheaders hbody hlocated, or_iff_left (not_not.mpr hlocated)]
  · have hmemlocs : maxMemlocs < memlocs requestHeaders response := by
      rw [← not_le, ← located_iff hheaders hbody]
      exact hlocated
    have hnone : snprintfCalls requestHeaders response = [] := by
      rw [snprintfCalls]
      exact if_pos hmemlocs
    rw [hnone]
    exact iff_of_true (fun call hcall => absurd hcall List.not_mem_nil) (Or.inr hlocated)

theorem neverOverrun_plainReply :
    NeverOverrun (reserved [] plainReplyParsed) (snprintfCalls [] plainReplyParsed) := by
  have hparse : httpParseResponse (fun _ => true) plainReply = .ok plainReplyParsed := by
    decide +kernel
  refine (neverOverrun_iff hparse []).mpr (Or.inl ?_)
  unfold Fits
  decide +kernel

/-- A cookie of 2000 characters. -/
def cookieResponse : ServerResponse where
  major := ['1']
  minor := ['1']
  code := ['2', '0', '0']
  phrase := ['O', 'K']
  headers := [⟨"Set-Cookie".toList, List.replicate 2000 'a'⟩]
  body := []
  major_digits := datedResponse.major_digits
  minor_digits := datedResponse.minor_digits
  code_digits := datedResponse.code_digits
  phrase_printable := datedResponse.phrase_printable
  names := by decide
  values := by
    intro header hheader
    obtain rfl := List.mem_singleton.mp hheader
    exact ⟨List.cons_ne_nil _ _, fun c hc => by rw [(List.mem_replicate.mp hc).2]; rfl⟩
  body_noNul := by decide

/-- The header of the response is longer than all that is reserved. -/
theorem not_neverOverrun : ¬∀ (malloc : Allocation → Bool) (buf : List Char)
    (response : HttpResponse), httpParseResponse malloc buf = .ok response →
    ∀ requestHeaders : List HttpHeader,
      NeverOverrun (reserved requestHeaders response) (snprintfCalls requestHeaders response) := by
  intro h
  have hparse := httpParseResponse_render (r := cookieResponse) (by decide)
    (List.forall_mem_singleton.mpr ⟨by decide, by decide +kernel⟩)
  have hlocated : Located [] cookieResponse.parsed := by
    unfold Located
    decide +kernel
  have hfits := (neverOverrun_iff_fits rfl rfl hlocated).mp (h _ _ _ hparse [])
  unfold Fits at hfits
  exact absurd hfits (by decide +kernel)

end FreeswitchContrib.ModHttp

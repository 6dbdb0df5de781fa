import FreeswitchContrib.ModHttp.ResponseParsing

/-!
# Taking a URL apart

`http_req` goes through the URL once.  At a colon it copies what is before it for the host and notes
where the port begins; the first slash behind, or the NUL, ends the port or else the host.  The path
is what stands there.

The port is copied into six characters, together with the one behind it, and only if that leaves a
place for a NUL: a port of five digits is refused, with the URL.

* `scanUrl_skip`: the characters that are passed over;
* `httpReqUrl_render`: a URL with a port of up to four digits, or with none, is taken apart;
* `httpReqUrl_render_iff`: and no other one is.
-/

namespace FreeswitchContrib.ModHttp

/-! ## The loop -/

/-- `MAX_PORT_LEN`. -/
def maxPortLen : ℕ := 6

/-- `DEFAULT_HTTP_PORT`. -/
def defaultHttpPort : ℕ := 80

def httpScheme : List Char := ['h', 't', 't', 'p', ':', '/', '/']

/-- What the loop knows. -/
structure UrlScan where
  hostname : List Char
  /-- there has been a colon -/
  f : Bool
  /-- the place of the colon -/
  p : ℕ
  port : ℕ
  /-- where the path begins -/
  q : ℕ

/-- The characters from the end of `http://` to `j`, for which `hostname` has to have room. -/
def copyHostname (url : List Char) (j : ℕ) : Except Failure (List Char) :=
  if j - httpScheme.length < url.length then
    .ok (strncpy url httpScheme.length (j - httpScheme.length))
  else
    .error .fault

/-- The number from behind the colon to `j`, a `uint16_t`. -/
def copyPort (url : List Char) (p j : ℕ) : ℕ :=
  if j - p < maxPortLen then (atoi (strncpy url (p + 1) (j - p)) % 65536).toNat else 0

/-- So many turns of the loop, from `j` on.  `url` is the string with its NUL. -/
def scanUrl (url : List Char) : ℕ → ℕ → UrlScan → Except Failure UrlScan
  | 0, _, s => .ok s
  | n + 1, j, s =>
    match url[j]? with
    | none => .error .fault
    | some c =>
      if c = ':' then do
        let hostname ← copyHostname url j
        scanUrl url n (j + 1) { s with hostname, f := true, p := j }
      else if c = '/' ∨ c = '\x00' then
        if s.f then
          .ok { s with port := copyPort url s.p j, q := j }
        else do
          let hostname ← copyHostname url j
          .ok { s with hostname, port := defaultHttpPort, q := j }
      else
        scanUrl url n (j + 1) s

/-- What the request is sent to, and the path in its first line. -/
structure UrlParts where
  hostname : List Char
  port : ℕ
  path : List Char
deriving DecidableEq

/-- The path of the request: a slash is put before one that has none. -/
def requestPath (url : List Char) (q : ℕ) : List Char :=
  let path := (url.drop q).takeWhile fun c => decide (c ≠ '\x00')
  if url[q]? = some '/' then path else '/' :: path

/-- `http_req` up to the search for the host. -/
def httpReqUrl (url : List Char) : Except Failure UrlParts := do
  let url := url ++ ['\x00']
  let s ← scanUrl url (url.length - httpScheme.length) httpScheme.length ⟨[], false, 0, 0, 0⟩
  if s.port = 0 ∨ s.hostname = [] then .error .error
  else .ok ⟨s.hostname.takeWhile fun c => decide (c ≠ '/'), s.port, requestPath url s.q⟩

/-! ## URLs -/

/-- A URL with a host, and with a port and a path if it has them. -/
structure HttpUrl where
  host : List Char
  port : Option (List Char)
  path : Option (List Char)
  host_ne_nil : host ≠ []
  host_plain : ∀ c ∈ host, c ≠ ':' ∧ c ≠ '/' ∧ c ≠ '\x00'
  port_digits : ∀ digits ∈ port, digits ≠ [] ∧ ∀ c ∈ digits, isdigit c = true
  port_value : ∀ digits ∈ port, 1 ≤ decimalValue digits ∧ decimalValue digits ≤ 65535
  path_slash : ∀ text ∈ path, text.head? = some '/'
  path_noNul : ∀ text ∈ path, '\x00' ∉ text

namespace HttpUrl

def portText (u : HttpUrl) : List Char :=
  match u.port with
  | some digits => ':' :: digits
  | none => []

def render (u : HttpUrl) : List Char :=
  httpScheme ++ (u.host ++ (u.portText ++ u.path.getD []))

/-- What the URL says. -/
def parts (u : HttpUrl) : UrlParts where
  hostname := u.host
  port := match u.port with
    | some digits => decimalValue digits
    | none => defaultHttpPort
  path := u.path.getD ['/']

/-- The port that the loop finds; 0 is no port. -/
def scannedPort (u : HttpUrl) : ℕ :=
  match u.port with
  | some digits => if digits.length ≤ 4 then decimalValue digits else 0
  | none => defaultHttpPort

end HttpUrl

/-! ## Copying -/

variable {u : HttpUrl} {before part rest digits : List Char} {stop : Char} {n : ℕ} {s : UrlScan}

/-- A character that is neither a colon nor an end. -/
def Plain (c : Char) : Prop := c ≠ ':' ∧ c ≠ '/' ∧ c ≠ '\x00'

lemma noNul_of_plain (hpart : ∀ c ∈ part, Plain c) : ∀ c ∈ part, decide (c ≠ '\x00') = true :=
  fun c hc => decide_eq_true (hpart c hc).2.2

lemma plain_of_isdigit {c : Char} (h : isdigit c = true) : Plain c := by
  refine ⟨?_, ?_, ?_⟩ <;> rintro rfl <;> exact absurd h (by decide)

lemma strncpy_append (hpart : ∀ c ∈ part, Plain c) :
    strncpy (before ++ (part ++ rest)) before.length part.length = part := by
  rw [strncpy, List.drop_left, List.take_left,
    List.takeWhile_eq_self_iff.mpr (noNul_of_plain hpart)]

lemma copyHostname_append (hpart : ∀ c ∈ part, Plain c) (hrest : rest ≠ []) :
    copyHostname (httpScheme ++ (part ++ rest)) (httpScheme.length + part.length) = .ok part := by
  have hpos := List.length_pos_iff.mpr hrest
  have hlen : (httpScheme ++ (part ++ rest)).length
      = httpScheme.length + (part.length + rest.length) := by simp
  rw [copyHostname, Nat.add_sub_cancel_left, if_pos (by omega), strncpy_append hpart]

/-- Digits are read up to the first character that is none. -/
lemma atoi_append (hne : digits ≠ []) (hdigits : ∀ c ∈ digits, isdigit c = true)
    (hrest : ∀ c ∈ rest.head?, isdigit c = false) :
    atoi (digits ++ rest) = decimalValue digits := by
  obtain ⟨d, ds, rfl⟩ := List.exists_cons_of_ne_nil hne
  have hd := hdigits d List.mem_cons_self
  have hdrop : (d :: ds ++ rest).dropWhile isspace = d :: ds ++ rest :=
    List.dropWhile_cons_of_neg (by simp [isspace_of_isdigit hd])
  have htake : (d :: ds ++ rest).takeWhile isdigit = d :: ds := by
    rw [List.takeWhile_append_of_pos hdigits]
    cases rest with
    | nil => simp
    | cons c rest => simp [hrest c rfl]
  rw [atoi, hdrop, List.cons_append]
  rw [List.cons_append] at htake
  split
  · next heq =>
    obtain ⟨rfl, -⟩ := List.cons.inj heq
    exact absurd hd (by decide)
  · next heq =>
    obtain ⟨rfl, -⟩ := List.cons.inj heq
    exact absurd hd (by decide)
  · rw [htake]

/-- The copied port ends in the character behind it, at which the number ends. -/
lemma atoi_port (hne : digits ≠ []) (hdigits : ∀ c ∈ digits, isdigit c = true)
    (hstop : isdigit stop = false) :
    atoi (strncpy (before ++ (digits ++ stop :: rest)) before.length (digits.length + 1))
      = decimalValue digits := by
  have htake : (digits ++ stop :: rest).take (digits.length + 1) = digits ++ [stop] := by
    rw [List.take_length_add_append]
    rfl
  have hnul : (digits ++ [stop]).takeWhile (fun c => decide (c ≠ '\x00'))
      = digits ++ [stop].takeWhile (fun c => decide (c ≠ '\x00')) :=
    List.takeWhile_append_of_pos (noNul_of_plain fun c hc => plain_of_isdigit (hdigits c hc))
  rw [strncpy, List.drop_left, htake, hnul]
  refine atoi_append hne hdigits fun c hc => ?_
  by_cases hzero : stop = '\x00'
  · rw [hzero] at hc
    cases hc
  · rw [List.takeWhile_cons, if_pos (decide_eq_true hzero)] at hc
    obtain rfl := Option.some.inj hc
    exact hstop

lemma requestPath_slash (before : List Char) {text : List Char} (hslash : text.head? = some '/')
    (hnul : '\x00' ∉ text) : requestPath (before ++ (text ++ ['\x00'])) before.length = text := by
  obtain ⟨rest, rfl⟩ : ∃ rest, text = '/' :: rest := by
    cases text with
    | nil => cases hslash
    | cons c rest => exact ⟨rest, by rw [Option.some.inj hslash]⟩
  have hall : ∀ c ∈ '/' :: rest, decide (c ≠ '\x00') = true :=
    fun c hc => decide_eq_true fun heq => hnul (heq ▸ hc)
  have hget : (before ++ ('/' :: rest ++ ['\x00']))[before.length]? = some '/' := by simp
  rw [requestPath, hget, if_pos rfl, List.drop_left, List.takeWhile_append_of_pos hall]
  simp

lemma requestPath_nil (before : List Char) :
    requestPath (before ++ ['\x00']) before.length = ['/'] := by
  have hget : (before ++ ['\x00'])[before.length]? = some '\x00' := by simp
  rw [requestPath, hget, List.drop_left]
  rfl

/-! ## Going through the URL -/

/-- **Characters that are passed over.** -/
lemma scanUrl_skip (url : List Char) (n : ℕ) (s : UrlScan) : ∀ (part before rest : List Char),
    url = before ++ (part ++ rest) → (∀ c ∈ part, Plain c) →
    scanUrl url (part.length + n) before.length s
      = scanUrl url n (before.length + part.length) s
  | [], _, _, _, _ => by rw [List.length_nil, Nat.zero_add, Nat.add_zero]
  | c :: part, before, rest, hurl, hpart => by
    have hc := hpart c List.mem_cons_self
    have hget : url[before.length]? = some c := by simp [hurl]
    have hturns : (c :: part).length + n = (part.length + n) + 1 := by
      rw [List.length_cons, Nat.add_right_comm]
    have ih := scanUrl_skip url n s part (before ++ [c]) rest (by rw [hurl]; simp)
      fun d hd => hpart d (List.mem_cons_of_mem _ hd)
    rw [List.length_append, List.length_singleton] at ih
    rw [hturns, scanUrl, hget]
    simp only
    rw [if_neg hc.1, if_neg (not_or.mpr hc.2), ih, List.length_cons]
    congr 1
    omega

lemma scanUrl_colon {url hostname : List Char} {j : ℕ} (hget : url[j]? = some ':')
    (hcopy : copyHostname url j = .ok hostname) (n : ℕ) (s : UrlScan) :
    scanUrl url (n + 1) j s = scanUrl url n (j + 1) { s with hostname, f := true, p := j } := by
  rw [scanUrl, hget]
  simp only
  rw [if_pos trivial, hcopy]
  rfl

lemma scanUrl_endPort {url : List Char} {j : ℕ} (hget : url[j]? = some stop)
    (hstop : stop = '/' ∨ stop = '\x00') (n : ℕ) (hf : s.f = true) :
    scanUrl url (n + 1) j s = .ok { s with port := copyPort url s.p j, q := j } := by
  have hcolon : stop ≠ ':' := by rcases hstop with rfl | rfl <;> decide
  rw [scanUrl, hget]
  simp only
  rw [if_neg hcolon, if_pos hstop, if_pos hf]

lemma scanUrl_endHost {url hostname : List Char} {j : ℕ} (hget : url[j]? = some stop)
    (hstop : stop = '/' ∨ stop = '\x00') (hcopy : copyHostname url j = .ok hostname) (n : ℕ)
    (hf : s.f = false) :
    scanUrl url (n + 1) j s = .ok { s with hostname, port := defaultHttpPort, q := j } := by
  have hcolon : stop ≠ ':' := by rcases hstop with rfl | rfl <;> decide
  rw [scanUrl, hget]
  simp only
  rw [if_neg hcolon, if_pos hstop, if_neg (by rw [hf]; exact Bool.false_ne_true), hcopy]
  rfl

lemma getElem?_behind (before : List Char) (c : Char) (rest : List Char) :
    (before ++ c :: rest)[before.length]? = some c := by simp

/-- What is behind the host and the port: a slash or the NUL first. -/
lemma HttpUrl.tail_eq (u : HttpUrl) : ∃ stop rest, u.path.getD [] ++ ['\x00'] = stop :: rest ∧
    (stop = '/' ∨ stop = '\x00') := by
  cases hpath : u.path with
  | none => exact ⟨_, _, rfl, Or.inr rfl⟩
  | some text =>
    have hslash := u.path_slash text hpath
    cases text with
    | nil => cases hslash
    | cons c rest => exact ⟨c, _, rfl, Or.inl (Option.some.inj hslash)⟩

lemma HttpUrl.requestPath_eq (u : HttpUrl) (before : List Char) :
    requestPath (before ++ (u.path.getD [] ++ ['\x00'])) before.length = u.path.getD ['/'] := by
  cases hpath : u.path with
  | none => exact requestPath_nil before
  | some text => exact requestPath_slash before (u.path_slash text hpath) (u.path_noNul text hpath)

/-- The port that is copied from behind its colon; five digits and the end have no room. -/
lemma copyPort_append (hne : digits ≠ []) (hdigits : ∀ c ∈ digits, isdigit c = true)
    (hvalue : decimalValue digits ≤ 65535) (hstop : isdigit stop = false) :
    copyPort (before ++ ':' :: (digits ++ stop :: rest)) before.length
        (before.length + 1 + digits.length)
      = if digits.length ≤ 4 then decimalValue digits else 0 := by
  have hsize : before.length + 1 + digits.length - before.length = digits.length + 1 := by omega
  have hsmall : ((decimalValue digits : ℤ) % 65536).toNat = decimalValue digits := by omega
  have hroom : digits.length + 1 < maxPortLen ↔ digits.length ≤ 4 := by
    rw [maxPortLen]
    omega
  have hcolon : before.length + 1 = (before ++ [':']).length := by
    rw [List.length_append, List.length_singleton]
  rw [copyPort, hsize, hcolon, List.append_cons, atoi_port hne hdigits hstop, hsmall]
  exact if_congr hroom rfl rfl

/-- From the colon on: the port, and the end behind it. -/
lemma scanUrl_port {url hostname : List Char}
    (hurl : url = before ++ ':' :: (digits ++ stop :: rest)) (hne : digits ≠ [])
    (hdigits : ∀ c ∈ digits, isdigit c = true) (hvalue : decimalValue digits ≤ 65535)
    (hstop : stop = '/' ∨ stop = '\x00') (hcopy : copyHostname url before.length = .ok hostname)
    (n : ℕ) (s : UrlScan) :
    scanUrl url ((':' :: digits).length + (n + 1)) before.length s
      = .ok ⟨hostname, true, before.length, if digits.length ≤ 4 then decimalValue digits else 0,
        before.length + 1 + digits.length⟩ := by
  have hget : url[before.length]? = some ':' := by
    rw [hurl]
    exact getElem?_behind _ ':' _
  have hturns : (':' :: digits).length + (n + 1) = (digits.length + (n + 1)) + 1 := by
    rw [List.length_cons]
    omega
  have hcolon : (before ++ [':']).length = before.length + 1 := by
    rw [List.length_append, List.length_singleton]
  have hurl' : url = before ++ [':'] ++ (digits ++ stop :: rest) := by
    rw [hurl]
    simp
  have hend : url[(before ++ [':']).length + digits.length]? = some stop := by
    rw [hurl', ← List.append_assoc, ← List.length_append]
    exact getElem?_behind _ stop rest
  have hdigit : isdigit stop = false := by rcases hstop with rfl | rfl <;> rfl
  rw [hturns, scanUrl_colon hget hcopy, ← hcolon,
    scanUrl_skip url (n + 1) _ digits _ _ hurl' fun c hc => plain_of_isdigit (hdigits c hc),
    scanUrl_endPort hend hstop n rfl, hcolon, hurl, copyPort_append hne hdigits hvalue hdigit]

/-- **The loop on a URL**: host, port and place of the path. -/
theorem scanUrl_render (u : HttpUrl) (n : ℕ) :
    let url := u.render ++ ['\x00']
    let before := httpScheme ++ (u.host ++ u.portText)
    ∃ f p, scanUrl url (u.host.length + (u.portText.length + (n + 1))) httpScheme.length
      ⟨[], false, 0, 0, 0⟩ = .ok ⟨u.host, f, p, u.scannedPort, before.length⟩ := by
  intro url before
  obtain ⟨stop, rest, htail, hstop⟩ := u.tail_eq
  have hhost : ∀ c ∈ u.host, Plain c := u.host_plain
  have hurl : url = httpScheme ++ (u.host ++ (u.portText ++ stop :: rest)) := by
    simp [url, HttpUrl.render, ← htail]
  have hskip := scanUrl_skip url (u.portText.length + (n + 1)) ⟨[], false, 0, 0, 0⟩ u.host
    httpScheme (u.portText ++ stop :: rest) hurl hhost
  have hcopy : copyHostname url (httpScheme.length + u.host.length) = .ok u.host := by
    rw [hurl]
    exact copyHostname_append hhost (by simp)
  have hbefore : before.length = httpScheme.length + u.host.length + u.portText.length := by
    simp [before, Nat.add_assoc]
  have hlen : (httpScheme ++ u.host).length = httpScheme.length + u.host.length :=
    List.length_append
  rw [hskip, hbefore, ← hlen]
  rw [← hlen] at hcopy
  cases hport : u.port with
  | none =>
    have htext : u.portText = [] := by rw [HttpUrl.portText, hport]
    rw [htext, List.nil_append, ← List.append_assoc] at hurl
    have hget : url[(httpScheme ++ u.host).length]? = some stop := by
      rw [hurl]
      exact getElem?_behind _ stop rest
    rw [htext, List.length_nil, Nat.zero_add, scanUrl_endHost hget hstop hcopy n rfl,
      HttpUrl.scannedPort, hport]
    exact ⟨_, _, rfl⟩
  | some digits =>
    have htext : u.portText = ':' :: digits := by rw [HttpUrl.portText, hport]
    obtain ⟨hne, hdigits⟩ := u.port_digits digits hport
    have hvalue := u.port_value digits hport
    rw [htext, ← List.append_assoc, List.cons_append] at hurl
    refine ⟨true, (httpScheme ++ u.host).length, ?_⟩
    rw [htext, scanUrl_port hurl hne hdigits hvalue.2 hstop hcopy, HttpUrl.scannedPort, hport,
      List.length_cons, Nat.add_comm digits.length, Nat.add_assoc]

/-- **A URL is taken apart**, unless its port has more than four digits. -/
theorem httpReqUrl_render (u : HttpUrl) : httpReqUrl u.render =
    if u.scannedPort = 0 then .error .error
    else .ok ⟨u.host, u.scannedPort, u.path.getD ['/']⟩ := by
  have hlen : (u.render ++ ['\x00']).length - httpScheme.length
      = u.host.length + (u.portText.length + ((u.path.getD []).length + 1)) := by
    simp [HttpUrl.render]
  obtain ⟨f, p, hscan⟩ := scanUrl_render u (u.path.getD []).length
  have hurl : u.render ++ ['\x00']
      = httpScheme ++ (u.host ++ u.portText) ++ (u.path.getD [] ++ ['\x00']) := by
    simp [HttpUrl.render]
  have hpath : requestPath (u.render ++ ['\x00']) (httpScheme ++ (u.host ++ u.portText)).length
      = u.path.getD ['/'] := by
    rw [hurl]
    exact u.requestPath_eq _
  have hhost : u.host.takeWhile (fun c => decide (c ≠ '/')) = u.host :=
    List.takeWhile_eq_self_iff.mpr fun c hc => decide_eq_true (u.host_plain c hc).2.1
  rw [httpReqUrl, hlen, hscan]
  change (if u.scannedPort = 0 ∨ u.host = [] then Except.error Failure.error
    else .ok (⟨u.host.takeWhile fun c => decide (c ≠ '/'), u.scannedPort,
      requestPath (u.render ++ ['\x00']) (httpScheme ++ (u.host ++ u.portText)).length⟩ : UrlParts))
    = _
  rw [hpath, hhost]
  exact if_congr (or_iff_left u.host_ne_nil) rfl rfl

/-- **Which URLs are taken apart.**  Host, port and path are those of the URL exactly when it has no
port or one of at most four digits. -/
theorem httpReqUrl_render_iff (u : HttpUrl) :
    httpReqUrl u.render = .ok u.parts ↔ ∀ digits ∈ u.port, digits.length ≤ 4 := by
  rw [httpReqUrl_render, HttpUrl.parts, HttpUrl.scannedPort]
  cases hport : u.port with
  | none =>
    refine iff_of_true ?_ (by simp)
    exact if_neg (show defaultHttpPort ≠ 0 by decide)
  | some digits =>
    have hvalue := (u.port_value digits hport).1
    simp only [Option.mem_def, Option.some.injEq, forall_eq']
    by_cases hlen : digits.length ≤ 4
    · rw [if_pos hlen, if_neg (by omega)]
      exact iff_of_true rfl hlen
    · rw [if_neg hlen, if_pos rfl]
      exact iff_of_false nofun hlen

/-- A port of five digits. -/
def fiveDigits : HttpUrl where
  host := ['h']
  port := some ['1', '0', '0', '0', '0']
  path := some ['/', 'a']
  host_ne_nil := by decide
  host_plain := by decide
  port_digits := by decide
  port_value := by decide
  path_slash := by decide
  path_noNul := by decide

theorem not_httpReqUrl_render : ¬∀ u : HttpUrl, httpReqUrl u.render = .ok u.parts := by
  intro h
  exact absurd (h fiveDigits) (by decide)

end FreeswitchContrib.ModHttp

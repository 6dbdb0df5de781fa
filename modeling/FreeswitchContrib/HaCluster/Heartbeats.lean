import FreeswitchContrib.Library.CString
import Mathlib.Data.Int.Notation
import Mathlib.Logic.Function.Basic

/-!
# The heartbeats of the cluster

`send_event` writes the text of an event and the bytes of `MAGIC` behind it to every multicast
group.  `receive_events` reads the datagrams of each group into one buffer, which it neither clears
nor offers whole for the next datagram, and is to keep one event for each `HAC-Event-UUID`.

The functions of the core for events are given: what a created event contains is up to the core.
Memory is the list of its characters; a position outside of the buffer is a fault, which is `none`.

`heartbeats_delivered_iff`: whatever is sent and however it is delivered, nothing gets into the hash.
-/

namespace FreeswitchContrib.HaCluster

open CString

/-! ## The core -/

/-- The functions of the core that `mod_ha_cluster` calls on events. -/
structure EventApi (ε : Type) where
  /-- `switch_event_create_subclass`, for `HAC_HEARTBEAT` -/
  createHeartbeat : Option ε
  addHeaderString : ε → List Char → List Char → ε
  addBody : ε → List Char → ε
  getHeader : ε → List Char → Option (List Char)
  serialize : ε → Option (List Char)
  urlDecode : List Char → List Char

def equalsIgnoreCase (s t : List Char) : Bool := s.map Char.toLower == t.map Char.toLower

def uuidHeader : List Char := "HAC-Event-UUID".toList

/-- What is known of them: a new event has the headers of the core, which are not those of this
module, and a header is found under its own name only. -/
structure EventApi.Lawful {ε : Type} (api : EventApi ε) : Prop where
  getHeader_createHeartbeat : ∀ e ∈ api.createHeartbeat, api.getHeader e uuidHeader = none
  getHeader_addHeaderString : ∀ e name value name', equalsIgnoreCase name name' = false →
    api.getHeader (api.addHeaderString e name value) name' = api.getHeader e name'
  getHeader_addBody : ∀ e body name, api.getHeader (api.addBody e body) name = api.getHeader e name

/-! ## Sending -/

def MAGIC : List Char :=
  [226, 132, 177, 197, 152, 198, 142, 211, 172, 197, 158, 208, 169, 208, 135, 197, 166, 207, 154,
    196, 166].map Char.ofNat

/-- A multicast group. -/
structure Link where
  /-- `atoi(cur_hb->interval)` -/
  interval : ℤ
  /-- `last_hb`, in milliseconds -/
  lastHb : ℕ

section

variable {ε : Type} (api : EventApi ε)

/-- The packet of an event, once its UUID is added. -/
def packet (event : ε) (uuid : List Char) : Option (List Char) :=
  api.serialize (api.addHeaderString event uuidHeader uuid)

/-- `send_event`: the groups afterwards, and what is sent to each of them. -/
def sendEvent (links : List Link) (hb : Bool) (now : ℕ) (event : ε) (uuid : List Char) :
    Option (List (Link × Option (List Char))) :=
  (packet api event uuid).map fun text =>
    let buf := text ++ MAGIC
    links.map fun link =>
      if hb then
        -- the sum is a `size_t`
        if ((link.lastHb : ℤ) + link.interval) % 2 ^ 64 < now then
          ({ link with lastHb := now }, some buf)
        else (link, none)
      else
        (link, some buf)

/-! ## Receiving -/

structure State (ε : Type) where
  /-- the event of a UUID -/
  eventHash : List Char → Option ℕ
  /-- the events that were created -/
  events : List ε

def bufferSize : ℕ := 65536

/-- The result of `recvfrom` into the first `len` characters. -/
def recvfrom (buf : List Char) (len : ℕ) (datagram : List Char) : List Char × ℕ :=
  let received := datagram.take len
  (received ++ buf.drop received.length, received.length)

/-- `strcasestr(s, needle) != NULL` -/
def containsIgnoreCase (s needle : List Char) : Bool :=
  (s.map Char.toLower).tails.any fun rest => (needle.map Char.toLower).isPrefixOf rest

/-- `switch_url_decode` on the string at this position. -/
def decodeInPlace (buf : List Char) (val : ℕ) : Option (List Char) :=
  (string buf val).bind fun s =>
    let decoded := api.urlDecode s
    if decoded.length ≤ s.length then
      some (buf.take val ++ decoded ++ nul :: buf.drop (val + decoded.length + 1))
    else
      none

/-- Where the value ends: at the first carriage return, or else at the first newline. -/
def findTerm (buf : List Char) (val : ℕ) : Option (Option ℕ) :=
  (strchr buf val '\r').bind fun term =>
    match term with
    | some i => some (some i)
    | none => strchr buf val '\n'

/-- A header in the text, and the buffer once it is read. -/
structure HeaderText where
  buf : List Char
  name : List Char
  value : List Char
  /-- where the line ends -/
  term : Option ℕ

/-- The header at this position, if there is a colon. -/
def readHeader (buf : List Char) (var : ℕ) : Option (Option HeaderText) := do
  match ← strchr buf var ':' with
  | none => return none
  | some colon =>
    let buf := buf.set colon nul
    let val ← skip (· == ' ') buf (colon + 1)
    let term ← findTerm buf val
    let buf ← decodeInPlace api ((term.map fun i => buf.set i nul).getD buf) val
    let name ← string buf var
    let value ← string buf val
    return some ⟨buf, name, value, term⟩

def addOriginal (s : State ε) (event : ℕ) (header : HeaderText) : State ε :=
  let tmpname := ("Orig-".toList ++ header.name).take 127
  { s with events := s.events.modify event fun e => api.addHeaderString e tmpname header.value }

def addRest (s : State ε) (event : ℕ) (body : List Char) : State ε :=
  if 1 < body.length then
    { s with events := s.events.modify event fun e => api.addBody e body }
  else
    s

/-- Keep the event under its UUID, unless there is one already. -/
def storeEvent (s : State ε) (event : ℕ) : State ε :=
  match s.events[event]?.bind fun e => api.getHeader e uuidHeader with
  | none => s
  | some uuid =>
    match s.eventHash uuid with
    | some _ => s
    | none => { s with eventHash := Function.update s.eventHash uuid (some event) }

lemma decodeInPlace_length {buf buf' : List Char} {val : ℕ}
    (h : decodeInPlace api buf val = some buf') : buf'.length = buf.length := by
  obtain ⟨s, hs, h⟩ := Option.bind_eq_some_iff.mp h
  obtain ⟨last, hlast, rfl⟩ := Option.map_eq_some_iff.mp hs
  have hlt := find_lt hlast
  have hle := (find_some hlast).1
  dsimp only at h
  split_ifs at h with hlen
  cases h
  simp only [List.length_take, List.length_drop] at hlen
  simp only [List.length_append, List.length_take, List.length_cons, List.length_drop]
  omega

lemma readHeader_some {buf : List Char} {var : ℕ} {header : HeaderText}
    (h : readHeader api buf var = some (some header)) :
    header.buf.length = buf.length ∧ ∀ term ∈ header.term, var < term ∧ term < buf.length := by
  obtain ⟨found, hfound, h⟩ := Option.bind_eq_some_iff.mp h
  cases found with
  | none => cases h
  | some colon =>
    obtain ⟨hcolon, -⟩ := strchr_some hfound colon rfl
    obtain ⟨val, hval, h⟩ := Option.bind_eq_some_iff.mp h
    have hval := (find_some hval).1
    obtain ⟨term, hterm, h⟩ := Option.bind_eq_some_iff.mp h
    obtain ⟨buf', hbuf', h⟩ := Option.bind_eq_some_iff.mp h
    have hlength := decodeInPlace_length api hbuf'
    obtain ⟨name, -, h⟩ := Option.bind_eq_some_iff.mp h
    obtain ⟨value, -, h⟩ := Option.bind_eq_some_iff.mp h
    cases h
    constructor
    · rw [hlength]
      cases term with
      | none | some i => simp
    · intro i hi
      have hinside : val ≤ i ∧ i < (buf.set colon nul).length := by
        obtain ⟨cr, hcr, hterm⟩ := Option.bind_eq_some_iff.mp hterm
        cases cr with
        | some j =>
          cases hterm
          exact strchr_some hcr i hi
        | none => exact strchr_some hterm i hi
      rw [List.length_set] at hinside
      omega

/-- The loop over the headers of a packet. -/
def parseHeaders (s : State ε) (event : ℕ) (buf : List Char) (var : ℕ) :
    Option (State ε × List Char) :=
  match buf[var]? with
  | none => none
  | some c =>
    if c = nul then some (s, buf)
    else
      match _hread : readHeader api buf var with
      | none => none
      | some none => some (s, buf)
      | some (some header) =>
        match _hterm : header.term with
        -- `var` is the address 1, where there is no string
        | none => none
        | some term =>
          match string header.buf (term + 1) with
          | none => none
          | some body =>
            parseHeaders (storeEvent api (addRest api (addOriginal api s event header) event body)
              event) event header.buf (term + 1)
termination_by buf.length - var
decreasing_by
  obtain ⟨hlength, hterm⟩ := readHeader_some api ‹_›
  have := hterm term ‹_›
  omega

/-- What is done about a packet. -/
def receivePacket (s : State ε) (buf : List Char) : Option (State ε × List Char) := do
  match ← strchr buf 0 (Char.ofNat 226) with
  | none => return (s, buf)
  | some m =>
    if MAGIC.isPrefixOf (buf.drop m) then
      let buf := buf.set m nul
      let rest ← string buf (m + 21)
      if containsIgnoreCase rest "HAC-Event-Type: HAC_HEARTBEAT".toList then
        match api.createHeartbeat with
        | none => return (s, buf)
        | some e =>
          let e := api.addHeaderString e "Multicast".toList "yes".toList
          parseHeaders api { s with events := s.events ++ [e] } s.events.length buf 0
      else
        return (s, buf)
    -- the comparison reads up to the first difference
    else if (buf.drop m).isPrefixOf MAGIC then
      none
    else
      return (s, buf)

/-- The buffer of a call of `receive_events`, with `len`. -/
structure Input where
  buf : List Char
  len : ℕ

/-- The loop over the datagrams of a group, with those that are left. -/
def receiveGroup (s : State ε) (input : Input) (count : ℕ) :
    List (List Char) → Option (State ε × Input × List (List Char))
  | [] => some (s, input, [])
  | datagram :: datagrams => do
    let (buf, len) := recvfrom input.buf input.len datagram
    if len ≠ 0 ∧ count < 1000 then
      let (s, buf) ← receivePacket api s buf
      receiveGroup s ⟨buf, len⟩ (count + 1) datagrams
    else
      return (s, ⟨buf, len⟩, datagrams)

/-- The loop over the groups. -/
def receiveGroups (s : State ε) (input : Input) :
    List (List (List Char)) → Option (State ε × List (List (List Char)))
  | [] => some (s, [])
  | datagrams :: groups => do
    let (s, input, left) ← receiveGroup api s input 0 datagrams
    let (s, lefts) ← receiveGroups s input groups
    return (s, left :: lefts)

def receiveEvents (s : State ε) (groups : List (List (List Char))) :
    Option (State ε × List (List (List Char))) :=
  receiveGroups api s ⟨List.replicate bufferSize nul, bufferSize⟩ groups

/-- Calls of `receive_events`, each with what has arrived at the groups before it. -/
def receiveCalls (s : State ε) (groups : List (List (List Char))) :
    List (List (List (List Char))) → Option (State ε)
  | [] => some s
  | arrivals :: calls => do
    let (s, groups) ← receiveEvents api s (List.zipWith (· ++ ·) groups arrivals)
    receiveCalls s groups calls

/-! ## Nothing is kept -/

/-- No event has a header with a UUID. -/
def NoUuid (s : State ε) : Prop := ∀ e ∈ s.events, api.getHeader e uuidHeader = none

/-- Events without a UUID do not get one, and are not put in the hash. -/
def Keeps (s s' : State ε) : Prop := NoUuid api s → NoUuid api s' ∧ s'.eventHash = s.eventHash

variable {api} {s s' s₁ : State ε}

lemma Keeps.refl : Keeps api s s := fun h => ⟨h, rfl⟩

lemma Keeps.trans (h : Keeps api s s₁) (h' : Keeps api s₁ s') : Keeps api s s' := by
  intro hnone
  obtain ⟨hnone₁, hhash₁⟩ := h hnone
  obtain ⟨hnone', hhash'⟩ := h' hnone₁
  exact ⟨hnone', hhash'.trans hhash₁⟩

lemma keeps_modify {event : ℕ} {f : ε → ε}
    (hf : ∀ e, api.getHeader (f e) uuidHeader = api.getHeader e uuidHeader) :
    Keeps api s { s with events := s.events.modify event f } := by
  intro hnone
  refine ⟨fun e he => ?_, rfl⟩
  obtain ⟨i, hi⟩ := List.mem_iff_getElem?.mp he
  rw [List.getElem?_modify] at hi
  obtain ⟨e', he', rfl⟩ := Option.map_eq_some_iff.mp hi
  have hnone' := hnone e' (List.mem_of_getElem? he')
  split_ifs
  · exact (hf e').trans hnone'
  · exact hnone'

/-- The headers of the text get another name. -/
lemma keeps_addOriginal (hlaw : api.Lawful) (event : ℕ) (header : HeaderText) :
    Keeps api s (addOriginal api s event header) :=
  keeps_modify fun e => hlaw.getHeader_addHeaderString e _ _ _ rfl

lemma keeps_addRest (hlaw : api.Lawful) (event : ℕ) (body : List Char) :
    Keeps api s (addRest api s event body) := by
  rw [addRest]
  split_ifs
  · exact keeps_modify fun e => hlaw.getHeader_addBody e _ _
  · exact Keeps.refl

lemma keeps_storeEvent (event : ℕ) : Keeps api s (storeEvent api s event) := by
  intro hnone
  have hfound : (s.events[event]?.bind fun e => api.getHeader e uuidHeader) = none := by
    rw [Option.bind_eq_none_iff]
    exact fun e he => hnone e (List.mem_of_getElem? he)
  rw [storeEvent, hfound]
  exact ⟨hnone, rfl⟩

lemma keeps_parseHeaders (hlaw : api.Lawful) {event : ℕ} {buf buf' : List Char} {var : ℕ}
    (h : parseHeaders api s event buf var = some (s', buf')) : Keeps api s s' := by
  fun_induction parseHeaders api s event buf var with
  | case1 => cases h
  | case2 =>
    cases h
    exact Keeps.refl
  | case3 => cases h
  | case4 =>
    cases h
    exact Keeps.refl
  | case5 => cases h
  | case6 => cases h
  | case7 s buf var c _ _ header _ term _ body _ ih =>
    refine Keeps.trans ?_ (ih h)
    refine (keeps_addOriginal hlaw event header).trans ?_
    exact (keeps_addRest hlaw event body).trans (keeps_storeEvent event)

lemma keeps_receivePacket (hlaw : api.Lawful) {buf buf' : List Char}
    (h : receivePacket api s buf = some (s', buf')) : Keeps api s s' := by
  obtain ⟨found, -, h⟩ := Option.bind_eq_some_iff.mp h
  cases found with
  | none =>
    cases h
    exact Keeps.refl
  | some m =>
    dsimp only at h
    split_ifs at h with hmagic hshort
    · obtain ⟨rest, -, h⟩ := Option.bind_eq_some_iff.mp h
      split_ifs at h with htype
      · cases hcreate : api.createHeartbeat with
        | none =>
          rw [hcreate] at h
          cases h
          exact Keeps.refl
        | some e =>
          rw [hcreate] at h
          refine Keeps.trans ?_ (keeps_parseHeaders hlaw h)
          intro hnone
          refine ⟨fun e' he' => ?_, rfl⟩
          rcases List.mem_append.mp he' with he' | he'
          · exact hnone e' he'
          · rw [List.mem_singleton.mp he', hlaw.getHeader_addHeaderString _ _ _ _ (by decide)]
            exact hlaw.getHeader_createHeartbeat e hcreate
      · cases h
        exact Keeps.refl
    · cases h
      exact Keeps.refl

lemma keeps_receiveGroup (hlaw : api.Lawful) : ∀ {datagrams left : List (List Char)}
    {s s' : State ε} {input input' : Input} {count : ℕ},
    receiveGroup api s input count datagrams = some (s', input', left) → Keeps api s s'
  | [], _, _, _, _, _, _, h => by
    cases h
    exact Keeps.refl
  | datagram :: datagrams, _, s, s', input, _, count, h => by
    rw [receiveGroup] at h
    dsimp only at h
    split_ifs at h
    · obtain ⟨⟨s₁, buf⟩, hpacket, h⟩ := Option.bind_eq_some_iff.mp h
      exact (keeps_receivePacket hlaw hpacket).trans (keeps_receiveGroup hlaw h)
    · cases h
      exact Keeps.refl

lemma keeps_receiveGroups (hlaw : api.Lawful) : ∀ {groups lefts : List (List (List Char))}
    {s s' : State ε} {input : Input},
    receiveGroups api s input groups = some (s', lefts) → Keeps api s s'
  | [], _, _, _, _, h => by
    cases h
    exact Keeps.refl
  | datagrams :: groups, _, s, s', input, h => by
    obtain ⟨⟨s₁, input₁, left⟩, hgroup, h⟩ := Option.bind_eq_some_iff.mp h
    obtain ⟨⟨s₂, lefts⟩, hgroups, h⟩ := Option.bind_eq_some_iff.mp h
    cases h
    exact (keeps_receiveGroup hlaw hgroup).trans (keeps_receiveGroups hlaw hgroups)

lemma keeps_receiveCalls (hlaw : api.Lawful) : ∀ {calls : List (List (List (List Char)))}
    {groups : List (List (List Char))} {s s' : State ε},
    receiveCalls api s groups calls = some s' → Keeps api s s'
  | [], _, _, _, h => by
    cases h
    exact Keeps.refl
  | arrivals :: calls, groups, s, s', h => by
    obtain ⟨⟨s₁, groups'⟩, hcall, h⟩ := Option.bind_eq_some_iff.mp h
    exact (keeps_receiveGroups hlaw hcall).trans (keeps_receiveCalls hlaw h)

/-! ## Exactly once -/

variable (api)

/-- An event that was given to `send_event`. -/
structure Sent where
  event : ε
  uuid : List Char
  text : List Char
  packet_eq : packet api event uuid = some text

variable {api}

/-- What goes to a group. -/
def Sent.datagram (sent : Sent api) : List Char := sent.text ++ MAGIC

/-- `send_event` sends the datagram of the event, or nothing. -/
theorem sendEvent_datagram (sent : Sent api) (links : List Link) (hb : Bool) (now : ℕ) :
    ∃ out, sendEvent api links hb now sent.event sent.uuid = some out ∧
      ∀ x ∈ out, ∀ datagram ∈ x.2, datagram = sent.datagram := by
  rw [sendEvent, sent.packet_eq]
  refine ⟨_, rfl, ?_⟩
  intro x hx datagram hdatagram
  obtain ⟨link, -, rfl⟩ := List.mem_map.mp hx
  split_ifs at hdatagram
  · cases hdatagram
    rfl
  · cases hdatagram
  · cases hdatagram
    rfl

/-- The datagrams arrive at the groups before the calls, in any order and any number of times. -/
structure Delivery (sent : List (Sent api)) (groups : ℕ) (calls : List (List (List (List Char)))) :
    Prop where
  uuids : (sent.map Sent.uuid).Nodup
  lengths : ∀ arrivals ∈ calls, arrivals.length = groups
  onlySent : ∀ arrivals ∈ calls, ∀ datagrams ∈ arrivals, ∀ datagram ∈ datagrams,
    ∃ e ∈ sent, datagram = e.datagram
  arrives : ∀ e ∈ sent, ∃ arrivals ∈ calls, ∃ datagrams ∈ arrivals, e.datagram ∈ datagrams
  fits : ∀ e ∈ sent, e.datagram.length ≤ bufferSize

/-- There is one entry for each UUID, and its event has the headers of the one that was sent. -/
structure ExactlyOnce (sent : List (Sent api)) (s : State ε) : Prop where
  entries : ∀ uuid, (s.eventHash uuid).isSome ↔ ∃ e ∈ sent, e.uuid = uuid
  headers : ∀ e ∈ sent, ∀ i ∈ s.eventHash e.uuid, ∀ event ∈ s.events[i]?, ∀ name value,
    api.getHeader e.event name = some value →
      api.getHeader event name = some value ∨
        api.getHeader event ("Orig-".toList ++ name) = some value

def State.empty : State ε := ⟨fun _ => none, []⟩

/-- The groups before the first call, with nothing to be read. -/
def noDatagrams (groups : ℕ) : List (List (List Char)) := List.replicate groups []

lemma eventHash_receiveCalls (hlaw : api.Lawful) {calls : List (List (List (List Char)))}
    {groups : List (List (List Char))} (h : receiveCalls api .empty groups calls = some s)
    (uuid : List Char) : s.eventHash uuid = none := by
  have hkeeps := (keeps_receiveCalls hlaw h nofun).2
  rw [hkeeps]
  rfl

lemma not_exactlyOnce (hlaw : api.Lawful) {calls : List (List (List (List Char)))}
    {groups : List (List (List Char))} {sent : List (Sent api)} (hsent : sent ≠ [])
    (h : receiveCalls api .empty groups calls = some s) : ¬ ExactlyOnce sent s := by
  intro honce
  obtain ⟨e, he⟩ := List.exists_mem_of_ne_nil sent hsent
  have hentry := (honce.entries e.uuid).mpr ⟨e, he, rfl⟩
  rw [eventHash_receiveCalls hlaw h] at hentry
  cases hentry

lemma receiveGroups_noDatagrams (s : State ε) (input : Input) : ∀ groups : ℕ,
    receiveGroups api s input (noDatagrams groups) = some (s, noDatagrams groups)
  | 0 => rfl
  | groups + 1 => by
    have ih := receiveGroups_noDatagrams s input groups
    rw [noDatagrams] at ih ⊢
    rw [List.replicate_succ, receiveGroups, receiveGroup]
    simp [ih]

lemma receiveCalls_noDatagrams (s : State ε) {groups : ℕ} :
    ∀ {calls : List (List (List (List Char)))},
      (∀ arrivals ∈ calls, arrivals = noDatagrams groups) →
      receiveCalls api s (noDatagrams groups) calls = some s
  | [], _ => rfl
  | arrivals :: calls, h => by
    have hgroups : List.zipWith (· ++ ·) (noDatagrams groups) arrivals = noDatagrams groups := by
      rw [h arrivals List.mem_cons_self, noDatagrams, List.zipWith_replicate']
      rfl
    have hrest : ∀ arrivals ∈ calls, arrivals = noDatagrams groups :=
      fun a ha => h a (List.mem_cons_of_mem _ ha)
    rw [receiveCalls, hgroups, receiveEvents, receiveGroups_noDatagrams]
    exact receiveCalls_noDatagrams s hrest

/-- **No event gets through**: the calls leave exactly one entry for each event that was sent just
when none was sent. -/
theorem heartbeats_delivered_iff (hlaw : api.Lawful) {sent : List (Sent api)} {groups : ℕ}
    {calls : List (List (List (List Char)))} (hdelivery : Delivery sent groups calls) :
    (∃ s, receiveCalls api .empty (noDatagrams groups) calls = some s ∧ ExactlyOnce sent s) ↔
      sent = [] := by
  constructor
  · rintro ⟨s, hs, honce⟩
    by_contra hsent
    exact not_exactlyOnce hlaw hsent hs honce
  · rintro rfl
    have hnone : ∀ arrivals ∈ calls, arrivals = noDatagrams groups := by
      intro arrivals harrivals
      rw [noDatagrams, List.eq_replicate_iff]
      refine ⟨hdelivery.lengths arrivals harrivals, fun datagrams hdatagrams => ?_⟩
      rw [List.eq_nil_iff_forall_not_mem]
      intro datagram hdatagram
      obtain ⟨e, he, -⟩ :=
        hdelivery.onlySent arrivals harrivals datagrams hdatagrams datagram hdatagram
      cases he
    refine ⟨.empty, receiveCalls_noDatagrams .empty hnone, fun uuid => ?_, nofun⟩
    constructor
    · nofun
    · rintro ⟨e, he, -⟩
      cases he

end

/-! ## A heartbeat -/

/-- Events as their headers, and values that are written as they are. -/
def plainEvents : EventApi (List (List Char × List Char)) where
  createHeartbeat := some [("Event-Name".toList, "CUSTOM".toList)]
  addHeaderString e name value := e ++ [(name, value)]
  addBody e _ := e
  getHeader e name := (e.find? fun h => equalsIgnoreCase h.1 name).map (·.2)
  serialize e := some (e.flatMap (fun h => h.1 ++ ": ".toList ++ h.2 ++ ['\n']) ++ ['\n'])
  urlDecode s := s

lemma plainEvents_lawful : plainEvents.Lawful where
  getHeader_createHeartbeat e he := by
    cases he
    decide +kernel
  getHeader_addHeaderString e name value name' hname := by
    show ((e ++ [(name, value)]).find? _).map _ = (e.find? _).map _
    rw [List.find?_append, List.find?_singleton, hname]
    cases e.find? fun h => equalsIgnoreCase h.1 name' <;> rfl
  getHeader_addBody e body name := rfl

def heartbeat : Sent plainEvents where
  event := [("HAC-Event-Type".toList, "HAC_HEARTBEAT".toList), ("HAC-Peer".toList, "node1".toList),
    ("HAC-Node-ID".toList, "1".toList), ("State".toList, "MASTER".toList)]
  uuid := "8c1f6b50-6b3c-11de-8a39-0800200c9a66".toList
  text := _
  packet_eq := rfl

lemma heartbeat_delivery : Delivery [heartbeat] 1 [[[heartbeat.datagram]]] where
  uuids := by simp
  lengths arrivals h := by
    rw [List.mem_singleton.mp h]
    rfl
  onlySent arrivals h datagrams h' datagram h'' := by
    obtain rfl := List.mem_singleton.mp h
    obtain rfl := List.mem_singleton.mp h'
    exact ⟨heartbeat, List.mem_singleton_self _, List.mem_singleton.mp h''⟩
  arrives e he := by
    rw [List.mem_singleton.mp he]
    exact ⟨_, List.mem_singleton_self _, _, List.mem_singleton_self _, List.mem_singleton_self _⟩
  fits e he := by
    rw [List.mem_singleton.mp he]
    set_option maxRecDepth 8192 in decide

theorem heartbeats_delivered_iff_heartbeat :
    (∃ s, receiveCalls plainEvents .empty (noDatagrams 1) [[[heartbeat.datagram]]] = some s ∧
      ExactlyOnce [heartbeat] s) ↔ [heartbeat] = [] :=
  heartbeats_delivered_iff plainEvents_lawful heartbeat_delivery

/-- One heartbeat that arrives once is lost. -/
theorem heartbeat_lost :
    Delivery [heartbeat] 1 [[[heartbeat.datagram]]] ∧
      ¬ ∃ s, receiveCalls plainEvents .empty (noDatagrams 1) [[[heartbeat.datagram]]] = some s ∧
        ExactlyOnce [heartbeat] s := by
  refine ⟨heartbeat_delivery, ?_⟩
  rintro ⟨s, hs, honce⟩
  exact not_exactlyOnce plainEvents_lawful (List.cons_ne_nil _ _) hs honce

end FreeswitchContrib.HaCluster

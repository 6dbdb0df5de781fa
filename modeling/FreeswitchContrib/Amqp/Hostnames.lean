import Mathlib.Data.List.Basic
import Mathlib.Data.List.Induction
import Mathlib.Data.List.TakeWhile

/-!
# The brokers of `mod_amqp`

`openAmqpConnection` walks over the comma separated `globals.amqpHostnames` with `strtok_r`, which
writes a NUL over the comma behind each name it returns.  The next call starts over at the front of
the same string, and reads it up to the first NUL.

A string in memory is the list of its characters; `cString` is what C reads of it.
-/

namespace FreeswitchContrib.Amqp

/-! ## Tokens -/

def nul : Char := Char.ofNat 0

/-- The characters before the first NUL, or all when the terminator is the only one. -/
def cString (memory : List Char) : List Char := memory.takeWhile (· ≠ nul)

/-- What `strtok_r` returns: the token, what it leaves in memory up to where the next call starts,
and what is read from there. -/
structure Token where
  host : List Char
  before : List Char
  after : List Char

/-- `strtok_r` with the delimiters ",". -/
def strtokR (rest : List Char) : Option Token :=
  let start := rest.dropWhile (· = ',')
  if start = [] then
    none
  else
    let host := start.takeWhile (· ≠ ',')
    match start.dropWhile (· ≠ ',') with
    | [] => some ⟨host, rest, []⟩
    | _ :: after => some ⟨host, rest.takeWhile (· = ',') ++ host ++ [nul], after⟩

lemma strtokR_length {rest : List Char} {token : Token} (h : strtokR rest = some token) :
    token.after.length < rest.length := by
  have hstart := (List.dropWhile_suffix (l := rest) (fun c => decide (c = ','))).length_le
  rw [strtokR] at h
  simp only at h
  split_ifs at h with hempty
  have hpos := List.length_pos_of_ne_nil hempty
  split at h
  case h_1 =>
    obtain rfl := Option.some.inj h
    exact hpos.trans_le hstart
  case h_2 c after heq =>
    obtain rfl := Option.some.inj h
    have hafter := (List.dropWhile_suffix (l := rest.dropWhile fun c => decide (c = ','))
      (fun c => decide (c ≠ ','))).length_le
    rw [heq, List.length_cons] at hafter
    exact Nat.lt_of_lt_of_le (Nat.lt_of_succ_le hafter) hstart

/-! ## The walk over the hosts -/

structure Walk where
  tried : List (List Char)
  connected : Bool
  memory : List Char

/-- The loop of `openAmqpConnection`, of which `n` hosts were tried before. -/
def tryHosts (socketOpen : ℕ → List Char → Bool) (n : ℕ) (rest : List Char) : Walk :=
  match _h : strtokR rest with
  | none => ⟨[], false, rest⟩
  | some token =>
    if socketOpen n token.host then
      ⟨[token.host], true, token.before ++ token.after⟩
    else
      let walk := tryHosts socketOpen (n + 1) token.after
      ⟨token.host :: walk.tried, walk.connected, token.before ++ walk.memory⟩
termination_by rest.length
decreasing_by exact strtokR_length ‹_›

/-- What the broker library answers during one call. -/
structure Attempt where
  socketNew : Bool
  /-- for the n-th host that is tried -/
  socketOpen : ℕ → List Char → Bool
  login : Bool
  channelOpen : Bool
  exchangeDeclare : Bool

structure Opened where
  tried : List (List Char)
  success : Bool
  amqpHostnames : List Char

def openAmqpConnection (amqpHostnames : List Char) (a : Attempt) : Opened :=
  if a.socketNew then
    let walk := tryHosts a.socketOpen 0 (cString amqpHostnames)
    ⟨walk.tried, walk.connected && a.login && a.channelOpen && a.exchangeDeclare,
      walk.memory ++ amqpHostnames.drop (cString amqpHostnames).length⟩
  else
    ⟨[], false, amqpHostnames⟩

/-! ## What is configured -/

/-- The names of a comma separated list. -/
def hostnames (text : List Char) : List (List Char) := (text.splitOn ',').filter (· ≠ [])

/-- The hosts up to the first that can be connected to. -/
def hostsToTry (socketOpen : ℕ → List Char → Bool) : ℕ → List (List Char) → List (List Char)
  | _, [] => []
  | n, host :: hosts => host :: if socketOpen n host then [] else hostsToTry socketOpen (n + 1) hosts

variable {rest text host memory : List Char} {token : Token} {n : ℕ} {a : Attempt}

lemma hostnames_comma (text : List Char) : hostnames (',' :: text) = hostnames text := by
  simp [hostnames, List.splitOn_cons_eq_if_modifyHead]

lemma hostnames_dropWhile : ∀ text : List Char,
    hostnames (text.dropWhile (· = ',')) = hostnames text
  | [] => rfl
  | c :: text => by
    by_cases hc : c = ','
    · subst hc
      rw [List.dropWhile_cons_of_pos (by simp), hostnames_dropWhile text, hostnames_comma]
    · rw [List.dropWhile_cons_of_neg (by simpa using hc)]

lemma hostnames_host (hne : host ≠ []) (hhost : ',' ∉ host) : hostnames host = [host] := by
  rw [hostnames, List.splitOn_eq_singleton hhost]
  simp [hne]

lemma hostnames_host_comma (hne : host ≠ []) (hhost : ',' ∉ host) (after : List Char) :
    hostnames (host ++ ',' :: after) = host :: hostnames after := by
  rw [hostnames, List.splitOn_append_cons_self_of_not_mem hhost]
  simp [hne, hostnames]

/-- What is behind a token begins with the delimiter. -/
lemma eq_comma_of_dropWhile {c : Char} {after : List Char}
    (h : text.dropWhile (· ≠ ',') = c :: after) : c = ',' := by
  have hhead := List.head?_dropWhile_not (fun c => decide (c ≠ ',')) text
  rw [h] at hhead
  simpa using hhead

lemma hostnames_skip {skipped : List Char} (hskipped : ∀ c ∈ skipped, c = ',') (text : List Char) :
    hostnames (skipped ++ text) = hostnames text := by
  induction skipped with
  | nil => rfl
  | cons c skipped ih =>
    obtain rfl := hskipped c List.mem_cons_self
    rw [List.cons_append, hostnames_comma]
    exact ih fun c hc => hskipped c (List.mem_cons_of_mem _ hc)

lemma strtokR_eq_none (h : strtokR rest = none) : hostnames rest = [] := by
  rw [strtokR] at h
  simp only at h
  split_ifs at h with hempty
  · rw [← hostnames_dropWhile, hempty]
    rfl
  · split at h <;> cases h

/-- A token is the first name of the list, and what is left of the string in memory is a list of
that name only. -/
structure IsFirst (rest : List Char) (token : Token) : Prop where
  hostnames_eq : hostnames rest = token.host :: hostnames token.after
  after : ∀ c ∈ token.after, c ∈ rest
  before : (∃ first, token.before = first ++ [nul] ∧ (∀ c ∈ first, c ∈ rest) ∧
    hostnames first = [token.host]) ∨ (token.before = rest ∧ token.after = [])

lemma strtokR_isFirst (h : strtokR rest = some token) : IsFirst rest token := by
  rw [strtokR] at h
  simp only at h
  have hrest := List.takeWhile_append_dropWhile (p := fun c => decide (c = ',')) (l := rest)
  have hskipped : ∀ c ∈ rest.takeWhile (· = ','), c = ',' := fun c hc => by
    simpa using List.mem_takeWhile_imp hc
  have hhead := List.head?_dropWhile_not (fun c => decide (c = ',')) rest
  split_ifs at h with hempty
  generalize rest.takeWhile (· = ',') = skipped at *
  generalize rest.dropWhile (· = ',') = start at *
  have hstart := List.takeWhile_append_dropWhile (p := fun c => decide (c ≠ ',')) (l := start)
  have hhost : ',' ∉ start.takeWhile (· ≠ ',') := fun hmem => by
    simpa using List.mem_takeWhile_imp hmem
  have hne : start.takeWhile (· ≠ ',') ≠ [] := by
    cases start with
    | nil => exact absurd rfl hempty
    | cons c start =>
      have hc : c ≠ ',' := by simpa using hhead
      simp [hc]
  generalize start.takeWhile (· ≠ ',') = host at *
  subst hrest
  split at h
  case h_1 heq =>
    obtain rfl := Option.some.inj h
    rw [heq, List.append_nil] at hstart
    subst hstart
    exact ⟨by rw [hostnames_skip hskipped, hostnames_host hne hhost]; rfl, by simp,
      Or.inr ⟨rfl, rfl⟩⟩
  case h_2 c after heq =>
    obtain rfl := Option.some.inj h
    obtain rfl := eq_comma_of_dropWhile heq
    rw [heq] at hstart
    subst hstart
    refine ⟨by rw [hostnames_skip hskipped, hostnames_host_comma hne hhost], by simp +contextual,
      Or.inl ⟨skipped ++ host, rfl, by simp +contextual [or_imp], ?_⟩⟩
    rw [hostnames_skip hskipped, hostnames_host hne hhost]

/-! ## What a call tries, and what it leaves -/

/-- The hosts of the list, up to the first that answers. -/
lemma tried_tryHosts (socketOpen : ℕ → List Char → Bool) (n : ℕ) (rest : List Char) :
    (tryHosts socketOpen n rest).tried = hostsToTry socketOpen n (hostnames rest) := by
  rw [tryHosts]
  split
  case h_1 h => rw [strtokR_eq_none h, hostsToTry]
  case h_2 token h =>
    rw [(strtokR_isFirst h).hostnames_eq, hostsToTry]
    split_ifs with hopen
    · rfl
    · simp only
      rw [tried_tryHosts socketOpen (n + 1) token.after]
termination_by rest.length
decreasing_by exact strtokR_length ‹_›

/-- Only the first name is still read. -/
lemma memory_tryHosts (socketOpen : ℕ → List Char → Bool) (n : ℕ) (hnul : nul ∉ rest)
    {behind : List Char} (hbehind : cString behind = []) :
    hostnames (cString ((tryHosts socketOpen n rest).memory ++ behind))
      = (hostnames rest).take 1 := by
  have hrest : cString (rest ++ behind) = rest := by
    rw [cString, List.takeWhile_append_of_pos fun c hc => ?_]
    · exact (congrArg (rest ++ ·) hbehind).trans (List.append_nil rest)
    · simpa using fun h : c = nul => hnul (h ▸ hc)
  rw [tryHosts]
  split
  case h_1 h =>
    rw [hrest, strtokR_eq_none h, List.take_nil]
  case h_2 token h =>
    obtain ⟨hnames, hafter, hbefore⟩ := strtokR_isFirst h
    have hmemory : ∀ memory, (token.after = [] → memory = []) →
        hostnames (cString ((token.before ++ memory) ++ behind)) = (hostnames rest).take 1 := by
      intro memory hmem
      rw [hnames, List.take_succ_cons, List.take_zero]
      rcases hbefore with ⟨first, heq, hfirst, hone⟩ | ⟨heq, hend⟩
      · have hcut : cString (token.before ++ memory ++ behind) = first := by
          rw [heq, cString, List.append_assoc, List.append_assoc,
            List.takeWhile_append_of_pos fun c hc => ?_]
          · simp
          · simpa using fun h : c = nul => hnul (h ▸ hfirst c hc)
        rw [hcut, hone]
      · rw [heq, hmem hend, List.append_nil, hrest, hnames, hend]
        rfl
    split_ifs
    · exact hmemory _ id
    · refine hmemory _ fun hend => ?_
      rw [hend, tryHosts]
      split
      case h_1 => rfl
      case h_2 token' h' => simp [strtokR] at h'

lemma cString_of_notMem (h : nul ∉ text) : cString text = text := by
  rw [cString, List.takeWhile_eq_self_iff]
  simpa using fun c hc (heq : c = nul) => h (heq ▸ hc)

/-- The string ends where it is cut. -/
lemma cString_drop (memory : List Char) : cString (memory.drop (cString memory).length) = [] := by
  have hsplit := List.takeWhile_append_dropWhile (p := fun c => decide (c ≠ nul)) (l := memory)
  have hdrop : memory.drop (cString memory).length = memory.dropWhile (· ≠ nul) := by
    have := @List.drop_left _ (memory.takeWhile (· ≠ nul)) (memory.dropWhile (· ≠ nul))
    rwa [hsplit] at this
  have hhead := List.head?_dropWhile_not (fun c => decide (c ≠ nul)) memory
  rw [hdrop, cString]
  cases hrest : memory.dropWhile (· ≠ nul) with
  | nil => rfl
  | cons c rest =>
    rw [hrest] at hhead
    rw [List.takeWhile_cons_of_neg (by simpa using hhead)]

/-- **One call** tries the hosts that can still be read, and leaves the first of them. -/
theorem openAmqpConnection_spec (memory : List Char) (h : a.socketNew = true) :
    (openAmqpConnection memory a).tried = hostsToTry a.socketOpen 0 (hostnames (cString memory)) ∧
      hostnames (cString (openAmqpConnection memory a).amqpHostnames)
        = (hostnames (cString memory)).take 1 := by
  have hnul : nul ∉ cString memory := fun hmem => by
    simpa using List.mem_takeWhile_imp hmem
  rw [openAmqpConnection, if_pos h]
  exact ⟨tried_tryHosts a.socketOpen 0 _,
    memory_tryHosts a.socketOpen 0 hnul (cString_drop memory)⟩

/-! ## Histories -/

/-- `globals.amqpHostnames` after these calls. -/
def hostnamesAfter (configured : List Char) (history : List Attempt) : List Char :=
  history.foldl (fun amqpHostnames a => (openAmqpConnection amqpHostnames a).amqpHostnames)
    configured

/-- Every call tries the configured hosts in order until one answers, and leaves the list. -/
def TriesEveryBroker (configured : List Char) (history : List Attempt) : Prop :=
  ∀ earlier a later, history = earlier ++ a :: later →
    let opened := openAmqpConnection (hostnamesAfter configured earlier) a
    opened.tried = hostsToTry a.socketOpen 0 (hostnames configured) ∧
      hostnames (cString opened.amqpHostnames) = hostnames configured

/-- A list of one name at most survives all calls. -/
lemma hostnames_hostnamesAfter {configured : List Char} (hnul : nul ∉ configured)
    (hone : (hostnames configured).length ≤ 1) (history : List Attempt) :
    hostnames (cString (hostnamesAfter configured history)) = hostnames configured := by
  induction history using List.reverseRecOn with
  | nil => rw [hostnamesAfter, List.foldl_nil, cString_of_notMem hnul]
  | append_singleton history a ih =>
    rw [hostnamesAfter, List.foldl_append, List.foldl_cons, List.foldl_nil, ← hostnamesAfter]
    cases hsocket : a.socketNew with
    | false => simpa [openAmqpConnection, hsocket] using ih
    | true =>
      rw [(openAmqpConnection_spec _ hsocket).2, ih]
      exact List.take_of_length_le hone

/-- **Every reconnect tries every broker** exactly when there is at most one: with two, the first
call cuts the list off behind its first name.  A call without a TCP socket tries none. -/
theorem triesEveryBroker_iff (configured : List Char) (hnul : nul ∉ configured)
    (history : List Attempt) : TriesEveryBroker configured history ↔
      ∀ a ∈ history, hostnames configured = [] ∨
        (hostnames configured).length = 1 ∧ a.socketNew = true := by
  constructor
  · intro h a ha
    obtain ⟨earlier, later, rfl⟩ := List.append_of_mem ha
    obtain ⟨htried, hnames⟩ := h earlier a later rfl
    cases hconfigured : hostnames configured with
    | nil => exact Or.inl rfl
    | cons host hosts =>
      rw [hconfigured] at htried hnames
      cases hsocket : a.socketNew with
      | false => simp [openAmqpConnection, hsocket, hostsToTry] at htried
      | true =>
        have hlen := congrArg List.length (openAmqpConnection_spec (hostnamesAfter configured
          earlier) hsocket).2
        rw [hnames, List.length_take, List.length_cons] at hlen
        exact Or.inr ⟨by rw [List.length_cons]; omega, rfl⟩
  · rintro h earlier a later rfl
    have ha := h a (by simp)
    have hone : (hostnames configured).length ≤ 1 := by
      rcases ha with hnil | ⟨hlen, -⟩
      · simp [hnil]
      · omega
    have hearlier := hostnames_hostnamesAfter hnul hone earlier
    cases hsocket : a.socketNew with
    | false =>
      have hnil := ha.resolve_right (by simp [hsocket])
      simp [openAmqpConnection, hsocket, hearlier, hnil, hostsToTry]
    | true =>
      obtain ⟨htried, hleft⟩ := openAmqpConnection_spec (hostnamesAfter configured earlier) hsocket
      rw [hearlier] at htried hleft
      exact ⟨htried, hleft.trans (List.take_of_length_le hone)⟩

/-- No host answers. -/
def noBroker : Attempt := ⟨true, fun _ _ => false, false, false, false⟩

theorem triesEveryBroker_iff_single : TriesEveryBroker "amqp1,".toList [noBroker, noBroker] ↔
    ∀ a ∈ [noBroker, noBroker], hostnames "amqp1,".toList = [] ∨
      (hostnames "amqp1,".toList).length = 1 ∧ a.socketNew = true :=
  triesEveryBroker_iff _ (by decide) _

/-- The second call does not try the second host. -/
theorem not_triesEveryBroker : ¬∀ (configured : List Char) (history : List Attempt),
    nul ∉ configured → (∀ a ∈ history, a.socketNew = true) →
      TriesEveryBroker configured history := by
  intro h
  have hsecond := (h "amqp1,amqp2".toList [noBroker, noBroker] (by decide) (by decide)
    [noBroker] noBroker [] rfl).1
  exact absurd hsecond (by with_unfolding_all decide)

end FreeswitchContrib.Amqp

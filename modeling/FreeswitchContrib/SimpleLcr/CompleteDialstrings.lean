import Mathlib.Data.List.TakeWhile
import FreeswitchContrib.SimpleLcr.Dialstrings

/-!
# Which lists of dial strings are complete

`gateway_get_dialstring` reports a dial string that was cut off as the status `FALSE`, which is 1,
and `build_dialstring_list` compares that status with the room that is left.  So a cut, and a
carrier without a gateway, go unnoticed as long as there is any room; what follows is printed behind
the text that stands there, which without a gateway is whatever the buffer held.  A cut leaves no
room for the next route, so a list that is cut before its last dial string is refused in the end.

* `routeDialstring_step`: one route, from the place where its dial string goes;
* `success_buildDialstringLoop`, `buf_buildDialstringLoop`: the routes behind the first one;
* `buildDialstringList_iff`: when a list that is not refused is the complete one.
-/

namespace FreeswitchContrib.SimpleLcr

variable {bufLen : ℕ} {sep : Char} {dialDigits start before shown : List Char}
  {carriers : List Carrier} {carrier : Carrier} {route : Route} {routes : List Route}
  {offset : ℕ}

/-! ## What should be printed -/

/-- The gateway that the carrier of a route picks, and the carriers then. -/
def selectGateway (carriers : List Carrier) (route : Route) : Option Gateway × List Carrier :=
  let index := route.value.val - 1
  let selected := carrierSelectGateway (carriers.getD index ⟨[], [], 0⟩)
  (selected.1, carriers.set index selected.2)

def Gateway.dialstring (gateway : Gateway) (dialDigits : List Char) : List Char :=
  gateway.1 ++ dialDigits ++ gateway.2

/-- The dial strings of the gateways that are picked for the routes, one after the other; there is
none for a carrier without a gateway. -/
def selectedDialstrings (dialDigits : List Char) :
    List Carrier → List Route → List (Option (List Char))
  | _, [] => []
  | carriers, route :: routes =>
    let selected := selectGateway carriers route
    (selected.1.map fun gateway => gateway.dialstring dialDigits) ::
      selectedDialstrings dialDigits selected.2 routes

/-- There is a dial string for each route, and the buffer has room for all of them, the separators
and a NUL. -/
def Fits (bufLen : ℕ) (sep : Char) (texts : List (Option (List Char))) : Prop :=
  ∃ dialstrings : List (List Char),
    texts = dialstrings.map some ∧ ([sep].intercalate dialstrings).length < bufLen

/-- The buffer holds the complete list and a NUL. -/
def Lists (bufLen : ℕ) (sep : Char) (texts : List (Option (List Char))) (buf : List Char) : Prop :=
  ∃ dialstrings : List (List Char), texts = dialstrings.map some ∧
    ([sep].intercalate dialstrings).length < bufLen ∧
    [sep].intercalate dialstrings ++ ['\x00'] <+: buf

/-- What stands at this place afterwards: as much of the dial string as there is room for, or what
was there before. -/
def shownText (bufLen : ℕ) (start : List Char) (offset : ℕ) : Option (List Char) → List Char
  | some dialstring => dialstring.take (bufLen - 1 - offset)
  | none => (start.drop offset).takeWhile (· ≠ '\x00')

/-- Some route has its place at the end of the buffer, and not the empty dial string; or there is no
room for the separator before it. -/
def NoRoom (bufLen : ℕ) (start : List Char) : ℕ → List (Option (List Char)) → Bool
  | _, [] => false
  | offset, text :: texts =>
    let next := offset + (shownText bufLen start offset text).length
    decide (offset = bufLen ∧ text ≠ some []) ||
      !texts.isEmpty && (decide (next = bufLen) || NoRoom bufLen start (next + 1) texts)

/-- Strings of C have no NUL before their end. -/
def NoNul (carriers : List Carrier) : Prop :=
  ∀ carrier ∈ carriers, ∀ gateway ∈ carrier.gateway, '\x00' ∉ gateway.1 ∧ '\x00' ∉ gateway.2

/-! ## Gateways -/

lemma gateway_carrierSelectGateway (carrier : Carrier) :
    (carrierSelectGateway carrier).2.gateway = carrier.gateway := by
  rw [carrierSelectGateway]
  by_cases hpos : 0 < carrier.gateway.length
  · rw [if_pos hpos]
  · rw [if_neg hpos]

lemma mem_of_carrierSelectGateway {gateway : Gateway}
    (h : (carrierSelectGateway carrier).1 = some gateway) : gateway ∈ carrier.gateway := by
  rw [carrierSelectGateway] at h
  by_cases hpos : 0 < carrier.gateway.length
  · rw [if_pos hpos] at h
    exact List.mem_of_getElem? h
  · rw [if_neg hpos] at h
    cases h

lemma NoNul.getD (h : NoNul carriers) (index : ℕ) :
    ∀ gateway ∈ (carriers.getD index ⟨[], [], 0⟩).gateway,
      '\x00' ∉ gateway.1 ∧ '\x00' ∉ gateway.2 := by
  rw [List.getD_eq_getElem?_getD]
  cases hget : carriers[index]? with
  | none => exact fun gateway hmem => absurd hmem List.not_mem_nil
  | some carrier => exact h carrier (List.mem_of_getElem? hget)

lemma NoNul.selectGateway (h : NoNul carriers) (route : Route) :
    NoNul (selectGateway carriers route).2 := by
  intro carrier hmem
  rcases List.mem_or_eq_of_mem_set hmem with hmem | rfl
  · exact h carrier hmem
  · rw [gateway_carrierSelectGateway]
    exact h.getD _

/-- The dial string of a route has no NUL. -/
lemma NoNul.dialstring (h : NoNul carriers) (hdigits : '\x00' ∉ dialDigits) {gateway : Gateway}
    (hselected : (SimpleLcr.selectGateway carriers route).1 = some gateway) :
    '\x00' ∉ gateway.dialstring dialDigits := by
  obtain ⟨hleads, hends⟩ := h.getD _ gateway (mem_of_carrierSelectGateway hselected)
  rw [Gateway.dialstring, List.mem_append, List.mem_append]
  rintro ((hmem | hmem) | hmem)
  · exact hleads hmem
  · exact hdigits hmem
  · exact hends hmem

/-! ## Printing at a place -/

lemma strlen_append (hnul : '\x00' ∉ shown) (rest : List Char) :
    strlen (before ++ (shown ++ '\x00' :: rest)) before.length = shown.length := by
  have hall : ∀ c ∈ shown, decide (c ≠ '\x00') = true := by
    intro c hc
    exact decide_eq_true fun heq => hnul (heq ▸ hc)
  rw [strlen, List.drop_left, List.takeWhile_append_of_pos hall]
  simp

lemma split_at_nul : ∀ {tail : List Char}, '\x00' ∈ tail → tail =
    tail.takeWhile (· ≠ '\x00') ++
      '\x00' :: tail.drop ((tail.takeWhile (· ≠ '\x00')).length + 1)
  | [], h => absurd h List.not_mem_nil
  | c :: tail, h => by
    by_cases hc : c = '\x00'
    · subst hc
      simp
    · have htail : '\x00' ∈ tail := (List.mem_cons.mp h).resolve_left fun heq => hc heq.symm
      rw [List.takeWhile_cons, if_pos (decide_eq_true hc), List.cons_append, List.length_cons,
        List.drop_succ_cons, ← split_at_nul htail]

/-- The text at this place ends at a NUL. -/
lemma Terminated.drop_eq (h : Terminated bufLen start) (hle : offset ≤ bufLen) :
    start.drop offset = (start.drop offset).takeWhile (· ≠ '\x00') ++ '\x00' ::
      start.drop (offset + ((start.drop offset).takeWhile (· ≠ '\x00')).length + 1) := by
  have hnul : '\x00' ∈ start.drop offset := by
    obtain ⟨front, rfl, rfl⟩ := h
    rw [List.drop_append_of_le_length hle]
    exact List.mem_append_right _ (List.mem_singleton_self _)
  have hsplit := split_at_nul hnul
  rwa [List.drop_drop, ← Nat.add_assoc] at hsplit

/-- The text, as much of it as there is room for, goes before the rest of the buffer. -/
lemma snprintf_append {maxLen : ℕ} (hroom : maxLen ≠ 0) (printed after : List Char) :
    (snprintf (before ++ after) before.length maxLen printed).1
      = before ++ (printed.take (maxLen - 1) ++
          '\x00' :: after.drop ((printed.take (maxLen - 1)).length + 1)) := by
  simp only [snprintf, if_neg hroom]
  rw [List.take_left, List.length_append, List.length_singleton, List.drop_length_add_append,
    List.append_assoc]
  rfl

lemma routeDialstring_of_none {buf : List Char}
    (hselected : (selectGateway carriers route).1 = none) :
    routeDialstring bufLen offset dialDigits buf carriers route
      = ⟨decide (1 ≤ bufLen - offset), buf, (selectGateway carriers route).2⟩ := by
  rw [selectGateway] at hselected ⊢
  rw [routeDialstring, carrierGetDialstring]
  generalize carrierSelectGateway (carriers.getD (route.value.val - 1) ⟨[], [], 0⟩) = selected
    at hselected ⊢
  obtain ⟨gateway, carrier⟩ := selected
  subst hselected
  rfl

lemma routeDialstring_of_some {buf : List Char} {gateway : Gateway}
    (hselected : (selectGateway carriers route).1 = some gateway) :
    routeDialstring bufLen offset dialDigits buf carriers route
      = ⟨decide (switchStatus (decide ((gateway.dialstring dialDigits).length ≤ bufLen - offset))
            ≤ bufLen - offset),
          (snprintf buf offset (bufLen - offset) (gateway.dialstring dialDigits)).1,
          (selectGateway carriers route).2⟩ := by
  rw [selectGateway] at hselected ⊢
  rw [routeDialstring, carrierGetDialstring]
  generalize carrierSelectGateway (carriers.getD (route.value.val - 1) ⟨[], [], 0⟩) = selected
    at hselected ⊢
  obtain ⟨gateway', carrier⟩ := selected
  subst hselected
  rfl

/-- What a route with this dial string does at a place of the buffer: only the end of it is
noticed. -/
structure Printed (bufLen : ℕ) (start before : List Char) (text : Option (List Char))
    (list : DialstringList) : Prop where
  success : list.success = true ↔ before.length < bufLen ∨ text = some []
  room : before.length + (shownText bufLen start before.length text).length ≤ bufLen
  buf : list.buf = before ++ (shownText bufLen start before.length text ++ '\x00' ::
    start.drop (before.length + (shownText bufLen start before.length text).length + 1))

/-- **One route**, of which the dial string goes behind these characters. -/
theorem printed_routeDialstring (h : Terminated bufLen start) (hle : before.length ≤ bufLen)
    (dialDigits : List Char) (carriers : List Carrier) (route : Route) :
    Printed bufLen start before ((selectGateway carriers route).1.map (·.dialstring dialDigits))
      (routeDialstring bufLen before.length dialDigits (before ++ start.drop before.length) carriers
        route) := by
  cases hselected : (selectGateway carriers route).1 with
  | none =>
    rw [routeDialstring_of_none hselected]
    constructor
    · simp only [decide_eq_true_eq, Option.map_none, reduceCtorEq, or_false]
      omega
    · exact h.strlen_le hle
    · exact congrArg (before ++ ·) (h.drop_eq hle)
  | some gateway =>
    rw [routeDialstring_of_some hselected, Option.map_some]
    set dialstring := gateway.dialstring dialDigits
    rcases Nat.lt_or_ge before.length bufLen with hlt | hge
    · have hroom : bufLen - before.length ≠ 0 := by omega
      have htake : bufLen - before.length - 1 = bufLen - 1 - before.length := by omega
      constructor
      · have hone : ∀ b, switchStatus b ≤ bufLen - before.length := by
          intro b
          cases b
          · exact Nat.one_le_iff_ne_zero.mpr hroom
          · exact Nat.zero_le _
        exact iff_of_true (decide_eq_true (hone _)) (Or.inl hlt)
      · rw [shownText, List.length_take]
        omega
      · simp only
        rw [snprintf_append hroom, htake, List.drop_drop, ← Nat.add_assoc]
        rfl
    · -- nothing is printed at the end of the buffer, and its NUL stays
      have heq : before.length = bufLen := le_antisymm hle hge
      have hshown : shownText bufLen start before.length (some dialstring) = [] := by
        rw [shownText, show bufLen - 1 - before.length = 0 by omega, List.take_zero]
      constructor
      · simp only [heq, Nat.sub_self, decide_eq_true_eq, lt_irrefl, false_or, Option.some.injEq]
        by_cases hd : dialstring = [] <;> simp [hd, switchStatus]
      · rw [hshown]
        exact hle
      · rw [hshown, heq]
        obtain ⟨front, hfront, rfl⟩ := h
        simp [snprintf, ← hfront]

/-! ## The loop -/

/-- The list from a route on, of which the dial string goes behind these characters of a buffer that
is as it was from there on. -/
def listFrom (bufLen : ℕ) (sep : Char) (dialDigits start before : List Char)
    (carriers : List Carrier) (route : Route) (routes : List Route) : DialstringList :=
  let list := routeDialstring bufLen before.length dialDigits
    (before ++ start.drop before.length) carriers route
  if list.success then
    buildDialstringLoop bufLen sep dialDigits before.length list.buf list.carriers routes
  else
    list

/-- The loop looks for the end of the text `shown`, puts the separator there and goes on. -/
lemma buildDialstringLoop_step (hnul : '\x00' ∉ shown)
    (hroom : before.length + shown.length < bufLen) (carriers : List Carrier) (route : Route)
    (routes : List Route) :
    buildDialstringLoop bufLen sep dialDigits before.length
        (before ++ (shown ++ '\x00' :: start.drop (before.length + shown.length + 1)))
        carriers (route :: routes)
      = listFrom bufLen sep dialDigits start (before ++ (shown ++ [sep])) carriers route
          routes := by
  have hlen : (before ++ (shown ++ [sep])).length = before.length + shown.length + 1 := by
    simp [Nat.add_assoc]
  have hset : (before ++ (shown ++ '\x00' :: start.drop (before.length + shown.length + 1))).set
        (before.length + shown.length) sep
      = before ++ (shown ++ [sep]) ++ start.drop (before.length + shown.length + 1) := by
    rw [List.set_append_right _ _ (Nat.le_add_right _ _), Nat.add_sub_cancel_left,
      List.set_append_right _ _ le_rfl, Nat.sub_self, List.set_cons_zero]
    simp
  simp only [buildDialstringLoop, strlen_append hnul]
  rw [if_pos (by omega), hset, listFrom, hlen]

lemma buildDialstringLoop_end (hnul : '\x00' ∉ shown)
    (hend : before.length + shown.length = bufLen) (rest : List Char) (carriers : List Carrier)
    (route : Route) (routes : List Route) :
    (buildDialstringLoop bufLen sep dialDigits before.length
        (before ++ (shown ++ '\x00' :: rest)) carriers (route :: routes)).success = false := by
  simp only [buildDialstringLoop, strlen_append hnul]
  rw [if_neg (by omega)]

/-- What is shown at a place has no NUL. -/
lemma nul_notMem_shownText (hcarriers : NoNul carriers) (hdigits : '\x00' ∉ dialDigits)
    (bufLen : ℕ) (start : List Char) (offset : ℕ) (route : Route) :
    '\x00' ∉ shownText bufLen start offset
      ((selectGateway carriers route).1.map (·.dialstring dialDigits)) := by
  cases hselected : (selectGateway carriers route).1 with
  | none =>
    intro hmem
    simpa using List.mem_takeWhile_imp hmem
  | some gateway =>
    exact fun hmem => hcarriers.dialstring hdigits hselected (List.mem_of_mem_take hmem)

lemma carriers_routeDialstring (buf : List Char) :
    (routeDialstring bufLen offset dialDigits buf carriers route).carriers
      = (selectGateway carriers route).2 := by
  cases hselected : (selectGateway carriers route).1 with
  | none => rw [routeDialstring_of_none hselected]
  | some gateway => rw [routeDialstring_of_some hselected]

/-- **When the list is refused.** -/
theorem success_listFrom (h : Terminated bufLen start) (hdigits : '\x00' ∉ dialDigits)
    (sep : Char) : ∀ (routes : List Route) {carriers : List Carrier} (before : List Char)
      (route : Route), NoNul carriers → before.length ≤ bufLen →
    ((listFrom bufLen sep dialDigits start before carriers route routes).success = true ↔
      NoRoom bufLen start before.length
        (selectedDialstrings dialDigits carriers (route :: routes)) = false)
  | routes, carriers, before, route, hcarriers, hle => by
    have hprinted := printed_routeDialstring h hle dialDigits carriers route
    have hnul := nul_notMem_shownText hcarriers hdigits bufLen start before.length route
    have hcarriers' := hcarriers.selectGateway route
    rw [listFrom, selectedDialstrings, NoRoom]
    simp only [carriers_routeDialstring, hprinted.buf]
    obtain ⟨hsuccess, hroom, -⟩ := hprinted
    generalize routeDialstring bufLen before.length dialDigits (before ++ start.drop before.length)
      carriers route = list at *
    generalize (selectGateway carriers route).1.map (·.dialstring dialDigits) = text at *
    set shown := shownText bufLen start before.length text
    by_cases hplace : before.length < bufLen ∨ text = some []
    · have hfirst : decide (before.length = bufLen ∧ text ≠ some []) = false := by
        refine decide_eq_false fun hno => ?_
        rcases hplace with hlt | htext
        · omega
        · exact hno.2 htext
      rw [if_pos (hsuccess.mpr hplace), hfirst, Bool.false_or]
      cases routes with
      | nil => exact iff_of_true rfl rfl
      | cons next routes =>
        by_cases hend : before.length + shown.length = bufLen
        · rw [buildDialstringLoop_end hnul hend, decide_eq_true hend]
          exact iff_of_false Bool.false_ne_true (by simp [selectedDialstrings])
        · have hlt : before.length + shown.length < bufLen := lt_of_le_of_ne hroom hend
          have hlen : (before ++ (shown ++ [sep])).length = before.length + shown.length + 1 := by
            simp [Nat.add_assoc]
          have ih := success_listFrom h hdigits sep routes (before ++ (shown ++ [sep])) next
            hcarriers' (by omega)
          rw [buildDialstringLoop_step hnul hlt, ih, hlen, decide_eq_false hend, Bool.false_or]
          simp [selectedDialstrings]
    · rw [if_neg (fun htrue => hplace (hsuccess.mp htrue))]
      refine iff_of_false (fun htrue => hplace (hsuccess.mp htrue)) ?_
      rw [not_or, not_lt] at hplace
      rw [decide_eq_true (show before.length = bufLen ∧ text ≠ some [] from
        ⟨le_antisymm hle hplace.1, hplace.2⟩), Bool.true_or]
      exact Bool.noConfusion

lemma intercalate_cons (sep dialstring : List Char) : ∀ dialstrings : List (List Char),
    sep.intercalate (dialstring :: dialstrings)
      = dialstring ++ dialstrings.flatMap fun d => sep ++ d
  | [] => by simp
  | next :: dialstrings => by
    rw [List.intercalate_cons_cons, intercalate_cons sep next dialstrings, List.flatMap_cons,
      List.append_assoc, List.append_assoc]

/-- **What is printed** where all the dial strings fit. -/
theorem buf_listFrom (h : Terminated bufLen start) (hdigits : '\x00' ∉ dialDigits) (sep : Char) :
    ∀ {routes : List Route} {carriers : List Carrier} (before : List Char) {route : Route}
      {dialstrings : List (List Char)}, NoNul carriers →
    selectedDialstrings dialDigits carriers (route :: routes) = dialstrings.map some →
    before.length + ([sep].intercalate dialstrings).length < bufLen →
    ∃ rest, (listFrom bufLen sep dialDigits start before carriers route routes).buf
      = before ++ ([sep].intercalate dialstrings ++ '\x00' :: rest)
  | routes, carriers, before, route, dialstrings, hcarriers, hall, hfits => by
    have hle : before.length ≤ bufLen := by omega
    have hprinted := printed_routeDialstring h hle dialDigits carriers route
    have hnul := nul_notMem_shownText hcarriers hdigits bufLen start before.length route
    have hcarriers' := hcarriers.selectGateway route
    rw [listFrom]
    simp only [carriers_routeDialstring, hprinted.buf]
    obtain ⟨hsuccess, -, hbuf⟩ := hprinted
    generalize routeDialstring bufLen before.length dialDigits (before ++ start.drop before.length)
      carriers route = list at *
    cases dialstrings with
    | nil => cases hall
    | cons dialstring dialstrings =>
      rw [selectedDialstrings, List.map_cons] at hall
      obtain ⟨htext, hrest⟩ := List.cons.inj hall
      rw [intercalate_cons] at hfits ⊢
      rw [List.length_append] at hfits
      have hshown : shownText bufLen start before.length (some dialstring) = dialstring :=
        List.take_of_length_le (by omega)
      rw [htext] at hsuccess hnul hbuf ⊢
      rw [hshown] at hnul hbuf ⊢
      rw [if_pos (hsuccess.mpr (Or.inl (by omega)))]
      cases routes with
      | nil =>
        have hnil : dialstrings = [] := List.map_eq_nil_iff.mp hrest.symm
        subst hnil
        exact ⟨_, by rw [List.flatMap_nil, List.append_nil]; rfl⟩
      | cons next routes =>
        have hrest' : selectedDialstrings dialDigits (selectGateway carriers route).2
            (next :: routes) = dialstrings.map some := hrest
        cases dialstrings with
        | nil => cases hrest'
        | cons next' dialstrings =>
          have hsplit : ((next' :: dialstrings).flatMap fun d => [sep] ++ d)
              = [sep] ++ [sep].intercalate (next' :: dialstrings) := by
            rw [intercalate_cons, List.flatMap_cons, List.append_assoc]
          rw [hsplit, List.length_append, List.length_singleton] at hfits
          obtain ⟨rest, ih⟩ := buf_listFrom h hdigits sep (before ++ (dialstring ++ [sep]))
            hcarriers' hrest'
            (by rw [List.length_append, List.length_append, List.length_singleton]; omega)
          rw [buildDialstringLoop_step hnul (by omega), ih, hsplit]
          exact ⟨rest, by simp only [List.append_assoc]⟩

/-- **When the list of dial strings is complete or refused.**  A list is reported only where the
buffer holds all of it exactly if each carrier has a gateway and there is room for all dial strings,
the separators and a NUL, or the texts printed so far leave no room at all for a further route. -/
theorem buildDialstringList_iff (h : Terminated bufLen start) (hcarriers : NoNul carriers)
    (hdigits : '\x00' ∉ dialDigits) (sep : Char) (route : Route) (routes : List Route) :
    ((buildDialstringList start bufLen sep carriers route routes dialDigits).success = true →
        Lists bufLen sep (selectedDialstrings dialDigits carriers (route :: routes))
          (buildDialstringList start bufLen sep carriers route routes dialDigits).buf) ↔
      Fits bufLen sep (selectedDialstrings dialDigits carriers (route :: routes)) ∨
        NoRoom bufLen start 0 (selectedDialstrings dialDigits carriers (route :: routes))
          = true := by
  have hlist : buildDialstringList start bufLen sep carriers route routes dialDigits
      = listFrom bufLen sep dialDigits start [] carriers route routes := rfl
  have hsuccess := success_listFrom h hdigits sep routes [] route hcarriers (Nat.zero_le _)
  rw [hlist, hsuccess, List.length_nil, ← Bool.not_eq_true]
  constructor
  · intro hcomplete
    by_cases hroom :
        NoRoom bufLen start 0 (selectedDialstrings dialDigits carriers (route :: routes)) = true
    · exact Or.inr hroom
    · obtain ⟨dialstrings, hall, hlt, -⟩ := hcomplete hroom
      exact Or.inl ⟨dialstrings, hall, hlt⟩
  · rintro (⟨dialstrings, hall, hlt⟩ | hroom) hnot
    · obtain ⟨rest, hbuf⟩ := buf_listFrom h hdigits sep [] hcarriers hall
        (by simpa using hlt)
      refine ⟨dialstrings, hall, hlt, rest, ?_⟩
      rw [hbuf, List.append_assoc]
      rfl
    · exact absurd hroom hnot

/-- One carrier with two gateways, and one without. -/
def twoGateways : List Carrier :=
  [⟨"a".toList, [("sip/".toList, []), ("iax/".toList, "@b".toList)], 0⟩, ⟨"b".toList, [], 0⟩]

lemma terminated_replicate (n : ℕ) : Terminated n (List.replicate (n + 1) '\x00') :=
  ⟨List.replicate n '\x00', List.length_replicate, List.replicate_succ'⟩

/-- Both gateways, in a buffer that is large enough. -/
theorem buildDialstringList_iff_two : Lists 20 ',' [some "sip/77".toList, some "iax/77@b".toList]
    (buildDialstringList (List.replicate 21 '\x00') 20 ',' twoGateways ⟨4, 1, 0⟩ [⟨5, 1, 0⟩]
      "77".toList).buf :=
  (buildDialstringList_iff (terminated_replicate 20)
    (show NoNul twoGateways by unfold NoNul; decide) (show '\x00' ∉ "77".toList by decide) ','
    ⟨4, 1, 0⟩ [⟨5, 1, 0⟩]).mpr
    (Or.inl ⟨["sip/77".toList, "iax/77@b".toList], by decide, by decide⟩) (by decide)

/-- A dial string that is cut off at the end of the list, and a carrier that has no gateway. -/
theorem not_buildDialstringList_complete : ¬∀ (bufLen : ℕ) (start : List Char) (sep : Char)
    (carriers : List Carrier) (route : Route) (routes : List Route) (dialDigits : List Char),
    Terminated bufLen start → NoNul carriers → '\x00' ∉ dialDigits →
    (buildDialstringList start bufLen sep carriers route routes dialDigits).success = true →
    Lists bufLen sep (selectedDialstrings dialDigits carriers (route :: routes))
      (buildDialstringList start bufLen sep carriers route routes dialDigits).buf := by
  intro h
  obtain ⟨dialstrings, hall, -⟩ := h 8 (List.replicate 9 '\x00') ',' twoGateways ⟨4, 2, 0⟩ []
    "77".toList (terminated_replicate 8) (by unfold NoNul; decide) (by decide) (by decide)
  cases dialstrings <;> cases hall

end FreeswitchContrib.SimpleLcr

import FreeswitchContrib.Fsair.Esl
import FreeswitchContrib.Library.Replaying

/-!
# The framing of messages

`frames` is the cutting of messages off a text, without anything being done about them.

* **Handling**: `receiveAll_keep` says that the socket cuts off what `frames` does and hands each
  message on, as long as no handler throws.
* **Reading**: `callDecode_wire` says that a message as it is sent is cut off as it was meant, and
  `callDecode_unfinished` that nothing is before it is there completely.
-/

namespace FreeswitchContrib.Fsair

open Search Replaying Replaying.Run Replaying.Decoder

variable {ξ κ : Type} {R : Runtime ξ} {react : Callbacks ξ κ} {esl esl' : Esl ξ κ}
  {str rest : Text} {messages : List (EslHeader × Text)} {message : EslHeader × Text}

/-! ## Messages that are cut off -/

/-- The first message and what is behind it; a negative length is an error here. -/
def frame (R : Runtime ξ) (str : Text) : Outcome Unit Char (EslHeader × Text) Unit :=
  match indexOf "\n\n".toList str with
  | none => .replay () str
  | some headEnd =>
    let header := EslHeader.new (str.take headEnd)
    let length := header.contentLength R
    let body := (str.drop (headEnd + 2)).take length.toNat
    if length < 0 then .error ()
    else if body.length < length then .replay () str
    else .done () (str.drop (headEnd + 2 + length.toNat)) (some (header, body))

lemma frame_of_none (h : indexOf "\n\n".toList str = none) : frame R str = .replay () str := by
  simp only [frame, h]

lemma frame_of_some {headEnd : ℕ} {length : ℤ} (h : indexOf "\n\n".toList str = some headEnd)
    (hlength : (EslHeader.new (str.take headEnd)).contentLength R = length) :
    frame R str = if length < 0 then .error ()
      else if ((str.drop (headEnd + 2)).take length.toNat).length < length then .replay () str
      else .done () (str.drop (headEnd + 2 + length.toNat))
        (some (EslHeader.new (str.take headEnd),
          (str.drop (headEnd + 2)).take length.toNat)) := by
  simp only [frame, h, hlength]

/-- Where the header ends, there is room for the two new lines. -/
lemma indexOf_newlines {headEnd : ℕ} (h : indexOf "\n\n".toList str = some headEnd) :
    headEnd + 2 ≤ str.length := by
  obtain ⟨hle, hleads, -⟩ := indexOf_eq_some h
  have hlength := hleads.length_le
  rw [List.length_drop] at hlength
  change 2 ≤ str.length - headEnd at hlength
  omega

/-- A message that is cut off has a length that is not negative, and is there completely. -/
lemma frame_done {s : Unit} {found : Option (EslHeader × Text)}
    (h : frame R str = .done s rest found) :
    ∃ headEnd length : ℕ, indexOf "\n\n".toList str = some headEnd ∧
      (EslHeader.new (str.take headEnd)).contentLength R = length ∧
      headEnd + 2 + length ≤ str.length ∧ rest = str.drop (headEnd + 2 + length) ∧
      found = some (EslHeader.new (str.take headEnd),
        (str.drop (headEnd + 2)).take length) := by
  cases hindex : indexOf "\n\n".toList str with
  | none =>
    rw [frame_of_none hindex] at h
    cases h
  | some headEnd =>
    have hroom := indexOf_newlines hindex
    rw [frame_of_some hindex rfl] at h
    split_ifs at h with hneg hshort
    obtain ⟨length, hlength⟩ := Int.eq_ofNat_of_zero_le (Int.not_lt.1 hneg)
    rw [hlength, Int.toNat_natCast] at h hshort
    cases h
    rw [List.length_take, List.length_drop] at hshort
    exact ⟨headEnd, length, rfl, hlength, by omega, rfl, rfl⟩

lemma frame_append_of_done {s : Unit} {found : Option (EslHeader × Text)}
    (h : frame R str = .done s rest found) (ys : Text) :
    frame R (str ++ ys) = .done s (rest ++ ys) found := by
  obtain ⟨headEnd, length, hindex, hlength, hroom, rfl, rfl⟩ := frame_done h
  have htake : (str ++ ys).take headEnd = str.take headEnd :=
    List.take_append_of_le_length (by omega)
  have hbody : ((str ++ ys).drop (headEnd + 2)).take length
      = (str.drop (headEnd + 2)).take length := by
    rw [List.drop_append_of_le_length (by omega), List.take_append_of_le_length]
    rw [List.length_drop]
    omega
  have hlength' : (EslHeader.new ((str ++ ys).take headEnd)).contentLength R = length := by
    rw [htake, hlength]
  have hfull : ((str.drop (headEnd + 2)).take length).length = length := by
    rw [List.length_take_of_le]
    rw [List.length_drop]
    omega
  rw [frame_of_some (indexOf_append_of_some hindex ys) hlength', Int.toNat_natCast,
    if_neg (by omega), hbody, hfull, if_neg (by omega), htake,
    List.drop_append_of_le_length hroom]

lemma frame_append_of_error (h : frame R str = .error ()) (ys : Text) :
    frame R (str ++ ys) = .error () := by
  cases hindex : indexOf "\n\n".toList str with
  | none =>
    rw [frame_of_none hindex] at h
    cases h
  | some headEnd =>
    have hroom := indexOf_newlines hindex
    rw [frame_of_some hindex rfl] at h
    split_ifs at h with hneg
    have htake : (str ++ ys).take headEnd = str.take headEnd :=
      List.take_append_of_le_length (by omega)
    rw [frame_of_some (indexOf_append_of_some hindex ys) (by rw [htake]), if_pos hneg]

lemma frame_replay {s : Unit} (h : frame R str = .replay s rest) : rest = str := by
  cases hindex : indexOf "\n\n".toList str with
  | none =>
    rw [frame_of_none hindex] at h
    cases h
    rfl
  | some headEnd =>
    rw [frame_of_some hindex rfl] at h
    split_ifs at h
    cases h
    rfl

lemma frame_rest_lt {s : Unit} {found : Option (EslHeader × Text)}
    (h : frame R str = .done s rest found) : rest.length < str.length := by
  obtain ⟨headEnd, length, -, -, hroom, rfl, -⟩ := frame_done h
  rw [List.length_drop]
  omega

/-- The cutting off of messages can be taken up again wherever a chunk ends. -/
def frames (R : Runtime ξ) : Decoder Unit Char (EslHeader × Text) Unit where
  decode _ str := frame R str
  size _ str := str.length
  size_lt := frame_rest_lt
  decode_append_of_done h ys := frame_append_of_done h ys
  decode_append_of_error h ys := frame_append_of_error h ys
  decode_append_of_replay h ys := by rw [frame_replay h]

/-! ## Handling -/

namespace Esl

/-- The messages are handled one after the other, until a handler throws. -/
def dispatchAll (R : Runtime ξ) (react : Callbacks ξ κ) (esl : Esl ξ κ)
    (messages : List (EslHeader × Text)) : Except (Esl ξ κ) (Esl ξ κ) :=
  messages.foldlM (fun esl message => esl.dispatch R react message) esl

/-- The socket with what it keeps for the next chunk. -/
def keep (esl : Esl ξ κ) (rest : Text) : Esl ξ κ :=
  { esl with lastData := if rest = [] then none else some rest }

@[simp] lemma dispatchAll_nil : esl.dispatchAll R react [] = .ok esl := rfl

lemma dispatchAll_cons_ok (h : esl.dispatchAll R react (message :: messages) = .ok esl') :
    ∃ esl₁, esl.dispatch R react message = .ok esl₁ ∧
      esl₁.dispatchAll R react messages = .ok esl' := by
  rw [dispatchAll, List.foldlM_cons] at h
  cases hone : esl.dispatch R react message with
  | error e =>
    rw [hone] at h
    cases h
  | ok esl₁ =>
    rw [hone] at h
    exact ⟨esl₁, rfl, h⟩

lemma dispatchAll_append_ok {before behind : List (EslHeader × Text)}
    (h : esl.dispatchAll R react (before ++ behind) = .ok esl') :
    ∃ esl₁, esl.dispatchAll R react before = .ok esl₁ ∧
      esl₁.dispatchAll R react behind = .ok esl' := by
  induction before generalizing esl with
  | nil => exact ⟨esl, rfl, h⟩
  | cons message before ih =>
    obtain ⟨esl₁, hone, hall⟩ := dispatchAll_cons_ok h
    obtain ⟨esl₂, hbefore, hbehind⟩ := ih hall
    refine ⟨esl₂, ?_, hbehind⟩
    rw [dispatchAll, List.foldlM_cons, hone]
    exact hbefore

/-! ### What the handlers leave alone -/

@[simp] lemma lastData_perform (command : Command κ) :
    (esl.perform command).lastData = esl.lastData := by
  cases command <;> rfl

@[simp] lemma processed_perform (command : Command κ) :
    (esl.perform command).processed = esl.processed := by
  cases command <;> rfl

lemma perform_frame (commands : List (Command κ)) :
    ∀ esl : Esl ξ κ, (commands.foldl perform esl).lastData = esl.lastData ∧
      (commands.foldl perform esl).processed = esl.processed := by
  induction commands with
  | nil => exact fun esl => ⟨rfl, rfl⟩
  | cons command commands ih =>
    intro esl
    obtain ⟨hlast, hprocessed⟩ := ih (esl.perform command)
    exact ⟨hlast.trans (lastData_perform command), hprocessed.trans (processed_perform command)⟩

lemma call_frame {func : κ} {argument : Argument ξ} (h : esl.call react func argument = .ok esl') :
    esl'.lastData = esl.lastData ∧ esl'.processed = esl.processed := by
  rw [call] at h
  split_ifs at h
  obtain rfl := Except.ok.inj h
  exact perform_frame _ _

lemma callEvents_frame {ev : EslEvent ξ} (h : esl.callEvents R react ev = .ok esl') :
    esl'.lastData = esl.lastData ∧ esl'.processed = esl.processed := by
  rw [callEvents] at h
  generalize esl.eventCallback.entries.filter _ = entries at h
  induction entries generalizing esl with
  | nil =>
    obtain rfl := Except.ok.inj h
    exact ⟨rfl, rfl⟩
  | cons entry entries ih =>
    rw [List.foldlM_cons] at h
    cases hcall : esl.call react entry.2 (.event ev) with
    | error e =>
      rw [hcall] at h
      cases h
    | ok esl₁ =>
      rw [hcall] at h
      obtain ⟨hlast, hprocessed⟩ := ih h
      have hone := call_frame hcall
      exact ⟨hlast.trans hone.1, hprocessed.trans hone.2⟩

lemma ok_of_map {f : Esl ξ κ → Esl ξ κ} {result : Except (Esl ξ κ) (Esl ξ κ)}
    (h : result.map f = .ok esl') : ∃ esl₁, result = .ok esl₁ ∧ f esl₁ = esl' := by
  cases result with
  | error e => cases h
  | ok esl₁ => exact ⟨esl₁, rfl, Except.ok.inj h⟩

/-- A handler records its message, and has nothing to do with the text that is kept. -/
lemma dispatch_frame (h : esl.dispatch R react message = .ok esl') :
    esl'.lastData = esl.lastData ∧ esl'.processed = esl.processed ++ [message] := by
  rw [dispatch] at h
  split at h
  · cases h
  · split_ifs at h
    · obtain rfl := Except.ok.inj h
      exact ⟨lastData_perform _, processed_perform _⟩
    · split at h
      · obtain ⟨esl₁, hcall, rfl⟩ := ok_of_map h
        exact call_frame hcall
      · obtain rfl := Except.ok.inj h
        exact ⟨rfl, rfl⟩
    · split at h
      · obtain ⟨esl₁, hcall, rfl⟩ := ok_of_map h
        exact call_frame hcall
      · obtain rfl := Except.ok.inj h
        exact ⟨rfl, rfl⟩
    · split at h
      · exact callEvents_frame h
      · cases h
    · obtain rfl := Except.ok.inj h
      exact ⟨rfl, rfl⟩

lemma dispatchAll_frame (h : esl.dispatchAll R react messages = .ok esl') :
    esl'.lastData = esl.lastData ∧ esl'.processed = esl.processed ++ messages := by
  induction messages generalizing esl with
  | nil =>
    obtain rfl := Except.ok.inj h
    exact ⟨rfl, (List.append_nil _).symm⟩
  | cons message messages ih =>
    obtain ⟨esl₁, hone, hall⟩ := dispatchAll_cons_ok h
    obtain ⟨hlast, hprocessed⟩ := ih hall
    obtain ⟨hlast₁, hprocessed₁⟩ := dispatch_frame hone
    refine ⟨hlast.trans hlast₁, ?_⟩
    rw [hprocessed, hprocessed₁, List.append_assoc, List.singleton_append]

/-! ### The loop -/

lemma dataLoop_nil (fuel : ℕ) : dataLoop R react (fuel + 1) [] esl = some (.ok esl) := by
  rw [dataLoop, if_pos rfl]

lemma dataLoop_of_replay {s : Unit} (hstr : str ≠ []) (h : frame R str = .replay s rest)
    (fuel : ℕ) :
    dataLoop R react (fuel + 1) str esl = some (.ok { esl with lastData := some str }) := by
  rw [dataLoop, if_neg hstr]
  cases hindex : indexOf "\n\n".toList str with
  | none => rfl
  | some headEnd =>
    rw [frame_of_some hindex rfl] at h
    split_ifs at h with hneg hshort
    dsimp only
    rw [if_pos hshort]

lemma dataLoop_of_done {s : Unit} (hstr : str ≠ []) (h : frame R str = .done s rest (some message))
    (fuel : ℕ) :
    dataLoop R react (fuel + 1) str esl = match esl.dispatch R react message with
      | .ok esl => dataLoop R react fuel rest esl
      | .error esl => some (.error esl) := by
  obtain ⟨headEnd, length, hindex, hlength, hroom, rfl, hmessage⟩ := frame_done h
  obtain rfl := Option.some.inj hmessage
  have hfull : ((str.drop (headEnd + 2)).take length).length = length := by
    rw [List.length_take_of_le]
    rw [List.length_drop]
    omega
  have hrest : substr str ((headEnd : ℤ) + 2 + (length : ℤ)) = str.drop (headEnd + 2 + length) := by
    rw [substr, if_pos (by omega)]
    congr 1
  rw [dataLoop, if_neg hstr, hindex]
  dsimp only
  rw [hlength, Int.toNat_natCast, hfull, hrest]
  exact if_neg (by omega)

/-- The loop cuts off what `frames` does. -/
lemma dataLoop_of_callDecode (hnone : esl.lastData = none)
    (h : (frames R).callDecode () str = ⟨messages, .ok ((), rest)⟩)
    (hok : esl.dispatchAll R react messages = .ok esl') {fuel : ℕ} (hfuel : str.length < fuel) :
    dataLoop R react fuel str esl = some (.ok (esl'.keep rest)) := by
  induction fuel generalizing str messages esl with
  | zero => exact absurd hfuel (Nat.not_lt_zero _)
  | succ fuel ih =>
    by_cases hstr : str = []
    · subst hstr
      rw [callDecode_nil] at h
      obtain ⟨rfl, rfl⟩ : [] = messages ∧ [] = rest := by simpa [stop] using h
      obtain rfl := Except.ok.inj hok
      rw [dataLoop_nil, keep, if_pos rfl, ← hnone]
    · cases hframe : (frames R).decode () str with
      | replay s left =>
        have hleft : left = str := frame_replay hframe
        rw [callDecode_of_replay hstr hframe, hleft] at h
        obtain ⟨rfl, rfl⟩ : [] = messages ∧ str = rest := by simpa [stop] using h
        obtain rfl := Except.ok.inj hok
        rw [dataLoop_of_replay hstr hframe, keep, if_neg hstr]
      | done s left found =>
        obtain ⟨headEnd, length, -, -, -, -, hfound⟩ := frame_done hframe
        have hlt : left.length < str.length := frame_rest_lt hframe
        rw [callDecode_of_done hstr hframe, after] at h
        simp only [Run.mk.injEq] at h
        obtain ⟨hmessages, houtcome⟩ := h
        rw [hfound] at hmessages hframe
        rw [← hmessages] at hok
        obtain ⟨esl₁, hone, hall⟩ := dispatchAll_cons_ok hok
        rw [dataLoop_of_done hstr hframe, hone]
        dsimp only
        refine ih ((dispatch_frame hone).1.trans hnone) ?_ hall (by omega)
        rw [← houtcome]
        rfl
      | error e =>
        rw [callDecode_of_error hstr hframe] at h
        simp [fail] at h

lemma dataHandler_keep (hnone : esl.lastData = none) (chunk : Text) {left : Text}
    (h : (frames R).callDecode () (rest ++ chunk) = ⟨messages, .ok ((), left)⟩)
    (hok : esl.dispatchAll R react messages = .ok esl') :
    (esl.keep rest).dataHandler R react chunk = some (.ok (esl'.keep left)) := by
  have hkept : (esl.keep rest).lastData.getD [] = rest := by
    rw [keep]
    dsimp only
    split_ifs with hrest
    · exact hrest.symm
    · rfl
  have hstart : { esl.keep rest with lastData := none } = esl := by
    rw [keep, ← hnone]
  rw [dataHandler, hkept, hstart]
  exact dataLoop_of_callDecode hnone h hok (Nat.lt_succ_self _)

/-- **The socket handles what `frames` cuts off**, chunk by chunk. -/
theorem receiveAll_keep (chunks : List Text) :
    ∀ {esl : Esl ξ κ} {rest left : Text} {messages : List (EslHeader × Text)},
      esl.lastData = none → (frames R).receiveAll () rest chunks = ⟨messages, .ok ((), left)⟩ →
      esl.dispatchAll R react messages = .ok esl' →
      (esl.keep rest).receiveAll R react chunks = some (esl'.keep left) := by
  induction chunks with
  | nil =>
    intro esl rest left messages _ h hok
    obtain ⟨rfl, rfl⟩ : [] = messages ∧ rest = left := by
      simpa [Decoder.receiveAll, stop] using h
    obtain rfl := Except.ok.inj hok
    rfl
  | cons chunk chunks ih =>
    intro esl rest left messages hnone h hok
    rw [Decoder.receiveAll, andThen] at h
    cases hchunk : ((frames R).callDecode () (rest ++ chunk)).outcome with
    | error e =>
      simp only [hchunk] at h
      rw [h] at hchunk
      cases hchunk
    | ok p =>
      obtain ⟨s, middle⟩ := p
      simp only [hchunk] at h
      have hfirst : (frames R).callDecode () (rest ++ chunk)
          = ⟨((frames R).callDecode () (rest ++ chunk)).emitted, .ok ((), middle)⟩ := by
        rw [← hchunk]
      rw [after] at h
      simp only [Run.mk.injEq] at h
      obtain ⟨rfl, houtcome⟩ := h
      obtain ⟨esl₁, hone, hall⟩ := dispatchAll_append_ok hok
      have hnext := ih ((dispatchAll_frame hone).1.trans hnone)
        (show (frames R).receiveAll () middle chunks = ⟨_, .ok ((), left)⟩ by rw [← houtcome]) hall
      rw [receiveAll, List.foldlM_cons, socketData, dataHandler_keep hnone chunk hfirst hone]
      exact hnext

end Esl

end FreeswitchContrib.Fsair

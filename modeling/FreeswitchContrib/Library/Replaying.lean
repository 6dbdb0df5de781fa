import Mathlib.Data.List.Basic

/-!
# Replaying decoders

A replaying decoder reads from a buffer as if it held the whole stream.  When it runs out of bytes
the call is abandoned, the buffer goes back to the last checkpoint, and the call is made again once
more bytes are there; what the decoder stored up to the checkpoint stays.

The laws of a `Decoder` say that a call sees no difference between a buffer and the beginning of a
longer one.  `receiveAll_eq_callDecode` is the consequence: what is decoded from the chunks of a
stream is what is decoded from the whole stream, however it is cut.
-/

namespace Replaying

variable {σ α β ε ρ : Type}

/-! ## Runs -/

/-- What a run emitted, and how it ended: with a result or with an exception. -/
structure Run (ρ β ε : Type) where
  emitted : List β
  outcome : Except ε ρ

namespace Run

def stop (result : ρ) : Run ρ β ε :=
  ⟨[], .ok result⟩

def fail (e : ε) : Run ρ β ε :=
  ⟨[], .error e⟩

/-- The run with messages emitted before it. -/
def after (messages : List β) (r : Run ρ β ε) : Run ρ β ε :=
  ⟨messages ++ r.emitted, r.outcome⟩

/-- A run followed by another one from its result; an exception ends both. -/
def andThen (r : Run ρ β ε) (next : ρ → Run ρ β ε) : Run ρ β ε :=
  match r.outcome with
  | .ok result => (next result).after r.emitted
  | .error _ => r

variable {r : Run ρ β ε} {next : ρ → Run ρ β ε} {ms ms' : List β} {result : ρ} {e : ε}

@[simp] lemma after_nil : r.after [] = r := rfl

@[simp] lemma after_after : (r.after ms).after ms' = r.after (ms' ++ ms) := by
  simp [after]

@[simp] lemma outcome_after : (r.after ms).outcome = r.outcome := rfl

@[simp] lemma emitted_after : (r.after ms).emitted = ms ++ r.emitted := rfl

@[simp] lemma stop_andThen : (stop result).andThen next = next result := rfl

@[simp] lemma fail_andThen : (fail e : Run ρ β ε).andThen next = fail e := rfl

lemma after_andThen : (r.after ms).andThen next = (r.andThen next).after ms := by
  obtain ⟨emitted, e | result⟩ := r
  · rfl
  · simp [andThen, after]

end Run

/-! ## Decoders -/

/-- How one call of a decoder ends: abandoned, with the state and the buffer of the last checkpoint;
returning, with or without a message; or with an exception. -/
inductive Outcome (σ α β ε : Type) where
  | replay (s : σ) (rest : List α)
  | done (s : σ) (rest : List α) (message : Option β)
  | error (e : ε)

/-- A decoder that can be replayed.  Calls that return bring the stream forward, and later bytes
change nothing but what an abandoned call goes on with. -/
structure Decoder (σ α β ε : Type) where
  decode : σ → List α → Outcome σ α β ε
  size : σ → List α → Nat
  size_lt : ∀ {s xs s' rest message}, decode s xs = .done s' rest message → size s' rest < size s xs
  decode_append_of_done : ∀ {s xs s' rest message}, decode s xs = .done s' rest message →
    ∀ ys, decode s (xs ++ ys) = .done s' (rest ++ ys) message
  decode_append_of_error : ∀ {s xs e}, decode s xs = .error e → ∀ ys, decode s (xs ++ ys) = .error e
  decode_append_of_replay : ∀ {s xs s' rest}, decode s xs = .replay s' rest →
    ∀ ys, decode s (xs ++ ys) = decode s' (rest ++ ys)

open Run

namespace Decoder

variable (D : Decoder σ α β ε)

/-- The decoder is called as long as there are unread bytes, until a call runs out of them. -/
def callDecode (s : σ) (xs : List α) : Run (σ × List α) β ε :=
  if xs.isEmpty then
    stop (s, xs)
  else
    match _h : D.decode s xs with
    | .replay s' rest => stop (s', rest)
    | .done s' rest message => (callDecode s' rest).after message.toList
    | .error e => fail e
termination_by D.size s xs
decreasing_by exact D.size_lt ‹_›

/-- The chunks of a stream are received one after the other, each behind what was left unread. -/
def receiveAll (s : σ) (unread : List α) : List (List α) → Run (σ × List α) β ε
  | [] => stop (s, unread)
  | chunk :: chunks =>
    (D.callDecode s (unread ++ chunk)).andThen fun p => receiveAll p.1 p.2 chunks

variable {D} {s s' : σ} {xs ys rest : List α} {e : ε} {message : Option β}

@[simp] lemma callDecode_nil : D.callDecode s [] = stop (s, []) := by
  rw [callDecode]
  rfl

lemma callDecode_of_replay (hxs : xs ≠ []) (h : D.decode s xs = .replay s' rest) :
    D.callDecode s xs = stop (s', rest) := by
  rw [callDecode, if_neg (by simpa using hxs)]
  split <;> simp_all

lemma callDecode_of_done (hxs : xs ≠ []) (h : D.decode s xs = .done s' rest message) :
    D.callDecode s xs = (D.callDecode s' rest).after message.toList := by
  rw [callDecode, if_neg (by simpa using hxs)]
  split <;> simp_all

lemma callDecode_of_error (hxs : xs ≠ []) (h : D.decode s xs = .error e) :
    D.callDecode s xs = fail e := by
  rw [callDecode, if_neg (by simpa using hxs)]
  split <;> simp_all

/-- The run from nonempty buffers is determined by the first call. -/
lemma callDecode_congr (hxs : xs ≠ []) (hys : ys ≠ []) (h : D.decode s xs = D.decode s' ys) :
    D.callDecode s xs = D.callDecode s' ys := by
  cases h' : D.decode s' ys with
  | replay s₁ rest => rw [callDecode_of_replay hxs (h.trans h'), callDecode_of_replay hys h']
  | done s₁ rest message => rw [callDecode_of_done hxs (h.trans h'), callDecode_of_done hys h']
  | error e => rw [callDecode_of_error hxs (h.trans h'), callDecode_of_error hys h']

/-- An abandoned call is taken up again from its checkpoint. -/
lemma callDecode_append_of_replay (hxs : xs ≠ []) (h : D.decode s xs = .replay s' rest) :
    D.callDecode s (xs ++ ys) = D.callDecode s' (rest ++ ys) := by
  by_cases hnil : rest ++ ys = []
  · obtain ⟨rfl, rfl⟩ := List.append_eq_nil_iff.mp hnil
    rw [List.append_nil, callDecode_of_replay hxs h, List.append_nil, callDecode_nil]
  · exact callDecode_congr (by simp [hxs]) hnil (D.decode_append_of_replay h ys)

/-- **Decoding can be interrupted anywhere.** -/
theorem callDecode_append (s : σ) (xs ys : List α) :
    D.callDecode s (xs ++ ys)
      = (D.callDecode s xs).andThen fun p => D.callDecode p.1 (p.2 ++ ys) := by
  by_cases hxs : xs = []
  · subst hxs
    rw [callDecode_nil, stop_andThen]
  have hxys : xs ++ ys ≠ [] := by simp [hxs]
  cases h : D.decode s xs with
  | replay s' rest =>
    rw [callDecode_of_replay hxs h, stop_andThen, callDecode_append_of_replay hxs h]
  | done s' rest message =>
    have hlt := D.size_lt h
    rw [callDecode_of_done hxs h, after_andThen,
      callDecode_of_done hxys (D.decode_append_of_done h ys), callDecode_append s' rest ys]
  | error e =>
    rw [callDecode_of_error hxs h, fail_andThen,
      callDecode_of_error hxys (D.decode_append_of_error h ys)]
termination_by D.size s xs

/-- Where the decoder stopped there is nothing more to decode. -/
lemma callDecode_stopped (s : σ) (xs : List α) (h : (D.callDecode s xs).outcome = .ok (s', rest)) :
    D.callDecode s' rest = stop (s', rest) := by
  by_cases hxs : xs = []
  · subst hxs
    obtain ⟨rfl, rfl⟩ : s = s' ∧ [] = rest := by simpa [stop] using h
    exact callDecode_nil
  cases hd : D.decode s xs with
  | replay s₁ rest₁ =>
    have hstop := callDecode_of_replay hxs hd
    rw [hstop] at h
    obtain ⟨rfl, rfl⟩ : s₁ = s' ∧ rest₁ = rest := by simpa [stop] using h
    have hsame : D.callDecode s (xs ++ []) = D.callDecode s₁ (rest₁ ++ []) :=
      callDecode_append_of_replay hxs hd
    rw [List.append_nil, List.append_nil] at hsame
    rw [← hsame, hstop]
  | done s₁ rest₁ message =>
    have hlt := D.size_lt hd
    rw [callDecode_of_done hxs hd, outcome_after] at h
    exact callDecode_stopped s₁ rest₁ h
  | error e =>
    rw [callDecode_of_error hxs hd] at h
    simp [fail] at h
termination_by D.size s xs

/-- **Chunking independence.**  The chunks of a stream are decoded as the stream is. -/
theorem receiveAll_eq_callDecode (chunks : List (List α)) :
    ∀ (s : σ) (unread : List α), D.callDecode s unread = stop (s, unread) →
      D.receiveAll s unread chunks = D.callDecode s (unread ++ chunks.flatten) := by
  induction chunks with
  | nil =>
    intro s unread h
    rw [receiveAll, List.flatten_nil, List.append_nil, h]
  | cons chunk chunks ih =>
    intro s unread _
    rw [receiveAll, List.flatten_cons, ← List.append_assoc,
      callDecode_append s (unread ++ chunk) chunks.flatten]
    cases h : (D.callDecode s (unread ++ chunk)).outcome with
    | ok p => simp only [andThen, h, ih p.1 p.2 (callDecode_stopped s _ h)]
    | error e => simp only [andThen, h]

/-- A stream of written messages is read back when each message is, whatever follows it. -/
theorem callDecode_flatMap {γ : Type} {s : σ} {write : γ → List α} {read : γ → β} {ms : List γ}
    (h : ∀ m ∈ ms, ∀ rest, D.callDecode s (write m ++ rest)
      = (D.callDecode s rest).after [read m]) :
    D.callDecode s (ms.flatMap write) = (stop (s, [])).after (ms.map read) := by
  induction ms with
  | nil => rw [List.flatMap_nil, callDecode_nil, List.map_nil, after_nil]
  | cons m ms ih =>
    rw [List.flatMap_cons, h m List.mem_cons_self,
      ih fun m' hm' => h m' (List.mem_cons_of_mem m hm'), after_after, List.map_cons,
      List.singleton_append]

lemma prefix_append_cases {xs ys zs : List α} (h : xs <+: ys ++ zs) :
    xs <+: ys ∨ ∃ rest, xs = ys ++ rest ∧ rest <+: zs := by
  rcases List.prefix_or_prefix_of_prefix h (List.prefix_append ys zs) with hxs | ⟨rest, rfl⟩
  · exact Or.inl hxs
  · exact Or.inr ⟨rest, rfl, (List.prefix_append_right_inj ys).1 h⟩

/-- The beginning of a stream of written messages is read back up to the message that is not there
completely. -/
theorem callDecode_of_prefix {γ : Type} {s : σ} {write : γ → List α} {read : γ → β} :
    ∀ {ms : List γ} {xs : List α},
      (∀ m ∈ ms, ∀ rest, D.callDecode s (write m ++ rest) = (D.callDecode s rest).after [read m]) →
      (∀ m ∈ ms, ∀ rest, rest <+: write m → rest ≠ write m → D.callDecode s rest = stop (s, rest)) →
      xs <+: ms.flatMap write →
      ∃ k rest, xs = (ms.take k).flatMap write ++ rest ∧
        (rest = [] ∨ ∃ m, ms[k]? = some m ∧ rest <+: write m ∧ rest ≠ write m) ∧
        D.callDecode s xs = (stop (s, rest)).after ((ms.take k).map read)
  | [], xs, _, _, hxs => by
    obtain rfl : xs = [] := by simpa using hxs
    exact ⟨0, [], by simp, Or.inl rfl, callDecode_nil⟩
  | m :: ms, xs, hread, hstop, hxs => by
    rw [List.flatMap_cons] at hxs
    rcases prefix_append_cases hxs with hshort | ⟨rest, rfl, hrest⟩
    · by_cases hwhole : xs = write m
      · refine ⟨1, [], by simp [hwhole], Or.inl rfl, ?_⟩
        have h := hread m List.mem_cons_self []
        rw [List.append_nil, callDecode_nil] at h
        rw [hwhole, h]
        rfl
      · exact ⟨0, xs, rfl, Or.inr ⟨m, rfl, hshort, hwhole⟩,
          hstop m List.mem_cons_self xs hshort hwhole⟩
    · obtain ⟨k, left, rfl, hleft, hdecode⟩ := callDecode_of_prefix
        (fun m' hm' => hread m' (List.mem_cons_of_mem m hm'))
        (fun m' hm' => hstop m' (List.mem_cons_of_mem m hm')) hrest
      refine ⟨k + 1, left, by simp, hleft, ?_⟩
      rw [hread m List.mem_cons_self, hdecode, after_after]
      rfl

end Decoder

end Replaying

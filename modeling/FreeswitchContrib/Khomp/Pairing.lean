import FreeswitchContrib.Khomp.Channels
import FreeswitchContrib.Library.Ownership
import Mathlib.Algebra.BigOperators.Ring.Finset
import Mathlib.Order.Interval.Finset.Nat

/-!
# Khomp channels and sessions stay paired

* `Paired` — the session of a channel is alive and attached to it, a session is on one channel only,
  the codecs are destroyed once, a failed attempt leaves nothing behind, and the counter counts the
  calls.
* `Careful` — what the failure exits and the two callers of `channel_on_hangup` would have to wait
  for.
* **`run_paired`** — careful steps keep to it.
-/

namespace Khomp.Channels

open Interleaving Ownership

/-! ## The statement -/

/-- `find_channel` or `tech_init` has attached the session to this channel. -/
def Session.AttachedTo (t : Session) (x : Chan) : Prop := t.tech = some x ∨ t.creator = .techInit x

/-- It has passed `channel_on_init`, and not yet `channel_on_hangup`. -/
def Session.Counted (t : Session) : Prop := t.inited = true ∧ t.hungUp = false

instance (t : Session) : Decidable t.Counted := inferInstanceAs (Decidable (_ ∧ _))

structure Paired (s : System) : Prop where
  live : ∀ x S, s.pvt x = some S →
    S < s.numSessions ∧ (s.session S).destroyed = false ∧ (s.session S).AttachedTo x
  unique : ∀ x y S, s.pvt x = some S → s.pvt y = some S → x = y
  codecs : ∀ c < s.numCodecs, s.numDestroyed c ≤ 1 ∧
    ((s.session (s.owner c)).destroyed = true → s.numDestroyed c = 1)
  failed : ∀ S < s.numSessions, ∀ left, (s.session S).outgoing = true →
    (s.session S).creator = .failed left → left = none
  calls : s.calls = {S ∈ Finset.range s.numSessions | (s.session S).Counted}.card

/-- The two codecs of a channel are not in use. -/
def System.NoCodecs (s : System) (x : Chan) : Prop :=
  (s.slot (x, .read)).held = none ∧ (s.slot (x, .write)).held = none

instance (s : System) (x : Chan) : Decidable (s.NoCodecs x) := inferInstanceAs (Decidable (_ ∧ _))

/-- A codec is set up where there is none, on a channel that has the session, and `tech_init` does
not fail for an incoming call that the channel has. -/
def System.CarefulInit (s : System) (S : ℕ) (x : Chan) (side : Side) (ok : Bool) : Prop :=
  (s.slot (x, side)).held = none ∧
    if ok then s.pvt x = some S else (s.session S).outgoing = true ∨ s.pvt x ≠ some S

instance (s : System) (S : ℕ) (x : Chan) (side : Side) (ok : Bool) :
    Decidable (s.CarefulInit S x side ok) := inferInstanceAs (Decidable (_ ∧ ite _ _ _))

/-- The session of a channel is written where no codec depends on it, and a session is not destroyed
while a channel has it. -/
def System.CarefulCreate (s : System) (S : ℕ) (ok : Bool) : Prop :=
  match (s.session S).creator with
  | .found x | .techInit x => s.NoCodecs x
  | .initRead x => s.CarefulInit S x .read ok
  | .initWrite x => s.CarefulInit S x .write ok
  | .makeCall x => ok = true ∨ s.pvt x = none
  | .threadLaunch x => ok = true ∨ s.pvt x ≠ some S
  | .setSession x => s.pvt x = some S
  | .finding | .returned | .failed _ => True

/-- A hang-up is processed for a call that is counted; the same hang-up is processed again only
where it does nothing. -/
def System.CarefulHangup (s : System) (S : ℕ) (x : Chan) (ok : Bool) : Phase → Prop
  | .release => s.NoCodecs x
  | .command => ok = true ∨ ¬ (s.session S).Counted
  | .count => (s.session S).Counted ∨ s.calls = 0
  | .read | .write | .done => True

instance (s : System) (S : ℕ) (x : Chan) (ok : Bool) :
    (phase : Phase) → Decidable (s.CarefulHangup S x ok phase)
  | .release => inferInstanceAs (Decidable (s.NoCodecs x))
  | .command => inferInstanceAs (Decidable (_ ∨ _))
  | .count => inferInstanceAs (Decidable (_ ∨ _))
  | .read | .write | .done => .isTrue trivial

instance (s : System) (S : ℕ) (ok : Bool) : Decidable (s.CarefulCreate S ok) := by
  unfold System.CarefulCreate
  split <;> infer_instance

def System.CarefulCore (s : System) (S : ℕ) (ok : Bool) : Prop :=
  match (s.session S).core with
  | .hangup x phase => s.CarefulHangup S x ok phase
  | .idle | .ready => True

instance (s : System) (S : ℕ) (ok : Bool) : Decidable (s.CarefulCore S ok) := by
  unfold System.CarefulCore
  split <;> infer_instance

def System.CarefulHandler (s : System) (h : Handler) (ok : Bool) : Prop :=
  if h.phase = .done then s.NoCodecs h.channel
  else s.CarefulHangup h.session h.pvt ok h.phase

instance (s : System) (h : Handler) (ok : Bool) : Decidable (s.CarefulHandler h ok) :=
  inferInstanceAs (Decidable (ite _ _ _))

def Careful (s : System) : Action → Prop
  | .create S ok => s.CarefulCreate S ok
  | .onInit S => (s.session S).hungUp = false
  | .hangup S ok => s.CarefulCore S ok
  | .handle i ok => ∀ h ∈ s.handlers[i]?, s.CarefulHandler h ok
  | _ => True

instance (s : System) : (a : Action) → Decidable (Careful s a)
  | .create S ok => inferInstanceAs (Decidable (s.CarefulCreate S ok))
  | .onInit S => inferInstanceAs (Decidable ((s.session S).hungUp = false))
  | .hangup S ok => inferInstanceAs (Decidable (s.CarefulCore S ok))
  | .handle i ok => inferInstanceAs (Decidable (∀ h ∈ s.handlers[i]?, s.CarefulHandler h ok))
  | .outgoing _ | .newCall _ _ | .find _ _ | .destroy _ | .connect _ | .disconnect _ =>
    .isTrue trivial

/-! ## Sessions -/

/-- `tech_init` is still to come. -/
def Creator.Starting : Creator → Prop
  | .finding | .found _ | .techInit _ => True
  | _ => False

/-- No channel has got the session yet. -/
def Creator.Unfound : Creator → Prop
  | .finding | .found _ => True
  | _ => False

/-- The channel of a session that has passed the beginning of `tech_init`. -/
def Creator.place : Creator → Option Chan
  | .initRead x | .initWrite x | .makeCall x | .threadLaunch x | .setSession x => some x
  | _ => none

/-- The core has the session, or is going to. -/
def Creator.Given : Creator → Prop
  | .returned | .setSession _ => True
  | _ => False

/-- The core has made the channel of the session available again. -/
def Core.Released : Core → Prop
  | .hangup _ .command | .hangup _ .count | .hangup _ .done => True
  | _ => False

structure Session.Valid (t : Session) : Prop where
  starting : t.creator.Starting → t.tech = none ∧ t.destroyed = false
  place : ∀ x ∈ t.creator.place, t.tech = some x
  given : t.core ≠ .idle → t.creator.Given
  alive : t.destroyed = true → t.core = .idle → ∃ left, t.creator = .failed left
  hangup : ∀ x phase, t.core = .hangup x phase → t.tech = some x
  failed : ∀ left, t.outgoing = true → t.creator = .failed left → left = none
  launched : ∀ x, t.creator = .threadLaunch x → t.outgoing = false

variable {s s' : System} {t : Session} {S : ℕ} {x y : Chan} {side : Side} {ok : Bool}
  {phase phase' : Phase} {left : Option ℕ}

lemma Session.Valid.eq_of_attachedTo (h : t.Valid) (hx : t.AttachedTo x) (hy : t.AttachedTo y) :
    x = y := by
  have hcross : ∀ {x y}, t.tech = some x → t.creator ≠ .techInit y := by
    intro x y htech hcreator
    have hnone := (h.starting (by rw [hcreator]; trivial)).1
    rw [htech] at hnone
    exact Option.some_ne_none x hnone
  rcases hx with hx | hx <;> rcases hy with hy | hy
  · exact Option.some.inj (hx.symm.trans hy)
  · exact absurd hy (hcross hx)
  · exact absurd hx (hcross hy)
  · exact Creator.techInit.inj (hx.symm.trans hy)

/-! ## The invariant -/

/-- What a place for a codec holds. -/
def System.held (s : System) (place : Chan × Side) : Option ℕ := (s.slot place).held

structure Inv (s : System) : Prop where
  valid : ∀ S, (s.session S).Valid
  live : ∀ x S, s.pvt x = some S →
    S < s.numSessions ∧ (s.session S).destroyed = false ∧ (s.session S).AttachedTo x
  gone : ∀ S, (s.session S).creator.Unfound ∨ (s.session S).core.Released →
    ∀ x, s.pvt x ≠ some S
  owner : ∀ x side c, s.held (x, side) = some c → s.pvt x = some (s.owner c)
  owned : Owned s.held s.numDestroyed s.numCodecs
  kept : Kept s.held s.numDestroyed s.numCodecs
  handlers : ∀ h ∈ s.handlers, h.session < s.numSessions
  calls : s.calls = {S ∈ Finset.range s.numSessions | (s.session S).Counted}.card

lemma inv_init : Inv System.init where
  valid S := {
    starting := fun h => h.elim
    place := fun x hx => absurd hx (by simp [System.init, Creator.place])
    given := fun _ => trivial
    alive := fun h => absurd h (by simp [System.init])
    hangup := fun x phase h => absurd h (by simp [System.init])
    failed := fun left h => absurd h (by simp [System.init])
    launched := fun x h => absurd h (by simp [System.init]) }
  live x S h := absurd h (by simp [System.init])
  gone S _ x := by simp [System.init]
  owner x side c h := absurd h (by simp [System.init, System.held, Slot.held])
  owned := {
    unique := fun p q r h => absurd h (by simp [System.init, System.held, Slot.held])
    alive := fun p r h => absurd h (by simp [System.init, System.held, Slot.held])
    once := fun r => Nat.zero_le 1
    created := fun r h => absurd rfl h }
  kept r hr := absurd hr (Nat.not_lt_zero r)
  handlers h hh := absurd hh (by simp [System.init])
  calls := rfl

/-- A codec that its session has lost was destroyed, and there is none without its session. -/
theorem Inv.paired (h : Inv s) : Paired s where
  live := h.live
  unique x y S hx hy := (h.valid S).eq_of_attachedTo (h.live x S hx).2.2 (h.live y S hy).2.2
  codecs c hc := by
    refine ⟨h.owned.once c, fun hdestroyed => ?_⟩
    refine h.kept.destroyed_eq_one h.owned hc fun place hplace => ?_
    have hlive := (h.live _ _ (h.owner place.1 place.2 c hplace)).2.1
    rw [hdestroyed] at hlive
    exact Bool.noConfusion hlive
  failed S _ left := (h.valid S).failed left
  calls := h.calls

lemma NoCodecs.held_eq (h : s.NoCodecs x) (side : Side) : s.held (x, side) = none := by
  cases side with
  | read => exact h.1
  | write => exact h.2

/-! ## The session of a channel -/

lemma setSession_eq_some {new : Option ℕ} (h : (s.setSession x new).pvt y = some S) :
    (y = x ∧ new = some S) ∨ (y ≠ x ∧ s.pvt y = some S) := by
  rw [System.setSession] at h
  by_cases hy : y = x
  · subst hy
    simp only [Function.update_self] at h
    exact .inl ⟨rfl, h⟩
  · simp only [Function.update_of_ne hy] at h
    exact .inr ⟨hy, h⟩

/-- The pointer is written where no codec depends on it. -/
lemma Inv.setSession (h : Inv s) (hx : s.NoCodecs x) {new : Option ℕ}
    (hnew : ∀ S ∈ new, S < s.numSessions ∧ (s.session S).destroyed = false ∧
      (s.session S).AttachedTo x ∧ ¬ (s.session S).creator.Unfound ∧
        ¬ (s.session S).core.Released) : Inv (s.setSession x new) where
  valid := h.valid
  live y S hy := by
    rcases setSession_eq_some hy with ⟨rfl, rfl⟩ | ⟨-, hy⟩
    · exact ⟨(hnew S rfl).1, (hnew S rfl).2.1, (hnew S rfl).2.2.1⟩
    · exact h.live y S hy
  gone S hS y hy := by
    rcases setSession_eq_some hy with ⟨rfl, rfl⟩ | ⟨-, hy⟩
    · rcases hS with hS | hS
      · exact (hnew S rfl).2.2.2.1 hS
      · exact (hnew S rfl).2.2.2.2 hS
    · exact h.gone S hS y hy
  owner y side c hc := by
    have hne : y ≠ x := by
      rintro rfl
      exact absurd hc (by simp [show (s.setSession y new).held (y, side) = none from
        NoCodecs.held_eq hx side])
    exact (Function.update_of_ne hne ..).trans (h.owner y side c hc)
  owned := h.owned
  kept := h.kept
  handlers := h.handlers
  calls := h.calls

lemma Inv.clear (h : Inv s) (hx : s.NoCodecs x) : Inv (s.setSession x none) :=
  h.setSession hx fun _ hS => absurd hS (by simp)

/-! ## The record of a session -/

/-- Replacing one of `n` numbered values changes a count by what was and what is there. -/
lemma card_filter_update {β : Type} (P : β → Prop) [DecidablePred P] (f : ℕ → β) {n i : ℕ}
    (hi : i < n) (b : β) :
    {j ∈ Finset.range n | P (Function.update f i b j)}.card + (if P (f i) then 1 else 0) =
      {j ∈ Finset.range n | P (f j)}.card + if P b then 1 else 0 := by
  have hmem : i ∈ Finset.range n := Finset.mem_range.mpr hi
  rw [Finset.card_filter, Finset.card_filter, ← Finset.add_sum_erase _ _ hmem,
    ← Finset.add_sum_erase _ (fun j => if P (f j) then 1 else 0) hmem, Function.update_self]
  have hrest : ∑ j ∈ (Finset.range n).erase i, (if P (Function.update f i b j) then 1 else 0) =
      ∑ j ∈ (Finset.range n).erase i, if P (f j) then 1 else 0 := by
    refine Finset.sum_congr rfl fun j hj => ?_
    rw [Function.update_of_ne (Finset.ne_of_mem_erase hj)]
  rw [hrest]
  omega

/-- One session goes on, and the counter with it. -/
lemma Inv.set (h : Inv s) (hS : S < s.numSessions) (ht : t.Valid)
    (hlive : ∀ x, s.pvt x = some S → t.destroyed = false ∧ t.AttachedTo x)
    (hgone : t.creator.Unfound ∨ t.core.Released → ∀ x, s.pvt x ≠ some S) {calls : ℤ}
    (hcalls : calls + (if (s.session S).Counted then 1 else 0) =
      s.calls + if t.Counted then 1 else 0) : Inv { s.set S t with calls := calls } where
  valid R := by
    show (Function.update s.session S t R).Valid
    by_cases hR : R = S
    · rw [hR, Function.update_self]
      exact ht
    · rw [Function.update_of_ne hR]
      exact h.valid R
  live x R hR := by
    show R < _ ∧ (Function.update s.session S t R).destroyed = false ∧
      (Function.update s.session S t R).AttachedTo x
    by_cases hRS : R = S
    · subst hRS
      rw [Function.update_self]
      exact ⟨hS, hlive x hR⟩
    · rw [Function.update_of_ne hRS]
      exact h.live x R hR
  gone R hR := by
    have hR : (Function.update s.session S t R).creator.Unfound ∨
      (Function.update s.session S t R).core.Released := hR
    by_cases hRS : R = S
    · rw [hRS, Function.update_self] at hR
      rw [hRS]
      exact hgone hR
    · rw [Function.update_of_ne hRS] at hR
      exact h.gone R hR
  owner := h.owner
  owned := h.owned
  kept := h.kept
  handlers := h.handlers
  calls := by
    have hcard := card_filter_update Session.Counted s.session hS t
    have hold := h.calls
    show calls = ({R ∈ Finset.range s.numSessions |
      (Function.update s.session S t R).Counted}.card : ℤ)
    by_cases hbefore : (s.session S).Counted <;> by_cases hafter : t.Counted <;>
      simp only [hbefore, hafter, if_true, if_false] at hcard hcalls <;> omega

/-- A session goes on that is counted as before. -/
lemma Inv.set_of_counted (h : Inv s) (hS : S < s.numSessions) (ht : t.Valid)
    (hlive : ∀ x, s.pvt x = some S → t.destroyed = false ∧ t.AttachedTo x)
    (hgone : t.creator.Unfound ∨ t.core.Released → ∀ x, s.pvt x ≠ some S)
    (hinited : t.inited = (s.session S).inited) (hhungUp : t.hungUp = (s.session S).hungUp) :
    Inv (s.set S t) := by
  have hcounted : t.Counted ↔ (s.session S).Counted := by
    rw [Session.Counted, Session.Counted, hinited, hhungUp]
  exact h.set hS ht hlive hgone (by simp only [hcounted])

/-- A new session, of which no channel knows. -/
lemma Inv.request (h : Inv s) (ht : t.Valid) (hinited : t.inited = false) :
    Inv (s.request t) := by
  have hold : ∀ R, R ≠ s.numSessions → (s.request t).session R = s.session R :=
    fun R hR => Function.update_of_ne hR ..
  have hnew : (s.request t).session s.numSessions = t := Function.update_self ..
  refine ⟨fun R => ?_, fun x R hR => ?_, fun R hR => ?_, h.owner, h.owned, h.kept,
    fun handler hh => Nat.lt_succ_of_lt (h.handlers handler hh), ?_⟩
  · by_cases hRS : R = s.numSessions
    · rw [hRS, hnew]
      exact ht
    · rw [hold R hRS]
      exact h.valid R
  · have hlive := h.live x R hR
    rw [hold R (Nat.ne_of_lt hlive.1)]
    exact ⟨Nat.lt_succ_of_lt hlive.1, hlive.2⟩
  · by_cases hRS : R = s.numSessions
    · intro x hx
      have hlt : R < s.numSessions := (h.live x R hx).1
      omega
    · rw [hold R hRS] at hR
      exact h.gone R hR
  · have hcount : {R ∈ Finset.range (s.numSessions + 1) | ((s.request t).session R).Counted} =
        {R ∈ Finset.range s.numSessions | (s.session R).Counted} := by
      ext R
      simp only [Finset.mem_filter, Finset.mem_range]
      by_cases hRS : R = s.numSessions
      · subst hRS
        simp [hnew, Session.Counted, hinited]
      · rw [hold R hRS]
        have hlt : R < s.numSessions + 1 ↔ R < s.numSessions := by omega
        rw [hlt]
    show s.calls = ({R ∈ Finset.range (s.numSessions + 1) |
      ((s.request t).session R).Counted}.card : ℤ)
    rw [hcount]
    exact h.calls

/-! ## Codecs -/

lemma held_update {place place' : Chan × Side} (slot : Slot) (new : System)
    (hslot : new.slot = Function.update s.slot place slot) :
    (place' = place ∧ new.held place' = slot.held) ∨
      (place' ≠ place ∧ new.held place' = s.held place') := by
  rw [System.held, System.held, hslot]
  by_cases hplace : place' = place
  · rw [hplace, Function.update_self]
    exact .inl ⟨rfl, rfl⟩
  · rw [Function.update_of_ne hplace]
    exact .inr ⟨hplace, rfl⟩

/-- Setting up a codec where there was none. -/
lemma Inv.initCodec (h : Inv s) (hheld : s.held (x, side) = none)
    (hpvt : ok = true → s.pvt x = some S) : Inv (s.initCodec S (x, side) ok) := by
  cases ok with
  | false =>
    have hsame : (s.initCodec S (x, side) false).held = s.held := by
      funext place
      rcases held_update .zeroed (s.initCodec S (x, side) false) rfl with ⟨hplace, heq⟩ | ⟨-, heq⟩
      · rw [heq, hplace, hheld]
        rfl
      · exact heq
    exact ⟨h.valid, h.live, h.gone, by rw [hsame]; exact h.owner, by rw [hsame]; exact h.owned,
      by rw [hsame]; exact h.kept, h.handlers, h.calls⟩
  | true =>
    have hcases : ∀ place, (place = (x, side) ∧
        (s.initCodec S (x, side) true).held place = some s.numCodecs) ∨
          (place ≠ (x, side) ∧ (s.initCodec S (x, side) true).held place = s.held place) :=
      fun place => held_update (.codec _) (s.initCodec S (x, side) true) rfl
    refine ⟨h.valid, h.live, h.gone, ?_, ?_, ?_, h.handlers, h.calls⟩
    · intro y side' c hc
      show s.pvt y = some (Function.update s.owner s.numCodecs S c)
      rcases hcases (y, side') with ⟨hplace, heq⟩ | ⟨-, heq⟩
      · rw [← Option.some.inj (heq.symm.trans hc), Function.update_self, (Prod.mk.inj hplace).1]
        exact hpvt rfl
      · have hc : s.held (y, side') = some c := heq.symm.trans hc
        rw [Function.update_of_ne (Nat.ne_of_lt (h.owned.alive _ _ hc).2)]
        exact h.owner y side' c hc
    · refine h.owned.create (p := (x, side)) fun place c hc => ?_
      rcases hcases place with ⟨hplace, heq⟩ | ⟨-, heq⟩
      · exact .inl ⟨hplace, (Option.some.inj (heq.symm.trans hc)).symm⟩
      · exact .inr (heq.symm.trans hc)
    · refine h.kept.create (p := (x, side)) ?_ fun place c hc => ?_
      · rcases hcases (x, side) with ⟨-, heq⟩ | ⟨hne, -⟩
        · exact heq
        · exact absurd rfl hne
      · rcases hcases place with ⟨hplace, -⟩ | ⟨-, heq⟩
        · rw [hplace, hheld] at hc
          exact absurd hc (by simp)
        · exact heq.trans hc

/-- What destroying a codec leaves. -/
lemma destroyCodec_eq (h : s.destroyCodec (x, side) = some s') :
    s'.session = s.session ∧ s'.pvt = s.pvt ∧ s'.numSessions = s.numSessions ∧
      s'.calls = s.calls ∧ s'.handlers = s.handlers := by
  rw [System.destroyCodec] at h
  split at h
  · exact absurd h (by simp)
  · rw [← Option.some.inj h]
    exact ⟨rfl, rfl, rfl, rfl, rfl⟩
  · rw [← Option.some.inj h]
    exact ⟨rfl, rfl, rfl, rfl, rfl⟩

lemma Inv.destroyCodec (h : Inv s) (hdestroy : s.destroyCodec (x, side) = some s') : Inv s' := by
  rw [System.destroyCodec] at hdestroy
  split at hdestroy
  · exact absurd hdestroy (by simp)
  · exact Option.some.inj hdestroy ▸ h
  · rename_i c hslot
    have hheld : s.held (x, side) = some c := congrArg Slot.held hslot
    have hcases : ∀ place, (place = (x, side) ∧ s'.held place = none) ∨
        (place ≠ (x, side) ∧ s'.held place = s.held place) := by
      rw [← Option.some.inj hdestroy]
      exact fun place => held_update .zeroed _ rfl
    have hold : ∀ place c', s'.held place = some c' → place ≠ (x, side) ∧
        s.held place = some c' := by
      intro place c' hc'
      rcases hcases place with ⟨-, heq⟩ | ⟨hne, heq⟩
      · rw [heq] at hc'
        exact absurd hc' (by simp)
      · exact ⟨hne, heq.symm.trans hc'⟩
    have howner : ∀ y side' c', s'.held (y, side') = some c' → s.pvt y = some (s.owner c') :=
      fun y side' c' hc' => h.owner y side' c' (hold _ _ hc').2
    have howned := h.owned.destroy hheld hold
    have hkept : Kept s'.held (Function.update s.numDestroyed c (s.numDestroyed c + 1))
        s.numCodecs := by
      refine h.kept.destroy fun place c' hne hc' => ?_
      rcases hcases place with ⟨hplace, -⟩ | ⟨-, heq⟩
      · rw [hplace, hheld] at hc'
        exact absurd (Option.some.inj hc').symm hne
      · exact heq.trans hc'
    rw [← Option.some.inj hdestroy] at howner howned hkept ⊢
    exact ⟨h.valid, h.live, h.gone, howner, howned, hkept, h.handlers, h.calls⟩

/-! ## Hanging up -/

/-- The session passes the end of `channel_on_hangup`. -/
lemma Inv.passHangup (h : Inv s) (hS : S < s.numSessions) {calls : ℤ}
    (hcalls : calls + (if (s.session S).Counted then 1 else 0) = s.calls) :
    Inv { s.passHangup S with calls := calls } := by
  have hvalid := h.valid S
  have ht : ({ s.session S with hungUp := true } : Session).Valid := ⟨hvalid.starting,
    hvalid.place, hvalid.given, hvalid.alive, hvalid.hangup, hvalid.failed, hvalid.launched⟩
  refine h.set hS ht (fun x hx => (h.live x S hx).2) (h.gone S) ?_
  rw [hcalls, if_neg (by simp [Session.Counted]), add_zero]

/-- What a step of `channel_on_hangup` does to the session of its own. -/
structure HangupStep (s s' : System) (S : ℕ) (x : Chan) (phase phase' : Phase) : Prop where
  numSessions : s'.numSessions = s.numSessions
  handlers : s'.handlers = s.handlers
  record : ∃ hungUp, s'.session S = { s.session S with hungUp := hungUp }
  pvt : ∀ y R, s'.pvt y = some R → s.pvt y = some R
  released : phase' = .command → s'.pvt x = none
  later : phase' = .count ∨ phase' = .done → phase = .command ∨ phase = .count

/-- **The state handler.**  Careful steps of a hang-up keep the invariant. -/
theorem Inv.hangup (h : Inv s) (hS : S < s.numSessions) (hcareful : s.CarefulHangup S x ok phase)
    (hstep : s.hangup S x ok phase = some (s', phase')) :
    Inv s' ∧ HangupStep s s' S x phase phase' := by
  cases phase with
  | read =>
    obtain ⟨s₁, hdestroy, heq⟩ := Option.map_eq_some_iff.mp hstep
    obtain ⟨rfl, rfl⟩ := Prod.mk.inj heq
    obtain ⟨hsession, hpvt, hnum, -, hhandlers⟩ := destroyCodec_eq hdestroy
    exact ⟨h.destroyCodec hdestroy, hnum, hhandlers, ⟨(s.session S).hungUp, by rw [hsession]⟩,
      fun y R hy => hpvt ▸ hy, fun h => Phase.noConfusion h, by simp⟩
  | write =>
    obtain ⟨s₁, hdestroy, heq⟩ := Option.map_eq_some_iff.mp hstep
    obtain ⟨rfl, rfl⟩ := Prod.mk.inj heq
    obtain ⟨hsession, hpvt, hnum, -, hhandlers⟩ := destroyCodec_eq hdestroy
    exact ⟨h.destroyCodec hdestroy, hnum, hhandlers, ⟨(s.session S).hungUp, by rw [hsession]⟩,
      fun y R hy => hpvt ▸ hy, fun h => Phase.noConfusion h, by simp⟩
  | release =>
    obtain ⟨rfl, rfl⟩ := Prod.mk.inj (Option.some.inj hstep)
    refine ⟨h.clear hcareful, rfl, rfl, ⟨(s.session S).hungUp, rfl⟩, fun y R hy => ?_, fun _ => ?_,
      by simp⟩
    · rcases setSession_eq_some hy with ⟨-, hnone⟩ | ⟨-, hy⟩
      · exact absurd hnone (by simp)
      · exact hy
    · exact Function.update_self ..
  | command =>
    rw [System.hangup] at hstep
    split_ifs at hstep with hok
    · obtain ⟨rfl, rfl⟩ := Prod.mk.inj (Option.some.inj hstep)
      exact ⟨h, rfl, rfl, ⟨(s.session S).hungUp, rfl⟩, fun y R hy => hy,
        fun h => Phase.noConfusion h, fun _ => .inl rfl⟩
    · obtain ⟨rfl, rfl⟩ := Prod.mk.inj (Option.some.inj hstep)
      have hcounted : ¬ (s.session S).Counted := hcareful.resolve_left hok
      refine ⟨h.passHangup hS (by rw [if_neg hcounted, add_zero]), rfl, rfl,
        ⟨true, Function.update_self ..⟩, fun y R hy => hy, fun h => Phase.noConfusion h,
        fun _ => .inl rfl⟩
  | count =>
    obtain ⟨rfl, rfl⟩ := Prod.mk.inj (Option.some.inj hstep)
    refine ⟨h.passHangup hS ?_, rfl, rfl, ⟨true, Function.update_self ..⟩, fun y R hy => hy,
      fun h => Phase.noConfusion h, fun _ => .inr rfl⟩
    have hcalls := h.calls
    split_ifs with hcounted
    · -- the session itself is among those that are counted
      have hpos : 0 < {R ∈ Finset.range s.numSessions | (s.session R).Counted}.card :=
        Finset.card_pos.mpr ⟨S, Finset.mem_filter.mpr ⟨Finset.mem_range.mpr hS, hcounted⟩⟩
      omega
    · have hzero : s.calls = 0 := hcareful.resolve_left hcounted
      omega
  | done => exact absurd hstep (by simp [System.hangup])

/-! ## Creating a session -/

lemma Creator.place_of_starting {creator : Creator} (h : creator.Starting) :
    creator.place = none := by
  cases creator <;> first | rfl | exact h.elim

lemma Creator.place_of_unfound {creator : Creator} (h : creator.Unfound) :
    creator.place = none := by
  cases creator <;> first | rfl | exact h.elim

lemma Session.Valid.core_idle (h : t.Valid) (hgiven : ¬ t.creator.Given) : t.core = .idle := by
  by_contra hcore
  exact hgiven (h.given hcore)

lemma Session.Valid.not_released (h : t.Valid) (hgiven : ¬ t.creator.Given) :
    ¬ t.core.Released := by
  rw [h.core_idle hgiven]
  exact id

/-- A creator that has a channel goes on with it. -/
lemma Session.Valid.advance (h : t.Valid) (hplace : t.creator.place = some x)
    (hgiven : ¬ t.creator.Given) {creator : Creator} (hnext : creator.place = some x)
    (hlaunch : ∀ x, creator = .threadLaunch x → t.outgoing = false) :
    ({ t with creator := creator } : Session).Valid where
  starting hstarting := absurd (Creator.place_of_starting hstarting) (by simp [hnext])
  place y hy := by
    obtain rfl : x = y := Option.some.inj (hnext.symm.trans hy)
    exact h.place x hplace
  given hcore := absurd (h.given hcore) hgiven
  alive hdestroyed hcore := by
    obtain ⟨left, hleft⟩ := h.alive hdestroyed hcore
    exact absurd hplace (by simp [hleft, Creator.place])
  hangup := h.hangup
  failed left _ hleft := absurd hnext (by simp [show creator = .failed left from hleft,
    Creator.place])
  launched := hlaunch

/-- Whoever has the session has the channel of its creator. -/
lemma Inv.eq_place (h : Inv s) (hplace : (s.session S).creator.place = some x)
    (hy : s.pvt y = some S) : y = x :=
  (h.valid S).eq_of_attachedTo (h.live y S hy).2.2 (.inl ((h.valid S).place x hplace))

lemma Inv.attached_place (h : Inv s) (hplace : (s.session S).creator.place = some x)
    (hy : s.pvt y = some S) : (s.session S).tech = some y := by
  rw [h.eq_place hplace hy]
  exact (h.valid S).place x hplace

lemma Inv.advance (h : Inv s) (hS : S < s.numSessions)
    (hplace : (s.session S).creator.place = some x) (hgiven : ¬ (s.session S).creator.Given)
    {creator : Creator} (hnext : creator.place = some x)
    (hlaunch : ∀ x, creator = .threadLaunch x → (s.session S).outgoing = false) :
    Inv (s.set S { s.session S with creator := creator }) := by
  refine h.set_of_counted hS ((h.valid S).advance hplace hgiven hnext hlaunch) (fun y hy => ?_)
    (fun hgone => ?_) rfl rfl
  · exact ⟨(h.live y S hy).2.1, .inl (h.attached_place hplace hy)⟩
  · rcases hgone with hunfound | hreleased
    · exact absurd (Creator.place_of_unfound hunfound) (by simp [hnext])
    · exact absurd hreleased ((h.valid S).not_released hgiven)

/-- A failure exit is taken for a session that no channel has. -/
lemma Inv.fail (h : Inv s) (hS : S < s.numSessions) (hgiven : ¬ (s.session S).creator.Given)
    (hpvt : ∀ x, s.pvt x ≠ some S) (hleft : (s.session S).outgoing = true → left = none) :
    Inv (s.fail S left) := by
  have hcore := (h.valid S).core_idle hgiven
  refine h.set_of_counted hS ?_ (fun x hx => absurd hx (hpvt x)) (fun _ => hpvt) rfl rfl
  exact {
    starting := fun h => h.elim
    place := fun x hx => absurd hx (by simp [Creator.place])
    given := fun hne => absurd hcore hne
    alive := fun _ _ => ⟨left, rfl⟩
    hangup := fun x phase hhangup => absurd (hcore.symm.trans hhangup) (by simp)
    failed := fun left' houtgoing hfailed =>
      (Creator.failed.inj hfailed).symm.trans (hleft houtgoing)
    launched := fun x hlaunch => Creator.noConfusion hlaunch }

lemma Inv.afterTechInit (h : Inv s) (hS : S < s.numSessions)
    (hplace : (s.session S).creator.place = some x) (hgiven : ¬ (s.session S).creator.Given)
    (hok : ok = false → (s.session S).outgoing = true ∨ s.pvt x ≠ some S) :
    Inv (s.afterTechInit S x ok) := by
  rw [System.afterTechInit]
  split_ifs with houtgoing hok'
  · exact h.advance hS hplace hgiven rfl fun y hlaunch => Creator.noConfusion hlaunch
  · exact h.advance hS hplace hgiven rfl fun _ _ => Bool.eq_false_iff.mpr houtgoing
  · have hne := (hok (Bool.eq_false_iff.mpr hok')).resolve_left houtgoing
    refine h.fail hS hgiven (fun y hy => ?_) (fun h => absurd h houtgoing)
    exact hne (h.eq_place hplace hy ▸ hy)

/-- The core gets the session. -/
lemma Inv.give (h : Inv s) (hS : S < s.numSessions)
    (hplace : (s.session S).creator.place = some x) {creator : Creator}
    (hnext : creator = .returned ∨ creator = .setSession x) :
    Inv (s.set S { s.session S with creator := creator, core := .ready }) := by
  have hgiven : creator.Given := by rcases hnext with rfl | rfl <;> trivial
  refine h.set_of_counted hS ?_ (fun y hy => ?_) (fun hgone => ?_) rfl rfl
  · exact {
      starting := fun hstarting => by rcases hnext with rfl | rfl <;> exact hstarting.elim
      place := fun y hy => by
        rcases hnext with rfl | rfl
        · exact absurd hy (by simp [Creator.place])
        · obtain rfl : x = y := Option.some.inj hy
          exact (h.valid S).place x hplace
      given := fun _ => hgiven
      alive := fun _ hcore => Core.noConfusion hcore
      hangup := fun y phase hhangup => Core.noConfusion hhangup
      failed := fun left _ hleft => by rcases hnext with rfl | rfl <;> exact Creator.noConfusion hleft
      launched := fun y hlaunch => by
        rcases hnext with rfl | rfl <;> exact Creator.noConfusion hlaunch }
  · exact ⟨(h.live y S hy).2.1, .inl (h.attached_place hplace hy)⟩
  · rcases hgone with hunfound | hreleased
    · rcases hnext with rfl | rfl <;> exact hunfound.elim
    · exact hreleased.elim

lemma Inv.find (h : Inv s) (hS : S < s.numSessions) {found : Option Chan}
    (hstep : s.find S found = some s') : Inv s' := by
  cases found with
  | none =>
    rw [System.find] at hstep
    split_ifs at hstep with hcreator
    rw [← Option.some.inj hstep]
    refine h.fail hS (by rw [hcreator]; exact id) (h.gone S (.inl ?_)) fun _ => rfl
    rw [hcreator]
    trivial
  | some x =>
    rw [System.find] at hstep
    split_ifs at hstep with hfound
    rw [← Option.some.inj hstep]
    have hunfound : (s.session S).creator.Unfound := by rw [hfound.1]; trivial
    have hgone := h.gone S (.inl hunfound)
    have hvalid := h.valid S
    have hidle := hvalid.core_idle (by rw [hfound.1]; exact id)
    have hlocked : Inv { s with locked := true } :=
      ⟨h.valid, h.live, h.gone, h.owner, h.owned, h.kept, h.handlers, h.calls⟩
    refine hlocked.set_of_counted hS ?_ (fun y hy => absurd hy (hgone y)) (fun _ => hgone) rfl rfl
    exact {
      starting := fun _ => hvalid.starting (by rw [hfound.1]; trivial)
      place := fun y hy => absurd hy (by simp [Creator.place])
      given := fun hne => absurd hidle hne
      alive := fun hdestroyed _ =>
        absurd (hvalid.starting (by rw [hfound.1]; trivial)).2 (by simp [show
          (s.session S).destroyed = true from hdestroyed])
      hangup := hvalid.hangup
      failed := fun left _ hleft => Creator.noConfusion hleft
      launched := fun y hlaunch => Creator.noConfusion hlaunch }

/-- `find_channel` gives the session to a channel. -/
lemma Inv.create_found (h : Inv s) (hS : S < s.numSessions)
    (hcreator : (s.session S).creator = .found x) (hx : s.NoCodecs x) :
    Inv (({ s with locked := false }.setSession x (some S)).set S
      { s.session S with creator := .techInit x }) := by
  have hvalid := h.valid S
  have hgone := h.gone S (.inl (by rw [hcreator]; trivial))
  have hstarting := hvalid.starting (by rw [hcreator]; trivial)
  have hidle := hvalid.core_idle (by rw [hcreator]; exact id)
  have hunlocked : Inv { s with locked := false } :=
    ⟨h.valid, h.live, h.gone, h.owner, h.owned, h.kept, h.handlers, h.calls⟩
  have hset : Inv ({ s with locked := false }.set S
      { s.session S with creator := .techInit x }) := by
    refine hunlocked.set_of_counted hS ?_ (fun y hy => absurd hy (hgone y)) (fun _ => hgone) rfl rfl
    exact {
      starting := fun _ => hstarting
      place := fun y hy => absurd hy (by simp [Creator.place])
      given := fun hne => absurd hidle hne
      alive := fun hdestroyed _ => absurd hstarting.2 (by simp [show
        (s.session S).destroyed = true from hdestroyed])
      hangup := hvalid.hangup
      failed := fun left _ hleft => Creator.noConfusion hleft
      launched := fun y hlaunch => Creator.noConfusion hlaunch }
  -- the record and the pointer are different parts of the state
  show Inv (System.setSession (System.set { s with locked := false } S
    { s.session S with creator := .techInit x }) x (some S))
  refine hset.setSession hx fun R hR => ?_
  obtain rfl : S = R := Option.some.inj hR
  have hself : (System.set { s with locked := false } S
      { s.session S with creator := .techInit x }).session S =
        { s.session S with creator := .techInit x } := Function.update_self ..
  rw [hself]
  refine ⟨hS, hstarting.2, .inr rfl, id, ?_⟩
  rw [show ({ s.session S with creator := .techInit x } : Session).core = .idle from hidle]
  exact id

/-- `tech_init` attaches the session. -/
lemma Inv.create_techInit (h : Inv s) (hS : S < s.numSessions)
    (hcreator : (s.session S).creator = .techInit x) (hx : s.NoCodecs x) :
    Inv ((s.setSession x (some S)).set S
      { s.session S with tech := some x, creator := .initRead x }) := by
  have hvalid := h.valid S
  have hstarting := hvalid.starting (by rw [hcreator]; trivial)
  have hidle := hvalid.core_idle (by rw [hcreator]; exact id)
  have hreleased := hvalid.not_released (by rw [hcreator]; exact id)
  have hset : Inv (s.setSession x (some S)) := by
    refine h.setSession hx fun R hR => ?_
    obtain rfl : S = R := Option.some.inj hR
    exact ⟨hS, hstarting.2, .inr hcreator, by rw [hcreator]; exact id, hreleased⟩
  refine hset.set_of_counted hS ?_ (fun y hy => ?_) (fun hgone => ?_) rfl rfl
  · exact {
      starting := fun h => h.elim
      place := fun y hy => hy
      given := fun hne => absurd hidle hne
      alive := fun hdestroyed _ => absurd hstarting.2 (by simp [show
        (s.session S).destroyed = true from hdestroyed])
      hangup := fun y phase hhangup => absurd (hidle.symm.trans hhangup) (by simp)
      failed := fun left _ hleft => Creator.noConfusion hleft
      launched := fun y hlaunch => Creator.noConfusion hlaunch }
  · have hyx : y = x := hvalid.eq_of_attachedTo (hset.live y S hy).2.2 (.inr hcreator)
    exact ⟨hstarting.2, .inl (congrArg some hyx.symm)⟩
  · exact hgone.elim (fun hunfound => hunfound.elim) (fun h => absurd h hreleased)

/-- The end of an incoming call's set-up finds the session where it was. -/
lemma Inv.create_setSession (h : Inv s) (hS : S < s.numSessions)
    (hcreator : (s.session S).creator = .setSession x) :
    Inv (s.set S { s.session S with creator := .returned }) := by
  have hvalid := h.valid S
  refine h.set_of_counted hS ?_ (fun y hy => ⟨(h.live y S hy).2.1, ?_⟩) (fun hgone => ?_) rfl rfl
  · exact {
      starting := fun h => h.elim
      place := fun y hy => absurd hy (by simp [Creator.place])
      given := fun _ => trivial
      alive := fun hdestroyed hidle => by
        obtain ⟨left, hleft⟩ := hvalid.alive hdestroyed hidle
        exact absurd (hcreator.symm.trans hleft) (by simp)
      hangup := hvalid.hangup
      failed := fun left _ hleft => Creator.noConfusion hleft
      launched := fun y hlaunch => Creator.noConfusion hlaunch }
  · exact .inl (h.attached_place (by rw [hcreator]; rfl) hy)
  · exact h.gone S (.inr (hgone.resolve_left id))

/-- **A creator's step.**  It keeps the invariant where it is careful. -/
theorem Inv.create (h : Inv s) (hS : S < s.numSessions) (hcareful : s.CarefulCreate S ok)
    (hstep : s.create S ok = some s') : Inv s' := by
  rw [System.create] at hstep
  rw [System.CarefulCreate] at hcareful
  split at hstep
  next x hcreator =>
    rw [hcreator] at hcareful
    exact Option.some.inj hstep ▸ h.create_found hS hcreator hcareful
  next x hcreator =>
    rw [hcreator] at hcareful
    exact Option.some.inj hstep ▸ h.create_techInit hS hcreator hcareful
  next x hcreator =>
    rw [hcreator] at hcareful
    rw [← Option.some.inj hstep]
    have hplace : (s.session S).creator.place = some x := by rw [hcreator]; rfl
    have hgiven : ¬ (s.session S).creator.Given := by rw [hcreator]; exact id
    cases ok with
    | true =>
      have hinit : Inv (s.initCodec S (x, .read) true) :=
        h.initCodec hcareful.1 fun _ => hcareful.2
      exact hinit.advance hS hplace hgiven rfl fun y hlaunch => Creator.noConfusion hlaunch
    | false =>
      have hinit : Inv (s.initCodec S (x, .read) false) :=
        h.initCodec hcareful.1 fun h => Bool.noConfusion h
      exact hinit.afterTechInit hS hplace hgiven fun _ => hcareful.2
  next x hcreator =>
    rw [hcreator] at hcareful
    have hplace : (s.session S).creator.place = some x := by rw [hcreator]; rfl
    have hgiven : ¬ (s.session S).creator.Given := by rw [hcreator]; exact id
    cases ok with
    | true =>
      have hinit : Inv (s.initCodec S (x, .write) true) :=
        h.initCodec hcareful.1 fun _ => hcareful.2
      exact Option.some.inj hstep ▸
        hinit.afterTechInit hS hplace hgiven fun h => Bool.noConfusion h
    | false =>
      have hinit : Inv (s.initCodec S (x, .write) false) :=
        h.initCodec hcareful.1 fun h => Bool.noConfusion h
      obtain ⟨s₁, hdestroy, rfl⟩ := Option.map_eq_some_iff.mp hstep
      obtain ⟨hsession, hpvt, hnum, -, -⟩ := destroyCodec_eq hdestroy
      refine (hinit.destroyCodec hdestroy).afterTechInit (hnum ▸ hS) ?_ ?_ fun _ => ?_
      · rw [hsession]
        exact hplace
      · rw [hsession]
        exact hgiven
      · rw [hsession, hpvt]
        exact hcareful.2
  next x hcreator =>
    rw [hcreator] at hcareful
    rw [← Option.some.inj hstep]
    have hplace : (s.session S).creator.place = some x := by rw [hcreator]; rfl
    split_ifs with hok
    · exact h.give hS hplace (.inl rfl)
    · have hnone : s.pvt x = none := hcareful.resolve_left hok
      refine h.fail hS (by rw [hcreator]; exact id) (fun y hy => ?_) (fun _ => hnone)
      rw [h.eq_place hplace hy, hnone] at hy
      exact absurd hy (by simp)
  next x hcreator =>
    rw [hcreator] at hcareful
    rw [← Option.some.inj hstep]
    have hplace : (s.session S).creator.place = some x := by rw [hcreator]; rfl
    split_ifs with hok
    · exact h.give hS hplace (.inr rfl)
    · have hne : s.pvt x ≠ some S := hcareful.resolve_left hok
      refine h.fail hS (by rw [hcreator]; exact id) (fun y hy => ?_) (fun houtgoing => ?_)
      · exact hne (h.eq_place hplace hy ▸ hy)
      · rw [(h.valid S).launched x hcreator] at houtgoing
        exact Bool.noConfusion houtgoing
  next x hcreator =>
    rw [hcreator] at hcareful
    rw [← Option.some.inj hstep]
    have hsame : s.setSession x (some S) = s := by
      rw [System.setSession, ← show s.pvt x = some S from hcareful, Function.update_eq_self]
    rw [hsame]
    exact h.create_setSession hS hcreator
  all_goals exact absurd hstep (by simp)

/-! ## The core and the board -/

lemma Inv.onInit (h : Inv s) (hS : S < s.numSessions) (hcareful : (s.session S).hungUp = false)
    (hstep : s.onInit S = some s') : Inv s' := by
  rw [System.onInit] at hstep
  split_ifs at hstep with hcore
  rw [← Option.some.inj hstep]
  have hvalid := h.valid S
  have ht : ({ s.session S with inited := true } : Session).Valid := ⟨hvalid.starting,
    hvalid.place, hvalid.given, hvalid.alive, hvalid.hangup, hvalid.failed, hvalid.launched⟩
  refine h.set hS ht (fun x hx => (h.live x S hx).2) (h.gone S) ?_
  rw [if_neg (by simp [Session.Counted, hcore.2]), if_pos ⟨rfl, hcareful⟩, add_zero]

/-- The core goes on with a session that it has. -/
lemma Inv.setCore (h : Inv s) (hS : S < s.numSessions) (hcore : (s.session S).core ≠ .idle)
    (htech : (s.session S).tech = some x)
    (hgone : (Core.hangup x phase).Released → ∀ y, s.pvt y ≠ some S) :
    Inv (s.set S { s.session S with core := .hangup x phase }) := by
  have hvalid := h.valid S
  have hgiven := hvalid.given hcore
  refine h.set_of_counted hS ?_ (fun y hy => (h.live y S hy).2) (fun hor => ?_) rfl rfl
  · exact {
      starting := hvalid.starting
      place := hvalid.place
      given := fun _ => hgiven
      alive := fun _ hidle => Core.noConfusion hidle
      hangup := fun y phase' hhangup => by rw [← (Core.hangup.inj hhangup).1]; exact htech
      failed := hvalid.failed
      launched := hvalid.launched }
  · rcases hor with hunfound | hreleased
    · exact h.gone S (.inl hunfound)
    · exact hgone hreleased

/-- **The core hangs up.** -/
theorem Inv.coreHangup (h : Inv s) (hS : S < s.numSessions) (hcareful : s.CarefulCore S ok)
    (hstep : s.coreHangup S ok = some s') : Inv s' := by
  rw [System.coreHangup] at hstep
  rw [System.CarefulCore] at hcareful
  split at hstep
  next => exact absurd hstep (by simp)
  next hcore =>
    obtain ⟨x, htech, rfl⟩ := Option.map_eq_some_iff.mp hstep
    exact h.setCore hS (by simp [hcore]) htech fun h => h.elim
  next x phase hcore =>
    rw [hcore] at hcareful
    obtain ⟨⟨s₁, phase'⟩, hhangup, rfl⟩ := Option.map_eq_some_iff.mp hstep
    obtain ⟨hinv, hown⟩ := h.hangup hS hcareful hhangup
    obtain ⟨hungUp, hrecord⟩ := hown.record
    have htech := (h.valid S).hangup x phase hcore
    refine hinv.setCore (hown.numSessions ▸ hS) (by rw [hrecord]; simp [hcore])
      (by rw [hrecord]; exact htech) fun hreleased y hy => ?_
    have hold := hown.pvt y S hy
    cases phase' with
    | command =>
      -- it has just been released, and it has had no other channel
      have hyx : y = x := (h.valid S).eq_of_attachedTo (h.live y S hold).2.2 (.inl htech)
      rw [hyx, hown.released rfl] at hy
      exact absurd hy (by simp)
    | count =>
      refine h.gone S (.inr ?_) y hold
      rw [hcore]
      rcases hown.later (.inl rfl) with rfl | rfl <;> trivial
    | done =>
      refine h.gone S (.inr ?_) y hold
      rw [hcore]
      rcases hown.later (.inr rfl) with rfl | rfl <;> trivial
    | read => exact hreleased.elim
    | write => exact hreleased.elim
    | release => exact hreleased.elim

lemma Inv.coreDestroy (h : Inv s) (hS : S < s.numSessions)
    (hstep : s.coreDestroy S = some s') : Inv s' := by
  rw [System.coreDestroy] at hstep
  split at hstep
  next x hcore =>
    rw [← Option.some.inj hstep]
    have hvalid := h.valid S
    have hne : (s.session S).core ≠ .idle := by simp [hcore]
    have hgone := h.gone S (.inr (by rw [hcore]; trivial))
    refine h.set_of_counted hS ?_ (fun y hy => absurd hy (hgone y)) (fun _ => hgone) rfl rfl
    refine ⟨fun hstarting => ?_, hvalid.place, hvalid.given, fun _ hidle => absurd hidle hne,
      hvalid.hangup, hvalid.failed, hvalid.launched⟩
    have hgiven := hvalid.given hne
    have hstarting : (s.session S).creator.Starting := hstarting
    cases hcreator : (s.session S).creator <;> rw [hcreator] at hgiven hstarting <;>
      first | exact hgiven.elim | exact hstarting.elim
  next => exact absurd hstep (by simp)

lemma Inv.evDisconnect (h : Inv s) (hstep : s.evDisconnect x = some s') : Inv s' := by
  rw [System.evDisconnect] at hstep
  split at hstep
  next => exact Option.some.inj hstep ▸ h
  next S hS =>
    split_ifs at hstep
    obtain ⟨pvt, -, rfl⟩ := Option.map_eq_some_iff.mp hstep
    refine ⟨h.valid, h.live, h.gone, h.owner, h.owned, h.kept, fun handler hmem => ?_, h.calls⟩
    rcases List.mem_append.mp hmem with hmem | hmem
    · exact h.handlers handler hmem
    · rw [List.mem_singleton.mp hmem]
      exact (h.live x S hS).1

/-- **The board ends a call.** -/
theorem Inv.handle (h : Inv s) {i : ℕ} (hcareful : ∀ handler ∈ s.handlers[i]?,
    s.CarefulHandler handler ok) (hstep : s.handle i ok = some s') : Inv s' := by
  obtain ⟨handler, hi, hstep⟩ := Option.bind_eq_some_iff.mp hstep
  have hS := h.handlers handler (List.mem_of_getElem? hi)
  have hcareful := hcareful handler hi
  rw [System.CarefulHandler] at hcareful
  split_ifs at hstep hcareful with hdone hdropped
  · rw [← Option.some.inj hstep]
    have hclear := h.clear hcareful
    refine ⟨hclear.valid, hclear.live, hclear.gone, hclear.owner, hclear.owned, hclear.kept,
      fun other hmem => ?_, hclear.calls⟩
    rcases List.mem_or_eq_of_mem_set hmem with hmem | rfl
    · exact h.handlers other hmem
    · exact hS
  · obtain ⟨⟨s₁, phase'⟩, hhangup, rfl⟩ := Option.map_eq_some_iff.mp hstep
    obtain ⟨hinv, hown⟩ := h.hangup hS hcareful hhangup
    refine ⟨hinv.valid, hinv.live, hinv.gone, hinv.owner, hinv.owned, hinv.kept,
      fun other hmem => ?_, hinv.calls⟩
    rcases List.mem_or_eq_of_mem_set hmem with hmem | rfl
    · exact hinv.handlers other hmem
    · exact hown.numSessions ▸ hS

/-! ## Runs -/

/-- **A careful step keeps the invariant.** -/
theorem Inv.next (h : Inv s) {a : Action} (hcareful : Careful s a)
    (hstep : next s a = some s') : Inv s' := by
  have hrequest : ∀ t : Session, t.Valid → t.inited = false → ∀ requested : Bool,
      Inv (if requested then s.request t else s) := by
    intro t ht hinited requested
    split_ifs
    · exact h.request ht hinited
    · exact h
  cases a with
  | outgoing requested =>
    refine Option.some.inj hstep ▸ hrequest _ ?_ rfl requested
    exact ⟨fun _ => ⟨rfl, rfl⟩, fun x hx => absurd hx (by simp [Creator.place]),
      fun h => absurd rfl h, fun h => Bool.noConfusion h, fun x phase h => Core.noConfusion h,
      fun left _ h => Creator.noConfusion h, fun x h => Creator.noConfusion h⟩
  | newCall x requested =>
    refine Option.some.inj hstep ▸ hrequest _ ?_ rfl requested
    exact ⟨fun _ => ⟨rfl, rfl⟩, fun x hx => absurd hx (by simp [Creator.place]),
      fun h => absurd rfl h, fun h => Bool.noConfusion h, fun x phase h => Core.noConfusion h,
      fun left _ h => Creator.noConfusion h, fun x h => Creator.noConfusion h⟩
  | find S found =>
    rw [Channels.next] at hstep
    split_ifs at hstep with hS
    exact h.find hS hstep
  | create S ok =>
    rw [Channels.next] at hstep
    split_ifs at hstep with hS
    exact h.create hS hcareful hstep
  | onInit S =>
    rw [Channels.next] at hstep
    split_ifs at hstep with hS
    exact h.onInit hS hcareful hstep
  | hangup S ok =>
    rw [Channels.next] at hstep
    split_ifs at hstep with hS
    exact h.coreHangup hS hcareful hstep
  | destroy S =>
    rw [Channels.next] at hstep
    split_ifs at hstep with hS
    exact h.coreDestroy hS hstep
  | connect x =>
    obtain ⟨S, -, hstep⟩ := Option.bind_eq_some_iff.mp hstep
    split_ifs at hstep
    exact Option.some.inj hstep ▸ h
  | disconnect x => exact h.evDisconnect hstep
  | handle i ok => exact h.handle hcareful hstep

/-- **Channels and sessions stay paired in every careful run.** -/
theorem run_paired {as : List Action} (hcareful : Always next Careful System.init as)
    (hrun : run next System.init as = some s) : Paired s :=
  (run_invariant_of_always (fun _ _ _ hI hG hstep => Inv.next hI hG hstep) inv_init hcareful
    hrun).paired

section

/-- A call goes out on the first channel and ends; then a call comes in there, and the board ends
it. -/
private def twoCalls : List Action :=
  [.outgoing true, .find 0 (some (0, 0)), .create 0 true, .create 0 true, .create 0 true,
    .create 0 true, .create 0 true, .onInit 0, .connect (0, 0),
    .hangup 0 true, .hangup 0 true, .hangup 0 true, .hangup 0 true, .hangup 0 true, .hangup 0 true,
    .destroy 0,
    .newCall (0, 0) true, .create 1 true, .create 1 true, .create 1 true, .create 1 true,
    .onInit 1, .create 1 true, .disconnect (0, 0),
    .handle 0 true, .handle 0 true, .handle 0 true, .handle 0 true, .handle 0 true, .handle 0 true]

theorem run_paired_twoCalls : ∃ s, run next System.init twoCalls = some s ∧ s.numSessions = 2 ∧
    s.numCodecs = 4 ∧ Paired s := by
  have h : run next System.init twoCalls = some _ := rfl
  exact ⟨_, h, rfl, rfl, run_paired (by decide) h⟩

/-- The board refuses the command `CM_MAKE_CALL`. -/
private def refusedCall : List Action :=
  [.outgoing true, .find 0 (some (0, 0)), .create 0 true, .create 0 true, .create 0 true,
    .create 0 true, .create 0 false]

/-- The channel keeps a session that was destroyed. -/
theorem not_run_paired : ¬ ∀ as s, run next System.init as = some s → Paired s := by
  intro hall
  have h : run next System.init refusedCall = some _ := rfl
  have hlive := ((hall _ _ h).live (0, 0) 0 rfl).2.1
  exact absurd hlive (by decide)

end

end Khomp.Channels

import FreeswitchContrib.Csta.Mapping

/-!
# What the handlers do to the maps

Every handler leaves the maps consistent.  Where it is careful, it leaves nothing over as well: a
handler that is `strict` is one of which that is asked.

* `Sound` — the maps are consistent, and in a strict run nothing is left over.
* `prepareCallData_prepares` — what the handlers of the channels start from.
* **`handle_keeps`** — every handler keeps sound maps sound.
-/

namespace Csta

open Faulting

/-- The maps are consistent; when this is a strict run, every call but these has a device and every
connection is in the map of one. -/
structure Sound (strict : Prop) (but : Set ℕ) (S : Shape) : Prop where
  consistent : S.Consistent
  populated : strict → S.Populated but
  held : strict → S.Held

/-- A state in which a handler may start. -/
def Kept (strict : Prop) (s : FreeSWITCH) : Prop := s.Clean ∧ Sound strict ∅ s.shape

variable {strict : Prop} {but : Set ℕ} {S S' : Shape} {p pCall x : ℕ} {k u : String}

lemma At.kept {s : FreeSWITCH} (h : At S s) (hS : Sound strict ∅ S) : Kept strict s := by
  obtain ⟨rfl, hclean⟩ := h
  exact ⟨hclean, hS⟩

/-! ## Changes of sound maps -/

namespace Sound

lemma grows (h : Sound strict but S) (hS' : Grows S S') : Sound strict but S' := by
  rcases hS' with rfl | ⟨p, k, rfl, hk, hp⟩
  · exact h
  · exact ⟨h.consistent.addLeft hk hp, h.populated, h.held⟩

lemma but_call (h : Sound strict ∅ S) : Sound strict {pCall} S :=
  ⟨h.consistent, fun hs => (h.populated hs).mono (Set.empty_subset _), h.held⟩

/-- Only a strict run asks for more than consistency. -/
lemma settle (h : Sound strict {pCall} S) (hstrict : strict → Sound strict ∅ S) :
    Sound strict ∅ S :=
  ⟨h.consistent, fun hs => (hstrict hs).populated hs, h.held⟩

lemma of_member (h : Sound strict {pCall} S) (hmember : S.member pCall k = some p) :
    Sound strict ∅ S :=
  ⟨h.consistent, fun hs => (h.populated hs).of_member hmember, h.held⟩

lemma of_link (h : Sound strict {pCall} S) (hlink : S.link p pCall = some x) :
    Sound strict ∅ S := by
  obtain ⟨k, hk⟩ := (h.consistent.linked p pCall).1 (Option.isSome_iff_exists.2 ⟨x, hlink⟩)
  exact h.of_member hk

lemma addRight (h : Sound strict ∅ S) (hu : S.rightAt u = none) (hc : S.rightName pCall = none) :
    Sound strict {pCall} (S.addRight pCall u) :=
  ⟨h.consistent.addRight hu hc, fun hs => (h.populated hs).addRight, h.held⟩

/-- A connection that replaces another one leaves it over. -/
lemma connect (h : Sound strict {pCall} S) (hp : S.leftName p = some k)
    (hc : S.rightName pCall = some u) (hx : S.target x = none)
    (hnone : strict → S.link p pCall = none) : Sound strict ∅ (S.connect p k pCall x) :=
  ⟨h.consistent.connect hp (by rw [hc]; rfl) hx, fun hs => (h.populated hs).connect,
    fun hs => (h.held hs).connect (hnone hs)⟩

lemma disconnect (h : Sound strict {pCall} S) (hp : S.leftName p = some k)
    (hlink : S.link p pCall = some x) : Sound strict {pCall} (S.disconnect p k pCall x) :=
  ⟨h.consistent.disconnect hp hlink, fun hs => (h.populated hs).disconnect,
    fun hs => (h.held hs).disconnect hlink⟩

lemma dropRight (h : Sound strict {pCall} S) (hc : S.rightName pCall = some u)
    (hempty : ∀ k, S.member pCall k = none) : Sound strict ∅ (S.dropRight pCall u) :=
  ⟨h.consistent.dropRight hc hempty, fun hs => (h.populated hs).dropRight, h.held⟩

end Sound

namespace Grows

/-- A device keeps its name. -/
lemma leftName_of (h : Grows S S') (hp : S.leftName p = some k) : S'.leftName p = some k := by
  rcases h with rfl | ⟨q, k', rfl, -, hq⟩
  · exact hp
  · have hne : p ≠ q := by
      rintro rfl
      rw [hp] at hq
      cases hq
    exact (if_neg hne).trans hp

lemma rightName (h : Grows S S') : S'.rightName = S.rightName := by
  rcases h with rfl | ⟨q, k, rfl, -, -⟩ <;> rfl

lemma rightAt (h : Grows S S') : S'.rightAt = S.rightAt := by
  rcases h with rfl | ⟨q, k, rfl, -, -⟩ <;> rfl

lemma link (h : Grows S S') : S'.link = S.link := by
  rcases h with rfl | ⟨q, k, rfl, -, -⟩ <;> rfl

end Grows

/-! ## PrepareCallData -/

/-- There is a call with one of the two UUIDs. -/
def Known (S : Shape) (uuid : String) (uuid2 : Option String) : Prop :=
  (∃ c, S.rightAt uuid = some c) ∨ ∃ c, uuid2.bind S.rightAt = some c

/-- The channel is that of a subscriber. -/
def Internal (channel : String) : Prop :=
  startsWith channel.toList "sofia/external" = false ∧ channel2Device channel ≠ ""

/-- A call that has been found or made; it may still be without devices when it was not known. -/
structure Opened (strict known : Prop) (pCall : ℕ) (S : Shape) : Prop where
  sound : Sound strict {pCall} S
  live : ∃ u, S.rightName pCall = some u
  settled : known → Sound strict ∅ S

lemma Opened.grows {known : Prop} (h : Opened strict known pCall S) (hS' : Grows S S') :
    Opened strict known pCall S' :=
  ⟨h.sound.grows hS', by rw [hS'.rightName]; exact h.live, fun hk => (h.settled hk).grows hS'⟩

lemma getCall_quiet (uuid : String) :
    Quiet S (getCall uuid) fun found => found = S.rightAt uuid :=
  sat_bind_of get_quiet fun s ⟨hs, _⟩ => sat_pure fun _ hs' => ⟨hs', by subst hs; rfl⟩

lemma newCall_opens {place : Place} {known : Prop} (hS : Sound strict ∅ S)
    (hu : S.rightAt u = none) (hknown : ¬ known) :
    Safe (At S) (newCall place u) fun c s => ∃ S', Opened strict known c S' ∧ At S' s :=
  (newCall_adds hS.consistent hu).mono (fun _ hs => hs) fun _ _ hs =>
    ⟨_, ⟨hS.addRight hu hs.1, ⟨u, if_pos rfl⟩, fun hk => absurd hk hknown⟩, hs.2⟩

lemma opened_of_rightAt {known : Prop} (hS : Sound strict ∅ S) (hc : S.rightAt u = some pCall) :
    Opened strict known pCall S :=
  ⟨hS.but_call, ⟨u, (hS.consistent.right u pCall).1 hc⟩, fun _ => hS⟩

lemma findOrCreateCall_opens {place : Place} {uuid : String} {uuid2 : Option String}
    {bCreateCall : Bool} (hS : Sound strict ∅ S) :
    Safe (At S) (findOrCreateCall place uuid uuid2 bCreateCall) fun found s =>
      match found with
      | none => At S s
      | some c => (bCreateCall = false → Known S uuid uuid2) ∧
          ∃ S', Opened strict (Known S uuid uuid2) c S' ∧ At S' s := by
  refine sat_bind_of (getCall_quiet uuid) fun found hfound => ?_
  subst hfound
  cases hcall : S.rightAt uuid with
  | some c =>
    exact sat_pure fun _ hs => ⟨fun _ => .inl ⟨c, hcall⟩, S, opened_of_rightAt hS hcall, hs⟩
  | none =>
    refine sat_bind_of get_quiet fun s₀ ⟨hs₀, _⟩ => ?_
    have hfind : uuid2.bind s₀.callMap.find? = uuid2.bind S.rightAt := by
      rw [← hs₀]
      rfl
    rw [hfind]
    cases hcall2 : uuid2.bind S.rightAt with
    | some c =>
      obtain ⟨u, -, hu⟩ := Option.bind_eq_some_iff.1 hcall2
      exact sat_pure fun _ hs => ⟨fun _ => .inr ⟨c, hcall2⟩, S, opened_of_rightAt hS hu, hs⟩
    | none =>
      have hunknown : ¬ Known S uuid uuid2 := by
        rintro (⟨c, hc⟩ | ⟨c, hc⟩)
        · rw [hcall] at hc
          cases hc
        · rw [hcall2] at hc
          cases hc
      cases bCreateCall with
      | false => exact sat_pure fun _ hs => hs
      | true =>
        refine sat_bind (newCall_opens hS hcall hunknown) fun c => sat_pure fun s hs => ?_
        exact ⟨nofun, hs⟩

/-- The subscriber, where the channel has one. -/
lemma findSubscriber_grows {place : Place} {channel : String} (hS : S.Consistent) :
    Safe (At S) (findSubscriber place channel) fun found s =>
      (Internal channel → ∃ p, found = some (some p)) ∧
        ∃ S', Grows S S' ∧ (∀ p, found = some (some p) → ∃ k, S'.leftName p = some k) ∧
          At S' s := by
  unfold findSubscriber
  split_ifs with hexternal hempty
  · refine sat_pure fun s hs => ⟨fun h => ?_, S, .inl rfl, by simp, hs⟩
    rw [h.1] at hexternal
    cases hexternal
  · exact sat_pure fun s hs => ⟨fun h => absurd hempty h.2, S, .inl rfl, by simp, hs⟩
  · refine sat_bind (prepareDevice_grows hS) fun p => sat_pure fun s hs => ?_
    obtain ⟨S', hgrows, hname, hs'⟩ := hs
    refine ⟨fun _ => ⟨p, rfl⟩, S', hgrows, fun q hq => ?_, hs'⟩
    cases hq
    exact ⟨_, hname⟩

/-- What the loop has found is there. -/
structure CallData.Live (S : Shape) (found : CallData) : Prop where
  device : ∀ p ∈ found.device, ∃ k, S.leftName p = some k
  queue : ∀ p ∈ found.queue, ∃ k, S.leftName p = some k
  inboundNID : ∀ p ∈ found.inboundNID, ∃ k, S.leftName p = some k
  outboundNID : ∀ p ∈ found.outboundNID, ∃ k, S.leftName p = some k

namespace CallData.Live

variable {found : CallData}

lemma noteTrunk (h : found.Live S) (hp : ∃ k, S.leftName p = some k) (wanted : Wanted)
    (direction : Direction) : (found.noteTrunk wanted p direction).Live S := by
  have hthis : ∀ q ∈ some p, ∃ k, S.leftName q = some k := fun q hq => Option.some.inj hq ▸ hp
  unfold CallData.noteTrunk
  split_ifs
  · cases direction with
    | incoming => exact ⟨h.device, h.queue, hthis, h.outboundNID⟩
    | outgoing => exact ⟨h.device, h.queue, h.inboundNID, hthis⟩
  · exact h

lemma withDevice (h : found.Live S) (hp : ∃ k, S.leftName p = some k) :
    ({ found with device := some p } : CallData).Live S :=
  ⟨fun _ hq => Option.some.inj hq ▸ hp, h.queue, h.inboundNID, h.outboundNID⟩

lemma noteDevice (h : found.Live S) (hp : ∃ k, S.leftName p = some k) (own : Bool) :
    (found.noteDevice p own).Live S := by
  unfold CallData.noteDevice
  split_ifs
  · exact h.withDevice hp
  · exact h

end CallData.Live

lemma noteTrunk_device (wanted : Wanted) (direction : Direction) (found : CallData) :
    (found.noteTrunk wanted p direction).device = found.device := by
  unfold CallData.noteTrunk
  split_ifs
  · cases direction <;> rfl
  · rfl

lemma noteDevice_device {own : Bool} {found : CallData} (h : found.device.isSome) :
    (found.noteDevice p own).device.isSome := by
  unfold CallData.noteDevice
  split_ifs
  · rfl
  · exact h

/-- What a turn of the loop leads to: what has been found is there, and stays found. -/
abbrev Found (S : Shape) (found found' : CallData) : Prop :=
  found'.Live S ∧ (found.device.isSome → found'.device.isSome)

lemma collectTrunk_quiet {wanted : Wanted} {uuid channel : String} {found : CallData}
    (hp : ∃ k, S.leftName p = some k) (hx : S.target x = some pCall) (hfound : found.Live S) :
    Quiet S (collectTrunk wanted uuid channel p x found) (Found S found) := by
  refine sat_bind_of (connection_quiet hx) fun object hobject => ?_
  have hlive := (hfound.noteTrunk hp wanted object.direction).noteDevice hp
    (object.strChannel == channel)
  dsimp only
  split_ifs
  · refine sat_bind (setConnection_quiet (hobject ▸ hx)) fun _ => sat_pure fun _ hs => ?_
    exact ⟨hs, hlive.withDevice hp, fun _ => rfl⟩
  · refine sat_pure fun _ hs => ⟨hs, hlive, fun h => noteDevice_device ?_⟩
    rw [noteTrunk_device]
    exact h

/-- A turn of the loop: a device that is mapped to the call has a connection to it. -/
lemma collect_quiet {wanted : Wanted} {uuid channel : String} {found : CallData}
    {entry : String × ℕ} (hS : S.Consistent) (hentry : S.member pCall entry.1 = some entry.2)
    (hfound : found.Live S) :
    Quiet S (collect wanted pCall uuid channel found entry) (Found S found) := by
  have hp := hS.member_name _ _ _ hentry
  obtain ⟨x, hlink⟩ := Option.isSome_iff_exists.1 ((hS.link_isSome_iff hp).2 hentry)
  refine sat_bind_of (device_quiet hp) fun object hobject => ?_
  rw [hobject.2, hlink]
  split_ifs
  · refine sat_pure fun _ hs => ⟨hs, ⟨hfound.device, fun q hq => ?_, hfound.inboundNID,
      hfound.outboundNID⟩, id⟩
    exact Option.some.inj hq ▸ ⟨_, hp⟩
  · exact collectTrunk_quiet ⟨_, hp⟩ (hS.link_target _ _ _ hlink) hfound
  · exact sat_pure fun _ hs => ⟨hs, hfound, id⟩

lemma collectAll_quiet {wanted : Wanted} {uuid channel : String} {subscriber : Option ℕ}
    (hS : S.Consistent) (hc : S.rightName pCall = some u)
    (hsubscriber : ∀ p ∈ subscriber, ∃ k, S.leftName p = some k) :
    Quiet S (collectAll wanted pCall uuid channel subscriber)
      (Found S { device := subscriber }) := by
  have hstart : CallData.Live S { device := subscriber } := ⟨hsubscriber, by simp, by simp, by simp⟩
  unfold collectAll
  split_ifs
  · refine sat_bind_of (call_quiet hc) fun object hobject => ?_
    refine (sat_foldlM (fun found s => At S s ∧ Found S { device := subscriber } found)
      (fun found entry hmem => ?_) _).mono (fun _ hs => ⟨hs, hstart, id⟩) fun _ _ hs => hs
    refine sat_of (fun _ hs => hs.2) fun hfound => ?_
    have hentry := (hobject.2 entry.1).symm.trans (OrderedMap.mem_entries.1 hmem)
    exact (collect_quiet hS hentry hfound.1).mono (fun _ hs => hs.1) fun found' s hs =>
      ⟨hs.1, hs.2.1, fun h => hs.2.2 (hfound.2 h)⟩
  · exact sat_pure fun _ hs => ⟨hs, hstart, id⟩

/-- What a handler of a channel starts from. -/
structure Ready (strict : Prop) (bCreateCall : Bool) (S : Shape) (prepared : Prepared) : Prop where
  sound : Sound strict {prepared.pCall} S
  call : ∃ u, S.rightName prepared.pCall = some u
  device : ∃ k, S.leftName prepared.pDevice = some k
  data : prepared.data.Live S
  connection : prepared.pConnection = S.link prepared.pDevice prepared.pCall
  settled : bCreateCall = false → Sound strict ∅ S

lemma callerCalledIf_quiet {wanted : Bool} {uuid : String} {profile : Option CallerProfile} :
    Safe (At S) (callerCalledIf wanted uuid profile) fun _ => At S := by
  unfold callerCalledIf
  split_ifs
  · exact findCallerCalled_quiet uuid profile
  · exact sat_pure fun _ hs => hs

/-- **What is prepared is there.**  A call that is made must not be left behind without a device. -/
theorem prepareCallData_prepares {place : Place} {uuid channel : String} {uuid2 : Option String}
    {bCreateCall : Bool} {wanted : Wanted} {profile : Option CallerProfile}
    (hS : Sound strict ∅ S)
    (htidy : strict → bCreateCall = true → Known S uuid uuid2 ∨ Internal channel) :
    Safe (At S) (prepareCallData place uuid uuid2 channel bCreateCall wanted profile) fun r s =>
      match r with
      | none => Kept strict s
      | some prepared => ∃ S', Ready strict bCreateCall S' prepared ∧ At S' s := by
  refine sat_bind (findOrCreateCall_opens hS) fun found => ?_
  cases found with
  | none => exact sat_pure fun _ hs => hs.kept hS
  | some pCall =>
    rintro s ⟨hcreate, S₁, hopened₁, hs⟩
    have hsettled₁ (h : bCreateCall = false ∨ ¬ Internal channel) : Sound strict ∅ S₁ := by
      refine hopened₁.sound.settle fun hstrict => hopened₁.settled ?_
      cases hb : bCreateCall with
      | false => exact hcreate hb
      | true => exact (htidy hstrict hb).resolve_right (h.resolve_left (by simp [hb]))
    refine (?_ : Safe (At S₁) _ _) s hs
    refine sat_bind (findSubscriber_grows hopened₁.sound.consistent) fun subscriber => ?_
    rintro s ⟨hinternal, S₂, hgrows, hsubscriber, hs⟩
    have hopened₂ := hopened₁.grows hgrows
    cases subscriber with
    | none =>
      have hnot : ¬ Internal channel := fun h => by simpa using hinternal h
      exact (hs.kept ((hsettled₁ (.inr hnot)).grows hgrows) : Kept strict s)
    | some subscriber =>
      obtain ⟨u, hu⟩ := hopened₂.live
      refine (?_ : Safe (At S₂) _ _) s hs
      refine sat_bind_of (collectAll_quiet hopened₂.sound.consistent hu fun p hp =>
        hsubscriber p (congrArg some hp)) fun data hdata => ?_
      cases hdevice : data.device with
      | none =>
        have hnot : ¬ Internal channel := fun h => by
          obtain ⟨p, hp⟩ := hinternal h
          cases hp
          have hkept := hdata.2 rfl
          rw [hdevice] at hkept
          cases hkept
        exact sat_pure fun _ hs => hs.kept ((hsettled₁ (.inr hnot)).grows hgrows)
      | some pDevice =>
        obtain ⟨k, hk⟩ := hdata.1.device pDevice hdevice
        refine sat_bind_of (findConnection_quiet hk) fun pConnection hconnection => ?_
        refine sat_bind callerCalledIf_quiet fun callerCalled => sat_pure fun _ hs => ⟨S₂, ?_, hs⟩
        exact ⟨hopened₂.sound, ⟨u, hu⟩, ⟨k, hk⟩, hdata.1, hconnection,
          fun hb => (hsettled₁ (.inl hb)).grows hgrows⟩

/-! ## Channels -/

/-- A program that leaves the maps does so at any place of a handler. -/
lemma kept_of_quiet {α : Type} {m : Handler α}
    (h : ∀ S, Sound strict ∅ S → Safe (At S) m fun _ => At S) :
    Safe (Kept strict) m fun _ => Kept strict := by
  rintro s ⟨hclean, hS⟩
  exact (h s.shape hS).mono (fun _ hs => hs) (fun _ _ hs => hs.kept hS) s ⟨rfl, hclean⟩

lemma unlock_quiet : Safe (At S) (perform .unlock) fun _ => At S := perform_quiet fun _ _ => by simp

lemma lock_quiet : Safe (At S) (perform .lock) fun _ => At S := perform_quiet fun _ _ => by simp

/-- The last thing that a handler does. -/
lemma unlock_kept (hS : Sound strict ∅ S) : Safe (At S) (perform .unlock) fun _ => Kept strict :=
  unlock_quiet.mono (fun _ hs => hs) fun _ _ hs => hs.kept hS

lemma unlock_of_kept : Safe (Kept strict) (perform .unlock) fun _ => Kept strict :=
  kept_of_quiet fun _ _ => unlock_quiet

/-- A call of which no name is known has no links. -/
lemma link_eq_none (hS : S.Consistent) (hc : S.rightName pCall = none) : S.link p pCall = none := by
  cases hlink : S.link p pCall with
  | none => rfl
  | some x =>
    obtain ⟨u, hu, -⟩ := hS.right_of_link hlink
    rw [hc] at hu
    cases hu

/-- The maps when this connection of the call is in them. -/
structure Joined (strict : Prop) (pCall x : ℕ) (S S' : Shape) : Prop where
  sound : Sound strict ∅ S'
  target : S'.target x = some pCall
  leftName : S'.leftName = S.leftName
  rightName : S'.rightName = S.rightName

lemma addConnection_joins {place : Place} {uuid channel : String} {direction : Direction}
    (hS : Sound strict {pCall} S) (hp : S.leftName p = some k) (hc : S.rightName pCall = some u)
    (hnone : strict → S.link p pCall = none) :
    Safe (At S) (addConnection place p uuid channel pCall direction) fun x s =>
      ∃ S', Joined strict pCall x S S' ∧ At S' s := by
  refine (addConnection_connects hp hc).mono (fun _ hs => hs) fun x s ⟨hx, hs⟩ =>
    ⟨S.connect p k pCall x, ⟨hS.connect hp hc hx hnone, if_pos rfl, rfl, rfl⟩, hs⟩

lemma onChannelCreate_keeps {place : Place} {event : Event} (hS : Sound strict ∅ S) :
    Safe (At S) (onChannelCreate place event) fun _ => Kept strict := by
  unfold onChannelCreate
  cases event.getHeader "Channel-Name" with
  | none => exact sat_pure fun _ hs => hs.kept hS
  | some channel =>
    dsimp only
    split_ifs
    · exact sat_pure fun _ hs => hs.kept hS
    refine sat_bind lock_quiet fun _ => sat_bind (prepareDevice_grows hS.consistent) fun p => ?_
    rintro s ⟨S₁, hgrows, hp, hs⟩
    have hS₁ := hS.grows hgrows
    refine (?_ : Safe (At S₁) _ _) s hs
    refine sat_bind_of (device_quiet hp) fun object _ => ?_
    cases event.getHeader "Call-Direction" with
    | none => exact unlock_kept hS₁
    | some direction =>
      cases event.getHeader "Unique-ID" with
      | none => exact unlock_kept hS₁
      | some uuid =>
        refine sat_ite (fun _ => unlock_kept hS₁) fun _ => ?_
        refine sat_bind_of (getCall_quiet uuid) fun found hfound => ?_
        subst hfound
        cases hcall : S₁.rightAt uuid with
        | some c => exact unlock_kept hS₁
        | none =>
          refine sat_bind (newCall_adds hS₁.consistent hcall) fun c => ?_
          refine sat_of (fun _ hs => hs.1) fun hfree => ?_
          have hnone : S₁.link p c = none := link_eq_none hS₁.consistent hfree
          have hc : (S₁.addRight c uuid).rightName c = some uuid := if_pos rfl
          refine sat_bind ((addConnection_joins (hS₁.addRight hcall hfree) hp hc fun _ =>
            hnone).mono (fun _ hs => hs.2) fun _ _ hs => hs) fun x => ?_
          rintro s ⟨S₂, hjoined, hs⟩
          refine (?_ : Safe (At S₂) _ _) s hs
          obtain ⟨k, hk⟩ : ∃ k, S₂.leftName p = some k := by
            rw [hjoined.leftName]
            exact ⟨_, hp⟩
          exact sat_bind (sendIfMonitored_quiet _ hk) fun _ => unlock_kept hjoined.sound

/-- A connection that has been found shows that the call has a device; a new one gives it one. -/
lemma foundOrAdded_settles {place : Place} {uuid channel : String} {prepared : Prepared}
    {bCreateCall : Bool} (h : Ready strict bCreateCall S prepared) :
    Safe (At S) (foundOrAdded place uuid channel prepared) fun x s =>
      ∃ S', Joined strict prepared.pCall x S S' ∧ At S' s := by
  obtain ⟨u, hu⟩ := h.call
  obtain ⟨k, hk⟩ := h.device
  unfold foundOrAdded
  rw [h.connection]
  cases hlink : S.link prepared.pDevice prepared.pCall with
  | some x =>
    refine sat_pure fun s hs => ⟨S, ⟨h.sound.of_link hlink, ?_, rfl, rfl⟩, hs⟩
    exact h.sound.consistent.link_target _ _ _ hlink
  | none => exact addConnection_joins h.sound hk hu fun _ => hlink

/-- The events of a leg do not leave a call behind that they have made. -/
def Event.Opens (S : Shape) (event : Event) : Prop :=
  ∀ channel uuid uuid2, event.leg = some (channel, uuid, uuid2) →
    Known S uuid uuid2 ∨ Internal channel

lemma onProgress_keeps {place : Place} {event : Event} {profile : Option CallerProfile}
    (hS : Sound strict ∅ S) (htidy : strict → event.Opens S) :
    Safe (At S) (onProgress place event profile) fun _ => Kept strict := by
  unfold onProgress
  cases hleg : event.leg with
  | none => exact sat_pure fun _ hs => hs.kept hS
  | some leg =>
    obtain ⟨channel, uuid, uuid2⟩ := leg
    refine sat_bind lock_quiet fun _ => sat_bind (prepareCallData_prepares hS fun hstrict _ =>
      htidy hstrict _ _ _ hleg) fun found => ?_
    cases found with
    | none => exact unlock_of_kept
    | some prepared =>
      rintro s ⟨S₁, hready, hs⟩
      refine (?_ : Safe (At S₁) _ _) s hs
      refine sat_bind (foundOrAdded_settles hready) fun x => ?_
      rintro s ⟨S₂, ⟨hS₂, hx, hleft, hright⟩, hs⟩
      refine (?_ : Safe (At S₂) _ _) s hs
      obtain ⟨u, hu⟩ := hright ▸ hready.call
      obtain ⟨k, hk⟩ := hleft ▸ hready.device
      refine sat_bind (setState_quiet _ hx) fun _ => ?_
      refine sat_bind (deviceIdOf_quiet (hleft ▸ hready.data.inboundNID)) fun inbound => ?_
      refine sat_bind (deviceIdOf_quiet (hleft ▸ hready.data.outboundNID)) fun outbound => ?_
      refine sat_bind_of (device_quiet hk) fun object _ => ?_
      refine sat_bind_of (call_quiet hu) fun callObject _ => ?_
      exact sat_bind (sat_forM fun event _ => sendEvent_quiet event hk) fun _ => unlock_kept hS₂

lemma onChannelAnswer_keeps {place : Place} {event : Event} {profile : Option CallerProfile}
    (hS : Sound strict ∅ S) (htidy : strict → event.Opens S) :
    Safe (At S) (onChannelAnswer place event profile) fun _ => Kept strict := by
  unfold onChannelAnswer
  cases hleg : event.leg with
  | none => exact sat_pure fun _ hs => hs.kept hS
  | some leg =>
    obtain ⟨channel, uuid, uuid2⟩ := leg
    refine sat_bind lock_quiet fun _ => sat_bind (prepareCallData_prepares hS fun hstrict _ =>
      htidy hstrict _ _ _ hleg) fun found => ?_
    cases found with
    | none => exact unlock_of_kept
    | some prepared =>
      rintro s ⟨S₁, hready, hs⟩
      refine (?_ : Safe (At S₁) _ _) s hs
      refine sat_bind (foundOrAdded_settles hready) fun x => ?_
      rintro s ⟨S₂, ⟨hS₂, hx, hleft, hright⟩, hs⟩
      refine (?_ : Safe (At S₂) _ _) s hs
      obtain ⟨u, hu⟩ := hright ▸ hready.call
      obtain ⟨k, hk⟩ := hleft ▸ hready.device
      have hqueue := hleft ▸ hready.data.queue
      refine sat_bind (setState_quiet _ hx) fun _ => ?_
      refine sat_bind (deviceIdOf_quiet hqueue) fun queue => ?_
      refine sat_bind (deviceIdOf_quiet (hleft ▸ hready.data.inboundNID)) fun inbound => ?_
      refine sat_bind (deviceIdOf_quiet (hleft ▸ hready.data.outboundNID)) fun outbound => ?_
      refine sat_bind_of (call_quiet hu) fun callObject _ => ?_
      refine sat_bind (sendIfMonitored_quiet _ hk) fun _ => ?_
      refine sat_bind (sat_forM fun pQueue hmem => ?_) fun _ => unlock_kept hS₂
      obtain ⟨k', hk'⟩ := hqueue pQueue (Option.mem_toList.1 hmem)
      exact sendIfMonitored_quiet _ hk'

lemma hangupCause_quiet {cause : Option String} :
    Safe (At S) (hangupCause cause) fun _ => At S := by
  cases cause with
  | none => exact sat_throw fun _ _ => by simp
  | some cause =>
    unfold hangupCause
    dsimp only
    split_ifs <;> exact sat_pure fun _ hs => hs

/-- A turn of the loop of a hangup; a queue that it hands on is there. -/
lemma hangUpDevice_quiet {pDevice n : ℕ} {cleared : CSTAEvent} {pQueue : Option ℕ}
    {entry : String × ℕ} (hS : S.Consistent) (hc : S.rightName pCall = some u)
    (hentry : S.member pCall entry.1 = some entry.2)
    (hqueue : ∀ q ∈ pQueue, ∃ k, S.leftName q = some k) :
    Quiet S (hangUpDevice pDevice u n cleared pQueue entry) fun pQueue' =>
      ∀ q ∈ pQueue', ∃ k, S.leftName q = some k := by
  have hp := hS.member_name _ _ _ hentry
  obtain ⟨x, hlink⟩ := Option.isSome_iff_exists.1 ((hS.link_isSome_iff hp).2 hentry)
  have hx := hS.link_target _ _ _ hlink
  refine sat_bind_of (findConnectionByUUID_quiet hS hp hc hlink) fun found hfound => ?_
  subst hfound
  refine sat_bind_of (device_quiet hp) fun object _ => ?_
  refine sat_bind_of (connection_quiet hx) fun connectionObject hconnection => ?_
  refine sat_bind (setConnection_quiet (hconnection ▸ hx)) fun _ => ?_
  refine sat_bind (sendIfMonitored_quiet _ hp) fun _ => sat_pure fun _ hs => ⟨hs, fun q hq => ?_⟩
  split_ifs at hq
  · exact Option.some.inj hq ▸ ⟨_, hp⟩
  · exact hqueue q hq

/-- The maps when connections of this call are being deleted. -/
structure Closing (strict : Prop) (pCall : ℕ) (u : String) (S S' : Shape) : Prop where
  sound : Sound strict {pCall} S'
  call : S'.rightName pCall = some u
  leftName : S'.leftName = S.leftName

lemma deleteConnection_closing {S₀ : Shape} (h : Closing strict pCall u S₀ S)
    (hp : ∃ k, S₀.leftName p = some k) :
    Safe (At S) (deleteConnection p pCall) fun _ s =>
      ∃ S', Closing strict pCall u S₀ S' ∧ At S' s := by
  obtain ⟨k, hk⟩ := hp
  rw [← h.leftName] at hk
  refine (deleteConnection_disconnects h.sound.consistent hk h.call).mono (fun _ hs => hs) ?_
  rintro _ s (⟨-, hs⟩ | ⟨x, hlink, hs⟩)
  · exact ⟨S, h, hs⟩
  · exact ⟨S.disconnect p k pCall x, ⟨h.sound.disconnect hk hlink, h.call, h.leftName⟩, hs⟩

lemma clearQueue_closing {S₀ : Shape} {cause : Option EventCause} {pQueue : Option ℕ}
    (h : Closing strict pCall u S₀ S) (hqueue : ∀ q ∈ pQueue, ∃ k, S₀.leftName q = some k) :
    Safe (At S) (clearQueue pCall u cause pQueue) fun _ s =>
      ∃ S', Closing strict pCall u S₀ S' ∧ At S' s := by
  cases pQueue with
  | none => exact sat_pure fun _ hs => ⟨S, h, hs⟩
  | some q =>
    obtain ⟨k, hk⟩ := h.leftName ▸ hqueue q rfl
    refine sat_bind_of (device_quiet hk) fun object _ => ?_
    exact sat_bind (sendIfMonitored_quiet _ hk) fun _ => deleteConnection_closing h (hqueue q rfl)

lemma deleteIfEmpty_keeps {S₀ : Shape} (h : Closing strict pCall u S₀ S) :
    Safe (At S) (deleteIfEmpty pCall) fun _ => Kept strict := by
  refine (deleteIfEmpty_drops h.sound.consistent h.call).mono (fun _ hs => hs) ?_
  rintro _ s (⟨hempty, hs⟩ | ⟨⟨k, p, hmember⟩, hs⟩)
  · exact hs.kept (h.sound.dropRight h.call hempty)
  · exact hs.kept (h.sound.of_member hmember)

lemma onChannelHangup_keeps {place : Place} {event : Event} (hS : Sound strict ∅ S) :
    Safe (At S) (onChannelHangup place event) fun _ => Kept strict := by
  unfold onChannelHangup
  cases event.leg with
  | none => exact sat_pure fun _ hs => hs.kept hS
  | some leg =>
    obtain ⟨channel, uuid, uuid2⟩ := leg
    refine sat_bind lock_quiet fun _ =>
      sat_bind (prepareCallData_prepares hS fun _ h => by cases h) fun found => ?_
    cases found with
    | none => exact unlock_of_kept
    | some prepared =>
      rintro s ⟨S₁, hready, hs⟩
      refine (?_ : Safe (At S₁) _ _) s hs
      obtain ⟨u, hu⟩ := hready.call
      obtain ⟨k, hk⟩ := hready.device
      have hclosing : Closing strict prepared.pCall u S₁ S₁ := ⟨hready.sound, hu, rfl⟩
      refine sat_bind_of (call_quiet hu) fun object hobject => ?_
      refine sat_bind_of (device_quiet hk) fun deviceObject _ => ?_
      refine sat_bind hangupCause_quiet fun cause => ?_
      rw [hobject.1]
      refine sat_bind_of ((sat_foldlM (fun pQueue s => At S₁ s ∧
        ∀ q ∈ pQueue, ∃ k, S₁.leftName q = some k) (fun pQueue entry hmem => ?_) none).mono
          (fun _ hs => ⟨hs, by simp⟩) fun _ _ hs => hs) fun pQueue hqueue => ?_
      · refine sat_of (fun _ hs => hs.2) fun hpQueue => ?_
        have hentry := (hobject.2 entry.1).symm.trans (OrderedMap.mem_entries.1 hmem)
        exact (hangUpDevice_quiet hready.sound.consistent hu hentry hpQueue).mono
          (fun _ hs => hs.1) fun _ _ hs => hs
      · refine sat_bind (deleteConnection_closing hclosing hready.device) fun _ => ?_
        rintro s ⟨S₂, hclosing₂, hs⟩
        refine (?_ : Safe (At S₂) _ _) s hs
        refine sat_bind (clearQueue_closing hclosing₂ hqueue) fun _ => ?_
        rintro s ⟨S₃, hclosing₃, hs⟩
        refine (?_ : Safe (At S₃) _ _) s hs
        exact sat_bind (deleteIfEmpty_keeps hclosing₃) fun _ => unlock_of_kept

lemma onDtmf_keeps {place : Place} {event : Event} (hS : Sound strict ∅ S) :
    Safe (At S) (onDtmf place event) fun _ => Kept strict := by
  unfold onDtmf
  cases event.leg with
  | none => exact sat_pure fun _ hs => hs.kept hS
  | some leg =>
    obtain ⟨channel, uuid, uuid2⟩ := leg
    refine sat_bind lock_quiet fun _ =>
      sat_bind (prepareCallData_prepares hS fun _ h => by cases h) fun found => ?_
    cases found with
    | none => exact unlock_of_kept
    | some prepared =>
      rintro s ⟨S₁, hready, hs⟩
      have hS₁ := hready.settled rfl
      refine (?_ : Safe (At S₁) _ _) s hs
      obtain ⟨u, hu⟩ := hready.call
      obtain ⟨k, hk⟩ := hready.device
      cases event.getHeader "DTMF-Digit" with
      | none => exact unlock_kept hS₁
      | some digit =>
        refine sat_bind_of (device_quiet hk) fun object _ => ?_
        refine sat_bind_of (call_quiet hu) fun callObject _ => ?_
        refine sat_bind (sendIfMonitored_quiet _ hk) fun _ => ?_
        refine sat_bind (sat_forM fun pQueue hmem => ?_) fun _ => unlock_kept hS₁
        obtain ⟨k', hk'⟩ := hready.data.queue pQueue (Option.mem_toList.1 hmem)
        exact sendIfMonitored_quiet _ hk'

/-- The devices of a call are there. -/
lemma leftName_of_mem {object : FreeSwitchCall} {entry : String × ℕ} (hS : S.Consistent)
    (hobject : ∀ k, object.devices.find? k = S.member pCall k)
    (hmem : entry ∈ object.devices.entries) : S.leftName entry.2 = some entry.1 :=
  hS.member_name _ _ _ ((hobject entry.1).symm.trans (OrderedMap.mem_entries.1 hmem))

lemma onFile_keeps {place : Place} {event : Event} {kind : EventKind} {cause : Option EventCause}
    {file : String → String} (hS : Sound strict ∅ S) :
    Safe (At S) (onFile place event kind cause file) fun _ => Kept strict := by
  unfold onFile
  cases event.leg with
  | none => exact sat_pure fun _ hs => hs.kept hS
  | some leg =>
    obtain ⟨channel, uuid, uuid2⟩ := leg
    refine sat_bind lock_quiet fun _ =>
      sat_bind (prepareCallData_prepares hS fun _ h => by cases h) fun found => ?_
    cases found with
    | none => exact unlock_of_kept
    | some prepared =>
      rintro s ⟨S₁, hready, hs⟩
      have hS₁ := hready.settled rfl
      refine (?_ : Safe (At S₁) _ _) s hs
      obtain ⟨u, hu⟩ := hready.call
      obtain ⟨k, hk⟩ := hready.device
      cases event.getHeader "Application-Data" with
      | none => exact unlock_kept hS₁
      | some data =>
        refine sat_bind_of (call_quiet hu) fun object hobject => ?_
        refine sat_bind_of (device_quiet hk) fun deviceObject _ => ?_
        refine sat_bind (sat_forM fun entry hmem => ?_) fun _ => unlock_kept hS₁
        exact sendIfMonitored_quiet _ (leftName_of_mem hS₁.consistent hobject.2 hmem)

/-! ## Queues and trunks -/

/-- The device is not yet connected to the call. -/
def Unconnected (S : Shape) (strDevice uuid : String) : Prop :=
  ∀ p c, S.leftAt strDevice = some p → S.rightAt uuid = some c → S.link p c = none

lemma givenName_quiet {name : Option String} :
    Quiet S (givenName name) fun given => name = some given := by
  cases name with
  | none => exact sat_throw fun _ _ => by simp
  | some name => exact sat_pure fun _ hs => ⟨hs, rfl⟩

/-- A device that has been made since is not connected either. -/
lemma Unconnected.link_eq_none {strDevice uuid : String} (h : Unconnected S strDevice uuid)
    (hS : S.Consistent) (hgrows : Grows S S') (hp : S'.leftName p = some strDevice)
    (hc : S.rightAt uuid = some pCall) : S.link p pCall = none := by
  cases hlink : S.link p pCall with
  | none => rfl
  | some x =>
    obtain ⟨k, hk⟩ := (hS.linked p pCall).1 (Option.isSome_iff_exists.2 ⟨x, hlink⟩)
    have hname := hS.member_name _ _ _ hk
    have hsame : k = strDevice := Option.some.inj ((hgrows.leftName_of hname).symm.trans hp)
    have hnone := h p pCall (hsame ▸ (hS.left k p).2 hname) hc
    rw [hlink] at hnone
    cases hnone

/-- The call is as it was, or new and without links. -/
lemma getOrCreateCall_opens {place : Place} {uuid : String} (hS : Sound strict ∅ S) :
    Safe (At S) (getOrCreateCall place uuid) fun c s =>
      ∃ S', (Sound strict {c} S' ∧ S'.rightName c = some uuid ∧ S'.leftName = S.leftName ∧
        S'.link = S.link ∧ (S.rightAt uuid = some c ∨ S.rightName c = none)) ∧ At S' s := by
  refine sat_bind_of (getCall_quiet uuid) fun found hfound => ?_
  subst hfound
  cases hcall : S.rightAt uuid with
  | some c =>
    exact sat_pure fun _ hs =>
      ⟨S, ⟨hS.but_call, (hS.consistent.right uuid c).1 hcall, rfl, rfl, .inl rfl⟩, hs⟩
  | none =>
    refine (newCall_adds hS.consistent hcall).mono (fun _ hs => hs) fun c _ hs => ?_
    exact ⟨_, ⟨hS.addRight hcall hs.1, if_pos rfl, rfl, rfl, .inr hs.1⟩, hs.2⟩

lemma enterCall_joins {place : Place} {name : Option String} {type : DeviceType}
    {session : CoreSession} {uuid channel : String} {direction : Direction}
    (hS : Sound strict ∅ S) (htidy : strict → ∀ given, name = some given →
      Unconnected S (type2Prefix type ++ given) session.uuid) :
    Safe (At S) (enterCall place name type session uuid channel direction) fun r s =>
      ∃ S', (Sound strict ∅ S' ∧ (∃ k, S'.leftName r.1 = some k) ∧
        (∃ u, S'.rightName r.2.1 = some u) ∧ S'.target r.2.2 = some r.2.1) ∧ At S' s := by
  refine sat_bind_of givenName_quiet fun given hgiven => ?_
  refine sat_bind (prepareDevice_grows hS.consistent) fun p => ?_
  rintro s ⟨S₁, hgrows, hp, hs⟩
  have hS₁ := hS.grows hgrows
  refine (?_ : Safe (At S₁) _ _) s hs
  refine sat_bind (getOrCreateCall_opens hS₁) fun c => ?_
  rintro s ⟨S₂, ⟨hS₂, hc, hleft, hlink, hcall⟩, hs⟩
  refine (?_ : Safe (At S₂) _ _) s hs
  have hnone (hstrict : strict) : S₂.link p c = none := by
    rw [hlink]
    rcases hcall with hcall | hfree
    · rw [hgrows.rightAt] at hcall
      rw [hgrows.link]
      exact (htidy hstrict given hgiven).link_eq_none hS.consistent hgrows hp hcall
    · exact link_eq_none hS₁.consistent hfree
  refine sat_bind (addConnection_joins hS₂ (hleft ▸ hp) hc hnone) fun x => sat_pure ?_
  rintro s ⟨S₃, hjoined, hs⟩
  refine ⟨S₃, ⟨hjoined.sound, ⟨type2Prefix type ++ given, ?_⟩, ⟨session.uuid, ?_⟩,
    hjoined.target⟩, hs⟩
  · rw [hjoined.leftName, hleft]
    exact hp
  · rw [hjoined.rightName]
    exact hc

lemma firstTrunk_quiet {entries : List (String × ℕ)}
    (h : ∀ entry ∈ entries, S.leftName entry.2 = some entry.1) :
    Safe (At S) (firstTrunk entries) fun _ => At S := by
  induction entries with
  | nil => exact sat_pure fun _ hs => hs
  | cons entry rest ih =>
    refine sat_bind_of (device_quiet (h entry List.mem_cons_self)) fun object _ => ?_
    exact sat_ite (fun _ => sat_pure fun _ hs => hs) fun _ =>
      ih fun entry hmem => h entry (List.mem_cons_of_mem _ hmem)

lemma onCallQueued_keeps {place : Place} {queue : Option String} {session : CoreSession}
    (hS : Sound strict ∅ S) (htidy : strict → ∀ given, queue = some given →
      Unconnected S (type2Prefix .queue ++ given) session.uuid) :
    Safe (At S) (onCallQueued place queue session) fun _ => Kept strict := by
  refine sat_bind lock_quiet fun _ => sat_bind (enterCall_joins hS htidy) fun entered => ?_
  rintro s ⟨S₁, ⟨hS₁, ⟨k, hk⟩, ⟨u, hu⟩, hx⟩, hs⟩
  refine (?_ : Safe (At S₁) _ _) s hs
  refine sat_bind (setState_quiet _ hx) fun _ => ?_
  refine sat_bind_of (device_quiet hk) fun object _ => ?_
  refine sat_bind_of (call_quiet hu) fun callObject hcall => ?_
  have hdevices : ∀ entry ∈ callObject.devices.entries, S₁.leftName entry.2 = some entry.1 :=
    fun entry hmem => leftName_of_mem hS₁.consistent hcall.2 hmem
  refine sat_bind (sat_ite (fun _ => firstTrunk_quiet hdevices) fun _ => sat_pure fun _ hs => hs)
    fun trunk => ?_
  exact sat_bind (sat_forM fun entry hmem => sendIfMonitored_quiet _ (hdevices entry hmem))
    fun _ => unlock_kept hS₁

lemma onCallNetworkIncoming_keeps {place : Place} {trunk : Option String} {session : CoreSession}
    (hS : Sound strict ∅ S) (htidy : strict → ∀ given, trunk = some given →
      Unconnected S (type2Prefix .networkInterface ++ given) session.uuid) :
    Safe (At S) (onCallNetworkIncoming place trunk session) fun _ => Kept strict := by
  refine sat_bind lock_quiet fun _ => sat_bind (enterCall_joins hS htidy) fun entered => ?_
  rintro s ⟨S₁, ⟨hS₁, ⟨k, hk⟩, -, -⟩, hs⟩
  refine (?_ : Safe (At S₁) _ _) s hs
  refine sat_bind_of (device_quiet hk) fun object _ => ?_
  exact sat_bind (sendIfMonitored_quiet _ hk) fun _ => unlock_kept hS₁

lemma onCallNetworkOutgoing_keeps {place : Place} {trunk : Option String} {session : CoreSession}
    (hS : Sound strict ∅ S) (htidy : strict → ∀ given, trunk = some given →
      Unconnected S (type2Prefix .networkInterface ++ given) session.uuid) :
    Safe (At S) (onCallNetworkOutgoing place trunk session) fun _ => Kept strict := by
  refine sat_bind lock_quiet fun _ => sat_bind (enterCall_joins hS htidy) fun entered => ?_
  rintro s ⟨S₁, ⟨hS₁, -⟩, hs⟩
  exact unlock_kept hS₁ s hs

/-! ## Requests -/

lemma respond_quiet {sender : ℕ} {response : Response} :
    Safe (At S) (respond sender response) fun _ => At S := perform_quiet fun _ _ => by simp

lemma refuse_quiet {sender : ℕ} {invokeID : ℤ} {error : ErrorCode} :
    Safe (At S) (refuse sender invokeID error) fun _ => At S :=
  sat_bind unlock_quiet fun _ => respond_quiet

/-- The devices of the module are there. -/
lemma leftName_of_deviceMap {s : FreeSWITCH} {entry : String × ℕ} (hS : S.Consistent)
    (hs : s.shape = S) (hmem : entry ∈ s.deviceMap.entries) :
    S.leftName entry.2 = some entry.1 := by
  subst hs
  exact (hS.left entry.1 entry.2).1 (OrderedMap.mem_entries.1 hmem)

lemma removeMonitor_quiet {session : ℕ} (hp : S.leftName p = some k) :
    Safe (At S) (removeMonitor session p) fun _ => At S :=
  sat_bind_of (device_quiet hp) fun _ hobject => setDevice_quiet hp hobject.1 hobject.2

lemma onSessionFinished_quiet {session : ℕ} (hS : S.Consistent) :
    Safe (At S) (onSessionFinished session) fun _ => At S := by
  refine sat_bind lock_quiet fun _ => sat_bind_of get_quiet fun s hs => ?_
  exact sat_bind (sat_forM fun entry hmem =>
    removeMonitor_quiet (leftName_of_deviceMap hS hs.1 hmem)) fun _ => unlock_quiet

lemma anyMonitoredWithID_quiet {crossRefID : String} {entries : List (String × ℕ)}
    (h : ∀ entry ∈ entries, S.leftName entry.2 = some entry.1) :
    Safe (At S) (anyMonitoredWithID crossRefID entries) fun _ => At S := by
  induction entries with
  | nil => exact sat_pure fun _ hs => hs
  | cons entry rest ih =>
    refine sat_bind_of (device_quiet (h entry List.mem_cons_self)) fun object _ => ?_
    exact sat_ite (fun _ => sat_pure fun _ hs => hs) fun _ =>
      ih fun entry hmem => h entry (List.mem_cons_of_mem _ hmem)

lemma isXRefIDUsed_quiet {crossRefID : String} (hS : S.Consistent) :
    Safe (At S) (isXRefIDUsed crossRefID) fun _ => At S := by
  refine sat_bind lock_quiet fun _ => sat_bind_of get_quiet fun s hs => ?_
  exact sat_bind (anyMonitoredWithID_quiet fun entry hmem => leftName_of_deviceMap hS hs.1 hmem)
    fun _ => sat_bind unlock_quiet fun _ => sat_pure fun _ hs => hs

lemma getNextXRefID_quiet : Safe (At S) getNextXRefID fun _ => At S := by
  refine sat_bind_of get_quiet fun s _ => ?_
  exact sat_bind (sat_modify fun _ hs => ⟨hs.1, hs.2.mapped, hs.2.pending⟩) fun _ =>
    sat_pure fun _ hs => hs

lemma searchXRefID_quiet {n : ℕ} {crossRefID : String} (hS : S.Consistent) :
    Safe (At S) (searchXRefID n crossRefID) fun _ => At S := by
  induction n generalizing crossRefID with
  | zero => exact sat_throw fun _ _ => by simp
  | succ n ih =>
    refine sat_bind (isXRefIDUsed_quiet hS) fun used => ?_
    exact sat_ite (fun _ => sat_bind getNextXRefID_quiet fun _ => ih) fun _ =>
      sat_pure fun _ hs => hs

lemma addMonitor_quiet {session : ℕ} {crossRefID : String} (hp : S.leftName p = some k) :
    Safe (At S) (addMonitor p session crossRefID) fun _ => At S := by
  refine sat_bind_of (device_quiet hp) fun object hobject => ?_
  refine sat_ite (fun _ => sat_pure fun _ hs => hs) fun _ => ?_
  exact sat_bind (setDevice_quiet hp hobject.1 hobject.2) fun _ => sat_pure fun _ hs => hs

lemma monitorStart_keeps {place : Place} {sender : ℕ} {invokeID : ℤ} {monitorObject : DeviceID}
    (hS : Sound strict ∅ S) :
    Safe (At S) (monitorStart place sender invokeID monitorObject) fun _ => Kept strict := by
  unfold monitorStart
  refine sat_ite (fun _ => respond_quiet.mono (fun _ hs => hs) fun _ _ hs => hs.kept hS)
    fun _ => ?_
  refine sat_bind lock_quiet fun _ => sat_bind (prepareDevice_grows hS.consistent) fun p => ?_
  rintro s ⟨S₁, hgrows, hp, hs⟩
  have hS₁ := hS.grows hgrows
  refine (?_ : Safe (At S₁) _ _) s hs
  refine sat_bind_of (device_quiet hp) fun object _ => ?_
  refine sat_bind (searchXRefID_quiet hS₁.consistent) fun crossRefID => ?_
  refine sat_bind (addMonitor_quiet hp) fun added => sat_ite (fun _ => ?_) fun _ => ?_
  · exact sat_bind respond_quiet fun _ => unlock_kept hS₁
  · exact sat_bind respond_quiet fun _ => unlock_kept hS₁

lemma snapshotConnection_quiet {snapshotObject : DeviceID} {entry : ℕ × ℕ} (hS : S.Consistent)
    (hentry : S.link p entry.1 = some entry.2) :
    Safe (At S) (snapshotConnection snapshotObject entry) fun _ => At S := by
  obtain ⟨u, hu, -⟩ := hS.right_of_link hentry
  refine sat_bind_of (connection_quiet (hS.link_target _ _ _ hentry)) fun object hobject => ?_
  rw [hobject]
  exact sat_bind_of (call_quiet hu) fun _ _ => sat_pure fun _ hs => hs

lemma snapshotDevice_keeps {place : Place} {sender : ℕ} {invokeID : ℤ} {snapshotObject : DeviceID}
    (hS : Sound strict ∅ S) :
    Safe (At S) (snapshotDevice place sender invokeID snapshotObject) fun _ => Kept strict := by
  unfold snapshotDevice
  refine sat_ite (fun _ => respond_quiet.mono (fun _ hs => hs) fun _ _ hs => hs.kept hS)
    fun _ => ?_
  refine sat_bind lock_quiet fun _ => sat_bind (prepareDevice_grows hS.consistent) fun p => ?_
  rintro s ⟨S₁, hgrows, hp, hs⟩
  have hS₁ := hS.grows hgrows
  refine (?_ : Safe (At S₁) _ _) s hs
  refine sat_bind_of (device_quiet hp) fun object hobject => ?_
  refine sat_bind (sat_mapM fun entry hmem => snapshotConnection_quiet hS₁.consistent
    ((hobject.2 entry.1).symm.trans (OrderedMap.mem_entries.1 hmem))) fun data => ?_
  exact sat_bind respond_quiet fun _ => unlock_kept hS₁

/-- A device that is mapped to the call has a connection to it. -/
lemma snapshotMember_quiet {entry : String × ℕ} (hS : S.Consistent)
    (hentry : S.member pCall entry.1 = some entry.2) :
    Safe (At S) (snapshotMember pCall u entry) fun _ => At S := by
  have hp := hS.member_name _ _ _ hentry
  obtain ⟨x, hlink⟩ := Option.isSome_iff_exists.1 ((hS.link_isSome_iff hp).2 hentry)
  refine sat_bind_of (device_quiet hp) fun object hobject => ?_
  rw [hobject.2, hlink]
  exact sat_bind_of (connection_quiet (hS.link_target _ _ _ hlink)) fun _ _ =>
    sat_pure fun _ hs => hs

lemma rightName_of_rightAt (hS : S.Consistent) (hc : S.rightAt u = some pCall) :
    S.rightName pCall = some u := (hS.right u pCall).1 hc

lemma snapshotCall_keeps {sender : ℕ} {invokeID : ℤ} {callID : String}
    {profile : Option CallerProfile} (hS : Sound strict ∅ S) :
    Safe (At S) (snapshotCall sender invokeID callID profile) fun _ => Kept strict := by
  refine sat_bind lock_quiet fun _ => sat_bind_of (getCall_quiet callID) fun found hfound => ?_
  subst hfound
  cases hcall : S.rightAt callID with
  | none => exact refuse_quiet.mono (fun _ hs => hs) fun _ _ hs => hs.kept hS
  | some pCall =>
    have hu := rightName_of_rightAt hS.consistent hcall
    refine sat_bind_of (call_quiet hu) fun object hobject => ?_
    refine sat_bind (sat_mapM fun entry hmem => snapshotMember_quiet hS.consistent
      ((hobject.2 entry.1).symm.trans (OrderedMap.mem_entries.1 hmem))) fun data => ?_
    refine sat_bind (findCallerCalled_quiet _ _) fun callerCalled => ?_
    exact sat_bind respond_quiet fun _ => unlock_kept hS

lemma setMakeCallOriginator_quiet {value : Bool} {pDevice : Option ℕ}
    (h : ∀ p ∈ pDevice, ∃ k, S.leftName p = some k) :
    Safe (At S) (setMakeCallOriginator value pDevice) fun _ => At S := by
  cases pDevice with
  | none => exact sat_pure fun _ hs => hs
  | some p =>
    obtain ⟨k, hk⟩ := h p rfl
    exact sat_bind_of (device_quiet hk) fun _ hobject => setDevice_quiet hk hobject.1 hobject.2

lemma callingDevice_grows {place : Place} {device : DeviceID} (hS : S.Consistent) :
    Safe (At S) (callingDevice place device) fun pDevice s =>
      ∃ S', Grows S S' ∧ (∀ p ∈ pDevice, ∃ k, S'.leftName p = some k) ∧ At S' s := by
  refine sat_ite (fun _ => ?_) fun _ => sat_pure fun _ hs => ⟨S, .inl rfl, by simp, hs⟩
  refine sat_bind (prepareDevice_grows hS) fun p => sat_pure fun s hs => ?_
  obtain ⟨S', hgrows, hp, hs'⟩ := hs
  exact ⟨S', hgrows, fun q hq => Option.some.inj hq ▸ ⟨_, hp⟩, hs'⟩

lemma makeCall_keeps {place : Place} {sender : ℕ} {invokeID : ℤ} {device : DeviceID}
    (hS : Sound strict ∅ S) :
    Safe (At S) (makeCall place sender invokeID device) fun _ => Kept strict := by
  refine sat_bind (callingDevice_grows hS.consistent) fun pDevice => ?_
  rintro s ⟨S₁, hgrows, hp, hs⟩
  refine (?_ : Safe (At S₁) _ _) s hs
  refine sat_bind (setMakeCallOriginator_quiet hp) fun _ => sat_modify fun s hs => ?_
  obtain ⟨rfl, hclean⟩ := hs
  refine ⟨⟨hclean.mapped, fun pending hmem => ?_⟩, hS.grows hgrows⟩
  rcases List.mem_append.1 hmem with hmem | hmem
  · exact hclean.pending pending hmem
  · rw [List.mem_singleton.1 hmem]
    exact hp

/-- The device of a pending request is still there. -/
lemma makeCallOriginated_keeps {n : ℕ} {session : Option String} (hS : Sound strict ∅ S) :
    Safe (At S) (makeCallOriginated n session) fun _ => Kept strict := by
  refine sat_bind_of get_quiet fun s hs => ?_
  cases hn : s.pendingMakeCalls[n]? with
  | none => exact sat_pure fun _ hs => hs.kept hS
  | some pending =>
    have hp : ∀ p ∈ pending.pDevice, ∃ k, S.leftName p = some k := by
      rw [← hs.1]
      exact hs.2.pending pending (List.mem_of_getElem? hn)
    refine sat_bind (Q := fun _ => At S) (sat_modify fun _ hs => ⟨hs.1, hs.2.mapped,
      fun pending hmem => hs.2.pending pending (List.mem_of_mem_eraseIdx hmem)⟩) fun _ => ?_
    cases session with
    | none =>
      exact sat_bind respond_quiet fun _ => (setMakeCallOriginator_quiet hp).mono
        (fun _ hs => hs) fun _ _ hs => hs.kept hS
    | some uuid =>
      refine sat_bind respond_quiet fun _ => sat_bind (setMakeCallOriginator_quiet hp) fun _ => ?_
      exact (perform_quiet fun _ _ => by simp).mono (fun _ hs => hs) fun _ _ hs => hs.kept hS

/-! ## Requests about a connection -/

/-- What is done with the connection only has to leave the maps. -/
lemma withConnection_quiet {sender : ℕ} {invokeID : ℤ} {connectionID : ConnectionID}
    {act : ℕ → Handler Unit} (hS : S.Consistent)
    (hact : ∀ x pCall, S.target x = some pCall → Safe (At S) (act x) fun _ => At S) :
    Safe (At S) (withConnection sender invokeID connectionID act) fun _ => At S := by
  refine sat_bind lock_quiet fun _ => sat_bind_of (getCall_quiet _) fun found hfound => ?_
  subst hfound
  cases hcall : S.rightAt connectionID.callID with
  | none => exact refuse_quiet
  | some pCall =>
    refine sat_bind_of (call_quiet (rightName_of_rightAt hS hcall)) fun object hobject => ?_
    rw [hobject.2]
    cases hmember : S.member pCall connectionID.deviceID.callNr with
    | none => exact refuse_quiet
    | some pDevice =>
      refine sat_bind_of (findConnection_quiet (hS.member_name _ _ _ hmember)) fun found hfound =>
        ?_
      subst hfound
      cases hlink : S.link pDevice pCall with
      | none => exact refuse_quiet
      | some x => exact hact x pCall (hS.link_target _ _ _ hlink)

lemma withSession_quiet {sender : ℕ} {invokeID : ℤ} {error : ErrorCode} {located : Bool}
    {act : String → Handler Unit} (hx : S.target x = some pCall)
    (hact : ∀ uuid, Safe (At S) (act uuid) fun _ => At S) :
    Safe (At S) (withSession sender invokeID error located act x) fun _ => At S := by
  refine sat_bind_of (connection_quiet hx) fun object _ => ?_
  refine sat_bind (perform_quiet fun _ _ => by simp) fun _ => ?_
  exact sat_ite (fun _ => hact _) fun _ => refuse_quiet

lemma answerAndRelease_quiet {sender : ℕ} {invokeID : ℤ} {service : Service} {accepted : Bool}
    (uuid : String) :
    Safe (At S) (answerAndRelease sender invokeID service accepted uuid) fun _ => At S :=
  sat_bind respond_quiet fun _ => sat_bind (perform_quiet fun _ _ => by simp) fun _ => unlock_quiet

section

variable {sender : ℕ} {invokeID : ℤ} {connectionID : ConnectionID} {located : Bool}

lemma answerCall_quiet {answered : Bool} (hS : S.Consistent) :
    Safe (At S) (answerCall sender invokeID connectionID located answered) fun _ => At S :=
  withConnection_quiet hS fun _ _ hx => withSession_quiet hx answerAndRelease_quiet

lemma playMessage_quiet {broadcast : Bool} (hS : S.Consistent) :
    Safe (At S) (playMessage sender invokeID connectionID broadcast) fun _ => At S :=
  withConnection_quiet hS fun _ _ hx => sat_bind_of (connection_quiet hx) fun _ _ =>
    sat_bind respond_quiet fun _ => unlock_quiet

lemma recordMessage_quiet {inProgress eventCreated : Bool} (hS : S.Consistent) :
    Safe (At S) (recordMessage sender invokeID connectionID located inProgress eventCreated)
      fun _ => At S :=
  withConnection_quiet hS fun _ _ hx => withSession_quiet hx fun uuid =>
    sat_ite (fun _ => refuse_quiet) fun _ => answerAndRelease_quiet uuid

lemma stopMessage_quiet {inProgress : Bool} (hS : S.Consistent) :
    Safe (At S) (stopMessage sender invokeID connectionID located inProgress) fun _ => At S :=
  withConnection_quiet hS fun _ _ hx => withSession_quiet hx fun uuid =>
    sat_ite (fun _ => answerAndRelease_quiet uuid) fun _ => refuse_quiet

lemma clearConnection_quiet {hungUp : Bool} (hS : S.Consistent) :
    Safe (At S) (clearConnection sender invokeID connectionID located hungUp) fun _ => At S :=
  withConnection_quiet hS fun _ _ hx => withSession_quiet hx answerAndRelease_quiet

end

/-! ## Transfers -/

lemma transferOthers_quiet {sender : ℕ} {invokeID : ℤ} {done : Response} {core : Transfer}
    {pTransferringDevice : ℕ} {entries : List (String × ℕ)} (hS : S.Consistent)
    (h : ∀ entry ∈ entries, S.member pCall entry.1 = some entry.2) :
    Safe (At S) (transferOthers sender invokeID done core pTransferringDevice pCall u entries)
      fun _ => At S := by
  induction entries with
  | nil => exact sat_pure fun _ hs => hs
  | cons entry rest ih =>
    obtain ⟨id, p⟩ := entry
    have hrest := ih fun entry hmem => h entry (List.mem_cons_of_mem _ hmem)
    have hmember : S.member pCall id = some p := h _ List.mem_cons_self
    have hp := hS.member_name _ _ _ hmember
    obtain ⟨x, hlink⟩ := Option.isSome_iff_exists.1 ((hS.link_isSome_iff hp).2 hmember)
    refine sat_ite (fun _ => hrest) fun _ => ?_
    refine sat_bind_of (findConnection_quiet hp) fun found hfound => ?_
    subst hfound
    rw [hlink]
    refine sat_bind_of (connection_quiet (hS.link_target _ _ _ hlink)) fun object _ => ?_
    refine sat_bind (perform_quiet fun _ _ => by simp) fun _ => sat_ite (fun _ => ?_) fun _ => ?_
    · exact sat_bind respond_quiet fun _ => sat_bind (perform_quiet fun _ _ => by simp)
        fun _ => hrest
    · exact sat_bind refuse_quiet fun _ => sat_pure fun _ hs => hs

/-- A device of the call other than the one that hands it over. -/
def HasOther (S : Shape) (activeCall : ConnectionID) : Prop :=
  ∀ pCall p, S.rightAt activeCall.callID = some pCall →
    S.member pCall activeCall.deviceID.callNr = some p →
    ∃ k q, k ≠ activeCall.deviceID.callNr ∧ S.member pCall k = some q

lemma transfer_keeps {sender : ℕ} {invokeID : ℤ} {activeCall : ConnectionID} {core : Transfer}
    {done : String → Response} (hS : Sound strict ∅ S) (htidy : strict → HasOther S activeCall) :
    Safe (At S) (transfer sender invokeID activeCall core done) fun _ => Kept strict := by
  refine sat_bind lock_quiet fun _ => sat_bind_of (getCall_quiet _) fun found hfound => ?_
  subst hfound
  cases hcall : S.rightAt activeCall.callID with
  | none => exact refuse_quiet.mono (fun _ hs => hs) fun _ _ hs => hs.kept hS
  | some pCall =>
    have hu := rightName_of_rightAt hS.consistent hcall
    refine sat_bind_of (call_quiet hu) fun object hobject => ?_
    rw [hobject.2]
    cases hmember : S.member pCall activeCall.deviceID.callNr with
    | none => exact refuse_quiet.mono (fun _ hs => hs) fun _ _ hs => hs.kept hS
    | some p =>
      have hp := hS.consistent.member_name _ _ _ hmember
      refine sat_bind (transferOthers_quiet hS.consistent fun entry hmem =>
        (hobject.2 entry.1).symm.trans (OrderedMap.mem_entries.1 hmem)) fun finished => ?_
      refine sat_ite (fun _ => ?_) fun _ => sat_pure fun _ hs => hs.kept hS
      refine sat_bind (Q := fun _ => Kept strict) ?_ fun _ => unlock_of_kept
      refine (deleteConnection_disconnects hS.consistent hp hu).mono (fun _ hs => hs) ?_
      rintro _ s (⟨-, hs⟩ | ⟨x, hlink, hs⟩)
      · exact hs.kept hS
      · refine hs.kept ((hS.but_call.disconnect hp hlink).settle fun hstrict => ?_)
        obtain ⟨k, q, hne, hother⟩ := htidy hstrict pCall p hcall hmember
        refine (hS.but_call.disconnect hp hlink).of_member (k := k) (p := q) ?_
        exact (if_neg fun h => hne h.2).trans hother

lemma singleStepTransferCall_keeps {sender : ℕ} {invokeID : ℤ} {activeCall : ConnectionID}
    {transferredTo : DeviceID} {core : Transfer} (hS : Sound strict ∅ S)
    (htidy : strict → HasOther S activeCall) :
    Safe (At S) (singleStepTransferCall sender invokeID activeCall transferredTo core)
      fun _ => Kept strict := transfer_keeps hS htidy

lemma deflectCall_keeps {sender : ℕ} {invokeID : ℤ} {callToBeDiverted : ConnectionID}
    {core : Transfer} (hS : Sound strict ∅ S) (htidy : strict → HasOther S callToBeDiverted) :
    Safe (At S) (deflectCall sender invokeID callToBeDiverted core) fun _ => Kept strict :=
  transfer_keeps hS htidy

/-! ## Runs -/

/-- The device of this name and type is not yet connected to the call of the session. -/
def CoreSession.Enters (S : Shape) (session : CoreSession) (type : DeviceType)
    (name : Option String) : Prop :=
  ∀ given, name = some given → Unconnected S (type2Prefix type ++ given) session.uuid

/-- What a handler needs to leave nothing over. -/
def Action.Tidy (S : Shape) : Action → Prop
  | .progress event _ => event.Opens S
  | .channelAnswer event _ => event.Opens S
  | .callQueued queue session => session.Enters S .queue queue
  | .callNetworkIncoming trunk session => session.Enters S .networkInterface trunk
  | .callNetworkOutgoing trunk session => session.Enters S .networkInterface trunk
  | .singleStepTransferCall _ _ activeCall _ _ => HasOther S activeCall
  | .deflectCall _ _ callToBeDiverted _ => HasOther S callToBeDiverted
  | _ => True

/-- **A handler** keeps what is sound. -/
theorem handle_keeps {place : Place} {action : Action} (hS : Sound strict ∅ S)
    (htidy : strict → action.Tidy S) :
    Safe (At S) (handle place action) fun _ => Kept strict := by
  have of_quiet {m : Handler Unit} (h : Safe (At S) m fun _ => At S) :
      Safe (At S) m fun _ => Kept strict :=
    h.mono (fun _ hs => hs) fun _ _ hs => hs.kept hS
  cases action with
  | channelCreate event => exact onChannelCreate_keeps hS
  | progress event profile => exact onProgress_keeps hS htidy
  | channelAnswer event profile => exact onChannelAnswer_keeps hS htidy
  | channelHangup event => exact onChannelHangup_keeps hS
  | dtmf event => exact onDtmf_keeps hS
  | playback event => exact onFile_keeps hS
  | record event => exact onFile_keeps hS
  | callQueued queue session => exact onCallQueued_keeps hS htidy
  | callNetworkIncoming trunk session => exact onCallNetworkIncoming_keeps hS htidy
  | callNetworkOutgoing trunk session => exact onCallNetworkOutgoing_keeps hS htidy
  | sessionFinished session => exact of_quiet (onSessionFinished_quiet hS.consistent)
  | monitorStart sender invokeID monitorObject => exact monitorStart_keeps hS
  | snapshotDevice sender invokeID snapshotObject => exact snapshotDevice_keeps hS
  | snapshotCall sender invokeID callID profile => exact snapshotCall_keeps hS
  | makeCall sender invokeID device => exact makeCall_keeps hS
  | makeCallOriginated n session => exact makeCallOriginated_keeps hS
  | answerCall => exact of_quiet (answerCall_quiet hS.consistent)
  | playMessage => exact of_quiet (playMessage_quiet hS.consistent)
  | recordMessage => exact of_quiet (recordMessage_quiet hS.consistent)
  | stopMessage => exact of_quiet (stopMessage_quiet hS.consistent)
  | clearConnection => exact of_quiet (clearConnection_quiet hS.consistent)
  | singleStepTransferCall sender invokeID activeCall transferredTo core =>
    exact singleStepTransferCall_keeps hS htidy
  | deflectCall sender invokeID callToBeDiverted core => exact deflectCall_keeps hS htidy

end Csta

import FreeswitchContrib.FsClient.Call
import Mathlib.Data.List.Infix
import Mathlib.Data.List.Nodup

/-!
# The flags of the conference members

`Conference.cs` of FSClient keeps the members of the conference as objects with a word of flags.
Events of the switch and commands of the user set some of them; where they are to clear one they
toggle it.

* `told` — what an action says about a flag of a member.
* `stateTest_next` — what it does to the flag.
* **`flags_follow_iff`** — the flags follow what was told last, in all runs in which a flag that is
  to be cleared is set.
-/

namespace FreeswitchContrib.FsClient.Conference

/-! ## Members -/

/-- `USER_STATE`, of which the flags are the members. -/
abbrev UserState := BitVec 32

inductive Flag
  | talk | floor | mute | deaf
  deriving DecidableEq

def Flag.mask : Flag → UserState
  | .talk => 1
  | .floor => 2
  | .mute => 4
  | .deaf => 8

/-- `StateTest` -/
def stateTest (state : UserState) (test : Flag) : Bool := state &&& test.mask != 0

structure ConferenceUser where
  id : Option Text := none
  uuid : Option Text := none
  partyName : Option Text := none
  partyNumber : Option Text := none
  isUs : Bool := false
  state : UserState := 0

/-- The members that are listed, and the objects that the references are to.  There are `made` of
them. -/
structure Room where
  object : Ref → ConferenceUser
  made : ℕ
  users : List Ref

def Room.init : Room := ⟨fun _ => {}, 0, []⟩

def Room.state (s : Room) (user : Ref) : UserState := (s.object user).state

def Room.setState (s : Room) (user : Ref) (state : UserState) : Room :=
  { s with object := Function.update s.object user { s.object user with state } }

/-! ## What is done -/

inductive Kind
  | addMember | delMember | startTalking | stopTalking | floorChange
  deriving DecidableEq

/-- The cases of `NewFSEvent`. -/
def kindOf (action : Text) : Option Kind :=
  if action = "add-member".toList then some .addMember
  else if action = "del-member".toList then some .delMember
  else if action = "start-talking".toList then some .startTalking
  else if action = "stop-talking".toList then some .stopTalking
  else if action = "floor-change".toList then some .floorChange
  else none

/-- What an event of our conference is about. -/
def eventKind (evt : FSEvent) : Option Kind :=
  match evt.eventId with
  | .custom =>
    if evt.subclassName = some "conference::maintenance".toList ∧
        evt.getHeader "Conference-Name".toList = some "fsc_conference".toList then
      (evt.getHeader "Action".toList).bind kindOf
    else none
  | _ => none

/-- `GetUser`, with `FirstOrDefault` -/
def getUser (s : Room) (evt : FSEvent) : Option Ref :=
  s.users.find? fun user => (s.object user).id = evt.getHeader "Member-ID".toList

def newUser (evt : FSEvent) : ConferenceUser :=
  let user : ConferenceUser :=
    { id := evt.getHeader "Member-ID".toList
      uuid := evt.getHeader "Unique-ID".toList
      partyName := evt.getHeader "Caller-Caller-ID-Name".toList
      partyNumber := evt.getHeader "Caller-Caller-ID-Number".toList }
  if evt.getHeader "Caller-Source".toList = some "mod_portaudio".toList ∧
      evt.getHeader "Call-Direction".toList = some "inbound".toList then
    { user with partyName := some "You".toList, partyNumber := some "You".toList, isUs := true }
  else user

def addMember (s : Room) (evt : FSEvent) : Room :=
  { object := Function.update s.object s.made (newUser evt)
    made := s.made + 1
    users := s.users ++ [s.made] }

def setFlag (s : Room) (user : Ref) (flag : Flag) : Room :=
  s.setState user (s.state user ||| flag.mask)

def toggleFlag (s : Room) (user : Ref) (flag : Flag) : Room :=
  s.setState user (s.state user ^^^ flag.mask)

/-- The floor is toggled for all members and given to one of them. -/
def floorChange (s : Room) (user : Ref) : Room :=
  setFlag (s.users.foldl (fun s u => toggleFlag s u .floor) s) user .floor

def newFSEvent (s : Room) (evt : FSEvent) : Room :=
  match eventKind evt, getUser s evt with
  | some .addMember, _ => addMember s evt
  | some .delMember, some user => { s with users := s.users.erase user }
  | some .startTalking, some user => setFlag s user .talk
  | some .stopTalking, some user => toggleFlag s user .talk
  | some .floorChange, some user => floorChange s user
  | _, _ => s

/-- An event, or one of the commands that are methods of a member. -/
inductive Action
  | event (evt : FSEvent)
  | mute (user : Ref) (unmute : Bool)
  | deaf (user : Ref) (undeaf : Bool)

def next (s : Room) : Action → Room
  | .event evt => newFSEvent s evt
  | .mute user unmute => if unmute then toggleFlag s user .mute else setFlag s user .mute
  | .deaf user undeaf => if undeaf then toggleFlag s user .deaf else setFlag s user .deaf

/-- The room after a history, of which the last action is in front. -/
def run : List Action → Room
  | [] => .init
  | a :: history => next (run history) a

/-! ## What the flags are to say -/

/-- The member that an action names as an event of this kind. -/
def named (s : Room) (kind : Kind) : Action → Option Ref
  | .event evt => if eventKind evt = some kind then getUser s evt else none
  | _ => none

/-- An action adds this member. -/
def adds (s : Room) (a : Action) (user : Ref) : Bool :=
  match a with
  | .event evt => eventKind evt = some .addMember ∧ user = s.made
  | _ => false

/-- What an action says about a flag of a member; a new member has none. -/
def told (s : Room) (a : Action) (user : Ref) (flag : Flag) : Option Bool :=
  if adds s a user then some false
  else
    match flag with
    | .talk =>
      if named s .startTalking a = some user then some true
      else if named s .stopTalking a = some user then some false
      else none
    | .floor => (named s .floorChange a).map fun holder => user = holder
    | .mute =>
      match a with
      | .mute other unmute => if user = other then some !unmute else none
      | _ => none
    | .deaf =>
      match a with
      | .deaf other undeaf => if user = other then some !undeaf else none
      | _ => none

/-- What was told last. -/
def toldLast : List Action → Ref → Flag → Bool
  | [], _, _ => false
  | a :: history, user, flag => (told (run history) a user flag).getD (toldLast history user flag)

/-- The flags of the listed members are what was told last. -/
def Follows (history : List Action) : Prop :=
  ∀ user ∈ (run history).users, ∀ flag,
    stateTest ((run history).state user) flag = toldLast history user flag

/-- An action is to clear a flag of a listed member. -/
def Clears (s : Room) (a : Action) (user : Ref) : Flag → Prop
  | .talk => named s .stopTalking a = some user
  | .floor => user ∈ s.users ∧ ∃ holder, named s .floorChange a = some holder ∧ user ≠ holder
  | .mute => user ∈ s.users ∧ a = .mute user true
  | .deaf => user ∈ s.users ∧ a = .deaf user true

/-! ## Words of flags -/

variable {s : Room} {a : Action} {evt : FSEvent} {user other : Ref} {flag flag' : Flag}
  {history : List Action}

/-- The number of a flag's bit. -/
def Flag.bit : Flag → ℕ
  | .talk => 0
  | .floor => 1
  | .mute => 2
  | .deaf => 3

lemma Flag.mask_eq (flag : Flag) : flag.mask = BitVec.twoPow 32 flag.bit := by
  cases flag <;> rfl

lemma stateTest_eq (state : UserState) (flag : Flag) :
    stateTest state flag = state.getLsbD flag.bit := by
  have hne : BitVec.twoPow 32 flag.bit ≠ 0#32 := by cases flag <;> decide
  rw [stateTest, flag.mask_eq, BitVec.and_twoPow]
  cases state.getLsbD flag.bit with
  | true => simpa using hne
  | false => rfl

lemma getLsbD_mask (flag flag' : Flag) : flag'.mask.getLsbD flag.bit = decide (flag = flag') := by
  cases flag <;> cases flag' <;> rfl

lemma stateTest_or (state : UserState) (flag flag' : Flag) :
    stateTest (state ||| flag'.mask) flag = (stateTest state flag || decide (flag = flag')) := by
  rw [stateTest_eq, stateTest_eq, BitVec.getLsbD_or, getLsbD_mask]

lemma stateTest_xor (state : UserState) (flag flag' : Flag) :
    stateTest (state ^^^ flag'.mask) flag = (stateTest state flag ^^ decide (flag = flag')) := by
  rw [stateTest_eq, stateTest_eq, BitVec.getLsbD_xor, getLsbD_mask]

/-! ## Flags of members -/

lemma state_setState (s : Room) (user other : Ref) (state : UserState) :
    (s.setState other state).state user = if user = other then state else s.state user := by
  by_cases huser : user = other
  · subst huser
    simp [Room.state, Room.setState]
  · simp [Room.state, Room.setState, huser]

/-- A flag of a member is set. -/
lemma stateTest_setFlag (s : Room) (user other : Ref) (flag flag' : Flag) :
    stateTest ((setFlag s other flag').state user) flag =
      (stateTest (s.state user) flag || decide (user = other ∧ flag = flag')) := by
  rw [setFlag, state_setState]
  by_cases huser : user = other
  · rw [if_pos huser, stateTest_or, huser]
    simp
  · rw [if_neg huser]
    simp [huser]

/-- A flag of a member is toggled. -/
lemma stateTest_toggleFlag (s : Room) (user other : Ref) (flag flag' : Flag) :
    stateTest ((toggleFlag s other flag').state user) flag =
      (stateTest (s.state user) flag ^^ decide (user = other ∧ flag = flag')) := by
  rw [toggleFlag, state_setState]
  by_cases huser : user = other
  · rw [if_pos huser, stateTest_xor, huser]
    simp
  · rw [if_neg huser]
    simp [huser]

/-- A command sets a flag of a member; to take it back it toggles it. -/
lemma stateTest_command {off : Bool} (h : off = true → ¬ (user = other ∧ flag = flag')) :
    stateTest ((if off then toggleFlag s other flag' else setFlag s other flag').state user) flag =
      if user = other ∧ flag = flag' then !off else stateTest (s.state user) flag := by
  cases off with
  | true => rw [if_pos rfl, stateTest_toggleFlag, if_neg (h rfl), decide_eq_false (h rfl),
      Bool.xor_false]
  | false =>
    rw [if_neg Bool.false_ne_true, stateTest_setFlag]
    by_cases hsets : user = other ∧ flag = flag'
    · rw [if_pos hsets, decide_eq_true hsets, Bool.or_true, Bool.not_false]
    · rw [if_neg hsets, decide_eq_false hsets, Bool.or_false]

/-- A flag of all members is toggled, once each. -/
lemma stateTest_foldl {users : List Ref} (hnodup : users.Nodup) (s : Room) (user : Ref)
    (flag flag' : Flag) :
    stateTest ((users.foldl (fun s u => toggleFlag s u flag') s).state user) flag =
      (stateTest (s.state user) flag ^^ decide (user ∈ users ∧ flag = flag')) := by
  induction users generalizing s with
  | nil => simp
  | cons u users ih =>
    obtain ⟨hu, hnodup⟩ := List.nodup_cons.mp hnodup
    rw [List.foldl_cons, ih hnodup, stateTest_toggleFlag, Bool.xor_assoc]
    congr 1
    by_cases huser : user = u
    · subst huser
      simp [hu]
    · simp [huser]

lemma users_foldl (users : List Ref) (s : Room) (flag : Flag) :
    (users.foldl (fun s u => toggleFlag s u flag) s).users = s.users := by
  induction users generalizing s with
  | nil => rfl
  | cons u users ih => rw [List.foldl_cons, ih]; rfl

/-- The floor is left to one of the members. -/
lemma stateTest_floorChange (hnodup : s.users.Nodup) (user holder : Ref) (flag : Flag) :
    stateTest ((floorChange s holder).state user) flag =
      ((stateTest (s.state user) flag ^^ decide (user ∈ s.users ∧ flag = .floor)) ||
        decide (user = holder ∧ flag = .floor)) := by
  rw [floorChange, stateTest_setFlag, stateTest_foldl hnodup]

/-! ## What is listed -/

/-- No member is listed twice, and none that has not been made. -/
structure Listed (s : Room) : Prop where
  nodup : s.users.Nodup
  made : ∀ user ∈ s.users, user < s.made

lemma getUser_mem (h : getUser s evt = some user) : user ∈ s.users :=
  List.mem_of_find?_eq_some h

lemma Listed.of_users (h : Listed s) {s' : Room} (husers : s'.users = s.users)
    (hmade : s'.made = s.made) : Listed s' :=
  ⟨husers ▸ h.nodup, fun user huser => hmade ▸ h.made user (husers ▸ huser)⟩

lemma made_foldl (users : List Ref) (s : Room) (flag : Flag) :
    (users.foldl (fun s u => toggleFlag s u flag) s).made = s.made := by
  induction users generalizing s with
  | nil => rfl
  | cons u users ih => rw [List.foldl_cons, ih]; rfl

lemma Listed.addMember (h : Listed s) (evt : FSEvent) : Listed (addMember s evt) where
  nodup := by
    refine List.nodup_append.mpr ⟨h.nodup, List.nodup_singleton _, fun user huser other hother => ?_⟩
    obtain rfl := List.mem_singleton.mp hother
    exact Nat.ne_of_lt (h.made user huser)
  made user huser := by
    rcases List.mem_append.mp huser with huser | huser
    · exact Nat.lt_succ_of_lt (h.made user huser)
    · obtain rfl := List.mem_singleton.mp huser
      exact Nat.lt_succ_self s.made

lemma Listed.newFSEvent (h : Listed s) (evt : FSEvent) : Listed (newFSEvent s evt) := by
  unfold Conference.newFSEvent
  split
  · exact h.addMember evt
  · exact ⟨h.nodup.erase _, fun user huser => h.made user (List.mem_of_mem_erase huser)⟩
  · exact h.of_users rfl rfl
  · exact h.of_users rfl rfl
  · exact h.of_users (users_foldl _ s _) (made_foldl _ s _)
  · exact h

lemma Listed.next (h : Listed s) (a : Action) : Listed (next s a) := by
  cases a with
  | event evt => exact h.newFSEvent evt
  | mute user unmute => cases unmute <;> exact h.of_users rfl rfl
  | deaf user undeaf => cases undeaf <;> exact h.of_users rfl rfl

lemma listed_run (history : List Action) : Listed (run history) := by
  induction history with
  | nil => exact ⟨.nil, fun _ huser => absurd huser List.not_mem_nil⟩
  | cons a history ih => exact ih.next a

/-! ## One action -/

lemma named_eq_some_iff {kind : Kind} : named s kind a = some user ↔
    ∃ evt, a = .event evt ∧ eventKind evt = some kind ∧ getUser s evt = some user := by
  cases a with
  | event evt => simp [named]
  | mute | deaf => simp [named]

lemma mem_users_newFSEvent (h : user ∈ (newFSEvent s evt).users) :
    user ∈ s.users ∨ (eventKind evt = some .addMember ∧ user = s.made) := by
  unfold newFSEvent at h
  split at h
  · next _ hkind =>
    exact (List.mem_append.mp h).imp_right fun huser => ⟨hkind, List.mem_singleton.mp huser⟩
  · exact .inl (List.mem_of_mem_erase h)
  · exact .inl h
  · exact .inl h
  · exact .inl (users_foldl s.users s _ ▸ h)
  · exact .inl h

/-- Who is listed behind an action was listed before, or is the one that it adds. -/
lemma mem_users_next (h : user ∈ (next s a).users) : user ∈ s.users ∨ adds s a user = true := by
  cases a with
  | event evt => exact (mem_users_newFSEvent h).imp_right fun hadds => by simp [adds, hadds]
  | mute other unmute => cases unmute <;> exact .inl h
  | deaf other undeaf => cases undeaf <;> exact .inl h

/-- Where a flag is to be cleared the action says so, and the member stays. -/
lemma told_of_clears (h : Clears s a user flag) :
    told s a user flag = some false ∧ user ∈ s.users ∧ user ∈ (next s a).users := by
  cases flag with
  | talk =>
    obtain ⟨evt, rfl, hkind, huser⟩ := named_eq_some_iff.mp h
    have hmem := getUser_mem huser
    refine ⟨by simp [told, adds, named, hkind, huser], hmem, ?_⟩
    simpa [next, newFSEvent, hkind, huser, toggleFlag, Room.setState] using hmem
  | floor =>
    obtain ⟨hmem, holder, hholder, hne⟩ := h
    obtain ⟨evt, rfl, hkind, huser⟩ := named_eq_some_iff.mp hholder
    refine ⟨by simp [told, adds, named, hkind, huser, hne], hmem, ?_⟩
    simpa [next, newFSEvent, hkind, huser, floorChange, setFlag, Room.setState, users_foldl]
      using hmem
  | mute =>
    obtain ⟨hmem, rfl⟩ := h
    exact ⟨by simp [told, adds], hmem, hmem⟩
  | deaf =>
    obtain ⟨hmem, rfl⟩ := h
    exact ⟨by simp [told, adds], hmem, hmem⟩

/-- A flag that is to be cleared is toggled. -/
lemma stateTest_of_clears (hlisted : Listed s) (h : Clears s a user flag) :
    stateTest ((next s a).state user) flag = !stateTest (s.state user) flag := by
  cases flag with
  | talk =>
    obtain ⟨evt, rfl, hkind, huser⟩ := named_eq_some_iff.mp h
    have hnext : next s (.event evt) = toggleFlag s user .talk := by
      simp [next, newFSEvent, hkind, huser]
    rw [hnext, stateTest_toggleFlag]
    simp
  | floor =>
    obtain ⟨hmem, holder, hholder, hne⟩ := h
    obtain ⟨evt, rfl, hkind, huser⟩ := named_eq_some_iff.mp hholder
    have hnext : next s (.event evt) = floorChange s holder := by
      simp [next, newFSEvent, hkind, huser]
    rw [hnext, stateTest_floorChange hlisted.nodup]
    simp [hmem, hne]
  | mute =>
    obtain ⟨-, rfl⟩ := h
    rw [next, if_pos rfl, stateTest_toggleFlag]
    simp
  | deaf =>
    obtain ⟨-, rfl⟩ := h
    rw [next, if_pos rfl, stateTest_toggleFlag]
    simp

lemma stateTest_addMember (s : Room) (evt : FSEvent) (user : Ref) (flag : Flag) :
    stateTest ((addMember s evt).state user) flag =
      if user = s.made then false else stateTest (s.state user) flag := by
  by_cases huser : user = s.made
  · have hstate : (newUser evt).state = 0 := by
      unfold newUser
      split <;> rfl
    subst huser
    rw [if_pos rfl]
    simp only [Room.state, addMember, Function.update_self, hstate]
    cases flag <;> rfl
  · simp [Room.state, addMember, huser]

/-- An event that is to clear no flag of a member does to its flags what it says. -/
lemma stateTest_newFSEvent (hlisted : Listed s) (hmem : user ∈ s.users)
    (h : ¬ Clears s (.event evt) user flag) :
    stateTest ((newFSEvent s evt).state user) flag =
      (told s (.event evt) user flag).getD (stateTest (s.state user) flag) := by
  have hmade : user ≠ s.made := Nat.ne_of_lt (hlisted.made user hmem)
  cases hkind : eventKind evt with
  | none => cases flag <;> simp [newFSEvent, hkind, told, adds, named]
  | some kind =>
    cases hfound : getUser s evt with
    | none =>
      cases kind with
      | addMember =>
        simp only [newFSEvent, hkind, stateTest_addMember, if_neg hmade]
        cases flag <;> simp [told, adds, named, hkind, hmade]
      | delMember | startTalking | stopTalking | floorChange =>
        cases flag <;> simp [newFSEvent, told, adds, named, hkind, hfound]
    | some other =>
      cases kind with
      | addMember =>
        simp only [newFSEvent, hkind, stateTest_addMember, if_neg hmade]
        cases flag <;> simp [told, adds, named, hkind, hmade]
      | delMember =>
        cases flag <;> simp [newFSEvent, told, adds, named, hkind, hfound, Room.state]
      | startTalking =>
        simp only [newFSEvent, hkind, hfound, stateTest_setFlag]
        cases flag with
        | talk =>
          by_cases huser : user = other
          · simp [told, adds, named, hkind, hfound, huser]
          · simp [told, adds, named, hkind, hfound, huser, Ne.symm huser]
        | floor | mute | deaf => simp [told, adds, named, hkind]
      | stopTalking =>
        simp only [newFSEvent, hkind, hfound, stateTest_toggleFlag]
        cases flag with
        | talk =>
          have huser : user ≠ other := by
            rintro rfl
            exact h (named_eq_some_iff.mpr ⟨evt, rfl, hkind, hfound⟩)
          simp [told, adds, named, hkind, hfound, huser, Ne.symm huser]
        | floor | mute | deaf => simp [told, adds, named, hkind]
      | floorChange =>
        simp only [newFSEvent, hkind, hfound, stateTest_floorChange hlisted.nodup]
        cases flag with
        | floor =>
          have huser : user = other := by
            by_contra hne
            exact h ⟨hmem, other, named_eq_some_iff.mpr ⟨evt, rfl, hkind, hfound⟩, hne⟩
          simp [told, adds, named, hkind, hfound, huser]
        | talk | mute | deaf => simp [told, adds, named, hkind]

/-- Any flag that an action is not to clear is what the action says. -/
lemma stateTest_of_not_clears (hlisted : Listed s) (huser : user ∈ (next s a).users)
    (h : ¬ Clears s a user flag) :
    stateTest ((next s a).state user) flag =
      (told s a user flag).getD (stateTest (s.state user) flag) := by
  cases a with
  | event evt =>
    rcases mem_users_newFSEvent huser with hmem | ⟨hkind, rfl⟩
    · exact stateTest_newFSEvent hlisted hmem h
    · simp [next, newFSEvent, hkind, stateTest_addMember, told, adds]
  | mute other unmute =>
    have hmem : user ∈ s.users := (mem_users_next huser).resolve_right (by simp [adds])
    have hkeeps : unmute = true → ¬ (user = other ∧ flag = .mute) := by
      rintro rfl ⟨rfl, rfl⟩
      exact h ⟨hmem, rfl⟩
    rw [next, stateTest_command hkeeps]
    by_cases huser : user = other <;> cases flag <;> simp [told, adds, named, huser]
  | deaf other undeaf =>
    have hmem : user ∈ s.users := (mem_users_next huser).resolve_right (by simp [adds])
    have hkeeps : undeaf = true → ¬ (user = other ∧ flag = .deaf) := by
      rintro rfl ⟨rfl, rfl⟩
      exact h ⟨hmem, rfl⟩
    rw [next, stateTest_command hkeeps]
    by_cases huser : user = other <;> cases flag <;> simp [told, adds, named, huser]

/-! ## Runs -/

/-- Every flag that an action is to clear is set. -/
def Sound (s : Room) (a : Action) : Prop :=
  ∀ user flag, Clears s a user flag → stateTest (s.state user) flag = true

/-- The step: the flags still follow exactly where the action is sound. -/
lemma follows_cons_iff (h : Follows history) :
    Follows (a :: history) ↔ Sound (run history) a := by
  have hlisted := listed_run history
  constructor
  · intro hfollows user flag hclears
    obtain ⟨htold, -, huser⟩ := told_of_clears hclears
    have hflag := hfollows user huser flag
    rw [run, stateTest_of_clears hlisted hclears, toldLast, htold, Option.getD_some] at hflag
    simpa using hflag
  · intro hsound user huser flag
    rw [run] at huser ⊢
    by_cases hclears : Clears (run history) a user flag
    · obtain ⟨htold, -, -⟩ := told_of_clears hclears
      rw [stateTest_of_clears hlisted hclears, hsound user flag hclears, toldLast, htold]
      rfl
    · rw [stateTest_of_not_clears hlisted huser hclears, toldLast]
      rcases mem_users_next huser with hbefore | hadds
      · rw [h user hbefore flag]
      · simp [told, hadds]

lemma follows_nil : Follows [] := fun _ huser => absurd huser List.not_mem_nil

/-- **The flags follow the events** throughout a history exactly if every flag that one of its
actions is to clear is set when it is taken. -/
theorem flags_follow_iff (history : List Action) :
    (∀ earlier, earlier <:+ history → Follows earlier) ↔
      ∀ a earlier, a :: earlier <:+ history → Sound (run earlier) a := by
  induction history with
  | nil =>
    constructor
    · intro _ a earlier h
      exact absurd (List.eq_nil_of_suffix_nil h) (List.cons_ne_nil a earlier)
    · intro _ earlier h
      rw [List.eq_nil_of_suffix_nil h]
      exact follows_nil
  | cons a history ih =>
    have hself : history <:+ a :: history := List.suffix_cons a history
    constructor
    · intro h b earlier hsuffix
      rcases List.suffix_cons_iff.mp hsuffix with heq | hsuffix
      · obtain ⟨rfl, rfl⟩ := List.cons_eq_cons.mp heq
        exact (follows_cons_iff (h earlier hself)).mp (h _ (List.suffix_refl _))
      · exact ih.mp (fun earlier hearlier => h earlier (hearlier.trans hself)) b earlier hsuffix
    · intro h earlier hsuffix
      have hfollows : Follows history := ih.mpr (fun b earlier hearlier =>
        h b earlier (hearlier.trans hself)) history (List.suffix_refl _)
      rcases List.suffix_cons_iff.mp hsuffix with rfl | hsuffix
      · exact (follows_cons_iff hfollows).mpr (h a history (List.suffix_refl _))
      · exact ih.mpr (fun b earlier hearlier => h b earlier (hearlier.trans hself)) earlier hsuffix

/-- An event of our conference. -/
def conferenceEvent (action memberId : Text) : FSEvent where
  eventId := .custom
  subclassName := some "conference::maintenance".toList
  getHeader name :=
    if name = "Conference-Name".toList then some "fsc_conference".toList
    else if name = "Action".toList then some action
    else if name = "Member-ID".toList then some memberId
    else none

/-- A member that stops talking before it has started is shown as talking. -/
theorem stops_before_it_starts :
    ¬ Follows [.event (conferenceEvent "stop-talking".toList "7".toList),
      .event (conferenceEvent "add-member".toList "7".toList)] := by
  intro h
  have htalk := h 0 (by decide) .talk
  exact absurd htalk (by decide)

end FreeswitchContrib.FsClient.Conference

import FreeswitchContrib.FsClient.Call
import Mathlib.Data.List.Nodup
import Mathlib.Data.List.Infix
import Mathlib.Data.List.Sort

/-!
# The accounts of the soft phone

`Account.cs` of FSClient keeps a list of accounts and a reference to the default one.  Setters raise
notifications, and the handlers of these call setters again: an account number that is taken or
empty is replaced by a free one, and an account that becomes the default one takes the flag from the
others.  An account that loses the flag has the default account looked at half a second later.

* `setGuid` — the setter of the account number with its handler, which calls the setter again.
* `ensureDefaultAccount` — the look at the default account.
* `next` — what the user and the timer can do.
* `setGuid_outcome` — the number of one account is all that `setGuid` changes.
-/

namespace FreeswitchContrib.FsClient.Accounts

/-! ## State -/

/-- The fields of the accounts, of which `made` have been made, and the static ones.  `delayed` says
that a look at the default account is waiting for its time. -/
structure State where
  guid : Ref → Option Text
  enabled : Ref → Bool
  isDefaultAccount : Ref → Bool
  made : ℕ
  accounts : List Ref
  defaultAccount : Option Ref
  delayed : Bool

def State.init : State :=
  ⟨fun _ => none, fun _ => false, fun _ => false, 0, [], none, false⟩

/-- What the handlers read of the rest of the program: the order of strings by which accounts are
ordered, and whether `LoadSettings` has subscribed to changes of the list. -/
structure Program where
  lessOrEqual : Option Text → Option Text → Bool
  haveInited : Bool

/-- A setter comes back, a lookup in it throws, or notifications are nested too deep. -/
inductive Outcome
  | returned | thrown | endless
  deriving DecidableEq

def andThen (first : State × Outcome) (second : State → State × Outcome) : State × Outcome :=
  match first.2 with
  | .returned => second first.1
  | _ => first

/-! ## Account numbers -/

/-- `guid_ok`, unless `SingleOrDefault` throws. -/
def guidOk (s : State) (acct : Ref) (guid : Option Text) : Option Bool :=
  (singleOrDefault (s.accounts.filter fun a => s.guid a = guid ∧ a ≠ acct)).map Option.isNone

/-- The numbers in the order in which they are tried; "want 0 checked last". -/
def numbers : List Text :=
  ["1".toList, "2".toList, "3".toList, "4".toList, "5".toList, "6".toList, "7".toList, "8".toList,
    "9".toList, "0".toList]

/-- The first of these numbers that is not taken. -/
def freeNumber (s : State) (acct : Ref) : List Text → Option (Option Text)
  | [] => some none
  | number :: rest =>
    match guidOk s acct (some number) with
    | none => none
    | some true => some (some number)
    | some false => freeNumber s acct rest

/-- The setter of `guid` and the handler of its notification, which may call the setter again; so
deep are the calls nested at most. -/
def setGuid : ℕ → State → Ref → Option Text → State × Outcome
  | 0, s, _, _ => (s, .endless)
  | depth + 1, s, acct, value =>
    if value = s.guid acct then (s, .returned)
    else
      let s := { s with guid := Function.update s.guid acct value }
      match guidOk s acct value with
      | none => (s, .thrown)
      | some ok =>
        if !ok || isNullOrEmpty value then
          match freeNumber s acct numbers with
          | none => (s, .thrown)
          | some none => (s, .returned)
          | some (some number) => setGuid depth s acct (some number)
        else (s, .returned)

/-- A notification in a notification. -/
def nesting : ℕ := 2

/-- `ValidateGuid`, unless `SingleOrDefault` throws. -/
def validateGuid (s : State) (editing : Option Ref) (guid : Option Text) : Option Bool :=
  (singleOrDefault (s.accounts.filter fun a => s.guid a = guid ∧ some a ≠ editing)).map
    Option.isNone

/-- The account that `HandleGatewayEvent` looks for. -/
def gatewayAccount (s : State) (gateway : Option Text) : Option (Option Ref) :=
  singleOrDefault (s.accounts.filter fun a => s.guid a = gateway)

/-! ## The default account -/

/-- `is_default_account = false` -/
def unsetDefault (s : State) (acct : Ref) : State :=
  if s.isDefaultAccount acct then
    { s with isDefaultAccount := Function.update s.isDefaultAccount acct false, delayed := true }
  else s

/-- `is_default_account = true` -/
def setDefault (s : State) (acct : Ref) : State :=
  if s.isDefaultAccount acct then s
  else
    let s := { s with isDefaultAccount := Function.update s.isDefaultAccount acct true }
    let s := s.accounts.foldl (fun s a => if a ≠ acct then unsetDefault s a else s) s
    { s with defaultAccount := some acct }

def setIsDefaultAccount (s : State) (acct : Ref) (value : Bool) : State :=
  if value then setDefault s acct else unsetDefault s acct

variable (program : Program)

/-- The first of the enabled accounts in the order of their numbers. -/
def firstEnabled (s : State) : Option Ref :=
  ((s.accounts.filter s.enabled).insertionSort
    fun a b => program.lessOrEqual (s.guid a) (s.guid b)).head?

def ensureDefaultAccount (s : State) : State :=
  if s.defaultAccount.any s.enabled then s
  else
    match firstEnabled program s with
    | some res => setIsDefaultAccount s res true
    | none => { s with defaultAccount := none }

/-- `accounts_CollectionChanged` -/
def accountsChanged (s : State) : State :=
  if program.haveInited then ensureDefaultAccount program s else s

def setEnabled (s : State) (acct : Ref) (value : Bool) : State :=
  if value = s.enabled acct then s
  else
    let s := { s with enabled := Function.update s.enabled acct value }
    if value then ensureDefaultAccount program s else unsetDefault s acct

/-! ## The list of accounts -/

/-- `SettingsAccount`, with the names and the values of its fields. -/
structure SettingsAccount where
  enabled : Bool
  isDefaultAccount : Bool
  fields : List (Option Text × Option Text)

/-- What `GetAccount` does with a field; only the account number matters here. -/
def setField (acct : Ref) (result : State × Outcome) (field : Option Text × Option Text) :
    State × Outcome :=
  andThen result fun s =>
    if field.1 = some "guid".toList then setGuid nesting s acct field.2 else (s, .returned)

/-- A new account has the first number, and no notification about it has been raised. -/
def newAccount (s : State) : State :=
  { s with
    guid := Function.update s.guid s.made (some "1".toList)
    enabled := Function.update s.enabled s.made false
    isDefaultAccount := Function.update s.isDefaultAccount s.made false
    made := s.made + 1 }

/-- `GetAccount`; the account is the last one that has been made. -/
def getAccount (s : State) (settings : SettingsAccount) : State × Outcome :=
  let acct := s.made
  let s := newAccount s
  let s := setEnabled program s acct settings.enabled
  let s := setIsDefaultAccount s acct settings.isDefaultAccount
  settings.fields.foldl (setField acct) (s, .returned)

/-- The part of `AddAccount` up to the account number. -/
def addToList (s : State) (acct : Ref) : State :=
  let s := accountsChanged program { s with accounts := s.accounts ++ [acct] }
  let wasDefault := s.isDefaultAccount acct
  let s := setIsDefaultAccount s acct false
  setIsDefaultAccount s acct wasDefault

/-- `account.guid = ""; account.guid = old_guid;` -/
def renewGuid (s : State) (acct : Ref) : State × Outcome :=
  let oldGuid := s.guid acct
  andThen (setGuid nesting s acct (some [])) fun s => setGuid nesting s acct oldGuid

def addAccount (s : State) (acct : Ref) : State × Outcome :=
  renewGuid (addToList program s acct) acct

def removeAccount (s : State) (acct : Ref) : State :=
  let s := setIsDefaultAccount s acct false
  if acct ∈ s.accounts then accountsChanged program { s with accounts := s.accounts.erase acct }
  else s

/-! ## Runs -/

inductive Action
  /-- an account of the settings, or a new one, which is as one without fields -/
  | add (settings : SettingsAccount)
  | remove (acct : Ref)
  | edit (acct : Ref) (guid : Option Text)
  | enable (acct : Ref)
  | disable (acct : Ref)
  | markDefault (acct : Ref)
  /-- `timer_Elapsed`, when the time of the look has come -/
  | elapse

/-- The account that an action is about; there is no reference to one that has not been made. -/
def Action.about (s : State) (acct : Ref) (result : State × Outcome) : State × Outcome :=
  if acct < s.made then result else (s, .returned)

def next (s : State) : Action → State × Outcome
  | .add settings => andThen (getAccount program s settings) fun s' => addAccount program s' s.made
  | .remove acct => Action.about s acct (removeAccount program s acct, .returned)
  | .edit acct guid => Action.about s acct (setGuid nesting s acct guid)
  | .enable acct => Action.about s acct (setEnabled program s acct true, .returned)
  | .disable acct => Action.about s acct (setEnabled program s acct false, .returned)
  | .markDefault acct => Action.about s acct (setIsDefaultAccount s acct true, .returned)
  | .elapse =>
    if s.delayed then (ensureDefaultAccount program { s with delayed := false }, .returned)
    else (s, .returned)

/-- The state after a history, of which the last action is in front. -/
def run : List Action → State
  | [] => .init
  | a :: history => (next program (run history) a).1

/-! ## What stays as it is -/

variable {program} {s s' s₁ : State} {acct a : Ref} {value : Option Text} {first : State × Outcome}
  {second : State → State × Outcome}

/-- The account numbers and the list are as they were. -/
structure SameNumbers (s s' : State) : Prop where
  guid : s'.guid = s.guid
  made : s'.made = s.made
  accounts : s'.accounts = s.accounts

namespace SameNumbers

lemma refl (s : State) : SameNumbers s s := ⟨rfl, rfl, rfl⟩

lemma trans (h : SameNumbers s s₁) (h' : SameNumbers s₁ s') : SameNumbers s s' :=
  ⟨h'.guid.trans h.guid, h'.made.trans h.made, h'.accounts.trans h.accounts⟩

end SameNumbers

/-- All but the account numbers is as it was. -/
structure SameFlags (s s' : State) : Prop where
  enabled : s'.enabled = s.enabled
  isDefaultAccount : s'.isDefaultAccount = s.isDefaultAccount
  made : s'.made = s.made
  accounts : s'.accounts = s.accounts
  defaultAccount : s'.defaultAccount = s.defaultAccount

namespace SameFlags

lemma refl (s : State) : SameFlags s s := ⟨rfl, rfl, rfl, rfl, rfl⟩

lemma trans (h : SameFlags s s₁) (h' : SameFlags s₁ s') : SameFlags s s' :=
  ⟨h'.enabled.trans h.enabled, h'.isDefaultAccount.trans h.isDefaultAccount,
    h'.made.trans h.made, h'.accounts.trans h.accounts, h'.defaultAccount.trans h.defaultAccount⟩

end SameFlags

lemma andThen_of_returned (h : first.2 = .returned) : andThen first second = second first.1 := by
  rw [andThen, h]

lemma andThen_of_ne (h : first.2 ≠ .returned) : andThen first second = first := by
  unfold andThen
  split
  · next heq => exact absurd heq h
  · rfl

/-- What two parts keep they keep together. -/
lemma SameFlags.andThen (h : SameFlags s first.1) (h' : ∀ s, SameFlags s (second s).1) :
    SameFlags s (andThen first second).1 := by
  by_cases hreturned : first.2 = .returned
  · rw [andThen_of_returned hreturned]
    exact h.trans (h' first.1)
  · rw [andThen_of_ne hreturned]
    exact h

/-- **The number of one account** is all that its setter changes. -/
theorem setGuid_outcome (depth : ℕ) (s : State) (acct : Ref) (value : Option Text) :
    ∃ guid, (setGuid depth s acct value).1 =
      { s with guid := Function.update s.guid acct guid } := by
  induction depth generalizing s value with
  | zero => exact ⟨s.guid acct, by rw [Function.update_eq_self]; rfl⟩
  | succ depth ih =>
    unfold setGuid
    split
    · exact ⟨s.guid acct, by rw [Function.update_eq_self]⟩
    · dsimp only
      split
      · exact ⟨value, rfl⟩
      · split
        · split
          · exact ⟨value, rfl⟩
          · exact ⟨value, rfl⟩
          · next number _ =>
            obtain ⟨guid, hguid⟩ :=
              ih { s with guid := Function.update s.guid acct value } (some number)
            exact ⟨guid, by rw [hguid, Function.update_idem]⟩
        · exact ⟨value, rfl⟩

lemma sameFlags_setGuid (depth : ℕ) (s : State) (acct : Ref) (value : Option Text) :
    SameFlags s (setGuid depth s acct value).1 := by
  obtain ⟨guid, hguid⟩ := setGuid_outcome depth s acct value
  rw [hguid]
  exact ⟨rfl, rfl, rfl, rfl, rfl⟩

lemma sameFlags_renewGuid (s : State) (acct : Ref) : SameFlags s (renewGuid s acct).1 :=
  (sameFlags_setGuid nesting s acct _).andThen fun s => sameFlags_setGuid nesting s acct _

lemma sameFlags_foldl_setField (acct : Ref) (fields : List (Option Text × Option Text)) :
    ∀ result, SameFlags s result.1 → SameFlags s (fields.foldl (setField acct) result).1 := by
  induction fields with
  | nil => exact fun _ h => h
  | cons field fields ih =>
    intro result h
    rw [List.foldl_cons]
    refine ih _ (h.andThen fun s => ?_)
    split
    · exact sameFlags_setGuid nesting s acct _
    · exact .refl s

lemma sameNumbers_unsetDefault (s : State) (acct : Ref) : SameNumbers s (unsetDefault s acct) := by
  unfold unsetDefault
  split
  · exact ⟨rfl, rfl, rfl⟩
  · exact .refl s

lemma sameNumbers_foldl (acct : Ref) (accounts : List Ref) (s : State) :
    SameNumbers s (accounts.foldl (fun s a => if a ≠ acct then unsetDefault s a else s) s) := by
  induction accounts generalizing s with
  | nil => exact .refl s
  | cons a accounts ih =>
    refine SameNumbers.trans ?_ (ih _)
    dsimp only
    split
    · exact sameNumbers_unsetDefault s a
    · exact .refl s

lemma sameNumbers_setDefault (s : State) (acct : Ref) : SameNumbers s (setDefault s acct) := by
  unfold setDefault
  split
  · exact .refl s
  · have h := sameNumbers_foldl acct s.accounts
      { s with isDefaultAccount := Function.update s.isDefaultAccount acct true }
    exact ⟨h.guid, h.made, h.accounts⟩

lemma sameNumbers_setIsDefaultAccount (s : State) (acct : Ref) (value : Bool) :
    SameNumbers s (setIsDefaultAccount s acct value) := by
  cases value with
  | true => exact sameNumbers_setDefault s acct
  | false => exact sameNumbers_unsetDefault s acct

variable (program) in
lemma sameNumbers_ensureDefaultAccount (s : State) :
    SameNumbers s (ensureDefaultAccount program s) := by
  unfold ensureDefaultAccount
  split
  · exact .refl s
  · split
    · exact sameNumbers_setIsDefaultAccount s _ true
    · exact ⟨rfl, rfl, rfl⟩

variable (program) in
lemma sameNumbers_accountsChanged (s : State) : SameNumbers s (accountsChanged program s) := by
  unfold accountsChanged
  split
  · exact sameNumbers_ensureDefaultAccount program s
  · exact .refl s

variable (program) in
lemma sameNumbers_setEnabled (s : State) (acct : Ref) (value : Bool) :
    SameNumbers s (setEnabled program s acct value) := by
  unfold setEnabled
  split
  · exact .refl s
  · have hset : SameNumbers s { s with enabled := Function.update s.enabled acct value } :=
      ⟨rfl, rfl, rfl⟩
    dsimp only
    split
    · exact hset.trans (sameNumbers_ensureDefaultAccount program _)
    · exact hset.trans (sameNumbers_unsetDefault _ acct)

end FreeswitchContrib.FsClient.Accounts

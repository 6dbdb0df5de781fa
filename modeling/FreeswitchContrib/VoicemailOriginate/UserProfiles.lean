import FreeswitchContrib.Library.CString

/-!
# The profiles of `mod_voicemail_originate`

A configuration profile is loaded from the configuration file and kept in `profile_hash`; a user
profile is set up from the parameters of a user, for every attempt anew.  A string has the pool that
its bytes are in, since `set_user_profile` borrows the strings of the configuration profiles.

What the file and the directory hold is `Env`; `settings` is the user profile that they make for a
user.  `settings_eq` says that it does not depend on which configuration profiles are loaded.
-/

namespace FreeswitchContrib.VoicemailOriginate

open CString

abbrev Text := List Char

/-! ## Strings and profiles -/

/-- Where the bytes of a string are. -/
inductive Pool where
  | literal
  /-- the pool of the user profile -/
  | profile
  /-- a `strdup` that nothing frees -/
  | heap
  /-- the pool of a configuration profile -/
  | config (id : ℕ)
  deriving DecidableEq

/-- A `const char *` other than NULL. -/
structure Str where
  text : Text
  pool : Pool
  deriving DecidableEq

/-- `zstr` -/
def zstr : Option Str → Bool
  | none => true
  | some s => s.text.isEmpty

/-- `switch_status_t` -/
inductive Status where
  | success
  /-- `SWITCH_STATUS_FALSE` -/
  | failed
  | timeout
  | other
  deriving DecidableEq

/-- `switch_call_cause_t` -/
inductive Cause where
  | none
  | success
  | normalClearing
  | noAnswer
  | originatorCancel
  | other (code : ℕ)
  deriving DecidableEq

/-- `config_profile_t`, as it is in the file. -/
structure ConfigProfile where
  profileEnabled : Bool := true
  firstWait : ℕ := 10
  wait : ℕ := 10
  timeout : ℕ := 20
  attempts : ℕ := 1
  transfer : Option Text := none
  callerName : Option Text := none
  callerNumber : Option Text := none
  enableConfirm : Bool := false
  confirmDigits : Option Text := none
  confirmWait : ℕ := 5000
  confirmPlayFile : Option Text := none
  dialString : Option Text := none

/-- `user_profile_t` -/
structure UserProfile where
  confirmStatus : Status
  cause : Cause
  profileEnabled : Bool
  firstWait : ℤ
  wait : ℤ
  timeout : ℤ
  attempts : ℤ
  transfer : Option Str
  callerName : Str
  callerNumber : Str
  enableConfirm : Bool
  confirmDigits : Str
  confirmWait : ℤ
  confirmPlayFile : Str
  dialString : Option Str
  deriving DecidableEq

/-- A `<param>` of a user. -/
structure Param where
  var : Text
  val : Text

structure Env where
  /-- `switch_xml_locate_user_merged`: the parameters of a user -/
  users : Text × Text → Option (List Param)
  /-- the profiles of the configuration file -/
  file : Text → Option ConfigProfile

/-- A configuration profile in memory. -/
structure Loaded where
  id : ℕ
  contents : ConfigProfile

/-- `profile_hash`, and the pools of the configuration profiles. -/
structure Configs where
  profileHash : Text → Option Loaded
  numLoaded : ℕ
  released : ℕ → Bool

def Configs.init : Configs := ⟨fun _ => none, 0, fun _ => false⟩

/-! ## `get_profile` and `destroy_profile` -/

/-- `load_profile` -/
def loadProfile (env : Env) (configs : Configs) (name : Text) : Configs × Option Loaded :=
  match env.file name with
  | none => (configs, none)
  | some contents =>
    ({ configs with
        profileHash := Function.update configs.profileHash name (some ⟨configs.numLoaded, contents⟩)
        numLoaded := configs.numLoaded + 1 },
      some ⟨configs.numLoaded, contents⟩)

/-- `get_profile` -/
def getProfile (env : Env) (configs : Configs) (name : Text) : Configs × Option Loaded :=
  match configs.profileHash name with
  | none => loadProfile env configs name
  | some loaded => (configs, some loaded)

/-- `destroy_profile`.  Only `set_user_profile` holds the lock, and not from one step to the next. -/
def destroyProfile (configs : Configs) (name : Text) : Configs :=
  match configs.profileHash name with
  | none => configs
  | some loaded =>
    { configs with
      profileHash := Function.update configs.profileHash name none
      released := Function.update configs.released loaded.id true }

/-! ## `set_user_profile` -/

/-- The parameters of the second loop. -/
inductive Setting where
  | enabled
  | enableConfirm
  | timeout
  | wait
  | firstWait
  | callerName
  | callerNumber
  | dialString
  | transfer
  | userVariables
  | attempts
  | confirmDigits
  | confirmWait
  | confirmPlayFile
  deriving DecidableEq

/-- Their names, in the order of the comparisons. -/
def Setting.names : List (String × Setting) :=
  [("vm-originate-enabled", .enabled),
    ("vm-originate-enable-confirm", .enableConfirm),
    ("vm-originate-timeout", .timeout),
    ("vm-originate-wait", .wait),
    ("vm-originate-first-wait", .firstWait),
    ("vm-originate-caller-name", .callerName),
    ("vm-originate-caller-number", .callerNumber),
    ("vm-originate-dial-string", .dialString),
    ("vm-originate-transfer", .transfer),
    ("vm-originate-user-variables", .userVariables),
    ("vm-originate-attempts", .attempts),
    ("vm-originate-confirm-digits", .confirmDigits),
    ("vm-originate-confirm-wait", .confirmWait),
    ("vm-originate-confirm-play-file", .confirmPlayFile)]

def Setting.ofVar (var : Text) : Option Setting :=
  (names.find? fun name => strcasecmp var name.1.toList).map (·.2)

namespace UserProfile

/-- The default values. -/
def defaults : UserProfile where
  confirmStatus := .success
  cause := .none
  profileEnabled := false
  firstWait := 1
  wait := 30
  timeout := 20
  attempts := 1
  transfer := none
  callerName := ⟨"0000000000".toList, .literal⟩
  callerNumber := ⟨"0000000000".toList, .literal⟩
  enableConfirm := false
  confirmDigits := ⟨"0".toList, .literal⟩
  confirmWait := 5000
  confirmPlayFile := ⟨[], .literal⟩
  dialString := none

/-- A number of a configuration profile, where 0 is none. -/
def orDefault (n : ℕ) (default : ℤ) : ℤ := if n = 0 then default else n

/-- What a user profile takes over from a configuration profile; the caller number goes into the
caller name. -/
def borrow (loaded : Loaded) (profile : UserProfile) : UserProfile :=
  let config := loaded.contents
  let str (s : Text) : Str := ⟨s, .config loaded.id⟩
  let callerName := (config.callerName.map str).getD profile.callerName
  { profile with
    profileEnabled := config.profileEnabled
    enableConfirm := config.enableConfirm
    callerName := (config.callerNumber.map str).getD callerName
    timeout := orDefault config.timeout profile.timeout
    attempts := orDefault config.attempts profile.attempts
    wait := orDefault config.wait profile.wait
    firstWait := orDefault config.firstWait profile.firstWait
    confirmDigits := (config.confirmDigits.map str).getD profile.confirmDigits
    confirmWait := orDefault config.confirmWait profile.confirmWait
    confirmPlayFile := (config.confirmPlayFile.map str).getD profile.confirmPlayFile
    dialString := (config.dialString.map str).orElse fun _ => profile.dialString
    transfer := (config.transfer.map str).orElse fun _ => profile.transfer }

/-- A parameter of the second loop. -/
def override (profile : UserProfile) (param : Param) : UserProfile :=
  let val := param.val
  match Setting.ofVar param.var with
  | none => profile
  | some .enabled => { profile with profileEnabled := !strcasecmp val "false".toList }
  | some .enableConfirm => { profile with enableConfirm := strcasecmp val "true".toList }
  | some .timeout => { profile with timeout := atoi val }
  | some .wait => { profile with wait := atoi val }
  | some .firstWait => { profile with firstWait := atoi val }
  | some .callerName => { profile with callerName := ⟨val, .profile⟩ }
  | some .callerNumber => { profile with callerNumber := ⟨val, .profile⟩ }
  | some .dialString => { profile with dialString := some ⟨val, .profile⟩ }
  | some .transfer => { profile with transfer := some ⟨val, .profile⟩ }
  | some .userVariables => profile
  | some .attempts => { profile with attempts := atoi val }
  | some .confirmDigits => { profile with confirmDigits := ⟨val, .heap⟩ }
  | some .confirmWait => { profile with confirmWait := atoi val }
  | some .confirmPlayFile => { profile with confirmPlayFile := ⟨val, .heap⟩ }

end UserProfile

/-- A parameter of the first loop. -/
def applyProfile (env : Env) (state : Configs × UserProfile) (param : Param) :
    Configs × UserProfile :=
  if strcasecmp param.var "vm-originate-profile".toList then
    match getProfile env state.1 param.val with
    | (configs, none) => (configs, state.2)
    | (configs, some loaded) => (configs, state.2.borrow loaded)
  else
    state

/-- `zstr(var) || zstr(val)` -/
def Param.isEmpty (param : Param) : Bool := param.var.isEmpty || param.val.isEmpty

/-- `set_user_profile`, and NULL for a user that is not found. -/
def setUserProfile (env : Env) (configs : Configs) (account : Text × Text) :
    Configs × Option UserProfile :=
  match env.users account with
  | none => (configs, none)
  | some params =>
    let params := params.filter (!·.isEmpty)
    let borrowed := params.foldl (applyProfile env) (configs, .defaults)
    (borrowed.1, some (params.foldl UserProfile.override borrowed.2))

/-! ## The settings of a user -/

namespace Env

/-- The user profile when no configuration profile is loaded yet. -/
def settings (env : Env) (account : Text × Text) : Option UserProfile :=
  (setUserProfile env .init account).2

end Env

/-- The same text, wherever it is. -/
def Str.plain (s : Str) : Str := ⟨s.text, .literal⟩

/-- The same user profile, wherever its strings are. -/
def UserProfile.plain (profile : UserProfile) : UserProfile :=
  { profile with
    transfer := profile.transfer.map Str.plain
    callerName := profile.callerName.plain
    callerNumber := profile.callerNumber.plain
    confirmDigits := profile.confirmDigits.plain
    confirmPlayFile := profile.confirmPlayFile.plain
    dialString := profile.dialString.map Str.plain }

/-- What is loaded was in the file. -/
def Configs.Matches (configs : Configs) (env : Env) : Prop :=
  ∀ name loaded, configs.profileHash name = some loaded → env.file name = some loaded.contents

variable {env : Env} {configs configs' : Configs} {profile profile' : UserProfile}

@[simp] lemma plain_plain (s : Str) : s.plain.plain = s.plain := rfl

@[simp] lemma plain_comp_plain : Str.plain ∘ Str.plain = Str.plain := rfl

lemma plain_override (profile : UserProfile) (param : Param) :
    (profile.override param).plain = (profile.plain.override param).plain := by
  unfold UserProfile.override
  cases Setting.ofVar param.var with
  | none => simp [UserProfile.plain]
  | some setting => cases setting <;> simp [UserProfile.plain]

lemma plain_getD (s : Option Text) (pool pool' : Pool) (default : Str) :
    ((s.map fun text => ⟨text, pool⟩).getD default).plain =
      ((s.map fun text => ⟨text, pool'⟩).getD default.plain).plain := by
  cases s <;> rfl

lemma plain_orElse (s : Option Text) (pool pool' : Pool) (default : Option Str) :
    ((s.map fun text => (⟨text, pool⟩ : Str)).orElse fun _ => default).map Str.plain =
      ((s.map fun text => (⟨text, pool'⟩ : Str)).orElse fun _ =>
        default.map Str.plain).map Str.plain := by
  cases s with
  | none => cases default <;> rfl
  | some text => rfl

lemma plain_borrow (profile : UserProfile) (id id' : ℕ) (contents : ConfigProfile) :
    (profile.borrow ⟨id, contents⟩).plain = (profile.plain.borrow ⟨id', contents⟩).plain := by
  simp only [UserProfile.borrow, UserProfile.plain, UserProfile.mk.injEq, true_and]
  refine ⟨plain_orElse _ _ _ _, ?_, rfl, plain_getD _ _ _ _, plain_getD _ _ _ _,
    plain_orElse _ _ _ _⟩
  cases contents.callerNumber with
  | none => exact plain_getD contents.callerName _ _ _
  | some number => rfl

lemma getProfile_matches (h : configs.Matches env) (name : Text) :
    (getProfile env configs name).1.Matches env ∧
      (getProfile env configs name).2.map Loaded.contents = env.file name := by
  rw [getProfile]
  cases hhash : configs.profileHash name with
  | some loaded => exact ⟨h, (h name loaded hhash).symm⟩
  | none =>
    show (loadProfile env configs name).1.Matches env ∧ _ = _
    rw [loadProfile]
    cases hfile : env.file name with
    | none => exact ⟨h, rfl⟩
    | some contents =>
      refine ⟨?_, rfl⟩
      intro name' loaded hloaded
      change Function.update configs.profileHash name _ name' = some loaded at hloaded
      by_cases hname : name' = name
      · rw [hname, Function.update_self] at hloaded
        rw [hname, hfile, ← Option.some.inj hloaded]
      · rw [Function.update_of_ne hname] at hloaded
        exact h name' loaded hloaded

lemma destroyProfile_matches (h : configs.Matches env) (name : Text) :
    (destroyProfile configs name).Matches env := by
  rw [destroyProfile]
  cases hhash : configs.profileHash name with
  | none => exact h
  | some loaded =>
    intro name' loaded' hloaded
    change Function.update configs.profileHash name none name' = some loaded' at hloaded
    by_cases hname : name' = name
    · rw [hname, Function.update_self] at hloaded
      cases hloaded
    · rw [Function.update_of_ne hname] at hloaded
      exact h name' loaded' hloaded

/-- Two user profiles that are set up with different configuration profiles in memory. -/
def Alike (env : Env) (s t : Configs × UserProfile) : Prop :=
  s.1.Matches env ∧ t.1.Matches env ∧ s.2.plain = t.2.plain

lemma applyProfile_alike {s t : Configs × UserProfile} (h : Alike env s t) (param : Param) :
    Alike env (applyProfile env s param) (applyProfile env t param) := by
  obtain ⟨hs, ht, hplain⟩ := h
  rw [applyProfile, applyProfile]
  split_ifs
  · obtain ⟨hs', hfile⟩ := getProfile_matches hs param.val
    obtain ⟨ht', hfile'⟩ := getProfile_matches ht param.val
    have hsame := hfile.trans hfile'.symm
    generalize getProfile env s.1 param.val = found at hs' hsame ⊢
    generalize getProfile env t.1 param.val = found' at ht' hsame ⊢
    obtain ⟨configs, loaded⟩ := found
    obtain ⟨configs', loaded'⟩ := found'
    cases loaded with
    | none =>
      cases loaded' with
      | none => exact ⟨hs', ht', hplain⟩
      | some loaded' => cases hsame
    | some loaded =>
      cases loaded' with
      | none => cases hsame
      | some loaded' =>
        refine ⟨hs', ht', ?_⟩
        have hcontents : loaded.contents = loaded'.contents := Option.some.inj hsame
        calc (s.2.borrow loaded).plain
            = (s.2.plain.borrow ⟨0, loaded.contents⟩).plain := plain_borrow s.2 loaded.id 0 _
          _ = (t.2.plain.borrow ⟨0, loaded'.contents⟩).plain := by rw [hplain, hcontents]
          _ = (t.2.borrow loaded').plain := (plain_borrow t.2 loaded'.id 0 _).symm
  · exact ⟨hs, ht, hplain⟩

lemma foldl_applyProfile_alike (params : List Param) {s t : Configs × UserProfile}
    (h : Alike env s t) :
    Alike env (params.foldl (applyProfile env) s) (params.foldl (applyProfile env) t) := by
  induction params generalizing s t with
  | nil => exact h
  | cons param params ih => exact ih (applyProfile_alike h param)

lemma plain_foldl_override (params : List Param) (h : profile.plain = profile'.plain) :
    (params.foldl UserProfile.override profile).plain =
      (params.foldl UserProfile.override profile').plain := by
  induction params generalizing profile profile' with
  | nil => exact h
  | cons param params ih =>
    refine ih ?_
    rw [plain_override, h, ← plain_override]

lemma setUserProfile_alike (h : configs.Matches env) (h' : configs'.Matches env)
    (account : Text × Text) :
    (setUserProfile env configs account).1.Matches env ∧
      (setUserProfile env configs account).2.map UserProfile.plain =
        (setUserProfile env configs' account).2.map UserProfile.plain := by
  rw [setUserProfile, setUserProfile]
  cases env.users account with
  | none => exact ⟨h, rfl⟩
  | some params =>
    obtain ⟨hmatches, -, hplain⟩ := foldl_applyProfile_alike (params.filter (!·.isEmpty))
      (⟨h, h', rfl⟩ : Alike env (configs, .defaults) (configs', .defaults))
    exact ⟨hmatches, congrArg some (plain_foldl_override _ hplain)⟩

lemma init_matches : Configs.init.Matches env := by
  intro name loaded h
  exact absurd h (by simp [Configs.init])

/-- What is set up stays to be what the file holds. -/
lemma setUserProfile_matches (h : configs.Matches env) (account : Text × Text) :
    (setUserProfile env configs account).1.Matches env :=
  (setUserProfile_alike h h account).1

/-- **The settings of a user do not depend on what is loaded.** -/
theorem settings_eq (h : configs.Matches env) (account : Text × Text) :
    (setUserProfile env configs account).2.map UserProfile.plain =
      (env.settings account).map UserProfile.plain :=
  (setUserProfile_alike h init_matches account).2

end FreeswitchContrib.VoicemailOriginate

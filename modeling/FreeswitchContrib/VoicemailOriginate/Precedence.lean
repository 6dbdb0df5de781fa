import FreeswitchContrib.Library.Updating
import FreeswitchContrib.VoicemailOriginate.UserProfiles

/-!
# Which layer a callback setting comes from

A setting has the value of the user's own parameter, else that of the configuration profile, else
the default (`FollowsPrecedence`).  `set_user_profile` has one loop for each of the first two
layers; the lemmas say what a loop leaves in a field of the user profile, and `overridden` puts the
two together.

* `Uncrossed` — the caller number of a configuration profile, which is written into the caller name,
  does no harm, and neither does an empty text, which is written like any other.
* **`followsPrecedence_iff`** — then, and only then, the settings follow their precedence.
-/

namespace FreeswitchContrib.VoicemailOriginate

open CString

/-! ## The layers -/

/-- The profile with that name in memory, or else in the file. -/
def Configs.contents (configs : Configs) (env : Env) (name : Text) : Option ConfigProfile :=
  match configs.profileHash name with
  | some loaded => some loaded.contents
  | none => env.file name

/-- The user's own value: the last one that is not empty. -/
def ownValue (params : List Param) (name : String) : Option Text :=
  ((params.filter (!·.isEmpty)).filterMap fun param =>
    if strcasecmp param.var name.toList then some param.val else none).getLast?

/-- The configuration profiles that the user names. -/
def namedProfiles (env : Env) (configs : Configs) (params : List Param) : List ConfigProfile :=
  (params.filter (!·.isEmpty)).filterMap fun param =>
    if strcasecmp param.var "vm-originate-profile".toList then configs.contents env param.val
    else none

/-- What the last of the profiles with such a value has. -/
def configured {α : Type} (profiles : List ConfigProfile) (value : ConfigProfile → Option α) :
    Option α :=
  (profiles.filterMap value).getLast?

def nonEmpty (text : Option Text) : Option Text := text.filter (· ≠ [])

def nonZero (n : ℕ) : Option ℤ := if n = 0 then none else some n

/-- The value of the first layer that has one. -/
def precedence {α : Type} (own configured : Option α) (default : α) : α :=
  own.getD (configured.getD default)

/-- Each setting has the value of the first layer that has one. -/
structure UserProfile.FollowsPrecedence (profile : UserProfile) (params : List Param)
    (profiles : List ConfigProfile) : Prop where
  profileEnabled : profile.profileEnabled =
    precedence ((ownValue params "vm-originate-enabled").map (!strcasecmp · "false".toList))
      (configured profiles (some ·.profileEnabled)) false
  enableConfirm : profile.enableConfirm =
    precedence ((ownValue params "vm-originate-enable-confirm").map (strcasecmp · "true".toList))
      (configured profiles (some ·.enableConfirm)) false
  timeout : profile.timeout =
    precedence ((ownValue params "vm-originate-timeout").map atoi)
      (configured profiles (nonZero ·.timeout)) 20
  wait : profile.wait =
    precedence ((ownValue params "vm-originate-wait").map atoi)
      (configured profiles (nonZero ·.wait)) 30
  firstWait : profile.firstWait =
    precedence ((ownValue params "vm-originate-first-wait").map atoi)
      (configured profiles (nonZero ·.firstWait)) 1
  attempts : profile.attempts =
    precedence ((ownValue params "vm-originate-attempts").map atoi)
      (configured profiles (nonZero ·.attempts)) 1
  confirmWait : profile.confirmWait =
    precedence ((ownValue params "vm-originate-confirm-wait").map atoi)
      (configured profiles (nonZero ·.confirmWait)) 5000
  callerName : profile.callerName.text =
    precedence (ownValue params "vm-originate-caller-name")
      (configured profiles (nonEmpty ·.callerName)) "0000000000".toList
  callerNumber : profile.callerNumber.text =
    precedence (ownValue params "vm-originate-caller-number")
      (configured profiles (nonEmpty ·.callerNumber)) "0000000000".toList
  confirmDigits : profile.confirmDigits.text =
    precedence (ownValue params "vm-originate-confirm-digits")
      (configured profiles (nonEmpty ·.confirmDigits)) "0".toList
  confirmPlayFile : profile.confirmPlayFile.text =
    precedence (ownValue params "vm-originate-confirm-play-file")
      (configured profiles (nonEmpty ·.confirmPlayFile)) []
  dialString : profile.dialString.map Str.text =
    (ownValue params "vm-originate-dial-string").or
      (configured profiles (nonEmpty ·.dialString))
  transfer : profile.transfer.map Str.text =
    (ownValue params "vm-originate-transfer").or
      (configured profiles (nonEmpty ·.transfer))

/-- `set_user_profile` returns a profile for a user that is found, and its settings follow their
precedence. -/
def FollowsPrecedence (env : Env) (configs : Configs) (account : Text × Text) : Prop :=
  ∀ params ∈ env.users account, ∃ profile, (setUserProfile env configs account).2 = some profile ∧
    profile.FollowsPrecedence params (namedProfiles env configs params)

/-- The settings that the user does not have are not written wrongly. -/
structure Uncrossed (params : List Param) (profiles : List ConfigProfile) : Prop where
  /-- what is written last, the number of a profile after its name, is the last caller name -/
  callerName : ownValue params "vm-originate-caller-name" = none →
    (configured profiles fun config => config.callerNumber.or config.callerName).getD
        "0000000000".toList =
      (configured profiles (nonEmpty ·.callerName)).getD "0000000000".toList
  /-- the caller number of no profile is missed -/
  callerNumber : ownValue params "vm-originate-caller-number" = none →
    ∀ number ∈ configured profiles (nonEmpty ·.callerNumber), number = "0000000000".toList
  /-- the text that is given last is not empty -/
  confirmDigits : ownValue params "vm-originate-confirm-digits" = none →
    configured profiles (·.confirmDigits) ≠ some []
  dialString : ownValue params "vm-originate-dial-string" = none →
    configured profiles (·.dialString) ≠ some []
  transfer : ownValue params "vm-originate-transfer" = none →
    configured profiles (·.transfer) ≠ some []
  /-- where the default is empty too, it is not given behind another one -/
  confirmPlayFile : ownValue params "vm-originate-confirm-play-file" = none →
    configured profiles (·.confirmPlayFile) = some [] →
      configured profiles (nonEmpty ·.confirmPlayFile) = none

variable {env : Env} {configs : Configs} {params : List Param} {profiles : List ConfigProfile}

/-! ## The first loop -/

lemma contents_loadProfile (configs : Configs) (name name' : Text)
    (h : configs.profileHash name = none) :
    (loadProfile env configs name).1.contents env name' = configs.contents env name' := by
  rw [loadProfile]
  cases hfile : env.file name with
  | none => rfl
  | some contents =>
    by_cases hname : name' = name
    · simp [Configs.contents, hname, h, hfile]
    · simp [Configs.contents, Function.update_of_ne hname]

/-- A profile is loaded with what it is in the file. -/
lemma contents_getProfile (env : Env) (configs : Configs) (name name' : Text) :
    (getProfile env configs name).1.contents env name' = configs.contents env name' := by
  rw [getProfile]
  cases h : configs.profileHash name with
  | none => exact contents_loadProfile configs name name' h
  | some loaded => rfl

lemma getProfile_snd (configs : Configs) (name : Text) :
    (getProfile env configs name).2.map Loaded.contents = configs.contents env name := by
  rw [getProfile, Configs.contents]
  cases configs.profileHash name with
  | some loaded => rfl
  | none =>
    show (loadProfile env configs name).2.map Loaded.contents = env.file name
    rw [loadProfile]
    cases env.file name <;> rfl

/-- What the profiles leave in a field that `borrow` overwrites. -/
lemma applyProfile_field {γ : Type} {get : UserProfile → γ} (value : ConfigProfile → Option γ)
    (hborrow : ∀ profile loaded,
      get (profile.borrow loaded) = (value loaded.contents).getD (get profile))
    (env : Env) (configs : Configs) (params : List Param) (profile : UserProfile) :
    get ((params.filter (!·.isEmpty)).foldl (applyProfile env) (configs, profile)).2 =
      (configured (namedProfiles env configs params) value).getD (get profile) := by
  let write (param : Param) : Option γ :=
    (if strcasecmp param.var "vm-originate-profile".toList then configs.contents env param.val
    else none).bind value
  let Inv (s : Configs × UserProfile) : Prop :=
    ∀ name, s.1.contents env name = configs.contents env name
  have hstep (s : Configs × UserProfile) (hs : Inv s) (param : Param) :
      Inv (applyProfile env s param) ∧
        get (applyProfile env s param).2 = (write param).getD (get s.2) := by
    simp only [applyProfile, write]
    split_ifs with hvar
    · have hcontents := contents_getProfile env s.1 param.val
      have hloaded := (getProfile_snd s.1 param.val).trans (hs param.val)
      generalize getProfile env s.1 param.val = found at hcontents hloaded
      obtain ⟨configs', loaded⟩ := found
      rw [← hloaded]
      refine ⟨fun name => ?_, ?_⟩
      · cases loaded <;> exact (hcontents name).trans (hs name)
      · cases loaded with
        | none => rfl
        | some loaded => exact hborrow s.2 loaded
    · exact ⟨hs, rfl⟩
  rw [configured, namedProfiles, List.filterMap_filterMap]
  have hinit : Inv (configs, profile) := fun name => rfl
  exact Updating.foldl_overwrite (fun s => get s.2) write Inv hstep _ hinit

/-! ## The second loop -/

lemma names_nodup : (Setting.names.map fun entry => entry.1.toList.map Char.toLower).Nodup := by
  decide +kernel

lemma settings_nodup : (Setting.names.map (·.2)).Nodup := by decide +kernel

/-- A variable is that of a setting if it has its name. -/
lemma ofVar_eq_iff {name : String} {setting : Setting} (hname : (name, setting) ∈ Setting.names)
    (var : Text) : Setting.ofVar var = some setting ↔ strcasecmp var name.toList = true := by
  rw [Setting.ofVar]
  constructor
  · intro h
    obtain ⟨entry, hfound, hsetting⟩ := Option.map_eq_some_iff.1 h
    have hentry : entry = (name, setting) :=
      List.inj_on_of_nodup_map settings_nodup (List.mem_of_find?_eq_some hfound) hname hsetting
    have hvar := List.find?_some hfound
    rwa [hentry] at hvar
  · intro h
    cases hfound : Setting.names.find? fun name => strcasecmp var name.1.toList with
    | none => exact absurd h (List.find?_eq_none.1 hfound _ hname)
    | some entry =>
      have hvar := List.find?_some hfound
      rw [strcasecmp, beq_iff_eq] at h hvar
      have hentry : entry = (name, setting) :=
        List.inj_on_of_nodup_map names_nodup (List.mem_of_find?_eq_some hfound) hname
          (hvar.symm.trans h)
      rw [hentry]
      rfl

lemma override_of_none {param : Param} (h : Setting.ofVar param.var = none)
    (profile : UserProfile) : profile.override param = profile := by
  simp only [UserProfile.override, h]

/-- What the parameters leave in a field that `override` writes for one of the settings. -/
lemma override_field {γ : Type} {name : String} {setting : Setting} {get : UserProfile → γ}
    {value : Text → γ} (hname : (name, setting) ∈ Setting.names)
    (hoverride : ∀ profile param setting', Setting.ofVar param.var = some setting' →
      get (UserProfile.override profile param) =
        if setting' = setting then value param.val else get profile)
    (params : List Param) (profile : UserProfile) :
    get ((params.filter (!·.isEmpty)).foldl UserProfile.override profile) =
      ((ownValue params name).map value).getD (get profile) := by
  rw [ownValue, ← List.getLast?_map, List.map_filterMap]
  refine Updating.foldl_overwrite get _ (fun _ => True) ?_ _ trivial
  intro profile _ param
  refine ⟨trivial, ?_⟩
  cases hvar : Setting.ofVar param.var with
  | none =>
    have hname' : ¬ strcasecmp param.var name.toList = true := by
      rw [← ofVar_eq_iff hname, hvar]
      exact (Option.some_ne_none _).symm
    rw [override_of_none hvar, if_neg hname']
    rfl
  | some setting' =>
    rw [hoverride profile param setting' hvar]
    by_cases hname' : strcasecmp param.var name.toList = true
    · have hsame := (ofVar_eq_iff hname _).2 hname'
      rw [hvar, Option.some.injEq] at hsame
      rw [if_pos hsame, if_pos hname']
      rfl
    · have hother : setting' ≠ setting := fun hsame =>
        hname' ((ofVar_eq_iff hname _).1 (hsame ▸ hvar))
      rw [if_neg hother, if_neg hname']
      rfl

/-! ## Both loops -/

/-- The profile that is set up from these parameters. -/
def settled (env : Env) (configs : Configs) (params : List Param) : UserProfile :=
  (params.filter (!·.isEmpty)).foldl UserProfile.override
    ((params.filter (!·.isEmpty)).foldl (applyProfile env) (configs, .defaults)).2

lemma setUserProfile_settled {account : Text × Text} (h : env.users account = some params) :
    (setUserProfile env configs account).2 = some (settled env configs params) := by
  rw [setUserProfile, h]
  rfl

/-- A field that both loops overwrite. -/
lemma settled_field {γ : Type} (name : String) (setting : Setting) (get : UserProfile → γ)
    (value : Text → γ) (given : ConfigProfile → Option γ)
    (hname : (name, setting) ∈ Setting.names)
    (hoverride : ∀ profile param setting', Setting.ofVar param.var = some setting' →
      get (UserProfile.override profile param) =
        if setting' = setting then value param.val else get profile)
    (hborrow : ∀ profile loaded,
      get (profile.borrow loaded) = (given loaded.contents).getD (get profile))
    (env : Env) (configs : Configs) (params : List Param) :
    get (settled env configs params) = precedence ((ownValue params name).map value)
      (configured (namedProfiles env configs params) given) (get .defaults) := by
  rw [settled, override_field hname hoverride, applyProfile_field given hborrow, precedence]

lemma orDefault_eq (n : ℕ) (default : ℤ) :
    UserProfile.orDefault n default = (nonZero n).getD default := by
  rw [UserProfile.orDefault, nonZero]
  split_ifs <;> rfl

lemma text_getD (s : Option Text) (pool : Pool) (default : Str) :
    ((s.map fun text => ⟨text, pool⟩).getD default).text = s.getD default.text := by
  cases s <;> rfl

lemma text_orElse (s : Option Text) (pool : Pool) (default : Option Str) :
    ((s.map fun text => (⟨text, pool⟩ : Str)).orElse fun _ => default).map Str.text =
      (s.map some).getD (default.map Str.text) := by
  cases s <;> rfl

/-- What the two loops leave in the fields that may not follow their precedence. -/
structure UserProfile.Written (profile : UserProfile) (params : List Param)
    (profiles : List ConfigProfile) : Prop where
  callerName : profile.callerName.text =
    precedence (ownValue params "vm-originate-caller-name")
      (configured profiles fun config => config.callerNumber.or config.callerName)
      "0000000000".toList
  callerNumber : profile.callerNumber.text =
    (ownValue params "vm-originate-caller-number").getD "0000000000".toList
  confirmDigits : profile.confirmDigits.text =
    precedence (ownValue params "vm-originate-confirm-digits")
      (configured profiles (·.confirmDigits)) "0".toList
  confirmPlayFile : profile.confirmPlayFile.text =
    precedence (ownValue params "vm-originate-confirm-play-file")
      (configured profiles (·.confirmPlayFile)) []
  dialString : profile.dialString.map Str.text =
    (ownValue params "vm-originate-dial-string").or (configured profiles (·.dialString))
  transfer : profile.transfer.map Str.text =
    (ownValue params "vm-originate-transfer").or (configured profiles (·.transfer))

/-- A text that may be missing. -/
lemma precedence_some (own configured : Option Text) :
    precedence (own.map some) (configured.map some) none = own.or configured := by
  cases own <;> cases configured <;> rfl

lemma configured_map {α β : Type} (profiles : List ConfigProfile)
    (value : ConfigProfile → Option α) (f : α → β) :
    configured profiles (fun config => (value config).map f) =
      (configured profiles value).map f := by
  rw [configured, configured, ← List.map_filterMap, List.getLast?_map]

lemma settled_written (env : Env) (configs : Configs) (params : List Param) :
    (settled env configs params).Written params (namedProfiles env configs params) where
  callerName := by
    have h := settled_field "vm-originate-caller-name" .callerName (·.callerName.text) id
      (fun config => config.callerNumber.or config.callerName)
      (by decide)
      (fun profile param s h => by simp only [UserProfile.override, h]; cases s <;> rfl)
      (fun profile loaded => by
        simp only [UserProfile.borrow, text_getD]
        cases loaded.contents.callerNumber <;> rfl) env configs params
    rwa [Option.map_id] at h
  callerNumber := by
    have h := settled_field "vm-originate-caller-number" .callerNumber (·.callerNumber.text) id
      (fun config => none)
      (by decide)
      (fun profile param s h => by simp only [UserProfile.override, h]; cases s <;> rfl)
      (fun profile loaded => rfl) env configs params
    rw [Option.map_id, configured, List.filterMap_none] at h
    exact h
  confirmDigits := by
    have h := settled_field "vm-originate-confirm-digits" .confirmDigits (·.confirmDigits.text) id
      (·.confirmDigits)
      (by decide)
      (fun profile param s h => by simp only [UserProfile.override, h]; cases s <;> rfl)
      (fun profile loaded => text_getD _ _ _) env configs params
    rwa [Option.map_id] at h
  confirmPlayFile := by
    have h := settled_field "vm-originate-confirm-play-file" .confirmPlayFile
      (·.confirmPlayFile.text) id
      (·.confirmPlayFile)
      (by decide)
      (fun profile param s h => by simp only [UserProfile.override, h]; cases s <;> rfl)
      (fun profile loaded => text_getD _ _ _) env configs params
    rwa [Option.map_id] at h
  dialString := by
    have h := settled_field "vm-originate-dial-string" .dialString (·.dialString.map Str.text) some
      (·.dialString.map some)
      (by decide)
      (fun profile param s h => by simp only [UserProfile.override, h]; cases s <;> rfl)
      (fun profile loaded => text_orElse _ _ _) env configs params
    rw [configured_map] at h
    exact h.trans (precedence_some _ _)
  transfer := by
    have h := settled_field "vm-originate-transfer" .transfer (·.transfer.map Str.text) some
      (·.transfer.map some)
      (by decide)
      (fun profile param s h => by simp only [UserProfile.override, h]; cases s <;> rfl)
      (fun profile loaded => text_orElse _ _ _) env configs params
    rw [configured_map] at h
    exact h.trans (precedence_some _ _)

lemma settled_number (name : String) (setting : Setting) (get : UserProfile → ℤ)
    (given : ConfigProfile → ℕ) (hname : (name, setting) ∈ Setting.names)
    (hoverride : ∀ profile param setting', Setting.ofVar param.var = some setting' →
      get (UserProfile.override profile param) =
        if setting' = setting then atoi param.val else get profile)
    (hborrow : ∀ profile loaded,
      get (profile.borrow loaded) = UserProfile.orDefault (given loaded.contents) (get profile))
    (env : Env) (configs : Configs) (params : List Param) :
    get (settled env configs params) = precedence ((ownValue params name).map atoi)
      (configured (namedProfiles env configs params) (nonZero <| given ·)) (get .defaults) :=
  settled_field name setting get atoi (nonZero <| given ·) hname hoverride
    (fun profile loaded => (hborrow profile loaded).trans (orDefault_eq _ _)) env configs params

/-! ## Empty texts -/

lemma nonEmpty_eq_some {text : Option Text} {t : Text} :
    nonEmpty text = some t ↔ text = some t ∧ t ≠ [] := by
  rw [nonEmpty, Option.filter_eq_some_iff, decide_eq_true_iff]

/-- A value that is not empty. -/
lemma configured_nonEmpty_ne (profiles : List ConfigProfile)
    (value : ConfigProfile → Option Text) :
    configured profiles (nonEmpty <| value ·) ≠ some [] := by
  intro h
  obtain ⟨config, -, hconfig⟩ := List.mem_filterMap.1 (List.mem_of_getLast? h)
  exact (nonEmpty_eq_some.1 hconfig).2 rfl

/-- If the last text is not empty, it is also the last one that is not empty. -/
lemma configured_nonEmpty (profiles : List ConfigProfile) {value : ConfigProfile → Option Text}
    (h : configured profiles value ≠ some []) :
    configured profiles (nonEmpty <| value ·) = configured profiles value := by
  rw [configured, List.getLast?_filterMap] at h ⊢
  rw [configured, List.getLast?_filterMap]
  generalize profiles.reverse = l at h ⊢
  induction l with
  | nil => rfl
  | cons config rest ih =>
    rw [List.findSome?_cons] at h ⊢
    rw [List.findSome?_cons]
    cases hvalue : value config with
    | none =>
      rw [hvalue] at h
      exact ih h
    | some text =>
      rw [hvalue, ne_eq, Option.some.injEq] at h
      rw [nonEmpty_eq_some.2 ⟨rfl, h⟩]

/-- A text where an empty one stands for none. -/
lemma or_nonEmpty_iff (own : Option Text) (profiles : List ConfigProfile)
    (value : ConfigProfile → Option Text) :
    own.or (configured profiles value) = own.or (configured profiles (nonEmpty <| value ·)) ↔
      (own = none → configured profiles value ≠ some []) := by
  cases own with
  | some text => simp
  | none =>
    rw [Option.none_or, Option.none_or]
    refine ⟨fun h _ hempty => ?_, fun h => (configured_nonEmpty profiles (h rfl)).symm⟩
    rw [hempty] at h
    exact configured_nonEmpty_ne profiles value h.symm

lemma precedence_nonEmpty_iff (own : Option Text) (profiles : List ConfigProfile)
    (value : ConfigProfile → Option Text) (default : Text) :
    precedence own (configured profiles value) default =
        precedence own (configured profiles (nonEmpty <| value ·)) default ↔
      (own = none → configured profiles value = some [] →
        default = [] ∧ configured profiles (nonEmpty <| value ·) = none) := by
  cases own with
  | some text => simp [precedence]
  | none =>
    rw [precedence, precedence, Option.getD_none, Option.getD_none]
    constructor
    · intro h _ hempty
      rw [hempty, Option.getD_some] at h
      cases hlast : configured profiles (nonEmpty <| value ·) with
      | none => exact ⟨(hlast ▸ h).symm, rfl⟩
      | some text =>
        rw [hlast, Option.getD_some] at h
        exact absurd (h ▸ hlast) (configured_nonEmpty_ne profiles value)
    · intro h
      by_cases hempty : configured profiles value = some []
      · obtain ⟨hdefault, hlast⟩ := h rfl hempty
        rw [hempty, hlast, hdefault]
        rfl
      · rw [configured_nonEmpty profiles hempty]

/-! ## The settings -/

lemma getD_precedence_iff (own configured : Option Text) (default : Text) :
    own.getD default = precedence own configured default ↔
      (own = none → ∀ text ∈ configured, text = default) := by
  cases own with
  | some text => simp [precedence]
  | none => cases configured <;> simp [precedence, eq_comm]

/-- The flags and the numbers always follow their precedence; what is left are the texts. -/
lemma settled_followsPrecedence_iff (env : Env) (configs : Configs) (params : List Param) :
    (settled env configs params).FollowsPrecedence params (namedProfiles env configs params) ↔
      Uncrossed params (namedProfiles env configs params) := by
  have written := settled_written env configs params
  constructor
  · intro h
    refine ⟨fun hown => ?_, ?_, ?_, ?_, ?_, ?_⟩
    · have hname := written.callerName.symm.trans h.callerName
      rwa [hown] at hname
    · exact (getD_precedence_iff _ _ _).1 (written.callerNumber.symm.trans h.callerNumber)
    · intro hown hempty
      have hdigits := written.confirmDigits.symm.trans h.confirmDigits
      exact absurd ((precedence_nonEmpty_iff _ _ _ _).1 hdigits hown hempty).1 (by decide)
    · exact (or_nonEmpty_iff _ _ _).1 (written.dialString.symm.trans h.dialString)
    · exact (or_nonEmpty_iff _ _ _).1 (written.transfer.symm.trans h.transfer)
    · intro hown hempty
      have hfile := written.confirmPlayFile.symm.trans h.confirmPlayFile
      exact ((precedence_nonEmpty_iff _ _ _ _).1 hfile hown hempty).2
  · intro h
    exact {
      profileEnabled := settled_field "vm-originate-enabled" .enabled (·.profileEnabled)
        (!strcasecmp · "false".toList) (some ·.profileEnabled) (by decide)
        (fun profile param s h => by simp only [UserProfile.override, h]; cases s <;> rfl)
        (fun profile loaded => rfl) env configs params
      enableConfirm := settled_field "vm-originate-enable-confirm" .enableConfirm
        (·.enableConfirm) (strcasecmp · "true".toList) (some ·.enableConfirm) (by decide)
        (fun profile param s h => by simp only [UserProfile.override, h]; cases s <;> rfl)
        (fun profile loaded => rfl) env configs params
      timeout := settled_number "vm-originate-timeout" .timeout (·.timeout) (·.timeout) (by decide)
        (fun profile param s h => by simp only [UserProfile.override, h]; cases s <;> rfl)
        (fun profile loaded => rfl) env configs params
      wait := settled_number "vm-originate-wait" .wait (·.wait) (·.wait) (by decide)
        (fun profile param s h => by simp only [UserProfile.override, h]; cases s <;> rfl)
        (fun profile loaded => rfl) env configs params
      firstWait := settled_number "vm-originate-first-wait" .firstWait (·.firstWait) (·.firstWait)
        (by decide)
        (fun profile param s h => by simp only [UserProfile.override, h]; cases s <;> rfl)
        (fun profile loaded => rfl) env configs params
      attempts := settled_number "vm-originate-attempts" .attempts (·.attempts) (·.attempts)
        (by decide)
        (fun profile param s h => by simp only [UserProfile.override, h]; cases s <;> rfl)
        (fun profile loaded => rfl) env configs params
      confirmWait := settled_number "vm-originate-confirm-wait" .confirmWait (·.confirmWait)
        (·.confirmWait) (by decide)
        (fun profile param s h => by simp only [UserProfile.override, h]; cases s <;> rfl)
        (fun profile loaded => rfl) env configs params
      callerName := written.callerName.trans (by
        cases hown : ownValue params "vm-originate-caller-name" with
        | some text => rfl
        | none => exact h.callerName hown)
      callerNumber :=
        written.callerNumber.trans ((getD_precedence_iff _ _ _).2 h.callerNumber)
      confirmDigits := written.confirmDigits.trans ((precedence_nonEmpty_iff _ _ _ _).2
        fun hown hempty => absurd hempty (h.confirmDigits hown))
      confirmPlayFile := written.confirmPlayFile.trans ((precedence_nonEmpty_iff _ _ _ _).2
        fun hown hempty => ⟨rfl, h.confirmPlayFile hown hempty⟩)
      dialString := written.dialString.trans ((or_nonEmpty_iff _ _ _).2 h.dialString)
      transfer := written.transfer.trans ((or_nonEmpty_iff _ _ _).2 h.transfer) }

/-- **The settings of a user follow their precedence exactly when no caller number of a profile
shows as the caller name or is missed, and no empty text of a profile is in the way.** -/
theorem followsPrecedence_iff (env : Env) (configs : Configs) (account : Text × Text) :
    FollowsPrecedence env configs account ↔
      ∀ params ∈ env.users account, Uncrossed params (namedProfiles env configs params) := by
  refine forall₂_congr fun params hparams => ?_
  rw [setUserProfile_settled hparams, ← settled_followsPrecedence_iff]
  simp

/-- A user with a profile that has a caller number, and no other setting. -/
def numberEnv : Env where
  users _ := some [⟨"vm-originate-profile".toList, "sales".toList⟩]
  file name :=
    if name = "sales".toList then some { callerNumber := some "5551234".toList } else none

/-- The number is shown as the name of the caller, and the number of the caller is the default. -/
theorem not_followsPrecedence_number :
    ¬ FollowsPrecedence numberEnv .init ("1000".toList, "example.com".toList) := by
  intro h
  obtain ⟨profile, hprofile, hfollows⟩ := h _ rfl
  have hsettled : (setUserProfile numberEnv .init ("1000".toList, "example.com".toList)).2 =
      some (settled numberEnv .init _) := setUserProfile_settled rfl
  rw [hprofile, Option.some.injEq] at hsettled
  rw [hsettled] at hfollows
  exact absurd hfollows.callerNumber (by decide +kernel)

end FreeswitchContrib.VoicemailOriginate

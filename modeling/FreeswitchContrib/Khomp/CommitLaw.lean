import FreeswitchContrib.Khomp.ConfigOptions
import Mathlib.Data.List.Nodup

/-!
# What a commit leaves in the variables

Between a reset and a commit the options are set by calls of `process`, of which some may throw.

* `Assigns` — a setter that returns has set the variable and the flag, and one that throws has
  changed nothing.  `process_assigns` is what a call does.
* `settled` — what an option has been set to since the reset.  `processAll_settled` is what a run
  does with it.
* **`commit_law`** — after the commit a variable has the value of the last call that succeeded, or
  the default.
-/

namespace Khomp

open ConfigOptions

/-- The value that a text stands for with an option of this type. -/
def ConfigOption.written (option : ConfigOption) (text : String) : Option Value :=
  match option.type with
  | .sint => (toulong text).toOption.map fun number => .sint number.toUInt32.toInt32
  | .uint => (tolong text).toOption.map fun number => .uint number.toInt32.toUInt32
  | .bool => (toboolean text).toOption.map .bool
  | .string => some (.string text)
  | .function => none

/-- What the variable of the option holds. -/
def ConfigOption.value (option : ConfigOption) (memory : Memory) : Option Value :=
  option.boundTo.map memory

/-- These calls of `process`, one after the other; the caller catches what they throw. -/
def ConfigOptions.processAll : ConfigOptions → List (String × String) → Option ConfigOptions
  | options, [] => some options
  | options, (name, text) :: calls =>
    match options.process name text with
    | .returned options => options.processAll calls
    | .thrown _ options => options.processAll calls
    | .killed => none

/-- What the last of these calls that succeeds for the option of this name sets it to. -/
def ConfigOptions.lastSet (name : String) : ConfigOptions → List (String × String) → Option Value
  | _, [] => none
  | options, (called, text) :: calls =>
    match options.process called text with
    | .returned after =>
      (after.lastSet name calls).or ((options.findOption called).bind fun option =>
        if option.myName = name then option.written text else none)
    | .thrown _ after => after.lastSet name calls
    | .killed => none

/-- No other option is bound to the variable of this one. -/
def ConfigOptions.Unshared (options : ConfigOptions) (option : ConfigOption) : Prop :=
  ∀ other ∈ options.map, other.myName ≠ option.myName → other.boundTo ≠ option.boundTo

/-- The options are integers, booleans and strings. -/
def ConfigOptions.Plain (options : ConfigOptions) : Prop :=
  ∀ option ∈ options.map, option.type ≠ .function

/-- The step is not one by which a division traps. -/
def ConfigOption.Steps (option : ConfigOption) : Prop :=
  match option.valueData with
  | .sintData _ _ sintRange => sintRange.step ≠ 0 ∧ sintRange.step ≠ -1
  | .uintData _ _ uintRange => uintRange.step ≠ 0
  | _ => True

/-! ## What a setter does -/

/-- It has set the variable to this value and the flag, or it has thrown and changed nothing. -/
def Assigns (option : ConfigOption) (memory : Memory) (value : Value) :
    Outcome (ConfigOption × Memory) → Prop
  | .returned (option', memory') => ∃ v, option.boundTo = some v ∧
      option' = { option with loaded := true } ∧ memory' = Function.update memory v value
  | .thrown _ (option', memory') => option' = option ∧ memory' = memory
  | .killed => ¬ option.Steps

section Setters

variable {option : ConfigOption} {memory : Memory}

lemma assign_assigns {v : ℕ} {value : Value} (h : option.boundTo = some v) :
    Assigns option memory value (option.assign memory v value) :=
  ⟨v, h, rfl, rfl⟩

lemma setNumber_assigns {number : Type} [LT number] [DecidableLT number] [Sub number]
    [Zero number] [DecidableEq number] {rest : number → number → Option number}
    {format : number → String} {stored : number → Value} {v : ℕ} {range : Range number}
    {value : number} (h : option.boundTo = some v)
    (hrest : ∀ dividend, rest dividend range.step = none → ¬ option.Steps) :
    Assigns option memory (stored value)
      (ConfigOption.setNumber rest format stored v range value option memory) := by
  unfold ConfigOption.setNumber
  dsimp only
  split_ifs
  · exact ⟨rfl, rfl⟩
  · exact ⟨rfl, rfl⟩
  · split
    next hnone => exact hrest _ hnone
    next =>
      split_ifs
      · exact ⟨rfl, rfl⟩
      · exact assign_assigns h

lemma setSint_assigns (value : Int32) :
    Assigns option memory (.sint value) (option.setSint value memory) := by
  unfold ConfigOption.setSint
  split
  next hdata =>
    refine setNumber_assigns (by rw [ConfigOption.boundTo, hdata]; rfl) fun dividend hnone => ?_
    unfold ConfigOption.sintRest at hnone
    split_ifs at hnone with htraps
    rw [ConfigOption.Steps, hdata]
    rintro ⟨hzero, hminus⟩
    exact htraps.elim hzero fun h => hminus h.2
  next => exact ⟨rfl, rfl⟩

lemma setUint_assigns (value : UInt32) :
    Assigns option memory (.uint value) (option.setUint value memory) := by
  unfold ConfigOption.setUint
  split
  next hdata =>
    refine setNumber_assigns (by rw [ConfigOption.boundTo, hdata]; rfl) fun dividend hnone => ?_
    unfold ConfigOption.uintRest at hnone
    split_ifs at hnone with htraps
    rw [ConfigOption.Steps, hdata]
    exact fun hzero => hzero htraps
  next => exact ⟨rfl, rfl⟩

lemma setBool_assigns (value : Bool) :
    Assigns option memory (.bool value) (option.setBool value memory) := by
  unfold ConfigOption.setBool
  split
  next hdata => exact assign_assigns (by rw [ConfigOption.boundTo, hdata]; rfl)
  next => exact ⟨rfl, rfl⟩

lemma setString_assigns (value : String) (h : option.type ≠ .function) :
    Assigns option memory (.string value) (option.setString value memory) := by
  unfold ConfigOption.setString
  split
  next hdata =>
    split_ifs
    · exact assign_assigns (by rw [ConfigOption.boundTo, hdata]; rfl)
    · exact assign_assigns (by rw [ConfigOption.boundTo, hdata]; rfl)
    · exact ⟨rfl, rfl⟩
  next hdata => exact absurd (by rw [ConfigOption.type, hdata]; rfl) h
  next => exact ⟨rfl, rfl⟩

end Setters

/-! ## What a call does -/

namespace ConfigOptions

variable {options after : ConfigOptions} {option : ConfigOption} {name text : String}

/-- An option is the one that has its name. -/
lemma eq_of_name (options : ConfigOptions) {a b : ConfigOption} (ha : a ∈ options.map)
    (hb : b ∈ options.map) (h : a.myName = b.myName) : a = b := by
  have hnodup : (options.map.map ConfigOption.myName).Nodup :=
    List.pairwise_map.2 (options.ordered.imp fun hlt => ne_of_lt hlt)
  exact List.inj_on_of_nodup_map hnodup ha hb h

lemma find_some (h : options.find name = some option) :
    option ∈ options.map ∧ option.myName = name :=
  ⟨List.mem_of_find?_eq_some h, by simpa using List.find?_some h⟩

lemma findOption_mem (h : options.findOption name = some option) : option ∈ options.map := by
  unfold findOption at h
  split at h
  · exact (find_some h).1
  · exact (find_some h).1

lemma find_of_mem (h : option ∈ options.map) : options.find option.myName = some option := by
  obtain ⟨other, hother⟩ := Option.isSome_iff_exists.1
    (List.find?_isSome.2 ⟨option, h, by simp⟩ : (options.find option.myName).isSome)
  have hfound := find_some hother
  rw [options.eq_of_name hfound.1 h hfound.2] at hother
  exact hother

lemma put_self (h : option ∈ options.map) : options.put option options.memory = options := by
  have hmap : (options.map.map fun x => if x.myName = option.myName then option else x) =
      options.map := by
    conv_rhs => rw [← List.map_id options.map]
    refine List.map_congr_left fun x hx => ?_
    split_ifs with hname
    · exact options.eq_of_name h hx hname.symm
    · rfl
  cases options
  simp only [put] at hmap ⊢
  simp only [hmap]

/-- The call has set this option to the value, or has thrown and changed nothing. -/
def Sets (options : ConfigOptions) (option : ConfigOption) (value : Option Value) :
    Outcome ConfigOptions → Prop
  | .returned after => ∃ v set, option.boundTo = some v ∧ value = some set ∧
      after = options.put { option with loaded := true } (Function.update options.memory v set)
  | .thrown _ after => after = options
  | .killed => ¬ option.Steps

lemma set_sets {value : Value} {setValue : ConfigOption → Memory → Outcome (ConfigOption × Memory)}
    (hmem : option ∈ options.map)
    (h : Assigns option options.memory value (setValue option options.memory)) :
    options.Sets option (some value) (options.set option.myName setValue) := by
  rw [ConfigOptions.set, find_of_mem hmem]
  dsimp only
  cases hset : setValue option options.memory with
  | returned result =>
    rw [hset] at h
    obtain ⟨v, hv, hoption, hmemory⟩ := h
    exact ⟨v, value, hv, rfl, by dsimp only; rw [hoption, hmemory]⟩
  | thrown exception result =>
    rw [hset] at h
    obtain ⟨hoption, hmemory⟩ := h
    show options.put _ _ = _
    rw [hoption, hmemory, put_self hmem]
  | killed =>
    rw [hset] at h
    exact h

lemma setConverted_sets {α : Type} {value : Except Thrown α} {stored : α → Value}
    {setValue : α → ConfigOption → Memory → Outcome (ConfigOption × Memory)}
    (hmem : option ∈ options.map) (h : ∀ converted, Assigns option options.memory
      (stored converted) (setValue converted option options.memory)) :
    options.Sets option (value.toOption.map stored)
      (options.setConverted option.myName value setValue) := by
  cases value with
  | ok converted => exact set_sets hmem (h converted)
  | error exception => rfl

lemma processTyped_sets (text : String) (hmem : option ∈ options.map) (h : option.type ≠ .function) :
    options.Sets option (option.written text) (options.processTyped option text) := by
  unfold processTyped ConfigOption.written
  cases htype : option.type with
  | sint => exact setConverted_sets hmem fun _ => setSint_assigns _
  | uint => exact setConverted_sets hmem fun _ => setUint_assigns _
  | bool => exact setConverted_sets hmem fun _ => setBool_assigns _
  | string => exact set_sets hmem (setString_assigns text h)
  | function => exact absurd htype h

/-- **A call sets the option that it finds, or changes nothing.** -/
theorem process_sets (hplain : options.Plain) (name text : String) :
    match options.process name text with
    | .returned after => ∃ option, options.findOption name = some option ∧
        options.Sets option (option.written text) (.returned after)
    | .thrown _ after => after = options
    | .killed => ∃ option ∈ options.map, ¬ option.Steps := by
  unfold process
  cases hfound : options.findOption name with
  | none => rfl
  | some option =>
    have hmem := findOption_mem hfound
    have hsets := processTyped_sets text hmem (hplain option hmem)
    dsimp only
    cases houtcome : options.processTyped option text with
    | returned after =>
      rw [houtcome] at hsets
      exact ⟨option, rfl, hsets⟩
    | thrown exception after =>
      rw [houtcome] at hsets
      cases exception <;> exact hsets
    | killed =>
      rw [houtcome] at hsets
      exact ⟨option, hmem, hsets⟩

/-! ## What a run does -/

lemma put_registered {memory : Memory} {x : ConfigOption} (h : option ∈ options.map)
    (hx : x ∈ (options.put { option with loaded := true } memory).map) :
    ∃ y ∈ options.map, x.myName = y.myName ∧ x.valueData = y.valueData := by
  obtain ⟨y, hy, rfl⟩ := List.mem_map.1 hx
  split_ifs
  · exact ⟨option, h, rfl, rfl⟩
  · exact ⟨y, hy, rfl, rfl⟩

lemma Plain.put {memory : Memory} (hplain : options.Plain) (h : option ∈ options.map) :
    (options.put { option with loaded := true } memory).Plain := by
  intro x hx
  obtain ⟨y, hy, -, hdata⟩ := put_registered h hx
  rw [ConfigOption.type, hdata]
  exact hplain y hy

lemma Unshared.put {memory : Memory} {x : ConfigOption} (hunshared : options.Unshared x)
    (h : option ∈ options.map) :
    (options.put { option with loaded := true } memory).Unshared x := by
  intro other hother hne
  obtain ⟨y, hy, hname, hdata⟩ := put_registered h hother
  rw [ConfigOption.boundTo, hdata]
  exact hunshared y hy (hname ▸ hne)

/-- What the option has been set to: its flag is set, and its variable holds that. -/
def Settled (options : ConfigOptions) (x : ConfigOption) (set : Option Value) : Prop :=
  { x with loaded := set.isSome } ∈ options.map ∧
    ∀ value ∈ set, x.value options.memory = some value

/-- A call that succeeds for the option settles it, and one for another option leaves it. -/
lemma Settled.put {x : ConfigOption} {set : Option Value} {v : ℕ} {value : Value}
    (hx : options.Settled x set) (hunshared : options.Unshared x) (h : option ∈ options.map)
    (hv : option.boundTo = some v) :
    (options.put { option with loaded := true } (Function.update options.memory v value)).Settled x
      (if option.myName = x.myName then some value else set) := by
  obtain ⟨hmem, hvalue⟩ := hx
  split_ifs with hname
  · have hoption : option = { x with loaded := set.isSome } := options.eq_of_name h hmem hname
    refine ⟨List.mem_map.2 ⟨option, h, ?_⟩, ?_⟩
    · rw [if_pos rfl, hoption]
      rfl
    · intro value' hvalue'
      obtain rfl := Option.some.inj hvalue'
      have hbound : x.boundTo = some v := by
        rw [hoption] at hv
        exact hv
      rw [ConfigOption.value, hbound, Option.map_some, put_memory, Function.update_self]
  · refine ⟨List.mem_map.2 ⟨_, hmem, if_neg (Ne.symm hname)⟩, fun set hset => ?_⟩
    rw [← hvalue set hset]
    cases hbound : x.boundTo with
    | none => rw [ConfigOption.value, ConfigOption.value, hbound]; rfl
    | some u =>
      have hne : u ≠ v := by
        rintro rfl
        exact hunshared option h hname (hv.trans hbound.symm)
      rw [ConfigOption.value, ConfigOption.value, hbound, Option.map_some, put_memory,
        Function.update_of_ne hne, Option.map_some]

/-- **A run settles the options**, each by the last call that succeeds for it. -/
theorem processAll_settled {calls : List (String × String)} (hplain : options.Plain)
    (hrun : options.processAll calls = some after) :
    after.Plain ∧ ∀ x set, options.Unshared x → options.Settled x set →
      after.Unshared x ∧ after.Settled x ((options.lastSet x.myName calls).or set) := by
  induction calls generalizing options with
  | nil =>
    cases hrun
    exact ⟨hplain, fun x set hunshared hx => ⟨hunshared, hx⟩⟩
  | cons call calls ih =>
    obtain ⟨name, text⟩ := call
    have hsets := process_sets hplain name text
    rw [processAll] at hrun
    cases houtcome : options.process name text with
    | returned next =>
      rw [houtcome] at hsets hrun
      obtain ⟨option, hfound, v, value, hv, hwritten, rfl⟩ := hsets
      have hmem := findOption_mem hfound
      obtain ⟨hplainAfter, hafter⟩ := ih (hplain.put hmem) hrun
      refine ⟨hplainAfter, fun x set hunshared hx => ?_⟩
      have hnext := hafter x _ (hunshared.put hmem) (hx.put hunshared hmem hv)
      rw [lastSet, houtcome]
      dsimp only
      rw [hfound, Option.bind_some, hwritten, Option.or_assoc]
      split_ifs at hnext ⊢
      · exact hnext
      · exact hnext
    | thrown exception next =>
      rw [houtcome] at hsets hrun
      subst hsets
      obtain ⟨hplainAfter, hafter⟩ := ih hplain hrun
      refine ⟨hplainAfter, fun x set hunshared hx => ?_⟩
      rw [lastSet, houtcome]
      exact hafter x set hunshared hx
    | killed =>
      rw [houtcome] at hrun
      cases hrun

/-- Calls that divide by no step that traps do not end the program. -/
lemma processAll_isSome {calls : List (String × String)} (hplain : options.Plain)
    (hsteps : ∀ option ∈ options.map, option.Steps) : (options.processAll calls).isSome := by
  induction calls generalizing options with
  | nil => rfl
  | cons call calls ih =>
    obtain ⟨name, text⟩ := call
    have hsets := process_sets hplain name text
    rw [processAll]
    cases houtcome : options.process name text with
    | returned next =>
      rw [houtcome] at hsets
      obtain ⟨option, hfound, v, value, hv, hwritten, rfl⟩ := hsets
      have hmem := findOption_mem hfound
      refine ih (hplain.put hmem) fun x hx => ?_
      obtain ⟨y, hy, -, hdata⟩ := put_registered hmem hx
      rw [ConfigOption.Steps, hdata]
      exact hsteps y hy
    | thrown exception next =>
      rw [houtcome] at hsets
      subst hsets
      exact ih hplain hsteps
    | killed =>
      rw [houtcome] at hsets
      obtain ⟨option, hmem, hno⟩ := hsets
      exact absurd (hsteps option hmem) hno

/-! ## What a reset and a commit do -/

lemma reset_registered {x : ConfigOption} (hx : x ∈ options.reset.map) :
    ∃ y ∈ options.map, x.myName = y.myName ∧ x.valueData = y.valueData := by
  obtain ⟨y, hy, rfl⟩ := List.mem_map.1 hx
  exact ⟨y, hy, rfl, rfl⟩

lemma reset_settled (h : option ∈ options.map) : options.reset.Settled option none :=
  ⟨List.mem_map.2 ⟨option, h, rfl⟩, fun _ hvalue => by cases hvalue⟩

/-- The variables when this option has got its default. -/
def settle (memory : Memory) (option : ConfigOption) : Memory :=
  match option.loaded, option.boundTo, option.valueData.default with
  | false, some v, some value => Function.update memory v value
  | _, _, _ => memory

lemma commit_option {memory : Memory} (h : option.type ≠ .function) :
    option.commit memory = .returned ({ option with loaded := true }, settle memory option) := by
  obtain ⟨name, data, loaded⟩ := option
  cases loaded with
  | true => rfl
  | false =>
    cases data with
    | funData funVal funDefault => exact absurd rfl h
    | _ => rfl

lemma commitLoop_returned {todo : List ConfigOption} (options : ConfigOptions)
    (msgs : List String)
    (h : ∀ option ∈ todo, option.type ≠ .function) :
    ∃ committed, commitLoop todo options msgs = .returned (committed, msgs) ∧
      committed.memory = todo.foldl settle options.memory := by
  induction todo generalizing options with
  | nil => exact ⟨options, rfl, rfl⟩
  | cons option rest ih =>
    obtain ⟨committed, hloop, hmemory⟩ :=
      ih (options.put { option with loaded := true } (settle options.memory option))
        fun x hx => h x (List.mem_cons_of_mem _ hx)
    refine ⟨committed, ?_, hmemory⟩
    rw [commitLoop, commit_option (h option List.mem_cons_self)]
    exact hloop

lemma settle_of_ne {memory : Memory} {v : ℕ} (h : option.boundTo ≠ some v) :
    settle memory option v = memory v := by
  unfold settle
  cases hbound : option.boundTo with
  | none => cases option.loaded <;> rfl
  | some u =>
    have hne : v ≠ u := by
      rintro rfl
      exact h hbound
    cases option.loaded with
    | true => rfl
    | false =>
      cases option.valueData.default with
      | none => rfl
      | some value => exact Function.update_of_ne hne value memory

/-- Options that are bound to other variables leave this one. -/
lemma foldl_settle {todo : List ConfigOption} {memory : Memory} {v : ℕ}
    (h : ∀ option ∈ todo, option.boundTo ≠ some v) : todo.foldl settle memory v = memory v := by
  induction todo generalizing memory with
  | nil => rfl
  | cons option rest ih =>
    rw [List.foldl_cons, ih fun x hx => h x (List.mem_cons_of_mem _ hx),
      settle_of_ne (h option List.mem_cons_self)]

lemma bound_of_type (h : option.type ≠ .function) :
    ∃ v value, option.boundTo = some v ∧ option.valueData.default = some value := by
  obtain ⟨name, data, loaded⟩ := option
  cases data with
  | funData funVal funDefault => exact absurd rfl h
  | _ => exact ⟨_, _, rfl, rfl⟩

/-- A commit gives the option what it has been set to, or its default. -/
lemma commit_settled {committed : ConfigOptions} {x : ConfigOption} {set : Option Value}
    (hplain : options.Plain) (hunshared : options.Unshared x) (hx : options.Settled x set)
    (hmemory : committed.memory = options.map.foldl settle options.memory) :
    x.value committed.memory = set.or x.valueData.default := by
  obtain ⟨hmem, hvalue⟩ := hx
  obtain ⟨v, value, hbound, hdefault⟩ := bound_of_type (hplain _ hmem)
  obtain ⟨before, rest, hmap⟩ := List.append_of_mem hmem
  have hordered := hmap ▸ options.ordered
  have hbefore : ∀ option ∈ before, option.boundTo ≠ some v := by
    intro option hoption
    rw [← hbound]
    refine hunshared option (by simp [hmap, hoption]) (ne_of_lt ?_)
    exact (List.pairwise_append.1 hordered).2.2 option hoption
      { x with loaded := set.isSome } List.mem_cons_self
  have hrest : ∀ option ∈ rest, option.boundTo ≠ some v := by
    intro option hoption
    rw [← hbound]
    refine hunshared option (by simp [hmap, hoption]) (ne_of_gt ?_)
    exact (List.pairwise_cons.1 (List.pairwise_append.1 hordered).2.1).1 option hoption
  have hv : x.value committed.memory = some (settle (before.foldl settle options.memory)
      { x with loaded := set.isSome } v) := by
    have hboundX : x.boundTo = some v := hbound
    rw [ConfigOption.value, hboundX, hmemory, hmap, List.foldl_append, List.foldl_cons,
      Option.map_some, foldl_settle hrest]
  rw [hv]
  cases set with
  | none =>
    have hsettle (memory : Memory) :
        settle memory { x with loaded := false } = Function.update memory v value := by
      unfold settle
      rw [show ({ x with loaded := false } : ConfigOption).boundTo = some v from hbound]
      rw [show x.valueData.default = some value from hdefault]
    have hdefaultX : x.valueData.default = some value := hdefault
    rw [Option.isSome_none, hsettle, Function.update_self, Option.none_or, hdefaultX]
  | some value' =>
    have hboundX : x.boundTo = some v := hbound
    have hkept := hvalue value' rfl
    rw [ConfigOption.value, hboundX] at hkept
    rw [Option.some_or, ← hkept, Option.map_some]
    exact congrArg some (foldl_settle hbefore)

/-! ## The law -/

/-- **The commit law.**  A call that throws changes nothing.  A run of calls after a reset comes to
its end when no step traps, and the commit behind it gives every option, where no other one is bound
to its variable, what the last call that succeeded for it has set it to, or its default. -/
theorem commit_law (options : ConfigOptions) (hplain : options.Plain)
    (calls : List (String × String)) :
    (∀ name text exception after, options.process name text = .thrown exception after →
      after = options) ∧
    ((∀ option ∈ options.map, option.Steps) → (options.reset.processAll calls).isSome) ∧
    ∀ after, options.reset.processAll calls = some after →
      ∃ committed, after.commit = .returned (committed, []) ∧
        ∀ option ∈ options.map, options.Unshared option →
          option.value committed.memory =
            (options.reset.lastSet option.myName calls).or option.valueData.default := by
  have hplainReset : options.reset.Plain := by
    intro x hx
    obtain ⟨y, hy, -, hdata⟩ := reset_registered hx
    rw [ConfigOption.type, hdata]
    exact hplain y hy
  refine ⟨fun name text exception after houtcome => ?_, fun hsteps => ?_, fun after hrun => ?_⟩
  · have hsets := process_sets hplain name text
    rw [houtcome] at hsets
    exact hsets
  · refine processAll_isSome hplainReset fun x hx => ?_
    obtain ⟨y, hy, -, hdata⟩ := reset_registered hx
    rw [ConfigOption.Steps, hdata]
    exact hsteps y hy
  · obtain ⟨hplainAfter, hafter⟩ := processAll_settled hplainReset hrun
    obtain ⟨committed, hcommit, hmemory⟩ :=
      commitLoop_returned after [] hplainAfter
    refine ⟨committed, hcommit, fun option hmem hunshared => ?_⟩
    have hunsharedReset : options.reset.Unshared option := by
      intro other hother hne
      obtain ⟨y, hy, hname, hdata⟩ := reset_registered hother
      rw [ConfigOption.boundTo, hdata]
      exact hunshared y hy (hname ▸ hne)
    obtain ⟨hunsharedAfter, hsettled⟩ := hafter option none hunsharedReset (reset_settled hmem)
    rw [commit_settled hplainAfter hunsharedAfter hsettled hmemory, Option.or_none]

/-- A number of ports with an old name, and a mode. -/
def portsAndMode : ConfigOptions where
  map := [⟨"mode", .stringData 1 "fxo" ["fxo", "fxs"], true⟩,
    ⟨"ports", .sintData 0 4 ⟨0, 30, 2⟩, false⟩]
  synMap := [("channels", "ports")]
  memory := fun _ => .string ""
  ordered := by decide

/-- The second call is the last one that succeeds, since seven is outside the step, and nothing sets
the mode. -/
theorem commit_law_portsAndMode :
    ∃ after committed,
      portsAndMode.reset.processAll [("ports", "6"), ("channels", "8"), ("ports", "7")] =
        some after ∧ after.commit = .returned (committed, []) ∧
      committed.memory 0 = .sint 8 ∧ committed.memory 1 = .string "fxo" := by
  have hplain : portsAndMode.Plain := by
    simp [Plain, portsAndMode, ConfigOption.type, ValueData.which]
  obtain ⟨-, hruns, hcommits⟩ :=
    commit_law portsAndMode hplain [("ports", "6"), ("channels", "8"), ("ports", "7")]
  have hsteps : ∀ option ∈ portsAndMode.map, option.Steps := by
    simp [portsAndMode, ConfigOption.Steps]
  obtain ⟨after, hafter⟩ := Option.isSome_iff_exists.1 (hruns hsteps)
  obtain ⟨committed, hcommit, hvalue⟩ := hcommits after hafter
  refine ⟨after, committed, hafter, hcommit, ?_, ?_⟩
  · have hports := hvalue ⟨"ports", .sintData 0 4 ⟨0, 30, 2⟩, false⟩ (by simp [portsAndMode])
      (by simp [Unshared, portsAndMode, ConfigOption.boundTo, ValueData.boundTo])
    exact Option.some.inj (hports.trans (by decide))
  · have hmode := hvalue ⟨"mode", .stringData 1 "fxo" ["fxo", "fxs"], true⟩ (by simp [portsAndMode])
      (by simp [Unshared, portsAndMode, ConfigOption.boundTo, ValueData.boundTo])
    exact Option.some.inj (hmode.trans (by decide))

/-- Two options of one variable: the commit leaves the default of the second one in it. -/
theorem shared_variable_committed :
    ¬ ∀ options : ConfigOptions, options.Plain → ∀ calls after,
      options.reset.processAll calls = some after →
        ∃ committed, after.commit = .returned (committed, []) ∧
          ∀ option ∈ options.map, option.value committed.memory =
            (options.reset.lastSet option.myName calls).or option.valueData.default := by
  intro h
  let options : ConfigOptions :=
    { map := [⟨"a", .boolData 0 false, false⟩, ⟨"b", .boolData 0 true, false⟩]
      synMap := []
      memory := fun _ => .bool false
      ordered := by decide }
  have hplain : options.Plain := by
    simp [Plain, options, ConfigOption.type, ValueData.which]
  obtain ⟨committed, hcommit, hvalue⟩ := h options hplain [] options.reset rfl
  have ha : some (committed.memory 0) = some (.bool false) :=
    hvalue ⟨"a", .boolData 0 false, false⟩ (by simp [options])
  have hb : some (committed.memory 0) = some (.bool true) :=
    hvalue ⟨"b", .boolData 0 true, false⟩ (by simp [options])
  exact absurd (ha.symm.trans hb) (by decide)

end ConfigOptions

end Khomp

import FreeswitchContrib.Library.Exclusion
import FreeswitchContrib.Library.Interleaving
import FreeswitchContrib.Library.OrderedMap
import Mathlib.Data.Char
import Mathlib.Data.List.Lex

/-!
# Translations and reloads of `mod_translate`

`translate_number`, `do_unload` and `do_load` step by step, for any number of translations.  `MUTEX`
lets the reloads go one after the other; a translation takes the lock of the hash for the lookup only.

`do_unload` tests `rl` before it has a value.  Where that is NULL the rules are not freed; otherwise
the first one is, and as `switch_safe_free` leaves NULL in `rl` the loop ends there.

* `Invisible` — no translation has read what was freed or destroyed, and each result is the one of a
  configuration that there was meanwhile.
* `Careful` — what a lookup, and a reload that frees a rule, would have to look at.
* **`reloads_invisible`** — with such steps it comes to that.
-/

namespace FreeswitchContrib.ModTranslate

open Exclusion Interleaving

abbrev Text := List Char

/-! ## Configurations -/

/-- `translate_rule_t` -/
structure Rule where
  regex : Text
  replace : Text
  deriving DecidableEq

structure Profile where
  name : Text
  rules : List Rule
  deriving DecidableEq

/-- The profiles of the configuration file. -/
abbrev Configuration := List Profile

/-- What the core does for a translation. -/
structure Core (Session : Type) where
  /-- `switch_regex_perform`, for a number and a regular expression -/
  regexPerform : Text → Text → Bool
  /-- `switch_perform_substitution`, for a regular expression, a replacement and a number -/
  performSubstitution : Text → Text → Text → Text
  /-- the expansion of variables or headers, where there are any -/
  expand : Session → Text → Text

/-- The arguments of `translate_number`. -/
structure Call (Session : Type) where
  number : Text
  profile : Option Text
  /-- the session or the event -/
  session : Session

variable {Session : Type}

def Call.profileName (call : Call Session) : Text := call.profile.getD "US".toList

/-- The rules of the last profile with this name. -/
def Configuration.rules (config : Configuration) (name : Text) : List Rule :=
  ((config.filter (·.name = name)).getLast?).elim [] Profile.rules

variable (core : Core Session)

/-- The number that a rule makes. -/
def translated (call : Call Session) (rule : Rule) : Text :=
  core.expand call.session (core.performSubstitution rule.regex rule.replace call.number)

/-- The number that the first of the rules makes that matches. -/
def firstMatch (call : Call Session) (rules : List Rule) : Option Text :=
  (rules.find? fun rule => core.regexPerform call.number rule.regex).map (translated core call)

/-- The translation that a configuration gives. -/
def Configuration.translation (config : Configuration) (call : Call Session) : Option Text :=
  firstMatch core call (config.rules call.profileName)

/-! ## Translations and reloads -/

/-- A list of rules in memory. -/
structure RuleList where
  rules : List Rule
  /-- how many of them were freed -/
  freed : ℕ

/-- Where a translation is. -/
inductive Phase where
  /-- before `switch_core_hash_find_rdlock` -/
  | calling
  /-- before the rule of this number is read -/
  | visiting (list i : ℕ)
  /-- the rule matches -/
  | substituting (list i : ℕ)
  | done (result : Option Text)
  deriving DecidableEq

structure Translation (Session : Type) where
  call : Call Session
  /-- the configuration at the time of the call, and those that were opened since -/
  configs : List Configuration
  phase : Phase

def Phase.running : Phase → Bool
  | .done _ => false
  | _ => true

/-- Where the reload is. -/
inductive Reload where
  | idle
  /-- before `switch_hash_first` -/
  | unloading
  /-- the rules of a profile are freed, before it is removed -/
  | freeing (key : Text) (list : ℕ)
  /-- NULL was dereferenced -/
  | crashed
  | lockDestroyed
  | hashDestroyed
  | hashCreated
  /-- before `switch_xml_open_cfg` -/
  | opening
  /-- with these profiles left -/
  | loading (config : Configuration) (left : List Profile)
  deriving DecidableEq

/-- What a translation has read. -/
inductive Fault where
  | destroyedLock
  | destroyedHash
  | freedRule (list i : ℕ)
  deriving DecidableEq

structure State (Session : Type) where
  lists : List RuleList
  /-- `globals.translate_profiles` -/
  hash : Option (OrderedMap Text ℕ)
  /-- `globals.profile_hash_rwlock` is there -/
  lock : Bool
  reload : Reload
  /-- the configuration that was loaded last -/
  config : Configuration
  translations : List (Translation Session)
  faults : List Fault

/-- The module loads its first configuration. -/
def State.init (config : Configuration) : State Session :=
  ⟨[], some .empty, true, .loading config config, config, [], []⟩

inductive Action (Session : Type) where
  | call (call : Call Session)
  | lookup (t : ℕ)
  | visit (t : ℕ)
  | substitute (t : ℕ)
  /-- an event of `RELOADXML` comes to `do_unload` -/
  | reloadXml
  /-- the profile that `switch_hash_first` gives, and whether `rl` happens to have a value -/
  | unloadProfile (key : Text) (rl : Bool)
  | freeRule
  /-- the lock or the hash is destroyed or created -/
  | goOn
  | openConfig (config : Option Configuration)
  | loadProfile

namespace State

variable (s : State Session)

def goto (t : ℕ) (translation : Translation Session) (phase : Phase) : State Session :=
  { s with translations := s.translations.set t { translation with phase := phase } }

def fault (f : Fault) : State Session := { s with faults := s.faults ++ [f] }

/-- The configuration that is loaded now. -/
def opened : Option Configuration :=
  match s.reload with
  | .loading config _ => some config
  | _ => none

def call (call : Call Session) : State Session :=
  { s with translations := s.translations ++ [⟨call, s.config :: s.opened.toList, .calling⟩] }

/-- `switch_core_hash_find_rdlock`; an empty list of rules is NULL. -/
def lookup (t : ℕ) (translation : Translation Session) : State Session :=
  if s.lock = false then (s.fault .destroyedLock).goto t translation (.done none)
  else match s.hash with
    | none => (s.fault .destroyedHash).goto t translation (.done none)
    | some hash =>
      match hash.find? translation.call.profileName with
      | none => s.goto t translation (.done none)
      | some list =>
        if (s.lists[list]?).any (!·.rules.isEmpty) then s.goto t translation (.visiting list 0)
        else s.goto t translation (.done none)

/-- One turn of the loop over the rules. -/
def visit (t : ℕ) (translation : Translation Session) (list i : ℕ) (l : RuleList) :
    State Session :=
  if i < l.freed then (s.fault (.freedRule list i)).goto t translation (.done none)
  else match l.rules[i]? with
    | none => s.goto t translation (.done none)
    | some rule =>
      if core.regexPerform translation.call.number rule.regex then
        s.goto t translation (.substituting list i)
      else if i + 1 < l.rules.length then s.goto t translation (.visiting list (i + 1))
      else s.goto t translation (.done none)

def substitute (t : ℕ) (translation : Translation Session) (list i : ℕ) (l : RuleList) :
    State Session :=
  if i < l.freed then (s.fault (.freedRule list i)).goto t translation (.done none)
  else match l.rules[i]? with
    | none => s.goto t translation (.done none)
    | some rule => s.goto t translation (.done (some (translated core translation.call rule)))

/-- The profile is removed; with a value in `rl` its rules are freed before that. -/
def unloadProfile (hash : OrderedMap Text ℕ) (key : Text) (list : ℕ) (rl : Bool) : State Session :=
  if rl then { s with reload := .freeing key list }
  else { s with hash := some (hash.erase key) }

/-- `switch_safe_free` of the first rule and its strings, and the removal of the profile; without a
rule `nrl->next` dereferences NULL. -/
def freeRule (key : Text) (list : ℕ) (l : RuleList) : State Session :=
  if l.freed < l.rules.length then
    { s with
      lists := s.lists.set list { l with freed := l.freed + 1 }
      hash := s.hash.map (·.erase key)
      reload := .unloading }
  else { s with reload := .crashed }

/-- The rest of `do_unload` and the beginning of `do_load`. -/
def goOn : Option (State Session) :=
  match s.reload with
  | .unloading =>
    if s.hash.all (·.isEmpty) then some { s with lock := false, reload := .lockDestroyed } else none
  | .lockDestroyed => some { s with hash := none, reload := .hashDestroyed }
  | .hashDestroyed => some { s with hash := some .empty, reload := .hashCreated }
  | .hashCreated => some { s with lock := true, reload := .opening }
  | _ => none

/-- `switch_xml_open_cfg`, without which nothing is loaded. -/
def openConfig : Option Configuration → State Session
  | none => { s with reload := .idle }
  | some config =>
    { s with
      reload := .loading config config
      translations := s.translations.map fun translation =>
        if translation.phase.running then
          { translation with configs := translation.configs ++ [config] }
        else translation }

/-- The next profile is put into the hash, or the reload is over. -/
def loadProfile (config : Configuration) : List Profile → State Session
  | [] => { s with reload := .idle, config := config }
  | profile :: left =>
    { s with
      lists := s.lists ++ [⟨profile.rules, 0⟩]
      hash := s.hash.map (·.insert profile.name s.lists.length)
      reload := .loading config left }

end State

/-- One step of a process that has not crashed. -/
def State.step (s : State Session) : Action Session → Option (State Session)
  | .call call => some (s.call call)
  | .lookup t =>
    s.translations[t]?.bind fun translation =>
      match translation.phase with
      | .calling => some (s.lookup t translation)
      | _ => none
  | .visit t =>
    s.translations[t]?.bind fun translation =>
      match translation.phase with
      | .visiting list i => (s.lists[list]?).map (s.visit core t translation list i)
      | _ => none
  | .substitute t =>
    s.translations[t]?.bind fun translation =>
      match translation.phase with
      | .substituting list i => (s.lists[list]?).map (s.substitute core t translation list i)
      | _ => none
  | .reloadXml =>
    match s.reload with
    | .idle => some { s with reload := .unloading }
    | _ => none
  | .unloadProfile key rl =>
    match s.reload with
    | .unloading => s.hash.bind fun hash =>
      (hash.find? key).map fun list => s.unloadProfile hash key list rl
    | _ => none
  | .freeRule =>
    match s.reload with
    | .freeing key list => (s.lists[list]?).map (s.freeRule key list)
    | _ => none
  | .goOn => s.goOn
  | .openConfig config =>
    match s.reload with
    | .opening => some (s.openConfig config)
    | _ => none
  | .loadProfile =>
    match s.reload with
    | .loading config left => some (s.loadProfile config left)
    | _ => none

/-- One step. -/
def next (s : State Session) (action : Action Session) : Option (State Session) :=
  if s.reload = .crashed then none else s.step core action

/-! ## The statement -/

/-- No translation has read what was freed or destroyed, and each result is the one that the
configuration of the time gives, or one that a reload has loaded meanwhile. -/
structure Invisible (s : State Session) : Prop where
  reads : s.faults = []
  results : ∀ translation ∈ s.translations, ∀ result, translation.phase = .done result →
    ∃ config ∈ translation.configs, result = config.translation core translation.call

/-- The profiles that are not loaded yet. -/
def Reload.left : Reload → List Profile
  | .loading _ left => left
  | _ => []

/-- The list of which the rules are freed. -/
def Reload.freedList : Reload → Option ℕ
  | .freeing _ list => some list
  | _ => none

/-- Before this rule is read. -/
def Phase.reads (list i : ℕ) : Phase → Bool
  | .visiting list' i' | .substituting list' i' => list' = list ∧ i' = i
  | _ => false

/-- The rules that a lookup finds are all there, and those of no later profile are to come; where it
finds none a configuration has none. -/
def State.MayFind (s : State Session) (translation : Translation Session) : Option ℕ → Prop
  | none => ∃ config ∈ translation.configs, config.rules translation.call.profileName = []
  | some list => (∀ l ∈ s.lists[list]?, l.freed = 0) ∧
      ∀ profile ∈ s.reload.left, profile.name ≠ translation.call.profileName

/-- A lookup finds the lock and the hash, and the rules of a configuration in it; a rule is freed
when no translation is at it. -/
def Careful (s : State Session) : Action Session → Prop
  | .lookup t => ∀ translation ∈ s.translations[t]?, s.lock = true ∧
      s.hash.isSome ∧ ∀ hash ∈ s.hash,
        s.MayFind translation (hash.find? translation.call.profileName)
  | .freeRule => ∀ list ∈ s.reload.freedList, ∀ l ∈ s.lists[list]?,
      ∀ translation ∈ s.translations, translation.phase.reads list l.freed = false
  | _ => True

instance (s : State Session) (translation : Translation Session) :
    (found : Option ℕ) → Decidable (s.MayFind translation found)
  | none => inferInstanceAs (Decidable (∃ config ∈ translation.configs,
      config.rules translation.call.profileName = []))
  | some list => inferInstanceAs (Decidable ((∀ l ∈ s.lists[list]?, l.freed = 0) ∧
      ∀ profile ∈ s.reload.left, profile.name ≠ translation.call.profileName))

instance (s : State Session) : (action : Action Session) → Decidable (Careful s action)
  | .lookup t => inferInstanceAs (Decidable (∀ translation ∈ s.translations[t]?, s.lock = true ∧
      s.hash.isSome ∧ ∀ hash ∈ s.hash,
        s.MayFind translation (hash.find? translation.call.profileName)))
  | .freeRule => inferInstanceAs (Decidable (∀ list ∈ s.reload.freedList, ∀ l ∈ s.lists[list]?,
      ∀ translation ∈ s.translations, translation.phase.reads list l.freed = false))
  | .call _ | .visit _ | .substitute _ | .reloadXml | .unloadProfile _ _ | .goOn
  | .openConfig _ | .loadProfile => .isTrue trivial

/-! ## What holds between the steps -/

section

variable {core} {s s' : State Session} {config done left : Configuration} {profile : Profile}
  {translation : Translation Session} {rules : List Rule} {rule : Rule}
  {list i t : ℕ} {l : RuleList} {name : Text}

/-- The last profile of a name counts. -/
lemma rules_snoc (done : Configuration) (profile : Profile) (name : Text) :
    (done ++ [profile]).rules name =
      if profile.name = name then profile.rules else done.rules name := by
  rw [Configuration.rules, List.filter_append]
  by_cases hname : profile.name = name
  · have hlast : [profile].filter (·.name = name) = [profile] := by simp [hname]
    rw [hlast, List.getLast?_concat, if_pos hname]
    rfl
  · have hnone : [profile].filter (·.name = name) = [] := by simp [hname]
    rw [hnone, List.append_nil, if_neg hname, Configuration.rules]

lemma rules_append (done : Configuration) (hleft : ∀ profile ∈ left, profile.name ≠ name) :
    Configuration.rules (done ++ left) name = done.rules name := by
  have hnone : left.filter (·.name = name) = [] :=
    List.filter_eq_nil_iff.mpr fun profile hmem h => hleft profile hmem (of_decide_eq_true h)
  rw [Configuration.rules, List.filter_append, hnone, List.append_nil, Configuration.rules]

/-- The rules from this one on. -/
lemma firstMatch_drop (call : Call Session) (hrule : rules[i]? = some rule) :
    firstMatch core call (rules.drop i) =
      if core.regexPerform call.number rule.regex then some (translated core call rule)
      else firstMatch core call (rules.drop (i + 1)) := by
  obtain ⟨hlt, hget⟩ := List.getElem?_eq_some_iff.mp hrule
  rw [List.drop_eq_getElem_cons hlt, hget, firstMatch, List.find?_cons]
  cases core.regexPerform call.number rule.regex <;> rfl

/-- What is still to come of a translation leads to a result of a configuration. -/
def Walks (core : Core Session) (s : State Session) (translation : Translation Session) : Prop :=
  match translation.phase with
  | .calling => True
  | .visiting list i => ∃ l, s.lists[list]? = some l ∧ l.freed ≤ i ∧ i < l.rules.length ∧
      ∃ config ∈ translation.configs,
        firstMatch core translation.call (l.rules.drop i) =
          config.translation core translation.call
  | .substituting list i => ∃ l rule, s.lists[list]? = some l ∧ l.freed ≤ i ∧
      l.rules[i]? = some rule ∧ ∃ config ∈ translation.configs,
        some (translated core translation.call rule) = config.translation core translation.call
  | .done result => ∃ config ∈ translation.configs,
      result = config.translation core translation.call

/-- The rules that the hash has for a name are those of the configuration, or of the part of it that
is loaded. -/
def Entries (s : State Session) (rulesOf : Text → List Rule) : Prop :=
  ∀ hash ∈ s.hash, ∀ name list, hash.find? name = some list →
    ∃ l, s.lists[list]? = some l ∧ l.rules = rulesOf name

def ReloadInv (s : State Session) : Reload → Prop
  | .hashCreated | .opening => ∀ hash ∈ s.hash, ∀ name, hash.find? name = none
  | .loading config left => ∃ done, config = done ++ left ∧ Entries s done.rules
  | _ => Entries s s.config.rules

structure Inv (core : Core Session) (s : State Session) : Prop where
  faults : s.faults = []
  reload : ReloadInv s s.reload
  known : ∀ translation ∈ s.translations, translation.phase.running = true →
    s.config ∈ translation.configs ∧ ∀ config ∈ s.opened, config ∈ translation.configs
  walks : ∀ translation ∈ s.translations, Walks core s translation

lemma inv_init (config : Configuration) : Inv core (.init config) where
  faults := rfl
  reload := ⟨[], rfl, fun hash hhash name list hfind => by cases hhash; cases hfind⟩
  known translation h := nomatch h
  walks translation h := nomatch h

lemma Inv.invisible (h : Inv core s) : Invisible core s where
  reads := h.faults
  results := by
    intro translation hmem result hdone
    have hwalks := h.walks translation hmem
    rw [Walks, hdone] at hwalks
    exact hwalks

/-! ## The steps of a translation -/

lemma ReloadInv.of_translations {reload : Reload} (h : ReloadInv s reload)
    (translations : List (Translation Session)) :
    ReloadInv { s with translations := translations } reload := by
  cases reload <;> exact h

lemma Inv.call (h : Inv core s) (call : Call Session) : Inv core (s.call call) := by
  refine ⟨h.faults, h.reload.of_translations _, fun translation hmem hrunning => ?_,
    fun translation hmem => ?_⟩
  · rcases List.mem_append.mp hmem with hmem | hmem
    · exact h.known translation hmem hrunning
    · rw [List.mem_singleton.mp hmem]
      refine ⟨List.mem_cons_self, fun config hopened => List.mem_cons_of_mem _ ?_⟩
      exact Option.mem_toList.mpr hopened
  · rcases List.mem_append.mp hmem with hmem | hmem
    · exact h.walks translation hmem
    · rw [List.mem_singleton.mp hmem]
      exact trivial

/-- A translation has gone on. -/
lemma Inv.goto (h : Inv core s) (ht : s.translations[t]? = some translation)
    (hrunning : translation.phase.running = true) {phase : Phase}
    (hwalks : Walks core s { translation with phase := phase }) :
    Inv core (s.goto t translation phase) := by
  refine ⟨h.faults, h.reload.of_translations _, fun other hmem hother => ?_, fun other hmem => ?_⟩
  · rcases mem_set_cases hmem with rfl | ⟨u, -, hu⟩
    · exact h.known translation (List.mem_of_getElem? ht) hrunning
    · exact h.known other (List.mem_of_getElem? hu) hother
  · rcases mem_set_cases hmem with rfl | ⟨u, -, hu⟩
    · exact hwalks
    · exact h.walks other (List.mem_of_getElem? hu)

/-- What a lookup finds are the rules of a configuration. -/
lemma Inv.found (h : Inv core s) (hmem : translation ∈ s.translations)
    (hrunning : translation.phase.running = true) {hash : OrderedMap Text ℕ}
    (hhash : hash ∈ s.hash) (hfind : hash.find? name = some list)
    (hleft : ∀ profile ∈ s.reload.left, profile.name ≠ name) :
    ∃ l, s.lists[list]? = some l ∧ ∃ config ∈ translation.configs, l.rules = config.rules name := by
  obtain ⟨hconfig, hopened⟩ := h.known translation hmem hrunning
  have hreload := h.reload
  cases hr : s.reload with
  | idle | unloading | freeing _ _ | crashed | lockDestroyed | hashDestroyed =>
    rw [hr] at hreload
    obtain ⟨l, hl, hrules⟩ := hreload hash hhash name list hfind
    exact ⟨l, hl, s.config, hconfig, hrules⟩
  | hashCreated | opening =>
    rw [hr] at hreload
    exact nomatch (hreload hash hhash name).symm.trans hfind
  | loading config left =>
    rw [hr] at hreload hleft
    obtain ⟨done, rfl, hentries⟩ := hreload
    obtain ⟨l, hl, hrules⟩ := hentries hash hhash name list hfind
    refine ⟨l, hl, done ++ left, hopened _ ?_, ?_⟩
    · rw [State.opened, hr]
      rfl
    · exact hrules.trans (rules_append done hleft).symm

lemma Inv.lookup (h : Inv core s) (ht : s.translations[t]? = some translation)
    (hphase : translation.phase = .calling) (hlock : s.lock = true) (hsome : s.hash.isSome)
    (hfind : ∀ hash ∈ s.hash, s.MayFind translation (hash.find? translation.call.profileName)) :
    Inv core (s.lookup t translation) := by
  obtain ⟨hash, hhash⟩ := Option.isSome_iff_exists.mp hsome
  have hmem := List.mem_of_getElem? ht
  have hrunning : translation.phase.running = true := by
    rw [hphase]
    rfl
  have hmay := hfind hash hhash
  rw [State.lookup, if_neg (ne_false_of_eq_true hlock), hhash]
  dsimp only
  cases hentry : hash.find? translation.call.profileName with
  | none =>
    rw [hentry] at hmay
    obtain ⟨config, hconfig, hnone⟩ := hmay
    refine h.goto ht hrunning ⟨config, hconfig, ?_⟩
    rw [Configuration.translation, hnone]
    rfl
  | some list =>
    rw [hentry] at hmay
    obtain ⟨l, hl, config, hconfig, hrules⟩ := h.found hmem hrunning hhash hentry hmay.2
    dsimp only
    rw [hl, Option.any_some]
    by_cases hempty : l.rules = []
    · rw [if_neg (by rw [hempty]; decide)]
      refine h.goto ht hrunning ⟨config, hconfig, ?_⟩
      rw [Configuration.translation, ← hrules, hempty]
      rfl
    · rw [if_pos (by simpa using hempty)]
      refine h.goto ht hrunning ⟨l, hl, (hmay.1 l hl).le, List.length_pos_iff.mpr hempty, config,
        hconfig, ?_⟩
      rw [List.drop_zero, hrules, Configuration.translation]

lemma Inv.visit (h : Inv core s) (ht : s.translations[t]? = some translation)
    (hphase : translation.phase = .visiting list i) (hl : s.lists[list]? = some l) :
    Inv core (s.visit core t translation list i l) := by
  have hrunning : translation.phase.running = true := by
    rw [hphase]
    rfl
  have hwalks := h.walks translation (List.mem_of_getElem? ht)
  rw [Walks, hphase] at hwalks
  obtain ⟨_, hl', hfreed, hlt, config, hconfig, hmatch⟩ := hwalks
  cases hl.symm.trans hl'
  have hrule := List.getElem?_eq_getElem hlt
  rw [firstMatch_drop _ hrule] at hmatch
  rw [State.visit, if_neg (Nat.not_lt_of_le hfreed), hrule]
  dsimp only
  split_ifs at hmatch ⊢ with hperform hnext
  · exact h.goto ht hrunning ⟨l, _, hl, hfreed, hrule, config, hconfig, hmatch⟩
  · exact h.goto ht hrunning ⟨l, hl, hfreed.trans (Nat.le_succ i), hnext, config, hconfig, hmatch⟩
  · refine h.goto ht hrunning ⟨config, hconfig, ?_⟩
    rw [← hmatch, List.drop_eq_nil_of_le (Nat.not_lt.mp hnext)]
    rfl

lemma Inv.substitute (h : Inv core s) (ht : s.translations[t]? = some translation)
    (hphase : translation.phase = .substituting list i) (hl : s.lists[list]? = some l) :
    Inv core (s.substitute core t translation list i l) := by
  have hrunning : translation.phase.running = true := by
    rw [hphase]
    rfl
  have hwalks := h.walks translation (List.mem_of_getElem? ht)
  rw [Walks, hphase] at hwalks
  obtain ⟨_, rule, hl', hfreed, hrule, config, hconfig, hresult⟩ := hwalks
  cases hl.symm.trans hl'
  rw [State.substitute, if_neg (Nat.not_lt_of_le hfreed), hrule]
  exact h.goto ht hrunning ⟨config, hconfig, hresult⟩

/-! ## The steps of a reload -/

/-- A translation finds the rules that it has to read, and knows the configurations that it knew. -/
lemma Walks.frame {translation' : Translation Session} (h : Walks core s translation)
    (hcall : translation'.call = translation.call) (hphase : translation'.phase = translation.phase)
    (hconfigs : ∀ config ∈ translation.configs, config ∈ translation'.configs)
    (hlists : ∀ {list i : ℕ} {l : RuleList}, translation.phase.reads list i = true →
      s.lists[list]? = some l → l.freed ≤ i →
        ∃ l', s'.lists[list]? = some l' ∧ l'.rules = l.rules ∧ l'.freed ≤ i) :
    Walks core s' translation' := by
  rw [Walks] at h ⊢
  rw [hphase, hcall]
  cases hp : translation.phase with
  | calling => trivial
  | done result =>
    rw [hp] at h
    obtain ⟨config, hconfig, hresult⟩ := h
    exact ⟨config, hconfigs config hconfig, hresult⟩
  | visiting list i =>
    rw [hp] at h hlists
    obtain ⟨l, hl, hfreed, hi, config, hconfig, hmatch⟩ := h
    obtain ⟨l', hl', hrules, hfreed'⟩ := hlists (decide_eq_true ⟨rfl, rfl⟩) hl hfreed
    rw [← hrules] at hi hmatch
    exact ⟨l', hl', hfreed', hi, config, hconfigs config hconfig, hmatch⟩
  | substituting list i =>
    rw [hp] at h hlists
    obtain ⟨l, rule, hl, hfreed, hrule, config, hconfig, hresult⟩ := h
    obtain ⟨l', hl', hrules, hfreed'⟩ := hlists (decide_eq_true ⟨rfl, rfl⟩) hl hfreed
    rw [← hrules] at hrule
    exact ⟨l', rule, hl', hfreed', hrule, config, hconfigs config hconfig, hresult⟩

/-- The reload has gone on without touching what the translations know. -/
lemma Inv.of_reload (h : Inv core s) (htranslations : s'.translations = s.translations)
    (hfaults : s'.faults = s.faults) (hlists : s'.lists = s.lists) (hconfig : s'.config = s.config)
    (hopened : s'.opened = none) (hreload : ReloadInv s' s'.reload) : Inv core s' := by
  refine ⟨hfaults.trans h.faults, hreload, fun translation hmem hrunning => ?_,
    fun translation hmem => ?_⟩
  · rw [htranslations] at hmem
    rw [hconfig, hopened]
    exact ⟨(h.known translation hmem hrunning).1, fun config hnone => nomatch hnone⟩
  · rw [htranslations] at hmem
    refine (h.walks translation hmem).frame rfl rfl (fun _ hconfig => hconfig) ?_
    intro list i l _ hl hfreed
    rw [hlists]
    exact ⟨l, hl, rfl, hfreed⟩

lemma Inv.unloadProfile (h : Inv core s) (hreload : s.reload = .unloading)
    {hash : OrderedMap Text ℕ} (hhash : s.hash = some hash) (key : Text) (list : ℕ) (rl : Bool) :
    Inv core (s.unloadProfile hash key list rl) := by
  have hentries := h.reload
  rw [hreload] at hentries
  cases rl with
  | true => exact h.of_reload rfl rfl rfl rfl rfl hentries
  | false =>
    have hopened : s.opened = none := by
      rw [State.opened, hreload]
    refine h.of_reload rfl rfl rfl rfl hopened ?_
    show ReloadInv _ s.reload
    rw [hreload]
    intro hash' hhash' name list' hfind
    cases hhash'
    rw [OrderedMap.find?_erase] at hfind
    split_ifs at hfind
    exact hentries hash hhash name list' hfind

/-- A list after a rule of a list was freed. -/
def freedIn (list j : ℕ) (m : RuleList) : RuleList :=
  if j = list then { m with freed := m.freed + 1 } else m

lemma rules_freedIn (list j : ℕ) (m : RuleList) : (freedIn list j m).rules = m.rules := by
  rw [freedIn]
  split_ifs <;> rfl

lemma getElem?_freeRule (hl : s.lists[list]? = some l) {j : ℕ} {m : RuleList}
    (hm : s.lists[j]? = some m) :
    (s.lists.set list { l with freed := l.freed + 1 })[j]? = some (freedIn list j m) := by
  by_cases hj : j = list
  · subst hj
    cases hl.symm.trans hm
    rw [List.getElem?_set_self (List.getElem?_eq_some_iff.mp hl).1, freedIn, if_pos rfl]
  · rw [List.getElem?_set_ne (Ne.symm hj), hm, freedIn, if_neg hj]

lemma Inv.freeRule (h : Inv core s) {key : Text} (hreload : s.reload = .freeing key list)
    (hl : s.lists[list]? = some l)
    (hnone : ∀ translation ∈ s.translations, translation.phase.reads list l.freed = false) :
    Inv core (s.freeRule key list l) := by
  have hentries := h.reload
  rw [hreload] at hentries
  rw [State.freeRule]
  split_ifs with hlt
  · refine ⟨h.faults, ?_, fun translation hmem hrunning => ?_, fun translation hmem => ?_⟩
    · intro hash' hhash' name j hfind
      obtain ⟨hash, hhash, rfl⟩ := Option.map_eq_some_iff.mp hhash'
      rw [OrderedMap.find?_erase] at hfind
      split_ifs at hfind
      obtain ⟨m, hm, hrules⟩ := hentries hash hhash name j hfind
      exact ⟨_, getElem?_freeRule hl hm, (rules_freedIn list j m).trans hrules⟩
    · exact ⟨(h.known translation hmem hrunning).1, fun config hopened => nomatch hopened⟩
    · refine (h.walks translation hmem).frame rfl rfl (fun _ hconfig => hconfig) ?_
      intro j i m hreads hm hfreed
      refine ⟨_, getElem?_freeRule hl hm, rules_freedIn list j m, ?_⟩
      rw [freedIn]
      split_ifs with hj
      · subst hj
        cases hl.symm.trans hm
        have hi : i ≠ l.freed := by
          rintro rfl
          exact Bool.false_ne_true ((hnone translation hmem).symm.trans hreads)
        exact Nat.succ_le_of_lt (lt_of_le_of_ne hfreed (Ne.symm hi))
      · exact hfreed
  · exact h.of_reload rfl rfl rfl rfl rfl hentries

lemma Inv.goOn (h : Inv core s) (hnext : s.goOn = some s') : Inv core s' := by
  have hreload := h.reload
  rw [State.goOn] at hnext
  split at hnext
  case h_1 hr =>
    rw [hr] at hreload
    split_ifs at hnext
    cases hnext
    exact h.of_reload rfl rfl rfl rfl rfl hreload
  case h_2 hr =>
    cases hnext
    exact h.of_reload rfl rfl rfl rfl rfl fun hash hhash => nomatch hhash
  case h_3 hr =>
    cases hnext
    refine h.of_reload rfl rfl rfl rfl rfl fun hash hhash name => ?_
    cases hhash
    rfl
  case h_4 hr =>
    rw [hr] at hreload
    cases hnext
    exact h.of_reload rfl rfl rfl rfl rfl hreload
  case h_5 => cases hnext

/-- The translations that are under way know the configuration that is opened. -/
lemma Inv.openConfig (h : Inv core s) (hreload : s.reload = .opening)
    (opened : Option Configuration) : Inv core (s.openConfig opened) := by
  have hempty := h.reload
  rw [hreload] at hempty
  cases opened with
  | none =>
    refine h.of_reload rfl rfl rfl rfl rfl fun hash hhash name list hfind => ?_
    exact nomatch (hempty hash hhash name).symm.trans hfind
  | some config =>
    refine ⟨h.faults, ⟨[], rfl, fun hash hhash name list hfind => ?_⟩, fun other hmem hrunning => ?_,
      fun other hmem => ?_⟩
    · exact nomatch (hempty hash hhash name).symm.trans hfind
    · obtain ⟨translation, htranslation, rfl⟩ := List.mem_map.mp hmem
      have hphase : translation.phase.running = true := by
        split_ifs at hrunning <;> exact hrunning
      obtain ⟨hconfig, -⟩ := h.known translation htranslation hphase
      rw [if_pos hphase]
      refine ⟨List.mem_append_left _ hconfig, fun new hnew => List.mem_append_right _ ?_⟩
      exact List.mem_singleton.mpr (Option.some.inj hnew).symm
    · obtain ⟨translation, htranslation, rfl⟩ := List.mem_map.mp hmem
      refine (h.walks translation htranslation).frame ?_ ?_ (fun config hconfig => ?_)
        fun _ hl hfreed => ⟨_, hl, rfl, hfreed⟩
      · split_ifs <;> rfl
      · split_ifs <;> rfl
      · split_ifs
        · exact List.mem_append_left _ hconfig
        · exact hconfig

lemma Inv.loadProfile (h : Inv core s) (hreload : s.reload = .loading config left) :
    Inv core (s.loadProfile config left) := by
  have hloading := h.reload
  rw [hreload] at hloading
  obtain ⟨done, rfl, hentries⟩ := hloading
  have hopened : ∀ translation ∈ s.translations, translation.phase.running = true →
      s.config ∈ translation.configs ∧ done ++ left ∈ translation.configs := by
    intro translation hmem hrunning
    obtain ⟨hconfig, hopened⟩ := h.known translation hmem hrunning
    refine ⟨hconfig, hopened _ ?_⟩
    rw [State.opened, hreload]
    rfl
  cases left with
  | nil =>
    rw [List.append_nil] at hopened ⊢
    refine ⟨h.faults, hentries, fun translation hmem hrunning => ?_, h.walks⟩
    exact ⟨(hopened translation hmem hrunning).2, fun config hnone => nomatch hnone⟩
  | cons profile left =>
    have hlists : ∀ {j : ℕ} {m : RuleList}, s.lists[j]? = some m →
        (s.lists ++ [⟨profile.rules, 0⟩])[j]? = some m := by
      intro j m hm
      rw [List.getElem?_append_left (List.getElem?_eq_some_iff.mp hm).1]
      exact hm
    refine ⟨h.faults, ⟨done ++ [profile], ?_, fun hash hhash name list hfind => ?_⟩,
      fun translation hmem hrunning => ?_, fun translation hmem => ?_⟩
    · rw [List.append_assoc, List.singleton_append]
    · obtain ⟨old, hold, rfl⟩ := Option.map_eq_some_iff.mp hhash
      rw [OrderedMap.find?_insert] at hfind
      rw [rules_snoc]
      by_cases hname : name = profile.name
      · rw [if_pos hname] at hfind
        cases hfind
        exact ⟨_, List.getElem?_concat_length, (if_pos hname.symm).symm⟩
      · rw [if_neg hname] at hfind
        obtain ⟨l, hl, hrules⟩ := hentries old hold name list hfind
        exact ⟨l, hlists hl, hrules.trans (if_neg (Ne.symm hname)).symm⟩
    · refine ⟨(hopened translation hmem hrunning).1, fun config hconfig => ?_⟩
      cases hconfig
      exact (hopened translation hmem hrunning).2
    · exact (h.walks translation hmem).frame rfl rfl (fun _ hconfig => hconfig)
        fun _ hl hfreed => ⟨_, hlists hl, rfl, hfreed⟩

/-! ## Runs -/

/-- A step of a translation. -/
lemma inv_translation {action : Action Session} (h : Inv core s) (hcareful : Careful s action)
    (htranslation : (∃ t, action = .lookup t) ∨ (∃ t, action = .visit t) ∨
      ∃ t, action = .substitute t)
    (hnext : s.step core action = some s') : Inv core s' := by
  rcases htranslation with ⟨t, rfl⟩ | ⟨t, rfl⟩ | ⟨t, rfl⟩
  · obtain ⟨translation, ht, hnext⟩ := Option.bind_eq_some_iff.mp hnext
    obtain ⟨hlock, hsome, hfind⟩ := hcareful translation ht
    split at hnext
    case h_1 hphase =>
      cases hnext
      exact h.lookup ht hphase hlock hsome hfind
    case h_2 => cases hnext
  · obtain ⟨translation, ht, hnext⟩ := Option.bind_eq_some_iff.mp hnext
    split at hnext
    case h_1 list i hphase =>
      obtain ⟨l, hl, rfl⟩ := Option.map_eq_some_iff.mp hnext
      exact h.visit ht hphase hl
    case h_2 => cases hnext
  · obtain ⟨translation, ht, hnext⟩ := Option.bind_eq_some_iff.mp hnext
    split at hnext
    case h_1 list i hphase =>
      obtain ⟨l, hl, rfl⟩ := Option.map_eq_some_iff.mp hnext
      exact h.substitute ht hphase hl
    case h_2 => cases hnext

lemma inv_next {action : Action Session} (h : Inv core s) (hcareful : Careful s action)
    (hnext : next core s action = some s') : Inv core s' := by
  rw [next] at hnext
  split_ifs at hnext
  cases action with
  | call call =>
    cases hnext
    exact h.call call
  | lookup t => exact inv_translation h hcareful (.inl ⟨t, rfl⟩) hnext
  | visit t => exact inv_translation h hcareful (.inr (.inl ⟨t, rfl⟩)) hnext
  | substitute t => exact inv_translation h hcareful (.inr (.inr ⟨t, rfl⟩)) hnext
  | reloadXml =>
    rw [State.step] at hnext
    split at hnext
    case h_1 hidle =>
      have hentries := h.reload
      rw [hidle] at hentries
      cases hnext
      exact h.of_reload rfl rfl rfl rfl rfl hentries
    case h_2 => cases hnext
  | unloadProfile key rl =>
    rw [State.step] at hnext
    split at hnext
    case h_1 hreload =>
      obtain ⟨hash, hhash, hnext⟩ := Option.bind_eq_some_iff.mp hnext
      obtain ⟨list, -, rfl⟩ := Option.map_eq_some_iff.mp hnext
      exact h.unloadProfile hreload hhash key list rl
    case h_2 => cases hnext
  | freeRule =>
    rw [State.step] at hnext
    split at hnext
    case h_1 key list hreload =>
      obtain ⟨l, hl, rfl⟩ := Option.map_eq_some_iff.mp hnext
      exact h.freeRule hreload hl (hcareful list (by rw [hreload]; rfl) l hl)
    case h_2 => cases hnext
  | goOn => exact h.goOn hnext
  | openConfig config =>
    rw [State.step] at hnext
    split at hnext
    case h_1 hreload =>
      cases hnext
      exact h.openConfig hreload config
    case h_2 => cases hnext
  | loadProfile =>
    rw [State.step] at hnext
    split at hnext
    case h_1 config left hreload =>
      cases hnext
      exact h.loadProfile hreload
    case h_2 => cases hnext

/-- **Reloads are invisible to translations** in a run of careful steps. -/
theorem reloads_invisible {actions : List (Action Session)}
    (hcareful : Always (next core) Careful (.init config) actions)
    (hrun : run (next core) (.init config) actions = some s') : Invisible core s' :=
  (run_invariant_of_always (fun _ _ _ => inv_next) (inv_init config) hcareful hrun).invisible

end

/-! ## Two runs -/

/-- A core for which every rule matches and a replacement stands for itself. -/
def plainCore : Core Unit := ⟨fun _ _ => true, fun _ replace _ => replace, fun _ text => text⟩

/-- A configuration with one rule. -/
def oneRule (replace : String) : Configuration :=
  [⟨"US".toList, [⟨"^1".toList, replace.toList⟩]⟩]

def usCall : Action Unit := .call ⟨"1234".toList, none, ()⟩

/-- A reload of a configuration of one profile, in which `rl` is NULL. -/
def reload (config : Configuration) : List (Action Unit) :=
  [.goOn, .goOn, .goOn, .goOn, .openConfig (some config), .loadProfile, .loadProfile]

/-- A translation that has looked up its rules before a reload, and one that comes after it. -/
def carefulRun : List (Action Unit) :=
  [.loadProfile, .loadProfile, usCall, .lookup 0, .reloadXml, .visit 0,
    .unloadProfile "US".toList false] ++ reload (oneRule "49") ++
  [.substitute 0, usCall, .lookup 1, .visit 1, .substitute 1]

theorem reloads_invisible_careful :
    ∃ s, run (next plainCore) (.init (oneRule "1")) carefulRun = some s ∧ Invisible plainCore s ∧
      s.translations.map (·.phase) = [.done (some "1".toList), .done (some "49".toList)] :=
  ⟨_, rfl, reloads_invisible
    (by decide : Always (next plainCore) Careful (.init (oneRule "1")) carefulRun) rfl, rfl⟩

/-- A translation that comes while the hash is empty gives nothing, though the profile is there
before the reload and after it. -/
theorem lookup_in_empty_hash :
    ∃ s, run (next plainCore) (.init (oneRule "1")) ([.loadProfile, .loadProfile, .reloadXml,
      .unloadProfile "US".toList false, usCall, .lookup 0] ++ reload (oneRule "1")) = some s ∧
        ¬ Invisible plainCore s := by
  refine ⟨_, rfl, fun h => ?_⟩
  obtain ⟨config, hconfig, hresult⟩ := h.results _ List.mem_cons_self none rfl
  cases List.mem_singleton.mp hconfig
  exact absurd hresult (by decide)

end FreeswitchContrib.ModTranslate

import FreeswitchContrib.ModTranslate.Reloads
import Mathlib.Data.List.Induction

/-!
# The rules that `mod_translate` loads, and the number that they make

`load_config` walks to the end of a list of rules for every new one.  `translate_number` looks for
the first rule that matches, and gives the core a buffer of `len` characters for the substitution,
where `len` is 0.

* `loadConfig`, `translateNumber` — the functions.
* `find?_loadConfig` — the hash has the rules of the last profile of a name, in their order.
* `TranslatesFirst` — the number is that of the first rule that matches, and the buffers are large
  enough.
* **`translates_first_iff`** — that is so where no rule matches.
-/

namespace FreeswitchContrib.ModTranslate

/-! ## `load_config` -/

/-- A `<rule>` of the configuration file, with the attributes that it has. -/
structure XRule where
  regex : Option Text
  replace : Option Text

/-- A `<profile>` of the configuration file. -/
structure XProfile where
  name : Option Text
  rules : List XRule

/-- Where memory was allocated. -/
inductive Owner where
  /-- from `globals.pool` -/
  | pool
  | heap
  deriving DecidableEq

/-- A rule in memory, and where it and its strings were allocated. -/
structure Node where
  rule : Rule
  owner : Owner

/-- The rule that is loaded; an attribute that is not there is empty. -/
def XRule.rule (x : XRule) : Rule := ⟨x.regex.getD [], x.replace.getD []⟩

def XProfile.profile (x : XProfile) : Profile := ⟨x.name.getD [], x.rules.map XRule.rule⟩

/-- A rule is put behind the last one. -/
def appendRule : List Node → Node → List Node
  | [], thisRule => [thisRule]
  | rl :: rest, thisRule => rl :: appendRule rest thisRule

/-- The loop over the rules of a profile. -/
def loadRules (rules : List XRule) : List Node :=
  rules.foldl (fun rulesList x => appendRule rulesList ⟨x.rule, .pool⟩) []

/-- `switch_core_hash_insert_wrlock`; a list without rules is NULL, and the hash of the core keeps an
entry with NULL or removes it. -/
def insertRules (nullKept : Bool) (hash : OrderedMap Text (List Node)) (name : Text)
    (rulesList : List Node) : OrderedMap Text (List Node) :=
  if rulesList = [] ∧ nullKept = false then hash.erase name else hash.insert name rulesList

/-- `load_config`, when the configuration file can be opened. -/
def loadConfig (nullKept : Bool) (profiles : List XProfile) : OrderedMap Text (List Node) :=
  profiles.foldl (fun hash x => insertRules nullKept hash (x.name.getD []) (loadRules x.rules))
    .empty

/-! ## `translate_number` -/

/-- A buffer of `size` characters that was given to the core as one of `len`, for a text that needs
so many. -/
structure Buffer where
  size : ℕ
  len : ℕ
  needed : ℕ

inductive Translated where
  | null
  | number (text : Text)
  /-- the text was written over the end of the buffer -/
  | overflown

structure Outcome where
  handed : List Buffer
  translated : Translated

variable {Session : Type} (core : Core Session)

/-- What is done with the rule that matches; `mallocNull` says whether `malloc(0)` is NULL. -/
def substituteRule (mallocNull : Bool) (call : Call Session) (rule : Rule) : Outcome :=
  let len := 0
  if len = 0 ∧ mallocNull then ⟨[], .null⟩
  else
    let substituted := core.performSubstitution rule.regex rule.replace call.number
    ⟨[⟨len, len, substituted.length + 1⟩],
      if substituted.length < len then .number (core.expand call.session substituted)
      else .overflown⟩

/-- The loop over the rules. -/
def translateRules (mallocNull : Bool) (call : Call Session) : List Node → Outcome
  | [] => ⟨[], .null⟩
  | node :: rest =>
    if core.regexPerform call.number node.rule.regex then
      substituteRule core mallocNull call node.rule
    else translateRules mallocNull call rest

/-- `translate_number` -/
def translateNumber (mallocNull : Bool) (hash : OrderedMap Text (List Node))
    (call : Call Session) : Outcome :=
  match hash.find? call.profileName with
  | none => ⟨[], .null⟩
  | some rules => translateRules core mallocNull call rules

/-! ## The statement -/

def Translated.ofOption : Option Text → Translated
  | none => .null
  | some text => .number text

/-- The number is the one of the first rule that matches, if there is one, and every buffer has the
size that the core is told and that its text needs. -/
structure TranslatesFirst (config : Configuration) (call : Call Session) (outcome : Outcome) :
    Prop where
  translated : outcome.translated = .ofOption (config.translation core call)
  buffers : ∀ buffer ∈ outcome.handed, buffer.len ≤ buffer.size ∧ buffer.needed ≤ buffer.size

/-! ## The rules that are loaded -/

variable {core} {profiles : List XProfile} {name : Text}

lemma appendRule_eq (rulesList : List Node) (node : Node) :
    appendRule rulesList node = rulesList ++ [node] := by
  induction rulesList with
  | nil => rfl
  | cons rl rest ih => rw [appendRule, ih, List.cons_append]

/-- The list has the rules in their order. -/
lemma loadRules_eq (rules : List XRule) :
    loadRules rules = (rules.map XRule.rule).map (⟨·, .pool⟩) := by
  have hwalk : ∀ rulesList : List Node,
      rules.foldl (fun rulesList x => appendRule rulesList ⟨x.rule, .pool⟩) rulesList =
        rulesList ++ (rules.map XRule.rule).map (⟨·, .pool⟩) := by
    induction rules with
    | nil => exact fun rulesList => (List.append_nil rulesList).symm
    | cons x rules ih =>
      intro rulesList
      rw [List.foldl_cons, ih, appendRule_eq, List.append_assoc]
      rfl
  exact (hwalk []).trans (List.nil_append _)

/-- The configuration of the file. -/
def configuration (profiles : List XProfile) : Configuration := profiles.map XProfile.profile

lemma find?_insertRules (nullKept : Bool) (hash : OrderedMap Text (List Node)) (key : Text)
    (rulesList : List Node) :
    (insertRules nullKept hash key rulesList).find? name =
      if name = key then if rulesList = [] ∧ nullKept = false then none else some rulesList
      else hash.find? name := by
  rw [insertRules]
  split_ifs with hnull hname hname
  · rw [OrderedMap.find?_erase, if_pos hname]
  · rw [OrderedMap.find?_erase, if_neg hname]
  · rw [OrderedMap.find?_insert, if_pos hname]
  · rw [OrderedMap.find?_insert, if_neg hname]

/-- The hash has the rules of the last profile of a name; without rules that depends on the hash. -/
lemma find?_loadConfig (nullKept : Bool) (profiles : List XProfile) (name : Text) :
    (loadConfig nullKept profiles).find? name =
      if (configuration profiles).rules name ≠ [] ∨
          (nullKept ∧ ∃ profile ∈ configuration profiles, profile.name = name) then
        some (((configuration profiles).rules name).map (⟨·, .pool⟩))
      else none := by
  induction profiles using List.reverseRecOn with
  | nil =>
    rw [if_neg]
    · rfl
    · rintro (h | ⟨-, profile, hprofile, -⟩)
      · exact h rfl
      · cases hprofile
  | append_singleton profiles x ih =>
    have hload : loadConfig nullKept (profiles ++ [x]) =
        insertRules nullKept (loadConfig nullKept profiles) (x.name.getD [])
          (loadRules x.rules) := by
      rw [loadConfig, List.foldl_append]
      rfl
    have hconfig : configuration (profiles ++ [x]) = configuration profiles ++ [x.profile] := by
      rw [configuration, List.map_append]
      rfl
    have hname : x.profile.name = name ↔ name = x.name.getD [] := eq_comm
    have hlist : loadRules x.rules = [] ↔ x.profile.rules = [] := by
      rw [loadRules_eq, List.map_eq_nil_iff]
      rfl
    rw [hload, find?_insertRules, ih, hconfig, rules_snoc]
    by_cases hlast : name = x.name.getD []
    · -- the new profile stands for all before it
      have hthere : ∃ profile ∈ configuration profiles ++ [x.profile], profile.name = name :=
        ⟨x.profile, List.mem_append_right _ List.mem_cons_self, hname.mpr hlast⟩
      rw [if_pos hlast, if_pos (hname.mpr hlast), ← ite_not]
      refine if_congr ?_ (congrArg some (loadRules_eq x.rules)) rfl
      rw [and_iff_left hthere, not_and_or, Bool.not_eq_false, hlist]
    · rw [if_neg hlast, if_neg (mt hname.mp hlast)]
      refine if_congr (or_congr_right (and_congr_right fun _ => ?_)) rfl rfl
      constructor
      · rintro ⟨profile, hprofile, h⟩
        exact ⟨profile, List.mem_append_left _ hprofile, h⟩
      · rintro ⟨profile, hprofile, h⟩
        rcases List.mem_append.mp hprofile with hprofile | hprofile
        · exact ⟨profile, hprofile, h⟩
        · cases List.mem_singleton.mp hprofile
          exact absurd (hname.mp h) hlast

/-! ## The number -/

variable {mallocNull : Bool} {call : Call Session} {rules : List Rule}

lemma firstMatch_eq_none :
    firstMatch core call rules = none ↔
      ∀ rule ∈ rules, core.regexPerform call.number rule.regex = false := by
  rw [firstMatch, Option.map_eq_none_iff, List.find?_eq_none]
  exact forall₂_congr fun rule _ => Bool.not_eq_true _ ▸ Iff.rfl

/-- What the rule that matches comes to is not what it should. -/
lemma substituteRule_wrong (rule : Rule) (expected : Text) :
    ¬ ((substituteRule core mallocNull call rule).translated = .ofOption (some expected) ∧
      ∀ buffer ∈ (substituteRule core mallocNull call rule).handed,
        buffer.len ≤ buffer.size ∧ buffer.needed ≤ buffer.size) := by
  rintro ⟨htranslated, hbuffers⟩
  unfold substituteRule at htranslated hbuffers
  cases mallocNull with
  | true => cases htranslated
  | false => exact absurd (hbuffers _ List.mem_cons_self).2 (Nat.not_succ_le_zero _)

lemma translateRules_iff (mallocNull : Bool) (call : Call Session) (rules : List Rule) :
    let outcome := translateRules core mallocNull call (rules.map (⟨·, .pool⟩))
    (outcome.translated = .ofOption (firstMatch core call rules) ∧
      ∀ buffer ∈ outcome.handed, buffer.len ≤ buffer.size ∧ buffer.needed ≤ buffer.size) ↔
        firstMatch core call rules = none := by
  induction rules with
  | nil => exact iff_of_true ⟨rfl, fun buffer h => nomatch h⟩ rfl
  | cons rule rules ih =>
    intro outcome
    have hfirst : firstMatch core call (rule :: rules) =
        if core.regexPerform call.number rule.regex then some (translated core call rule)
        else firstMatch core call rules := firstMatch_drop (i := 0) call rfl
    have houtcome : outcome = if core.regexPerform call.number rule.regex then
        substituteRule core mallocNull call rule
      else translateRules core mallocNull call (rules.map (⟨·, .pool⟩)) := rfl
    by_cases hmatch : core.regexPerform call.number rule.regex
    · rw [if_pos hmatch] at hfirst houtcome
      rw [hfirst, houtcome]
      exact iff_of_false (substituteRule_wrong rule _) fun h => nomatch h
    · rw [if_neg hmatch] at hfirst houtcome
      rw [hfirst, houtcome]
      exact ih

/-- **The number is right exactly where no rule matches**: of the last profile of the name, if there
is one. -/
theorem translates_first_iff (core : Core Session) (nullKept mallocNull : Bool)
    (profiles : List XProfile) (call : Call Session) :
    TranslatesFirst core (configuration profiles) call
        (translateNumber core mallocNull (loadConfig nullKept profiles) call) ↔
      ∀ rule ∈ (configuration profiles).rules call.profileName,
        core.regexPerform call.number rule.regex = false := by
  have hnumber : translateNumber core mallocNull (loadConfig nullKept profiles) call =
      translateRules core mallocNull call
        (((configuration profiles).rules call.profileName).map (⟨·, .pool⟩)) := by
    rw [translateNumber, find?_loadConfig]
    split_ifs with hfound
    · rfl
    · have hnone : (configuration profiles).rules call.profileName = [] :=
        not_ne_iff.mp (not_or.mp hfound).1
      rw [hnone]
      rfl
  rw [hnumber]
  refine Iff.trans ?_ ((translateRules_iff mallocNull call _).trans firstMatch_eq_none)
  exact ⟨fun h => ⟨h.translated, h.buffers⟩, fun h => ⟨h.1, h.2⟩⟩

/-- A rule that matches is given no room. -/
theorem matching_rule_without_room :
    ¬ TranslatesFirst plainCore (configuration [⟨some "US".toList, [⟨some "^1".toList,
        some "49".toList⟩]⟩]) ⟨"1234".toList, none, ()⟩
      (translateNumber plainCore false (loadConfig false [⟨some "US".toList, [⟨some "^1".toList,
        some "49".toList⟩]⟩]) ⟨"1234".toList, none, ()⟩) := by
  intro h
  exact absurd (h.buffers ⟨0, 0, 3⟩ List.mem_cons_self).2 (by decide)

end FreeswitchContrib.ModTranslate

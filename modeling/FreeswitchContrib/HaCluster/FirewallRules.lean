import FreeswitchContrib.HaCluster.Config
import FreeswitchContrib.Library.Search

/-!
# The commands of the firewall rules

`generate_rule_cmd` prints the parts of a rule into buffers of its own and these into the command,
and `rules_up` joins the commands of all rules into one.

* `Rule.fields` — the buffers, and what is printed into them.
* `Rule.Valid` — the rules for which there is to be a command.
* **`generateRuleCmd_never_complete`** — there never is: the guard refuses all rules but those of
  all four types, and the command of these is cut off to the size of a pointer.
-/

namespace FreeswitchContrib.HaCluster

open CString

/-! ## Texts -/

/-- What a buffer of this size holds when the text has been printed into it. -/
def snprintf (size : ℕ) (text : Text) : Text := text.take (size - 1)

/-- `strcasestr` finds the word. -/
def strcasestr (s : Text) (word : String) : Bool :=
  (Search.indexOf (word.toList.map Char.toLower) (s.map Char.toLower)).isSome

/-- What is printed for a pointer to a text. -/
def shown (s : Option Text) : Text := s.getD "(null)".toList

/-! ## Rules -/

/-- A value of `ruleAttrs`. -/
def Rule.attr (rule : Rule) (name : String) : Option Text :=
  ((ruleAttrs.zip rule.others).lookup name).join

def Rule.hasType (rule : Rule) (word : String) : Bool := rule.type.any (strcasestr · word)

/-- No attribute is given. -/
def Rule.isBare (rule : Rule) : Bool :=
  strlenZero rule.string && ruleAttrs.all fun name => strlenZero (rule.attr name)

/-- The type does not name all of the actions. -/
def Rule.isRefused (rule : Rule) : Bool :=
  !rule.hasType "limit" || !rule.hasType "drop" || !rule.hasType "accept" || !rule.hasType "reject"

/-- The action, and the chain that is set up for a limit; an attribute that is needed is missing. -/
def Rule.action (rule : Rule) (ip : Ip) (ruleNum : ℕ) : Option (Text × Text) :=
  if rule.hasType "reject" then
    if strlenZero (rule.attr "rejectwith") then none
    else some ("-j REJECT --reject-with ".toList ++ shown (rule.attr "rejectwith"), [])
  else if rule.hasType "limit" then
    if strlenZero (rule.attr "rate") then none
    else
      let chain := "ha-".toList ++ shown ip.name ++ "-".toList ++ shown rule.name
      let burst := if strlenZero (rule.attr "burst") then "5".toList else shown (rule.attr "burst")
      let mode := if strlenZero (rule.attr "mode") then "srcip".toList else shown (rule.attr "mode")
      some ("-j ".toList ++ chain,
        "iptables -N ".toList ++ chain ++ " && iptables -I ".toList ++ chain ++
          " -m hashlimit --hashlimit-name ".toList ++ shown ip.name ++ "-".toList ++
          shown rule.name ++ "-".toList ++ (toString ruleNum).toList ++ " --hashlimit ".toList ++
          shown (rule.attr "rate") ++ " --hashlimit-burst ".toList ++ burst ++
          " --hashlimit-mode ".toList ++ mode ++
          " --hashlimit-htable-size 24593 --hashlimit-htable-expire 90000 -j RETURN".toList ++
          " && iptables -A ".toList ++ chain ++ " -j DROP".toList)
  else if rule.hasType "drop" then some ("-j DROP".toList, [])
  else if rule.hasType "accept" then some ("-j ACCEPT".toList, [])
  else some ([], [])

/-- A match with the attribute, if it is given. -/
def option (text : String) (value : Option Text) : Text :=
  if strlenZero value then [] else text.toList ++ shown value

/-- The match of several ports. -/
def Rule.mports (rule : Rule) : Text :=
  let ports := rule.attr "mports"
  let source := rule.attr "srcmports"
  let destination := rule.attr "dstmports"
  if strlenZero ports then
    if strlenZero destination then option "-m mport --source-ports " source
    else if strlenZero source then option "-m mport --destination-ports " destination
    else
      "-m mport --source-ports ".toList ++ shown source ++ " --destination-ports ".toList ++
        shown destination
  else option "-m mport --ports " ports

/-- The buffers in the order of the command: their sizes, and what is printed into them. -/
def Rule.fields (rule : Rule) (ip : Ip) (address action hashlimit : Text) : List (ℕ × Text) :=
  [(128, "iptables -A ha-".toList ++ shown ip.name),
    (64, option "-p " (rule.attr "proto")),
    (32, option "--sport " (rule.attr "sport")),
    (32, option "--dport " (rule.attr "dport")),
    (256, option "-s " (rule.attr "src")),
    (256, "-d ".toList ++ address),
    (1024, rule.mports),
    (512, option "-m iprange --dst-range " (rule.attr "srcrange")),
    -- `destrange` is never set
    (512, []),
    (256, option "-m state --state " (rule.attr "state")),
    (64, option "-m mark --mark " (rule.attr "mark")),
    (64, option "-m length --length " (rule.attr "length")),
    (128, option "-m string --algo kmp --string " rule.string),
    (128, action),
    (384, hashlimit)]

/-- `sizeof(cmd)`, which is a pointer. -/
def sizeofCmd : ℕ := 8

/-- The fields with a blank after each; before the chain of a limit there is an ampersand. -/
def command (buffers : List Text) (hashlimit : Text) : Text :=
  [' '].intercalate (buffers ++ [if hashlimit = [] then [] else " && ".toList, hashlimit])

/-- `generate_rule_cmd`; `none` stands for reading or writing where nothing is. -/
def generateRuleCmd (rule : Rule) (ip : Ip) (ruleNum : ℕ) : Option (Option Text) :=
  if strlenZero rule.type || rule.isBare || rule.isRefused then some none
  else
    match rule.action ip ruleNum with
    | none => some none
    | some (action, hashlimit) =>
      match ip.cidr with
      | none => none
      | some cidr =>
        -- `ip_addr` has 64 characters, and the text is copied without its end
        if 64 < cidr.length then none
        else if '/' ∉ cidr then if cidr.length = 64 then none else some none
        else
          let buffers := (rule.fields ip (cidr.takeWhile (· ≠ '/')) action hashlimit).map
            fun field => snprintf field.1 field.2
          some (some (snprintf sizeofCmd
            (command buffers.dropLast (buffers.getLast?.getD []))))

/-- The commands of the rules from this number on. -/
def ruleCmds (ip : Ip) : ℕ → List Rule → Option (List (Option Text))
  | _, [] => some []
  | curRule, rule :: rules => do
    let cmd ← generateRuleCmd rule ip curRule
    let cmds ← ruleCmds ip (curRule + 1) rules
    return cmd :: cmds

/-- The loop of `rules_up` that prints the commands one behind the other. -/
def joinCmds (cmd : Text) : List (Option Text) → Text
  | [] => cmd
  | next :: cmds =>
    if cmd ≠ [] ∧ !strlenZero next then joinCmds (cmd ++ " && ".toList ++ shown next) cmds
    else if !strlenZero next then joinCmds (cmd ++ shown next) cmds
    else joinCmds cmd cmds

/-- `rules_up`, up to the command that it executes. -/
def rulesUp (rules : List Rule) (ip : Ip) : Option Text :=
  (ruleCmds ip 0 rules).map (joinCmds [])

/-! ## The statement -/

/-- The address of the rule. -/
def Ip.address (ip : Ip) : Text := ((ip.cidr.getD []).takeWhile (· ≠ '/'))

/-- A rule for which there is to be a command. -/
structure Rule.Valid (rule : Rule) (ip : Ip) (ruleNum : ℕ) : Prop where
  typed : rule.hasType "limit" ∨ rule.hasType "drop" ∨ rule.hasType "accept" ∨
    rule.hasType "reject"
  given : ¬ rule.isBare
  /-- a reject needs what to reject with, and a limit the rate -/
  needs : if rule.hasType "reject" then ¬ strlenZero (rule.attr "rejectwith")
    else rule.hasType "limit" → ¬ strlenZero (rule.attr "rate")
  cidr : ∃ cidr, ip.cidr = some cidr ∧ '/' ∈ cidr ∧ cidr.length < 64
  fits : ∀ action hashlimit, rule.action ip ruleNum = some (action, hashlimit) →
    ∀ field ∈ rule.fields ip ip.address action hashlimit, field.2.length < field.1

/-- The command has all that is to be printed for the rule. -/
def Rule.Complete (rule : Rule) (ip : Ip) (ruleNum : ℕ) (cmd : Text) : Prop :=
  ∃ action hashlimit, rule.action ip ruleNum = some (action, hashlimit) ∧
    ∀ field ∈ rule.fields ip ip.address action hashlimit, field.2 <:+: cmd

/-! ## What the command is -/

variable {rule : Rule} {ip : Ip} {ruleNum : ℕ}

lemma Rule.Valid.action_isSome (h : rule.Valid ip ruleNum) :
    ∃ action hashlimit, rule.action ip ruleNum = some (action, hashlimit) := by
  have hneeds := h.needs
  unfold Rule.action
  split_ifs at hneeds ⊢ with hreject hlimit hrate
  · exact ⟨_, _, rfl⟩
  · exact absurd hrate (hneeds hlimit)
  all_goals exact ⟨_, _, rfl⟩

/-- The type of a rule that is valid is given. -/
lemma Rule.Valid.type_given (h : rule.Valid ip ruleNum) : strlenZero rule.type = false := by
  have hword (word : String) (hne : word.toList ≠ []) (htype : rule.hasType word) :
      strlenZero rule.type = false := by
    cases htext : rule.type with
    | none => simp [Rule.hasType, htext] at htype
    | some text =>
      cases text with
      | nil =>
        simp only [Rule.hasType, htext, Option.any_some, strcasestr, List.map_nil] at htype
        rw [Search.indexOf_nil (by simpa using hne)] at htype
        cases htype
      | cons c text => rfl
  rcases h.typed with htype | htype | htype | htype
  all_goals exact hword _ (by decide) htype

/-- No more of a command is kept than the first letters of the program. -/
lemma snprintf_command {name : Text} {buffers : List Text} {hashlimit : Text} :
    snprintf sizeofCmd (command (snprintf 128 ("iptables -A ha-".toList ++ name) :: buffers)
      hashlimit) = "iptable".toList := by
  rw [command, List.cons_append, List.intercalate_cons_of_ne_nil (by simp), snprintf, snprintf,
    List.append_assoc, List.take_append_of_le_length (by simp [sizeofCmd]), List.take_take]
  rfl

/-- **What `generate_rule_cmd` returns** for a rule that is valid. -/
lemma generateRuleCmd_of_valid (h : rule.Valid ip ruleNum) :
    generateRuleCmd rule ip ruleNum =
      some (if rule.isRefused then none else some "iptable".toList) := by
  obtain ⟨action, hashlimit, haction⟩ := h.action_isSome
  obtain ⟨cidr, hcidr, hslash, hlength⟩ := h.cidr
  rw [generateRuleCmd, h.type_given, Bool.eq_false_iff.2 h.given, haction, hcidr]
  simp only [Bool.false_or]
  split_ifs with hrefused hlong
  · rfl
  · omega
  · exact congrArg (some ∘ some) snprintf_command

/-! ## The command of all rules -/

/-- The commands that there are. -/
def givenCmds (cmds : List (Option Text)) : List Text :=
  cmds.filterMap fun cmd => cmd.filter fun text => !text.isEmpty

lemma joinCmds_skip {cmd : Text} {next : Option Text} (h : strlenZero next = true)
    (cmds : List (Option Text)) : joinCmds cmd (next :: cmds) = joinCmds cmd cmds := by
  rw [joinCmds, if_neg (by simp [h]), if_neg (by simp [h])]

lemma intercalate_merge (sep text next : Text) (rest : List Text) :
    sep.intercalate ((text ++ sep ++ next) :: rest) = sep.intercalate (text :: next :: rest) := by
  cases rest <;> simp

lemma joinCmds_of_ne_nil {cmd : Text} (hcmd : cmd ≠ []) (cmds : List (Option Text)) :
    joinCmds cmd cmds = " && ".toList.intercalate (cmd :: givenCmds cmds) := by
  induction cmds generalizing cmd with
  | nil => exact List.intercalate_singleton.symm
  | cons next cmds ih =>
    rcases next with - | - | ⟨c, next⟩
    · exact (joinCmds_skip rfl cmds).trans (ih hcmd)
    · exact (joinCmds_skip rfl cmds).trans (ih hcmd)
    · rw [joinCmds, if_pos ⟨hcmd, rfl⟩, ih (by simp)]
      exact intercalate_merge ..

/-- The commands are joined by ampersands. -/
lemma joinCmds_nil (cmds : List (Option Text)) :
    joinCmds [] cmds = " && ".toList.intercalate (givenCmds cmds) := by
  induction cmds with
  | nil => rfl
  | cons next cmds ih =>
    cases next with
    | none => exact ih
    | some next =>
      cases next with
      | nil => exact ih
      | cons c next => exact joinCmds_of_ne_nil (List.cons_ne_nil c next) cmds

lemma ruleCmds_of_valid {rules : List Rule} {curRule : ℕ}
    (h : ∀ i (hi : i < rules.length), rules[i].Valid ip (curRule + i)) :
    ruleCmds ip curRule rules =
      some (rules.map fun rule => if rule.isRefused then none else some "iptable".toList) := by
  induction rules generalizing curRule with
  | nil => rfl
  | cons rule rules ih =>
    have hrest : ∀ i (hi : i < rules.length), rules[i].Valid ip (curRule + 1 + i) := fun i hi => by
      have hvalid := h (i + 1) (Nat.succ_lt_succ hi)
      rw [Nat.add_right_comm, Nat.add_assoc]
      exact hvalid
    have hfirst : rule.Valid ip curRule := h 0 (Nat.succ_pos _)
    rw [ruleCmds, generateRuleCmd_of_valid hfirst, ih hrest]
    rfl

lemma givenCmds_map {rules : List Rule} {text : Text} (htext : text ≠ []) :
    givenCmds (rules.map fun rule => if rule.isRefused then none else some text) =
      List.replicate (rules.countP fun rule => !rule.isRefused) text := by
  induction rules with
  | nil => rfl
  | cons rule rules ih =>
    rw [List.map_cons, givenCmds, List.filterMap_cons, ← givenCmds, ih, List.countP_cons]
    cases rule.isRefused with
    | true => rfl
    | false =>
      have hkept : (some text).filter (fun text => !text.isEmpty) = some text :=
        Option.filter_some_pos (by simpa using htext)
      simp [hkept, List.replicate_succ]

/-- **What `rules_up` executes** for rules that are valid: their beginnings, and nothing at all
where no rule names all four actions. -/
theorem rulesUp_of_valid {rules : List Rule}
    (h : ∀ i (hi : i < rules.length), rules[i].Valid ip i) :
    rulesUp rules ip = some (" && ".toList.intercalate
      (List.replicate (rules.countP fun rule => !rule.isRefused) "iptable".toList)) := by
  rw [rulesUp, ruleCmds_of_valid fun i hi => (Nat.zero_add i).symm ▸ h i hi, Option.map_some,
    joinCmds_nil, givenCmds_map (by decide)]

/-! ## No rule gets its command -/

/-- **No rule gets its command.**  `generate_rule_cmd` returns nothing for a rule that is valid,
unless its type names all four actions; then it returns the first seven letters. -/
theorem generateRuleCmd_never_complete (h : rule.Valid ip ruleNum) :
    generateRuleCmd rule ip ruleNum =
        some (if rule.isRefused then none else some "iptable".toList) ∧
      ¬ ∃ cmd, generateRuleCmd rule ip ruleNum = some (some cmd) ∧
        rule.Complete ip ruleNum cmd := by
  refine ⟨generateRuleCmd_of_valid h, ?_⟩
  rintro ⟨cmd, hcmd, action, hashlimit, -, hfields⟩
  rw [generateRuleCmd_of_valid h] at hcmd
  split_ifs at hcmd
  · cases hcmd
  · have hseven : "iptable".toList = cmd := Option.some.inj (Option.some.inj hcmd)
    have hbegin := (hfields (128, "iptables -A ha-".toList ++ shown ip.name)
      List.mem_cons_self).length_le
    rw [← hseven, List.length_append] at hbegin
    exact absurd (Nat.le_of_add_right_le hbegin) (by decide)

/-- A rule that drops what comes from a network. -/
def dropRule : Rule where
  name := some "bad".toList
  type := some "drop".toList
  string := some []
  others := ruleAttrs.map fun name => if name = "src" then some "10.0.0.0/8".toList else none

def publicIp : Ip where
  name := some "public".toList
  cidr := some "192.0.2.1/24".toList
  var := none
  dev := none
  rgroup := none
  routes := []

lemma dropRule_valid : dropRule.Valid publicIp 0 where
  typed := .inr (.inl (by decide))
  given := by decide
  needs := by decide
  cidr := ⟨_, rfl, by decide, by decide⟩
  fits action hashlimit h := by
    cases h
    decide

theorem generateRuleCmd_never_complete_drop :
    generateRuleCmd dropRule publicIp 0 =
        some (if dropRule.isRefused then none else some "iptable".toList) ∧
      ¬ ∃ cmd, generateRuleCmd dropRule publicIp 0 = some (some cmd) ∧
        dropRule.Complete publicIp 0 cmd :=
  generateRuleCmd_never_complete dropRule_valid

/-- The rule is valid, and there is no command. -/
theorem drop_rule_without_command :
    ¬ ∀ (rule : Rule) (ip : Ip) (ruleNum : ℕ), rule.Valid ip ruleNum →
      ∃ cmd, generateRuleCmd rule ip ruleNum = some (some cmd) ∧ rule.Complete ip ruleNum cmd := by
  intro h
  obtain ⟨cmd, hcmd, -⟩ := h dropRule publicIp 0 dropRule_valid
  rw [generateRuleCmd_of_valid dropRule_valid, if_pos (by decide)] at hcmd
  cases hcmd

end FreeswitchContrib.HaCluster

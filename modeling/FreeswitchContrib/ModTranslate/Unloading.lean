import FreeswitchContrib.ModTranslate.Rules

/-!
# What `do_unload` does to the rules

`do_unload` walks along the rules of every profile with two pointers, the first of which is tested
before it has a value.  `switch_safe_free` leaves NULL in it, so that the walk ends behind the first
rule; and rules and strings are from `globals.pool`.

* `doUnload` — the function, with what it reads, visits, frees and deletes.
* `Releases` — every rule is visited once, only heap memory is freed, and nothing is read that has no
  value.
* **`unload_releases_iff`** — that is so where there is nothing to unload.
-/

namespace FreeswitchContrib.ModTranslate

/-! ## `do_unload` -/

inductive Operation where
  /-- `rl` is read before it is set -/
  | readUninitialised
  /-- `nrl->next` is read where `nrl` is NULL -/
  | readNull
  /-- the rule of this number of a profile -/
  | visit (key : Text) (i : ℕ)
  | free (owner : Owner)
  | deleteProfile (key : Text)
  | destroyLock
  | destroyHash
  deriving DecidableEq

structure Unloaded where
  operations : List Operation
  /-- no NULL was dereferenced -/
  returns : Bool

/-- The loop over the rules of a profile; `rl` says whether the variable happens to be set. -/
def freeRules (rl : Bool) (key : Text) (rules : List Node) : Unloaded :=
  if rl then
    match rules with
    | [] => ⟨[.readUninitialised, .readNull], false⟩
    -- the regular expression, the replacement and the rule, and then `rl` is NULL
    | node :: _ =>
      ⟨[.readUninitialised, .visit key 0, .free node.owner, .free node.owner, .free node.owner],
        true⟩
  else ⟨[.readUninitialised], true⟩

/-- `do_unload`, with the entries of the hash in the order in which they come first. -/
def doUnload (rl : Text → Bool) : List (Text × List Node) → Unloaded
  | [] => ⟨[.destroyLock, .destroyHash], true⟩
  | (key, rules) :: rest =>
    let freed := freeRules (rl key) key rules
    if freed.returns then
      let others := doUnload rl rest
      ⟨freed.operations ++ .deleteProfile key :: others.operations, others.returns⟩
    else freed

/-! ## The statement -/

/-- `do_unload` returns and has released the rules of the configuration. -/
structure Releases (config : Configuration) (entries : List (Text × List Node))
    (unloaded : Unloaded) : Prop where
  returns : unloaded.returns
  reads : .readUninitialised ∉ unloaded.operations ∧ .readNull ∉ unloaded.operations
  visits : ∀ profile ∈ config, ∀ i < profile.rules.length,
    unloaded.operations.count (.visit profile.name i) = 1
  heap : ∀ owner, .free owner ∈ unloaded.operations → owner = .heap
  /-- the hash is empty when it is destroyed -/
  empties : ∃ before, unloaded.operations = before ++ [.destroyLock, .destroyHash] ∧
    ∀ entry ∈ entries, .deleteProfile entry.1 ∈ before

/-! ## What is read first -/

variable {config : Configuration} {profiles : List XProfile} {nullKept : Bool}
  {rl : Text → Bool} {order entries : List (Text × List Node)}

lemma readUninitialised_mem (rl : Bool) (key : Text) (rules : List Node) :
    .readUninitialised ∈ (freeRules rl key rules).operations := by
  cases rl with
  | false => exact List.mem_cons_self
  | true => cases rules <;> exact List.mem_cons_self

/-- Every profile has `rl` read. -/
lemma reads_of_entry (entry : Text × List Node) :
    .readUninitialised ∈ (doUnload rl (entry :: order)).operations := by
  obtain ⟨key, rules⟩ := entry
  have hread := readUninitialised_mem (rl key) key rules
  rw [doUnload]
  dsimp only
  split_ifs
  · exact List.mem_append_left _ hread
  · exact hread

/-- Without a profile no rule is visited. -/
lemma releases_nil_iff :
    Releases config [] (doUnload rl []) ↔ ∀ profile ∈ config, profile.rules = [] := by
  constructor
  · intro h profile hprofile
    by_contra hrules
    have hcount := h.visits profile hprofile 0 (List.length_pos_iff.mpr hrules)
    exact absurd hcount (by simp [doUnload])
  · intro hrules
    refine ⟨rfl, ⟨by simp [doUnload], by simp [doUnload]⟩, fun profile hprofile i hi => ?_,
      fun owner hfree => ?_, ?_⟩
    · rw [hrules profile hprofile] at hi
      cases hi
    · simp [doUnload] at hfree
    · exact ⟨[], rfl, fun _ h => nomatch h⟩

lemma releases_iff :
    Releases config order (doUnload rl order) ↔
      order = [] ∧ ∀ profile ∈ config, profile.rules = [] := by
  cases order with
  | nil => exact releases_nil_iff.trans (and_iff_right rfl).symm
  | cons entry order =>
    exact iff_of_false (fun h => h.reads.1 (reads_of_entry entry)) fun h => nomatch h.1

lemma rules_eq_nil (hrules : ∀ profile ∈ config, profile.rules = []) (name : Text) :
    config.rules name = [] := by
  rw [Configuration.rules]
  cases hlast : (config.filter (·.name = name)).getLast? with
  | none => rfl
  | some profile => exact hrules profile (List.mem_filter.mp (List.mem_of_getLast? hlast)).1

/-- Without rules the hash has the profiles, or nothing where it does not keep NULL. -/
lemma entries_eq_nil_iff (hrules : ∀ profile ∈ configuration profiles, profile.rules = []) :
    (loadConfig nullKept profiles).entries = [] ↔ (nullKept → profiles = []) := by
  have hfind : ∀ name, (loadConfig nullKept profiles).find? name = none ↔
      (nullKept → ∀ profile ∈ configuration profiles, profile.name ≠ name) := by
    intro name
    rw [find?_loadConfig, ite_eq_right_iff, rules_eq_nil hrules]
    constructor
    · intro h hkept profile hprofile hname
      cases h (Or.inr ⟨hkept, profile, hprofile, hname⟩)
    · rintro h (hne | ⟨hkept, profile, hprofile, hname⟩)
      · exact absurd rfl hne
      · exact absurd hname (h hkept profile hprofile)
  rw [← List.isEmpty_iff]
  refine OrderedMap.isEmpty_iff.trans ((forall_congr' hfind).trans ?_)
  constructor
  · intro h hkept
    refine List.eq_nil_iff_forall_not_mem.mpr fun x hx => ?_
    exact h x.profile.name hkept x.profile (List.mem_map_of_mem hx) rfl
  · intro h name hkept profile hprofile
    rw [configuration, h hkept] at hprofile
    cases hprofile

/-- **The rules are released exactly where there are none**, and no profile either where the hash
keeps it without rules. -/
theorem unload_releases_iff (nullKept : Bool) (profiles : List XProfile) (rl : Text → Bool)
    {order : List (Text × List Node)} (h : order.Perm (loadConfig nullKept profiles).entries) :
    Releases (configuration profiles) order (doUnload rl order) ↔
      (∀ profile ∈ configuration profiles, profile.rules = []) ∧ (nullKept → profiles = []) := by
  rw [releases_iff, and_comm]
  refine and_congr_right fun hrules => ?_
  rw [← entries_eq_nil_iff hrules, ← List.length_eq_zero_iff, h.length_eq,
    List.length_eq_zero_iff]

theorem unload_releases_nothing :
    Releases (configuration []) [] (doUnload (fun _ => true) []) :=
  (unload_releases_iff true [] (fun _ => true) (List.Perm.refl _)).mpr
    ⟨(fun _ h => nomatch h), fun _ => rfl⟩

/-- A profile with one rule, where `rl` happens to be NULL. -/
theorem rule_not_visited :
    ¬ Releases (configuration [⟨some "US".toList, [⟨some "^1".toList, some "49".toList⟩]⟩])
      (loadConfig false [⟨some "US".toList, [⟨some "^1".toList, some "49".toList⟩]⟩]).entries
      (doUnload (fun _ => false)
        (loadConfig false
          [⟨some "US".toList, [⟨some "^1".toList, some "49".toList⟩]⟩]).entries) := by
  intro h
  exact h.reads.1 List.mem_cons_self

end FreeswitchContrib.ModTranslate

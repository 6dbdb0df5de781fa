import Mathlib.Data.List.Induction
import Mathlib.Tactic.SplitIfs
import FreeswitchContrib.Blacklist.Commands

/-!
# Acknowledged updates

A command fetches the pointer of its list under one mutex and uses the list under another; a reload
frees the lists in between.  When no reload does (`Undisturbed`), no freed list is used and every
check sees the acknowledged additions and deletions of its entry that were not undone: `listsSafe`.

`standing` is what the history says about an entry.  The invariant ties it to the entries, and the
answer of a check to a moment between its start and its end.
-/

namespace FreeswitchContrib.Blacklist

open Interleaving

variable {τ : Type}

/-- The command that gives an entry this value. -/
def Kind.update : Bool → Kind
  | true => .add
  | false => .del

def answerText (value : Bool) : String := if value then "true" else "false"

/-- The entry gets the value. -/
def Event.Sets (name entry : String) (value : Bool) (e : Event τ) : Prop :=
  ∃ t, e = .done t (.access ⟨Kind.update value, name, entry⟩)

def Event.Reloads (e : Event τ) : Prop := ∃ t, e = .done t .reload

def Event.StartedBy (t : τ) (e : Event τ) : Prop := ∃ command, e = .started t command

/-- **Acknowledged updates are seen.**  An addition or deletion was done and acknowledged; then a
check of the entry starts, and until its answer no reload and no opposite update is done. -/
def UpdatesSeen (history : List (Event τ)) : Prop :=
  ∀ (name entry : String) (value : Bool) (t t' : τ) (text : String)
    (before acknowledging between during after : List (Event τ)),
    history = before ++ .done t (.access ⟨Kind.update value, name, entry⟩) :: (acknowledging ++
      .answered t (.access ⟨Kind.update value, name, entry⟩) "+OK\n" :: (between ++
      .started t' (.access ⟨.check, name, entry⟩) :: (during ++
      .answered t' (.access ⟨.check, name, entry⟩) text :: after))) →
    (∀ e ∈ during, ¬ e.StartedBy t') →
    (∀ e ∈ acknowledging ++ between ++ during, ¬ e.Reloads ∧ ¬ e.Sets name entry !value) →
    text = answerText value

/-- What a step must find: no list is freed while a command has its pointer. -/
def Undisturbed (s : State τ) : Action τ → Prop
  | .doConfig _ config => config ≠ none → ∀ t a bl, s.phase t ≠ .use a bl
  | _ => True

/-! ## What the history says -/

/-- The value of an entry after an event, when it is known. -/
def Event.value (name entry : String) (value : Option Bool) : Event τ → Option Bool
  | .done _ (.access a) =>
    if a.name = name ∧ a.entry = entry then
      match a.kind with
      | .check => value
      | .add => some true
      | .del => some false
    else value
  | .done _ .reload => none
  | _ => value

def standing (name entry : String) (history : List (Event τ)) : Option Bool :=
  history.foldl (Event.value name entry) none

variable {name entry : String} {value : Bool} {history l : List (Event τ)} {e : Event τ} {t : τ}
  {a : Access} {text : String}

lemma standing_snoc :
    standing name entry (history ++ [e]) = e.value name entry (standing name entry history) := by
  rw [standing, List.foldl_append]
  rfl

/-- An update stands as long as nothing undoes it. -/
lemma standing_append (h : standing name entry history = some value)
    (hl : ∀ e ∈ l, ¬ e.Reloads ∧ ¬ e.Sets name entry !value) :
    standing name entry (history ++ l) = some value := by
  induction l using List.reverseRecOn with
  | nil => rwa [List.append_nil]
  | append_singleton l e ih =>
    have hprev := ih fun e he => hl e (List.mem_append_left _ he)
    obtain ⟨hreload, hsets⟩ := hl e (by simp)
    rw [← List.append_assoc, standing_snoc, hprev]
    cases e with
    | started t c | answered t c text => rfl
    | done t c =>
      cases c with
      | reload => exact absurd ⟨t, rfl⟩ hreload
      | access a =>
        obtain ⟨kind, n, e⟩ := a
        simp only [Event.value]
        split_ifs with heq
        · obtain ⟨rfl, rfl⟩ := heq
          cases kind with
          | check => rfl
          | add =>
            cases value with
            | true => rfl
            | false => exact absurd ⟨t, rfl⟩ hsets
          | del =>
            cases value with
            | true => exact absurd ⟨t, rfl⟩ hsets
            | false => rfl
        · rfl

lemma standing_sets (t : τ) :
    standing name entry (history ++ [.done t (.access ⟨Kind.update value, name, entry⟩)]) =
      some value := by
  rw [standing_snoc]
  cases value <;> simp [Event.value, Kind.update]

/-! ## The lists -/

namespace Lists

structure WellFormed (l : Lists) : Prop where
  alive : ∀ p ∈ l.lists, l.freed p.2 = false
  created : ∀ p ∈ l.lists, p.2 < l.numCreated
  freed_lt : ∀ bl, l.freed bl = true → bl < l.numCreated
  unique : ∀ p ∈ l.lists, ∀ q ∈ l.lists, p.2 = q.2 → p.1 = q.1
  misused : l.misused = false

variable {l : Lists} {name entry : String} {bl : ListPtr} {value : Bool}

lemma mem_of_find : ∀ {lists : List (String × ListPtr)}, lists.lookup name = some bl →
    (name, bl) ∈ lists
  | [], h => by cases h
  | (n, b) :: lists, h => by
    rw [List.lookup_cons] at h
    split at h
    · simp_all
    · exact List.mem_cons_of_mem _ (mem_of_find h)

lemma WellFormed.insertEntry (h : l.WellFormed) : (l.insertEntry bl entry value).WellFormed :=
  ⟨h.alive, h.created, h.freed_lt, h.unique, h.misused⟩

lemma WellFormed.insert (h : l.WellFormed) (hbl : bl < l.numCreated) (halive : l.freed bl = false)
    (hnew : ∀ p ∈ l.lists, p.2 ≠ bl) : (l.insert name bl).WellFormed where
  alive p hp := by
    rcases List.mem_cons.mp hp with rfl | hp
    · exact halive
    · exact h.alive p (List.mem_filter.mp hp).1
  created p hp := by
    rcases List.mem_cons.mp hp with rfl | hp
    · exact hbl
    · exact h.created p (List.mem_filter.mp hp).1
  freed_lt := h.freed_lt
  unique p hp q hq heq := by
    rcases List.mem_cons.mp hp with rfl | hp <;> rcases List.mem_cons.mp hq with rfl | hq
    · rfl
    · exact absurd heq.symm (hnew q (List.mem_filter.mp hq).1)
    · exact absurd heq (hnew p (List.mem_filter.mp hp).1)
    · exact h.unique p (List.mem_filter.mp hp).1 q (List.mem_filter.mp hq).1 heq
  misused := h.misused

/-- The lists themselves stay as they are while a file is read. -/
lemma foldl_insertEntry (lines : List String) (l : Lists) (bl : ListPtr) :
    ∃ entries, lines.foldl (fun l buf => l.insertEntry bl (trim buf) true) l =
      { l with entries := entries } := by
  induction lines generalizing l with
  | nil => exact ⟨l.entries, rfl⟩
  | cons buf lines ih => exact ih _

lemma WellFormed.loadList (h : l.WellFormed) {file : Option (List String)} :
    (l.loadList name file).WellFormed := by
  have hcreated : l.blacklistCreate.WellFormed :=
    ⟨h.alive, fun p hp => Nat.lt_succ_of_lt (h.created p hp),
      fun bl hbl => Nat.lt_succ_of_lt (h.freed_lt bl hbl), h.unique, h.misused⟩
  cases file with
  | none => exact hcreated
  | some lines =>
    obtain ⟨entries, heq⟩ := foldl_insertEntry lines l.blacklistCreate l.numCreated
    have hread : ({ l.blacklistCreate with entries := entries } : Lists).WellFormed :=
      ⟨hcreated.alive, hcreated.created, hcreated.freed_lt, hcreated.unique, hcreated.misused⟩
    simp only [Lists.loadList, heq]
    refine hread.insert (Nat.lt_succ_self _) ?_ fun p hp => Nat.ne_of_lt (h.created p hp)
    -- a number that was not given out before
    exact Bool.eq_false_iff.mpr fun hfreed => absurd (h.freed_lt _ hfreed) (Nat.lt_irrefl _)

lemma foldl_blacklistFree : ∀ {ps : List (String × ListPtr)} {l : Lists},
    (∀ p ∈ ps, p.2 < l.numCreated) → (∀ bl, l.freed bl = true → bl < l.numCreated) →
    ∃ freed, ps.foldl (fun l list => l.blacklistFree list.2) l = { l with freed := freed } ∧
      ∀ bl, freed bl = true → bl < l.numCreated
  | [], l, _, hfreed => ⟨l.freed, rfl, hfreed⟩
  | p :: ps, l, hps, hfreed => by
    refine foldl_blacklistFree (l := l.blacklistFree p.2)
      (fun q hq => hps q (List.mem_cons_of_mem p hq)) fun bl hbl => ?_
    by_cases heq : bl = p.2
    · exact heq ▸ hps p List.mem_cons_self
    · simp only [blacklistFree, Function.update_of_ne heq] at hbl
      exact hfreed bl hbl

lemma WellFormed.doConfig (h : l.WellFormed) {config : Config} :
    (l.doConfig config).WellFormed := by
  cases config with
  | none => exact h
  | some cfg =>
    obtain ⟨freed, heq, hfreed⟩ := foldl_blacklistFree h.created h.freed_lt
    have hempty : ({ l with freed := freed, lists := [] } : Lists).WellFormed :=
      ⟨by simp, by simp, hfreed, by simp, h.misused⟩
    simp only [Lists.doConfig, heq]
    generalize ({ l with freed := freed, lists := [] } : Lists) = l' at hempty
    induction cfg generalizing l' with
    | nil => exact hempty
    | cons list cfg ih => exact ih _ hempty.loadList

/-- A list that can be found is not freed. -/
lemma WellFormed.use_eq (h : l.WellFormed) {a : Access} (hfind : l.find a.name = some bl) :
    l.use bl a = match a.kind with
      | .check => l
      | .add => l.insertEntry bl a.entry true
      | .del => l.insertEntry bl a.entry false := by
  have halive : l.freed bl = false := h.alive _ (mem_of_find hfind)
  rw [use, halive]
  rfl

lemma WellFormed.use (h : l.WellFormed) {a : Access} (hfind : l.find a.name = some bl) :
    (l.use bl a).WellFormed ∧ (l.use bl a).lists = l.lists := by
  rw [h.use_eq hfind]
  obtain ⟨kind, n, e⟩ := a
  cases kind with
  | check => exact ⟨h, rfl⟩
  | add | del => exact ⟨h.insertEntry, rfl⟩

end Lists

/-! ## The invariant -/

/-- What the thread has started, and nothing since. -/
def Session (t : τ) (history : List (Event τ)) (command : Command) : Prop :=
  ∃ before after, IsLast (Event.StartedBy t) history before (.started t command) after

/-- The answer was right at a moment since the check was started. -/
def RightAnswer (t : τ) (history : List (Event τ)) (name entry text : String) : Prop :=
  ∃ before seen rest, IsLast (Event.StartedBy t) history before
      (.started t (.access ⟨.check, name, entry⟩)) (seen ++ rest) ∧
    ∀ value, standing name entry
      (before ++ .started t (.access ⟨.check, name, entry⟩) :: seen) = some value →
      text = answerText value

def PhaseOk (s : State τ) (t : τ) : Phase → Prop
  | .idle | .doConfig => True
  | .find a => Session t s.history (.access a)
  | .use a bl => Session t s.history (.access a) ∧ s.lists.find a.name = some bl
  | .answer command text => ∀ name entry, command = .access ⟨.check, name, entry⟩ →
    RightAnswer t s.history name entry text

/-- **The invariant.** -/
structure Inv (s : State τ) : Prop where
  lists : s.lists.WellFormed
  standing : ∀ name entry value, standing name entry s.history = some value →
    ∃ bl, s.lists.find name = some bl ∧ s.lists.entries bl entry = value
  phase : ∀ t, PhaseOk s t (s.phase t)
  answered : ∀ t name entry text before after,
    s.history = before ++ .answered t (.access ⟨.check, name, entry⟩) text :: after →
    RightAnswer t before name entry text

variable {s s' : State τ} {command : Command} {events : List (Event τ)} {t' : τ}

lemma Session.append (h : Session t history command) (hl : ∀ e ∈ l, ¬ e.StartedBy t) :
    Session t (history ++ l) command := by
  obtain ⟨before, after, hlast⟩ := h
  exact ⟨before, after ++ l, hlast.append hl⟩

lemma RightAnswer.append (h : RightAnswer t history name entry text)
    (hl : ∀ e ∈ l, ¬ e.StartedBy t) : RightAnswer t (history ++ l) name entry text := by
  obtain ⟨before, seen, rest, hlast, hright⟩ := h
  exact ⟨before, seen, rest ++ l, by simpa using hlast.append hl, hright⟩

/-- An answer that agrees with the history so far. -/
lemma Session.rightAnswer (h : Session t history (.access ⟨.check, name, entry⟩))
    (hright : ∀ value, standing name entry history = some value → text = answerText value) :
    RightAnswer t history name entry text := by
  obtain ⟨before, after, hlast⟩ := h
  refine ⟨before, after, [], by simpa using hlast, fun value hvalue => hright value ?_⟩
  rwa [hlast.eq]

lemma PhaseOk.frame {q : Phase} (h : PhaseOk s t q) (hhistory : s'.history = s.history ++ events)
    (hevents : ∀ e ∈ events, ¬ e.StartedBy t)
    (hfind : ∀ a bl, q = .use a bl → s'.lists.find a.name = s.lists.find a.name) :
    PhaseOk s' t q := by
  cases q with
  | idle | doConfig => trivial
  | find a =>
    rw [PhaseOk, hhistory]
    exact Session.append h hevents
  | use a bl => exact ⟨hhistory ▸ h.1.append hevents, (hfind a bl rfl).trans h.2⟩
  | answer command text =>
    exact fun name entry heq => hhistory ▸ (h name entry heq).append hevents

lemma Inv.init (config : Lists.Config) : Inv (State.init τ config) where
  lists := Lists.WellFormed.doConfig ⟨by simp, by simp, by simp, by simp, rfl⟩
  standing name entry value h := by cases h
  phase _ := trivial
  answered t name entry text before after h := by simp [State.init] at h

/-- After an access, what stands is what the list has. -/
lemma Inv.standing_use (h : Inv s) {a : Access} {bl : ListPtr}
    (hfind : s.lists.find a.name = some bl)
    (hvalue : Blacklist.standing name entry (s.history ++ [.done t (.access a)]) = some value) :
    ∃ bl', (s.lists.use bl a).find name = some bl' ∧
      (s.lists.use bl a).entries bl' entry = value := by
  have hlists : ∀ n, (s.lists.use bl a).find n = s.lists.find n := fun n => by
    rw [Lists.find, Lists.find, (h.lists.use hfind).2]
  rw [standing_snoc] at hvalue
  simp only [hlists]
  rw [h.lists.use_eq hfind]
  obtain ⟨kind, n, e⟩ := a
  have hset : ∀ v, (n = name ∧ e = entry → v = value) →
      (¬ (n = name ∧ e = entry) → Blacklist.standing name entry s.history = some value) →
      ∃ bl', s.lists.find name = some bl' ∧
        (s.lists.insertEntry bl e v).entries bl' entry = value := by
    intro v hthis hother
    by_cases heq : n = name ∧ e = entry
    · obtain ⟨rfl, rfl⟩ := heq
      refine ⟨bl, hfind, ?_⟩
      simp [Lists.insertEntry, hthis ⟨rfl, rfl⟩]
    · obtain ⟨bl', hbl', hentry⟩ := h.standing name entry value (hother heq)
      refine ⟨bl', hbl', ?_⟩
      by_cases hlist : bl' = bl
      · -- another entry of the same list
        subst hlist
        have hname := h.lists.unique _ (Lists.mem_of_find hfind) _ (Lists.mem_of_find hbl') rfl
        have hne : entry ≠ e := fun hentry => heq ⟨hname, hentry.symm⟩
        simpa [Lists.insertEntry, Function.update_of_ne hne] using hentry
      · simpa [Lists.insertEntry, Function.update_of_ne hlist] using hentry
  simp only [Event.value] at hvalue
  cases kind with
  | check =>
    rw [ite_self] at hvalue
    exact h.standing name entry value hvalue
  | add | del =>
    refine hset _ (fun heq => ?_) fun hne => ?_
    · rw [if_pos heq] at hvalue
      exact Option.some.inj hvalue
    · rwa [if_neg hne] at hvalue

/-- The answer to a check is right about the updates before it. -/
lemma Inv.updatesSeen (h : Inv s) : UpdatesSeen s.history := by
  intro name entry value t t' text before acknowledging between during after heq hduring hkeep
  obtain ⟨b, seen, rest, hlast, hright⟩ := h.answered t' name entry text
    (before ++ .done t (.access ⟨Kind.update value, name, entry⟩) :: (acknowledging ++
      .answered t (.access ⟨Kind.update value, name, entry⟩) "+OK\n" :: (between ++
      .started t' (.access ⟨.check, name, entry⟩) :: during))) after (by simpa using heq)
  -- the check of the answer is the one that was started there
  have hstart : IsLast (Event.StartedBy t') (before ++
      .done t (.access ⟨Kind.update value, name, entry⟩) :: (acknowledging ++
      .answered t (.access ⟨Kind.update value, name, entry⟩) "+OK\n" :: (between ++
      .started t' (.access ⟨.check, name, entry⟩) :: during)))
      (before ++ .done t (.access ⟨Kind.update value, name, entry⟩) :: (acknowledging ++
      .answered t (.access ⟨Kind.update value, name, entry⟩) "+OK\n" :: between))
      (.started t' (.access ⟨.check, name, entry⟩)) during :=
    ⟨by simp, ⟨_, rfl⟩, hduring⟩
  obtain ⟨rfl, -, rfl⟩ := hlast.unique hstart
  refine hright value ?_
  have hquiet : ∀ e ∈ acknowledging ++
      .answered t (.access ⟨Kind.update value, name, entry⟩) "+OK\n" :: (between ++
      .started t' (.access ⟨.check, name, entry⟩) :: seen), ¬ e.Reloads ∧
      ¬ e.Sets name entry !value := by
    intro e he
    simp only [List.mem_append, List.mem_cons] at he
    rcases he with he | rfl | he | rfl | he
    · exact hkeep e (by simp [he])
    · simp [Event.Reloads, Event.Sets]
    · exact hkeep e (by simp [he])
    · simp [Event.Reloads, Event.Sets]
    · exact hkeep e (by simp [he])
  have hstands : Blacklist.standing name entry ((before ++
      [.done t (.access ⟨Kind.update value, name, entry⟩)]) ++ (acknowledging ++
      .answered t (.access ⟨Kind.update value, name, entry⟩) "+OK\n" :: (between ++
      .started t' (.access ⟨.check, name, entry⟩) :: seen))) = some value :=
    standing_append (standing_sets t) hquiet
  simpa using hstands

variable [DecidableEq τ]

/-- What is left to show for a step of a thread. -/
lemma Inv.step (h : Inv s) {lists : Lists} {q : Phase} (hlists : lists.WellFormed)
    (hstanding : ∀ name entry value, Blacklist.standing name entry (s.history ++ events) =
      some value → ∃ bl, lists.find name = some bl ∧ lists.entries bl entry = value)
    (hfind : ∀ t' a bl, t' ≠ t → s.phase t' = .use a bl →
      lists.find a.name = s.lists.find a.name)
    (hevents : ∀ e ∈ events, ∀ t', t' ≠ t → ¬ e.StartedBy t')
    (hphase : PhaseOk ({ s with lists := lists }.goto t q events) t q)
    (hanswered : ∀ t' name entry text,
      .answered t' (.access ⟨.check, name, entry⟩) text ∈ events → events.length = 1 ∧
      RightAnswer t' s.history name entry text) :
    Inv ({ s with lists := lists }.goto t q events) where
  lists := hlists
  standing := hstanding
  phase t' := by
    by_cases heq : t' = t
    · subst heq
      simpa only [State.goto, Function.update_self] using hphase
    · have hsame : ({ s with lists := lists }.goto t q events).phase t' = s.phase t' :=
        Function.update_of_ne heq _ _
      rw [hsame]
      exact (h.phase t').frame rfl (fun e he => hevents e he t' heq) fun a bl => hfind t' a bl heq
  answered t' name entry text before after heq := by
    rcases List.append_eq_append_iff.mp heq with ⟨l, rfl, hl⟩ | ⟨l, hl, hl'⟩
    · -- among the new events
      obtain ⟨hlength, hright⟩ := hanswered t' name entry text (by rw [hl]; simp)
      rw [hl] at hlength
      obtain rfl : l = [] := List.eq_nil_of_length_eq_zero (by simp at hlength; omega)
      rwa [List.append_nil]
    · cases l with
      | nil =>
        rw [List.append_nil] at hl
        subst hl
        rw [List.nil_append] at hl'
        exact (hanswered t' name entry text (by rw [← hl']; exact List.mem_cons_self)).2
      | cons x l =>
        obtain ⟨rfl, -⟩ := List.cons_eq_cons.mp hl'
        exact h.answered t' name entry text before l hl

/-- A step that leaves the lists and tells nothing. -/
lemma Inv.step_quiet (h : Inv s) {q : Phase}
    (hphase : PhaseOk (s.goto t q events) t q)
    (hevents : ∀ e ∈ events, ∀ name entry value, e.value name entry value = value)
    (hstarted : ∀ e ∈ events, ∀ t', t' ≠ t → ¬ e.StartedBy t')
    (hanswered : ∀ t' name entry text,
      .answered t' (.access ⟨.check, name, entry⟩) text ∈ events → events.length = 1 ∧
      RightAnswer t' s.history name entry text) : Inv (s.goto t q events) := by
  refine h.step h.lists (fun name entry value hvalue => h.standing name entry value ?_)
    (fun _ _ _ _ _ => rfl) hstarted hphase hanswered
  have hkeep : ∀ events : List (Event τ),
      (∀ e ∈ events, ∀ name entry value, e.value name entry value = value) →
      ∀ v, events.foldl (Event.value name entry) v = v := by
    intro events
    induction events with
    | nil => exact fun _ _ => rfl
    | cons e events ih =>
      intro hevents v
      rw [List.foldl_cons, hevents e List.mem_cons_self]
      exact ih (fun e' he' => hevents e' (List.mem_cons_of_mem e he')) v
  rwa [Blacklist.standing, List.foldl_append, hkeep events hevents] at hvalue

lemma Inv.start (h : Inv s) {argv : List String} (hnext : next s (.start t argv) = some s') :
    Inv s' := by
  have hstarted : ∀ command, ∀ e ∈ [Event.started t command], ∀ t', t' ≠ t → ¬ e.StartedBy t' := by
    rintro command e he t' hne ⟨command', heq⟩
    obtain rfl := List.mem_singleton.mp he
    cases heq
    exact hne rfl
  have hvalue : ∀ command, ∀ e ∈ [Event.started t command], ∀ name entry value,
      e.value name entry value = value := by
    intro command e he name entry value
    obtain rfl := List.mem_singleton.mp he
    rfl
  rw [next] at hnext
  cases hphase : s.phase t with
  | idle =>
    simp only [hphase] at hnext
    cases hargv : Command.ofArgv argv with
    | none =>
      rw [hargv] at hnext
      obtain rfl := Option.some.inj hnext
      exact h
    | some command =>
      rw [hargv] at hnext
      cases command with
      | access a =>
        obtain rfl := Option.some.inj hnext
        exact h.step_quiet ⟨s.history, [], isLast_snoc ⟨_, rfl⟩⟩ (hvalue _) (hstarted _) (by simp)
      | reload =>
        obtain rfl := Option.some.inj hnext
        exact h.step_quiet trivial (hvalue _) (hstarted _) (by simp)
  | find a | use a bl | doConfig | answer command text => simp [hphase] at hnext

lemma Inv.find (h : Inv s) (hnext : next s (.find t) = some s') : Inv s' := by
  have hok := h.phase t
  rw [next] at hnext
  cases hphase : s.phase t with
  | find a =>
    rw [hphase] at hok
    simp only [hphase] at hnext
    have hsession : Session t (s.history ++ []) (.access a) := by
      rw [List.append_nil]
      exact hok
    cases hfind : s.lists.find a.name with
    | none =>
      rw [hfind] at hnext
      obtain rfl := Option.some.inj hnext
      refine h.step_quiet (fun name entry heq => ?_) (by simp) (by simp) (by simp)
      obtain rfl := Command.access.inj heq
      refine hsession.rightAnswer fun value hvalue => ?_
      -- nothing stands for a list that is not there
      rw [List.append_nil] at hvalue
      obtain ⟨bl, hbl, -⟩ := h.standing name entry value hvalue
      rw [hfind] at hbl
      cases hbl
    | some bl =>
      rw [hfind] at hnext
      obtain rfl := Option.some.inj hnext
      exact h.step_quiet ⟨hsession, hfind⟩ (by simp) (by simp) (by simp)
  | idle | use a bl | doConfig | answer command text => simp [hphase] at hnext

lemma Inv.use (h : Inv s) (hnext : next s (.use t) = some s') : Inv s' := by
  have hok := h.phase t
  rw [next] at hnext
  cases hphase : s.phase t with
  | use a bl =>
    rw [hphase] at hok
    obtain ⟨hsession, hfind⟩ := hok
    simp only [hphase] at hnext
    obtain rfl := Option.some.inj hnext
    obtain ⟨hwf, hlists⟩ := h.lists.use hfind
    refine h.step hwf (fun name entry value hvalue => h.standing_use hfind hvalue)
      (fun _ _ _ _ _ => by rw [Lists.find, hlists, Lists.find]) (by simp [Event.StartedBy]) ?_
      (by simp)
    -- a check sees what stands
    intro name entry heq
    obtain rfl := Command.access.inj heq
    refine (hsession.rightAnswer fun value hvalue => ?_).append (by simp [Event.StartedBy])
    obtain ⟨bl', hbl', hentry⟩ := h.standing name entry value hvalue
    obtain rfl : bl = bl' := Option.some.inj (hfind.symm.trans hbl')
    rw [Lists.result, hentry]
    rfl
  | idle | find a | doConfig | answer command text => simp [hphase] at hnext

lemma Inv.doConfig (h : Inv s) {config : Lists.Config} (hu : Undisturbed s (.doConfig t config))
    (hnext : next s (.doConfig t config) = some s') : Inv s' := by
  rw [next] at hnext
  cases hphase : s.phase t with
  | doConfig =>
    simp only [hphase] at hnext
    obtain rfl := Option.some.inj hnext
    cases config with
    | none => exact h.step_quiet nofun (by simp) (by simp) (by simp)
    | some cfg =>
      refine h.step h.lists.doConfig (fun name entry value hvalue => ?_)
        (fun t' a bl _ hbl => absurd hbl (hu nofun t' a bl)) (by simp [Event.StartedBy]) nofun
        (by simp)
      simp only [Option.isSome_some, if_true] at hvalue
      rw [standing_snoc] at hvalue
      cases hvalue
  | idle | find a | use a bl | answer command text => simp [hphase] at hnext

lemma Inv.answer (h : Inv s) (hnext : next s (.answer t) = some s') : Inv s' := by
  have hok := h.phase t
  rw [next] at hnext
  cases hphase : s.phase t with
  | answer command text =>
    rw [hphase] at hok
    simp only [hphase] at hnext
    obtain rfl := Option.some.inj hnext
    refine h.step_quiet trivial (by simp [Event.value]) (by simp [Event.StartedBy])
      fun t' name entry text' hmem => ⟨rfl, ?_⟩
    obtain ⟨rfl, rfl, rfl⟩ := Event.answered.inj (List.mem_singleton.mp hmem)
    exact hok name entry rfl
  | idle | find a | use a bl | doConfig => simp [hphase] at hnext

lemma Inv.next {a : Action τ} (h : Inv s) (hu : Undisturbed s a) (hnext : next s a = some s') :
    Inv s' := by
  cases a with
  | start t argv => exact h.start hnext
  | find t => exact h.find hnext
  | use t => exact h.use hnext
  | doConfig t config => exact h.doConfig hu hnext
  | answer t => exact h.answer hnext

/-- **When no reload frees a list that a command is about to use**, no freed list is used, and no
acknowledged update is lost. -/
theorem listsSafe {config : Lists.Config} {as : List (Action τ)}
    (hu : Always Blacklist.next Undisturbed (State.init τ config) as)
    (hrun : run Blacklist.next (State.init τ config) as = some s) :
    s.lists.misused = false ∧ UpdatesSeen s.history :=
  have hinv : Inv s :=
    run_invariant_of_always (fun _ _ _ h hu hnext => h.next hu hnext) (Inv.init config) hu hrun
  ⟨hinv.lists.misused, hinv.updatesSeen⟩

/-- An entry is added, and checked by another thread; the list was reloaded before. -/
def addThenCheck : List (Action Bool) :=
  [.start true ["reload"], .start false ["add", "spam", "42"],
    .doConfig true (some [("spam", some ["7\r\n"])]), .find false, .answer true, .use false,
    .answer false, .start true ["CHECK", "spam", "42"], .find true, .use true, .answer true]

theorem listsSafe_addThenCheck : ∃ s, run Blacklist.next (State.init Bool none) addThenCheck =
      some s ∧
    s.history.getLast? = some (.answered true (.access ⟨.check, "spam", "42"⟩) "true") ∧
    s.lists.misused = false ∧ UpdatesSeen s.history := by
  have hu : Always Blacklist.next Undisturbed (State.init Bool none) addThenCheck := by
    refine always_cons trivial rfl <| always_cons trivial rfl <|
      always_cons (fun _ t a bl => ?_) rfl <| always_cons trivial rfl <| always_cons trivial rfl <|
      always_cons trivial rfl <| always_cons trivial rfl <| always_cons trivial rfl <|
      always_cons trivial rfl <| always_cons trivial rfl <| always_cons trivial rfl trivial
    cases t <;> nofun
  have hrun : run Blacklist.next (State.init Bool none) addThenCheck = some _ := rfl
  exact ⟨_, hrun, rfl, listsSafe hu hrun⟩

/-- A check has the pointer of its list, a reload frees the list, the check locks its mutex. -/
theorem not_listsSafe : ¬ ∀ (config : Lists.Config) (as : List (Action Bool)) (s : State Bool),
    run Blacklist.next (State.init Bool config) as = some s →
    s.lists.misused = false ∧ UpdatesSeen s.history := by
  intro h
  have hsafe := h (some [("spam", some [])]) [.start true ["check", "spam", "42"], .find true,
    .start false ["reload"], .doConfig false (some []), .use true] _ rfl
  exact absurd hsafe.1 (by decide)

end FreeswitchContrib.Blacklist

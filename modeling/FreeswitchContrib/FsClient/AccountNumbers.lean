import FreeswitchContrib.FsClient.Accounts
import Mathlib.Data.List.Perm.Subperm

/-!
# Account numbers are unique

With at most ten accounts there is a free number for each of them.  The setter of an account number
is called in its own handler, and comes back from the second call; an account that is added has its
number set twice, so that one that was taken is replaced.

* `Numbered` — the numbers of the listed accounts are not empty and distinct.
* `setGuid_frees` — what the setter leaves is free.
* **`account_numbers_unique`** — no operation throws or goes on for ever, and the numbers stay so.
-/

namespace FreeswitchContrib.FsClient.Accounts

variable {program : Program} {s s' : State} {acct a : Ref} {guid value : Option Text}
  {history : List Action}

/-- The numbers of the listed accounts but one are not empty and distinct. -/
structure NumberedBut (s : State) (acct : Ref) : Prop where
  nonempty : ∀ a ∈ s.accounts, a ≠ acct → isNullOrEmpty (s.guid a) = false
  distinct : ∀ a ∈ s.accounts, ∀ b ∈ s.accounts, a ≠ acct → b ≠ acct → s.guid a = s.guid b → a = b

/-- This number is not empty, and of no other account of the list. -/
structure Free (s : State) (acct : Ref) (guid : Option Text) : Prop where
  nonempty : isNullOrEmpty guid = false
  fresh : ∀ a ∈ s.accounts, a ≠ acct → s.guid a ≠ guid

/-- The listed accounts have been made, are listed once, and have distinct numbers. -/
structure Numbered (s : State) : Prop where
  nodup : s.accounts.Nodup
  made : ∀ a ∈ s.accounts, a < s.made
  nonempty : ∀ a ∈ s.accounts, isNullOrEmpty (s.guid a) = false
  distinct : ∀ a ∈ s.accounts, ∀ b ∈ s.accounts, s.guid a = s.guid b → a = b

lemma Numbered.but (h : Numbered s) (acct : Ref) : NumberedBut s acct where
  nonempty a ha _ := h.nonempty a ha
  distinct a ha b hb _ _ hab := h.distinct a ha b hb hab

/-! ## Lookups -/

/-- A lookup of which two answers would be the same does not throw. -/
lemma singleOrDefault_filter {p : Ref → Bool} {accounts : List Ref} (hnodup : accounts.Nodup)
    (hunique : ∀ a ∈ accounts, ∀ b ∈ accounts, p a → p b → a = b) :
    ∃ found, singleOrDefault (accounts.filter p) = some found ∧
      (found = none ↔ ∀ a ∈ accounts, p a = false) := by
  have hfiltered : (accounts.filter p).Nodup := hnodup.filter p
  have hmem : ∀ a, a ∈ accounts.filter p ↔ a ∈ accounts ∧ p a := fun a => List.mem_filter
  match hlist : accounts.filter p with
  | [] =>
    refine ⟨none, rfl, fun _ a ha => ?_, fun _ => rfl⟩
    simpa [hlist, ha] using hmem a
  | [a] =>
    refine ⟨some a, rfl, fun h => (by cases h), fun h => ?_⟩
    have ha := (hmem a).mp (by simp [hlist])
    rw [h a ha.1] at ha
    cases ha.2
  | a :: b :: rest =>
    rw [hlist] at hfiltered
    have ha := (hmem a).mp (by simp [hlist])
    have hb := (hmem b).mp (by simp [hlist])
    have hab : a = b := hunique a ha.1 b hb.1 ha.2 hb.2
    rw [hab] at hfiltered
    simp at hfiltered

lemma guidOk_eq (hnodup : s.accounts.Nodup) (h : NumberedBut s acct) (guid : Option Text) :
    ∃ ok, guidOk s acct guid = some ok ∧
      (ok = true ↔ ∀ a ∈ s.accounts, a ≠ acct → s.guid a ≠ guid) := by
  obtain ⟨found, hfound, hnone⟩ :=
    singleOrDefault_filter (p := fun a => decide (s.guid a = guid ∧ a ≠ acct)) hnodup
      (fun a ha b hb hpa hpb => by
        obtain ⟨hga, hna⟩ := of_decide_eq_true hpa
        obtain ⟨hgb, hnb⟩ := of_decide_eq_true hpb
        exact h.distinct a ha b hb hna hnb (hga.trans hgb.symm))
  refine ⟨found.isNone, by rw [guidOk, hfound, Option.map_some], ?_⟩
  rw [Option.isNone_iff_eq_none, hnone]
  constructor
  · intro hall a ha hne hguid
    exact of_decide_eq_false (hall a ha) ⟨hguid, hne⟩
  · intro hall a ha
    exact decide_eq_false fun hboth => hall a ha hboth.2 hboth.1

/-! ## Free numbers -/

/-- More numbers than are taken: one is free. -/
lemma exists_free_number (hothers : (s.accounts.filter (· ≠ acct)).length < numbers.length) :
    ∃ number ∈ numbers, ∀ a ∈ s.accounts, a ≠ acct → s.guid a ≠ some number := by
  by_contra hall
  push Not at hall
  have hsubset : numbers.map some ⊆ (s.accounts.filter (· ≠ acct)).map s.guid := by
    intro guid hguid
    obtain ⟨number, hnumber, rfl⟩ := List.mem_map.mp hguid
    obtain ⟨a, ha, hne, hguid⟩ := hall number hnumber
    exact List.mem_map.mpr ⟨a, List.mem_filter.mpr ⟨ha, decide_eq_true hne⟩, hguid⟩
  have hnodup : (numbers.map some).Nodup := by decide
  have hle := (List.subperm_of_subset hnodup hsubset).length_le
  rw [List.length_map, List.length_map] at hle
  omega

lemma isNullOrEmpty_number : ∀ number ∈ numbers, isNullOrEmpty (some number) = false := by decide

/-- The first number that is not taken is free; without one there is none. -/
lemma freeNumber_eq (hnodup : s.accounts.Nodup) (h : NumberedBut s acct) :
    ∀ tried, (∀ number ∈ tried, isNullOrEmpty (some number) = false) →
      ∃ found, freeNumber s acct tried = some found ∧
        (∀ number ∈ found, Free s acct (some number)) ∧
        (found = none → ∀ number ∈ tried, ∃ a ∈ s.accounts, a ≠ acct ∧ s.guid a = some number) := by
  intro tried
  induction tried with
  | nil => exact fun _ => ⟨none, rfl, by simp, by simp⟩
  | cons number tried ih =>
    intro htried
    obtain ⟨ok, hok, hfree⟩ := guidOk_eq hnodup h (some number)
    cases ok with
    | true =>
      refine ⟨some number, by rw [freeNumber, hok], fun n hn => ?_, fun hnone => (by cases hnone)⟩
      obtain rfl : number = n := Option.some.inj hn
      exact ⟨htried number List.mem_cons_self, hfree.mp rfl⟩
    | false =>
      obtain ⟨found, hfound, hfree', hnone⟩ :=
        ih fun n hn => htried n (List.mem_cons_of_mem number hn)
      refine ⟨found, by rw [freeNumber, hok]; exact hfound, hfree', fun hnil n hn => ?_⟩
      rcases List.mem_cons.mp hn with rfl | hn
      · have htaken := mt hfree.mpr Bool.false_ne_true
        push Not at htaken
        exact htaken
      · exact hnone hnil n hn

/-! ## The setter -/

/-- The state with another number for one account. -/
def withGuid (s : State) (acct : Ref) (guid : Option Text) : State :=
  { s with guid := Function.update s.guid acct guid }

lemma withGuid_guid_of_ne (h : a ≠ acct) (guid : Option Text) :
    (withGuid s acct guid).guid a = s.guid a := by
  simp [withGuid, h]

lemma withGuid_guid_self (s : State) (acct : Ref) (guid : Option Text) :
    (withGuid s acct guid).guid acct = guid := by
  simp [withGuid]

lemma withGuid_self (s : State) (acct : Ref) : withGuid s acct (s.guid acct) = s := by
  rw [withGuid, Function.update_eq_self]

lemma withGuid_withGuid (s : State) (acct : Ref) (guid guid' : Option Text) :
    withGuid (withGuid s acct guid) acct guid' = withGuid s acct guid' := by
  simp [withGuid]

lemma NumberedBut.withGuid (h : NumberedBut s acct) (guid : Option Text) :
    NumberedBut (withGuid s acct guid) acct where
  nonempty a ha hne := by
    rw [withGuid_guid_of_ne hne]
    exact h.nonempty a ha hne
  distinct a ha b hb hna hnb hab := by
    rw [withGuid_guid_of_ne hna, withGuid_guid_of_ne hnb] at hab
    exact h.distinct a ha b hb hna hnb hab

lemma free_withGuid_iff (guid' : Option Text) :
    Free (withGuid s acct guid') acct guid ↔ Free s acct guid := by
  constructor
  · intro h
    refine ⟨h.nonempty, fun a ha hne => ?_⟩
    rw [← withGuid_guid_of_ne hne guid']
    exact h.fresh a ha hne
  · intro h
    refine ⟨h.nonempty, fun a ha hne => ?_⟩
    rw [withGuid_guid_of_ne hne guid']
    exact h.fresh a ha hne

/-- A free number is set, and the handler is content with it. -/
lemma setGuid_of_free (hnodup : s.accounts.Nodup) (h : NumberedBut s acct)
    (hfree : Free s acct value) (depth : ℕ) :
    setGuid (depth + 1) s acct value = (withGuid s acct value, .returned) := by
  unfold setGuid
  by_cases hsame : value = s.guid acct
  · rw [if_pos hsame, hsame, withGuid_self]
  · have hnodup' : (withGuid s acct value).accounts.Nodup := hnodup
    obtain ⟨ok, hok, hiff⟩ := guidOk_eq hnodup' (h.withGuid value) value
    obtain rfl : ok = true := hiff.mpr ((free_withGuid_iff value).mpr hfree).fresh
    rw [if_neg hsame, ← withGuid]
    simp only [hok, hfree.nonempty]
    rfl

/-- The setter comes back; with enough numbers it leaves one that is free, or all as it was. -/
lemma setGuid_frees (hnodup : s.accounts.Nodup) (h : NumberedBut s acct) (value : Option Text) :
    ∃ guid, setGuid nesting s acct value = (withGuid s acct guid, .returned) ∧
      (value = s.guid acct → guid = s.guid acct) ∧
      ((s.accounts.filter (· ≠ acct)).length < numbers.length → value ≠ s.guid acct →
        Free s acct guid) := by
  by_cases hsame : value = s.guid acct
  · refine ⟨s.guid acct, ?_, fun _ => rfl, fun _ hne => absurd hsame hne⟩
    rw [withGuid_self, nesting, setGuid, if_pos hsame]
  · have hnodup' : (withGuid s acct value).accounts.Nodup := hnodup
    have hbut := h.withGuid value
    obtain ⟨ok, hok, hiff⟩ := guidOk_eq hnodup' hbut value
    obtain ⟨found, hfound, hfree, hnone⟩ :=
      freeNumber_eq hnodup' hbut numbers isNullOrEmpty_number
    have hunfold : setGuid nesting s acct value =
        if !ok || isNullOrEmpty value then
          match found with
          | none => (withGuid s acct value, .returned)
          | some number => setGuid 1 (withGuid s acct value) acct (some number)
        else (withGuid s acct value, .returned) := by
      rw [nesting, setGuid, if_neg hsame, ← withGuid]
      simp only [hok, hfound]
      cases found <;> rfl
    rw [hunfold]
    by_cases hkeep : (!ok || isNullOrEmpty value) = true
    · rw [if_pos hkeep]
      cases found with
      | none =>
        refine ⟨value, rfl, fun heq => absurd heq hsame, fun hothers => ?_⟩
        obtain ⟨number, hnumber, hfresh⟩ := exists_free_number hothers
        obtain ⟨a, ha, hne, hguid⟩ := hnone rfl number hnumber
        rw [withGuid_guid_of_ne hne] at hguid
        exact absurd hguid (hfresh a ha hne)
      | some number =>
        have hnumber := hfree number rfl
        have hset := setGuid_of_free hnodup' hbut hnumber 0
        rw [withGuid_withGuid] at hset
        exact ⟨some number, hset, fun heq => absurd heq hsame, fun _ _ =>
          (free_withGuid_iff value).mp hnumber⟩
    · rw [if_neg hkeep]
      refine ⟨value, rfl, fun heq => absurd heq hsame, fun _ _ => ?_⟩
      have hboth : ok = true ∧ isNullOrEmpty value = false := by simpa using hkeep
      refine (free_withGuid_iff value).mp ⟨hboth.2, hiff.mp hboth.1⟩

/-- With a free number for the one account all are numbered. -/
lemma NumberedBut.numbered (h : NumberedBut s acct) (hnodup : s.accounts.Nodup)
    (hmade : ∀ a ∈ s.accounts, a < s.made) (hfree : Free s acct (s.guid acct)) : Numbered s where
  nodup := hnodup
  made := hmade
  nonempty a ha := by
    by_cases hne : a = acct
    · rw [hne]
      exact hfree.nonempty
    · exact h.nonempty a ha hne
  distinct a ha b hb hab := by
    by_cases hna : a = acct
    · by_cases hnb : b = acct
      · rw [hna, hnb]
      · rw [hna] at hab
        exact absurd hab.symm (hfree.fresh b hb hnb)
    · by_cases hnb : b = acct
      · rw [hnb] at hab
        exact absurd hab (hfree.fresh a ha hna)
      · exact h.distinct a ha b hb hna hnb hab

/-! ## Adding an account -/

lemma NumberedBut.of_same (h : NumberedBut s acct) (hsame : SameNumbers s s') :
    NumberedBut s' acct where
  nonempty a ha hne := by
    rw [hsame.accounts] at ha
    rw [hsame.guid]
    exact h.nonempty a ha hne
  distinct a ha b hb hna hnb hab := by
    rw [hsame.accounts] at ha hb
    rw [hsame.guid] at hab
    exact h.distinct a ha b hb hna hnb hab

lemma Numbered.of_same (h : Numbered s) (hsame : SameNumbers s s') : Numbered s' where
  nodup := hsame.accounts ▸ h.nodup
  made a ha := by
    rw [hsame.made]
    exact h.made a (hsame.accounts ▸ ha)
  nonempty a ha := by
    rw [hsame.guid]
    exact h.nonempty a (hsame.accounts ▸ ha)
  distinct a ha b hb hab := by
    rw [hsame.guid] at hab
    exact h.distinct a (hsame.accounts ▸ ha) b (hsame.accounts ▸ hb) hab

/-- The fields of an account are read without a fault, and leave it a number that is not empty. -/
lemma foldl_setField (hnodup : s.accounts.Nodup) (h : NumberedBut s acct)
    (fields : List (Option Text × Option Text)) :
    ∃ guid, fields.foldl (setField acct) (s, .returned) = (withGuid s acct guid, .returned) ∧
      ((s.accounts.filter (· ≠ acct)).length < numbers.length →
        isNullOrEmpty (s.guid acct) = false → isNullOrEmpty guid = false) := by
  induction fields generalizing s with
  | nil => exact ⟨s.guid acct, by rw [withGuid_self]; rfl, fun _ hne => hne⟩
  | cons field fields ih =>
    obtain ⟨guid, hset, hsame, hfree⟩ := setGuid_frees hnodup h field.2
    have hnonempty : (s.accounts.filter (· ≠ acct)).length < numbers.length →
        isNullOrEmpty (s.guid acct) = false → isNullOrEmpty guid = false := by
      intro hothers hne
      by_cases heq : field.2 = s.guid acct
      · rw [hsame heq]
        exact hne
      · exact (hfree hothers heq).nonempty
    rw [List.foldl_cons]
    by_cases hname : field.1 = some "guid".toList
    · have hfield : setField acct (s, .returned) field = (withGuid s acct guid, .returned) := by
        rw [setField, andThen_of_returned rfl, if_pos hname, hset]
      have hnodup' : (withGuid s acct guid).accounts.Nodup := hnodup
      obtain ⟨guid', hrun, hnonempty'⟩ := ih hnodup' (h.withGuid guid)
      rw [withGuid_withGuid] at hrun
      rw [withGuid_guid_self] at hnonempty'
      rw [hfield]
      exact ⟨guid', hrun, fun hothers hne => hnonempty' hothers (hnonempty hothers hne)⟩
    · have hfield : setField acct (s, .returned) field = (s, .returned) := by
        rw [setField, andThen_of_returned rfl, if_neg hname]
      rw [hfield]
      exact ih hnodup h

/-- Set to nothing and back, the number of an account is free. -/
lemma renewGuid_frees (hnodup : s.accounts.Nodup) (h : NumberedBut s acct)
    (hothers : (s.accounts.filter (· ≠ acct)).length < numbers.length)
    (hne : isNullOrEmpty (s.guid acct) = false) :
    ∃ guid, renewGuid s acct = (withGuid s acct guid, .returned) ∧ Free s acct guid := by
  have hdiffers : some [] ≠ s.guid acct := by
    intro heq
    rw [← heq] at hne
    cases hne
  obtain ⟨guid, hset, -, hfree⟩ := setGuid_frees hnodup h (some [])
  have hguid := hfree hothers hdiffers
  have hnodup' : (withGuid s acct guid).accounts.Nodup := hnodup
  obtain ⟨guid', hset', hsame', hfree'⟩ := setGuid_frees hnodup' (h.withGuid guid) (s.guid acct)
  rw [withGuid_guid_self] at hsame' hfree'
  rw [withGuid_withGuid] at hset'
  refine ⟨guid', by rw [renewGuid, hset, andThen_of_returned rfl, hset'], ?_⟩
  by_cases hold : s.guid acct = guid
  · rw [hsame' hold]
    exact hguid
  · exact (free_withGuid_iff guid).mp (hfree' hothers hold)

variable (program) in
/-- `GetAccount` comes back with a new account that is not listed. -/
lemma getAccount_returns (h : Numbered s) (settings : SettingsAccount) :
    ∃ s', getAccount program s settings = (s', .returned) ∧ s'.accounts = s.accounts ∧
      s'.made = s.made + 1 ∧ NumberedBut s' s.made ∧
      (s.accounts.length < numbers.length → isNullOrEmpty (s'.guid s.made) = false) := by
  have hnew : ∀ a ∈ s.accounts, a ≠ s.made := fun a ha => Nat.ne_of_lt (h.made a ha)
  have hbut : NumberedBut (newAccount s) s.made := by
    constructor
    · intro a ha hne
      simpa [newAccount, hne] using h.nonempty a ha
    · intro a ha b hb hna hnb hab
      exact h.distinct a ha b hb (by simpa [newAccount, hna, hnb] using hab)
  have hsame : SameNumbers (newAccount s) (setIsDefaultAccount
      (setEnabled program (newAccount s) s.made settings.enabled) s.made
      settings.isDefaultAccount) :=
    (sameNumbers_setEnabled program (newAccount s) s.made settings.enabled).trans
      (sameNumbers_setIsDefaultAccount _ s.made settings.isDefaultAccount)
  set s₁ := setIsDefaultAccount
    (setEnabled program (newAccount s) s.made settings.enabled) s.made settings.isDefaultAccount
  have haccounts : s₁.accounts = s.accounts := hsame.accounts
  have hguid : s₁.guid s.made = some "1".toList := by
    rw [hsame.guid]
    simp [newAccount]
  obtain ⟨guid, hrun, hnonempty⟩ :=
    foldl_setField (haccounts ▸ h.nodup) (hbut.of_same hsame) settings.fields
  refine ⟨withGuid s₁ s.made guid, hrun, haccounts, hsame.made, (hbut.of_same hsame).withGuid guid,
    fun hfew => ?_⟩
  rw [withGuid_guid_self]
  refine hnonempty ?_ (by rw [hguid]; rfl)
  rw [haccounts]
  exact Nat.lt_of_le_of_lt (List.length_filter_le _ _) hfew

variable (program) in
lemma sameNumbers_addToList (s : State) (acct : Ref) :
    SameNumbers { s with accounts := s.accounts ++ [acct] } (addToList program s acct) :=
  ((sameNumbers_accountsChanged program _).trans (sameNumbers_setIsDefaultAccount _ acct _)).trans
    (sameNumbers_setIsDefaultAccount _ acct _)

lemma add_numbered (h : Numbered s) (settings : SettingsAccount)
    (hten : (next program s (.add settings)).1.accounts.length ≤ 10) :
    (next program s (.add settings)).2 = .returned ∧
      Numbered (next program s (.add settings)).1 := by
  obtain ⟨s', hget, haccounts, hmade, hbut, hnonempty⟩ := getAccount_returns program h settings
  have hnew : s.made ∉ s.accounts := fun hmem => Nat.lt_irrefl _ (h.made s.made hmem)
  have hsame := sameNumbers_addToList program s' s.made
  set s₂ := addToList program s' s.made with hs₂
  have hlist : s₂.accounts = s.accounts ++ [s.made] := by
    rw [hsame.accounts, haccounts]
  have hnext : next program s (.add settings) = renewGuid s₂ s.made := by
    rw [next, hget, andThen_of_returned rfl, addAccount]
  rw [hnext] at hten ⊢
  have hfew : s.accounts.length < numbers.length := by
    rw [(sameFlags_renewGuid s₂ s.made).accounts, hlist, List.length_append] at hten
    exact Nat.lt_of_succ_le hten
  have hguid : s₂.guid = s'.guid := hsame.guid
  have hbut₂ : NumberedBut s₂ s.made := by
    constructor
    · intro a ha hne
      rw [hlist, List.mem_append, List.mem_singleton] at ha
      rw [hguid]
      exact hbut.nonempty a (haccounts ▸ ha.resolve_right hne) hne
    · intro a ha b hb hna hnb hab
      rw [hlist, List.mem_append, List.mem_singleton] at ha hb
      rw [hguid] at hab
      exact hbut.distinct a (haccounts ▸ ha.resolve_right hna) b
        (haccounts ▸ hb.resolve_right hnb) hna hnb hab
  have hnodup : s₂.accounts.Nodup := by
    rw [hlist, ← List.concat_eq_append]
    exact h.nodup.concat hnew
  have hothers : (s₂.accounts.filter (· ≠ s.made)).length < numbers.length := by
    rw [hlist, List.filter_append, List.filter_cons_of_neg (by simp), List.filter_nil,
      List.append_nil]
    exact Nat.lt_of_le_of_lt (List.length_filter_le _ _) hfew
  obtain ⟨guid, hrenew, hfree⟩ :=
    renewGuid_frees hnodup hbut₂ hothers (by rw [hguid]; exact hnonempty hfew)
  rw [hrenew]
  refine ⟨rfl, (hbut₂.withGuid guid).numbered hnodup ?_ ?_⟩
  · intro a ha
    have hmade₂ : s₂.made = s.made + 1 := hsame.made.trans hmade
    have hmem : a ∈ s₂.accounts := ha
    rw [hlist, List.mem_append, List.mem_singleton] at hmem
    show a < s₂.made
    rw [hmade₂]
    rcases hmem with hmem | rfl
    · exact Nat.lt_succ_of_lt (h.made a hmem)
    · exact Nat.lt_succ_self s.made
  · rw [withGuid_guid_self, free_withGuid_iff]
    exact hfree

/-! ## The other operations -/

/-- Of a listed account there are fewer others than there are numbers. -/
lemma others_lt (hmem : acct ∈ s.accounts) (hten : s.accounts.length ≤ 10) :
    (s.accounts.filter (· ≠ acct)).length < numbers.length :=
  Nat.lt_of_lt_of_le
    (List.length_filter_lt_length_iff_exists.mpr ⟨acct, hmem, by simp⟩) hten

lemma edit_numbered (h : Numbered s) (hten : s.accounts.length ≤ 10) (acct : Ref)
    (value : Option Text) :
    (setGuid nesting s acct value).2 = .returned ∧ Numbered (setGuid nesting s acct value).1 := by
  obtain ⟨guid, hset, hsame, hfree⟩ := setGuid_frees h.nodup (h.but acct) value
  rw [hset]
  refine ⟨rfl, ?_⟩
  by_cases heq : value = s.guid acct
  · rw [hsame heq, withGuid_self]
    exact h
  by_cases hmem : acct ∈ s.accounts
  · refine ((h.but acct).withGuid guid).numbered h.nodup h.made ?_
    rw [withGuid_guid_self, free_withGuid_iff]
    exact hfree (others_lt hmem hten) heq
  · -- the number of an account that is not listed is nobody's concern
    have hne : ∀ a ∈ s.accounts, a ≠ acct := fun a ha heq => hmem (heq ▸ ha)
    refine ⟨h.nodup, h.made, fun a ha => ?_, fun a ha b hb hab => ?_⟩
    · rw [withGuid_guid_of_ne (hne a ha)]
      exact h.nonempty a ha
    · rw [withGuid_guid_of_ne (hne a ha), withGuid_guid_of_ne (hne b hb)] at hab
      exact h.distinct a ha b hb hab

lemma Numbered.erase (h : Numbered s) (acct : Ref) :
    Numbered { s with accounts := s.accounts.erase acct } where
  nodup := h.nodup.erase acct
  made a ha := h.made a (List.mem_of_mem_erase ha)
  nonempty a ha := h.nonempty a (List.mem_of_mem_erase ha)
  distinct a ha b hb := h.distinct a (List.mem_of_mem_erase ha) b (List.mem_of_mem_erase hb)

lemma remove_numbered (h : Numbered s) (acct : Ref) :
    Numbered (removeAccount program s acct) := by
  have hunset := h.of_same (sameNumbers_setIsDefaultAccount s acct false)
  unfold removeAccount
  dsimp only
  split
  · exact (hunset.erase acct).of_same (sameNumbers_accountsChanged program _)
  · exact hunset

/-- **One operation** comes back, and leaves the numbers distinct where there are ten accounts at
most. -/
theorem next_numbered (h : Numbered s) (hten : s.accounts.length ≤ 10) (a : Action)
    (hten' : (next program s a).1.accounts.length ≤ 10) :
    (next program s a).2 = .returned ∧ Numbered (next program s a).1 := by
  have habout : ∀ (acct : Ref) (result : State × Outcome),
      result.2 = .returned ∧ Numbered result.1 →
        (Action.about s acct result).2 = .returned ∧ Numbered (Action.about s acct result).1 := by
    intro acct result hresult
    unfold Action.about
    split
    · exact hresult
    · exact ⟨rfl, h⟩
  cases a with
  | add settings => exact add_numbered h settings hten'
  | remove acct => exact habout acct _ ⟨rfl, remove_numbered h acct⟩
  | edit acct guid => exact habout acct _ (edit_numbered h hten acct guid)
  | enable acct => exact habout acct _ ⟨rfl, h.of_same (sameNumbers_setEnabled program s acct true)⟩
  | disable acct =>
    exact habout acct _ ⟨rfl, h.of_same (sameNumbers_setEnabled program s acct false)⟩
  | markDefault acct =>
    exact habout acct _ ⟨rfl, h.of_same (sameNumbers_setIsDefaultAccount s acct true)⟩
  | elapse =>
    rw [next]
    split
    · have hsame : SameNumbers s { s with delayed := false } := ⟨rfl, rfl, rfl⟩
      exact ⟨rfl, h.of_same (hsame.trans (sameNumbers_ensureDefaultAccount program _))⟩
    · exact ⟨rfl, h⟩

/-! ## Runs -/

/-- No lookup of a number throws: not the one of the handler, nor the one that validates an edit,
nor the one of an event of a gateway. -/
structure LookupsReturn (s : State) : Prop where
  guidOk : ∀ acct guid, guidOk s acct guid ≠ none
  validateGuid : ∀ editing guid, validateGuid s editing guid ≠ none
  gatewayAccount : ∀ gateway, gatewayAccount s gateway ≠ none

lemma Numbered.lookupsReturn (h : Numbered s) : LookupsReturn s where
  guidOk acct guid := by
    obtain ⟨ok, hok, -⟩ := guidOk_eq h.nodup (h.but acct) guid
    simp [hok]
  validateGuid editing guid := by
    obtain ⟨found, hfound, -⟩ := singleOrDefault_filter
      (p := fun a => decide (s.guid a = guid ∧ some a ≠ editing)) h.nodup
      fun a ha b hb hpa hpb => h.distinct a ha b hb
        ((of_decide_eq_true hpa).1.trans (of_decide_eq_true hpb).1.symm)
    rw [Accounts.validateGuid, hfound]
    exact Option.some_ne_none _
  gatewayAccount gateway := by
    obtain ⟨found, hfound, -⟩ := singleOrDefault_filter
      (p := fun a => decide (s.guid a = gateway)) h.nodup
      fun a ha b hb hpa hpb => h.distinct a ha b hb
        ((of_decide_eq_true hpa).trans (of_decide_eq_true hpb).symm)
    rw [Accounts.gatewayAccount, hfound]
    exact Option.some_ne_none _

lemma numbered_init : Numbered State.init := ⟨.nil, by simp [State.init], by simp [State.init],
  by simp [State.init]⟩

lemma run_numbered
    (hten : ∀ earlier, earlier <:+ history → (run program earlier).accounts.length ≤ 10) :
    Numbered (run program history) := by
  induction history with
  | nil => exact numbered_init
  | cons a history ih =>
    have hsuffix : history <:+ a :: history := List.suffix_cons a history
    have hbefore := ih fun earlier hearlier => hten earlier (hearlier.trans hsuffix)
    exact (next_numbered hbefore (hten history hsuffix) a (hten _ (List.suffix_refl _))).2

/-- **Account numbers are unique.**  While there are ten accounts at most, every operation comes
back, and behind each the numbers of the listed accounts are not empty and distinct, and no lookup
of a number throws. -/
theorem account_numbers_unique (program : Program) (history : List Action)
    (hten : ∀ earlier, earlier <:+ history → (run program earlier).accounts.length ≤ 10) :
    (∀ earlier, earlier <:+ history →
      Numbered (run program earlier) ∧ LookupsReturn (run program earlier)) ∧
    ∀ a earlier, a :: earlier <:+ history →
      (next program (run program earlier) a).2 = .returned := by
  have hnumbered : ∀ earlier, earlier <:+ history → Numbered (run program earlier) :=
    fun earlier hearlier => run_numbered fun e he => hten e (he.trans hearlier)
  refine ⟨fun earlier hearlier =>
    ⟨hnumbered earlier hearlier, (hnumbered earlier hearlier).lookupsReturn⟩, ?_⟩
  intro a earlier hsuffix
  have hbefore : earlier <:+ history := (List.suffix_cons a earlier).trans hsuffix
  exact (next_numbered (hnumbered earlier hbefore) (hten earlier hbefore) a (hten _ hsuffix)).1

/-- Two accounts that are stored with the same number, and an edit that leaves nothing of one. -/
def duplicates : List Action :=
  [.edit 0 (some []), .add ⟨false, false, [(some "guid".toList, some "1".toList)]⟩,
    .add ⟨false, false, [(some "guid".toList, some "1".toList)]⟩]

theorem account_numbers_unique_duplicates :
    Numbered (run ⟨fun _ _ => true, false⟩ duplicates) ∧
      LookupsReturn (run ⟨fun _ _ => true, false⟩ duplicates) :=
  have hten : ∀ earlier ∈ duplicates.tails,
      (run ⟨fun _ _ => true, false⟩ earlier).accounts.length ≤ 10 := by decide
  (account_numbers_unique ⟨fun _ _ => true, false⟩ duplicates fun earlier hearlier =>
    hten earlier ((List.mem_tails earlier duplicates).mpr hearlier)).1 duplicates
      (List.suffix_refl duplicates)

end FreeswitchContrib.FsClient.Accounts

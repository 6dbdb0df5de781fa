import FreeswitchContrib.FsClient.Accounts

/-!
# The default account

The look at the default account trusts the reference: where it is to an enabled account nothing is
done.  So an enabled account must not get out of the list, and not be enabled again, while the
reference is to it; and where the reference is to no enabled account, the flag of an account that is
not enabled stays.

* `Usable` — what the default account is to be.
* `Settled` — the states from which the look comes to that, and from which the next one can.
* `Careful` — what may be done in such a state.
* **`default_account_usable_iff`** — the look comes to a usable account throughout a history exactly
  if its actions are careful.
-/

namespace FreeswitchContrib.FsClient.Accounts

variable {program : Program} {s s' : State} {acct a : Ref} {history : List Action}

/-- The default account is an enabled account of the list with the flag, or there is none and no
account of the list is enabled; no other account of the list has the flag. -/
def Usable (s : State) : Prop :=
  match s.defaultAccount with
  | some acct => acct ∈ s.accounts ∧ s.enabled acct = true ∧ s.isDefaultAccount acct = true ∧
      ∀ a ∈ s.accounts, a ≠ acct → s.isDefaultAccount a = false
  | none => ∀ a ∈ s.accounts, s.enabled a = false ∧ s.isDefaultAccount a = false

/-- The default account is usable after the look at it. -/
def LooksGood (program : Program) (s : State) : Prop :=
  Usable (ensureDefaultAccount program s)

/-- Who has the flag is the default account. -/
def Trusted (s : State) : Prop :=
  ∀ a ∈ s.accounts, s.isDefaultAccount a = true → s.defaultAccount = some a

/-- A default account that is enabled is listed and has the flag, and without an enabled account
there is no flag. -/
structure Agrees (s : State) : Prop where
  reference : ∀ a, s.defaultAccount = some a → s.enabled a = true →
    a ∈ s.accounts ∧ s.isDefaultAccount a = true
  flags : (∀ a ∈ s.accounts, s.enabled a = false) → ∀ a ∈ s.accounts, s.isDefaultAccount a = false

structure Settled (s : State) : Prop where
  trusted : Trusted s
  agrees : Agrees s

/-! ## The setters -/

/-- An account loses its flag, and nothing else is changed but the look that waits. -/
lemma unsetDefault_eq (s : State) (acct : Ref) : ∃ delayed, unsetDefault s acct =
    { s with isDefaultAccount := Function.update s.isDefaultAccount acct false, delayed } := by
  unfold unsetDefault
  split
  · exact ⟨true, rfl⟩
  · next h =>
    refine ⟨s.delayed, ?_⟩
    rw [← (Bool.not_eq_true _).mp h, Function.update_eq_self]

/-- All accounts but one lose their flags. -/
lemma foldl_unsetDefault_eq (acct : Ref) (accounts : List Ref) (s : State) : ∃ delayed,
    accounts.foldl (fun s a => if a ≠ acct then unsetDefault s a else s) s =
      { s with
        isDefaultAccount := fun a => !(a ∈ accounts ∧ a ≠ acct) && s.isDefaultAccount a
        delayed } := by
  induction accounts generalizing s with
  | nil => exact ⟨s.delayed, by simp⟩
  | cons b accounts ih =>
    rw [List.foldl_cons]
    by_cases hb : b = acct
    · rw [if_neg (not_not.mpr hb)]
      obtain ⟨delayed, h⟩ := ih s
      refine ⟨delayed, ?_⟩
      rw [h]
      congr 1
      funext a
      by_cases ha : a = acct <;> simp [ha, hb]
    · rw [if_pos hb]
      obtain ⟨delayed₁, h₁⟩ := unsetDefault_eq s b
      obtain ⟨delayed, h⟩ := ih (unsetDefault s b)
      refine ⟨delayed, ?_⟩
      rw [h, h₁]
      congr 1
      funext a
      by_cases ha : a = b
      · simp [ha, hb]
      · simp [ha]

/-- An account that gets the flag is the default account, and takes it from the others. -/
lemma setDefault_eq (h : s.isDefaultAccount acct = false) : ∃ delayed, setDefault s acct =
    { s with
      isDefaultAccount := fun a => a = acct ∨ (a ∉ s.accounts ∧ s.isDefaultAccount a = true)
      defaultAccount := some acct
      delayed } := by
  obtain ⟨delayed, hfold⟩ := foldl_unsetDefault_eq acct s.accounts
    { s with isDefaultAccount := Function.update s.isDefaultAccount acct true }
  refine ⟨delayed, ?_⟩
  rw [setDefault, if_neg (by simp [h])]
  dsimp only at hfold ⊢
  rw [hfold]
  congr 1
  funext a
  by_cases ha : a = acct
  · simp [ha]
  · simp [ha]

lemma setDefault_of_flag (h : s.isDefaultAccount acct = true) : setDefault s acct = s := if_pos h

lemma unsetDefault_of_not_flag (h : s.isDefaultAccount acct = false) : unsetDefault s acct = s :=
  if_neg ((Bool.not_eq_true _).mpr h)

/-! ## The look at the default account -/

variable (program) in
/-- The account that is looked for is an enabled one of the list. -/
lemma firstEnabled_cases (s : State) :
    (∃ res ∈ s.accounts, s.enabled res = true ∧ firstEnabled program s = some res) ∨
      ((∀ a ∈ s.accounts, s.enabled a = false) ∧ firstEnabled program s = none) := by
  have hperm := List.perm_insertionSort
    (fun a b => program.lessOrEqual (s.guid a) (s.guid b) = true) (s.accounts.filter s.enabled)
  unfold firstEnabled
  cases hsorted : (s.accounts.filter s.enabled).insertionSort
      fun a b => program.lessOrEqual (s.guid a) (s.guid b) = true with
  | nil =>
    rw [hsorted] at hperm
    refine .inr ⟨fun a ha => ?_, rfl⟩
    by_contra henabled
    have hmem : a ∈ s.accounts.filter s.enabled :=
      List.mem_filter.mpr ⟨ha, (Bool.not_eq_false _).mp henabled⟩
    exact List.not_mem_nil (hperm.mem_iff.mpr hmem)
  | cons res rest =>
    rw [hsorted] at hperm
    obtain ⟨hmem, henabled⟩ := List.mem_filter.mp (hperm.mem_iff.mp List.mem_cons_self)
    exact .inl ⟨res, hmem, henabled, rfl⟩

/-- What the look does: nothing, or an account of the list gets the flag, or the reference goes. -/
inductive Look (program : Program) (s : State) : Prop
  | trusts (acct : Ref) (hdefault : s.defaultAccount = some acct)
      (henabled : s.enabled acct = true) (heq : ensureDefaultAccount program s = s)
  | chooses (hnone : ∀ acct, s.defaultAccount = some acct → s.enabled acct = false) (res : Ref)
      (hmem : res ∈ s.accounts) (henabled : s.enabled res = true)
      (heq : ensureDefaultAccount program s = setDefault s res)
  | gives_up (hnone : ∀ acct, s.defaultAccount = some acct → s.enabled acct = false)
      (hdisabled : ∀ a ∈ s.accounts, s.enabled a = false)
      (heq : ensureDefaultAccount program s = { s with defaultAccount := none })

variable (program) in
lemma look (s : State) : Look program s := by
  by_cases htrust : s.defaultAccount.any s.enabled = true
  · obtain ⟨acct, hdefault, henabled⟩ :
        ∃ acct, s.defaultAccount = some acct ∧ s.enabled acct = true := by
      cases hdefault : s.defaultAccount with
      | none =>
        rw [hdefault] at htrust
        cases htrust
      | some acct =>
        rw [hdefault] at htrust
        exact ⟨acct, rfl, htrust⟩
    exact .trusts acct hdefault henabled (if_pos htrust)
  · have hnone : ∀ acct, s.defaultAccount = some acct → s.enabled acct = false := by
      intro acct hdefault
      rw [hdefault] at htrust
      exact (Bool.not_eq_true _).mp htrust
    rcases firstEnabled_cases program s with ⟨res, hmem, henabled, hfirst⟩ | ⟨hdisabled, hfirst⟩
    · refine .chooses hnone res hmem henabled ?_
      rw [ensureDefaultAccount, if_neg htrust, hfirst]
      rfl
    · refine .gives_up hnone hdisabled ?_
      rw [ensureDefaultAccount, if_neg htrust, hfirst]

/-- With a trusted reference the look comes to a usable account exactly if all agrees. -/
lemma looksGood_iff (h : Trusted s) : LooksGood program s ↔ Agrees s := by
  cases look program s with
  | trusts acct hdefault henabled heq =>
    rw [LooksGood, heq, Usable, hdefault]
    constructor
    · rintro ⟨hmem, -, hflag, -⟩
      refine ⟨fun a ha _ => ?_, fun hdisabled => ?_⟩
      · obtain rfl : acct = a := Option.some.inj (hdefault.symm.trans ha)
        exact ⟨hmem, hflag⟩
      · rw [hdisabled acct hmem] at henabled
        cases henabled
    · intro hagrees
      obtain ⟨hmem, hflag⟩ := hagrees.reference acct hdefault henabled
      refine ⟨hmem, henabled, hflag, fun a ha hne => ?_⟩
      by_contra hset
      have heq := h a ha ((Bool.not_eq_false _).mp hset)
      exact hne (Option.some.inj (heq.symm.trans hdefault))
  | chooses hnone res hmem henabled heq =>
    -- the one that is chosen has no flag, since who has is the default account
    have hflag : s.isDefaultAccount res = false := by
      by_contra hset
      have hdefault := h res hmem ((Bool.not_eq_false _).mp hset)
      rw [hnone res hdefault] at henabled
      cases henabled
    obtain ⟨delayed, hset⟩ := setDefault_eq hflag
    constructor
    · intro _
      refine ⟨fun a ha hon => ?_, fun hdisabled => ?_⟩
      · rw [hnone a ha] at hon
        cases hon
      · rw [hdisabled res hmem] at henabled
        cases henabled
    · intro _
      rw [LooksGood, heq, hset]
      refine ⟨hmem, henabled, by simp, fun a ha hne => ?_⟩
      simp only [decide_eq_false_iff_not]
      exact fun hor => hor.elim hne fun hnot => hnot.1 ha
  | gives_up hnone hdisabled heq =>
    rw [LooksGood, heq]
    constructor
    · intro husable
      refine ⟨fun a ha hon => ?_, fun _ a ha => (husable a ha).2⟩
      rw [hnone a ha] at hon
      cases hon
    · exact fun hagrees a ha => ⟨hdisabled a ha, hagrees.flags hdisabled a ha⟩

lemma Settled.looksGood (h : Settled s) : LooksGood program s :=
  (looksGood_iff h.trusted).mpr h.agrees

/-- An account of the list has got the flag, where some account of the list is enabled or will not
lose it. -/
lemma settled_setDefault (hflag : s.isDefaultAccount acct = false)
    (hlisted : s.enabled acct = true → acct ∈ s.accounts)
    (henabled : acct ∈ s.accounts → ∃ a ∈ s.accounts, s.enabled a = true) :
    Settled (setDefault s acct) := by
  obtain ⟨delayed, heq⟩ := setDefault_eq hflag
  rw [heq]
  refine ⟨fun a ha hset => ?_, fun a ha hon => ?_, fun hdisabled a ha => ?_⟩
  · have hor := of_decide_eq_true hset
    rw [hor.resolve_right fun hnot => hnot.1 ha]
  · obtain rfl : acct = a := Option.some.inj ha
    exact ⟨hlisted hon, by simp⟩
  · refine decide_eq_false fun hor => ?_
    obtain rfl := hor.resolve_right fun hnot => hnot.1 ha
    obtain ⟨b, hb, hon⟩ := henabled ha
    rw [hdisabled b hb] at hon
    cases hon

lemma Settled.ensureDefaultAccount (h : Settled s) : Settled (ensureDefaultAccount program s) := by
  cases look program s with
  | trusts acct hdefault henabled heq => rwa [heq]
  | chooses hnone res hmem henabled heq =>
    rw [heq]
    by_cases hflag : s.isDefaultAccount res = true
    · rwa [setDefault_of_flag hflag]
    · exact settled_setDefault ((Bool.not_eq_true _).mp hflag) (fun _ => hmem)
        fun _ => ⟨res, hmem, henabled⟩
  | gives_up hnone hdisabled heq =>
    rw [heq]
    have hflags := h.agrees.flags hdisabled
    refine ⟨fun a ha hset => ?_, fun a ha => (by cases ha), fun _ => hflags⟩
    rw [hflags a ha] at hset
    cases hset

lemma Settled.accountsChanged (h : Settled s) : Settled (accountsChanged program s) := by
  unfold Accounts.accountsChanged
  split
  · exact h.ensureDefaultAccount
  · exact h

/-- A second look finds what the first one has left. -/
lemma ensureDefaultAccount_again (s : State) :
    ensureDefaultAccount program (ensureDefaultAccount program s) =
      ensureDefaultAccount program s := by
  cases look program s with
  | trusts acct hdefault henabled heq => rw [heq, heq]
  | chooses hnone res hmem henabled heq =>
    by_cases hflag : s.isDefaultAccount res = true
    · rw [heq, setDefault_of_flag hflag, heq, setDefault_of_flag hflag]
    · obtain ⟨delayed, hset⟩ := setDefault_eq ((Bool.not_eq_true _).mp hflag)
      rw [heq, Accounts.ensureDefaultAccount, if_pos]
      rw [hset]
      exact henabled
  | gives_up hnone hdisabled heq =>
    have hsame : firstEnabled program { s with defaultAccount := none } =
        firstEnabled program s := rfl
    rcases firstEnabled_cases program s with ⟨res, hmem, henabled, -⟩ | ⟨-, hfirst⟩
    · rw [hdisabled res hmem] at henabled
      cases henabled
    · rw [heq, Accounts.ensureDefaultAccount, if_neg (by simp), hsame, hfirst]

lemma looksGood_ensureDefaultAccount :
    LooksGood program (ensureDefaultAccount program s) ↔ LooksGood program s := by
  rw [LooksGood, ensureDefaultAccount_again, LooksGood]

lemma looksGood_accountsChanged :
    LooksGood program (accountsChanged program s) ↔ LooksGood program s := by
  unfold Accounts.accountsChanged
  split
  · exact looksGood_ensureDefaultAccount
  · rfl

/-! ## What may be done -/

/-- No account of the list but one is enabled. -/
def OnlyEnabled (s : State) (acct : Ref) : Prop :=
  ∀ a ∈ s.accounts, a ≠ acct → s.enabled a = false

/-- What may be done: the default account is not removed while it is enabled, nor enabled unless it
is listed with the flag; the last enabled account of the list is not disabled or removed while
another one has the flag; and an account that gets the flag is listed if it is enabled, and if it is
listed some account of the list is enabled. -/
def Careful (program : Program) (s : State) : Action → Prop
  | .add settings =>
    settings.isDefaultAccount = true →
      if (getAccount program s settings).2 = .returned then
        settings.enabled = true ∨ ∃ a ∈ s.accounts, s.enabled a = true
      else settings.enabled = false
  | .remove acct => acct < s.made →
      (s.defaultAccount = some acct → s.enabled acct = false) ∧
      (OnlyEnabled s acct → ∀ a ∈ s.accounts, a ≠ acct → s.isDefaultAccount a = false)
  | .edit _ _ => True
  | .enable acct => acct < s.made → s.enabled acct = false → s.defaultAccount = some acct →
      acct ∈ s.accounts ∧ s.isDefaultAccount acct = true
  | .disable acct => acct < s.made → s.enabled acct = true → OnlyEnabled s acct →
      ∀ a ∈ s.accounts, a ≠ acct → s.isDefaultAccount a = false
  | .markDefault acct => acct < s.made → s.isDefaultAccount acct = false →
      (s.enabled acct = true → acct ∈ s.accounts) ∧
      (acct ∈ s.accounts → ∃ a ∈ s.accounts, s.enabled a = true)
  | .elapse => True

/-! ## What has been made -/

/-- The accounts that are listed, each once, and the default one have been made. -/
structure Made (s : State) : Prop where
  nodup : s.accounts.Nodup
  accounts : ∀ a ∈ s.accounts, a < s.made
  reference : ∀ a, s.defaultAccount = some a → a < s.made

lemma Made.of_same (h : Made s) (hsame : SameFlags s s') : Made s' where
  nodup := hsame.accounts ▸ h.nodup
  accounts a ha := hsame.made ▸ h.accounts a (hsame.accounts ▸ ha)
  reference a ha := hsame.made ▸ h.reference a (hsame.defaultAccount ▸ ha)

lemma Made.unsetDefault (h : Made s) (acct : Ref) : Made (unsetDefault s acct) := by
  obtain ⟨delayed, heq⟩ := unsetDefault_eq s acct
  rw [heq]
  exact ⟨h.nodup, h.accounts, h.reference⟩

lemma Made.setDefault (h : Made s) (hmade : acct < s.made) : Made (setDefault s acct) := by
  by_cases hflag : s.isDefaultAccount acct = true
  · rwa [setDefault_of_flag hflag]
  · obtain ⟨delayed, heq⟩ := setDefault_eq ((Bool.not_eq_true _).mp hflag)
    rw [heq]
    refine ⟨h.nodup, h.accounts, fun a ha => ?_⟩
    obtain rfl : acct = a := Option.some.inj ha
    exact hmade

lemma Made.setIsDefaultAccount (h : Made s) (hmade : acct < s.made) (value : Bool) :
    Made (setIsDefaultAccount s acct value) := by
  cases value with
  | true => exact h.setDefault hmade
  | false => exact h.unsetDefault acct

lemma Made.ensureDefaultAccount (h : Made s) : Made (ensureDefaultAccount program s) := by
  cases look program s with
  | trusts acct hdefault henabled heq => rwa [heq]
  | chooses hnone res hmem henabled heq =>
    rw [heq]
    exact h.setDefault (h.accounts res hmem)
  | gives_up hnone hdisabled heq =>
    rw [heq]
    exact ⟨h.nodup, h.accounts, fun a ha => (by cases ha)⟩

lemma Made.accountsChanged (h : Made s) : Made (accountsChanged program s) := by
  unfold Accounts.accountsChanged
  split
  · exact h.ensureDefaultAccount
  · exact h

lemma Made.setEnabled (h : Made s) (acct : Ref) (value : Bool) :
    Made (setEnabled program s acct value) := by
  have hset : Made { s with enabled := Function.update s.enabled acct value } :=
    ⟨h.nodup, h.accounts, h.reference⟩
  unfold Accounts.setEnabled
  split
  · exact h
  · dsimp only
    split
    · exact hset.ensureDefaultAccount
    · exact hset.unsetDefault acct

lemma Made.newAccount (h : Made s) : Made (newAccount s) where
  nodup := h.nodup
  accounts a ha := Nat.lt_succ_of_lt (h.accounts a ha)
  reference a ha := Nat.lt_succ_of_lt (h.reference a ha)

variable (program) in
lemma getAccount_numbers (s : State) (settings : SettingsAccount) :
    (getAccount program s settings).1.accounts = s.accounts ∧
      (getAccount program s settings).1.made = s.made + 1 := by
  have hsame := (sameNumbers_setEnabled program (newAccount s) s.made settings.enabled).trans
    (sameNumbers_setIsDefaultAccount _ s.made settings.isDefaultAccount)
  have hflags : SameFlags (setIsDefaultAccount
      (setEnabled program (newAccount s) s.made settings.enabled) s.made
      settings.isDefaultAccount) (getAccount program s settings).1 :=
    sameFlags_foldl_setField s.made settings.fields _ (.refl _)
  exact ⟨hflags.accounts.trans hsame.accounts, hflags.made.trans hsame.made⟩

variable (program) in
lemma made_getAccount (h : Made s) (settings : SettingsAccount) :
    Made (getAccount program s settings).1 := by
  refine Made.of_same ?_ (sameFlags_foldl_setField s.made settings.fields _ (.refl _))
  have hmade : (setEnabled program (newAccount s) s.made settings.enabled).made = s.made + 1 :=
    (sameNumbers_setEnabled program (newAccount s) s.made settings.enabled).made
  refine (h.newAccount.setEnabled s.made settings.enabled).setIsDefaultAccount ?_ _
  rw [hmade]
  exact Nat.lt_succ_self s.made

variable (program) in
lemma made_addToList (h : Made s) (hmade : acct < s.made) (hnew : acct ∉ s.accounts) :
    Made (addToList program s acct) := by
  have hlisted : Made { s with accounts := s.accounts ++ [acct] } := by
    refine ⟨?_, fun a ha => ?_, h.reference⟩
    · show (s.accounts ++ [acct]).Nodup
      rw [← List.concat_eq_append]
      exact h.nodup.concat hnew
    · rcases List.mem_append.mp ha with ha | ha
      · exact h.accounts a ha
      · obtain rfl := List.mem_singleton.mp ha
        exact hmade
  have hchanged : Made (accountsChanged program { s with accounts := s.accounts ++ [acct] }) :=
    hlisted.accountsChanged
  have hmade₁ :
      acct < (accountsChanged program { s with accounts := s.accounts ++ [acct] }).made := by
    rw [(sameNumbers_accountsChanged program _).made]
    exact hmade
  refine (hchanged.setIsDefaultAccount hmade₁ false).setIsDefaultAccount ?_ _
  rw [(sameNumbers_setIsDefaultAccount _ acct false).made]
  exact hmade₁

lemma made_next (h : Made s) (a : Action) : Made (next program s a).1 := by
  have habout : ∀ (acct : Ref) (result : State × Outcome),
      (acct < s.made → Made result.1) → Made (Action.about s acct result).1 := by
    intro acct result hresult
    unfold Action.about
    split
    · next hmade => exact hresult hmade
    · exact h
  cases a with
  | add settings =>
    have hget := made_getAccount program h settings
    rw [next]
    by_cases hreturned : (getAccount program s settings).2 = .returned
    · have hnew : s.made ∉ s.accounts := fun hmem => Nat.lt_irrefl _ (h.accounts s.made hmem)
      obtain ⟨haccounts, hmade⟩ := getAccount_numbers program s settings
      rw [andThen_of_returned hreturned]
      refine (made_addToList program hget ?_ ?_).of_same (sameFlags_renewGuid _ s.made)
      · rw [hmade]
        exact Nat.lt_succ_self s.made
      · rwa [haccounts]
    · rwa [andThen_of_ne hreturned]
  | remove acct =>
    refine habout acct _ fun _ => ?_
    have hunset := h.unsetDefault acct
    unfold removeAccount
    dsimp only
    split
    · have herase : Made { setIsDefaultAccount s acct false with
          accounts := (setIsDefaultAccount s acct false).accounts.erase acct } :=
        ⟨hunset.nodup.erase acct, fun a ha => hunset.accounts a (List.mem_of_mem_erase ha),
          hunset.reference⟩
      exact herase.accountsChanged
    · exact hunset
  | edit acct guid => exact habout acct _ fun _ => h.of_same (sameFlags_setGuid nesting s acct guid)
  | enable acct => exact habout acct _ fun _ => h.setEnabled acct true
  | disable acct => exact habout acct _ fun _ => h.setEnabled acct false
  | markDefault acct => exact habout acct _ fun hmade => h.setDefault hmade
  | elapse =>
    rw [next]
    split
    · have hdone : Made { s with delayed := false } := ⟨h.nodup, h.accounts, h.reference⟩
      exact hdone.ensureDefaultAccount
    · exact h

lemma made_run (history : List Action) : Made (run program history) := by
  induction history with
  | nil => exact ⟨.nil, by simp [run, State.init], by simp [run, State.init]⟩
  | cons a history ih => exact made_next ih a

/-! ## One action -/

/-- Under this condition all is settled, and without it the look does not come to a usable
account. -/
structure SettledIf (program : Program) (condition : Prop) (s : State) : Prop where
  settled : condition → Settled s
  good : LooksGood program s → condition

/-- Where the reference is trusted the condition is that all agrees. -/
lemma settledIf_of_trusted {condition : Prop} (htrusted : Trusted s)
    (hiff : Agrees s ↔ condition) : SettledIf program condition s :=
  ⟨fun h => ⟨htrusted, hiff.mpr h⟩, fun h => hiff.mp ((looksGood_iff htrusted).mp h)⟩

lemma settledIf_of_settled {condition : Prop} (h : Settled s) (hcondition : condition) :
    SettledIf program condition s := ⟨fun _ => h, fun _ => hcondition⟩

lemma SettledIf.ensureDefaultAccount {condition : Prop} (h : SettledIf program condition s) :
    SettledIf program condition (ensureDefaultAccount program s) :=
  ⟨fun hc => (h.settled hc).ensureDefaultAccount,
    fun hgood => h.good (looksGood_ensureDefaultAccount.mp hgood)⟩

lemma SettledIf.accountsChanged {condition : Prop} (h : SettledIf program condition s) :
    SettledIf program condition (accountsChanged program s) :=
  ⟨fun hc => (h.settled hc).accountsChanged,
    fun hgood => h.good (looksGood_accountsChanged.mp hgood)⟩

lemma Trusted.of_same (h : Trusted s) (hsame : SameFlags s s') : Trusted s' := by
  intro a ha hset
  rw [hsame.accounts] at ha
  rw [hsame.isDefaultAccount] at hset
  rw [hsame.defaultAccount]
  exact h a ha hset

lemma Agrees.of_same (h : Agrees s) (hsame : SameFlags s s') : Agrees s' where
  reference a ha hon := by
    rw [hsame.defaultAccount] at ha
    rw [hsame.enabled] at hon
    rw [hsame.accounts, hsame.isDefaultAccount]
    exact h.reference a ha hon
  flags hdisabled a ha := by
    rw [hsame.accounts] at ha hdisabled
    rw [hsame.enabled] at hdisabled
    rw [hsame.isDefaultAccount]
    exact h.flags hdisabled a ha

lemma Settled.of_same (h : Settled s) (hsame : SameFlags s s') : Settled s' :=
  ⟨h.trusted.of_same hsame, h.agrees.of_same hsame⟩

lemma SameFlags.symm (h : SameFlags s s') : SameFlags s' s :=
  ⟨h.enabled.symm, h.isDefaultAccount.symm, h.made.symm, h.accounts.symm, h.defaultAccount.symm⟩

lemma trusted_unsetDefault (h : Trusted s) (acct : Ref) : Trusted (unsetDefault s acct) := by
  obtain ⟨delayed, heq⟩ := unsetDefault_eq s acct
  rw [heq]
  intro a ha hset
  by_cases hne : a = acct
  · simp [hne] at hset
  · exact h a ha (by simpa [hne] using hset)

lemma trusted_setDefault (hflag : s.isDefaultAccount acct = false) :
    Trusted (setDefault s acct) := by
  obtain ⟨delayed, heq⟩ := setDefault_eq hflag
  rw [heq]
  intro a ha hset
  rw [(of_decide_eq_true hset).resolve_right fun hnot => hnot.1 ha]

/-- An account gets the flag. -/
lemma settledIf_setDefault (h : Settled s) (acct : Ref) :
    SettledIf program (s.isDefaultAccount acct = false →
      (s.enabled acct = true → acct ∈ s.accounts) ∧
      (acct ∈ s.accounts → ∃ a ∈ s.accounts, s.enabled a = true)) (setDefault s acct) := by
  by_cases hflag : s.isDefaultAccount acct = true
  · rw [setDefault_of_flag hflag]
    exact settledIf_of_settled h fun hoff => (by rw [hflag] at hoff; cases hoff)
  · have hoff := (Bool.not_eq_true _).mp hflag
    refine settledIf_of_trusted (trusted_setDefault hoff) ⟨fun hagrees _ => ?_, fun hc =>
      (settled_setDefault hoff (hc hoff).1 (hc hoff).2).agrees⟩
    obtain ⟨delayed, heq⟩ := setDefault_eq hoff
    rw [heq] at hagrees
    refine ⟨fun hon => (hagrees.reference acct rfl hon).1, fun hmem => ?_⟩
    by_contra hnone
    push Not at hnone
    have hset := hagrees.flags (fun a ha => (Bool.not_eq_true _).mp (hnone a ha)) acct hmem
    simp at hset

/-- An account is enabled. -/
lemma settledIf_enable (h : Settled s) (acct : Ref) :
    SettledIf program (s.enabled acct = false → s.defaultAccount = some acct →
      acct ∈ s.accounts ∧ s.isDefaultAccount acct = true) (setEnabled program s acct true) := by
  by_cases hon : s.enabled acct = true
  · rw [setEnabled, if_pos hon.symm]
    exact settledIf_of_settled h fun hoff => (by rw [hon] at hoff; cases hoff)
  · have hoff := (Bool.not_eq_true _).mp hon
    rw [setEnabled, if_neg (Ne.symm hon)]
    dsimp only
    rw [if_pos rfl]
    refine SettledIf.ensureDefaultAccount ?_
    refine settledIf_of_trusted h.trusted ⟨fun hagrees _ hdefault => ?_, fun hc => ?_⟩
    · exact hagrees.reference acct hdefault (Function.update_self acct true s.enabled)
    · refine ⟨fun a ha hset => ?_, fun hdisabled => h.agrees.flags fun a ha => ?_⟩
      · by_cases hne : a = acct
        · subst hne
          exact hc hoff ha
        · exact h.agrees.reference a ha (by simpa [hne] using hset)
      · have hupdated := hdisabled a ha
        by_cases hne : a = acct
        · rw [hne]
          exact hoff
        · simpa [hne] using hupdated

/-- An account is disabled, and loses the flag. -/
lemma settledIf_disable (h : Settled s) (acct : Ref) :
    SettledIf program (s.enabled acct = true → OnlyEnabled s acct →
      ∀ a ∈ s.accounts, a ≠ acct → s.isDefaultAccount a = false)
      (setEnabled program s acct false) := by
  by_cases hoff : s.enabled acct = false
  · rw [setEnabled, if_pos hoff.symm]
    exact settledIf_of_settled h fun hon => (by rw [hoff] at hon; cases hon)
  · have hon := (Bool.not_eq_false _).mp hoff
    rw [setEnabled, if_neg (Ne.symm hoff)]
    dsimp only
    rw [if_neg Bool.false_ne_true]
    obtain ⟨delayed, heq⟩ :=
      unsetDefault_eq { s with enabled := Function.update s.enabled acct false } acct
    have htrusted : Trusted { s with enabled := Function.update s.enabled acct false } := h.trusted
    refine settledIf_of_trusted (trusted_unsetDefault htrusted acct) ?_
    rw [heq]
    constructor
    · intro hagrees _ honly a ha hne
      have hdisabled := hagrees.flags (fun b hb => ?_) a ha
      · simpa [hne] using hdisabled
      · by_cases hb' : b = acct
        · simp [hb']
        · simpa [hb'] using honly b hb hb'
    · intro hc
      refine ⟨fun a ha hset => ?_, fun hdisabled a ha => ?_⟩
      · have hne : a ≠ acct := by
          rintro rfl
          simp at hset
        simpa [hne] using h.agrees.reference a ha (by simpa [hne] using hset)
      · by_cases hne : a = acct
        · simp [hne]
        · have honly : OnlyEnabled s acct := fun b hb hb' => by simpa [hb'] using hdisabled b hb
          simpa [hne] using hc hon honly a ha hne

/-- An account is removed. -/
lemma settledIf_remove (h : Settled s) (hnodup : s.accounts.Nodup) (acct : Ref) :
    SettledIf program ((s.defaultAccount = some acct → s.enabled acct = false) ∧
      (OnlyEnabled s acct → ∀ a ∈ s.accounts, a ≠ acct → s.isDefaultAccount a = false))
      (removeAccount program s acct) := by
  obtain ⟨delayed, heq⟩ := unsetDefault_eq s acct
  have hunset : setIsDefaultAccount s acct false = unsetDefault s acct := rfl
  have htrusted := trusted_unsetDefault h.trusted acct
  rw [removeAccount, hunset]
  by_cases hmem : acct ∈ (unsetDefault s acct).accounts
  · rw [if_pos hmem]
    refine SettledIf.accountsChanged ?_
    refine settledIf_of_trusted (fun a ha => htrusted a (List.mem_of_mem_erase ha)) ?_
    rw [heq] at hmem ⊢
    constructor
    · intro hagrees
      refine ⟨fun hdefault => ?_, fun honly a ha hne => ?_⟩
      · by_contra hon
        have hlisted := (hagrees.reference acct hdefault ((Bool.not_eq_false _).mp hon)).1
        exact ((hnodup.mem_erase_iff).mp hlisted).1 rfl
      · have hoff := hagrees.flags (fun b hb => ?_) a ((hnodup.mem_erase_iff).mpr ⟨hne, ha⟩)
        · simpa [hne] using hoff
        · obtain ⟨hb', hb⟩ := (hnodup.mem_erase_iff).mp hb
          exact honly b hb hb'
    · intro hc
      refine ⟨fun a ha hon => ?_, fun hdisabled a ha => ?_⟩
      · obtain ⟨hlisted, hset⟩ := h.agrees.reference a ha hon
        have hne : a ≠ acct := by
          rintro rfl
          have hoff := hc.1 ha
          have hon' : s.enabled a = true := hon
          rw [hoff] at hon'
          cases hon'
        exact ⟨(hnodup.mem_erase_iff).mpr ⟨hne, hlisted⟩, by simpa [hne] using hset⟩
      · obtain ⟨hne, ha⟩ := (hnodup.mem_erase_iff).mp ha
        have honly : OnlyEnabled s acct := fun b hb hb' =>
          hdisabled b ((hnodup.mem_erase_iff).mpr ⟨hb', hb⟩)
        simpa [hne] using hc.2 honly a ha hne
  · rw [if_neg hmem]
    rw [heq] at hmem
    have hne : ∀ a ∈ s.accounts, a ≠ acct := fun a ha hac => hmem (hac ▸ ha)
    refine settledIf_of_settled ⟨htrusted, ?_⟩ ⟨fun hdefault => ?_, fun honly a ha _ => ?_⟩
    · rw [heq]
      refine ⟨fun a ha hon => ?_, fun hdisabled a ha => ?_⟩
      · obtain ⟨hlisted, hset⟩ := h.agrees.reference a ha hon
        exact ⟨hlisted, by simpa [hne a hlisted] using hset⟩
      · simpa [hne a ha] using h.agrees.flags hdisabled a ha
    · by_contra hon
      exact hmem (h.agrees.reference acct hdefault ((Bool.not_eq_false _).mp hon)).1
    · exact h.agrees.flags (fun b hb => honly b hb (hne b hb)) a ha

/-! ## An account is added -/

lemma enabled_setDefault (s : State) (acct : Ref) : (setDefault s acct).enabled = s.enabled := by
  by_cases hflag : s.isDefaultAccount acct = true
  · rw [setDefault_of_flag hflag]
  · obtain ⟨delayed, heq⟩ := setDefault_eq ((Bool.not_eq_true _).mp hflag)
    rw [heq]

variable (program) in
lemma enabled_ensureDefaultAccount (s : State) :
    (ensureDefaultAccount program s).enabled = s.enabled := by
  cases look program s with
  | trusts acct hdefault henabled heq => rw [heq]
  | chooses hnone res hmem henabled heq => rw [heq, enabled_setDefault]
  | gives_up hnone hdisabled heq => rw [heq]

variable (program) in
lemma enabled_accountsChanged (s : State) : (accountsChanged program s).enabled = s.enabled := by
  unfold accountsChanged
  split
  · exact enabled_ensureDefaultAccount program s
  · rfl

variable (program) in
lemma enabled_setEnabled (s : State) (acct : Ref) (value : Bool) :
    (setEnabled program s acct value).enabled = Function.update s.enabled acct value := by
  unfold setEnabled
  split
  · next h => rw [h, Function.update_eq_self]
  · dsimp only
    split
    · rw [enabled_ensureDefaultAccount]
    · obtain ⟨delayed, heq⟩ :=
        unsetDefault_eq { s with enabled := Function.update s.enabled acct value } acct
      rw [heq]

variable (program) in
/-- The look gives no flag to an account that is not in the list. -/
lemma isDefaultAccount_ensureDefaultAccount (h : acct ∉ s.accounts) :
    (ensureDefaultAccount program s).isDefaultAccount acct = s.isDefaultAccount acct := by
  cases look program s with
  | trusts a hdefault henabled heq => rw [heq]
  | chooses hnone res hmem henabled heq =>
    rw [heq]
    by_cases hflag : s.isDefaultAccount res = true
    · rw [setDefault_of_flag hflag]
    · obtain ⟨delayed, hset⟩ := setDefault_eq ((Bool.not_eq_true _).mp hflag)
      have hne : acct ≠ res := fun hac => h (hac ▸ hmem)
      rw [hset]
      simp [hne, h]
  | gives_up hnone hdisabled heq => rw [heq]

variable (program) in
/-- Without an enabled account the look changes no flag. -/
lemma isDefaultAccount_accountsChanged (hdisabled : ∀ a ∈ s.accounts, s.enabled a = false)
    (hnone : ∀ acct, s.defaultAccount = some acct → s.enabled acct = false) :
    (accountsChanged program s).isDefaultAccount = s.isDefaultAccount := by
  unfold accountsChanged
  split
  · cases look program s with
    | trusts a hdefault henabled heq =>
      rw [hnone a hdefault] at henabled
      cases henabled
    | chooses hnone res hmem henabled heq =>
      rw [hdisabled res hmem] at henabled
      cases henabled
    | gives_up hnone hdisabled heq => rw [heq]
  · rfl

lemma Settled.newAccount (h : Settled s) (hmade : Made s) : Settled (newAccount s) := by
  have hne : ∀ a ∈ s.accounts, a ≠ s.made := fun a ha => Nat.ne_of_lt (hmade.accounts a ha)
  refine ⟨fun a ha hset => ?_, fun a ha hon => ?_, fun hdisabled a ha => ?_⟩
  · exact h.trusted a ha (by simpa [Accounts.newAccount, hne a ha] using hset)
  · have hne' : a ≠ s.made := Nat.ne_of_lt (hmade.reference a ha)
    have hold := h.agrees.reference a ha (by simpa [Accounts.newAccount, hne'] using hon)
    exact ⟨hold.1, by simpa [Accounts.newAccount, hne'] using hold.2⟩
  · have hold := h.agrees.flags
      (fun b hb => by simpa [Accounts.newAccount, hne b hb] using hdisabled b hb) a ha
    simpa [Accounts.newAccount, hne a ha] using hold

/-- What `GetAccount` has made of stored settings. -/
structure Got (s : State) (settings : SettingsAccount) (s' : State) : Prop where
  accounts : s'.accounts = s.accounts
  enabled : s'.enabled = Function.update s.enabled s.made settings.enabled
  flag : s'.isDefaultAccount s.made = settings.isDefaultAccount
  settled : settings.isDefaultAccount = false → Settled s'
  reference : settings.isDefaultAccount = true → s'.defaultAccount = some s.made
  others : settings.isDefaultAccount = true → ∀ a ∈ s.accounts, s'.isDefaultAccount a = false

lemma Got.of_same {settings : SettingsAccount} (h : Got s settings s₁) (hsame : SameFlags s₁ s') :
    Got s settings s' where
  accounts := hsame.accounts.trans h.accounts
  enabled := hsame.enabled.trans h.enabled
  flag := by rw [hsame.isDefaultAccount, h.flag]
  settled hoff := (h.settled hoff).of_same hsame
  reference hon := hsame.defaultAccount.trans (h.reference hon)
  others hon a ha := by rw [hsame.isDefaultAccount, h.others hon a ha]

variable (program) in
lemma got_getAccount (h : Settled s) (hmade : Made s) (settings : SettingsAccount) :
    Got s settings (getAccount program s settings).1 := by
  have hnew : s.made ∉ s.accounts := fun hmem => Nat.lt_irrefl _ (hmade.accounts s.made hmem)
  refine Got.of_same ?_ (sameFlags_foldl_setField s.made settings.fields _ (.refl _))
  -- a new account is enabled or not, without a flag
  have hnewOff : (newAccount s).enabled s.made = false := Function.update_self _ _ _
  have hnewFlag : (newAccount s).isDefaultAccount s.made = false := Function.update_self _ _ _
  have hsettled : Settled (setEnabled program (newAccount s) s.made settings.enabled) := by
    cases settings.enabled with
    | true =>
      refine (settledIf_enable (h.newAccount hmade) s.made).settled fun _ hdefault => ?_
      exact absurd (hmade.reference s.made hdefault) (Nat.lt_irrefl _)
    | false =>
      rw [setEnabled, if_pos hnewOff.symm]
      exact h.newAccount hmade
  have hflag : (setEnabled program (newAccount s) s.made settings.enabled).isDefaultAccount s.made =
      false := by
    cases settings.enabled with
    | true =>
      rw [setEnabled, if_neg (by rw [hnewOff]; decide)]
      dsimp only
      rw [if_pos rfl]
      have hnew₁ : s.made ∉ { newAccount s with
          enabled := Function.update (newAccount s).enabled s.made true }.accounts := hnew
      exact (isDefaultAccount_ensureDefaultAccount program hnew₁).trans hnewFlag
    | false => rw [setEnabled, if_pos hnewOff.symm, hnewFlag]
  have henabled : (setEnabled program (newAccount s) s.made settings.enabled).enabled =
      Function.update s.enabled s.made settings.enabled := by
    rw [enabled_setEnabled, newAccount, Function.update_idem]
  have haccounts : (setEnabled program (newAccount s) s.made settings.enabled).accounts =
      s.accounts := (sameNumbers_setEnabled program (newAccount s) s.made settings.enabled).accounts
  cases hdefault : settings.isDefaultAccount with
  | false =>
    have hunset : setIsDefaultAccount (setEnabled program (newAccount s) s.made settings.enabled)
        s.made false = setEnabled program (newAccount s) s.made settings.enabled :=
      unsetDefault_of_not_flag hflag
    rw [hunset]
    exact ⟨haccounts, henabled, hflag.trans hdefault.symm, fun _ => hsettled,
      fun hon => (by rw [hdefault] at hon; cases hon),
      fun hon => (by rw [hdefault] at hon; cases hon)⟩
  | true =>
    obtain ⟨delayed, heq⟩ := setDefault_eq hflag
    have hset : setIsDefaultAccount (setEnabled program (newAccount s) s.made settings.enabled)
        s.made true = setDefault (setEnabled program (newAccount s) s.made settings.enabled) s.made :=
      rfl
    rw [hset, heq]
    refine ⟨haccounts, henabled, by simp [hdefault],
      fun hoff => (by rw [hdefault] at hoff; cases hoff), fun _ => rfl, fun _ a ha => ?_⟩
    have hne : a ≠ s.made := fun hac => hnew (hac ▸ ha)
    simp [hne, haccounts, ha]

/-- An account that has not got into the list. -/
lemma settledIf_of_got {settings : SettingsAccount} (hmade : Made s) (h : Got s settings s') :
    SettledIf program (settings.isDefaultAccount = true → settings.enabled = false) s' := by
  cases hdefault : settings.isDefaultAccount with
  | false => exact settledIf_of_settled (h.settled hdefault) (fun hon => (by cases hon))
  | true =>
    have hothers : ∀ a ∈ s'.accounts, s'.isDefaultAccount a = false := by
      rw [h.accounts]
      exact h.others hdefault
    have htrusted : Trusted s' := by
      intro a ha hset
      rw [hothers a ha] at hset
      cases hset
    have hself : s'.enabled s.made = settings.enabled := by rw [h.enabled, Function.update_self]
    refine settledIf_of_trusted htrusted ⟨fun hagrees _ => ?_, fun hc => ?_⟩
    · by_contra hon
      have hlisted := (hagrees.reference s.made (h.reference hdefault)
        (hself.trans ((Bool.not_eq_false _).mp hon))).1
      rw [h.accounts] at hlisted
      exact Nat.lt_irrefl _ (hmade.accounts s.made hlisted)
    · refine ⟨fun a ha hon => ?_, fun _ => hothers⟩
      obtain rfl := Option.some.inj ((h.reference hdefault).symm.trans ha)
      rw [hself, hc rfl] at hon
      cases hon

/-- The flag of an account of the list is taken and given back. -/
lemma Settled.toggle (h : Settled s) (hmem : acct ∈ s.accounts) :
    Settled (setIsDefaultAccount (setIsDefaultAccount s acct false) acct
      (s.isDefaultAccount acct)) := by
  cases hflag : s.isDefaultAccount acct with
  | false =>
    have hunset : setIsDefaultAccount s acct false = s := unsetDefault_of_not_flag hflag
    rw [hunset, hunset]
    exact h
  | true =>
    obtain ⟨delayed, heq⟩ := unsetDefault_eq s acct
    have hunset : setIsDefaultAccount s acct false = unsetDefault s acct := rfl
    have hsome : ∃ a ∈ s.accounts, s.enabled a = true := by
      by_contra hnone
      push Not at hnone
      have hoff := h.agrees.flags (fun a ha => (Bool.not_eq_true _).mp (hnone a ha)) acct hmem
      rw [hflag] at hoff
      cases hoff
    rw [hunset, heq]
    exact settled_setDefault (Function.update_self _ _ _) (fun _ => hmem) fun _ => hsome

variable (program) in
/-- An account that is put into the list. -/
lemma agrees_addToList_iff {settings : SettingsAccount} (hmade : Made s) (h : Got s settings s') :
    Trusted (addToList program s' s.made) ∧ (Agrees (addToList program s' s.made) ↔
      (settings.isDefaultAccount = true →
        settings.enabled = true ∨ ∃ a ∈ s.accounts, s.enabled a = true)) := by
  have hnew : s.made ∉ s.accounts := fun hmem => Nat.lt_irrefl _ (hmade.accounts s.made hmem)
  set s₁ : State := { s' with accounts := s'.accounts ++ [s.made] } with hs₁
  have hmem : s.made ∈ (accountsChanged program s₁).accounts := by
    rw [(sameNumbers_accountsChanged program s₁).accounts]
    simp [hs₁]
  have hall : (∀ a ∈ s₁.accounts, s₁.enabled a = false) ↔
      settings.enabled = false ∧ ∀ a ∈ s.accounts, s.enabled a = false := by
    have hne : ∀ a ∈ s.accounts, a ≠ s.made := fun a ha hac => hnew (hac ▸ ha)
    rw [hs₁]
    simp only [h.accounts, h.enabled, List.mem_append, List.mem_singleton]
    constructor
    · intro hdisabled
      refine ⟨by simpa using hdisabled s.made (.inr rfl), fun a ha => ?_⟩
      simpa [hne a ha] using hdisabled a (.inl ha)
    · rintro ⟨hoff, hdisabled⟩ a (ha | rfl)
      · simpa [hne a ha] using hdisabled a ha
      · simpa using hoff
  cases hdefault : settings.isDefaultAccount with
  | false =>
    have hsettled := h.settled hdefault
    have hflag : s'.isDefaultAccount s.made = false := h.flag.trans hdefault
    have hlisted : Settled s₁ := by
      refine ⟨fun a ha hset => ?_, fun a ha hon => ?_, fun hdisabled a ha => ?_⟩
      · rcases List.mem_append.mp ha with ha | ha
        · exact hsettled.trusted a ha hset
        · obtain rfl := List.mem_singleton.mp ha
          have hon : s'.isDefaultAccount s.made = true := hset
          rw [hflag] at hon
          cases hon
      · obtain ⟨hlisted, hset⟩ := hsettled.agrees.reference a ha hon
        exact ⟨List.mem_append_left _ hlisted, hset⟩
      · rcases List.mem_append.mp ha with ha | ha
        · exact hsettled.agrees.flags (fun b hb => hdisabled b (List.mem_append_left _ hb)) a ha
        · obtain rfl := List.mem_singleton.mp ha
          exact hflag
    have htoggled : Settled (addToList program s' s.made) := hlisted.accountsChanged.toggle hmem
    exact ⟨htoggled.trusted, fun _ hon => (by cases hon), fun _ => htoggled.agrees⟩
  | true =>
    have hflag : s'.isDefaultAccount s.made = true := h.flag.trans hdefault
    have hreference := h.reference hdefault
    by_cases hc : settings.enabled = true ∨ ∃ a ∈ s.accounts, s.enabled a = true
    · -- the reference is to the account that is now in the list
      have hlisted : Settled s₁ := by
        refine ⟨fun a ha hset => ?_, fun a ha _ => ?_, fun hdisabled => ?_⟩
        · rcases List.mem_append.mp ha with ha | ha
          · have hoff := h.others hdefault a (h.accounts ▸ ha)
            have hon : s'.isDefaultAccount a = true := hset
            rw [hoff] at hon
            cases hon
          · obtain rfl := List.mem_singleton.mp ha
            exact hreference
        · obtain rfl := Option.some.inj (hreference.symm.trans ha)
          exact ⟨List.mem_append_right _ (List.mem_singleton.mpr rfl), hflag⟩
        · obtain ⟨hoff, hnone⟩ := hall.mp hdisabled
          rcases hc with hon | ⟨a, ha, hon⟩
          · rw [hoff] at hon
            cases hon
          · rw [hnone a ha] at hon
            cases hon
      have htoggled : Settled (addToList program s' s.made) := hlisted.accountsChanged.toggle hmem
      exact ⟨htoggled.trusted, fun _ _ => hc, fun _ => htoggled.agrees⟩
    · -- otherwise the account gets its flag back, although none is enabled
      have hnone := hc
      push Not at hnone
      have hdisabled : ∀ a ∈ s₁.accounts, s₁.enabled a = false :=
        hall.mpr ⟨(Bool.not_eq_true _).mp hnone.1, fun a ha => (Bool.not_eq_true _).mp (hnone.2 a ha)⟩
      have hself : s.made ∈ s₁.accounts := by simp [hs₁]
      have hflags : (accountsChanged program s₁).isDefaultAccount s.made = true := by
        rw [isDefaultAccount_accountsChanged program hdisabled]
        · exact hflag
        · intro acct hacct
          obtain rfl := Option.some.inj (hreference.symm.trans hacct)
          exact hdisabled s.made hself
      obtain ⟨delayed, hunset⟩ := unsetDefault_eq (accountsChanged program s₁) s.made
      have hoff : (unsetDefault (accountsChanged program s₁) s.made).isDefaultAccount s.made =
          false := by
        rw [hunset]
        exact Function.update_self _ _ _
      have hadd : addToList program s' s.made =
          setDefault (unsetDefault (accountsChanged program s₁) s.made) s.made := by
        rw [addToList, ← hs₁, hflags]
        rfl
      rw [hadd]
      refine ⟨trusted_setDefault hoff, fun hagrees => ?_, fun hc' => absurd (hc' rfl) hc⟩
      obtain ⟨delayed', hset⟩ := setDefault_eq hoff
      rw [hset, hunset] at hagrees
      have hstill := hagrees.flags (fun a ha => ?_) s.made hmem
      · simp at hstill
      · have henabled := enabled_accountsChanged program s₁
        have haccounts := (sameNumbers_accountsChanged program s₁).accounts
        show (accountsChanged program s₁).enabled a = false
        rw [henabled]
        exact hdisabled a (haccounts ▸ ha)

/-! ## Runs -/

/-- An action that is about an account does nothing where that has not been made. -/
lemma settledIf_about {condition : Prop} (h : Settled s) {result : State × Outcome}
    (hresult : SettledIf program condition result.1) :
    SettledIf program (acct < s.made → condition) (Action.about s acct result).1 := by
  unfold Action.about
  split
  · next hmade => exact ⟨fun hc => hresult.settled (hc hmade), fun hgood _ => hresult.good hgood⟩
  · next hmade => exact settledIf_of_settled h fun hless => absurd hless hmade

/-- **The step**: an action leaves all settled if it is careful, and is careful if the look comes
to a usable account after it. -/
lemma settledIf_next (h : Settled s) (hmade : Made s) (a : Action) :
    SettledIf program (Careful program s a) (next program s a).1 := by
  cases a with
  | add settings =>
    have hgot := got_getAccount program h hmade settings
    by_cases hreturned : (getAccount program s settings).2 = .returned
    · obtain ⟨htrusted, hiff⟩ := agrees_addToList_iff program hmade hgot
      have hsame := sameFlags_renewGuid (addToList program (getAccount program s settings).1 s.made)
        s.made
      rw [next, Careful, if_pos hreturned, andThen_of_returned hreturned]
      refine settledIf_of_trusted (htrusted.of_same hsame) ?_
      exact ⟨fun hagrees => hiff.mp (hagrees.of_same hsame.symm),
        fun hc => (hiff.mpr hc).of_same hsame⟩
    · rw [next, Careful, if_neg hreturned, andThen_of_ne hreturned]
      exact settledIf_of_got hmade hgot
  | remove acct => exact settledIf_about h (settledIf_remove h hmade.nodup acct)
  | edit acct guid =>
    have hsettled := h.of_same (sameFlags_setGuid nesting s acct guid)
    refine settledIf_of_settled ?_ trivial
    rw [next, Action.about]
    split
    · exact hsettled
    · exact h
  | enable acct => exact settledIf_about h (settledIf_enable h acct)
  | disable acct => exact settledIf_about h (settledIf_disable h acct)
  | markDefault acct => exact settledIf_about h (settledIf_setDefault h acct)
  | elapse =>
    refine settledIf_of_settled ?_ trivial
    rw [next]
    split
    · have hdone : Settled { s with delayed := false } := ⟨h.trusted, h.agrees.1, h.agrees.2⟩
      exact hdone.ensureDefaultAccount
    · exact h

lemma settled_init : Settled .init :=
  ⟨fun _ ha => absurd ha List.not_mem_nil, fun _ ha => (by cases ha),
    fun _ _ ha => absurd ha List.not_mem_nil⟩

/-- All is settled after a history of careful actions. -/
lemma settled_run (h : ∀ a earlier, a :: earlier <:+ history →
    Careful program (run program earlier) a) : Settled (run program history) := by
  induction history with
  | nil => exact settled_init
  | cons a history ih =>
    have hself : history <:+ a :: history := List.suffix_cons a history
    have hsettled := ih fun b earlier hearlier => h b earlier (hearlier.trans hself)
    exact (settledIf_next hsettled (made_run history) a).settled (h a history (List.suffix_refl _))

/-- **The default account is one that can be used** after the look at it, throughout a history,
exactly if its actions are careful. -/
theorem default_account_usable_iff (program : Program) (history : List Action) :
    (∀ earlier, earlier <:+ history → LooksGood program (run program earlier)) ↔
      ∀ a earlier, a :: earlier <:+ history → Careful program (run program earlier) a := by
  constructor
  · intro h
    induction history with
    | nil =>
      intro a earlier hsuffix
      exact absurd (List.eq_nil_of_suffix_nil hsuffix) (List.cons_ne_nil a earlier)
    | cons a history ih =>
      have hself : history <:+ a :: history := List.suffix_cons a history
      have hcareful := ih fun earlier hearlier => h earlier (hearlier.trans hself)
      intro b earlier hsuffix
      rcases List.suffix_cons_iff.mp hsuffix with heq | hsuffix
      · obtain ⟨rfl, rfl⟩ := List.cons_eq_cons.mp heq
        exact (settledIf_next (settled_run hcareful) (made_run _) b).good (h _ (List.suffix_refl _))
      · exact hcareful b earlier hsuffix
  · intro h earlier hsuffix
    refine Settled.looksGood (settled_run fun b rest hrest => ?_)
    exact h b rest (hrest.trans hsuffix)

/-- A default account that is removed stays the default account. -/
theorem removed_account_stays :
    ¬ LooksGood ⟨fun _ _ => true, true⟩
      (run ⟨fun _ _ => true, true⟩ [.remove 0, .add ⟨true, true, []⟩]) := by
  intro h
  exact absurd h.1 (by decide)

end FreeswitchContrib.FsClient.Accounts

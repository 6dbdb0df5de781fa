import FreeswitchContrib.Nibblebill.Accounting

/-!
# No negative bill

With a rate that is not negative and a clock that never goes back, the amount due only grows, so no
bill credits the account.  A reset is the exception: it moves `lastts` to now, and what a pause
before it is to give back stays to be taken off a bill it has nothing to do with.  `CleanResets` is
the run in which no reset leaves anything to give back.
-/

namespace FreeswitchContrib.Nibblebill

open Accrual

/-- What is owed on a call. -/
def NibbleData.owed (d : NibbleData) (billrate : ℚ) (t : ℤ) : ℚ :=
  d.account.owed (perMicrosecond billrate) t

/-- What the pauses before `t` are to give back. -/
def NibbleData.backlog (d : NibbleData) (billrate : ℚ) (t : ℤ) : ℚ :=
  d.billAdjustments
    + if d.pausets = 0 then 0 else perMicrosecond billrate * ((t - d.pausets : ℤ) : ℚ)

/-- A reset with nothing to give back; every other operation is clean. -/
def CleanReset (op : Operation) (e : Env) (s : State) : Prop :=
  op = .reset → ∀ c ∈ s.channel, ∀ d ∈ c.nibbleData, ∀ billrate ∈ c.nibbleRate,
    d.backlog billrate e.now = 0

/-- A run in which every reset is clean. -/
def CleanResets (g : Globals) : List (Operation × Env) → State → Prop
  | [], _ => True
  | (op, e) :: rest, s =>
    CleanReset op e s ∧ ∀ s' ∈ operate g op e s, CleanResets g rest s'

instance (op : Operation) (e : Env) (s : State) : Decidable (CleanReset op e s) := by
  unfold CleanReset
  infer_instance

instance : ∀ (g : Globals) (ops : List (Operation × Env)) (s : State),
    Decidable (CleanResets g ops s)
  | _, [], _ => isTrue trivial
  | g, (op, e) :: rest, s =>
    have : DecidablePred (CleanResets g rest) := fun s' => instDecidableCleanResets g rest s'
    inferInstanceAs (Decidable (_ ∧ ∀ s' ∈ operate g op e s, CleanResets g rest s'))

/-- An operation that neither resets nor adjusts. -/
def Operation.Ordinary (op : Operation) : Prop :=
  op ≠ .reset ∧ ∀ amount, op ≠ .adjust amount

lemma perMicrosecond_nonneg {billrate : ℚ} (h : 0 ≤ billrate) : 0 ≤ perMicrosecond billrate := by
  unfold perMicrosecond
  positivity

section Owed

variable {d : NibbleData} {billrate : ℚ} {t u : ℤ}

lemma owed_mono (hrate : 0 ≤ billrate) (htu : t ≤ u) : d.owed billrate t ≤ d.owed billrate u :=
  Account.owed_mono (perMicrosecond_nonneg hrate) (by exact_mod_cast htu)

lemma owed_billedAt (hrun : d.pausets = 0) : (d.billedAt billrate t).owed billrate t = 0 := by
  rw [NibbleData.owed, account_billedAt hrun]
  exact Account.owed_settle (account_pausedAt_eq_none.mpr hrun)

lemma owed_pausedAt (ht : t ≠ 0) : (d.pausedAt t).owed billrate t = d.owed billrate t := by
  rw [NibbleData.owed, account_pausedAt ht, Account.owed_pause, NibbleData.owed]

lemma owed_resumedAt : (d.resumedAt billrate t).owed billrate t = d.owed billrate t := by
  rw [NibbleData.owed, account_resumedAt, Account.owed_resume, NibbleData.owed]

lemma backlog_eq : d.backlog billrate t = d.account.backlog (perMicrosecond billrate) t := by
  by_cases hp : d.pausets = 0 <;>
    simp [NibbleData.backlog, Account.backlog, NibbleData.account, hp]

/-- After a reset the call is owed what the pauses were to give back, the wrong way round. -/
lemma owed_resetAt : (d.resetAt t).owed billrate t = -d.backlog billrate t := by
  rw [NibbleData.owed, account_resetAt, Account.owed_rebase, backlog_eq]

lemma backlog_nonneg (hrate : 0 ≤ billrate) (hcredit : 0 ≤ d.billAdjustments)
    (hp : d.pausets ≤ t) : 0 ≤ d.backlog billrate t := by
  have hgap : (0 : ℚ) ≤ ((t - d.pausets : ℤ) : ℚ) := by
    exact_mod_cast sub_nonneg.mpr hp
  have hlost := mul_nonneg (perMicrosecond_nonneg hrate) hgap
  unfold NibbleData.backlog
  split
  · simpa using hcredit
  · exact add_nonneg hcredit hlost

end Owed

/-! ## The invariant -/

/-- A call in order at `t`: credits are not negative and, as long as the resets were clean, neither
is what is owed, nor any bill so far. -/
def InOrder (clean : Prop) (billrate : ℚ) (answered t : ℤ) (s : State) : Prop :=
  ∃ c, s.channel = some c ∧ c.OnCall billrate answered t ∧
    (∀ d, c.nibbleData = some d → 0 ≤ d.billAdjustments) ∧
    (clean → ∀ d, c.nibbleData = some d → 0 ≤ d.owed billrate t) ∧
    (clean → ∀ b ∈ s.bills, 0 ≤ b.amount)

variable {g : Globals} {e : Env} {s : State} {clean : Prop} {billrate : ℚ} {answered t u : ℤ}

namespace InOrder

lemma later (h : InOrder clean billrate answered t s) (hrate : 0 ≤ billrate) (htu : t ≤ u) :
    InOrder clean billrate answered u s := by
  obtain ⟨c, hc, hcall, hcredit, howed, hbills⟩ := h
  exact ⟨c, hc, hcall.later htu, hcredit,
    fun hclean d hd => (howed hclean d hd).trans (owed_mono hrate htu), hbills⟩

lemma mono {clean' : Prop} (h : InOrder clean billrate answered t s) (himp : clean' → clean) :
    InOrder clean' billrate answered t s := by
  obtain ⟨c, hc, hcall, hcredit, howed, hbills⟩ := h
  exact ⟨c, hc, hcall, hcredit, fun hclean => howed (himp hclean),
    fun hclean => hbills (himp hclean)⟩

/-- New data on the channel. -/
lemma setData {d d' : NibbleData} {c : Channel} (h : InOrder clean billrate answered t s)
    (hc : s.channel = some c) (hd : c.nibbleData = some d) (htu : t ≤ u)
    (htimes : d'.lastts ≤ u ∧ 0 ≤ d'.pausets ∧ d'.pausets ≤ u) (hcredit : 0 ≤ d'.billAdjustments)
    (howed : clean → 0 ≤ d'.owed billrate u) :
    InOrder clean billrate answered u (setNibbleData d' s) := by
  obtain ⟨c', hc', hcall, -, -, hbills⟩ := h
  obtain rfl : c = c' := Option.some.inj (hc.symm.trans hc')
  refine ⟨{ c with nibbleData := some d' }, by rw [setNibbleData_channel, hc, Option.map_some],
    hcall.withData htu (hcall.account d hd) htimes, ?_, ?_, hbills⟩
  · rintro d₁ hd₁
    obtain rfl : d' = d₁ := by simpa using hd₁
    exact hcredit
  · rintro hclean d₁ hd₁
    obtain rfl : d' = d₁ := by simpa using hd₁
    exact howed hclean

lemma bill (h : InOrder clean billrate answered t s) (hrate : 0 ≤ billrate) (ht : t ≤ e.now)
    (hpause : e.now ≤ e.pauseNow) :
    InOrder clean billrate answered e.pauseNow (doBilling g e s) := by
  obtain ⟨c, hc, hcall, hcredit, howed, hbills⟩ := id h
  rcases hcall.doBilling_cases (g := g) hc ht with
    ⟨hsame, -⟩ | ⟨billaccount, haccount, hrun, hd, hchannel, hbills'⟩
  · rw [hsame]
    exact h.later hrate (ht.trans hpause)
  set d := c.nibbleData.getD (NibbleData.start ⟨answered⟩) with hdef
  have hsome : c.nibbleAccount.isSome := by
    rw [haccount]
    rfl
  have hstart : 1 ≤ e.now := hcall.isAnswered.trans (hcall.started.trans ht)
  -- a bill settles, and what accrues until a pause that follows is not negative
  have hsettled : ∀ u : ℤ, e.now ≤ u → 0 ≤ (d.billedAt billrate e.now).owed billrate u :=
    fun u hu => (owed_billedAt hd).ge.trans (owed_mono hrate hu)
  have hafter : ∀ d', (c.afterBill g e (d.billedAt billrate e.now)).nibbleData = some d' →
      d'.billAdjustments = 0 ∧ 0 ≤ d'.owed billrate e.pauseNow := by
    intro d' hd'
    rcases hh : c.csHangup with _ | _
    · rw [afterBill_of_running _ hh] at hd'
      obtain rfl := Option.some.inj hd'
      split
      · refine ⟨by simp [NibbleData.pausedAt, NibbleData.billedAt, hd], ?_⟩
        rw [owed_pausedAt (by omega)]
        exact hsettled _ hpause
      · exact ⟨rfl, hsettled _ hpause⟩
    · rcases hnew : c.nibbleData with _ | d₀
      · rw [afterBill_of_hangup_new _ hh hnew, hnew] at hd'
        exact absurd hd' (by simp)
      · rw [afterBill_of_hangup _ hh hnew] at hd'
        obtain rfl := Option.some.inj hd'
        exact ⟨rfl, hsettled _ hpause⟩
  refine ⟨_, hchannel, hcall.afterBill ht hpause hsome hd, fun d' hd' => (hafter d' hd').1.ge,
    fun _ d' hd' => (hafter d' hd').2, fun hclean b hb => ?_⟩
  rw [hbills', List.mem_append, List.mem_singleton] at hb
  rcases hb with hb | rfl
  · exact hbills hclean b hb
  · rw [due_eq_owed hd]
    have hbefore : 0 ≤ d.owed billrate t := by
      rcases hnew : c.nibbleData with _ | d₀
      · have hgap : (0 : ℚ) ≤ (t : ℚ) - answered := by
          exact_mod_cast sub_nonneg.mpr hcall.started
        have haccrued := mul_nonneg (perMicrosecond_nonneg hrate) hgap
        simpa [hdef, hnew, NibbleData.owed, Account.owed, account_start] using haccrued
      · rw [hdef, hnew]
        exact howed hclean d₀ hnew
    exact hbefore.trans (owed_mono hrate ht)

/-- **One operation keeps a call in order**, the resets clean so far. -/
lemma operate (h : InOrder clean billrate answered t s) (hrate : 0 ≤ billrate) {op : Operation}
    (hop : ∀ amount, op ≠ .adjust amount) (ht : t ≤ e.now) (hlast : e.now ≤ op.lastReading e) :
    ∃ s', operate g op e s = some s' ∧
      InOrder (clean ∧ CleanReset op e s) billrate answered (op.lastReading e) s' := by
  obtain ⟨c, hc, hcall, hcredit, howed, hbills⟩ := id h
  have hstart : 1 ≤ e.now := hcall.isAnswered.trans (hcall.started.trans ht)
  cases op with
  | heartbeat | flush => exact ⟨_, rfl, (h.bill hrate ht hlast).mono And.left⟩
  | hangup =>
    have hhangup : InOrder clean billrate answered t (enterHangup s) :=
      ⟨_, by rw [enterHangup, hc, Option.map_some], hcall.enterHangup, hcredit, howed, hbills⟩
    exact ⟨_, rfl, (hhangup.bill hrate ht hlast).mono And.left⟩
  | pause =>
    refine ⟨_, rfl, InOrder.mono (?_ : InOrder clean billrate answered e.now _) And.left⟩
    rcases hd : c.nibbleData with _ | d
    · rw [nibblebillPause_of_noData _ hc hd]
      obtain ⟨c, hc, rest⟩ := h.later hrate ht
      exact ⟨c, by rw [switchMutexLock_channel, hc], by simpa using rest⟩
    · obtain ⟨hlastts, hpos, hpaused⟩ := hcall.times d hd
      rw [nibblebillPause_of_data _ hc hd]
      refine h.setData hc hd ht ?_ ?_ fun hclean => ?_
      · rw [pausedAt_lastts, NibbleData.pausedAt]
        split
        · exact ⟨hlastts.trans ht, zero_le_one.trans hstart, le_rfl⟩
        · omega
      · rw [pausedAt_billAdjustments]
        exact hcredit d hd
      · rw [owed_pausedAt (by omega)]
        exact (howed hclean d hd).trans (owed_mono hrate ht)
  | resume =>
    rcases hd : c.nibbleData with _ | d
    · exact ⟨s, nibblebillResume_of_noData hc hd, (h.later hrate ht).mono And.left⟩
    · obtain ⟨hlastts, hpos, hpaused⟩ := hcall.times d hd
      refine ⟨_, nibblebillResume_of_data hc hd hcall.rate,
        InOrder.mono (?_ : InOrder clean billrate answered e.now _) And.left⟩
      refine h.setData hc hd ht ?_ ?_ fun hclean => ?_
      · rw [resumedAt_lastts, resumedAt_pausets]
        omega
      · have hbacklog := backlog_nonneg (t := e.now) hrate (hcredit d hd) (hpaused.trans ht)
        unfold NibbleData.backlog at hbacklog
        unfold NibbleData.resumedAt
        split
        · exact hcredit d hd
        next hp => simpa [hp] using hbacklog
      · rw [owed_resumedAt]
        exact (howed hclean d hd).trans (owed_mono hrate ht)
  | reset =>
    refine ⟨_, rfl, ?_⟩
    change InOrder _ billrate answered e.now _
    rcases hd : c.nibbleData with _ | d
    · rw [nibblebillReset_of_noData hc hd]
      exact (h.later hrate ht).mono And.left
    · obtain ⟨hlastts, hpos, hpaused⟩ := hcall.times d hd
      rw [nibblebillReset_of_data hc hd]
      refine (h.mono And.left).setData hc hd ht ?_ (hcredit d hd) fun hclean => ?_
      · simp only [NibbleData.resetAt]
        omega
      · have hzero := hclean.2 rfl c hc d hd billrate hcall.rate
        rw [owed_resetAt, hzero, neg_zero]
  | adjust amount => exact absurd rfl (hop amount)
  | check =>
    exact ⟨_, rfl, by
      rw [nibblebillCheck_state]
      exact (h.later hrate ht).mono And.left⟩

/-- **A run keeps a call in order**, as long as its resets are clean. -/
lemma run (hrate : 0 ≤ billrate) : ∀ {ops rest : List (Operation × Env)} {clean : Prop} {t : ℤ}
    {s : State}, InOrder clean billrate answered t s →
    (∀ x ∈ ops, ∀ amount, x.1 ≠ .adjust amount) → Timed t (ops ++ rest) →
    ∃ t' s', run g ops s = some s' ∧ Timed t' rest ∧
      InOrder (clean ∧ CleanResets g ops s) billrate answered t' s'
  | [], rest, clean, t, s, h, _, htimed => ⟨t, s, rfl, htimed, h.mono And.left⟩
  | (op, e) :: ops, rest, clean, t, s, h, hops, ⟨ht, hlast, htimed⟩ => by
    obtain ⟨s₁, hs₁, h₁⟩ := h.operate (g := g) hrate (hops _ List.mem_cons_self) ht hlast
    obtain ⟨t', s', hs', htimed', h'⟩ :=
      run hrate h₁ (fun x hx => hops x (List.mem_cons_of_mem _ hx)) htimed
    refine ⟨t', s', by simp [Nibblebill.run, hs₁, hs'], htimed', h'.mono ?_⟩
    rintro ⟨hclean, hreset, hrest⟩
    exact ⟨⟨hclean, hreset⟩, hrest s₁ hs₁⟩

end InOrder

/-! ## The resets decide -/

/-- A call that starts is in order. -/
lemma inOrder_start {c : Channel} (depth : ℤ) (hrate : c.nibbleRate = some billrate)
    (hprofile : c.profile = some ⟨answered⟩) (hanswered : 1 ≤ answered)
    (hnew : c.nibbleData = none) : InOrder True billrate answered answered ⟨some c, depth, []⟩ := by
  refine ⟨c, rfl, ⟨hrate, hprofile, hanswered, le_rfl, ?_, ?_⟩, ?_, ?_, ?_⟩ <;> simp [hnew]

lemma cleanResets_append : ∀ (ops rest : List (Operation × Env)) (s : State),
    CleanResets g (ops ++ rest) s ↔
      CleanResets g ops s ∧ ∀ s' ∈ run g ops s, CleanResets g rest s'
  | [], rest, s => by simp [CleanResets, run]
  | (op, e) :: ops, rest, s => by
    simp only [List.cons_append, CleanResets, cleanResets_append ops rest]
    rcases h : operate g op e s with _ | s₁ <;> simp [run, h, and_assoc]

/-- Without a reset every run is clean. -/
lemma cleanResets_of_no_reset : ∀ {ops : List (Operation × Env)} {s : State},
    (∀ x ∈ ops, x.1 ≠ .reset) → CleanResets g ops s
  | [], _, _ => trivial
  | _ :: _, _, h =>
    ⟨fun hop => absurd hop (h _ List.mem_cons_self),
      fun _ _ => cleanResets_of_no_reset fun x hx => h x (List.mem_cons_of_mem _ hx)⟩

/-- The first reset that is not clean. -/
lemma exists_unclean_of_not_cleanResets : ∀ {ops : List (Operation × Env)} {s : State},
    ¬CleanResets g ops s → ∃ pre op e post s', ops = pre ++ (op, e) :: post ∧
      run g pre s = some s' ∧ ¬CleanReset op e s'
  | [], _, h => absurd trivial h
  | (op, e) :: ops, s, h => by
    by_cases hop : CleanReset op e s
    · obtain ⟨s₁, hs₁, hrest⟩ : ∃ s₁, operate g op e s = some s₁ ∧ ¬CleanResets g ops s₁ := by
        by_contra hall
        push Not at hall
        exact h ⟨hop, fun s₁ hs₁ => hall s₁ hs₁⟩
      obtain ⟨pre, op', e', post, s', rfl, hpre, hunclean⟩ :=
        exists_unclean_of_not_cleanResets hrest
      exact ⟨(op, e) :: pre, op', e', post, s', rfl, by simp [run, hs₁, hpre], hunclean⟩
    · exact ⟨[], op, e, ops, s, rfl, rfl, hop⟩

lemma timed_append : ∀ {ops rest rest' : List (Operation × Env)} {t : ℤ},
    Timed t (ops ++ rest) → (∀ u, Timed u rest → Timed u rest') → Timed t (ops ++ rest')
  | [], _, _, t, h, himp => himp t h
  | _ :: _, _, _, _, ⟨ht, hlast, h⟩, himp => ⟨ht, hlast, timed_append h himp⟩

/-- A resume and a flush at the same moment. -/
def resumeThenFlush (e : Env) : List (Operation × Env) :=
  [(.resume, e), (.flush, { e with pauseNow := e.now })]

/-- **A reset that is not clean is followed by a credit**: the next bill gives the backlog back. -/
lemma exists_negative_bill {c : Channel} {d : NibbleData} (hrate : 0 ≤ billrate)
    (hcall : c.OnCall billrate answered t) (hc : s.channel = some c) (hd : c.nibbleData = some d)
    (hcredit : 0 ≤ d.billAdjustments) (ht : t ≤ e.now) (hunclean : d.backlog billrate e.now ≠ 0) :
    ∃ s', run g ((.reset, e) :: resumeThenFlush e) s = some s' ∧ ∃ b ∈ s'.bills, b.amount < 0 := by
  obtain ⟨billaccount, haccount⟩ := Option.isSome_iff_exists.mp (hcall.account d hd)
  set d₁ := d.resetAt e.now with hd₁
  set d₂ := d₁.resumedAt billrate e.now with hd₂
  have hs₁ : (setNibbleData d₁ s).channel = some { c with nibbleData := some d₁ } := by
    rw [setNibbleData_channel, hc, Option.map_some]
  have hs₂ : (setNibbleData d₂ (setNibbleData d₁ s)).channel
      = some { c with nibbleData := some d₂ } := by
    rw [setNibbleData_channel, hs₁, Option.map_some]
  have hrun₂ : d₂.pausets = 0 := resumedAt_pausets
  have hlast₂ : d₂.lastts ≤ e.now := by
    rw [hd₂, resumedAt_lastts]
    exact le_rfl
  have hflush := (doBilling_channel_bills (g := g) (e := { e with pauseNow := e.now }) hs₂
    hcall.rate haccount hcall.profile hcall.isAnswered (by rintro d' ⟨⟩; exact hrun₂) hlast₂).2
  have hrun : run g ((.reset, e) :: resumeThenFlush e) s = some
      (doBilling g { e with pauseNow := e.now } (setNibbleData d₂ (setNibbleData d₁ s))) := by
    simp only [resumeThenFlush, run, operate, nibblebillReset_of_data hc hd, Option.bind_some]
    rw [nibblebillResume_of_data hs₁ rfl hcall.rate]
    rfl
  refine ⟨_, hrun, _, by rw [hflush]; exact List.mem_append_right _ List.mem_cons_self, ?_⟩
  have hamount : d₂.due billrate e.now = -d.backlog billrate e.now := by
    rw [due_eq_owed hrun₂]
    exact owed_resumedAt.trans owed_resetAt
  have hbacklog := backlog_nonneg hrate hcredit ((hcall.times d hd).2.2.trans ht)
  simp only [Option.getD_some]
  rw [hamount]
  exact neg_neg_of_pos (lt_of_le_of_ne hbacklog (Ne.symm hunclean))

/-- **No bill is negative as long as every reset is clean**, and clean resets are exactly what it
takes: after one that is not, there is a way on, without a further reset, to a negative bill. -/
theorem bills_nonneg_of_cleanResets (g : Globals) (c : Channel) (depth : ℤ) (billrate : ℚ)
    (answered : ℤ) (ops : List (Operation × Env)) (hrate : c.nibbleRate = some billrate)
    (hnonneg : 0 ≤ billrate) (hprofile : c.profile = some ⟨answered⟩) (hanswered : 1 ≤ answered)
    (hnew : c.nibbleData = none) (hops : ∀ x ∈ ops, ∀ amount, x.1 ≠ .adjust amount)
    (htimed : Timed answered ops) :
    (CleanResets g ops ⟨some c, depth, []⟩ →
        ∃ s, run g ops ⟨some c, depth, []⟩ = some s ∧ ∀ b ∈ s.bills, 0 ≤ b.amount) ∧
      (CleanResets g ops ⟨some c, depth, []⟩ ↔
        ∀ pre, pre <+: ops → ∀ rest, (∀ x ∈ rest, x.1.Ordinary) → Timed answered (pre ++ rest) →
          ∀ s, run g (pre ++ rest) ⟨some c, depth, []⟩ = some s → ∀ b ∈ s.bills, 0 ≤ b.amount) := by
  have hstart := inOrder_start depth hrate hprofile hanswered hnew
  refine ⟨fun hclean => ?_, fun hclean pre hpre rest hrest htimed' s hs b hb => ?_, fun h => ?_⟩
  · obtain ⟨t', s', hs', -, c', -, -, -, -, hbills⟩ :=
      hstart.run (g := g) hnonneg hops (show Timed answered (ops ++ []) by simpa using htimed)
    exact ⟨s', hs', hbills ⟨trivial, hclean⟩⟩
  · obtain ⟨post, rfl⟩ := hpre
    have hpreOps : ∀ x ∈ pre ++ rest, ∀ amount, x.1 ≠ .adjust amount := by
      intro x hx amount
      rcases List.mem_append.mp hx with hx | hx
      · exact hops x (List.mem_append_left _ hx) amount
      · exact (hrest x hx).2 amount
    obtain ⟨t', s', hs', -, c', -, -, -, -, hbills⟩ :=
      hstart.run (g := g) hnonneg hpreOps
        (show Timed answered ((pre ++ rest) ++ []) by simpa using htimed')
    obtain rfl : s = s' := Option.some.inj (hs.symm.trans hs')
    refine hbills ⟨trivial, ?_⟩ b hb
    rw [cleanResets_append] at hclean ⊢
    exact ⟨hclean.1, fun s₁ _ => cleanResets_of_no_reset fun x hx => (hrest x hx).1⟩
  · by_contra hunclean
    obtain ⟨pre, op, e, post, s, rfl, hs, hreset⟩ := exists_unclean_of_not_cleanResets hunclean
    obtain ⟨hop, hback⟩ := Classical.not_imp.mp hreset
    subst hop
    push Not at hback
    obtain ⟨c₁, hc₁, d, hd, billrate₁, hrate₁, hne⟩ := hback
    have hpreOps : ∀ x ∈ pre, ∀ amount, x.1 ≠ .adjust amount := fun x hx =>
      hops x (List.mem_append_left _ hx)
    obtain ⟨t', s', hs', htimed', c', hc', hcall, hcredit, -, -⟩ :=
      hstart.run (g := g) hnonneg hpreOps htimed
    obtain rfl : s = s' := Option.some.inj (hs.symm.trans hs')
    obtain rfl : c₁ = c' := Option.some.inj (hc₁.symm.trans hc')
    obtain rfl : billrate₁ = billrate := Option.some.inj (hrate₁.symm.trans hcall.rate)
    obtain ⟨s₁, hs₁, b, hb, hneg⟩ :=
      exists_negative_bill (g := g) hnonneg hcall hc₁ hd (hcredit d hd) htimed'.1 hne
    have hleads : pre ++ [(.reset, e)] <+: pre ++ (.reset, e) :: post :=
      ⟨post, by simp⟩
    have htimed'' : Timed answered ((pre ++ [(.reset, e)]) ++ resumeThenFlush e) := by
      rw [List.append_assoc]
      refine timed_append htimed fun u hu => ⟨hu.1, hu.2.1, ?_⟩
      exact ⟨le_rfl, le_rfl, le_rfl, le_rfl, trivial⟩
    have hrun : run g ((pre ++ [(.reset, e)]) ++ resumeThenFlush e) ⟨some c, depth, []⟩
        = some s₁ := by
      rw [List.append_assoc, run_append, hs, Option.bind_some]
      exact hs₁
    have hordinary : ∀ x ∈ resumeThenFlush e, x.1.Ordinary := by
      intro x hx
      rcases List.mem_cons.mp hx with rfl | hx
      · simp [Operation.Ordinary]
      · rw [List.mem_singleton.mp hx]
        simp [Operation.Ordinary]
    exact absurd hneg (not_lt.mpr (h _ hleads _ hordinary htimed'' _ hrun b hb))

/-- A reset between two bills, with no pause before it. -/
theorem bills_nonneg_of_clean_reset :
    ∃ s, run ⟨true, 0⟩ [(.heartbeat, momentAt 5), (.reset, momentAt 6), (.flush, momentAt 9)]
      ⟨some answeredAtOne, 0, []⟩ = some s ∧ ∀ b ∈ s.bills, 0 ≤ b.amount :=
  (bills_nonneg_of_cleanResets ⟨true, 0⟩ answeredAtOne 0 60000000 1
    [(.heartbeat, momentAt 5), (.reset, momentAt 6), (.flush, momentAt 9)] rfl (by decide)
    rfl le_rfl rfl (by simp) (by decide)).1 (by with_unfolding_all decide)

/-- Billed at 1, paused from 2 to 3, reset at 3: the bill at 3 credits the account. -/
theorem not_bills_nonneg : ¬∀ (g : Globals) (c : Channel) (billrate : ℚ) (answered : ℤ)
    (ops : List (Operation × Env)), c.nibbleRate = some billrate → 0 ≤ billrate →
    c.profile = some ⟨answered⟩ → 1 ≤ answered → c.nibbleData = none →
    (∀ x ∈ ops, x.1 = .heartbeat ∨ x.1 = .flush ∨ x.1 = .pause ∨ x.1 = .resume ∨ x.1 = .reset) →
    Timed answered ops → ∀ s, run g ops ⟨some c, 0, []⟩ = some s → ∀ b ∈ s.bills, 0 ≤ b.amount := by
  intro h
  have hbill := h ⟨true, 0⟩ answeredAtOne 60000000 1
    [(.heartbeat, momentAt 1), (.pause, momentAt 2), (.resume, momentAt 3), (.reset, momentAt 3),
      (.flush, momentAt 3)]
    rfl (by decide) rfl le_rfl rfl (by simp) (by decide) _ rfl
    ⟨"alice", -1, true⟩ (by with_unfolding_all decide)
  exact absurd hbill (by decide)

end FreeswitchContrib.Nibblebill

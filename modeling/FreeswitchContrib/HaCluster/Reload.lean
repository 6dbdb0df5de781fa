import FreeswitchContrib.HaCluster.NetworkConfig

/-!
# Reloading the configuration

`do_config` destroys the pool of the configuration before it opens the document, and stores what it
builds in `config` and `hac_globals` as it goes.  A reload that fails therefore keeps nothing of a
configuration that has any lists, and where there are none it keeps that only if it fails before it
stores something.  A reload that succeeds lets `hac_globals.hb` point into the new pool if the
document has a general section.
-/

namespace FreeswitchContrib.HaCluster

open Built

/-! ## Pools -/

namespace Globals

variable (s : Globals)

/-- The pools of the lists that can be reached. -/
def pools : List ℕ :=
  (s.network.rgroups.map (·.pool)).toList ++ (s.network.interfaces.map (·.pool)).toList ++
    (s.network.fgroups.map (·.pool)).toList ++ (s.general.heartbeat.map (·.pool)).toList ++
    (s.general.failover.map (·.pool)).toList ++ (s.hb.map (·.pool)).toList

end Globals

/-- The module was loaded, and its configuration reloaded any number of times. -/
inductive Loaded : Globals → Prop
  | load {doc : Option Xml} {s : Globals} (h : doConfig false Globals.initial doc = some (s, true)) :
      Loaded s
  | reload {s s' : Globals} {doc : Option Xml} {accepted : Bool} (hs : Loaded s)
      (h : doConfig true s doc = some (s', accepted)) : Loaded s'

/-- What is reachable is the previous configuration, in memory that was not released. -/
structure Kept (s s' : Globals) : Prop where
  network : s'.network = s.network
  general : s'.general = s.general
  hb : s'.hb = s.hb
  live : ∀ pool ∈ s'.pools, pool ∉ s'.destroyed

/-- A reload that fails keeps the previous configuration, and one that succeeds leaves the
heartbeats in the current pool. -/
def ReloadLaw (s : Globals) (doc : Option Xml) : Prop :=
  match doConfig true s doc with
  | none => True
  | some (s', false) => Kept s s'
  | some (s', true) => ∃ hb, s'.hb = some hb ∧ hb.pool = s'.pool ∧ hb.pool ∉ s'.destroyed

/-! ## What a reload stores -/

/-- The lists of the state are in the current pool or were there before. -/
structure Filled (s s' : Globals) : Prop where
  pool : s'.pool = s.pool
  destroyed : s'.destroyed = s.destroyed
  pools : ∀ pool ∈ s'.pools, pool ∈ s.pools ∨ pool = s.pool

lemma Filled.refl (s : Globals) : Filled s s := ⟨rfl, rfl, fun _ h => .inl h⟩

lemma Filled.trans {s s' s'' : Globals} (h : Filled s s') (h' : Filled s' s'') : Filled s s'' := by
  refine ⟨h'.pool.trans h.pool, h'.destroyed.trans h.destroyed, fun pool hpool => ?_⟩
  obtain hpool | rfl := h'.pools pool hpool
  · exact h.pools pool hpool
  · exact .inr h.pool

lemma filled_andThen {s : Globals} {part : Built Globals} {rest : Globals → Built Globals}
    (h : Sat part (Filled s)) (hrest : ∀ s, Sat (rest s) (Filled s)) :
    Sat (part.andThen id rest) (Filled s) :=
  Sat.andThen h fun s' hs' s'' accepted heq => hs'.trans (hrest s' s'' accepted heq)

lemma setNetwork_filled {s : Globals} {network : Network}
    (h : ∀ pool ∈ (s.setNetwork network).pools, pool ∈ s.pools ∨ pool = s.pool) :
    Filled s (s.setNetwork network) := ⟨rfl, rfl, h⟩

lemma configDosRules_filled (s : Globals) (root : Xml) : Sat (configDosRules s root) (Filled s) := by
  unfold configDosRules
  split
  · exact sat_some.2 (Filled.refl s)
  · refine Sat.stored fun rgroups => setNetwork_filled ?_
    simp [Globals.pools, Globals.setNetwork, Globals.alloc]
    grind

lemma configInterfacesOf_filled (s : Globals) (root : Xml) :
    Sat (configInterfacesOf s root) (Filled s) := by
  unfold configInterfacesOf
  dsimp only
  split
  · refine sat_some.2 (setNetwork_filled ?_)
    simp [Globals.pools, Globals.setNetwork]
    grind
  · refine Sat.stored fun interfaces => ⟨rfl, rfl, ?_⟩
    simp [Globals.pools, Globals.setNetwork, Globals.alloc]
    grind

lemma configFailoverGroupsOf_filled (s : Globals) (root : Xml) :
    Sat (configFailoverGroupsOf s root) (Filled s) := by
  unfold configFailoverGroupsOf
  split
  · exact sat_some.2 (Filled.refl s)
  · refine Sat.stored fun fgroups => setNetwork_filled ?_
    simp [Globals.pools, Globals.setNetwork, Globals.alloc]
    grind

lemma configNetwork_filled (s : Globals) (root : Xml) : Sat (configNetwork s root) (Filled s) := by
  refine filled_andThen (configDosRules_filled s root) fun s => ?_
  exact filled_andThen (configInterfacesOf_filled s root) fun s =>
    configFailoverGroupsOf_filled s root

/-- The parts of the general section behind the node id add to what there is. -/
structure Extends (s s' : Globals) : Prop extends Filled s s' where
  network : s'.network = s.network
  nodeid : s'.general.nodeid = s.general.nodeid
  heartbeat : s.general.heartbeat ≠ none → s'.general.heartbeat ≠ none

lemma Extends.refl (s : Globals) : Extends s s := ⟨Filled.refl s, rfl, rfl, id⟩

lemma Extends.trans {s s' s'' : Globals} (h : Extends s s') (h' : Extends s' s'') :
    Extends s s'' :=
  ⟨h.toFilled.trans h'.toFilled, h'.network.trans h.network, h'.nodeid.trans h.nodeid,
    fun hne => h'.heartbeat (h.heartbeat hne)⟩

lemma configTimerA_extends (s : Globals) (root : Xml) : Sat (configTimerA s root) (Extends s) := by
  unfold configTimerA
  split
  · exact sat_some.2 (Extends.refl s)
  · exact sat_some.2 ⟨⟨rfl, rfl, fun _ h => .inl h⟩, rfl, rfl, id⟩

lemma configTimerB_extends (s : Globals) (root : Xml) : Extends s (configTimerB s root) := by
  unfold configTimerB
  split
  · exact Extends.refl s
  · exact ⟨⟨rfl, rfl, fun _ h => .inl h⟩, rfl, rfl, id⟩

lemma configFailureThreshold_extends (s : Globals) (root : Xml) :
    Extends s (configFailureThreshold s root) := by
  unfold configFailureThreshold
  split <;> exact ⟨⟨rfl, rfl, fun _ h => .inl h⟩, rfl, rfl, id⟩

lemma setHeartbeat_extends (s : Globals) (hb : List Heartbeat) :
    Extends s (s.setGeneral { s.general with heartbeat := s.alloc hb }) := by
  refine ⟨⟨rfl, rfl, ?_⟩, rfl, rfl, fun _ => Option.some_ne_none _⟩
  simp [Globals.pools, Globals.setGeneral, Globals.alloc]
  grind

lemma configHeartbeats_extends (xs : List Xml) :
    ∀ (s : Globals) (hb : List Heartbeat), Sat (configHeartbeats s hb xs) (Extends s) := by
  induction xs with
  | nil => exact fun s hb => sat_some.2 (Extends.refl s)
  | cons x xs ih =>
    intro s hb
    unfold configHeartbeats
    obtain ⟨hb', accepted⟩ := configHb hb x
    cases accepted with
    | false => exact sat_some.2 (setHeartbeat_extends s hb')
    | true =>
      set s₁ : Globals := { s.setGeneral { s.general with heartbeat := s.alloc hb' } with
        hb := s.alloc hb' } with hs₁
      have hstored : Extends s s₁ := by
        refine ⟨⟨rfl, rfl, ?_⟩, rfl, rfl, fun _ => Option.some_ne_none _⟩
        simp [hs₁, Globals.pools, Globals.setGeneral, Globals.alloc]
        grind
      exact fun s' accepted heq => hstored.trans (ih s₁ hb' s' accepted heq)

lemma configHeartbeatsOf_extends (s : Globals) (root : Xml) :
    Sat (configHeartbeatsOf s root) fun s' => Extends s s' ∧ s'.general.heartbeat ≠ none := by
  intro s' accepted heq
  have h := configHeartbeats_extends _ _ _ s' accepted heq
  exact ⟨(setHeartbeat_extends s _).trans h, h.heartbeat (Option.some_ne_none _)⟩

lemma configFailoverOf_extends (s : Globals) (root : Xml) :
    Sat (configFailoverOf s root) (Extends s) := by
  unfold configFailoverOf
  split
  · exact sat_some.2 (Extends.refl s)
  · refine Sat.stored fun failover => ⟨⟨rfl, rfl, ?_⟩, rfl, rfl, id⟩
    simp [Globals.pools, Globals.setGeneral, Globals.alloc]
    grind

/-- What is behind the timer begins with the list of heartbeats. -/
lemma configHeartbeats_failover_extends (s : Globals) (root : Xml) :
    Sat ((configHeartbeatsOf (configFailureThreshold (configTimerB s root) root) root).andThen id
      fun s => configFailoverOf s root) fun s' => Extends s s' ∧ s'.general.heartbeat ≠ none := by
  have htimers := (configTimerB_extends s root).trans (configFailureThreshold_extends _ root)
  refine Sat.andThen (fun s₁ accepted heq => ?_) fun s₁ ⟨h₁, hhb⟩ s₂ accepted heq => ?_
  · obtain ⟨h₁, hhb⟩ := configHeartbeatsOf_extends _ root s₁ accepted heq
    exact ⟨htimers.trans h₁, hhb⟩
  · have h₂ := configFailoverOf_extends s₁ root s₂ accepted heq
    exact ⟨h₁.trans h₂, h₂.heartbeat hhb⟩

/-- What is stored of the general section: the node id and, behind the timer, the heartbeats. -/
structure GeneralStored (s : Globals) (root : Xml) (s' : Globals) : Prop extends Filled s s' where
  network : s'.network = s.network
  nodeid : ∀ value, valueOf root "nodeid" = some value → s'.general.nodeid = some value
  heartbeat : valueOf root "nodeid" ≠ none → valueOf root "timer-a" ≠ none →
    s'.general.heartbeat ≠ none

/-- The sections behind the node id, of which the timer is the first. -/
lemma configTimerA_stored (s : Globals) (root : Xml) :
    Sat ((configTimerA s root).andThen id fun s =>
      (configHeartbeatsOf (configFailureThreshold (configTimerB s root) root) root).andThen id
        fun s => configFailoverOf s root) fun s' =>
      Extends s s' ∧ (valueOf root "timer-a" ≠ none → s'.general.heartbeat ≠ none) := by
  refine Sat.andThen_of_cases (fun s₁ heq => ?_) fun s₁ heq s₂ accepted heq₂ => ?_
  · refine ⟨configTimerA_extends s root s₁ false heq, fun htimer => ?_⟩
    unfold configTimerA at heq
    split at heq
    next hnone => exact (htimer hnone).elim
    next => cases heq
  · obtain ⟨h, hhb⟩ := configHeartbeats_failover_extends s₁ root s₂ accepted heq₂
    exact ⟨(configTimerA_extends s root s₁ true heq).trans h, fun _ => hhb⟩

lemma configGeneral_stored (s : Globals) (root : Xml) :
    Sat (configGeneral s root) (GeneralStored s root) := by
  refine Sat.andThen_of_cases (fun s₁ heq => ?_) fun s₁ heq s₂ accepted heq₂ => ?_
  · unfold configNodeid at heq
    split at heq
    next hnone =>
      cases heq
      refine ⟨Filled.refl s, rfl, fun value h => ?_, fun h => (h hnone).elim⟩
      rw [hnone] at h
      cases h
    next => cases heq
  · obtain ⟨h, hhb⟩ := configTimerA_stored s₁ root s₂ accepted heq₂
    unfold configNodeid at heq
    split at heq
    next => cases heq
    next value hvalue =>
      cases heq
      refine ⟨⟨h.pool, h.destroyed, h.pools⟩, h.network, fun value' heq => ?_, fun _ => hhb⟩
      rw [h.nodeid, ← heq, hvalue]
      rfl

lemma configSections_filled (s : Globals) (cfg : Xml) : Sat (configSections s cfg) (Filled s) := by
  refine filled_andThen ?_ fun s => ?_
  · split
    · exact sat_some.2 (Filled.refl s)
    · exact configNetwork_filled s _
  · split
    · exact sat_some.2 (Filled.refl s)
    · exact fun s' accepted heq => (configGeneral_stored s _ s' accepted heq).toFilled

/-- The state in which the document is read: the pool is a new one. -/
def released (reload : Bool) (s : Globals) : Globals :=
  { s with
    destroyed := if reload then s.pool :: s.destroyed else s.destroyed
    pool := s.pool + 1 }

lemma doConfig_some (reload : Bool) (s : Globals) (cfg : Xml) :
    doConfig reload s (some cfg) = (configSections (released reload s) cfg).andThen id
      fun s => some ({ s with starting := true }, true) := rfl

/-- **What is in memory after `do_config` was there before, or is in the new pool.** -/
lemma doConfig_filled (reload : Bool) (s : Globals) (doc : Option Xml) :
    Sat (doConfig reload s doc) (Filled (released reload s)) := by
  cases doc with
  | none => exact sat_some.2 (Filled.refl _)
  | some cfg =>
    rw [doConfig_some]
    exact Sat.andThen (configSections_filled (released reload s) cfg) fun s' h =>
      sat_some.2 ⟨h.pool, h.destroyed, h.pools⟩

/-! ## Released pools -/

/-- The lists are in pools up to the current one, of which all but this one are destroyed. -/
structure PoolsOk (s : Globals) : Prop where
  pools : ∀ pool ∈ s.pools, 0 < pool ∧ pool ≤ s.pool
  current : 0 < s.pool
  destroyed : ∀ pool, pool ∈ s.destroyed ↔ 0 < pool ∧ pool < s.pool

lemma Loaded.poolsOk {s : Globals} (h : Loaded s) : PoolsOk s := by
  induction h with
  | load h =>
    have hfilled := doConfig_filled false Globals.initial _ _ _ h
    refine ⟨fun pool hpool => ?_, ?_, fun pool => ?_⟩
    · obtain hpool | rfl := hfilled.pools pool hpool
      · cases hpool
      · rw [hfilled.pool]
        exact ⟨Nat.one_pos, Nat.le_refl 1⟩
    · rw [hfilled.pool]
      exact Nat.one_pos
    · rw [hfilled.pool, hfilled.destroyed]
      simp [released, Globals.initial]
      omega
  | @reload s s' _ _ _ h ih =>
    have hfilled := doConfig_filled true s _ _ _ h
    have hpool : s'.pool = s.pool + 1 := hfilled.pool
    refine ⟨fun pool hmem => ?_, ?_, fun pool => ?_⟩
    · obtain hmem | rfl := hfilled.pools pool hmem
      · have := ih.pools pool hmem
        omega
      · rw [hpool]
        exact ⟨Nat.succ_pos _, Nat.le_refl _⟩
    · omega
    · rw [hfilled.destroyed, hpool]
      have := ih.current
      simp only [released, if_true, List.mem_cons, ih.destroyed]
      omega

/-! ## Reloads that fail -/

/-- A reload that fails on this document stores nothing. -/
def StoresNothing (s : Globals) (cfg : Xml) : Prop :=
  match cfg.child "network" with
  | some network => network.child "dos-rules" = none ∧ network.child "interfaces" = none
  | none =>
    ∀ general, cfg.child "general" = some general →
      ∀ nodeid, valueOf general "nodeid" = some nodeid →
        s.general.nodeid = some nodeid ∧ valueOf general "timer-a" = none

/-- A document that is refused stores nothing and finds nothing, and one that is accepted has a
general section. -/
def Reloadable (s : Globals) (doc : Option Xml) : Prop :=
  match firstVerdict (docChecks doc) with
  | .accepted => ∃ cfg, doc = some cfg ∧ cfg.child "general" ≠ none
  | .refused => s.pools = [] ∧ ∀ cfg, doc = some cfg → StoresNothing s cfg
  | .fatal => True

/-- The rules or the interfaces are stored. -/
def HasNetwork (s : Globals) : Prop := s.network.rgroups ≠ none ∨ s.network.interfaces ≠ none

lemma configInterfacesOf_hasNetwork (s : Globals) (root : Xml)
    (h : s.network.rgroups ≠ none ∨ root.child "interfaces" ≠ none) :
    Sat (configInterfacesOf s root) HasNetwork := by
  unfold configInterfacesOf
  dsimp only
  split
  next hnone => exact sat_some.2 (.inl (h.resolve_right fun hsome => hsome hnone))
  next => exact Sat.stored fun interfaces => .inr (Option.some_ne_none _)

lemma configFailoverGroupsOf_hasNetwork {s : Globals} (root : Xml) (h : HasNetwork s) :
    Sat (configFailoverGroupsOf s root) HasNetwork := by
  unfold configFailoverGroupsOf
  split
  · exact sat_some.2 h
  · exact Sat.stored fun fgroups => h

lemma configNetwork_hasNetwork (s : Globals) (root : Xml)
    (h : root.child "dos-rules" ≠ none ∨ root.child "interfaces" ≠ none) :
    Sat (configNetwork s root) HasNetwork := by
  have hrules : root.child "dos-rules" ≠ none →
      Sat (configDosRules s root) fun s' => s'.network.rgroups ≠ none := by
    intro hne
    unfold configDosRules
    split
    next hnone => exact (hne hnone).elim
    next => exact Sat.stored fun rgroups => Option.some_ne_none _
  refine Sat.andThen_of_cases (fun s₁ heq => ?_) fun s₁ heq => ?_
  · by_cases hne : root.child "dos-rules" = none
    · rw [configDosRules, hne] at heq
      cases heq
    · exact .inl (hrules hne s₁ false heq)
  · refine Sat.andThen (configInterfacesOf_hasNetwork s₁ root ?_)
      fun s₂ => configFailoverGroupsOf_hasNetwork root
    by_cases hne : root.child "dos-rules" = none
    · exact .inr (h.resolve_left (not_not_intro hne))
    · exact .inl (hrules hne s₁ true heq)

/-- **Nothing of a network that has rules or interfaces is missing from memory**, whatever happens
behind it. -/
lemma doConfig_hasNetwork {s : Globals} {cfg network : Xml}
    (hcfg : cfg.child "network" = some network)
    (h : network.child "dos-rules" ≠ none ∨ network.child "interfaces" ≠ none) :
    Sat (doConfig true s (some cfg)) HasNetwork := by
  rw [doConfig_some]
  refine Sat.andThen (P := HasNetwork) ?_ fun s' h => sat_some.2 h
  refine Sat.andThen ?_ fun s₁ h₁ => ?_
  · rw [hcfg]
    exact configNetwork_hasNetwork _ network h
  · split
    · exact sat_some.2 h₁
    · intro s₂ accepted heq
      have hnetwork := (configGeneral_stored s₁ _ s₂ accepted heq).network
      show HasNetwork s₂
      unfold HasNetwork
      rwa [hnetwork]

/-- Without a network, what is stored is what the general section stores. -/
lemma doConfig_general {s : Globals} {cfg general : Xml} (hnetwork : cfg.child "network" = none)
    (hgeneral : cfg.child "general" = some general) :
    Sat (doConfig true s (some cfg)) fun s' => ∃ s₁, GeneralStored s₁ general s' := by
  rw [doConfig_some]
  refine Sat.andThen ?_ fun s' ⟨s₁, h⟩ =>
    sat_some.2 ⟨s₁, ⟨h.pool, h.destroyed, h.pools⟩, h.network, h.nodeid, h.heartbeat⟩
  unfold configSections
  rw [hnetwork, hgeneral]
  exact fun s' accepted heq => ⟨_, configGeneral_stored _ general s' accepted heq⟩

lemma pools_eq_nil {s : Globals} (h : s.pools = []) :
    s.network = ⟨none, none, none⟩ ∧ s.general.heartbeat = none ∧ s.general.failover = none ∧
      s.hb = none := by
  obtain ⟨⟨rgroups, interfaces, fgroups⟩, general, _, _, hb⟩ := s
  simp [Globals.pools] at h
  simp [h]

lemma configNetwork_nothing {s : Globals} {root : Xml} (hrules : root.child "dos-rules" = none)
    (hinterfaces : root.child "interfaces" = none) :
    configNetwork s root = some (s.setNetwork { s.network with interfaces := none }, false) := by
  simp only [configNetwork, configDosRules, hrules, andThen_accepted, id_eq, configInterfacesOf,
    hinterfaces, andThen_refused]

lemma Kept.pools {s s' : Globals} (h : Kept s s') : s'.pools = s.pools := by
  rw [Globals.pools, Globals.pools, h.network, h.general, h.hb]

lemma PoolsOk.not_kept {s s' : Globals} (h : PoolsOk s) (hfilled : Filled (released true s) s')
    (hkept : Kept s s') : s.pools = [] := by
  rw [List.eq_nil_iff_forall_not_mem]
  intro pool hpool
  refine hkept.live pool (by rwa [hkept.pools]) ?_
  have := h.pools pool hpool
  rw [hfilled.destroyed]
  simp only [released, if_true, List.mem_cons, h.destroyed]
  omega

lemma storesNothing_of_kept {s s' : Globals} {cfg : Xml}
    (hdoc : doConfig true s (some cfg) = some (s', false)) (hnil : s.pools = [])
    (hkept : Kept s s') : StoresNothing s cfg := by
  obtain ⟨hnetwork, hheartbeat, -, -⟩ := pools_eq_nil hnil
  unfold StoresNothing
  split
  next network hcfg =>
    have hno : ¬ HasNetwork s' := by
      rw [HasNetwork, hkept.network, hnetwork]
      simp
    have := fun h => hno (doConfig_hasNetwork hcfg h s' false hdoc)
    grind
  next hcfg =>
    intro general hgeneral nodeid hnodeid
    obtain ⟨s₁, hstored⟩ := doConfig_general hcfg hgeneral s' false hdoc
    constructor
    · rw [← hkept.general]
      exact hstored.nodeid nodeid hnodeid
    · by_contra hne
      refine hstored.heartbeat (by simp [hnodeid]) hne ?_
      rw [hkept.general]
      exact hheartbeat

/-- The general section stops at the timer, if not before. -/
lemma configGeneral_nothing {s : Globals} {root : Xml}
    (h : ∀ nodeid, valueOf root "nodeid" = some nodeid →
      s.general.nodeid = some nodeid ∧ valueOf root "timer-a" = none) :
    ∃ s', configGeneral s root = some (s', false) ∧ s'.network = s.network ∧
      s'.general = s.general ∧ s'.hb = s.hb := by
  unfold configGeneral configNodeid
  cases hnodeid : valueOf root "nodeid" with
  | none => exact ⟨s, rfl, rfl, rfl, rfl⟩
  | some nodeid =>
    obtain ⟨hsame, htimer⟩ := h nodeid hnodeid
    refine ⟨{ s.setGeneral { s.general with nodeid := some nodeid } with
      nodeid := CString.atoi nodeid }, ?_, rfl, ?_, rfl⟩
    · simp only [andThen_accepted, configTimerA, htimer, andThen_refused, id_eq]
    · show { s.general with nodeid := some nodeid } = s.general
      rw [← hsame]

lemma kept_of_storesNothing {s s' : Globals} {doc : Option Xml}
    (hdoc : doConfig true s doc = some (s', false)) (hnil : s.pools = [])
    (hnothing : ∀ cfg, doc = some cfg → StoresNothing s cfg) : Kept s s' := by
  obtain ⟨hnetwork, -, -, -⟩ := pools_eq_nil hnil
  have hkept : s'.network = s.network → s'.general = s.general → s'.hb = s.hb → Kept s s' := by
    intro h₁ h₂ h₃
    refine ⟨h₁, h₂, h₃, ?_⟩
    rw [Globals.pools, h₁, h₂, h₃, ← Globals.pools, hnil]
    simp
  cases doc with
  | none =>
    cases hdoc
    exact hkept rfl rfl rfl
  | some cfg =>
    replace hnothing := hnothing cfg rfl
    rw [doConfig_some, configSections] at hdoc
    unfold StoresNothing at hnothing
    split at hnothing
    next network hcfg =>
      simp only [hcfg, configNetwork_nothing hnothing.1 hnothing.2, andThen_refused] at hdoc
      cases hdoc
      refine hkept ?_ rfl rfl
      show (⟨s.network.rgroups, none, s.network.fgroups⟩ : Network) = s.network
      rw [hnetwork]
    next hcfg =>
      cases hgeneral : cfg.child "general" with
      | none =>
        simp only [hcfg, hgeneral, andThen_accepted] at hdoc
        cases hdoc
      | some general =>
        obtain ⟨s₁, heq, h₁, h₂, h₃⟩ := configGeneral_nothing (s := released true s)
          (hnothing general hgeneral)
        simp only [hcfg, hgeneral, andThen_accepted, id_eq, heq, andThen_refused] at hdoc
        cases hdoc
        exact hkept h₁ h₂ h₃

/-! ## Reloads that succeed -/

lemma configNetwork_hb (s : Globals) (root : Xml) :
    Sat (configNetwork s root) fun s' => s'.hb = s.hb := by
  refine Sat.andThen ?_ fun s₁ h₁ => Sat.andThen ?_ fun s₂ h₂ => ?_
  · unfold configDosRules
    split
    · exact sat_some.2 rfl
    · exact Sat.stored fun rgroups => rfl
  · unfold configInterfacesOf
    dsimp only
    split
    · exact sat_some.2 h₁
    · exact Sat.stored fun interfaces => h₁
  · unfold configFailoverGroupsOf
    split
    · exact sat_some.2 h₂
    · exact Sat.stored fun fgroups => h₂

/-- Without a general section the heartbeats stay where they are. -/
lemma doConfig_hb {s s' : Globals} {cfg : Xml} {accepted : Bool}
    (hgeneral : cfg.child "general" = none)
    (hdoc : doConfig true s (some cfg) = some (s', accepted)) : s'.hb = s.hb := by
  have h : Sat (doConfig true s (some cfg)) fun s' => s'.hb = s.hb := by
    rw [doConfig_some]
    refine Sat.andThen (Sat.andThen ?_ fun s₁ h₁ => ?_) fun s₂ h₂ => sat_some.2 h₂
    · split
      · exact sat_some.2 rfl
      · exact configNetwork_hb (released true s) _
    · rw [hgeneral]
      exact sat_some.2 h₁
  exact h s' accepted hdoc

/-- **A reload keeps what the law says exactly if the document is one of these**: where the
configuration has lists, it must not be refused, and where it is accepted it must have a general
section. -/
theorem reload_lawful_iff {s : Globals} (hs : Loaded s) (doc : Option Xml) :
    ReloadLaw s doc ↔ Reloadable s doc := by
  have hok := hs.poolsOk
  have h := doConfig_reads true s doc
  have hfilled := doConfig_filled true s doc
  unfold ReloadLaw Reloadable
  unfold Reads at h
  cases hv : firstVerdict (docChecks doc) with
  | accepted =>
    rw [hv] at h
    obtain ⟨s', heq, cfg, rfl, pool, hconfigured⟩ := h
    have hs' := hfilled s' true heq
    rw [heq]
    dsimp only
    constructor
    · rintro ⟨hb, hhb, hpool, -⟩
      refine ⟨cfg, rfl, fun hgeneral => ?_⟩
      rw [doConfig_hb hgeneral heq] at hhb
      have hmem : hb.pool ∈ s.pools := by simp [Globals.pools, hhb]
      have := hok.pools _ hmem
      rw [hpool, hs'.pool] at this
      exact absurd this.2 (Nat.not_succ_le_self _)
    · rintro ⟨cfg, ⟨⟩, hgeneral⟩
      obtain ⟨list, hhb⟩ := hconfigured.hb hgeneral
      refine ⟨_, hhb, hconfigured.pool.symm, ?_⟩
      rw [← hconfigured.pool, hs'.pool, hs'.destroyed]
      simp only [released, if_true, List.mem_cons, hok.destroyed]
      omega
  | refused =>
    rw [hv] at h
    obtain ⟨s', heq⟩ := h
    rw [heq]
    dsimp only
    constructor
    · intro hkept
      have hnil := hok.not_kept (hfilled s' false heq) hkept
      refine ⟨hnil, ?_⟩
      rintro cfg rfl
      exact storesNothing_of_kept heq hnil hkept
    · rintro ⟨hnil, hnothing⟩
      exact kept_of_storesNothing heq hnil hnothing
  | fatal =>
    rw [hv] at h
    rw [h]

/-- A document with neither section. -/
def emptyConfiguration : Xml := .element "configuration" [] []

/-- A document with a heartbeat. -/
def oneHeartbeat : Xml :=
  .element "configuration" [] [.element "general" [] [
    .element "nodeid" [("value", "1".toList)] [], .element "timer-a" [("value", "5".toList)] [],
    .element "heartbeat" [("interval", "1".toList), ("bind-network", "10.0.0.1".toList),
      ("multicast-address", "224.0.0.1".toList), ("port", "5000".toList)] [],
    .element "failover" [] []]]

theorem reload_lawful_iff_heartbeat :
    ReloadLaw (released false Globals.initial) (some oneHeartbeat) := by
  have hload : doConfig false Globals.initial (some emptyConfiguration) =
      some (released false Globals.initial, true) := rfl
  refine (reload_lawful_iff (.load hload) (some oneHeartbeat)).2 ?_
  have hverdict : firstVerdict (docChecks (some oneHeartbeat)) = .accepted := by decide
  rw [Reloadable, hverdict]
  exact ⟨oneHeartbeat, rfl, Option.ne_none_iff_isSome.2 (by decide)⟩

/-- After a heartbeat is configured, the document cannot be opened: `hac_globals.hb` stays in the
pool that was destroyed. -/
theorem failed_reload_releases : ¬ ∀ s, Loaded s → ∀ doc, ReloadLaw s doc := by
  intro h
  obtain ⟨s, hs, hpool, hmem⟩ : ∃ s, doConfig false Globals.initial (some oneHeartbeat) =
      some (s, true) ∧ s.pool = 1 ∧ 1 ∈ s.pools := ⟨_, rfl, rfl, by decide⟩
  have hkept : Kept s (released true s) := h s (.load hs) none
  refine hkept.live 1 hmem ?_
  rw [← hpool]
  exact List.mem_cons_self

end FreeswitchContrib.HaCluster

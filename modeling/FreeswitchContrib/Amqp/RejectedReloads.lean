import FreeswitchContrib.Amqp.ConfigLogging
import Mathlib.Logic.Function.Basic

/-!
# Rejected reloads of `mod_amqp`

`do_config` writes the names of the routing key's fields and the numbers of the events into
`globals` while it checks them, and binds the handler only when it has accepted them all.

* `doConfig_accepted_consistent`: after a configuration that is accepted the handler is bound to
  the events of the filters.
* `doConfig_stores`: what `logConfigValues` is given is what is stored.
* `unchanged_iff`: what a configuration that is rejected must agree with for nothing to change.
-/

namespace FreeswitchContrib.Amqp

/-- What `do_config` leaves in `globals`, and the events that the handler is bound to. -/
structure Globals where
  settings : Settings
  /-- ten of them are there -/
  eventRoutingKeyFormatFields : ℕ → Option (List Char)
  number_of_event_filters : ℕ
  event_ids : ℕ → ℤ
  bound : List ℤ
  connected : Bool

namespace Globals

/-- The filters that are in use. -/
def filters (g : Globals) : List ℤ := (List.range g.number_of_event_filters).map g.event_ids

/-- `//Reset them to empty string` -/
def resetFields (fields : ℕ → Option (List Char)) : ℕ → Option (List Char) :=
  fun i => if i < 10 then none else fields i

/-- The loop over the names of the fields, and whether there are not too many. -/
def fieldsLoop : ℕ → (ℕ → Option (List Char)) → List (List Char) →
    (ℕ → Option (List Char)) × Bool
  | _, fields, [] => (fields, true)
  | i, fields, result :: results =>
    if 10 ≤ i then (fields, false)
    else fieldsLoop (i + 1) (Function.update fields i (some result)) results

/-- The number is refused, if the enumeration is signed. -/
def refused (isSigned : Bool) (event_id : ℤ) : Bool := isSigned && decide (event_id < 0)

/-- The loop over the filters, and whether all of them are known. -/
def filtersLoop (value : String → ℤ) (isSigned : Bool) :
    ℕ → (ℕ → ℤ) → List (List Char) → (ℕ × (ℕ → ℤ)) × Bool
  | n, event_ids, [] => ((n, event_ids), true)
  | n, event_ids, result :: results =>
    if n < (value "SWITCH_EVENT_ALL").toNat then
      let event_id := parseFsEventName value result
      let event_ids := Function.update event_ids n event_id
      if refused isSigned event_id then ((n, event_ids), false)
      else filtersLoop value isSigned (n + 1) event_ids results
    else ((n, event_ids), true)

/-- The loop that subscribes; `bind` is whether `switch_event_bind_removable` succeeds. -/
def bindLoop (bind : ℤ → Bool) : List ℤ → List ℤ → List ℤ × Bool
  | bound, [] => (bound, true)
  | bound, event_id :: event_ids =>
    if bind event_id then bindLoop bind (bound ++ [event_id]) event_ids else (bound, false)

/-- `do_config` with what is parsed from `amqp.conf`, if it can be parsed. -/
def doConfig (value : String → ℤ) (isSigned : Bool) (bind : ℤ → Bool) (reload : Bool)
    (g : Globals) : Option AmqpConf → Globals × Bool
  | none =>
    ({ g with
        settings := defaultSettings
        eventRoutingKeyFormatFields := resetFields g.eventRoutingKeyFormatFields
        number_of_event_filters := 1
        event_ids := Function.update g.event_ids 0 (value "SWITCH_EVENT_ALL") }, false)
  | some conf =>
    let fields := fieldsLoop 0 (resetFields g.eventRoutingKeyFormatFields)
      (tokens conf.eventRoutingKeyFormatFieldsCsv)
    let g := { g with settings := conf.settings, eventRoutingKeyFormatFields := fields.1 }
    if fields.2 then
      let ids := filtersLoop value isSigned 0 g.event_ids (tokens conf.event_filter)
      let g := { g with number_of_event_filters := ids.1.1, event_ids := ids.1.2 }
      if ids.2 then
        let bound := bindLoop bind [] g.filters
        ({ g with bound := bound.1, connected := g.connected && !reload }, bound.2)
      else (g, false)
    else (g, false)

end Globals

/-- The numbers of the filters that there is room for behind the first `n`. -/
def filterIds (value : String → ℤ) (n : ℕ) (names : List (List Char)) : List ℤ :=
  (names.take ((value "SWITCH_EVENT_ALL").toNat - n)).map (parseFsEventName value)

/-- There are too many fields, or the name of an event is not known. -/
def Rejected (value : String → ℤ) (isSigned : Bool) (conf : AmqpConf) : Prop :=
  10 < (tokens conf.eventRoutingKeyFormatFieldsCsv).length ∨
    isSigned = true ∧ ∃ id ∈ filterIds value 0 (tokens conf.event_filter), id < 0

/-- The numbers of the filters before the first whose name is not known. -/
def knownIds (value : String → ℤ) (conf : AmqpConf) : List ℤ :=
  (filterIds value 0 (tokens conf.event_filter)).takeWhile (0 ≤ ·)

/-- The handler is bound to the events of the filters. -/
def Consistent (g : Globals) : Prop := g.bound = g.filters

/-- The lists are the same as before, and as consistent. -/
structure Unchanged (g g' : Globals) : Prop where
  fields : ∀ i < 10, g'.eventRoutingKeyFormatFields i = g.eventRoutingKeyFormatFields i
  count : g'.number_of_event_filters = g.number_of_event_filters
  filters : g'.filters = g.filters
  bound : g'.bound = g.bound
  consistent : Consistent g → Consistent g'

variable {isSigned reload : Bool} {value : String → ℤ} {bind : ℤ → Bool} {g g' : Globals}
  {conf : AmqpConf}

namespace Globals

/-! ## Fields -/

/-- The names up to the tenth are written, one after the other. -/
lemma fieldsLoop_eq : ∀ (names : List (List Char)) {i : ℕ} {fields : ℕ → Option (List Char)},
    i ≤ 10 → (∀ k, i ≤ k → k < 10 → fields k = none) →
    (∀ k < 10, (fieldsLoop i fields names).1 k = if k < i then fields k else names[k - i]?) ∧
      ((fieldsLoop i fields names).2 = true ↔ i + names.length ≤ 10)
  | [], i, fields, hi, hnone => by
    refine ⟨fun k hk => ?_, iff_of_true rfl hi⟩
    rw [fieldsLoop]
    split_ifs with hki
    · rfl
    · exact hnone k (Nat.le_of_not_lt hki) hk
  | name :: names, i, fields, hi, hnone => by
    rw [fieldsLoop]
    split_ifs with hfull
    · refine ⟨fun k hk => (if_pos (by omega)).symm, iff_of_false (by simp) ?_⟩
      rw [List.length_cons]
      omega
    · have hnone' : ∀ k, i + 1 ≤ k → k < 10 → Function.update fields i (some name) k = none := by
        intro k hik hk
        rw [Function.update_of_ne (by omega), hnone k (by omega) hk]
      obtain ⟨hfields, hfew⟩ := fieldsLoop_eq names (by omega) hnone'
      refine ⟨fun k hk => ?_, hfew.trans (by rw [List.length_cons]; omega)⟩
      rw [hfields k hk]
      rcases Nat.lt_trichotomy k i with hlt | rfl | hgt
      · rw [if_pos (by omega), if_pos hlt, Function.update_of_ne (by omega)]
      · rw [if_pos (by omega), if_neg (by omega), Function.update_self, Nat.sub_self]
        rfl
      · rw [if_neg (by omega), if_neg (by omega), show k - i = k - (i + 1) + 1 by omega]
        rfl

lemma fieldsLoop_reset (fields : ℕ → Option (List Char)) (names : List (List Char)) :
    (∀ k < 10, (fieldsLoop 0 (resetFields fields) names).1 k = names[k]?) ∧
      ((fieldsLoop 0 (resetFields fields) names).2 = true ↔ names.length ≤ 10) := by
  have hnone : ∀ k, 0 ≤ k → k < 10 → resetFields fields k = none := fun k _ hk => if_pos hk
  obtain ⟨hfields, hfew⟩ := fieldsLoop_eq names (Nat.zero_le 10) hnone
  exact ⟨fun k hk => (hfields k hk).trans (if_neg (Nat.not_lt_zero k)), by rwa [Nat.zero_add] at hfew⟩

/-! ## Filters -/

lemma map_range_update (event_ids : ℕ → ℤ) (n : ℕ) (event_id : ℤ) :
    (List.range n).map (Function.update event_ids n event_id) = (List.range n).map event_ids := by
  refine List.map_congr_left fun k hk => Function.update_of_ne ?_ _ _
  exact (List.mem_range.mp hk).ne

/-- The numbers are appended up to the first that is refused. -/
lemma filtersLoop_eq (value : String → ℤ) (isSigned : Bool) :
    ∀ (names : List (List Char)) (n : ℕ) (event_ids : ℕ → ℤ),
    (List.range (filtersLoop value isSigned n event_ids names).1.1).map
          (filtersLoop value isSigned n event_ids names).1.2 =
        (List.range n).map event_ids ++
          (filterIds value n names).takeWhile (fun id => !refused isSigned id) ∧
      ((filtersLoop value isSigned n event_ids names).2 = true ↔
        ∀ id ∈ filterIds value n names, refused isSigned id = false)
  | [], n, event_ids => by
    simp [filtersLoop, filterIds]
  | name :: names, n, event_ids => by
    simp only [filtersLoop]
    by_cases hroom : n < (value "SWITCH_EVENT_ALL").toNat
    · have hids : filterIds value n (name :: names) =
          parseFsEventName value name :: filterIds value (n + 1) names := by
        rw [filterIds, show (value "SWITCH_EVENT_ALL").toNat - n =
          (value "SWITCH_EVENT_ALL").toNat - (n + 1) + 1 by omega]
        rfl
      rw [if_pos hroom, hids]
      by_cases hrefused : refused isSigned (parseFsEventName value name) = true
      · rw [if_pos hrefused, List.takeWhile_cons_of_neg (by simp [hrefused]), List.append_nil]
        refine ⟨map_range_update event_ids n _, iff_of_false (by simp) fun h => ?_⟩
        rw [h _ List.mem_cons_self] at hrefused
        cases hrefused
      · obtain ⟨hwritten, hall⟩ := filtersLoop_eq value isSigned names (n + 1)
          (Function.update event_ids n (parseFsEventName value name))
        rw [if_neg hrefused, List.takeWhile_cons_of_pos (by simp [hrefused])]
        refine ⟨?_, ?_⟩
        · rw [hwritten, List.range_succ, List.map_append, map_range_update, List.append_assoc]
          simp
        · rw [hall, List.forall_mem_cons, and_iff_right (Bool.eq_false_iff.mpr hrefused)]
    · rw [if_neg hroom, filterIds, Nat.sub_eq_zero_of_le (Nat.le_of_not_lt hroom)]
      simp

lemma bindLoop_eq {bind : ℤ → Bool} : ∀ {event_ids bound bound' : List ℤ},
    bindLoop bind bound event_ids = (bound', true) → bound' = bound ++ event_ids
  | [], bound, bound', h => by
    rw [List.append_nil]
    exact (congrArg Prod.fst h).symm
  | event_id :: event_ids, bound, bound', h => by
    rw [bindLoop] at h
    split_ifs at h with hbind
    · rw [bindLoop_eq h, List.append_assoc, List.singleton_append]
    · cases h

end Globals

/-! ## Configurations -/

/-- **An accepted configuration is consistent.** -/
theorem doConfig_accepted_consistent {amqpConf : Option AmqpConf}
    (h : Globals.doConfig value isSigned bind reload g amqpConf = (g', true)) : Consistent g' := by
  cases amqpConf with
  | none => cases h
  | some conf =>
    simp only [Globals.doConfig] at h
    split_ifs at h with hfew hknown
    · obtain ⟨hg, hbound⟩ := Prod.mk.inj h
      rw [← hg]
      exact (Globals.bindLoop_eq (Prod.ext rfl hbound)).trans (List.nil_append _)
    · cases h
    · cases h

/-- The filters that are logged have known names. -/
lemma eventFilters_eq_some {event_ids : List ℤ} {event_filter : List Char}
    (h : eventFilters value isSigned event_filter = some event_ids) :
    event_ids = filterIds value 0 (tokens event_filter) ∧
      ∀ id ∈ event_ids, Globals.refused isSigned id = false := by
  rw [eventFilters] at h
  rw [filterIds, Nat.sub_zero]
  generalize (tokens event_filter).take (value "SWITCH_EVENT_ALL").toNat = names at h ⊢
  induction names generalizing event_ids with
  | nil =>
    obtain rfl := Option.some.inj h
    exact ⟨rfl, fun id hid => absurd hid List.not_mem_nil⟩
  | cons name names ih =>
    rw [List.mapM_cons] at h
    obtain ⟨id, hid, h⟩ := Option.bind_eq_some_iff.mp h
    obtain ⟨ids, hids, h⟩ := Option.bind_eq_some_iff.mp h
    obtain rfl := Option.some.inj h
    obtain ⟨rfl, hknown⟩ := ih hids
    simp only at hid
    split_ifs at hid with hrefused
    obtain rfl := Option.some.inj hid
    refine ⟨rfl, List.forall_mem_cons.mpr ⟨?_, hknown⟩⟩
    rw [Globals.refused, Bool.and_eq_false_iff, decide_eq_false_iff_not]
    rcases not_and_or.mp hrefused with hsigned | hneg
    · exact Or.inl (Bool.eq_false_iff.mpr hsigned)
    · exact Or.inr hneg

/-- What is logged is what is stored. -/
theorem doConfig_stores {configured : Configured}
    (h : doConfig value isSigned (some conf) = some configured) :
    (Globals.doConfig value isSigned bind reload g (some conf)).1.settings = configured.settings ∧
      (Globals.doConfig value isSigned bind reload g (some conf)).1.filters =
        configured.event_ids ∧
      ∀ i < 10, (Globals.doConfig value isSigned bind reload g
          (some conf)).1.eventRoutingKeyFormatFields i =
        configured.eventRoutingKeyFormatFields[i]? := by
  simp only [doConfig] at h
  split_ifs at h with hmany
  obtain ⟨event_ids, hids, rfl⟩ := Option.map_eq_some_iff.mp h
  obtain ⟨rfl, hknown⟩ := eventFilters_eq_some hids
  obtain ⟨hfields, hfew⟩ := Globals.fieldsLoop_reset g.eventRoutingKeyFormatFields
    (tokens conf.eventRoutingKeyFormatFieldsCsv)
  obtain ⟨hfilters, hall⟩ := Globals.filtersLoop_eq value isSigned (tokens conf.event_filter) 0
    g.event_ids
  have hwhole : (filterIds value 0 (tokens conf.event_filter)).takeWhile
      (fun id => !Globals.refused isSigned id) = filterIds value 0 (tokens conf.event_filter) :=
    List.takeWhile_eq_self_iff.mpr fun id hid => by rw [hknown id hid, Bool.not_false]
  simp only [Globals.doConfig]
  rw [if_pos (hfew.mpr (Nat.le_of_not_lt hmany)), if_pos (hall.mpr hknown)]
  refine ⟨rfl, hfilters.trans ?_, hfields⟩
  rw [List.range_zero, List.map_nil, List.nil_append, hwhole]

/-- The fields that `do_config` writes. -/
def newFields (g : Globals) (conf : AmqpConf) : ℕ → Option (List Char) :=
  (Globals.fieldsLoop 0 (Globals.resetFields g.eventRoutingKeyFormatFields)
    (tokens conf.eventRoutingKeyFormatFieldsCsv)).1

lemma newFields_eq (g : Globals) (conf : AmqpConf) {i : ℕ} (hi : i < 10) :
    newFields g conf i = (tokens conf.eventRoutingKeyFormatFieldsCsv)[i]? :=
  (Globals.fieldsLoop_reset _ _).1 i hi

/-- With too many fields the filters are not looked at. -/
lemma doConfig_of_many (h : 10 < (tokens conf.eventRoutingKeyFormatFieldsCsv).length) :
    Globals.doConfig value isSigned bind reload g (some conf) =
      ({ g with settings := conf.settings, eventRoutingKeyFormatFields := newFields g conf },
        false) := by
  have hmany : ¬ (Globals.fieldsLoop 0 (Globals.resetFields g.eventRoutingKeyFormatFields)
      (tokens conf.eventRoutingKeyFormatFieldsCsv)).2 = true :=
    fun hfew => absurd ((Globals.fieldsLoop_reset _ _).2.mp hfew) (Nat.not_le_of_lt h)
  simp only [Globals.doConfig, newFields]
  rw [if_neg hmany]

/-- With a name that is not known the filters are those before it. -/
lemma doConfig_of_unknown (bind : ℤ → Bool) (reload : Bool) (g : Globals)
    (hfew : (tokens conf.eventRoutingKeyFormatFieldsCsv).length ≤ 10)
    (hsigned : isSigned = true)
    (hunknown : ∃ id ∈ filterIds value 0 (tokens conf.event_filter), id < 0) :
    ∃ g', Globals.doConfig value isSigned bind reload g (some conf) = (g', false) ∧
      g'.eventRoutingKeyFormatFields = newFields g conf ∧ g'.filters = knownIds value conf ∧
      g'.bound = g.bound := by
  obtain ⟨hfilters, hall⟩ := Globals.filtersLoop_eq value isSigned (tokens conf.event_filter) 0
    g.event_ids
  have hunknown' : ¬ (Globals.filtersLoop value isSigned 0 g.event_ids
      (tokens conf.event_filter)).2 = true := by
    intro hknown
    obtain ⟨id, hid, hneg⟩ := hunknown
    have hrefused := hall.mp hknown id hid
    rw [Globals.refused, hsigned, decide_eq_true hneg] at hrefused
    cases hrefused
  refine ⟨{ g with
    settings := conf.settings
    eventRoutingKeyFormatFields := newFields g conf
    number_of_event_filters := (Globals.filtersLoop value isSigned 0 g.event_ids
      (tokens conf.event_filter)).1.1
    event_ids := (Globals.filtersLoop value isSigned 0 g.event_ids
      (tokens conf.event_filter)).1.2 }, ?_, rfl, ?_, rfl⟩
  · simp only [Globals.doConfig]
    rw [if_pos ((Globals.fieldsLoop_reset _ _).2.mpr hfew), if_neg hunknown']
    rfl
  · refine hfilters.trans ?_
    rw [List.range_zero, List.map_nil, List.nil_append, knownIds]
    congr 1
    funext id
    rw [Globals.refused, hsigned, Bool.true_and, ← decide_not]
    exact decide_eq_decide.mpr Int.not_lt

lemma count_of_filters (h : g'.filters = g.filters) :
    g'.number_of_event_filters = g.number_of_event_filters := by
  have hlength := congrArg List.length h
  simpa [Globals.filters] using hlength

/-- **When a rejected reload changes nothing**: the fields were the new ones, up to the tenth, and
the filters those before the name that is not known. -/
theorem unchanged_iff (h : Rejected value isSigned conf) :
    Unchanged g (Globals.doConfig value isSigned bind reload g (some conf)).1 ↔
      (∀ i < 10, g.eventRoutingKeyFormatFields i =
        (tokens conf.eventRoutingKeyFormatFieldsCsv)[i]?) ∧
      ((tokens conf.eventRoutingKeyFormatFieldsCsv).length ≤ 10 →
        g.filters = knownIds value conf) := by
  rcases Nat.lt_or_ge 10 (tokens conf.eventRoutingKeyFormatFieldsCsv).length with hmany | hfew
  · rw [doConfig_of_many hmany]
    constructor
    · intro hsame
      refine ⟨fun i hi => ?_, fun hfew => absurd hmany (Nat.not_lt_of_le hfew)⟩
      rw [← newFields_eq g conf hi]
      exact (hsame.fields i hi).symm
    · rintro ⟨hfields, -⟩
      exact ⟨fun i hi => (newFields_eq g conf hi).trans (hfields i hi).symm, rfl, rfl, rfl, id⟩
  · obtain ⟨hsigned, hunknown⟩ := h.resolve_left (Nat.not_lt_of_le hfew)
    obtain ⟨g', hconfig, hfields', hfilters', hbound⟩ :=
      doConfig_of_unknown bind reload g hfew hsigned hunknown
    rw [hconfig]
    constructor
    · intro hsame
      refine ⟨fun i hi => ?_, fun _ => ?_⟩
      · rw [← newFields_eq g conf hi, ← hfields']
        exact (hsame.fields i hi).symm
      · rw [← hfilters']
        exact hsame.filters.symm
    · rintro ⟨hfields, hfilters⟩
      have hsame : g'.filters = g.filters := hfilters'.trans (hfilters hfew).symm
      refine ⟨fun i hi => ?_, count_of_filters hsame, hsame, hbound, fun hconsistent => ?_⟩
      · rw [show g'.eventRoutingKeyFormatFields i = newFields g conf i from congrFun hfields' i,
          newFields_eq g conf hi, hfields i hi]
      · exact (hbound.trans hconsistent).trans hsame.symm

/-- Eleven fields. -/
def elevenFields : AmqpConf where
  settings := defaultSettings
  eventRoutingKeyFormatFieldsCsv := "a,b,c,d,e,f,g,h,i,j,k".toList
  event_filter := "SWITCH_EVENT_ALL".toList

/-- The handler is bound to all events. -/
def boundToAll (fields : List (List Char)) : Globals where
  settings := defaultSettings
  eventRoutingKeyFormatFields i := fields[i]?
  number_of_event_filters := 1
  event_ids _ := 85
  bound := [85]
  connected := true

/-- The fields were the first ten before. -/
theorem unchanged_sameFields :
    Rejected (fun _ => 85) true elevenFields ∧
      Unchanged (boundToAll ((tokens elevenFields.eventRoutingKeyFormatFieldsCsv).take 10))
        (Globals.doConfig (fun _ => 85) true (fun _ => true) true
          (boundToAll ((tokens elevenFields.eventRoutingKeyFormatFieldsCsv).take 10))
          (some elevenFields)).1 := by
  have hmany : 10 < (tokens elevenFields.eventRoutingKeyFormatFieldsCsv).length := by decide
  refine ⟨Or.inl hmany, (unchanged_iff (Or.inl hmany)).mpr ⟨fun i hi => ?_, fun hfew => ?_⟩⟩
  · exact List.getElem?_take_of_lt hi
  · exact absurd hmany (Nat.not_lt_of_le hfew)

theorem not_unchanged : ¬ ∀ (value : String → ℤ) (isSigned : Bool) (bind : ℤ → Bool)
    (g : Globals) (conf : AmqpConf), Rejected value isSigned conf →
      Unchanged g (Globals.doConfig value isSigned bind true g (some conf)).1 := by
  intro h
  have hmany : 10 < (tokens elevenFields.eventRoutingKeyFormatFieldsCsv).length := by decide
  have hfield := (h (fun _ => 85) true (fun _ => true) (boundToAll ["Event-Name".toList])
    elevenFields (Or.inl hmany)).fields 0 (by decide)
  rw [doConfig_of_many hmany] at hfield
  have hfirst : newFields (boundToAll ["Event-Name".toList]) elevenFields 0 =
      some "Event-Name".toList := hfield
  rw [newFields_eq _ _ (by decide)] at hfirst
  exact absurd hfirst (by decide)

end FreeswitchContrib.Amqp

import FreeswitchContrib.HaCluster.Config

/-!
# The configuration mirrors the document

What a document describes are the interfaces with the elements of their own, and the groups with the
names of their includes.  The checks of a document, in the order in which they are made, say whether
`do_config` accepts it, refuses it or crashes; of a document that is accepted, the lists are what
the document describes if the lists of every interface are also those of the section itself, since
`config_interfaces` reads them from there.
-/

namespace FreeswitchContrib.HaCluster

variable {α β : Type}

/-! ## What a document describes -/

def Route.ofXml (dev : Option Text) (x : Xml) : Route :=
  ⟨x.attr "name", x.attr "destination", x.attr "gateway", x.attr "metric", dev⟩

def Arp.ofXml (dev : Option Text) (x : Xml) : Arp := ⟨x.attr "ip", x.attr "mac", dev⟩

def Ip.ofXml (dev : Option Text) (x : Xml) : Ip :=
  ⟨x.attr "name", x.attr "cidr", x.attr "var", dev, x.attr "rule-group",
    (x.children "route").map (Route.ofXml dev)⟩

def ClusterIps.ofXml (dev : Option Text) (x : Xml) : ClusterIps :=
  ⟨x.attr "name", x.attr "vmac", dev, (x.children "ip").map (Ip.ofXml dev),
    (x.children "route").map (Route.ofXml dev)⟩

def FailoverIps.ofXml (dev : Option Text) (x : Xml) : FailoverIps :=
  ⟨x.attr "name", x.attr "nodes", dev, (x.children "ip").map (Ip.ofXml dev),
    (x.children "route").map (Route.ofXml dev)⟩

/-- The interface `x` with the lists of the element `root`. -/
def Interface.withLists (root x : Xml) : Interface :=
  let dev := x.attr "name"
  ⟨dev, x.attr "description", x.attr "duplex", x.attr "speed",
    (root.children "cluster-ips").map (ClusterIps.ofXml dev),
    (root.children "failover-ips").map (FailoverIps.ofXml dev),
    (root.children "ip").map (Ip.ofXml dev), (root.children "route").map (Route.ofXml dev),
    (root.children "arp").map (Arp.ofXml dev)⟩

def Interface.ofXml (x : Xml) : Interface := Interface.withLists x x

def FailoverGroup.ofXml (x : Xml) : FailoverGroup :=
  let includes := (x.children "include").map (·.attr "name")
  ⟨x.attr "name", x.attr "type", includes, includes.length⟩

/-- The section of this name of the network. -/
def networkSection (cfg : Xml) (name : String) : Option Xml :=
  (cfg.child "network").bind (·.child name)

/-- The elements of a section, if there is one. -/
def elements (sect : Option Xml) (name : String) : List Xml :=
  (sect.map (·.children name)).getD []

/-! ## What the lists hold -/

/-- The nodes of a list in use: a head that was not filled has no name. -/
def named (key : α → Option Text) (list : List α) : List α :=
  list.filter fun node => !strlenZero (key node)

def Ip.shown (ip : Ip) : Ip := { ip with routes := named Route.name ip.routes }

def shownIps (ips : List Ip) : List Ip := (named Ip.name ips).map Ip.shown

def ClusterIps.shown (cips : ClusterIps) : ClusterIps :=
  { cips with ips := shownIps cips.ips, routes := named Route.name cips.routes }

def FailoverIps.shown (fips : FailoverIps) : FailoverIps :=
  { fips with ips := shownIps fips.ips, routes := named Route.name fips.routes }

def Interface.shown (new : Interface) : Interface :=
  { new with
    cips := (named ClusterIps.name new.cips).map ClusterIps.shown
    fips := (named FailoverIps.name new.fips).map FailoverIps.shown
    ips := shownIps new.ips
    routes := named Route.name new.routes
    arps := named Arp.ip new.arps }

namespace Network

variable (network : Network)

def shownInterfaces : List Interface :=
  (named Interface.name ((network.interfaces.map (·.list)).getD [])).map Interface.shown

def shownGroups : List FailoverGroup :=
  named FailoverGroup.name ((network.fgroups.map (·.list)).getD [])

/-- The lists are what the document describes. -/
def Mirrors (cfg : Xml) : Prop :=
  network.shownInterfaces =
      (elements (networkSection cfg "interfaces") "interface").map Interface.ofXml ∧
    network.shownGroups =
      (elements (networkSection cfg "failover-groups") "group").map FailoverGroup.ofXml

end Network

/-! ## The checks of a document -/

def routeChecks (x : Xml) : List Verdict := [check (x.lacks ["name", "destination", "gateway"])]

/-- A route of an address: there is no list to put it into. -/
def ownRouteChecks (x : Xml) : List Verdict := routeChecks x ++ [.fatal]

def arpChecks (x : Xml) : List Verdict := [check (x.lacks ["ip", "mac"])]

def ipChecks (x : Xml) : List Verdict :=
  check (ipRefused x) :: (x.children "route").flatMap ownRouteChecks

def ipsAndRoutesChecks (x : Xml) : List Verdict :=
  (x.children "ip").flatMap ipChecks ++ (x.children "route").flatMap routeChecks

def clusterIpsChecks (x : Xml) : List Verdict :=
  check (x.lacks ["name", "vmac"]) :: ipsAndRoutesChecks x

def failoverIpsChecks (x : Xml) : List Verdict := check (x.lacks ["name"]) :: ipsAndRoutesChecks x

/-- The checks of the lists of an interface, which are made of the section. -/
def interfaceListChecks (root : Xml) : List Verdict :=
  (root.children "cluster-ips").flatMap clusterIpsChecks ++
    ((root.children "failover-ips").flatMap failoverIpsChecks ++
      ((root.children "ip").flatMap ipChecks ++
        ((root.children "route").flatMap routeChecks ++ (root.children "arp").flatMap arpChecks)))

def interfacesChecks (root : Xml) : List Verdict :=
  (root.children "interface").flatMap fun x =>
    check (x.lacks ["name"]) :: interfaceListChecks root

/-- A rule without a string is not refused. -/
def ruleChecks (x : Xml) : List Verdict :=
  [check (x.lacks ["name", "type"] || 14 < ((x.attr "name").getD []).length),
    match x.attr "string" with
    | none => .fatal
    | some string => check (96 < string.length)]

def ruleGroupChecks (x : Xml) : List Verdict :=
  check (x.lacks ["name"]) :: (x.children "rule").flatMap ruleChecks

/-- The includes of a group with `count` of them: the index goes on from the group before. -/
def includeChecks (count : ℕ) : ℕ → List (Option Text) → List Verdict
  | _, [] => []
  | curInc, name :: includes =>
    (if count ≤ curInc then .fatal else check (strlenZero name)) ::
      includeChecks count (curInc + 1) includes

def groupChecks : ℕ → List Xml → List Verdict
  | _, [] => []
  | curInc, x :: xs =>
    let includes := (x.children "include").map (·.attr "name")
    check (x.lacks ["name", "type"]) ::
      (includeChecks includes.length curInc includes ++ groupChecks (curInc + includes.length) xs)

def networkChecks (root : Xml) : List Verdict :=
  (elements (root.child "dos-rules") "rule-group").flatMap ruleGroupChecks ++
    ((match root.child "interfaces" with
      | none => [.refused]
      | some x => interfacesChecks x) ++
    groupChecks 0 (elements (root.child "failover-groups") "group"))

def heartbeatChecks (x : Xml) : List Verdict :=
  [check (x.lacks ["interval", "bind-network", "multicast-address", "port"])]

def conditionChecks (x : Xml) : List Verdict :=
  check (x.lacks ["event"]) ::
    (x.children "match").flatMap fun x => [check (x.lacks ["name", "value"])]

def generalChecks (root : Xml) : List Verdict :=
  [check (valueOf root "nodeid").isNone] ++ ([check (valueOf root "timer-a").isNone] ++
    (((root.children "heartbeat").flatMap heartbeatChecks ++
      [check (root.children "heartbeat").isEmpty]) ++
        match root.child "failover" with
        | none => [.refused]
        | some x => (x.children "condition").flatMap conditionChecks))

/-- The checks of a document, or the one that it can be opened. -/
def docChecks : Option Xml → List Verdict
  | none => [.refused]
  | some cfg =>
    ((cfg.child "network").map networkChecks).getD [] ++
      ((cfg.child "general").map generalChecks).getD []

/-! ## Lists -/

/-- An element of a list does what the checks say. -/
def EntryReads (checks : List Verdict) (entry : Option (Option (α × Bool))) (P : α → Prop) : Prop :=
  match firstVerdict checks with
  | .accepted => ∃ node, entry = some (some (node, true)) ∧ P node
  | .refused => entry = some none ∨ ∃ node, entry = some (some (node, false))
  | .fatal => entry = none

lemma entryReads_of_reads {checks : List Verdict} {built : Built α} {P : α → Prop} {refused : Bool}
    (h : refused = false → Reads checks built P) :
    EntryReads (check refused :: checks) (if refused then some none else built.map some) P := by
  cases refused with
  | true => exact .inl rfl
  | false =>
    show EntryReads checks (built.map some) P
    replace h := h rfl
    unfold Reads at h
    unfold EntryReads
    cases hv : firstVerdict checks with
    | accepted =>
      rw [hv] at h
      obtain ⟨node, rfl, hnode⟩ := h
      exact ⟨node, rfl, hnode⟩
    | refused =>
      rw [hv] at h
      obtain ⟨node, rfl⟩ := h
      exact .inr ⟨node, rfl⟩
    | fatal =>
      rw [hv] at h
      subst h
      rfl

lemma entryReads_node {node : α} {P : α → Prop} {refused : Bool} (h : refused = false → P node) :
    EntryReads [check refused] (if refused then some none else some (some (node, true))) P :=
  entryReads_of_reads fun hrefused => (Reads.accept (h hrefused) : Reads [] (some (node, true)) P)

lemma fill_of_ne_nil (key : α → Option Text) {list : List α} (h : list ≠ []) (node : α) :
    ∃ list', fill key list node = some list' ∧ list' ≠ [] ∧
      named key list' = named key list ++ named key [node] := by
  obtain ⟨init, last, rfl⟩ := List.eq_nil_or_concat list |>.resolve_left h
  rw [List.concat_eq_append, fill, List.getLast?_append_of_ne_nil _ (by simp)]
  by_cases hkey : strlenZero (key last)
  · exact ⟨init ++ [node], by simp [hkey], by simp, by simp [named, hkey]⟩
  · exact ⟨init ++ [last] ++ [node], by simp [hkey], by simp, List.filter_append ..⟩

variable {key : α → Option Text} {entry : Xml → Option (Option (α × Bool))}
  {checks : Xml → List Verdict} {shown : α → β} {ofXml : Xml → β}

/-- **What the nodes of a list show are the elements in their order**, after those that it had. -/
lemma configList_reads {xs : List Xml} {list : List α} (hlist : list ≠ [])
    (h : ∀ x, EntryReads (checks x) (entry x)
      fun node => strlenZero (key node) = false ∧ shown node = ofXml x) :
    Reads (xs.flatMap checks) (configList key entry list xs) fun list' =>
      (named key list').map shown = (named key list).map shown ++ xs.map ofXml := by
  induction xs generalizing list with
  | nil => exact Reads.accept (by simp)
  | cons x xs ih =>
    have hx := h x
    rw [List.flatMap_cons, configList]
    unfold EntryReads at hx
    unfold Reads
    rw [Reads.firstVerdict_append]
    cases hv : firstVerdict (checks x) with
    | accepted =>
      rw [hv] at hx
      obtain ⟨node, heq, hkey, hshown⟩ := hx
      obtain ⟨list', hfill, hlist', hnamed⟩ := fill_of_ne_nil key hlist node
      simp only [heq, hfill, if_true]
      refine Reads.imp (ih hlist') fun list'' h'' => ?_
      rw [h'', hnamed]
      simp [named, hkey, hshown]
    | refused =>
      rw [hv] at hx
      obtain heq | ⟨node, heq⟩ := hx
      · exact ⟨list, by simp [heq]⟩
      · obtain ⟨list', hfill, -⟩ := fill_of_ne_nil key hlist node
        exact ⟨list', by simp [heq, hfill]⟩
    | fatal =>
      rw [hv] at hx
      simp [hx]

/-- A list of which the head was only allocated. -/
lemma configList_reads_default [Inhabited α] {xs : List Xml}
    (hdefault : strlenZero (key default) = true)
    (h : ∀ x, EntryReads (checks x) (entry x)
      fun node => strlenZero (key node) = false ∧ shown node = ofXml x) :
    Reads (xs.flatMap checks) (configList key entry [default] xs) fun list =>
      (named key list).map shown = xs.map ofXml := by
  refine (configList_reads (by simp) h).imp fun list hl => ?_
  rw [hl]
  simp [named, hdefault]

/-- A list of which the nodes are not looked at. -/
lemma configList_checked [Inhabited α] {xs : List Xml}
    (hdefault : strlenZero (key default) = true)
    (h : ∀ x, EntryReads (checks x) (entry x) fun node => strlenZero (key node) = false) :
    Reads (xs.flatMap checks) (configList key entry [default] xs) fun _ => True := by
  let shown : α → Unit := fun _ => ()
  have hshown : ∀ x, EntryReads (checks x) (entry x)
      fun node => strlenZero (key node) = false ∧ shown node = () := by
    intro x
    have hx := h x
    unfold EntryReads at hx ⊢
    split at hx
    · obtain ⟨node, heq, hkey⟩ := hx
      exact ⟨node, heq, hkey, rfl⟩
    · exact hx
    · exact hx
  exact (configList_reads_default hdefault hshown).imp fun _ _ => trivial

/-! ## The lists of an interface -/

lemma not_strlenZero {x : Xml} {name : String} {names : List String}
    (h : x.lacks (name :: names) = false) : strlenZero (x.attr name) = false := by
  rw [Xml.lacks, List.any_cons, Bool.or_eq_false_iff] at h
  exact h.1

lemma route_reads (dev : Option Text) (x : Xml) :
    EntryReads (routeChecks x)
      (if x.lacks ["name", "destination", "gateway"] then some none
        else some (some (Route.ofXml dev x, true)))
      fun route => strlenZero route.name = false ∧ id route = Route.ofXml dev x :=
  entryReads_node fun h => ⟨not_strlenZero h, rfl⟩

lemma configRoutes_reads (root : Xml) (dev : Option Text) :
    Reads ((root.children "route").flatMap routeChecks) (configRoutes [default] root dev)
      fun routes => named Route.name routes = (root.children "route").map (Route.ofXml dev) := by
  refine (configList_reads_default rfl (route_reads dev)).imp fun routes h => ?_
  rwa [List.map_id] at h

/-- The list of an address is the null pointer, and stays so. -/
lemma configRoutes_nil_reads (root : Xml) (dev : Option Text) :
    Reads ((root.children "route").flatMap ownRouteChecks) (configRoutes [] root dev)
      fun routes => named Route.name routes = (root.children "route").map (Route.ofXml dev) := by
  unfold configRoutes
  cases root.children "route" with
  | nil => exact Reads.accept rfl
  | cons x xs =>
    rw [configList, List.flatMap_cons, ownRouteChecks, routeChecks]
    cases x.lacks ["name", "destination", "gateway"] with
    | true => exact Reads.refuse
    | false => exact Eq.refl none

lemma configArp_reads (root : Xml) (dev : Option Text) :
    Reads ((root.children "arp").flatMap arpChecks) (configArp [default] root dev)
      fun arps => named Arp.ip arps = (root.children "arp").map (Arp.ofXml dev) := by
  refine (configList_reads_default rfl fun x => ?_).imp fun arps h => by rwa [List.map_id] at h
  exact entryReads_node fun h => ⟨not_strlenZero h, rfl⟩

lemma configIps_reads (root : Xml) (dev : Option Text) :
    Reads ((root.children "ip").flatMap ipChecks) (configIps [default] root dev)
      fun ips => shownIps ips = (root.children "ip").map (Ip.ofXml dev) := by
  refine configList_reads_default rfl fun x => entryReads_of_reads fun h => ?_
  refine (configRoutes_nil_reads x dev).stored fun routes hroutes => ⟨?_, ?_⟩
  · rw [ipRefused, Bool.or_assoc, Bool.or_eq_false_iff] at h
    exact not_strlenZero h.1
  · rw [Ip.shown, hroutes]
    rfl

lemma configIpsAndRoutes_reads (x : Xml) (dev : Option Text) :
    Reads (ipsAndRoutesChecks x) (configIpsAndRoutes x dev) fun lists =>
      shownIps lists.1 = (x.children "ip").map (Ip.ofXml dev) ∧
        named Route.name lists.2 = (x.children "route").map (Route.ofXml dev) := by
  refine (configIps_reads x dev).andThen fun ips hips => ?_
  exact (configRoutes_reads x dev).stored fun routes hroutes => ⟨hips, hroutes⟩

lemma configClusterIps_reads (root : Xml) (dev : Option Text) :
    Reads ((root.children "cluster-ips").flatMap clusterIpsChecks)
      (configClusterIps [default] root dev) fun cips =>
        (named ClusterIps.name cips).map ClusterIps.shown =
          (root.children "cluster-ips").map (ClusterIps.ofXml dev) := by
  refine configList_reads_default rfl fun x => entryReads_of_reads fun h => ?_
  refine (configIpsAndRoutes_reads x dev).stored fun lists ⟨hips, hroutes⟩ => ⟨not_strlenZero h, ?_⟩
  rw [ClusterIps.shown, hips, hroutes]
  rfl

lemma configFailoverIps_reads (root : Xml) (dev : Option Text) :
    Reads ((root.children "failover-ips").flatMap failoverIpsChecks)
      (configFailoverIps [default] root dev) fun fips =>
        (named FailoverIps.name fips).map FailoverIps.shown =
          (root.children "failover-ips").map (FailoverIps.ofXml dev) := by
  refine configList_reads_default rfl fun x => entryReads_of_reads fun h => ?_
  refine (configIpsAndRoutes_reads x dev).stored fun lists ⟨hips, hroutes⟩ => ⟨not_strlenZero h, ?_⟩
  rw [FailoverIps.shown, hips, hroutes]
  rfl

/-- **An interface gets the lists of the section.** -/
lemma configInterface_reads (root x : Xml) :
    Reads (interfaceListChecks root) (configInterface root x) fun new =>
      new.name = x.attr "name" ∧ new.shown = Interface.withLists root x := by
  unfold configInterface
  dsimp only
  refine (configClusterIps_reads root _).andThen fun cips hcips => ?_
  refine (configFailoverIps_reads root _).andThen fun fips hfips => ?_
  refine (configIps_reads root _).andThen fun ips hips => ?_
  refine (configRoutes_reads root _).andThen fun routes hroutes => ?_
  refine (configArp_reads root _).stored fun arps harps => ⟨rfl, ?_⟩
  rw [Interface.shown, hcips, hfips, hips, hroutes, harps]
  rfl

lemma configInterfaces_reads (root : Xml) :
    Reads (interfacesChecks root) (configInterfaces [default] root) fun interfaces =>
      (named Interface.name interfaces).map Interface.shown =
        (root.children "interface").map (Interface.withLists root) := by
  refine configList_reads_default rfl fun x => entryReads_of_reads fun h => ?_
  refine (configInterface_reads root x).imp fun new ⟨hname, hshown⟩ => ⟨?_, hshown⟩
  rw [hname]
  exact not_strlenZero h

/-! ## The rules -/

lemma configRules_reads (root : Xml) :
    Reads ((root.children "rule").flatMap ruleChecks) (configRules [default] root)
      fun _ => True := by
  refine configList_checked rfl fun x => ?_
  unfold ruleChecks
  cases hrefused : x.lacks ["name", "type"] || 14 < ((x.attr "name").getD []).length with
  | true => exact .inl rfl
  | false =>
    cases x.attr "string" with
    | none => exact Eq.refl none
    | some string =>
      by_cases hlong : 96 < string.length
      · simp only [hlong, if_true]
        exact .inl rfl
      · simp only [hlong, if_false]
        rw [Bool.or_eq_false_iff] at hrefused
        exact ⟨_, rfl, not_strlenZero hrefused.1⟩

lemma configRuleGroups_reads (root : Xml) :
    Reads ((root.children "rule-group").flatMap ruleGroupChecks) (configRuleGroups [default] root)
      fun _ => True := by
  refine configList_checked rfl fun x => entryReads_of_reads fun h => ?_
  exact (configRules_reads x).stored fun rules _ => not_strlenZero h

/-! ## The failover groups -/

lemma includeNames_reads (includes : List (Option Text)) :
    ∀ (names : List (Option Text)) (curInc : ℕ),
      Reads (includeChecks names.length curInc includes) (includeNames names curInc includes)
        fun stored => stored.2 = curInc + includes.length ∧
          (includes ≠ [] → curInc + includes.length ≤ names.length) ∧
          stored.1 = names.take curInc ++ includes ++ names.drop (curInc + includes.length) := by
  induction includes with
  | nil => exact fun names curInc => Reads.accept (by simp)
  | cons name includes ih =>
    intro names curInc
    rw [includeChecks, includeNames]
    by_cases hbound : names.length ≤ curInc
    · simp only [hbound, if_true]
      exact Reads.crash
    simp only [hbound, if_false]
    refine Reads.check_cons fun _ => ?_
    have h := ih (names.set curInc name) (curInc + 1)
    rw [List.length_set] at h
    refine h.imp fun stored ⟨hcur, hlen, hnames⟩ => ⟨?_, fun _ => ?_, ?_⟩
    · rw [hcur, List.length_cons]
      omega
    · cases includes with
      | nil => simp; omega
      | cons name includes =>
        have := hlen (by simp)
        simp only [List.length_cons] at this ⊢
        omega
    · have htake : (names.set curInc name).take (curInc + 1) = names.take curInc ++ [name] := by
        rw [List.take_add_one, List.take_set_of_le (Nat.le_refl _), List.getElem?_set_self (by omega)]
        rfl
      rw [hnames, htake, List.drop_set_of_lt (by omega), List.length_cons, List.append_assoc,
        List.append_assoc, List.append_assoc, Nat.add_right_comm, Nat.add_assoc]
      rfl

lemma configGroups_reads {xs : List Xml} :
    ∀ {curInc : ℕ} {fgroups : List FailoverGroup}, fgroups ≠ [] →
      Reads (groupChecks curInc xs) (configGroups curInc fgroups xs) fun fgroups' =>
        named FailoverGroup.name fgroups' =
          named FailoverGroup.name fgroups ++ xs.map FailoverGroup.ofXml := by
  induction xs with
  | nil => exact fun _ => Reads.accept (by simp)
  | cons x xs ih =>
    intro curInc fgroups hlist
    rw [groupChecks, configGroups]
    refine Reads.check_cons fun hlacks => ?_
    set includes := (x.children "include").map (·.attr "name") with hincludes
    have h := includeNames_reads includes (List.replicate includes.length none) curInc
    rw [List.length_replicate] at h
    unfold Reads at h ⊢
    rw [Reads.firstVerdict_append]
    cases hv : firstVerdict (includeChecks includes.length curInc includes) with
    | accepted =>
      rw [hv] at h
      obtain ⟨⟨names, curInc'⟩, heq, rfl, hlen, rfl⟩ := h
      have hnames : (List.replicate includes.length none).take curInc ++ includes ++
          (List.replicate includes.length none).drop (curInc + includes.length) = includes := by
        cases hi : includes with
        | nil => simp
        | cons name includes' =>
          rw [← hi]
          have := hlen (by simp [hi])
          obtain rfl : curInc = 0 := by omega
          simp
      rw [hnames] at heq
      obtain ⟨list', hfill, hlist', hnamed⟩ := fill_of_ne_nil FailoverGroup.name hlist
        ⟨x.attr "name", x.attr "type", includes, includes.length⟩
      simp only [heq, hfill, if_true]
      refine Reads.imp (ih hlist') fun list'' h'' => ?_
      rw [h'', hnamed]
      simp [named, not_strlenZero hlacks, FailoverGroup.ofXml, ← hincludes]
    | refused =>
      rw [hv] at h
      obtain ⟨⟨names, curInc'⟩, heq⟩ := h
      obtain ⟨list', hfill, -⟩ := fill_of_ne_nil FailoverGroup.name hlist
        ⟨x.attr "name", x.attr "type", names, includes.length⟩
      exact ⟨list', by simp [heq, hfill]⟩
    | fatal =>
      rw [hv] at h
      simp [h]

lemma configFailoverGroups_reads (root : Xml) :
    Reads (groupChecks 0 (root.children "group")) (configFailoverGroups [default] root)
      fun fgroups =>
        named FailoverGroup.name fgroups = (root.children "group").map FailoverGroup.ofXml :=
  configGroups_reads (by simp)

/-! ## The sections -/

/-- The interfaces as `config_interfaces` reads them. -/
def sectionInterfaces (root : Xml) : List Interface :=
  (root.children "interface").map (Interface.withLists root)

/-- The groups of the section, or those that there were. -/
def sectionGroups (s : Globals) (sect : Option Xml) : List FailoverGroup :=
  match sect with
  | none => s.network.shownGroups
  | some root => (root.children "group").map FailoverGroup.ofXml

lemma configDosRules_reads (s : Globals) (root : Xml) :
    Reads ((elements (root.child "dos-rules") "rule-group").flatMap ruleGroupChecks)
      (configDosRules s root) fun s' =>
        s'.network.shownGroups = s.network.shownGroups ∧ s'.pool = s.pool := by
  unfold configDosRules
  cases root.child "dos-rules" with
  | none => exact Reads.accept ⟨rfl, rfl⟩
  | some x => exact (configRuleGroups_reads x).stored fun _ _ => ⟨rfl, rfl⟩

lemma configInterfacesOf_reads (s : Globals) (root : Xml) :
    Reads
      (match root.child "interfaces" with
        | none => [.refused]
        | some x => interfacesChecks x)
      (configInterfacesOf s root) fun s' =>
        s'.network.shownGroups = s.network.shownGroups ∧ s'.pool = s.pool ∧
          ∃ x, root.child "interfaces" = some x ∧
            s'.network.shownInterfaces = sectionInterfaces x := by
  unfold configInterfacesOf
  cases root.child "interfaces" with
  | none => exact Reads.refuse
  | some x =>
    exact (configInterfaces_reads x).stored fun interfaces h => ⟨rfl, rfl, x, rfl, h⟩

lemma configFailoverGroupsOf_reads (s : Globals) (root : Xml) :
    Reads (groupChecks 0 (elements (root.child "failover-groups") "group"))
      (configFailoverGroupsOf s root) fun s' =>
        s'.network.shownInterfaces = s.network.shownInterfaces ∧ s'.pool = s.pool ∧
          s'.network.shownGroups = sectionGroups s (root.child "failover-groups") := by
  unfold configFailoverGroupsOf
  cases root.child "failover-groups" with
  | none => exact Reads.accept ⟨rfl, rfl, rfl⟩
  | some x => exact (configFailoverGroups_reads x).stored fun fgroups h => ⟨rfl, rfl, h⟩

lemma configNetwork_reads (s : Globals) (root : Xml) :
    Reads (networkChecks root) (configNetwork s root) fun s' =>
      (∃ x, root.child "interfaces" = some x ∧ s'.network.shownInterfaces = sectionInterfaces x) ∧
        s'.network.shownGroups = sectionGroups s (root.child "failover-groups") ∧
        s'.pool = s.pool := by
  refine (configDosRules_reads s root).andThen fun s₁ ⟨h₁, hpool₁⟩ => ?_
  refine (configInterfacesOf_reads s₁ root).andThen fun s₂ ⟨hgroups, hpool₂, x, hx, h₂⟩ => ?_
  refine (configFailoverGroupsOf_reads s₂ root).imp fun s₃ ⟨hinterfaces, hpool₃, h₃⟩ => ⟨?_, ?_, ?_⟩
  · exact ⟨x, hx, hinterfaces.trans h₂⟩
  · rw [h₃]
    cases root.child "failover-groups" with
    | none => exact hgroups.trans h₁
    | some x => rfl
  · exact hpool₃.trans (hpool₂.trans hpool₁)

lemma configHb_refused {hb : List Heartbeat} {x : Xml}
    (h : x.lacks ["interval", "bind-network", "multicast-address", "port"] = true) :
    configHb hb x = (hb, false) := by
  rw [configHb, if_pos h]

lemma configHb_accepted {hb : List Heartbeat} {x : Xml} (hhb : hb ≠ [])
    (h : x.lacks ["interval", "bind-network", "multicast-address", "port"] = false) :
    ∃ hb', configHb hb x = (hb', true) ∧ hb' ≠ [] ∧
      strlenZero (hb'.head?.bind (·.address)) = false := by
  have haddress : strlenZero (x.attr "multicast-address") = false := by
    simp only [Xml.lacks, List.any_cons, Bool.or_eq_false_iff] at h
    exact h.2.2.1
  obtain ⟨head, tail, rfl⟩ := List.exists_cons_of_ne_nil hhb
  refine ⟨_, by rw [configHb, h]; rfl, by simp, ?_⟩
  by_cases hhead : strlenZero head.address <;> simp [hhead, haddress]

/-- The loop over the heartbeats makes the list known if there is one. -/
lemma configHeartbeats_reads (xs : List Xml) :
    ∀ (s : Globals) (hb : List Heartbeat), hb ≠ [] →
      (strlenZero (hb.head?.bind (·.address)) = false → ∃ list, s.hb = some ⟨s.pool, list⟩) →
      Reads (xs.flatMap heartbeatChecks ++
          [check (xs.isEmpty && strlenZero (hb.head?.bind (·.address)))])
        (configHeartbeats s hb xs) fun s' =>
          s'.network = s.network ∧ s'.pool = s.pool ∧ ∃ list, s'.hb = some ⟨s.pool, list⟩ := by
  induction xs with
  | nil =>
    intro s hb _ hknown
    rw [configHeartbeats]
    cases haddress : strlenZero (hb.head?.bind (·.address)) with
    | true => exact Reads.refuse
    | false => exact Reads.pass (Reads.accept ⟨rfl, rfl, hknown haddress⟩)
  | cons x xs ih =>
    intro s hb hhb _
    rw [List.flatMap_cons, heartbeatChecks, configHeartbeats]
    cases hlacks : x.lacks ["interval", "bind-network", "multicast-address", "port"] with
    | true =>
      rw [configHb_refused hlacks]
      exact Reads.refuse
    | false =>
      obtain ⟨hb', heq, hhb', haddress⟩ := configHb_accepted hhb hlacks
      rw [heq]
      have h := ih { s.setGeneral { s.general with heartbeat := s.alloc hb' } with
        hb := s.alloc hb' } hb' hhb' fun _ => ⟨hb', rfl⟩
      rw [haddress, Bool.and_false] at h
      exact h

lemma configEvents_reads (root : Xml) :
    Reads ((root.children "match").flatMap fun x => [check (x.lacks ["name", "value"])])
      (configEvents [default] root) fun _ => True := by
  refine configList_checked rfl fun x => ?_
  exact entryReads_node fun h => not_strlenZero h

lemma configFailover_reads (root : Xml) :
    Reads ((root.children "condition").flatMap conditionChecks) (configFailover [default] root)
      fun _ => True := by
  refine configList_checked rfl fun x => entryReads_of_reads fun h => ?_
  exact (configEvents_reads x).stored fun rules _ => not_strlenZero h

/-- The general section is read into the same network and the same pool. -/
def Aside (s s' : Globals) : Prop := s'.network = s.network ∧ s'.pool = s.pool

lemma Aside.trans {s s' s'' : Globals} (h : Aside s s') (h' : Aside s' s'') : Aside s s'' :=
  ⟨h'.1.trans h.1, h'.2.trans h.2⟩

lemma configNodeid_reads (s : Globals) (root : Xml) :
    Reads [check (valueOf root "nodeid").isNone] (configNodeid s root) (Aside s) := by
  unfold configNodeid
  cases valueOf root "nodeid" with
  | none => exact Reads.refuse
  | some value => exact Reads.pass (Reads.accept ⟨rfl, rfl⟩)

lemma configTimerA_reads (s : Globals) (root : Xml) :
    Reads [check (valueOf root "timer-a").isNone] (configTimerA s root) (Aside s) := by
  unfold configTimerA
  cases valueOf root "timer-a" with
  | none => exact Reads.refuse
  | some value => exact Reads.pass (Reads.accept ⟨rfl, rfl⟩)

lemma configTimerB_aside (s : Globals) (root : Xml) : Aside s (configTimerB s root) := by
  unfold configTimerB
  split <;> exact ⟨rfl, rfl⟩

lemma configFailureThreshold_aside (s : Globals) (root : Xml) :
    Aside s (configFailureThreshold s root) := by
  unfold configFailureThreshold
  split <;> exact ⟨rfl, rfl⟩

lemma configHeartbeatsOf_reads (s : Globals) (root : Xml) :
    Reads ((root.children "heartbeat").flatMap heartbeatChecks ++
        [check (root.children "heartbeat").isEmpty]) (configHeartbeatsOf s root) fun s' =>
      Aside s s' ∧ ∃ list, s'.hb = some ⟨s.pool, list⟩ := by
  have h := configHeartbeats_reads (root.children "heartbeat")
    (s.setGeneral { s.general with heartbeat := s.alloc [default] }) [default] (by simp)
    (by rintro ⟨⟩)
  rw [show strlenZero (([default] : List Heartbeat).head?.bind (·.address)) = true from rfl,
    Bool.and_true] at h
  exact h.imp fun s' ⟨hnetwork, hpool, hhb⟩ => ⟨⟨hnetwork, hpool⟩, hhb⟩

lemma configFailoverOf_reads (s : Globals) (root : Xml) :
    Reads
      (match root.child "failover" with
        | none => [.refused]
        | some x => (x.children "condition").flatMap conditionChecks)
      (configFailoverOf s root) fun s' => Aside s s' ∧ s'.hb = s.hb := by
  unfold configFailoverOf
  cases root.child "failover" with
  | none => exact Reads.refuse
  | some x => exact (configFailover_reads x).stored fun _ _ => ⟨⟨rfl, rfl⟩, rfl⟩

/-- **A general section that is accepted makes its heartbeats known.** -/
lemma configGeneral_reads (s : Globals) (root : Xml) :
    Reads (generalChecks root) (configGeneral s root) fun s' =>
      Aside s s' ∧ ∃ list, s'.hb = some ⟨s.pool, list⟩ := by
  refine (configNodeid_reads s root).andThen fun s₁ h₁ => ?_
  refine (configTimerA_reads s₁ root).andThen fun s₂ h₂ => ?_
  set s₃ := configFailureThreshold (configTimerB s₂ root) root with hs₃
  have h₃ : Aside s s₃ := (h₁.trans h₂).trans
    ((configTimerB_aside s₂ root).trans (configFailureThreshold_aside _ root))
  refine (configHeartbeatsOf_reads s₃ root).andThen fun s₄ ⟨h₄, list, hhb⟩ => ?_
  refine (configFailoverOf_reads s₄ root).imp fun s₅ ⟨h₅, hhb'⟩ => ⟨h₃.trans (h₄.trans h₅), list, ?_⟩
  rw [hhb', hhb, h₃.2]

/-! ## Documents -/

/-- What is made of a document that is accepted. -/
structure Configured (s : Globals) (cfg : Xml) (s' : Globals) : Prop where
  interfaces : cfg.child "network" ≠ none → ∃ root,
    networkSection cfg "interfaces" = some root ∧
      s'.network.shownInterfaces = sectionInterfaces root
  noNetwork : cfg.child "network" = none → s'.network.shownInterfaces = s.network.shownInterfaces
  groups : s'.network.shownGroups = sectionGroups s (networkSection cfg "failover-groups")
  pool : s'.pool = s.pool
  hb : cfg.child "general" ≠ none → ∃ list, s'.hb = some ⟨s.pool, list⟩

lemma configSections_reads (s : Globals) (cfg : Xml) :
    Reads (((cfg.child "network").map networkChecks).getD [] ++
        ((cfg.child "general").map generalChecks).getD [])
      (configSections s cfg) (Configured s cfg) := by
  have hnetwork : Reads (((cfg.child "network").map networkChecks).getD [])
      (match cfg.child "network" with
        | none => some (s, true)
        | some x => configNetwork s x) fun s' =>
      (cfg.child "network" ≠ none → ∃ root, networkSection cfg "interfaces" = some root ∧
          s'.network.shownInterfaces = sectionInterfaces root) ∧
        (cfg.child "network" = none →
          s'.network.shownInterfaces = s.network.shownInterfaces) ∧
        s'.network.shownGroups = sectionGroups s (networkSection cfg "failover-groups") ∧
        s'.pool = s.pool := by
    unfold networkSection
    cases cfg.child "network" with
    | none => exact Reads.accept ⟨by simp, fun _ => rfl, rfl, rfl⟩
    | some x =>
      refine (configNetwork_reads s x).imp fun s' ⟨hinterfaces, hgroups, hpool⟩ => ?_
      exact ⟨fun _ => hinterfaces, by rintro ⟨⟩, hgroups, hpool⟩
  refine hnetwork.andThen fun s₁ ⟨hinterfaces, hno, hgroups, hpool⟩ => ?_
  cases hgeneral : cfg.child "general" with
  | none => exact Reads.accept ⟨hinterfaces, hno, hgroups, hpool, fun h => (h hgeneral).elim⟩
  | some x =>
    refine (configGeneral_reads s₁ x).imp fun s₂ ⟨⟨hsame, hpool₂⟩, list, hhb⟩ => ?_
    refine ⟨?_, ?_, ?_, ?_, ?_⟩
    · rwa [hsame]
    · rwa [hsame]
    · rwa [hsame]
    · exact hpool₂.trans hpool
    · exact fun _ => ⟨list, by rw [hhb, hpool]⟩

/-- `do_config` does what the checks of the document say. -/
lemma doConfig_reads (reload : Bool) (s : Globals) (doc : Option Xml) :
    Reads (docChecks doc) (doConfig reload s doc) fun s' =>
      ∃ cfg, doc = some cfg ∧ ∃ pool, Configured { s with pool := pool } cfg s' := by
  cases doc with
  | none => exact Reads.refuse
  | some cfg =>
    unfold doConfig docChecks
    dsimp only
    rw [← List.append_nil (_ ++ _)]
    refine (configSections_reads _ cfg).andThen fun s' h => Reads.accept ⟨cfg, rfl, s.pool + 1, ?_⟩
    exact ⟨h.interfaces, h.noNetwork, h.groups, h.pool, h.hb⟩

/-- The document is mirrored: `do_config` does not crash on it, and has its lists if it accepts
it. -/
def Mirrored (doc : Option Xml) (result : Built Globals) : Prop :=
  match result with
  | none => False
  | some (_, false) => True
  | some (s', true) => ∀ cfg, doc = some cfg → s'.network.Mirrors cfg

/-- The lists of every interface are those of the section, and there are no lists of an earlier
document where this one has no section. -/
structure Fits (s : Globals) (cfg : Xml) : Prop where
  own : ∀ root, networkSection cfg "interfaces" = some root → ∀ x ∈ root.children "interface",
    Interface.withLists root x = Interface.ofXml x
  interfaces : cfg.child "network" = none → s.network.shownInterfaces = []
  groups : networkSection cfg "failover-groups" = none → s.network.shownGroups = []

/-- The first check that is not passed is one that refuses the document, or all are passed by a
document that fits. -/
def Mirrorable (s : Globals) (doc : Option Xml) : Prop :=
  match firstVerdict (docChecks doc) with
  | .accepted => ∀ cfg, doc = some cfg → Fits s cfg
  | .refused => True
  | .fatal => False

lemma elements_none (name : String) : elements none name = [] := rfl

lemma Configured.mirrors_iff {s s' : Globals} {cfg : Xml} (h : Configured s cfg s') :
    s'.network.Mirrors cfg ↔ Fits s cfg := by
  have hgroups : s'.network.shownGroups =
      (elements (networkSection cfg "failover-groups") "group").map FailoverGroup.ofXml ↔
      (networkSection cfg "failover-groups" = none → s.network.shownGroups = []) := by
    rw [h.groups]
    cases networkSection cfg "failover-groups" with
    | none => simp [sectionGroups, elements_none]
    | some root => simp [sectionGroups, elements]
  have hinterfaces : s'.network.shownInterfaces =
      (elements (networkSection cfg "interfaces") "interface").map Interface.ofXml ↔
      (∀ root, networkSection cfg "interfaces" = some root → ∀ x ∈ root.children "interface",
        Interface.withLists root x = Interface.ofXml x) ∧
      (cfg.child "network" = none → s.network.shownInterfaces = []) := by
    by_cases hno : cfg.child "network" = none
    · have hsect : networkSection cfg "interfaces" = none := by rw [networkSection, hno]; rfl
      simp [h.noNetwork hno, hno, hsect, elements_none]
    · obtain ⟨root, hsect, hshown⟩ := h.interfaces hno
      simp [hshown, hsect, hno, elements, sectionInterfaces]
  constructor
  · rintro ⟨hi, hg⟩
    exact ⟨(hinterfaces.1 hi).1, (hinterfaces.1 hi).2, hgroups.1 hg⟩
  · intro hfits
    exact ⟨hinterfaces.2 ⟨hfits.own, hfits.interfaces⟩, hgroups.2 hfits.groups⟩

/-- **The configuration mirrors exactly the documents that fit**: no check that is reached is one of
the missing ones, and the interfaces and their section have the same lists. -/
theorem network_mirrored_iff (reload : Bool) (s : Globals) (doc : Option Xml) :
    Mirrored doc (doConfig reload s doc) ↔ Mirrorable s doc := by
  have h := doConfig_reads reload s doc
  unfold Mirrorable
  unfold Reads at h
  cases hv : firstVerdict (docChecks doc) with
  | accepted =>
    rw [hv] at h
    obtain ⟨s', heq, cfg, rfl, pool, hconfigured⟩ := h
    rw [heq]
    have hiff : s'.network.Mirrors cfg ↔ Fits s cfg := by
      refine hconfigured.mirrors_iff.trans ⟨fun hfits => ?_, fun hfits => ?_⟩ <;>
        exact ⟨hfits.own, hfits.interfaces, hfits.groups⟩
    constructor
    · rintro hmirrors _ ⟨⟩
      exact hiff.1 (hmirrors cfg rfl)
    · rintro hfits _ ⟨⟩
      exact hiff.2 (hfits cfg rfl)
  | refused =>
    rw [hv] at h
    obtain ⟨s', heq⟩ := h
    rw [heq]
    exact Iff.rfl
  | fatal =>
    rw [hv] at h
    rw [h]
    exact Iff.rfl

/-- An interface with an address of its own. -/
def ownAddress : Xml :=
  .element "configuration" [] [.element "network" [] [.element "interfaces" [] [
    .element "interface" [("name", "eth0".toList)] [
      .element "ip" [("name", "lan".toList), ("cidr", "10.0.0.1/24".toList)] []]]]]

/-- The address is not read: the list of the interface has an unused head and nothing else. -/
theorem interface_without_own_address :
    ¬ ∀ (reload : Bool) (s : Globals) (doc : Option Xml), Mirrored doc (doConfig reload s doc) := by
  intro h
  have hmirrors := h false Globals.initial (some ownAddress) ownAddress rfl
  exact absurd hmirrors.1 (by decide)

end FreeswitchContrib.HaCluster

import FreeswitchContrib.Library.CString
import FreeswitchContrib.Library.Building

/-!
# The configuration of the cluster

`do_config` of `mod_ha_cluster` reads `ha_cluster.conf` into linked lists of structures, which it
allocates from the pool of the configuration.  The head of a list is allocated, with all fields
zero, before the list is read; an element takes the head if this has no name yet and a new node
otherwise.

A list is its nodes with the head first, and `[]` is the null pointer.  A `config_` function that
fails leaves what it has built up to there.
-/

namespace FreeswitchContrib.HaCluster

open CString

abbrev Text := List Char

/-! ## Documents -/

inductive Xml where
  | element (name : String) (attrs : List (String × Text)) (children : List Xml)

/-- No text, or the empty one. -/
def strlenZero (s : Option Text) : Bool := s.all List.isEmpty

namespace Xml

def name : Xml → String
  | element name _ _ => name

/-- `switch_xml_child`, and `next` from there on. -/
def children : Xml → String → List Xml
  | element _ _ children, name => children.filter fun x => x.name = name

def child (x : Xml) (name : String) : Option Xml := (x.children name).head?

def attr : Xml → String → Option Text
  | element _ attrs _, name => (attrs.find? fun a => a.1 = name).map (·.2)

/-- One of the attributes is missing or empty. -/
def lacks (x : Xml) (names : List String) : Bool := names.any fun name => strlenZero (x.attr name)

end Xml


/-! ## Lists -/

variable {α : Type}

/-- A node at the end of a list, which is known by this field. -/
def fill (key : α → Option Text) (list : List α) (node : α) : Option (List α) :=
  match list.getLast? with
  | none => none
  | some cur => some ((if strlenZero (key cur) then list.dropLast else list) ++ [node])

/-- The loop over the elements: each is refused, or becomes a node, of which the own elements may be
refused as well. -/
def configList (key : α → Option Text) (entry : Xml → Option (Option (α × Bool))) :
    List α → List Xml → Built (List α)
  | list, [] => some (list, true)
  | list, x :: xs =>
    match entry x with
    | none => none
    | some none => some (list, false)
    | some (some (node, accepted)) =>
      match fill key list node with
      | none => none
      | some list => if accepted then configList key entry list xs else some (list, false)

/-! ## The network -/

structure Route where
  name : Option Text
  destination : Option Text
  gateway : Option Text
  metric : Option Text
  dev : Option Text
  deriving DecidableEq, Inhabited

structure Arp where
  ip : Option Text
  mac : Option Text
  dev : Option Text
  deriving DecidableEq, Inhabited

structure Ip where
  name : Option Text
  cidr : Option Text
  var : Option Text
  dev : Option Text
  rgroup : Option Text
  routes : List Route
  deriving DecidableEq, Inhabited

structure ClusterIps where
  name : Option Text
  vmac : Option Text
  dev : Option Text
  ips : List Ip
  routes : List Route
  deriving DecidableEq, Inhabited

structure FailoverIps where
  name : Option Text
  nodes : Option Text
  dev : Option Text
  ips : List Ip
  routes : List Route
  deriving DecidableEq, Inhabited

structure Interface where
  name : Option Text
  description : Option Text
  duplex : Option Text
  speed : Option Text
  cips : List ClusterIps
  fips : List FailoverIps
  ips : List Ip
  routes : List Route
  arps : List Arp
  deriving DecidableEq, Inhabited

/-- The attributes of a rule that are copied without a check, in the order of the fields. -/
def ruleAttrs : List String :=
  ["rate", "burst", "mode", "proto", "sport", "dport", "src", "srcrange", "length", "mports",
    "srcmports", "dstmports", "state", "rejectwith", "mark"]

structure Rule where
  name : Option Text
  type : Option Text
  string : Option Text
  /-- the values of `ruleAttrs` -/
  others : List (Option Text)
  deriving DecidableEq, Inhabited

structure RuleGroup where
  name : Option Text
  rules : List Rule
  deriving DecidableEq, Inhabited

structure FailoverGroup where
  name : Option Text
  includeType : Option Text
  includeNames : List (Option Text)
  numIncludes : ℕ
  deriving DecidableEq, Inhabited

def configRoutes (routes : List Route) (root : Xml) (dev : Option Text) : Built (List Route) :=
  configList Route.name (fun x =>
    if x.lacks ["name", "destination", "gateway"] then some none
    else
      some (some (⟨x.attr "name", x.attr "destination", x.attr "gateway", x.attr "metric", dev⟩,
        true))) routes (root.children "route")

def configArp (arps : List Arp) (root : Xml) (dev : Option Text) : Built (List Arp) :=
  configList Arp.ip (fun x =>
    if x.lacks ["ip", "mac"] then some none
    else some (some (⟨x.attr "ip", x.attr "mac", dev⟩, true))) arps (root.children "arp")

/-- The attributes of an address are not accepted. -/
def ipRefused (x : Xml) : Bool :=
  x.lacks ["name", "cidr"] || 14 < ((x.attr "name").getD []).length ||
    '/' ∉ (x.attr "cidr").getD []

/-- The list of routes of an address is not allocated. -/
def configIps (ips : List Ip) (root : Xml) (dev : Option Text) : Built (List Ip) :=
  configList Ip.name (fun x =>
    if ipRefused x then some none
    else
      ((configRoutes [] x dev).stored fun routes =>
        ⟨x.attr "name", x.attr "cidr", x.attr "var", dev, x.attr "rule-group", routes⟩).map some)
    ips (root.children "ip")

/-- The addresses and the routes of a group of addresses. -/
def configIpsAndRoutes (x : Xml) (dev : Option Text) : Built (List Ip × List Route) :=
  (configIps [default] x dev).andThen (·, [default]) fun (ips, routes) =>
    (configRoutes routes x dev).stored (ips, ·)

def configClusterIps (cips : List ClusterIps) (root : Xml) (dev : Option Text) :
    Built (List ClusterIps) :=
  configList ClusterIps.name (fun x =>
    if x.lacks ["name", "vmac"] then some none
    else
      ((configIpsAndRoutes x dev).stored fun (ips, routes) =>
        ⟨x.attr "name", x.attr "vmac", dev, ips, routes⟩).map some)
    cips (root.children "cluster-ips")

def configFailoverIps (fips : List FailoverIps) (root : Xml) (dev : Option Text) :
    Built (List FailoverIps) :=
  configList FailoverIps.name (fun x =>
    if x.lacks ["name"] then some none
    else
      ((configIpsAndRoutes x dev).stored fun (ips, routes) =>
        ⟨x.attr "name", x.attr "nodes", dev, ips, routes⟩).map some)
    fips (root.children "failover-ips")

/-- An interface, of which the lists are read from the children of `root`. -/
def configInterface (root x : Xml) : Built Interface :=
  let dev := x.attr "name"
  let new : Interface := ⟨dev, x.attr "description", x.attr "duplex", x.attr "speed", [default],
    [default], [default], [default], [default]⟩
  (configClusterIps new.cips root dev).andThen (fun cips => { new with cips := cips }) fun new =>
  (configFailoverIps new.fips root dev).andThen (fun fips => { new with fips := fips }) fun new =>
  (configIps new.ips root dev).andThen (fun ips => { new with ips := ips }) fun new =>
  (configRoutes new.routes root dev).andThen (fun routes => { new with routes := routes }) fun new =>
  (configArp new.arps root dev).stored fun arps => { new with arps := arps }

def configInterfaces (ints : List Interface) (root : Xml) : Built (List Interface) :=
  configList Interface.name (fun x =>
    if x.lacks ["name"] then some none
    -- the lists are read from `root` and not from the element
    else (configInterface root x).map some) ints (root.children "interface")

def configRules (rules : List Rule) (root : Xml) : Built (List Rule) :=
  configList Rule.name (fun x =>
    if x.lacks ["name", "type"] || 14 < ((x.attr "name").getD []).length then some none
    else
      match x.attr "string" with
      -- `strlen` of a null pointer
      | none => none
      | some string =>
        if 96 < string.length then some none
        else
          some (some (⟨x.attr "name", x.attr "type", some string, ruleAttrs.map x.attr⟩, true)))
    rules (root.children "rule")

def configRuleGroups (rgroups : List RuleGroup) (root : Xml) : Built (List RuleGroup) :=
  configList RuleGroup.name (fun x =>
    if x.lacks ["name"] then some none
    else
      ((configRules [default] x).stored fun rules => ⟨x.attr "name", rules⟩).map some)
    rgroups (root.children "rule-group")

/-- The loop that stores the names of the includes from `curInc` on. -/
def includeNames (names : List (Option Text)) (curInc : ℕ) :
    List (Option Text) → Option ((List (Option Text) × ℕ) × Bool)
  | [] => some ((names, curInc), true)
  | name :: includes =>
    if names.length ≤ curInc then none
    else if strlenZero name then some ((names.set curInc name, curInc), false)
    else includeNames (names.set curInc name) (curInc + 1) includes

/-- The loop over the groups; `curInc` goes on from one group to the next. -/
def configGroups (curInc : ℕ) : List FailoverGroup → List Xml → Built (List FailoverGroup)
  | fgroups, [] => some (fgroups, true)
  | fgroups, x :: xs =>
    if x.lacks ["name", "type"] then some (fgroups, false)
    else
      let includes := (x.children "include").map (·.attr "name")
      match includeNames (List.replicate includes.length none) curInc includes with
      | none => none
      | some ((names, curInc), accepted) =>
        match fill FailoverGroup.name fgroups
            ⟨x.attr "name", x.attr "type", names, includes.length⟩ with
        | none => none
        | some fgroups => if accepted then configGroups curInc fgroups xs else some (fgroups, false)

def configFailoverGroups (fover : List FailoverGroup) (root : Xml) : Built (List FailoverGroup) :=
  configGroups 0 fover (root.children "group")

/-! ## The general section -/

structure Heartbeat where
  interval : Option Text
  network : Option Text
  address : Option Text
  port : Option Text
  ttl : Option Text
  lport : ℤ
  deriving DecidableEq, Inhabited

structure EventMatch where
  name : Option Text
  value : Option Text
  deriving DecidableEq, Inhabited

structure Failover where
  event : Option Text
  matchRules : List EventMatch
  deriving DecidableEq, Inhabited

/-- `config_hb`, which is always given the head of the list: what follows the head is replaced. -/
def configHb (hb : List Heartbeat) (root : Xml) : List Heartbeat × Bool :=
  if root.lacks ["interval", "bind-network", "multicast-address", "port"] then (hb, false)
  else
    let node : Heartbeat := ⟨root.attr "interval", root.attr "bind-network",
      root.attr "multicast-address", root.attr "port", root.attr "ttl",
      atoi ((root.attr "port").getD []) % 65536⟩
    ((hb.take 1).filter (fun head => !strlenZero head.address) ++ [node], true)

def configEvents (events : List EventMatch) (root : Xml) : Built (List EventMatch) :=
  configList EventMatch.name (fun x =>
    if x.lacks ["name", "value"] then some none
    else some (some (⟨x.attr "name", x.attr "value"⟩, true))) events (root.children "match")

def configFailover (fover : List Failover) (root : Xml) : Built (List Failover) :=
  configList Failover.event (fun x =>
    if x.lacks ["event"] then some none
    else
      ((configEvents [default] x).stored fun rules => ⟨x.attr "event", rules⟩).map some)
    fover (root.children "condition")

/-! ## The globals -/

/-- A list in the memory of a pool. -/
structure Ref (α : Type) where
  pool : ℕ
  list : List α
  deriving DecidableEq

structure Network where
  rgroups : Option (Ref RuleGroup)
  interfaces : Option (Ref Interface)
  fgroups : Option (Ref FailoverGroup)
  deriving DecidableEq, Inhabited

structure General where
  nodeid : Option Text
  timerA : Option Text
  timerB : Option Text
  failureThreshold : Option Text
  heartbeat : Option (Ref Heartbeat)
  failover : Option (Ref Failover)
  deriving DecidableEq, Inhabited

/-- `config` and what `do_config` uses of `hac_globals`.  Pools have numbers in the order in which
they are created. -/
structure Globals where
  network : Network
  general : General
  pool : ℕ
  destroyed : List ℕ
  hb : Option (Ref Heartbeat)
  nodeid : ℤ
  timerADur : ℤ
  timerBDur : ℤ
  failureThreshold : ℤ
  starting : Bool

namespace Globals

/-- Before the module has read its configuration. -/
def initial : Globals := ⟨default, default, 0, [], none, 0, 5000, 300000, 3000, true⟩

variable (s : Globals)

def alloc {α : Type} (list : List α) : Option (Ref α) := some ⟨s.pool, list⟩

def setNetwork (network : Network) : Globals := { s with network := network }

def setGeneral (general : General) : Globals := { s with general := general }

end Globals

/-- The optional section of the rules. -/
def configDosRules (s : Globals) (root : Xml) : Built Globals :=
  match root.child "dos-rules" with
  | none => some (s, true)
  | some x =>
    (configRuleGroups [default] x).stored fun rgroups =>
      s.setNetwork { s.network with rgroups := s.alloc rgroups }

/-- The section of the interfaces, without which the document is refused. -/
def configInterfacesOf (s : Globals) (root : Xml) : Built Globals :=
  let s := s.setNetwork { s.network with interfaces := none }
  match root.child "interfaces" with
  | none => some (s, false)
  | some x =>
    (configInterfaces [default] x).stored fun interfaces =>
      s.setNetwork { s.network with interfaces := s.alloc interfaces }

/-- The optional section of the failover groups. -/
def configFailoverGroupsOf (s : Globals) (root : Xml) : Built Globals :=
  match root.child "failover-groups" with
  | none => some (s, true)
  | some x =>
    (configFailoverGroups [default] x).stored fun fgroups =>
      s.setNetwork { s.network with fgroups := s.alloc fgroups }

def configNetwork (s : Globals) (root : Xml) : Built Globals :=
  (configDosRules s root).andThen id fun s =>
  (configInterfacesOf s root).andThen id fun s =>
  configFailoverGroupsOf s root

/-- The value of an element of the general section. -/
def valueOf (root : Xml) (name : String) : Option Text :=
  ((root.child name).bind (·.attr "value")).filter fun value => !value.isEmpty

/-- The loop over the heartbeats, of which each makes the list known to the other threads. -/
def configHeartbeats (s : Globals) (hb : List Heartbeat) : List Xml → Built Globals
  | [] => some (s, !strlenZero (hb.head?.bind (·.address)))
  | x :: xs =>
    let (hb, accepted) := configHb hb x
    let s := s.setGeneral { s.general with heartbeat := s.alloc hb }
    if accepted then configHeartbeats { s with hb := s.alloc hb } hb xs else some (s, false)

/-- The list of heartbeats, of which there must be one. -/
def configHeartbeatsOf (s : Globals) (root : Xml) : Built Globals :=
  configHeartbeats (s.setGeneral { s.general with heartbeat := s.alloc [default] }) [default]
    (root.children "heartbeat")

def configNodeid (s : Globals) (root : Xml) : Built Globals :=
  match valueOf root "nodeid" with
  | none => some (s, false)
  | some value =>
    some ({ s.setGeneral { s.general with nodeid := some value } with nodeid := atoi value }, true)

def configTimerA (s : Globals) (root : Xml) : Built Globals :=
  match valueOf root "timer-a" with
  | none => some (s, false)
  | some value =>
    some ({ s.setGeneral { s.general with timerA := some value } with timerADur := atoi value },
      true)

def configTimerB (s : Globals) (root : Xml) : Globals :=
  match valueOf root "timer-b" with
  | none => s
  | some value =>
    { s.setGeneral { s.general with timerB := some value } with timerBDur := atoi value }

def configFailureThreshold (s : Globals) (root : Xml) : Globals :=
  match root.child "failure-threshold", valueOf root "failure-threshold" with
  | none, _ => { s with failureThreshold := 5000 }
  | some _, none => s
  | some _, some value =>
    { s.setGeneral { s.general with failureThreshold := some value } with
      failureThreshold := atoi value }

def configFailoverOf (s : Globals) (root : Xml) : Built Globals :=
  match root.child "failover" with
  | none => some (s, false)
  | some x =>
    (configFailover [default] x).stored fun failover =>
      s.setGeneral { s.general with failover := s.alloc failover }

def configGeneral (s : Globals) (root : Xml) : Built Globals :=
  (configNodeid s root).andThen id fun s =>
  (configTimerA s root).andThen id fun s =>
  (configHeartbeatsOf (configFailureThreshold (configTimerB s root) root) root).andThen id fun s =>
  configFailoverOf s root

/-- The sections of the document that is opened. -/
def configSections (s : Globals) (cfg : Xml) : Built Globals :=
  Built.andThen
    (match cfg.child "network" with
      | none => some (s, true)
      | some x => configNetwork s x) id fun s =>
    match cfg.child "general" with
    | none => some (s, true)
    | some x => configGeneral s x

/-- `do_config`, with the document if it can be opened. -/
def doConfig (reload : Bool) (s : Globals) (doc : Option Xml) : Built Globals :=
  let s := { s with
    destroyed := if reload then s.pool :: s.destroyed else s.destroyed
    pool := s.pool + 1 }
  match doc with
  | none => some (s, false)
  | some cfg => (configSections s cfg).andThen id fun s => some ({ s with starting := true }, true)

end FreeswitchContrib.HaCluster

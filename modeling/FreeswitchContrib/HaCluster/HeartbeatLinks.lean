import FreeswitchContrib.HaCluster.NetworkConfig

/-!
# The links of the heartbeats

`config_hb` is given the address of the caller's cursor, and moves a cursor of its own: each call
begins at the head of the list again, and a node that is added replaces what follows the head.

* `configHbNodes_linked`: the nodes and their pointers are the lists of `configHeartbeats`.
* `heartbeats_kept_iff`: every heartbeat is kept if and only if there are at most two.
-/

namespace FreeswitchContrib.HaCluster

/-! ## Nodes and pointers -/

/-- `hac_hb_t`; a pointer is the number of a node. -/
structure HbNode where
  hb : Heartbeat
  next : Option ℕ

/-- The attributes that `config_hb` stores. -/
def Heartbeat.ofXml (root : Xml) : Heartbeat :=
  ⟨root.attr "interval", root.attr "bind-network", root.attr "multicast-address", root.attr "port",
    root.attr "ttl", CString.atoi ((root.attr "port").getD []) % 65536⟩

def hbAttrs : List String := ["interval", "bind-network", "multicast-address", "port"]

/-- `config_hb`, with the nodes that are allocated; `*hb` stays as it is. -/
def configHbNode (nodes : List HbNode) (hb : ℕ) (root : Xml) : Option (List HbNode × Bool) :=
  if root.lacks hbAttrs then some (nodes, false)
  else
    match nodes[hb]? with
    | none => none
    | some cur =>
      if strlenZero cur.hb.address then
        some (nodes.set hb ⟨Heartbeat.ofXml root, none⟩, true)
      else
        let next := nodes.length
        some (nodes.set hb { cur with next := some next } ++ [⟨Heartbeat.ofXml root, none⟩], true)

/-- The loop of `config_general`. -/
def configHbNodes (cur : ℕ) : List HbNode → List Xml → Option (List HbNode × Bool)
  | nodes, [] => some (nodes, true)
  | nodes, x :: xs =>
    match configHbNode nodes cur x with
    | none => none
    | some (nodes, false) => some (nodes, false)
    | some (nodes, true) => configHbNodes cur nodes xs

/-- What is linked from this node on. -/
inductive Linked (nodes : List HbNode) : ℕ → List Heartbeat → Prop
  | last {p : ℕ} {hb : Heartbeat} (h : nodes[p]? = some ⟨hb, none⟩) : Linked nodes p [hb]
  | next {p q : ℕ} {hb : Heartbeat} {rest : List Heartbeat} (h : nodes[p]? = some ⟨hb, some q⟩)
      (hrest : Linked nodes q rest) : Linked nodes p (hb :: rest)

variable {nodes : List HbNode} {p : ℕ} {list : List Heartbeat} {head : Heartbeat}
  {tail : List Heartbeat} {s s' : Globals} {root x : Xml}

lemma Linked.exists_head (h : Linked nodes p list) :
    ∃ head tail next, list = head :: tail ∧ nodes[p]? = some ⟨head, next⟩ := by
  cases h with
  | last h => exact ⟨_, _, _, rfl, h⟩
  | next h hrest => exact ⟨_, _, _, rfl, h⟩

lemma linked_set (hp : p < nodes.length) (hb : Heartbeat) : Linked (nodes.set p ⟨hb, none⟩) p [hb] :=
  .last (List.getElem?_set_self hp)

lemma linked_append (hp : p < nodes.length) (head hb : Heartbeat) :
    Linked (nodes.set p ⟨head, some nodes.length⟩ ++ [⟨hb, none⟩]) p [head, hb] := by
  have hlength : (nodes.set p ⟨head, some nodes.length⟩).length = nodes.length :=
    List.length_set
  refine .next (q := nodes.length) ?_ (.last ?_)
  · rw [List.getElem?_append_left (by rwa [hlength]), List.getElem?_set_self hp]
  · rw [List.getElem?_append_right (Nat.le_of_eq hlength), hlength, Nat.sub_self]
    rfl

/-! ## One heartbeat -/

lemma configHb_cons (h : root.lacks hbAttrs = false) (head : Heartbeat) (tail : List Heartbeat) :
    configHb (head :: tail) root =
      (if strlenZero head.address then [.ofXml root] else [head, .ofXml root], true) := by
  rw [configHb, if_neg (by rw [← hbAttrs, h]; exact Bool.false_ne_true)]
  cases haddress : strlenZero head.address <;> simp [haddress, Heartbeat.ofXml]

/-- **A call does to the nodes what `configHb` does to the list.** -/
theorem configHbNode_linked (h : Linked nodes p list) (root : Xml) :
    ∃ nodes', configHbNode nodes p root = some (nodes', (configHb list root).2) ∧
      Linked nodes' p (configHb list root).1 := by
  obtain ⟨head, tail, next, rfl, hp⟩ := h.exists_head
  obtain ⟨hlength, -⟩ := List.getElem?_eq_some_iff.mp hp
  rw [configHbNode]
  cases hlacks : root.lacks hbAttrs with
  | true =>
    rw [configHb_refused hlacks]
    exact ⟨nodes, rfl, h⟩
  | false =>
    rw [configHb_cons hlacks, hp]
    simp only [Bool.false_eq_true, if_false]
    split_ifs with haddress
    · exact ⟨_, rfl, linked_set hlength _⟩
    · exact ⟨_, rfl, linked_append hlength head _⟩

/-! ## All heartbeats -/

def configHbs (list : List Heartbeat) (xs : List Xml) : List Heartbeat :=
  xs.foldl (fun list x => (configHb list x).1) list

/-- **The loop does to the nodes what it does to the list.** -/
theorem configHbNodes_linked (xs : List Xml) (hxs : ∀ x ∈ xs, x.lacks hbAttrs = false)
    (h : Linked nodes p list) :
    ∃ nodes', configHbNodes p nodes xs = some (nodes', true) ∧
      Linked nodes' p (configHbs list xs) := by
  induction xs generalizing nodes list with
  | nil => exact ⟨nodes, rfl, h⟩
  | cons x xs ih =>
    obtain ⟨hx, hxs⟩ := List.forall_mem_cons.mp hxs
    obtain ⟨nodes', hnode, hlinked⟩ := configHbNode_linked h x
    have haccepted : (configHb list x).2 = true := by
      obtain ⟨head, tail, next, rfl, -⟩ := h.exists_head
      rw [configHb_cons hx]
    rw [configHbNodes, hnode, haccepted]
    exact ih hxs hlinked

lemma lacks_of_configHb (h : (configHb list x).2 = true) : x.lacks hbAttrs = false := by
  cases hlacks : x.lacks hbAttrs with
  | false => rfl
  | true =>
    rw [configHb_refused hlacks] at h
    cases h

/-- The other threads know the list of all heartbeats. -/
lemma configHeartbeats_hb (xs : List Xml)
    (h : configHeartbeats s list xs = some (s', true)) :
    (∀ x ∈ xs, x.lacks hbAttrs = false) ∧
      s'.hb = if xs = [] then s.hb else s.alloc (configHbs list xs) := by
  induction xs generalizing s list with
  | nil =>
    obtain ⟨rfl, -⟩ := Prod.mk.inj (Option.some.inj h)
    exact ⟨fun _ hmem => absurd hmem List.not_mem_nil, rfl⟩
  | cons x xs ih =>
    rw [configHeartbeats] at h
    rw [List.forall_mem_cons, if_neg (List.cons_ne_nil x xs), configHbs, List.foldl_cons,
      ← configHbs]
    cases hhb : configHb list x with
    | mk list' accepted =>
      rw [hhb] at h
      cases accepted with
      | false => cases h
      | true =>
        obtain ⟨hxs, hs'⟩ := ih h
        refine ⟨⟨lacks_of_configHb (congrArg Prod.snd hhb), hxs⟩, hs'.trans ?_⟩
        cases xs with
        | nil => rfl
        | cons y ys => exact if_neg (List.cons_ne_nil y ys)

lemma ofXml_address (h : x.lacks hbAttrs = false) :
    strlenZero (Heartbeat.ofXml x).address = false := by
  have haddress := List.any_eq_false.mp h "multicast-address" (by decide)
  exact Bool.eq_false_iff.mpr haddress

/-- Behind the first heartbeat only the last one stays. -/
lemma configHbs_rest (head : Heartbeat) (hhead : strlenZero head.address = false) (xs : List Xml)
    (hxs : ∀ x ∈ xs, x.lacks hbAttrs = false) (tail : List Heartbeat) :
    configHbs (head :: tail) xs =
      match xs.getLast? with
      | none => head :: tail
      | some x => [head, .ofXml x] := by
  induction xs generalizing tail with
  | nil => rfl
  | cons x xs ih =>
    obtain ⟨hx, hxs⟩ := List.forall_mem_cons.mp hxs
    rw [configHbs, List.foldl_cons, ← configHbs, configHb_cons hx, hhead]
    simp only [Bool.false_eq_true, if_false, ih hxs]
    cases xs with
    | nil => rfl
    | cons y ys => rw [List.getLast?_cons_cons, List.getLast?_cons]

/-- What is left of the heartbeats of a section. -/
lemma configHbs_cons (x : Xml) (xs : List Xml) (h : ∀ y ∈ x :: xs, y.lacks hbAttrs = false) :
    configHbs [default] (x :: xs) = .ofXml x :: xs.getLast?.toList.map .ofXml := by
  obtain ⟨hx, hxs⟩ := List.forall_mem_cons.mp h
  rw [configHbs, List.foldl_cons, ← configHbs, configHb_cons hx]
  have hrest := configHbs_rest (.ofXml x) (ofXml_address hx) xs hxs []
  cases hlast : xs.getLast? with
  | none =>
    rw [hlast] at hrest
    exact hrest
  | some y =>
    rw [hlast] at hrest
    exact hrest

/-! ## The general section -/

lemma configFailoverOf_hb (h : configFailoverOf s root = some (s', true)) : s'.hb = s.hb := by
  rw [configFailoverOf] at h
  cases hchild : root.child "failover" with
  | none =>
    rw [hchild] at h
    cases h
  | some x =>
    rw [hchild] at h
    obtain ⟨built, -, hbuilt⟩ := Option.map_eq_some_iff.mp h
    rw [← (Prod.mk.inj hbuilt).1]
    rfl

/-- A section that is accepted has heartbeats, and the list of them is known. -/
lemma configHeartbeatsOf_hb (h : configHeartbeatsOf s root = some (s', true)) :
    root.children "heartbeat" ≠ [] ∧ (∀ x ∈ root.children "heartbeat", x.lacks hbAttrs = false) ∧
      s'.hb = s.alloc (configHbs [default] (root.children "heartbeat")) := by
  rw [configHeartbeatsOf] at h
  have hne : root.children "heartbeat" ≠ [] := by
    intro hnil
    rw [hnil] at h
    cases h
  obtain ⟨hxs, hhb⟩ := configHeartbeats_hb _ h
  rw [if_neg hne] at hhb
  exact ⟨hne, hxs, hhb⟩

lemma configGeneral_hb (h : configGeneral s root = some (s', true)) :
    root.children "heartbeat" ≠ [] ∧ (∀ x ∈ root.children "heartbeat", x.lacks hbAttrs = false) ∧
      s'.hb.map Ref.list = some (configHbs [default] (root.children "heartbeat")) := by
  rw [configGeneral] at h
  obtain ⟨s₁, -, h₁⟩ := Built.andThen_eq_accepted h
  obtain ⟨s₂, -, h₂⟩ := Built.andThen_eq_accepted h₁
  obtain ⟨s₃, hheartbeats, hfailover⟩ := Built.andThen_eq_accepted h₂
  obtain ⟨hne, hxs, hhb⟩ := configHeartbeatsOf_hb hheartbeats
  refine ⟨hne, hxs, ?_⟩
  rw [configFailoverOf_hb hfailover, id, hhb]
  rfl

/-- **The list that is known is what the nodes are linked to**, from the one that the general section
allocates. -/
theorem configGeneral_linked (h : configGeneral s root = some (s', true)) :
    ∃ nodes list, configHbNodes 0 [⟨default, none⟩] (root.children "heartbeat") =
      some (nodes, true) ∧ Linked nodes 0 list ∧ s'.hb.map Ref.list = some list := by
  obtain ⟨-, hxs, hhb⟩ := configGeneral_hb h
  have hfresh : Linked [⟨default, none⟩] 0 [default] := .last rfl
  obtain ⟨nodes, hnodes, hlinked⟩ := configHbNodes_linked (root.children "heartbeat") hxs hfresh
  exact ⟨nodes, _, hnodes, hlinked, hhb⟩

/-- **When no heartbeat is lost.** -/
theorem heartbeats_kept_iff (s : Globals) (root : Xml) (s' : Globals)
    (h : configGeneral s root = some (s', true)) :
    s'.hb.map Ref.list = some ((root.children "heartbeat").map Heartbeat.ofXml) ↔
      (root.children "heartbeat").length ≤ 2 := by
  obtain ⟨hne, hxs, hhb⟩ := configGeneral_hb h
  obtain ⟨x, xs, hcons⟩ := List.exists_cons_of_ne_nil hne
  rw [hhb, hcons, configHbs_cons x xs (hcons ▸ hxs), Option.some_inj, List.map_cons,
    List.cons_inj_right, List.length_cons]
  constructor
  · intro hkept
    have hlength := congrArg List.length hkept
    rw [List.length_map, List.length_map] at hlength
    have hlast : xs.getLast?.toList.length ≤ 1 := by cases xs.getLast? <;> simp
    omega
  · intro hlength
    rcases xs with _ | ⟨y, _ | ⟨z, zs⟩⟩
    · rfl
    · rfl
    · simp at hlength

/-- A general section with these heartbeats. -/
def generalWith (heartbeats : List Xml) : Xml :=
  .element "general" [] (.element "nodeid" [("value", "1".toList)] [] ::
    .element "timer-a" [("value", "5".toList)] [] :: heartbeats ++ [.element "failover" [] []])

def heartbeatOn (address : String) : Xml :=
  .element "heartbeat" [("interval", "1".toList), ("bind-network", "10.0.0.1".toList),
    ("multicast-address", address.toList), ("port", "5000".toList)] []

/-- Two links. -/
theorem heartbeats_kept_two : ∃ s', configGeneral .initial
      (generalWith [heartbeatOn "224.0.0.1", heartbeatOn "224.0.0.2"]) = some (s', true) ∧
    (s'.hb.map Ref.list = some ([heartbeatOn "224.0.0.1", heartbeatOn "224.0.0.2"].map .ofXml) ↔
      2 ≤ 2) :=
  ⟨_, rfl, heartbeats_kept_iff .initial
    (generalWith [heartbeatOn "224.0.0.1", heartbeatOn "224.0.0.2"]) _ rfl⟩

/-- Of three links the second one is lost. -/
theorem heartbeat_link_lost : ¬ ∀ (s : Globals) (root : Xml) (s' : Globals),
    configGeneral s root = some (s', true) →
      s'.hb.map Ref.list = some ((root.children "heartbeat").map Heartbeat.ofXml) := by
  intro h
  have hkept := h .initial
    (generalWith [heartbeatOn "224.0.0.1", heartbeatOn "224.0.0.2", heartbeatOn "224.0.0.3"]) _ rfl
  exact absurd ((heartbeats_kept_iff _ _ _ rfl).mp hkept) (by decide)

end FreeswitchContrib.HaCluster

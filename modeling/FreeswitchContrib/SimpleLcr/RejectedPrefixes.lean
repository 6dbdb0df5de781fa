import FreeswitchContrib.SimpleLcr.AreaLookups
import FreeswitchContrib.SimpleLcr.RouteArrayExact

/-!
# What a rejected prefix leaves behind

`route_trie_add` makes the nodes for the digits before a bad character and then answers 0.  The
nodes stay, without routes.  The arrays a lookup fills are the same as before, but its answer need
not be: a key that has the same digits and then a bad character used to leave the trie before the
walk saw that character, and was answered with the number of routes.  Now it is answered with 0.

* `routeTrieNodeAdd_of_hasNode`: with all the nodes there already, nothing is made;
* `size_le_routeTrieNodeFind`: a lookup that meets no bad character answers at least what the array
  held;
* `looksAlike_rejected_iff`: when nobody can tell.
-/

namespace FreeswitchContrib.SimpleLcr

variable {n : RouteTrieNode} {m : ℕ} {route : Route}

/-- Two tries answer every lookup alike, whatever array it fills. -/
def LooksAlike (a b : RouteTrie) : Prop :=
  ∀ key, (∀ array, routeTrieFind a key array = routeTrieFind b key array) ∧
    routeTrieFindCount a key = routeTrieFindCount b key

/-! ## The nodes of the walk -/

/-- **Nothing new.**  A call that is rejected behind nodes that are there leaves the trie as it
is. -/
theorem routeTrieNodeAdd_of_hasNode : ∀ (p : List Char) (n : RouteTrieNode),
    p.all Char.isDigit = false → hasNode n (p.takeWhile Char.isDigit) = true →
    (routeTrieNodeAdd m route n p).1 = n
  | p, .null, _, hnode => by
    rw [hasNode_null] at hnode
    cases hnode
  | [], .node child array, hbad, _ => by cases hbad
  | c :: rest, .node child array, hbad, hnode => by
    cases hc : digit? c with
    | none => simp only [routeTrieNodeAdd, hc]
    | some i =>
      have hdigit : c.isDigit = true := (digit?_isSome_iff c).mp (by rw [hc]; rfl)
      rw [List.all_cons, hdigit, Bool.true_and] at hbad
      rw [List.takeWhile_cons, if_pos hdigit] at hnode
      have hchild : hasNode (child i) (rest.takeWhile Char.isDigit) = true := by
        simpa only [hasNode, hc] using hnode
      have ih := routeTrieNodeAdd_of_hasNode rest (child i) hbad hchild
      obtain ⟨next, -, hkept, hstep⟩ := routeTrieNodeAdd_digit m route child array rest hc
      -- the walk goes on with the child itself, since it is there
      have hnext : next = child i := hkept fun hnull => by
        rw [hnull, hasNode_null] at hchild
        cases hchild
      rw [hstep, hnext, ih, Function.update_eq_self]

/-- A key of some digits and then a bad character is bad input as soon as the digits have a
node. -/
lemma badInput_append : ∀ (p : List Char) (n : RouteTrieNode) (c : Char) (rest : List Char),
    p.all Char.isDigit = true → c.isDigit = false → badInput n (p ++ c :: rest) = hasNode n p
  | p, .null, c, rest, _, _ => by
    rw [hasNode_null]
    cases p <;> rfl
  | [], .node child array, c, rest, _, hc => by
    simp only [List.nil_append, badInput, (digit?_eq_none_iff c).mpr hc, hasNode]
  | d :: p, .node child array, c, rest, hp, hc => by
    rw [List.all_cons, Bool.and_eq_true] at hp
    obtain ⟨i, hi⟩ := Option.isSome_iff_exists.mp ((digit?_isSome_iff d).mpr hp.1)
    have ih := badInput_append p (child i) c rest hp.2 hc
    simpa only [List.cons_append, badInput, hasNode, hi] using ih

/-! ## Sizes -/

/-- An array never gets smaller by an addition, as long as its size does not wrap. -/
lemma size_le_routeArrayAdd {array : RouteArray} (hmax : array.maxSize ≤ 254) (route : Route) :
    array.size ≤ (routeArrayAdd array route).size := by
  have hsize := array.size_le
  by_cases hk : route.key ∈ array.entries.map Route.key
  · obtain ⟨i, e, hi, hlt, he, -, -⟩ := findByValueAndType_of_mem hk
    rw [routeArrayAdd_of_found hi hlt he]
    split_ifs with hcost
    · exact le_rfl
    · rw [Packed.size_insertByCost (by rwa [Packed.maxSize_remove]), Packed.maxSize_remove,
        Packed.size_remove hlt]
      omega
  · rw [routeArrayAdd_of_notMem hk, Packed.size_insertByCost hmax]
    omega

lemma size_le_foldl_add : ∀ (routes : List Route) {array : RouteArray}, array.maxSize ≤ 254 →
    array.size ≤ (routes.foldl routeArrayAdd array).size
  | [], _, _ => le_rfl
  | route :: routes, array, hmax => by
    rw [List.foldl_cons]
    refine (size_le_routeArrayAdd hmax route).trans (size_le_foldl_add routes ?_)
    rwa [maxSize_routeArrayAdd]

lemma size_le_routeTrieNodeFind {array : RouteArray} (hmax : array.maxSize ≤ 254)
    {key : List Char} (hgood : badInput n key = false) :
    array.size ≤ (routeTrieNodeFind n key array).2 := by
  rw [routeTrieNodeFind_snd, hgood, if_neg Bool.false_ne_true, routeTrieNodeFind_eq]
  exact size_le_foldl_add _ hmax

/-! ## Lookups after a rejected call -/

section

variable {trie : RouteTrie} {call : RouteCall}

lemma digits_of_rejected (hroot : trie.root ≠ .null) (hrejected : (routeTrieAdd trie call).2 = 0) :
    call.digits.all Char.isDigit = false := by
  have hret := (arrayAt_routeTrieNodeAdd trie.maxRoutes call.route call.digits trie.root hroot).2.1
  rw [← Bool.not_eq_true, ← hret]
  exact fun hone => Nat.zero_ne_one (hrejected.symm.trans hone)

/-- A rejected call stores no route. -/
lemma arrayAt_of_rejected (hroot : trie.root ≠ .null)
    (hrejected : (routeTrieAdd trie call).2 = 0) (q : List Char) :
    arrayAt (routeTrieAdd trie call).1.root q = arrayAt trie.root q := by
  have hadd :=
    (arrayAt_routeTrieNodeAdd trie.maxRoutes call.route call.digits trie.root hroot).2.2 q
  have hbad := digits_of_rejected hroot hrejected
  rw [if_neg (fun h => by rw [hbad] at h; exact Bool.false_ne_true h.1)] at hadd
  exact hadd

/-- **The filled array** is the same after a rejected call, for every key. -/
theorem routeTrieFind_fst_of_rejected (hroot : trie.root ≠ .null)
    (hrejected : (routeTrieAdd trie call).2 = 0) (key : List Char) (array : RouteArray) :
    (routeTrieFind (routeTrieAdd trie call).1 key array).1 = (routeTrieFind trie key array).1 := by
  have hpath : pathEntries (routeTrieAdd trie call).1.root key = pathEntries trie.root key := by
    rw [pathEntries, pathEntries]
    simp only [arrayAt_of_rejected hroot hrejected]
  rw [routeTrieFind, routeTrieFind, routeTrieNodeFind_eq, routeTrieNodeFind_eq, hpath]

/-- **When a rejected prefix goes unnoticed.**  A rejected call never changes the array a lookup
fills.  All answers and counts stay the same as well exactly when the digits before the bad
character had a node already. -/
theorem looksAlike_rejected_iff (hroot : trie.root ≠ .null)
    (hrejected : (routeTrieAdd trie call).2 = 0) :
    (∀ key array, (routeTrieFind (routeTrieAdd trie call).1 key array).1
        = (routeTrieFind trie key array).1) ∧
      (LooksAlike (routeTrieAdd trie call).1 trie ↔
        hasNode trie.root (call.digits.takeWhile Char.isDigit) = true) := by
  refine ⟨routeTrieFind_fst_of_rejected hroot hrejected, fun hsame => ?_, fun hnode => ?_⟩
  · set p := call.digits.takeWhile Char.isDigit with hp
    have hdigits : p.all Char.isDigit = true := by
      rw [List.all_eq_true]
      exact fun c hc => List.mem_takeWhile_imp hc
    have hmade : hasNode (routeTrieAdd trie call).1.root p = true :=
      (hasNode_routeTrieNodeAdd trie.maxRoutes call.route call.digits trie.root hroot p).mpr
        (Or.inr List.prefix_rfl)
    by_contra hnode
    rw [Bool.not_eq_true] at hnode
    -- the key of the same digits and then a bad character, into an array that holds a route
    have hbefore : badInput trie.root (p ++ ['x']) = false :=
      (badInput_append p trie.root 'x' [] hdigits rfl).trans hnode
    have hafter : badInput (routeTrieAdd trie call).1.root (p ++ ['x']) = true :=
      (badInput_append p _ 'x' [] hdigits rfl).trans hmade
    have hzero : (routeTrieFind (routeTrieAdd trie call).1 (p ++ ['x']) (single 1)).2 = 0 := by
      rw [routeTrieFind, routeTrieNodeFind_snd, hafter, if_pos rfl]
    have hone : 1 ≤ (routeTrieFind trie (p ++ ['x']) (single 1)).2 :=
      size_le_routeTrieNodeFind (show (single 1).maxSize ≤ 254 by decide) hbefore
    rw [(hsame (p ++ ['x'])).1] at hzero
    omega
  · have hunchanged : (routeTrieAdd trie call).1 = trie := by
      rw [routeTrieAdd, routeTrieNodeAdd_of_hasNode call.digits trie.root
        (digits_of_rejected hroot hrejected) hnode]
    rw [hunchanged]
    exact fun key => ⟨fun array => rfl, rfl⟩

end

/-- A route for every number, and one for the numbers that begin with 1. -/
def defaultRoute : RouteTrie := loadRoutes 3 [⟨[], 5, 7, 1⟩, ⟨['1'], 4, 8, 1⟩]

/-- The digit of the rejected prefix has a node. -/
theorem looksAlike_rejected_iff_known :
    LooksAlike (routeTrieAdd defaultRoute ⟨"1x".toList, 4, 9, 1⟩).1 defaultRoute :=
  (looksAlike_rejected_iff (fun h => by cases h)
    (show (routeTrieAdd defaultRoute ⟨"1x".toList, 4, 9, 1⟩).2 = 0 by decide)).2.mpr (by decide)

/-- After the rejected 2x the key 2a finds no route, where it found the default one. -/
theorem not_looksAlike_rejected : ¬∀ (trie : RouteTrie) (call : RouteCall),
    trie.root ≠ .null → (routeTrieAdd trie call).2 = 0 →
    LooksAlike (routeTrieAdd trie call).1 trie := by
  intro h
  have hsame := h defaultRoute ⟨"2x".toList, 4, 9, 1⟩ (fun h => by cases h) (by decide)
  exact absurd (hsame "2a".toList).2 (by decide)

end FreeswitchContrib.SimpleLcr

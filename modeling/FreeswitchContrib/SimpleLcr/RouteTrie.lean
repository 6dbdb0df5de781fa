import Mathlib.Data.Fin.Basic
import Mathlib.Data.List.Infix
import Mathlib.Data.List.TakeWhile
import Mathlib.Logic.Function.Basic
import FreeswitchContrib.SimpleLcr.RouteArray

/-!
# The route trie

`route_trie.c` keeps one node per digit string, made on the way to the node of a prefix and never
removed; a rejected prefix leaves the nodes of its leading digits behind, without routes.  A string
is the list of its characters before the terminating NUL.  A NULL prefix or key is read as `[]`:
the source tests `prefix && prefix[0] != '\0'` and treats the two alike.

`arrayAt` is the abstraction: the finite map from digit strings to the arrays stored for them.
`arrayAt_routeTrieNodeAdd` says what an insertion does to the map, `routeTrieNodeFind_eq` which
part of it a lookup reads, and `routeTrieFind_refines` puts the two together for a whole history.
-/

namespace FreeswitchContrib.SimpleLcr

/-! ## Nodes -/

/-- A trie node, `null` for the NULL pointer: ten children and an array of routes, which may be
missing. -/
inductive RouteTrieNode where
  | null
  | node (child : Fin 10 → RouteTrieNode) (array : Option RouteArray)

/-- `int i = (int)(prefix[0] - '0')`, when it is one of the ten indices. -/
def digit? (c : Char) : Option (Fin 10) :=
  let i : ℤ := (c.toNat : ℤ) - ('0'.toNat : ℤ)
  if h : 0 ≤ i ∧ i ≤ 9 then some ⟨i.toNat, by omega⟩ else none

def routeTrieNodeCreate : RouteTrieNode := .node (fun _ => .null) none

/-- Walk down the digits of the string, making nodes as needed, and store the route in the last
one.  A character that is no digit ends the walk with 0, keeping the nodes made so far. -/
def routeTrieNodeAdd (maxRoutes : ℕ) (route : Route) :
    RouteTrieNode → List Char → RouteTrieNode × ℕ
  | .null, _ => (.null, 0)
  | .node child array, [] =>
      (.node child (some (routeArrayAdd (array.getD (routeArrayCreate maxRoutes)) route)), 1)
  | .node child array, c :: rest =>
      match digit? c with
      | some i =>
          let next := match child i with
            | .null => routeTrieNodeCreate
            | n => n
          let result := routeTrieNodeAdd maxRoutes route next rest
          (.node (Function.update child i result.1) array, result.2)
      | none => (.node child array, 0)

/-- The routes a node stores, visible ones only. -/
def nodeEntries : Option RouteArray → List Route
  | some array => array.entries
  | none => []

/-- Add the routes of every node on the way down.  A character that is no digit makes the answer
0, but what was added stays. -/
def routeTrieNodeFind : RouteTrieNode → List Char → RouteArray → RouteArray × ℕ
  | .null, _, array => (array, array.size)
  | .node child stored, key, array =>
      let array := (nodeEntries stored).foldl routeArrayAdd array
      match key with
      | [] => (array, array.size)
      | c :: rest =>
          match digit? c with
          | some i => routeTrieNodeFind (child i) rest array
          | none => (array, 0)

/-- Count the routes of every node on the way down; a character that is no digit makes it 0. -/
def routeTrieNodeFindCount : RouteTrieNode → List Char → ℕ → ℕ
  | .null, _, count => count
  | .node child stored, key, count =>
      let count := count + (nodeEntries stored).length
      match key with
      | [] => count
      | c :: rest =>
          match digit? c with
          | some i => routeTrieNodeFindCount (child i) rest count
          | none => 0

/-! ## Tries -/

structure RouteTrie where
  maxRoutes : ℕ
  root : RouteTrieNode

/-- The argument is a `route_size_t`. -/
def routeTrieCreate (maxRoutes : ℕ) : RouteTrie :=
  { maxRoutes := maxRoutes % 256, root := routeTrieNodeCreate }

/-- The arguments of one call of `route_trie_add`. -/
structure RouteCall where
  digits : List Char
  cost : RouteCost
  value : RouteValue
  type : RouteType

def RouteCall.route (call : RouteCall) : Route := ⟨call.cost, call.value, call.type⟩

def routeTrieAdd (trie : RouteTrie) (call : RouteCall) : RouteTrie × ℕ :=
  let result := routeTrieNodeAdd trie.maxRoutes call.route trie.root call.digits
  ({ trie with root := result.1 }, result.2)

def routeTrieFind (trie : RouteTrie) (key : List Char) (array : RouteArray) : RouteArray × ℕ :=
  routeTrieNodeFind trie.root key array

def routeTrieFindCount (trie : RouteTrie) (key : List Char) : ℕ :=
  routeTrieNodeFindCount trie.root key 0

/-- The trie after a history of calls, accepted or not. -/
def loadRoutes (maxRoutes : ℕ) (calls : List RouteCall) : RouteTrie :=
  calls.foldl (fun trie call => (routeTrieAdd trie call).1) (routeTrieCreate maxRoutes)

/-! ## Digits -/

lemma digit?_isSome_iff (c : Char) : (digit? c).isSome ↔ c.isDigit = true := by
  have h0 : '0'.toNat = 48 := rfl
  simp only [digit?, h0, Char.isDigit, ge_iff_le, Bool.and_eq_true, decide_eq_true_eq,
    UInt32.le_iff_toNat_le]
  change _ ↔ (48 ≤ c.toNat ∧ c.toNat ≤ 57)
  split_ifs <;> simp <;> omega

lemma digit?_eq_none_iff (c : Char) : digit? c = none ↔ c.isDigit = false := by
  rw [← Option.not_isSome_iff_eq_none, digit?_isSome_iff, Bool.not_eq_true]

/-- Two digits with one index are the same character. -/
lemma digit?_inj {c d : Char} {i : Fin 10} (hc : digit? c = some i) (hd : digit? d = some i) :
    c = d := by
  simp only [digit?, Option.dite_none_right_eq_some, Option.some.injEq] at hc hd
  obtain ⟨hc, rfl⟩ := hc
  obtain ⟨hd, heq⟩ := hd
  simp only [Fin.mk.injEq] at heq
  apply Char.toNat_inj.mp
  omega

/-! ## The map from digit strings to arrays -/

/-- The array stored for a string, if any. -/
def arrayAt : RouteTrieNode → List Char → Option RouteArray
  | .null, _ => none
  | .node _ array, [] => array
  | .node child _, c :: rest =>
      match digit? c with
      | some i => arrayAt (child i) rest
      | none => none

lemma arrayAt_null (p : List Char) : arrayAt .null p = none := by
  cases p <;> rfl

lemma arrayAt_create (p : List Char) : arrayAt routeTrieNodeCreate p = none := by
  cases p with
  | nil => rfl
  | cons c rest =>
      rw [routeTrieNodeCreate, arrayAt]
      split
      · exact arrayAt_null rest
      · rfl

lemma arrayAt_cons_of_digit {child : Fin 10 → RouteTrieNode} {array : Option RouteArray} {c : Char}
    {i : Fin 10} (hc : digit? c = some i) (rest : List Char) :
    arrayAt (.node child array) (c :: rest) = arrayAt (child i) rest := by
  rw [arrayAt, hc]

/-- The child an insertion goes on with stores what the child did. -/
lemma arrayAt_next (n : RouteTrieNode) (p : List Char) :
    arrayAt (match n with | .null => routeTrieNodeCreate | n => n) p = arrayAt n p := by
  cases n with
  | null => rw [arrayAt_create, arrayAt_null]
  | node child array => rfl

/-- **One insertion.**  It answers 1 exactly when the string is all digits, and then only the
array of that string changes; otherwise no array does. -/
theorem arrayAt_routeTrieNodeAdd (maxRoutes : ℕ) (route : Route) :
    ∀ (p : List Char) (n : RouteTrieNode), n ≠ .null →
      (routeTrieNodeAdd maxRoutes route n p).1 ≠ .null ∧
      ((routeTrieNodeAdd maxRoutes route n p).2 = 1 ↔ p.all Char.isDigit = true) ∧
      ∀ q, arrayAt (routeTrieNodeAdd maxRoutes route n p).1 q
        = if p.all Char.isDigit = true ∧ q = p then
            some (routeArrayAdd ((arrayAt n p).getD (routeArrayCreate maxRoutes)) route)
          else arrayAt n q
  | _, .null, h => absurd rfl h
  | [], .node child array, _ => by
      refine ⟨by simp [routeTrieNodeAdd], by simp [routeTrieNodeAdd], fun q => ?_⟩
      cases q with
      | nil => simp [routeTrieNodeAdd, arrayAt]
      | cons d rest => simp [routeTrieNodeAdd, arrayAt]
  | c :: rest, .node child array, _ => by
      cases hc : digit? c with
      | none =>
          have hd := (digit?_eq_none_iff c).mp hc
          simp [routeTrieNodeAdd, hc, hd]
      | some i =>
          have hd : c.isDigit = true := (digit?_isSome_iff c).mp (by rw [hc]; rfl)
          set next := (match child i with | .null => routeTrieNodeCreate | n => n) with hnext
          have hne : next ≠ .null := by
            rw [hnext]
            cases child i <;> simp [routeTrieNodeCreate]
          obtain ⟨-, hret, harr⟩ := arrayAt_routeTrieNodeAdd maxRoutes route rest next hne
          have hstep : routeTrieNodeAdd maxRoutes route (.node child array) (c :: rest)
              = (.node (Function.update child i (routeTrieNodeAdd maxRoutes route next rest).1)
                  array, (routeTrieNodeAdd maxRoutes route next rest).2) := by
            rw [routeTrieNodeAdd, hc]
          rw [hstep]
          refine ⟨by simp, by rw [hret, List.all_cons, hd, Bool.true_and], fun q => ?_⟩
          cases q with
          | nil => simp [arrayAt]
          | cons d tail =>
              cases hdq : digit? d with
              | none =>
                  have hne : d ≠ c := by
                    rintro rfl
                    rw [hc] at hdq
                    cases hdq
                  simp [arrayAt, hdq, hne]
              | some j =>
                  rw [arrayAt_cons_of_digit hdq, arrayAt_cons_of_digit hdq,
                    arrayAt_cons_of_digit hc, List.all_cons, hd, Bool.true_and]
                  by_cases hij : j = i
                  · -- the child the insertion went into
                    have hdc : d = c := digit?_inj (hij ▸ hdq) hc
                    rw [hij, Function.update_self, harr, hnext, arrayAt_next, arrayAt_next, hdc]
                    simp
                  · have hdc : d ≠ c := by
                      rintro rfl
                      exact hij (by rw [hc] at hdq; exact (Option.some.inj hdq).symm)
                    rw [Function.update_of_ne hij]
                    simp [hdc]

/-- The nodes a lookup passes: the entries of the arrays of all prefixes of the key's leading
digits, the shortest prefix first. -/
def pathEntries (n : RouteTrieNode) (key : List Char) : List Route :=
  (key.takeWhile Char.isDigit).inits.flatMap fun p => nodeEntries (arrayAt n p)

lemma pathEntries_null (key : List Char) : pathEntries .null key = [] := by
  simp [pathEntries, arrayAt_null, nodeEntries]

lemma pathEntries_node_nil (child : Fin 10 → RouteTrieNode) (array : Option RouteArray) :
    pathEntries (.node child array) [] = nodeEntries array := by
  simp [pathEntries, arrayAt]

lemma pathEntries_node_cons_of_none (child : Fin 10 → RouteTrieNode) (array : Option RouteArray)
    {c : Char} (hc : digit? c = none) (rest : List Char) :
    pathEntries (.node child array) (c :: rest) = nodeEntries array := by
  simp [pathEntries, (digit?_eq_none_iff c).mp hc, arrayAt]

lemma pathEntries_node_cons_of_some (child : Fin 10 → RouteTrieNode) (array : Option RouteArray)
    {c : Char} {i : Fin 10} (hc : digit? c = some i) (rest : List Char) :
    pathEntries (.node child array) (c :: rest)
      = nodeEntries array ++ pathEntries (child i) rest := by
  have hd : c.isDigit = true := (digit?_isSome_iff c).mp (by rw [hc]; rfl)
  rw [pathEntries, List.takeWhile_cons, if_pos hd, List.inits_cons, List.flatMap_cons,
    List.flatMap_map, pathEntries]
  congr 1
  refine List.flatMap_congr fun p _ => ?_
  rw [arrayAt_cons_of_digit hc]

/-- **One lookup** adds the entries of the nodes it passes. -/
theorem routeTrieNodeFind_eq : ∀ (key : List Char) (n : RouteTrieNode) (array : RouteArray),
    (routeTrieNodeFind n key array).1 = (pathEntries n key).foldl routeArrayAdd array
  | key, .null, array => by
      rw [pathEntries_null]
      cases key <;> rfl
  | [], .node child stored, array => by
      rw [pathEntries_node_nil]
      rfl
  | c :: rest, .node child stored, array => by
      cases hc : digit? c with
      | none =>
          rw [pathEntries_node_cons_of_none child stored hc, routeTrieNodeFind]
          simp only [hc]
      | some i =>
          rw [pathEntries_node_cons_of_some child stored hc, List.foldl_append,
            ← routeTrieNodeFind_eq rest (child i), routeTrieNodeFind]
          simp only [hc]

/-- Whether the walk meets a character that is no digit. -/
def badInput : RouteTrieNode → List Char → Bool
  | .null, _ => false
  | .node _ _, [] => false
  | .node child _, c :: rest =>
      match digit? c with
      | some i => badInput (child i) rest
      | none => true

lemma badInput_of_digits : ∀ {key : List Char} {n : RouteTrieNode},
    key.all Char.isDigit = true → badInput n key = false
  | key, .null, _ => by
      cases key <;> rfl
  | [], .node child stored, _ => rfl
  | c :: rest, .node child stored, hkey => by
      rw [List.all_cons, Bool.and_eq_true] at hkey
      obtain ⟨i, hi⟩ := Option.isSome_iff_exists.mp ((digit?_isSome_iff c).mpr hkey.1)
      simp only [badInput, hi]
      exact badInput_of_digits hkey.2

/-- A lookup answers the size of the array, unless it meets a character that is no digit. -/
lemma routeTrieNodeFind_snd : ∀ (key : List Char) (n : RouteTrieNode) (array : RouteArray),
    (routeTrieNodeFind n key array).2
      = if badInput n key then 0 else (routeTrieNodeFind n key array).1.size
  | key, .null, array => by
      cases key <;> rfl
  | [], .node child stored, array => rfl
  | c :: rest, .node child stored, array => by
      cases hc : digit? c with
      | none => simp [routeTrieNodeFind, badInput, hc]
      | some i =>
          simp only [routeTrieNodeFind, badInput, hc]
          exact routeTrieNodeFind_snd rest (child i) _

/-! ## Histories -/

/-- The routes added for exactly this string, in the order of the calls. -/
def routesAt (calls : List RouteCall) (p : List Char) : List Route :=
  (calls.filter fun call => decide (call.digits = p)).map RouteCall.route

/-- The array a history makes of the routes added for exactly this string. -/
def arrayOf (maxRoutes : ℕ) (calls : List RouteCall) (p : List Char) : RouteArray :=
  (routesAt calls p).foldl routeArrayAdd (routeArrayCreate maxRoutes)

lemma routeArrayCreate_mod (maxRoutes : ℕ) :
    routeArrayCreate (maxRoutes % 256) = routeArrayCreate maxRoutes := by
  ext <;> simp [routeArrayCreate]

lemma loadRoutes_append_singleton (maxRoutes : ℕ) (calls : List RouteCall) (call : RouteCall) :
    loadRoutes maxRoutes (calls ++ [call]) = (routeTrieAdd (loadRoutes maxRoutes calls) call).1 := by
  rw [loadRoutes, List.foldl_append]
  rfl

lemma routesAt_append_singleton (calls : List RouteCall) (call : RouteCall) (p : List Char) :
    routesAt (calls ++ [call]) p
      = routesAt calls p ++ if call.digits = p then [call.route] else [] := by
  rw [routesAt, List.filter_append, List.map_append, routesAt]
  congr 1
  by_cases h : call.digits = p <;> simp [h]

lemma arrayOf_append_singleton (maxRoutes : ℕ) (calls : List RouteCall) (call : RouteCall)
    (p : List Char) : arrayOf maxRoutes (calls ++ [call]) p
      = if call.digits = p then routeArrayAdd (arrayOf maxRoutes calls p) call.route
        else arrayOf maxRoutes calls p := by
  rw [arrayOf, routesAt_append_singleton]
  split_ifs
  · rw [List.foldl_append]
    rfl
  · rw [List.append_nil]
    rfl

/-- **The abstraction relation, after any history**: the trie stores for a digit string the array
of the routes added for it, and nothing where no route was added. -/
theorem arrayAt_loadRoutes (maxRoutes : ℕ) (calls : List RouteCall) :
    (loadRoutes maxRoutes calls).maxRoutes = maxRoutes % 256 ∧
      (loadRoutes maxRoutes calls).root ≠ .null ∧
      ∀ p, p.all Char.isDigit = true → arrayAt (loadRoutes maxRoutes calls).root p
        = if routesAt calls p = [] then none else some (arrayOf maxRoutes calls p) := by
  induction calls using List.reverseRecOn with
  | nil =>
      refine ⟨rfl, by simp [loadRoutes, routeTrieCreate, routeTrieNodeCreate], fun p _ => ?_⟩
      simpa [loadRoutes, routeTrieCreate, routesAt] using arrayAt_create p
  | append_singleton calls call ih =>
      obtain ⟨hmax, hroot, harr⟩ := ih
      obtain ⟨hroot', -, harr'⟩ := arrayAt_routeTrieNodeAdd (loadRoutes maxRoutes calls).maxRoutes
        call.route call.digits (loadRoutes maxRoutes calls).root hroot
      rw [loadRoutes_append_singleton]
      refine ⟨hmax, hroot', fun p hp => ?_⟩
      change arrayAt (routeTrieNodeAdd _ _ _ _).1 p = _
      rw [harr', routesAt_append_singleton, arrayOf_append_singleton]
      by_cases hpc : call.digits = p
      · rw [if_pos ⟨hpc ▸ hp, hpc.symm⟩, if_pos hpc, if_pos hpc, if_neg (by simp), hpc, harr p hp,
          hmax, routeArrayCreate_mod]
        split_ifs with hnil
        · simp [arrayOf, hnil]
        · rfl
      · rw [if_neg (fun h => hpc h.2.symm), if_neg hpc, if_neg hpc, List.append_nil, harr p hp]

/-- A string no route was added for is read as an empty array. -/
lemma nodeEntries_arrayAt (maxRoutes : ℕ) (calls : List RouteCall) {p : List Char}
    (hp : p.all Char.isDigit = true) :
    nodeEntries (arrayAt (loadRoutes maxRoutes calls).root p)
      = (arrayOf maxRoutes calls p).entries := by
  rw [(arrayAt_loadRoutes maxRoutes calls).2.2 p hp]
  split_ifs with hnil
  · rw [arrayOf, hnil]
    simp [nodeEntries, RouteArray.entries, routeArrayCreate]
  · rfl

/-- The entries of the arrays of all prefixes of the key's leading digits. -/
def entriesAlong (maxRoutes : ℕ) (calls : List RouteCall) (key : List Char) : List Route :=
  (key.takeWhile Char.isDigit).inits.flatMap fun p => (arrayOf maxRoutes calls p).entries

lemma pathEntries_loadRoutes (maxRoutes : ℕ) (calls : List RouteCall) (key : List Char) :
    pathEntries (loadRoutes maxRoutes calls).root key = entriesAlong maxRoutes calls key := by
  refine List.flatMap_congr fun p hp => nodeEntries_arrayAt maxRoutes calls ?_
  rw [List.all_eq_true]
  intro c hc
  have hsub := (List.mem_inits _ _).mp hp
  exact List.mem_takeWhile_imp (hsub.subset hc)

/-- **The trie refines a finite map from digit strings to arrays.**  After any history of calls a
lookup folds the entries of the per-string arrays of the prefixes of the key's leading digits,
shortest first, into the array it is given; and the next call, whatever it is, answers 1 exactly
when its string is made of digits only. -/
theorem routeTrieFind_refines (maxRoutes : ℕ) (calls : List RouteCall) (key : List Char)
    (array : RouteArray) (next : RouteCall) :
    (routeTrieFind (loadRoutes maxRoutes calls) key array).1
        = ((key.takeWhile Char.isDigit).inits.flatMap fun p =>
            ((routesAt calls p).foldl routeArrayAdd (routeArrayCreate maxRoutes)).entries).foldl
          routeArrayAdd array ∧
      ((routeTrieAdd (loadRoutes maxRoutes calls) next).2 = 1
        ↔ next.digits.all Char.isDigit = true) := by
  constructor
  · rw [routeTrieFind, routeTrieNodeFind_eq, pathEntries_loadRoutes]
    rfl
  · have hroot := (arrayAt_loadRoutes maxRoutes calls).2.1
    exact (arrayAt_routeTrieNodeAdd _ next.route next.digits _ hroot).2.1

end FreeswitchContrib.SimpleLcr

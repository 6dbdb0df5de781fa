import FreeswitchContrib.SimpleLcr.AreaIds
import FreeswitchContrib.SimpleLcr.ConfigCompleteness

/-!
# Looking up the area of a number

The area map keeps one route for each prefix, all of them with the cost 0.  A route that costs as
much as the one an array of one holds finds no place in it, so the first row of a prefix stays, and
on the way down the number the first prefix stays: the shortest one.  Only the number 0, which the
counter of a file reaches after 65535 areas, gives way, since a slot of value 0 counts as unused.

* `entries_foldl_add`: an array of one keeps the first ID that is not 0;
* `badInput_iff`: where a lookup meets a character that is no digit;
* `lcrFindArea_shortest`: the area of a number.
-/

namespace FreeswitchContrib.SimpleLcr

variable {core : Core} {files : Files} {lcr : Lcr} {calls : List RouteCall} {trie : RouteTrie}
  {names : List (List Char)} {rows : List AreaRow} {number p q : List Char} {n : RouteTrieNode}
  {m : ℕ}

/-! ## An array of one -/

/-- An array with one entry and no other slot. -/
def single (id : RouteValue) : RouteArray where
  maxSize := 1
  size := 1
  route := [⟨0, id, 0⟩]
  length_route := rfl
  size_le := le_rfl

/-- What a route of cost 0 makes of the slot of an array of one, when it is placed there. -/
lemma pushDown_one (id : RouteValue) (slot : Route) :
    pushDown ⟨0, id, 0⟩ [slot] = if id = 0 then [slot] else [⟨0, id, 0⟩] := by
  rw [pushDown]
  rfl

lemma add_create (id : RouteValue) : routeArrayAdd (routeArrayCreate 1) ⟨0, id, 0⟩ = single id := by
  have hadd : routeArrayAdd (routeArrayCreate 1) ⟨0, id, 0⟩
      = insertByCost (routeArrayCreate 1) ⟨0, id, 0⟩ := rfl
  have hroute : (insertByCost (routeArrayCreate 1) ⟨0, id, 0⟩).route
      = pushDown ⟨0, id, 0⟩ [Route.zero] := rfl
  rw [hadd]
  apply RouteArray.ext
  · rfl
  · rfl
  · rw [hroute, pushDown_one]
    split_ifs with hid
    · rw [hid]
      rfl
    · rfl

/-- A slot of value 0 gives way, any other one stays. -/
lemma add_single (id id' : RouteValue) : routeArrayAdd (single id) ⟨0, id', 0⟩
    = single (if id = 0 then id' else id) := by
  have hfind : routeArrayFindByValueAndType (single id) id' 0 = if id = id' then 0 else 1 := by
    by_cases hid : id = id' <;>
      simp [routeArrayFindByValueAndType, RouteArray.entries, single, hid]
  have hcost : routeArrayFindByCost (single id) 0 = if id = 0 then 0 else 1 := by
    by_cases hid : id = 0 <;> simp [routeArrayFindByCost, single, hid]
  by_cases hsame : id = id'
  · -- the same ID again: the route is taken out and its slot keeps it
    subst hsame
    have hcost' : routeArrayFindByCost (routeArrayRemove (single id) 0) 0
        = if id = 0 then 0 else 1 := hcost
    rw [if_pos rfl] at hfind
    rw [routeArrayAdd]
    simp only [hfind]
    rw [if_pos (show 0 ≠ (single id).maxSize from Nat.zero_ne_one),
      if_neg (show ¬((single id).route.getD 0 Route.zero).cost < 0 from lt_irrefl _)]
    apply RouteArray.ext
    · rfl
    · rfl
    · simp only [insertByCost, hcost']
      by_cases hid : id = 0
      · rw [if_pos hid]
        show pushDown ⟨0, id, 0⟩ [⟨0, id, 0⟩] = _
        rw [pushDown_one, if_pos hid, if_pos hid]
        rfl
      · rw [if_neg hid, if_neg hid]
        rfl
  · rw [if_neg hsame] at hfind
    rw [routeArrayAdd]
    simp only [hfind]
    rw [if_neg (show ¬1 ≠ (single id).maxSize from not_not.mpr rfl)]
    apply RouteArray.ext
    · rfl
    · rfl
    · simp only [insertByCost, hcost]
      by_cases hid : id = 0
      · rw [if_pos hid, if_pos hid]
        show pushDown ⟨0, id', 0⟩ [⟨0, id, 0⟩] = _
        rw [pushDown_one, if_neg (fun h => hsame (hid.trans h.symm))]
        rfl
      · rw [if_neg hid, if_neg hid]
        rfl

/-- The ID that an array of one keeps: the first that is not 0, if there is one. -/
def firstId (ids : List RouteValue) : Option RouteValue :=
  (ids.find? fun id => decide (id ≠ 0)).or (if ids = [] then none else some 0)

/-- **An array of one** after routes with these IDs. -/
theorem foldl_add_create (ids : List RouteValue) :
    (ids.map fun id => ⟨0, id, 0⟩).foldl routeArrayAdd (routeArrayCreate 1)
      = match firstId ids with
        | some id => single id
        | none => routeArrayCreate 1 := by
  have hrest : ∀ (ids : List RouteValue) (id : RouteValue),
      (ids.map fun id => ⟨0, id, 0⟩).foldl routeArrayAdd (single id)
        = single (((id :: ids).find? fun id => decide (id ≠ 0)).getD 0) := by
    intro ids
    induction ids with
    | nil =>
      intro id
      by_cases hid : id = 0 <;> simp [hid]
    | cons id' ids ih =>
      intro id
      rw [List.map_cons, List.foldl_cons, add_single, ih]
      by_cases hid : id = 0 <;> simp [hid]
  cases ids with
  | nil => rfl
  | cons id ids =>
    rw [List.map_cons, List.foldl_cons, add_create, hrest, firstId]
    cases (id :: ids).find? fun id => decide (id ≠ 0) <;> rfl

lemma firstId_eq_none_iff {ids : List RouteValue} : firstId ids = none ↔ ids = [] := by
  rw [firstId, Option.or_eq_none_iff]
  constructor
  · rintro ⟨-, h⟩
    split_ifs at h with hnil
    exact hnil
  · rintro rfl
    exact ⟨rfl, rfl⟩

lemma find?_firstId (ids : List RouteValue) :
    (firstId ids).toList.find? (fun id => decide (id ≠ 0)) = ids.find? fun id => decide (id ≠ 0) := by
  rw [firstId]
  cases h : ids.find? fun id => decide (id ≠ 0) with
  | none => split_ifs <;> rfl
  | some id =>
    have hid : id ≠ 0 := by simpa using List.find?_some h
    simp [hid]

/-- Of several lists it is enough to know the first ID of each. -/
lemma firstId_flatMap {α : Type} (f : α → List RouteValue) (xs : List α) :
    firstId (xs.flatMap fun x => (firstId (f x)).toList) = firstId (xs.flatMap f) := by
  have hnil : (xs.flatMap fun x => (firstId (f x)).toList) = [] ↔ xs.flatMap f = [] := by
    simp only [List.flatMap_eq_nil_iff, Option.toList_eq_nil_iff, firstId_eq_none_iff]
  rw [firstId, firstId, List.find?_flatMap, List.find?_flatMap]
  simp only [find?_firstId, hnil]

/-! ## What a lookup finds -/

/-- The rows that a number meets: those of its shortest prefix first. -/
def rowsAlong (rows : List AreaRow) (number : List Char) : List AreaRow :=
  (number.takeWhile Char.isDigit).inits.flatMap fun p =>
    rows.filter fun row => decide (row.digits = p)

lemma routesAt_rows (rows : List AreaRow) (p : List Char) :
    routesAt (rows.map AreaRow.call) p
      = ((rows.filter fun row => decide (row.digits = p)).map AreaRow.id).map
          fun id => ⟨0, id, 0⟩ := by
  rw [routesAt, List.filter_map, List.map_map, List.map_map]
  rfl

lemma entries_arrayOf_rows (rows : List AreaRow) (p : List Char) :
    (arrayOf 1 (rows.map AreaRow.call) p).entries
      = (firstId ((rows.filter fun row => decide (row.digits = p)).map AreaRow.id)).toList.map
          fun id => ⟨0, id, 0⟩ := by
  rw [arrayOf, routesAt_rows, foldl_add_create]
  cases firstId ((rows.filter fun row => decide (row.digits = p)).map AreaRow.id) <;> rfl

/-- **The lookup** in the map that these rows make. -/
theorem routeTrieFind_rows (rows : List AreaRow) (number : List Char) :
    (routeTrieFind (loadRoutes 1 (rows.map AreaRow.call)) number (routeArrayCreate 1)).1
      = match firstId ((rowsAlong rows number).map AreaRow.id) with
        | some id => single id
        | none => routeArrayCreate 1 := by
  rw [routeTrieFind, routeTrieNodeFind_eq, pathEntries_loadRoutes, entriesAlong]
  simp only [entries_arrayOf_rows]
  rw [← List.map_flatMap, foldl_add_create, firstId_flatMap, rowsAlong, List.map_flatMap]

/-- Whether there is a node for a string. -/
def hasNode : RouteTrieNode → List Char → Bool
  | .null, _ => false
  | .node _ _, [] => true
  | .node child _, c :: rest =>
      match digit? c with
      | some i => hasNode (child i) rest
      | none => false

lemma hasNode_null (q : List Char) : hasNode .null q = false := by
  cases q <;> rfl

lemma hasNode_create (q : List Char) : hasNode routeTrieNodeCreate q = true ↔ q = [] := by
  cases q with
  | nil => simp [routeTrieNodeCreate, hasNode]
  | cons c rest =>
    rw [routeTrieNodeCreate, hasNode]
    cases digit? c <;> simp [hasNode_null]

/-- A lookup meets a character that is no digit when the digits before it lead to a node. -/
theorem badInput_iff : ∀ {key : List Char} {n : RouteTrieNode}, badInput n key = true ↔
    ∃ p c rest, key = p ++ c :: rest ∧ c.isDigit = false ∧ hasNode n p = true
  | key, .null => by
    simp only [hasNode_null]
    cases key <;> simp [badInput]
  | [], .node child array => by simp [badInput]
  | c :: rest, .node child array => by
    cases hc : digit? c with
    | none =>
      simp only [badInput, hc, true_iff]
      exact ⟨[], c, rest, rfl, (digit?_eq_none_iff c).mp hc, rfl⟩
    | some i =>
      have hdigit : c.isDigit = true := (digit?_isSome_iff c).mp (by rw [hc]; rfl)
      have ih : badInput (child i) rest = true ↔ _ := badInput_iff
      simp only [badInput, hc, ih]
      constructor
      · rintro ⟨p, d, tail, rfl, hd, hnode⟩
        exact ⟨c :: p, d, tail, rfl, hd, by simpa only [hasNode, hc] using hnode⟩
      · rintro ⟨p, d, tail, heq, hd, hnode⟩
        cases p with
        | nil =>
          obtain ⟨rfl, -⟩ := List.cons.inj heq
          rw [hdigit] at hd
          cases hd
        | cons e p =>
          obtain ⟨rfl, rfl⟩ := List.cons.inj heq
          exact ⟨p, d, tail, rfl, hd, by simpa only [hasNode, hc] using hnode⟩

/-- Behind a digit the walk goes on with its child, which is made where there is none. -/
lemma routeTrieNodeAdd_digit (m : ℕ) (route : Route) {c : Char} {i : Fin 10}
    (child : Fin 10 → RouteTrieNode) (array : Option RouteArray) (rest : List Char)
    (hc : digit? c = some i) : ∃ next,
      (child i = .null → next = routeTrieNodeCreate) ∧ (child i ≠ .null → next = child i) ∧
      routeTrieNodeAdd m route (.node child array) (c :: rest)
        = (.node (Function.update child i (routeTrieNodeAdd m route next rest).1) array,
          (routeTrieNodeAdd m route next rest).2) := by
  cases hchild : child i with
  | null =>
    refine ⟨routeTrieNodeCreate, fun _ => rfl, fun h => absurd rfl h, ?_⟩
    simp only [routeTrieNodeAdd, hc, hchild]
  | node child' array' =>
    refine ⟨.node child' array', (fun h => by cases h), fun _ => rfl, ?_⟩
    simp only [routeTrieNodeAdd, hc, hchild]

/-- **One insertion** makes the nodes on the way down the leading digits. -/
theorem hasNode_routeTrieNodeAdd (m : ℕ) (route : Route) : ∀ (p : List Char) (n : RouteTrieNode),
    n ≠ .null → ∀ q, hasNode (routeTrieNodeAdd m route n p).1 q = true
      ↔ hasNode n q = true ∨ q <+: p.takeWhile Char.isDigit
  | _, .null, h => absurd rfl h
  | [], .node child array, _ => fun q => by
    cases q with
    | nil => simp [routeTrieNodeAdd, hasNode]
    | cons d rest => simp [routeTrieNodeAdd, hasNode]
  | c :: rest, .node child array, _ => fun q => by
    cases hc : digit? c with
    | none =>
      have hdigit := (digit?_eq_none_iff c).mp hc
      rw [List.takeWhile_cons, hdigit]
      cases q with
      | nil => simp [routeTrieNodeAdd, hc, hasNode]
      | cons d tail => simp [routeTrieNodeAdd, hc]
    | some i =>
      have hdigit : c.isDigit = true := (digit?_isSome_iff c).mp (by rw [hc]; rfl)
      obtain ⟨next, hmade, hkept, hstep⟩ := routeTrieNodeAdd_digit m route child array rest hc
      have hne : next ≠ .null := by
        by_cases hnull : child i = .null
        · rw [hmade hnull, routeTrieNodeCreate]
          exact fun h => by cases h
        · rwa [hkept hnull]
      have ih := hasNode_routeTrieNodeAdd m route rest next hne
      rw [hstep, List.takeWhile_cons, if_pos hdigit]
      cases q with
      | nil => simp [hasNode]
      | cons d tail =>
        cases hd : digit? d with
        | none =>
          have hdc : d ≠ c := by
            rintro rfl
            rw [hc] at hd
            cases hd
          simp [hasNode, hd, List.cons_prefix_cons, hdc]
        | some j =>
          simp only [hasNode, hd, List.cons_prefix_cons]
          by_cases hij : j = i
          · have hdc : d = c := digit?_inj (hij ▸ hd) hc
            -- a child that was made for the walk has its own node only
            have hold : hasNode next tail = true ↔ hasNode (child i) tail = true ∨ tail = [] := by
              cases hchild : child i with
              | null => simp [hmade hchild, hasNode_create, hasNode_null]
              | node child' array' =>
                rw [hkept (by rw [hchild]; exact fun h => by cases h), hchild]
                constructor
                · exact Or.inl
                · rintro (h | rfl)
                  · exact h
                  · rfl
            rw [hij, Function.update_self, ih, hold]
            constructor
            · rintro ((h | rfl) | h)
              · exact Or.inl h
              · exact Or.inr ⟨hdc, List.nil_prefix⟩
              · exact Or.inr ⟨hdc, h⟩
            · rintro (h | ⟨-, h⟩)
              · exact Or.inl (Or.inl h)
              · exact Or.inr h
          · have hdc : d ≠ c := by
              rintro rfl
              exact hij (by rw [hc] at hd; exact (Option.some.inj hd).symm)
            rw [Function.update_of_ne hij]
            simp [hdc]

/-- **The nodes of a map**: the root, and those on the way down the leading digits of a call. -/
theorem hasNode_loadRoutes (calls : List RouteCall) : hasNode (loadRoutes m calls).root q = true ↔
    q = [] ∨ ∃ call ∈ calls, q <+: call.digits.takeWhile Char.isDigit := by
  induction calls using List.reverseRecOn with
  | nil => simp [loadRoutes, routeTrieCreate, hasNode_create]
  | append_singleton calls call ih =>
    rw [loadRoutes_append_singleton]
    have hroot := (arrayAt_loadRoutes m calls).2.1
    have hstep := hasNode_routeTrieNodeAdd (loadRoutes m calls).maxRoutes call.route call.digits
      (loadRoutes m calls).root hroot q
    rw [ih] at hstep
    rw [routeTrieAdd]
    refine hstep.trans ?_
    simp only [List.mem_append, List.mem_singleton, or_and_right, exists_or, exists_eq_left,
      or_assoc]

/-! ## Accepted rows -/

lemma routeTrieNodeAdd_snd_le (m : ℕ) (route : Route) : ∀ (p : List Char) (n : RouteTrieNode),
    (routeTrieNodeAdd m route n p).2 ≤ 1
  | p, .null => by
    cases p <;> exact Nat.zero_le 1
  | [], .node child array => le_rfl
  | c :: rest, .node child array => by
    rw [routeTrieNodeAdd]
    cases digit? c with
    | none => exact Nat.zero_le 1
    | some i => exact routeTrieNodeAdd_snd_le m route rest _

/-- What is not reported as bad input has digits only. -/
lemma digits_of_addRoute {call : RouteCall} (h : addRoute (loadRoutes m calls) call = some trie) :
    call.digits.all Char.isDigit = true := by
  have hroot := (arrayAt_loadRoutes m calls).2.1
  have hle := routeTrieNodeAdd_snd_le (loadRoutes m calls).maxRoutes call.route call.digits
    (loadRoutes m calls).root
  rw [addRoute] at h
  split_ifs at h with hzero
  exact (arrayAt_routeTrieNodeAdd _ call.route call.digits _ hroot).2.1.mp
    (Nat.le_antisymm hle (Nat.pos_of_ne_zero hzero))

lemma digits_of_loadAreaLines : ∀ {lines : List (List Char)} {table : List (List Char)}
    {areas areas' : AreaMap} {calls : List RouteCall}, Numbered table areas →
    areas.trie = loadRoutes 1 calls → lines.foldlM (loadAreaLine core) areas = some areas' →
    ∀ line ∈ lines, (lineDigits core line).all Char.isDigit = true
  | [], _, _, _, _, _, _, _ => by simp
  | line :: lines, table, areas, areas', calls, hnum, htrie, hload => by
    rw [List.foldlM_cons, Option.bind_eq_bind, Option.bind_eq_some_iff] at hload
    obtain ⟨areas₁, hline, hrest⟩ := hload
    obtain ⟨hnum₁, htrie₁⟩ := loadAreaLine_numbered hnum htrie hline
    have ih := digits_of_loadAreaLines hnum₁ htrie₁ hrest
    rw [loadAreaLine_eq, trie_noteArea, htrie] at hline
    split_ifs at hline
    obtain ⟨trie, hadd, -⟩ := Option.map_eq_some_iff.mp hline
    intro line' hmem
    rcases List.mem_cons.mp hmem with rfl | hmem
    · exact digits_of_addRoute hadd
    · exact ih line' hmem

/-- The rows of these area files. -/
def rowsOf (core : Core) (files : Files) (names : List (List Char)) : List AreaRow :=
  names.flatMap fun file => areaRows core (linesOf files file)

/-- **Area files** that are loaded one after the other. -/
theorem foldlM_loadAreaFile : ∀ {names : List (List Char)} {calls : List RouteCall},
    names.foldlM (loadAreaFile core files) (loadRoutes 1 calls) = some trie →
      trie = loadRoutes 1 (calls ++ (rowsOf core files names).map AreaRow.call) ∧
      ∀ row ∈ rowsOf core files names, row.digits.all Char.isDigit = true
  | [], calls, h => by
    obtain rfl := Option.some.inj h
    simp [rowsOf]
  | file :: names, calls, h => by
    rw [List.foldlM_cons, Option.bind_eq_bind, Option.bind_eq_some_iff] at h
    obtain ⟨trie₁, hfile, hrest⟩ := h
    obtain rfl := loadAreaFile_loadRoutes hfile
    obtain ⟨htrie, hdigits⟩ := foldlM_loadAreaFile hrest
    have hrows : rowsOf core files (file :: names)
        = areaRows core (linesOf files file) ++ rowsOf core files names := List.flatMap_cons
    rw [hrows]
    refine ⟨by rw [htrie, List.map_append, List.append_assoc], fun row hrow => ?_⟩
    rcases List.mem_append.mp hrow with hrow | hrow
    · obtain ⟨line, hline, rfl⟩ := List.mem_map.mp hrow
      rw [loadAreaFile, Option.bind_eq_some_iff] at hfile
      obtain ⟨content, hcontent, hfile⟩ := hfile
      obtain ⟨areas, hlines, -⟩ := Option.map_eq_some_iff.mp hfile
      rw [linesOf, hcontent] at hline
      exact digits_of_loadAreaLines (Numbered.create _) rfl hlines line hline
    · exact hdigits row hrow

/-! ## The area of a number -/

/-- The row that gives a number its area: of the rows with an ID that is not 0 whose prefix the
number begins with, the first of those with the shortest prefix. -/
def FirstShortest (rows : List AreaRow) (number : List Char) (row : AreaRow) : Prop :=
  ∃ earlier later, rows = earlier ++ row :: later ∧ row.digits <+: number ∧ row.id ≠ 0 ∧
    (∀ r ∈ earlier, r.digits <+: number → r.id ≠ 0 → row.digits.length < r.digits.length) ∧
    ∀ r ∈ later, r.digits <+: number → r.id ≠ 0 → row.digits.length ≤ r.digits.length

/-- A number without an area: it is empty, or begins with no prefix, or has a character that is no
digit after digits that a prefix begins with. -/
def NoArea (rows : List AreaRow) (number : List Char) : Prop :=
  number = [] ∨ (∀ row ∈ rows, ¬row.digits <+: number) ∨
    ∃ p c rest, number = p ++ c :: rest ∧ c.isDigit = false ∧
      (p = [] ∨ ∃ row ∈ rows, p <+: row.digits)

section

variable (hdigits : ∀ row ∈ rows, row.digits.all Char.isDigit = true)
include hdigits

lemma mem_inits_iff {row : AreaRow} (hrow : row ∈ rows) :
    row.digits ∈ (number.takeWhile Char.isDigit).inits ↔ row.digits <+: number := by
  rw [List.mem_inits]
  constructor
  · exact fun h => h.trans (List.takeWhile_prefix _)
  · rintro ⟨rest, rfl⟩
    rw [List.takeWhile_append_of_pos (List.all_eq_true.mp (hdigits row hrow))]
    exact List.prefix_append _ _

lemma mem_rowsAlong {row : AreaRow} :
    row ∈ rowsAlong rows number ↔ row ∈ rows ∧ row.digits <+: number := by
  simp only [rowsAlong, List.mem_flatMap, List.mem_filter, decide_eq_true_eq]
  constructor
  · rintro ⟨p, hp, hrow, rfl⟩
    exact ⟨hrow, (mem_inits_iff hdigits hrow).mp hp⟩
  · rintro ⟨hrow, hpre⟩
    exact ⟨_, (mem_inits_iff hdigits hrow).mpr hpre, hrow, rfl⟩

/-- The first row along the number is the one with the shortest prefix. -/
lemma firstShortest_of_find? {row : AreaRow}
    (h : (rowsAlong rows number).find? (fun r => decide (r.id ≠ 0)) = some row) :
    FirstShortest rows number row := by
  rw [rowsAlong, List.find?_flatMap, List.findSome?_eq_some_iff] at h
  obtain ⟨shorter, p, longer, hinits, hfind, hshorter⟩ := h
  rw [List.find?_filter, List.find?_eq_some_iff_append] at hfind
  obtain ⟨hrow, earlier, later, rfl, hearlier⟩ := hfind
  simp only [decide_eq_true_eq] at hrow
  obtain ⟨rfl, hid⟩ := hrow
  have hpairwise := pairwise_inits (number.takeWhile Char.isDigit)
  rw [hinits, List.pairwise_append, List.pairwise_cons] at hpairwise
  have hself : row ∈ earlier ++ row :: later := by simp
  have hpre : row.digits <+: number := (mem_inits_iff hdigits hself).mp (by rw [hinits]; simp)
  -- a row with an ID is met at the prefix of this row or further down
  have hdown : ∀ r ∈ earlier ++ row :: later, r.digits <+: number → r.id ≠ 0 →
      r.digits = row.digits ∨ row.digits.length < r.digits.length := by
    intro r hr hrpre hrid
    have hmem := (mem_inits_iff hdigits hr).mpr hrpre
    rw [hinits, List.mem_append, List.mem_cons] at hmem
    rcases hmem with hmem | heq | hmem
    · have hnone := hshorter _ hmem
      rw [List.find?_filter, List.find?_eq_none] at hnone
      exact absurd (by simp [hrid]) (hnone r hr)
    · exact Or.inl heq
    · obtain ⟨hle, hne⟩ := hpairwise.2.1.1 _ hmem
      exact Or.inr (lt_of_le_of_ne hle.length_le fun hlen => hne (hle.eq_of_length hlen))
  refine ⟨earlier, later, rfl, hpre, hid, fun r hr hrpre hrid => ?_, fun r hr hrpre hrid => ?_⟩
  · rcases hdown r (List.mem_append_left _ hr) hrpre hrid with heq | hlt
    · have hnot := hearlier r hr
      simp [heq, hrid] at hnot
    · exact hlt
  · rcases hdown r (by simp [hr]) hrpre hrid with heq | hlt
    · rw [heq]
    · exact hlt.le

lemma badInput_rows : badInput (loadRoutes 1 (rows.map AreaRow.call)).root number = true ↔
    ∃ p c rest, number = p ++ c :: rest ∧ c.isDigit = false ∧
      (p = [] ∨ ∃ row ∈ rows, p <+: row.digits) := by
  have hnode : ∀ p, hasNode (loadRoutes 1 (rows.map AreaRow.call)).root p = true ↔
      p = [] ∨ ∃ row ∈ rows, p <+: row.digits := by
    intro p
    rw [hasNode_loadRoutes]
    refine or_congr_right ?_
    simp only [List.mem_map, exists_exists_and_eq_and]
    refine exists_congr fun row => and_congr_right fun hrow => ?_
    rw [show row.call.digits = row.digits from rfl, takeWhile_digits (hdigits row hrow)]
  simp only [badInput_iff, hnode]

end

/-- What `lcr_find_area` returns, from the IDs along the number. -/
lemma lcrFindArea_eq (hareas : lcr.areas = loadRoutes 1 (rows.map AreaRow.call)) :
    lcrFindArea lcr number = if number = [] ∨
        badInput (loadRoutes 1 (rows.map AreaRow.call)).root number = true then -1
      else match firstId ((rowsAlong rows number).map AreaRow.id) with
        | some id => (id.val : ℤ)
        | none => -1 := by
  have hfind := routeTrieFind_rows rows number
  have hcount : (routeTrieFind (loadRoutes 1 (rows.map AreaRow.call)) number
        (routeArrayCreate 1)).2
      = if badInput (loadRoutes 1 (rows.map AreaRow.call)).root number then 0
        else (routeTrieFind (loadRoutes 1 (rows.map AreaRow.call)) number
          (routeArrayCreate 1)).1.size := routeTrieNodeFind_snd _ _ _
  rw [hfind] at hcount
  rw [lcrFindArea]
  by_cases hnil : number = []
  · rw [if_pos hnil, if_pos (Or.inl hnil)]
  · rw [if_neg hnil, hareas]
    simp only [hnil, false_or, hcount, hfind]
    by_cases hbad : badInput (loadRoutes 1 (rows.map AreaRow.call)).root number = true
    · rw [if_pos hbad, if_pos hbad, if_pos rfl]
    · rw [if_neg hbad, if_neg hbad]
      cases firstId ((rowsAlong rows number).map AreaRow.id) <;> rfl

/-- **The area of a number.**  In every map that area files are loaded into, a number has the ID of
the first row with the shortest prefix it begins with, among the rows with an ID that is not 0; it
has 0 when all rows it begins with have that, and -1 exactly when it has no area. -/
theorem lcrFindArea_shortest
    (h : names.foldlM (loadAreaFile core files) (routeTrieCreate 1) = some lcr.areas)
    (number : List Char) :
    (lcrFindArea lcr number = -1 ↔ NoArea (rowsOf core files names) number) ∧
      (¬NoArea (rowsOf core files names) number →
        (∃ row, FirstShortest (rowsOf core files names) number row ∧
          lcrFindArea lcr number = row.id.val) ∨
        (∀ row ∈ rowsOf core files names, row.digits <+: number → row.id = 0) ∧
          lcrFindArea lcr number = 0) := by
  have hloaded : names.foldlM (loadAreaFile core files) (loadRoutes 1 []) = some lcr.areas := h
  obtain ⟨hareas, hdigits⟩ := foldlM_loadAreaFile hloaded
  set rows := rowsOf core files names
  have harea : lcrFindArea lcr number = _ := lcrFindArea_eq hareas
  have hno : NoArea rows number ↔ (number = [] ∨
      badInput (loadRoutes 1 (rows.map AreaRow.call)).root number = true) ∨
        rowsAlong rows number = [] := by
    have hnone : rowsAlong rows number = [] ↔ ∀ row ∈ rows, ¬row.digits <+: number := by
      rw [List.eq_nil_iff_forall_not_mem]
      simp only [mem_rowsAlong hdigits, not_and]
    rw [NoArea, badInput_rows hdigits, hnone, or_assoc]
    exact or_congr_right or_comm
  by_cases hbad : number = [] ∨ badInput (loadRoutes 1 (rows.map AreaRow.call)).root number = true
  · have hnoarea := hno.mpr (Or.inl hbad)
    rw [if_pos hbad] at harea
    exact ⟨⟨fun _ => hnoarea, fun _ => harea⟩, fun hsome => absurd hnoarea hsome⟩
  · rw [if_neg hbad] at harea
    cases hfirst : firstId ((rowsAlong rows number).map AreaRow.id) with
    | none =>
      rw [hfirst] at harea
      rw [firstId_eq_none_iff, List.map_eq_nil_iff] at hfirst
      have hnoarea := hno.mpr (Or.inr hfirst)
      exact ⟨⟨fun _ => hnoarea, fun _ => harea⟩, fun hsome => absurd hnoarea hsome⟩
    | some id =>
      rw [hfirst] at harea
      have hne : rowsAlong rows number ≠ [] := fun hnil => by
        rw [hnil] at hfirst
        cases hfirst
      have hsome : ¬NoArea rows number := fun hnoarea => (hno.mp hnoarea).elim hbad hne
      refine ⟨⟨fun hminus => ?_, fun hnoarea => absurd hnoarea hsome⟩, fun _ => ?_⟩
      · rw [harea] at hminus
        simp only at hminus
        omega
      · rw [firstId, List.find?_map] at hfirst
        cases hfind : (rowsAlong rows number).find? fun r => decide (r.id ≠ 0) with
        | some row =>
          have hid : row.id = id := by
            change (Option.map AreaRow.id ((rowsAlong rows number).find?
              fun r => decide (r.id ≠ 0))).or _ = some id at hfirst
            rw [hfind] at hfirst
            exact Option.some.inj hfirst
          exact Or.inl ⟨row, firstShortest_of_find? hdigits hfind, by rw [harea, hid]⟩
        | none =>
          have hzero : ∀ row ∈ rows, row.digits <+: number → row.id = 0 := by
            intro row hrow hpre
            have hnone := List.find?_eq_none.mp hfind row
              ((mem_rowsAlong hdigits).mpr ⟨hrow, hpre⟩)
            simpa using hnone
          have hid : id = 0 := by
            change (Option.map AreaRow.id ((rowsAlong rows number).find?
              fun r => decide (r.id ≠ 0))).or _ = some id at hfirst
            rw [hfind, if_neg (by simpa using hne)] at hfirst
            exact (Option.some.inj hfirst).symm
          exact Or.inr ⟨hzero, by rw [harea, hid]; rfl⟩

/-- A state, and a town of another one. -/
def townFiles : Files := fun name =>
  if name = "areas".toList then some "2,NJ\n201,NY".toList else none

lemma foldlM_townFiles : (["areas".toList].foldlM (loadAreaFile plainCore townFiles)
    (routeTrieCreate 1)).isSome = true := by
  with_unfolding_all decide

def townLcr : Lcr := { lcrCreate 0 with areas := Option.get _ foldlM_townFiles }

theorem lcrFindArea_shortest_none : lcrFindArea townLcr "305".toList = -1 :=
  (lcrFindArea_shortest (Option.some_get foldlM_townFiles).symm "305".toList).1.mpr
    (Or.inr (Or.inl (by with_unfolding_all decide)))

/-- The area of a number by the last row of its longest prefix. -/
def LastLongest (rows : List AreaRow) (number : List Char) (row : AreaRow) : Prop :=
  ∃ earlier later, rows = earlier ++ row :: later ∧ row.digits <+: number ∧
    (∀ r ∈ earlier, r.digits <+: number → r.digits.length ≤ row.digits.length) ∧
    ∀ r ∈ later, r.digits <+: number → r.digits.length < row.digits.length

/-- A number of the town has the area of the state. -/
theorem not_lcrFindArea_longest : ¬∀ (core : Core) (files : Files) (names : List (List Char))
    (lcr : Lcr), names.foldlM (loadAreaFile core files) (routeTrieCreate 1) = some lcr.areas →
    ∀ number, (∀ row, LastLongest (rowsOf core files names) number row →
        lcrFindArea lcr number = row.id.val) ∧
      (lcrFindArea lcr number = -1 ↔ ∀ row ∈ rowsOf core files names, ¬row.digits <+: number) := by
  intro h
  have htown := (h plainCore townFiles ["areas".toList] townLcr
    (Option.some_get foldlM_townFiles).symm "2015".toList).1 ⟨"201".toList, "NY".toList, 2⟩
    ⟨[⟨['2'], "NJ".toList, 1⟩], [], by with_unfolding_all decide, by decide, by decide, by decide⟩
  exact absurd htown (by with_unfolding_all decide)

end FreeswitchContrib.SimpleLcr

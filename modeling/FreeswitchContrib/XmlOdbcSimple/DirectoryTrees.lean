import FreeswitchContrib.XmlOdbc.CleanStart
import FreeswitchContrib.XmlOdbcSimple.Reloads

/-!
# The directory that a search returns

`lookup_callback` adds a user for each row, and the params and the variables of the user where the
first of them is found.  All of them take their place from one offset, which is counted up.

* `Callback.addChild` — `switch_xml_add_child_d` with the offset of the callback.
* `Changes` — the tree was changed at one place only.
* `IsUser` — what a user is to be for its row.
* **`search_users`** — the domain of the directory has the users of all rows, and nothing else.
-/

namespace FreeswitchContrib.XmlOdbcSimple

open CString RoseTree
open XmlOdbc (Element OutTag newXml insertTag onTag setAttr insertTag_last all_insertTag mem_setAttr
  nodup_setAttr)

/-! ## Rows -/

/-- The names of the columns, and the values. -/
abbrev Row := List (Text × Text)

/-- `globals.attrs_v`, `globals.params_v` and `globals.variables_v` -/
structure Columns where
  attrs : List Text
  params : List Text
  vars : List Text

/-- The value of the first column with this name, if it is not empty. -/
def Row.given (row : Row) (name : Text) : Option Text :=
  match row.find? (·.1 == name) with
  | some column => if column.2 = [] then none else some column.2
  | none => none

/-- `callback_t` -/
structure Callback where
  /-- the whole directory -/
  tree : RoseTree OutTag
  /-- where `xml` is in it -/
  xml : List ℕ
  off : ℕ
  rowcount : ℕ

namespace Callback

/-- `switch_xml_add_child_d(parent, name, cbt->off++)`: the new child, and where it is. -/
def addChild (cbt : Callback) (parent : List ℕ) (name : Text) : Callback × List ℕ :=
  let before := (cbt.tree.get? parent).elim 0 fun cur =>
    (cur.children.takeWhile (·.label.off ≤ cbt.off)).length
  ({ cbt with
      tree := cbt.tree.modify parent (insertTag ⟨⟨name, []⟩, cbt.off⟩)
      off := cbt.off + 1 },
    parent ++ [before])

/-- `switch_xml_set_attr_d` -/
def setAttr (cbt : Callback) (tag : List ℕ) (name value : Text) : Callback :=
  { cbt with
    tree := cbt.tree.modify tag
      (onTag fun out => { out with attrs := XmlOdbc.setAttr out.attrs name value }) }

/-- The loop over the attributes. -/
def setAttrs (row : Row) (user : List ℕ) : List Text → Callback → Callback
  | [], cbt => cbt
  | name :: names, cbt =>
    match row.given name with
    | some value => setAttrs row user names (cbt.setAttr user name value)
    | none => setAttrs row user names cbt

/-- A param or a variable in its parent. -/
def addPair (cbt : Callback) (childName : Text) (parent : List ℕ) (name value : Text) : Callback :=
  let sub := cbt.addChild parent childName
  (sub.1.setAttr sub.2 "name".toList name).setAttr sub.2 "value".toList value

/-- The parent of the params or the variables, which is added if there is none. -/
def withParent (cbt : Callback) (user : List ℕ) (parentName : Text) :
    Option (List ℕ) → Callback × List ℕ
  | some parent => (cbt, parent)
  | none => cbt.addChild user parentName

/-- The loop over the params or the variables, with the parent that they have if there is one. -/
def addPairs (parentName childName : Text) (row : Row) (user : List ℕ) :
    List Text → Option (List ℕ) → Callback → Callback
  | [], _, cbt => cbt
  | name :: names, parent, cbt =>
    match row.given name with
    | some value =>
      let added := cbt.withParent user parentName parent
      addPairs parentName childName row user names (some added.2)
        (added.1.addPair childName added.2 name value)
    | none => addPairs parentName childName row user names parent cbt

end Callback

/-- `lookup_callback` -/
def lookupCallback (columns : Columns) (cbt : Callback) (row : Row) : Callback :=
  let cbt := { cbt with rowcount := cbt.rowcount + 1 }
  let user := cbt.addChild cbt.xml "user".toList
  let cbt := user.1.setAttrs row user.2 columns.attrs
  let cbt := cbt.addPairs "params".toList "param".toList row user.2 columns.params none
  cbt.addPairs "variables".toList "variable".toList row user.2 columns.vars none

/-- The directory before the rows. -/
def createDirectory (domain : Text) : Callback :=
  let cbt : Callback := ⟨.node ⟨⟨"directory".toList, []⟩, 0⟩ [], [], 0, 0⟩
  let cbt := cbt.setAttr [] "type".toList "freeswitch/xml".toList
  let dir := cbt.addChild [] "section".toList
  let cbt := dir.1.setAttr dir.2 "name".toList "directory".toList
  let xml := cbt.addChild dir.2 "domain".toList
  { xml.1.setAttr xml.2 "name".toList domain with xml := xml.2 }

/-- What a search uses: the queries, the expansion of headers, and the rows for which the database
calls back. -/
structure Lookups where
  queries : Text → Option Text
  expandHeaders : List Header → Text → Text
  exec : Text → Text → List Row

/-- `xml_odbc_simple_search` for an event with these headers. -/
def search (columns : Columns) (lookups : Lookups) (headers : List Header) :
    Option (RoseTree OutTag) :=
  match headerValue headers "domain".toList with
  | none => none
  | some domain =>
    let purpose := (headerValue headers "purpose".toList).getD "default".toList
    match lookups.queries purpose with
    -- the directory is freed again
    | none => none
    | some value =>
      let rows := lookups.exec purpose (lookups.expandHeaders headers value)
      let cbt := rows.foldl (lookupCallback columns) (createDirectory domain)
      if cbt.rowcount = 0 then none else some cbt.tree

/-! ## The statement -/

/-- The pairs of a user: of the columns that are named and given, in the order of the names. -/
def Row.pairs (row : Row) (names : List Text) : List (Text × Text) :=
  names.filterMap fun name => (row.given name).map (name, ·)

def pairTag (name : Text) (pair : Text × Text) : RoseTree Element :=
  .node ⟨name, [("name".toList, pair.1), ("value".toList, pair.2)]⟩ []

/-- The params or the variables of a user: none if there is no pair. -/
def group (parentName childName : Text) (pairs : List (Text × Text)) : List (RoseTree Element) :=
  if pairs = [] then [] else [.node ⟨parentName, []⟩ (pairs.map (pairTag childName))]

/-- The tag is the user of the row. -/
structure IsUser (columns : Columns) (row : Row) (user : RoseTree Element) : Prop where
  name : user.label.name = "user".toList
  /-- no attribute is there twice -/
  once : (user.label.attrs.map Prod.fst).Nodup
  attrs : ∀ name value, (name, value) ∈ user.label.attrs ↔
    name ∈ columns.attrs ∧ row.given name = some value
  children : user.children =
    group "params".toList "param".toList (row.pairs columns.params) ++
      group "variables".toList "variable".toList (row.pairs columns.vars)

/-- The directory with these users. -/
def directory (domain : Text) (users : List (RoseTree Element)) : RoseTree Element :=
  .node ⟨"directory".toList, [("type".toList, "freeswitch/xml".toList)]⟩
    [.node ⟨"section".toList, [("name".toList, "directory".toList)]⟩
      [.node ⟨"domain".toList, [("name".toList, domain)]⟩ users]]

/-! ## Children that are added -/

variable {cbt cbt' cbt'' : Callback} {path : List ℕ} {s : RoseTree Element}
  {name value parentName childName : Text} {row : Row} {columns : Columns}

/-- The tree without the offsets. -/
def Callback.shown (cbt : Callback) : RoseTree Element := cbt.tree.map OutTag.toElement

/-- All tags come before the offset. -/
def Callback.Counted (cbt : Callback) : Prop := cbt.tree.All (·.off < cbt.off)

/-- Behind the children that there are. -/
def append (new : List (RoseTree Element)) (s : RoseTree Element) : RoseTree Element :=
  .node s.label (s.children ++ new)

lemma append_nil (s : RoseTree Element) : append [] s = s := by
  cases s
  exact congrArg _ (List.append_nil _)

/-- The tree was changed at this place only. -/
structure Changes (cbt cbt' : Callback) (path : List ℕ)
    (f : RoseTree Element → RoseTree Element) : Prop where
  shown : cbt'.shown = cbt.shown.modify path f
  counted : cbt'.Counted
  same : cbt'.xml = cbt.xml ∧ cbt'.rowcount = cbt.rowcount

lemma Changes.refl (h : cbt.Counted) : Changes cbt cbt path fun s => s :=
  ⟨(modify_id cbt.shown path).symm, h, rfl, rfl⟩

lemma Changes.trans {f g : RoseTree Element → RoseTree Element} (h : Changes cbt cbt' path f)
    (h' : Changes cbt' cbt'' path g) : Changes cbt cbt'' path (g ∘ f) := by
  refine ⟨?_, h'.counted, h'.same.1.trans h.same.1, h'.same.2.trans h.same.2⟩
  rw [h'.shown, h.shown, modify_modify]

/-- A change that does the same to what is there. -/
lemma Changes.congr {f g : RoseTree Element → RoseTree Element} (h : Changes cbt cbt' path f)
    (hs : cbt.shown.get? path = some s) (hfg : f s = g s) : Changes cbt cbt' path g :=
  ⟨h.shown.trans (modify_congr hs hfg), h.counted, h.same⟩

lemma Changes.get? {f : RoseTree Element → RoseTree Element} (h : Changes cbt cbt' path f)
    (hs : cbt.shown.get? path = some s) : cbt'.shown.get? path = some (f s) := by
  rw [h.shown, get?_modify, hs, Option.map_some]

/-- A change of the last child is a change of its parent. -/
lemma Changes.of_last {f : RoseTree Element → RoseTree Element} {a : Element}
    {cs : List (RoseTree Element)} {t : RoseTree Element}
    (h : Changes cbt cbt' (path ++ [cs.length]) f)
    (hs : cbt.shown.get? path = some (.node a (cs ++ [t]))) :
    Changes cbt cbt' path fun _ => .node a (cs ++ [f t]) := by
  refine ⟨?_, h.counted, h.same⟩
  rw [h.shown, modify_append]
  exact modify_congr hs (modify_last a cs t f)

/-- What is at a place of the tree with the offsets. -/
lemma exists_tree (hs : cbt.shown.get? path = some s) :
    ∃ cur, cbt.tree.get? path = some cur ∧ cur.map OutTag.toElement = s := by
  rw [Callback.shown, get?_map] at hs
  exact Option.map_eq_some_iff.1 hs

lemma setAttr_changes (name value : Text) (h : cbt.Counted) (hs : cbt.shown.get? path = some s) :
    Changes cbt (cbt.setAttr path name value) path fun s =>
      .node { s.label with attrs := XmlOdbc.setAttr s.label.attrs name value } s.children := by
  obtain ⟨cur, hcur, rfl⟩ := exists_tree hs
  refine ⟨?_, h.modify fun s hs => .node hs.label fun c hc => hs.child hc, rfl, rfl⟩
  refine map_modify hcur ?_
  rw [onTag, map, mapForest_eq, label_map, children_map]

/-- A child comes behind the others, and that is where it is looked for. -/
lemma addChild_changes (name : Text) (h : cbt.Counted) (hs : cbt.shown.get? path = some s) :
    Changes cbt (cbt.addChild path name).1 path (append [.node ⟨name, []⟩ []]) ∧
      (cbt.addChild path name).2 = path ++ [s.children.length] := by
  obtain ⟨cur, hcur, rfl⟩ := exists_tree hs
  have hoffs : cur.All (·.off ≤ cbt.off) := (h.get? hcur).mono fun _ => Nat.le_of_lt
  obtain ⟨hinsert, hlength⟩ := insertTag_last
    (show cur.All (·.off ≤ (⟨⟨name, []⟩, cbt.off⟩ : OutTag).off) from hoffs)
  refine ⟨⟨?_, ?_, rfl, rfl⟩, ?_⟩
  · refine map_modify hcur ?_
    rw [hinsert, map, mapForest_eq, List.map_append, append, label_map, children_map]
    rfl
  · have hgrown := h.mono fun _ => Nat.lt_succ_of_lt
    exact hgrown.modify fun s hs => all_insertTag hs (Nat.lt_succ_self cbt.off)
  · rw [Callback.addChild, hcur, Option.elim_some, hlength, children_map, List.length_map]

lemma addPair_changes (childName name value : Text) (h : cbt.Counted)
    (hs : cbt.shown.get? path = some s) :
    Changes cbt (cbt.addPair childName path name value) path
      (append [pairTag childName (name, value)]) := by
  obtain ⟨hadd, hsub⟩ := addChild_changes childName h hs
  rw [Callback.addPair, hsub]
  have hplace := hadd.get? hs
  have hchild : (cbt.addChild path childName).1.shown.get? (path ++ [s.children.length]) =
      some (.node ⟨childName, []⟩ []) := by
    rw [get?_append, hplace]
    exact get?_last _ _ _
  have hname := setAttr_changes "name".toList name hadd.counted hchild
  have hvalue := setAttr_changes "value".toList value hname.counted
    (hname.get? hchild)
  refine (hadd.trans ((hname.trans hvalue).of_last hplace)).congr hs ?_
  rfl

lemma pairs_cons_none {names : List Text} (h : row.given name = none) :
    row.pairs (name :: names) = row.pairs names := by
  rw [Row.pairs, List.filterMap_cons, h]
  rfl

lemma pairs_cons_some {names : List Text} (h : row.given name = some value) :
    row.pairs (name :: names) = (name, value) :: row.pairs names := by
  rw [Row.pairs, List.filterMap_cons, h]
  rfl

lemma group_append (pairs : List (Text × Text)) (pair : Text × Text) :
    group parentName childName (pairs ++ [pair]) =
      [.node ⟨parentName, []⟩ (pairs.map (pairTag childName) ++ [pairTag childName pair])] := by
  have hnonempty : pairs ++ [pair] ≠ [] :=
    List.append_ne_nil_of_right_ne_nil _ (List.cons_ne_nil _ _)
  rw [group, if_neg hnonempty, List.map_append]
  rfl

variable {a : Element} {cs : List (RoseTree Element)} {collected : List (Text × Text)}
  {parent : Option (List ℕ)} {names : List Text}

/-- Afterwards the parent is there, also if it has no pair yet. -/
lemma withParent_changes (h : cbt.Counted)
    (hs : cbt.shown.get? path = some (.node a (cs ++ group parentName childName collected)))
    (hparent : parent = if collected = [] then none else some (path ++ [cs.length])) :
    Changes cbt (cbt.withParent path parentName parent).1 path (fun _ => .node a
        (cs ++ [.node ⟨parentName, []⟩ (collected.map (pairTag childName))])) ∧
      (cbt.withParent path parentName parent).2 = path ++ [cs.length] := by
  by_cases hnone : collected = []
  · subst hnone
    rw [if_pos rfl] at hparent
    subst hparent
    rw [group, if_pos rfl, List.append_nil] at hs
    obtain ⟨hadd, hplace⟩ := addChild_changes parentName h hs
    exact ⟨hadd.congr hs rfl, hplace⟩
  · rw [if_neg hnone] at hparent
    subst hparent
    rw [group, if_neg hnone] at hs
    exact ⟨(Changes.refl h).congr hs rfl, rfl⟩

/-- The first pair brings its parent, and the others come behind it. -/
lemma addPairs_changes (h : cbt.Counted)
    (hs : cbt.shown.get? path = some (.node a (cs ++ group parentName childName collected)))
    (hparent : parent = if collected = [] then none else some (path ++ [cs.length])) :
    Changes cbt (cbt.addPairs parentName childName row path names parent) path fun _ =>
      .node a (cs ++ group parentName childName (collected ++ row.pairs names)) := by
  induction names generalizing cbt collected parent with
  | nil =>
    refine (Changes.refl h).congr hs ?_
    rw [Row.pairs, List.filterMap_nil, List.append_nil]
  | cons name names ih =>
    unfold Callback.addPairs
    cases hgiven : row.given name with
    | none =>
      rw [pairs_cons_none hgiven]
      exact ih h hs hparent
    | some value =>
      rw [pairs_cons_some hgiven]
      obtain ⟨hwith, hplace⟩ := withParent_changes h hs hparent
      have hparentTag := hwith.get? hs
      have hsub : (cbt.withParent path parentName parent).1.shown.get? (path ++ [cs.length]) =
          some (.node ⟨parentName, []⟩ (collected.map (pairTag childName))) := by
        rw [get?_append, hparentTag]
        exact get?_last _ _ _
      have hpair := (addPair_changes childName name value hwith.counted hsub).of_last hparentTag
      have hnonempty : collected ++ [(name, value)] ≠ [] := List.append_ne_nil_of_right_ne_nil _
        (List.cons_ne_nil _ _)
      have hone : Changes cbt ((cbt.withParent path parentName parent).1.addPair childName
          (path ++ [cs.length]) name value) path fun _ =>
            .node a (cs ++ group parentName childName (collected ++ [(name, value)])) := by
        refine (hwith.trans hpair).congr hs ?_
        rw [group_append]
        rfl
      have hrest := ih hone.counted (hone.get? hs)
        (if_neg hnonempty).symm
      rw [List.append_assoc, List.singleton_append] at hrest
      dsimp only
      rw [hplace]
      exact (hone.trans hrest).congr hs rfl

/-- The loop over the params or the variables of a user. -/
lemma addPairs_start (parentName childName : Text) (row : Row) (names : List Text)
    (h : cbt.Counted) (hs : cbt.shown.get? path = some s) :
    Changes cbt (cbt.addPairs parentName childName row path names none) path
      (append (group parentName childName (row.pairs names))) := by
  cases s with
  | node a cs =>
    have hnone : cbt.shown.get? path = some (.node a (cs ++ group parentName childName [])) := by
      rw [hs, group, if_pos rfl, List.append_nil]
    exact (addPairs_changes h hnone rfl).congr hs rfl

/-! ## Attributes -/

variable {attrs : List (Text × Text)}

/-- The attributes after the loop. -/
def givenAttrs (row : Row) (names : List Text) (attrs : List (Text × Text)) :
    List (Text × Text) :=
  (row.pairs names).foldl (fun attrs pair => XmlOdbc.setAttr attrs pair.1 pair.2) attrs

lemma setAttrs_changes (row : Row) (names : List Text) (h : cbt.Counted)
    (hs : cbt.shown.get? path = some s) :
    Changes cbt (cbt.setAttrs row path names) path fun s =>
      .node { s.label with attrs := givenAttrs row names s.label.attrs } s.children := by
  induction names generalizing cbt s with
  | nil =>
    refine (Changes.refl h).congr hs ?_
    cases s
    rfl
  | cons name names ih =>
    unfold Callback.setAttrs givenAttrs
    cases hgiven : row.given name with
    | none =>
      rw [pairs_cons_none hgiven]
      exact ih h hs
    | some value =>
      rw [pairs_cons_some hgiven]
      have hset := setAttr_changes name value h hs
      exact (hset.trans (ih hset.counted (hset.get? hs))).congr hs rfl

/-- The attributes of a user, which were set from the row so far. -/
structure AttrsOf (row : Row) (named : Text → Prop) (attrs : List (Text × Text)) : Prop where
  once : (attrs.map Prod.fst).Nodup
  mem : ∀ name value, (name, value) ∈ attrs ↔ named name ∧ row.given name = some value

lemma givenAttrs_attrsOf {named : Text → Prop} (names : List Text) (h : AttrsOf row named attrs) :
    AttrsOf row (fun name => named name ∨ name ∈ names) (givenAttrs row names attrs) := by
  induction names generalizing attrs named with
  | nil =>
    refine ⟨h.once, fun name value => (h.mem name value).trans ?_⟩
    rw [or_iff_left List.not_mem_nil]
  | cons name names ih =>
    unfold givenAttrs
    cases hgiven : row.given name with
    | none =>
      rw [pairs_cons_none hgiven]
      have hrest := ih h
      refine ⟨hrest.once, fun n v => (hrest.mem n v).trans (and_congr_left fun hv => ?_)⟩
      refine or_congr_right (List.mem_cons.trans (or_iff_right ?_)).symm
      rintro rfl
      cases hgiven.symm.trans hv
    | some value =>
      rw [pairs_cons_some hgiven]
      have hset : AttrsOf row (fun n => named n ∨ n = name) (XmlOdbc.setAttr attrs name value) := by
        refine ⟨nodup_setAttr h.once, fun n v => ?_⟩
        rw [mem_setAttr h.once]
        split_ifs with hname
        · subst hname
          rw [hgiven, Option.some.injEq, eq_comm]
          exact (and_iff_right (Or.inr rfl)).symm
        · rw [h.mem, or_iff_left hname]
      have hrest := ih hset
      refine ⟨hrest.once, fun n v => (hrest.mem n v).trans (and_congr_left fun _ => ?_)⟩
      rw [or_assoc, List.mem_cons]

/-! ## Users -/

variable {users : List (RoseTree Element)}

/-- A row is a user behind the others. -/
lemma lookupCallback_user (columns : Columns) (row : Row) (h : cbt.Counted)
    (hs : cbt.shown.get? cbt.xml = some s) :
    ∃ user, IsUser columns row user ∧ Changes { cbt with rowcount := cbt.rowcount + 1 }
      (lookupCallback columns cbt row) cbt.xml (append [user]) := by
  let counted := { cbt with rowcount := cbt.rowcount + 1 }
  have hcounted : counted.Counted := h
  have hdomain : counted.shown.get? counted.xml = some s := hs
  obtain ⟨hadd, hplace⟩ := addChild_changes "user".toList hcounted hdomain
  have hparent := hadd.get? hdomain
  have hnew : (counted.addChild counted.xml "user".toList).1.shown.get?
      (counted.xml ++ [s.children.length]) = some (.node ⟨"user".toList, []⟩ []) := by
    rw [get?_append, hparent]
    exact get?_last _ _ _
  have hattrs := setAttrs_changes row columns.attrs hadd.counted hnew
  have hparams := addPairs_start "params".toList "param".toList row columns.params
    hattrs.counted (hattrs.get? hnew)
  have hvars := addPairs_start "variables".toList "variable".toList row columns.vars
    hparams.counted (hparams.get? (hattrs.get? hnew))
  have huser := (hattrs.trans (hparams.trans hvars)).of_last hparent
  have hnone : AttrsOf row (fun _ => False) [] :=
    ⟨List.Pairwise.nil, fun _ _ => iff_of_false List.not_mem_nil fun h => h.1⟩
  have hgiven := givenAttrs_attrsOf columns.attrs hnone
  let user : RoseTree Element := .node ⟨"user".toList, givenAttrs row columns.attrs []⟩
    (group "params".toList "param".toList (row.pairs columns.params) ++
      group "variables".toList "variable".toList (row.pairs columns.vars))
  refine ⟨user, ⟨rfl, hgiven.once, fun name value => ?_, rfl⟩, ?_⟩
  · exact (hgiven.mem name value).trans (and_congr_left fun _ => or_iff_right not_false)
  · have hboth : Changes _ _ _ (append [user]) := (hadd.trans huser).congr hdomain rfl
    rw [lookupCallback]
    dsimp only
    rw [hplace]
    exact hboth

/-- The users of all rows come behind those that there are. -/
lemma lookups_users (columns : Columns) (rows : List Row) (h : cbt.Counted)
    (hs : cbt.shown.get? cbt.xml = some s) :
    ∃ users, List.Forall₂ (IsUser columns) rows users ∧
      (rows.foldl (lookupCallback columns) cbt).shown = cbt.shown.modify cbt.xml (append users) ∧
      (rows.foldl (lookupCallback columns) cbt).rowcount = cbt.rowcount + rows.length := by
  induction rows generalizing cbt s with
  | nil =>
    refine ⟨[], .nil, ?_, rfl⟩
    exact (modify_id _ _).symm.trans (modify_congr hs (append_nil s).symm)
  | cons row rows ih =>
    obtain ⟨user, huser, hone⟩ := lookupCallback_user columns row h hs
    have hdomain : (lookupCallback columns cbt row).shown.get?
        (lookupCallback columns cbt row).xml = some (append [user] s) := by
      rw [hone.same.1]
      exact hone.get? hs
    obtain ⟨users, husers, hrest, hcount⟩ := ih hone.counted hdomain
    refine ⟨user :: users, .cons huser husers, ?_, ?_⟩
    · rw [List.foldl_cons, hrest, hone.same.1, hone.shown, modify_modify]
      refine modify_congr hs ?_
      rw [Function.comp_apply, append, append, append, label, children, List.append_assoc,
        List.singleton_append]
    · rw [List.foldl_cons, hcount, hone.same.2, List.length_cons]
      exact Nat.succ_add_eq_add_succ _ _

lemma createDirectory_counted (domain : Text) : (createDirectory domain).Counted := by
  refine .node Nat.two_pos fun dir hdir => ?_
  cases List.mem_singleton.mp hdir
  refine .node Nat.two_pos fun child hchild => ?_
  cases List.mem_singleton.mp hchild
  exact .node Nat.one_lt_two fun _ h => nomatch h

/-- **The domain of the directory has exactly the users of the rows**, in their order, and there is
no directory exactly where there is no row. -/
theorem search_users (columns : Columns) (lookups : Lookups) (headers : List Header)
    {domain query : Text} (hdomain : headerValue headers "domain".toList = some domain)
    (hquery : lookups.queries ((headerValue headers "purpose".toList).getD "default".toList) =
      some query) :
    let rows := lookups.exec ((headerValue headers "purpose".toList).getD "default".toList)
      (lookups.expandHeaders headers query)
    (search columns lookups headers = none ↔ rows = []) ∧
      ∀ tree, search columns lookups headers = some tree →
        ∃ users, List.Forall₂ (IsUser columns) rows users ∧
          tree.map OutTag.toElement = directory domain users := by
  intro rows
  have hsearch : search columns lookups headers =
      if (rows.foldl (lookupCallback columns) (createDirectory domain)).rowcount = 0 then none
      else some (rows.foldl (lookupCallback columns) (createDirectory domain)).tree := by
    rw [search, hdomain]
    dsimp only
    rw [hquery]
  have hdomainTag : (createDirectory domain).shown.get? (createDirectory domain).xml =
      some (.node ⟨"domain".toList, [("name".toList, domain)]⟩ []) := rfl
  obtain ⟨users, husers, hshown, hcount⟩ := lookups_users columns rows
    (createDirectory_counted domain) hdomainTag
  have hzero : (createDirectory domain).rowcount + rows.length = 0 ↔ rows = [] :=
    (Iff.of_eq (congrArg (· = 0) (Nat.zero_add _))).trans List.length_eq_zero_iff
  rw [hsearch, hcount]
  split_ifs with hrows
  · exact ⟨iff_of_true rfl (hzero.mp hrows), fun _ h => nomatch h⟩
  · refine ⟨iff_of_false (fun h => nomatch h) fun h => hrows (hzero.mpr h), fun tree htree => ?_⟩
    cases htree
    exact ⟨users, husers, hshown⟩

/-- A query with one row, of which one column is empty. -/
def aliceRow : Row :=
  [("id".toList, "alice".toList), ("password".toList, "secret".toList), ("context".toList, [])]

def aliceColumns : Columns where
  attrs := ["id".toList, "cidr".toList]
  params := ["password".toList]
  vars := ["context".toList]

def aliceLookups : Lookups where
  queries purpose := if purpose = "default".toList then some "select".toList else none
  expandHeaders _ value := value
  exec _ _ := [aliceRow]

theorem search_users_alice :
    ∃ tree, search aliceColumns aliceLookups [("domain".toList, "example".toList)] = some tree ∧
      ∃ users, List.Forall₂ (IsUser aliceColumns) [aliceRow] users ∧
        tree.map OutTag.toElement = directory "example".toList users :=
  ⟨_, rfl, (search_users aliceColumns aliceLookups [("domain".toList, "example".toList)] rfl
    rfl).2 _ rfl⟩

end FreeswitchContrib.XmlOdbcSimple
